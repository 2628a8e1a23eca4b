import Mathlib.Data.List.Permutation
import Mathlib.Order.Lattice
/-!
# Arrangements

A list is arranged by a key if it is sorted by it and elements with the same key stand in the order
in which they were given. A given list has exactly one arrangement (`IsArranged.unique`), which a
merge sort finds (`isArranged_mergeSort`).
-/

namespace OfflineSchedule

variable {α κ : Type} [LinearOrder κ] {key : α → κ} {given listed : List α}

/-- The list `listed` has the elements of `given`, in the order of their keys. Those with the same
key keep their order. -/
structure IsArranged (key : α → κ) (given listed : List α) : Prop where
  perm : listed.Perm given
  sorted : listed.Pairwise fun a b => key a ≤ key b
  stable : ∀ k, listed.filter (key · = k) = given.filter (key · = k)

theorem isArranged_mergeSort {le : α → α → Bool} (le_iff : ∀ a b, le a b = true ↔ key a ≤ key b)
    (given : List α) : IsArranged key given (given.mergeSort le) := by
  have trans : ∀ a b c, le a b = true → le b c = true → le a c = true := fun a b c ab bc =>
    (le_iff a c).2 (le_trans ((le_iff a b).1 ab) ((le_iff b c).1 bc))
  have total : ∀ a b, (le a b || le b a) = true := fun a b => by
    rw [Bool.or_eq_true, le_iff, le_iff]
    exact le_total _ _
  have perm : (given.mergeSort le).Perm given := List.mergeSort_perm given le
  refine ⟨perm, (List.pairwise_mergeSort trans total given).imp fun h => (le_iff _ _).1 h,
    fun k => ?_⟩
  -- Those with the key `k` are sorted as they stand, so they keep their order.
  have alike : (given.filter (key · = k)).Pairwise fun a b => le a b = true := by
    refine List.pairwise_of_forall_mem_list fun a memA b memB => (le_iff a b).2 ?_
    have keyA : key a = k := by simpa using (List.mem_filter.1 memA).2
    have keyB : key b = k := by simpa using (List.mem_filter.1 memB).2
    exact le_of_eq (keyA.trans keyB.symm)
  have kept : (given.filter (key · = k)).Sublist (given.mergeSort le) :=
    List.sublist_mergeSort trans total alike List.filter_sublist
  have among := kept.filter (key · = k)
  simp only [List.filter_filter, Bool.and_self] at among
  exact (among.eq_of_length (perm.filter _).length_eq.symm).symm

/-- There is one arrangement only. -/
theorem IsArranged.unique {listed' : List α} (h : IsArranged key given listed)
    (h' : IsArranged key given listed') : listed = listed' := by
  have perm : listed.Perm listed' := h.perm.trans h'.perm.symm
  have stable : ∀ k, listed.filter (key · = k) = listed'.filter (key · = k) :=
    fun k => (h.stable k).trans (h'.stable k).symm
  have sorted := h.sorted
  have sorted' := h'.sorted
  clear h h'
  induction listed generalizing listed' with
  | nil => exact perm.nil_eq
  | cons a l ih =>
    obtain ⟨b, l', rfl⟩ : ∃ b l', listed' = b :: l' :=
      List.exists_cons_of_ne_nil fun empty => List.cons_ne_nil a l (empty ▸ perm).eq_nil
    obtain ⟨first, tail⟩ := List.pairwise_cons.1 sorted
    obtain ⟨first', tail'⟩ := List.pairwise_cons.1 sorted'
    -- Each of the two heads comes first in one list and somewhere in the other.
    have least : ∀ c ∈ a :: l, key a ≤ key c := List.forall_mem_cons.2 ⟨le_rfl, first⟩
    have least' : ∀ c ∈ b :: l', key b ≤ key c := List.forall_mem_cons.2 ⟨le_rfl, first'⟩
    have same : key b = key a :=
      le_antisymm (least' a (perm.mem_iff.1 List.mem_cons_self))
        (least b (perm.mem_iff.2 List.mem_cons_self))
    have heads := stable (key a)
    rw [List.filter_cons_of_pos (by simp), List.filter_cons_of_pos (by simp [same])] at heads
    obtain rfl : a = b := (List.cons.inj heads).1
    refine congrArg _ (ih perm.cons_inv (fun k => ?_) tail tail')
    have rest := stable k
    by_cases h : key a = k
    · rw [List.filter_cons_of_pos (by simpa using h),
        List.filter_cons_of_pos (by simpa using h)] at rest
      exact (List.cons.inj rest).2
    · rwa [List.filter_cons_of_neg (by simpa using h),
        List.filter_cons_of_neg (by simpa using h)] at rest

theorem IsArranged.iff_eq (h : IsArranged key given listed) (l : List α) :
    IsArranged key given l ↔ l = listed :=
  ⟨fun h' => h'.unique h, fun same => same ▸ h⟩

/-- What becomes of the elements does not matter if their keys stay. -/
theorem IsArranged.map {β : Type} (h : IsArranged key given listed) (f : α → β) (key' : β → κ)
    (same : ∀ a ∈ given, key' (f a) = key a) :
    IsArranged key' (given.map f) (listed.map f) := by
  have same' : ∀ a ∈ listed, key' (f a) = key a := fun a mem => same a (h.perm.mem_iff.1 mem)
  refine ⟨h.perm.map f, List.pairwise_map.2 (h.sorted.imp_of_mem fun memA memB le => ?_),
    fun k => ?_⟩
  · rwa [same' _ memA, same' _ memB]
  · rw [List.filter_map, List.filter_map]
    have alike := h.stable k
    rw [← List.filter_congr fun a mem => congrArg (fun i => decide (i = k)) (same a mem),
      ← List.filter_congr fun a mem => congrArg (fun i => decide (i = k)) (same' a mem)] at alike
    exact congrArg (List.map f) alike

end OfflineSchedule
