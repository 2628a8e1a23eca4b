import OfflineSchedule.Proofs.Client.Run
import OfflineSchedule.Proofs.Convention.Apart
/-!
# What a client does for one resource

A client without a quota does for a resource what it would do if there were no others, as long as
its server answers by what it was asked for that resource (`Service.answering`). What it does is put
together of moves and requests, and each of them is a matter of one resource (`Local`).
-/

namespace OfflineSchedule

open Http (Outcome)
open Json (Value)
open Sync (Flight Move Progress)

/-! ## Servers without surprises -/

/-- A request that was made. -/
structure Asked where
  resource : Resource
  con : String
  etag : Option String
deriving DecidableEq, Repr

/-- The requests for a resource. -/
def requestsFor (r : Resource) (log : List Asked) : List Asked := log.filter (·.resource = r)

/-- Answers by what is asked for and by how many requests for the resource there have been before.
The requests are noted, the latest first. -/
def Service.answering (answers : Resource → String → Option String → Nat → Outcome Value) :
    Service (List Asked) where
  ask r con etag log := (answers r con etag (requestsFor r log).length, ⟨r, con, etag⟩ :: log)

theorem requests_own (r : Resource) (con : String) (etag : Option String) (log : List Asked) :
    requestsFor r (⟨r, con, etag⟩ :: log) = ⟨r, con, etag⟩ :: requestsFor r log := by
  simp [requestsFor]

theorem requests_other {r other : Resource} (h : r ≠ other) (con : String) (etag : Option String)
    (log : List Asked) : requestsFor r (⟨other, con, etag⟩ :: log) = requestsFor r log := by
  simp [requestsFor, Ne.symm h]

namespace Client

variable {r : Resource} {answers : Resource → String → Option String → Nat → Outcome Value}
  {c c' c'' : Client (List Asked)}

/-! ## What a resource notices -/

/-- For a resource, the clients have come to the same. -/
structure Alike (r : Resource) (c c' : Client (List Asked)) : Prop where
  scene : (c.stage.scene r).Alike (c'.stage.scene r)
  requests : requestsFor r c.server = requestsFor r c'.server

namespace Alike

theorem refl (r : Resource) (c : Client (List Asked)) : Alike r c c := ⟨.refl _, rfl⟩

theorem trans (h : Alike r c c') (h' : Alike r c' c'') : Alike r c c'' :=
  ⟨h.scene.trans h'.scene, h.requests.trans h'.requests⟩

theorem symm (h : Alike r c c') : Alike r c' c := ⟨h.scene.symm, h.requests.symm⟩

/-- A resource makes a move. -/
theorem act (h : Alike r c c') (unlimited : c.store.IsUnlimited) (m : Move) :
    (c.act r m).1 = (c'.act r m).1 ∧ Alike r (c.act r m).2 (c'.act r m).2 := by
  obtain ⟨progress, after⟩ := h.scene.move unlimited m c.store.failing
  have failing : c.store.failing = c'.store.failing := h.scene.store.failing
  rw [progress_act, progress_act, ← failing]
  refine ⟨progress, ?_, h.requests⟩
  rw [scene_act, scene_act, ← failing]
  exact after

/-- Another resource makes a move. -/
theorem act_of_ne {other : Resource} (ne : r ≠ other) (m : Move) :
    Alike r (c.act other m).2 c := ⟨c.stage.alike_next_of_ne ne m, rfl⟩

end Alike

/-! ## What concerns one resource only -/

/-- What is done for a resource depends on what the resource notices, and the others do not notice
it. -/
structure Local (f : Resource → Client (List Asked) → Progress × Client (List Asked)) : Prop where
  kind : ∀ r c, (f r c).2.store.kind = c.store.kind
  own : ∀ r c c', c.store.IsUnlimited → Alike r c c' →
    (f r c).1 = (f r c').1 ∧ Alike r (f r c).2 (f r c').2
  other : ∀ r other c, r ≠ other → Alike r (f other c).2 c

namespace Local

theorem act (m : Move) : Local fun r c => c.act r m where
  kind r c := kind_act r m c
  own _ _ _ unlimited h := h.act unlimited m
  other _ _ _ ne := Alike.act_of_ne ne m

/-- One thing after another. -/
theorem bind {f : Resource → Client (List Asked) → Progress × Client (List Asked)}
    {g : Progress → Resource → Client (List Asked) → Progress × Client (List Asked)}
    (hf : Local f) (hg : ∀ p, Local (g p)) : Local fun r c => g (f r c).1 r (f r c).2 where
  kind r c := ((hg _).kind r _).trans (hf.kind r c)
  own r c c' unlimited h := by
    obtain ⟨progress, after⟩ := hf.own r c c' unlimited h
    rw [← progress]
    exact (hg _).own r _ _ (unlimited.congr (hf.kind r c)) after
  other r other c ne := ((hg _).other r other _ ne).trans (hf.other r other c ne)

theorem pure (p : Progress) : Local fun _ c => (p, c) where
  kind _ _ := rfl
  own _ _ _ _ h := ⟨rfl, h⟩
  other r _ c _ := .refl r c

/-- The server is asked. -/
theorem answered (ticket : Nat) (f : Flight) :
    Local fun r c => c.answered (.answering answers) r ticket f where
  kind r c := kind_act r _ _
  own r c c' unlimited h := by
    have asked : Alike r
        { c with server := ⟨r, f.con, f.etag⟩ :: c.server }
        { c' with server := ⟨r, f.con, f.etag⟩ :: c'.server } :=
      ⟨h.scene, by rw [requests_own, requests_own, h.requests]⟩
    have same : answers r f.con f.etag (requestsFor r c.server).length =
        answers r f.con f.etag (requestsFor r c'.server).length := by rw [h.requests]
    unfold Client.answered Service.answering
    dsimp only
    rw [← same]
    exact asked.act unlimited _
  other r other c ne :=
    (Alike.act_of_ne ne _).trans ⟨.refl _, requests_other ne f.con f.etag c.server⟩

theorem carry (n : Nat) (p : Progress) :
    Local fun r c => c.carry (.answering answers) r n p := by
  induction n generalizing p with
  | zero => exact .pure p
  | succ n ih =>
    cases p with
    | sent ticket f =>
      simp only [carry_sent]
      exact (answered ticket f).bind (g := fun p r c => Client.carry _ r n p c) ih
    | _ => exact .pure _

theorem perform (answers : Resource → String → Option String → Nat → Outcome Value) (m : Move) :
    Local fun r c => c.perform (.answering answers) r m := by
  simp only [perform_eq]
  exact (act m).bind (g := fun p r c => Client.carry _ r requestLimit p c) (carry requestLimit)

theorem await (p : Progress) : Local (Client.await (.answering answers) p) := by
  cases p with
  | cached revalidation =>
    cases revalidation with
    | none => exact .pure _
    | some ticket => exact .perform answers (.start ticket)
  | _ => exact .pure _

end Local

/-! ## One resource after another -/

section

variable {rs : List Resource}

/-- Without a quota each resource comes to what it would come to by itself. -/
theorem Local.forEach {f : Resource → Client (List Asked) → Progress × Client (List Asked)}
    (alone : Local f) (unlimited : c.store.IsUnlimited) (distinct : rs.Nodup) :
    (Client.forEach f rs c).1 = rs.map (fun r => (r, (f r c).1)) ∧
      (∀ r ∈ rs, Alike r (Client.forEach f rs c).2 (f r c).2) ∧
      (∀ r ∉ rs, Alike r (Client.forEach f rs c).2 c) ∧
      (Client.forEach f rs c).2.store.kind = c.store.kind := by
  induction rs generalizing c with
  | nil => exact ⟨rfl, nofun, fun r _ => .refl r c, rfl⟩
  | cons a rs ih =>
    obtain ⟨notIn, distinct⟩ := List.nodup_cons.1 distinct
    have unlimited' := unlimited.congr (alone.kind a c)
    obtain ⟨results, own, others, kind⟩ := ih unlimited' distinct
    have before : ∀ r ∈ rs, Alike r (f a c).2 c := fun r mem =>
      alone.other r a c fun h => notIn (h ▸ mem)
    rw [forEach_cons]
    refine ⟨?_, fun r mem => ?_, fun r out => ?_, kind.trans (alone.kind a c)⟩
    · rw [results, List.map_cons]
      refine congrArg (_ :: ·) (List.map_congr_left fun r mem => ?_)
      rw [(alone.own r _ _ unlimited' (before r mem)).1]
    · rcases List.mem_cons.1 mem with rfl | mem
      · exact others r notIn
      · exact (own r mem).trans (alone.own r _ _ unlimited' (before r mem)).2
    · obtain ⟨ne, out⟩ := not_or.1 (mt List.mem_cons.2 out)
      exact (others r out).trans (alone.other r a c ne)

theorem Local.await_each (answers : Resource → String → Option String → Nat → Outcome Value)
    (p : Resource → Progress) : Local fun r => Client.await (.answering answers) (p r) r where
  kind r c := (await (p r)).kind r c
  own r c c' := (await (p r)).own r c c'
  other r other c := (await (p other)).other r other c

end

end Client

end OfflineSchedule
