import OfflineSchedule.Convention
/-!
# Two summaries

Of a con a summary shows what readers see of its resources, and whether there are retries. So two
summaries of a con differ in what they say of retries alone if readers see the same
(`Convention.summary_congr`), and then it is one line that makes the difference
(`Summary.text_withRetrying_eq_iff`).
-/

namespace OfflineSchedule

open Time (Instant)

namespace Summary

/-- A summary that says something else of retries. -/
def withRetrying (retrying : Bool) (x : Summary) : Summary := { x with retrying }

theorem head_withRetrying (retrying : Bool) (x : Summary) :
    (x.withRetrying retrying).head = (x.withRetrying false).head ++
      if retrying then ["  (server data is stale, retrying)"] else [] := by
  cases retrying <;> simp [head, withRetrying, title, upcoming]

/-- A summary that announces retries has one line more. -/
theorem lines_withRetrying {x : Summary} (found : x.notFound = false) :
    ∃ before after, ∀ retrying, (x.withRetrying retrying).lines =
      before ++ (if retrying then ["  (server data is stale, retrying)"] else []) ++ after := by
  refine ⟨(x.withRetrying false).head, titled "Upcoming:" x.upcomingLines ++
    titled "Announcements:" (x.newestFirst.map announcementLine) ++
    titled "Pages:" (x.pages.map pageLine), fun retrying => ?_⟩
  have found : (x.withRetrying retrying).notFound = false := found
  rw [lines, found, if_neg Bool.false_ne_true, head_withRetrying, List.append_assoc,
    List.append_assoc, ← List.append_assoc (titled _ _)]
  rfl

theorem length_text_withRetrying {x : Summary} (found : x.notFound = false) :
    (x.withRetrying false).text.length < (x.withRetrying true).text.length := by
  obtain ⟨before, after, lines⟩ := lines_withRetrying found
  have line : 0 < "  (server data is stale, retrying)\n".length := by decide
  rw [text, text, lines, lines]
  simpa [String.length_join] using line

/-- The text tells whether there are retries, unless there is no such con. -/
theorem text_withRetrying_eq_iff {retrying : Bool} {x : Summary} :
    (x.withRetrying retrying).text = x.text ↔ retrying = x.retrying ∨ x.notFound = true := by
  constructor
  · intro same
    cases found : x.notFound with
    | true => exact .inr rfl
    | false =>
      left
      have longer := length_text_withRetrying found
      have same : (x.withRetrying retrying).text = (x.withRetrying x.retrying).text := same
      cases retrying <;> cases h : x.retrying <;> simp_all
  · rintro (rfl | gone)
    · rfl
    · simp [text, lines, withRetrying, gone]

end Summary

namespace Convention

variable {c d : Convention}

/-- What readers see of the resources is all that a summary shows, but for retries. -/
theorem summary_congr (has : ∀ r, d.has r = c.has r)
    (seen : ∀ r, c.has r = true → (d.get r).sync.current = (c.get r).sync.current) (name : String)
    (now : Instant) : d.summary name now = (c.summary name now).withRetrying d.isRetrying := by
  have notFound : d.isNotFound = c.isNotFound := by
    have resources : d.resources = c.resources := by
      rw [Convention.resources, Convention.resources, funext has]
    rw [isNotFound, isNotFound, resources, Bool.eq_iff_iff, List.any_eq_true, List.any_eq_true]
    refine exists_congr fun r => and_congr_right fun mem => ?_
    rw [Sync.isNotFound, Sync.isNotFound, seen r (List.mem_filter.1 mem).2]
  have status : ∀ r, c.has r = true → (d.get r).sync.status = (c.get r).sync.status := by
    intro r present
    rw [Sync.status, Sync.status, seen r present]
  have events : d.events.sync.status = c.events.sync.status := status .events rfl
  have info : d.info.sync.status = c.info.sync.status := status .info rfl
  have pages : d.pages.sync.status = c.pages.sync.status := status .pages rfl
  have announcements : d.status? .announcements = c.status? .announcements := by
    rw [status?, status?, has]
    split
    · rename_i present
      rw [status .announcements present]
    · rfl
  have data : ∀ r, d.data r = c.data r := by
    intro r
    rw [Convention.data, Convention.data, has]
    split
    · rename_i present
      rw [Sync.dataOr, Sync.dataOr, seen r present]
    · rfl
  simp only [summary, Summary.withRetrying, notFound, events, info, pages, announcements, data]

end Convention

end OfflineSchedule
