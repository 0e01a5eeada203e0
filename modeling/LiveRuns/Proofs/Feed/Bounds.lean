import LiveRuns.Proofs.Feed.Trace
import LiveRuns.Proofs.Roster.Clamp

/-!
The bounds of what a feed shows.

The runs of a feed are written in four places only: they are emptied when the filter changes and
when a snapshot fails, clamped when one comes, and reconciled with an event.  Each of these leaves
them within the bounds, whatever they were made from, so they are within the bounds in every view.
-/

namespace LiveRuns.Feed

open Roster (Bounded bounded_nil bounded_clamp bounded_reconcile)

theorem bounded_handle {f : Feed} (h : Bounded f.options.capacity f.runs) (message : Message) :
    Bounded f.options.capacity (f.handle message).1.runs := by
  induction message using handle_cases (f := f) with
  | refused | dispose | retryDue => exact h
  | setParams selection => exact bounded_nil _
  | snapshot token result =>
    cases result with
    | ok runs => exact bounded_clamp runs _
    | error failure => exact bounded_nil _
  | signal token signal =>
    cases signal with
    | opened | malformed | failed => exact h
    | event event => exact bounded_reconcile f.runs event _

theorem bounded_course (options : Options) (selection : Selection) (messages : List Message) :
    Bounded options.capacity (course options selection messages).1.runs := by
  induction messages using List.reverseRecOn with
  | nil => exact bounded_nil _
  | append_singleton messages message ih =>
    have hnow : Bounded (course options selection messages).1.options.capacity
        (course options selection messages).1.runs := by
      rwa [course_options]
    have hnext := bounded_handle hnow message
    rw [course_options] at hnext
    rw [course_concat]
    exact hnext

/-- Whatever a feed is told, every view of it, from the empty one before it begins, shows at most as
many runs as the capacity, and no id twice.  This is so because any list at all is brought within
the bounds by an event, and by clamping. -/
theorem bounded_views_course (options : Options) (selection : Selection) (messages : List Message) :
    (∀ view ∈ {} :: views (course options selection messages).2,
        Bounded options.capacity view.runs) ∧
      (∀ runs event capacity, Bounded capacity (Roster.reconcile runs event capacity)) ∧
      ∀ runs capacity, Bounded capacity (Roster.clamp runs capacity) := by
  refine ⟨fun view hview => ?_, bounded_reconcile, bounded_clamp⟩
  rcases List.mem_cons.mp hview with rfl | hview
  · exact bounded_nil _
  · obtain ⟨before, -, rfl⟩ := exists_of_mem_views hview
    exact bounded_course options selection before

/-- A snapshot of too many runs, one of them twice, and an event on a run that fell off its end. -/
def overlong : List Message :=
  [.snapshot 1 (.ok [.ofId "a", .ofId "b", .ofId "a", .ofId "c"]),
    .signal 2 (.event ⟨.complete, .ofId "c"⟩)]

theorem bounded_views_course_overlong :
    (course ⟨2, 0⟩ {} overlong).1.view ∈ {} :: views (course ⟨2, 0⟩ {} overlong).2 ∧
      Roster.ids (course ⟨2, 0⟩ {} overlong).1.view.runs = ["c", "a"] ∧
      Bounded 2 (course ⟨2, 0⟩ {} overlong).1.view.runs := by
  have hview : (course ⟨2, 0⟩ {} overlong).1.view ∈
      {} :: views (course ⟨2, 0⟩ {} overlong).2 :=
    List.mem_cons_of_mem _ (List.mem_of_getLast? rfl)
  exact ⟨hview, by decide, (bounded_views_course ⟨2, 0⟩ {} overlong).1 _ hview⟩

end LiveRuns.Feed
