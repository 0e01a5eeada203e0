import LiveRuns.Proofs.Feed.Settle

/-!
Rehearsals as paths.

Three things move a rehearsal: the next thing that happens without time passing, time that passes up
to the next timer while nothing else is left to happen, and the owner or a server who sends
something.  `Passes` is the relation of these moves; it also tells which messages the feed was given
on the way, and when.  Everything that can be done in a rehearsal is such a path,
`exists_passes_rehearse`, however the time is cut into advances.
-/

namespace LiveRuns.Feed

/-- Whether a message is sent by the owner: another filter, or the end. -/
def Message.IsCommand (message : Message) : Prop := message.token? = none

namespace Rehearsal

/-! ## Paths -/

/-- What the owner and the servers can do: commands and signals come, the owner goes, the views
published are looked at. -/
inductive Disturbs (r : Rehearsal) : Rehearsal → Prop where
  | intro (commands signals : List Message) (owned : Bool) (published : List View)
    (commanding : ∀ message ∈ commands, message.IsCommand)
    (signalling : ∀ message ∈ signals, ∃ token signal, message = .signal token signal) :
    Disturbs r
      { r with
        commands := r.commands ++ commands, signals := r.signals ++ signals, owned, published }

abbrev Log := List (Nat × Message)

/-- What a rehearsal can pass through, with the messages that the feed is given on the way. -/
inductive Passes (r : Rehearsal) : Log → Rehearsal → Prop where
  | here : Passes r [] r
  | next {log : Log} {r' r'' : Rehearsal} (before : Passes r log r') (next : r'.next? = some r'') :
    Passes r (log ++ (r'.told?.map (r'.now, ·)).toList) r''
  | wait {log : Log} {r' : Rehearsal} {time : Nat} (before : Passes r log r')
    (idle : r'.next? = none) (later : r'.now ≤ time) (due : ∀ timer ∈ r'.timers, time ≤ timer.due) :
    Passes r log { r' with now := time }
  | outside {log : Log} {r' r'' : Rehearsal} (before : Passes r log r')
    (disturbs : r'.Disturbs r'') : Passes r log r''

namespace Passes

variable {r r' r'' : Rehearsal} {log log' : Log}

theorem trans (h : Passes r log r') (h' : Passes r' log' r'') : Passes r (log ++ log') r'' := by
  induction h' with
  | here => rwa [List.append_nil]
  | next before next ih =>
    rw [← List.append_assoc]
    exact .next ih next
  | wait before idle later due ih => exact .wait ih idle later due
  | outside before disturbs ih => exact .outside ih disturbs

theorem now_le (h : Passes r log r') : r.now ≤ r'.now := by
  induction h with
  | here => exact Nat.le_refl _
  | next before next ih => rwa [now_of_next? next]
  | wait before idle later due ih => exact Nat.le_trans ih later
  | outside before disturbs ih => cases disturbs; exact ih

/-- The feed becomes on a path what it becomes by the messages that it is given. -/
theorem feed_eq (h : Passes r log r') : r'.feed = (r.feed.run (log.map Prod.snd)).1 := by
  induction h with
  | here => rfl
  | @next log r' r'' before next ih =>
    have hhappens := happens_of_next? next
    generalize r'.told? = told at hhappens
    cases hhappens with
    | told takes =>
      rw [deliver_feed, takes.feed, ih, List.map_append]
      show _ = (r.feed.run (_ ++ [_])).1
      rw [run_concat]
    | begun quiet first =>
      rw [begin_feed]
      simpa using ih
    | rung quiet due => simpa [ring] using ih
  | wait before idle later due ih => exact ih
  | outside before disturbs ih => cases disturbs; exact ih

/-- One path after another, both with whatever log they have. -/
theorem exists_trans (h : ∃ log, Passes r log r') (h' : ∃ log, Passes r' log r'') :
    ∃ log, Passes r log r'' := by
  obtain ⟨log, h⟩ := h
  obtain ⟨log', h'⟩ := h'
  exact ⟨log ++ log', h.trans h'⟩

end Passes

theorem exists_passes_settleWithin (fuel : Nat) (r : Rehearsal) :
    ∃ log, Passes r log (settleWithin fuel r) := by
  induction fuel generalizing r with
  | zero => exact ⟨[], .here⟩
  | succ fuel ih =>
    rw [settleWithin]
    cases hnext : r.next? with
    | none => exact ⟨[], .here⟩
    | some r' => exact Passes.exists_trans ⟨_, Passes.here.next hnext⟩ (ih r')

theorem exists_passes_settle (r : Rehearsal) : ∃ log, Passes r log r.settle :=
  exists_passes_settleWithin r.bound r

theorem le_due_of_nextDue? {r : Rehearsal} {target due : Nat} (h : r.nextDue? target = some due) :
    due < target ∧ (∃ timer ∈ r.timers, timer.due = due) ∧ ∀ timer ∈ r.timers, due ≤ timer.due := by
  unfold nextDue? at h
  obtain ⟨hmem, hleast⟩ := List.min?_eq_some_iff.1 h
  obtain ⟨hdue, hbefore⟩ := List.mem_filter.1 hmem
  have hbefore : due < target := of_decide_eq_true hbefore
  obtain ⟨timer, htimer, heq⟩ := List.mem_map.1 hdue
  refine ⟨hbefore, ⟨timer, htimer, heq⟩, fun other hother => ?_⟩
  by_cases hlate : other.due < target
  · exact hleast _ (List.mem_filter.2 ⟨List.mem_map_of_mem hother, decide_eq_true hlate⟩)
  · omega

theorem target_le_due_of_nextDue? {r : Rehearsal} {target : Nat} (h : r.nextDue? target = none) :
    ∀ timer ∈ r.timers, target ≤ timer.due := by
  unfold nextDue? at h
  rw [List.min?_eq_none_iff, List.filter_eq_nil_iff] at h
  intro timer htimer
  have hlate := h timer.due (List.mem_map_of_mem htimer)
  simpa using hlate

/-- A timer that is due leaves something to happen. -/
theorem exists_next?_of_due {r : Rehearsal} {timer : Timer} (htimer : timer ∈ r.timers)
    (hdue : timer.due ≤ r.now) : ∃ r', r.next? = some r' := by
  cases hnext : r.next? with
  | none => exact absurd hdue (Nat.not_le.2 ((idle_of_next? hnext).2 timer htimer))
  | some r' => exact ⟨r', rfl⟩

/-- Time passes from one timer to the next, so that none is missed. -/
theorem exists_passes_passWithin {r : Rehearsal} {fuel target : Nat} (hidle : r.next? = none)
    (hfuel : r.work ≤ fuel) (hnow : r.now ≤ target) :
    ∃ log, Passes r log (passWithin fuel r target) := by
  induction fuel generalizing r with
  | zero =>
    -- Nothing is left to do, so no timer is set.
    have hnone : r.timers = [] := by
      cases htimers : r.timers with
      | nil => rfl
      | cons timer timers =>
        simp only [work, htimers, List.map_cons, List.sum_cons, Timer.work] at hfuel
        omega
    exact ⟨[], Passes.here.wait hidle hnow (by simp [hnone])⟩
  | succ fuel ih =>
    rw [passWithin]
    cases hnext : r.nextDue? target with
    | none => exact ⟨[], Passes.here.wait hidle hnow (target_le_due_of_nextDue? hnext)⟩
    | some due =>
      obtain ⟨hbefore, ⟨timer, htimer, rfl⟩, hfirst⟩ := le_due_of_nextDue? hnext
      have hlater : r.now ≤ timer.due := Nat.le_of_lt ((idle_of_next? hidle).2 timer htimer)
      obtain ⟨r', hr'⟩ : ∃ r', { r with now := timer.due }.next? = some r' :=
        exists_next?_of_due (r := { r with now := timer.due }) htimer (Nat.le_refl _)
      have hless : { r with now := timer.due }.settle.work < r.work := work_settle_lt hr'
      refine Passes.exists_trans ⟨[], Passes.here.wait hidle hlater hfirst⟩ ?_
      refine Passes.exists_trans (exists_passes_settle _) ?_
      refine ih (next?_settle _) (by omega) ?_
      rw [settle_now]
      exact Nat.le_of_lt hbefore

/-! ## Actions -/

theorem exists_passes_act (r : Rehearsal) (action : Action) :
    ∃ log, Passes r log (r.act action).1 := by
  have hstay : ∃ log, Passes r log r := ⟨[], .here⟩
  have hcommand (message : Message) (h : message.IsCommand) (owned : Bool) :
      ∃ log, Passes r log { r with owned, commands := r.commands ++ [message] } := by
    have hdisturbs := Disturbs.intro (r := r) [message] [] owned r.published
      (fun _ hmem => List.mem_singleton.1 hmem ▸ h) (by simp)
    rw [List.append_nil] at hdisturbs
    exact ⟨[], Passes.here.outside hdisturbs⟩
  cases action with
  | settle => exact hstay
  | send channel signal =>
    simp only [act]
    split
    · exact hstay
    · rename_i token params _
      split
      · exact hstay
      · have hdisturbs := Disturbs.intro (r := r) [] [.signal token signal] r.owned r.published
          (by simp) (fun _ hmem => ⟨token, signal, List.mem_singleton.1 hmem⟩)
        rw [List.append_nil] at hdisturbs
        exact ⟨[], Passes.here.outside hdisturbs⟩
  | advance milliseconds =>
    exact Passes.exists_trans (exists_passes_settle r)
      (exists_passes_passWithin (next?_settle r) (work_le_bound _) (Nat.le_add_right _ _))
  | setParams selection =>
    simp only [act]
    split
    · exact hcommand (.setParams selection) rfl r.owned
    · exact hstay
  | dispose =>
    simp only [act]
    split
    · exact Passes.exists_trans (hcommand .dispose rfl false) (exists_passes_settle _)
    · exact hstay
  | drop =>
    simp only [act]
    split
    · exact hcommand .dispose rfl false
    · exact hstay

/-- Actions one after the other, whatever answers are noted beside the rehearsal. -/
theorem exists_passes_foldl {β : Type} {note : Rehearsal × β → Action → Rehearsal × β}
    (h : ∀ p action, (note p action).1 = (p.1.act action).1) (actions : List Action)
    (p : Rehearsal × β) : ∃ log, Passes p.1 log (actions.foldl note p).1 := by
  induction actions generalizing p with
  | nil => exact ⟨[], .here⟩
  | cons action actions ih =>
    have hact : ∃ log, Passes p.1 log (note p action).1 := h p action ▸ exists_passes_act p.1 action
    exact Passes.exists_trans hact (ih (note p action))

theorem exists_passes_step (r : Rehearsal) (actions : List Action) :
    ∃ log, Passes r log (r.step actions).1 := by
  refine Passes.exists_trans ?_ (exists_passes_settle _)
  refine exists_passes_foldl ?_ actions (r, [])
  exact fun _ _ => rfl

theorem passes_looked (r : Rehearsal) : Passes r [] r.looked := by
  have hdisturbs := Disturbs.intro (r := r) [] [] r.owned [] (by simp) (by simp)
  rw [List.append_nil, List.append_nil] at hdisturbs
  exact Passes.here.outside hdisturbs

/-- A rehearsal whose feed has begun, and in which nothing has happened since. -/
def begun (r : Rehearsal) : Rehearsal :=
  r.feed.startSession.2.foldl perform { r with feed := r.feed.startSession.1 }

/-- A whole rehearsal: the feed begins, and then actions are taken in batches, with a look at the
views before each. -/
def rehearse (r : Rehearsal) (batches : List (List Action)) : Rehearsal :=
  batches.foldl (fun r actions => (r.looked.step actions).1) r.start

/-- Whatever is done in a rehearsal, it goes along a path. -/
theorem exists_passes_rehearse (r : Rehearsal) (batches : List (List Action)) :
    ∃ log, Passes r.begun log (r.rehearse batches) := by
  have hbatches (r : Rehearsal) :
      ∃ log, Passes r log (batches.foldl (fun r actions => (r.looked.step actions).1) r) := by
    induction batches generalizing r with
    | nil => exact ⟨[], .here⟩
    | cons actions batches ih =>
      have hlooked : ∃ log, Passes r log r.looked := ⟨[], passes_looked r⟩
      exact Passes.exists_trans (Passes.exists_trans hlooked (exists_passes_step r.looked actions))
        (ih _)
  exact Passes.exists_trans (exists_passes_settle r.begun) (hbatches r.start)

end Rehearsal

end LiveRuns.Feed
