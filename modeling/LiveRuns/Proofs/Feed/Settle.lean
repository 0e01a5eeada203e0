import LiveRuns.Feed.Rehearsal
import LiveRuns.Proofs.Feed.Trace
import Mathlib

/-!
Rehearsals settle.

`Happens` lists what can happen next in a rehearsal without time passing: the feed is given a
message, a snapshot is begun, or the timers that are due ring.  Each of these uses up some `work`,
`work_lt_of_next?`, of which there is never more than the bound that `settle` allows.  So settling
stops only when nothing is left to happen, `next?_settle`, and it takes no time, `settle_now`.
-/

namespace LiveRuns.Feed

namespace Rehearsal

/-! ## What is left by effects -/

section

variable (r : Rehearsal) (e : Effect)

@[simp] theorem perform_feed : (r.perform e).feed = r.feed := by cases e <;> rfl

@[simp] theorem perform_now : (r.perform e).now = r.now := by cases e <;> rfl

@[simp] theorem perform_commands : (r.perform e).commands = r.commands := by cases e <;> rfl

@[simp] theorem perform_wakes : (r.perform e).wakes = r.wakes := by cases e <;> rfl

end

theorem foldl_perform_of_perform {α : Type} {part : Rehearsal → α}
    (h : ∀ r e, part (perform r e) = part r) (effects : List Effect) (r : Rehearsal) :
    part (effects.foldl perform r) = part r := by
  induction effects generalizing r with
  | nil => rfl
  | cons e effects ih => rw [List.foldl_cons, ih, h]

section

variable (r : Rehearsal) (effects : List Effect)

@[simp] theorem foldl_perform_feed : (effects.foldl perform r).feed = r.feed :=
  foldl_perform_of_perform perform_feed effects r

@[simp] theorem foldl_perform_now : (effects.foldl perform r).now = r.now :=
  foldl_perform_of_perform perform_now effects r

@[simp] theorem foldl_perform_commands : (effects.foldl perform r).commands = r.commands :=
  foldl_perform_of_perform perform_commands effects r

@[simp] theorem foldl_perform_wakes : (effects.foldl perform r).wakes = r.wakes :=
  foldl_perform_of_perform perform_wakes effects r

end

/-- A timer that runs after some effects ran before them, or has been set by one. -/
theorem mem_timers_foldl_perform {r : Rehearsal} {effects : List Effect} {timer : Timer}
    (h : timer ∈ (effects.foldl perform r).timers) :
    timer ∈ r.timers ∨ ∃ token delay, .schedule token delay ∈ effects ∧
      timer = ⟨r.now + delay, token, .retryDue token⟩ := by
  induction effects generalizing r with
  | nil => exact .inl h
  | cons e effects ih =>
    rcases ih h with h | ⟨token, delay, hmem, htimer⟩
    · cases e with
      | fetch | openChannel | closeChannel | publish => exact .inl h
      | abort token | cancel token => exact .inl (List.mem_filter.1 h).1
      | schedule token delay =>
        rcases List.mem_append.1 h with h | h
        · exact .inl h
        · exact .inr ⟨token, delay, List.mem_cons_self, List.mem_singleton.1 h⟩
    · rw [perform_now] at htimer
      exact .inr ⟨token, delay, List.mem_cons_of_mem e hmem, htimer⟩

/-- A signal that waits after some effects waited before them, or comes from a channel that one
has opened. -/
theorem mem_signals_foldl_perform {r : Rehearsal} {effects : List Effect} {message : Message}
    (h : message ∈ (effects.foldl perform r).signals) :
    message ∈ r.signals ∨ ∃ token signal, message = .signal token signal := by
  induction effects generalizing r with
  | nil => exact .inl h
  | cons e effects ih =>
    rcases ih h with h | h
    · cases e with
      | fetch | abort | closeChannel | schedule | cancel | publish => exact .inl h
      | openChannel token params =>
        rcases List.mem_append.1 h with h | h
        · exact .inl h
        · obtain ⟨signal, -, rfl⟩ := List.mem_map.1 h
          exact .inr ⟨token, signal, rfl⟩
    · exact .inr h

theorem deliver_eq (r : Rehearsal) (message : Message) :
    r.deliver message =
      (r.feed.handle message).2.foldl perform { r with feed := (r.feed.handle message).1 } := rfl

@[simp] theorem deliver_feed (r : Rehearsal) (message : Message) :
    (r.deliver message).feed = (r.feed.handle message).1 := foldl_perform_feed _ _

@[simp] theorem deliver_now (r : Rehearsal) (message : Message) :
    (r.deliver message).now = r.now := foldl_perform_now _ _

@[simp] theorem deliver_commands (r : Rehearsal) (message : Message) :
    (r.deliver message).commands = r.commands := foldl_perform_commands _ _

@[simp] theorem deliver_wakes (r : Rehearsal) (message : Message) :
    (r.deliver message).wakes = r.wakes := foldl_perform_wakes _ _

section

variable (r : Rehearsal) (token : Token) (query : RunQuery)

@[simp] theorem begin_now : (r.begin token query).now = r.now := by
  simp only [begin]
  split <;> rfl

@[simp] theorem begin_feed : (r.begin token query).feed = r.feed := by
  simp only [begin]
  split <;> rfl

@[simp] theorem begin_commands : (r.begin token query).commands = r.commands := by
  simp only [begin]
  split <;> rfl

@[simp] theorem begin_signals : (r.begin token query).signals = r.signals := by
  simp only [begin]
  split <;> rfl

@[simp] theorem begin_asked : (r.begin token query).asked = r.asked := by
  simp only [begin]
  split <;> rfl

end

/-! ## The next thing -/

def told? (r : Rehearsal) : Option Message := (r.commands ++ r.wakes ++ r.signals).head?

def ring (r : Rehearsal) : Rehearsal :=
  { r with
    timers := r.timers.filter (r.now < ·.due)
    wakes := (r.timers.filter (·.due ≤ r.now)).map Timer.message }

inductive Takes (r : Rehearsal) (message : Message) : Rehearsal → Prop where
  | command {commands : List Message} (first : r.commands = message :: commands) :
    Takes r message { r with commands }
  | wake {wakes : List Message} (first : r.wakes = message :: wakes) :
    Takes r message { r with wakes }
  | signal {signals : List Message} (first : r.signals = message :: signals) :
    Takes r message { r with signals }

@[simp] theorem Takes.feed {r r₀ : Rehearsal} {message : Message} (h : r.Takes message r₀) :
    r₀.feed = r.feed := by
  cases h <;> rfl

/-- The next thing that happens, and the message that the feed is given by it. -/
inductive Happens (r : Rehearsal) : Option Message → Rehearsal → Prop where
  | told {message : Message} {r₀ : Rehearsal} (takes : r.Takes message r₀) :
    Happens r (some message) (r₀.deliver message)
  | begun {token : Token} {query : RunQuery} {asked : List (Token × RunQuery)}
    (quiet : r.told? = none) (first : r.asked = (token, query) :: asked) :
    Happens r none ({ r with asked }.begin token query)
  | rung (quiet : r.told? = none) (due : ∃ timer ∈ r.timers, timer.due ≤ r.now) :
    Happens r none r.ring

theorem told?_eq_none {r : Rehearsal} :
    r.told? = none ↔ (r.commands = [] ∧ r.wakes = []) ∧ r.signals = [] := by
  rw [told?, List.head?_eq_none_iff, List.append_eq_nil_iff, List.append_eq_nil_iff]

theorem happens_of_next? {r r' : Rehearsal} (h : r.next? = some r') : r.Happens r.told? r' := by
  unfold next? at h
  split at h
  · rename_i _ _ _ message commands hcommands
    cases h
    have htold : r.told? = some message := by simp [told?, hcommands]
    exact htold ▸ .told (.command hcommands)
  · rename_i _ _ message wakes hcommands hwakes
    cases h
    have htold : r.told? = some message := by simp [told?, hcommands, hwakes]
    exact htold ▸ .told (.wake hwakes)
  · rename_i _ message signals hcommands hwakes hsignals
    cases h
    have htold : r.told? = some message := by simp [told?, hcommands, hwakes, hsignals]
    exact htold ▸ .told (.signal hsignals)
  · rename_i token query asked hcommands hwakes hsignals hasked
    cases h
    have htold : r.told? = none := by simp [told?, hcommands, hwakes, hsignals]
    rw [htold]
    exact .begun htold hasked
  · rename_i hcommands hwakes hsignals hasked
    have htold : r.told? = none := by simp [told?, hcommands, hwakes, hsignals]
    rw [htold]
    simp only at h
    split_ifs at h with hnone
    cases h
    rw [List.isEmpty_iff] at hnone
    obtain ⟨timer, htimer⟩ := List.exists_mem_of_ne_nil _ hnone
    obtain ⟨hmem, hdue⟩ := List.mem_filter.1 htimer
    exact .rung htold ⟨timer, hmem, of_decide_eq_true hdue⟩

/-- When nothing is left to happen, no timer is due. -/
theorem idle_of_next? {r : Rehearsal} (h : r.next? = none) :
    r.told? = none ∧ ∀ timer ∈ r.timers, r.now < timer.due := by
  unfold next? at h
  split at h
  · cases h
  · cases h
  · cases h
  · cases h
  · rename_i hcommands hwakes hsignals _
    simp only at h
    split_ifs at h with hnone
    rw [List.isEmpty_iff, List.filter_eq_nil_iff] at hnone
    refine ⟨by simp [told?, hcommands, hwakes, hsignals], fun timer htimer => ?_⟩
    simpa using hnone timer htimer

/-! ## Work -/

end Rehearsal

/-- What a message can still lead to, with one more for itself. -/
def Message.work : Message → Nat
  | .dispose | .snapshot _ _ => 1
  | .setParams _ | .retryDue _ => 4
  | .signal _ _ => 6

def Effect.work : Effect → Nat
  | .fetch _ _ => 3
  | .schedule _ _ => 5
  | _ => 0

def Timer.work (timer : Timer) : Nat := timer.message.work + 1

theorem sum_work_release (s : Session) : (s.release.map Effect.work).sum = 0 := by
  obtain ⟨snapshot, channel, retry⟩ := s
  cases snapshot <;> cases channel <;> cases retry <;> rfl

/-- What a feed does with a message uses up some of the work of the message. -/
theorem sum_work_handle_lt (f : Feed) (message : Message) :
    ((f.handle message).2.map Effect.work).sum < message.work := by
  induction message using handle_cases (f := f) with
  | refused message => cases message <;> simp [Message.work]
  | setParams selection =>
    rw [restart_effects, List.map_append, List.sum_append, sum_work_release]
    simp [Effect.work, Message.work]
  | dispose =>
    rw [close_effects, List.map_append, List.sum_append, sum_work_release]
    simp [Effect.work, Message.work]
  | snapshot token result =>
    rw [takeSnapshot_effects]
    cases f.session.channel <;> simp [Effect.work, Message.work]
  | retryDue token =>
    rw [reconnect_effects, List.map_append, List.sum_append, sum_work_release]
    simp [Effect.work, Message.work]
  | signal token signal =>
    cases signal with
    | opened | event | malformed => simp [takeSignal, publishing, Effect.work, Message.work]
    | failed failure =>
      -- A failure sets one timer, which is the most that a message leads to.
      rw [takeSignal, failChannel_effects]
      cases f.session.retry <;> simp [Effect.work, Message.work]

theorem work_le (message : Message) : message.work ≤ 6 := by
  cases message <;> simp [Message.work]

namespace Rehearsal

/-- What is left to happen without more time or anything sent. -/
def work (r : Rehearsal) : Nat :=
  ((r.commands ++ r.wakes ++ r.signals).map Message.work).sum + 3 * r.asked.length +
    (r.timers.map Timer.work).sum + 6 * r.greetings.flatten.length

theorem sum_filter_le {α : Type} (weight : α → Nat) (p : α → Bool) (xs : List α) :
    ((xs.filter p).map weight).sum ≤ (xs.map weight).sum :=
  (List.filter_sublist.map weight).sum_le_sum fun _ _ => Nat.zero_le _

theorem work_perform_le (r : Rehearsal) (e : Effect) : (r.perform e).work ≤ r.work + e.work := by
  cases e with
  | fetch token query =>
    simp only [work, perform, Effect.work, List.length_append, List.length_singleton]
    omega
  | abort token =>
    have hasked := List.length_filter_le (fun a : Token × RunQuery => decide (a.1 ≠ token)) r.asked
    have htimers := sum_filter_le Timer.work (fun t => decide (t.token ≠ token)) r.timers
    simp only [work, perform, Effect.work]
    omega
  | openChannel token params =>
    have hgreeting (signals : List Channel.Signal) :
        ((signals.map (Message.signal token)).map Message.work).sum = 6 * signals.length := by
      rw [List.map_map]
      show (signals.map fun _ => 6).sum = _
      rw [List.map_const', List.sum_replicate, smul_eq_mul, Nat.mul_comm]
    simp only [work, perform, Effect.work, ← List.append_assoc, List.map_append, List.sum_append,
      hgreeting]
    cases r.greetings with
    | nil => simp
    | cons greeting greetings =>
      simp only [List.headD_cons, List.tail_cons, List.flatten_cons, List.length_append]
      omega
  | closeChannel | publish => exact Nat.le_refl _
  | schedule token delay =>
    simp only [work, perform, Effect.work, List.map_append, List.sum_append, Timer.work,
      Message.work, List.map_cons, List.map_nil, List.sum_cons, List.sum_nil]
    omega
  | cancel token =>
    have htimers := sum_filter_le Timer.work (fun t => decide (t.token ≠ token)) r.timers
    simp only [work, perform, Effect.work]
    omega

theorem work_foldl_perform_le (r : Rehearsal) (effects : List Effect) :
    (effects.foldl perform r).work ≤ r.work + (effects.map Effect.work).sum := by
  induction effects generalizing r with
  | nil => exact Nat.le_refl _
  | cons e effects ih =>
    have hfirst := work_perform_le r e
    have hrest := ih (r.perform e)
    rw [List.foldl_cons, List.map_cons, List.sum_cons]
    omega

theorem Takes.work_eq {r r₀ : Rehearsal} {message : Message} (h : r.Takes message r₀) :
    r₀.work + message.work = r.work := by
  cases h with
  | command first | wake first | signal first =>
    simp only [work, first, List.map_append, List.sum_append, List.map_cons, List.sum_cons]
    omega

theorem work_deliver_lt (r : Rehearsal) (message : Message) :
    (r.deliver message).work < r.work + message.work := by
  have hle : (r.deliver message).work ≤ r.work + ((r.feed.handle message).2.map Effect.work).sum :=
    work_foldl_perform_le { r with feed := (r.feed.handle message).1 } _
  exact Nat.lt_of_le_of_lt hle (Nat.add_lt_add_left (sum_work_handle_lt r.feed message) _)

theorem work_begin_lt {r : Rehearsal} {token : Token} {query : RunQuery}
    {asked : List (Token × RunQuery)} (first : r.asked = (token, query) :: asked) :
    ({ r with asked }.begin token query).work < r.work := by
  unfold begin
  simp only
  split
  · simp only [work, first, List.map_append, List.sum_append, List.map_cons, List.map_nil,
      List.sum_cons, List.sum_nil, Message.work, List.length_cons]
    omega
  · simp only [work, first, List.map_append, List.sum_append, List.map_cons, List.map_nil,
      List.sum_cons, List.sum_nil, Timer.work, Message.work, List.length_cons]
    omega

/-- A timer that rings uses up the one that it has for itself. -/
theorem sum_work_ring (timers : List Timer) (now : Nat) :
    (((timers.filter (·.due ≤ now)).map Timer.message).map Message.work).sum +
        (timers.filter (·.due ≤ now)).length +
        ((timers.filter (now < ·.due)).map Timer.work).sum =
      (timers.map Timer.work).sum := by
  induction timers with
  | nil => rfl
  | cons timer timers ih =>
    by_cases hdue : timer.due ≤ now
    · have hlate : ¬ now < timer.due := Nat.not_lt.2 hdue
      simp only [List.filter_cons, hdue, hlate, decide_true, decide_false, if_true,
        Bool.false_eq_true, if_false, List.map_cons, List.sum_cons, List.length_cons,
        Timer.work] at ih ⊢
      omega
    · have hlate : now < timer.due := Nat.not_le.1 hdue
      simp only [List.filter_cons, hdue, hlate, decide_true, decide_false, if_true,
        Bool.false_eq_true, if_false, List.map_cons, List.sum_cons] at ih ⊢
      omega

/-- Everything that happens uses up some work. -/
theorem work_lt_of_next? {r r' : Rehearsal} (h : r.next? = some r') : r'.work < r.work := by
  have hhappens := happens_of_next? h
  generalize r.told? = told at hhappens
  cases hhappens with
  | told takes =>
    have hwork := takes.work_eq
    exact hwork ▸ work_deliver_lt _ _
  | begun quiet first => exact work_begin_lt first
  | rung quiet due =>
    obtain ⟨⟨hcommands, hwakes⟩, hsignals⟩ := told?_eq_none.1 quiet
    have hring := sum_work_ring r.timers r.now
    -- At least one timer rings, and what it has for itself is used up.
    obtain ⟨timer, htimer, hdue⟩ := due
    have hpos : 0 < (r.timers.filter (·.due ≤ r.now)).length :=
      List.length_pos_of_mem (List.mem_filter.2 ⟨htimer, decide_eq_true hdue⟩)
    simp only [work, ring, hcommands, hwakes, hsignals, List.nil_append, List.append_nil,
      List.map_nil, List.sum_nil]
    omega

theorem sum_map_le {α : Type} {weight : α → Nat} {most : Nat} (h : ∀ x, weight x ≤ most)
    (xs : List α) : (xs.map weight).sum ≤ xs.length * most := by
  have hsum := List.sum_le_card_nsmul (xs.map weight) most fun w hw => by
    obtain ⟨x, -, rfl⟩ := List.mem_map.1 hw
    exact h x
  rwa [List.length_map, smul_eq_mul] at hsum

theorem work_le_bound (r : Rehearsal) : r.work ≤ r.bound := by
  have hmessages := sum_map_le work_le (r.commands ++ r.wakes ++ r.signals)
  have htimer (timer : Timer) : timer.work ≤ 7 := Nat.succ_le_succ (work_le timer.message)
  have htimers := sum_map_le htimer r.timers
  simp only [List.length_append] at hmessages
  simp only [work, bound]
  omega

/-! ## Settling -/

theorem now_of_next? {r r' : Rehearsal} (h : r.next? = some r') : r'.now = r.now := by
  have hhappens := happens_of_next? h
  generalize r.told? = told at hhappens
  cases hhappens with
  | told takes => cases takes <;> rw [deliver_now]
  | begun quiet first => rw [begin_now]
  | rung quiet due => rfl

theorem settleWithin_now (fuel : Nat) (r : Rehearsal) : (settleWithin fuel r).now = r.now := by
  induction fuel generalizing r with
  | zero => rfl
  | succ fuel ih =>
    rw [settleWithin]
    cases hnext : r.next? with
    | none => rfl
    | some r' => exact (ih r').trans (now_of_next? hnext)

/-- Settling takes no time. -/
theorem settle_now (r : Rehearsal) : r.settle.now = r.now := settleWithin_now r.bound r

theorem next?_settleWithin {r : Rehearsal} {fuel : Nat} (h : r.work ≤ fuel) :
    (settleWithin fuel r).next? = none := by
  induction fuel generalizing r with
  | zero =>
    rw [settleWithin]
    cases hnext : r.next? with
    | none => rfl
    | some r' =>
      have hless := work_lt_of_next? hnext
      omega
  | succ fuel ih =>
    rw [settleWithin]
    cases hnext : r.next? with
    | none => exact hnext
    | some r' =>
      have hless := work_lt_of_next? hnext
      exact ih (by omega)

/-- A rehearsal that has settled is one in which nothing is left to happen. -/
theorem next?_settle (r : Rehearsal) : r.settle.next? = none :=
  next?_settleWithin r.work_le_bound

theorem work_settleWithin_le (fuel : Nat) (r : Rehearsal) :
    (settleWithin fuel r).work ≤ r.work := by
  induction fuel generalizing r with
  | zero => exact Nat.le_refl _
  | succ fuel ih =>
    rw [settleWithin]
    cases hnext : r.next? with
    | none => exact Nat.le_refl _
    | some r' => exact Nat.le_trans (ih r') (Nat.le_of_lt (work_lt_of_next? hnext))

/-- Settling uses up some work if there is anything left to happen. -/
theorem work_settle_lt {r r' : Rehearsal} (h : r.next? = some r') : r.settle.work < r.work := by
  have hbound : r.bound = (r.bound - 1) + 1 := by
    unfold bound
    omega
  have hsettle : r.settle = settleWithin (r.bound - 1) r' := by
    rw [settle, hbound, settleWithin, h]
    rfl
  rw [hsettle]
  exact Nat.lt_of_le_of_lt (work_settleWithin_le _ _) (work_lt_of_next? h)

end Rehearsal

end LiveRuns.Feed
