import LiveRuns.Proofs.Feed.Trace
import Mathlib.Data.List.SplitBy

/-!
The record of a feed.

A record lists what a feed has done and, in between, the messages that it has taken up, each right
before its effects.  It is cut into epochs in front of every change of the filter, and an epoch
into sessions in front of every timer that was due.  `epochs_history_concat` tells how the epochs
grow by one message, and `cut_append` the same of the sessions.
-/

namespace LiveRuns.Feed

/-- A message that a feed has taken up, or something that it has done. -/
inductive Entry where
  | taken (message : Message)
  | done (effect : Effect)

namespace Entry

def effect? : Entry → Option Effect
  | .done effect => some effect
  | .taken _ => none

def isChange : Entry → Bool
  | .taken (.setParams _) => true
  | _ => false

def isRetry : Entry → Bool
  | .taken (.retryDue _) => true
  | _ => false

def isFailure : Entry → Bool
  | .taken (.signal _ (.failed _)) => true
  | _ => false

end Entry

def effectsOf (record : List Entry) : List Effect := record.filterMap Entry.effect?

@[simp] theorem effectsOf_append (first second : List Entry) :
    effectsOf (first ++ second) = effectsOf first ++ effectsOf second := List.filterMap_append

@[simp] theorem effectsOf_done (effects : List Effect) :
    effectsOf (effects.map .done) = effects := by
  induction effects with
  | nil => rfl
  | cons effect effects ih => exact congrArg (effect :: ·) ih

def entries (f : Feed) (message : Message) : List Entry :=
  if f.Accepts message then .taken message :: (f.handle message).2.map .done else []

theorem effectsOf_entries (f : Feed) (message : Message) :
    effectsOf (f.entries message) = (f.handle message).2 := by
  unfold entries
  split
  · exact effectsOf_done _
  · next h =>
    rw [handle_of_not_accepts h]
    rfl

/-- The record of a feed from its first session on. -/
def history (options : Options) (selection : Selection) (messages : List Message) : List Entry :=
  (new options selection).startSession.2.map .done ++
    (past options selection messages).flatMap fun (f, message) => f.entries message

section

variable (options : Options) (selection : Selection) (messages : List Message) (message : Message)

theorem history_nil :
    history options selection [] = (new options selection).startSession.2.map .done := by
  simp [history, past, meetings]

theorem history_concat :
    history options selection (messages ++ [message]) =
      history options selection messages ++
        (course options selection messages).1.entries message := by
  simp only [history, past_concat, List.flatMap_append, List.flatMap_cons, List.flatMap_nil,
    List.append_nil, List.append_assoc]

theorem effectsOf_history :
    effectsOf (history options selection messages) = (course options selection messages).2 := by
  induction messages using List.reverseRecOn with
  | nil => rw [history_nil, effectsOf_done, course_nil]
  | append_singleton messages message ih =>
    rw [history_concat, effectsOf_append, ih, effectsOf_entries, course_concat]

end

/-! ## Cutting a record -/

/-- Cut a record in front of each entry of a kind. -/
def cut (begins : Entry → Bool) (record : List Entry) : List (List Entry) :=
  record.splitBy fun _ entry => !begins entry

/-- The parts of a record that only changes of the filter divide. -/
def epochs (record : List Entry) : List (List Entry) := cut Entry.isChange record

/-- The parts of a record that only timers divide. -/
def sessions (record : List Entry) : List (List Entry) := cut Entry.isRetry record

section

variable {begins : Entry → Bool} {record more : List Entry} {ended : List (List Entry)}
  {current : List Entry} {entry : Entry}

theorem isChain_cut_iff :
    record.IsChain (fun _ entry => (!begins entry) = true) ↔
      ∀ entry ∈ record.tail, begins entry = false := by
  induction record with
  | nil => simp
  | cons first record ih =>
    cases record with
    | nil => simp
    | cons second record => simp_all

theorem ne_nil_of_mem_cut (h : current ∈ cut begins record) : current ≠ [] :=
  List.ne_nil_of_mem_splitBy h

/-- A record in which nothing begins after its first entry is one part. -/
theorem cut_of_none (h : ∀ entry ∈ more, begins entry = false) :
    cut begins (entry :: more) = [entry :: more] :=
  List.splitBy_of_isChain (List.cons_ne_nil _ _) (isChain_cut_iff.mpr h)

/-- An entry with which something begins starts a new part. -/
theorem cut_append_cons (hbegins : begins entry = true)
    (h : ∀ entry ∈ more, begins entry = false) :
    cut begins (record ++ entry :: more) = cut begins record ++ [entry :: more] := by
  rw [cut, List.splitBy_append_cons more (by simp [hbegins])]
  exact congrArg (cut begins record ++ ·) (cut_of_none h)

/-- Other entries are added to the last part. -/
theorem cut_append (hcut : cut begins record = ended ++ [current])
    (h : ∀ entry ∈ more, begins entry = false) :
    cut begins (record ++ more) = ended ++ [current ++ more] := by
  obtain ⟨hflatten, hne, hchain, hheads⟩ := List.splitBy_eq_iff.mp hcut
  have hcurrent : current ≠ [] := fun hnil => hne (by simp [hnil])
  refine List.splitBy_eq_iff.mpr ⟨by simp [hflatten], ?_, ?_, ?_⟩
  · simp only [List.mem_append, List.mem_singleton, not_or] at hne ⊢
    exact ⟨hne.1, fun hnil => hcurrent (List.append_eq_nil_iff.mp hnil.symm).1⟩
  · intro part hpart
    rcases List.mem_append.mp hpart with hpart | hpart
    · exact hchain part (List.mem_append_left _ hpart)
    · obtain rfl := List.mem_singleton.mp hpart
      have hold := isChain_cut_iff.mp (hchain current (by simp))
      refine isChain_cut_iff.mpr fun entry hentry => ?_
      rw [List.tail_append_of_ne_nil hcurrent] at hentry
      exact (List.mem_append.mp hentry).elim (hold entry) (h entry)
  · -- The last part still begins with the same entry.
    rw [List.isChain_append] at hheads ⊢
    refine ⟨hheads.1, List.isChain_singleton _, fun part hpart next hnext => ?_⟩
    obtain rfl : current ++ more = next := by simpa using hnext
    obtain ⟨hpart_ne, hcurrent_ne, hhead⟩ := hheads.2.2 part hpart current rfl
    exact ⟨hpart_ne, by simp [hcurrent], by rwa [List.head_append_of_ne_nil hcurrent]⟩

end

end LiveRuns.Feed
