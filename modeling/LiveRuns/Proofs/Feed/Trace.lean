import LiveRuns.Proofs.Feed.Course

/-!
What can be seen of a feed.

The effects of a feed are one list, and the readings of this file take from it what an observer of
one kind sees: the views published, the queries of the snapshots, the channels opened, the tokens
given out.  Three facts hold of every course.  The last view published is that of the feed as it is,
`lastView_course`, so no change is left unpublished, and every view is that of the feed as it once
was, `exists_of_mem_views`.  The tokens given out are 1, 2, 3 and so on in this order,
`issued_course`, so none is given out twice.
-/

namespace LiveRuns.Feed

/-! ## Readings -/

namespace Effect

def view? : Effect → Option View
  | .publish view => some view
  | _ => none

def query? : Effect → Option RunQuery
  | .fetch _ query => some query
  | _ => none

def opened? : Effect → Option Token
  | .openChannel token _ => some token
  | _ => none

def params? : Effect → Option StreamParams
  | .openChannel _ params => some params
  | _ => none

def issued? : Effect → Option Token
  | .fetch token _ | .openChannel token _ | .schedule token _ => some token
  | _ => none

end Effect

def views (effects : List Effect) : List View := effects.filterMap Effect.view?

def queries (effects : List Effect) : List RunQuery := effects.filterMap Effect.query?

def openings (effects : List Effect) : List StreamParams := effects.filterMap Effect.params?

def issued (effects : List Effect) : List Token := effects.filterMap Effect.issued?

/-- What a reader sees after some effects; before the first view there is an empty one. -/
def lastView (effects : List Effect) : View := (views effects).getLast?.getD {}

@[simp] theorem views_append (first second : List Effect) :
    views (first ++ second) = views first ++ views second := List.filterMap_append

@[simp] theorem queries_append (first second : List Effect) :
    queries (first ++ second) = queries first ++ queries second := List.filterMap_append

@[simp] theorem openings_append (first second : List Effect) :
    openings (first ++ second) = openings first ++ openings second := List.filterMap_append

@[simp] theorem issued_append (first second : List Effect) :
    issued (first ++ second) = issued first ++ issued second := List.filterMap_append

/-- A reading that passes over aborts, closes and cancels sees nothing of a release. -/
theorem filterMap_release {α : Type} {reading : Effect → Option α}
    (habort : ∀ token, reading (.abort token) = none)
    (hclose : ∀ token, reading (.closeChannel token) = none)
    (hcancel : ∀ token, reading (.cancel token) = none) (s : Session) :
    s.release.filterMap reading = [] := by
  obtain ⟨snapshot, channel, retry⟩ := s
  cases snapshot <;> cases channel <;> cases retry <;>
    simp [Session.release, habort, hclose, hcancel]

@[simp] theorem views_release (s : Session) : views s.release = [] :=
  filterMap_release (fun _ => rfl) (fun _ => rfl) (fun _ => rfl) s

@[simp] theorem queries_release (s : Session) : queries s.release = [] :=
  filterMap_release (fun _ => rfl) (fun _ => rfl) (fun _ => rfl) s

@[simp] theorem openings_release (s : Session) : openings s.release = [] :=
  filterMap_release (fun _ => rfl) (fun _ => rfl) (fun _ => rfl) s

@[simp] theorem issued_release (s : Session) : issued s.release = [] :=
  filterMap_release (fun _ => rfl) (fun _ => rfl) (fun _ => rfl) s

/-! ## The last view -/

theorem lastView_concat (effects : List Effect) (view : View) :
    lastView (effects ++ [.publish view]) = view := by
  simp [lastView, views, Effect.view?]

/-- A feed either keeps still or publishes what it has become. -/
theorem handle_publishes (f : Feed) (message : Message) :
    f.handle message = (f, []) ∨
      ∃ effects, (f.handle message).2 = effects ++ [.publish (f.handle message).1.view] := by
  induction message using handle_cases (f := f) with
  | refused => exact .inl rfl
  | setParams selection => exact .inr ⟨_, (List.append_assoc _ _ _).symm⟩
  | dispose | snapshot | retryDue => exact .inr ⟨_, rfl⟩
  | signal token signal =>
    cases signal with
    -- A malformed signal is the only one taken up that is not told.
    | malformed error => exact .inl rfl
    | opened | event | failed => exact .inr ⟨_, rfl⟩

/-- What a reader sees is the feed as it is. -/
theorem lastView_course (options : Options) (selection : Selection) (messages : List Message) :
    lastView (course options selection messages).2 = (course options selection messages).1.view := by
  induction messages using List.reverseRecOn with
  | nil => rfl
  | append_singleton messages message ih =>
    rw [course_concat]
    rcases handle_publishes (course options selection messages).1 message with h | ⟨effects, h⟩
    · rw [h, List.append_nil]
      exact ih
    · rw [h, ← List.append_assoc]
      exact lastView_concat _ _

/-! ## Every view -/

/-- A feed either keeps still or publishes once. -/
theorem handle_views (f : Feed) (message : Message) :
    f.handle message = (f, []) ∨ views (f.handle message).2 = [(f.handle message).1.view] := by
  induction message using handle_cases (f := f) with
  | refused => exact .inl rfl
  | setParams selection =>
    right
    rw [restart_effects, views_append, views_release]
    rfl
  | dispose =>
    right
    rw [close_effects, views_append, views_release]
    rfl
  | snapshot token result =>
    right
    rw [takeSnapshot_effects]
    cases f.session.channel <;> rfl
  | retryDue token =>
    right
    rw [reconnect_effects, views_append, views_release]
    rfl
  | signal token signal =>
    cases signal with
    | malformed error => exact .inl rfl
    | opened | event => exact .inr rfl
    | failed failure =>
      right
      rw [takeSignal, failChannel_effects]
      cases f.session.retry <;> rfl

/-- Every view published is that of the feed after some of its messages, so that what holds of the
feed in every course holds of all that is ever seen of it. -/
theorem exists_of_mem_views {options : Options} {selection : Selection} {messages : List Message}
    {view : View} (h : view ∈ views (course options selection messages).2) :
    ∃ before, before <+: messages ∧ view = (course options selection before).1.view := by
  induction messages using List.reverseRecOn with
  | nil => exact ⟨[], List.prefix_refl [], List.mem_singleton.mp h⟩
  | append_singleton messages message ih =>
    rw [course_concat, views_append, List.mem_append] at h
    rcases h with h | h
    · obtain ⟨before, hbefore, hview⟩ := ih h
      exact ⟨before, hbefore.trans (List.prefix_append messages [message]), hview⟩
    · refine ⟨messages ++ [message], List.prefix_refl _, ?_⟩
      rw [course_concat]
      rcases handle_views (course options selection messages).1 message with hstill | hviews
      · rw [hstill] at h
        exact absurd h List.not_mem_nil
      · rw [hviews] at h
        exact List.mem_singleton.mp h

/-! ## What is asked for -/

/-- As long as the filter is not changed, a feed asks for what its filter says or for nothing. -/
theorem handle_asks {f : Feed} {message : Message} (h : ∀ selection, message ≠ .setParams selection) :
    (f.handle message).1.selection = f.selection ∧
      (queries (f.handle message).2 = [] ∨ queries (f.handle message).2 = [f.selection.query]) ∧
        (openings (f.handle message).2 = [] ∨
          openings (f.handle message).2 = [f.selection.params]) := by
  revert h
  induction message using handle_cases (f := f) with
  | refused => exact fun _ => ⟨rfl, .inl rfl, .inl rfl⟩
  | setParams selection => exact fun h => absurd rfl (h selection)
  | dispose =>
    intro _
    rw [close_effects, queries_append, queries_release, openings_append, openings_release]
    exact ⟨rfl, .inl rfl, .inl rfl⟩
  | snapshot token result =>
    intro _
    refine ⟨by cases result <;> rfl, ?_⟩
    rw [takeSnapshot_effects]
    cases f.session.channel <;> exact ⟨.inl rfl, .inr rfl⟩
  | retryDue token =>
    intro _
    rw [reconnect_effects, queries_append, queries_release, openings_append, openings_release]
    exact ⟨rfl, .inr rfl, .inl rfl⟩
  | signal token signal =>
    intro _
    cases signal with
    | malformed | opened | event => exact ⟨rfl, .inl rfl, .inl rfl⟩
    | failed failure =>
      refine ⟨rfl, ?_⟩
      rw [takeSignal, failChannel_effects]
      cases f.session.retry <;> exact ⟨.inl rfl, .inl rfl⟩

theorem forall_mem_append_of_or {α : Type} {a : α} {earlier later : List α}
    (h : ∀ x ∈ earlier, x = a) (h' : later = [] ∨ later = [a]) : ∀ x ∈ earlier ++ later, x = a := by
  rcases h' with rfl | rfl
  · rwa [List.append_nil]
  · exact List.forall_mem_append.2 ⟨h, List.forall_mem_singleton.2 rfl⟩

/-- Every snapshot and every channel of a feed whose filter is not changed is the one that the filter
says. -/
theorem asks_course (options : Options) (selection : Selection) {messages : List Message}
    (h : ∀ other, .setParams other ∉ messages) :
    (course options selection messages).1.selection = selection ∧
      (∀ query ∈ queries (course options selection messages).2, query = selection.query) ∧
        ∀ params ∈ openings (course options selection messages).2, params = selection.params := by
  induction messages using List.reverseRecOn with
  | nil => exact ⟨rfl, List.forall_mem_singleton.2 rfl, List.forall_mem_nil _⟩
  | append_singleton messages message ih =>
    have hearlier (other : Selection) : .setParams other ∉ messages :=
      fun hmem => h other (List.mem_append_left _ hmem)
    have hlast (other : Selection) : message ≠ .setParams other := by
      rintro rfl
      exact h other (List.mem_append_right _ (List.mem_singleton.2 rfl))
    obtain ⟨hselection, hqueries, hopenings⟩ := ih hearlier
    obtain ⟨hstill, hquery, hopening⟩ :=
      handle_asks (f := (course options selection messages).1) hlast
    rw [hselection] at hstill hquery hopening
    rw [course_concat, queries_append, openings_append]
    exact ⟨hstill, forall_mem_append_of_or hqueries hquery,
      forall_mem_append_of_or hopenings hopening⟩

/-! ## Tokens -/

/-- A message makes a feed give out the next token or none. -/
theorem handle_issued (f : Feed) (message : Message) :
    (issued (f.handle message).2 = [] ∧ (f.handle message).1.lastToken = f.lastToken) ∨
      (issued (f.handle message).2 = [f.lastToken + 1] ∧
        (f.handle message).1.lastToken = f.lastToken + 1) := by
  induction message using handle_cases (f := f) with
  | refused => exact .inl ⟨rfl, rfl⟩
  | setParams selection =>
    refine .inr ⟨?_, rfl⟩
    rw [restart_effects, issued_append, issued_release]
    rfl
  | dispose =>
    refine .inl ⟨?_, rfl⟩
    rw [close_effects, issued_append, issued_release]
    rfl
  | snapshot token result =>
    refine .inr ⟨?_, by cases result <;> rfl⟩
    rw [takeSnapshot_effects]
    cases f.session.channel <;> rfl
  | retryDue token =>
    refine .inr ⟨?_, rfl⟩
    rw [reconnect_effects, issued_append, issued_release]
    rfl
  | signal token signal =>
    cases signal with
    | malformed | opened | event => exact .inl ⟨rfl, rfl⟩
    | failed failure =>
      refine .inr ⟨?_, rfl⟩
      rw [takeSignal, failChannel_effects]
      cases f.session.retry <;> rfl

/-- The tokens of a course are the numbers from 1 on, each given out once. -/
theorem issued_course (options : Options) (selection : Selection) (messages : List Message) :
    issued (course options selection messages).2 =
      List.range' 1 (course options selection messages).1.lastToken := by
  induction messages using List.reverseRecOn with
  | nil => rfl
  | append_singleton messages message ih =>
    rw [course_concat, issued_append, ih]
    rcases handle_issued (course options selection messages).1 message with ⟨hi, ht⟩ | ⟨hi, ht⟩
    · rw [hi, ht, List.append_nil]
    · rw [hi, ht, List.range'_concat, Nat.one_mul, Nat.add_comm]

theorem le_lastToken_of_mem_issued {options : Options} {selection : Selection}
    {messages : List Message} {token : Token}
    (h : token ∈ issued (course options selection messages).2) :
    token ≤ (course options selection messages).1.lastToken := by
  rw [issued_course, List.mem_range'_1] at h
  exact Nat.lt_one_add_iff.mp h.2

/-! ## Tokens held -/

def Message.token? : Message → Option Token
  | .snapshot token _ | .retryDue token | .signal token _ => some token
  | .setParams _ | .dispose => none

def Session.tokens (s : Session) : List Token :=
  s.snapshot.toList ++ s.channel.toList ++ s.retry.toList

theorem mem_tokens_of_accepts {f : Feed} {message : Message} {token : Token}
    (h : f.Accepts message) (htoken : message.token? = some token) :
    token ∈ f.session.tokens := by
  obtain ⟨-, hheld⟩ := h
  cases message with
  | setParams | dispose => cases htoken
  | snapshot t | retryDue t | signal t =>
    obtain rfl : t = token := Option.some.inj htoken
    simp only [Session.tokens, List.mem_append, Option.mem_toList, hheld, or_true, true_or]

/-- A token held after a message was held before it, or is the next one. -/
theorem mem_tokens_handle {f : Feed} {message : Message} {token : Token}
    (h : token ∈ (f.handle message).1.session.tokens) :
    token ∈ f.session.tokens ∨ token = f.lastToken + 1 := by
  revert h
  induction message using handle_cases (f := f) with
  | refused => exact Or.inl
  | setParams | retryDue => exact fun h => .inr (List.mem_singleton.mp h)
  | dispose => exact fun h => absurd h List.not_mem_nil
  | snapshot t result hphase hheld =>
    have hsession : (f.takeSnapshot result).1.session =
        { f.session with snapshot := none, channel := some (f.lastToken + 1) } := by
      cases result <;> rfl
    rw [hsession]
    simp only [Session.tokens, List.mem_append, Option.mem_toList, Option.some.injEq]
    grind
  | signal t signal hphase hheld =>
    cases signal with
    | opened | event | malformed => exact Or.inl
    | failed failure =>
      simp only [takeSignal, failChannel, publishing, Session.tokens, List.mem_append,
        Option.mem_toList, Option.some.injEq]
      grind

end LiveRuns.Feed
