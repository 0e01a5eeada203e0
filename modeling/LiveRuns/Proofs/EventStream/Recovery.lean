import LiveRuns.Proofs.EventStream.Limit

/-!
The decoder between two chunks.

Whatever chunks have come, passed or failed, a decoder holds the beginning of one frame: no carriage
return, no two line feeds in a row, and no more bytes than the limit, `Sound`.  A chunk that fails
is forgotten, so all that counts are the chunks after it, `Unbroken`: the next one fails if their
line ends, made line feeds, leave more than the limit behind the last frame, `Unbroken.fails_iff`.
And the decoder goes on as a new one, but for a line feed that completes the end of a line begun by
the chunk that failed, `pushes_withoutLf`.

`pushes_recover` has all three.
-/

namespace LiveRuns.EventStream

/-! ## Complete frames and what is left -/

def Complete (piece : List UInt8) : Prop :=
  ∃ front, piece = front ++ [lf, lf] ∧ ¬ [lf, lf] <:+: front ++ [lf]

/-- The complete frames of a buffer, and what is left behind the last of them. -/
structure CutInto (buffer : List UInt8) (pieces : List (List UInt8)) (rest : List UInt8) :
    Prop where
  eq_append : buffer = pieces.flatten ++ rest
  complete : ∀ piece ∈ pieces, Complete piece
  unfinished : ¬ [lf, lf] <:+: rest

theorem pair_infix_cons {b : UInt8} {bytes : List UInt8} :
    [lf, lf] <:+: b :: bytes ↔ (b = lf ∧ bytes.head? = some lf) ∨ [lf, lf] <:+: bytes := by
  rw [List.infix_cons_iff, List.cons_prefix_cons, List.singleton_prefix_iff_head?_eq_some,
    @eq_comm _ lf b]

theorem cut?_eq_none_iff {buffer : List UInt8} :
    cut? buffer = none ↔ ¬ [lf, lf] <:+: buffer := by
  induction buffer with
  | nil => simp [cut?]
  | cons b bytes ih =>
    rw [cut?, pair_infix_cons, not_or, ← ih]
    by_cases hpair : b = lf ∧ bytes.head? = some lf <;> simp [hpair]

theorem complete_of_cut? {buffer piece rest : List UInt8} (h : cut? buffer = some (piece, rest)) :
    buffer = piece ++ rest ∧ Complete piece := by
  induction buffer generalizing piece with
  | nil => cases h
  | cons b bytes ih =>
    rw [cut?] at h
    split at h
    · next hpair =>
      obtain ⟨rfl, hhead⟩ := hpair
      obtain ⟨after, rfl⟩ := List.head?_eq_some_iff.mp hhead
      cases h
      exact ⟨rfl, [], rfl, by simp [pair_infix_cons]⟩
    · next hpair =>
      obtain ⟨⟨piece', rest'⟩, hcut, heq⟩ := Option.map_eq_some_iff.mp h
      cases heq
      obtain ⟨rfl, front, rfl, hfront⟩ := ih hcut
      have hfirst : ¬ (b = lf ∧ (front ++ [lf]).head? = some lf) := by
        cases front <;> exact hpair
      exact ⟨rfl, b :: front, rfl, fun hin => (pair_infix_cons.mp hin).elim hfirst hfront⟩

theorem cutInto_cutAll (buffer : List UInt8) :
    CutInto buffer (cutAll buffer).1 (cutAll buffer).2 := by
  induction buffer using cutAll.induct with
  | case1 buffer hcut =>
    rw [cutAll_of_none hcut]
    exact ⟨rfl, List.forall_mem_nil _, cut?_eq_none_iff.mp hcut⟩
  | case2 buffer piece rest hcut ih =>
    obtain ⟨hbuffer, hpiece⟩ := complete_of_cut? hcut
    rw [cutAll_of_some hcut]
    refine ⟨?_, List.forall_mem_cons.mpr ⟨hpiece, ih.complete⟩, ih.unfinished⟩
    rw [hbuffer, List.flatten_cons, List.append_assoc, ← ih.eq_append]

/-- A buffer is cut in one way only. -/
theorem cutAll_eq_iff {buffer rest : List UInt8} {pieces : List (List UInt8)} :
    cutAll buffer = (pieces, rest) ↔ CutInto buffer pieces rest := by
  constructor
  · intro h
    have hcut := cutInto_cutAll buffer
    rwa [h] at hcut
  · rintro ⟨rfl, hcomplete, hrest⟩
    -- The first two line feeds in a row are those at the end of the first piece.
    induction pieces with
    | nil => exact cutAll_of_none (cut?_eq_none_iff.mpr hrest)
    | cons piece pieces ih =>
      obtain ⟨⟨front, rfl, hfront⟩, hpieces⟩ := List.forall_mem_cons.mp hcomplete
      have hcut := cut?_append_pair (cut?_eq_none_iff.mpr hfront) (pieces.flatten ++ rest)
      have hbuffer : ((front ++ [lf, lf]) :: pieces).flatten ++ rest =
          front ++ lf :: lf :: (pieces.flatten ++ rest) := by
        simp
      rw [hbuffer, cutAll_of_some hcut, ih hpieces]

theorem endsInCr_of_ne_nil {bytes : List UInt8} (h : bytes ≠ []) (afterCr : Bool) :
    endsInCr afterCr bytes = decide (bytes.getLast? = some cr) := by
  rw [endsInCr, List.getLast?_eq_some_getLast h]
  simp

theorem endsInCr_append (afterCr : Bool) (first second : List UInt8) :
    endsInCr afterCr (first ++ second) = endsInCr (endsInCr afterCr first) second := by
  rw [endsInCr, endsInCr, List.getLast?_append]
  cases second.getLast? <;> rfl

namespace Decoder

variable {limit : Nat} {d : Decoder} {chunk : List UInt8} {failure : Failure}

/-! ## What is held -/

/-- A decoder holds the beginning of one frame, within the limit. -/
structure Sound (limit : Nat) (d : Decoder) : Prop where
  no_cr : cr ∉ d.held
  unfinished : ¬ [lf, lf] <:+: d.held.reverse
  pending_le : d.pending ≤ limit

theorem sound_new (limit : Nat) (afterCr : Bool) : Sound limit ⟨[], afterCr⟩ :=
  ⟨List.not_mem_nil, by simp, Nat.zero_le limit⟩

theorem Sound.uncut (h : d.Sound limit) : d.Uncut := cut?_eq_none_iff.mpr h.unfinished

theorem cr_not_mem_hold (h : cr ∉ d.held) {b : UInt8} (hb : b ≠ cr) (afterCr : Bool) :
    cr ∉ (d.hold b afterCr).1.held := by
  by_cases hpair : b = lf ∧ d.held.head? = some lf
  · obtain ⟨rfl, hhead⟩ := hpair
    rw [hold_of_pair hhead]
    exact List.not_mem_nil
  · rw [hold_of_not_pair hpair]
    exact List.not_mem_cons_of_ne_of_not_mem (Ne.symm hb) h

theorem cr_not_mem_step (h : cr ∉ d.held) (b : UInt8) : cr ∉ (d.step b).1.held := by
  rw [step]
  split
  · exact h
  · split
    · exact cr_not_mem_hold h (by decide) true
    · next hb => exact cr_not_mem_hold h hb false

theorem cr_not_mem_run (h : cr ∉ d.held) (bytes : List UInt8) :
    cr ∉ (run [] d bytes).1.held := by
  induction bytes generalizing d with
  | nil => exact h
  | cons b bytes ih =>
    rw [run_cons]
    exact ih (cr_not_mem_step h b)

theorem Sound.push (h : d.Sound limit) (chunk : List UInt8) :
    (d.push limit chunk).1.Sound limit := by
  by_cases hlimit : (run [] d chunk).1.pending ≤ limit
  · have huncut := (h.uncut.run_eq_cutAll chunk).1
    rw [push_of_le hlimit]
    exact ⟨cr_not_mem_run h.no_cr chunk, cut?_eq_none_iff.mp huncut, hlimit⟩
  · rw [push_of_lt (Nat.lt_of_not_le hlimit)]
    exact sound_new limit _

theorem Sound.pushes (h : d.Sound limit) (chunks : List (List UInt8)) :
    (d.pushes limit chunks).1.Sound limit := by
  induction chunks generalizing d with
  | nil => exact h
  | cons chunk chunks ih => exact ih (h.push chunk)

theorem Sound.afterCr_push (h : d.Sound limit) (chunk : List UInt8) :
    (d.push limit chunk).1.afterCr = endsInCr d.afterCr chunk := by
  have hrun := (h.uncut.run_eq_cutAll chunk).2
  by_cases hlimit : (run [] d chunk).1.pending ≤ limit
  · rw [push_of_le hlimit, hrun]
  · rw [push_of_lt (Nat.lt_of_not_le hlimit), hrun]

/-- A decoder remembers whether the last byte that came is a carriage return. -/
theorem Sound.afterCr_pushes (h : d.Sound limit) (chunks : List (List UInt8)) :
    (d.pushes limit chunks).1.afterCr = endsInCr d.afterCr chunks.flatten := by
  induction chunks generalizing d with
  | nil => rfl
  | cons chunk chunks ih =>
    rw [List.flatten_cons, endsInCr_append, ← h.afterCr_push, ← ih (h.push chunk)]
    rfl

/-! ## Chunks that fail -/

theorem fails_iff :
    (∃ failure, (d.push limit chunk).2 = .error failure) ↔
      limit < (run [] d chunk).1.pending := by
  by_cases hlimit : (run [] d chunk).1.pending ≤ limit
  · rw [push_of_le hlimit]
    constructor
    · rintro ⟨failure, h⟩
      cases h
    · exact fun hlt => absurd hlimit (Nat.not_le_of_lt hlt)
  · have hlt := Nat.lt_of_not_le hlimit
    rw [push_of_lt hlt]
    exact ⟨fun _ => hlt, fun _ => ⟨tooLong limit, rfl⟩⟩

/-- Of a chunk that fails nothing is left but whether it ends in a carriage return. -/
theorem Sound.push_error (h : d.Sound limit) (hfail : (d.push limit chunk).2 = .error failure) :
    (d.push limit chunk).1 = ⟨[], decide (chunk.getLast? = some cr)⟩ := by
  have hlimit := fails_iff.mp ⟨failure, hfail⟩
  have hne : chunk ≠ [] := by
    rintro rfl
    exact absurd h.pending_le (Nat.not_le_of_lt hlimit)
  have hafter := h.afterCr_push chunk
  rw [push_of_lt hlimit] at hafter ⊢
  rw [← endsInCr_of_ne_nil hne d.afterCr, ← hafter]

theorem pushes_append (limit : Nat) (d : Decoder) (first second : List (List UInt8)) :
    d.pushes limit (first ++ second) =
      (((d.pushes limit first).1.pushes limit second).1,
        (d.pushes limit first).2 ++ ((d.pushes limit first).1.pushes limit second).2) := by
  induction first generalizing d with
  | nil => rfl
  | cons chunk first ih =>
    rw [List.cons_append]
    simp only [pushes, ih, List.cons_append]

theorem pushes_concat (limit : Nat) (d : Decoder) (chunks : List (List UInt8))
    (chunk : List UInt8) :
    d.pushes limit (chunks ++ [chunk]) =
      (((d.pushes limit chunks).1.push limit chunk).1,
        (d.pushes limit chunks).2 ++ [((d.pushes limit chunks).1.push limit chunk).2]) :=
  pushes_append limit d chunks [chunk]

/-- Chunks of which the last one fails, if there are any, and chunks after it that all pass. -/
structure Unbroken (limit : Nat) (broken passed : List (List UInt8)) : Prop where
  failed : broken = [] ∨ ∃ earlier chunk failure, broken = earlier ++ [chunk] ∧
    ((pushes limit {} earlier).1.push limit chunk).2 = .error failure
  passed : ∃ frames : List (List Frame),
    ((pushes limit {} broken).1.pushes limit passed).2 = frames.map .ok

/-- All chunks can be parted so. -/
theorem exists_unbroken (limit : Nat) (chunks : List (List UInt8)) :
    ∃ broken passed, chunks = broken ++ passed ∧ Unbroken limit broken passed := by
  induction chunks using List.reverseRecOn with
  | nil => exact ⟨[], [], rfl, .inl rfl, [], rfl⟩
  | append_singleton chunks chunk ih =>
    obtain ⟨broken, passed, rfl, hfailed, frames, hpassed⟩ := ih
    have hstate : (pushes limit {} (broken ++ passed)).1 =
        ((pushes limit {} broken).1.pushes limit passed).1 := by
      rw [pushes_append]
    rcases hpush : ((pushes limit {} (broken ++ passed)).1.push limit chunk).2 with failure | last
    · -- All chunks up to this one now stand before the last failure.
      exact ⟨broken ++ passed ++ [chunk], [], (List.append_nil _).symm,
        .inr ⟨broken ++ passed, chunk, failure, rfl, hpush⟩, [], rfl⟩
    · refine ⟨broken, passed ++ [chunk], List.append_assoc .., hfailed, frames ++ [last], ?_⟩
      rw [pushes_concat, hpassed, ← hstate, hpush, List.map_append]
      rfl

variable {broken passed : List (List UInt8)}

theorem Unbroken.state_broken (h : Unbroken limit broken passed) :
    (pushes limit {} broken).1 = ⟨[], endsInCr false broken.flatten⟩ := by
  have hafter := (sound_new limit false).afterCr_pushes broken
  have hheld : (pushes limit {} broken).1.held = [] := by
    obtain rfl | ⟨earlier, chunk, failure, rfl, hfail⟩ := h.failed
    · rfl
    · rw [pushes_concat, ((sound_new limit false).pushes earlier).push_error hfail]
  rcases hstate : (pushes limit {} broken).1 with ⟨held, afterCr⟩
  rw [hstate] at hafter hheld
  rw [← hafter, ← hheld]

/-- After chunks that pass, a chunk fails if more than the limit is left of it and them, since the
last one that failed, behind the last frame that they complete. -/
theorem Unbroken.fails_iff (h : Unbroken limit broken passed) (chunk : List UInt8) :
    (∃ failure, ((pushes limit {} (broken ++ passed)).1.push limit chunk).2 = .error failure) ↔
      limit < (cutAll (normalised (endsInCr false broken.flatten)
        (passed.flatten ++ chunk))).2.length := by
  -- The chunks since the failure and the new one are run at once, from a decoder that holds nothing.
  obtain ⟨frames, hpassed⟩ := h.passed
  have hstate := pushes_state hpassed
  have hrun := ((uncut_new (endsInCr false broken.flatten)).run_eq_cutAll
    (passed.flatten ++ chunk)).2
  rw [run_append] at hrun
  rw [Decoder.fails_iff, pushes_append, hstate, h.state_broken, congrArg Prod.fst hrun, pending,
    List.length_reverse]
  rfl

/-! ## Chunks after one that failed -/

/-- The chunks without the first byte of them all, if it is a line feed. -/
def withoutLf : List (List UInt8) → List (List UInt8)
  | [] => []
  | [] :: chunks => [] :: withoutLf chunks
  | (b :: bytes) :: chunks => (if b = lf then bytes else b :: bytes) :: chunks

/-- A decoder that holds nothing after a carriage return takes chunks as a new one takes them
without the line feed at their start. -/
theorem pushes_withoutLf (limit : Nat) (chunks : List (List UInt8)) :
    (pushes limit ⟨[], true⟩ chunks).2 = (pushes limit {} (withoutLf chunks)).2 ∧
      (pushes limit ⟨[], true⟩ chunks).1.held = (pushes limit {} (withoutLf chunks)).1.held := by
  induction chunks with
  | nil => exact ⟨rfl, rfl⟩
  | cons chunk chunks ih =>
    cases chunk with
    | nil =>
      -- Nothing comes, and the carriage return is still the last byte.
      have hpush : ∀ afterCr, push limit ⟨[], afterCr⟩ [] = (⟨[], afterCr⟩, .ok []) :=
        fun _ => push_of_le (Nat.zero_le limit)
      obtain ⟨hresults, hheld⟩ := ih
      rw [withoutLf]
      simp only [pushes, hpush, hresults, hheld, and_self]
    | cons b bytes =>
      have hpush : push limit ⟨[], true⟩ (b :: bytes) =
          push limit {} (if b = lf then bytes else b :: bytes) := by
        by_cases hb : b = lf
        · rw [if_pos hb, hb]
          rfl
        · have hstep : step ⟨[], true⟩ b = step {} b := by simp [step, hold, hb]
          have hrun : run [] ⟨[], true⟩ (b :: bytes) = run [] {} (b :: bytes) := by
            rw [run_cons, run_cons, hstep]
          rw [if_neg hb, push, push, hrun]
      rw [withoutLf]
      simp only [pushes, hpush, and_self]

/-! ## The law of recovery -/

/-- After any chunks, of which any may have failed: the decoder holds the beginning of one frame,
within the limit; a chunk fails just if it leaves, with the chunks since the last one that failed
and with line feeds for all ends of lines, more than the limit behind the last complete frame; and
after a chunk that fails, whatever chunks come have the results, and leave held, what they have and
leave with a new decoder, without the line feed at their start if the chunk ended in a carriage
return. -/
theorem pushes_recover (limit : Nat) (before : List (List UInt8)) :
    (pushes limit {} before).1.Sound limit ∧
      (∃ broken passed, before = broken ++ passed ∧ Unbroken limit broken passed ∧
        ∀ chunk, ∃ pieces rest,
          CutInto (normalised (endsInCr false broken.flatten) (passed.flatten ++ chunk))
            pieces rest ∧
          ((∃ failure, ((pushes limit {} before).1.push limit chunk).2 = .error failure) ↔
            limit < rest.length)) ∧
      ∀ chunk failure, ((pushes limit {} before).1.push limit chunk).2 = .error failure →
        ∀ later,
          let next := ((pushes limit {} before).1.push limit chunk).1
          let kept := if chunk.getLast? = some cr then withoutLf later else later
          (next.pushes limit later).2 = (pushes limit {} kept).2 ∧
            (next.pushes limit later).1.held = (pushes limit {} kept).1.held := by
  have hsound : (pushes limit {} before).1.Sound limit := (sound_new limit false).pushes before
  refine ⟨hsound, ?_, fun chunk failure hfail later => ?_⟩
  · obtain ⟨broken, passed, hbefore, hunbroken⟩ := exists_unbroken limit before
    refine ⟨broken, passed, hbefore, hunbroken, fun chunk => ⟨_, _, cutAll_eq_iff.mp rfl, ?_⟩⟩
    rw [← hunbroken.fails_iff chunk, ← hbefore]
  · intro next kept
    have hnext : next = ⟨[], decide (chunk.getLast? = some cr)⟩ := hsound.push_error hfail
    by_cases hcr : chunk.getLast? = some cr
    · have hkept : kept = withoutLf later := if_pos hcr
      rw [hnext, hkept, decide_eq_true hcr]
      exact pushes_withoutLf limit later
    · have hkept : kept = later := if_neg hcr
      rw [hnext, hkept, decide_eq_false hcr]
      exact ⟨rfl, rfl⟩

/-- No byte, the second byte of a line end and the group `data:b`, and again such a byte. -/
def afterFailing : List (List UInt8) :=
  [[], [lf, 0x64, 0x61, 0x74, 0x61, 0x3A, 0x62, lf, cr], [lf]]

theorem pushes_recover_failing :
    let d := (pushes 8 {} [[0x61]]).1
    (d.push 8 failing).2 = .error (tooLong 8) ∧
      ((d.push 8 failing).1.pushes 8 afterFailing).2 =
        (pushes 8 {} (withoutLf afterFailing)).2 ∧
      (pushes 8 {} (withoutLf afterFailing)).2 = [.ok [], .ok [⟨none, none, "b"⟩], .ok []] ∧
      ((d.push 8 failing).1.pushes 8 afterFailing).1.Sound 8 := by
  intro d
  have hfail : (d.push 8 failing).2 = .error (tooLong 8) := rfl
  obtain ⟨-, -, hlater⟩ := pushes_recover 8 [[0x61]]
  obtain ⟨hsound, -, -⟩ := pushes_recover 8 ([[0x61], failing] ++ afterFailing)
  exact ⟨hfail, (hlater failing (tooLong 8) hfail afterFailing).1, rfl, hsound⟩

end Decoder

end LiveRuns.EventStream
