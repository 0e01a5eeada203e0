import LiveRuns.Proofs.EventStream.Buffer

/-!
What the limit does to a stream.

The limit is tested once for each chunk, after all its frames are cut, on the unfinished frame that
is left, `isOk_push_iff`.  So two chunks fare as the one they make up, `push_append`: where a stream
is cut decides neither its frames nor, as long as the first part passes, whether it fails.

It does decide how many frames are lost.  A chunk that fails takes with it the frames that it has
completed itself, so a stream that the limit ends has brought the frames of the chunks before that
one, `framesOf_of_overflows`, and not all whose end has come in, `not_all_frames_of_overflows`.
-/

namespace LiveRuns.EventStream

namespace Decoder

/-! ## One chunk -/

variable {limit : Nat} {d : Decoder} {chunk : List UInt8}

theorem push_of_le (h : (run [] d chunk).1.pending ≤ limit) :
    d.push limit chunk = ((run [] d chunk).1, .ok (run [] d chunk).2) := by
  have hlimit : ¬ limit < (run [] d chunk).1.pending := by omega
  simp only [push, hlimit, if_false]

theorem push_of_lt (h : limit < (run [] d chunk).1.pending) :
    d.push limit chunk =
      ({ (run [] d chunk).1 with held := [] }, .error (tooLong limit)) := by
  simp only [push, h, if_true]

/-- Whatever a decoder holds, a chunk that does not fail may be joined to the next one. -/
theorem push_append {first : List UInt8} {frames : List Frame}
    (h : (d.push limit first).2 = .ok frames) (second : List UInt8) :
    d.push limit (first ++ second) =
      (((d.push limit first).1.push limit second).1,
        ((d.push limit first).1.push limit second).2.map (frames ++ ·)) := by
  obtain ⟨hfirst, hframes⟩ := push_ok h
  have hrun := run_append d first second
  rw [hfirst]
  -- The limit is tested on the same remainder.
  by_cases hlimit : (run [] (run [] d first).1 second).1.pending ≤ limit
  · have hboth : (run [] d (first ++ second)).1.pending ≤ limit := by rwa [hrun]
    rw [push_of_le hlimit, push_of_le hboth, hrun, hframes]
    rfl
  · have hboth : limit < (run [] d (first ++ second)).1.pending := by
      rw [hrun]
      exact Nat.lt_of_not_le hlimit
    rw [push_of_lt (Nat.lt_of_not_le hlimit), push_of_lt hboth, hrun]
    rfl

/-- A chunk fails if what is left behind its last frame is longer than the limit, however much it
completes. -/
theorem isOk_push_iff (limit : Nat) (before : List (List UInt8)) (chunk : List UInt8) :
    ((pushes limit {} before).1.push limit chunk).2.isOk ↔
      (cutAll ((pushes limit {} before).1.held.reverse ++
        normalised (pushes limit {} before).1.afterCr chunk)).2.length ≤ limit := by
  rw [push_eq_cutAll]
  split
  · next hlimit => simpa [Except.isOk, Except.toBool] using hlimit
  · next hlimit => simpa [Except.isOk, Except.toBool] using hlimit

/-- After any chunks, failed ones included, a chunk that does not fail may be joined to the next one:
both together fail if and only if the next one does, bring the frames of the two if not, and leave
the decoder in the same state either way.  Whether they fail is told by what they leave alone. -/
theorem push_append_of_pushes {limit : Nat} {before : List (List UInt8)} {first : List UInt8}
    {frames : List Frame} (h : ((pushes limit {} before).1.push limit first).2 = .ok frames)
    (second : List UInt8) :
    let d := (pushes limit {} before).1
    let next := (d.push limit first).1
    ((next.push limit second).2.isOk ↔ (d.push limit (first ++ second)).2.isOk) ∧
      (d.push limit (first ++ second)).2 = (next.push limit second).2.map (frames ++ ·) ∧
      (d.push limit (first ++ second)).1 = (next.push limit second).1 ∧
      ((d.push limit (first ++ second)).2.isOk ↔
        (cutAll (d.held.reverse ++ normalised d.afterCr (first ++ second))).2.length ≤ limit) := by
  intro d next
  have hboth : d.push limit (first ++ second) =
      ((next.push limit second).1, (next.push limit second).2.map (frames ++ ·)) :=
    push_append h second
  have hleft := isOk_push_iff limit before (first ++ second)
  refine ⟨?_, by rw [hboth], by rw [hboth], hleft⟩
  rw [hboth]
  cases (next.push limit second).2 <;> exact Iff.rfl

/-- Nine bytes and a carriage return, too many for a limit of eight; a line feed to come would still
belong to the line that they end. -/
def failing : List UInt8 := [0x30, 0x31, 0x32, 0x33, 0x34, 0x35, 0x36, 0x37, 0x38, cr]

/-- The line `data:a` between the second byte of a line end and the first byte of another. -/
def betweenEnds : List UInt8 := [lf, 0x64, 0x61, 0x74, 0x61, 0x3A, 0x61, cr]

theorem push_append_of_pushes_failing :
    ((pushes 8 {} [failing]).1.push 8 betweenEnds).2 = .ok [] ∧
      ((pushes 8 {} [failing]).1.push 8 (betweenEnds ++ [lf, lf, 0x62])).2 =
        .ok [⟨none, none, "a"⟩] ∧
      ((pushes 8 {} [failing]).1.push 8 (betweenEnds ++ [lf, lf, 0x62])).1 = ⟨[0x62], false⟩ := by
  have hfirst : ((pushes 8 {} [failing]).1.push 8 betweenEnds).2 = .ok [] := rfl
  obtain ⟨-, hframes, hstate, -⟩ := push_append_of_pushes hfirst [lf, lf, 0x62]
  exact ⟨hfirst, hframes, hstate⟩

theorem pushes_state {chunks : List (List UInt8)} {frames : List (List Frame)}
    (h : (d.pushes limit chunks).2 = frames.map .ok) :
    (d.pushes limit chunks).1 = (run [] d chunks.flatten).1 := by
  induction chunks generalizing d frames with
  | nil => rfl
  | cons chunk chunks ih =>
    obtain ⟨hpush, rest, rfl, hrest⟩ := pushes_cons_ok h
    rw [List.flatten_cons, run_append, ← ih hrest, pushes, hpush]

end Decoder

/-! ## Streams of chunks -/

open Decoder (pushes pushes_cons_ok pushes_run pushes_state)

/-- Chunks that all pass, followed by one that leaves more than the limit. -/
structure Overflows (limit : Nat) (before : List (List UInt8)) (chunk : List UInt8) : Prop where
  passed : ∃ frames : List (List Frame), (pushes limit {} before).2 = frames.map .ok
  failed : ((pushes limit {} before).1.push limit chunk).2 = .error (Decoder.tooLong limit)

theorem run_new_eq_readWhole (bytes : List UInt8) : (Decoder.run [] {} bytes).2 = readWhole bytes := by
  rw [holds_new.run_eq_frames, unread_false, readWhole_eq]
  rfl

/-- Chunks that pass are frames first, and then the stream goes on. -/
theorem framesFrom_append {limit : Nat} {d : Decoder} {before : List (List UInt8)}
    {frames : List (List Frame)} (h : (pushes limit d before).2 = frames.map .ok)
    (rest : List (Except String (List UInt8))) :
    framesFrom limit d (before.map .ok ++ rest) =
      { framesFrom limit (pushes limit d before).1 rest with
        frames := frames.flatten ++ (framesFrom limit (pushes limit d before).1 rest).frames } := by
  induction before generalizing d frames with
  | nil =>
    obtain rfl : frames = [] := List.map_eq_nil_iff.mp h.symm
    rfl
  | cons chunk before ih =>
    obtain ⟨hpush, later, rfl, hlater⟩ := pushes_cons_ok h
    simp only [List.map_cons, List.cons_append, framesFrom, pushes, hpush, ih hlater,
      List.flatten_cons, List.append_assoc]

theorem framesFrom_of_push_error {limit : Nat} {d : Decoder} {chunk : List UInt8}
    {failure : Failure} (h : (d.push limit chunk).2 = .error failure)
    (after : List (Except String (List UInt8))) :
    framesFrom limit d (.ok chunk :: after) = ⟨[], some failure⟩ := by
  rcases hpush : d.push limit chunk with ⟨next, result⟩
  rw [hpush] at h
  simp only at h
  subst h
  simp only [framesFrom, hpush]

/-- A stream that the limit ends has brought the frames of the chunks before the last, and none of
those that the last one has completed. -/
theorem framesOf_of_overflows {limit : Nat} {before : List (List UInt8)} {chunk : List UInt8}
    (h : Overflows limit before chunk) (after : List (Except String (List UInt8))) :
    framesOf limit (before.map .ok ++ .ok chunk :: after) =
        ⟨readWhole before.flatten, some (Decoder.tooLong limit)⟩ ∧
      readWhole (before.flatten ++ chunk) =
        readWhole before.flatten ++ (Decoder.run [] (pushes limit {} before).1 chunk).2 := by
  obtain ⟨⟨frames, hpassed⟩, hfailed⟩ := h
  have hframes : frames.flatten = readWhole before.flatten := by
    rw [pushes_run hpassed, run_new_eq_readWhole]
  constructor
  · rw [framesOf, framesFrom_append hpassed, framesFrom_of_push_error hfailed, List.append_nil,
      hframes]
  · rw [← run_new_eq_readWhole, Decoder.run_append, run_new_eq_readWhole, pushes_state hpassed]

def passing : List UInt8 := [0x64, 0x61, 0x74, 0x61, 0x3A, 0x20, 0x61, lf, lf]

/-- The chunk `data: b` with its end and `data: cde`, nine bytes without one. -/
def overflowing : List UInt8 :=
  [0x64, 0x61, 0x74, 0x61, 0x3A, 0x20, 0x62, lf, lf,
    0x64, 0x61, 0x74, 0x61, 0x3A, 0x20, 0x63, 0x64, 0x65]

theorem overflows_overflowing : Overflows 8 [passing] overflowing :=
  ⟨⟨[[⟨none, none, "a"⟩]], rfl⟩, rfl⟩

theorem framesOf_of_overflows_overflowing :
    Overflows 8 [passing] overflowing ∧
      framesOf 8 [.ok passing, .ok overflowing] =
        ⟨[⟨none, none, "a"⟩], some (Decoder.tooLong 8)⟩ ∧
      readWhole (passing ++ overflowing) = [⟨none, none, "a"⟩, ⟨none, none, "b"⟩] := by
  obtain ⟨hstream, hwhole⟩ := framesOf_of_overflows overflows_overflowing []
  exact ⟨overflows_overflowing, hstream, hwhole⟩

/-- Not every frame whose end has come in is brought before the stream fails. -/
theorem not_all_frames_of_overflows :
    ¬ ∀ limit before chunk after, Overflows limit before chunk →
      (framesOf limit (before.map .ok ++ .ok chunk :: after)).frames =
        readWhole (before.flatten ++ chunk) := by
  intro hall
  have hframes := hall 8 [passing] overflowing [] overflows_overflowing
  have hlost : [(⟨none, none, "a"⟩ : Frame)] = [⟨none, none, "a"⟩, ⟨none, none, "b"⟩] := hframes
  cases hlost

end LiveRuns.EventStream
