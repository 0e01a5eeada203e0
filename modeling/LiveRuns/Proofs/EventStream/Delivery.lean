import LiveRuns.Proofs.EventStream.Limit
import LiveRuns.Proofs.EventStream.Rendering
import LiveRuns.Proofs.Utf8.Encode

/-!
Frames that are written come out.

However the bytes of some renderings are cut into chunks, no chunk fails and the frames come out in
order, if each of them is within the limit when it is written; that is the main statement,
`pushes_rendered`.

The proof follows the decoder.  Whatever it remembers of a carriage return, it takes the lines of a
frame one by one and cuts the frame at the empty line, `Rendering.run_bytes`, and then it holds
nothing.  So within a rendering it never holds more than the bytes of that rendering that have come,
`Rendering.pending_run_le`.
-/

namespace LiveRuns.EventStream

/-! ## What the decoder does with a rendering -/

namespace Decoder

theorem run_line {line : List UInt8} (hcr : cr ∉ line) (hlf : lf ∉ line) (d : Decoder) :
    run [] d line = (⟨line.reverse ++ d.held, d.afterCr && line.isEmpty⟩, []) := by
  induction line generalizing d with
  | nil => simp [run]
  | cons b line ih =>
    simp only [List.mem_cons, not_or] at hcr hlf
    have hb : b ≠ lf := Ne.symm hlf.1
    have hstep : d.step b = (⟨b :: d.held, false⟩, none) := by
      rw [step, if_neg (fun h => hb h.1), if_neg (Ne.symm hcr.1),
        hold_of_not_pair (fun h => hb h.1)]
    rw [run_cons, hstep, ih hcr.2 hlf.2]
    simp

theorem hold_afterCr (d : Decoder) (b : UInt8) (afterCr : Bool) :
    d.hold b afterCr = ({ (d.hold b false).1 with afterCr := afterCr }, (d.hold b false).2) := by
  unfold hold
  cases d.held with
  | nil => rfl
  | cons last held =>
    simp only
    split <;> rfl

/-- An end of a line is one line feed, unless its line feed belongs to a carriage return before. -/
theorem run_ending {d : Decoder} {ending : LineEnd} (h : d.afterCr = true → ending ≠ .lineFeed) :
    run [] d ending.bytes =
      ({ (d.hold lf false).1 with afterCr := decide (ending = .carriageReturn) },
        (d.hold lf false).2.toList) := by
  have hcr : d.step cr = ({ (d.hold lf false).1 with afterCr := true }, (d.hold lf false).2) := by
    rw [step, if_neg (fun h => absurd h.1 (by decide)), if_pos rfl, hold_afterCr]
  cases ending with
  | lineFeed =>
    have hafter : ¬ (lf = lf ∧ d.afterCr = true) := fun hc => h hc.2 rfl
    have hlf : d.step lf =
        ({ (d.hold lf false).1 with afterCr := false }, (d.hold lf false).2) := by
      rw [step, if_neg hafter, if_neg (by decide), hold_afterCr]
    rw [LineEnd.bytes, run_cons, hlf]
    simp [run]
  | carriageReturn =>
    rw [LineEnd.bytes, run_cons, hcr]
    simp [run]
  | both =>
    rw [LineEnd.bytes, run_cons, hcr, run_cons]
    simp [run, step]

theorem run_lines {lines : List (List UInt8)} (hne : ∀ line ∈ lines, line ≠ [])
    (hcr : ∀ line ∈ lines, cr ∉ line) (hlf : ∀ line ∈ lines, lf ∉ line) (ending : LineEnd)
    (d : Decoder) :
    run [] d (lines.flatMap (· ++ ending.bytes)) =
      (⟨(lines.flatMap (· ++ [lf])).reverse ++ d.held,
        if lines = [] then d.afterCr else decide (ending = .carriageReturn)⟩, []) := by
  induction lines generalizing d with
  | nil => rfl
  | cons line lines ih =>
    obtain ⟨hne, hnes⟩ := List.forall_mem_cons.mp hne
    obtain ⟨hcr, hcrs⟩ := List.forall_mem_cons.mp hcr
    obtain ⟨hlf, hlfs⟩ := List.forall_mem_cons.mp hlf
    have hline : run [] d line = (⟨line.reverse ++ d.held, false⟩, []) := by
      rw [run_line hcr hlf]
      simp [hne]
    -- The byte before the line feed is the last one of the line, so nothing is cut.
    have hlast : (line.reverse ++ d.held).head? ≠ some lf := by
      obtain ⟨last, rest, heq⟩ := List.exists_cons_of_ne_nil (List.reverse_ne_nil_iff.mpr hne)
      have hmem : last ∈ line := List.mem_reverse.mp (heq ▸ List.mem_cons_self)
      rw [heq]
      intro h
      exact hlf (Option.some.inj h ▸ hmem)
    have hending : run [] ⟨line.reverse ++ d.held, false⟩ ending.bytes =
        (⟨lf :: (line.reverse ++ d.held), decide (ending = .carriageReturn)⟩, []) := by
      rw [run_ending (by simp), hold_of_not_pair (fun h => hlast h.2)]
      rfl
    rw [List.flatMap_cons, run_append, run_append, hline, hending, ih hnes hcrs hlfs]
    simp

theorem pending_step_le (d : Decoder) (b : UInt8) : (d.step b).1.pending ≤ d.pending + 1 := by
  have hhold : ∀ b afterCr, (d.hold b afterCr).1.pending ≤ d.pending + 1 := by
    intro b afterCr
    simp only [hold, pending]
    split
    · split <;> simp_all
    · simp
  simp only [step]
  split_ifs
  · exact Nat.le_succ _
  · exact hhold lf true
  · exact hhold b false

/-- No more is held than has come. -/
theorem pending_run_le (d : Decoder) (bytes : List UInt8) :
    (run [] d bytes).1.pending ≤ d.pending + bytes.length := by
  induction bytes generalizing d with
  | nil => exact Nat.le_refl _
  | cons b bytes ih =>
    have hstep := pending_step_le d b
    have hrest := ih (d.step b).1
    rw [run_cons, List.length_cons]
    simp only
    omega

/-- Chunks pass if what is held after any first part of their bytes is within the limit. -/
theorem exists_frames_of_pending_le {limit : Nat} {d : Decoder} {chunks : List (List UInt8)}
    (h : ∀ bytes, bytes <+: chunks.flatten → (run [] d bytes).1.pending ≤ limit) :
    ∃ frames : List (List Frame), (pushes limit d chunks).2 = frames.map .ok := by
  induction chunks generalizing d with
  | nil => exact ⟨[], rfl⟩
  | cons chunk chunks ih =>
    have hfirst : (run [] d chunk).1.pending ≤ limit := h chunk (List.prefix_append chunk _)
    have hrest : ∀ bytes, bytes <+: chunks.flatten →
        (run [] (run [] d chunk).1 bytes).1.pending ≤ limit := by
      intro bytes hbytes
      have hboth := h (chunk ++ bytes) ((List.prefix_append_right_inj chunk).mpr hbytes)
      rwa [run_append] at hboth
    obtain ⟨frames, hframes⟩ := ih hrest
    refine ⟨(run [] d chunk).2 :: frames, ?_⟩
    simp only [pushes, push_of_le hfirst, hframes, List.map_cons]

end Decoder

namespace Rendering

theorem text_ne_nil {line : Line} (h : line.Named) : line.text.toList ≠ [] := by
  cases line with
  | known name value => simp [Line.text]
  | comment text => simp [Line.text]
  | other name value =>
    have hname : name ≠ "" := h.1
    cases value <;> simp [Line.text, hname]

def encoded (r : Rendering) : List (List UInt8) :=
  r.lines.map fun line => Utf8.encode line.text.toList

theorem bytes_eq (r : Rendering) :
    r.bytes = r.encoded.flatMap (· ++ r.ending.bytes) ++ r.ending.bytes := by
  rw [bytes, encoded, List.flatMap_map]

theorem encoded_ne_nil (r : Rendering) : r.encoded ≠ [] := by
  intro h
  have hlines : r.lines = [] := List.map_eq_nil_iff.mp h
  have hdata := r.data_eq
  rw [hlines] at hdata
  exact Text.split_ne_nil _ _ (List.map_eq_nil_iff.mp hdata.symm)

theorem plain_of_mem_encoded {r : Rendering} {line : List UInt8} (h : line ∈ r.encoded) :
    line ≠ [] ∧ cr ∉ line ∧ lf ∉ line := by
  obtain ⟨written, hmem, rfl⟩ := List.mem_map.mp h
  have hproper := r.proper written hmem
  have hback := Utf8.decode_encode written.text.toList
  refine ⟨fun hnil => ?_, fun hcr => ?_, fun hlf => ?_⟩
  · rw [hnil] at hback
    exact text_ne_nil hproper.named hback.symm
  · obtain ⟨front, rest, heq⟩ := List.append_of_mem hcr
    rw [heq, decode_append_cr] at hback
    exact hproper.no_cr (hback ▸ by simp)
  · obtain ⟨front, rest, heq⟩ := List.append_of_mem hlf
    rw [heq, decode_append_lf] at hback
    exact hproper.no_lf (hback ▸ by simp)

/-- What is held before the empty line is the group of the lines. -/
theorem holds_encoded (r : Rendering) (afterCr : Bool) :
    Holds ⟨(r.encoded.flatMap (· ++ [lf])).reverse, afterCr⟩ r.encoded.reverse [] := by
  refine ⟨⟨[], .inl rfl, ?_⟩, ?_, ?_, List.not_mem_nil⟩
  · simp [List.reverse_flatMap, Function.comp_def]
  · intro line hline
    exact (plain_of_mem_encoded (List.mem_reverse.mp hline)).1
  · intro line hline
    exact (plain_of_mem_encoded (List.mem_reverse.mp hline)).2.2

theorem frameOf_encoded (r : Rendering) : frameOf r.encoded = some r.frame := by
  rw [frameOf, encoded, List.map_map, ← r.ofGroup_eq]
  simp [Function.comp_def]

/-- A decoder that holds nothing cuts the frame from a rendering, and holds nothing again. -/
theorem run_bytes (r : Rendering) {d : Decoder} (h : d.held = []) :
    Decoder.run [] d r.bytes = (⟨[], decide (r.ending = .carriageReturn)⟩, [r.frame]) := by
  have hlines : Decoder.run [] d (r.encoded.flatMap (· ++ r.ending.bytes)) =
      (⟨(r.encoded.flatMap (· ++ [lf])).reverse, decide (r.ending = .carriageReturn)⟩, []) := by
    rw [Decoder.run_lines (fun line hline => (plain_of_mem_encoded hline).1)
      (fun line hline => (plain_of_mem_encoded hline).2.1)
      (fun line hline => (plain_of_mem_encoded hline).2.2), h, if_neg r.encoded_ne_nil,
      List.append_nil]
  have hhead : (r.encoded.flatMap (· ++ [lf])).reverse.head? = some lf := by
    obtain ⟨front, last, hlast⟩ := (List.eq_nil_or_concat _).resolve_left r.encoded_ne_nil
    rw [hlast]
    simp
  -- After a carriage return the empty line starts with another one, so it is not dropped.
  have hended : decide (r.ending = .carriageReturn) = true → r.ending ≠ .lineFeed := by
    intro hcr hlf
    rw [hlf] at hcr
    cases hcr
  have hframe := (r.holds_encoded (decide (r.ending = .carriageReturn))).ofBytes
  rw [List.reverse_reverse, r.frameOf_encoded] at hframe
  rw [r.bytes_eq, Decoder.run_append, hlines, Decoder.run_ending hended,
    Decoder.hold_of_pair hhead, hframe]
  rfl

/-- What a decoder holds of some renderings, the last of which may be unfinished, is within the
limit. -/
theorem pending_run_le {limit : Nat} {renderings : List Rendering}
    (short : ∀ r ∈ renderings, r.bytes.length ≤ limit) {d : Decoder} (h : d.held = [])
    {bytes : List UInt8} (hbytes : bytes <+: renderings.flatMap Rendering.bytes) :
    (Decoder.run [] d bytes).1.pending ≤ limit := by
  induction renderings generalizing d bytes with
  | nil =>
    obtain rfl := List.prefix_nil.mp hbytes
    show d.held.length ≤ limit
    simp [h]
  | cons r renderings ih =>
    obtain ⟨short, shorts⟩ := List.forall_mem_cons.mp short
    obtain ⟨rest, hrest⟩ := hbytes
    rw [List.flatMap_cons] at hrest
    rcases List.append_eq_append_iff.mp hrest with ⟨more, hr, -⟩ | ⟨later, rfl, hlater⟩
    · -- Only a part of the first one has come.
      have hheld := Decoder.pending_run_le d bytes
      have hempty : d.pending = 0 := by simp [Decoder.pending, h]
      have hlength : r.bytes.length = bytes.length + more.length := by rw [hr, List.length_append]
      omega
    · -- Nothing is held after the first one, so only the others count.
      rw [Decoder.run_append, r.run_bytes h]
      exact ih shorts rfl ⟨rest, hlater.symm⟩

theorem run_flatMap_bytes (renderings : List Rendering) {d : Decoder} (h : d.held = []) :
    (Decoder.run [] d (renderings.flatMap Rendering.bytes)).1.held = [] ∧
      (Decoder.run [] d (renderings.flatMap Rendering.bytes)).2 =
        renderings.map Rendering.frame := by
  induction renderings generalizing d with
  | nil => exact ⟨h, rfl⟩
  | cons r renderings ih =>
    rw [List.flatMap_cons, Decoder.run_append, r.run_bytes h]
    obtain ⟨hheld, hframes⟩ := ih (d := ⟨[], decide (r.ending = .carriageReturn)⟩) rfl
    exact ⟨hheld, congrArg ([r.frame] ++ ·) hframes⟩

end Rendering

/-- Every plain frame can be written with lines of any end.  However some frames are written, and
however the bytes are then cut into chunks, if each rendering is within the limit then no chunk
fails, the frames come out in order, and nothing is held in the end. -/
theorem pushes_rendered {frames : List Frame} (plain : ∀ frame ∈ frames, frame.Plain) :
    (∀ frame ∈ frames, ∀ ending, ∃ r : Rendering, r.frame = frame ∧ r.ending = ending) ∧
      ∀ (renderings : List Rendering) (limit : Nat) (chunks : List (List UInt8)),
        renderings.map Rendering.frame = frames →
        (∀ r ∈ renderings, r.bytes.length ≤ limit) →
        chunks.flatten = renderings.flatMap Rendering.bytes →
          ∃ results : List (List Frame),
            (Decoder.pushes limit {} chunks).2 = results.map .ok ∧ results.flatten = frames ∧
              (Decoder.pushes limit {} chunks).1.pending = 0 := by
  refine ⟨fun frame hframe => exists_rendering (plain frame hframe), ?_⟩
  intro renderings limit chunks hframes short cut
  obtain ⟨hheld, hwhole⟩ := Rendering.run_flatMap_bytes renderings (d := {}) rfl
  have hwithin : ∀ bytes, bytes <+: chunks.flatten →
      (Decoder.run [] {} bytes).1.pending ≤ limit := by
    intro bytes hbytes
    exact Rendering.pending_run_le short rfl (cut ▸ hbytes)
  obtain ⟨results, hpassed⟩ := Decoder.exists_frames_of_pending_le hwithin
  refine ⟨results, hpassed, ?_, ?_⟩
  · rw [Decoder.pushes_run hpassed, cut, hwhole, hframes]
  · rw [Decoder.pushes_state hpassed, cut, Decoder.pending, hheld]
    rfl

/-- A frame with a character of two bytes after a space, and an empty part of its data. -/
def note : Frame := ⟨some "note", none, " é\n"⟩

def colon : Frame := ⟨none, some "", ":"⟩

/-- The two in a way of writing each: a comment and a field of another name in between and line ends
of two bytes, and carriage returns. -/
def letters : List Rendering :=
  [⟨note, .both, [.known "data" " é", .comment " later", .known "event" "note",
      .other "datas" (some " x"), .known "data" ""], by decide, by decide, by decide, by decide⟩,
    ⟨colon, .carriageReturn, [.known "id" "", .other "data_" none, .known "data" ":"],
      by decide, by decide, by decide, by decide⟩]

/-- Cut after every byte, they come out one after the other. -/
theorem pushes_rendered_letters :
    (∀ frame ∈ [note, colon], frame.Plain) ∧ (∀ r ∈ letters, r.bytes.length ≤ 53) ∧
      ∃ results : List (List Frame),
        (Decoder.pushes 53 {} ((letters.flatMap Rendering.bytes).map ([·]))).2 = results.map .ok ∧
          results.flatten = [note, colon] ∧
          (Decoder.pushes 53 {} ((letters.flatMap Rendering.bytes).map ([·]))).1.pending = 0 := by
  have plain : ∀ frame ∈ [note, colon], frame.Plain := by
    intro frame hframe
    simp only [List.mem_cons, List.not_mem_nil, or_false] at hframe
    rcases hframe with rfl | rfl <;> exact ⟨by decide, by decide, by decide⟩
  have short : ∀ r ∈ letters, r.bytes.length ≤ 53 := by decide +kernel
  have cut : ((letters.flatMap Rendering.bytes).map ([·])).flatten =
      letters.flatMap Rendering.bytes := by
    rw [← List.flatMap_def, List.flatMap_singleton']
  exact ⟨plain, short, (pushes_rendered plain).2 letters 53 _ rfl short cut⟩

end LiveRuns.EventStream
