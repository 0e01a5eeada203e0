import LiveRuns.EventStream.Decoder
import LiveRuns.Proofs.EventStream.Lines

/-!
An event stream that comes in chunks.

The decoder sees no chunks: it takes bytes one after the other, and `pushes_run` says that chunks
none of which fails bring what their bytes bring at once.  What it holds is the unfinished group,
`Holds`, with at most one empty line in front, for which no group is cut.  Each byte moves the
decoder as it moves the split into lines and groups, `Holds.run_eq_frames`, so that in the end the
two have read the same frames, `flatten_pushes_eq_readWhole`.
-/

namespace LiveRuns.EventStream

namespace Decoder

/-! ## One byte -/

theorem hold_of_not_pair {d : Decoder} {b : UInt8} (h : ¬ (b = lf ∧ d.held.head? = some lf))
    (afterCr : Bool) : d.hold b afterCr = (⟨b :: d.held, afterCr⟩, none) := by
  unfold hold
  split <;> simp_all

theorem hold_of_pair {d : Decoder} (h : d.held.head? = some lf) (afterCr : Bool) :
    d.hold lf afterCr = (⟨[], afterCr⟩, Frame.ofBytes (lf :: d.held).reverse) := by
  obtain ⟨held, hheld⟩ := List.head?_eq_some_iff.mp h
  simp [hold, hheld]

/-! ## Bytes and chunks -/

theorem run_eq (frames : List Frame) (d : Decoder) (bytes : List UInt8) :
    run frames d bytes = ((run [] d bytes).1, frames.reverse ++ (run [] d bytes).2) := by
  induction bytes generalizing frames d with
  | nil => simp [run]
  | cons b bytes ih =>
    simp only [run]
    rw [ih, ih ((d.step b).2.toList ++ [])]
    simp

theorem run_cons (d : Decoder) (b : UInt8) (bytes : List UInt8) :
    run [] d (b :: bytes) =
      ((run [] (d.step b).1 bytes).1, (d.step b).2.toList ++ (run [] (d.step b).1 bytes).2) := by
  simp only [run]
  rw [run_eq]
  cases (d.step b).2 <;> rfl

theorem run_append (d : Decoder) (first second : List UInt8) :
    run [] d (first ++ second) =
      ((run [] (run [] d first).1 second).1,
        (run [] d first).2 ++ (run [] (run [] d first).1 second).2) := by
  induction first generalizing d with
  | nil => rfl
  | cons b first ih =>
    rw [List.cons_append, run_cons, ih, run_cons]
    simp only [List.append_assoc]

/-- Take chunks one after the other, and go on after one that fails.  Each has a result. -/
def pushes (limit : Nat) (d : Decoder) :
    List (List UInt8) → Decoder × List (Except Failure (List Frame))
  | [] => (d, [])
  | chunk :: chunks =>
    let (d, result) := d.push limit chunk
    let (d, results) := pushes limit d chunks
    (d, result :: results)

theorem push_ok {limit : Nat} {d : Decoder} {chunk : List UInt8} {frames : List Frame}
    (h : (d.push limit chunk).2 = .ok frames) :
    d.push limit chunk = (((run [] d chunk).1), .ok frames) ∧ frames = (run [] d chunk).2 := by
  by_cases hlimit : limit < (run [] d chunk).1.pending
  · simp [push, hlimit] at h
  · simp only [push, hlimit, if_false] at h ⊢
    cases h
    exact ⟨rfl, rfl⟩

/-- If none of some chunks fails, the first does not, and none of the others after it. -/
theorem pushes_cons_ok {limit : Nat} {d : Decoder} {chunk : List UInt8} {chunks : List (List UInt8)}
    {frames : List (List Frame)} (h : (d.pushes limit (chunk :: chunks)).2 = frames.map .ok) :
    d.push limit chunk = ((run [] d chunk).1, .ok (run [] d chunk).2) ∧
      ∃ rest, frames = (run [] d chunk).2 :: rest ∧
        ((run [] d chunk).1.pushes limit chunks).2 = rest.map .ok := by
  cases frames with
  | nil => cases h
  | cons first rest =>
    simp only [pushes, List.map_cons, List.cons.injEq] at h
    obtain ⟨hpush, rfl⟩ := push_ok h.1
    rw [hpush] at h
    exact ⟨hpush, rest, rfl, h.2⟩

/-- Chunks none of which fails bring what their bytes bring at once. -/
theorem pushes_run {limit : Nat} {d : Decoder} {chunks : List (List UInt8)}
    {frames : List (List Frame)} (h : (d.pushes limit chunks).2 = frames.map .ok) :
    frames.flatten = (run [] d chunks.flatten).2 := by
  induction chunks generalizing d frames with
  | nil =>
    obtain rfl : frames = [] := List.map_eq_nil_iff.mp h.symm
    rfl
  | cons chunk chunks ih =>
    obtain ⟨-, rest, rfl, hrest⟩ := pushes_cons_ok h
    rw [List.flatten_cons, List.flatten_cons, run_append, ih hrest]

end Decoder

/-! ## What is held -/

/-- A decoder holds the lines of an unfinished group and the letters of an unfinished line, as the
split into lines and groups has them; in front there may be one empty line. -/
structure Holds (d : Decoder) (group : List (List UInt8)) (line : List UInt8) : Prop where
  held : ∃ blank, (blank = [] ∨ blank = [lf]) ∧
    d.held = line ++ (group.flatMap fun l => lf :: l.reverse) ++ blank
  group_ne : ∀ l ∈ group, l ≠ []
  group_lf : ∀ l ∈ group, lf ∉ l
  line_lf : lf ∉ line

def frameOf (group : List (List UInt8)) : Option Frame := Frame.ofGroup (group.map Utf8.decode)

theorem splitLines_append {text : List Char} (h : '\n' ∉ text) (lines : List (List Char))
    (line rest : List Char) :
    splitLines lines line (text ++ '\n' :: rest) =
      splitLines ((line.reverse ++ text) :: lines) [] rest := by
  induction text generalizing line with
  | nil => simp [splitLines]
  | cons c text ih =>
    simp only [List.mem_cons, not_or] at h
    rw [List.cons_append, splitLines, ih h.2, List.reverse_cons, List.append_assoc]
    · rfl
    · exact Ne.symm h.1

theorem splitLines_decode {group : List (List UInt8)} (h : ∀ l ∈ group, lf ∉ l)
    (lines : List (List Char)) :
    splitLines lines [] (Utf8.decode (group.flatMap (· ++ [lf]))) =
      lines.reverse ++ group.map Utf8.decode := by
  induction group generalizing lines with
  | nil => simp [splitLines, Utf8.decode, Utf8.State.finish]
  | cons l group ih =>
    have hl := lf_not_mem_decode (h l List.mem_cons_self)
    rw [List.flatMap_cons, List.append_assoc, List.singleton_append, decode_append_lf,
      splitLines_append hl, ih (fun l' hl' => h l' (List.mem_cons_of_mem _ hl'))]
    simp

/-- The bytes held back at the end of a group are cut into the frame of the group. -/
theorem Holds.ofBytes {d : Decoder} {group : List (List UInt8)} (h : Holds d group []) :
    Frame.ofBytes (lf :: d.held).reverse = frameOf group.reverse := by
  obtain ⟨⟨blank, hblank, hheld⟩, hne, hlf, -⟩ := h
  -- The bytes are the lines of the group between empty lines.
  obtain ⟨front, hfront, hbytes⟩ : ∃ front, (front = [] ∨ front = [[]]) ∧
      (lf :: d.held).reverse = (front ++ group.reverse ++ [[]]).flatMap (· ++ [lf]) := by
    have hgroup : (group.flatMap fun l => lf :: l.reverse).reverse =
        group.reverse.flatMap (· ++ [lf]) := by
      simp [List.reverse_flatMap, Function.comp_def]
    rcases hblank with rfl | rfl
    · exact ⟨[], .inl rfl, by simp [hheld, hgroup]⟩
    · exact ⟨[[]], .inr rfl, by simp [hheld, hgroup]⟩
  have hlines : ∀ l ∈ front ++ group.reverse ++ [[]], lf ∉ l := by
    intro l hl
    simp only [List.mem_append, List.mem_reverse, List.mem_singleton] at hl
    rcases hl with (hl | hl) | rfl
    · rcases hfront with rfl | rfl
      · cases hl
      · obtain rfl := List.mem_singleton.mp hl
        exact List.not_mem_nil
    · exact hlf l hl
    · exact List.not_mem_nil
  rw [hbytes, Frame.ofBytes, splitLines_decode hlines, List.reverse_nil, List.nil_append,
    Frame.ofLines_eq_ofGroup, ← Frame.ofGroup_filter, frameOf,
    ← Frame.ofGroup_filter (group.reverse.map Utf8.decode)]
  congr 1
  have hnil : Utf8.decode [] = [] := rfl
  rcases hfront with rfl | rfl <;> simp [hnil]

theorem Holds.held_eq_lf {d : Decoder} {group : List (List UInt8)} (h : Holds d group [])
    {last : UInt8} {held : List UInt8} (hheld : d.held = last :: held) : last = lf := by
  obtain ⟨⟨blank, hblank, heq⟩, -, -, -⟩ := h
  rw [hheld] at heq
  cases group with
  | nil =>
    rcases hblank with rfl | rfl
    · cases heq
    · exact (List.cons.inj heq).1
  | cons l group => exact (List.cons.inj heq).1

theorem Holds.hold_lf {d : Decoder} {group : List (List UInt8)} {line : List UInt8}
    (h : Holds d group line) (afterCr : Bool) :
    ∃ next, Holds (d.hold lf afterCr).1 next [] ∧ (d.hold lf afterCr).1.afterCr = afterCr ∧
      ∀ lines, (groupsFrom group (line.reverse :: lines)).filterMap frameOf =
        (d.hold lf afterCr).2.toList ++ (groupsFrom next lines).filterMap frameOf := by
  cases line with
  | cons c line =>
    -- The line goes to the group.
    obtain ⟨⟨blank, hblank, hheld⟩, hne, hlf, hline⟩ := h
    have hc : c ≠ lf := fun hc => hline (hc ▸ List.mem_cons_self)
    have hhold : d.hold lf afterCr = (⟨lf :: d.held, afterCr⟩, none) := by
      simp [Decoder.hold, hheld, hc]
    have hended : (c :: line).reverse ≠ [] := by simp
    rw [hhold]
    refine ⟨(c :: line).reverse :: group, ⟨⟨blank, hblank, ?_⟩, ?_, ?_, List.not_mem_nil⟩, rfl, ?_⟩
    · simp [hheld]
    · exact List.forall_mem_cons.mpr ⟨hended, hne⟩
    · exact List.forall_mem_cons.mpr ⟨by rwa [List.mem_reverse], hlf⟩
    · intro lines
      rw [groupsFrom, if_neg hended]
      rfl
  | nil =>
    have hgroups : ∀ lines, (groupsFrom group ([] :: lines)).filterMap frameOf =
        (frameOf group.reverse).toList ++ (groupsFrom [] lines).filterMap frameOf := by
      intro lines
      rw [groupsFrom, if_pos rfl, List.filterMap_cons]
      cases frameOf group.reverse <;> rfl
    refine ⟨[], ?_⟩
    cases hheld : d.held with
    | nil =>
      -- Nothing is held: the empty line is kept in front of the next group, and the group of no
      -- lines that it ends is no frame.
      obtain rfl : group = [] := by
        obtain ⟨⟨blank, -, heq⟩, -, -, -⟩ := h
        cases group with
        | nil => rfl
        | cons l group =>
          rw [hheld] at heq
          cases heq
      have hhold : d.hold lf afterCr = (⟨[lf], afterCr⟩, none) := by
        simp [Decoder.hold, hheld]
      rw [hhold]
      exact ⟨⟨⟨[lf], .inr rfl, rfl⟩, List.forall_mem_nil _, List.forall_mem_nil _, List.not_mem_nil⟩,
        rfl, hgroups⟩
    | cons last held =>
      -- The group is cut.
      obtain rfl := h.held_eq_lf hheld
      have hhold : d.hold lf afterCr = (⟨[], afterCr⟩, frameOf group.reverse) := by
        rw [← h.ofBytes, hheld]
        simp [Decoder.hold, hheld]
      rw [hhold]
      exact ⟨⟨⟨[], .inl rfl, rfl⟩, List.forall_mem_nil _, List.forall_mem_nil _, List.not_mem_nil⟩,
        rfl, hgroups⟩

theorem Holds.hold_of_ne {d : Decoder} {group : List (List UInt8)} {line : List UInt8}
    (h : Holds d group line) {b : UInt8} (hb : b ≠ lf) (afterCr : Bool) :
    Holds (d.hold b afterCr).1 group (b :: line) ∧
      (d.hold b afterCr).1.afterCr = afterCr ∧ (d.hold b afterCr).2 = none := by
  obtain ⟨⟨blank, hblank, hheld⟩, hne, hlf, hline⟩ := h
  rw [Decoder.hold_of_not_pair (fun hpair => hb hpair.1)]
  exact ⟨⟨⟨blank, hblank, by simp [hheld]⟩, hne, hlf, by simp [Ne.symm hb, hline]⟩, rfl, rfl⟩

/-! ## One byte and a whole stream -/

/-- What is left of the bytes for the lines: a line feed that a decoder drops is not. -/
def unread (afterCr : Bool) (bytes : List UInt8) : List UInt8 :=
  if afterCr ∧ bytes.head? = some lf then bytes.tail else bytes

@[simp]
theorem unread_false (bytes : List UInt8) : unread false bytes = bytes := by
  simp [unread]

/-- The lines and groups of the bytes to come, after what is held, are the frames they bring. -/
theorem Holds.run_eq_frames {d : Decoder} {group : List (List UInt8)} {line : List UInt8}
    (h : Holds d group line) (bytes : List UInt8) :
    (Decoder.run [] d bytes).2 =
      (groupsFrom group (linesFrom cr lf line (unread d.afterCr bytes))).filterMap frameOf := by
  -- A line feed to be dropped is not yet read by the decoder but is by the lines, so the two are
  -- in step again only after it.
  induction bytes generalizing d group line with
  | nil => cases hd : d.afterCr <;> rfl
  | cons b bytes ih =>
    rw [Decoder.run_cons]
    by_cases hdrop : b = lf ∧ d.afterCr
    · -- The line feed is dropped.
      obtain ⟨rfl, hafter⟩ := hdrop
      have hstep : d.step lf = ({ d with afterCr := false }, none) := by
        simp [Decoder.step, hafter]
      have hheld : Holds { d with afterCr := false } group line :=
        ⟨h.held, h.group_ne, h.group_lf, h.line_lf⟩
      rw [hstep, ih hheld, hafter]
      rfl
    · have hunread : unread d.afterCr (b :: bytes) = b :: bytes := by
        rw [unread, if_neg]
        rintro ⟨hafter, hhead⟩
        exact hdrop ⟨Option.some.inj hhead, hafter⟩
      rw [hunread]
      by_cases hcr : b = cr
      · -- A carriage return ends the line, and so it does with the line feed after it.
        subst hcr
        have hstep : d.step cr = d.hold lf true := by simp [Decoder.step, cr, lf]
        obtain ⟨next, hnext, hafter, hgroups⟩ := h.hold_lf true
        rw [hstep, ih hnext, hafter, linesFrom_cr (by decide), hgroups]
        simp [unread]
      · have hstep : d.step b = d.hold b false := by
          rw [Decoder.step, if_neg hdrop, if_neg hcr]
        rw [hstep]
        by_cases hlf : b = lf
        · subst hlf
          obtain ⟨next, hnext, hafter, hgroups⟩ := h.hold_lf false
          rw [ih hnext, hafter, unread_false, linesFrom_lf (by decide), hgroups]
        · obtain ⟨hnext, hafter, hframe⟩ := h.hold_of_ne hlf false
          rw [ih hnext, hafter, unread_false, hframe, linesFrom_of_ne hcr hlf]
          rfl

theorem holds_new : Holds {} [] [] :=
  ⟨⟨[], .inl rfl, rfl⟩, nofun, nofun, List.not_mem_nil⟩

/-- A stream that comes in chunks, none of which fails, has the frames that it has when it is
read as a whole. -/
theorem flatten_pushes_eq_readWhole {limit : Nat} {chunks : List (List UInt8)}
    {frames : List (List Frame)}
    (h : (Decoder.pushes limit {} chunks).2 = frames.map .ok) :
    frames.flatten = readWhole chunks.flatten := by
  rw [Decoder.pushes_run h, holds_new.run_eq_frames, unread_false, readWhole_eq]
  rfl

/-- Chunks that end within a character, within the two bytes of a line end and within a group:
`data:é`, a comment, `data` without a value, an empty line twice, and the start of another line. -/
def cutChunks : List (List UInt8) :=
  [[0x64, 0x61, 0x74, 0x61, 0x3A, 0xC3], [0xA9, cr], [lf, 0x3A, cr, 0x64, 0x61, 0x74, 0x61, lf, cr],
    [lf, lf, 0x69]]

/-- Such chunks have the frame that their bytes have. -/
theorem flatten_pushes_eq_readWhole_cut :
    (Decoder.pushes 16 {} cutChunks).2 = [[], [], [⟨none, none, "é\n"⟩], []].map .ok ∧
      [⟨none, none, "é\n"⟩] = readWhole cutChunks.flatten := by
  have hpushes : (Decoder.pushes 16 {} cutChunks).2 =
      [[], [], [⟨none, none, "é\n"⟩], []].map .ok := rfl
  exact ⟨hpushes, flatten_pushes_eq_readWhole hpushes⟩

end LiveRuns.EventStream
