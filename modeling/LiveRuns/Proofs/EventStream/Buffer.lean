import LiveRuns.Proofs.EventStream.Chunks

/-!
The decoder as a buffer that is cut.

The decoder cuts a frame at the byte that completes it.  A chunk can as well be taken at once: its
line ends are made line feeds, it is put behind the bytes held, the buffer is cut after every two
line feeds in a row, first ones first, and what is left is held.  `push_eq_cutAll` says that on
every decoder that chunks can lead to the two are the same, limit and failure included.  It rests on
what a decoder holds having no two line feeds in a row, `Uncut`, which every push keeps.
-/

namespace LiveRuns.EventStream

/-! ## Cutting a buffer -/

/-- The bytes with a line feed for every end of a line; the second byte of an end of two is left
out, also at the start if the byte before was a carriage return. -/
def normalised : Bool → List UInt8 → List UInt8
  | _, [] => []
  | afterCr, b :: bytes =>
    if b = lf ∧ afterCr then normalised false bytes
    else if b = cr then lf :: normalised true bytes
    else b :: normalised false bytes

def endsInCr (afterCr : Bool) (bytes : List UInt8) : Bool :=
  (bytes.getLast?.map fun b => decide (b = cr)).getD afterCr

theorem endsInCr_cons (afterCr : Bool) (b : UInt8) (bytes : List UInt8) :
    endsInCr afterCr (b :: bytes) = endsInCr (decide (b = cr)) bytes := by
  cases bytes with
  | nil => rfl
  | cons c bytes =>
    rw [endsInCr, endsInCr, List.getLast?_cons_cons,
      List.getLast?_eq_some_getLast (List.cons_ne_nil c bytes)]
    rfl

/-- The bytes up to the first two line feeds in a row, and those after them. -/
def cut? : List UInt8 → Option (List UInt8 × List UInt8)
  | [] => none
  | b :: bytes =>
    if b = lf ∧ bytes.head? = some lf then some ([lf, lf], bytes.tail)
    else (cut? bytes).map fun (piece, rest) => (b :: piece, rest)

theorem length_lt_of_cut? {buffer piece rest : List UInt8} (h : cut? buffer = some (piece, rest)) :
    rest.length < buffer.length := by
  induction buffer generalizing piece with
  | nil => cases h
  | cons b bytes ih =>
    rw [cut?] at h
    split at h
    · cases h
      rw [List.length_tail, List.length_cons]
      omega
    · obtain ⟨⟨piece', rest'⟩, hcut, heq⟩ := Option.map_eq_some_iff.mp h
      cases heq
      exact Nat.lt_succ_of_lt (ih hcut)

/-- The pieces of a buffer and what is left behind the last of them. -/
def cutAll (buffer : List UInt8) : List (List UInt8) × List UInt8 :=
  match _h : cut? buffer with
  | none => ([], buffer)
  | some (piece, rest) => (piece :: (cutAll rest).1, (cutAll rest).2)
termination_by buffer.length
decreasing_by all_goals exact length_lt_of_cut? _h

theorem cutAll_of_none {buffer : List UInt8} (h : cut? buffer = none) :
    cutAll buffer = ([], buffer) := by
  rw [cutAll]
  split
  · rfl
  · next piece rest hcut => rw [h] at hcut; cases hcut

theorem cutAll_of_some {buffer piece rest : List UInt8} (h : cut? buffer = some (piece, rest)) :
    cutAll buffer = (piece :: (cutAll rest).1, (cutAll rest).2) := by
  rw [cutAll]
  split
  · next hcut => rw [h] at hcut; cases hcut
  · next piece' rest' hcut =>
    rw [h] at hcut
    cases hcut
    rfl

/-- The first two line feeds in a row stand behind bytes that do not have them. -/
theorem cut?_append_pair {front : List UInt8} (h : cut? (front ++ [lf]) = none)
    (rest : List UInt8) :
    cut? (front ++ lf :: lf :: rest) = some (front ++ [lf, lf], rest) := by
  induction front with
  | nil => rfl
  | cons b front ih =>
    rw [List.cons_append, cut?] at h
    split at h
    · cases h
    · next hpair =>
      have hnot : ¬ (b = lf ∧ (front ++ lf :: lf :: rest).head? = some lf) := by
        cases front <;> exact hpair
      rw [List.cons_append, cut?, if_neg hnot, ih (Option.map_eq_none_iff.mp h)]
      rfl

/-- A byte put at the end makes two line feeds in a row only with the one before it. -/
theorem cut?_concat {bytes : List UInt8} {b : UInt8} (h : cut? bytes = none)
    (hpair : ¬ (b = lf ∧ bytes.getLast? = some lf)) : cut? (bytes ++ [b]) = none := by
  induction bytes with
  | nil => simp [cut?]
  | cons first bytes ih =>
    rw [cut?] at h
    split at h
    · cases h
    · next hfirst =>
      have hrest := Option.map_eq_none_iff.mp h
      cases bytes with
      | nil =>
        have hnot : ¬ (first = lf ∧ b = lf) := by
          rintro ⟨rfl, rfl⟩
          exact hpair ⟨rfl, rfl⟩
        simpa [cut?] using hnot
      | cons second bytes =>
        have hlast : ¬ (b = lf ∧ (second :: bytes).getLast? = some lf) := by
          rwa [List.getLast?_cons_cons] at hpair
        rw [List.cons_append, cut?, if_neg (by simpa using hfirst), ih hrest hlast]
        rfl

namespace Decoder

/-! ## One byte -/

/-- A decoder that holds no two line feeds in a row. -/
def Uncut (d : Decoder) : Prop := cut? d.held.reverse = none

theorem uncut_new (afterCr : Bool) : Uncut ⟨[], afterCr⟩ := rfl

/-- A byte put behind the bytes held cuts the buffer where the decoder cuts. -/
theorem Uncut.hold {d : Decoder} (h : d.Uncut) (b : UInt8) (afterCr : Bool) (rest : List UInt8) :
    (d.hold b afterCr).1.Uncut ∧ (d.hold b afterCr).1.afterCr = afterCr ∧
      (cutAll (d.held.reverse ++ b :: rest)).1.filterMap Frame.ofBytes =
        (d.hold b afterCr).2.toList ++
          (cutAll ((d.hold b afterCr).1.held.reverse ++ rest)).1.filterMap Frame.ofBytes ∧
      (cutAll (d.held.reverse ++ b :: rest)).2 =
        (cutAll ((d.hold b afterCr).1.held.reverse ++ rest)).2 := by
  by_cases hpair : b = lf ∧ d.held.head? = some lf
  · -- The byte is the second line feed in a row.
    obtain ⟨rfl, hhead⟩ := hpair
    obtain ⟨front, hheld⟩ := List.head?_eq_some_iff.mp hhead
    have hhold : d.hold lf afterCr =
        (⟨[], afterCr⟩, Frame.ofBytes (front.reverse ++ [lf, lf])) := by
      simp [Decoder.hold, hheld]
    have hfront : cut? (front.reverse ++ [lf]) = none := by
      simpa [Uncut, hheld] using h
    have hcut := cut?_append_pair hfront rest
    have hbuffer : d.held.reverse ++ lf :: rest = front.reverse ++ lf :: lf :: rest := by
      simp [hheld]
    rw [hhold, hbuffer, cutAll_of_some hcut, List.filterMap_cons]
    refine ⟨uncut_new afterCr, rfl, ?_, rfl⟩
    cases Frame.ofBytes (front.reverse ++ [lf, lf]) <;> rfl
  · have hhold := hold_of_not_pair hpair afterCr
    have huncut : Uncut ⟨b :: d.held, afterCr⟩ := by
      rw [Uncut, List.reverse_cons]
      exact cut?_concat h (by rwa [List.getLast?_reverse])
    rw [hhold, List.reverse_cons, List.append_assoc]
    exact ⟨huncut, rfl, rfl, rfl⟩

/-! ## One chunk and many -/

/-- The bytes of a chunk, taken one by one, are the chunk put behind what is held and cut. -/
theorem Uncut.run_eq_cutAll {d : Decoder} (h : d.Uncut) (bytes : List UInt8) :
    (run [] d bytes).1.Uncut ∧
      run [] d bytes =
        (⟨(cutAll (d.held.reverse ++ normalised d.afterCr bytes)).2.reverse,
            endsInCr d.afterCr bytes⟩,
          (cutAll (d.held.reverse ++ normalised d.afterCr bytes)).1.filterMap Frame.ofBytes) := by
  induction bytes generalizing d with
  | nil =>
    refine ⟨h, ?_⟩
    rw [normalised, List.append_nil, cutAll_of_none h, List.reverse_reverse]
    rfl
  | cons b bytes ih =>
    rw [run_cons]
    by_cases hdrop : b = lf ∧ d.afterCr
    · have hstep : d.step b = ({ d with afterCr := false }, none) := if_pos hdrop
      have hcr : decide (b = cr) = false := by
        rw [hdrop.1]
        rfl
      obtain ⟨huncut, hrun⟩ := ih (d := { d with afterCr := false }) h
      rw [hstep, endsInCr_cons, hcr, normalised, if_pos hdrop]
      refine ⟨huncut, ?_⟩
      rw [hrun]
      rfl
    · obtain ⟨byte, afterCr, hstep, hcr, hnormal⟩ : ∃ byte afterCr,
          d.step b = d.hold byte afterCr ∧ decide (b = cr) = afterCr ∧
            normalised d.afterCr (b :: bytes) = byte :: normalised afterCr bytes := by
        by_cases hcr : b = cr
        · refine ⟨lf, true, ?_, by simp [hcr], ?_⟩
          · rw [step, if_neg hdrop, if_pos hcr]
          · rw [normalised, if_neg hdrop, if_pos hcr]
        · refine ⟨b, false, ?_, by simp [hcr], ?_⟩
          · rw [step, if_neg hdrop, if_neg hcr]
          · rw [normalised, if_neg hdrop, if_neg hcr]
      obtain ⟨hnext, hafter, hframes, hleft⟩ := h.hold byte afterCr (normalised afterCr bytes)
      obtain ⟨huncut, hrun⟩ := ih hnext
      rw [hafter] at hrun
      rw [hstep, endsInCr_cons, hcr, hnormal, hframes, hleft]
      refine ⟨huncut, ?_⟩
      rw [hrun]

theorem Uncut.push {d : Decoder} (h : d.Uncut) (limit : Nat) (chunk : List UInt8) :
    (d.push limit chunk).1.Uncut := by
  by_cases hlimit : limit < (run [] d chunk).1.pending
  · simp only [Decoder.push, hlimit, if_true]
    exact uncut_new _
  · simp only [Decoder.push, hlimit, if_false]
    exact (h.run_eq_cutAll chunk).1

theorem uncut_pushes (limit : Nat) (chunks : List (List UInt8)) {d : Decoder} (h : d.Uncut) :
    (pushes limit d chunks).1.Uncut := by
  induction chunks generalizing d with
  | nil => exact h
  | cons chunk chunks ih => exact ih (h.push limit chunk)

/-- After any chunks, failed ones included, a chunk is put behind what is held, with its line ends
made line feeds; the buffer is cut into pieces; and the chunk fails if what is left is longer than
the limit. -/
theorem push_eq_cutAll (limit : Nat) (before : List (List UInt8)) (chunk : List UInt8) :
    let d := (pushes limit {} before).1
    let pieces := cutAll (d.held.reverse ++ normalised d.afterCr chunk)
    d.push limit chunk =
      if limit < pieces.2.length then (⟨[], endsInCr d.afterCr chunk⟩, .error (tooLong limit))
      else (⟨pieces.2.reverse, endsInCr d.afterCr chunk⟩,
        .ok (pieces.1.filterMap Frame.ofBytes)) := by
  have hrun := ((uncut_pushes limit before (uncut_new false)).run_eq_cutAll chunk).2
  simp only [push, hrun, pending, List.length_reverse]

end Decoder

end LiveRuns.EventStream
