import LiveRuns.Proofs.Json.Grammar
import Mathlib.Tactic.SplitIfs

/-!
A text written as a JSON string is read back.

`Literal.ofText` is the literal that a text is written as.  What `textLiteral` writes between the
quotes is a text of this literal (`spelt_ofText`), and reading the literal gives the text
(`read_ofText`).
-/

namespace LiveRuns.Json

/-- The piece that a character is written as: a control that has no short escape becomes the code
of a `\u` escape, every other character stays a character. -/
def Piece.ofChar (c : Char) : Piece :=
  if c < ' ' ∧ c ∉ ['\x08', '\t', '\n', '\x0c', '\r'] then .unit c.toNat else .char c

namespace Literal

def ofText (s : String) : Literal := ⟨s.toList.map Piece.ofChar, .closed⟩

/-! ## Writing -/

/-- The four hexadecimal digits that are written for a control give its code. -/
theorem hexUnit?_control : ∀ n < 32,
    hexUnit? '0' '0' (hexChar (n / 16)) (hexChar (n % 16)) = some n := by
  decide

/-- A character is written as a text of its piece. -/
theorem spelt_escapedChar (c : Char) : (Piece.ofChar c).Spelt (escapedChar c) := by
  unfold escapedChar
  split_ifs with h₁ h₂ h₃ h₄ h₅ h₆ h₇ h₈
  case pos => subst h₁; exact .short rfl
  case pos => subst h₂; exact .short rfl
  case pos => subst h₃; exact .short rfl
  case pos => subst h₄; exact .short rfl
  case pos => subst h₅; exact .short rfl
  case pos => subst h₆; exact .short rfl
  case pos => subst h₇; exact .short rfl
  case pos =>
    have small : c.toNat < 32 := h₈
    have piece : Piece.ofChar c = .unit c.toNat := by simp [Piece.ofChar, *]
    rw [piece]
    exact .unit (hexUnit?_control _ small)
  case neg =>
    have piece : Piece.ofChar c = .char c := by simp [Piece.ofChar, h₈]
    rw [piece]
    exact .plain h₁ h₂ h₈

theorem piecesSpelt_escaped (cs : List Char) :
    PiecesSpelt (cs.map .ofChar) (cs.flatMap escapedChar) := by
  induction cs with
  | nil => exact .nil
  | cons c cs ih => exact .cons (spelt_escapedChar c) ih

/-- A text is written as a text of its literal. -/
theorem spelt_ofText (s : String) : (ofText s).Spelt (s.toList.flatMap escapedChar) :=
  ⟨rfl, piecesSpelt_escaped s.toList⟩

/-! ## Reading -/

theorem join_ofChar (seen : List Char) (c : Char) (rest : List Piece) (ending : Ending) :
    join seen (.ofChar c :: rest) ending = join (c :: seen) rest ending := by
  unfold Piece.ofChar
  split
  case isTrue h =>
    have small : c.toNat < 32 := h.1
    have low : isLow c.toNat = false := by simp [isLow]; omega
    have high : isHigh c.toNat = false := by simp [isHigh]; omega
    rw [join.eq_def]
    simp [low, high, Char.ofNat_toNat]
  case isFalse => rfl

theorem join_map_ofChar (seen cs : List Char) :
    join seen (cs.map .ofChar) .closed = .ok (seen.reverse ++ cs) := by
  induction cs generalizing seen with
  | nil => rw [List.append_nil]; rfl
  | cons c cs ih =>
    rw [List.map_cons, join_ofChar, ih]
    simp

@[simp] theorem read_ofText (s : String) : (ofText s).read = .ok s := by
  unfold read ofText
  rw [join_map_ofChar]
  simp [Functor.map, Except.map]

end Literal

end LiveRuns.Json
