import LiveRuns.Unicode.Range

/-!
Blank characters, and trimming.

The blanks are the characters with the property White_Space.  They contain the ASCII blanks, and
`trim` removes them from both ends of a text.
-/

namespace LiveRuns.Unicode

/-- The characters with the property White_Space. -/
def blanks : List (Nat × Nat) :=
  [
    (0x9, 0xd), (0x20, 0x20), (0x85, 0x85), (0xa0, 0xa0), (0x1680, 0x1680), (0x2000, 0x200a),
    (0x2028, 0x2029), (0x202f, 0x202f), (0x205f, 0x205f), (0x3000, 0x3000) ]

def isBlank (c : Char) : Bool := inRanges blanks c.toNat

def trim (s : List Char) : List Char :=
  ((s.dropWhile isBlank).reverse.dropWhile isBlank).reverse

end LiveRuns.Unicode
