/-! Sets of characters given by ranges of code points, as the tables of the Unicode standard give them. -/
namespace SqlLexicon.Text

structure CodeRange where
  first : Nat
  last : Nat
  deriving DecidableEq, Repr

def CodeRange.has (r : CodeRange) (code : Nat) : Bool := r.first ≤ code && code ≤ r.last

def inRanges (ranges : List CodeRange) (c : Char) : Bool := ranges.any (·.has c.toNat)

end SqlLexicon.Text
