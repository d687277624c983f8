import SqlLexicon.Text.Blank
import SqlLexicon.Text.Casing.Table

/-! Uppercase text: each character is replaced by its full uppercase form, whatever stands around it. -/
namespace SqlLexicon.Text

def CaseRun.has (r : CaseRun) (code : Nat) : Bool :=
  r.first ≤ code && (code - r.first) % r.stride == 0 && (code - r.first) / r.stride < r.count

def upperCodes (code : Nat) : List Nat :=
  match caseExpansions.lookup code with
  | some codes => codes
  | none =>
    match caseRuns.find? (·.has code) with
    | some r => [r.target + (code - r.first)]
    | none => [code]

def upperForm (c : Char) : List Char :=
  if c.toNat < 128 then [c.toUpper] else (upperCodes c.toNat).map Char.ofNat

def isUpper (c : Char) : Bool := upperForm c == [c]

def uppercase (text : String) : String := String.ofList (text.toList.flatMap upperForm)

def isUppercase (text : String) : Bool := text.toList.all isUpper

end SqlLexicon.Text
