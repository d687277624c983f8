import SqlLexicon.Text.Casing.Settled

/-! Words: the canonical spellings of keywords. Spellings that differ only in case are one word, so a word keeps the
uppercase form alone. A text spells a word exactly if it is neither empty nor broken by white space. -/
namespace SqlLexicon

def isWordShaped (text : String) : Bool := !text.toList.isEmpty && !text.toList.any Text.isBlank

/- A text in canonical form: the one that was given, handed back as it is, or a new one in its place. -/
inductive Normalized where
  | borrowed (text : String)
  | owned (text : String)
  deriving DecidableEq, Repr

def Normalized.text : Normalized → String
  | borrowed text | owned text => text

def Normalized.isBorrowed : Normalized → Bool
  | borrowed _ => true
  | owned _ => false

def normalize (text : String) : Normalized :=
  if Text.isUppercase text then .borrowed text else .owned (Text.uppercase text)

def normalForm (text : String) : String := (normalize text).text

structure Word where
  text : String
  shaped : isWordShaped text = true
  upper : Text.isUppercase text = true
  deriving DecidableEq

instance : Repr Word := ⟨fun w prec => reprPrec w.text prec⟩

instance : ToString Word := ⟨Word.text⟩

instance : Ord Word := ⟨compareOn Word.text⟩

instance : Std.TransOrd Word := inferInstanceAs (Std.TransCmp (compareOn Word.text))

instance : Std.LawfulEqOrd Word where
  eq_of_compare {a b} h := by
    have : a.text = b.text := Std.LawfulEqOrd.eq_of_compare h
    cases a; cases b; cases this; rfl

theorem normalFormUppercase (text : String) : normalForm text = Text.uppercase text := by
  unfold normalForm normalize
  split
  · rename_i h; exact (Text.uppercaseSelf h).symm
  · rfl

theorem normalizeBorrows (text : String) : (normalize text).isBorrowed = Text.isUppercase text := by
  cases settled : Text.isUppercase text <;> simp [normalize, settled, Normalized.isBorrowed]

theorem normalFormUpper (text : String) : Text.isUppercase (normalForm text) = true :=
  normalFormUppercase text ▸ Text.uppercaseSettled text

theorem shapedNormalForm (text : String) : isWordShaped (normalForm text) = isWordShaped text := by
  rw [normalFormUppercase, isWordShaped, isWordShaped, Text.uppercase, String.toList_ofList]
  generalize text.toList = cs
  have empty : (cs.flatMap Text.upperForm).isEmpty = cs.isEmpty := by
    cases cs with
    | nil => rfl
    | cons c cs =>
      cases form : Text.upperForm c with
      | nil => exact absurd form (Text.upperFormNonempty c)
      | cons d ds => simp [form]
  have blank : (cs.flatMap Text.upperForm).any Text.isBlank = cs.any Text.isBlank := by
    rw [List.any_flatMap]
    congr 1
    funext c
    cases h : Text.isBlank c with
    | true => simp [Text.upperFormBlank h, h]
    | false => simpa using fun d hd => Text.upperFormInk hd h
  rw [empty, blank]

namespace Word

def ofText? (text : String) : Option Word :=
  if h : isWordShaped text = true then
    some ⟨normalForm text, shapedNormalForm text ▸ h, normalFormUpper text⟩
  else none

def ofCanonical? (text : String) : Option Word :=
  if h : isWordShaped text = true ∧ Text.isUppercase text = true then some ⟨text, h.1, h.2⟩ else none

end Word

end SqlLexicon
