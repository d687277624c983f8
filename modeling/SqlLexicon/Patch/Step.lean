import SqlLexicon.Vocabulary.Category

/-! The steps of a patch: the lists a word can stand in. Two lists may conflict, so that no patch may name one word in
both. -/
namespace SqlLexicon

inductive Step where
  | remove
  | redesignate
  | add (category : Category)
  deriving DecidableEq, Repr

namespace Step

def all : List Step := [remove, redesignate] ++ Tables.foldOrder.map add

def name : Step → String
  | remove => "remove"
  | redesignate => "redesignate"
  | add category => "add_" ++ category.name

instance : ToString Step := ⟨name⟩

def ofName? (text : String) : Option Step := all.find? (·.name == text)

def addedCategory? : Step → Option Category
  | add category => some category
  | _ => none

def reserving : Step → Bool
  | add .reserved | add .futureReserved => true
  | _ => false

/- Whether one word in both lists of a patch is ambiguous. A reserving add-list shares no word with another add-list
or with `remove`. Removing a word and adding it as unreserved is no conflict, and `redesignate` conflicts with nothing:
it runs before the add-lists, on inherited words. -/
def conflicts (a b : Step) : Bool :=
  a != b && (a.reserving || b.reserving) && a != redesignate && b != redesignate

end Step

end SqlLexicon
