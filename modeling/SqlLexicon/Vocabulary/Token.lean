import SqlLexicon.Vocabulary.Lexicon

/-! Classes of tokens: whether a word of a statement may stand where an identifier is expected. Every text has a class;
what is no keyword is an identifier. -/
namespace SqlLexicon

inductive TokenClass where
  | reserved
  | unreserved
  | identifier
  deriving DecidableEq, Repr

namespace TokenClass

def all : List TokenClass := [reserved, unreserved, identifier]

def name : TokenClass → String
  | reserved => "reserved"
  | unreserved => "unreserved"
  | identifier => "identifier"

instance : ToString TokenClass := ⟨name⟩

def canBeIdentifier : TokenClass → Bool
  | reserved => false
  | _ => true

end TokenClass

/- Hints for tools, which never reject anything. -/
inductive Advisory where
  | futureReserved
  deriving DecidableEq, Repr

def Advisory.name : Advisory → String
  | futureReserved => "future_reserved"

structure Classification where
  tokenClass : TokenClass
  advisory : Option Advisory
  deriving DecidableEq, Repr

def Classification.ofCategory : Option Category → Classification
  | some .reserved => ⟨.reserved, none⟩
  | some .unreserved => ⟨.unreserved, none⟩
  | some .futureReserved => ⟨.identifier, some .futureReserved⟩
  | none => ⟨.identifier, none⟩

def Lexicon.inspect (l : Lexicon) (text : String) : Classification := .ofCategory (l.categoryOf text)

def Lexicon.classify (l : Lexicon) (text : String) : TokenClass := (l.inspect text).tokenClass

end SqlLexicon
