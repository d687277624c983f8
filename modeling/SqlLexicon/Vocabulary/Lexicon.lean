import SqlLexicon.Word
import SqlLexicon.Vocabulary.Category
import Std.Data.ExtTreeMap

/-! Vocabularies, which patches change, and lexicons, which answer lookups. A vocabulary gives each keyword one
category, so the three listings of a lexicon are disjoint; they are ascending because a vocabulary is kept in word
order. -/
namespace SqlLexicon

abbrev Vocabulary := Std.ExtTreeMap Word Category

namespace Vocabulary

def wordsOf (v : Vocabulary) (c : Category) : List Word :=
  (v.toList.filter (·.2 == c)).map Prod.fst

def ofEntries (entries : List (Word × Category)) : Vocabulary :=
  entries.foldl (fun v e => v.insert e.1 e.2) ∅

end Vocabulary

structure Lexicon where
  dialect : String
  vocabulary : Vocabulary
  listing : ByCategory (List Word)
  deriving DecidableEq

namespace Lexicon

def freeze (dialect : String) (v : Vocabulary) : Lexicon :=
  ⟨dialect, v, .tabulate v.wordsOf⟩

def categoryOf (l : Lexicon) (text : String) : Option Category := do
  let word ← Word.ofCanonical? (normalForm text)
  l.vocabulary[word]?

def contains (l : Lexicon) (text : String) (c : Category) : Bool := l.categoryOf text == some c

def isKeyword (l : Lexicon) (text : String) : Bool := (l.categoryOf text).isSome

def words (l : Lexicon) (c : Category) : List Word := l.listing.get c

def count (l : Lexicon) (c : Category) : Nat := (l.words c).length

def counts (l : Lexicon) : ByCategory Nat := .tabulate l.count

def entries (l : Lexicon) : List (Word × Category) :=
  Category.all.flatMap fun c => (l.words c).map (·, c)

def size (l : Lexicon) : Nat := l.vocabulary.size

def isEmpty (l : Lexicon) : Bool := l.vocabulary.isEmpty

end Lexicon

end SqlLexicon
