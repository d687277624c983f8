import SqlLexicon.Dialect.Fault
import SqlLexicon.Patch.Touch

/-! What happens to dialects, and the line that tells it. A line has a level, a text and named fields; the opening of a
span, which encloses the events of one request, is told in the same way. -/
namespace SqlLexicon

inductive Level where
  | trace
  | debug
  | warn
  deriving DecidableEq, Repr

namespace Level

def name : Level → String
  | trace => "TRACE"
  | debug => "DEBUG"
  | warn => "WARN"

def rank : Level → Nat
  | trace => 0
  | debug => 1
  | warn => 2

instance : LE Level := ⟨fun a b => a.rank ≤ b.rank⟩

instance (a b : Level) : Decidable (a ≤ b) := inferInstanceAs (Decidable (a.rank ≤ b.rank))

end Level

inductive Event where
  | resolveOpened (dialect : String)
  | resolveAllOpened (dialects : Nat)
  | rejected (fault : Fault)
  | registered (dialect : String) (index : Nat) (parent : Option String) (patches : Nat)
  | patchOpened (dialect patch : String)
  | absentRemoval (dialect patch : String) (word : Word)
  | patchFolded (dialect patch : String) (totals : Totals)
  | resolved (dialect : String) (patches : Nat) (totals : Totals) (counts : ByCategory Nat)
  | cacheHit (dialect : String)
  | eagerFailed (dialect : String) (fault : Fault)
  deriving DecidableEq, Repr

inductive FieldValue where
  | text (value : String)
  | count (value : Nat)
  deriving DecidableEq, Repr

inductive Heading where
  | span (name : String)
  | message (text : String)
  deriving DecidableEq, Repr

def placeText (index : Nat) : String := "#" ++ toString index

def Totals.fields (t : Totals) : List (String × FieldValue) :=
  [("removed", .count t.removed), ("absent_removals", .count t.absentRemovals), ("redesignated", .count t.redesignated),
   ("added", .count t.added), ("overridden", .count t.overridden)]

namespace Event

def level : Event → Level
  | rejected _ | absentRemoval .. | eagerFailed .. => .warn
  | patchOpened .. | cacheHit _ => .trace
  | _ => .debug

def heading : Event → Heading
  | resolveOpened _ => .span "resolve"
  | resolveAllOpened _ => .span "resolve_all"
  | rejected _ => .message "dialect rejected"
  | registered .. => .message "dialect registered"
  | patchOpened .. => .message "folding patch"
  | absentRemoval .. => .message "remove names a word that is not inherited"
  | patchFolded .. => .message "patch folded"
  | resolved .. => .message "vocabulary resolved"
  | cacheHit _ => .message "vocabulary cache hit"
  | eagerFailed .. => .message "eager resolution failed"

def fields : Event → List (String × FieldValue)
  | resolveOpened dialect | cacheHit dialect => [("dialect", .text dialect)]
  | resolveAllOpened dialects => [("dialect_count", .count dialects)]
  | rejected fault => [("dialect", .text fault.dialect), ("error", .text fault.message)]
  | registered dialect index parent patches =>
    [("dialect", .text dialect), ("id", .text (placeText index))] ++
      (parent.toList.map fun name => ("parent", .text name)) ++ [("patches", .count patches)]
  | patchOpened dialect patch => [("dialect", .text dialect), ("patch", .text patch)]
  | absentRemoval dialect patch word =>
    [("dialect", .text dialect), ("patch", .text patch), ("word", .text word.text)]
  | patchFolded dialect patch totals => [("dialect", .text dialect), ("patch", .text patch)] ++ totals.fields
  | resolved dialect patches totals counts =>
    [("dialect", .text dialect), ("patches", .count patches)] ++ totals.fields ++
      Category.all.map fun c => (c.name, .count (counts.get c))
  | eagerFailed dialect fault => [("dialect", .text dialect), ("error", .text fault.message)]

end Event

end SqlLexicon
