import SqlLexicon.Word
import SqlLexicon.Dialect

/-! Dialects written out line by line, each line one entry of one list with its spelling in canonical form. The last line
that names a text decides its category, and a line that moves a text needs one there already. No vocabulary is folded to
say so. -/
namespace SqlLexicon

inductive Change where
  | drop
  | move (category : Category)
  | put (category : Category)
  deriving DecidableEq, Repr

namespace Change

def leaves : Change → Option Category
  | drop => none
  | move category | put category => some category

def moves : Change → Bool
  | move _ => true
  | _ => false

end Change

structure Line where
  dialect : String
  patch : String
  text : String
  change : Change
  deriving DecidableEq, Repr

def Patch.lines (dialect : String) (p : Patch String) : List Line :=
  p.remove.map (fun spelling => ⟨dialect, p.name, normalForm spelling, .drop⟩) ++
  p.redesignate.map (fun e => ⟨dialect, p.name, normalForm e.1, .move e.2⟩) ++
  p.additions.futureReserved.map (fun spelling => ⟨dialect, p.name, normalForm spelling, .put .futureReserved⟩) ++
  p.additions.reserved.map (fun spelling => ⟨dialect, p.name, normalForm spelling, .put .reserved⟩) ++
  p.additions.unreserved.map (fun spelling => ⟨dialect, p.name, normalForm spelling, .put .unreserved⟩)

def Dialect.tableLines (d : Dialect) : List Line :=
  match d.origin with
  | .root tables => (Patch.ofTables tables).lines d.name
  | .derived _ => []

def Dialect.lines (d : Dialect) : List Line := d.tableLines ++ d.patches.flatMap (Patch.lines d.name)

def standing (lines : List Line) (text : String) : Option Category :=
  (lines.reverse.find? (·.text == text)).bind (·.change.leaves)

def AllPresent (lines : List Line) : Prop :=
  ∀ before line after, lines = before ++ line :: after → line.change.moves → (standing before line.text).isSome

def FirstAbsent (lines : List Line) (line : Line) : Prop :=
  ∃ before after, lines = before ++ line :: after ∧ AllPresent before ∧ line.change.moves ∧
    standing before line.text = none

variable {lines : List Line} {line : Line}

theorem standingSnoc (lines : List Line) (line : Line) (text : String) :
    standing (lines ++ [line]) text = if line.text = text then line.change.leaves else standing lines text := by
  by_cases same : line.text = text <;> simp [standing, same]

theorem allPresentSnoc (all : AllPresent lines) (present : line.change.moves → (standing lines line.text).isSome) :
    AllPresent (lines ++ [line]) := by
  intro before here after whole moves
  rcases List.eq_nil_or_concat after with rfl | ⟨initial, last, rfl⟩
  · obtain ⟨rfl, same⟩ := List.append_inj' whole rfl
    cases same
    exact present moves
  · have parts : lines ++ [line] = (before ++ here :: initial) ++ [last] := by simpa using whole
    exact all before here initial (List.append_inj' parts rfl).1 moves

theorem firstAbsentSnoc {first : Line} (absent : FirstAbsent lines first) : FirstAbsent (lines ++ [line]) first := by
  obtain ⟨before, after, rfl, all, moves, none⟩ := absent
  exact ⟨before, after ++ [line], by simp, all, moves, none⟩

theorem firstAbsentNot (absent : FirstAbsent lines line) : ¬ AllPresent lines := by
  intro all
  obtain ⟨before, after, whole, _, moves, none⟩ := absent
  simpa [none] using all before line after whole moves

theorem allPresentIff : AllPresent lines ↔
    ∀ i : Fin lines.length, lines[i].change.moves → (standing (lines.take i) lines[i].text).isSome := by
  refine ⟨fun all i => all (lines.take i) lines[i] (lines.drop (i + 1)) (by simp), fun all before line after whole => ?_⟩
  subst whole
  simpa using all ⟨before.length, by simp⟩

instance : Decidable (AllPresent lines) := decidable_of_iff' _ allPresentIff

end SqlLexicon
