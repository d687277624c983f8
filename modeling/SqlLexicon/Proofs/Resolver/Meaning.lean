import SqlLexicon.Dialect.Lineage
import SqlLexicon.Proofs.Catalog.Ancestry
import SqlLexicon.Proofs.Folding.Row

/-! What a registered dialect resolves to, and the dialects whose folding succeeds on the way, as functions of the
catalog alone: there is no cache here, no options and no history. -/
namespace SqlLexicon.Catalog

def meaning (c : Catalog) (e : Entry) : Except Fault Lexicon := do
  let above ← c.ancestors e
  let v ← Vocabulary.followRow ∅ (above ++ [e])
  return .freeze e.name v

def footprint (c : Catalog) (e : Entry) : List Entry :=
  match c.ancestors e with
  | .error _ => []
  | .ok above => Vocabulary.foldable ∅ (above ++ [e])

variable {c : Catalog} {e : Entry} {above : List Entry} {fault : Fault}

theorem meaningRow (member : e ∈ c.entries) (line : c.Lineage e above) :
    c.meaning e = (Vocabulary.followRow ∅ (above ++ [e])).map (.freeze e.name) := by
  rw [meaning, (ancestorsOk member).mpr line]
  cases followed : Vocabulary.followRow ∅ (above ++ [e]) <;>
    simp [followed, bind, Except.bind, Except.map, pure, Except.pure]

theorem meaningBelow {rest : List Entry} {v : Vocabulary} (member : e ∈ c.entries)
    (line : c.Lineage e (above ++ rest)) (inherited : Vocabulary.followRow ∅ above = .ok v) :
    c.meaning e = (v.followRow (rest ++ [e])).map (.freeze e.name) := by
  rw [meaningRow member line, List.append_assoc, Vocabulary.followRowAppend, inherited]
  rfl

theorem meaningLast {v : Vocabulary} (member : e ∈ c.entries) (line : c.Lineage e above)
    (inherited : Vocabulary.followRow ∅ above = .ok v) : c.meaning e = (v.follow e.placed).map (.freeze e.name) := by
  rw [meaningRow member line, Vocabulary.followRowSnoc inherited]

theorem footprintRow (member : e ∈ c.entries) (line : c.Lineage e above) :
    c.footprint e = Vocabulary.foldable ∅ (above ++ [e]) := by
  rw [footprint, (ancestorsOk member).mpr line]

theorem meaningUnrooted (failed : c.ancestors e = .error fault) : c.meaning e = .error fault ∧ c.footprint e = [] := by
  simp [meaning, footprint, failed, bind, Except.bind]

theorem meaningOk {l : Lexicon} (member : e ∈ c.entries) (meant : c.meaning e = .ok l) :
    ∃ above v, c.Lineage e above ∧ Vocabulary.followRow ∅ (above ++ [e]) = .ok v ∧ l = .freeze e.name v ∧
      c.footprint e = above ++ [e] := by
  cases answered : c.ancestors e with
  | error fault => simp [(meaningUnrooted answered).1] at meant
  | ok above =>
    have line := lineageOfOk member answered
    rw [meaningRow member line] at meant
    obtain ⟨v, followed, frozen⟩ := okOfMap meant
    exact ⟨above, v, line, followed, frozen.symm, (footprintRow member line).trans (Vocabulary.foldableWhole followed)⟩

/- How a dialect can fail, with the dialects that fold all the same. A dialect of its row that does not fold fails in
the same way when it is asked for itself. -/
inductive Failure (c : Catalog) (e : Entry) : Fault → List Entry → Prop where
  | unfolded {above folded below : List Entry} {x : Entry} {patch word : String} (line : c.Lineage e above)
      (whole : above ++ [e] = folded ++ x :: below) (upper : c.Lineage x folded)
      (same : c.meaning x = .error (.unknownWord x.name patch .redesignate word)) :
      Failure c e (.unknownWord x.name patch .redesignate word) folded
  | broken {y p : String} (gap : c.Broken e y p) : Failure c e (.unknownParent y p) []
  | cyclic {chain : List String} (neither : ¬ c.Rooted e ∧ ∀ y p, ¬ c.Broken e y p) :
      Failure c e (.cyclicDialect e.name chain) []

theorem meaningFailed (member : e ∈ c.entries) (meant : c.meaning e = .error fault) :
    c.Failure e fault (c.footprint e) := by
  rcases ancestorsKinds member with ⟨above, answered⟩ | ⟨y, p, answered⟩ | ⟨chain, answered⟩
  · have line := lineageOfOk member answered
    rw [meaningRow member line] at meant
    obtain ⟨x, below, u, whole, folded, stopped⟩ := Vocabulary.foldableFailed (errorOfMap meant)
    obtain ⟨patch, word, named⟩ := Vocabulary.entryFault stopped
    have upper := lineageWithin line whole
    have inside : x ∈ c.entries := rowRegistered line member x (whole ▸ by simp)
    rw [footprintRow member line, named]
    refine .unfolded line whole upper ?_
    rw [meaningLast inside upper folded, stopped, named]
    rfl
  · rw [(meaningUnrooted answered).1, Except.error.injEq] at meant
    rw [(meaningUnrooted answered).2, ← meant]
    exact .broken (brokenOfUnknown member answered)
  · rw [(meaningUnrooted answered).1, Except.error.injEq] at meant
    rw [(meaningUnrooted answered).2, ← meant]
    exact .cyclic (neitherOfCyclic member answered)

end SqlLexicon.Catalog
