import SqlLexicon.Dialect.Catalog
import SqlLexicon.Proofs.Written.Folding

/-! Acceptance keeps the lines of a dialect. Every spelling of an accepted dialect is read as a word, so none of its
entries is lost, and the touches of its patches stand in the order of its lines. -/
namespace SqlLexicon

theorem Word.ofShaped {spelling : String} (shaped : isWordShaped spelling = true) :
    ∃ word, Word.ofText? spelling = some word ∧ word.text = normalForm spelling := by
  simp [Word.ofText?, shaped]

theorem readAll {α β γ : Type} {xs : List α} {read : α → Option β} {f : β → γ} {g : α → γ}
    (each : ∀ a ∈ xs, ∃ b, read a = some b ∧ f b = g a) : (xs.filterMap read).map f = xs.map g := by
  induction xs with
  | nil => rfl
  | cons a rest ih =>
    obtain ⟨b, here, same⟩ := each a List.mem_cons_self
    have below := ih fun x inside => each x (List.mem_cons_of_mem a inside)
    simp [here, same, below]

theorem Tables.memEntries {α : Type} {tables : Tables α} {a : α} {c : Category} :
    (a, c) ∈ tables.entries ↔ a ∈ tables.get c := by
  cases c <;> simp [Tables.entries, Tables.foldOrder, ByCategory.get]

namespace Patch

theorem memSteps {α : Type} {p : Patch α} {step : Step} {a : α} :
    (step, a) ∈ p.steps ↔
      match step with
      | .remove => a ∈ p.remove
      | .redesignate => ∃ c, (a, c) ∈ p.redesignate
      | .add c => a ∈ p.additions.get c := by
  cases step <;> simp [steps, addSteps, Tables.memEntries]

variable {p : Patch String} {dialect : String}

theorem shapedStep {step : Step} {spelling : String} (well : p.misspelling? = none)
    (inside : (step, spelling) ∈ p.steps) : isWordShaped spelling = true := by
  simpa using List.find?_eq_none.mp well (step, spelling) inside

theorem toWordsLines (well : p.misspelling? = none) : (p.toWords.placed dialect).map Placed.line = p.lines dialect := by
  have listed {spellings : List String} (step : Step) (change : Change)
      (each : ∀ spelling ∈ spellings, (step, spelling) ∈ p.steps) :
      (spellings.filterMap Word.ofText?).map (fun w => (⟨dialect, p.name, w.text, change⟩ : Line)) =
        spellings.map fun spelling => ⟨dialect, p.name, normalForm spelling, change⟩ := by
    refine readAll fun spelling inside => ?_
    obtain ⟨word, read, text⟩ := Word.ofShaped (shapedStep well (each spelling inside))
    exact ⟨word, read, by rw [text]⟩
  have drops := listed .remove .drop fun spelling inside => memSteps.mpr inside
  have puts (c : Category) := listed (.add c) (.put c) fun spelling inside => memSteps.mpr inside
  have moves : (p.redesignate.filterMap fun e => (Word.ofText? e.1).map (·, e.2)).map
        (fun e => (⟨dialect, p.name, e.1.text, .move e.2⟩ : Line)) =
      p.redesignate.map fun e => ⟨dialect, p.name, normalForm e.1, .move e.2⟩ := by
    refine readAll fun e inside => ?_
    have step : (.redesignate, e.1) ∈ p.steps := memSteps.mpr ⟨e.2, inside⟩
    obtain ⟨word, read, text⟩ := Word.ofShaped (shapedStep well step)
    exact ⟨(word, e.2), by rw [read]; rfl, by rw [text]⟩
  simp [placed, touches, toWords, Tables.entries, Tables.foldOrder, lines, Function.comp_def, Placed.line, Touch.word,
    Touch.change, drops, moves, puts]
  rfl

theorem spellOk {w : Patch Word} (spelled : p.spell dialect = .ok w) : p.misspelling? = none ∧ w = p.toWords := by
  cases found : p.misspelling? with
  | some e => simp [spell, found] at spelled
  | none =>
    simp only [spell, found, Except.ok.injEq] at spelled
    exact ⟨rfl, spelled.symm⟩

theorem acceptSpelled {w : Patch Word} (accepted : p.accept dialect = .ok w) : p.spell dialect = .ok w := by
  cases spelled : p.spell dialect with
  | error fault => simp [accept, spelled, bind, Except.bind] at accepted
  | ok words =>
    simp only [accept, spelled, bind, Except.bind] at accepted
    split at accepted
    · contradiction
    · exact accepted

theorem spellLines {w : Patch Word} (spelled : p.spell dialect = .ok w) :
    (w.placed dialect).map Placed.line = p.lines dialect := by
  obtain ⟨well, rfl⟩ := spellOk spelled
  exact toWordsLines well

end Patch

namespace Dialect

variable {d : Dialect} {e : Entry}

theorem acceptAllCons {dialect : String} {p : Patch String} {rest : List (Patch String)} {ws : List (Patch Word)}
    (accepted : acceptAll dialect (p :: rest) = .ok ws) :
    ∃ w words, p.accept dialect = .ok w ∧ acceptAll dialect rest = .ok words ∧ ws = w :: words := by
  cases first : p.accept dialect with
  | error fault => simp [acceptAll, first, bind, Except.bind] at accepted
  | ok w =>
    cases others : acceptAll dialect rest with
    | error fault => simp [acceptAll, first, others, bind, Except.bind] at accepted
    | ok words =>
      simp only [acceptAll, first, others, bind, Except.bind, pure, Except.pure, Except.ok.injEq] at accepted
      exact ⟨w, words, rfl, rfl, accepted.symm⟩

theorem acceptAllLines {dialect : String} {ps : List (Patch String)} {ws : List (Patch Word)}
    (accepted : acceptAll dialect ps = .ok ws) :
    (ws.flatMap (Patch.placed dialect)).map Placed.line = ps.flatMap (Patch.lines dialect) := by
  induction ps generalizing ws with
  | nil =>
    cases accepted
    rfl
  | cons p rest ih =>
    obtain ⟨w, words, first, others, rfl⟩ := acceptAllCons accepted
    rw [List.flatMap_cons, List.map_append, ih others, Patch.spellLines (Patch.acceptSpelled first),
      List.flatMap_cons]

theorem acceptParts (accepted : d.accept = .ok e) : ∃ own patches, d.ownTables = .ok own ∧
    acceptAll d.name d.patches = .ok patches ∧ e = ⟨d.name, d.parent?, own ++ patches⟩ := by
  cases own : d.ownTables with
  | error fault => simp [accept, own, bind, Except.bind] at accepted
  | ok tables =>
    cases patches : acceptAll d.name d.patches with
    | error fault => simp [accept, own, patches, bind, Except.bind] at accepted
    | ok words =>
      simp only [accept, own, patches, bind, Except.bind, pure, Except.pure, Except.ok.injEq] at accepted
      exact ⟨tables, words, rfl, rfl, accepted.symm⟩

theorem ownSpelled {tables : Tables String} {own : List (Patch Word)} (origin : d.origin = .root tables)
    (owned : d.ownTables = .ok own) : ∃ w, (Patch.ofTables tables).spell d.name = .ok w ∧ own = [w] := by
  cases spelled : (Patch.ofTables tables).spell d.name with
  | error fault => simp [ownTables, origin, spelled, bind, Except.bind] at owned
  | ok w =>
    simp only [ownTables, origin, spelled, bind, Except.bind, pure, Except.pure, Except.ok.injEq] at owned
    exact ⟨w, rfl, owned.symm⟩

theorem ownNothing {parent : String} {own : List (Patch Word)} (origin : d.origin = .derived parent)
    (owned : d.ownTables = .ok own) : own = [] := by
  simpa [ownTables, origin] using owned.symm

theorem ownLines {own : List (Patch Word)} (owned : d.ownTables = .ok own) :
    (own.flatMap (Patch.placed d.name)).map Placed.line = d.tableLines := by
  cases origin : d.origin with
  | derived parent => simp [ownNothing origin owned, tableLines, origin]
  | root tables =>
    obtain ⟨w, spelled, rfl⟩ := ownSpelled origin owned
    simp only [List.flatMap_singleton, Patch.spellLines spelled, tableLines, origin]

theorem acceptLines (accepted : d.accept = .ok e) : e.placed.map Placed.line = d.lines := by
  obtain ⟨own, patches, tables, rest, rfl⟩ := acceptParts accepted
  rw [Entry.placed, List.flatMap_append, List.map_append, acceptAllLines rest, ownLines tables, lines]

end Dialect

end SqlLexicon
