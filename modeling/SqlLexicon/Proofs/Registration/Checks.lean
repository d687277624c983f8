import SqlLexicon.Proofs.Registration.Ambiguity
import SqlLexicon.Proofs.Registration.Entered

/-! What registering a dialect looks at, one check after the other: that the name is free, that each spelling is a word, and
that no two lists of a patch clash. Registering succeeds if all checks pass, and else the first that fails is reported. -/
namespace SqlLexicon

inductive Check where
  | free
  | spelling (patch : String) (step : Step) (text : String)
  | lists (p : Patch String)

namespace Check

def Passes (c : Catalog) (name : String) : Check → Prop
  | free => c.has name = false
  | spelling _ _ text => text ≠ "" ∧ ∀ ch ∈ text.toList, Text.isBlank ch = false
  | lists p => p.Unambiguous

def Reports (name : String) : Check → Fault → Prop
  | free, fault => fault = .duplicateDialect name
  | spelling patch step text, fault => fault = .invalidWord name patch step text
  | lists p, fault => ∃ first second word, p.Shares first second word ∧
      fault = .ambiguousPatch name p.name word first second

end Check

def Patch.checks (p : Patch String) : List Check :=
  p.remove.map (.spelling p.name .remove) ++
  p.redesignate.map (fun e => .spelling p.name .redesignate e.1) ++
  p.additions.futureReserved.map (.spelling p.name (.add .futureReserved)) ++
  p.additions.reserved.map (.spelling p.name (.add .reserved)) ++
  p.additions.unreserved.map (.spelling p.name (.add .unreserved)) ++ [.lists p]

def Dialect.tableChecks (d : Dialect) : List Check :=
  match d.origin with
  | .root tables =>
    tables.futureReserved.map (.spelling "base" (.add .futureReserved)) ++
    tables.reserved.map (.spelling "base" (.add .reserved)) ++
    tables.unreserved.map (.spelling "base" (.add .unreserved))
  | .derived _ => []

def Dialect.checks (d : Dialect) : List Check := .free :: (d.tableChecks ++ d.patches.flatMap Patch.checks)

def Dialect.Spells (d : Dialect) (text : String) : Prop :=
  (∃ tables c, d.origin = .root tables ∧ text ∈ tables.get c) ∨ ∃ p ∈ d.patches, ∃ step, text ∈ p.listed step

structure Dialect.WellFormed (d : Dialect) : Prop where
  spelled : ∀ text, d.Spells text → text ≠ "" ∧ ∀ ch ∈ text.toList, Text.isBlank ch = false
  clear : ∀ p ∈ d.patches, p.Unambiguous

inductive Checked (c : Catalog) (name : String) {α : Type} : List Check → Except Fault α → Prop where
  | passed {checks : List Check} {a : α} (all : ∀ check ∈ checks, check.Passes c name) : Checked c name checks (.ok a)
  | failed {before after : List Check} {check : Check} {fault : Fault}
      (passed : ∀ earlier ∈ before, earlier.Passes c name) (fails : ¬ check.Passes c name)
      (reports : check.Reports name fault) : Checked c name (before ++ check :: after) (.error fault)

section Checked

variable {c : Catalog} {name : String} {α β : Type} {first second : List Check}

theorem checkedBind {x : Except Fault α} {f : α → Except Fault β} (left : Checked c name first x)
    (right : ∀ a, x = .ok a → Checked c name second (f a)) : Checked c name (first ++ second) (x >>= f) := by
  cases left with
  | @passed _ a all =>
    have next := right a rfl
    show Checked c name (first ++ second) (f a)
    generalize f a = answer at next
    cases next with
    | passed others => exact .passed (List.forall_mem_append.mpr ⟨all, others⟩)
    | failed others fails reports =>
      rw [← List.append_assoc]
      exact .failed (List.forall_mem_append.mpr ⟨all, others⟩) fails reports
  | failed earlier fails reports =>
    rw [List.append_assoc, List.cons_append]
    exact .failed earlier fails reports

theorem checkedMap {x : Except Fault α} (f : α → β) (checked : Checked c name first x) :
    Checked c name first (x.map f) := by
  cases checked with
  | passed all => exact .passed all
  | failed earlier fails reports => exact .failed earlier fails reports

theorem checkedFirst {check : Check} {fault : Fault} (fails : ¬ check.Passes c name)
    (reports : check.Reports name fault) : Checked c name (check :: first) (.error fault : Except Fault α) := by
  rw [← List.nil_append (check :: first)]
  exact .failed (List.forall_mem_nil _) fails reports

theorem checkedCons {check : Check} {x : Except Fault α} (passes : check.Passes c name)
    (rest : Checked c name first x) : Checked c name (check :: first) x := by
  cases rest with
  | passed all => exact .passed (List.forall_mem_cons.mpr ⟨passes, all⟩)
  | failed earlier fails reports =>
    rw [← List.cons_append]
    exact .failed (List.forall_mem_cons.mpr ⟨passes, earlier⟩) fails reports

theorem checkedOk {x : Except Fault α} (checked : Checked c name first x) :
    (∃ a, x = .ok a) ↔ ∀ check ∈ first, check.Passes c name := by
  cases checked with
  | passed all => exact ⟨fun _ => all, fun _ => ⟨_, rfl⟩⟩
  | failed _ fails _ => exact ⟨fun ok => by simp at ok, fun all => absurd (all _ (by simp)) fails⟩

end Checked

namespace Patch

variable {c : Catalog} {name : String} {p : Patch String}

theorem stepChecks (p : Patch String) : p.checks = p.steps.map (fun e => .spelling p.name e.1 e.2) ++ [.lists p] := by
  simp [checks, steps, addSteps, Tables.entries, Tables.foldOrder, ByCategory.get, Function.comp_def]

theorem checksPass : (∀ check ∈ p.checks, check.Passes c name) ↔
    (∀ step, ∀ text ∈ p.listed step, text ≠ "" ∧ ∀ ch ∈ text.toList, Text.isBlank ch = false) ∧ p.Unambiguous := by
  simp only [stepChecks, List.forall_mem_append, List.forall_mem_singleton, List.forall_mem_map, Prod.forall,
    listedStep, Check.Passes]

theorem spellChecked : Checked c name (p.steps.map fun e => .spelling p.name e.1 e.2) (p.spell name) := by
  unfold spell
  cases found : p.misspelling? with
  | none =>
    refine .passed fun check inside => ?_
    obtain ⟨e, listed, rfl⟩ := List.mem_map.mp inside
    exact shapedIff.mp (shapedStep found listed)
  | some e =>
    obtain ⟨bad, before, after, whole, earlier⟩ := List.find?_eq_some_iff_append.mp found
    rw [whole, List.map_append, List.map_cons]
    refine .failed (fun check inside => ?_) (fun shaped => ?_) rfl
    · obtain ⟨e, listed, rfl⟩ := List.mem_map.mp inside
      exact shapedIff.mp (by simpa using earlier e listed)
    · simp [shapedIff.mpr shaped] at bad

theorem acceptChecked : Checked c name p.checks (p.accept name) := by
  rw [stepChecks]
  refine checkedBind spellChecked fun words spelled => ?_
  obtain ⟨well, rfl⟩ := spellOk spelled
  cases found : p.toWords.conflict? with
  | none => exact .passed (List.forall_mem_singleton.mpr ((conflictNone well).mp found))
  | some conflict =>
    have shared := conflictSome found
    exact checkedFirst (fun clear => clear _ _ _ shared) ⟨_, _, _, shared, rfl⟩

end Patch

namespace Dialect

variable {c : Catalog} {d : Dialect}

theorem acceptAllChecked {name : String} (ps : List (Patch String)) :
    Checked c name (ps.flatMap Patch.checks) (acceptAll name ps) := by
  induction ps with
  | nil => exact .passed (by simp)
  | cons p rest ih =>
    rw [List.flatMap_cons]
    exact checkedBind Patch.acceptChecked fun words _ => checkedMap (words :: ·) ih

theorem ownChecked : Checked c d.name d.tableChecks d.ownTables := by
  cases origin : d.origin with
  | derived parent =>
    simp only [tableChecks, ownTables, origin]
    exact .passed (by simp)
  | root tables =>
    have checks : d.tableChecks = (Patch.ofTables tables).steps.map (fun e => .spelling "base" e.1 e.2) := by
      simp [tableChecks, origin, Patch.ofTables, Patch.steps, Patch.addSteps, Tables.entries, Tables.foldOrder,
        ByCategory.get, Function.comp_def]
    rw [checks, ownTables, origin]
    exact checkedMap (fun own => [own]) (Patch.spellChecked (p := Patch.ofTables tables))

theorem acceptChecked : Checked c d.name (d.tableChecks ++ d.patches.flatMap Patch.checks) d.accept := by
  refine checkedBind ownChecked fun own _ => ?_
  exact checkedMap (fun patches => (⟨d.name, d.parent?, own ++ patches⟩ : Entry)) (acceptAllChecked d.patches)

theorem tablesPass : (∀ check ∈ d.tableChecks, check.Passes c d.name) ↔
    ∀ tables k, d.origin = .root tables → ∀ text ∈ tables.get k,
      text ≠ "" ∧ ∀ ch ∈ text.toList, Text.isBlank ch = false := by
  cases origin : d.origin with
  | derived parent => simp [tableChecks, origin]
  | root tables =>
    simp only [tableChecks, origin, List.forall_mem_append, List.forall_mem_map, Check.Passes]
    refine ⟨fun all other k same => ?_, fun all => ?_⟩
    · cases same
      cases k with
      | reserved => exact all.1.2
      | unreserved => exact all.2
      | futureReserved => exact all.1.1
    · exact ⟨⟨all tables .futureReserved rfl, all tables .reserved rfl⟩, all tables .unreserved rfl⟩

theorem wellFormedChecks : (∀ check ∈ d.checks, check.Passes c d.name) ↔ c.has d.name = false ∧ d.WellFormed := by
  simp only [checks, List.forall_mem_cons, List.forall_mem_append, List.forall_mem_flatMap, tablesPass,
    Patch.checksPass]
  refine and_congr_right fun _ => ⟨fun all => ⟨fun text stands => ?_, fun p inside => (all.2 p inside).2⟩, fun well => ?_⟩
  · rcases stands with ⟨tables, k, root, here⟩ | ⟨p, inside, step, here⟩
    · exact all.1 tables k root text here
    · exact (all.2 p inside).1 step text here
  · refine ⟨fun tables k root text here => well.spelled text (.inl ⟨tables, k, root, here⟩), fun p inside => ?_⟩
    exact ⟨fun step text here => well.spelled text (.inr ⟨p, inside, step, here⟩), well.clear p inside⟩

end Dialect

theorem enterChecked (c : Catalog) (d : Dialect) : Checked c d.name d.checks (c.enter d) := by
  have accepting := Dialect.acceptChecked (c := c) (d := d)
  unfold Catalog.enter
  split
  · rename_i taken
    exact checkedFirst (by simp [Check.Passes, taken]) rfl
  · rename_i untaken
    have free : Check.free.Passes c d.name := by simpa [Check.Passes] using untaken
    split
    · rename_i fault rejected
      rw [rejected] at accepting
      exact checkedCons free (checkedMap (fun e => (c, e)) accepting)
    · rename_i e accepted
      rw [accepted] at accepting
      exact checkedCons free (checkedMap (fun _ => _) accepting)

theorem registerAccepts (draft : Draft) (d : Dialect) :
    (∃ place, (draft.register d).value.2 = .ok place) ↔ draft.catalog.has d.name = false ∧ d.WellFormed := by
  rw [Draft.registerAnswer, ← Dialect.wellFormedChecks]
  exact checkedOk (checkedMap _ (enterChecked draft.catalog d))

theorem registerFirstFault (draft : Draft) (d : Dialect) :
    ((∃ place, (draft.register d).value.2 = .ok place) ↔ draft.catalog.has d.name = false ∧ d.WellFormed) ∧
    Checked draft.catalog d.name d.checks (draft.register d).value.2 := by
  refine ⟨registerAccepts draft d, ?_⟩
  rw [Draft.registerAnswer]
  exact checkedMap _ (enterChecked draft.catalog d)

example :
    let clash : Patch String := { name := "p", remove := ["top"], additions := ⟨["Top"], [], ["go to"]⟩ }
    ((({} : Draft).register ((Dialect.root "r" ⟨["a"], [" b"], []⟩).withPatch clash)).value.2 =
      .error (.invalidWord "r" "base" (.add .unreserved) " b")) ∧
    ((({} : Draft).register ((Dialect.derived "r" "s").withPatch clash)).value.2 =
      .error (.invalidWord "r" "p" (.add .futureReserved) "go to")) := by
  decide +kernel

end SqlLexicon
