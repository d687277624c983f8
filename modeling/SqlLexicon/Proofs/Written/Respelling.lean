import SqlLexicon.Proofs.Resolver.Course
import SqlLexicon.Proofs.Written.Spelling
import SqlLexicon.Vocabulary.Token

/-! Other spellings of the same words. Look-ups and dialects see a text in uppercase alone, so neither the case in which
something is asked for nor the case in which dialects are written shows in what a registry answers. -/
namespace SqlLexicon

namespace Text

def otherCase (c : Char) : Char := if c.isUpper then c.toLower else c.toUpper

inductive Recased : String → String → Prop where
  | raised (before : List Char) (c : Char) (after : List Char) :
      Recased (.ofList (before ++ c :: after)) (.ofList (before ++ upperForm c ++ after))
  | flipped (before : List Char) {c : Char} (after : List Char) (letter : c.isAlpha = true) :
      Recased (.ofList (before ++ c :: after)) (.ofList (before ++ otherCase c :: after))

theorem upperFormAgain (c : Char) : (upperForm c).flatMap upperForm = upperForm c := by
  have settled : ∀ d ∈ upperForm c, upperForm d = [d] := fun d inside => upperFormSettled inside
  rw [List.flatMap_congr settled, List.flatMap_singleton']

theorem asciiFlipped :
    ((List.range 128).all fun n =>
      !(Char.ofNat n).isAlpha || upperForm (otherCase (Char.ofNat n)) == upperForm (Char.ofNat n)) = true := by
  decide +kernel

theorem upperFormFlipped {c : Char} (letter : c.isAlpha = true) : upperForm (otherCase c) = upperForm c := by
  have low : c.toNat < 128 := by
    have range : (decide (c.val ≥ 'A'.val ∧ c.val ≤ 'Z'.val) || decide (c.val ≥ 'a'.val) && decide (c.val ≤ 'z'.val)) =
        true := letter
    simp only [Bool.or_eq_true, Bool.and_eq_true, decide_eq_true_eq] at range
    rcases range with ⟨_, high⟩ | ⟨_, high⟩
    · exact Nat.lt_of_le_of_lt (UInt32.le_iff_toNat_le.mp high) (by decide)
    · exact Nat.lt_of_le_of_lt (UInt32.le_iff_toNat_le.mp high) (by decide)
  have checked := List.all_eq_true.mp asciiFlipped c.toNat (List.mem_range.mpr low)
  simpa [Char.ofNat_toNat, letter] using checked

theorem uppercaseRecased {t t' : String} (recased : Recased t t') : uppercase t = uppercase t' := by
  cases recased with
  | raised before c after => simp [uppercase, upperFormAgain]
  | flipped before after letter => simp [uppercase, upperFormFlipped letter]

theorem uppercaseVariant {t t' : String} (variant : Relation.ReflTransGen Recased t t') :
    uppercase t = uppercase t' := by
  induction variant with
  | refl => rfl
  | tail _ last ih => exact ih.trans (uppercaseRecased last)

end Text

theorem Lexicon.categoryCased (l : Lexicon) {t t' : String} (same : Text.uppercase t = Text.uppercase t') :
    l.categoryOf t = l.categoryOf t' := by
  rw [categoryOf, categoryOf, normalFormUppercase, normalFormUppercase, same]

def Respells (s t : String) : Prop := s = t ∨ isWordShaped s = true ∧ Text.uppercase s = Text.uppercase t

def Tables.Respelled (tables tables' : Tables String) : Prop :=
  ∀ c, List.Forall₂ Respells (tables.get c) (tables'.get c)

structure Patch.Respelled (p p' : Patch String) : Prop where
  name : p.name = p'.name
  remove : List.Forall₂ Respells p.remove p'.remove
  redesignate : List.Forall₂ (fun e e' => Respells e.1 e'.1 ∧ e.2 = e'.2) p.redesignate p'.redesignate
  additions : p.additions.Respelled p'.additions

inductive Origin.Respelled : Origin → Origin → Prop where
  | root {tables tables' : Tables String} (respelled : tables.Respelled tables') : Respelled (.root tables) (.root tables')
  | derived (parent : String) : Respelled (.derived parent) (.derived parent)

structure Dialect.Respelled (d d' : Dialect) : Prop where
  name : d.name = d'.name
  origin : d.origin.Respelled d'.origin
  patches : List.Forall₂ Patch.Respelled d.patches d'.patches

section Spellings

variable {s t : String}

theorem respellsSame (respells : Respells s t) : Text.uppercase s = Text.uppercase t := by
  rcases respells with rfl | ⟨_, same⟩
  · rfl
  · exact same

theorem respellsShape (respells : Respells s t) : isWordShaped s = isWordShaped t := by
  rw [← shapedNormalForm s, ← shapedNormalForm t, normalFormUppercase, normalFormUppercase, respellsSame respells]

theorem respellsWord (respells : Respells s t) : Word.ofText? s = Word.ofText? t := by
  refine Option.ext fun w => ?_
  rw [Word.ofTextIff, Word.ofTextIff, normalFormUppercase, normalFormUppercase, respellsSame respells]

theorem respellsMisshapen (respells : Respells s t) (bad : isWordShaped s = false) : s = t := by
  rcases respells with same | ⟨shaped, _⟩
  · exact same
  · simp [bad] at shaped

theorem filterMapAlike {α β : Type} {related : α → α → Prop} {read : α → Option β} {xs ys : List α}
    (each : List.Forall₂ related xs ys) (alike : ∀ x y, related x y → read x = read y) :
    xs.filterMap read = ys.filterMap read := by
  induction each with
  | nil => rfl
  | cons here _ ih => simp only [List.filterMap_cons, alike _ _ here, ih]

end Spellings

namespace Patch

variable {p p' : Patch String}

theorem stepsRespelled (respelled : p.Respelled p') :
    List.Forall₂ (fun e e' => e.1 = e'.1 ∧ Respells e.2 e'.2) p.steps p'.steps := by
  obtain ⟨_, remove, redesignate, additions⟩ := respelled
  have added (c : Category) := additions c
  simp only [steps, addSteps, Tables.entries, Tables.foldOrder, List.flatMap_cons, List.flatMap_nil, List.map_append,
    List.map_map, List.append_nil]
  refine List.rel_append (List.rel_append ?_ ?_) (List.rel_append ?_ (List.rel_append ?_ ?_))
  all_goals simp only [List.forall₂_map_left_iff, List.forall₂_map_right_iff, Function.comp_def, true_and]
  · exact remove
  · exact redesignate.imp fun _ _ => And.left
  · exact added .futureReserved
  · exact added .reserved
  · exact added .unreserved

theorem misspellingRespelled (respelled : p.Respelled p') : p.misspelling? = p'.misspelling? := by
  have each := stepsRespelled respelled
  unfold misspelling?
  generalize p.steps = es at each
  generalize p'.steps = es' at each
  induction each with
  | nil => rfl
  | @cons e e' _ _ here _ ih =>
    obtain ⟨step, respells⟩ := here
    cases shaped : isWordShaped e.2 with
    | true => simp [← respellsShape respells, shaped, ih]
    | false => simp [Prod.ext step (respellsMisshapen respells shaped), ← respellsMisshapen respells shaped, shaped]

theorem toWordsRespelled (respelled : p.Respelled p') : p.toWords = p'.toWords := by
  obtain ⟨name, remove, redesignate, additions⟩ := respelled
  have words {xs ys : List String} (each : List.Forall₂ Respells xs ys) := filterMapAlike each fun _ _ => respellsWord
  have moves : p.redesignate.filterMap (fun e => (Word.ofText? e.1).map (·, e.2)) =
      p'.redesignate.filterMap fun e => (Word.ofText? e.1).map (·, e.2) :=
    filterMapAlike redesignate fun e e' same => by rw [respellsWord same.1, same.2]
  have added : p.additions.map (·.filterMap Word.ofText?) = p'.additions.map (·.filterMap Word.ofText?) := by
    simp only [ByCategory.map, ByCategory.tabulate, Function.comp_def, words (additions _)]
  rw [toWords, toWords, name, words remove, moves, added]

theorem spellRespelled (respelled : p.Respelled p') (dialect : String) : p.spell dialect = p'.spell dialect := by
  rw [spell, spell, misspellingRespelled respelled, toWordsRespelled respelled, respelled.name]

theorem acceptRespelled (respelled : p.Respelled p') (dialect : String) : p.accept dialect = p'.accept dialect := by
  rw [accept, accept, spellRespelled respelled, respelled.name]

end Patch

namespace Dialect

variable {d d' : Dialect}

theorem originRespelled (respelled : d.Respelled d') : d.parent? = d'.parent? ∧ d.ownTables = d'.ownTables := by
  cases d with
  | mk name origin patches =>
    cases d' with
    | mk name' origin' patches' =>
      obtain ⟨rfl, related, _⟩ := respelled
      cases related with
      | @root tables tables' each =>
        have own : (Patch.ofTables tables).Respelled (Patch.ofTables tables') := ⟨rfl, .nil, .nil, each⟩
        exact ⟨rfl, by simp only [ownTables, Patch.spellRespelled own]⟩
      | derived parent => exact ⟨rfl, rfl⟩

theorem acceptAllRespelled {ps ps' : List (Patch String)} (each : List.Forall₂ Patch.Respelled ps ps')
    (dialect : String) : acceptAll dialect ps = acceptAll dialect ps' := by
  induction each with
  | nil => rfl
  | cons here _ ih => rw [acceptAll, acceptAll, Patch.acceptRespelled here, ih]

theorem acceptRespelled (respelled : d.Respelled d') : d.accept = d'.accept := by
  obtain ⟨parent, own⟩ := originRespelled respelled
  rw [accept, accept, own, parent, respelled.name, acceptAllRespelled respelled.patches]

end Dialect

theorem Catalog.enterAlike {d d' : Dialect} (c : Catalog) (named : d.name = d'.name) (accepted : d.accept = d'.accept) :
    c.enter d = c.enter d' := by
  unfold enter
  simp only [named]
  split
  · rfl
  · split <;> split <;> simp_all

namespace Draft

theorem enrolRespelled {ds ds' : List Dialect} (draft : Draft) (each : List.Forall₂ Dialect.Respelled ds ds') :
    draft.enrol ds = draft.enrol ds' := by
  induction each generalizing draft with
  | nil => rfl
  | cons here _ ih =>
    have turn := draft.catalog.enterAlike here.name (Dialect.acceptRespelled here)
    simp only [enrol, register, turn, ih]

end Draft

theorem casingUnseen :
    (∀ (l : Lexicon) (t t' : String), Text.uppercase t = Text.uppercase t' →
      l.categoryOf t = l.categoryOf t' ∧ (∀ c, l.contains t c = l.contains t' c) ∧ l.isKeyword t = l.isKeyword t' ∧
      l.classify t = l.classify t' ∧ l.inspect t = l.inspect t') ∧
    (∀ t t', Relation.ReflTransGen Text.Recased t t' → Text.uppercase t = Text.uppercase t') ∧
    ∀ (draft : Draft) (ds ds' : List Dialect), List.Forall₂ Dialect.Respelled ds ds' →
      draft.enrol ds = draft.enrol ds' ∧ ∀ calls, draft.course ds calls = draft.course ds' calls := by
  refine ⟨fun l t t' same => ?_, fun _ _ => Text.uppercaseVariant, fun draft ds ds' each => ?_⟩
  · have found := l.categoryCased same
    simp only [Lexicon.contains, Lexicon.isKeyword, Lexicon.classify, Lexicon.inspect, found, implies_true, and_self]
  · have enrolled := draft.enrolRespelled each
    exact ⟨enrolled, fun calls => by rw [Draft.course, Draft.course, enrolled]⟩

def wholeAndPart (first second : String) : List Dialect :=
  [.root "whole" ⟨[first], [second], []⟩, (Dialect.derived "part" "whole").withPatch
    { name := "p", remove := [second], redesignate := [(first, .unreserved)] }]

theorem casingUnseenParts :
    Relation.ReflTransGen Text.Recased "straße" "StraSSe" ∧ (∀ l : Lexicon, l.inspect "straße" = l.inspect "StraSSe") ∧
    let run := ({} : Draft).course (wholeAndPart "straße" "top") [.all]
    run.value.2.1 = [.ok 0, .ok 1] ∧ run = ({} : Draft).course (wholeAndPart "StraSSe" "TOP") [.all] := by
  obtain ⟨asked, recased, written⟩ := casingUnseen
  have letter : Text.Recased "straße" "Straße" := .flipped [] ['t', 'r', 'a', 'ß', 'e'] (c := 's') rfl
  have grown : Text.Recased "Straße" "StraSSe" := .raised ['S', 't', 'r', 'a'] 'ß' ['e']
  have variant := (Relation.ReflTransGen.single letter).tail grown
  have same := recased _ _ variant
  have first : Respells "straße" "StraSSe" := .inr ⟨by decide +kernel, same⟩
  have second : Respells "top" "TOP" := .inr ⟨by decide +kernel, by decide +kernel⟩
  have tables : Tables.Respelled ⟨["straße"], ["top"], []⟩ ⟨["StraSSe"], ["TOP"], []⟩ := by
    intro c
    cases c with
    | reserved => exact .cons first .nil
    | unreserved => exact .cons second .nil
    | futureReserved => exact .nil
  have patch : Patch.Respelled
      { name := "p", remove := ["top"], redesignate := [("straße", .unreserved)] }
      { name := "p", remove := ["TOP"], redesignate := [("StraSSe", .unreserved)] } :=
    ⟨rfl, .cons second .nil, .cons ⟨first, rfl⟩ .nil, fun c => by cases c <;> exact .nil⟩
  have each : List.Forall₂ Dialect.Respelled (wholeAndPart "straße" "top") (wholeAndPart "StraSSe" "TOP") :=
    .cons ⟨rfl, .root tables, .nil⟩ (.cons ⟨rfl, .derived "whole", .cons patch .nil⟩ .nil)
  exact ⟨variant, fun l => (asked l _ _ same).2.2.2.2, by decide +kernel, (written {} _ _ each).2 [.all]⟩

end SqlLexicon
