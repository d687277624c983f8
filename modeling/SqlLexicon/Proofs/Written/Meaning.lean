import SqlLexicon.Proofs.Registration.Entered
import SqlLexicon.Proofs.Resolver.Request
import SqlLexicon.Proofs.Written.Acceptance

/-! What a resolver answers, said with the dialects as they were written down. The lines of a dialect and of all dialects
above it, from the root down, decide the category of every word, or the move that fails. -/
namespace SqlLexicon

inductive Descent (ds : List Dialect) : Dialect → List Dialect → Prop where
  | root {d : Dialect} (registered : d ∈ ds) (top : d.parent? = none) : Descent ds d [d]
  | child {d a : Dialect} {chain : List Dialect} (registered : d ∈ ds) (named : d.parent? = some a.name)
      (rest : Descent ds a chain) : Descent ds d (chain ++ [d])

def Accepts (d : Dialect) (e : Entry) : Prop := d.accept = .ok e

variable {ds chain : List Dialect} {d : Dialect} {c : Catalog} {row : List Entry}

theorem rowLines (accepted : List.Forall₂ Accepts chain row) :
    (row.flatMap Entry.placed).map Placed.line = chain.flatMap Dialect.lines := by
  induction accepted with
  | nil => rfl
  | cons first _ ih => rw [List.flatMap_cons, List.flatMap_cons, List.map_append, ih, Dialect.acceptLines first]

theorem acceptedEntry (accepted : List.Forall₂ Accepts ds row) (registered : d ∈ ds) : ∃ e ∈ row, Accepts d e := by
  induction accepted with
  | nil => simp at registered
  | cons first _ ih =>
    rcases List.mem_cons.mp registered with rfl | below
    · exact ⟨_, List.mem_cons_self, first⟩
    · obtain ⟨e, inside, here⟩ := ih below
      exact ⟨e, List.mem_cons_of_mem _ inside, here⟩

theorem acceptedParent {e : Entry} (accepted : Accepts d e) : e.parent? = d.parent? := by
  obtain ⟨_, _, _, _, rfl⟩ := Dialect.acceptParts accepted
  rfl

theorem descentLineage (accepted : List.Forall₂ Accepts ds c.entries) (descent : Descent ds d chain) :
    ∃ e above, e ∈ c.entries ∧ Accepts d e ∧ c.Lineage e above ∧ List.Forall₂ Accepts chain (above ++ [e]) := by
  induction descent with
  | root registered top =>
    obtain ⟨e, member, here⟩ := acceptedEntry accepted registered
    exact ⟨e, [], member, here, .root ((acceptedParent here).trans top), .cons here .nil⟩
  | child registered named _ ih =>
    obtain ⟨e, member, here⟩ := acceptedEntry accepted registered
    obtain ⟨a, above, upper, accept, line, row⟩ := ih
    have link : c.Parent e a :=
      ⟨_, (acceptedParent here).trans named, Dialect.acceptName accept ▸ Catalog.findOfMember upper⟩
    exact ⟨e, above ++ [a], member, here, .child link line, List.rel_append row (.cons here .nil)⟩

theorem resolveWritten {r : Resolver} {options : Options}
    (accepted : (Draft.registerAll { options } ds).value.2 = .ok ())
    (same : r.catalog = (Draft.registerAll { options } ds).value.1.catalog) (nothing : r.cache = ∅)
    (descent : Descent ds d chain) :
    let lines := chain.flatMap Dialect.lines
    let answer := (r.resolve d.name).value.2.map Handle.lexicon
    (AllPresent lines → ∃ v, answer = .ok (.freeze d.name v) ∧ ∀ w : Word, v[w]? = standing lines w.text) ∧
    (¬ AllPresent lines → ∃ line, FirstAbsent lines line ∧
      answer = .error (.unknownWord line.dialect line.patch .redesignate line.text)) := by
  intro lines answer
  obtain ⟨es, entered, whole⟩ := Draft.registerAllOk accepted
  have entries : List.Forall₂ Accepts ds r.catalog.entries := by
    rw [same, whole]
    exact entered
  obtain ⟨e, above, member, here, line, row⟩ := descentLineage entries descent
  have named : e.name = d.name := Dialect.acceptName here
  have meaning : answer = (Vocabulary.followRow ∅ (above ++ [e])).map (.freeze e.name) := by
    rw [← Catalog.meaningRow member line]
    refine (Resolver.askAnswer (q := .name d.name) (Resolver.emptySound nothing)).trans ?_
    simp [Catalog.answer, Catalog.sought, ← named, Catalog.findOfMember member]
  have followed := Vocabulary.followFollowed ((above ++ [e]).flatMap Entry.placed)
  rw [← Vocabulary.followRow] at followed
  generalize Vocabulary.followRow ∅ (above ++ [e]) = result at followed meaning
  cases followed with
  | whole all stands =>
    rw [rowLines row] at all stands
    exact ⟨fun _ => ⟨_, named ▸ meaning, stands⟩, fun missing => absurd all missing⟩
  | stopped absent =>
    rw [rowLines row] at absent
    exact ⟨fun all => absurd all (firstAbsentNot absent), fun _ => ⟨_, absent, meaning⟩⟩

def sampleRoot : Dialect := .root "root" ⟨["select"], ["top"], []⟩

def sampleMiddle : Dialect :=
  (Dialect.derived "middle" "root").withPatch (Patch.redesignating { name := "promote" } "Top" .reserved)

def sampleLeaf : Dialect :=
  (Dialect.derived "leaf" "middle").withPatch
    ((Patch.removing { name := "retire" } ["top"]).redesignating "TOP" .futureReserved)

def sample : List Dialect := [sampleLeaf, sampleRoot, sampleMiddle]

theorem sampleDescent : Descent sample sampleMiddle [sampleRoot, sampleMiddle] :=
  .child (by simp [sample]) rfl (.root (by simp [sample]) rfl)

theorem resolveWrittenSample :
    let r := Resolver.fresh {} (Draft.registerAll {} sample).value.1.catalog
    (∃ v, (r.resolve "middle").value.2.map Handle.lexicon = .ok (.freeze "middle" v) ∧
      ∀ w : Word, v[w]? = standing ([sampleRoot, sampleMiddle].flatMap Dialect.lines) w.text) ∧
    ∃ line, FirstAbsent ([sampleRoot, sampleMiddle, sampleLeaf].flatMap Dialect.lines) line ∧
      (r.resolve "leaf").value.2.map Handle.lexicon =
        .error (.unknownWord line.dialect line.patch .redesignate line.text) := by
  have accepted : (Draft.registerAll {} sample).value.2 = .ok () := by decide +kernel
  have leaf : Descent sample sampleLeaf [sampleRoot, sampleMiddle, sampleLeaf] :=
    .child (by simp [sample]) rfl sampleDescent
  exact ⟨(resolveWritten accepted rfl rfl sampleDescent).1 (by decide +kernel),
    (resolveWritten accepted rfl rfl leaf).2 (by decide +kernel)⟩

end SqlLexicon
