import SqlLexicon.Proofs.Catalog.Locality
import SqlLexicon.Proofs.Registration.Run
import SqlLexicon.Proofs.Written.Meaning

/-! Resolving is local. What a registry answers about a dialect depends on that dialect and on those its declared parents
lead to; other dialects, the order of registration, the options and earlier calls change nothing. -/
namespace SqlLexicon
open Relation

def Declares (ds : List Dialect) (name parent : String) : Prop := ∃ d ∈ ds, d.name = name ∧ d.parent? = some parent

def Unchanged (ds ds' : List Dialect) (name : String) : Prop :=
  ∀ d, ReflTransGen (Declares ds) name d.name → (d ∈ ds ↔ d ∈ ds')

theorem unchangedWithin {ds ds' : List Dialect} {name : String} (names : List String) (inside : name ∈ names)
    (closed : ∀ d ∈ ds, d.name ∈ names → ∀ p ∈ d.parent?, p ∈ names)
    (same : ∀ d ∈ ds ++ ds', d.name ∈ names → (d ∈ ds ↔ d ∈ ds')) : Unchanged ds ds' name := by
  intro d path
  have within : d.name ∈ names := by
    generalize d.name = n at path
    induction path with
    | refl => exact inside
    | tail _ link ih =>
      obtain ⟨x, member, rfl, named⟩ := link
      exact closed x member ih _ named
  by_cases known : d ∈ ds ++ ds'
  · exact same d known within
  · simp_all

namespace Draft
open Catalog

def SameAnswers (draft draft' : Draft) (name : String) : Prop :=
  ∀ calls calls' q q', draft.catalog.AsksFor name q → draft'.catalog.AsksFor name q' →
    ((draft.finish.value.after calls).ask q).value.2.map Handle.lexicon =
      ((draft'.finish.value.after calls').ask q').value.2.map Handle.lexicon

variable {draft draft' : Draft} {options options' : Options} {ds ds' more : List Dialect} {d : Dialect} {e : Entry}
  {name parent : String}

theorem answersEqual (same : draft.catalog.answer (.name name) = draft'.catalog.answer (.name name)) :
    draft.SameAnswers draft' name := by
  intro calls calls' q q' asked asked'
  rw [Resolver.finishedAnswer, Resolver.finishedAnswer, answerAsked asked, answerAsked asked', same]

theorem answersAlike (alike : draft.catalog.Alike draft'.catalog name) : draft.SameAnswers draft' name :=
  answersEqual (answerAlike alike)

theorem findEntered : (({ options } : Draft).attempt ds).catalog.find? name = some e ↔
    (∃ d ∈ ({ options } : Draft).accepted ds, d.accept = .ok e) ∧ e.name = name := by
  have nothing : e ∉ ({ options } : Draft).catalog.entries := List.not_mem_nil
  rw [findIff, attemptMember, or_iff_right nothing]

theorem enteredDeclares (link : (({ options } : Draft).attempt ds).catalog.parentOf? name = some parent) :
    Declares (({ options } : Draft).accepted ds) name parent := by
  obtain ⟨e, found, named⟩ := Option.bind_eq_some_iff.mp link
  obtain ⟨⟨d, member, accept⟩, rfl⟩ := findEntered.mp found
  exact ⟨d, member, (Dialect.acceptName accept).symm, (acceptedParent accept).symm.trans named⟩

theorem unchangedAlike
    (unchanged : Unchanged (({ options } : Draft).accepted ds) (({ options := options' } : Draft).accepted ds') name) :
    (({ options } : Draft).attempt ds).catalog.Alike (({ options := options' } : Draft).attempt ds').catalog name := by
  intro n path
  have declared := ReflTransGen.mono (fun _ _ => enteredDeclares) _ _ path
  refine Option.ext fun e => ?_
  rw [findEntered, findEntered]
  refine and_congr_left fun named => exists_congr fun d => and_congr_left fun accept => unchanged d ?_
  rwa [← Dialect.acceptName accept, named]

theorem moreAlike (options : Options) (found : draft.catalog.find? name = some e)
    (whole : ∀ y p, ¬ draft.catalog.Broken e y p) :
    draft.catalog.Alike ((draft.withOptions options).attempt more).catalog name := by
  intro n path
  obtain ⟨d, here, _⟩ := leadsReaches found whole path
  obtain ⟨member, named⟩ := findMember here
  have kept : d ∈ ((draft.withOptions options).attempt more).catalog.entries := attemptMember.mpr (.inl member)
  rw [here, findIff.mpr ⟨kept, named⟩]

theorem permutedAlike (options : Options) (permuted : ds.Perm ds') (distinct : (ds.map Dialect.name).Nodup) :
    (draft.attempt ds).catalog.Alike ((draft.withOptions options).attempt ds').catalog name := by
  intro n _
  have distinct' : (ds'.map Dialect.name).Nodup := (permuted.map _).nodup_iff.mp distinct
  have catalog : (draft.withOptions options).catalog = draft.catalog := rfl
  refine Option.ext fun e => ?_
  simp only [findIff, attemptMember, acceptedMember distinct, acceptedMember distinct', permuted.mem_iff,
    registerAccepts, catalog]

/- Entries decide in any two registries. Registries that come from registrations may be compared by the dialects that
were accepted, as they were written. A gap is what a later registration may fill, so it is left out of the third part. -/
theorem answersLocal :
    (∀ (draft draft' : Draft) (name : String), draft.catalog.Alike draft'.catalog name →
      draft.SameAnswers draft' name) ∧
    (∀ (options options' : Options) (ds ds' : List Dialect) (name : String),
      Unchanged (({ options } : Draft).accepted ds) (({ options := options' } : Draft).accepted ds') name →
      (({ options } : Draft).attempt ds).SameAnswers (({ options := options' } : Draft).attempt ds') name) ∧
    (∀ (draft : Draft) (options : Options) (more : List Dialect) (name : String) (e : Entry),
      draft.catalog.find? name = some e → (∀ y p, ¬ draft.catalog.Broken e y p) →
      draft.SameAnswers ((draft.withOptions options).attempt more) name) ∧
    ∀ (draft : Draft) (options : Options) (ds ds' : List Dialect) (name : String), ds.Perm ds' →
      (ds.map Dialect.name).Nodup → (draft.attempt ds).SameAnswers ((draft.withOptions options).attempt ds') name :=
  ⟨fun _ _ _ => answersAlike,
    fun _ _ _ _ _ unchanged => answersAlike (unchangedAlike unchanged),
    fun _ options _ _ _ found whole => answersAlike (moreAlike options found whole),
    fun _ options _ _ _ permuted distinct => answersAlike (permutedAlike options permuted distinct)⟩

def stray : Dialect := .derived "stray" "nowhere"

def elsewhere : List Dialect := [sampleMiddle, stray, sampleRoot, stray]

theorem answersLocalSample :
    let options : Options := ⟨true, false⟩
    let here : Draft := Draft.attempt {} sample
    let there : Draft := Draft.attempt { options } elsewhere
    here.SameAnswers there "middle" ∧ there.SameAnswers here "root" ∧
    here.SameAnswers ((here.withOptions options).attempt elsewhere) "leaf" ∧
    here.SameAnswers (Draft.attempt { options } sample.reverse) "leaf" := by
  intro options here there
  obtain ⟨entries, written, more, permuted⟩ := answersLocal
  have alike : here.catalog.Alike there.catalog "middle" :=
    alikeWithin ["middle", "root"] (by simp) (by decide +kernel) (by decide +kernel)
  have kept : Unchanged (Draft.accepted { options } elsewhere) (Draft.accepted {} sample) "root" :=
    unchangedWithin ["root"] (by simp) (by decide +kernel) (by decide +kernel)
  have leaf : Descent sample sampleLeaf [sampleRoot, sampleMiddle, sampleLeaf] :=
    .child (by simp [sample]) rfl sampleDescent
  obtain ⟨es, each, whole⟩ := attemptEntries {} sample
  rw [show Draft.accepted {} sample = sample by decide +kernel] at each
  have row : List.Forall₂ Accepts sample here.catalog.entries := whole ▸ each
  obtain ⟨e, above, member, accept, line, _⟩ := descentLineage row leaf
  have found : here.catalog.find? "leaf" = some e := findIff.mpr ⟨member, Dialect.acceptName accept⟩
  exact ⟨entries here there "middle" alike, written options {} elsewhere sample "root" kept,
    more here options elsewhere "leaf" e found fun _ _ => rootedNotBroken (lineageRooted line),
    permuted {} options sample sample.reverse "leaf" sample.reverse_perm.symm (by decide)⟩

end Draft

end SqlLexicon
