import SqlLexicon.Proofs.Written.Joined
import SqlLexicon.Proofs.Written.Locality

/-! Whom a fault names. A fault of registering names the dialect that was handed in. A fault of resolving names the dialect
asked for, or the one at or above it which declares a missing parent or has the patch whose move fails. -/
namespace SqlLexicon
open Relation

namespace Vocabulary

variable {v : Vocabulary} {e : Entry} {fault : Fault}

theorem entryMove (failed : v.follow e.placed = .error fault) : ∃ p ∈ e.patches, ∃ m ∈ p.redesignate,
    fault = .unknownWord e.name p.name .redesignate m.1.text := by
  obtain ⟨s, inside, rfl, _, stuck⟩ := followFault failed
  obtain ⟨moves, _⟩ := touchFails.mp stuck
  obtain ⟨p, owned, here⟩ := List.mem_flatMap.mp inside
  obtain ⟨t, touched, rfl⟩ := List.mem_map.mp here
  simp only [Patch.touches, List.mem_append, List.mem_map] at touched
  rcases touched with (⟨w, _, rfl⟩ | ⟨m, moved, rfl⟩) | ⟨put, _, rfl⟩
  · contradiction
  · exact ⟨p, owned, m, moved, rfl⟩
  · contradiction

end Vocabulary

namespace Catalog

inductive Blames (c : Catalog) (x : Entry) : Fault → Prop where
  | cyclic (chain : List String) : Blames c x (.cyclicDialect x.name chain)
  | parent {e : Entry} {name : String} (way : c.Reaches x e) (declared : e.parent? = some name)
      (missing : c.has name = false) : Blames c x (.unknownParent e.name name)
  | word {e : Entry} {p : Patch Word} {m : Word × Category} (way : c.Reaches x e) (owned : p ∈ e.patches)
      (moved : m ∈ p.redesignate) : Blames c x (.unknownWord e.name p.name .redesignate m.1.text)

variable {c : Catalog} {x e : Entry} {above : List Entry} {fault : Fault}

theorem rowReached (line : c.Lineage x above) (inside : e ∈ above ++ [x]) : c.Reaches x e := by
  rcases List.mem_append.mp inside with upper | last
  · exact ((lineageMembers line).mp upper).to_reflTransGen
  · exact List.mem_singleton.mp last ▸ .refl

theorem meaningBlames (member : x ∈ c.entries) (failed : c.meaning x = .error fault) : c.Blames x fault := by
  rcases ancestorsKinds member with ⟨above, answered⟩ | ⟨y, p, answered⟩ | ⟨chain, answered⟩
  · have line := lineageOfOk member answered
    rw [meaningRow member line] at failed
    obtain ⟨e, below, u, whole, _, stopped⟩ := Vocabulary.foldableFailed (errorOfMap failed)
    obtain ⟨p, owned, m, moved, rfl⟩ := Vocabulary.entryMove stopped
    exact .word (rowReached line (whole ▸ by simp)) owned moved
  · obtain ⟨e, way, rfl, declared, missing⟩ := brokenOfUnknown member answered
    rw [(meaningUnrooted answered).1, Except.error.injEq] at failed
    exact failed ▸ .parent way declared missing
  · rw [(meaningUnrooted answered).1, Except.error.injEq] at failed
    exact failed ▸ .cyclic chain

theorem reachesLeads (member : x ∈ c.entries) (way : c.Reaches x e) : e ∈ c.entries ∧ c.Leads x.name e.name := by
  induction way with
  | refl => exact ⟨member, .refl⟩
  | tail _ link ih =>
    obtain ⟨inside, path⟩ := ih
    obtain ⟨name, declared, found⟩ := link
    obtain ⟨upper, rfl⟩ := findMember found
    exact ⟨upper, .tail path (by simpa [parentOf?, findOfMember inside] using declared)⟩

end Catalog

def Request.asked (ds : List Dialect) : Request → String
  | .name text => text
  | .place index => (ds[index]?.map Dialect.name).getD (placeText index)

def AtOrAbove (ds : List Dialect) (asked : String) (d : Dialect) : Prop :=
  d ∈ ds ∧ ReflTransGen (Declares ds) asked d.name

structure Attributed (ds : List Dialect) (asked : String) (fault : Fault) : Prop where
  resolving : fault.isRegistration = false
  unknown : ∀ name, fault = .unknownDialect name → fault.dialect = asked
  cyclic : ∀ name chain, fault = .cyclicDialect name chain → fault.dialect = asked
  parent : ∀ name missing, fault = .unknownParent name missing →
    ∃ d, AtOrAbove ds asked d ∧ fault.dialect = d.name ∧ d.parent? = some missing ∧ ∀ other ∈ ds, other.name ≠ missing
  word : ∀ name patch step word, fault = .unknownWord name patch step word →
    ∃ d, AtOrAbove ds asked d ∧ fault.dialect = d.name ∧ step = .redesignate ∧
      ∃ p ∈ d.patches, p.name = patch ∧ ∃ m ∈ p.redesignate, normalForm m.1 = word

theorem Check.reportsOwn {check : Check} {name : String} {fault : Fault} (reports : check.Reports name fault) :
    fault.isRegistration = true ∧ fault.dialect = name := by
  cases check with
  | free => exact reports ▸ ⟨rfl, rfl⟩
  | spelling patch step text => exact reports ▸ ⟨rfl, rfl⟩
  | lists p =>
    obtain ⟨_, _, _, _, rfl⟩ := reports
    exact ⟨rfl, rfl⟩

theorem Dialect.wordsMove {d : Dialect} {p : Patch Word} {m : Word × Category} (owned : p ∈ d.words)
    (moved : m ∈ p.redesignate) :
    ∃ p' ∈ d.patches, p'.name = p.name ∧ ∃ e ∈ p'.redesignate, normalForm e.1 = m.1.text := by
  rcases List.mem_append.mp owned with tables | patches
  · cases origin : d.origin with
    | derived parent => simp [origin] at tables
    | root base =>
      simp only [origin, List.mem_singleton] at tables
      subst tables
      simp [Patch.toWords, Patch.ofTables] at moved
  · obtain ⟨p', inside, rfl⟩ := List.mem_map.mp patches
    obtain ⟨e, listed, read⟩ := List.mem_filterMap.mp moved
    obtain ⟨w, word, rfl⟩ := Option.map_eq_some_iff.mp read
    exact ⟨p', inside, rfl, e, listed, (Word.ofTextIff.mp word).symm⟩

namespace Draft
open Catalog

variable {draft : Draft} {options : Options} {ds : List Dialect} {d : Dialect} {x : Entry} {q : Request} {fault : Fault}

theorem registerBlames (failed : (draft.register d).value.2 = .error fault) :
    fault.isRegistration = true ∧ fault.dialect = d.name := by
  rw [registerAnswer] at failed
  have checked := enterChecked draft.catalog d
  rw [errorOfMap failed] at checked
  generalize d.checks = checks at checked
  cases checked with
  | failed _ _ reports => exact Check.reportsOwn reports

theorem enteredEntry (member : x ∈ (({ options } : Draft).attempt ds).catalog.entries) :
    ∃ d ∈ ({ options } : Draft).accepted ds, d.accept = .ok x :=
  (findEntered.mp (findOfMember member)).1

theorem enteredNames (options : Options) (ds : List Dialect) :
    (({ options } : Draft).attempt ds).catalog.names = (({ options } : Draft).accepted ds).map Dialect.name :=
  attemptNames { options } ds

theorem blamesAttributed (member : x ∈ (({ options } : Draft).attempt ds).catalog.entries)
    (blames : (({ options } : Draft).attempt ds).catalog.Blames x fault) :
    Attributed (({ options } : Draft).accepted ds) x.name fault := by
  have written {e : Entry} (way : (({ options } : Draft).attempt ds).catalog.Reaches x e) :
      ∃ d, AtOrAbove (({ options } : Draft).accepted ds) x.name d ∧ d.accept = .ok e := by
    obtain ⟨inside, path⟩ := reachesLeads member way
    obtain ⟨d, accepted, accept⟩ := enteredEntry inside
    have declared := ReflTransGen.mono (fun _ _ => enteredDeclares) _ _ path
    exact ⟨d, ⟨accepted, Dialect.acceptName accept ▸ declared⟩, accept⟩
  cases blames with
  | cyclic chain => exact ⟨rfl, by simp, fun _ _ _ => rfl, by simp, by simp⟩
  | parent way declared missing =>
    refine ⟨rfl, by simp, by simp, fun _ _ same => ?_, by simp⟩
    cases same
    obtain ⟨d, above, accept⟩ := written way
    refine ⟨d, above, Dialect.acceptName accept, (acceptedParent accept).symm.trans declared, ?_⟩
    simpa [has, enteredNames] using missing
  | word way owned moved =>
    refine ⟨rfl, by simp, by simp, by simp, fun _ _ _ _ same => ?_⟩
    cases same
    obtain ⟨d, above, accept⟩ := written way
    rw [Dialect.acceptWords accept] at owned
    exact ⟨d, above, Dialect.acceptName accept, rfl, Dialect.wordsMove owned moved⟩

theorem askedName (q : Request) : q.asked (({ options } : Draft).accepted ds) =
    match (({ options } : Draft).attempt ds).catalog.sought q with
    | some x => x.name
    | none => q.text := by
  cases q with
  | name text =>
    cases found : (({ options } : Draft).attempt ds).catalog.sought (.name text) with
    | none => rfl
    | some x => exact (findMember found).2.symm
  | place index =>
    rw [Request.asked, ← List.getElem?_map, ← enteredNames, names, List.getElem?_map, sought]
    cases (({ options } : Draft).attempt ds).catalog.entries[index]? <;> rfl

theorem answerAttributed (failed : (({ options } : Draft).attempt ds).catalog.answer q = .error fault) :
    Attributed (({ options } : Draft).accepted ds) (q.asked (({ options } : Draft).accepted ds)) fault := by
  rw [askedName q]
  cases found : (({ options } : Draft).attempt ds).catalog.sought q with
  | none =>
    rw [answer, found, Except.error.injEq] at failed
    exact failed ▸ ⟨rfl, fun _ _ => rfl, by simp, by simp, by simp⟩
  | some x =>
    rw [answer, found] at failed
    exact blamesAttributed (soughtMember found) (meaningBlames (soughtMember found) failed)

theorem faultsAttributed :
    (∀ (draft : Draft) (d : Dialect) fault, (draft.register d).value.2 = .error fault →
      fault.isRegistration = true ∧ fault.dialect = d.name) ∧
    ∀ (options : Options) (ds : List Dialect) (calls : List Call),
      let registered := Draft.accepted { options } ds
      let r := (Draft.attempt { options } ds).finish.value.after calls
      (∀ q fault, (r.ask q).value.2 = .error fault → Attributed registered (q.asked registered) fault) ∧
      ∀ name fault, (name, fault) ∈ r.resolveAll.value.2 → Attributed registered name fault := by
  refine ⟨fun _ _ _ => registerBlames, fun options ds calls => ?_⟩
  intro registered r
  obtain ⟨sound, same⟩ := Resolver.finishSound (Draft.attempt { options } ds)
  obtain ⟨sound', kept⟩ := Resolver.afterSound sound calls
  refine ⟨fun q fault failed => ?_, fun name fault listed => ?_⟩
  · refine answerAttributed ?_
    rw [← Resolver.finishedAnswer _ calls q]
    exact congrArg (·.map Handle.lexicon) failed
  · rw [(Resolver.resolveAllServes sound').2.2, kept, same, Resolver.failures] at listed
    obtain ⟨x, member, failure⟩ := List.mem_filterMap.mp listed
    cases meant : (Draft.attempt { options } ds).catalog.meaning x with
    | ok lexicon => simp [meant] at failure
    | error reason =>
      simp only [meant, Option.some.injEq, Prod.mk.injEq] at failure
      obtain ⟨rfl, rfl⟩ := failure
      exact blamesAttributed member (meaningBlames member meant)

def strays : List Dialect := sample ++ [.derived "heir" "leaf", stray, .derived "waif" "stray"]

theorem faultsAttributedStrays :
    let draft : Draft := Draft.attempt {} strays
    let registered := Draft.accepted {} strays
    (∃ fault, (draft.register stray).value.2 = .error fault ∧ fault.isRegistration = true ∧ fault.dialect = "stray") ∧
    (∃ fault, ((draft.finish.value.after [.all]).ask (.place 3)).value.2 = .error fault ∧
      Attributed registered "heir" fault ∧ ∃ d, AtOrAbove registered "heir" d ∧ "leaf" = d.name ∧
        ∃ p ∈ d.patches, p.name = "retire" ∧ ∃ m ∈ p.redesignate, normalForm m.1 = "TOP") ∧
    ∃ fault, ("waif", fault) ∈ (draft.finish.value.after [.all]).resolveAll.value.2 ∧
      ∃ d, AtOrAbove registered "waif" d ∧ "stray" = d.name ∧ d.parent? = some "nowhere" := by
  intro draft registered
  obtain ⟨registering, resolving⟩ := faultsAttributed
  obtain ⟨asked, listed⟩ := resolving {} strays [.all]
  have twice : (draft.register stray).value.2 = .error (.duplicateDialect "stray") := by decide +kernel
  have place : (Request.place 3).asked registered = "heir" := by decide +kernel
  have heir : ((draft.finish.value.after [.all]).ask (.place 3)).value.2.map Handle.serial =
      .error (.unknownWord "leaf" "retire" .redesignate "TOP") := by decide +kernel
  have waif : ("waif", .unknownParent "stray" "nowhere") ∈ (draft.finish.value.after [.all]).resolveAll.value.2 := by
    decide +kernel
  have blamed := asked (.place 3) _ (errorOfMap heir)
  rw [place] at blamed
  obtain ⟨d, above, named, _, owned⟩ := blamed.word _ _ _ _ rfl
  obtain ⟨d', above', named', declared, _⟩ := (listed "waif" _ waif).parent _ _ rfl
  exact ⟨⟨_, twice, registering _ _ _ twice⟩, ⟨_, errorOfMap heir, blamed, d, above, named, owned⟩,
    _, waif, d', above', named', declared⟩

end Draft

end SqlLexicon
