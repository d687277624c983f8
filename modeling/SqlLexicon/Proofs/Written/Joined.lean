import SqlLexicon.Proofs.Catalog.Locality
import SqlLexicon.Proofs.Registration.Run
import SqlLexicon.Proofs.Resolver.Joined
import SqlLexicon.Proofs.Written.Meaning

/-! A root and the dialects derived from it one after the other, written as a single root. Wherever each of them is
accepted the single root is too, and it resolves as the last of them does, with the totals of all. -/
namespace SqlLexicon

namespace Dialect

def joined (name : String) (root : Dialect) (rest : List Dialect) : Dialect where
  name := name
  origin := root.origin
  patches := (root :: rest).flatMap patches

def words (d : Dialect) : List (Patch Word) :=
  (match d.origin with
    | .root tables => [(Patch.ofTables tables).toWords]
    | .derived _ => []) ++ d.patches.map Patch.toWords

variable {d root : Dialect} {rest chain : List Dialect} {e : Entry} {name : String} {row : List Entry}

theorem joinedWell (each : ∀ x ∈ root :: rest, x.WellFormed) : (joined name root rest).WellFormed where
  spelled text stands := by
    rcases stands with ⟨tables, c, origin, here⟩ | ⟨p, inside, step, here⟩
    · exact (each root List.mem_cons_self).spelled text (.inl ⟨tables, c, origin, here⟩)
    · obtain ⟨x, member, inside⟩ := List.mem_flatMap.mp inside
      exact (each x member).spelled text (.inr ⟨p, inside, step, here⟩)
  clear p inside := by
    obtain ⟨x, member, inside⟩ := List.mem_flatMap.mp inside
    exact (each x member).clear p inside

theorem joinedWords (derived : ∀ x ∈ rest, x.parent? ≠ none) :
    (joined name root rest).words = (root :: rest).flatMap words := by
  have below : rest.flatMap words = (rest.flatMap patches).map Patch.toWords := by
    rw [List.map_flatMap]
    refine List.flatMap_congr fun x inside => ?_
    have named := derived x inside
    cases origin : x.origin with
    | root tables => simp [parent?, origin] at named
    | derived parent => simp [words, origin]
  rw [List.flatMap_cons, below]
  simp [words, joined]

theorem acceptWell (accepted : d.accept = .ok e) : d.WellFormed := by
  have passed := (checkedOk (acceptChecked (c := ∅))).mp ⟨e, accepted⟩
  refine (wellFormedChecks (c := ∅)).mp ?_ |>.2
  exact List.forall_mem_cons.mpr ⟨rfl, passed⟩

theorem acceptAllWords {ps : List (Patch String)} {ws : List (Patch Word)} (accepted : acceptAll name ps = .ok ws) :
    ws = ps.map Patch.toWords := by
  induction ps generalizing ws with
  | nil => exact (Except.ok.inj accepted).symm
  | cons p rest ih =>
    obtain ⟨w, words, first, others, rfl⟩ := acceptAllCons accepted
    rw [List.map_cons, ← ih others, (Patch.spellOk (Patch.acceptSpelled first)).2]

theorem acceptWords (accepted : d.accept = .ok e) : e.patches = d.words := by
  obtain ⟨own, patches, owned, read, rfl⟩ := acceptParts accepted
  rw [words, ← acceptAllWords read]
  cases origin : d.origin with
  | derived parent => rw [ownNothing origin owned]
  | root tables =>
    obtain ⟨w, spelled, rfl⟩ := ownSpelled origin owned
    rw [(Patch.spellOk spelled).2]

theorem rowWords (accepted : List.Forall₂ Accepts chain row) : row.flatMap Entry.patches = chain.flatMap words := by
  induction accepted with
  | nil => rfl
  | cons first _ ih => rw [List.flatMap_cons, List.flatMap_cons, ih, acceptWords first]

end Dialect

variable {ds chain rest : List Dialect} {d root : Dialect} {name : String}

theorem descentNonempty (descent : Descent ds d chain) : chain ≠ [] := by
  cases descent <;> simp

theorem descentDerived (descent : Descent ds d (root :: rest)) :
    root.parent? = none ∧ ∀ x ∈ rest, x.parent? ≠ none := by
  generalize whole : root :: rest = chain at descent
  induction descent generalizing rest with
  | root registered top =>
    obtain ⟨rfl, rfl⟩ := List.cons.inj whole
    exact ⟨top, by simp⟩
  | @child d a chain registered named upper ih =>
    cases chain with
    | nil => exact absurd rfl (descentNonempty upper)
    | cons first more =>
      obtain ⟨rfl, rfl⟩ := List.cons.inj whole
      obtain ⟨top, below⟩ := ih rfl
      exact ⟨top, List.forall_mem_append.mpr ⟨below, by simp [named]⟩⟩

namespace Draft
open Catalog Resolver

theorem joinedRegistered {other : Draft} (free : other.catalog.has name = false)
    (each : ∀ x ∈ root :: rest, x.WellFormed) :
    let turn := (other.register (Dialect.joined name root rest)).value
    turn.2 = .ok other.catalog.size ∧
      ∃ single, (Dialect.joined name root rest).accept = .ok single ∧ single ∈ turn.1.catalog.entries := by
  intro turn
  obtain ⟨place, done⟩ := (registerAccepts other (Dialect.joined name root rest)).mpr ⟨free, Dialect.joinedWell each⟩
  obtain ⟨single, accepted, whole⟩ := registerOk done
  exact ⟨registerPlace done ▸ done, single, accepted, by rw [whole]; simp⟩

/- The chain may stand anywhere in a registry, and the single root in this or another one, under any name that is free.
What each dialect of the chain reports is a part of what the single root reports. -/
theorem joinedResolves {options : Options} (descent : Descent (Draft.accepted { options } ds) d (root :: rest))
    {other : Draft} (free : other.catalog.has name = false) :
    let here := Draft.attempt { options } ds
    let turn := (other.register (Dialect.joined name root rest)).value
    turn.2 = .ok other.catalog.size ∧
    ∀ more calls calls' q q',
      let there := turn.1.attempt more
      let answer := ((here.finish.value.after calls).ask q).value.2
      let answer' := ((there.finish.value.after calls').ask q').value.2
      here.catalog.AsksFor d.name q → there.catalog.AsksFor name q' →
      (∃ handle handle' parts, answer = .ok handle ∧ answer' = .ok handle' ∧
        handle'.lexicon.vocabulary = handle.lexicon.vocabulary ∧ handle'.lexicon.listing = handle.lexicon.listing ∧
        List.Forall₂ (Reports (here.session (calls ++ [.ask q])).events) ((root :: rest).map Dialect.name) parts ∧
        Reports (there.session (calls' ++ [.ask q'])).events name parts.sum) ∨
      ∃ culprit ∈ root :: rest, ∃ patch word,
        answer = .error (.unknownWord culprit.name patch .redesignate word) ∧
        answer' = .error (.unknownWord name patch .redesignate word) := by
  intro here turn
  obtain ⟨es, entered, whole⟩ := attemptEntries { options } ds
  have entries : List.Forall₂ Accepts (Draft.accepted { options } ds) here.catalog.entries := whole ▸ entered
  obtain ⟨e, above, member, accepted, line, row⟩ := descentLineage entries descent
  obtain ⟨top, derived⟩ := descentDerived descent
  have well : ∀ x ∈ root :: rest, x.WellFormed := by
    intro x inside
    obtain ⟨_, _, accept⟩ := acceptedEntry row inside
    exact Dialect.acceptWell accept
  obtain ⟨done, single, accept, registered⟩ := joinedRegistered free well
  refine ⟨done, ?_⟩
  intro more calls calls' q q' there answer answer' asked asked'
  have named : single.name = name := Dialect.acceptName accept
  have kept : single ∈ there.catalog.entries := attemptMember.mpr (.inl registered)
  have found : here.catalog.sought q = some e :=
    (soughtAsked asked).trans (findIff.mpr ⟨member, Dialect.acceptName accepted⟩)
  have found' : there.catalog.sought q' = some single := (soughtAsked asked').trans (findIff.mpr ⟨kept, named⟩)
  have patches : single.patches = (above ++ [e]).flatMap Entry.patches := by
    rw [Dialect.acceptWords accept, Dialect.joinedWords derived, Dialect.rowWords row]
  have names := acceptNames row
  rcases rowJoined found line found' ((acceptedParent accept).trans top) patches with
    ⟨handle, handle', parts, handed, handed', vocabulary, listing, each, report⟩ | ⟨culprit, inside, failed⟩
  · refine .inl ⟨handle, handle', parts, handed, handed', vocabulary, listing, ?_, named ▸ report⟩
    rw [← names]
    exact List.forall₂_map_left_iff.mpr each
  · have inside : culprit.name ∈ (root :: rest).map Dialect.name := names ▸ List.mem_map_of_mem inside
    obtain ⟨x, member, same⟩ := List.mem_map.mp inside
    rw [named, ← same] at failed
    exact .inr ⟨x, member, failed⟩

theorem joinedResolvesSample :
    let here : Draft := Draft.attempt {} sample
    let single := (here.register (.joined "single" sampleRoot [sampleMiddle])).value.1
    let lone := (here.register (.joined "lone" sampleRoot [sampleMiddle, sampleLeaf])).value.1
    (∃ parts, List.Forall₂ (Reports (here.session [.all, .ask (.name "middle")]).events) ["root", "middle"] parts ∧
      Reports (single.session [.ask (.place 3)]).events "single" parts.sum) ∧
    ((lone.finish.value.after []).ask (.name "lone")).value.2 =
      .error (.unknownWord "lone" "retire" .redesignate "TOP") := by
  intro here single lone
  have accepted : Draft.accepted {} sample = sample := by decide +kernel
  have middle : Descent (Draft.accepted {} sample) sampleMiddle [sampleRoot, sampleMiddle] :=
    accepted ▸ sampleDescent
  have last : sampleLeaf ∈ Draft.accepted {} sample := by
    rw [accepted]
    exact List.mem_cons_self
  have leaf : Descent (Draft.accepted {} sample) sampleLeaf [sampleRoot, sampleMiddle, sampleLeaf] :=
    .child last rfl middle
  have free : here.catalog.has "single" = false := by decide +kernel
  have free' : here.catalog.has "lone" = false := by decide +kernel
  have place : single.catalog.place? "single" = some 3 := by decide +kernel
  have folds : ((here.finish.value.after [.all]).ask (.name "middle")).value.2.map Handle.serial = .ok 1 := by
    decide +kernel
  have stuck : ((here.finish.value.after []).ask (.name "leaf")).value.2.map Handle.serial =
      .error (.unknownWord "leaf" "retire" .redesignate "TOP") := by decide +kernel
  constructor
  · obtain ⟨handle, handed, _⟩ := okOfMap folds
    rcases (joinedResolves middle free).2 [] [.all] [] (.name "middle") (.place 3) rfl place with
      ⟨_, _, parts, _, _, _, _, each, report⟩ | ⟨_, _, _, _, failed, _⟩
    · exact ⟨parts, each, report⟩
    · cases handed.symm.trans failed
  · rcases (joinedResolves leaf free').2 [] [] [] (.name "leaf") (.name "lone") rfl rfl with
      ⟨_, _, _, handed, _⟩ | ⟨_, _, patch, word, failed, failed'⟩
    · cases handed.symm.trans (errorOfMap stuck)
    · obtain ⟨_, rfl, _, rfl⟩ := Fault.unknownWord.inj (Except.error.inj (failed.symm.trans (errorOfMap stuck)))
      exact failed'

end Draft

end SqlLexicon
