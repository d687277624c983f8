import SqlLexicon.Proofs.Catalog.Revision
import SqlLexicon.Proofs.Written.Honoured
import SqlLexicon.Proofs.Written.Joined
import SqlLexicon.Proofs.Written.Locality

/-! Patches that are listed twice. A patch folded onto what it left leaves just that, so repeating it right behind
itself changes no answer, be it in one dialect or from a parent to the first patch of a child. -/
namespace SqlLexicon

namespace Vocabulary

variable {v u : Vocabulary} {p : Patch Word} {dialect : String}

theorem followAppendOk {xs ys : List Placed} (followed : v.follow (xs ++ ys) = .ok u) :
    ∃ w, v.follow xs = .ok w ∧ w.follow ys = .ok u := by
  rw [followAppend] at followed
  cases front : v.follow xs with
  | error fault => simp [front, Except.bind] at followed
  | ok w => exact ⟨w, rfl, by simpa [front, Except.bind] using followed⟩

theorem followAgain (followed : v.follow (p.placed dialect) = .ok u) (other : String) :
    u.follow (p.placed other) = .ok u := by
  rw [← followPatch {}] at followed ⊢
  obtain ⟨⟨_, totals⟩, folded, rfl⟩ := okOfMap followed
  obtain ⟨totals', again⟩ := Patch.applyAgain (Patch.foldApplied.mp folded)
  rw [Patch.foldApplied.mpr again]
  rfl

theorem followTwice (p : Patch Word) (dialect : String) (v : Vocabulary) (rest : List Placed) :
    v.follow (p.placed dialect ++ (p.placed dialect ++ rest)) = v.follow (p.placed dialect ++ rest) := by
  rw [followAppend, followAppend]
  cases followed : v.follow (p.placed dialect) with
  | error fault => rfl
  | ok u => simp only [Except.bind, followAppend, followAgain followed]

end Vocabulary

namespace Catalog

variable {c : Catalog} {e a : Entry} {p : Patch Word} {before after : List (Patch Word)}

theorem doubledStands (c : Catalog) (patches : e.patches = before ++ p :: after) :
    c.Stands e { e with patches := before ++ p :: p :: after } := by
  intro above u _ _
  simp only [Entry.placed, patches, List.flatMap_append, List.flatMap_cons, Vocabulary.followAppend u]
  exact congrArg (Except.bind _) (funext fun w => Vocabulary.followTwice p e.name w _)

theorem inheritedStands (link : c.Parent e a) (last : a.patches.getLast? = some p) :
    c.Stands e { e with patches := p :: e.patches } := by
  intro above u line followed
  cases line with
  | root top => exact absurd link (rootStops top _)
  | @child _ a' rest link' upper =>
    obtain rfl := parentUnique link link'
    obtain ⟨init, whole⟩ := List.getLast?_eq_some_iff.mp last
    have placed : a.placed = init.flatMap (Patch.placed a.name) ++ p.placed a.name := by
      rw [Entry.placed, whole, List.flatMap_append, List.flatMap_singleton]
    rw [Vocabulary.followRow, List.flatMap_append, List.flatMap_singleton, placed, ← List.append_assoc] at followed
    obtain ⟨w, _, tail⟩ := Vocabulary.followAppendOk followed
    simp only [Entry.placed, List.flatMap_cons, Vocabulary.followAppend u, Vocabulary.followAgain tail]
    rfl

end Catalog

namespace Dialect

variable {d d' donor : Dialect} {e : Entry} {p : Patch String} {w : Patch Word}

theorem acceptEntry (accepted : d.accept = .ok e) : e = ⟨d.name, d.parent?, d.words⟩ := by
  rw [← acceptName accepted, ← acceptedParent accepted, ← acceptWords accepted]

theorem wordsBehind (d : Dialect) :
    ∃ own, ∀ ps : List (Patch String), { d with patches := ps }.words = own ++ ps.map Patch.toWords := by
  simp only [words]
  exact ⟨_, fun _ => rfl⟩

theorem wellFormedFrom (well : d.WellFormed) (also : donor.WellFormed) (origin : d'.origin = d.origin)
    (each : ∀ q ∈ d'.patches, q ∈ d.patches ∨ q ∈ donor.patches) : d'.WellFormed where
  spelled text stands := by
    rcases stands with ⟨tables, c, root, here⟩ | ⟨q, inside, here⟩
    · exact well.spelled text (.inl ⟨tables, c, origin.symm.trans root, here⟩)
    · rcases each q inside with own | other
      · exact well.spelled text (.inr ⟨q, own, here⟩)
      · exact also.spelled text (.inr ⟨q, other, here⟩)
  clear q inside := (each q inside).elim (well.clear q) (also.clear q)

theorem loneWell {name : String} (accepted : p.accept name = .ok w) :
    (Dialect.mk name (.derived name) [p]).WellFormed := by
  have entered : (Dialect.mk name (.derived name) [p]).accept = .ok ⟨name, some name, [w]⟩ := by
    simp [accept, ownTables, acceptAll, accepted, bind, Except.bind, pure, Except.pure, parent?]
  exact acceptWell entered

end Dialect

namespace Draft
open Catalog

variable {draft draft' : Draft} {e e' : Entry} {before rest : List Entry} {pre post : List Dialect}

theorem acceptsAlike {d d' : Dialect} (free : draft'.catalog.has d'.name = draft.catalog.has d.name)
    (well : d'.WellFormed ↔ d.WellFormed) :
    (∃ place, (draft'.register d').value.2 = .ok place) ↔ ∃ place, (draft.register d).value.2 = .ok place := by
  rw [registerAccepts, registerAccepts, free, well]

theorem registerStays {d : Dialect} (rejected : ¬ ∃ place, (draft.register d).value.2 = .ok place) :
    (draft.register d).value.1 = draft := by
  cases turn : (draft.register d).value.2 with
  | ok place => exact absurd ⟨place, turn⟩ rejected
  | error fault => exact registerRejected turn

theorem attemptExchanged (here : draft.catalog.entries = before ++ e :: rest)
    (there : draft'.catalog.entries = before ++ e' :: rest) (named : e'.name = e.name) (ds : List Dialect) :
    ∃ rest', (draft.attempt ds).catalog.entries = before ++ e :: rest' ∧
      (draft'.attempt ds).catalog.entries = before ++ e' :: rest' := by
  induction ds generalizing draft draft' rest with
  | nil => exact ⟨rest, here, there⟩
  | cons d ds ih =>
    have free : draft'.catalog.has d.name = draft.catalog.has d.name := by
      simp only [has, names, here, there, List.map_append, List.map_cons, named]
    have turns := acceptsAlike free Iff.rfl
    by_cases taken : ∃ place, (draft.register d).value.2 = .ok place
    · obtain ⟨_, done'⟩ := turns.mpr taken
      obtain ⟨_, done⟩ := taken
      obtain ⟨a, accept, whole⟩ := registerOk done
      obtain ⟨a', accept', whole'⟩ := registerOk done'
      cases Except.ok.inj (accept.symm.trans accept')
      rw [here, List.append_assoc, List.cons_append] at whole
      rw [there, List.append_assoc, List.cons_append] at whole'
      exact ih whole whole'
    · rw [← registerStays taken] at here
      rw [← registerStays (taken ∘ turns.mp)] at there
      exact ih here there

theorem answersExchanged (x x' : Dialect) (named : x'.name = x.name) (parent : x'.parent? = x.parent?)
    (well : x'.WellFormed ↔ x.WellFormed)
    (stands : ∀ e e', e ∈ (draft.attempt (pre ++ x :: post)).catalog.entries → x.accept = .ok e → x'.accept = .ok e' →
      (draft.attempt (pre ++ x :: post)).catalog.Stands e e') (name : String) :
    (draft.attempt (pre ++ x :: post)).SameAnswers (draft.attempt (pre ++ x' :: post)) name := by
  rw [attemptAppend] at stands ⊢
  rw [attemptAppend]
  generalize draft.attempt pre = start at stands ⊢
  have turns := acceptsAlike (congrArg start.catalog.has named) well
  by_cases taken : ∃ place, (start.register x).value.2 = .ok place
  · obtain ⟨_, done'⟩ := turns.mpr taken
    obtain ⟨_, done⟩ := taken
    obtain ⟨e, accept, whole⟩ := registerOk done
    obtain ⟨e', accept', whole'⟩ := registerOk done'
    have same : e'.name = e.name := by rw [Dialect.acceptName accept', Dialect.acceptName accept, named]
    have up : e'.parent? = e.parent? := by rw [acceptedParent accept', acceptedParent accept, parent]
    obtain ⟨rest, here, there⟩ := attemptExchanged whole whole' same post
    have member : e ∈ ((start.register x).value.1.attempt post).catalog.entries := by simp [here]
    exact answersEqual (answerExchanged here there same up (stands e e' member accept accept') name).symm
  · -- neither is registered, so both runs go on from the same draft
    have run : start.attempt (x :: post) = start.attempt (x' :: post) := by
      rw [attempt, List.foldl_cons, attempt, List.foldl_cons, registerStays taken, registerStays (taken ∘ turns.mp)]
    rw [run]
    exact answersEqual rfl

section Repeated

variable {x a : Dialect} {p : Patch String} {w : Patch Word} {front back : List (Patch String)}

theorem doubledAnswers (patches : x.patches = front ++ p :: back) (name : String) :
    (draft.attempt (pre ++ x :: post)).SameAnswers
      (draft.attempt (pre ++ { x with patches := front ++ p :: p :: back } :: post)) name := by
  refine answersExchanged x { x with patches := front ++ p :: p :: back } rfl rfl ⟨fun well => ?_, fun well => ?_⟩
    (fun e e' _ accept accept' => ?_) name
  · exact Dialect.wellFormedFrom well well rfl (by simp [patches])
  · exact Dialect.wellFormedFrom well well rfl (by simp [patches])
  · obtain ⟨own, words⟩ := x.wordsBehind
    have once : x.words = (own ++ front.map Patch.toWords) ++ p.toWords :: back.map Patch.toWords := by
      rw [show x.words = own ++ x.patches.map Patch.toWords from words x.patches, patches, List.map_append,
        List.map_cons, List.append_assoc]
    have twice := words (front ++ p :: p :: back)
    rw [List.map_append, List.map_cons, List.map_cons, ← List.append_assoc] at twice
    rw [Dialect.acceptEntry accept, Dialect.acceptEntry accept', twice]
    exact doubledStands _ once

/- The last patch of the parent may be its tables, where they pass as a patch. -/
theorem inheritedAnswers (registered : a ∈ draft.accepted (pre ++ x :: post)) (parent : x.parent? = some a.name)
    (read : p.accept a.name = .ok w) (last : a.words.getLast? = some w) (name : String) :
    (draft.attempt (pre ++ x :: post)).SameAnswers
      (draft.attempt (pre ++ { x with patches := p :: x.patches } :: post)) name := by
  have lone := Dialect.loneWell read
  refine answersExchanged x { x with patches := p :: x.patches } rfl rfl ⟨fun well => ?_, fun well => ?_⟩
    (fun e e' member accept accept' => ?_) name
  · exact Dialect.wellFormedFrom well well rfl (by simp +contextual)
  · exact Dialect.wellFormedFrom well lone rfl (by simp [or_comm])
  · obtain ⟨es, each, whole⟩ := attemptEntries draft (pre ++ x :: post)
    obtain ⟨a', inside, accepted⟩ := acceptedEntry each registered
    have upper : a' ∈ (draft.attempt (pre ++ x :: post)).catalog.entries := whole ▸ List.mem_append_right _ inside
    have link : (draft.attempt (pre ++ x :: post)).catalog.Parent e a' :=
      ⟨a.name, (acceptedParent accept).trans parent, findIff.mpr ⟨upper, Dialect.acceptName accepted⟩⟩
    have stands := inheritedStands link (Dialect.acceptWords accepted ▸ last)
    have words : { x with patches := p :: x.patches }.words = w :: x.words := by
      obtain ⟨_, rfl⟩ := Patch.spellOk (Patch.acceptSpelled read)
      cases origin : x.origin with
      | root tables => simp [Dialect.parent?, origin] at parent
      | derived name => simp [Dialect.words, origin]
    rw [Dialect.acceptEntry accept] at stands
    rw [Dialect.acceptEntry accept, Dialect.acceptEntry accept', words]
    exact stands

end Repeated

/- In one dialect the repeated patch is any that it lists. What a child may repeat is whatever its parent ends with. -/
theorem repetitionIdle :
    (∀ (options options' : Options) (dialect dialect' : String) (p : Patch Word) (v u : Vocabulary) (totals : Totals),
      (p.fold options dialect v).value = .ok (u, totals) →
      ∃ totals', (p.fold options' dialect' u).value = .ok (u, totals')) ∧
    (∀ (draft : Draft) (pre post : List Dialect) (x : Dialect) (front back : List (Patch String)) (p : Patch String)
      (name : String), x.patches = front ++ p :: back →
      (draft.attempt (pre ++ x :: post)).SameAnswers
        (draft.attempt (pre ++ { x with patches := front ++ p :: p :: back } :: post)) name) ∧
    ∀ (draft : Draft) (pre post : List Dialect) (x a : Dialect) (p : Patch String) (w : Patch Word) (name : String),
      a ∈ draft.accepted (pre ++ x :: post) → x.parent? = some a.name → p.accept a.name = .ok w →
      a.words.getLast? = some w →
      (draft.attempt (pre ++ x :: post)).SameAnswers
        (draft.attempt (pre ++ { x with patches := p :: x.patches } :: post)) name := by
  refine ⟨fun options options' dialect dialect' p v u totals folded => ?_, ?_, ?_⟩
  · obtain ⟨totals', again⟩ := Patch.applyAgain (Patch.foldApplied.mp folded)
    exact ⟨totals', Patch.foldApplied.mpr again⟩
  · exact fun _ _ _ _ _ _ _ name patches => doubledAnswers patches name
  · exact fun _ _ _ _ _ _ _ name registered parent read last => inheritedAnswers registered parent read last name

theorem repetitionIdleSample :
    let v := Vocabulary.ofEntries [(Patch.label, .reserved), (Patch.array, .futureReserved), (Patch.goto, .unreserved)]
    let promote : Patch String := Patch.redesignating { name := "promote" } "Top" .reserved
    let here : Draft := Draft.attempt {} sample
    (∃ u totals totals', (Patch.overlap.toWords.fold {} "d" v).value = .ok (u, totals) ∧
      (Patch.overlap.toWords.fold {} "e" u).value = .ok (u, totals')) ∧
    here.SameAnswers (Draft.attempt {} [sampleLeaf, sampleRoot, { sampleMiddle with patches := [promote, promote] }])
      "leaf" ∧
    here.SameAnswers
      (Draft.attempt {} [{ sampleLeaf with patches := promote :: sampleLeaf.patches }, sampleRoot, sampleMiddle])
      "leaf" := by
  intro v promote here
  obtain ⟨again, doubled, inherited⟩ := repetitionIdle
  have movable : ∀ m ∈ Patch.overlap.toWords.redesignate, Patch.overlap.toWords.Movable v m := by decide +kernel
  obtain ⟨⟨u, totals⟩, folded⟩ := Patch.foldSucceeds.mpr movable
  obtain ⟨totals', idle⟩ := again {} {} "d" "e" _ v u totals folded
  have registered : sampleMiddle ∈ Draft.accepted {} sample := by decide +kernel
  have read : promote.accept "middle" = .ok promote.toWords := by decide +kernel
  refine ⟨⟨u, totals, totals', folded, idle⟩, ?_, ?_⟩
  · exact doubled {} [sampleLeaf, sampleRoot] [] sampleMiddle [] [] promote "leaf" rfl
  · exact inherited {} [] [sampleRoot, sampleMiddle] sampleLeaf sampleMiddle promote _ "leaf" registered rfl read rfl

end Draft

end SqlLexicon
