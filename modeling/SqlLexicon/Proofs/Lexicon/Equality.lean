import SqlLexicon.Proofs.Lexicon.Listing

/-! Equality of lexicons. Two are compared part by part, their vocabularies by size and by the entries of one alone. For
lexicons that are handed out this comes to the same name and the same answer to every look-up. -/
namespace SqlLexicon

def Vocabulary.same (v u : Vocabulary) : Bool := v.size == u.size && v.toList.all fun e => u[e.1]? == some e.2

def Lexicon.same (l l' : Lexicon) : Bool :=
  l.dialect == l'.dialect && l.vocabulary.same l'.vocabulary && Category.all.all fun c => l.words c == l'.words c

theorem ByCategory.getInj {β : Type} {values others : ByCategory β} (same : ∀ c, values.get c = others.get c) :
    values = others := by
  cases values
  cases others
  exact (ByCategory.mk.injEq ..).mpr ⟨same .reserved, same .unreserved, same .futureReserved⟩

theorem Vocabulary.sameIff {v u : Vocabulary} : v.same u = true ↔ v = u := by
  simp only [Vocabulary.same, Bool.and_eq_true, beq_iff_eq, List.all_eq_true, Prod.forall]
  constructor
  · intro both
    obtain ⟨size, within⟩ := both
    -- no entry of the second is left over, as both hold as many without repetition
    have inside : v.toList ⊆ u.toList := fun e here =>
      Std.ExtTreeMap.mem_toList_iff_getElem?_eq_some.mpr (within e.1 e.2 here)
    have fits : u.toList.length ≤ v.toList.length := by simp [size]
    have perm := (List.subperm_of_subset (enumeratesNodup (toListEnumerates v)) inside).perm_of_length_le fits
    refine Std.ExtTreeMap.ext_getElem? fun {w} => Option.ext fun c => ?_
    rw [← Std.ExtTreeMap.mem_toList_iff_getElem?_eq_some, ← Std.ExtTreeMap.mem_toList_iff_getElem?_eq_some,
      perm.mem_iff]
  · rintro rfl
    exact ⟨rfl, fun w c => Std.ExtTreeMap.mem_toList_iff_getElem?_eq_some.mp⟩

namespace Lexicon

variable {l l' : Lexicon} {v u : Vocabulary} {dialect dialect' : String}

theorem sameIff : l.same l' = true ↔ l = l' := by
  simp only [same, Bool.and_eq_true, beq_iff_eq, Vocabulary.sameIff, List.all_eq_true]
  constructor
  · intro parts
    obtain ⟨⟨named, vocabulary⟩, listed⟩ := parts
    have listing : l.listing = l'.listing := ByCategory.getInj fun c => listed c c.memAll
    cases l
    cases l'
    exact (Lexicon.mk.injEq ..).mpr ⟨named, vocabulary, listing⟩
  · rintro rfl
    exact ⟨⟨rfl, rfl⟩, fun _ _ => rfl⟩

theorem lookupsSame (same : ∀ text, l.categoryOf text = l'.categoryOf text) : l.vocabulary = l'.vocabulary := by
  refine Std.ExtTreeMap.ext_getElem? fun {w} => Option.ext fun c => ?_
  rw [← storedIff, ← storedIff, same]

theorem frozenSame (frozen : l = freeze l.dialect l.vocabulary) (frozen' : l' = freeze l'.dialect l'.vocabulary) :
    l = l' ↔ l.dialect = l'.dialect ∧ ∀ text, l.categoryOf text = l'.categoryOf text := by
  constructor
  · rintro rfl
    exact ⟨rfl, fun _ => rfl⟩
  · intro alike
    rw [frozen, frozen', alike.1, lookupsSame alike.2]

theorem lexiconsExtensional {draft draft' : Draft} {calls calls' : List Call} {q q' : Request} {handle handle' : Handle}
    (handed : ((draft.finish.value.after calls).ask q).value.2 = .ok handle)
    (handed' : ((draft'.finish.value.after calls').ask q').value.2 = .ok handle') :
    let l := handle.lexicon
    let l' := handle'.lexicon
    (l.same l' = true ↔ l.dialect = l'.dialect ∧ ∀ text, l.categoryOf text = l'.categoryOf text) ∧
    (l == l') = l.same l' ∧
    ((freeze l.dialect l.vocabulary).same l = true) ∧
    ∀ entries, Enumerates entries l.vocabulary → (gather l.dialect l.vocabulary entries).same l = true := by
  intro l l'
  have frozen := handedFrozen handed
  refine ⟨sameIff.trans (frozenSame frozen (handedFrozen handed')), ?_, sameIff.mpr frozen.symm, fun entries each => ?_⟩
  · rw [Bool.eq_iff_iff, beq_iff_eq, sameIff]
  · rw [sameIff, gatherFrozen _ each]
    exact frozen.symm

def streetsAgain : Dialect := .root "streets" ⟨["STRASSE", "straße"], ["Top"], ["array"]⟩

theorem lexiconsExtensionalStreets :
    let r := (({} : Draft).register streets).value.1.finish.value.after [.all, .invalidate]
    let r' := (({} : Draft).register streetsAgain).value.1.finish.value.after [.all]
    ∃ handle handle', (r.ask (.name "streets")).value.2 = .ok handle ∧ (r'.ask (.place 0)).value.2 = .ok handle' ∧
      handle.lexicon.same handle'.lexicon = true ∧
      ∀ text, handle.lexicon.categoryOf text = handle'.lexicon.categoryOf text := by
  intro r r'
  have both : (r'.ask (.place 0)).value.2.map Handle.lexicon = (r.ask (.name "streets")).value.2.map Handle.lexicon := by
    decide +kernel
  have first : (r.ask (.name "streets")).value.2.map Handle.serial = .ok 1 := by decide +kernel
  obtain ⟨handle, handed, _⟩ := okOfMap first
  rw [handed] at both
  obtain ⟨handle', handed', equal⟩ := okOfMap both
  have same : handle.lexicon.same handle'.lexicon = true := sameIff.mpr equal.symm
  obtain ⟨extensional, _⟩ := lexiconsExtensional handed handed'
  exact ⟨handle, handle', handed, handed', same, (extensional.mp same).2⟩

end Lexicon

end SqlLexicon
