import SqlLexicon.Proofs.Resolver.History
import SqlLexicon.Proofs.Written.Folding
import SqlLexicon.Proofs.Written.Spelling
import SqlLexicon.Vocabulary.Token

/-! Look-ups in a lexicon against its three listings, for any text. A look-up casts the text into canonical form and need
not ask whether it is a word: only words are stored, and casting neither makes nor removes white space. -/
namespace SqlLexicon

namespace Classification

variable {found : Option Category}

theorem reservedIff : (ofCategory found).tokenClass = .reserved ↔ found = some .reserved := by
  rcases found with _ | _ | _ | _ <;> simp [ofCategory]

theorem unreservedIff : (ofCategory found).tokenClass = .unreserved ↔ found = some .unreserved := by
  rcases found with _ | _ | _ | _ <;> simp [ofCategory]

theorem identifierIff : (ofCategory found).tokenClass = .identifier ↔
    found ≠ some .reserved ∧ found ≠ some .unreserved := by
  rcases found with _ | _ | _ | _ <;> simp [ofCategory]

theorem advisoryIff : (ofCategory found).advisory = some .futureReserved ↔ found = some .futureReserved := by
  rcases found with _ | _ | _ | _ <;> simp [ofCategory]

end Classification

namespace Lexicon

variable {l : Lexicon} {dialect text : String} {v : Vocabulary} {c : Category}

theorem categoryStored :
    l.categoryOf text = some c ↔ ∃ w : Word, w.text = normalForm text ∧ l.vocabulary[w]? = some c := by
  simp only [categoryOf, Option.bind_eq_bind, Option.bind_eq_some_iff, Word.ofCanonicalIff]

/- What stands under the canonical form of the text, whatever the shape of the text. -/
def underCanonical (l : Lexicon) (text : String) : Option Category :=
  (l.vocabulary.toList.find? (·.1.text == normalForm text)).map Prod.snd

theorem canonicalStored :
    l.underCanonical text = some c ↔ ∃ w : Word, w.text = normalForm text ∧ l.vocabulary[w]? = some c := by
  simp only [underCanonical, Option.map_eq_some_iff]
  constructor
  · intro listed
    obtain ⟨e, found, rfl⟩ := listed
    have member := List.mem_of_find?_eq_some found
    exact ⟨e.1, by simpa using List.find?_some found, Std.ExtTreeMap.mem_toList_iff_getElem?_eq_some.mp member⟩
  · intro stored
    obtain ⟨w, same, kept⟩ := stored
    have member := Std.ExtTreeMap.mem_toList_iff_getElem?_eq_some.mpr kept
    cases found : l.vocabulary.toList.find? (·.1.text == normalForm text) with
    | none => simpa [same] using List.find?_eq_none.mp found _ member
    | some e =>
      have here := Std.ExtTreeMap.mem_toList_iff_getElem?_eq_some.mp (List.mem_of_find?_eq_some found)
      have named : e.1.text = w.text := by simpa [same] using List.find?_some found
      rw [Word.textInj.mp named, kept] at here
      exact ⟨e, rfl, (Option.some.inj here).symm⟩

theorem categoryCanonical (l : Lexicon) (text : String) : l.categoryOf text = l.underCanonical text :=
  Option.ext fun _ => categoryStored.trans canonicalStored.symm

theorem freezeWords {w : Word} : w ∈ (freeze dialect v).words c ↔ v[w]? = some c := by
  simp [words, freeze, Vocabulary.wordsOf, Std.ExtTreeMap.mem_toList_iff_getElem?_eq_some]

def Lists (l : Lexicon) (text : String) (c : Category) : Prop :=
  isWordShaped text = true ∧ ∃ w, Word.ofText? text = some w ∧ w ∈ l.words c

theorem categoryListed : (freeze dialect v).categoryOf text = some c ↔ (freeze dialect v).Lists text c := by
  simp only [categoryStored, Lists, Word.ofTextIff, freezeWords]
  refine ⟨fun stored => ?_, And.right⟩
  obtain ⟨w, same, kept⟩ := stored
  exact ⟨shapedOfWord same, w, same, kept⟩

theorem blankUnlisted (blank : text = "" ∨ ∃ ch ∈ text.toList, Text.isBlank ch = true) : ¬ l.Lists text c := by
  intro listed
  obtain ⟨nonempty, ink⟩ := shapedIff.mp listed.1
  rcases blank with empty | ⟨ch, inside, here⟩
  · exact nonempty empty
  · exact Bool.false_ne_true ((ink ch inside).symm.trans here)

theorem answerFrozen {catalog : Catalog} {q : Request} (answered : catalog.answer q = .ok l) :
    ∃ dialect v, l = freeze dialect v := by
  unfold Catalog.answer at answered
  split at answered
  · rename_i e found
    obtain ⟨_, v, _, _, frozen, _⟩ := Catalog.meaningOk (Catalog.soughtMember found) answered
    exact ⟨e.name, v, frozen⟩
  · contradiction

theorem lookupListed {draft : Draft} {calls : List Call} {q : Request} {handle : Handle}
    (handed : ((draft.finish.value.after calls).ask q).value.2 = .ok handle) (text : String) :
    let l := handle.lexicon
    l.categoryOf text = l.underCanonical text ∧
    (∀ c, l.categoryOf text = some c ↔ l.Lists text c) ∧
    (∀ c, l.contains text c = true ↔ l.Lists text c) ∧
    (l.isKeyword text = true ↔ ∃ c, l.Lists text c) ∧
    (l.classify text = .reserved ↔ l.Lists text .reserved) ∧
    (l.classify text = .unreserved ↔ l.Lists text .unreserved) ∧
    (l.classify text = .identifier ↔ ¬ l.Lists text .reserved ∧ ¬ l.Lists text .unreserved) ∧
    ((l.inspect text).advisory = some .futureReserved ↔ l.Lists text .futureReserved) ∧
    ((l.inspect text).advisory = some .futureReserved → l.classify text = .identifier) ∧
    ((text = "" ∨ ∃ ch ∈ text.toList, Text.isBlank ch = true) →
      l.categoryOf text = none ∧ l.inspect text = ⟨.identifier, none⟩) := by
  intro l
  have answered := Resolver.finishedAnswer draft calls q
  rw [handed] at answered
  obtain ⟨dialect, v, frozen⟩ := answerFrozen answered.symm
  have listed (c : Category) : l.categoryOf text = some c ↔ l.Lists text c := by
    rw [show l = freeze dialect v from frozen]
    exact categoryListed
  refine ⟨categoryCanonical l text, listed, fun c => ?_, ?_, ?_, ?_, ?_, ?_, ?_, fun blank => ?_⟩
  · rw [← listed, contains, beq_iff_eq]
  · simp only [← listed, isKeyword, Option.isSome_iff_exists]
  · rw [← listed, classify, inspect, Classification.reservedIff]
  · rw [← listed, classify, inspect, Classification.unreservedIff]
  · rw [← listed, ← listed, classify, inspect, Classification.identifierIff]
  · rw [← listed, inspect, Classification.advisoryIff]
  · rw [classify, inspect, Classification.advisoryIff, Classification.identifierIff]
    rintro future
    simp [future]
  · have absent : l.categoryOf text = none := by
      rw [Option.eq_none_iff_forall_ne_some]
      exact fun c found => blankUnlisted blank ((listed c).mp found)
    exact ⟨absent, by rw [inspect, absent]; rfl⟩

def streets : Dialect := .root "streets" ⟨["straße"], ["top"], ["array"]⟩

theorem lookupListedStreets :
    let r := ((({} : Draft).register streets).value.1.finish.value.after [.all, .invalidate])
    ∃ handle, (r.ask (.name "streets")).value.2 = .ok handle ∧ handle.lexicon.Lists "Straſſe" .reserved ∧
      handle.lexicon.inspect "stra ße" = ⟨.identifier, none⟩ := by
  intro r
  have answered : (r.ask (.name "streets")).value.2.map (·.lexicon.categoryOf "Straſſe") = .ok (some .reserved) := by
    decide +kernel
  obtain ⟨handle, handed, found⟩ := okOfMap answered
  have listed := (lookupListed handed "Straſſe").2.1 .reserved
  have blank := (lookupListed handed "stra ße").2.2.2.2.2.2.2.2.2
  exact ⟨handle, handed, listed.mp found, (blank (.inr ⟨' ', by decide, by decide⟩)).2⟩

end Lexicon

end SqlLexicon
