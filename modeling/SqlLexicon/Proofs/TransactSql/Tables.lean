import SqlLexicon.Proofs.Registration.Checks
import SqlLexicon.TransactSql.Family

/-! The keyword tables as words. No entry has a blank or a small letter in it, so each is the text of a word as it stands,
and both built-in dialects are well formed. -/
namespace SqlLexicon

namespace Text

def isPlain (code : Nat) : Bool := 32 < code && code < 97

theorem plainCodes :
    ((List.range 97).all fun n => !isPlain n || isUpper (Char.ofNat n) && !isBlank (Char.ofNat n)) = true := by
  decide +kernel

theorem plainUpper {c : Char} (plain : isPlain c.toNat = true) : isUpper c = true ∧ isBlank c = false := by
  have low : c.toNat < 97 := by
    simp only [isPlain, Bool.and_eq_true, decide_eq_true_eq] at plain
    exact plain.2
  have checked := List.all_eq_true.mp plainCodes c.toNat (List.mem_range.mpr low)
  simpa [Char.ofNat_toNat, plain] using checked

/- Beyond ASCII a character begins with a byte that no plain character has, so it is enough to check bytes. -/
theorem plainEncoded {c : Char} (plain : ∀ b ∈ String.utf8EncodeChar c, isPlain b.toNat = true) :
    isPlain c.toNat = true := by
  rw [← Char.toNat_val]
  simp only [String.utf8EncodeChar] at plain
  split_ifs at plain
  all_goals
    have lead := plain _ List.mem_cons_self
    simp only [isPlain, UInt8.toNat_ofNat', Bool.and_eq_true, decide_eq_true_eq] at lead ⊢
    omega

theorem plainChars {text : String} (plain : (text.toByteArray.data.toList.all fun b => isPlain b.toNat) = true) :
    ∀ c ∈ text.toList, isPlain c.toNat = true := by
  have bytes : text.toByteArray.data.toList = text.toList.flatMap String.utf8EncodeChar := by
    conv_lhs => rw [← String.ofList_toList (s := text), String.toByteArray_ofList]
    simp [List.utf8Encode]
  intro c inside
  refine plainEncoded fun b byte => List.all_eq_true.mp plain b ?_
  rw [bytes]
  exact List.mem_flatMap.mpr ⟨c, inside, byte⟩

theorem plainSettled {text : String} (plain : (text.toByteArray.data.toList.all fun b => isPlain b.toNat) = true) :
    isUppercase text = true ∧ ∀ c ∈ text.toList, isBlank c = false := by
  have settled (c : Char) (inside : c ∈ text.toList) := plainUpper (plainChars plain c inside)
  exact ⟨List.all_eq_true.mpr fun c inside => (settled c inside).1, fun c inside => (settled c inside).2⟩

end Text

def Canonical (text : String) : Prop := ∃ w : Word, w.text = text

theorem canonicalShaped {text : String} (canonical : Canonical text) : isWordShaped text = true := by
  obtain ⟨w, rfl⟩ := canonical
  exact w.shaped

theorem canonicalSettled {text : String} (canonical : Canonical text) : normalForm text = text := by
  obtain ⟨w, rfl⟩ := canonical
  exact w.normalFormText

namespace TransactSql

def keywords : List String :=
  reservedWords ++ documentedWords ++ futureReservedWords ++ unreservedWords ++ synapseReservedWords

theorem keywordsFilled : "" ∉ keywords := by decide +kernel

theorem keywordsPlain :
    (keywords.all fun text => text.toByteArray.data.toList.all fun b => Text.isPlain b.toNat) = true := by
  decide +kernel

theorem keywordsCanonical : ∀ text ∈ keywords, Canonical text := by
  intro text inside
  obtain ⟨upper, inked⟩ := Text.plainSettled (List.all_eq_true.mp keywordsPlain text inside)
  have filled : text ≠ "" := fun empty => keywordsFilled (empty ▸ inside)
  exact ⟨⟨text, shapedIff.mpr ⟨filled, inked⟩, upper⟩, rfl⟩

theorem tablesCanonical (c : Category) : ∀ text ∈ tables.get c, Canonical text := by
  refine fun text inside => keywordsCanonical text ?_
  cases c <;> simp only [tables, ByCategory.get, keywords, List.mem_append] at inside ⊢ <;> tauto

theorem synapseCanonical : ∀ text ∈ synapseReservedWords, Canonical text :=
  fun text inside => keywordsCanonical text (List.mem_append_right _ inside)

theorem transactSqlWell : transactSql.WellFormed where
  spelled text stands := by
    rcases stands with ⟨_, c, origin, inside⟩ | ⟨p, none, _⟩
    · cases origin
      exact shapedIff.mp (canonicalShaped (tablesCanonical c text inside))
    · cases none
  clear p none := by cases none

def synapsePatch : Patch String := Patch.adding { name := "synapse-reserved" } .reserved synapseReservedWords

theorem synapseListed {step : Step} {text : String} (inside : text ∈ synapsePatch.listed step) :
    step = .add .reserved ∧ text ∈ synapseReservedWords := by
  rcases step with _ | _ | c
  · cases inside
  · cases inside
  · cases c
    case reserved => exact ⟨rfl, inside⟩
    all_goals cases inside

theorem synapseWell : synapse.WellFormed where
  spelled text stands := by
    rcases stands with ⟨_, _, origin, _⟩ | ⟨p, inside, step, listed⟩
    · cases origin
    · obtain rfl : p = synapsePatch := List.mem_singleton.mp inside
      exact shapedIff.mp (canonicalShaped (synapseCanonical text (synapseListed listed).2))
  clear p inside first second word shares := by
    obtain rfl : p = synapsePatch := List.mem_singleton.mp inside
    obtain ⟨exclusive, ⟨_, left, _⟩, _, right, _⟩ := shares
    exact exclusive.1 ((synapseListed left).1.trans (synapseListed right).1.symm)

end TransactSql

end SqlLexicon
