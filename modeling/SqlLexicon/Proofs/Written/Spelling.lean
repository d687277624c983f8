import SqlLexicon.Word

/-! Reading a text as a word. A text of the shape of a word spells exactly one, whose text is the canonical form; no other
text has a canonical form that is the text of a word. Canonical forms are made character by character, also where a text is
handed back as it is. -/
namespace SqlLexicon

theorem Text.uppercaseAppend (s t : String) : uppercase (s ++ t) = uppercase s ++ uppercase t := by
  simp only [uppercase, String.toList_append, List.flatMap_append, String.ofList_append]

theorem normalFormAppend (s t : String) : normalForm (s ++ t) = normalForm s ++ normalForm t := by
  rw [normalFormUppercase, normalFormUppercase, normalFormUppercase, Text.uppercaseAppend]

theorem normalFormAgain (t : String) : normalForm (normalForm t) = normalForm t := by
  rw [normalFormUppercase (normalForm t), Text.uppercaseSelf (normalFormUpper t)]

/- A text is handed back only where that makes no difference. It makes one wherever some character is not all of its own
uppercase form, since no uppercase form of any character has such a character in it. -/
theorem normalizeFaithful :
    (∀ t, (normalize t).text = Text.uppercase t) ∧ (∀ t, (normalize (normalize t).text).text = (normalize t).text) ∧
    (∀ s t, (normalize (s ++ t)).text = (normalize s).text ++ (normalize t).text) ∧
    ∀ t, (normalize t).isBorrowed = true ↔ (normalize t).text = t := by
  refine ⟨normalFormUppercase, normalFormAgain, normalFormAppend, fun t => ?_⟩
  change _ ↔ normalForm t = t
  rw [normalizeBorrows, normalFormUppercase, Text.uppercaseEqSelfIff]

example : normalize "straße" = .owned "STRASSE" ∧ normalize "STRASSE" = .borrowed "STRASSE" := by decide +kernel

variable {text : String} {w : Word}

theorem shapedIff : isWordShaped text = true ↔ text ≠ "" ∧ ∀ ch ∈ text.toList, Text.isBlank ch = false := by
  simp [isWordShaped]

theorem shapedOfWord (same : w.text = normalForm text) : isWordShaped text = true := by
  rw [← shapedNormalForm, ← same]
  exact w.shaped

namespace Word

theorem ofCanonicalIff : ofCanonical? text = some w ↔ w.text = text := by
  constructor
  · intro read
    unfold ofCanonical? at read
    split at read
    · exact Option.some.inj read ▸ rfl
    · contradiction
  · rintro rfl
    simp [ofCanonical?, w.shaped, w.upper]

theorem ofTextIff : ofText? text = some w ↔ w.text = normalForm text := by
  rw [← ofCanonicalIff]
  simp [ofText?, ofCanonical?, shapedNormalForm, normalFormUpper]

theorem memRead {spellings : List String} : w ∈ spellings.filterMap ofText? ↔ w.text ∈ spellings.map normalForm := by
  simp only [List.mem_filterMap, List.mem_map, ofTextIff, eq_comm (a := w.text)]

theorem ofTextSome : (∃ w, ofText? text = some w) ↔ isWordShaped text = true := by
  constructor
  · intro read
    obtain ⟨w, read⟩ := read
    exact shapedOfWord (ofTextIff.mp read)
  · intro shaped
    exact ⟨_, dif_pos shaped⟩

theorem normalizeText (w : Word) : normalize w.text = .borrowed w.text := if_pos w.upper

theorem normalFormText (w : Word) : normalForm w.text = w.text := congrArg Normalized.text (normalizeText w)

theorem ofTextAgain (w : Word) : ofText? w.text = some w := ofTextIff.mpr (normalFormText w).symm

theorem ofTextAlike {other : String} {w' : Word} (read : ofText? text = some w) (read' : ofText? other = some w') :
    w = w' ↔ Text.uppercase text = Text.uppercase other := by
  rw [ofTextIff, normalFormUppercase] at read read'
  constructor
  · rintro rfl
    exact read.symm.trans read'
  · intro same
    have here : ofText? w'.text = some w := ofTextIff.mpr (by rw [normalFormText, read, same, read'])
    exact Option.some.inj (here.symm.trans (ofTextAgain w'))

theorem ofTextCanonical :
    (∀ text, (∃ w, ofText? text = some w) ↔ text ≠ "" ∧ ∀ ch ∈ text.toList, Text.isBlank ch = false) ∧
    (∀ text w, ofText? text = some w → w.text = Text.uppercase text ∧
      w.text ≠ "" ∧ (∀ ch ∈ w.text.toList, Text.isBlank ch = false) ∧
      normalize w.text = .borrowed w.text ∧ ofText? w.text = some w) ∧
    ∀ text other w w', ofText? text = some w → ofText? other = some w' →
      (w = w' ↔ Text.uppercase text = Text.uppercase other) := by
  refine ⟨fun text => ofTextSome.trans shapedIff, fun text w read => ?_, fun _ _ _ _ => ofTextAlike⟩
  have kept : w.text = Text.uppercase text := (ofTextIff.mp read).trans (normalFormUppercase text)
  obtain ⟨filled, inked⟩ := shapedIff.mp w.shaped
  exact ⟨kept, filled, inked, normalizeText w, ofTextAgain w⟩

theorem ofTextCanonicalStreet :
    (¬ ∃ w, ofText? "haupt straße" = some w) ∧
    ∃ w, ofText? "ﬁnalstraße" = some w ∧ ofText? "FinalStrasse" = some w ∧ w.text = "FINALSTRASSE" ∧
      ofText? "FINALSTRASSE" = some w := by
  obtain ⟨reads, kept, alike⟩ := ofTextCanonical
  obtain ⟨w, read⟩ := (reads "ﬁnalstraße").mpr (shapedIff.mp (by decide +kernel))
  obtain ⟨w', read'⟩ := (reads "FinalStrasse").mpr (shapedIff.mp (by decide +kernel))
  obtain ⟨upper, _, _, _, again⟩ := kept _ w read
  have text : w.text = "FINALSTRASSE" := upper.trans (by decide +kernel)
  obtain rfl : w = w' := (alike _ _ w w' read read').mpr (by decide +kernel)
  have broken : isWordShaped "haupt straße" = false := by decide +kernel
  refine ⟨fun read => ?_, w, read, read', text, text ▸ again⟩
  exact Bool.false_ne_true (broken.symm.trans (shapedIff.mpr ((reads _).mp read)))

end Word

end SqlLexicon
