import SqlLexicon.Proofs.Folding.Applied
import SqlLexicon.Proofs.Lexicon.Lookup
import SqlLexicon.Proofs.TransactSql.Registering
import SqlLexicon.Proofs.Written.Joined

/-! What the built-in dialects say of any text, read off the raw keyword tables. The tables overlap and repeat, yet every
text in uppercase has one category, and the two dialects differ on the words that the derived one reserves alone. -/
namespace SqlLexicon

namespace Tables

variable {tables : Tables String}

theorem listingRead (tables : Tables String) (w : Word) :
    listing? (tables.map (·.filterMap Word.ofText?)) w = listing? (tables.map (·.map normalForm)) w.text := by
  refine listingAlike fun c => ?_
  rw [ByCategory.getMap, ByCategory.getMap, Word.memRead]

theorem listingSettled (canonical : ∀ c, ∀ text ∈ tables.get c, Canonical text) (w : Word) :
    listing? (tables.map (·.filterMap Word.ofText?)) w = tables.listing? w.text := by
  rw [listingRead]
  refine listingAlike fun c => ?_
  rw [ByCategory.getMap, List.map_congr_left fun text inside => canonicalSettled (canonical c text inside), List.map_id']

end Tables

theorem Entry.onlyAdds {e : Entry} {p : Patch Word} (only : e.patches = [p]) (unremoved : p.remove = [])
    (unmoved : p.redesignate = []) (v : Vocabulary) :
    ∃ u, v.follow e.placed = .ok u ∧ ∀ w : Word, u[w]? = (p.additions.listing? w).or v[w]? := by
  have movable : ∀ m ∈ p.redesignate, p.Movable v m := by simp [unmoved]
  obtain ⟨r, folded⟩ : ∃ r, (p.fold {} e.name v).value = .ok r := Patch.foldSucceeds.mpr movable
  have still (w : Word) : p.moved? w = none := by simp [Patch.movedNone, unmoved]
  have followed := Vocabulary.followPatch {} e.name p v
  rw [folded] at followed
  refine ⟨r.1, ?_, fun w => ?_⟩
  · rw [placed, only, List.flatMap_singleton]
    exact followed.symm
  · rw [Patch.appliedLookup (Patch.foldApplied.mp folded), still, Option.or_none, unremoved, if_neg List.not_mem_nil]

theorem Lexicon.categoryFrozen {v : Vocabulary} {given : String → Option Category}
    (stands : ∀ w : Word, v[w]? = given w.text) (words : ∀ text c, given text = some c → Canonical text)
    (name text : String) : (freeze name v).categoryOf text = given (normalForm text) := by
  refine Option.ext fun c => ?_
  rw [categoryStored]
  constructor
  · intro stored
    obtain ⟨w, same, found⟩ := stored
    rw [← same, ← stands]
    exact found
  · intro said
    obtain ⟨w, same⟩ := words _ c said
    exact ⟨w, same, (stands w).trans (same ▸ said)⟩

theorem Catalog.answerOwn {c : Catalog} {e : Entry} (member : e ∈ c.entries) : c.answer (.name e.name) = c.meaning e := by
  rw [answer, sought, findOfMember member]

namespace TransactSql

def rawCategory? (text : String) : Option Category :=
  if text ∈ unreservedWords then some .unreserved
  else if text ∈ reservedWords ∨ text ∈ documentedWords then some .reserved
  else if text ∈ futureReservedWords then some .futureReserved
  else none

theorem tablesListing (text : String) : tables.listing? text = rawCategory? text := by
  by_cases first : text ∈ unreservedWords <;> by_cases second : text ∈ reservedWords ∨ text ∈ documentedWords <;>
    by_cases third : text ∈ futureReservedWords <;>
    simp [Tables.listing?, Tables.foldOrder, ByCategory.get, tables, rawCategory?, first, second, third]

theorem rawCanonical {text : String} {c : Category} (listed : rawCategory? text = some c) : Canonical text :=
  tablesCanonical c text (Tables.listingListed ((tablesListing text).trans listed))

theorem synapseListing (text : String) :
    synapsePatch.additions.listing? text = if text ∈ synapseReservedWords then some .reserved else none := by
  by_cases inside : text ∈ synapseReservedWords <;>
    simp [Tables.listing?, Tables.foldOrder, ByCategory.get, synapsePatch, Patch.adding, Tables.append, ByCategory.update,
      ByCategory.tabulate, EmptyCollection.emptyCollection, inside]

def synapseCategory? (text : String) : Option Category :=
  if text ∈ synapseReservedWords then some .reserved else rawCategory? text

theorem synapseCanonicalCategory {text : String} {c : Category} (listed : synapseCategory? text = some c) :
    Canonical text := by
  unfold synapseCategory? at listed
  split at listed
  · exact synapseCanonical text ‹_›
  · exact rawCanonical listed

theorem familyRegistered (options : Options) : ∃ draft : Draft, (register { options }).value = (draft, .ok ()) ∧
    ∃ base derived, draft.catalog.entries = [base, derived] ∧ Accepts transactSql base ∧ Accepts synapse derived := by
  obtain ⟨draft, appended, registered⟩ := familyTurn { options }
  obtain ⟨_, es, entered, whole⟩ := appended
  rcases entered with _ | ⟨accepted, _ | ⟨accepted', _ | _⟩⟩
  exact ⟨draft, registered, _, _, whole, accepted, accepted'⟩

theorem resolverFinished {options : Options} {draft : Draft}
    (registered : (register { options }).value = (draft, .ok ())) :
    (resolver options).value = .ok draft.finish.value := by
  -- under a name of its own the turn is not evaluated, with all the tables in it
  obtain ⟨turn, same⟩ : ∃ turn, turn = register { options } := ⟨_, rfl⟩
  rw [← same] at registered
  rw [resolver, ← same]
  simp [registered]

theorem familyFolds {base derived : Entry} (accepted : Accepts transactSql base) (accepted' : Accepts synapse derived) :
    ∃ v u, Vocabulary.follow ∅ base.placed = .ok v ∧ v.follow derived.placed = .ok u ∧
      (∀ w : Word, v[w]? = rawCategory? w.text) ∧ ∀ w : Word, u[w]? = synapseCategory? w.text := by
  have only : base.patches = [(Patch.ofTables tables).toWords] := Dialect.acceptWords accepted
  have only' : derived.patches = [synapsePatch.toWords] := Dialect.acceptWords accepted'
  obtain ⟨v, folded, stands⟩ := Entry.onlyAdds only rfl rfl ∅
  obtain ⟨u, folded', stands'⟩ := Entry.onlyAdds only' rfl rfl v
  have own (w : Word) : (Patch.ofTables tables).toWords.additions.listing? w = rawCategory? w.text :=
    (Tables.listingSettled tablesCanonical w).trans (tablesListing w.text)
  have below (c : Category) (text : String) (inside : text ∈ synapsePatch.listed (.add c)) : Canonical text :=
    synapseCanonical text (synapseListed inside).2
  have more (w : Word) : synapsePatch.toWords.additions.listing? w =
      if w.text ∈ synapseReservedWords then some .reserved else none :=
    (Tables.listingSettled below w).trans (synapseListing w.text)
  have raw (w : Word) : v[w]? = rawCategory? w.text := by
    rw [stands, own]
    simp
  refine ⟨v, u, folded, folded', raw, fun w => ?_⟩
  rw [stands', more, raw, synapseCategory?]
  split <;> rfl

theorem familyAnswers {c : Catalog} {base derived : Entry} (entries : c.entries = [base, derived])
    (accepted : Accepts transactSql base) (accepted' : Accepts synapse derived) :
    ∃ v u, c.answer (.name "tsql") = .ok (.freeze "tsql" v) ∧ c.answer (.name "synapse") = .ok (.freeze "synapse" u) ∧
      (∀ w : Word, v[w]? = rawCategory? w.text) ∧ ∀ w : Word, u[w]? = synapseCategory? w.text := by
  obtain ⟨v, u, folded, folded', raw, said⟩ := familyFolds accepted accepted'
  have member : base ∈ c.entries := by simp [entries]
  have member' : derived ∈ c.entries := by simp [entries]
  have named : base.name = "tsql" := Dialect.acceptName accepted
  have named' : derived.name = "synapse" := Dialect.acceptName accepted'
  have line : c.Lineage base [] := .root (acceptedParent accepted)
  have link : c.Parent derived base := ⟨"tsql", acceptedParent accepted', named ▸ Catalog.findOfMember member⟩
  have inherited : Vocabulary.followRow ∅ ([] ++ [base]) = .ok v := (Vocabulary.followRowSnoc rfl).trans folded
  have meant := Catalog.meaningLast member line rfl
  have meant' := Catalog.meaningLast member' (.child link line) inherited
  rw [folded, named] at meant
  rw [folded', named'] at meant'
  refine ⟨v, u, ?_, ?_, raw, said⟩
  · rw [← named, Catalog.answerOwn member, meant, named]
    rfl
  · rw [← named', Catalog.answerOwn member', meant', named']
    rfl

theorem familyLookups (options : Options) : ∃ r, (resolver options).value = .ok r ∧ ∀ calls, ∃ base derived,
    ((r.after calls).resolve "tsql").value.2 = .ok base ∧ ((r.after calls).resolve "synapse").value.2 = .ok derived ∧
    ∀ text, base.lexicon.categoryOf text = rawCategory? (Text.uppercase text) ∧
      derived.lexicon.categoryOf text =
        if Text.uppercase text ∈ synapseReservedWords then some .reserved else base.lexicon.categoryOf text := by
  obtain ⟨draft, registered, base, derived, entries, accepted, accepted'⟩ := familyRegistered options
  obtain ⟨v, u, answer, answer', raw, said⟩ := familyAnswers entries accepted accepted'
  refine ⟨draft.finish.value, resolverFinished registered, fun calls => ?_⟩
  obtain ⟨h, handed, lexicon⟩ := okOfMap ((Resolver.finishedAnswer draft calls (.name "tsql")).trans answer)
  obtain ⟨h', handed', lexicon'⟩ := okOfMap ((Resolver.finishedAnswer draft calls (.name "synapse")).trans answer')
  refine ⟨h, h', handed, handed', fun text => ?_⟩
  have category := Lexicon.categoryFrozen raw (fun _ _ => rawCanonical) "tsql" text
  have category' := Lexicon.categoryFrozen said (fun _ _ => synapseCanonicalCategory) "synapse" text
  rw [normalFormUppercase] at category category'
  rw [lexicon, lexicon', category, category']
  exact ⟨rfl, rfl⟩

end TransactSql

end SqlLexicon
