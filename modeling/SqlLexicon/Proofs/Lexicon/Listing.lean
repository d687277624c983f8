import SqlLexicon.Proofs.Lexicon.Lookup
import Mathlib.Data.List.Nodup
import Mathlib.Data.List.Perm.Subperm

/-! The three listings of a lexicon against its vocabulary. Entries may be met in any order: one loop puts each word into
the list of its category, and sorting the lists afterwards gives the same listings every time. -/
namespace SqlLexicon

def Word.codes (w : Word) : List Nat := w.text.toList.map Char.toNat

theorem Word.codesAscend {a b : Word} (below : compare a b = .lt) : a.codes < b.codes := by
  have texts : a.text < b.text := compareOfLessAndEq_eq_lt.mp below
  exact List.map_lt (fun _ _ less => less) (show a.text.toList < b.text.toList from texts)

structure Enumerates (entries : List (Word × Category)) (v : Vocabulary) : Prop where
  once : (entries.map Prod.fst).Nodup
  entered : ∀ w c, (w, c) ∈ entries ↔ v[w]? = some c

def spread (entries : List (Word × Category)) : Tables Word :=
  entries.foldl (fun lists e => lists.append e.2 [e.1]) ∅

def ascending (words : List Word) : List Word := words.mergeSort fun a b => (compare a b).isLE

def Lexicon.gather (dialect : String) (v : Vocabulary) (entries : List (Word × Category)) : Lexicon :=
  ⟨dialect, v, (spread entries).map ascending⟩

structure Lexicon.Arranged (l : Lexicon) : Prop where
  ascend : ∀ c, (l.words c).Pairwise fun a b => a.codes < b.codes
  disjoint : ∀ c d, c ≠ d → (l.words c).Disjoint (l.words d)
  listed : ∀ w c, w ∈ l.words c ↔ l.vocabulary[w]? = some c
  counted : l.count .reserved + l.count .unreserved + l.count .futureReserved = l.size
  entered : Enumerates l.entries l.vocabulary
  grouped : l.entries.Pairwise fun a b => a.2 < b.2 ∨ a.2 = b.2 ∧ a.1.codes < b.1.codes
  found : ∀ e ∈ l.entries, l.categoryOf e.1.text = some e.2

section Enumeration

variable {v : Vocabulary} {entries others : List (Word × Category)} {w : Word} {c : Category}

theorem enumeratesNodup (each : Enumerates entries v) : entries.Nodup := each.once.of_map _

theorem enumeratesPerm (each : Enumerates entries v) (each' : Enumerates others v) : entries.Perm others := by
  rw [List.perm_ext_iff_of_nodup (enumeratesNodup each) (enumeratesNodup each')]
  intro e
  rw [each.entered, each'.entered]

theorem toListEnumerates (v : Vocabulary) : Enumerates v.toList v where
  once := by
    rw [Std.ExtTreeMap.map_fst_toList_eq_keys]
    exact Std.ExtTreeMap.nodup_keys
  entered w c := Std.ExtTreeMap.mem_toList_iff_getElem?_eq_some

theorem enumeratesReverse (each : Enumerates entries v) : Enumerates entries.reverse v where
  once := by simpa using each.once
  entered w c := by rw [List.mem_reverse, each.entered]

theorem ofEntriesEnumerated (once : (entries.map Prod.fst).Nodup) : Enumerates entries (.ofEntries entries) := by
  -- from any vocabulary on, an entry is found where it stands, or where it stood before
  have inserted (v : Vocabulary) (w : Word) (c : Category) :
      (entries.foldl (fun v e => v.insert e.1 e.2) v)[w]? = some c ↔
        (w, c) ∈ entries ∨ w ∉ entries.map Prod.fst ∧ v[w]? = some c := by
    induction entries generalizing v with
    | nil => simp
    | cons e rest ih =>
      obtain ⟨new, once⟩ := List.nodup_cons.mp once
      rw [List.foldl_cons, ih once, Std.ExtTreeMap.getElem?_insert]
      by_cases here : e.1 = w
      · subst here
        have below : (e.1, c) ∉ rest := fun inside => new (List.mem_map.mpr ⟨_, inside, rfl⟩)
        simp [new, below, Prod.ext_iff, eq_comm]
      · simp [here, Ne.symm here, Prod.ext_iff]
  refine ⟨once, fun w c => ?_⟩
  rw [Vocabulary.ofEntries, inserted]
  simp

theorem spreadGet (entries : List (Word × Category)) (c : Category) :
    (spread entries).get c = (entries.filter (·.2 == c)).map Prod.fst := by
  have behind (lists : Tables Word) : (entries.foldl (fun lists e => lists.append e.2 [e.1]) lists).get c =
      lists.get c ++ (entries.filter (·.2 == c)).map Prod.fst := by
    induction entries generalizing lists with
    | nil => simp
    | cons e rest ih =>
      rw [List.foldl_cons, ih]
      by_cases here : e.2 = c
      · simp [Tables.append, ByCategory.update, here]
      · simp [Tables.append, ByCategory.update, here, Ne.symm here]
  exact (behind ∅).trans (by cases c <;> rfl)

theorem wordsAscend (v : Vocabulary) (c : Category) : (v.wordsOf c).Pairwise fun a b => compare a b = .lt :=
  (Std.ExtTreeMap.ordered_keys_toList.filter _).map _ fun _ _ less => less

theorem ascendingSame {words sorted : List Word} (same : words.Perm sorted)
    (strict : sorted.Pairwise fun a b => compare a b = .lt) : ascending words = sorted := by
  have antisymm (a b : Word) (ab : (compare a b).isLE = true) (ba : (compare b a).isLE = true) : a = b := by
    have equal : compare a b = .eq := Std.OrientedCmp.isLE_antisymm ab ba
    exact Std.LawfulEqCmp.eq_of_compare equal
  have total (a b : Word) : ((compare a b).isLE || (compare b a).isLE) = true := by
    rw [Std.OrientedOrd.eq_swap (a := a)]
    cases compare b a <;> rfl
  have sorts := List.pairwise_mergeSort (fun _ _ _ => Std.TransCmp.isLE_trans) total words
  have weak := strict.imp fun less => Ordering.isLE_of_eq_lt less
  exact List.Perm.eq_of_pairwise (fun a b _ _ => antisymm a b) sorts weak ((List.mergeSort_perm _ _).trans same)

theorem spreadSorted (each : Enumerates entries v) (c : Category) :
    ascending ((spread entries).get c) = v.wordsOf c := by
  refine ascendingSame ?_ (wordsAscend v c)
  rw [spreadGet]
  exact ((enumeratesPerm each (toListEnumerates v)).filter _).map _

theorem gatherFrozen (dialect : String) (each : Enumerates entries v) :
    Lexicon.gather dialect v entries = Lexicon.freeze dialect v := by
  simp only [Lexicon.gather, Lexicon.freeze, ByCategory.map, Function.comp_def, spreadSorted each]

end Enumeration

namespace Lexicon

variable {dialect : String} {v : Vocabulary} {w : Word} {c : Category}

theorem memEntries {l : Lexicon} : (w, c) ∈ l.entries ↔ w ∈ l.words c := by
  cases c <;> simp [entries, Category.all]

theorem wordsCodes (dialect : String) (v : Vocabulary) (c : Category) :
    ((freeze dialect v).words c).Pairwise fun a b => a.codes < b.codes := by
  have same : (freeze dialect v).words c = v.wordsOf c := by simp [words, freeze]
  rw [same]
  exact (wordsAscend v c).imp Word.codesAscend

theorem wordsDisjoint {d : Category} (apart : c ≠ d) :
    ((freeze dialect v).words c).Disjoint ((freeze dialect v).words d) := by
  intro w inside inside'
  rw [freezeWords] at inside inside'
  exact apart (Option.some.inj (inside.symm.trans inside'))

theorem entriesGrouped (dialect : String) (v : Vocabulary) :
    (freeze dialect v).entries.Pairwise fun a b => a.2 < b.2 ∨ a.2 = b.2 ∧ a.1.codes < b.1.codes := by
  rw [entries, List.pairwise_flatMap]
  constructor
  · intro c _
    exact (wordsCodes dialect v c).map _ fun a b less => .inr ⟨rfl, less⟩
  · have groups : Category.all.Pairwise (· < ·) := by decide
    refine groups.imp fun {c d} before x here y there => .inl ?_
    obtain ⟨_, _, rfl⟩ := List.mem_map.mp here
    obtain ⟨_, _, rfl⟩ := List.mem_map.mp there
    exact before

theorem entriesEnumerate (dialect : String) (v : Vocabulary) : Enumerates (freeze dialect v).entries v where
  once := by
    have distinct : (freeze dialect v).entries.Nodup := by
      refine (entriesGrouped dialect v).imp fun {a b} before same => ?_
      subst same
      rcases before with group | ⟨_, less⟩
      · exact Nat.lt_irrefl _ group
      · exact List.lt_irrefl _ less
    refine distinct.map_on fun x here y there same => Prod.ext same ?_
    have left := freezeWords.mp (memEntries.mp here)
    have right := freezeWords.mp (memEntries.mp there)
    rw [same, right] at left
    exact (Option.some.inj left).symm
  entered w c := memEntries.trans freezeWords

theorem entriesCounted (dialect : String) (v : Vocabulary) :
    let l := freeze dialect v
    l.count .reserved + l.count .unreserved + l.count .futureReserved = l.size := by
  intro l
  have size := (enumeratesPerm (entriesEnumerate dialect v) (toListEnumerates v)).length_eq
  rw [Std.ExtTreeMap.length_toList] at size
  refine Eq.trans ?_ size
  simp [l, entries, Category.all, count, Nat.add_assoc]

theorem storedIff {l : Lexicon} : l.categoryOf w.text = some c ↔ l.vocabulary[w]? = some c := by
  rw [categoryStored, w.normalFormText]
  refine ⟨fun stored => ?_, fun kept => ⟨w, rfl, kept⟩⟩
  obtain ⟨other, same, kept⟩ := stored
  exact Word.textInj.mp same ▸ kept

theorem freezeArranged (dialect : String) (v : Vocabulary) : (freeze dialect v).Arranged where
  ascend := wordsCodes dialect v
  disjoint _ _ := wordsDisjoint
  listed _ _ := freezeWords
  counted := entriesCounted dialect v
  entered := entriesEnumerate dialect v
  grouped := entriesGrouped dialect v
  found _ inside := storedIff.mpr (freezeWords.mp (memEntries.mp inside))

theorem handedFrozen {draft : Draft} {calls : List Call} {q : Request} {handle : Handle}
    (handed : ((draft.finish.value.after calls).ask q).value.2 = .ok handle) :
    handle.lexicon = freeze handle.lexicon.dialect handle.lexicon.vocabulary := by
  have answered := Resolver.finishedAnswer draft calls q
  rw [handed] at answered
  obtain ⟨dialect, v, frozen⟩ := answerFrozen answered.symm
  rw [show handle.lexicon = freeze dialect v from frozen]
  rfl

theorem listingsArranged :
    (∀ dialect v entries, Enumerates entries v →
      gather dialect v entries = freeze dialect v ∧ (gather dialect v entries).Arranged) ∧
    ∀ (draft : Draft) (calls : List Call) (q : Request) (handle : Handle),
      ((draft.finish.value.after calls).ask q).value.2 = .ok handle → handle.lexicon.Arranged ∧
      ∀ entries, Enumerates entries handle.lexicon.vocabulary →
        gather handle.lexicon.dialect handle.lexicon.vocabulary entries = handle.lexicon := by
  refine ⟨fun dialect v entries each => ?_, fun draft calls q handle handed => ?_⟩
  · have frozen := gatherFrozen dialect each
    exact ⟨frozen, frozen ▸ freezeArranged dialect v⟩
  · have frozen := handedFrozen handed
    refine ⟨frozen ▸ freezeArranged _ _, fun entries each => ?_⟩
    rw [gatherFrozen _ each, ← frozen]

def shelf : List (Word × Category) :=
  [("top", .unreserved), ("select", .reserved), ("array", .futureReserved), ("from", .reserved)].filterMap
    fun e => (Word.ofText? e.1).map (·, e.2)

theorem listingsArrangedShelf :
    let v := Vocabulary.ofEntries shelf
    gather "shelf" v shelf = freeze "shelf" v ∧ gather "shelf" v shelf.reverse = freeze "shelf" v ∧
    ∃ handle, ((({} : Draft).register streets).value.1.finish.value.ask (.place 0)).value.2 = .ok handle ∧
      handle.lexicon.Arranged := by
  intro v
  obtain ⟨frozen, handed⟩ := listingsArranged
  have each : Enumerates shelf v := ofEntriesEnumerated (by decide +kernel)
  have answered : ((({} : Draft).register streets).value.1.finish.value.ask (.place 0)).value.2.map Handle.serial =
      .ok 0 := by
    decide +kernel
  obtain ⟨handle, here, _⟩ := okOfMap answered
  exact ⟨(frozen "shelf" v shelf each).1, (frozen "shelf" v _ (enumeratesReverse each)).1, handle, here,
    (handed _ [] (.place 0) handle here).1⟩

end Lexicon

end SqlLexicon
