import SqlLexicon.Proofs.Resolver.Turn

/-! A ledger of foldings beside the cache. Every folding that succeeds is told by one line, gets the next serial and fills
one empty cell, so the lines about a dialect are counted by its cell. Nothing here asks what a dialect means. -/
namespace SqlLexicon

def Event.folded? : Event → Option String
  | .resolved dialect .. => some dialect
  | _ => none

def foldings (name : String) (events : List Event) : Nat := events.countP (·.folded? == some name)

def allFoldings (events : List Event) : Nat := events.countP (·.folded?.isSome)

theorem patchesUntold (options : Options) (dialect : String) (ps : List (Patch Word)) (v : Vocabulary) :
    ∀ event ∈ (foldPatches options dialect ps v).events, event.folded? = none := by
  intro event inside
  have only := patchesOnly options dialect ps v event inside
  cases event with
  | resolved => cases only
  | _ => rfl

section Counting

variable {events : List Event} {name dialect : String}

theorem foldingsAppend (name : String) (first rest : List Event) :
    foldings name (first ++ rest) = foldings name first + foldings name rest := List.countP_append

theorem allFoldingsAppend (first rest : List Event) :
    allFoldings (first ++ rest) = allFoldings first + allFoldings rest := List.countP_append

theorem foldingsUntold (untold : ∀ event ∈ events, event.folded? = none) (name : String) : foldings name events = 0 := by
  rw [foldings, List.countP_eq_zero]
  intro event inside
  simp [untold event inside]

theorem allFoldingsUntold (untold : ∀ event ∈ events, event.folded? = none) : allFoldings events = 0 := by
  rw [allFoldings, List.countP_eq_zero]
  intro event inside
  simp [untold event inside]

theorem foldingsTold : 0 < foldings name events ↔
    ∃ patches totals counts, .resolved name patches totals counts ∈ events := by
  rw [foldings, List.countP_pos_iff]
  constructor
  · intro told
    obtain ⟨event, inside, here⟩ := told
    cases event with
    | resolved dialect patches totals counts =>
      cases (show dialect = name by simpa [Event.folded?] using here)
      exact ⟨patches, totals, counts, inside⟩
    | _ => simp [Event.folded?] at here
  · intro told
    obtain ⟨patches, totals, counts, inside⟩ := told
    exact ⟨_, inside, by simp [Event.folded?]⟩

end Counting

namespace Resolver

structure Issues (r next : Resolver) : Prop where
  made : r.made ≤ next.made
  numbered : ∀ (name : String) (handle : Handle), next.cache[name]? = some handle →
    r.cache[name]? = some handle ∨ r.made ≤ handle.serial ∧ handle.serial < next.made

/- What happens between two invalidations. A dialect is told to be folded once if it is newly at hand, and otherwise
never; each such line stands for one serial. -/
structure Ledger (r : Resolver) (events : List Event) (next : Resolver) : Prop extends r.Issues next where
  options : next.options = r.options
  catalog : next.catalog = r.catalog
  keeps : ∀ (name : String) (handle : Handle), r.cache[name]? = some handle → next.cache[name]? = some handle
  folded : ∀ name, foldings name events + (r.isResolved name).toNat = (next.isResolved name).toNat
  counted : next.made = r.made + allFoldings events

variable {r next last : Resolver} {q : Request} {e : Entry} {events more : List Event}

theorem issuesSame (r : Resolver) : r.Issues r where
  made := Nat.le_refl _
  numbered _ _ := .inl

theorem issuesTrans (left : r.Issues next) (right : next.Issues last) : r.Issues last where
  made := Nat.le_trans left.made right.made
  numbered name handle cached := by
    rcases right.numbered name handle cached with old | new
    · rcases left.numbered name handle old with older | given
      · exact .inl older
      · exact .inr ⟨given.1, Nat.lt_of_lt_of_le given.2 right.made⟩
    · exact .inr ⟨Nat.le_trans left.made new.1, new.2⟩

theorem ledgerSame (untold : ∀ event ∈ events, event.folded? = none) : r.Ledger events r where
  toIssues := issuesSame r
  options := rfl
  catalog := rfl
  keeps _ _ cached := cached
  folded name := by rw [foldingsUntold untold, Nat.zero_add]
  counted := by rw [allFoldingsUntold untold, Nat.add_zero]

theorem ledgerTrans (left : r.Ledger events next) (right : next.Ledger more last) : r.Ledger (events ++ more) last where
  toIssues := issuesTrans left.toIssues right.toIssues
  options := right.options.trans left.options
  catalog := right.catalog.trans left.catalog
  keeps name handle cached := right.keeps name handle (left.keeps name handle cached)
  folded name := by
    rw [foldingsAppend, ← right.folded, ← left.folded]
    omega
  counted := by rw [right.counted, left.counted, allFoldingsAppend, Nat.add_assoc]

theorem ledgerKeep {l : Lexicon} {dialect : String} {patches : Nat} {totals : Totals} {counts : ByCategory Nat}
    (named : l.dialect = dialect) (absent : r.cache[dialect]? = none)
    (untold : ∀ event ∈ events, event.folded? = none) :
    r.Ledger (events ++ [.resolved dialect patches totals counts]) (r.keep l).1 := by
  subst named
  have grown := growsKeep absent
  have new : r.isResolved l.dialect = false := missIff.mpr absent
  refine ⟨⟨Nat.le_succ _, fun name handle cached => ?_⟩, rfl, rfl, grown.keeps, fun name => ?_, ?_⟩
  · by_cases same : l.dialect = name
    · have here : handle = ⟨r.made, l⟩ := by simpa [keep, ← same, eq_comm] using cached
      exact .inr ⟨by rw [here], by simp [here, keep]⟩
    · exact .inl (by simpa [keep, Std.ExtTreeMap.getElem?_insert, same] using cached)
  · have held : (r.keep l).1.isResolved name = (r.isResolved name || name == l.dialect) := by
      rw [Bool.eq_iff_iff, grown.gains]
      simp
    rw [foldingsAppend, foldingsUntold untold, held]
    by_cases same : name = l.dialect
    · simp [foldings, Event.folded?, same, new]
    · have apart : (name == l.dialect) = false := by simpa using same
      simp [foldings, Event.folded?, Ne.symm same, apart]
  · rw [allFoldingsAppend, allFoldingsUntold untold]
    rfl

theorem ledgerFoldings (ledger : r.Ledger events next) (name : String) :
    foldings name events = if next.isResolved name && !r.isResolved name then 1 else 0 := by
  have sum := ledger.folded name
  cases before : r.isResolved name <;> cases after : next.isResolved name <;> simp [before, after] at sum ⊢ <;> exact sum

theorem ledgerStill (ledger : r.Ledger events next) (old : ∀ name, next.isResolved name → r.isResolved name) :
    next = r := by
  have held : ∀ name, (next.isResolved name && !r.isResolved name) = false := by
    intro name
    cases new : next.isResolved name with
    | false => rfl
    | true => simp [old name new]
  have untold : ∀ event ∈ events, event.folded? = none := by
    intro event inside
    cases told : event.folded? with
    | none => rfl
    | some name =>
      have never := ledgerFoldings ledger name
      rw [held, if_neg Bool.false_ne_true, foldings, List.countP_eq_zero] at never
      exact absurd (by simp [told]) (never event inside)
  have cache : next.cache = r.cache := by
    refine growsSame ⟨ledger.catalog, ledger.keeps, fun name => ⟨fun held => .inl (old name held), fun held => ?_⟩⟩
    rcases held with before | new
    · obtain ⟨handle, cached⟩ := resolvedIff.mp before
      exact resolvedIff.mpr ⟨handle, ledger.keeps name handle cached⟩
    · contradiction
  have made : next.made = r.made := by rw [ledger.counted, allFoldingsUntold untold, Nat.add_zero]
  have options := ledger.options
  have catalog := ledger.catalog
  cases next
  cases r
  simp_all

structure Booked (r : Resolver) (e : Entry) (turn : Logged (Resolver × Except Fault Handle)) : Prop where
  ledger : r.Ledger turn.events turn.value.1
  handed : ∀ handle, turn.value.2 = .ok handle → turn.value.1.cache[e.name]? = some handle

theorem bookedFailure {fault : Fault} (untold : ∀ event ∈ events, event.folded? = none) :
    r.Booked e ⟨(r, .error fault), events⟩ where
  ledger := ledgerSame untold
  handed := by simp

theorem bookedHit {handle : Handle} (cached : r.cache[e.name]? = some handle)
    (untold : ∀ event ∈ events, event.folded? = none) : r.Booked e ⟨(r, .ok handle), events⟩ where
  ledger := ledgerSame untold
  handed _ same := Except.ok.inj same ▸ cached

theorem bookedAfter {turn : Logged (Resolver × Except Fault Handle)} (first : r.Ledger events next)
    (later : next.Booked e turn) : r.Booked e ⟨turn.value, events ++ turn.events⟩ where
  ledger := ledgerTrans first later.ledger
  handed := later.handed

theorem obtainBooked (r : Resolver) (e : Entry) (v : Vocabulary) : r.Booked e (r.obtain e v) := by
  have untold := patchesUntold r.options e.name e.patches v
  cases cached : r.cache[e.name]? with
  | some handle =>
    rw [obtainHit cached]
    exact bookedHit cached (by simp)
  | none =>
    cases folded : (foldPatches r.options e.name e.patches v).value with
    | error fault =>
      have failed := entryFails folded
      rw [obtainFails cached (by rw [failed]), failed]
      exact bookedFailure untold
    | ok result =>
      have done := entryFolds folded
      rw [obtainFolds cached (by rw [done]), done]
      refine ⟨ledgerKeep rfl cached untold, fun handle handed => ?_⟩
      cases Except.ok.inj handed
      simp [keep, Lexicon.freeze]

theorem descendBooked (r : Resolver) (v : Vocabulary) (e : Entry) (above : List Entry) :
    r.Booked e (r.descend v e above) := by
  induction above generalizing r v with
  | nil => exact obtainBooked r e v
  | cons a rest ih =>
    have first := (obtainBooked r a v).ledger
    cases turn : (r.obtain a v).value with
    | mk next answer =>
      rw [turn] at first
      cases answer with
      | error fault =>
        rw [descendStops turn]
        exact ⟨first, by simp⟩
      | ok handle =>
        rw [descendGoes turn]
        exact bookedAfter first (ih next handle.lexicon.vocabulary)

theorem resolveEntryBooked (r : Resolver) (e : Entry) : r.Booked e (r.resolveEntry e) := by
  cases cached : r.cache[e.name]? with
  | some handle =>
    rw [resolveEntryHit cached]
    exact bookedHit cached (by simp [Event.folded?])
  | none =>
    cases answered : r.catalog.ancestors e with
    | error fault =>
      rw [resolveEntryUnrooted cached answered]
      exact bookedFailure (by simp)
    | ok above =>
      rw [resolveEntryRooted cached answered]
      exact descendBooked r ∅ e above

theorem resolveEachLedger (r : Resolver) (row : List Entry) :
    r.Ledger (r.resolveEach row).events (r.resolveEach row).value.1 := by
  induction row generalizing r with
  | nil => exact ledgerSame (by simp [resolveEach])
  | cons e rest ih =>
    rw [resolveEachCons]
    exact ledgerTrans (resolveEntryBooked r e).ledger (ih (r.resolveEntry e).value.1)

theorem openingUntold (q : Request) : ∀ event ∈ q.opening, event.folded? = none := by
  cases q <;> simp [Request.opening, Event.folded?]

theorem askBooked (found : r.catalog.sought q = some e) : r.Booked e (r.ask q) := by
  rw [askTurn found]
  exact bookedAfter (ledgerSame (openingUntold q)) (resolveEntryBooked r e)

theorem resolveAllLedger (r : Resolver) : r.Ledger r.resolveAll.events r.resolveAll.value.1 := by
  have opened : r.Ledger [.resolveAllOpened r.catalog.size] r := ledgerSame (by simp [Event.folded?])
  rw [resolveAllTurn]
  exact ledgerTrans opened (resolveEachLedger r r.catalog.entries)

theorem actLedger (r : Resolver) {call : Call} (unbroken : call ≠ .invalidate) :
    r.Ledger (r.act call).events (r.act call).value.1 := by
  cases call with
  | ask q =>
    cases found : r.catalog.sought q with
    | none => simpa [act, askUnknown found] using ledgerSame (openingUntold q)
    | some e => simpa [act] using (askBooked found).ledger
  | all => simpa [act] using resolveAllLedger r
  | invalidate => contradiction

theorem actOptions (r : Resolver) (call : Call) : (r.act call).value.1.options = r.options := by
  by_cases cleared : call = .invalidate
  · rw [cleared]
    rfl
  · exact (actLedger r cleared).options

theorem sessionLedger (r : Resolver) {calls : List Call} (unbroken : Call.invalidate ∉ calls) :
    r.Ledger (r.session calls).events (r.session calls).value.1 := by
  induction calls generalizing r with
  | nil => exact ledgerSame (by simp [session])
  | cons call rest ih =>
    have first := List.ne_of_not_mem_cons unbroken
    have others := List.not_mem_of_not_mem_cons unbroken
    rw [sessionCons]
    exact ledgerTrans (actLedger r (Ne.symm first)) (ih _ others)

theorem issuesAfter (r : Resolver) (calls : List Call) : r.Issues (r.after calls) := by
  induction calls generalizing r with
  | nil => exact issuesSame r
  | cons call rest ih =>
    refine issuesTrans ?_ (ih (r.perform call).1)
    by_cases cleared : call = .invalidate
    · subst cleared
      exact ⟨Nat.le_refl _, by simp [perform, invalidate]⟩
    · exact actPerforms r call ▸ (actLedger r cleared).toIssues

theorem finishLedger (draft : Draft) :
    (fresh draft.options draft.catalog).Ledger draft.finish.events draft.finish.value := by
  unfold Draft.finish
  split
  · refine ledgerTrans (resolveAllLedger _) (ledgerSame fun event told => ?_)
    obtain ⟨failure, _, rfl⟩ := List.mem_map.mp told
    rfl
  · exact ledgerSame (by simp)

end Resolver

end SqlLexicon
