import SqlLexicon.Proofs.Resolver.Ledger

/-! Who shares a lexicon. As long as nothing is invalidated a dialect is folded at most once, on whatever way it is
reached, and whoever asks for it gets the same handle. An invalidation ends this: the next folding makes a new handle,
with the same lexicon. -/
namespace SqlLexicon.Resolver
open Catalog

variable {r : Resolver} {q : Request} {e : Entry} {name : String} {handle : Handle} {calls : List Call}

theorem finishIssues (draft : Draft) (calls : List Call) :
    (fresh draft.options draft.catalog).Issues (draft.finish.value.after calls) :=
  issuesTrans (finishLedger draft).toIssues (issuesAfter draft.finish.value calls)

theorem serialBelow (draft : Draft) (calls : List Call)
    (cached : (draft.finish.value.after calls).cache[name]? = some handle) :
    handle.serial < (draft.finish.value.after calls).made := by
  rcases (finishIssues draft calls).numbered name handle cached with old | new
  · simp [fresh] at old
  · exact new.2

theorem draftLedger (draft : Draft) (unbroken : Call.invalidate ∉ calls) :
    (fresh draft.options draft.catalog).Ledger (draft.session calls).events (draft.session calls).value.1 :=
  ledgerTrans (finishLedger draft) (sessionLedger draft.finish.value unbroken)

theorem keptAfter (cached : r.cache[name]? = some handle) (unbroken : Call.invalidate ∉ calls) :
    (r.after calls).cache[name]? = some handle := by
  have kept := (sessionLedger r unbroken).keeps name handle cached
  rwa [sessionAfter] at kept

theorem askHeld (found : r.catalog.sought q = some e) (cached : r.cache[e.name]? = some handle) :
    (r.ask q).value = (r, .ok handle) := by
  rw [askTurn found, resolveEntryHit cached]

theorem serialAfterInvalidate (broken : Call.invalidate ∈ calls) (cached : (r.after calls).cache[name]? = some handle) :
    r.made ≤ handle.serial := by
  obtain ⟨first, rest, rfl⟩ := List.append_of_mem broken
  have before := (issuesAfter r first).made
  have whole : r.after (first ++ .invalidate :: rest) = (r.after first).invalidate.after rest := by
    simp [after, perform]
  rw [whole] at cached
  rcases (issuesAfter (r.after first).invalidate rest).numbered name handle cached with old | new
  · simp [invalidate] at old
  · exact Nat.le_trans before new.1

/- Between invalidations, and so also from the end of registering on, the lines about a dialect are counted by its cell.
Two requests for one dialect get one handle, or, with an invalidation between them, two handles of equal lexicons. -/
theorem foldedOnce (draft : Draft) (before : List Call) :
    let r := draft.finish.value.after before
    (∀ calls, Call.invalidate ∉ calls → ∀ name,
      let whole := draft.session calls
      let later := r.session calls
      foldings name whole.events = (if whole.value.1.isResolved name then 1 else 0) ∧
      foldings name later.events = (if later.value.1.isResolved name && !r.isResolved name then 1 else 0)) ∧
    ∀ q q' e handle calls, r.catalog.sought q = some e → r.catalog.sought q' = some e → (r.ask q).value.2 = .ok handle →
      let later := (r.ask q).value.1.after calls
      (Call.invalidate ∉ calls → later.cache[e.name]? = some handle ∧ (later.ask q').value = (later, .ok handle)) ∧
      (Call.invalidate ∈ calls → ∃ other, (later.ask q').value.2 = .ok other ∧ other.serial ≠ handle.serial ∧
        other.lexicon = handle.lexicon) := by
  intro r
  refine ⟨fun calls unbroken name => ⟨?_, ledgerFoldings (sessionLedger r unbroken) name⟩, ?_⟩
  · rw [ledgerFoldings (draftLedger draft unbroken)]
    simp [fresh, isResolved]
  · intro q q' e handle calls found found' handed later
    have sound : r.Sound := (afterSound (finishSound draft).1 before).1
    obtain ⟨soundLater, kept⟩ := afterSound (askSound (q := q) sound) calls
    have same : later.catalog = r.catalog := kept.trans (askCatalog sound)
    have found'' : later.catalog.sought q' = some e := same ▸ found'
    have cached := (askBooked found).handed handle handed
    refine ⟨fun unbroken => ?_, fun broken => ?_⟩
    · have here := keptAfter cached unbroken
      exact ⟨here, askHeld found'' here⟩
    · have first := askAnswer (q := q) sound
      have again := askAnswer (q := q') soundLater
      rw [answer, found, handed] at first
      rw [answer, found'', same, ← first] at again
      obtain ⟨other, handed', lexicon⟩ := okOfMap again
      -- serials go up, so one given out after the invalidation is larger than all given out before it
      have below : handle.serial < (r.ask q).value.1.made := by
        rw [← afterAsk] at cached ⊢
        exact serialBelow draft (before ++ [.ask q]) cached
      have above : (r.ask q).value.1.made ≤ other.serial := by
        have cached' := (askBooked found'').handed other handed'
        rw [← afterAsk] at cached'
        exact serialAfterInvalidate (List.mem_append_left _ broken) cached'
      exact ⟨other, handed', Nat.ne_of_gt (Nat.lt_of_lt_of_le below above), lexicon⟩

def kin : Draft where
  options := { eager := true }
  catalog := ⟨[⟨"below", some "above", []⟩,
    ⟨"above", none, [Patch.toWords ⟨"base", [], [], ⟨["top"], [], []⟩⟩]⟩], by decide⟩

theorem foldedOnceKin :
    let r := kin.finish.value
    foldings "above" (kin.session [.ask (.name "below"), .all]).events = 1 ∧
    ∃ handle other, (r.ask (.name "above")).value.2 = .ok handle ∧
      (((r.ask (.name "above")).value.1.after [.all]).ask (.place 1)).value.2 = .ok handle ∧
      (((r.ask (.name "above")).value.1.after [.invalidate]).ask (.place 1)).value.2 = .ok other ∧
      other.serial ≠ handle.serial ∧ other.lexicon = handle.lexicon := by
  intro r
  obtain ⟨counted, shared⟩ := foldedOnce kin []
  have held : (kin.session [.ask (.name "below"), .all]).value.1.isResolved "above" = true := by decide +kernel
  have once := (counted [.ask (.name "below"), .all] (by decide) "above").1
  rw [if_pos held] at once
  have first : (r.ask (.name "above")).value.2.map Handle.serial = .ok 0 := by decide +kernel
  obtain ⟨handle, handed, _⟩ := okOfMap first
  have same : r.catalog = kin.catalog := (finishSound kin).2
  have found : r.catalog.sought (.name "above") = some kin.catalog.entries[1] := by rw [same]; rfl
  have found' : r.catalog.sought (.place 1) = some kin.catalog.entries[1] := by rw [same]; rfl
  have pair := fun calls => shared _ _ _ handle calls found found' handed
  obtain ⟨other, again, apart, equal⟩ := (pair [.invalidate]).2 (by decide)
  have hit := ((pair [.all]).1 (by decide)).2
  exact ⟨once, handle, other, handed, congrArg Prod.snd hit, again, apart, equal⟩

end SqlLexicon.Resolver
