import SqlLexicon.Proofs.Resolver.Request

/-! Runs of calls on a resolver, from the end of registering on. Whatever was called before, and whether it succeeded or
failed, an answer is the one that a resolver with nothing at hand gives. -/
namespace SqlLexicon

inductive Call where
  | ask (q : Request)
  | all
  | invalidate
  deriving DecidableEq, Repr

/- What a call tells. The serials of handles are left out, as they number the lexicons made so far. -/
inductive Reply where
  | answer (result : Except Fault Lexicon)
  | failures (failed : List (String × Fault))
  | done

namespace Resolver
open Catalog

def perform (r : Resolver) : Call → Resolver × Reply
  | .ask q => ((r.ask q).value.1, .answer ((r.ask q).value.2.map Handle.lexicon))
  | .all => (r.resolveAll.value.1, .failures r.resolveAll.value.2)
  | .invalidate => (r.invalidate, .done)

def after (r : Resolver) (calls : List Call) : Resolver := calls.foldl (fun r call => (r.perform call).1) r

def replies (r : Resolver) : List Call → List Reply
  | [] => []
  | call :: rest => (r.perform call).2 :: (r.perform call).1.replies rest

def told (c : Catalog) : Call → Reply
  | .ask q => .answer (c.answer q)
  | .all => .failures (failures c c.entries)
  | .invalidate => .done

variable {r : Resolver}

theorem resolveAllServes (sound : r.Sound) :
    r.resolveAll.value.1.Sound ∧ r.resolveAll.value.1.catalog = r.catalog ∧
      r.resolveAll.value.2 = failures r.catalog r.catalog.entries := by
  obtain ⟨sound', grown, failed⟩ := resolveEachServes sound fun e member => member
  exact ⟨sound', grown.catalog, failed⟩

theorem performSound (sound : r.Sound) (call : Call) :
    (r.perform call).1.Sound ∧ (r.perform call).1.catalog = r.catalog := by
  cases call with
  | ask q => exact ⟨askSound sound, askCatalog sound⟩
  | all =>
    obtain ⟨sound', same, _⟩ := resolveAllServes sound
    exact ⟨sound', same⟩
  | invalidate => exact ⟨emptySound rfl, rfl⟩

theorem performTold (sound : r.Sound) (call : Call) : (r.perform call).2 = told r.catalog call := by
  cases call with
  | ask q => exact congrArg Reply.answer (askAnswer sound)
  | all =>
    obtain ⟨_, _, failed⟩ := resolveAllServes sound
    exact congrArg Reply.failures failed
  | invalidate => rfl

theorem afterSound (sound : r.Sound) (calls : List Call) :
    (r.after calls).Sound ∧ (r.after calls).catalog = r.catalog := by
  induction calls generalizing r with
  | nil => exact ⟨sound, rfl⟩
  | cons call rest ih =>
    obtain ⟨sound', same⟩ := performSound sound call
    obtain ⟨sound'', same'⟩ := ih sound'
    exact ⟨sound'', same'.trans same⟩

theorem repliesTold (sound : r.Sound) (calls : List Call) : r.replies calls = calls.map (told r.catalog) := by
  induction calls generalizing r with
  | nil => rfl
  | cons call rest ih =>
    obtain ⟨sound', same⟩ := performSound sound call
    rw [replies, ih sound', same, performTold sound, List.map_cons]

theorem finishSound (draft : Draft) : draft.finish.value.Sound ∧ draft.finish.value.catalog = draft.catalog := by
  have fresh : (fresh draft.options draft.catalog).Sound := emptySound rfl
  unfold Draft.finish
  split
  · exact performSound fresh .all
  · exact ⟨fresh, rfl⟩

theorem finishedAnswer (draft : Draft) (calls : List Call) (q : Request) :
    ((draft.finish.value.after calls).ask q).value.2.map Handle.lexicon = draft.catalog.answer q := by
  obtain ⟨sound, same⟩ := finishSound draft
  obtain ⟨sound', kept⟩ := afterSound sound calls
  rw [askAnswer sound', kept, same]

theorem repliesFresh (draft : Draft) (calls : List Call) (options : Options) :
    draft.finish.value.replies calls = calls.map fun call => ((fresh options draft.catalog).perform call).2 := by
  obtain ⟨sound, same⟩ := finishSound draft
  rw [repliesTold sound, same]
  exact List.map_congr_left fun call _ => (performTold (r := fresh options draft.catalog) (emptySound rfl) call).symm

theorem soundHeld {name : String} (sound : r.Sound) (held : r.isResolved name) :
    ∃ e above lexicon, r.catalog.find? name = some e ∧ r.catalog.Lineage e above ∧
      r.catalog.meaning e = .ok lexicon := by
  obtain ⟨handle, cached⟩ := resolvedIff.mp held
  obtain ⟨e, found, meant⟩ := sound.meant name handle cached
  obtain ⟨above, _, line, _⟩ := meaningOk (findMember found).1 meant
  exact ⟨e, above, handle.lexicon, found, line, meant⟩

theorem soundParent {name p : String} (sound : r.Sound) (held : r.isResolved name)
    (declared : r.catalog.parentOf? name = some p) : r.isResolved p := by
  obtain ⟨e, above, _, found, line, _⟩ := soundHeld sound held
  obtain ⟨member, rfl⟩ := findMember found
  have named : e.parent? = some p := by simpa [parentOf?, found] using declared
  cases line with
  | root top => exact absurd (top.symm.trans named) (Option.some_ne_none p).symm
  | child link _ =>
    have upper := sound.closed _ _ member link held
    obtain ⟨_, named', found'⟩ := link
    cases Option.some.inj (named.symm.trans named')
    exact (findMember found').2 ▸ upper

theorem reachableEffect (draft : Draft) (calls : List Call) (q : Request) :
    let r := draft.finish.value.after calls
    let turn := (r.ask q).value
    r.Effect q turn.1 turn.2 ∧
    (∀ (name : String) (handle : Handle), r.cache[name]? = some handle → turn.1.cache[name]? = some handle) ∧
    (∀ name p, r.isResolved name → r.catalog.parentOf? name = some p → r.isResolved p) ∧
    ∀ name, r.isResolved name → ∃ e lexicon, r.catalog.find? name = some e ∧
      r.catalog.Rooted e ∧ (∀ y p, ¬ r.catalog.Broken e y p) ∧ (∀ d, r.catalog.Reaches e d → ¬ r.catalog.Loops d) ∧
      ((fresh r.options r.catalog).ask (.name name)).value.2.map Handle.lexicon = .ok lexicon := by
  intro r turn
  have sound : r.Sound := (afterSound (finishSound draft).1 calls).1
  refine ⟨askEffect sound, fun _ _ => askKeeps sound, fun _ _ => soundParent sound, fun name held => ?_⟩
  obtain ⟨e, above, lexicon, found, line, meant⟩ := soundHeld sound held
  have rooted := lineageRooted line
  refine ⟨e, lexicon, found, rooted, fun _ _ => rootedNotBroken rooted, fun d path => ?_, ?_⟩
  · obtain ⟨_, toRoot, top⟩ := rooted
    exact stopsNotLoops toRoot (rootStops top) path
  · rw [askAnswer (emptySound rfl), answer]
    simp [fresh, sought, found, meant]

end Resolver

end SqlLexicon
