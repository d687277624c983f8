import SqlLexicon.Proofs.Resolver.Soundness

/-! Requests for one dialect, by its name or by its place in order of registration, and their exact effect on what is at
hand. A request that names no dialect has none. -/
namespace SqlLexicon

inductive Request where
  | name (text : String)
  | place (index : Nat)
  deriving DecidableEq, Repr

def Request.text : Request → String
  | .name text => text
  | .place index => placeText index

namespace Catalog

def sought (c : Catalog) : Request → Option Entry
  | .name text => c.find? text
  | .place index => c.entries[index]?

def answer (c : Catalog) (q : Request) : Except Fault Lexicon :=
  match c.sought q with
  | some e => c.meaning e
  | none => .error (.unknownDialect q.text)

theorem soughtMember {c : Catalog} {q : Request} {e : Entry} (found : c.sought q = some e) : e ∈ c.entries := by
  cases q with
  | name text => exact (findMember found).1
  | place index => exact List.mem_of_getElem? found

end Catalog

namespace Resolver
open Catalog

def ask (r : Resolver) : Request → Logged (Resolver × Except Fault Handle)
  | .name text => r.resolve text
  | .place index => r.resolveAt index

variable {r : Resolver} {q : Request} {x e : Entry} {above below upper : List Entry} {name : String}

theorem askFound (found : r.catalog.sought q = some e) : (r.ask q).value = (r.resolveEntry e).value := by
  cases q with
  | name text => simp [ask, resolve, show r.catalog.find? text = some e from found]
  | place index => simp [ask, resolveAt, show r.catalog.entries[index]? = some e from found]

theorem askNothing (unknown : r.catalog.sought q = none) :
    (r.ask q).value = (r, .error (.unknownDialect q.text)) := by
  cases q with
  | name text => simp [ask, resolve, Request.text, show r.catalog.find? text = none from unknown]
  | place index => simp [ask, resolveAt, Request.text, show r.catalog.entries[index]? = none from unknown]

theorem askServes (sound : r.Sound) (found : r.catalog.sought q = some e) :
    r.Serves e ((r.catalog.footprint e).map Entry.name) (r.ask q).value :=
  askFound found ▸ resolveEntryServes sound (soughtMember found)

theorem askSound (sound : r.Sound) : (r.ask q).value.1.Sound := by
  cases found : r.catalog.sought q with
  | none => rwa [askNothing found]
  | some e => exact (askServes sound found).sound

theorem askCatalog (sound : r.Sound) : (r.ask q).value.1.catalog = r.catalog := by
  cases found : r.catalog.sought q with
  | none => rw [askNothing found]
  | some e => exact (askServes sound found).grows.catalog

theorem askAnswer (sound : r.Sound) : (r.ask q).value.2.map Handle.lexicon = r.catalog.answer q := by
  cases found : r.catalog.sought q with
  | none =>
    rw [askNothing found, answer, found]
    rfl
  | some e =>
    rw [answer, found]
    exact (askServes sound found).answer

theorem askKeeps (sound : r.Sound) {handle : Handle} (cached : r.cache[name]? = some handle) :
    (r.ask q).value.1.cache[name]? = some handle := by
  cases found : r.catalog.sought q with
  | none => rwa [askNothing found]
  | some e => exact (askServes sound found).grows.keeps name handle cached

/- The change that a request makes to what is at hand, by its answer: the whole row on success, the dialects above the
one that does not fold, and nothing at all on the other failures of resolving. -/
def Effect (r : Resolver) (q : Request) (next : Resolver) : Except Fault Handle → Prop
  | .ok _ => ∃ x above, r.catalog.sought q = some x ∧ r.catalog.Lineage x above ∧
      ∀ name, next.isResolved name ↔ r.isResolved name ∨ name ∈ (above ++ [x]).map Entry.name
  | .error (.unknownWord culprit ..) => ∃ x above e upper below, r.catalog.sought q = some x ∧
      r.catalog.Lineage x above ∧ above ++ [x] = upper ++ e :: below ∧ e.name = culprit ∧ r.catalog.Lineage e upper ∧
      (∀ name, next.isResolved name ↔ r.isResolved name ∨ name ∈ upper.map Entry.name) ∧
      ∀ y ∈ e :: below, next.isResolved y.name = false
  | .error (.unknownParent ..) | .error (.cyclicDialect ..) | .error (.unknownDialect _) => next.cache = r.cache
  | .error _ => False

theorem soundBelow {fault : Fault} (sound : r.Sound) (member : x ∈ r.catalog.entries)
    (line : r.catalog.Lineage x above) (whole : above ++ [x] = upper ++ e :: below)
    (failed : r.catalog.meaning e = .error fault) : ∀ y ∈ e :: below, r.isResolved y.name = false := by
  intro y inside
  rw [← Bool.not_eq_true]
  intro held
  have row := rowRegistered line member
  obtain ⟨before, after, parts⟩ := List.append_of_mem inside
  have line' : r.catalog.Lineage y (upper ++ before) := lineageWithin line (by rw [whole, parts, List.append_assoc])
  have culprit : e = y ∨ e ∈ upper ++ before := by
    cases before with
    | nil => exact .inl (List.cons.inj parts).1
    | cons first rest => exact .inr (by simp [(List.cons.inj parts).1])
  have folds : r.isResolved e.name := by
    rcases culprit with rfl | up
    · exact held
    · exact soundAbove sound line' (row y (by simp [whole, parts])) held e up
  obtain ⟨handle, cached⟩ := resolvedIff.mp folds
  have meant := soundMeant sound (row e (by simp [whole])) cached
  simp [failed] at meant

theorem askEffect (sound : r.Sound) : r.Effect q (r.ask q).value.1 (r.ask q).value.2 := by
  cases found : r.catalog.sought q with
  | none =>
    rw [askNothing found]
    rfl
  | some x =>
    have member := soughtMember found
    obtain ⟨sound', grown, answered⟩ := askServes sound found
    cases answer : (r.ask q).value.2 with
    | ok handle =>
      rw [answer] at answered
      obtain ⟨above, _, line, _, _, whole⟩ := meaningOk member answered.symm
      exact ⟨x, above, found, line, whole ▸ grown.gains⟩
    | error fault =>
      rw [answer] at answered
      have failed := meaningFailed member answered.symm
      generalize r.catalog.footprint x = folded at failed grown
      cases failed with
      | unfolded line whole upper same =>
        have below := soundBelow sound' (grown.catalog.symm ▸ member) (grown.catalog.symm ▸ line) whole
          (grown.catalog.symm ▸ same)
        exact ⟨x, _, _, _, _, found, line, whole, rfl, upper, grown.gains, below⟩
      | broken => exact growsSame grown
      | cyclic => exact growsSame grown

end Resolver

end SqlLexicon
