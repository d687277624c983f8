import SqlLexicon.Proofs.Catalog.Places
import SqlLexicon.Proofs.Registration.Checks
import SqlLexicon.Proofs.Resolver.History

/-! Runs of registrations, some of which are rejected. A rejected dialect changes nothing, so a run leaves what the accepted
dialects alone leave, and each of these has as its place the number of dialects before it. -/
namespace SqlLexicon

namespace Catalog

variable {c next : Catalog} {d : Dialect} {name : String}

theorem enterTaken (taken : c.has d.name = true) : c.enter d = .error (.duplicateDialect d.name) := by
  simp [enter, taken]

theorem placeEntered {e : Entry} (whole : next.entries = c.entries ++ [e]) (free : c.has e.name = false) :
    next.place? e.name = some c.size := by
  have before : c.entries.findIdx? (·.name == e.name) = none := placeNone free
  simp [place?, whole, List.findIdx?_append, before, size]

theorem placeKept {more : List Entry} {place : Nat} (whole : next.entries = c.entries ++ more)
    (found : c.place? name = some place) : next.place? name = some place := by
  have before : c.entries.findIdx? (·.name == name) = some place := found
  simp [place?, whole, List.findIdx?_append, before]

end Catalog

namespace Draft

def attempt (draft : Draft) (ds : List Dialect) : Draft := ds.foldl (fun draft d => (draft.register d).value.1) draft

def accepted (draft : Draft) : List Dialect → List Dialect
  | [] => []
  | d :: rest =>
    let turn := (draft.register d).value
    match turn.2 with
    | .ok _ => d :: turn.1.accepted rest
    | .error _ => turn.1.accepted rest

variable {draft : Draft} {d : Dialect} {ds : List Dialect} {place : Nat} {fault : Fault} {name : String}

theorem registerRejected (rejected : (draft.register d).value.2 = .error fault) : (draft.register d).value.1 = draft := by
  unfold register at rejected ⊢
  cases entered : draft.catalog.enter d with
  | error other => rfl
  | ok pair => simp [entered] at rejected

theorem registerPlace (done : (draft.register d).value.2 = .ok place) : place = draft.catalog.size := by
  rw [registerAnswer] at done
  obtain ⟨_, _, here⟩ := okOfMap done
  exact here.symm

theorem registerFree (done : (draft.register d).value.2 = .ok place) : draft.catalog.has d.name = false :=
  ((registerAccepts draft d).mp ⟨place, done⟩).1

theorem attemptAppend (draft : Draft) (before after : List Dialect) :
    draft.attempt (before ++ after) = (draft.attempt before).attempt after := List.foldl_append

theorem acceptedRun (draft : Draft) (ds : List Dialect) :
    (draft.registerAll (draft.accepted ds)).value = (draft.attempt ds, .ok ()) := by
  induction ds generalizing draft with
  | nil => rfl
  | cons d rest ih =>
    have below := ih (draft.register d).value.1
    cases turn : (draft.register d).value.2 with
    | ok place =>
      simp only [accepted, turn, registerAll, Logged.valueBind]
      exact below
    | error fault =>
      simp only [accepted, turn]
      rw [registerRejected turn] at below ⊢
      simpa [attempt, registerRejected turn] using below

theorem acceptNames {es : List Entry} (each : List.Forall₂ (fun d e => d.accept = .ok e) ds es) :
    es.map Entry.name = ds.map Dialect.name := by
  induction each with
  | nil => rfl
  | cons here _ ih => rw [List.map_cons, List.map_cons, ih, Dialect.acceptName here]

theorem acceptMember {es : List Entry} {e : Entry} (each : List.Forall₂ (fun d e => d.accept = .ok e) ds es) :
    e ∈ es ↔ ∃ d ∈ ds, d.accept = .ok e := by
  induction each with
  | nil => simp
  | cons here _ ih => simp [ih, here, eq_comm]

theorem attemptEntries (draft : Draft) (ds : List Dialect) :
    ∃ es, List.Forall₂ (fun d e => d.accept = .ok e) (draft.accepted ds) es ∧
      (draft.attempt ds).catalog.entries = draft.catalog.entries ++ es := by
  have run := acceptedRun draft ds
  obtain ⟨es, each, whole⟩ := registerAllOk (congrArg Prod.snd run)
  exact ⟨es, each, by rw [← whole, run]⟩

theorem attemptSize (draft : Draft) (ds : List Dialect) :
    (draft.attempt ds).catalog.size = draft.catalog.size + (draft.accepted ds).length := by
  obtain ⟨es, each, whole⟩ := attemptEntries draft ds
  simp [Catalog.size, whole, each.length_eq]

theorem attemptNames (draft : Draft) (ds : List Dialect) :
    (draft.attempt ds).catalog.names = draft.catalog.names ++ (draft.accepted ds).map Dialect.name := by
  obtain ⟨es, each, whole⟩ := attemptEntries draft ds
  simp [Catalog.names, whole, acceptNames each]

theorem attemptMember {e : Entry} : e ∈ (draft.attempt ds).catalog.entries ↔
    e ∈ draft.catalog.entries ∨ ∃ d ∈ draft.accepted ds, d.accept = .ok e := by
  obtain ⟨es, each, whole⟩ := attemptEntries draft ds
  rw [whole, List.mem_append, acceptMember each]

theorem registerHas (apart : name ≠ d.name) : (draft.register d).value.1.catalog.has name = draft.catalog.has name := by
  cases turn : (draft.register d).value.2 with
  | error fault => rw [registerRejected turn]
  | ok place =>
    obtain ⟨e, accepted, whole⟩ := registerOk turn
    simp [Catalog.has, Catalog.names, whole, Dialect.acceptName accepted, apart]

theorem acceptedMember (distinct : (ds.map Dialect.name).Nodup) :
    d ∈ draft.accepted ds ↔ d ∈ ds ∧ ∃ place, (draft.register d).value.2 = .ok place := by
  induction ds generalizing draft with
  | nil => simp [accepted]
  | cons first rest ih =>
    obtain ⟨new, distinct⟩ := List.nodup_cons.mp distinct
    have below : d ∈ (draft.register first).value.1.accepted rest ↔
        d ∈ rest ∧ ∃ place, (draft.register d).value.2 = .ok place := by
      rw [ih distinct]
      refine and_congr_right fun inside => ?_
      have apart : d.name ≠ first.name := fun same => new (same ▸ List.mem_map_of_mem inside)
      rw [registerAccepts, registerAccepts, registerHas apart]
    cases turn : (draft.register first).value.2 with
    | ok place =>
      simp only [accepted, turn, List.mem_cons, below, or_and_right]
      exact or_congr_left ⟨fun same => ⟨same, place, same ▸ turn⟩, And.left⟩
    | error fault =>
      simp only [accepted, turn, List.mem_cons, below, or_and_right]
      refine (or_iff_right fun held => ?_).symm
      obtain ⟨rfl, place, done⟩ := held
      simp [turn] at done

theorem rejectedFree {other : Dialect} (rejected : (draft.register d).value.2 = .error fault)
    (cause : fault ≠ .duplicateDialect d.name) (named : other.name = d.name) (well : other.WellFormed) :
    draft.catalog.has d.name = false ∧ (draft.register other).value.2 = .ok draft.catalog.size := by
  have free : draft.catalog.has d.name = false := by
    rw [← Bool.not_eq_true]
    intro taken
    rw [registerAnswer, Catalog.enterTaken taken] at rejected
    exact cause (Except.error.inj rejected).symm
  obtain ⟨place, done⟩ := (registerAccepts draft other).mpr ⟨named ▸ free, well⟩
  exact ⟨free, registerPlace done ▸ done⟩

theorem acceptedPlace {before after : List Dialect} (done : ((draft.attempt before).register d).value.2 = .ok place) :
    place = draft.catalog.size + (draft.accepted before).length ∧
      (draft.attempt (before ++ d :: after)).catalog.place? d.name = some place := by
  obtain ⟨e, accept, entered⟩ := registerOk done
  have named := Dialect.acceptName accept
  have first := Catalog.placeEntered entered (named ▸ registerFree done)
  obtain ⟨_, _, later⟩ := attemptEntries ((draft.attempt before).register d).value.1 after
  rw [registerPlace done, ← attemptSize, attemptAppend, ← named]
  exact ⟨rfl, Catalog.placeKept later first⟩

theorem unacceptedUnknown (fresh : draft.catalog.has name = false)
    (never : name ∉ (draft.accepted ds).map Dialect.name) (calls : List Call) :
    (((draft.attempt ds).finish.value.after calls).resolve name).value.2 = .error (.unknownDialect name) := by
  have missing : (draft.attempt ds).catalog.has name = false := by
    simpa [Catalog.has, attemptNames, never] using fresh
  have unknown : (draft.attempt ds).catalog.sought (.name name) = none := Catalog.findNone missing
  have answered := Resolver.finishedAnswer (draft.attempt ds) calls (.name name)
  rw [Catalog.answer, unknown] at answered
  exact errorOfMap answered

theorem rejectionTraceless (draft : Draft) (ds : List Dialect) :
    (∀ d fault, (draft.register d).value.2 = .error fault → (draft.register d).value.1 = draft) ∧
    (draft.registerAll (draft.accepted ds)).value = (draft.attempt ds, .ok ()) ∧
    (∀ before d after, ds = before ++ d :: after →
      let turn := ((draft.attempt before).register d).value
      (∀ place, turn.2 = .ok place → place = draft.catalog.size + (draft.accepted before).length ∧
        (draft.attempt ds).catalog.place? d.name = some place) ∧
      ∀ fault other, turn.2 = .error fault → fault ≠ .duplicateDialect d.name → other.name = d.name →
        other.WellFormed → turn.1.catalog.has d.name = false ∧ ∃ place, (turn.1.register other).value.2 = .ok place) ∧
    ∀ name calls, draft.catalog.has name = false → name ∉ (draft.accepted ds).map Dialect.name →
      (((draft.attempt ds).finish.value.after calls).resolve name).value.2 = .error (.unknownDialect name) := by
  refine ⟨fun d fault => registerRejected, acceptedRun draft ds, fun before d after whole => ?_,
    fun name calls fresh never => unacceptedUnknown fresh never calls⟩
  subst whole
  refine ⟨fun place => acceptedPlace, fun fault other rejected cause named well => ?_⟩
  obtain ⟨free, done⟩ := rejectedFree rejected cause named well
  rw [registerRejected rejected]
  exact ⟨free, _, done⟩

def solid : Dialect := .root "solid" ⟨["select"], ["top"], []⟩

def torn : Dialect :=
  (Dialect.derived "torn" "solid").withPatch
    ((Patch.adding { name := "p" } .reserved ["goto"]).adding .unreserved ["GoTo"])

def mended : Dialect := (Dialect.derived "torn" "solid").withPatch (Patch.adding { name := "p" } .reserved ["goto"])

theorem rejectionTracelessMended :
    let draft : Draft := {}
    let run := [solid, torn, solid, mended]
    (draft.registerAll [solid, mended]).value = (draft.attempt run, .ok ()) ∧
    (draft.attempt run).catalog.place? "torn" = some 1 ∧
    (∃ place, ((draft.attempt [solid, torn]).register mended).value.2 = .ok place) ∧
    (((draft.attempt run).finish.value.after [.all]).resolve "broken").value.2 = .error (.unknownDialect "broken") := by
  intro draft run
  obtain ⟨_, alone, each, unknown⟩ := rejectionTraceless draft run
  have accepted : draft.accepted run = [solid, mended] := by decide +kernel
  have third : ((draft.attempt [solid, torn, solid]).register mended).value.2 = .ok 1 := by decide +kernel
  have second : ((draft.attempt [solid]).register torn).value.2 =
      .error (.ambiguousPatch "torn" "p" "GOTO" (.add .reserved) (.add .unreserved)) := by decide +kernel
  have well : mended.WellFormed := ((registerAccepts draft mended).mp ⟨0, by decide +kernel⟩).2
  refine ⟨accepted ▸ alone, ((each [solid, torn, solid] mended [] rfl).1 1 third).2, ?_, ?_⟩
  · exact ((each [solid] torn [solid, mended] rfl).2 _ mended second (by simp) rfl well).2
  · exact unknown "broken" [.all] rfl (by rw [accepted]; decide)

end Draft

end SqlLexicon
