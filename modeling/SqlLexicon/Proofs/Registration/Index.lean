import SqlLexicon.Proofs.Registration.Run
import SqlLexicon.Proofs.Written.Meaning

/-! The index of registered dialects: their definitions in order, a place for each name, and a link from each dialect to
the place of its parent, made when registering ends. Over every run of registrations it stays in step with the catalog, so
what is read at a place, under a name or along a link is what the definitions say. -/
namespace SqlLexicon

namespace Catalog

variable {c next : Catalog} {d : Dialect} {e : Entry} {name : String} {place : Nat} {fault : Fault}

theorem placeIff : c.place? name = some place ↔ c.nameAt? place = some name := by
  rw [nameAt?, Option.map_eq_some_iff]
  constructor
  · intro found
    obtain ⟨inside, named, _⟩ := List.findIdx?_eq_some_iff_getElem.mp found
    exact ⟨c.entries[place], List.getElem?_eq_getElem inside, by simpa using named⟩
  · intro held
    obtain ⟨e, here, rfl⟩ := held
    rw [placeFound (List.mem_of_getElem? here), placeAt here]

theorem placeHas : (∃ place, c.place? name = some place) ↔ c.has name = true := by
  constructor
  · intro found
    obtain ⟨place, found⟩ := found
    obtain ⟨e, here, rfl⟩ := Option.map_eq_some_iff.mp (placeIff.mp found)
    exact hasIffFound.mpr ⟨e, findOfMember (List.mem_of_getElem? here)⟩
  · intro known
    obtain ⟨e, found⟩ := hasIffFound.mp known
    obtain ⟨member, rfl⟩ := findMember found
    exact ⟨c.placeOf e, placeFound member⟩

theorem nameWithin : (∃ name, c.nameAt? place = some name) ↔ place < c.size := by
  simp [nameAt?, size, ← Option.isSome_iff_exists]

theorem placeAppended (whole : next.entries = c.entries ++ [e]) (free : c.has e.name = false) (name : String) :
    next.place? name = if e.name = name then some c.size else c.place? name := by
  by_cases same : e.name = name
  · rw [if_pos same, ← same, placeEntered whole free]
  · simp [place?, whole, List.findIdx?_append, same]

theorem enterFree (free : c.has d.name = false) : (c.enter d).map Prod.snd = d.accept := by
  unfold enter
  split
  · simp_all
  · split <;> simp_all [Except.map]

end Catalog

structure Index where
  pending : List Entry
  places : Std.ExtTreeMap String Nat

/- A dialect as it is stored when registering has ended, with its parent by place if that is registered. -/
structure Node where
  name : String
  link : Catalog.Link

namespace Index

instance : EmptyCollection Index := ⟨⟨[], ∅⟩⟩

def register (x : Index) (d : Dialect) : Index × Except Fault Nat :=
  if x.places.contains d.name then (x, .error (.duplicateDialect d.name))
  else
    match d.accept with
    | .error fault => (x, .error fault)
    | .ok e => (⟨x.pending ++ [e], x.places.insert e.name x.pending.length⟩, .ok x.pending.length)

def attempt (x : Index) (ds : List Dialect) : Index := ds.foldl (fun x d => (x.register d).1) x

def linkOf (x : Index) (e : Entry) : Catalog.Link :=
  match e.parent? with
  | none => .root
  | some name =>
    match x.places[name]? with
    | some place => .known place
    | none => .missing name

def nodes (x : Index) : List Node := x.pending.map fun e => ⟨e.name, x.linkOf e⟩

def nameAt? (x : Index) (place : Nat) : Option String := x.nodes[place]?.map Node.name

def parentAlong (x : Index) : Catalog.Link → Option String
  | .root => none
  | .known place => x.nameAt? place
  | .missing name => some name

def parentOf? (x : Index) (name : String) : Option String := do
  let place ← x.places[name]?
  let node ← x.nodes[place]?
  x.parentAlong node.link

def Says (x : Index) (declared : Option String) : Catalog.Link → Prop
  | .root => declared = none
  | .known place => place < x.nodes.length ∧ ∃ name, declared = some name ∧ x.nameAt? place = some name
  | .missing name => declared = some name ∧ x.places[name]? = none

structure InStep (x : Index) (c : Catalog) : Prop where
  pending : x.pending = c.entries
  places : ∀ name : String, x.places[name]? = c.place? name

variable {x : Index} {c : Catalog} {e : Entry}

theorem emptyInStep (options : Options) : InStep ∅ ({ options } : Draft).catalog where
  pending := rfl
  places name := by
    show (∅ : Std.ExtTreeMap String Nat)[name]? = none
    simp

theorem registerInStep {draft : Draft} (step : x.InStep draft.catalog) (d : Dialect) :
    (x.register d).1.InStep (draft.register d).value.1.catalog ∧ (x.register d).2 = (draft.register d).value.2 := by
  have known : x.places.contains d.name = draft.catalog.has d.name := by
    rw [Bool.eq_iff_iff, ← Catalog.placeHas, Std.ExtTreeMap.contains_eq_isSome_getElem?, step.places,
      Option.isSome_iff_exists]
  cases taken : draft.catalog.has d.name with
  | true =>
    rw [taken] at known
    simpa [register, known, Draft.register, Catalog.enterTaken taken] using step
  | false =>
    rw [taken] at known
    have entered := Catalog.enterFree taken
    cases accepted : d.accept with
    | error fault =>
      rw [accepted] at entered
      simpa [register, known, accepted, Draft.register, errorOfMap entered] using step
    | ok e =>
      rw [accepted] at entered
      obtain ⟨⟨next, e'⟩, done, rfl⟩ := okOfMap entered
      obtain ⟨_, _, whole⟩ := Catalog.enterOk done
      have free : draft.catalog.has e'.name = false := by rw [Dialect.acceptName accepted, taken]
      have place : x.pending.length = draft.catalog.size := by rw [step.pending, Catalog.size]
      simp only [register, known, accepted, Draft.register, done, place, Bool.false_eq_true, if_false, and_true]
      refine ⟨by rw [whole, step.pending], fun name => ?_⟩
      rw [Catalog.placeAppended whole free, Std.ExtTreeMap.getElem?_insert, step.places]
      simp

theorem attemptInStep {draft : Draft} (step : x.InStep draft.catalog) (ds : List Dialect) :
    (x.attempt ds).InStep (draft.attempt ds).catalog := by
  induction ds generalizing x draft with
  | nil => exact step
  | cons d rest ih => exact ih (registerInStep step d).1

theorem nodeInStep (step : x.InStep c) (place : Nat) :
    x.nodes[place]? = c.entries[place]?.map fun e => ⟨e.name, x.linkOf e⟩ := by
  rw [nodes, List.getElem?_map, step.pending]

theorem nameInStep (step : x.InStep c) (place : Nat) : x.nameAt? place = c.nameAt? place := by
  rw [nameAt?, nodeInStep step, Option.map_map]
  rfl

theorem linkSays (step : x.InStep c) (e : Entry) : x.Says e.parent? (x.linkOf e) := by
  cases declared : e.parent? with
  | none =>
    have link : x.linkOf e = .root := by simp [linkOf, declared]
    rw [link]
    rfl
  | some name =>
    cases found : x.places[name]? with
    | none =>
      have link : x.linkOf e = .missing name := by simp [linkOf, declared, found]
      rw [link]
      exact ⟨rfl, found⟩
    | some place =>
      have link : x.linkOf e = .known place := by simp [linkOf, declared, found]
      have named : c.nameAt? place = some name := Catalog.placeIff.mp ((step.places name).symm.trans found)
      have within : place < x.nodes.length := by
        rw [nodes, List.length_map, step.pending]
        exact Catalog.nameWithin.mp ⟨name, named⟩
      rw [link]
      exact ⟨within, name, rfl, (nameInStep step place).trans named⟩

theorem saysParent {declared : Option String} {link : Catalog.Link} (said : x.Says declared link) :
    x.parentAlong link = declared := by
  cases link with
  | root => exact Eq.symm said
  | known place =>
    obtain ⟨_, name, rfl, named⟩ := said
    exact named
  | missing name => exact said.1.symm

theorem parentInStep (step : x.InStep c) (name : String) : x.parentOf? name = c.parentOf? name := by
  rw [parentOf?, step.places]
  cases found : c.place? name with
  | none =>
    have unknown : c.has name = false := by simp [← Bool.not_eq_true, ← Catalog.placeHas, found]
    simp [Catalog.parentOf?, Catalog.findNone unknown]
  | some place =>
    obtain ⟨e, here, rfl⟩ := Option.map_eq_some_iff.mp (Catalog.placeIff.mp found)
    have entry := Catalog.findOfMember (List.mem_of_getElem? here)
    simp [nodeInStep step, here, saysParent (linkSays step e), Catalog.parentOf?, entry]

theorem nodesInStep (step : x.InStep c) : x.nodes = c.entries.map fun e => ⟨e.name, c.link e⟩ := by
  rw [nodes, step.pending]
  refine List.map_congr_left fun e _ => ?_
  unfold linkOf Catalog.link
  cases e.parent? with
  | none => rfl
  | some name =>
    cases found : c.place? name <;> simp [step.places, found]

theorem nodesSay {ds : List Dialect} (step : x.InStep c) (accepted : List.Forall₂ Accepts ds c.entries) :
    List.Forall₂ (fun d node => node.name = d.name ∧ x.Says d.parent? node.link) ds x.nodes := by
  rw [nodes, step.pending, List.forall₂_map_right_iff]
  exact accepted.imp fun d e here => ⟨Dialect.acceptName here, acceptedParent here ▸ linkSays step e⟩

end Index

namespace Catalog

variable {c : Catalog} {ds : List Dialect} {d : Dialect}

theorem parentWritten (accepted : List.Forall₂ Accepts ds c.entries) (registered : d ∈ ds) :
    c.parentOf? d.name = d.parent? := by
  obtain ⟨e, member, here⟩ := acceptedEntry accepted registered
  rw [← Dialect.acceptName here, ← acceptedParent here, parentOf?, findOfMember member, Option.bind_some]

end Catalog

namespace Resolver

variable {r : Resolver} {name : String} {place : Nat}

/- Both requests are for one dialect, so they differ in the span that only a request by name opens. -/
theorem placeAsName (named : r.catalog.nameAt? place = some name) :
    (r.resolveAt place).value = (r.resolve name).value := by
  obtain ⟨e, here, rfl⟩ := Option.map_eq_some_iff.mp named
  have byPlace : r.catalog.sought (.place place) = some e := here
  have byName : r.catalog.sought (.name e.name) = some e := Catalog.findOfMember (List.mem_of_getElem? here)
  exact (askFound byPlace).trans (askFound byName).symm

theorem placeBeyond (beyond : r.catalog.size ≤ place) :
    (r.resolveAt place).value = (r, .error (.unknownDialect ("#" ++ toString place))) :=
  askNothing (q := .place place) (List.getElem?_eq_none beyond)

end Resolver

theorem indexConsistent (options : Options) (ds : List Dialect) :
    let draft := Draft.attempt { options } ds
    let accepted := Draft.accepted { options } ds
    let names := accepted.map Dialect.name
    let x := Index.attempt ∅ ds
    let c := draft.finish.value.catalog
    (c.names = names ∧ names.Nodup ∧ c.size = names.length) ∧
    (∀ name place, c.place? name = some place ↔ c.nameAt? place = some name) ∧
    (∀ name, (∃ place, c.place? name = some place) ↔ name ∈ names) ∧
    (∀ place, (∃ name, c.nameAt? place = some name) ↔ place < c.size) ∧
    (x.nodes = c.entries.map fun e => ⟨e.name, c.link e⟩) ∧
    List.Forall₂ (fun d node => node.name = d.name ∧ x.Says d.parent? node.link) accepted x.nodes ∧
    (∀ d ∈ accepted, c.parentOf? d.name = d.parent?) ∧
    ((∀ name : String, x.places[name]? = c.place? name) ∧ (∀ place, x.nameAt? place = c.nameAt? place) ∧
      ∀ name, x.parentOf? name = c.parentOf? name) ∧
    ∀ calls place,
      let r := draft.finish.value.after calls
      (∀ name, c.nameAt? place = some name → (r.resolveAt place).value = (r.resolve name).value) ∧
      (c.size ≤ place → (r.resolveAt place).value = (r, .error (.unknownDialect ("#" ++ toString place)))) := by
  intro draft accepted names x c
  have sound : draft.finish.value.Sound := (Resolver.finishSound draft).1
  have kept : c = draft.catalog := (Resolver.finishSound draft).2
  have step : x.InStep c := by
    rw [kept]
    exact Index.attemptInStep (Index.emptyInStep options) ds
  have listed : c.names = names := by
    rw [kept, Draft.attemptNames]
    rfl
  have row : List.Forall₂ Accepts accepted c.entries := by
    obtain ⟨es, each, whole⟩ := Draft.attemptEntries { options } ds
    rw [kept, whole]
    exact each
  refine ⟨⟨listed, listed ▸ c.distinct, by rw [← listed, Catalog.names, List.length_map, Catalog.size]⟩,
    fun _ _ => Catalog.placeIff, fun name => ?_, fun _ => Catalog.nameWithin, Index.nodesInStep step,
    Index.nodesSay step row, fun d => Catalog.parentWritten row,
    ⟨step.places, Index.nameInStep step, Index.parentInStep step⟩, fun calls place => ?_⟩
  · rw [Catalog.placeHas, Catalog.has, List.contains_iff_mem, listed]
  · intro r
    have same : r.catalog = c := (Resolver.afterSound sound calls).2
    exact ⟨fun name named => Resolver.placeAsName (same ▸ named), fun beyond => Resolver.placeBeyond (same ▸ beyond)⟩

def orphan : Dialect := .derived "orphan" "nowhere"

theorem indexConsistentOrphan :
    let ds := [Draft.torn, Draft.mended, Draft.solid, Draft.mended, orphan]
    let r := (Draft.attempt {} ds).finish.value.after [.all]
    let c := (Draft.attempt {} ds).finish.value.catalog
    c.names = ["torn", "solid", "orphan"] ∧ c.nameAt? 1 = some "solid" ∧
    (Index.attempt ∅ ds).nodes.map Node.link = [.known 1, .root, .missing "nowhere"] ∧
    c.parentOf? "orphan" = some "nowhere" ∧ (r.resolveAt 1).value = (r.resolve "solid").value ∧
    (r.resolveAt 3).value = (r, .error (.unknownDialect "#3")) := by
  intro ds r c
  obtain ⟨⟨listed, _, size⟩, places, _, _, nodes, _, parents, _, asked⟩ := indexConsistent {} ds
  have accepted : Draft.accepted {} ds = [Draft.mended, Draft.solid, orphan] := by decide +kernel
  rw [accepted] at listed size parents
  have second : c.nameAt? 1 = some "solid" := (places "solid" 1).mp (by decide +kernel)
  refine ⟨listed, second, ?_, parents orphan (by simp), (asked [.all] 1).1 _ second, (asked [.all] 3).2 (Nat.le_of_eq size)⟩
  rw [nodes]
  decide +kernel

end SqlLexicon
