import SqlLexicon.Proofs.Resolver.Ledger

/-! What resolving tells, line by line. A dialect that is not at hand tells the folding of its row from the root down;
dialects at hand are passed over, and a failure ends the row. So the lines of a session are hits, openings of spans, and
between them foldings, each told as a whole, of a dialect onto what the dialects above it fold to. -/
namespace SqlLexicon

def Event.framing : Event → Bool
  | .resolveOpened _ | .resolveAllOpened _ | .cacheHit _ => true
  | _ => false

namespace Resolver
open Catalog

def journal (r : Resolver) (v : Vocabulary) : List Entry → List Event
  | [] => []
  | e :: rest =>
    (if r.isResolved e.name then [] else (e.fold r.options v).events) ++
      match v.follow e.placed with
      | .error _ => []
      | .ok next => r.journal next rest

inductive Source (c : Catalog) (options : Options) : Event → Prop where
  | opened (name : String) : Source c options (.resolveOpened name)
  | openedAll (dialects : Nat) : Source c options (.resolveAllOpened dialects)
  | hit (dialect : String) : Source c options (.cacheHit dialect)
  | folding {e : Entry} {above : List Entry} {v : Vocabulary} {event : Event} (member : e ∈ c.entries)
      (line : c.Lineage e above) (inherited : Vocabulary.followRow ∅ above = .ok v)
      (told : event ∈ (e.fold options v).events) : Source c options event

/- The lines of a session in the order in which they are told, cut into foldings of dialects onto what the dialects above
them fold to, and lines that stand apart. -/
inductive Episodes (c : Catalog) (options : Options) (apart : Event → Bool) : List Event → Prop where
  | done : Episodes c options apart []
  | line {event : Event} {events : List Event} (alone : apart event = true) (later : Episodes c options apart events) :
      Episodes c options apart (event :: events)
  | folding {e : Entry} {above : List Entry} {v : Vocabulary} {events : List Event} (member : e ∈ c.entries)
      (line : c.Lineage e above) (inherited : Vocabulary.followRow ∅ above = .ok v)
      (later : Episodes c options apart events) : Episodes c options apart ((e.fold options v).events ++ events)

variable {r next : Resolver} {q : Request} {e : Entry} {v : Vocabulary} {above rest row : List Entry} {event : Event}

theorem obtainEvents (r : Resolver) (e : Entry) (v : Vocabulary) :
    (r.obtain e v).events = if r.isResolved e.name then [] else (e.fold r.options v).events := by
  cases cached : r.cache[e.name]? with
  | some handle => rw [obtainHit cached, if_pos (resolvedIff.mpr ⟨handle, cached⟩)]
  | none =>
    have absent := missIff.mpr cached
    cases folded : (e.fold r.options v).value with
    | error fault => simp [obtainFails cached folded, absent]
    | ok lexicon => simp [obtainFolds cached folded, absent]

theorem journalSame (options : next.options = r.options)
    (held : ∀ e ∈ row, next.isResolved e.name = r.isResolved e.name) (v : Vocabulary) :
    next.journal v row = r.journal v row := by
  induction row generalizing v with
  | nil => rfl
  | cons e rest ih =>
    have here := held e List.mem_cons_self
    have below := ih fun x inside => held x (List.mem_cons_of_mem e inside)
    simp only [journal, here, options, below]

theorem descendJournal (sound : r.Sound) (member : e ∈ r.catalog.entries)
    (line : r.catalog.Lineage e (above ++ rest)) (inherited : Vocabulary.followRow ∅ above = .ok v)
    (upper : ∀ a ∈ above, r.isResolved a.name) : (r.descend v e rest).events = r.journal v (rest ++ [e]) := by
  induction rest generalizing r above v with
  | nil =>
    have last : r.journal v [e] = if r.isResolved e.name then [] else (e.fold r.options v).events := by
      cases followed : v.follow e.placed <;> simp [journal, followed]
    exact (obtainEvents r e v).trans last.symm
  | cons a rest ih =>
    have inside : a ∈ r.catalog.entries := lineageRegistered line a (by simp)
    have first := obtainServes sound inside (lineageBefore line) inherited upper
    have answered := first.answer.trans (meaningLast inside (lineageBefore line) inherited)
    have ledger := (obtainBooked r a v).ledger
    cases turn : (r.obtain a v).value with
    | mk next answer =>
      rw [turn] at first answered ledger
      cases followed : v.follow a.placed with
      | error fault =>
        rw [followed] at answered
        cases errorOfMap answered
        rw [descendStops turn, obtainEvents]
        simp [journal, followed]
      | ok u =>
        rw [followed] at answered
        obtain ⟨handle, rfl, frozen⟩ := okOfMap answered
        have inherits : handle.lexicon.vocabulary = u := by rw [frozen, Lexicon.freeze]
        have folded := (Vocabulary.followRowSnoc inherited).trans followed
        have gains := first.grows.gains
        simp only [Vocabulary.foldable, followed, List.map_cons, List.map_nil, List.mem_singleton] at gains
        have upper' : ∀ x ∈ above ++ [a], next.isResolved x.name := by
          have old := fun x inside => (gains x.name).mpr (.inl (upper x inside))
          exact List.forall_mem_append.mpr ⟨old, by simp [gains]⟩
        have same : next.catalog = r.catalog := ledger.catalog
        have later := ih first.sound (same ▸ member) (by simpa [same] using line) folded upper'
        -- the names of a row are distinct, so what `a` adds is not asked for again
        have apart : ∀ x ∈ rest ++ [e], next.isResolved x.name = r.isResolved x.name := by
          intro x below
          have names := lineageNames line member
          have other : x.name ≠ a.name := by
            simp only [List.append_assoc, List.cons_append, List.map_append, List.map_cons] at names
            have tail := (List.nodup_cons.mp (List.nodup_append.mp names).2.1).1
            intro equal
            exact tail (equal ▸ by simpa using List.mem_map_of_mem (f := Entry.name) below)
          rw [Bool.eq_iff_iff, gains, or_iff_left other]
        rw [descendGoes turn, inherits, later, obtainEvents, journalSame ledger.options apart]
        simp [journal, followed]

theorem resolveEntryJournal (sound : r.Sound) (member : e ∈ r.catalog.entries) (absent : r.cache[e.name]? = none)
    (line : r.catalog.Lineage e above) : (r.resolveEntry e).events = r.journal ∅ (above ++ [e]) := by
  have whole : r.catalog.Lineage e ([] ++ above) := line
  rw [resolveEntryRooted absent ((ancestorsOk member).mpr line)]
  exact descendJournal sound member whole rfl (by simp)

section Cutting

variable {c : Catalog} {options : Options} {apart other : Event → Bool} {events more : List Event}

theorem episodesAppend (first : Episodes c options apart events) (second : Episodes c options apart more) :
    Episodes c options apart (events ++ more) := by
  induction first with
  | done => exact second
  | line alone _ ih => exact .line alone ih
  | folding member line inherited _ ih =>
    rw [List.append_assoc]
    exact .folding member line inherited ih

theorem episodesAlone (alone : ∀ event ∈ events, apart event = true) : Episodes c options apart events := by
  induction events with
  | nil => exact .done
  | cons event rest ih =>
    obtain ⟨here, below⟩ := List.forall_mem_cons.mp alone
    exact .line here (ih below)

theorem episodesWeaken (weaker : ∀ event, apart event = true → other event = true)
    (episodes : Episodes c options apart events) : Episodes c options other events := by
  induction episodes with
  | done => exact .done
  | line alone _ ih => exact .line (weaker _ alone) ih
  | folding member line inherited _ ih => exact .folding member line inherited ih

theorem framingSource (framing : event.framing = true) : Source c options event := by
  cases event with
  | resolveOpened name => exact .opened name
  | resolveAllOpened dialects => exact .openedAll dialects
  | cacheHit dialect => exact .hit dialect
  | _ => cases framing

theorem episodesTold (episodes : Episodes c options apart events) (told : event ∈ events) :
    apart event = true ∨ Source c options event := by
  induction episodes with
  | done => simp at told
  | line alone _ ih =>
    rcases List.mem_cons.mp told with rfl | later
    · exact .inl alone
    · exact ih later
  | folding member line inherited _ ih =>
    rcases List.mem_append.mp told with here | later
    · exact .inr (.folding member line inherited here)
    · exact ih later

theorem turnEpisodes (r : Resolver) (member : e ∈ r.catalog.entries) (line : r.catalog.Lineage e above)
    (inherited : Vocabulary.followRow ∅ above = .ok v) :
    Episodes r.catalog r.options apart (if r.isResolved e.name then [] else (e.fold r.options v).events) := by
  split
  · exact .done
  · rw [← List.append_nil (e.fold r.options v).events]
    exact .folding member line inherited .done

theorem journalEpisodes (line : r.catalog.Lineage e (above ++ rest)) (member : e ∈ r.catalog.entries)
    (inherited : Vocabulary.followRow ∅ above = .ok v) :
    Episodes r.catalog r.options apart (r.journal v (rest ++ [e])) := by
  induction rest generalizing above v with
  | nil =>
    refine episodesAppend (turnEpisodes r member (by simpa using line) inherited) ?_
    cases v.follow e.placed <;> exact .done
  | cons a rest ih =>
    refine episodesAppend (turnEpisodes r (lineageRegistered line a (by simp)) (lineageBefore line) inherited) ?_
    cases followed : v.follow a.placed with
    | error fault => exact .done
    | ok u => exact ih (by simpa using line) ((Vocabulary.followRowSnoc inherited).trans followed)

theorem resolveEntryEpisodes (sound : r.Sound) (member : e ∈ r.catalog.entries) :
    Episodes r.catalog r.options Event.framing (r.resolveEntry e).events := by
  cases cached : r.cache[e.name]? with
  | some handle =>
    rw [resolveEntryHit cached]
    exact .line rfl .done
  | none =>
    cases answered : r.catalog.ancestors e with
    | error fault =>
      rw [resolveEntryUnrooted cached answered]
      exact .done
    | ok above =>
      have line : r.catalog.Lineage e ([] ++ above) := lineageOfOk member answered
      rw [resolveEntryJournal sound member cached line]
      exact journalEpisodes line member rfl

theorem resolveEachEpisodes (sound : r.Sound) (members : ∀ e ∈ row, e ∈ r.catalog.entries) :
    Episodes r.catalog r.options Event.framing (r.resolveEach row).events := by
  induction row generalizing r with
  | nil => exact .done
  | cons e rest ih =>
    obtain ⟨inside, below⟩ := List.forall_mem_cons.mp members
    have ledger := (resolveEntryBooked r e).ledger
    have later := ih (resolveEntryServes sound inside).sound (by rwa [ledger.catalog])
    rw [ledger.catalog, ledger.options] at later
    rw [resolveEachCons]
    exact episodesAppend (resolveEntryEpisodes sound inside) later

theorem openingEpisodes (q : Request) : Episodes c options Event.framing q.opening := by
  cases q with
  | name text => exact .line rfl .done
  | place index => exact .done

theorem actEpisodes (sound : r.Sound) (call : Call) :
    Episodes r.catalog r.options Event.framing (r.act call).events := by
  cases call with
  | ask q =>
    cases found : r.catalog.sought q with
    | none => simpa [act, askUnknown found] using openingEpisodes q
    | some e =>
      simpa [act, askTurn found] using
        episodesAppend (openingEpisodes q) (resolveEntryEpisodes sound (soughtMember found))
  | all =>
    have opened : Episodes r.catalog r.options Event.framing (.resolveAllOpened r.catalog.size :: _) :=
      .line rfl (resolveEachEpisodes sound fun _ member => member)
    simpa [act, resolveAllTurn] using opened
  | invalidate => exact .done

theorem sessionEpisodes (sound : r.Sound) (calls : List Call) :
    Episodes r.catalog r.options Event.framing (r.session calls).events := by
  induction calls generalizing r with
  | nil => exact .done
  | cons call rest ih =>
    obtain ⟨sound', same⟩ := performSound sound call
    rw [← actPerforms] at sound' same
    have later := ih sound'
    rw [same, actOptions] at later
    rw [sessionCons]
    exact episodesAppend (actEpisodes sound call) later

end Cutting

theorem actSource (sound : r.Sound) (call : Call) (told : event ∈ (r.act call).events) :
    Source r.catalog r.options event := (episodesTold (actEpisodes sound call) told).elim framingSource id

end Resolver

end SqlLexicon
