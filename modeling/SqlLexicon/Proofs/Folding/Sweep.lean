import SqlLexicon.Proofs.Folding.Absences

/-! A patch in one sweep over its touches, which counts as it goes and warns of an absent removal at its turn. A folding
takes the warnings in a pass of their own, and leaves and tells the same. -/
namespace SqlLexicon

def Vocabulary.sweep (options : Options) (dialect patch : String) (v : Vocabulary) (totals : Totals) :
    List Touch → Logged (Except Word (Vocabulary × Totals))
  | [] => pure (.ok (v, totals))
  | .drop word :: rest =>
    if word ∈ v then
      sweep options dialect patch (v.erase word) { totals with removed := totals.removed + 1 } rest
    else do
      if options.reportAbsentRemovals then Logged.emit (.absentRemoval dialect patch word)
      sweep options dialect patch v { totals with absentRemovals := totals.absentRemovals + 1 } rest
  | .move word category :: rest =>
    if word ∈ v then
      sweep options dialect patch (v.insert word category) { totals with redesignated := totals.redesignated + 1 } rest
    else pure (.error word)
  | .put word category :: rest =>
    match v[word]? with
    | none => sweep options dialect patch (v.insert word category) { totals with added := totals.added + 1 } rest
    | some previous =>
      if previous = category then sweep options dialect patch (v.insert word category) totals rest
      else sweep options dialect patch (v.insert word category) { totals with overridden := totals.overridden + 1 } rest

def Patch.sweep (options : Options) (dialect : String) (p : Patch Word) (inherited : Vocabulary) :
    Logged (Except Fault (Vocabulary × Totals)) := do
  Logged.emit (.patchOpened dialect p.name)
  match ← inherited.sweep options dialect p.name 0 p.touches with
  | .error word => pure (.error (.unknownWord dialect p.name .redesignate word.text))
  | .ok (v, totals) =>
    Logged.emit (.patchFolded dialect p.name totals)
    pure (.ok (v, totals))

section Sweep

variable {options : Options} {dialect patch : String} {v next : Vocabulary} {t : Touch} {ts : List Touch}

theorem countedOnward (touched : v.touch? t = some next) (totals : Totals) :
    (v.touchAll (t :: ts)).map (fun r => (r.1, totals + r.2)) =
      (next.touchAll ts).map fun r => (r.1, totals + v.tally t + r.2) := by
  rw [Vocabulary.touchAll, touched]
  cases below : next.touchAll ts with
  | error word => simp [below, Except.map]
  | ok last => simp [below, Except.map, Totals.addAssoc]

theorem sweepValue (ts : List Touch) (v : Vocabulary) (totals : Totals) :
    (v.sweep options dialect patch totals ts).value = (v.touchAll ts).map fun r => (r.1, totals + r.2) := by
  induction ts generalizing v totals with
  | nil => rfl
  | cons t rest ih =>
    cases t with
    | drop word =>
      rw [countedOnward rfl, Vocabulary.sweep, Vocabulary.tally]
      by_cases held : word ∈ v
      · rw [if_pos held, if_pos held]
        exact ih ..
      · rw [if_neg held, if_neg held, Vocabulary.eraseAbsent held]
        cases reports : options.reportAbsentRemovals <;> exact ih ..
    | move word category =>
      rw [Vocabulary.sweep]
      by_cases held : word ∈ v
      · have touched : v.touch? (.move word category) = some (v.insert word category) := if_pos held
        rw [countedOnward touched, if_pos held]
        exact ih ..
      · simp [Vocabulary.touchAll, Vocabulary.touch?, held, Except.map, Touch.word]
    | put word category =>
      rw [countedOnward rfl, Vocabulary.sweep, Vocabulary.tally]
      cases held : v[word]? with
      | none => exact ih ..
      | some previous =>
        by_cases same : previous = category
        · simp only [if_pos same]
          exact ih ..
        · simp only [if_neg same]
          exact ih ..

theorem sweepSilent (others : ∀ t ∈ ts, ∀ word, t ≠ .drop word) (v : Vocabulary) (totals : Totals) :
    (v.sweep options dialect patch totals ts).events = [] := by
  induction ts generalizing v totals with
  | nil => rfl
  | cons t rest ih =>
    obtain ⟨here, later⟩ := List.forall_mem_cons.mp others
    cases t with
    | drop word => exact absurd rfl (here word)
    | move word category =>
      rw [Vocabulary.sweep]
      split
      · exact ih later ..
      · rfl
    | put word category =>
      rw [Vocabulary.sweep]
      split
      · exact ih later ..
      · split <;> exact ih later ..

theorem sweepWarns (others : ∀ t ∈ ts, ∀ word, t ≠ .drop word) (words : List Word) (v : Vocabulary) (totals : Totals) :
    (v.sweep options dialect patch totals (words.map .drop ++ ts)).events =
      if options.reportAbsentRemovals then (v.absentDrops words).map (.absentRemoval dialect patch) else [] := by
  induction words generalizing v totals with
  | nil => simp [sweepSilent others, Vocabulary.absentDrops]
  | cons word rest ih =>
    rw [List.map_cons, List.cons_append, Vocabulary.sweep, Vocabulary.absentDrops]
    by_cases held : word ∈ v
    · rw [if_pos held, if_pos held, ih]
    · rw [if_neg held, if_neg held]
      cases reports : options.reportAbsentRemovals <;> simp [reports, ih]

theorem sweepTouches (options : Options) (dialect : String) (p : Patch Word) (v : Vocabulary) :
    v.sweep options dialect p.name 0 p.touches = ⟨p.apply v, options.warnings dialect p v⟩ := by
  have value : (v.sweep options dialect p.name 0 p.touches).value = p.apply v := by
    rw [sweepValue, Patch.apply]
    cases v.touchAll p.touches with
    | error word => rfl
    | ok last => simp [Except.map, Totals.zeroAdd]
  have events : (v.sweep options dialect p.name 0 p.touches).events = options.warnings dialect p v := by
    rw [Patch.touches, List.append_assoc, sweepWarns fun _ => Vocabulary.laterNoDrop, Options.warnings]
  rw [← value, ← events]

theorem sweepFolds (options : Options) (dialect : String) (p : Patch Word) (v : Vocabulary) :
    p.sweep options dialect v = p.fold options dialect v := by
  rw [Patch.sweep, sweepTouches, Patch.fold]
  cases p.apply v <;> simp [bind, pure, Logged.emit]

end Sweep

end SqlLexicon
