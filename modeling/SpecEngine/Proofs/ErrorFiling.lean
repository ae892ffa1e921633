/-
# SpecEngine.Proofs.ErrorFiling -- merging build errors, and recording them in one go

Errors are recorded one by one, and whole logs are merged into one another, nested to any depth.
However they came together, the log holds every error that was recorded, once and in the order of
recording, so to merge a second log into a first is to record both on one.

A log answers a lookup by going through all of it. The answers are those of a filing that keeps, for
each subject, one entry with its errors, and in which the entries have no order: recording extends
the entry of a subject or begins one, and merging extends entry by entry. A log and a filing that
keep the same errors under every subject do so after any operation, whatever order the entries are
visited in. No entry is ever begun without an error, so a filing has entries exactly if there are
errors. To list all errors, a log goes through its subjects, and a filing through its entries: both
meet every error once.
-/
import Mathlib.Data.List.AList
import SpecEngine.Item.BuildErrors

namespace SpecEngine.Item.BuildErrors

/-! ## Histories -/

/-- An operation on build errors: one error is recorded, or build errors with a history of their own
are merged in. -/
inductive Op where
  | add (subject : Subject) (e : ParseError)
  | merge (others : List Op)

mutual
/-- Carries out one operation. -/
def Op.apply : BuildErrors → Op → BuildErrors
  | errors, .add subject e => errors.add subject e
  | errors, .merge others => errors.merge (replay {} others)
/-- Carries out operations one after the other. -/
def replay : BuildErrors → List Op → BuildErrors
  | errors, [] => errors
  | errors, op :: ops => replay (op.apply errors) ops
end

mutual
/-- The errors that an operation records, with their subjects. -/
def Op.recorded : Op → List (Subject × ParseError)
  | .add subject e => [(subject, e)]
  | .merge others => recordedBy others
/-- The errors that operations record, with their subjects, in the order in which they do. -/
def recordedBy : List Op → List (Subject × ParseError)
  | [] => []
  | op :: ops => op.recorded ++ recordedBy ops
end

mutual

theorem Op.apply_log : ∀ (errors : BuildErrors) (op : Op),
    (op.apply errors).log = errors.log ++ op.recorded
  | errors, .add subject e => by rw [Op.apply, add, Op.recorded]
  | errors, .merge others => by
    rw [Op.apply, merge, replay_log {} others, Op.recorded]
    rfl

/-- Operations put what they record behind what was there. -/
theorem replay_log : ∀ (errors : BuildErrors) (ops : List Op),
    (replay errors ops).log = errors.log ++ recordedBy ops
  | errors, [] => by rw [replay, recordedBy, List.append_nil]
  | errors, op :: ops => by
    rw [replay, replay_log _ ops, Op.apply_log errors op, recordedBy, List.append_assoc]

end

theorem recordedBy_append (ops ops' : List Op) :
    recordedBy (ops ++ ops') = recordedBy ops ++ recordedBy ops' := by
  induction ops with
  | nil => rw [recordedBy, List.nil_append, List.nil_append]
  | cons op ops ih => rw [List.cons_append, recordedBy, ih, recordedBy, List.append_assoc]

/-- The operations that build up a log may be carried out on the log that it is merged into. -/
theorem replay_append (errors : BuildErrors) (ops ops' : List Op) :
    replay errors (ops ++ ops') = (replay errors ops).merge (replay {} ops') := by
  rw [mk.injEq, replay_log, recordedBy_append, merge, replay_log, replay_log {} ops',
    List.append_assoc]
  rfl

/-! ## Answers -/

/-- The errors among those recorded that are filed under a subject. -/
def filedUnder (subject : Subject) (entries : List (Subject × ParseError)) : List ParseError :=
  entries.filterMap fun entry => if entry.1 = subject then some entry.2 else none

/-- A list that holds something. -/
def listed (es : List ParseError) : Option (List ParseError) := if es = [] then none else some es

theorem filedUnder_append (subject : Subject) (entries entries' : List (Subject × ParseError)) :
    filedUnder subject (entries ++ entries') =
      filedUnder subject entries ++ filedUnder subject entries' := List.filterMap_append

theorem under_eq (errors : BuildErrors) (subject : Subject) :
    errors.under subject = filedUnder subject errors.log := by
  obtain ⟨log⟩ := errors
  rw [under, filedUnder]
  induction log with
  | nil => rfl
  | cons entry log ih =>
    by_cases hsame : entry.1 = subject
    · simp [hsame, ih]
    · simp [hsame, ih]

theorem ofSpec_eq (errors : BuildErrors) (spec : Specification) :
    errors.ofSpec spec = listed (filedUnder (.spec spec.fileName) errors.log) := by
  rw [ofSpec, under_eq, listed]
  split
  next hnone => rw [if_pos hnone]
  next hsome => rw [if_neg hsome]

theorem ofScenario_eq (errors : BuildErrors) (spec : Specification) (sc : Scenario) :
    errors.ofScenario spec sc =
      listed (filedUnder (.scenario spec.fileName sc.line) errors.log) := by
  rw [ofScenario, under_eq, listed]
  split
  next hnone => rw [if_pos hnone]
  next hsome => rw [if_neg hsome]

theorem hasErrors_iff (errors : BuildErrors) : errors.hasErrors = true ↔ errors.log ≠ [] := by
  rw [hasErrors, Bool.not_eq_true', List.isEmpty_eq_false_iff]

/-! ## Filings -/

/-- Errors under their subjects, with one entry for each subject. -/
abbrev Filing := AList fun _ : Subject => List ParseError

namespace Filing

/-- Puts errors behind those of a subject, or begins an entry with them. -/
def extend (f : Filing) (subject : Subject) (es : List ParseError) : Filing :=
  f.insert subject ((f.lookup subject).getD [] ++ es)

/-- Extends a filing by the entries of another, in the order in which they are visited. -/
def extendAll (f visited : Filing) : Filing :=
  visited.entries.foldl (fun f entry => f.extend entry.1 entry.2) f

/-- All errors, entry by entry. -/
def errors (f : Filing) : List ParseError := f.entries.flatMap (·.2)

variable {f g visited : Filing} {subject : Subject}

theorem lookup_extend (f : Filing) (subject subject' : Subject) (es : List ParseError) :
    (f.extend subject es).lookup subject' =
      if subject' = subject then some ((f.lookup subject).getD [] ++ es)
      else f.lookup subject' := by
  split
  next hsame => rw [hsame, extend, AList.lookup_insert]
  next hother => rw [extend, AList.lookup_insert_ne hother]

theorem errors_insert (f : Filing) (subject : Subject) (es : List ParseError) :
    errors (f.insert subject es) = es ++ errors (f.erase subject) := by
  rw [errors, AList.entries_insert, List.flatMap_cons]
  rfl

/-- The errors of a subject stand beside all others. -/
theorem errors_perm (f : Filing) (subject : Subject) :
    f.errors.Perm ((f.lookup subject).getD [] ++ errors (f.erase subject)) := by
  by_cases hmem : subject ∈ f.entries.keys
  · obtain ⟨es, before, after, -, hentries, herase⟩ := List.exists_of_kerase hmem
    have hlookup : f.lookup subject = some es := by
      rw [← Option.mem_def, AList.mem_lookup_iff, hentries]
      simp
    have hothers : errors (f.erase subject) = before.flatMap (·.2) ++ after.flatMap (·.2) := by
      show (f.entries.kerase subject).flatMap (·.2) = _
      rw [herase, List.flatMap_append]
    rw [hlookup, hothers, errors, hentries, List.flatMap_append, List.flatMap_cons]
    exact List.perm_append_comm_assoc _ _ _
  · have hothers : errors (f.erase subject) = f.errors := by
      show (f.entries.kerase subject).flatMap (·.2) = _
      rw [List.kerase_of_notMem_keys hmem, errors]
    rw [AList.lookup_eq_none.mpr hmem, hothers]
    exact .refl _

theorem errors_extend (f : Filing) (subject : Subject) (es : List ParseError) :
    (f.extend subject es).errors.Perm (f.errors ++ es) := by
  have hall := (f.errors_perm subject).append_right es
  rw [extend, errors_insert, List.append_assoc]
  rw [List.append_assoc] at hall
  exact .trans (.append_left _ List.perm_append_comm) hall.symm

theorem extendAll_insert (f : Filing) (h : subject ∉ visited) (es : List ParseError) :
    f.extendAll (visited.insert subject es) = (f.extend subject es).extendAll visited := by
  rw [extendAll, AList.entries_insert_of_notMem h, List.foldl_cons, extendAll]

/-- What is kept under a subject comes first, then what the other filing keeps under it. -/
theorem lookup_extendAll (f visited : Filing) (subject : Subject) :
    (f.extendAll visited).lookup subject =
      match visited.lookup subject with
      | none => f.lookup subject
      | some es => some ((f.lookup subject).getD [] ++ es) := by
  induction visited using AList.insertRec generalizing f with
  | H0 => rfl
  | IH subject' es visited hnew ih =>
    rw [extendAll_insert f hnew, ih, lookup_extend]
    by_cases hsame : subject = subject'
    · subst hsame
      rw [AList.lookup_insert, AList.lookup_eq_none.mpr hnew, if_pos rfl]
    · rw [AList.lookup_insert_ne hsame, if_neg hsame]

theorem errors_extendAll (f visited : Filing) :
    (f.extendAll visited).errors.Perm (f.errors ++ visited.errors) := by
  rw [extendAll, errors.eq_def visited]
  generalize visited.entries = entries
  induction entries generalizing f with
  | nil =>
    rw [List.foldl_nil, List.flatMap_nil, List.append_nil]
  | cons entry entries ih =>
    rw [List.foldl_cons, List.flatMap_cons, ← List.append_assoc]
    exact .trans (ih _) (.append_right _ (f.errors_extend entry.1 entry.2))

end Filing

/-- Operations carried out on a filing. The entries of a filing that is merged in are visited in any
order. -/
inductive Filed : Filing → List Op → Filing → Prop
  | nil {f} : Filed f [] f
  | add {f subject e ops g} : Filed (f.extend subject [e]) ops g →
      Filed f (.add subject e :: ops) g
  | merge {f others h visited ops g} : Filed ∅ others h → h.entries.Perm visited.entries →
      Filed (f.extendAll visited) ops g → Filed f (.merge others :: ops) g

theorem exists_filed : ∀ (ops : List Op) (f : Filing), ∃ g, Filed f ops g
  | [], f => ⟨f, .nil⟩
  | .add subject e :: ops, f => by
    obtain ⟨g, hrest⟩ := exists_filed ops (f.extend subject [e])
    exact ⟨g, .add hrest⟩
  | .merge others :: ops, f => by
    obtain ⟨h, hothers⟩ := exists_filed others ∅
    obtain ⟨g, hrest⟩ := exists_filed ops (f.extendAll h)
    exact ⟨g, .merge hothers (.refl _) hrest⟩

/-- The filing keeps the errors of the log: under every subject the same ones, and no others. -/
structure Filing.Keeps (f : Filing) (log : List (Subject × ParseError)) : Prop where
  lookup : ∀ subject, f.lookup subject = listed (filedUnder subject log)
  errors : f.errors.Perm (log.map (·.2))

theorem listed_append {es es' : List ParseError} (h : es' ≠ []) :
    listed (es ++ es') = some ((listed es).getD [] ++ es') := by
  have hboth : es ++ es' ≠ [] := List.append_ne_nil_of_right_ne_nil es h
  rw [listed, if_neg hboth, listed]
  split
  next hnone => rw [hnone, Option.getD_none]
  next => rw [Option.getD_some]

namespace Filing.Keeps

variable {f g : Filing} {log log' : List (Subject × ParseError)}

theorem empty : Filing.Keeps ∅ [] := ⟨fun _ => rfl, .refl _⟩

theorem visited (h : Filing.Keeps f log) (hperm : f.entries.Perm g.entries) :
    Filing.Keeps g log where
  lookup subject := (AList.perm_lookup hperm).symm.trans (h.lookup subject)
  errors := (hperm.flatMap_right _).symm.trans h.errors

/-- Extended by another filing, a filing keeps the errors of both. -/
theorem extendAll (h : Filing.Keeps f log) (h' : Filing.Keeps g log') :
    Filing.Keeps (f.extendAll g) (log ++ log') where
  lookup subject := by
    rw [lookup_extendAll, h.lookup, h'.lookup, filedUnder_append]
    by_cases hnone : filedUnder subject log' = []
    · rw [hnone, List.append_nil, listed, if_pos rfl]
    · rw [listed_append hnone, listed.eq_def (filedUnder subject log'), if_neg hnone]
  errors := by
    rw [List.map_append]
    exact (errors_extendAll f g).trans (h.errors.append h'.errors)

theorem single (subject : Subject) (e : ParseError) :
    Filing.Keeps (AList.singleton subject [e]) [(subject, e)] where
  lookup subject' := by
    rw [← AList.insert_empty, filedUnder, List.filterMap_cons]
    by_cases hsame : subject = subject'
    · rw [if_pos hsame, ← hsame, AList.lookup_insert]
      rfl
    · rw [if_neg hsame, AList.lookup_insert_ne (Ne.symm hsame)]
      rfl
  errors := .refl _

theorem extend (h : Filing.Keeps f log) (subject : Subject) (e : ParseError) :
    Filing.Keeps (f.extend subject [e]) (log ++ [(subject, e)]) :=
  h.extendAll (single subject e)

/-- A filing that keeps the errors of a log keeps them after any operations. -/
theorem filed {ops : List Op} (h : Filing.Keeps f log) (hfiled : Filed f ops g) :
    Filing.Keeps g (log ++ recordedBy ops) := by
  induction hfiled generalizing log with
  | nil => rwa [recordedBy, List.append_nil]
  | add _ ih =>
    rw [recordedBy, Op.recorded, ← List.append_assoc]
    exact ih (h.extend _ _)
  | merge _ hperm _ ihothers ih =>
    rw [recordedBy, Op.recorded, ← List.append_assoc]
    exact ih (h.extendAll ((ihothers empty).visited hperm))

theorem ofSpec (h : Filing.Keeps f log) (spec : Specification) :
    f.lookup (.spec spec.fileName) = (BuildErrors.mk log).ofSpec spec := by
  rw [h.lookup, ofSpec_eq]

theorem ofScenario (h : Filing.Keeps f log) (spec : Specification) (sc : Scenario) :
    f.lookup (.scenario spec.fileName sc.line) = (BuildErrors.mk log).ofScenario spec sc := by
  rw [h.lookup, ofScenario_eq]

/-- A filing has entries exactly if there are errors. -/
theorem entries_eq_nil_iff (h : Filing.Keeps f log) : f.entries = [] ↔ log = [] := by
  constructor
  · intro hentries
    have hnone : log.map (·.2) = [] := by
      have herrors := h.errors
      rw [Filing.errors, hentries, List.flatMap_nil] at herrors
      exact herrors.nil_eq.symm
    exact List.map_eq_nil_iff.mp hnone
  · rintro rfl
    rw [List.eq_nil_iff_forall_not_mem]
    rintro ⟨subject, es⟩ hentry
    have hfound : f.lookup subject = some es := AList.mem_lookup_iff.mpr hentry
    rw [h.lookup] at hfound
    cases hfound

end Filing.Keeps

/-! ## The list of all errors -/

/-- No subject is gone through twice. -/
theorem nodup_eraseDups (subjects : List Subject) : subjects.eraseDups.Nodup := by
  -- the subjects that differ from the first are fewer, so the induction is on their number
  induction hn : subjects.length using Nat.strong_induction_on generalizing subjects with
  | _ n ih =>
    cases subjects with
    | nil => exact List.nodup_nil
    | cons subject rest =>
      rw [List.eraseDups_cons, List.nodup_cons, List.mem_eraseDups]
      refine ⟨by simp, ih _ ?_ _ rfl⟩
      have hle := List.length_filter_le (fun other => !other == subject) rest
      rw [List.length_cons] at hn
      omega

/-- Entries that are gone through subject by subject are all met, each of them once. -/
theorem grouped_perm {subjects : List Subject} (hnodup : subjects.Nodup)
    (log : List (Subject × ParseError)) (hall : ∀ entry ∈ log, entry.1 ∈ subjects) :
    (subjects.flatMap fun subject => log.filter (·.1 == subject)).Perm log := by
  induction subjects generalizing log with
  | nil =>
    obtain rfl := List.eq_nil_iff_forall_not_mem.mpr fun entry h => nomatch hall entry h
    exact .nil
  | cons subject rest ih =>
    obtain ⟨hnew, hrest⟩ := List.nodup_cons.mp hnodup
    -- the other subjects find the same entries when those of the first are taken away
    have hothers : (rest.flatMap fun other => log.filter (·.1 == other)) =
        rest.flatMap fun other => (log.filter fun entry => !entry.1 == subject).filter
          (·.1 == other) := by
      refine List.flatMap_congr fun other hother => ?_
      have hne : other ≠ subject := fun heq => hnew (heq ▸ hother)
      rw [List.filter_filter]
      refine List.filter_congr fun entry _ => ?_
      by_cases hsame : entry.1 = other
      · simp [hsame, hne]
      · simp [hsame]
    have hperm := ih hrest (log.filter fun entry => !entry.1 == subject) fun entry hentry => by
      obtain ⟨hmem, hdiffers⟩ := List.mem_filter.mp hentry
      exact (List.mem_cons.mp (hall entry hmem)).resolve_left (by simpa using hdiffers)
    rw [List.flatMap_cons, hothers]
    exact (hperm.append_left _).trans (List.filter_append_perm _ log)

theorem subjects_perm (errors : BuildErrors) :
    errors.subjects.Perm (errors.log.map (·.1)).eraseDups :=
  List.filter_append_perm _ _

/-- Listed subject by subject, the errors are those of the log, each of them once. -/
theorem all_perm (errors : BuildErrors) : errors.all.Perm (errors.log.map (·.2)) := by
  have hperm := errors.subjects_perm
  have hgrouped := grouped_perm (hperm.nodup_iff.mpr (nodup_eraseDups _)) errors.log
    fun entry hentry => hperm.mem_iff.mpr (List.mem_eraseDups.mpr (List.mem_map_of_mem hentry))
  have hall : errors.all =
      (errors.subjects.flatMap fun subject => errors.log.filter (·.1 == subject)).map (·.2) :=
    List.map_flatMap.symm
  rw [hall]
  exact hgrouped.map _

/-! ## Merging -/

/-- Merging the log that some operations build up into that of others answers every lookup as if all
had been carried out on one log: it finds the errors that the first recorded and then those that the
second recorded, each under its subject. Every error that was recorded is listed once, and there are
errors if one was recorded. A filing that the same operations are carried out on, and the second one
merged into, gives the same answers, whatever order entries are visited in. -/
theorem merged_as_recorded (ops others : List Op) :
    let merged := (replay {} ops).merge (replay {} others)
    let once := replay {} (ops ++ others)
    let found subject := listed (filedUnder subject (recordedBy ops) ++
      filedUnder subject (recordedBy others))
    let recorded := recordedBy ops ++ recordedBy others
    (∀ spec, merged.ofSpec spec = once.ofSpec spec ∧
      merged.ofSpec spec = found (.spec spec.fileName)) ∧
    (∀ spec sc, merged.ofScenario spec sc = once.ofScenario spec sc ∧
      merged.ofScenario spec sc = found (.scenario spec.fileName sc.line)) ∧
    merged.all.Perm (recorded.map (·.2)) ∧
    (merged.hasErrors = true ↔ recorded ≠ []) ∧
    (∃ f, Filed ∅ (ops ++ [.merge others]) f) ∧
    ∀ f, Filed ∅ (ops ++ [.merge others]) f →
      (∀ spec, f.lookup (.spec spec.fileName) = merged.ofSpec spec) ∧
      (∀ spec sc, f.lookup (.scenario spec.fileName sc.line) = merged.ofScenario spec sc) ∧
      f.errors.Perm merged.all ∧ (f.entries ≠ [] ↔ merged.hasErrors = true) := by
  intro merged once found recorded
  have honce : merged = once := (replay_append {} ops others).symm
  have hlog : merged.log = recorded := by
    rw [honce, replay_log, recordedBy_append]
    rfl
  have hfound (subject : Subject) : listed (filedUnder subject merged.log) = found subject := by
    rw [hlog, filedUnder_append]
  refine ⟨fun spec => ⟨by rw [honce], ?_⟩, fun spec sc => ⟨by rw [honce], ?_⟩, ?_, ?_,
    exists_filed _ _, fun f hfiled => ?_⟩
  · rw [ofSpec_eq, hfound]
  · rw [ofScenario_eq, hfound]
  · rw [← hlog]
    exact merged.all_perm
  · rw [hasErrors_iff, hlog]
  · have hkeeps : f.Keeps merged.log := by
      have hkeeps := Filing.Keeps.empty.filed hfiled
      rw [recordedBy_append, recordedBy, recordedBy, Op.recorded, List.append_nil] at hkeeps
      rwa [hlog]
    refine ⟨hkeeps.ofSpec, hkeeps.ofScenario, hkeeps.errors.trans merged.all_perm.symm,
      ?_⟩
    rw [Ne, hkeeps.entries_eq_nil_iff, hasErrors_iff]

/-- An error in a line of one file. -/
def faultAt (line : UInt64) : ParseError := ⟨"pair.spec", line, "unclear", ""⟩

/-- Errors of a file and of a scenario in it, some of them merged in from logs of their own. -/
def firstStage : List Op :=
  [.add (.spec "pair.spec") (faultAt 1),
    .merge [.add (.scenario "pair.spec" 3) (faultAt 4),
      .merge [.add (.spec "pair.spec") (faultAt 2)]]]

/-- Later errors of the same scenario and the same file. -/
def secondStage : List Op :=
  [.add (.scenario "pair.spec" 3) (faultAt 5), .add (.spec "pair.spec") (faultAt 7)]

/-- Both stages report on the same file and scenario: no error is lost, and the earlier ones come
first, in the log as in a filing. -/
theorem both_stages_recorded :
    let merged := (replay {} firstStage).merge (replay {} secondStage)
    let spec : Specification := { fileName := "pair.spec", heading := "pair", scenarios := [] }
    let sc : Scenario := { heading := "first", line := 3, steps := [] }
    merged.ofSpec spec = some [faultAt 1, faultAt 2, faultAt 7] ∧
      merged.ofScenario spec sc = some [faultAt 4, faultAt 5] ∧
      ∃ f, Filed ∅ (firstStage ++ [.merge secondStage]) f ∧
        f.lookup (.spec "pair.spec") = some [faultAt 1, faultAt 2, faultAt 7] ∧
        f.lookup (.scenario "pair.spec" 3) = some [faultAt 4, faultAt 5] := by
  intro merged spec sc
  obtain ⟨-, -, -, -, ⟨f, hfiled⟩, hsame⟩ := merged_as_recorded firstStage secondStage
  obtain ⟨hspec, hscenario, -, -⟩ := hsame f hfiled
  have hfile : merged.ofSpec spec = some [faultAt 1, faultAt 2, faultAt 7] := by decide
  have hplace : merged.ofScenario spec sc = some [faultAt 4, faultAt 5] := by decide
  exact ⟨hfile, hplace, f, hfiled, (hspec spec).trans hfile, (hscenario spec sc).trans hplace⟩

end SpecEngine.Item.BuildErrors
