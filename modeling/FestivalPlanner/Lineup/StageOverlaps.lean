import FestivalPlanner.Lineup.FestivalChecks

/-!
# The overlaps that the checks of a festival report

`validateFestival` reports a stage overlap exactly when two timed sets of a day share a stage and a
minute, whatever else it reports.

* `IsOverlapError` — the message of an overlap; `not_isOverlapError` — no other message begins like
  it;
* `foldl_checkStage_reports`, `foldl_checkSet_reports`, `foldl_checkDay_reports` — what each loop
  adds to what is reported;
* `SetInput.Overlaps` — two sets on one stage at one time;
* `validateFestival_reports_overlap_iff` — **a stage overlap is reported exactly when there is one**.
-/

namespace FestivalPlanner.Lineup

open List

/-! ## The message -/

/-- How the message of an overlap begins. -/
def overlapPrefix : String := "Stage overlap on \""

@[grind =] def IsOverlapError (e : String) : Prop := overlapPrefix.toList <+: e.toList

/-- Some of the errors is that of an overlap. -/
@[grind =] def ReportsOverlap (errors : List String) : Prop := ∃ e ∈ errors, IsOverlapError e

@[simp] theorem reportsOverlap_nil : ¬ReportsOverlap [] := by simp [ReportsOverlap]

@[simp] theorem reportsOverlap_append {errors errors' : List String} :
    ReportsOverlap (errors ++ errors') ↔ ReportsOverlap errors ∨ ReportsOverlap errors' := by
  simp only [ReportsOverlap, mem_append, or_and_right, exists_or]

@[simp] theorem reportsOverlap_singleton {e : String} : ReportsOverlap [e] ↔ IsOverlapError e := by
  simp [ReportsOverlap]

/-- A message that begins in another way is no overlap. -/
theorem not_isOverlapError {begin : String}
    (h : ¬begin.toList <+: overlapPrefix.toList ∧ ¬overlapPrefix.toList <+: begin.toList)
    (rest : String) : ¬IsOverlapError (begin ++ rest) := by
  intro hoverlap
  rw [IsOverlapError, String.toList_append] at hoverlap
  rcases prefix_or_prefix_of_prefix (prefix_append begin.toList rest.toList) hoverlap with
    hp | hp
  · exact h.1 hp
  · exact h.2 hp

theorem not_reports_ite {c : Prop} [Decidable c] {e : String} (h : ¬IsOverlapError e) :
    ¬ReportsOverlap (if c then [e] else []) := by
  split <;> simp [h]

theorem not_reports_ite' {c : Prop} [Decidable c] {e : String} (h : ¬IsOverlapError e) :
    ¬ReportsOverlap (if c then [] else [e]) := by
  split <;> simp [h]

/-- Every message about neighbours is one. -/
theorem reports_overlapErrors (entries : List Slot) :
    ReportsOverlap (overlapErrors entries) ↔ overlapErrors entries ≠ [] := by
  constructor
  · rintro ⟨e, he, -⟩ hnil
    rw [hnil] at he
    cases he
  · intro hne
    obtain ⟨e, he⟩ := exists_mem_of_ne_nil _ hne
    refine ⟨e, he, ?_⟩
    unfold overlapErrors at he
    obtain ⟨p, -, hp⟩ := mem_filterMap.mp he
    simp only [Option.ite_none_right_eq_some, Option.some.injEq] at hp
    obtain ⟨-, rfl⟩ := hp
    rw [IsOverlapError, String.append_assoc, String.append_assoc, String.append_assoc,
      String.toList_append]
    exact prefix_append _ _

/-! ## The loops -/

section
variable {cfg : Config} {env : Env}

theorem checkStage_reports {scan : StageScan} {stage : StageInput} :
    ReportsOverlap (checkStage env scan stage).errors ↔ ReportsOverlap scan.errors := by
  have hinvalid (shown : String) :
      ¬IsOverlapError ("Stage \"" ++ shown ++ "\" requires a valid id") := by
    rw [String.append_assoc]
    exact not_isOverlapError (by decide) _
  have hid (id : String) : ¬IsOverlapError ("Duplicate stage id: " ++ id) :=
    not_isOverlapError (by decide) _
  have hname (name : String) : ¬IsOverlapError ("Duplicate stage name: " ++ name) :=
    not_isOverlapError (by decide) _
  have hmissing : ¬IsOverlapError "Every stage requires a name" := by
    unfold IsOverlapError
    decide
  unfold checkStage
  cases sanitizeIdentifier stage.id with
  | none => simp only [reportsOverlap_append, reportsOverlap_singleton, hinvalid,
      not_reports_ite hmissing, not_reports_ite (hname _), or_false]
  | some id => simp only [reportsOverlap_append, not_reports_ite hmissing, not_reports_ite (hid _),
      not_reports_ite (hname _), or_false]

theorem foldl_checkStage_reports (stages : List StageInput) (scan : StageScan) :
    ReportsOverlap (stages.foldl (checkStage env) scan).errors ↔ ReportsOverlap scan.errors := by
  induction stages generalizing scan with
  | nil => rfl
  | cons stage stages ih => rw [foldl_cons, ih, checkStage_reports]

theorem checkSet_reports {stageIds : List String} {scan : SetScan} {x : SetInput} :
    ReportsOverlap (checkSet env stageIds scan x).errors ↔ ReportsOverlap scan.errors := by
  have hset (shown rest : String) : ¬IsOverlapError ("Set \"" ++ shown ++ rest) := by
    rw [String.append_assoc]
    exact not_isOverlapError (by decide) _
  have hid (id : String) : ¬IsOverlapError ("Duplicate set id: " ++ id) :=
    not_isOverlapError (by decide) _
  have hmissing : ¬IsOverlapError "Every set requires an artist name" := by
    unfold IsOverlapError
    decide
  unfold checkSet
  cases sanitizeIdentifier x.id with
  | none => simp only [reportsOverlap_append, reportsOverlap_singleton, hset,
      not_reports_ite hmissing, not_reports_ite' (hset _ _), not_reports_ite (hset _ _), or_false]
  | some id => simp only [reportsOverlap_append, not_reports_ite (hid _),
      not_reports_ite hmissing, not_reports_ite' (hset _ _), not_reports_ite (hset _ _), or_false]

theorem foldl_checkSet_reports (stageIds : List String) (sets : List SetInput) (scan : SetScan) :
    ReportsOverlap (sets.foldl (checkSet env stageIds) scan).errors ↔
      ReportsOverlap scan.errors := by
  induction sets generalizing scan with
  | nil => rfl
  | cons x sets ih => rw [foldl_cons, ih, checkSet_reports]

/-- The slots of a day overlap on some stage exactly when two of its sets do. -/
theorem schedules_overlap_iff (stageIds ids : List String) (sets : List SetInput) :
    ReportsOverlap ((sets.foldl (checkSet env stageIds) { ids := ids }).schedules.flatMap
      (fun s => overlapErrors s.2)) ↔ ¬sets.Pairwise SetInput.Apart := by
  rw [← @overlapErrors_schedules_eq_nil env stageIds ids, flatMap_eq_nil_iff, not_forall]
  constructor
  · rintro ⟨e, he, hoverlap⟩
    obtain ⟨s, hs, hes⟩ := mem_flatMap.mp he
    exact ⟨s, fun hnil => (reports_overlapErrors s.2).mp ⟨e, hes, hoverlap⟩ (hnil hs)⟩
  · rintro ⟨s, hs⟩
    obtain ⟨hmem, hne⟩ := not_forall.mp hs
    obtain ⟨e, he, hoverlap⟩ := (reports_overlapErrors s.2).mpr hne
    exact ⟨e, mem_flatMap.mpr ⟨s, hmem, he⟩, hoverlap⟩

theorem checkDay_reports {stageIds : List String} {scan : List String × List String}
    {day : DayInput} : ReportsOverlap (checkDay cfg env stageIds scan day).1 ↔
      ReportsOverlap scan.1 ∨ ¬day.sets.Pairwise SetInput.Apart := by
  have hmany : ¬IsOverlapError ("Maximum " ++ toString cfg.maxSetsPerDay ++ " sets per day") := by
    rw [String.append_assoc]
    exact not_isOverlapError (by decide) _
  unfold checkDay
  simp only [reportsOverlap_append, not_reports_ite hmany, foldl_checkSet_reports,
    schedules_overlap_iff, reportsOverlap_nil, or_false]

theorem foldl_checkDay_reports (stageIds : List String) (days : List DayInput)
    (scan : List String × List String) :
    ReportsOverlap (days.foldl (checkDay cfg env stageIds) scan).1 ↔
      ReportsOverlap scan.1 ∨ ∃ day ∈ days, ¬day.sets.Pairwise SetInput.Apart := by
  induction days generalizing scan with
  | nil => simp
  | cons day days ih =>
    rw [foldl_cons, ih, checkDay_reports]
    simp [or_assoc]

end

/-! ## The result -/

/-- The two occupy one stage at one time. -/
def SetInput.Overlaps (x y : SetInput) : Prop :=
  ∃ stageId p q, x.occupies = some (stageId, p) ∧ y.occupies = some (stageId, q) ∧
    p.1 < q.2 ∧ q.1 < p.2

theorem not_apart_iff {x y : SetInput} : ¬x.Apart y ↔ x.Overlaps y := by
  unfold SetInput.Apart SetInput.Overlaps Intervals.Apart
  simp only [not_forall, not_or, not_le]
  constructor
  · rintro ⟨stageId, p, q, hx, hy, hxy, hyx⟩
    exact ⟨stageId, p, q, hx, hy, hyx, hxy⟩
  · rintro ⟨stageId, p, q, hx, hy, hxy, hyx⟩
    exact ⟨stageId, p, q, hx, hy, hyx, hxy⟩

/-- Two sets of a list overlap when they are not all apart. -/
theorem not_pairwise_apart_iff {sets : List SetInput} : ¬sets.Pairwise SetInput.Apart ↔
    ∃ (i j : ℕ) (x y : SetInput), i < j ∧ sets[i]? = some x ∧ sets[j]? = some y ∧ x.Overlaps y := by
  rw [pairwise_iff_getElem]
  constructor
  · intro h
    simp only [not_forall, not_apart_iff] at h
    obtain ⟨i, j, hi, hj, hlt, hoverlap⟩ := h
    exact ⟨i, j, _, _, hlt, getElem?_eq_getElem hi, getElem?_eq_getElem hj, hoverlap⟩
  · rintro ⟨i, j, x, y, hlt, hx, hy, hoverlap⟩ hall
    obtain ⟨hi, rfl⟩ := List.getElem?_eq_some_iff.mp hx
    obtain ⟨hj, rfl⟩ := List.getElem?_eq_some_iff.mp hy
    exact not_apart_iff.mpr hoverlap (hall i j hi hj hlt)

/-- **A stage overlap is reported exactly when two timed sets of a day share a stage and a time.** -/
theorem validateFestival_reports_overlap_iff (cfg : Config) (env : Env) (body : FestivalInput) :
    (∃ e ∈ validateFestival cfg env body, IsOverlapError e) ↔
      ∃ day ∈ body.days.getD [], ∃ (i j : ℕ) (x y : SetInput), i < j ∧
        day.sets[i]? = some x ∧ day.sets[j]? = some y ∧ x.Overlaps y := by
  have hmissing : ¬IsOverlapError "Festival name is required" := by
    unfold IsOverlapError
    decide
  have hmany (n rest : String) : ¬IsOverlapError ("Maximum " ++ n ++ rest) := by
    rw [String.append_assoc]
    exact not_isOverlapError (by decide) _
  rw [← ReportsOverlap]
  unfold validateFestival
  simp only [reportsOverlap_append, not_reports_ite hmissing, not_reports_ite (hmany _ _),
    foldl_checkStage_reports, foldl_checkDay_reports, reportsOverlap_nil, false_or,
    not_pairwise_apart_iff]

end FestivalPlanner.Lineup
