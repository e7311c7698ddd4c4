import FestivalPlanner.Lib.Groups
import FestivalPlanner.Lib.Intervals
import FestivalPlanner.Lineup.FestivalRoute

/-!
# What the checks of a festival accept

`validateFestival` collects errors in three nested loops; here is what it means that there are none.

* `Fresh` — ids that are new to a loop and different from each other;
* `SetInput.Apart` — two sets of a day that do not overlap on a stage;
* `Valid` — the festival as it is accepted;
* `overlapErrors_eq_nil`, `foldl_checkStage`, `foldl_checkSet`, `foldl_checkDay` — the loops;
* `validateFestival_eq_nil` — no errors exactly for what is valid.
-/

namespace FestivalPlanner.Lineup

open List Option Keyed

/-! ## What is accepted -/

/-- The keys are different from each other and from those that have been met. -/
@[grind =] def Fresh {κ : Type} (met keys : List κ) : Prop := keys.Nodup ∧ ∀ k ∈ keys, k ∉ met

/-- The stage of a timed set, and the minutes from its start to its end. -/
def SetInput.occupies (x : SetInput) : Option (String × ℕ × ℕ) :=
  match sanitizeIdentifier x.stageId, x.startTime.bind hoursMinutes, x.endTime.bind hoursMinutes with
  | some stageId, some start, some stop =>
      if validateTime x.startTime && validateTime x.endTime then
        some (stageId, (slot "" start stop).startMinutes, (slot "" start stop).endMinutes)
      else none
  | _, _, _ => none

/-- The two do not occupy one stage at the same time. -/
def SetInput.Apart (x y : SetInput) : Prop :=
  ∀ stageId p q, x.occupies = some (stageId, p) → y.occupies = some (stageId, q) →
    Intervals.Apart Prod.fst Prod.snd p q

/-- A set that is accepted, for the stages of the festival. -/
structure SetValid (env : Env) (stageIds : List String) (x : SetInput) : Prop where
  id : (sanitizeIdentifier x.id).isSome = true
  artist : artistName env x ≠ "" ∨ x.someArtists ≠ none
  stage : ∃ id ∈ stageIds, sanitizeIdentifier x.stageId = some id
  times : badTime x.startTime = false ∧ badTime x.endTime = false

/-- A day that is accepted. -/
structure DayValid (cfg : Config) (env : Env) (stageIds : List String) (day : DayInput) : Prop where
  size : day.sets.length ≤ cfg.maxSetsPerDay
  sets : ∀ x ∈ day.sets, SetValid env stageIds x
  apart : day.sets.Pairwise SetInput.Apart

/-- The name of a stage as it is compared with the others. -/
def normalizedName (env : Env) (stage : StageInput) : String :=
  env.toLowerCase (sanitizeString env stage.name 100)

/-- The ids of stages, as far as they are valid. -/
@[grind =] def stageIdsOf (stages : List StageInput) : List String :=
  stages.filterMap (fun stage => sanitizeIdentifier stage.id)

/-- The names that may not be met again. -/
@[grind =] def stageNamesOf (env : Env) (stages : List StageInput) : List String :=
  (stages.map (normalizedName env)).filter (· ≠ "")

@[grind =] def setIdsOf (sets : List SetInput) : List String :=
  sets.filterMap (fun x => sanitizeIdentifier x.id)

/-- A stage that is accepted on its own. -/
structure StageValid (env : Env) (stage : StageInput) : Prop where
  name : sanitizeString env stage.name 100 ≠ ""
  id : (sanitizeIdentifier stage.id).isSome = true

structure Valid (cfg : Config) (env : Env) (body : FestivalInput) : Prop where
  name : body.name.getD "" ≠ "" ∧ sanitizeString env (body.name.getD "") ≠ ""
  stageCount : (body.stages.getD []).length ≤ cfg.maxStages
  dayCount : (body.days.getD []).length ≤ cfg.maxDays
  stages : ∀ stage ∈ body.stages.getD [], StageValid env stage
  stageIds : (stageIdsOf (body.stages.getD [])).Nodup
  stageNames : (stageNamesOf env (body.stages.getD [])).Nodup
  days : ∀ day ∈ body.days.getD [], DayValid cfg env (stageIdsOf (body.stages.getD [])) day
  setIds : ((body.days.getD []).flatMap (fun day => setIdsOf day.sets)).Nodup

/-! ## Keys that are met -/

section
variable {κ : Type} {met keys keys' : List κ} {k : κ}

@[simp] theorem fresh_nil : Fresh met ([] : List κ) := ⟨nodup_nil, fun _ h => nomatch h⟩

@[simp] theorem fresh_met_nil : Fresh [] keys ↔ keys.Nodup := by simp [Fresh]

theorem fresh_append : Fresh met (keys ++ keys') ↔ Fresh met keys ∧ Fresh (met ++ keys) keys' := by
  simp only [Fresh, nodup_append, mem_append, not_or]
  constructor
  · rintro ⟨⟨hkeys, hkeys', hne⟩, hmet⟩
    exact ⟨⟨hkeys, fun k hk => hmet k (.inl hk)⟩, hkeys',
      fun k hk => ⟨hmet k (.inr hk), fun hk' => hne k hk' k hk rfl⟩⟩
  · rintro ⟨⟨hkeys, hmet⟩, hkeys', hnew⟩
    refine ⟨⟨hkeys, hkeys', fun k hk k' hk' heq => (hnew k' hk').2 (heq ▸ hk)⟩, fun k hk => ?_⟩
    exact hk.elim (hmet k) fun hk => (hnew k hk).1

theorem fresh_singleton : Fresh met [k] ↔ k ∉ met := by simp [Fresh]

end

variable {cfg : Config} {env : Env}

/-! ## The stages -/

theorem checkStage_errors {scan : StageScan} {stage : StageInput} :
    (checkStage env scan stage).errors = [] ↔ scan.errors = [] ∧ StageValid env stage ∧
      Fresh scan.ids (stageIdsOf [stage]) ∧ Fresh scan.names (stageNamesOf env [stage]) := by
  have hnames : Fresh scan.names (stageNamesOf env [stage]) ↔
      ¬(normalizedName env stage ≠ "" ∧ normalizedName env stage ∈ scan.names) := by
    by_cases hempty : normalizedName env stage = ""
    · simp [stageNamesOf, hempty]
    · simp [stageNamesOf, hempty, fresh_singleton]
  have hvalid : StageValid env stage ↔ sanitizeString env stage.name 100 ≠ "" ∧
      (sanitizeIdentifier stage.id).isSome = true := ⟨fun h => ⟨h.1, h.2⟩, fun h => ⟨h.1, h.2⟩⟩
  rw [hnames, hvalid]
  simp only [checkStage, normalizedName, append_eq_nil_iff, ite_eq_right_iff, cons_ne_nil,
    imp_false, and_assoc]
  cases hid : sanitizeIdentifier stage.id with
  | none => simp
  | some id => simp [stageIdsOf, hid, fresh_singleton]

/-- The loop over the stages. -/
theorem foldl_checkStage (stages : List StageInput) (scan : StageScan) :
    (stages.foldl (checkStage env) scan).ids = scan.ids ++ stageIdsOf stages ∧
      ((stages.foldl (checkStage env) scan).errors = [] ↔ scan.errors = [] ∧
        (∀ stage ∈ stages, StageValid env stage) ∧ Fresh scan.ids (stageIdsOf stages) ∧
        Fresh scan.names (stageNamesOf env stages)) := by
  induction stages generalizing scan with
  | nil => simp [stageIdsOf, stageNamesOf]
  | cons stage stages ih =>
    have hids : (checkStage env scan stage).ids = scan.ids ++ stageIdsOf [stage] := by
      cases hid : sanitizeIdentifier stage.id <;> simp [checkStage, stageIdsOf, hid]
    have hnames : (checkStage env scan stage).names = scan.names ++ stageNamesOf env [stage] := by
      show (if normalizedName env stage = "" then scan.names
        else scan.names ++ [normalizedName env stage]) = _
      by_cases hempty : normalizedName env stage = "" <;> simp [stageNamesOf, hempty]
    have hidsCons : stageIdsOf (stage :: stages) = stageIdsOf [stage] ++ stageIdsOf stages :=
      filterMap_append (l := [stage])
    have hnamesCons : stageNamesOf env (stage :: stages) =
        stageNamesOf env [stage] ++ stageNamesOf env stages :=
      filter_append [normalizedName env stage] _
    obtain ⟨hnextIds, hnextErrors⟩ := ih (checkStage env scan stage)
    rw [foldl_cons, hnextIds, hnextErrors, checkStage_errors, hids, hnames, hidsCons, hnamesCons,
      fresh_append, fresh_append, append_assoc, forall_mem_cons]
    refine ⟨rfl, ?_⟩
    tauto

/-! ## The sets of a day -/

theorem slot_proper (artist : String) (startTime endTime : ℕ × ℕ) (h : startTime.1 ≤ 23)
    (h' : startTime.2 ≤ 59) : (slot artist startTime endTime).startMinutes <
      (slot artist startTime endTime).endMinutes := by
  simp only [slot]
  split <;> omega

/-- The neighbours that are looked at are those of the intervals. -/
theorem overlapErrors_eq_nil {entries : List Slot}
    (h : ∀ e ∈ entries, e.startMinutes < e.endMinutes) : overlapErrors entries = [] ↔
      entries.Pairwise (Intervals.Apart Slot.startMinutes Slot.endMinutes) := by
  rw [Intervals.pairwise_apart_iff h, ← Intervals.forall_mem_neighbours, overlapErrors,
    filterMap_eq_nil_iff]
  refine forall₂_congr fun p _ => ?_
  simp

/-- A set among the slots of its stage. -/
def slotOn (env : Env) (stageId : String) (x : SetInput) : Option Slot :=
  x.occupies.bind (fun p =>
    if p.1 = stageId then
      some { artist := if artistName env x = "" then "Unnamed" else artistName env x
             startMinutes := p.2.1, endMinutes := p.2.2 }
    else none)

variable {stageId : String} {x : SetInput} {stageIds : List String} {scan : SetScan}

theorem slotOn_eq_some {e : Slot} :
    slotOn env stageId x = some e ↔ ∃ p, x.occupies = some (stageId, p) ∧
      e = { artist := if artistName env x = "" then "Unnamed" else artistName env x
            startMinutes := p.1, endMinutes := p.2 } := by
  rw [slotOn]
  cases x.occupies with
  | none => simp
  | some p =>
    obtain ⟨id, p⟩ := p
    simp only [bind_some, ite_none_right_eq_some, some.injEq, Prod.mk.injEq]
    constructor
    · rintro ⟨rfl, rfl⟩
      exact ⟨p, ⟨rfl, rfl⟩, rfl⟩
    · rintro ⟨q, ⟨rfl, rfl⟩, rfl⟩
      exact ⟨rfl, rfl⟩

theorem checkSet_schedules (h : UniqueKeys Prod.fst scan.schedules) :
    UniqueKeys Prod.fst (checkSet env stageIds scan x).schedules ∧
      ∀ stageId, Groups.entries stageId (checkSet env stageIds scan x).schedules =
        Groups.entries stageId scan.schedules ++ (slotOn env stageId x).toList := by
  simp only [checkSet, slotOn, SetInput.occupies]
  cases sanitizeIdentifier x.stageId with
  | none => exact ⟨h, fun stageId => by simp⟩
  | some id =>
    cases x.startTime.bind hoursMinutes with
    | none => exact ⟨h, fun stageId => by simp⟩
    | some start =>
      cases x.endTime.bind hoursMinutes with
      | none => exact ⟨h, fun stageId => by simp⟩
      | some stop =>
        cases hvalid : validateTime x.startTime && validateTime x.endTime with
        | false => exact ⟨h, fun stageId => by simp⟩
        | true =>
          simp only [if_true]
          refine ⟨Groups.uniqueKeys_push h _ _, fun stageId => ?_⟩
          refine (Groups.entries_push stageId id _ _).trans ?_
          by_cases hid : id = stageId <;> simp [hid, slot]

theorem checkSet_errors :
    (checkSet env stageIds scan x).errors = [] ↔ scan.errors = [] ∧ SetValid env stageIds x ∧
      Fresh scan.ids (setIdsOf [x]) := by
  have hvalid : SetValid env stageIds x ↔ (sanitizeIdentifier x.id).isSome = true ∧
      (artistName env x ≠ "" ∨ x.someArtists ≠ none) ∧
      (∃ id ∈ stageIds, sanitizeIdentifier x.stageId = some id) ∧
      badTime x.startTime = false ∧ badTime x.endTime = false :=
    ⟨fun h => ⟨h.1, h.2, h.3, h.4⟩, fun h => ⟨h.1, h.2.1, h.2.2.1, h.2.2.2⟩⟩
  have htimes : ((!validateTime x.startTime || !validateTime x.endTime) &&
      (badTime x.startTime || badTime x.endTime)) = true ↔
        ¬(badTime x.startTime = false ∧ badTime x.endTime = false) := by
    simp only [badTime]
    cases validateTime x.startTime <;> cases validateTime x.endTime <;> simp
    tauto
  have hartist : (¬(artistName env x = "" ∧ x.someArtists = none)) ↔
      (artistName env x ≠ "" ∨ x.someArtists ≠ none) := by tauto
  have hstage : (sanitizeIdentifier x.stageId).any (fun id => decide (id ∈ stageIds)) = true ↔
      ∃ id ∈ stageIds, sanitizeIdentifier x.stageId = some id := by
    cases sanitizeIdentifier x.stageId <;> simp
  rw [hvalid, ← hartist, ← hstage]
  simp only [checkSet, append_eq_nil_iff, htimes]
  cases hid : sanitizeIdentifier x.id with
  | none => simp
  | some id =>
    simp only [setIdsOf, hid, filterMap_cons, filterMap_nil, fresh_singleton,
      isSome_some, true_and, ite_eq_left_iff, ite_eq_right_iff, cons_ne_nil, imp_false,
      not_not]
    tauto

/-- The loop over the sets of a day. -/
theorem foldl_checkSet (stageIds : List String) (sets : List SetInput) (scan : SetScan)
    (h : UniqueKeys Prod.fst scan.schedules) :
    (sets.foldl (checkSet env stageIds) scan).ids = scan.ids ++ setIdsOf sets ∧
      ((sets.foldl (checkSet env stageIds) scan).errors = [] ↔ scan.errors = [] ∧
        (∀ x ∈ sets, SetValid env stageIds x) ∧ Fresh scan.ids (setIdsOf sets)) ∧
      UniqueKeys Prod.fst (sets.foldl (checkSet env stageIds) scan).schedules ∧
      ∀ stageId, Groups.entries stageId (sets.foldl (checkSet env stageIds) scan).schedules =
        Groups.entries stageId scan.schedules ++ sets.filterMap (slotOn env stageId) := by
  induction sets generalizing scan with
  | nil => simp [setIdsOf, h]
  | cons x sets ih =>
    obtain ⟨hunique, hentries⟩ := @checkSet_schedules env x stageIds _ h
    have hids : (checkSet env stageIds scan x).ids = scan.ids ++ setIdsOf [x] := by
      cases hid : sanitizeIdentifier x.id <;> simp [checkSet, setIdsOf, hid]
    have hidsCons : setIdsOf (x :: sets) = setIdsOf [x] ++ setIdsOf sets :=
      filterMap_append (l := [x])
    obtain ⟨hnextIds, hnextErrors, hnextUnique, hnextEntries⟩ := ih _ hunique
    rw [foldl_cons]
    refine ⟨?_, ?_, hnextUnique, fun stageId => ?_⟩
    · rw [hnextIds, hids, hidsCons, append_assoc]
    · rw [hnextErrors, checkSet_errors, hids, hidsCons, fresh_append, forall_mem_cons]
      tauto
    · rw [hnextEntries, hentries, append_assoc, filterMap_cons]
      cases slotOn env stageId x <;> simp

/-- A set that is timed ends after it starts. -/
theorem occupies_proper {p : ℕ × ℕ} (h : x.occupies = some (stageId, p)) : p.1 < p.2 := by
  rw [SetInput.occupies] at h
  split at h
  · rename_i id start stop hid hstart hstop
    split at h
    · rename_i hvalid
      obtain ⟨rfl, rfl⟩ := Prod.mk.inj (some.inj h)
      have htime := (Bool.and_eq_true_iff.mp hvalid).1
      simp only [validateTime, hstart, decide_eq_true_eq] at htime
      exact slot_proper "" start stop htime.1 htime.2
    · cases h
  · cases h

/-- On no stage do two of the slots overlap exactly when no two of the sets do. -/
theorem forall_pairwise_slotOn {sets : List SetInput} :
    (∀ stageId, (sets.filterMap (slotOn env stageId)).Pairwise
      (Intervals.Apart Slot.startMinutes Slot.endMinutes)) ↔ sets.Pairwise SetInput.Apart := by
  simp only [pairwise_filterMap]
  simp only [pairwise_iff_forall_sublist, slotOn_eq_some]
  constructor
  · intro h x y hxy stageId p q hp hq
    exact h stageId hxy _ ⟨p, hp, rfl⟩ _ ⟨q, hq, rfl⟩
  · rintro h stageId x y hxy _ ⟨p, hp, rfl⟩ _ ⟨q, hq, rfl⟩
    exact h hxy stageId p q hp hq

/-- The slots that the loop collects overlap on no stage exactly when no two of the sets do. -/
theorem overlapErrors_schedules_eq_nil (stageIds ids : List String) (sets : List SetInput) :
    ((sets.foldl (checkSet env stageIds) { ids := ids }).schedules.flatMap
      (fun s => overlapErrors s.2)) = [] ↔ sets.Pairwise SetInput.Apart := by
  obtain ⟨-, -, hunique, hentries⟩ :=
    @foldl_checkSet env stageIds sets { ids := ids } nodup_nil
  rw [flatMap_eq_nil_iff, ← @forall_pairwise_slotOn env]
  refine (Groups.forall_iff hunique (P := fun l => overlapErrors l = []) rfl).trans ?_
  refine forall_congr' fun stageId => ?_
  rw [hentries, Groups.entries_nil, nil_append]
  refine overlapErrors_eq_nil fun e he => ?_
  obtain ⟨x, -, hx⟩ := mem_filterMap.mp he
  obtain ⟨p, hp, rfl⟩ := slotOn_eq_some.mp hx
  exact occupies_proper hp

/-! ## The days -/

theorem checkDay_errors {scan : List String × List String} {day : DayInput} :
    (checkDay cfg env stageIds scan day).2 = scan.2 ++ setIdsOf day.sets ∧
      ((checkDay cfg env stageIds scan day).1 = [] ↔ scan.1 = [] ∧
        DayValid cfg env stageIds day ∧ Fresh scan.2 (setIdsOf day.sets)) := by
  obtain ⟨hids, herrors, -, -⟩ :=
    @foldl_checkSet env stageIds day.sets { ids := scan.2 } nodup_nil
  refine ⟨hids, ?_⟩
  have hvalid : DayValid cfg env stageIds day ↔ day.sets.length ≤ cfg.maxSetsPerDay ∧
      (∀ x ∈ day.sets, SetValid env stageIds x) ∧ day.sets.Pairwise SetInput.Apart :=
    ⟨fun h => ⟨h.1, h.2, h.3⟩, fun h => ⟨h.1, h.2.1, h.2.2⟩⟩
  simp only [checkDay, append_eq_nil_iff, herrors, overlapErrors_schedules_eq_nil, hvalid, ite_eq_right_iff,
    cons_ne_nil, imp_false, not_lt, true_and]
  tauto

/-- The loop over the days. -/
theorem foldl_checkDay (stageIds : List String) (days : List DayInput)
    (scan : List String × List String) :
    (days.foldl (checkDay cfg env stageIds) scan).1 = [] ↔ scan.1 = [] ∧
      (∀ day ∈ days, DayValid cfg env stageIds day) ∧
      Fresh scan.2 (days.flatMap (fun day => setIdsOf day.sets)) := by
  induction days generalizing scan with
  | nil => simp
  | cons day days ih =>
    obtain ⟨hids, herrors⟩ := @checkDay_errors cfg env stageIds scan day
    rw [foldl_cons, ih, herrors, hids, flatMap_cons, fresh_append, forall_mem_cons]
    tauto

/-! ## The result -/

/-- **There are no errors exactly for what is valid.** -/
theorem validateFestival_eq_nil {body : FestivalInput} :
    validateFestival cfg env body = [] ↔ Valid cfg env body := by
  obtain ⟨hids, herrors⟩ := @foldl_checkStage env (body.stages.getD []) {}
  simp only [validateFestival, append_eq_nil_iff, herrors, hids, foldl_checkDay,
    fresh_met_nil, ite_eq_right_iff, cons_ne_nil, imp_false, not_lt, not_or, true_and,
    nil_append]
  constructor
  · rintro ⟨⟨⟨hname, hstages, hdays⟩, hvalid, hstageIds, hstageNames⟩, hdayValid, hsetIds⟩
    exact ⟨hname, hstages, hdays, hvalid, hstageIds, hstageNames, hdayValid, hsetIds⟩
  · intro h
    exact ⟨⟨⟨h.name, h.stageCount, h.dayCount⟩, h.stages, h.stageIds, h.stageNames⟩, h.days, h.setIds⟩

/-! ## The order of the lists -/

/-- The stages, the days and the sets of a day in another order. -/
structure Reordered (b c : FestivalInput) : Prop where
  name : b.name = c.name
  stages : (b.stages.getD []).Perm (c.stages.getD [])
  days : ∃ days, (b.days.getD []).Perm days ∧
    Forall₂ (fun d e => d.sets.Perm e.sets) days (c.days.getD [])

variable {b c : FestivalInput} {stageIds' : List String}

theorem Reordered.symm (h : Reordered b c) : Reordered c b := by
  obtain ⟨days, hperm, hsets⟩ := h.days
  obtain ⟨days', hsets', hperm'⟩ := perm_comp_forall₂ hperm hsets
  exact ⟨h.name.symm, h.stages.symm, days', hperm'.symm, .flip (hsets'.imp fun _ _ h => h.symm)⟩

theorem DayValid.of_perm {d e : DayInput} (h : DayValid cfg env stageIds d)
    (hids : stageIds ⊆ stageIds') (hsets : d.sets.Perm e.sets) : DayValid cfg env stageIds' e where
  size := hsets.length_eq ▸ h.size
  sets x hx :=
    have hx := h.sets x (hsets.mem_iff.mpr hx)
    { hx with stage := hx.stage.imp fun _ h => ⟨hids h.1, h.2⟩ }
  apart := (hsets.pairwise_iff fun h stageId p q hp hq => (h stageId q p hq hp).symm).mp h.apart

theorem perm_setIds {days days' : List DayInput}
    (h : Forall₂ (fun d e => d.sets.Perm e.sets) days days') :
    (days.flatMap fun day => setIdsOf day.sets).Perm
      (days'.flatMap fun day => setIdsOf day.sets) := by
  induction h with
  | nil => exact .refl _
  | cons hsets _ ih => exact (hsets.filterMap _).append ih

theorem Valid.reordered (hb : Valid cfg env b) (h : Reordered b c) : Valid cfg env c := by
  obtain ⟨days, hperm, hsets⟩ := h.days
  have hids : (stageIdsOf (b.stages.getD [])).Perm (stageIdsOf (c.stages.getD [])) :=
    h.stages.filterMap _
  refine
    { name := h.name ▸ hb.name
      stageCount := h.stages.length_eq ▸ hb.stageCount
      dayCount := (hperm.length_eq.trans hsets.length_eq) ▸ hb.dayCount
      stages := fun stage hstage => hb.stages stage (h.stages.mem_iff.mpr hstage)
      stageIds := hids.nodup_iff.mp hb.stageIds
      stageNames := ((h.stages.map _).filter _).nodup_iff.mp hb.stageNames
      days := fun e he => ?_
      setIds := ((hperm.flatMap_right _).trans (perm_setIds hsets)).nodup_iff.mp hb.setIds }
  obtain ⟨⟨i, hi⟩, rfl⟩ := get_of_mem he
  have hi' : i < days.length := hsets.length_eq ▸ hi
  have hday := hb.days _ (hperm.mem_iff.mpr (get_mem days ⟨i, hi'⟩))
  exact hday.of_perm hids.subset (hsets.get hi' hi)

/-- **Whether a festival is accepted does not depend on the order of its lists.** -/
theorem validateFestival_reordered (h : Reordered b c) :
    validateFestival cfg env b = [] ↔ validateFestival cfg env c = [] := by
  rw [validateFestival_eq_nil, validateFestival_eq_nil]
  exact ⟨fun hb => hb.reordered h, fun hc => hc.reordered h.symm⟩

def twoStages (x y : String) : FestivalInput :=
  { name := "Open Air", stages := some [⟨x, x, none, none, none⟩, ⟨y, y, none, none, none⟩] }

theorem validateFestival_reordered_stages :
    validateFestival {} ⟨id, id, fun _ => ""⟩ (twoStages "a" "b") = [] ↔
      validateFestival {} ⟨id, id, fun _ => ""⟩ (twoStages "b" "a") = [] :=
  validateFestival_reordered ⟨rfl, .swap .., [], .refl _, .nil⟩

end FestivalPlanner.Lineup
