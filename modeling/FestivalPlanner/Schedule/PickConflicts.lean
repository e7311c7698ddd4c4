import FestivalPlanner.Lib.Groups
import FestivalPlanner.Lib.Table
import FestivalPlanner.Lib.UnionFind
import FestivalPlanner.Lib.Utf16
import FestivalPlanner.Schedule.Conflicts
import FestivalPlanner.Schedule.ReminderPlan
import Mathlib.Data.Prod.Lex

/-!
# Groups of picks that clash

The model of `packages/shared/src/utils/pickConflicts.ts`: the picks of a day whose intervals
overlap, directly or through others, are one group, with the pick to keep and the longest overlap.

* `conflictPicks`, `clusters`, `buildPickConflicts` — the picks, the union-find over their
  positions, the groups;
* `Linked`, `members` — what overlaps directly or through others; `clusters_spec` — the clusters
  are the components of that;
* `keepOf_spec`, `maxOverlapMs_spec` — the best pick and the longest overlap of a group;
* `conflictGroups_components`, `conflictGroups_perm` — the groups are the components of two picks
  or more, in whatever order the picks come;
* `buildPickConflicts_components` — **so are the clashes of a day**.
-/

namespace FestivalPlanner.Schedule

open Js Pairs Utf16 List Option Keyed

/-! ## The functions -/

/-- The picks of a member. -/
structure ProfilePicks where
  userId : String
  picks : String → Option Priority

structure BuildPickConflictsInput where
  sets : List FestivalSet
  myPicks : String → Option Priority
  selectedDay : ℤ
  days : Option (List FestivalDay) := none
  timeZone : String := ""
  allProfiles : Option (List ProfilePicks) := none
  crewMemberUserIds : Option (List String) := none
  myUserId : Option String := none

/-- A pick with its interval; the end may be `NaN`, and so the duration. -/
structure ConflictPick where
  set : FestivalSet
  priority : Priority
  startMs : ℤ
  endMs : Number
  durationMin : Number
  crewCount : Option ℕ := none
  crewBreakdown : Option String := none
  deriving DecidableEq

/-- A group of picks that clash. -/
structure ConflictGroup where
  picks : List ConflictPick
  recommendedKeepId : String
  overlapMin : ℤ
  deriving DecidableEq

/-- `PRIORITY_NOUN` -/
def Priority.noun : Priority → String
  | .must => "must"
  | .wantToSee => "want"
  | .maybe => "maybe"

/-- How many there are of each priority, like "2 must, 1 want". -/
def buildOverlapBreakdown (priorities : List Priority) : String :=
  ", ".intercalate (([.must, .wantToSee, .maybe].filter (0 < priorities.count ·)).map
    fun p => toString (priorities.count p) ++ " " ++ p.noun)

/-- The priorities of the crew members who picked a set, each member's highest. -/
def crewPriorities (profiles : List ProfilePicks) (members : List String) (me setId : String) :
    List (String × Priority) :=
  profiles.foldl (fun byUser profile =>
    if profile.userId = me ∨ profile.userId ∉ members then byUser
    else match profile.picks setId with
      | none => byUser
      | some p =>
          match lookup Prod.fst profile.userId byUser with
          | none => upsert Prod.fst (profile.userId, p) byUser
          | some existing =>
              if p.rank < existing.2.rank then upsert Prod.fst (profile.userId, p) byUser
              else byUser) []

/-- A set of the day that is picked and has an interval. -/
def conflictPick (host : Host) (input : BuildPickConflictsInput) (days : List FestivalDay)
    (set : FestivalSet) : Except String (Option ConflictPick) :=
  match input.myPicks set.id with
  | none => .ok none
  | some priority =>
      if set.dayIndex.getD 0 ≠ input.selectedDay then .ok none
      else do
        match ← getSetTimeBounds host set days input.timeZone with
        | none => return none
        | some bounds =>
            let crew := do
              return crewPriorities (← input.allProfiles) (← input.crewMemberUserIds)
                (← input.myUserId) set.id
            return some {
              set := set
              priority := priority
              startMs := bounds.startMs
              endMs := bounds.endMs
              durationMin := do return roundMinutes ((← bounds.endMs) - bounds.startMs)
              crewCount := crew.map List.length
              crewBreakdown := crew.map fun byUser => buildOverlapBreakdown (byUser.map Prod.snd) }

/-- The picks of the day. -/
@[grind =] def conflictPicks (host : Host) (input : BuildPickConflictsInput) :
    Except String (List ConflictPick) :=
  match input.days with
  | none => .ok []
  | some days => input.sets.filterMapM (conflictPick host input days)

/-- The intervals overlap; those that touch do not, and `NaN` is in no order. -/
def Overlaps (a b : ConflictPick) : Prop :=
  (∃ e ∈ b.endMs, a.startMs < e) ∧ ∃ e ∈ a.endMs, b.startMs < e

instance (a b : ConflictPick) : Decidable (Overlaps a b) :=
  inferInstanceAs (Decidable ((∃ e ∈ b.endMs, a.startMs < e) ∧ ∃ e ∈ a.endMs, b.startMs < e))

/-- The positions of the picks that overlap. -/
def overlapEdges (picks : List ConflictPick) : List (ℕ × ℕ) :=
  ((pairs picks.zipIdx).filter fun p => Overlaps p.1.1 p.2.1).map fun p => (p.1.2, p.2.2)

/-- The picks under their roots. -/
def clusters (picks : List ConflictPick) : List (ℕ × List ConflictPick) :=
  let n := picks.length
  (picks.zipIdx.foldl (fun (s : (ℕ → ℕ) × List (ℕ × List ConflictPick)) p =>
    let (root, parent) := UnionFind.find n s.1 p.2
    (parent, Groups.push root p.1 s.2)) (UnionFind.unionAll n (overlapEdges picks), [])).2

/-- The order within a group: by start, then by id. -/
def ConflictPick.before (a b : ConflictPick) : Prop :=
  a.startMs < b.startMs ∨ (a.startMs = b.startMs ∧ ofString a.set.id ≤ ofString b.set.id)

instance (a b : ConflictPick) : Decidable (a.before b) :=
  inferInstanceAs (Decidable (_ ∨ _))

instance : Std.Total ConflictPick.before where
  total a b := by
    rcases lt_trichotomy a.startMs b.startMs with hlt | heq | hgt
    · exact .inl (.inl hlt)
    · rcases le_total (ofString a.set.id) (ofString b.set.id) with hle | hle
      · exact .inl (.inr ⟨heq, hle⟩)
      · exact .inr (.inr ⟨heq.symm, hle⟩)
    · exact .inr (.inl hgt)

instance : IsTrans ConflictPick ConflictPick.before where
  trans a b c hab hbc := by
    rcases hab with hab | ⟨hab, hid⟩ <;> rcases hbc with hbc | ⟨hbc, hid'⟩
    · exact .inl (hab.trans hbc)
    · exact .inl (hbc ▸ hab)
    · exact .inl (hab ▸ hbc)
    · exact .inr ⟨hab.trans hbc, hid.trans hid'⟩

/-- The pick is kept rather than the best so far. -/
def wins (cur best : ConflictPick) : Bool :=
  if cur.priority.rank ≠ best.priority.rank then cur.priority.rank < best.priority.rank
  else if cur.durationMin ≠ best.durationMin ∨ cur.durationMin = none then
    match cur.durationMin, best.durationMin with
    | some d, some d' => d > d'
    | _, _ => false
  else if cur.startMs ≠ best.startMs then cur.startMs < best.startMs
  else ofString cur.set.id < ofString best.set.id

/-- The pick to keep. -/
def keepOf (first : ConflictPick) (rest : List ConflictPick) : ConflictPick :=
  rest.foldl (fun best cur => if wins cur best then cur else best) first

/-- What two intervals share, when they do. -/
def sharedMs (a b : ConflictPick) : Number := do
  return min (← a.endMs) (← b.endMs) - max a.startMs b.startMs

/-- The longest overlap of two picks. -/
def maxOverlapMs (picks : List ConflictPick) : ℤ :=
  (pairs picks).foldl (fun longest p =>
    match sharedMs p.1 p.2 with
    | some overlap => if overlap > longest then overlap else longest
    | none => longest) 0

/-- The group of the picks of a cluster; a single pick is none. -/
@[grind =] def groupOf (bucket : List ConflictPick) : Option ConflictGroup :=
  if bucket.length < 2 then none
  else
    let sorted := bucket.insertionSort ConflictPick.before
    match sorted with
    | [] => none
    | first :: rest => some {
        picks := sorted
        recommendedKeepId := (keepOf first rest).set.id
        overlapMin := roundMinutes (maxOverlapMs sorted) }

/-- The start of the earliest pick. -/
def ConflictGroup.firstMs (g : ConflictGroup) : ℤ := (g.picks.head?.map (·.startMs)).getD 0

/-- The groups, the earliest first. -/
def conflictGroups (picks : List ConflictPick) : List ConflictGroup :=
  ((clusters picks).filterMap fun c => groupOf c.2).insertionSort fun g g' =>
    g.firstMs ≤ g'.firstMs

/-- The clashes among the picks of a day. -/
def buildPickConflicts (host : Host) (input : BuildPickConflictsInput) :
    Except String (List ConflictGroup) := do
  let picks ← conflictPicks host input
  return if picks.length < 2 then [] else conflictGroups picks

/-! ## Components -/

theorem Overlaps.symm {a b : ConflictPick} (h : Overlaps a b) : Overlaps b a := ⟨h.2, h.1⟩

/-- The picks at two positions overlap. -/
def OverlapAt (picks : List ConflictPick) (i j : ℕ) : Prop :=
  ∃ a ∈ picks[i]?, ∃ b ∈ picks[j]?, Overlaps a b

/-- The picks at two positions overlap directly or through others. -/
def Linked (picks : List ConflictPick) : ℕ → ℕ → Prop := Relation.EqvGen (OverlapAt picks)

open Classical in
/-- The picks that are linked with the one at a position, in their order. -/
noncomputable def members (picks : List ConflictPick) (i : ℕ) : List ConflictPick :=
  (picks.zipIdx.filter fun p => Linked picks i p.2).map Prod.fst

section
variable {picks : List ConflictPick} {i j : ℕ}

theorem overlapAt_of_mem_edges (h : (i, j) ∈ overlapEdges picks) : OverlapAt picks i j := by
  obtain ⟨⟨⟨a, i'⟩, ⟨b, j'⟩⟩, hp, heq⟩ := List.mem_map.mp h
  obtain ⟨hpairs, hoverlap⟩ := mem_filter.mp hp
  obtain ⟨rfl, rfl⟩ := Prod.mk.inj heq
  obtain ⟨ha, hb⟩ := mem_of_mem_pairs hpairs
  exact ⟨a, mk_mem_zipIdx_iff_getElem?.mp ha, b, mk_mem_zipIdx_iff_getElem?.mp hb,
    of_decide_eq_true hoverlap⟩

theorem OverlapAt.lt (h : OverlapAt picks i j) : i < picks.length ∧ j < picks.length := by
  obtain ⟨a, ha, b, hb, -⟩ := h
  exact ⟨(List.getElem?_eq_some_iff.mp ha).1, (List.getElem?_eq_some_iff.mp hb).1⟩

/-- The edges connect what overlaps directly or through others. -/
theorem connected_iff : UnionFind.Connected (overlapEdges picks) i j ↔ Linked picks i j := by
  constructor
  · exact Relation.EqvGen.mono (fun _ _ => overlapAt_of_mem_edges) _ _
  · intro h
    induction h with
    | rel i j hij =>
      obtain ⟨a, ha, b, hb, hoverlap⟩ := hij
      rcases eq_or_ne i j with rfl | hne
      · exact Relation.EqvGen.refl i
      · have hpair := mem_pairs (mk_mem_zipIdx_iff_getElem?.mpr ha)
          (mk_mem_zipIdx_iff_getElem?.mpr hb) fun heq => hne (congrArg Prod.snd heq)
        rcases hpair with hpair | hpair
        · exact Relation.EqvGen.rel _ _ (List.mem_map.mpr
            ⟨_, mem_filter.mpr ⟨hpair, decide_eq_true hoverlap⟩, rfl⟩)
        · exact (Relation.EqvGen.rel _ _ (List.mem_map.mpr
            ⟨_, mem_filter.mpr ⟨hpair, decide_eq_true hoverlap.symm⟩, rfl⟩)).symm
    | refl i => exact Relation.EqvGen.refl i
    | symm i j _ ih => exact ih.symm
    | trans i j k _ _ ih ih' => exact ih.trans _ _ _ ih'

theorem foldl_find {n : ℕ} {parent rep : ℕ → ℕ} {l : List (ConflictPick × ℕ)}
    {buckets : List (ℕ × List ConflictPick)} (h : UnionFind.Represents n parent rep)
    (hl : ∀ p ∈ l, p.2 < n) :
    (l.foldl (fun (s : (ℕ → ℕ) × List (ℕ × List ConflictPick)) p =>
      let (root, parent) := UnionFind.find n s.1 p.2
      (parent, Groups.push root p.1 s.2)) (parent, buckets)).2 =
        l.foldl (fun groups p => Groups.push (rep p.2) p.1 groups) buckets := by
  induction l generalizing parent buckets with
  | nil => rfl
  | cons p l ih =>
    obtain ⟨hroot, hparent⟩ := h.find (hl p mem_cons_self)
    rw [foldl_cons, foldl_cons, ih hparent fun p hp => hl p (mem_cons_of_mem _ hp),
      hroot]

/-- The picks are collected under the representatives of their components. -/
theorem clusters_eq (picks : List ConflictPick) : ∃ rep : ℕ → ℕ,
    clusters picks = Groups.collect (fun p => rep p.2) Prod.fst picks.zipIdx ∧
      ∀ i j, rep i = rep j ↔ Linked picks i j := by
  obtain ⟨rep, hrep, hiff⟩ := UnionFind.exists_represents (n := picks.length)
    (overlapEdges picks) fun e he => (overlapAt_of_mem_edges he).lt
  refine ⟨rep, foldl_find hrep fun p hp => ?_, fun i j => (hiff i j).trans connected_iff⟩
  exact (List.getElem?_eq_some_iff.mp (mk_mem_zipIdx_iff_getElem?.mp hp)).1

theorem mem_members {a : ConflictPick} :
    a ∈ members picks i ↔ ∃ j, picks[j]? = some a ∧ Linked picks i j := by
  unfold members
  simp [mk_mem_zipIdx_iff_getElem?]

theorem self_mem_members (hi : i < picks.length) : picks[i] ∈ members picks i :=
  mem_members.mpr ⟨i, getElem?_eq_getElem hi, Relation.EqvGen.refl i⟩

theorem members_congr (h : Linked picks i j) : members picks i = members picks j := by
  unfold members
  refine congrArg _ (filter_congr fun p _ => ?_)
  exact decide_eq_decide.mpr ⟨fun hi => h.symm.trans _ _ _ hi, fun hj => h.trans _ _ _ hj⟩

/-- The clusters are the components, each under its representative. -/
theorem clusters_spec (picks : List ConflictPick) : ∃ rep : ℕ → ℕ,
    (∀ i j, rep i = rep j ↔ Linked picks i j) ∧
      (clusters picks).Pairwise (fun c c' => c.1 ≠ c'.1) ∧
      ∀ c, c ∈ clusters picks ↔ ∃ i < picks.length, c = (rep i, members picks i) := by
  obtain ⟨rep, hclusters, hrep⟩ := clusters_eq picks
  have hfilter (i : ℕ) : (picks.zipIdx.filter fun p => rep p.2 = rep i).map Prod.fst =
      members picks i := by
    unfold members
    refine congrArg _ (filter_congr fun p _ => ?_)
    rw [decide_eq_decide, hrep]
    exact ⟨fun h => h.symm, fun h => h.symm⟩
  refine ⟨rep, hrep, ?_, fun c => ?_⟩
  · rw [hclusters]
    exact pairwise_map.mp (Groups.uniqueKeys_collect _ _ _)
  · rw [hclusters, Groups.mem_collect_iff]
    constructor
    · rintro ⟨hne, heq⟩
      obtain ⟨a, ha⟩ := exists_mem_of_ne_nil _ hne
      rw [heq] at ha
      obtain ⟨⟨a, i⟩, hp, rfl⟩ := List.mem_map.mp ha
      obtain ⟨hmem, hkey⟩ := mem_filter.mp hp
      have hi : rep i = c.1 := of_decide_eq_true hkey
      refine ⟨i, (List.getElem?_eq_some_iff.mp (mk_mem_zipIdx_iff_getElem?.mp hmem)).1, ?_⟩
      rw [← hi, hfilter] at heq
      exact Prod.ext hi.symm heq
    · rintro ⟨i, hi, rfl⟩
      exact ⟨ne_nil_of_mem (self_mem_members hi), (hfilter i).symm⟩

end

/-! ## Groups -/

/-- What the picks are sorted by, to find the one to keep: the strongest priority, the longest
duration, the earliest start and the least id. -/
def ConflictPick.keepKey (p : ConflictPick) : Lex (ℕ × Lex (ℤ × Lex (ℤ × Text))) :=
  toLex (p.priority.rank, toLex (-p.durationMin.getD 0, toLex (p.startMs, ofString p.set.id)))

theorem wins_iff {cur best : ConflictPick} {d d' : ℤ} (hd : cur.durationMin = some d)
    (hd' : best.durationMin = some d') : wins cur best = true ↔ cur.keepKey < best.keepKey := by
  unfold wins ConflictPick.keepKey
  simp only [hd, hd', Prod.Lex.toLex_lt_toLex, getD_some, reduceCtorEq, or_false, ne_eq,
    some.injEq, neg_lt_neg_iff, neg_inj]
  split_ifs with hrank hdur hstart
  · simp only [hrank, hdur, hstart, lt_irrefl, false_or, true_and, decide_eq_true_eq]
  · simp only [hrank, hdur, hstart, lt_irrefl, false_or, true_and, false_and, or_false,
      decide_eq_true_eq]
  · simp only [hrank, hdur, lt_irrefl, false_or, true_and, false_and, or_false, decide_eq_true_eq,
      gt_iff_lt]
  · simp only [hrank, false_and, or_false, decide_eq_true_eq]

/-- The pick to keep is among the picks, and no pick comes before it. -/
theorem keepOf_spec (first : ConflictPick) (rest : List ConflictPick)
    (hnumbers : ∀ p ∈ first :: rest, ∃ d, p.durationMin = some d) :
    keepOf first rest ∈ first :: rest ∧
      ∀ p ∈ first :: rest, (keepOf first rest).keepKey ≤ p.keepKey := by
  induction rest generalizing first with
  | nil => simp [keepOf]
  | cons cur rest ih =>
    obtain ⟨d, hd⟩ := hnumbers first (by simp)
    obtain ⟨d', hd'⟩ := hnumbers cur (by simp)
    have hwins := wins_iff hd' hd
    rw [show keepOf first (cur :: rest) = keepOf (if wins cur first then cur else first) rest
      from rfl]
    split
    · next hcur =>
      have hless := hwins.mp hcur
      obtain ⟨hmem, hleast⟩ := ih cur fun p hp =>
        hnumbers p (mem_cons_of_mem _ hp)
      refine ⟨mem_cons_of_mem _ hmem, fun p hp => ?_⟩
      rcases mem_cons.mp hp with rfl | hp
      · exact (hleast cur mem_cons_self).trans hless.le
      · exact hleast p hp
    · next hcur =>
      have hle := not_lt.mp (mt hwins.mpr hcur)
      obtain ⟨hmem, hleast⟩ := ih first fun p hp => hnumbers p (by
        rcases mem_cons.mp hp with rfl | hp <;> simp [*])
      refine ⟨?_, fun p hp => ?_⟩
      · rcases mem_cons.mp hmem with heq | hin
        · rw [heq]
          exact mem_cons_self
        · exact mem_cons_of_mem _ (mem_cons_of_mem _ hin)
      · rcases mem_cons.mp hp with rfl | hp
        · exact hleast _ mem_cons_self
        · rcases mem_cons.mp hp with rfl | hp
          · exact (hleast _ mem_cons_self).trans hle
          · exact hleast p (mem_cons_of_mem _ hp)

/-- What two picks share, nothing when their intervals do not meet. -/
def overlapMs (a b : ConflictPick) : ℤ := ((sharedMs a b).getD 0) ⊔ 0

variable {longest : ℤ} {bucket' : List ConflictPick} {g' : ConflictGroup}

/-- The longest so far is replaced by what is longer. -/
theorem longer_eq (h : 0 ≤ longest) (a b : ConflictPick) :
    (match sharedMs a b with
      | some overlap => if overlap > longest then overlap else longest
      | none => longest) = max longest (overlapMs a b) := by
  unfold overlapMs
  cases sharedMs a b with
  | none => simp [h]
  | some overlap =>
    simp only [getD_some]
    split <;> omega

theorem foldl_longest (ps : List (ConflictPick × ConflictPick)) (h : 0 ≤ longest) :
    ∃ r, ps.foldl (fun longest p =>
        match sharedMs p.1 p.2 with
        | some overlap => if overlap > longest then overlap else longest
        | none => longest) longest = r ∧ longest ≤ r ∧ (∀ p ∈ ps, overlapMs p.1 p.2 ≤ r) ∧
      (r = longest ∨ ∃ p ∈ ps, overlapMs p.1 p.2 = r) := by
  induction ps generalizing longest with
  | nil => exact ⟨longest, rfl, le_rfl, by simp, .inl rfl⟩
  | cons p ps ih =>
    obtain ⟨r, hr, hle, hall, hfound⟩ := ih (show 0 ≤ max longest (overlapMs p.1 p.2) by omega)
    refine ⟨r, ?_, by omega, ?_, ?_⟩
    · rw [foldl_cons, longer_eq h]
      exact hr
    · intro q hq
      rcases mem_cons.mp hq with rfl | hq
      · omega
      · exact hall q hq
    · rcases hfound with heq | ⟨q, hq, heq⟩
      · rcases max_choice longest (overlapMs p.1 p.2) with hmax | hmax
        · exact .inl (heq.trans hmax)
        · exact .inr ⟨p, mem_cons_self, (heq.trans hmax).symm⟩
      · exact .inr ⟨q, mem_cons_of_mem _ hq, heq⟩

/-- **The longest overlap is the largest of the overlaps of two picks.** -/
theorem maxOverlapMs_spec {picks : List ConflictPick} (h : 2 ≤ picks.length) :
    (∃ p ∈ pairs picks, overlapMs p.1 p.2 = maxOverlapMs picks) ∧
      ∀ p ∈ pairs picks, overlapMs p.1 p.2 ≤ maxOverlapMs picks := by
  obtain ⟨r, hr, hle, hall, hfound⟩ := foldl_longest (pairs picks) (le_refl 0)
  rw [maxOverlapMs, hr]
  refine ⟨?_, hall⟩
  rcases hfound with rfl | hfound
  · match picks, h with
    | a :: b :: rest, _ =>
      have hfirst := hall (a, b) (by simp [pairs])
      have hpos : 0 ≤ overlapMs a b := le_max_right _ _
      exact ⟨(a, b), by simp [pairs], le_antisymm hfirst hpos⟩
  · exact hfound

variable {bucket : List ConflictPick} {g : ConflictGroup} {host : Host}
  {input : BuildPickConflictsInput}

theorem groupOf_spec (h : groupOf bucket = some g) :
    2 ≤ bucket.length ∧ g.picks = bucket.insertionSort ConflictPick.before ∧
      ∃ first rest, g.picks = first :: rest ∧
        g.recommendedKeepId = (keepOf first rest).set.id ∧
        g.overlapMin = roundMinutes (maxOverlapMs g.picks) := by
  unfold groupOf at h
  simp only at h
  split at h
  · cases h
  · next hlong =>
    split at h
    · cases h
    · next first rest hsorted =>
      obtain rfl := some.inj h
      exact ⟨not_lt.mp hlong, rfl, first, rest, hsorted, rfl, rfl⟩

theorem groupOf_isSome (h : 2 ≤ bucket.length) : ∃ g, groupOf bucket = some g := by
  unfold groupOf
  rw [if_neg (not_lt.mpr h)]
  simp only
  split
  · next hnil =>
    have hperm := (perm_insertionSort ConflictPick.before bucket).length_eq
    rw [hnil, length_nil] at hperm
    omega
  · exact ⟨_, rfl⟩

/-! ## The groups are the components -/

/-- The groups are the components of two picks or more, one group for each, with the best pick of
the component and the longest overlap in it. -/
structure Components (picks : List ConflictPick) (groups : List ConflictGroup) : Prop where
  sound : ∀ g ∈ groups, 2 ≤ g.picks.length ∧ ∃ i < picks.length, g.picks.Perm (members picks i)
  complete : ∀ i < picks.length, 2 ≤ (members picks i).length →
    ∃ g ∈ groups, g.picks.Perm (members picks i)
  apart : groups.Pairwise fun g g' => ∃ i j, ¬Linked picks i j ∧
    g.picks.Perm (members picks i) ∧ g'.picks.Perm (members picks j)
  keep : ∀ g ∈ groups, ∃ k ∈ g.picks, g.recommendedKeepId = k.set.id ∧
    ∀ p ∈ g.picks, k.keepKey ≤ p.keepKey
  overlap : ∀ g ∈ groups, ∃ longest, g.overlapMin = roundMinutes longest ∧
    (∃ p ∈ pairs g.picks, overlapMs p.1 p.2 = longest) ∧
    ∀ p ∈ pairs g.picks, overlapMs p.1 p.2 ≤ longest

section
variable {picks : List ConflictPick} {i j : ℕ}

theorem OverlapAt.symm (h : OverlapAt picks i j) : OverlapAt picks j i := by
  obtain ⟨a, ha, b, hb, hoverlap⟩ := h
  exact ⟨b, hb, a, ha, hoverlap.symm⟩

/-- What is linked with another pick overlaps some pick. -/
theorem overlapAt_of_linked (h : Linked picks i j) :
    i = j ∨ (∃ k, OverlapAt picks i k) ∧ ∃ k, OverlapAt picks j k := by
  induction h with
  | rel i j hij => exact .inr ⟨⟨j, hij⟩, i, hij.symm⟩
  | refl i => exact .inl rfl
  | symm i j _ ih => exact ih.imp Eq.symm And.symm
  | trans i j k _ _ ih ih' =>
    rcases ih with rfl | ⟨hi, hj⟩
    · exact ih'
    · rcases ih' with rfl | ⟨-, hk⟩
      · exact .inr ⟨hi, hj⟩
      · exact .inr ⟨hi, hk⟩

theorem exists_ne_of_two_le {l : List ℕ} (hn : l.Nodup) (h : 2 ≤ l.length) (x : ℕ) :
    ∃ y ∈ l, y ≠ x := by
  match l, h with
  | a :: b :: l, _ =>
    have hab : a ≠ b := by
      rintro rfl
      simp at hn
    rcases eq_or_ne a x with rfl | hne
    · exact ⟨b, by simp, hab.symm⟩
    · exact ⟨a, by simp, hne⟩

/-- In a component of two picks or more every pick overlaps another member. -/
theorem exists_overlap {a : ConflictPick} (h : 2 ≤ (members picks i).length)
    (ha : a ∈ members picks i) : ∃ b ∈ members picks i, Overlaps a b := by
  classical
  obtain ⟨l, hl, hil⟩ := mem_members.mp ha
  have hnodup : ((picks.zipIdx.filter fun p => Linked picks i p.2).map Prod.snd).Nodup := by
    have hall : (picks.zipIdx.map Prod.snd).Nodup := by
      rw [zipIdx_map_snd]
      exact nodup_range'
    exact hall.sublist ((filter_sublist).map _)
  obtain ⟨m, hm, hne⟩ := exists_ne_of_two_le hnodup (by simpa [members] using h) l
  obtain ⟨⟨c, m⟩, hmem, rfl⟩ := List.mem_map.mp hm
  have him : Linked picks i m := of_decide_eq_true (mem_filter.mp hmem).2
  rcases overlapAt_of_linked ((hil.symm).trans _ _ _ him) with heq | ⟨⟨k, hlk⟩, -⟩
  · exact absurd heq.symm hne
  · have hlinked : Linked picks i k := hil.trans _ _ _ (Relation.EqvGen.rel _ _ hlk)
    obtain ⟨a', ha', b, hb, hoverlap⟩ := hlk
    obtain rfl := some.inj (hl.symm.trans ha')
    exact ⟨b, mem_members.mpr ⟨k, hb, hlinked⟩, hoverlap⟩

theorem mem_conflictGroups :
    g ∈ conflictGroups picks ↔ ∃ i < picks.length, groupOf (members picks i) = some g := by
  obtain ⟨rep, -, -, hmem⟩ := clusters_spec picks
  unfold conflictGroups
  rw [mem_insertionSort, mem_filterMap]
  constructor
  · rintro ⟨c, hc, hg⟩
    obtain ⟨i, hi, rfl⟩ := (hmem c).mp hc
    exact ⟨i, hi, hg⟩
  · rintro ⟨i, hi, hg⟩
    exact ⟨_, (hmem _).mpr ⟨i, hi, rfl⟩, hg⟩

theorem perm_of_groupOf (h : groupOf bucket = some g) : g.picks.Perm bucket := by
  rw [(groupOf_spec h).2.1]
  exact perm_insertionSort _ _

/-- Two groups are of different components. -/
theorem pairwise_conflictGroups (picks : List ConflictPick) :
    (conflictGroups picks).Pairwise fun g g' => ∃ i j, ¬Linked picks i j ∧
      g.picks.Perm (members picks i) ∧ g'.picks.Perm (members picks j) := by
  obtain ⟨rep, hrep, hkeys, hmem⟩ := clusters_spec picks
  refine ((perm_insertionSort _ _).pairwise_iff ?_).mpr (pairwise_filterMap.mpr ?_)
  · rintro g g' ⟨i, j, hne, hi, hj⟩
    exact ⟨j, i, fun h => hne h.symm, hj, hi⟩
  · refine List.Pairwise.imp_of_mem ?_ hkeys
    intro c c' hc hc' hne g hg g' hg'
    obtain ⟨i, -, rfl⟩ := (hmem c).mp hc
    obtain ⟨j, -, rfl⟩ := (hmem c').mp hc'
    exact ⟨i, j, fun h => hne ((hrep i j).mpr h), perm_of_groupOf hg, perm_of_groupOf hg'⟩

/-- **The groups are the components.** -/
theorem conflictGroups_components (hbuilt : ∀ p ∈ picks,
    p.durationMin = p.endMs.map fun e => roundMinutes (e - p.startMs)) :
    Components picks (conflictGroups picks) := by
  refine ⟨fun g hg => ?_, fun i hi htwo => ?_, ?_, fun g hg => ?_, fun g hg => ?_⟩
  · obtain ⟨i, hi, hgroup⟩ := mem_conflictGroups.mp hg
    have hperm := perm_of_groupOf hgroup
    refine ⟨?_, i, hi, hperm⟩
    rw [hperm.length_eq]
    exact (groupOf_spec hgroup).1
  · obtain ⟨g, hgroup⟩ := groupOf_isSome htwo
    exact ⟨g, mem_conflictGroups.mpr ⟨i, hi, hgroup⟩, perm_of_groupOf hgroup⟩
  · exact pairwise_conflictGroups picks
  · obtain ⟨i, hi, hgroup⟩ := mem_conflictGroups.mp hg
    obtain ⟨htwo, -, first, rest, hpicks, hkeep, -⟩ := groupOf_spec hgroup
    have hnumbers : ∀ p ∈ first :: rest, ∃ d, p.durationMin = some d := by
      intro p hp
      rw [← hpicks] at hp
      have hmember := (perm_of_groupOf hgroup).mem_iff.mp hp
      obtain ⟨b, -, -, e, he, -⟩ := exists_overlap htwo hmember
      obtain ⟨j, hj, -⟩ := mem_members.mp hmember
      refine ⟨roundMinutes (e - p.startMs), ?_⟩
      rw [hbuilt p (mem_of_getElem? hj), he]
      rfl
    obtain ⟨hmem, hleast⟩ := keepOf_spec _ _ hnumbers
    rw [← hpicks] at hmem hleast
    exact ⟨_, hmem, hkeep, hleast⟩
  · obtain ⟨i, hi, hgroup⟩ := mem_conflictGroups.mp hg
    obtain ⟨htwo, -, -, -, -, -, hoverlap⟩ := groupOf_spec hgroup
    rw [← (perm_of_groupOf hgroup).length_eq] at htwo
    obtain ⟨hfound, hall⟩ := maxOverlapMs_spec htwo
    exact ⟨_, hoverlap, hfound, hall⟩

end

/-! ## The order of the sets -/

/-- The picks overlap directly or through others. -/
def LinkedPicks (picks : List ConflictPick) : ConflictPick → ConflictPick → Prop :=
  Relation.EqvGen fun a b => a ∈ picks ∧ b ∈ picks ∧ Overlaps a b

open Classical in
/-- The picks that are linked with a pick. -/
noncomputable def component (picks : List ConflictPick) (a : ConflictPick) : List ConflictPick :=
  picks.filter fun b => LinkedPicks picks a b

section
variable {picks picks' : List ConflictPick} {i j : ℕ} {a b : ConflictPick}

theorem linkedPicks_of_linked (h : Linked picks i j) :
    i = j ∨ ∃ a b, picks[i]? = some a ∧ picks[j]? = some b ∧ LinkedPicks picks a b := by
  induction h with
  | rel i j hij =>
    obtain ⟨a, ha, b, hb, hoverlap⟩ := hij
    exact .inr ⟨a, b, ha, hb, Relation.EqvGen.rel _ _
      ⟨mem_of_getElem? ha, mem_of_getElem? hb, hoverlap⟩⟩
  | refl i => exact .inl rfl
  | symm i j _ ih =>
    rcases ih with rfl | ⟨a, b, ha, hb, hab⟩
    · exact .inl rfl
    · exact .inr ⟨b, a, hb, ha, hab.symm⟩
  | trans i j k _ _ ih ih' =>
    rcases ih with rfl | ⟨a, b, ha, hb, hab⟩
    · exact ih'
    · rcases ih' with rfl | ⟨b', c, hb', hc, hbc⟩
      · exact .inr ⟨a, b, ha, hb, hab⟩
      · obtain rfl := some.inj (hb.symm.trans hb')
        exact .inr ⟨a, c, ha, hc, hab.trans _ _ _ hbc⟩

theorem linked_of_linkedPicks (h : LinkedPicks picks a b) :
    Linked picks (picks.idxOf a) (picks.idxOf b) := by
  induction h with
  | rel a b hab =>
    obtain ⟨ha, hb, hoverlap⟩ := hab
    exact Relation.EqvGen.rel _ _ ⟨a, getElem?_idxOf ha, b, getElem?_idxOf hb, hoverlap⟩
  | refl a => exact Relation.EqvGen.refl _
  | symm a b _ ih => exact ih.symm
  | trans a b c _ _ ih ih' => exact ih.trans _ _ _ ih'

theorem idxOf_of_getElem? (hn : picks.Nodup) (ha : picks[i]? = some a) : picks.idxOf a = i := by
  obtain ⟨hi, rfl⟩ := List.getElem?_eq_some_iff.mp ha
  exact hn.idxOf_getElem i hi

theorem linked_iff (hn : picks.Nodup) (ha : picks[i]? = some a) (hb : picks[j]? = some b) :
    Linked picks i j ↔ LinkedPicks picks a b := by
  constructor
  · intro h
    rcases linkedPicks_of_linked h with rfl | ⟨a', b', ha', hb', hab⟩
    · obtain rfl := some.inj (ha.symm.trans hb)
      exact Relation.EqvGen.refl a
    · obtain rfl := some.inj (ha.symm.trans ha')
      obtain rfl := some.inj (hb.symm.trans hb')
      exact hab
  · intro h
    have := linked_of_linkedPicks h
    rwa [idxOf_of_getElem? hn ha, idxOf_of_getElem? hn hb] at this

/-- The members of a component do not depend on the positions. -/
theorem members_eq (hn : picks.Nodup) (ha : picks[i]? = some a) :
    members picks i = component picks a := by
  classical
  have hfilter : (picks.zipIdx.filter fun p => Linked picks i p.2) =
      picks.zipIdx.filter ((fun b => decide (LinkedPicks picks a b)) ∘ Prod.fst) := by
    refine filter_congr fun p hp => ?_
    exact decide_eq_decide.mpr (linked_iff hn ha (mk_mem_zipIdx_iff_getElem?.mp hp))
  unfold members component
  rw [show (picks.zipIdx.filter fun p => decide (Linked picks i p.2)) = _ from hfilter,
    ← List.filter_map, zipIdx_map_fst]

theorem component_perm (hp : picks.Perm picks') (a : ConflictPick) :
    (component picks a).Perm (component picks' a) := by
  have hlinked : LinkedPicks picks = LinkedPicks picks' := by
    unfold LinkedPicks
    refine congrArg _ ?_
    funext a b
    rw [hp.mem_iff, hp.mem_iff]
  unfold component
  rw [hlinked]
  exact hp.filter _

/-- Picks of different ids are in one order only. -/
theorem sorted_perm (hunique : UniqueKeys (·.set.id) bucket) (hp : bucket.Perm bucket') :
    bucket.insertionSort ConflictPick.before = bucket'.insertionSort ConflictPick.before := by
  refine List.Perm.eq_of_pairwise ?_ (pairwise_insertionSort _ _)
    (pairwise_insertionSort _ _)
    (((perm_insertionSort _ _).trans hp).trans (perm_insertionSort _ _).symm)
  intro a b ha hb hab hba
  rw [mem_insertionSort] at ha hb
  have hid : a.set.id = b.set.id := by
    rcases hab with hlt | ⟨heq, hle⟩
    · rcases hba with hlt' | ⟨heq', -⟩ <;> omega
    · rcases hba with hlt' | ⟨-, hle'⟩
      · omega
      · exact ofString_injective (le_antisymm hle hle')
  exact hunique.eq_of_mem ha (hp.mem_iff.mpr hb) hid

theorem groupOf_perm (hunique : UniqueKeys (·.set.id) bucket) (hp : bucket.Perm bucket') :
    groupOf bucket = groupOf bucket' := by
  unfold groupOf
  rw [hp.length_eq, sorted_perm hunique hp]

theorem nodup_picks (h : UniqueKeys (·.set.id) picks) : picks.Nodup :=
  List.Nodup.of_map _ h

/-- The groups do not depend on the order of the picks, but for their own order. -/
theorem mem_conflictGroups_perm (hunique : UniqueKeys (·.set.id) picks)
    (hp : picks.Perm picks') (hg : g ∈ conflictGroups picks) : g ∈ conflictGroups picks' := by
  have hn := nodup_picks hunique
  obtain ⟨i, hi, hgroup⟩ := mem_conflictGroups.mp hg
  have ha : picks[i]? = some picks[i] := getElem?_eq_getElem hi
  obtain ⟨j, hj, hja⟩ := getElem_of_mem (hp.mem_iff.mp (getElem_mem hi))
  refine mem_conflictGroups.mpr ⟨j, hj, ?_⟩
  rw [members_eq hn ha] at hgroup
  rw [members_eq (hp.nodup_iff.mp hn) (getElem?_eq_getElem hj), hja, ← hgroup]
  refine (groupOf_perm ?_ (component_perm hp _)).symm
  exact hunique.filter _

/-- The earliest pick of a group ends after it starts. -/
theorem first_of_group (hg : groupOf (members picks i) = some g) :
    ∃ k first, picks[k]? = some first ∧ Linked picks i k ∧ g.firstMs = first.startMs ∧
      ∃ e ∈ first.endMs, first.startMs < e := by
  obtain ⟨htwo, hsorted, first, rest, hpicks, -, -⟩ := groupOf_spec hg
  have hmember : first ∈ members picks i := by
    rw [← (perm_of_groupOf hg).mem_iff, hpicks]
    exact mem_cons_self
  obtain ⟨k, hk, hlinked⟩ := mem_members.mp hmember
  obtain ⟨b, hb, -, e, he, hlt⟩ := exists_overlap htwo hmember
  refine ⟨k, first, hk, hlinked, by rw [ConflictGroup.firstMs, hpicks]; rfl, e, he, ?_⟩
  -- the pick that it overlaps starts no earlier
  have hle : first.startMs ≤ b.startMs := by
    rw [← (perm_of_groupOf hg).mem_iff, hpicks] at hb
    have hpairwise := pairwise_insertionSort ConflictPick.before (members picks i)
    rw [← hsorted, hpicks, pairwise_cons] at hpairwise
    rcases mem_cons.mp hb with rfl | hb
    · exact le_rfl
    · rcases hpairwise.1 b hb with hbefore | ⟨heq, -⟩
      · exact hbefore.le
      · exact heq.le
  omega

/-- Groups with one earliest start are one group. -/
theorem linked_of_firstMs (hg : groupOf (members picks i) = some g)
    (hg' : groupOf (members picks j) = some g') (hfirst : g.firstMs = g'.firstMs) :
    Linked picks i j := by
  obtain ⟨k, a, ha, hik, hstart, e, he, hlt⟩ := first_of_group hg
  obtain ⟨l, b, hb, hjl, hstart', e', he', hlt'⟩ := first_of_group hg'
  have hoverlap : OverlapAt picks k l :=
    ⟨a, ha, b, hb, ⟨e', he', by omega⟩, e, he, by omega⟩
  exact (hik.trans _ _ _ (Relation.EqvGen.rel _ _ hoverlap)).trans _ _ _ hjl.symm

theorem eq_of_firstMs (hg : g ∈ conflictGroups picks) (hg' : g' ∈ conflictGroups picks)
    (hfirst : g.firstMs = g'.firstMs) : g = g' := by
  obtain ⟨i, -, hi⟩ := mem_conflictGroups.mp hg
  obtain ⟨j, -, hj⟩ := mem_conflictGroups.mp hg'
  rw [members_congr (linked_of_firstMs hi hj hfirst), hj] at hi
  exact (some.inj hi).symm

theorem nodup_conflictGroups (hn : picks.Nodup) : (conflictGroups picks).Nodup := by
  refine List.Pairwise.imp_of_mem ?_ (pairwise_conflictGroups picks)
  rintro g _ hg - ⟨i, j, hne, hi, hj⟩ rfl
  obtain ⟨k, -, hgroup⟩ := mem_conflictGroups.mp hg
  obtain ⟨-, -, first, rest, hpicks, -⟩ := groupOf_spec hgroup
  have hmem : first ∈ g.picks := by
    rw [hpicks]
    exact mem_cons_self
  obtain ⟨l, hl, hil⟩ := mem_members.mp (hi.mem_iff.mp hmem)
  obtain ⟨m, hm, hjm⟩ := mem_members.mp (hj.mem_iff.mp hmem)
  rw [← idxOf_of_getElem? hn hl, idxOf_of_getElem? hn hm] at hil
  exact hne (hil.trans _ _ _ hjm.symm)

/-- **The groups do not depend on the order of the picks.** -/
theorem conflictGroups_perm (hunique : UniqueKeys (·.set.id) picks)
    (hp : picks.Perm picks') : conflictGroups picks = conflictGroups picks' := by
  have hunique' := UniqueKeys.of_perm hp hunique
  have hperm : (conflictGroups picks).Perm (conflictGroups picks') := by
    refine (perm_ext_iff_of_nodup (nodup_conflictGroups (nodup_picks hunique))
      (nodup_conflictGroups (nodup_picks hunique'))).mpr fun g => ?_
    exact ⟨mem_conflictGroups_perm hunique hp, mem_conflictGroups_perm hunique' hp.symm⟩
  refine List.Perm.eq_of_pairwise ?_ (pairwise_insertionSort _ _)
    (pairwise_insertionSort _ _) hperm
  intro g g' hg hg' hle hle'
  exact eq_of_firstMs hg (hperm.mem_iff.mpr hg') (le_antisymm hle hle')

end

/-! ## The picks of the day -/

theorem filterMapM_perm {ε α β : Type} {f : α → Except ε (Option β)} {l l' : List α}
    {out : List β} (hp : l.Perm l') (h : l.filterMapM f = .ok out) :
    ∃ out', l'.filterMapM f = .ok out' ∧ out.Perm out' := by
  obtain ⟨hall, rfl⟩ := filterMapM_eq_ok.mp h
  exact ⟨_, filterMapM_eq_ok.mpr ⟨fun a ha => hall a (hp.mem_iff.mpr ha), rfl⟩, hp.filterMap _⟩

theorem conflictPick_spec {days : List FestivalDay} {set : FestivalSet} {p : ConflictPick}
    (h : conflictPick host input days set = .ok (some p)) :
    p.set = set ∧ p.durationMin = p.endMs.map fun e => roundMinutes (e - p.startMs) := by
  unfold conflictPick at h
  split at h
  · cases h
  split at h
  · cases h
  obtain ⟨bounds, -, h⟩ := Table.bind_eq_ok.mp h
  cases bounds with
  | none => cases h
  | some bounds =>
    obtain rfl := some.inj (Except.ok.inj h)
    refine ⟨rfl, ?_⟩
    cases bounds.endMs <;> rfl

theorem length_members_le (picks : List ConflictPick) (i : ℕ) :
    (members picks i).length ≤ picks.length := by
  classical
  unfold members
  rw [length_map, ← length_zipIdx (l := picks)]
  exact length_filter_le _ _

/-- Where there is one pick at most there is no group. -/
theorem buildPickConflicts_eq {picks : List ConflictPick}
    (h : conflictPicks host input = .ok picks) :
    buildPickConflicts host input = .ok (conflictGroups picks) := by
  unfold buildPickConflicts
  rw [h]
  show Except.ok (if picks.length < 2 then [] else conflictGroups picks) = _
  split
  · next hshort =>
    refine congrArg Except.ok (eq_nil_iff_forall_not_mem.mpr fun g hg => ?_).symm
    obtain ⟨i, -, hgroup⟩ := mem_conflictGroups.mp hg
    have htwo := (groupOf_spec hgroup).1
    have hle := length_members_le picks i
    omega
  · rfl

theorem uniqueKeys_conflictPicks {picks : List ConflictPick}
    (h : conflictPicks host input = .ok picks) (hunique : UniqueKeys (·.id) input.sets) :
    UniqueKeys (·.set.id) picks := by
  unfold conflictPicks at h
  split at h
  · obtain rfl := Except.ok.inj h
    exact nodup_nil
  · refine hunique.sublist (map_sublist_filterMapM (fun set p hp => ?_) h)
    rw [(conflictPick_spec hp).1]

theorem conflictPicks_built {picks : List ConflictPick} (h : conflictPicks host input = .ok picks) :
    ∀ p ∈ picks, p.durationMin = p.endMs.map fun e => roundMinutes (e - p.startMs) := by
  unfold conflictPicks at h
  split at h
  · obtain rfl := Except.ok.inj h
    simp
  · intro p hp
    obtain ⟨set, -, hset⟩ := (mem_filterMapM h).mp hp
    exact (conflictPick_spec hset).2

theorem conflictPicks_perm {picks : List ConflictPick} {sets : List FestivalSet}
    (h : conflictPicks host input = .ok picks) (hp : input.sets.Perm sets) :
    ∃ picks', conflictPicks host { input with sets := sets } = .ok picks' ∧ picks.Perm picks' := by
  unfold conflictPicks at h ⊢
  cases hdays : input.days with
  | none =>
    rw [hdays] at h
    exact ⟨picks, h, List.Perm.refl _⟩
  | some days =>
    rw [hdays] at h
    exact filterMapM_perm hp h

/-- **The clashes of a day are the components of the picks that overlap, and do not depend on the
order of the sets.** -/
theorem buildPickConflicts_components {host : Host} {input : BuildPickConflictsInput}
    {groups : List ConflictGroup} (h : buildPickConflicts host input = .ok groups) :
    (∃ picks, conflictPicks host input = .ok picks ∧ Components picks groups) ∧
      ∀ sets, Keyed.UniqueKeys (·.id) input.sets → input.sets.Perm sets →
        buildPickConflicts host { input with sets := sets } = .ok groups := by
  obtain ⟨picks, hpicks, -⟩ := Table.bind_eq_ok.mp h
  rw [buildPickConflicts_eq hpicks] at h
  obtain rfl := Except.ok.inj h
  refine ⟨⟨picks, hpicks, conflictGroups_components (conflictPicks_built hpicks)⟩, ?_⟩
  intro sets hunique hp
  obtain ⟨picks', hpicks', hperm⟩ := conflictPicks_perm hpicks hp
  rw [buildPickConflicts_eq hpicks',
    conflictGroups_perm (uniqueKeys_conflictPicks hpicks hunique) hperm]

/-- A set of the first day. -/
def firstDaySet (id startTime endTime : String) : FestivalSet :=
  { id := id, dayIndex := some 0, startTime := startTime, endTime := endTime }

/-- Three picks in a chain and one alone. -/
def chainInput : BuildPickConflictsInput where
  sets := [firstDaySet "a" "20:00" "21:00", firstDaySet "b" "20:30" "21:30",
    firstDaySet "c" "21:15" "22:00", firstDaySet "d" "22:00" "23:00"]
  myPicks id := if id = "c" then some .must else some .maybe
  selectedDay := 0
  days := some [{ date := "2026-09-04" }]

/-- The chain is one group, although its ends do not meet. -/
def chainGroup : ConflictGroup where
  picks := [
    { set := firstDaySet "a" "20:00" "21:00", priority := .maybe, startMs := 1788552000000,
      endMs := some 1788555600000, durationMin := some 60 },
    { set := firstDaySet "b" "20:30" "21:30", priority := .maybe, startMs := 1788553800000,
      endMs := some 1788557400000, durationMin := some 60 },
    { set := firstDaySet "c" "21:15" "22:00", priority := .must, startMs := 1788556500000,
      endMs := some 1788559200000, durationMin := some 45 }]
  recommendedKeepId := "c"
  overlapMin := 30

theorem chain_components :
    (∃ picks, conflictPicks (utcHost 0) chainInput = .ok picks ∧ Components picks [chainGroup]) ∧
      ∀ sets, Keyed.UniqueKeys (·.id) chainInput.sets → chainInput.sets.Perm sets →
        buildPickConflicts (utcHost 0) { chainInput with sets := sets } = .ok [chainGroup] :=
  buildPickConflicts_components (by decide +kernel)

end FestivalPlanner.Schedule
