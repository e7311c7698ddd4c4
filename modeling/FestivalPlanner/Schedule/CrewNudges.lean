import FestivalPlanner.Schedule.CrewPlan
import FestivalPlanner.Schedule.PickConflicts

/-!
# Nudges towards the picks of the crew

The model of `buildCrewNudges` of `packages/shared/src/utils/crewNudges.ts`: the sets of a day that
the crew is for and the user has not picked.

* `byUser`, `nudgeFor`, `buildCrewNudges` — the votes of the crew for a set, the nudge for it, and
  the nudges in their order, as many as the limit;
* `Tallied` — one backer for each voter, with the best of the votes;
* `SameNudge` — two nudges that differ at most in the order of backers of one priority and in the
  names of users whose profiles do not agree;
* `buildCrewNudges_reordered` — **the nudges for profiles and sets in another order are the same
  up to that, and a set that qualifies is returned or comes after `limit` others**;
* `buildCrewNudges_sets` — the order of the sets makes no difference at all.
-/

namespace FestivalPlanner.CrewNudges

open Js Schedule Keyed List

/-! ## The function -/

structure ProfilePicks where
  userId : String
  name : Option String := none
  picks : String → Option Priority

structure CrewNudgeBacker where
  userId : String
  name : Option String
  priority : Priority
  deriving DecidableEq

structure CrewNudge where
  set : FestivalSet
  backers : List CrewNudgeBacker
  breakdown : String
  count : ℕ
  topPriority : Priority
  deriving DecidableEq

/-- A nudge with the internal keys of the order. -/
structure ScoredNudge extends CrewNudge where
  score : ℕ
  mustCount : ℕ
  deriving DecidableEq

structure BuildCrewNudgesInput where
  sets : List FestivalSet
  /-- a set has its own id -/
  uniqueIds : UniqueKeys FestivalSet.id sets
  selectedDay : ℤ
  myPicks : String → Option Priority
  allProfiles : List ProfilePicks
  crewMemberUserIds : List String
  myUserId : String
  now : Option ℤ := none
  days : Option (List FestivalDay) := none
  timeZone : String := ""
  limit : ℕ := 5

/-- A vote in the map of the backers: a user keeps the best priority, with a name of the profile
it comes from, or else the name that was there. -/
def castVote (byUser : List CrewNudgeBacker) (profile : ProfilePicks) (priority : Priority) :
    List CrewNudgeBacker :=
  match lookup CrewNudgeBacker.userId profile.userId byUser with
  | none => upsert CrewNudgeBacker.userId ⟨profile.userId, profile.name, priority⟩ byUser
  | some existing =>
    if priority.rank < existing.priority.rank then
      upsert CrewNudgeBacker.userId ⟨profile.userId, profile.name.or existing.name, priority⟩ byUser
    else byUser

/-- The vote of a profile for a set: that of a member of the crew other than the user. -/
def voteOf (input : BuildCrewNudgesInput) (setId : String) (profile : ProfilePicks) :
    Option (ProfilePicks × Priority) :=
  if profile.userId = input.myUserId then none
  else if profile.userId ∉ input.crewMemberUserIds then none
  else (profile.picks setId).map fun priority => (profile, priority)

/-- The backers of a set in the order of their first votes. -/
def byUser (input : BuildCrewNudgesInput) (setId : String) : List CrewNudgeBacker :=
  input.allProfiles.foldl (fun backers profile =>
    match voteOf input setId profile with
    | none => backers
    | some vote => castVote backers vote.1 vote.2) []

/-- The set has ended, as far as the clock and the days are known. -/
def isPast (host : Host) (input : BuildCrewNudgesInput) (set : FestivalSet) : Except String Bool :=
  match input.now, input.days with
  | some now, some days => do
    match ← getSetTimeBounds host set days input.timeZone with
    | none => return false
    | some bounds => return bounds.endMs.any fun endMs => decide (endMs ≤ now)
  | _, _ => .ok false

/-- The nudge for a set with the given backers. -/
def scored (set : FestivalSet) (backers : List CrewNudgeBacker) : Option ScoredNudge :=
  match backers.map CrewNudgeBacker.priority with
  | [] => none
  | topPriority :: rest =>
    let priorities := topPriority :: rest
    let count := priorities.length
    let mustCount := priorities.count .must
    if count < 2 ∧ mustCount = 0 then none
    else some {
      set := set
      backers := backers
      breakdown := buildOverlapBreakdown priorities
      count := count
      topPriority := topPriority
      score := (priorities.map Priority.weight).sum
      mustCount := mustCount }

/-- The pass of the loop for one set. -/
def nudgeFor (host : Host) (input : BuildCrewNudgesInput) (set : FestivalSet) :
    Except String (Option ScoredNudge) :=
  if set.dayIndex.getD 0 ≠ input.selectedDay then .ok none
  else if (input.myPicks set.id).isSome then .ok none
  else do
    if ← isPast host input set then return none
    else
      let backers := (byUser input set.id).insertionSort fun a b =>
        a.priority.rank ≤ b.priority.rank
      return scored set backers

/-- What the nudges are ordered by: the greatest score first, then the most musts, then the most
backers, then the start, then the id; the times and the ids are of ASCII characters. -/
def ScoredNudge.key (n : ScoredNudge) : ℤ ×ₗ ℤ ×ₗ ℤ ×ₗ String ×ₗ String :=
  toLex (-(n.score : ℤ), toLex (-(n.mustCount : ℤ), toLex (-(n.count : ℤ),
    toLex (n.set.startTime, n.set.id))))

/-- The nudges in the order of their ranks. -/
def ranked (nudges : List ScoredNudge) : List ScoredNudge :=
  nudges.insertionSort fun a b => a.key ≤ b.key

@[grind =] def buildCrewNudges (host : Host) (input : BuildCrewNudgesInput) :
    Except String (List CrewNudge) :=
  if input.crewMemberUserIds = [] then .ok []
  else do
    let nudges ← input.sets.filterMapM (nudgeFor host input)
    return ((ranked nudges).take input.limit).map ScoredNudge.toCrewNudge

/-! ## The votes -/

/-- The votes for a set, in the order of the profiles. -/
def votes (input : BuildCrewNudgesInput) (setId : String) : List (ProfilePicks × Priority) :=
  input.allProfiles.filterMap (voteOf input setId)

theorem byUser_eq (input : BuildCrewNudgesInput) (setId : String) :
    byUser input setId =
      (votes input setId).foldl (fun backers v => castVote backers v.1 v.2) [] := by
  rw [byUser, votes, foldl_filterMap]
  congr 1
  funext backers profile
  cases voteOf input setId profile <;> rfl

/-- The best priority that a user votes with. -/
def Best (vs : List (ProfilePicks × Priority)) (userId : String) (p : Priority) : Prop :=
  (∃ v ∈ vs, v.1.userId = userId ∧ v.2 = p) ∧ ∀ v ∈ vs, v.1.userId = userId → p.rank ≤ v.2.rank

/-- There is one backer for each voter, with the best of the votes and the name of one of them. -/
structure Tallied (vs : List (ProfilePicks × Priority)) (backers : List CrewNudgeBacker) :
    Prop where
  unique : UniqueKeys CrewNudgeBacker.userId backers
  best : ∀ b ∈ backers, Best vs b.userId b.priority
  covered : ∀ v ∈ vs, ∃ b ∈ backers, b.userId = v.1.userId
  named : ∀ b ∈ backers, ∃ v ∈ vs, v.1.userId = b.userId ∧ v.1.name = b.name

variable {vs vs' : List (ProfilePicks × Priority)} {userId setId : String} {p : Priority}
  {v : ProfilePicks × Priority} {backers : List CrewNudgeBacker} {n : ScoredNudge}
  {set : FestivalSet} {out : List CrewNudge}

/-- A vote of another user changes nothing for a user. -/
theorem Best.append_of_ne (h : Best vs userId p) (hv : v.1.userId ≠ userId) :
    Best (vs ++ [v]) userId p := by
  obtain ⟨⟨w, hw, huser, hp⟩, hbest⟩ := h
  refine ⟨⟨w, mem_append_left _ hw, huser, hp⟩, fun w' hw' huser' => ?_⟩
  rcases mem_append.mp hw' with hold | hnew
  · exact hbest w' hold huser'
  · rw [mem_singleton.mp hnew] at huser'
    exact absurd huser' hv

theorem tallied_castVote (h : Tallied vs backers) (profile : ProfilePicks) (p : Priority) :
    Tallied (vs ++ [(profile, p)]) (castVote backers profile p) := by
  have hnamed : ∀ b ∈ backers, ∃ w ∈ vs ++ [(profile, p)],
      w.1.userId = b.userId ∧ w.1.name = b.name := by
    intro b hb
    obtain ⟨w, hw, hname⟩ := h.named b hb
    exact ⟨w, mem_append_left _ hw, hname⟩
  have hlast : (profile, p) ∈ vs ++ [(profile, p)] :=
    mem_append_right _ (mem_singleton.mpr rfl)
  -- the backers when the vote is the best one of its user so far
  have hput : ∀ name, (∃ w ∈ vs ++ [(profile, p)], w.1.userId = profile.userId ∧ w.1.name = name) →
      (∀ w ∈ vs, w.1.userId = profile.userId → p.rank ≤ w.2.rank) →
        Tallied (vs ++ [(profile, p)])
          (upsert CrewNudgeBacker.userId ⟨profile.userId, name, p⟩ backers) := by
    intro name hname hrank
    refine ⟨h.unique.upsert _, fun b hb => ?_, fun w hw => ?_, fun b hb => ?_⟩
    · rcases h.unique.mem_upsert_iff.mp hb with rfl | ⟨hold, hne⟩
      · refine ⟨⟨_, hlast, rfl, rfl⟩, fun w hw huser => ?_⟩
        rcases mem_append.mp hw with hold | hnew
        · exact hrank w hold huser
        · rw [mem_singleton.mp hnew]
      · exact (h.best b hold).append_of_ne fun heq => hne heq.symm
    · by_cases huser : w.1.userId = profile.userId
      · exact ⟨_, mem_upsert_self _ _, huser.symm⟩
      · rcases mem_append.mp hw with hold | hnew
        · obtain ⟨b, hb, hbuser⟩ := h.covered w hold
          exact ⟨b, mem_upsert_of_ne hb fun heq => huser (hbuser.symm.trans heq), hbuser⟩
        · rw [mem_singleton.mp hnew] at huser
          exact absurd rfl huser
    · rcases mem_or_eq_of_mem_upsert hb with rfl | hold
      · exact hname
      · exact hnamed b hold
  rw [castVote]
  cases hfind : lookup CrewNudgeBacker.userId profile.userId backers with
  | none =>
    simp only
    refine hput _ ⟨_, hlast, rfl, rfl⟩ fun w hw huser => ?_
    obtain ⟨b, hb, hbuser⟩ := h.covered w hw
    exact absurd (hbuser.trans huser) (lookup_eq_none.mp hfind b hb)
  | some existing =>
    obtain ⟨hmem, hkey⟩ := mem_of_lookup hfind
    have hbest := (h.best existing hmem).2
    by_cases hlt : p.rank < existing.priority.rank
    · simp only [if_pos hlt]
      refine hput _ ?_ fun w hw huser => ?_
      · cases hname : profile.name with
        | some name => exact ⟨_, hlast, rfl, hname⟩
        | none =>
          obtain ⟨w, hw, huser, hname'⟩ := hnamed existing hmem
          exact ⟨w, hw, huser.trans hkey, hname'⟩
      · exact (le_of_lt hlt).trans (hbest w hw (huser.trans hkey.symm))
    · simp only [if_neg hlt]
      refine ⟨h.unique, fun b hb => ?_, fun w hw => ?_, hnamed⟩
      · by_cases huser : profile.userId = b.userId
        · obtain rfl := h.unique.eq_of_mem hb hmem (huser.symm.trans hkey.symm)
          obtain ⟨⟨w, hw, hwuser, hp⟩, -⟩ := h.best b hb
          refine ⟨⟨w, mem_append_left _ hw, hwuser, hp⟩, fun w' hw' huser' => ?_⟩
          rcases mem_append.mp hw' with hold | hnew
          · exact hbest w' hold huser'
          · rw [mem_singleton.mp hnew]
            exact not_lt.mp hlt
        · exact (h.best b hb).append_of_ne huser
      · rcases mem_append.mp hw with hold | hnew
        · exact h.covered w hold
        · rw [mem_singleton.mp hnew]
          exact ⟨existing, hmem, hkey⟩

theorem tallied_foldl (vs : List (ProfilePicks × Priority)) :
    Tallied vs (vs.foldl (fun backers v => castVote backers v.1 v.2) []) := by
  induction vs using List.reverseRecOn with
  | nil => exact ⟨nodup_nil, nofun, nofun, nofun⟩
  | append_singleton vs v ih =>
    rw [List.foldl_append]
    exact tallied_castVote ih v.1 v.2

theorem rank_injective : Function.Injective Priority.rank := by
  intro p q h
  cases p <;> cases q <;> first | rfl | cases h

theorem Best.eq {q : Priority} (hp : Best vs userId p) (hq : Best vs userId q) : p = q := by
  obtain ⟨⟨v, hv, huser, rfl⟩, hpbest⟩ := hp
  obtain ⟨⟨w, hw, huser', rfl⟩, hqbest⟩ := hq
  exact rank_injective (le_antisymm (hpbest w hw huser') (hqbest v hv huser))

theorem Best.of_perm (hp : vs.Perm vs') (h : Best vs userId p) : Best vs' userId p := by
  obtain ⟨⟨v, hv, hvote⟩, hbest⟩ := h
  exact ⟨⟨v, hp.mem_iff.mp hv, hvote⟩, fun w hw => hbest w (hp.mem_iff.mpr hw)⟩

/-- A backer without the name. -/
def CrewNudgeBacker.vote (b : CrewNudgeBacker) : String × Priority := (b.userId, b.priority)

theorem Tallied.mem_votes_iff (h : Tallied vs backers) :
    (userId, p) ∈ backers.map CrewNudgeBacker.vote ↔ Best vs userId p := by
  constructor
  · intro hmem
    obtain ⟨b, hb, heq⟩ := mem_map.mp hmem
    obtain ⟨rfl, rfl⟩ := Prod.mk.inj heq
    exact h.best b hb
  · intro hbest
    obtain ⟨v, hv, hvuser, -⟩ := hbest.1
    obtain ⟨b, hb, hbuser⟩ := h.covered v hv
    have huser := hbuser.trans hvuser
    have hb' := h.best b hb
    rw [huser] at hb'
    exact mem_map.mpr ⟨b, hb, Prod.ext huser (hb'.eq hbest)⟩

theorem Tallied.nodup_votes (h : Tallied vs backers) :
    (backers.map CrewNudgeBacker.vote).Nodup := by
  refine List.Nodup.of_map Prod.fst ?_
  rw [map_map]
  exact h.unique

/-- The votes in another order make the same backers up to order and names. -/
theorem Tallied.perm {backers' : List CrewNudgeBacker} (h : Tallied vs backers)
    (h' : Tallied vs' backers') (hp : vs.Perm vs') :
    (backers.map CrewNudgeBacker.vote).Perm (backers'.map CrewNudgeBacker.vote) := by
  rw [perm_ext_iff_of_nodup h.nodup_votes h'.nodup_votes]
  rintro ⟨userId, p⟩
  rw [h.mem_votes_iff, h'.mem_votes_iff]
  exact ⟨Best.of_perm hp, Best.of_perm hp.symm⟩

/-! ## The backers of a set -/

/-- The backers in the order of their priorities. -/
def backersOf (input : BuildCrewNudgesInput) (setId : String) : List CrewNudgeBacker :=
  (byUser input setId).insertionSort fun a b => a.priority.rank ≤ b.priority.rank

theorem nudgeFor_eq (host : Host) (input : BuildCrewNudgesInput) (set : FestivalSet) :
    nudgeFor host input set =
      if set.dayIndex.getD 0 ≠ input.selectedDay then .ok none
      else if (input.myPicks set.id).isSome then .ok none
      else (isPast host input set).map fun past =>
        if past then none else scored set (backersOf input set.id) := by
  unfold nudgeFor
  split
  · rfl
  · split
    · rfl
    · cases isPast host input set with
      | error e => rfl
      | ok past => cases past <;> rfl

theorem tallied_byUser (input : BuildCrewNudgesInput) (setId : String) :
    Tallied (votes input setId) (byUser input setId) := by
  rw [byUser_eq]
  exact tallied_foldl _

theorem perm_backersOf (input : BuildCrewNudgesInput) (setId : String) :
    (backersOf input setId).Perm (byUser input setId) :=
  perm_insertionSort _ _

theorem sorted_backersOf (input : BuildCrewNudgesInput) (setId : String) :
    (backersOf input setId).Pairwise fun a b => a.priority.rank ≤ b.priority.rank := by
  have htotal : Std.Total fun a b : CrewNudgeBacker => a.priority.rank ≤ b.priority.rank :=
    ⟨fun a b => le_total _ _⟩
  have htrans : IsTrans CrewNudgeBacker fun a b => a.priority.rank ≤ b.priority.rank :=
    ⟨fun _ _ _ hab hbc => hab.trans hbc⟩
  exact pairwise_insertionSort _ _

/-- Lists of priorities in order that have the same elements are the same. -/
theorem priorities_eq {l l' : List CrewNudgeBacker}
    (hl : l.Pairwise fun a b => a.priority.rank ≤ b.priority.rank)
    (hl' : l'.Pairwise fun a b => a.priority.rank ≤ b.priority.rank)
    (hp : (l.map CrewNudgeBacker.priority).Perm (l'.map CrewNudgeBacker.priority)) :
    l.map CrewNudgeBacker.priority = l'.map CrewNudgeBacker.priority := by
  refine List.Perm.eq_of_pairwise (fun p q _ _ (hpq : p.rank ≤ q.rank) (hqp : q.rank ≤ p.rank) =>
    rank_injective (le_antisymm hpq hqp)) ?_ ?_ hp
  · exact pairwise_map.mpr hl
  · exact pairwise_map.mpr hl'

/-! ## The same nudge -/

/-- The profiles of a user that pick a set have one name. -/
def NamesAgree (profiles : List ProfilePicks) (setId userId : String) : Prop :=
  ∀ p ∈ profiles, ∀ q ∈ profiles, p.userId = userId → q.userId = userId →
    (p.picks setId).isSome → (q.picks setId).isSome → p.name = q.name

/-- The nudges are the same up to the order of backers of one priority and to the names of users
whose profiles do not agree. -/
structure SameNudge (profiles : List ProfilePicks) (n n' : CrewNudge) : Prop where
  set : n.set = n'.set
  breakdown : n.breakdown = n'.breakdown
  count : n.count = n'.count
  topPriority : n.topPriority = n'.topPriority
  priorities : n.backers.map CrewNudgeBacker.priority = n'.backers.map CrewNudgeBacker.priority
  voters : (n.backers.map CrewNudgeBacker.vote).Perm (n'.backers.map CrewNudgeBacker.vote)
  names : ∀ b ∈ n.backers, ∀ b' ∈ n'.backers, b.userId = b'.userId →
    NamesAgree profiles n.set.id b.userId → b.name = b'.name

/-- The same of nudges with the keys of the order. -/
structure SameScored (profiles : List ProfilePicks) (n n' : ScoredNudge) : Prop where
  nudge : SameNudge profiles n.toCrewNudge n'.toCrewNudge
  score : n.score = n'.score
  mustCount : n.mustCount = n'.mustCount

theorem SameScored.key_eq {profiles : List ProfilePicks} {n' : ScoredNudge}
    (h : SameScored profiles n n') : n.key = n'.key := by
  simp only [ScoredNudge.key, h.score, h.mustCount, h.nudge.count, h.nudge.set]

/-- The same input with the sets and the profiles in another order. -/
def BuildCrewNudgesInput.reordered (input : BuildCrewNudgesInput) (sets' : List FestivalSet)
    (profiles' : List ProfilePicks) (hsets : input.sets.Perm sets') : BuildCrewNudgesInput :=
  { input with
    sets := sets'
    uniqueIds := input.uniqueIds.of_perm hsets
    allProfiles := profiles' }

section
variable {input : BuildCrewNudgesInput} {sets' : List FestivalSet} {profiles' : List ProfilePicks}
  {hsets : input.sets.Perm sets'}

theorem perm_votes (hprofiles : input.allProfiles.Perm profiles') (setId : String) :
    (votes input setId).Perm (votes (input.reordered sets' profiles' hsets) setId) :=
  hprofiles.filterMap _

theorem perm_voters (hprofiles : input.allProfiles.Perm profiles') (setId : String) :
    ((backersOf input setId).map CrewNudgeBacker.vote).Perm
      ((backersOf (input.reordered sets' profiles' hsets) setId).map CrewNudgeBacker.vote) :=
  ((perm_backersOf input setId).map _).trans
    (((tallied_byUser input setId).perm (tallied_byUser _ setId) (perm_votes hprofiles setId)).trans
      ((perm_backersOf _ setId).map _).symm)

theorem priorities_backersOf (hprofiles : input.allProfiles.Perm profiles') (setId : String) :
    (backersOf input setId).map CrewNudgeBacker.priority =
      (backersOf (input.reordered sets' profiles' hsets) setId).map CrewNudgeBacker.priority := by
  refine priorities_eq (sorted_backersOf _ _) (sorted_backersOf _ _) ?_
  have hperm := (@perm_voters input sets' profiles' hsets hprofiles setId).map Prod.snd
  rwa [map_map, map_map] at hperm

/-- A vote is one of a profile that picks the set. -/
theorem mem_votes (h : v ∈ votes input setId) :
    v.1 ∈ input.allProfiles ∧ v.1.picks setId = some v.2 := by
  obtain ⟨profile, hprofile, hvote⟩ := mem_filterMap.mp h
  unfold voteOf at hvote
  split at hvote
  · cases hvote
  · split at hvote
    · cases hvote
    · obtain ⟨p, hp, rfl⟩ := Option.map_eq_some_iff.mp hvote
      exact ⟨hprofile, hp⟩

/-- A backer has the name of a profile of the user that picks the set. -/
theorem name_of_mem_backersOf {b : CrewNudgeBacker} (h : b ∈ backersOf input setId) :
    ∃ p ∈ input.allProfiles, p.userId = b.userId ∧ (p.picks setId).isSome ∧ p.name = b.name := by
  have hmem := (perm_backersOf input setId).mem_iff.mp h
  obtain ⟨v, hv, huser, hname⟩ := (tallied_byUser input setId).named b hmem
  obtain ⟨hprofile, hpick⟩ := mem_votes hv
  exact ⟨v.1, hprofile, huser, by rw [hpick]; rfl, hname⟩

theorem scored_reordered (hprofiles : input.allProfiles.Perm profiles') (set : FestivalSet) :
    Option.Rel (SameScored input.allProfiles) (scored set (backersOf input set.id))
      (scored set (backersOf (input.reordered sets' profiles' hsets) set.id)) := by
  have hpriorities := @priorities_backersOf input sets' profiles' hsets hprofiles set.id
  unfold scored
  rw [← hpriorities]
  cases hlist : (backersOf input set.id).map CrewNudgeBacker.priority with
  | nil => exact .none
  | cons topPriority rest =>
    simp only
    split
    · exact .none
    · refine .some ⟨⟨rfl, rfl, rfl, rfl, hpriorities, perm_voters hprofiles set.id, ?_⟩, rfl, rfl⟩
      intro b hb b' hb' huser hagree
      obtain ⟨p, hp, hpuser, hppick, hpname⟩ := name_of_mem_backersOf hb
      obtain ⟨q, hq, hquser, hqpick, hqname⟩ := name_of_mem_backersOf hb'
      rw [← hpname, ← hqname]
      exact hagree p hp q (hprofiles.mem_iff.mpr hq) hpuser (hquser.trans huser.symm) hppick hqpick

/-- The pass for a set with the profiles in another order: it throws alike, or ends alike. -/
theorem nudgeFor_reordered (host : Host) (hprofiles : input.allProfiles.Perm profiles')
    (set : FestivalSet) :
    (∃ e, nudgeFor host input set = .error e ∧
        nudgeFor host (input.reordered sets' profiles' hsets) set = .error e) ∨
      ∃ found found', nudgeFor host input set = .ok found ∧
        nudgeFor host (input.reordered sets' profiles' hsets) set = .ok found' ∧
        Option.Rel (SameScored input.allProfiles) found found' := by
  have hpast : isPast host (input.reordered sets' profiles' hsets) set =
      isPast host input set := rfl
  rw [nudgeFor_eq, nudgeFor_eq, hpast]
  change (∃ e, (if set.dayIndex.getD 0 ≠ input.selectedDay then _ else
      if (input.myPicks set.id).isSome then _ else _) = _ ∧
    (if set.dayIndex.getD 0 ≠ input.selectedDay then _ else
      if (input.myPicks set.id).isSome then _ else _) = _) ∨ _
  by_cases hday : set.dayIndex.getD 0 ≠ input.selectedDay
  · rw [if_pos hday]
    exact .inr ⟨none, none, rfl, if_pos hday, .none⟩
  · by_cases hmine : (input.myPicks set.id).isSome
    · rw [if_neg hday, if_pos hmine]
      exact .inr ⟨none, none, rfl, (if_neg hday).trans (if_pos hmine), .none⟩
    · rw [if_neg hday, if_neg hmine]
      cases hthrow : isPast host input set with
      | error e => exact .inl ⟨e, rfl, (if_neg hday).trans (if_neg hmine)⟩
      | ok past =>
        refine .inr ⟨_, _, rfl, (if_neg hday).trans (if_neg hmine), ?_⟩
        cases past with
        | true => exact .none
        | false => exact scored_reordered hprofiles set

end

/-! ## Lists in order -/

section
variable {α β γ : Type*} [LinearOrder γ] {R : α → β → Prop} {key : α → γ} {key' : β → γ}
  {l : List α} {m : List β}

theorem forall₂_orderedInsert (hkey : ∀ a b, R a b → key a = key' b) {a : α} {b : β} (hab : R a b)
    (h : List.Forall₂ R l m) :
    List.Forall₂ R (l.orderedInsert (fun x y => key x ≤ key y) a)
      (m.orderedInsert (fun x y => key' x ≤ key' y) b) := by
  induction h with
  | nil => exact .cons hab .nil
  | @cons x y l m hxy hrest ih =>
    rw [List.orderedInsert, List.orderedInsert, ← hkey a b hab, ← hkey x y hxy]
    by_cases hle : key a ≤ key x
    · rw [if_pos hle, if_pos hle]
      exact .cons hab (.cons hxy hrest)
    · rw [if_neg hle, if_neg hle]
      exact .cons hxy ih

/-- Related lists with the same keys are sorted alike. -/
theorem forall₂_insertionSort (hkey : ∀ a b, R a b → key a = key' b) (h : List.Forall₂ R l m) :
    List.Forall₂ R (l.insertionSort fun x y => key x ≤ key y)
      (m.insertionSort fun x y => key' x ≤ key' y) := by
  induction h with
  | nil => exact .nil
  | cons hab _ ih => exact forall₂_orderedInsert hkey hab ih

theorem forall₂_filterMap {δ : Type*} {f : δ → Option α} {g : δ → Option β} {l : List δ}
    (h : ∀ x ∈ l, Option.Rel R (f x) (g x)) :
    List.Forall₂ R (l.filterMap f) (l.filterMap g) := by
  induction l with
  | nil => exact .nil
  | cons x l ih =>
    have hx := h x (mem_cons_self ..)
    have hrest := ih fun y hy => h y (mem_cons_of_mem _ hy)
    rw [filterMap_cons, filterMap_cons]
    generalize f x = a at hx ⊢
    generalize g x = b at hx ⊢
    cases hx with
    | none => exact hrest
    | some hab => exact .cons hab hrest

end

/-! ## The nudges -/

section
variable {host : Host} {input : BuildCrewNudgesInput} {sets' : List FestivalSet}
  {profiles' : List ProfilePicks} {hsets : input.sets.Perm sets'}

/-- What the loop collects for a set. -/
def collected (host : Host) (input : BuildCrewNudgesInput) (set : FestivalSet) :
    Option ScoredNudge :=
  (nudgeFor host input set).toOption.join

theorem collected_eq_some :
    collected host input set = some n ↔ nudgeFor host input set = .ok (some n) := by
  unfold collected
  cases nudgeFor host input set with
  | error e => simp [Except.toOption]
  | ok found => simp [Except.toOption]

/-- A nudge is one for its set. -/
theorem set_of_nudgeFor (h : nudgeFor host input set = .ok (some n)) :
    n.set = set ∧ scored set (backersOf input set.id) = some n := by
  rw [nudgeFor_eq] at h
  split at h
  · cases h
  · split at h
    · cases h
    · cases hthrow : isPast host input set with
      | error e =>
        rw [hthrow] at h
        cases h
      | ok past =>
        rw [hthrow] at h
        have h' : (if past then none else scored set (backersOf input set.id)) = some n :=
          Except.ok.inj h
        split at h'
        · cases h'
        · refine ⟨?_, h'⟩
          unfold scored at h'
          split at h'
          · cases h'
          · simp only at h'
            split at h'
            · cases h'
            · obtain rfl := Option.some.inj h'
              rfl

/-- The nudges are ranked by their keys. -/
theorem sorted_ranked (nudges : List ScoredNudge) :
    (ranked nudges).Pairwise fun a b => a.key ≤ b.key := by
  have htotal : Std.Total fun a b : ScoredNudge => a.key ≤ b.key := ⟨fun a b => le_total _ _⟩
  have htrans : IsTrans ScoredNudge fun a b => a.key ≤ b.key :=
    ⟨fun _ _ _ hab hbc => hab.trans hbc⟩
  exact pairwise_insertionSort _ _

/-- No two nudges of sets with their own ids have one rank. -/
theorem collected_inj {a b : ScoredNudge} (ha : a ∈ input.sets.filterMap (collected host input))
    (hb : b ∈ input.sets.filterMap (collected host input)) (hkey : a.key = b.key) : a = b := by
  obtain ⟨s, hs, has⟩ := mem_filterMap.mp ha
  obtain ⟨t, ht, hbt⟩ := mem_filterMap.mp hb
  have has' := (set_of_nudgeFor (collected_eq_some.mp has)).1
  have hbt' := (set_of_nudgeFor (collected_eq_some.mp hbt)).1
  have hid : a.set.id = b.set.id := by
    have h := congrArg (fun k => (ofLex (ofLex (ofLex (ofLex k).2).2).2).2) hkey
    exact h
  rw [has', hbt'] at hid
  obtain rfl := input.uniqueIds.eq_of_mem hs ht hid
  exact Option.some.inj (has.symm.trans hbt)

/-- The ranks do not depend on the order of the sets. -/
theorem ranked_eq_of_perm {nudges' : List ScoredNudge}
    (h : (input.sets.filterMap (collected host input)).Perm nudges') :
    ranked (input.sets.filterMap (collected host input)) = ranked nudges' := by
  have hperm : (ranked (input.sets.filterMap (collected host input))).Perm (ranked nudges') :=
    (perm_insertionSort _ _).trans (h.trans (perm_insertionSort _ _).symm)
  refine List.Perm.eq_of_pairwise (fun a b ha hb hab hba => ?_) (sorted_ranked _) (sorted_ranked _)
    hperm
  have ha' := (mem_insertionSort _).mp ha
  have hb' := h.mem_iff.mpr ((mem_insertionSort _).mp hb)
  exact collected_inj ha' hb' (le_antisymm hab hba)

theorem buildCrewNudges_eq_ok (hcrew : input.crewMemberUserIds ≠ []) :
    buildCrewNudges host input = .ok out ↔
      (∀ set ∈ input.sets, ∃ found, nudgeFor host input set = .ok found) ∧
        ((ranked (input.sets.filterMap (collected host input))).take input.limit).map
          ScoredNudge.toCrewNudge = out := by
  rw [buildCrewNudges, if_neg hcrew]
  constructor
  · intro h
    cases hloop : input.sets.filterMapM (nudgeFor host input) with
    | error e =>
      rw [hloop] at h
      cases h
    | ok nudges =>
      rw [hloop] at h
      obtain ⟨hall, rfl⟩ := filterMapM_eq_ok.mp hloop
      exact ⟨hall, Except.ok.inj h⟩
  · rintro ⟨hall, rfl⟩
    have hloop := filterMapM_eq_ok.mpr ⟨hall, rfl⟩
    rw [hloop]
    rfl

/-- The nudges for another order of the sets and of the profiles. -/
theorem buildCrewNudges_related (hprofiles : input.allProfiles.Perm profiles')
    (h : buildCrewNudges host input = .ok out) :
    ∃ out', buildCrewNudges host (input.reordered sets' profiles' hsets) = .ok out' ∧
      List.Forall₂ (SameNudge input.allProfiles) out out' := by
  by_cases hcrew : input.crewMemberUserIds = []
  · rw [buildCrewNudges, if_pos hcrew] at h
    obtain rfl := Except.ok.inj h
    exact ⟨[], if_pos hcrew, .nil⟩
  · obtain ⟨hall, rfl⟩ := (buildCrewNudges_eq_ok hcrew).mp h
    have hok := fun out => @buildCrewNudges_eq_ok out host (input.reordered sets' profiles' hsets)
    refine ⟨_, (hok _ hcrew).mpr ⟨fun set hset => ?_, rfl⟩, ?_⟩
    · obtain ⟨found, hfound⟩ := hall set (hsets.mem_iff.mpr hset)
      rcases @nudgeFor_reordered input sets' profiles' hsets host hprofiles set with
        ⟨e, he, -⟩ | ⟨-, found', -, h', -⟩
      · rw [hfound] at he
        cases he
      · exact ⟨found', h'⟩
    · have hrel : ∀ set ∈ sets', Option.Rel (SameScored input.allProfiles)
          (collected host input set)
          (collected host (input.reordered sets' profiles' hsets) set) := by
        intro set _
        unfold collected
        rcases @nudgeFor_reordered input sets' profiles' hsets host hprofiles set with
          ⟨e, he, he'⟩ | ⟨found, found', hf, hf', hrel⟩
        · rw [he, he']
          exact .none
        · rw [hf, hf']
          exact hrel
      have hperm : (input.sets.filterMap (collected host input)).Perm
          (sets'.filterMap (collected host input)) := hsets.filterMap _
      rw [ranked_eq_of_perm hperm]
      have hranked : List.Forall₂ (SameScored input.allProfiles) (ranked _) (ranked _) :=
        forall₂_insertionSort (fun _ _ hsame => hsame.key_eq) (forall₂_filterMap hrel)
      refine forall₂_map_left_iff.mpr (forall₂_map_right_iff.mpr ?_)
      exact (forall₂_take input.limit hranked).imp fun _ _ hsame => hsame.nudge

/-- **The order of the sets makes no difference.** -/
theorem buildCrewNudges_sets (h : buildCrewNudges host input = .ok out) :
    buildCrewNudges host (input.reordered sets' input.allProfiles hsets) = .ok out := by
  by_cases hcrew : input.crewMemberUserIds = []
  · rw [buildCrewNudges, if_pos hcrew] at h
    obtain rfl := Except.ok.inj h
    exact if_pos hcrew
  · obtain ⟨hall, rfl⟩ := (buildCrewNudges_eq_ok hcrew).mp h
    have hperm : (input.sets.filterMap (collected host input)).Perm
        (sets'.filterMap (collected host input)) := hsets.filterMap _
    have hok := fun out => @buildCrewNudges_eq_ok out host (input.reordered sets' input.allProfiles hsets)
    refine (hok _ hcrew).mpr ⟨fun set hset => ?_, ?_⟩
    · exact hall set (hsets.mem_iff.mpr hset)
    · rw [ranked_eq_of_perm hperm]
      rfl

/-! ## The sets that qualify -/

/-- A set of the day that is not over, that the user has not picked, and that two members of the
crew have picked, or one as a must. -/
structure Qualifies (host : Host) (input : BuildCrewNudgesInput) (set : FestivalSet) : Prop where
  day : set.dayIndex.getD 0 = input.selectedDay
  notMine : input.myPicks set.id = none
  notPast : isPast host input set = .ok false
  backed : (∃ v ∈ votes input set.id, ∃ w ∈ votes input set.id, v.1.userId ≠ w.1.userId) ∨
    ∃ v ∈ votes input set.id, v.2 = .must

/-- Two voters are two backers, and a must stays one. -/
theorem backersOf_of_backed
    (h : (∃ v ∈ votes input setId, ∃ w ∈ votes input setId, v.1.userId ≠ w.1.userId) ∨
      ∃ v ∈ votes input setId, v.2 = .must) :
    2 ≤ (backersOf input setId).length ∨ ∃ b ∈ backersOf input setId, b.priority = .must := by
  have htallied := tallied_byUser input setId
  have hperm := perm_backersOf input setId
  rcases h with ⟨v, hv, w, hw, hne⟩ | ⟨v, hv, hmust⟩
  · obtain ⟨b, hb, hbuser⟩ := htallied.covered v hv
    obtain ⟨c, hc, hcuser⟩ := htallied.covered w hw
    refine .inl ?_
    rw [hperm.length_eq]
    by_contra hlen
    match hlist : byUser input setId with
    | [] => rw [hlist] at hb; cases hb
    | [x] =>
      rw [hlist, mem_singleton] at hb hc
      exact hne (hbuser.symm.trans ((congrArg _ (hb.trans hc.symm)).trans hcuser))
    | x :: y :: rest =>
      rw [hlist] at hlen
      exact hlen (by simp)
  · obtain ⟨b, hb, hbuser⟩ := htallied.covered v hv
    refine .inr ⟨b, hperm.mem_iff.mpr hb, ?_⟩
    have hbest := (htallied.best b hb).2 v hv hbuser.symm
    rw [hmust] at hbest
    exact rank_injective (Nat.le_zero.mp hbest)

theorem nudgeFor_of_qualifies (h : Qualifies host input set) :
    ∃ n, nudgeFor host input set = .ok (some n) := by
  rw [nudgeFor_eq, if_neg (not_not.mpr h.day), if_neg (by rw [h.notMine]; decide), h.notPast]
  suffices hsome : ∃ n, scored set (backersOf input set.id) = some n by
    obtain ⟨n, hn⟩ := hsome
    exact ⟨n, congrArg Except.ok hn⟩
  have hbacked := backersOf_of_backed h.backed
  unfold scored
  cases hlist : (backersOf input set.id).map CrewNudgeBacker.priority with
  | nil =>
    rw [map_eq_nil_iff.mp hlist] at hbacked
    rcases hbacked with hlen | ⟨b, hb, -⟩
    · exact absurd hlen (by simp)
    · cases hb
  | cons topPriority rest =>
    have hlength : (backersOf input set.id).length = (topPriority :: rest).length := by
      rw [← hlist, length_map]
    have hcount : ¬((topPriority :: rest).length < 2 ∧
        (topPriority :: rest).count Priority.must = 0) := by
      rintro ⟨hshort, hnone⟩
      rcases hbacked with hlen | ⟨b, hb, hmust⟩
      · omega
      · refine absurd (mem_map_of_mem (f := CrewNudgeBacker.priority) hb) ?_
        rw [hlist, hmust]
        exact count_eq_zero.mp hnone
    exact ⟨_, if_neg hcount⟩

/-- A set is returned, or there are as many before it as the limit says. -/
def ReturnedOrAfter (host : Host) (input : BuildCrewNudgesInput) (out : List CrewNudge)
    (set : FestivalSet) : Prop :=
  ∃ n, nudgeFor host input set = .ok (some n) ∧
    (n.toCrewNudge ∈ out ∨ out.length = input.limit ∧
      ∀ m ∈ out, ∃ before, nudgeFor host input m.set = .ok (some before) ∧
        before.toCrewNudge = m ∧ before.key ≤ n.key)

theorem returnedOrAfter_of_qualifies (h : buildCrewNudges host input = .ok out)
    (hset : set ∈ input.sets) (hq : Qualifies host input set) :
    ReturnedOrAfter host input out set := by
  have hcrew : input.crewMemberUserIds ≠ [] := by
    -- a voter is a member of the crew
    have hvote : ∃ v, v ∈ votes input set.id := by
      rcases hq.backed with ⟨v, hv, -⟩ | ⟨v, hv, -⟩ <;> exact ⟨v, hv⟩
    obtain ⟨v, hv⟩ := hvote
    obtain ⟨profile, -, hvote⟩ := mem_filterMap.mp hv
    intro hnone
    simp [voteOf, hnone] at hvote
  obtain ⟨-, rfl⟩ := (buildCrewNudges_eq_ok hcrew).mp h
  obtain ⟨n, hn⟩ := nudgeFor_of_qualifies hq
  refine ⟨n, hn, ?_⟩
  have hmem : n ∈ ranked (input.sets.filterMap (collected host input)) :=
    (mem_insertionSort _).mpr (mem_filterMap.mpr ⟨set, hset, collected_eq_some.mpr hn⟩)
  have hsorted := sorted_ranked (input.sets.filterMap (collected host input))
  rw [← take_append_drop input.limit (ranked _)] at hmem hsorted
  rcases mem_append.mp hmem with htake | hdrop
  · exact .inl (mem_map_of_mem htake)
  · refine .inr ⟨?_, fun m hm => ?_⟩
    · rw [length_map, length_take]
      have hpos := length_pos_of_mem hdrop
      rw [length_drop] at hpos
      omega
    · obtain ⟨before, hbefore, rfl⟩ := mem_map.mp hm
      have hin := (mem_insertionSort _).mp (mem_of_mem_take hbefore)
      obtain ⟨s, -, hs⟩ := mem_filterMap.mp hin
      have hs' := collected_eq_some.mp hs
      refine ⟨before, ?_, rfl, (pairwise_append.mp hsorted).2.2 before hbefore n hdrop⟩
      rw [(set_of_nudgeFor hs').1]
      exact hs'

end

/-- **Profiles and sets in another order make the same nudges in the same order, up to the order of
backers of one priority and to the names of users whose profiles do not agree; and a set that
qualifies is returned or comes after as many others as the limit says.** -/
theorem buildCrewNudges_reordered (host : Host) (input : BuildCrewNudgesInput)
    {sets' : List FestivalSet} {profiles' : List ProfilePicks} (hsets : input.sets.Perm sets')
    (hprofiles : input.allProfiles.Perm profiles') {out : List CrewNudge}
    (h : buildCrewNudges host input = .ok out) :
    (∃ out', buildCrewNudges host (input.reordered sets' profiles' hsets) = .ok out' ∧
      List.Forall₂ (SameNudge input.allProfiles) out out') ∧
    buildCrewNudges host (input.reordered sets' input.allProfiles hsets) = .ok out ∧
    ∀ set ∈ input.sets, Qualifies host input set → ReturnedOrAfter host input out set :=
  ⟨buildCrewNudges_related hprofiles h, buildCrewNudges_sets h,
    fun _ hset hq => returnedOrAfter_of_qualifies h hset hq⟩

/-! ## Two profiles -/

/-- A set that is picked by Ben as a must and, in an older profile with a name, as a maybe. -/
def pickedTwice : BuildCrewNudgesInput where
  sets := [{ id := "s1", dayIndex := some 0, startTime := "14:00", endTime := "15:00" }]
  uniqueIds := by decide
  selectedDay := 0
  myPicks _ := none
  allProfiles :=
    [{ userId := "ben", name := some "Ben", picks := fun _ => some .maybe },
      { userId := "ben", picks := fun _ => some .must }]
  crewMemberUserIds := ["me", "ben"]
  myUserId := "me"

theorem pickedTwice_reordered :
    ∃ out, buildCrewNudges (utcHost 0) (pickedTwice.reordered pickedTwice.sets
        pickedTwice.allProfiles.reverse (.refl _)) = .ok out ∧ out.length = 1 := by
  have hout : buildCrewNudges (utcHost 0) pickedTwice = .ok
      [{ set := { id := "s1", dayIndex := some 0, startTime := "14:00", endTime := "15:00" }
         backers := [⟨"ben", some "Ben", .must⟩]
         breakdown := "1 must"
         count := 1
         topPriority := .must }] := by decide
  obtain ⟨⟨out, hbuild, hsame⟩, -, -⟩ := buildCrewNudges_reordered (utcHost 0) pickedTwice (.refl _)
    (List.reverse_perm pickedTwice.allProfiles).symm hout
  exact ⟨out, hbuild, hsame.length_eq.symm⟩

/-- In the other order of the profiles Ben has no name. -/
theorem name_lost :
    ¬ ∀ (input : BuildCrewNudgesInput) (profiles' : List ProfilePicks),
      input.allProfiles.Perm profiles' →
        buildCrewNudges (utcHost 0) (input.reordered input.sets profiles' (.refl _)) =
          buildCrewNudges (utcHost 0) input := by
  intro h
  have hsame := h pickedTwice _ (List.reverse_perm pickedTwice.allProfiles).symm
  revert hsame
  decide

end FestivalPlanner.CrewNudges
