import FestivalPlanner.Crews.Roster

/-!
# Who owns a crew

The owner of a crew is said by the role of a member and by `createdBy`, which every
response reports.  The two agree in a run of requests exactly when the steps of the run
keep them in agreement.

* `Owned` — a crew with members has one owner, the user in `createdBy`;
* `Keeps` — the requests that leave every crew so;
* `ownership_iff` — the crews are owned throughout a run exactly when every step is one;
* `transfer_leaves_createdBy` — a transfer changes the roles only.
-/

namespace FestivalPlanner.Crews

open List Keyed

open Ledger (Member Members Role)

/-! ## Owners -/

/-- The members with the role of owner. -/
@[grind =] def owners (members : Members) : List String :=
  (members.rows.filter (fun m => decide (m.role = .owner))).map Member.userId

variable {members : Members} {u crewId userId : String} {m : Member} {c : Crew} {new : NewCrew}

theorem mem_owners : u ∈ owners members ↔ ∃ m ∈ members.rows, m.role = .owner ∧ m.userId = u := by
  unfold owners
  simp [and_assoc]

theorem owners_remove (members : Members) (u : String) :
    owners (members.remove u) = (owners members).filter (fun v => decide (v ≠ u)) := by
  unfold owners Members.remove erase
  rw [filter_map, filter_filter, filter_filter]
  refine congrArg (List.map Member.userId) (filter_congr fun m _ => ?_)
  rw [Bool.and_comm]
  rfl

theorem owners_demote (members : Members) (u : String) :
    owners (members.setRole u .member) = (owners members).filter (fun v => decide (v ≠ u)) := by
  unfold owners Members.setRole
  rw [filter_map, filter_map, map_map, filter_filter]
  have hid : Member.userId ∘ (fun m : Member =>
      if m.userId = u then { m with role := .member } else m) = Member.userId := by
    funext m
    show (if m.userId = u then { m with role := .member } else m).userId = m.userId
    split <;> rfl
  rw [hid]
  refine congrArg (List.map Member.userId) (filter_congr fun m _ => ?_)
  by_cases h : m.userId = u <;> simp [h]

/-- Whoever is promoted where nobody is an owner is the only one. -/
theorem owners_promote (hnone : owners members = []) (hm : m ∈ members.rows) :
    owners (members.setRole m.userId .owner) = [m.userId] := by
  have hrole : ∀ x ∈ members.rows, x.role ≠ .owner := by
    intro x hx hrole
    have hmem : x.userId ∈ owners members := mem_owners.mpr ⟨x, hx, hrole, rfl⟩
    rw [hnone] at hmem
    cases hmem
  have hfilter : members.rows.filter ((fun x : Member => decide (x.role = .owner)) ∘ (fun x =>
      if x.userId = m.userId then { x with role := .owner } else x)) =
      members.rows.filter (fun x => decide (x.userId = m.userId)) := by
    refine filter_congr fun x hx => ?_
    by_cases h : x.userId = m.userId <;> simp [h, hrole x hx]
  unfold owners Members.setRole
  rw [filter_map, hfilter, members.unique.filter_eq hm]
  simp

theorem owners_append_member {rows : List Member} (h : rows = members.rows ++ [m])
    (hm : m.role = .member) :
    (rows.filter (fun m => decide (m.role = .owner))).map Member.userId = owners members := by
  unfold owners
  simp [h, hm]

/-! ## Crews that are owned -/

/-- A crew with members has one owner, the user in `createdBy`. -/
def Owned (c : Crew) : Prop := c.members.rows ≠ [] → owners c.members = [c.createdBy]

/-- Every crew is owned. -/
def AllOwned (s : Db) : Prop := ∀ c ∈ s.crews, Owned c

/-- The requests that keep the crews owned: no transfer, no removal by an admin of an owner
who is not alone, and nobody added to a crew that has no members left. -/
def Keeps (s : Db) : Action → Prop
  | .join _ code now => ∀ c ∈ s.getByInviteCode code now, 0 < c.members.rows.length
  | .adminAdd _ crewId _ => ∀ c ∈ s.getById crewId, 0 < c.members.rows.length
  | .adminRemove _ crewId target =>
      ∀ c ∈ s.getById crewId, target ∈ owners c.members → c.members.rows.length = 1
  | .transfer _ _ _ => False
  | _ => True

instance (s : Db) (a : Action) : Decidable (Keeps s a) := by
  unfold Keeps
  split <;> infer_instance

variable {caller failure festivalId createdBy : String} {maxMembers : ℕ}
  {reformedFrom : Option String} {ids : List String}

section Steps

variable {s t : Db} {crew : Crew}

theorem getById_of_mem (h : crew ∈ s.crews) : s.getById crew.id = some crew :=
  lookup_of_mem s.unique h

theorem mem_of_getById (h : s.getById crewId = some crew) : crew ∈ s.crews ∧ crew.id = crewId :=
  mem_of_lookup h

/-- New members of one crew: the others stay owned, so it depends on that crew. -/
theorem allOwned_setMembers (hs : AllOwned s) (hcrew : crew ∈ s.crews) (members : Members) :
    AllOwned (s.setMembers crew.id members) ↔
      (members.rows ≠ [] → owners members = [crew.createdBy]) := by
  have hiff := fun z => s.unique.mem_modify_iff
    (f := fun c : Crew => { c with members := members }) (fun _ => rfl) (z := z)
    (getById_of_mem hcrew)
  constructor
  · intro h
    exact h _ ((hiff _).mpr (.inl rfl))
  · intro h c hc
    rcases (hiff c).mp hc with rfl | ⟨hc, -⟩
    · exact h
    · exact hs c hc

/-- An accepted owner of a crew that is owned is the user in `createdBy`. -/
theorem resolveCrewOwnership_eq_ok (hs : AllOwned s) {label : String}
    (h : resolveCrewOwnership s crewId caller label = .ok crew) :
    crew ∈ s.crews ∧ owners crew.members = [crew.createdBy] ∧ crew.createdBy = caller := by
  unfold resolveCrewOwnership at h
  split at h
  · cases h
  · rename_i c hc
    split at h
    · rename_i m hm
      split_ifs at h with hrole
      obtain rfl := Except.ok.inj h
      obtain ⟨hmem, -⟩ := mem_of_getById hc
      obtain ⟨hrow, hid⟩ := mem_of_lookup hm
      have howners := hs c hmem (ne_nil_of_mem hrow)
      have hcaller : caller ∈ owners c.members := mem_owners.mpr ⟨m, hrow, hrole, hid⟩
      rw [howners, mem_singleton] at hcaller
      exact ⟨hmem, howners, hcaller.symm⟩
    · cases h

/-- What an accepted addition stores. -/
theorem addToCrew_eq_ok (h : addToCrew s crew userId failure = .ok t) :
    ∃ members : Members, t = s.setMembers crew.id members ∧ members.rows ≠ [] ∧
      owners members = owners crew.members := by
  unfold addToCrew at h
  split_ifs at h
  split at h
  · rename_i members hadd
    obtain rfl := (Except.ok.inj h).symm
    unfold addMember at hadd
    split_ifs at hadd
    obtain rfl := Option.some.inj hadd
    refine ⟨_, rfl, ?_, owners_append_member rfl rfl⟩
    simp [Members.add]
  · cases h

/-- Adding a member keeps the crews owned exactly where there are members already. -/
theorem allOwned_addToCrew (hs : AllOwned s) (hcrew : crew ∈ s.crews)
    (h : addToCrew s crew userId failure = .ok t) : AllOwned t ↔ 0 < crew.members.rows.length := by
  obtain ⟨members, rfl, hne, howners⟩ := addToCrew_eq_ok h
  rw [allOwned_setMembers hs hcrew, howners, length_pos_iff]
  constructor
  · intro h hnil
    have hempty : owners crew.members = [] := by simp [owners, hnil]
    rw [hempty] at h
    cases h hne
  · exact fun h _ => hs crew hcrew h

/-- Removing a member who is not the owner keeps the crews owned. -/
theorem allOwned_remove (hs : AllOwned s) (hcrew : crew ∈ s.crews) (hu : u ∉ owners crew.members) :
    AllOwned (s.setMembers crew.id (crew.members.remove u)) := by
  rw [allOwned_setMembers hs hcrew, owners_remove]
  intro hne
  have hrows : crew.members.rows ≠ [] := by
    intro hnil
    exact hne (by simp [Members.remove, erase, hnil])
  rw [filter_eq_self.mpr]
  · exact hs crew hcrew hrows
  · intro v hv
    rw [decide_eq_true_eq]
    rintro rfl
    exact hu hv

/-- Removing the owner keeps the crews owned exactly where nobody else is left. -/
theorem allOwned_removeOwner (hs : AllOwned s) (hcrew : crew ∈ s.crews)
    (hu : u ∈ owners crew.members) :
    AllOwned (s.setMembers crew.id (crew.members.remove u)) ↔ crew.members.rows.length = 1 := by
  obtain ⟨m, hm, hrole, rfl⟩ := mem_owners.mp hu
  have howners := hs crew hcrew (ne_nil_of_mem hm)
  rw [howners, mem_singleton] at hu
  have hempty : owners (crew.members.remove m.userId) = [] := by
    rw [owners_remove, howners, hu]
    simp
  rw [allOwned_setMembers hs hcrew, hempty]
  have hsplit : crew.members.rows.length =
      ((crew.members.remove m.userId).rows).length + 1 := by
    have hone := crew.members.unique.filter_eq hm
    have hcount := length_eq_length_filter_add (l := crew.members.rows)
      (fun x => decide (x.userId = m.userId))
    rw [hone] at hcount
    rw [hcount, Nat.add_comm, length_singleton]
    refine congrArg (· + 1) (congrArg List.length (filter_congr fun x _ => ?_))
    simp
  rw [hsplit, Nat.add_eq_right, length_eq_zero_iff]
  constructor
  · intro h
    by_contra hne
    cases h hne
  · exact fun h hne => absurd h hne

/-- A transfer leaves `createdBy` behind. -/
theorem not_allOwned_transfer (hs : AllOwned s) (hcrew : crew ∈ s.crews)
    (howners : owners crew.members = [crew.createdBy]) {target : String}
    (hm : crew.members.get target = some m) (hne : target ≠ crew.createdBy) :
    ¬AllOwned (s.setMembers crew.id (transferOwnership crew.members crew.createdBy target)) := by
  rw [allOwned_setMembers hs hcrew]
  obtain ⟨hrow, rfl⟩ := mem_of_lookup hm
  have hdemoted : owners (crew.members.setRole crew.createdBy .member) = [] := by
    rw [owners_demote, howners]
    simp
  have hrow' : m ∈ (crew.members.setRole crew.createdBy .member).rows := by
    refine mem_map.mpr ⟨m, hrow, ?_⟩
    rw [if_neg hne]
  have hpromoted := owners_promote hdemoted hrow'
  intro h
  have hkeep := h (by
    intro hnil
    have hmap := map_eq_nil_iff.mp hnil
    rw [hmap] at hrow'
    cases hrow')
  rw [transferOwnership, hpromoted, List.cons.injEq] at hkeep
  exact hne hkeep.1

end Steps

/-! ## Creating and reforming -/

section Creation

variable {s t : Db}

/-- What an accepted insertion stores. -/
theorem insertCrew_eq_some (h : s.insertCrew c = some t) :
    s.getById c.id = none ∧ t.crews = s.crews ++ [c] := by
  unfold Db.insertCrew at h
  split at h
  · rename_i hfresh
    split at h
    · cases h
    split at h
    · cases h
    obtain rfl := Option.some.inj h
    exact ⟨hfresh, rfl⟩
  · cases h

/-- The new crew has its creator as the owner. -/
theorem persistCrew_eq_some
    (h : persistCrew s new festivalId createdBy maxMembers reformedFrom = some t) :
    s.getById new.id = none ∧ ∃ c, t.crews = s.crews ++ [c] ∧ c.members.rows ≠ [] ∧ Owned c := by
  obtain ⟨hfresh, hcrews⟩ := insertCrew_eq_some h
  exact ⟨hfresh, _, hcrews, cons_ne_nil _ _, fun _ => by simp [owners]⟩

theorem allOwned_persistCrew (hs : AllOwned s)
    (h : persistCrew s new festivalId createdBy maxMembers reformedFrom = some t) : AllOwned t := by
  obtain ⟨-, c, hcrews, -, hc⟩ := persistCrew_eq_some h
  intro d hd
  rw [hcrews] at hd
  rcases mem_append.mp hd with hd | hd
  · exact hs d hd
  · rw [mem_singleton.mp hd]
    exact hc

theorem owners_autoAdd (s : Db) (uids : List String) (slots : ℤ) (members : Members) :
    owners (autoAdd s uids slots members) = owners members := by
  induction uids generalizing slots members with
  | nil => rfl
  | cons uid rest ih =>
    unfold autoAdd
    split
    · rfl
    · split
      · rename_i added hadd
        rw [ih]
        unfold addMember at hadd
        split_ifs at hadd
        obtain rfl := Option.some.inj hadd
        exact owners_append_member rfl rfl
      · exact ih slots members

/-- Filling up a crew that has an owner keeps the crews owned. -/
theorem allOwned_fillRoster (hs : AllOwned s) {source newCrew : Crew} (hcrew : newCrew ∈ s.crews)
    (hne : newCrew.members.rows ≠ []) (caller targetFestivalId : String) :
    AllOwned (fillRoster s source newCrew caller targetFestivalId) := by
  unfold fillRoster
  rw [allOwned_setMembers hs hcrew, owners_autoAdd]
  exact fun _ => hs newCrew hcrew hne

theorem allOwned_reform (hs : AllOwned s) {sourceCrewId targetFestivalId : String}
    (h : reformRoute s caller sourceCrewId targetFestivalId new = .ok t) : AllOwned t := by
  unfold reformRoute at h
  split at h
  · cases h
  rename_i source hsource
  iterate 3
    split at h
    · cases h
  dsimp only at h
  split at h
  · rename_i newCrew hfind
    obtain rfl := Except.ok.inj h
    -- The caller is a member of the crew that is reused.
    have hlisted := mem_of_find?_eq_some hfind
    obtain ⟨hmem, hmember⟩ := mem_filter.mp hlisted
    rw [Bool.and_eq_true] at hmember
    obtain ⟨m, hm⟩ := Option.isSome_iff_exists.mp hmember.1
    exact allOwned_fillRoster hs hmem (ne_nil_of_mem (mem_of_lookup hm).1) _ _
  · split at h
    · cases h
    split at h
    · cases h
    · rename_i s' hpersist
      have hs' := allOwned_persistCrew hs hpersist
      split at h
      · cases h
      · rename_i newCrew hget
        obtain rfl := Except.ok.inj h
        obtain ⟨hmem, hid⟩ := mem_of_getById hget
        refine allOwned_fillRoster hs' hmem ?_ _ _
        -- The crew with the new id is the one that was inserted, with its owner.
        obtain ⟨hfresh, c, hcrews, hne, -⟩ := persistCrew_eq_some hpersist
        rw [hcrews] at hmem
        rcases mem_append.mp hmem with hold | hnew
        · exact absurd hid (lookup_eq_none.mp hfresh newCrew hold)
        · rw [mem_singleton.mp hnew]
          exact hne

end Creation

/-! ## Deleting -/

section Deletion

variable {s t : Db}

/-- What is left when a crew is deleted. -/
theorem mem_deleteCrew (h : c ∈ (s.deleteCrew crewId).crews) :
    c.id ≠ crewId ∧ ∃ d ∈ s.crews, d.id = c.id ∧ d.members = c.members ∧
      d.createdBy = c.createdBy := by
  obtain ⟨hc, hne⟩ := mem_erase.mp h
  obtain ⟨d, hd, rfl⟩ := mem_map.mp hc
  exact ⟨hne, d, hd, rfl, rfl, rfl⟩

theorem owned_congr {d : Crew} (hm : d.members = c.members) (hc : d.createdBy = c.createdBy) :
    Owned c ↔ Owned d := by
  unfold Owned
  rw [hm, hc]

theorem allOwned_deleteCrew (hs : AllOwned s) (crewId : String) :
    AllOwned (s.deleteCrew crewId) := by
  intro c hc
  obtain ⟨-, d, hd, -, hm, hby⟩ := mem_deleteCrew hc
  exact (owned_congr hm hby).mpr (hs d hd)

/-- Between the removal of a user and the end of the loop: the crews still to be passed on
have no owner, the others are owned. -/
def Orphaned (s : Db) (ids : List String) : Prop :=
  ∀ c ∈ s.crews, (c.id ∈ ids → owners c.members = []) ∧ (c.id ∉ ids → Owned c)

theorem orphaned_passOn (hids : crewId ∉ ids) (hs : Orphaned s (crewId :: ids))
    (h : passOn s crewId = some t) : Orphaned t ids := by
  -- A crew with another id has the same place before and after.
  have hother : ∀ c ∈ s.crews, c.id ≠ crewId →
      (c.id ∈ ids → owners c.members = []) ∧ (c.id ∉ ids → Owned c) := by
    intro c hc hne
    refine ⟨fun hin => (hs c hc).1 (mem_cons_of_mem _ hin), fun hout => (hs c hc).2 ?_⟩
    rw [mem_cons, not_or]
    exact ⟨hne, hout⟩
  unfold passOn at h
  split at h
  · rename_i hnone
    obtain rfl := Option.some.inj h
    exact fun c hc => hother c hc (lookup_eq_none.mp hnone c hc)
  rename_i crew hcrew
  obtain ⟨hmem, hid⟩ := mem_of_getById hcrew
  split at h
  · obtain rfl := Option.some.inj h
    intro c hc
    obtain ⟨hne, d, hd, hdid, hm, hby⟩ := mem_deleteCrew hc
    have := hother d hd (hdid ▸ hne)
    rw [hdid, hm, ← owned_congr hm hby] at this
    exact this
  · rename_i heir rest hrows
    dsimp only at h
    split_ifs at h
    obtain rfl := Option.some.inj h
    have hiff := fun z => s.unique.mem_modify_iff (z := z)
      (f := fun c : Crew => { c with
        createdBy := heir.userId
        members := crew.members.setRole heir.userId .owner }) (fun _ => rfl) hcrew
    intro c hc
    rcases (hiff c).mp hc with rfl | ⟨hc, hne⟩
    · refine ⟨fun hin => absurd (hid ▸ hin) hids, fun _ _ => ?_⟩
      have hnone := (hs crew hmem).1 (hid ▸ mem_cons_self ..)
      exact owners_promote hnone (hrows ▸ mem_cons_self ..)
    · exact hother c hc hne

theorem allOwned_passOnAll (hids : ids.Nodup) (hs : Orphaned s ids) (h : passOnAll s ids = some t) :
    AllOwned t := by
  induction ids generalizing s with
  | nil =>
    obtain rfl := Option.some.inj h
    exact fun c hc => (hs c hc).2 not_mem_nil
  | cons crewId ids ih =>
    obtain ⟨hfresh, hids⟩ := nodup_cons.mp hids
    unfold passOnAll at h
    split at h
    · cases h
    · rename_i s' hpass
      exact ih hids (orphaned_passOn hfresh hs hpass) h

/-- **Deleting an account keeps the crews owned.** -/
theorem allOwned_hardDelete (hs : AllOwned s) (h : hardDelete s userId = some t) : AllOwned t := by
  unfold hardDelete at h
  dsimp only at h
  set s' := s.mapCrews (fun c => { c with members := c.members.remove userId }) fun _ => rfl
    with hs'
  split at h
  · cases h
  rename_i s'' hpass
  obtain rfl := Option.some.inj h
  have hids : ((s'.crews.filter (fun c => decide (c.createdBy = userId))).map Crew.id).Nodup :=
    s'.unique.filter _
  suffices horphaned : Orphaned s'
      ((s'.crews.filter (fun c => decide (c.createdBy = userId))).map Crew.id) from
    fun c hc => allOwned_passOnAll hids horphaned hpass c hc
  refine fun c hc => ⟨fun hin => ?_, fun hout hne => ?_⟩
  · -- The crews the user created lose the user, their only owner.
    obtain ⟨d, hd, hid⟩ := mem_map.mp hin
    obtain ⟨hd, hby⟩ := mem_filter.mp hd
    obtain rfl := s'.unique.eq_of_mem hd hc hid
    obtain ⟨e, he, rfl⟩ := mem_map.mp hd
    have hby : e.createdBy = userId := of_decide_eq_true hby
    show owners (e.members.remove userId) = []
    rw [owners_remove]
    by_cases hrows : e.members.rows = []
    · simp [owners, hrows]
    · rw [hs e he hrows, hby]
      simp
  · -- The others keep their owner.
    obtain ⟨e, he, rfl⟩ := mem_map.mp hc
    have hby : e.createdBy ≠ userId := by
      intro hby
      exact hout (mem_map.mpr ⟨_, mem_filter.mpr ⟨hc, decide_eq_true hby⟩, rfl⟩)
    have hrows : e.members.rows ≠ [] := by
      intro hnil
      exact hne (by simp [Members.remove, erase, hnil])
    show owners (e.members.remove userId) = [e.createdBy]
    rw [owners_remove, hs e he hrows]
    simp [hby]

end Deletion

/-! ## Runs -/

/-- **One request keeps the crews owned exactly when it is one of those that do.** -/
theorem allOwned_step {s t : Db} {a : Action} (hs : AllOwned s) (h : step s a = some t) :
    AllOwned t ↔ Keeps s a := by
  have hok : route s a = .ok t := by
    unfold step at h
    cases hr : route s a with
    | error r =>
      rw [hr] at h
      cases h
    | ok c =>
      rw [hr] at h
      exact congrArg _ (Option.some.inj h)
  cases a with
  | setUsers users =>
    obtain rfl := Except.ok.inj hok
    exact ⟨fun _ => trivial, fun _ => hs⟩
  | setFestivals festivals =>
    obtain rfl := Except.ok.inj hok
    exact ⟨fun _ => trivial, fun _ => hs⟩
  | setProfiles profiles =>
    obtain rfl := Except.ok.inj hok
    exact ⟨fun _ => trivial, fun _ => hs⟩
  | create caller festivalId new =>
    refine ⟨fun _ => trivial, fun _ => ?_⟩
    have hok : createRoute s caller festivalId new = .ok t := hok
    unfold createRoute at hok
    iterate 3
      split at hok
      · cases hok
    split at hok
    · rename_i s' hpersist
      obtain rfl := Except.ok.inj hok
      exact allOwned_persistCrew hs hpersist
    · cases hok
  | reform caller sourceCrewId targetFestivalId new =>
    exact ⟨fun _ => trivial, fun _ => allOwned_reform hs hok⟩
  | join caller code now =>
    have hok : joinRoute s caller code now = .ok t := hok
    unfold joinRoute at hok
    split at hok
    · split_ifs at hok
    · rename_i crew hcode
      split_ifs at hok
      rw [allOwned_addToCrew hs (mem_of_find?_eq_some hcode) hok]
      show _ ↔ ∀ c ∈ s.getByInviteCode code now, 0 < c.members.rows.length
      rw [hcode]
      simp
  | adminAdd actor crewId userId =>
    have hok : adminAddRoute s actor crewId userId = .ok t := hok
    unfold adminAddRoute at hok
    split at hok
    · cases hok
    split at hok
    · cases hok
    · rename_i crew hcrew
      split at hok
      · cases hok
      rw [allOwned_addToCrew hs (mem_of_getById hcrew).1 hok]
      show _ ↔ ∀ c ∈ s.getById crewId, 0 < c.members.rows.length
      rw [hcrew]
      simp
  | leave caller crewId =>
    refine ⟨fun _ => trivial, fun _ => ?_⟩
    have hok : leaveRoute s caller crewId = .ok t := hok
    unfold leaveRoute at hok
    split at hok
    · cases hok
    rename_i crew hcrew
    split at hok
    · cases hok
    rename_i m hm
    split_ifs at hok with hrole
    obtain rfl := Except.ok.inj hok
    obtain ⟨hrow, hid⟩ := mem_of_lookup hm
    refine allOwned_remove hs (mem_of_getById hcrew).1 fun hmem => ?_
    obtain ⟨x, hx, hxrole, hxid⟩ := mem_owners.mp hmem
    obtain rfl := crew.members.unique.eq_of_mem hx hrow (hxid.trans hid.symm)
    exact hrole hxrole
  | kick caller crewId target =>
    refine ⟨fun _ => trivial, fun _ => ?_⟩
    have hok : kickRoute s caller crewId target = .ok t := hok
    unfold kickRoute at hok
    split at hok
    · cases hok
    rename_i crew hresolved
    split_ifs at hok with hself
    obtain rfl := Except.ok.inj hok
    obtain ⟨hcrew, howners, hcaller⟩ := resolveCrewOwnership_eq_ok hs hresolved
    refine allOwned_remove hs hcrew fun hmem => hself ?_
    rw [howners, mem_singleton] at hmem
    exact hmem.trans hcaller
  | adminRemove actor crewId target =>
    have hok : adminRemoveRoute s actor crewId target = .ok t := hok
    unfold adminRemoveRoute at hok
    split at hok
    · cases hok
    split at hok
    · cases hok
    rename_i crew hcrew
    split_ifs at hok
    obtain rfl := Except.ok.inj hok
    show _ ↔ ∀ c ∈ s.getById crewId, target ∈ owners c.members → c.members.rows.length = 1
    simp only [hcrew, Option.mem_def, Option.some.injEq, forall_eq']
    by_cases howner : target ∈ owners crew.members
    · rw [allOwned_removeOwner hs (mem_of_getById hcrew).1 howner]
      exact ⟨fun h _ => h, fun h => h howner⟩
    · exact ⟨fun _ h => absurd h howner,
        fun _ => allOwned_remove hs (mem_of_getById hcrew).1 howner⟩
  | transfer caller crewId target =>
    have hok : transferRoute s caller crewId target = .ok t := hok
    unfold transferRoute at hok
    split at hok
    · cases hok
    rename_i crew hresolved
    split_ifs at hok with hself htarget
    obtain rfl := Except.ok.inj hok
    obtain ⟨hcrew, howners, rfl⟩ := resolveCrewOwnership_eq_ok hs hresolved
    obtain ⟨m, hm⟩ := Option.ne_none_iff_exists'.mp htarget
    exact ⟨fun h => not_allOwned_transfer hs hcrew howners hm hself h, fun h => absurd h id⟩
  | delete caller crewId =>
    refine ⟨fun _ => trivial, fun _ => ?_⟩
    have hok : deleteRoute s caller crewId = .ok t := hok
    unfold deleteRoute at hok
    split at hok
    · cases hok
    · obtain rfl := Except.ok.inj hok
      exact allOwned_deleteCrew hs _
  | hardDelete actor target =>
    refine ⟨fun _ => trivial, fun _ => ?_⟩
    have hok : hardDeleteRoute s actor target = .ok t := hok
    unfold hardDeleteRoute at hok
    iterate 3
      split at hok
      · cases hok
    split at hok
    · rename_i s' hdelete
      obtain rfl := Except.ok.inj hok
      exact allOwned_hardDelete hs hdelete
    · cases hok

/-- **The crews are owned throughout a run exactly when every step keeps them so.** -/
theorem ownership_iff (as : List Action) (t : Db)
    (hrun : Machine.run step Db.empty as = some t) :
    Machine.Always step AllOwned Db.empty as ↔ Machine.Meets step Keeps Db.empty as :=
  Machine.always_iff_meets (fun _ _ _ hs h => allOwned_step hs h)
    (fun _ hc => absurd hc List.not_mem_nil) hrun

/-- Three users with profiles in two festivals; the last one is an admin. -/
def signedUp : List Action :=
  [.setUsers [⟨"ana", "Ana", false, false⟩, ⟨"ben", "Ben", false, false⟩,
      ⟨"cem", "Cem", false, true⟩],
    .setFestivals ["may", "june"],
    .setProfiles [⟨"ana", "may"⟩, ⟨"ben", "may"⟩, ⟨"ana", "june"⟩, ⟨"ben", "june"⟩]]

/-- Ana's crew is joined and reformed, and her account is deleted. -/
def heirRun : List Action :=
  signedUp ++ [.create "ana" "may" ⟨"c1", "AAAA", 10⟩, .join "ben" "AAAA" 5,
    .reform "ana" "c1" "june" ⟨"c2", "BBBB", 20⟩, .hardDelete "cem" "ana"]

/-- Ben takes over both crews. -/
theorem ownership_heirRun : Machine.Always step AllOwned Db.empty heirRun := by
  obtain ⟨t, ht⟩ := Option.isSome_iff_exists.mp
    (by decide : (Machine.run step Db.empty heirRun).isSome = true)
  exact (ownership_iff heirRun t ht).mpr (by decide)

/-- Ana transfers her crew to Ben. -/
def transferRun : List Action :=
  signedUp ++ [.create "ana" "may" ⟨"c1", "AAAA", 10⟩, .join "ben" "AAAA" 5,
    .transfer "ana" "c1" "ben"]

/-- **A transfer changes the roles only**: Ben is the owner, and every response still
reports Ana. -/
theorem transfer_leaves_createdBy :
    ∃ t ∈ Machine.run step Db.empty transferRun, ¬AllOwned t := by
  obtain ⟨t, ht, c, hc, hrows, howners, hby⟩ : ∃ t ∈ Machine.run step Db.empty transferRun,
      ∃ c ∈ t.crews, 0 < c.members.rows.length ∧ owners c.members = ["ben"] ∧
        c.createdBy = "ana" := by
    decide
  refine ⟨t, ht, fun h => ?_⟩
  have howned := h c hc (List.length_pos_iff.mp hrows)
  rw [howners, hby] at howned
  exact absurd howned (by decide)

end FestivalPlanner.Crews
