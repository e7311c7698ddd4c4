import FestivalPlanner.Crews.ReformRequests

/-!
# One crew for a reform, and nobody brought in against their will

A reform is made once, answered with the same crew again, and brings in only those who agreed to
it.  The first is the index's and always true.  The others rest on three reads that are not renewed:
a repeat looks for its crew among those of which the caller is a member, the source crew and the
profiles are read before anybody is added, and the plan knows the present members of the new crew
and not those who went.

* `Consented` — what is claimed of the crews, the answers and the additions;
* `brings`, `arrivals` — whom a reform under way is to add;
* `Orderly` — nothing that such a reform has read changes, its caller stays, and nobody who went
  is in its plan;
* `Sound` — what a reform has read is still so;
* `consented_always` — a run of orderly steps keeps what is claimed.
-/

namespace FestivalPlanner.Crews.ReformRequests

open List Option InFlight

open CrewSize (Reform isMember insertMember planReformRoster)

/-! ## What is claimed -/

/-- There is one crew for a creator, a festival and a source; a reform is answered with the crew
that is there; and whoever is added is a member of the source with a profile, and has not left the
crew or been removed from it. -/
structure Consented (s : State) : Prop where
  unique : ReformUnique s.db
  returns : ∀ a ∈ s.answers, ∀ c ∈ a.existing, a.returned = some c.id
  consent : ∀ a ∈ s.adds, a.inSource = true ∧ a.hasProfile = true
  leftAlone : ∀ a ∈ s.adds, a.departed = false

/-! ## Whom a reform is to add -/

/-- The members of the source crew other than the caller with a profile, as they were read. -/
def candidates (r : Reform) (sourceMembers profileUsers : List String) : List String :=
  sourceMembers.filter (fun u => decide (u ≠ r.caller ∧ u ∈ profileUsers))

/-- The members of the source crew whom a reform may still add. -/
def brings (r : Reform) : CrewSize.Pc → List String
  | .reformProfiles _ _ sourceMembers => sourceMembers.filter (fun u => decide (u ≠ r.caller))
  | .reformCrews _ _ sourceMembers profileUsers
  | .reformPersist _ _ sourceMembers profileUsers
  | .reformRaced _ sourceMembers profileUsers
  | .reformReadNew _ sourceMembers profileUsers
  | .reformRoster _ _ sourceMembers profileUsers => candidates r sourceMembers profileUsers
  | .reformAdd _ rest slots => if 0 < slots then rest else []
  | _ => []

/-- Those of them whose profile has been read. -/
def profiled (r : Reform) : CrewSize.Pc → List String
  | .reformProfiles _ _ _ => []
  | pc => brings r pc

/-- Those whom it adds next, with the crew. -/
def arrivals : CrewSize.Pc → List (String × String)
  | .reformAdd newCrewId rest slots => if 0 < slots then rest.map (fun u => (newCrewId, u)) else []
  | _ => []

/-! ## An orderly step -/

/-- The request is not to bring the user over from this crew, nor into it. -/
def Leaves (crewId userId : String) : Pc → Prop
  | .reform r pc => (crewId = r.sourceCrewId → userId ∉ brings r pc) ∧
      (crewId, userId) ∉ arrivals pc
  | _ => True

/-- The users whose profile the request has read have one. -/
def Keeps (profiles : List Profile) : Pc → Prop
  | .reform r pc => ∀ u ∈ profiled r pc, ⟨u, r.targetFestivalId⟩ ∈ profiles
  | _ => True

/-- The caller is a member of the crew that was reformed. -/
def Stays (db : Db) (r : Reform) : Prop :=
  ∀ c ∈ reformed db r, (c.members.get r.caller).isSome = true

/-- The members of a crew that a reform reads. -/
def existingMembers (db : Db) (crewId : String) : List String :=
  match db.getById crewId with
  | none => []
  | some c => (db.getMembers c).map Ledger.Member.userId

/-- What a turn must find: a removal, no reform under way that is to add the member; a reform that
is refused otherwise, its caller in the crew that is there; a plan, nobody who went from the
crew. -/
def Fits (s : State) : Pc → Prop
  | .remove crewId userId =>
      isMember s.db crewId userId = true → ∀ q ∈ s.requests, Leaves crewId userId q
  | .reform r (.reformCrews _ _ _ _) =>
      maxCrewsPerUserPerFestival ≤
        (s.db.listByUserAndFestival r.caller r.targetFestivalId).length → Stays s.db r
  | .reform r (.reformRaced _ _ _) => Stays s.db r
  | .reform r (.reformRoster _ newCrew sourceMembers profileUsers) =>
      ∀ u ∈ planReformRoster sourceMembers r.caller profileUsers (existingMembers s.db newCrew.id),
        (newCrew.id, u) ∉ s.departed
  | _ => True

def Orderly (s : State) : Action → Prop
  | .arrive _ => True
  | .turn i _ => ∀ pc ∈ s.requests[i]?, Fits s pc
  | .setProfiles profiles => ∀ q ∈ s.requests, Keeps profiles q

instance (crewId userId : String) : ∀ q, Decidable (Leaves crewId userId q) := fun q => by
  unfold Leaves
  split <;> infer_instance

instance (profiles : List Profile) : ∀ q, Decidable (Keeps profiles q) := fun q => by
  unfold Keeps
  split <;> infer_instance

instance (db : Db) (r : Reform) : Decidable (Stays db r) :=
  inferInstanceAs (Decidable (∀ c ∈ reformed db r, _))

/-- A turn of a reform. -/
instance fitsReform (s : State) (r : Reform) : ∀ pc, Decidable (Fits s (.reform r pc)) := fun pc => by
  unfold Fits
  split <;> infer_instance

instance (s : State) : ∀ pc, Decidable (Fits s pc) := fun pc => by
  unfold Fits
  split <;> infer_instance

instance (s : State) : ∀ a, Decidable (Orderly s a) := fun a => by
  unfold Orderly
  split <;> infer_instance

instance (db : Db) : Decidable (ReformUnique db) :=
  inferInstanceAs (Decidable (∀ l ∈ lineages db, ∀ m ∈ lineages db, _))

/-! ## What has been read -/

/-- The requests that a reform goes through are its own. -/
def Own (r : Reform) : CrewSize.Pc → Prop
  | .begin (.reform caller sourceCrewId targetFestivalId new) =>
      r = ⟨caller, sourceCrewId, targetFestivalId, new⟩
  | .reformMember r' _ | .reformFestival r' _ | .reformProfile r' _ | .reformSource r' _
  | .reformProfiles r' _ _ | .reformCrews r' _ _ _ | .reformPersist r' _ _ _
  | .reformRaced r' _ _ | .reformReadNew r' _ _ | .reformRoster r' _ _ _ => r' = r
  | .reformAdd _ _ _ => True
  | _ => False

/-- The crew that it has just inserted. -/
def inserted (r : Reform) : CrewSize.Pc → Option String
  | .reformReadNew _ _ _ => some r.new.id
  | _ => none

/-- What a reform has read is still so. -/
structure Sound (db : Db) (departed : List (String × String)) (r : Reform) (pc : CrewSize.Pc) :
    Prop where
  own : Own r pc
  members : ∀ u ∈ brings r pc, isMember db r.sourceCrewId u = true
  profiles : ∀ u ∈ profiled r pc, ⟨u, r.targetFestivalId⟩ ∈ db.profiles
  present : ∀ a ∈ arrivals pc, a ∉ departed
  inserted : ∀ crewId ∈ inserted r pc, reformLineage r crewId ∈ lineages db

def Trusted (db : Db) (departed : List (String × String)) : Pc → Prop
  | .reform r pc => Sound db departed r pc
  | _ => True

/-- What is claimed, with every reform under way having read what is so. -/
structure Inv (s : State) : Prop where
  consented : Consented s
  trusted : ∀ q ∈ s.requests, Trusted s.db s.departed q

variable {q : Pc} {crewId u newCrewId : String} {rest : List String} {slots : ℤ}

section
variable {db db' : Db} {departed : List (String × String)} {r : Reform} {pc : CrewSize.Pc}

/-- Where the crews keep what they have, a reform has still read what is so. -/
theorem Trusted.grows (h : Trusted db departed q) (hdb : Grows db db') :
    Trusted db' departed q := by
  cases q with
  | reform r pc =>
    refine ⟨h.own, fun u hu => hdb.members _ _ (h.members u hu), fun u hu => ?_, h.present,
      fun crewId hid => hdb.lineages _ (h.inserted crewId hid)⟩
    rw [hdb.profiles]
    exact h.profiles u hu
  | _ => trivial

theorem isMember_removeMember_of_not {userId otherId : String}
    (hno : isMember db crewId userId ≠ true) (h : isMember db otherId u = true) :
    isMember (removeMember db crewId userId) otherId u = true := by
  refine isMember_removeMember h fun heq => hno ?_
  obtain ⟨rfl, rfl⟩ := Prod.mk.inj heq
  exact h

/-- A removal that concerns nobody whom a reform is to add leaves what it has read. -/
theorem Trusted.removeMember {userId : String} (h : Trusted db departed q)
    (hleaves : isMember db crewId userId = true → Leaves crewId userId q) :
    Trusted (removeMember db crewId userId)
      (departed ++ (departure db (.remove crewId userId)).toList) q := by
  cases q with
  | reform r pc =>
    have hprofiles : ∀ u ∈ profiled r pc,
        ⟨u, r.targetFestivalId⟩ ∈ (ReformRequests.removeMember db crewId userId).profiles :=
      h.profiles
    have hinserted : ∀ id ∈ ReformRequests.inserted r pc,
        reformLineage r id ∈ lineages (ReformRequests.removeMember db crewId userId) := by
      intro id hid
      rw [lineages_removeMember]
      exact h.inserted id hid
    by_cases hmember : isMember db crewId userId = true
    · obtain ⟨hsource, harrives⟩ := hleaves hmember
      refine ⟨h.own, fun u hu => isMember_removeMember (h.members u hu) fun heq => ?_, hprofiles,
        fun a ha hdeparted => ?_, hinserted⟩
      · obtain ⟨hid, rfl⟩ := Prod.mk.inj heq
        exact hsource hid.symm hu
      · simp only [departure, hmember, if_true, toList_some, mem_append,
          mem_singleton] at hdeparted
        rcases hdeparted with hdeparted | rfl
        · exact h.present a ha hdeparted
        · exact harrives ha
    · refine ⟨h.own, fun u hu => isMember_removeMember_of_not hmember (h.members u hu), hprofiles,
        fun a ha => ?_, hinserted⟩
      simp only [departure, hmember]
      rw [if_neg Bool.false_ne_true, toList_none, append_nil]
      exact h.present a ha
  | _ => trivial

theorem Trusted.setProfiles {profiles : List Profile} (h : Trusted db departed q)
    (hkeeps : Keeps profiles q) : Trusted { db with profiles := profiles } departed q := by
  cases q with
  | reform r pc => exact ⟨h.own, h.members, hkeeps, h.present, h.inserted⟩
  | _ => trivial

end

/-! ## What a turn does to the crews -/

/-- Every turn of these requests keeps the crews, their members and the profiles. -/
theorem grows_crewSize (db : Db) (now : ℕ) (pc : CrewSize.Pc) :
    Grows db (CrewSize.advance db now pc).1 ∧
      (ReformUnique db → ReformUnique (CrewSize.advance db now pc).1) := by
  rcases CrewSize.advance_cases db now pc with ⟨hsame, -⟩ | ⟨crewId, userId, db', hinsert, heq, -⟩ |
    ⟨crewId, maxMembers, rfl⟩ | ⟨new, festivalId, createdBy, m, reformedFrom, -, hpersist, -⟩
  · rw [hsame]
    exact ⟨Grows.refl db, id⟩
  · obtain ⟨hgrows, hlineages⟩ := insertMember_cases hinsert
    rw [heq]
    exact ⟨hgrows, fun h => reformUnique_of_lineages h hlineages⟩
  · exact ⟨grows_updateLimit maxMembers,
      fun h => reformUnique_of_lineages h (lineages_updateLimit maxMembers)⟩
  · exact ⟨(persistCrew_cases hpersist).1, fun h => reformUnique_persistCrew h hpersist⟩

/-- A turn removes a member, or keeps what the crews have. -/
theorem advance_cases (db : Db) (now : ℕ) (pc : Pc) :
    (∃ crewId userId, pc = .remove crewId userId) ∨
    (departure db pc = none ∧ Grows db (advance db now pc).1 ∧
      (ReformUnique db → ReformUnique (advance db now pc).1)) := by
  cases pc with
  | crew pc => exact .inr ⟨rfl, grows_crewSize db now pc⟩
  | reform r pc => exact .inr ⟨rfl, grows_crewSize db now pc⟩
  | remove crewId userId => exact .inl ⟨crewId, userId, rfl⟩
  | transfer crewId fromUserId toUserId =>
    exact .inr ⟨rfl, grows_transferOwnershipOf fromUserId toUserId,
      fun h => reformUnique_of_lineages h (lineages_transferOwnershipOf fromUserId toUserId)⟩
  | _ =>
    refine .inr ⟨rfl, ?_, ?_⟩ <;> simp only [advance] <;> repeat' split
    all_goals first | exact Grows.refl db | exact id

/-! ## What a turn of a reform reads -/

section
variable {s : State} {now : ℕ} {r r' : Reform} {pc pc' : CrewSize.Pc} {departed : List (String × String)}

/-- Before a reform has read whom it is to add, all that it has read is so. -/
theorem Sound.of_nil {db : Db} (hown : Own r pc) (hbrings : brings r pc = [])
    (hprofiled : profiled r pc = []) (harrivals : arrivals pc = [])
    (hinserted : ReformRequests.inserted r pc = none) : Sound db departed r pc := by
  refine ⟨hown, ?_, ?_, ?_, ?_⟩
  · rw [hbrings]
    exact forall_mem_nil _
  · rw [hprofiled]
    exact forall_mem_nil _
  · rw [harrivals]
    exact forall_mem_nil _
  · rw [hinserted]
    intro crewId hid
    cases hid

/-- A turn that reads nothing more of them leaves what has been read. -/
theorem Sound.carry {db : Db} (h : Sound db departed r pc) (hown : Own r pc')
    (hbrings : brings r pc' = brings r pc) (hprofiled : profiled r pc' = profiled r pc)
    (harrivals : arrivals pc' = []) (hinserted : ReformRequests.inserted r pc' = none) :
    Sound db departed r pc' := by
  refine ⟨hown, ?_, ?_, ?_, ?_⟩
  · rw [hbrings]
    exact h.members
  · rw [hprofiled]
    exact h.profiles
  · rw [harrivals]
    exact forall_mem_nil _
  · rw [hinserted]
    intro crewId hid
    cases hid

theorem mem_brings_reformAdd :
    u ∈ brings r (.reformAdd newCrewId rest slots) ↔ 0 < slots ∧ u ∈ rest := by
  simp only [brings]
  split_ifs with h <;> simp [h]

theorem mem_profiled_reformAdd :
    u ∈ profiled r (.reformAdd newCrewId rest slots) ↔ 0 < slots ∧ u ∈ rest := by
  rw [profiled, mem_brings_reformAdd]
  all_goals
    intro r' source sourceMembers h
    cases h

theorem mem_arrivals_reformAdd {a : String × String} :
    a ∈ arrivals (.reformAdd newCrewId rest slots) ↔
      0 < slots ∧ ∃ u ∈ rest, (newCrewId, u) = a := by
  simp only [arrivals]
  split_ifs with h <;> simp [h]

/-- Those who are added are among those who were read. -/
theorem planReformRoster_subset {sourceMembers profileUsers existing : List String}
    (hu : u ∈ planReformRoster sourceMembers r.caller profileUsers existing) :
    u ∈ candidates r sourceMembers profileUsers := by
  simp only [planReformRoster, mem_filter, mem_eraseDups, decide_eq_true_eq] at hu
  obtain ⟨hsource, -, hne, -, hprofile⟩ := hu
  exact mem_filter.mpr ⟨hsource, decide_eq_true ⟨hne, hprofile⟩⟩

theorem isMember_of_mem_getMembers {db : Db} {c : Crew} (hc : db.getById crewId = some c)
    (hu : u ∈ (db.getMembers c).map Ledger.Member.userId) : isMember db crewId u = true := by
  rw [isMember_eq, getMember, hc, bind_some, isSome_get_iff]
  obtain ⟨m, hm, rfl⟩ := List.mem_map.mp hu
  exact List.mem_map_of_mem (mem_of_mem_filter hm)

/-- The next of those to add, and the others. -/
theorem Sound.reformAdd {db : Db} {uid : String} {slots' : ℤ}
    (h : Sound db departed r (.reformAdd newCrewId (uid :: rest) slots)) (hslots : slots' ≤ slots) :
    Sound db departed r (.reformAdd newCrewId rest slots') := by
  have hbrings : ∀ u ∈ brings r (.reformAdd newCrewId rest slots'),
      u ∈ brings r (.reformAdd newCrewId (uid :: rest) slots) := by
    intro u hu
    rw [mem_brings_reformAdd] at hu ⊢
    exact ⟨by omega, mem_cons_of_mem uid hu.2⟩
  refine ⟨trivial, fun u hu => h.members u (hbrings u hu), fun u hu => h.profiles u (hbrings u hu),
    fun a ha => h.present a ?_, fun crewId hid => by cases hid⟩
  · rw [mem_arrivals_reformAdd] at ha ⊢
    obtain ⟨hpos, u, hu, rfl⟩ := ha
    exact ⟨by omega, u, mem_cons_of_mem uid hu, rfl⟩

/-- A turn of a reform whose plan holds nobody who went reads what is so. -/
theorem Sound.advance (h : Sound s.db s.departed r pc) (hfits : Fits s (.reform r pc))
    (hnext : (CrewSize.advance s.db now pc).2 = .ok (some pc')) :
    Sound (CrewSize.advance s.db now pc).1 s.departed r pc' := by
  have hown := h.own
  cases pc with
  | begin request =>
    cases request with
    | reform caller sourceCrewId targetFestivalId new =>
      simp only [CrewSize.advance] at hnext ⊢
      split at hnext
      · cases hnext
      · cases hnext
        exact .of_nil (Eq.symm hown) rfl rfl rfl rfl
    | _ => exact absurd hown id
  | reformMember r' source =>
    simp only [CrewSize.advance] at hnext ⊢
    split at hnext
    · cases hnext
      exact .of_nil hown rfl rfl rfl rfl
    · cases hnext
  | reformFestival r' source =>
    simp only [CrewSize.advance] at hnext ⊢
    split at hnext
    · cases hnext
      exact .of_nil hown rfl rfl rfl rfl
    · cases hnext
  | reformProfile r' source =>
    simp only [CrewSize.advance] at hnext ⊢
    split at hnext
    · cases hnext
      exact .of_nil hown rfl rfl rfl rfl
    · cases hnext
  | reformSource r' source =>
    obtain rfl : r' = r := hown
    cases hnext
    refine ⟨rfl, fun u hu => ?_, forall_mem_nil _, forall_mem_nil _,
      fun crewId hid => by cases hid⟩
    have hu' := mem_of_mem_filter hu
    cases hc : s.db.getById r'.sourceCrewId with
    | none =>
      rw [hc] at hu'
      cases hu'
    | some c =>
      rw [hc] at hu'
      exact isMember_of_mem_getMembers hc hu'
  | reformProfiles r' source sourceMembers =>
    obtain rfl : r' = r := hown
    cases hnext
    refine ⟨rfl, fun u hu => h.members u ?_, fun u hu => ?_, forall_mem_nil _,
      fun crewId hid => by cases hid⟩
    · obtain ⟨hsource, hcandidate⟩ := mem_filter.mp hu
      exact mem_filter.mpr ⟨hsource, decide_eq_true (of_decide_eq_true hcandidate).1⟩
    · obtain ⟨-, hcandidate⟩ := mem_filter.mp hu
      obtain ⟨p, hp, rfl⟩ := List.mem_map.mp (of_decide_eq_true hcandidate).2
      obtain ⟨hprofile, hfestival⟩ := mem_filter.mp hp
      rw [← of_decide_eq_true hfestival]
      exact hprofile
  | reformCrews r' source sourceMembers profileUsers =>
    simp only [CrewSize.advance] at hnext ⊢
    split at hnext
    · cases hnext
      exact h.carry hown rfl rfl rfl rfl
    · split at hnext
      · cases hnext
      · next hcap =>
        rw [if_neg hcap]
        cases hnext
        exact h.carry hown rfl rfl rfl rfl
  | reformPersist r' source sourceMembers profileUsers =>
    obtain rfl : r' = r := hown
    simp only [CrewSize.advance] at hnext ⊢
    split at hnext
    · next db' hpersist =>
      cases hnext
      obtain ⟨hgrows, hlineages, -⟩ := persistCrew_cases hpersist
      refine ⟨rfl, fun u hu => hgrows.members _ _ (h.members u hu), fun u hu => ?_,
        forall_mem_nil _, fun crewId hid => ?_⟩
      · rw [hgrows.profiles]
        exact h.profiles u hu
      · obtain rfl := some.inj hid
        rw [hlineages]
        exact mem_append_right _ (mem_singleton_self _)
    · cases hnext
      exact h.carry rfl rfl rfl rfl rfl
  | reformRaced r' sourceMembers profileUsers =>
    simp only [CrewSize.advance] at hnext ⊢
    split at hnext
    · cases hnext
      exact h.carry hown rfl rfl rfl rfl
    · cases hnext
  | reformReadNew r' sourceMembers profileUsers =>
    simp only [CrewSize.advance] at hnext ⊢
    split at hnext
    · cases hnext
      exact h.carry hown rfl rfl rfl rfl
    · cases hnext
  | reformRoster r' newCrew sourceMembers profileUsers =>
    obtain rfl : r' = r := hown
    cases hnext
    have hplanned : ∀ u ∈ planReformRoster sourceMembers r'.caller profileUsers
        (existingMembers s.db newCrew.id), u ∈ candidates r' sourceMembers profileUsers :=
      fun u hu => planReformRoster_subset hu
    refine ⟨trivial, fun u hu => h.members u (hplanned u (mem_brings_reformAdd.mp hu).2),
      fun u hu => h.profiles u (hplanned u (mem_profiled_reformAdd.mp hu).2), fun a ha => ?_,
      fun crewId hid => by cases hid⟩
    obtain ⟨-, u, hu, rfl⟩ := mem_arrivals_reformAdd.mp ha
    exact hfits u hu
  | reformAdd newCrewId rest slots =>
    cases rest with
    | nil => cases hnext
    | cons uid rest =>
      have hgrows := (grows_crewSize s.db now (.reformAdd newCrewId (uid :: rest) slots)).1
      have hnext' : ∃ slots' ≤ slots, pc' = .reformAdd newCrewId rest slots' := by
        simp only [CrewSize.advance] at hnext
        split at hnext
        · cases hnext
        · split at hnext
          · cases hnext
            exact ⟨slots - 1, by omega, rfl⟩
          · cases hnext
            exact ⟨slots, le_refl _, rfl⟩
      obtain ⟨slots', hslots, rfl⟩ := hnext'
      exact Trusted.grows (q := .reform r _) (h.reformAdd hslots) hgrows
  | _ => exact absurd hown id

end

/-! ## Which crew a reform is answered with -/

section
variable {db : Db} {now : ℕ} {r r' : Reform} {pc : CrewSize.Pc}
  {departed : List (String × String)} {newCrew c d : Crew} {sourceMembers profileUsers : List String}

theorem mem_reformed : c ∈ reformed db r ↔ c ∈ db.crews ∧ c.createdBy = r.caller ∧
    c.festivalId = r.targetFestivalId ∧ c.reformedFrom = some r.sourceCrewId := by
  simp [reformed]

/-- The index leaves one of them. -/
theorem reformed_id_eq (hdb : ReformUnique db) (hc : c ∈ reformed db r) (hd : d ∈ reformed db r) :
    c.id = d.id := by
  obtain ⟨hc, hcreated, hfestival, hfrom⟩ := mem_reformed.mp hc
  obtain ⟨hd, hcreated', hfestival', hfrom'⟩ := mem_reformed.mp hd
  refine hdb _ (List.mem_map_of_mem hc) _ (List.mem_map_of_mem hd) ?_ ?_ ?_ ?_
  · exact hcreated.trans hcreated'.symm
  · exact hfestival.trans hfestival'.symm
  · exact hfrom.trans hfrom'.symm
  · exact isSome_iff_exists.mpr ⟨_, hfrom⟩

/-- The crew that is found in the caller's list was reformed for the request. -/
theorem mem_reformed_of_find
    (h : r.find (db.listByUserAndFestival r.caller r.targetFestivalId) = some c) :
    c ∈ reformed db r := by
  unfold CrewSize.Reform.find at h
  have hfound := find?_some h
  obtain ⟨hfrom, hcreated⟩ := of_decide_eq_true hfound
  obtain ⟨hc, hlisted⟩ := mem_filter.mp (mem_of_find?_eq_some h)
  rw [Bool.and_eq_true, decide_eq_true_eq] at hlisted
  exact mem_reformed.mpr ⟨hc, hcreated, hlisted.2, hfrom⟩

/-- A caller who is a member of the crew that is there finds it. -/
theorem reformed_eq_nil_of_find (hstays : Stays db r)
    (h : r.find (db.listByUserAndFestival r.caller r.targetFestivalId) = none) :
    reformed db r = [] := by
  refine eq_nil_iff_forall_not_mem.mpr fun c hc => ?_
  obtain ⟨hmem, hcreated, hfestival, hfrom⟩ := mem_reformed.mp hc
  have hlisted : c ∈ db.listByUserAndFestival r.caller r.targetFestivalId :=
    mem_filter.mpr ⟨hmem, by rw [hstays c hc, decide_eq_true hfestival]; rfl⟩
  exact find?_eq_none.mp h c hlisted (decide_eq_true ⟨hfrom, hcreated⟩)

/-- The crew with a lineage like that of a reform is the one with its id. -/
theorem mem_reformed_of_getById (hlineage : reformLineage r crewId ∈ lineages db)
    (h : db.getById crewId = some c) : c ∈ reformed db r := by
  obtain ⟨d, hd, heq⟩ := List.mem_map.mp hlineage
  obtain ⟨hid, hcreated, hfestival, hfrom⟩ := Lineage.mk.inj heq
  obtain ⟨hc, hcid⟩ := mem_of_getById h
  obtain rfl := db.unique.eq_of_mem hd hc (hid.trans hcid.symm)
  exact mem_reformed.mpr ⟨hd, hcreated, hfestival, hfrom⟩

/-- The crew that a reform goes on with was reformed for it. -/
theorem mem_reformed_of_roster (h : Sound db departed r pc)
    (hnext : (CrewSize.advance db now pc).2 =
      .ok (some (.reformRoster r' newCrew sourceMembers profileUsers))) :
    newCrew ∈ reformed db r := by
  have hown := h.own
  cases pc with
  | begin request =>
    cases request with
    | reform caller sourceCrewId targetFestivalId new =>
      simp only [CrewSize.advance] at hnext
      split at hnext <;> cases hnext
    | _ => exact absurd hown id
  | reformCrews r'' source sourceMembers profileUsers =>
    obtain rfl : r'' = r := hown
    simp only [CrewSize.advance] at hnext
    split at hnext
    · next hfind =>
      cases hnext
      exact mem_reformed_of_find hfind
    · split at hnext <;> cases hnext
  | reformRaced r'' sourceMembers profileUsers =>
    obtain rfl : r'' = r := hown
    simp only [CrewSize.advance] at hnext
    split at hnext
    · next hfind =>
      cases hnext
      exact mem_reformed_of_find hfind
    · cases hnext
  | reformReadNew r'' sourceMembers profileUsers =>
    obtain rfl : r'' = r := hown
    simp only [CrewSize.advance] at hnext
    split at hnext
    · next hget =>
      cases hnext
      exact mem_reformed_of_getById (h.inserted _ rfl) hget
    · cases hnext
  | reformAdd newCrewId rest slots =>
    cases rest with
    | nil => cases hnext
    | cons uid rest =>
      simp only [CrewSize.advance] at hnext
      split at hnext
      · cases hnext
      · split at hnext <;> cases hnext
  | reformSource r'' source => cases hnext
  | reformProfiles r'' source sourceMembers => cases hnext
  | reformRoster r'' newCrew sourceMembers profileUsers => cases hnext
  | reformMember r'' source | reformFestival r'' source | reformProfile r'' source
  | reformPersist r'' source sourceMembers profileUsers =>
    simp only [CrewSize.advance] at hnext
    split at hnext <;> cases hnext
  | _ => exact absurd hown id

/-- A reform that is refused when it looks for its crew, by a caller who is in the crew that is
there, has found none because there is none. -/
theorem answer_eq {s : State} {a : Answer} (h : Trusted s.db s.departed q)
    (hdb : ReformUnique s.db) (hfits : Fits s q) (ha : answer s.db now q = some a) :
    ∀ c ∈ a.existing, a.returned = some c.id := by
  cases q with
  | reform r pc =>
    have hown := Sound.own h
    simp only [answer] at ha
    split at ha
    · next hnext =>
      obtain rfl := some.inj ha
      intro c hc
      exact congrArg some (reformed_id_eq hdb (mem_reformed_of_roster h hnext) hc)
    · next r' source sourceMembers profileUsers e hnext =>
      obtain rfl : r' = r := hown
      obtain rfl := some.inj ha
      simp only [CrewSize.advance] at hnext
      split at hnext
      · cases hnext
      · next hfind =>
        split at hnext
        · next hcap =>
          rw [reformed_eq_nil_of_find (hfits hcap) hfind]
          exact forall_mem_nil _
        · cases hnext
    · next r' sourceMembers profileUsers e hnext =>
      obtain rfl : r' = r := hown
      obtain rfl := some.inj ha
      simp only [CrewSize.advance] at hnext
      split at hnext
      · cases hnext
      · next hfind =>
        rw [reformed_eq_nil_of_find hfits hfind]
        exact forall_mem_nil _
    · next r' sourceMembers profileUsers e hnext =>
      -- The crew that was inserted is still there.
      obtain rfl : r' = r := hown
      exfalso
      simp only [CrewSize.advance] at hnext
      split at hnext
      · cases hnext
      · next hget =>
        obtain ⟨d, hd, heq⟩ := List.mem_map.mp (Sound.inserted h _ rfl)
        exact Keyed.lookup_eq_none.mp hget d hd (congrArg Lineage.id heq)
    · cases ha
  | _ => cases ha

/-- Whoever is added is a member of the source with a profile, and did not go. -/
theorem added_eq {a : Added} (h : Trusted db departed q) (ha : added db departed q = some a) :
    (a.inSource = true ∧ a.hasProfile = true) ∧ a.departed = false := by
  unfold added at ha
  split at ha
  · next r newCrewId uid rest slots =>
    split_ifs at ha with hadds
    obtain rfl := some.inj ha
    have huid : uid ∈ brings r (.reformAdd newCrewId (uid :: rest) slots) :=
      mem_brings_reformAdd.mpr ⟨hadds.1, mem_cons_self⟩
    refine ⟨⟨Sound.members h uid huid, decide_eq_true (Sound.profiles h uid huid)⟩,
      decide_eq_false (Sound.present h _ ?_)⟩
    exact mem_arrivals_reformAdd.mpr ⟨hadds.1, uid, mem_cons_self, rfl⟩
  · cases ha

end

/-! ## Every run -/

theorem reformUnique_advance {db : Db} (hdb : ReformUnique db) (now : ℕ) (pc : Pc) :
    ReformUnique (advance db now pc).1 := by
  rcases advance_cases db now pc with ⟨crewId, userId, rfl⟩ | ⟨-, -, hkeeps⟩
  · exact reformUnique_of_lineages hdb lineages_removeMember
  · exact hkeeps hdb

/-- The request that takes its turn goes on with what is so. -/
theorem Trusted.next {s : State} {now : ℕ} {pc next : Pc} (h : Trusted s.db s.departed pc)
    (hfits : Fits s pc) (hnext : (advance s.db now pc).2.toOption.join = some next) :
    Trusted (advance s.db now pc).1 (s.departed ++ (departure s.db pc).toList) next := by
  cases pc with
  | reform r pc =>
    simp only [ReformRequests.advance, departure, toList_none, append_nil] at hnext ⊢
    cases hresult : (CrewSize.advance s.db now pc).2 with
    | error e =>
      rw [hresult] at hnext
      cases hnext
    | ok next' =>
      rw [hresult] at hnext
      cases next' with
      | none => cases hnext
      | some pc' =>
        cases hnext
        exact Sound.advance h hfits hresult
  | crew pc =>
    simp only [ReformRequests.advance] at hnext
    cases hresult : (CrewSize.advance s.db now pc).2 with
    | error e =>
      rw [hresult] at hnext
      cases hnext
    | ok next' =>
      rw [hresult] at hnext
      cases next' <;> cases hnext
      trivial
  | _ =>
    simp only [ReformRequests.advance] at hnext
    repeat' split at hnext
    all_goals
      cases hnext
    all_goals trivial

/-- The others go on with what is so: a removal concerns nobody whom they are to add. -/
theorem Trusted.other {s : State} {now : ℕ} {pc : Pc} (h : Trusted s.db s.departed q)
    (hq : q ∈ s.requests) (hfits : Fits s pc) :
    Trusted (advance s.db now pc).1 (s.departed ++ (departure s.db pc).toList) q := by
  rcases advance_cases s.db now pc with ⟨crewId, userId, rfl⟩ | ⟨hstays, hgrows, -⟩
  · exact h.removeMember fun hmember => hfits hmember q hq
  · rw [hstays, toList_none, append_nil]
    exact h.grows hgrows

theorem inv_start {db : Db} (hdb : ReformUnique db) : Inv (start db) where
  consented := ⟨hdb, forall_mem_nil _, forall_mem_nil _, forall_mem_nil _⟩
  trusted := forall_mem_nil _

theorem inv_step {s t : State} {a : Action} (h : Inv s) (ha : Orderly s a)
    (hstep : step s a = some t) : Inv t := by
  cases a with
  | arrive r =>
    simp only [step, ite_none_right_eq_some, some.injEq] at hstep
    obtain ⟨-, rfl⟩ := hstep
    refine ⟨⟨h.consented.unique, h.consented.returns, h.consented.consent, h.consented.leftAlone⟩,
      forall_mem_append_singleton h.trusted ?_⟩
    cases r with
    | crew r =>
      cases r with
      | reform caller sourceCrewId targetFestivalId new => exact .of_nil rfl rfl rfl rfl rfl
      | _ => trivial
    | _ => trivial
  | turn i now =>
    obtain ⟨pc, hpc, rfl⟩ := map_eq_some_iff.mp hstep
    have hfits := ha pc hpc
    have htrusted := h.trusted pc (mem_of_getElem? hpc)
    refine ⟨⟨reformUnique_advance h.consented.unique now pc, ?_, ?_, ?_⟩, ?_⟩
    · exact forall_mem_append_toList h.consented.returns
        fun b hb => answer_eq htrusted h.consented.unique hfits hb
    · exact forall_mem_append_toList h.consented.consent
        fun b hb => (added_eq htrusted hb).1
    · exact forall_mem_append_toList h.consented.leftAlone
        fun b hb => (added_eq htrusted hb).2
    · intro q hq
      rcases mem_proceed_cases hq with hq | hnext
      · exact (h.trusted q hq).other hq hfits
      · exact htrusted.next hfits hnext
  | setProfiles profiles =>
    obtain rfl := some.inj hstep
    exact ⟨⟨h.consented.unique, h.consented.returns, h.consented.consent, h.consented.leftAlone⟩,
      fun q hq => (h.trusted q hq).setProfiles (ha q hq)⟩

/-- **A run of orderly steps keeps what is claimed of reforms**: no member goes whom a reform under
way is to add, no profile that it has read; a caller who is refused is in the crew that is there;
and nobody who went from the crew is in a plan. -/
theorem consented_always {db : Db} (hdb : ReformUnique db) {as : List Action}
    (horderly : Machine.Meets step Orderly (start db) as) :
    Machine.Always step Consented (start db) as :=
  Machine.always_of_meets (fun _ _ _ => inv_step) (fun _ => Inv.consented) (inv_start hdb) horderly

/-- Ana's crew of May with Ben and Cem; Ana and Ben have joined the festival of June. -/
def mayCrew : Db :=
  { users := [⟨"ana", "Ana", false, false⟩, ⟨"ben", "Ben", false, false⟩,
      ⟨"cem", "Cem", false, false⟩]
    festivals := ["may", "june"]
    profiles := [⟨"ana", "june"⟩, ⟨"ben", "june"⟩]
    crews := [⟨"c1", "may", "ana", "AAAA", 10, 5, none,
      ⟨[⟨"ana", "Ana", .owner⟩, ⟨"ben", "Ben", .member⟩, ⟨"cem", "Cem", .member⟩], by decide⟩⟩]
    unique := by decide }

/-- Ana takes her crew to June. -/
def reformOf (newCrewId inviteCode : String) : Action :=
  .arrive (.crew (.reform "ana" "c1" "june" ⟨newCrewId, inviteCode, 20⟩))

/-- Ana sends her reform twice, and the second is overtaken by the first; Cem joins the festival,
Ana hands the crew over to Ben and repeats the reform, and Cem leaves the crew. -/
def sentTwice : List Action :=
  reformOf "c2" "BBBB" :: reformOf "c3" "CCCC" :: List.replicate 7 (.turn 0 5) ++
    List.replicate 7 (.turn 1 5) ++ [.turn 0 6, .turn 1 6, .turn 1 6, .turn 0 6, .turn 0 6,
      .turn 1 6, .turn 0 6, .turn 1 6, .turn 0 6, .turn 0 6] ++
    .setProfiles [⟨"ana", "june"⟩, ⟨"ben", "june"⟩, ⟨"cem", "june"⟩] ::
    .arrive (.transfer "ana" "c2" "ben") :: List.replicate 4 (.turn 0 7) ++
    reformOf "c4" "DDDD" :: List.replicate 10 (.turn 0 8) ++
    .arrive (.leave "cem" "c2") :: List.replicate 3 (.turn 0 9)

theorem sentTwice_consented : ∃ t, Machine.run step (start mayCrew) sentTwice = some t ∧
    t.answers.map Answer.returned = [some "c2", some "c2", some "c2"] ∧
    t.adds.map Added.userId = ["ben", "cem"] ∧ t.departed = [("c2", "cem")] ∧
    Machine.Always step Consented (start mayCrew) sentTwice := by
  obtain ⟨t, ht, hanswers, hadds, hdeparted⟩ : ∃ t ∈ Machine.run step (start mayCrew) sentTwice,
      t.answers.map Answer.returned = [some "c2", some "c2", some "c2"] ∧
      t.adds.map Added.userId = ["ben", "cem"] ∧ t.departed = [("c2", "cem")] := by
    decide
  exact ⟨t, ht, hanswers, hadds, hdeparted, consented_always (by decide) (by decide)⟩

/-- Ana takes her crew to June, and the request is answered. -/
def reformedOnce : List Action := reformOf "c2" "BBBB" :: List.replicate 12 (.turn 0 5)

/-- **The three reads that are not renewed**: Ana hands the crew over and leaves it, and her repeat
fails although it is there; Ben leaves it, and her repeat brings him back; Ben leaves the crew of
May while the reform is under way, and it adds him. -/
theorem repeated_reform_fails_or_brings_back :
    (¬∀ (db : Db) (as : List Action), ReformUnique db → Machine.Always step
      (fun s => ∀ a ∈ s.answers, ∀ c ∈ a.existing, a.returned = some c.id) (start db) as) ∧
    (¬∀ (db : Db) (as : List Action), ReformUnique db → Machine.Always step
      (fun s => ∀ a ∈ s.adds, a.departed = false) (start db) as) ∧
    ¬∀ (db : Db) (as : List Action), ReformUnique db → Machine.Always step
      (fun s => ∀ a ∈ s.adds, a.inSource = true) (start db) as := by
  refine ⟨fun h => ?_, fun h => ?_, fun h => ?_⟩
  · obtain ⟨t, ht, a, ha, c, hc, hne⟩ : ∃ t ∈ Machine.run step (start mayCrew)
        (reformedOnce ++ .arrive (.transfer "ana" "c2" "ben") :: List.replicate 4 (.turn 0 6) ++
          .arrive (.leave "ana" "c2") :: List.replicate 3 (.turn 0 7) ++
          reformOf "c3" "CCCC" :: List.replicate 9 (.turn 0 8)),
        ∃ a ∈ t.answers, ∃ c ∈ a.existing, a.returned ≠ some c.id := by decide
    exact hne ((h _ _ (by decide)).last ht a ha c hc)
  · obtain ⟨t, ht, a, ha, hback⟩ : ∃ t ∈ Machine.run step (start mayCrew)
        (reformedOnce ++ .arrive (.leave "ben" "c2") :: List.replicate 3 (.turn 0 6) ++
          reformOf "c3" "CCCC" :: List.replicate 9 (.turn 0 7)),
        ∃ a ∈ t.adds, a.departed ≠ false := by decide
    exact hback ((h _ _ (by decide)).last ht a ha)
  · obtain ⟨t, ht, a, ha, hsource⟩ : ∃ t ∈ Machine.run step (start mayCrew)
        (reformOf "c2" "BBBB" :: List.replicate 10 (.turn 0 5) ++
          .arrive (.leave "ben" "c1") :: List.replicate 3 (.turn 1 6) ++ [.turn 0 7]),
        ∃ a ∈ t.adds, a.inSource ≠ true := by decide
    exact hsource ((h _ _ (by decide)).last ht a ha)

end FestivalPlanner.Crews.ReformRequests
