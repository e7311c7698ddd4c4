import FestivalPlanner.Crews.Ownership
import FestivalPlanner.Lib.InFlight

/-!
# The size of a crew and its limit

The requests that change who is in a crew, or how many may be, with everything that they await:
`POST /crews/join`, the admin's `POST /:crewId/members`, `POST /:crewId/reform` and
`PUT /:crewId`.  A turn of the server ends at the next query.

* `addCapped`, `insertMember`, `updateLimit` — the statements that write;
* `advance` — what a request does in its next turn;
* `step` — any number of requests, each at its own place;
* `WithinLimit` — no crew has more members than `max_members`;
* `crewSize_iff` — this holds in exactly the runs in which each insert finds a free place under
  the present limit, and no limit is set below the number of members.
-/

namespace FestivalPlanner.Crews.CrewSize

open Option

open Ledger (Members Refusal)

/-! ## The statements -/

/-- `getMemberCount` -/
def memberCount (db : Db) (crewId : String) : ℕ :=
  match db.getById crewId with
  | none => 0
  | some c => c.members.rows.length

/-- `crews.getMember` -/
def isMember (db : Db) (crewId userId : String) : Bool :=
  match db.getById crewId with
  | none => false
  | some c => (c.members.get userId).isSome

/-- `addMember` without a cap; `none` when a constraint refuses the row. -/
def insertMember (db : Db) (crewId userId : String) : Option Db := do
  let c ← db.getById crewId
  let members ← addMember db c.members userId .member
  pure (db.setMembers crewId members)

/-- What `addMember` with a cap answers. -/
inductive Added where
  | full
  | added (db : Db)
  | failed

/-- `addMember` with a cap, under the lock on the crew: a row that is there already is left. -/
def addCapped (db : Db) (crewId userId : String) (maxMembers : ℕ) : Added :=
  if maxMembers ≤ memberCount db crewId then .full
  else if isMember db crewId userId then .added db
  else
    match insertMember db crewId userId with
    | some db => .added db
    | none => .failed

/-- `crews.update`, as far as the limit goes. -/
def updateLimit (db : Db) (crewId : String) (maxMembers : ℕ) : Db :=
  db.modifyCrew crewId (fun c => { c with maxMembers := maxMembers }) fun _ => rfl

/-! ## The requests -/

/-- A request that has passed the authentication and the schema of its body. -/
inductive Request where
  /-- `POST /crews/join` -/
  | join (caller code : String)
  /-- `POST /crews/:crewId/members` -/
  | addMember (actor crewId userId : String)
  /-- `POST /crews/:crewId/reform` -/
  | reform (caller sourceCrewId targetFestivalId : String) (new : NewCrew)
  /-- `PUT /crews/:crewId` -/
  | update (caller crewId : String) (maxMembers : Option ℕ)

/-- `crewUpdateSchema`: a limit that is given lies between 2 and 30. -/
def Request.valid : Request → Bool
  | .update _ _ (some maxMembers) => decide (2 ≤ maxMembers ∧ maxMembers ≤ 30)
  | _ => true

/-- A reform under way. -/
structure Reform where
  caller : String
  sourceCrewId : String
  targetFestivalId : String
  new : NewCrew

/-- The query a request is about to make, with what it keeps of those before.  Of a crew only
the row of `crews` is read. -/
inductive Pc where
  | begin (r : Request)
  | joinProfile (caller : String) (crew : Crew)
  | joinMember (caller : String) (crew : Crew)
  | joinCrews (caller : String) (crew : Crew)
  | adminCrew (crewId userId : String)
  | adminUser (userId : String) (crew : Crew)
  | adminMember (userId : String) (crew : Crew)
  | count (userId : String) (crew : Crew) (failure : String)
  | add (userId : String) (crew : Crew) (failure : String)
  | updateMember (caller : String) (crew : Crew) (maxMembers : Option ℕ)
  | updateCrew (crewId : String) (maxMembers : ℕ)
  | reformMember (r : Reform) (source : Crew)
  | reformFestival (r : Reform) (source : Crew)
  | reformProfile (r : Reform) (source : Crew)
  | reformSource (r : Reform) (source : Crew)
  | reformProfiles (r : Reform) (source : Crew) (sourceMembers : List String)
  | reformCrews (r : Reform) (source : Crew) (sourceMembers profileUsers : List String)
  | reformPersist (r : Reform) (source : Crew) (sourceMembers profileUsers : List String)
  | reformRaced (r : Reform) (sourceMembers profileUsers : List String)
  | reformReadNew (r : Reform) (sourceMembers profileUsers : List String)
  | reformRoster (r : Reform) (newCrew : Crew) (sourceMembers profileUsers : List String)
  | reformAdd (newCrewId : String) (rest : List String) (slots : ℤ)

/-- The crew that the caller already reformed in the target festival. -/
def Reform.find (r : Reform) (crews : List Crew) : Option Crew :=
  crews.find? (fun c => decide (c.reformedFrom = some r.sourceCrewId ∧ c.createdBy = r.caller))

/-- `planReformRoster`: the members to add. -/
def planReformRoster (sourceMembers : List String) (requester : String)
    (profileUsers existing : List String) : List String :=
  sourceMembers.eraseDups.filter fun uid =>
    decide (uid ≠ "" ∧ uid ≠ requester ∧ uid ∉ existing ∧ uid ∈ profileUsers)

/-- What a request does in one turn: the database after its query, and the next query, or none
when it is answered. -/
@[grind =] def advance (db : Db) (now : ℕ) : Pc → Db × Except Refusal (Option Pc)
  | .begin (.join caller code) =>
      match db.getByInviteCode code now with
      | some crew => (db, .ok (some (.joinProfile caller crew)))
      | none =>
          if db.crews.any (fun c => decide (c.inviteCode = code)) then
            (db, .error (.error 410
              "Invite code has expired. Ask the crew owner to regenerate it." .notFound))
          else (db, .error (.error 404 "Invalid invite code" .notFound))
  | .joinProfile caller crew =>
      if ⟨caller, crew.festivalId⟩ ∈ db.profiles then (db, .ok (some (.joinMember caller crew)))
      else (db, .error (.error 403 "Join the festival first" .forbidden))
  | .joinMember caller crew =>
      if isMember db crew.id caller then
        (db, .error (.error 400 "Already a member of this crew" .alreadyExists))
      else (db, .ok (some (.joinCrews caller crew)))
  | .joinCrews caller crew =>
      if maxCrewsPerUserPerFestival ≤ (db.listByUserAndFestival caller crew.festivalId).length then
        (db, .error (.error 400 "Maximum 3 crews per festival" .maxLimitReached))
      else (db, .ok (some (.count caller crew "Failed to join crew")))
  | .begin (.addMember actor crewId userId) =>
      if db.isAdmin actor then (db, .ok (some (.adminCrew crewId userId)))
      else (db, .error (.error 403 "Admin access required" .forbidden))
  | .adminCrew crewId userId =>
      match db.getById crewId with
      | none => (db, .error (.error 404 "Crew not found" .notFound))
      | some crew => (db, .ok (some (.adminUser userId crew)))
  | .adminUser userId crew =>
      if db.isDeleted userId then (db, .error (.error 404 "User not found" .notFound))
      else (db, .ok (some (.adminMember userId crew)))
  | .adminMember userId crew =>
      if isMember db crew.id userId then
        (db, .error (.error 400 "Already a member of this crew" .alreadyExists))
      else (db, .ok (some (.count userId crew "Failed to add member")))
  | .count userId crew failure =>
      if crew.maxMembers ≤ memberCount db crew.id then
        (db, .error (.error 400 "Crew is full" .maxLimitReached))
      else (db, .ok (some (.add userId crew failure)))
  | .add userId crew failure =>
      match addCapped db crew.id userId crew.maxMembers with
      | .full => (db, .error (.error 400 "Crew is full" .maxLimitReached))
      | .failed => (db, .error (.error 500 failure .internalError))
      | .added db => (db, .ok none)
  | .begin (.update caller crewId maxMembers) =>
      match db.getById crewId with
      | none => (db, .error (.error 404 "Crew not found" .notFound))
      | some crew => (db, .ok (some (.updateMember caller crew maxMembers)))
  | .updateMember caller crew maxMembers =>
      match (db.getById crew.id).bind (fun c => c.members.get caller) with
      | some m =>
          if m.role = .owner then
            (db, .ok (some (.updateCrew crew.id (maxMembers.getD crew.maxMembers))))
          else (db, .error (.error 403 "Only the crew owner can update" .forbidden))
      | none => (db, .error (.error 403 "Only the crew owner can update" .forbidden))
  | .updateCrew crewId maxMembers => (updateLimit db crewId maxMembers, .ok none)
  | .begin (.reform caller sourceCrewId targetFestivalId new) =>
      match db.getById sourceCrewId with
      | none => (db, .error (.error 404 "Crew not found" .notFound))
      | some source =>
          (db, .ok (some (.reformMember ⟨caller, sourceCrewId, targetFestivalId, new⟩ source)))
  | .reformMember r source =>
      if isMember db r.sourceCrewId r.caller then (db, .ok (some (.reformFestival r source)))
      else (db, .error (.error 403 "Not a member of this crew" .forbidden))
  | .reformFestival r source =>
      if r.targetFestivalId ∈ db.festivals then (db, .ok (some (.reformProfile r source)))
      else (db, .error (.error 404 "Festival not found" .notFound))
  | .reformProfile r source =>
      if ⟨r.caller, r.targetFestivalId⟩ ∈ db.profiles then (db, .ok (some (.reformSource r source)))
      else (db, .error (.error 403 "Join the festival first" .forbidden))
  | .reformSource r source =>
      let members := match db.getById r.sourceCrewId with
        | none => []
        | some c => (db.getMembers c).map Ledger.Member.userId
      (db, .ok (some (.reformProfiles r source members)))
  | .reformProfiles r source sourceMembers =>
      let users := (db.profiles.filter (fun p => decide (p.festivalId = r.targetFestivalId))).map
        Profile.userId
      (db, .ok (some (.reformCrews r source sourceMembers users)))
  | .reformCrews r source sourceMembers profileUsers =>
      let crews := db.listByUserAndFestival r.caller r.targetFestivalId
      match r.find crews with
      | some newCrew => (db, .ok (some (.reformRoster r newCrew sourceMembers profileUsers)))
      | none =>
          if maxCrewsPerUserPerFestival ≤ crews.length then
            (db, .error (.error 400 "Maximum 3 crews per festival" .maxLimitReached))
          else (db, .ok (some (.reformPersist r source sourceMembers profileUsers)))
  | .reformPersist r source sourceMembers profileUsers =>
      match persistCrew db r.new r.targetFestivalId r.caller
          (if source.maxMembers = 0 then 30 else source.maxMembers) (some r.sourceCrewId) with
      | some db => (db, .ok (some (.reformReadNew r sourceMembers profileUsers)))
      | none => (db, .ok (some (.reformRaced r sourceMembers profileUsers)))
  | .reformRaced r sourceMembers profileUsers =>
      match r.find (db.listByUserAndFestival r.caller r.targetFestivalId) with
      | some newCrew => (db, .ok (some (.reformRoster r newCrew sourceMembers profileUsers)))
      | none => (db, .error (.error 500 "Failed to reform crew" .internalError))
  | .reformReadNew r sourceMembers profileUsers =>
      match db.getById r.new.id with
      | some newCrew => (db, .ok (some (.reformRoster r newCrew sourceMembers profileUsers)))
      | none => (db, .error (.error 500 "Failed to reform crew" .internalError))
  | .reformRoster r newCrew sourceMembers profileUsers =>
      let existing := match db.getById newCrew.id with
        | none => []
        | some c => (db.getMembers c).map Ledger.Member.userId
      let memberCap : ℕ := if newCrew.maxMembers = 0 then 30 else newCrew.maxMembers
      (db, .ok (some (.reformAdd newCrew.id
        (planReformRoster sourceMembers r.caller profileUsers existing)
        ((memberCap : ℤ) - existing.length))))
  | .reformAdd _ [] _ => (db, .ok none)
  | .reformAdd newCrewId (uid :: rest) slots =>
      if slots ≤ 0 then (db, .ok none)
      else
        match insertMember db newCrewId uid with
        | some db => (db, .ok (some (.reformAdd newCrewId rest (slots - 1))))
        | none => (db, .ok (some (.reformAdd newCrewId rest slots)))

/-! ## The machine -/

/-- The database and the requests under way. -/
structure State where
  db : Db
  requests : List Pc

inductive Action where
  | arrive (r : Request)
  /-- the request at this place takes its next turn -/
  | turn (i now : ℕ)

/-- One turn of the server. -/
def step (s : State) : Action → Option State
  | .arrive r => if r.valid then some { s with requests := s.requests ++ [.begin r] } else none
  | .turn i now =>
      match s.requests[i]? with
      | none => none
      | some pc =>
          let (db, next) := advance s.db now pc
          some ⟨db, InFlight.proceed s.requests i next.toOption.join⟩

/-- No request is under way. -/
def start (db : Db) : State := ⟨db, []⟩

/-! ## The limit -/

/-- No crew has more members than its limit allows. -/
def WithinLimit (db : Db) : Prop := ∀ c ∈ db.crews, c.members.rows.length ≤ c.maxMembers

/-- Would the row of the user be inserted now? -/
def Inserts (db : Db) (crewId userId : String) : Prop :=
  (db.getById crewId).isSome = true ∧ isMember db crewId userId = false ∧
    (db.user userId).isSome = true

instance (db : Db) (crewId userId : String) : Decidable (Inserts db crewId userId) :=
  inferInstanceAs (Decidable (_ ∧ _))

/-- The present limit of the crew is above the number of members. -/
def HasPlace (db : Db) (crewId : String) : Prop :=
  ∀ c ∈ db.getById crewId, memberCount db crewId < c.maxMembers

/-- What a turn must find: a join or an added member, a free place under the present limit, and
not only under the one that was read before; an automatic addition likewise; a new limit, no
more members than it allows. -/
def Fits (db : Db) : Pc → Prop
  | .add userId crew _ => Inserts db crew.id userId → memberCount db crew.id < crew.maxMembers →
      HasPlace db crew.id
  | .reformAdd newCrewId (uid :: _) slots => Inserts db newCrewId uid → 0 < slots →
      HasPlace db newCrewId
  | .updateCrew crewId maxMembers => memberCount db crewId ≤ maxMembers
  | _ => True

/-- The request that takes its turn fits. -/
def FitsNext (s : State) : Action → Prop
  | .arrive _ => True
  | .turn i _ => ∀ pc ∈ s.requests[i]?, Fits s.db pc

instance (db : Db) (crewId : String) : Decidable (HasPlace db crewId) :=
  inferInstanceAs (Decidable (∀ c ∈ db.getById crewId, _))

instance (db : Db) : ∀ pc, Decidable (Fits db pc) := fun pc => by
  unfold Fits
  split <;> infer_instance

instance (s : State) : ∀ a, Decidable (FitsNext s a)
  | .arrive _ => .isTrue trivial
  | .turn i _ => inferInstanceAs (Decidable (∀ pc ∈ s.requests[i]?, _))

/-! ## What the statements do -/

section Statements

variable {db db' : Db} {crewId userId : String}

theorem memberCount_of_getById {c : Crew} (h : db.getById crewId = some c) :
    memberCount db crewId = c.members.rows.length := by
  rw [memberCount, h]

/-- Change one crew: the others stay within their limits, so it depends on that crew. -/
theorem withinLimit_modifyCrew (hdb : WithinLimit db) {c : Crew} (hc : db.getById crewId = some c)
    {f : Crew → Crew} (hf : ∀ c, (f c).id = c.id) :
    WithinLimit (db.modifyCrew crewId f hf) ↔ (f c).members.rows.length ≤ (f c).maxMembers := by
  have hiff := fun z => db.unique.mem_modify_iff hf (z := z) hc
  constructor
  · intro h
    exact h _ ((hiff _).mpr (.inl rfl))
  · intro h d hd
    rcases (hiff d).mp hd with rfl | ⟨hd, -⟩
    · exact h
    · exact hdb d hd

theorem addMember_length {members members' : Members} {role : Ledger.Role}
    (h : addMember db members userId role = some members') :
    members'.rows.length = members.rows.length + 1 := by
  unfold addMember at h
  split_ifs at h
  obtain rfl := some.inj h
  simp [Members.add]

theorem insertMember_eq_some (h : insertMember db crewId userId = some db') :
    ∃ c members, db.getById crewId = some c ∧ members.rows.length = c.members.rows.length + 1 ∧
      db' = db.setMembers crewId members := by
  obtain ⟨c, hc, h⟩ := bind_eq_some_iff.mp h
  obtain ⟨members, hadd, h⟩ := bind_eq_some_iff.mp h
  exact ⟨c, members, hc, addMember_length hadd, (some.inj h).symm⟩

/-- A row that the constraints allow is inserted, and no other. -/
theorem inserts_iff : Inserts db crewId userId ↔ (insertMember db crewId userId).isSome = true := by
  unfold Inserts isMember insertMember
  cases hc : db.getById crewId with
  | none => simp
  | some c =>
    cases hm : c.members.get userId with
    | some m => simp [addMember, hm]
    | none =>
      cases hu : db.user userId with
      | none => simp [addMember, hu]
      | some u => simp [addMember, hm, hu]

/-- A row is inserted within the limit exactly where there is a free place. -/
theorem withinLimit_insertMember (hdb : WithinLimit db) (h : insertMember db crewId userId = some db') :
    WithinLimit db' ↔ HasPlace db crewId := by
  obtain ⟨c, members, hc, hlength, rfl⟩ := insertMember_eq_some h
  rw [Db.setMembers, withinLimit_modifyCrew hdb hc]
  simp only [HasPlace, hc, mem_some_iff, forall_eq', memberCount_of_getById hc, hlength]
  exact Nat.succ_le_iff

theorem withinLimit_updateLimit (hdb : WithinLimit db) (maxMembers : ℕ) :
    WithinLimit (updateLimit db crewId maxMembers) ↔ memberCount db crewId ≤ maxMembers := by
  cases hc : db.getById crewId with
  | none =>
    have hsame : (updateLimit db crewId maxMembers).crews = db.crews :=
      Keyed.modify_of_lookup_eq_none hc
    unfold WithinLimit
    rw [hsame, memberCount, hc]
    exact iff_of_true hdb (Nat.zero_le _)
  | some c => rw [updateLimit, withinLimit_modifyCrew hdb hc, memberCount_of_getById hc]

theorem withinLimit_persistCrew (hdb : WithinLimit db) {new : NewCrew} {festivalId createdBy : String}
    {maxMembers : ℕ} {reformedFrom : Option String} (hmax : maxMembers ≠ 0)
    (h : persistCrew db new festivalId createdBy maxMembers reformedFrom = some db') :
    WithinLimit db' := by
  obtain ⟨-, hcrews⟩ := insertCrew_eq_some h
  intro c hc
  rw [hcrews] at hc
  rcases List.mem_append.mp hc with hc | hc
  · exact hdb c hc
  · rw [List.mem_singleton.mp hc]
    exact Nat.one_le_iff_ne_zero.mpr hmax

end Statements

/-! ## What a turn does -/

/-- A turn leaves the database, inserts a member, sets a limit or creates a crew; what it must
find is a place for the member, and no more members than the limit. -/
theorem advance_cases (db : Db) (now : ℕ) (pc : Pc) :
    ((advance db now pc).1 = db ∧ Fits db pc) ∨
    (∃ crewId userId db', insertMember db crewId userId = some db' ∧
      (advance db now pc).1 = db' ∧ (Fits db pc ↔ HasPlace db crewId)) ∨
    (∃ crewId maxMembers, pc = .updateCrew crewId maxMembers) ∨
    (∃ new festivalId createdBy maxMembers reformedFrom, maxMembers ≠ 0 ∧
      persistCrew db new festivalId createdBy maxMembers reformedFrom =
        some (advance db now pc).1 ∧ Fits db pc) := by
  cases pc with
  | add userId crew failure =>
    by_cases hcap : crew.maxMembers ≤ memberCount db crew.id
    · refine .inl ⟨?_, fun _ hlt => absurd hcap (Nat.not_le.mpr hlt)⟩
      simp [advance, addCapped, hcap]
    · by_cases hmember : isMember db crew.id userId = true
      · refine .inl ⟨?_, fun hinserts => ?_⟩
        · simp [advance, addCapped, hcap, hmember]
        · rw [hinserts.2.1] at hmember
          cases hmember
      · cases hinsert : insertMember db crew.id userId with
        | none =>
          refine .inl ⟨?_, fun hinserts => ?_⟩
          · simp [advance, addCapped, hcap, hmember, hinsert]
          · rw [inserts_iff, hinsert] at hinserts
            cases hinserts
        | some db' =>
          refine .inr (.inl ⟨crew.id, userId, db', hinsert, ?_, fun hfits => ?_, fun h _ _ => h⟩)
          · simp [advance, addCapped, hcap, hmember, hinsert]
          · exact hfits (inserts_iff.mpr (by rw [hinsert]; rfl)) (Nat.not_le.mp hcap)
  | reformAdd newCrewId rest slots =>
    cases rest with
    | nil => exact .inl ⟨rfl, trivial⟩
    | cons uid rest =>
      simp only [advance, Fits]
      split
      · next hslots => exact .inl ⟨rfl, fun _ hpos => absurd hslots (Int.not_le.mpr hpos)⟩
      · next hslots =>
        cases hinsert : insertMember db newCrewId uid with
        | none =>
          refine .inl ⟨rfl, fun hinserts _ => ?_⟩
          rw [inserts_iff, hinsert] at hinserts
          cases hinserts
        | some db' =>
          refine .inr (.inl ⟨newCrewId, uid, db', hinsert, rfl, fun hfits => ?_, fun hplace _ _ => hplace⟩)
          exact hfits (inserts_iff.mpr (by rw [hinsert]; rfl)) (Int.not_le.mp hslots)
  | updateCrew crewId maxMembers => exact .inr (.inr (.inl ⟨_, _, rfl⟩))
  | reformPersist r source sourceMembers profileUsers =>
    simp only [advance]
    cases hpersist : persistCrew db r.new r.targetFestivalId r.caller
        (if source.maxMembers = 0 then 30 else source.maxMembers) (some r.sourceCrewId) with
    | none => exact .inl ⟨rfl, trivial⟩
    | some db' =>
      refine .inr (.inr (.inr ⟨_, _, _, _, _, ?_, hpersist, trivial⟩))
      split
      · decide
      · assumption
  | begin r =>
    refine .inl ⟨?_, trivial⟩
    cases r <;> simp only [advance] <;> repeat' split
    all_goals rfl
  | _ =>
    refine .inl ⟨?_, trivial⟩
    simp only [advance]
    repeat' split
    all_goals rfl

/-! ## Every run -/

/-- A turn keeps the crews within their limits exactly when it fits. -/
theorem withinLimit_advance {db : Db} (hdb : WithinLimit db) (now : ℕ) (pc : Pc) :
    WithinLimit (advance db now pc).1 ↔ Fits db pc := by
  rcases advance_cases db now pc with ⟨hsame, hfits⟩ | ⟨crewId, userId, db', hinsert, heq, hfits⟩ |
    ⟨crewId, maxMembers, rfl⟩ | ⟨new, festivalId, createdBy, m, reformedFrom, hm, hpersist, hfits⟩
  · rw [hsame]
    exact iff_of_true hdb hfits
  · rw [heq, hfits]
    exact withinLimit_insertMember hdb hinsert
  · exact withinLimit_updateLimit hdb maxMembers
  · exact iff_of_true (withinLimit_persistCrew hdb hm hpersist) hfits

theorem withinLimit_step {s t : State} {a : Action} (hs : WithinLimit s.db) (h : step s a = some t) :
    WithinLimit t.db ↔ FitsNext s a := by
  cases a with
  | arrive r =>
    simp only [step, ite_none_right_eq_some, some.injEq] at h
    obtain ⟨-, rfl⟩ := h
    exact iff_of_true hs trivial
  | turn i now =>
    simp only [step] at h
    split at h
    · cases h
    · next pc hpc =>
      obtain rfl := some.inj h
      refine (withinLimit_advance hs now pc).trans ⟨fun hfits pc' hpc' => ?_, fun h => h pc hpc⟩
      rw [hpc] at hpc'
      cases hpc'
      exact hfits

/-- **The crews are within their limits throughout a run exactly when each insert finds a free
place under the present limit, and no limit is set below the number of members.** -/
theorem crewSize_iff {db : Db} (hdb : WithinLimit db) {as : List Action} {t : State}
    (hrun : Machine.run step (start db) as = some t) :
    Machine.Always step (fun s => WithinLimit s.db) (start db) as ↔
      Machine.Meets step FitsNext (start db) as :=
  Machine.always_iff_meets (fun _ _ _ hs h => withinLimit_step hs h) hdb hrun

/-- Ana's crew has two places left, and the others have profiles too. -/
def twoPlaces : Db :=
  { users := [⟨"ana", "Ana", false, false⟩, ⟨"ben", "Ben", false, false⟩,
      ⟨"cem", "Cem", false, true⟩, ⟨"dan", "Dan", false, false⟩]
    festivals := ["may", "june"]
    profiles := [⟨"ana", "may"⟩, ⟨"ben", "may"⟩, ⟨"dan", "may"⟩, ⟨"ana", "june"⟩, ⟨"ben", "june"⟩]
    crews := [⟨"c1", "may", "ana", "AAAA", 10, 3, none, ⟨[⟨"ana", "Ana", .owner⟩], by decide⟩⟩]
    unique := by decide }

/-- Ben joins, Ana lowers the limit to two, an admin finds the crew full, and Ana takes the crew
to the next festival. -/
def lowered : List Action :=
  .arrive (.join "ben" "AAAA") :: List.replicate 6 (.turn 0 5) ++
    .arrive (.update "ana" "c1" (some 2)) :: List.replicate 3 (.turn 0 6) ++
    .arrive (.addMember "cem" "c1" "dan") :: List.replicate 5 (.turn 0 7) ++
    .arrive (.reform "ana" "c1" "june" ⟨"c2", "BBBB", 20⟩) :: List.replicate 12 (.turn 0 8)

theorem lowered_withinLimit : ∃ t, Machine.run step (start twoPlaces) lowered = some t ∧
    t.db.crews.map (fun c => (c.maxMembers, c.members.rows.length)) = [(2, 2), (2, 2)] ∧
    Machine.Always step (fun s => WithinLimit s.db) (start twoPlaces) lowered := by
  obtain ⟨t, ht, hsizes⟩ : ∃ t ∈ Machine.run step (start twoPlaces) lowered,
      t.db.crews.map (fun c => (c.maxMembers, c.members.rows.length)) = [(2, 2), (2, 2)] := by
    decide
  refine ⟨t, ht, hsizes, (crewSize_iff ?_ ht).mpr (by decide)⟩
  intro c hc
  rw [List.mem_singleton.mp hc]
  decide

/-- **The limit is lowered while a join is under way**: Dan has read the limit of three, Ben
joins, Ana sets the limit to two, and Dan is let in under the limit that he has read. -/
theorem stale_limit_lets_third_in : ¬∀ (db : Db) (as : List Action) (t : State),
    WithinLimit db → Machine.run step (start db) as = some t → WithinLimit t.db := by
  intro h
  obtain ⟨t, ht, c, hc, hover⟩ : ∃ t ∈ Machine.run step (start twoPlaces)
      (.arrive (.join "dan" "AAAA") :: List.replicate 5 (.turn 0 5) ++
        .arrive (.join "ben" "AAAA") :: List.replicate 6 (.turn 1 5) ++
        .arrive (.update "ana" "c1" (some 2)) :: List.replicate 3 (.turn 1 6) ++ [.turn 0 7]),
      ∃ c ∈ t.db.crews, c.maxMembers < c.members.rows.length := by decide
  refine absurd (h _ _ t ?_ ht c hc) (Nat.not_le.mpr hover)
  intro c hc
  rw [List.mem_singleton.mp hc]
  decide

end FestivalPlanner.Crews.CrewSize
