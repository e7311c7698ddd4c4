import FestivalPlanner.Crews.CrewSize

/-!
# Reforms among the other requests of a crew

The requests that bring users into a crew or out of it, each with everything that it awaits: joins,
additions by an admin, reforms and limits as in `CrewSize`, and leaving, kicks, removals by an
admin and transfers of the ownership, from `routes/crew-members.ts` and `routes/admin-bulk.ts`.

* `advance` — what a request does in its next turn;
* `Answer`, `Added` — which crew a reform chose, and whom it added, with what was the case then;
* `step` — any number of requests, while profiles come and go;
* `Lineage` — what a crew keeps: who created it, for which festival and from which crew;
* `Grows` — what every turn keeps but that of a removal.
-/

namespace FestivalPlanner.Crews.ReformRequests

open List Option

open Ledger (Member Members Refusal)
open CrewSize (Reform isMember insertMember planReformRoster)

/-! ## The requests -/

/-- A request that has passed the authentication and the schema of its body. -/
inductive Request where
  /-- A join, an addition by an admin, a reform or a new limit. -/
  | crew (r : CrewSize.Request)
  /-- `DELETE /crews/:crewId/leave` -/
  | leave (caller crewId : String)
  /-- `DELETE /crews/:crewId/members/:userId` -/
  | kick (caller crewId target : String)
  /-- `DELETE /admin/crews/:id/members/:userId`, by an admin -/
  | adminRemove (crewId target : String)
  /-- `PUT /crews/:crewId/transfer` -/
  | transfer (caller crewId target : String)

def Request.valid : Request → Bool
  | .crew r => r.valid
  | _ => true

/-- The query a request is about to make, with what it keeps of those before. -/
inductive Pc where
  | crew (pc : CrewSize.Pc)
  | reform (r : Reform) (pc : CrewSize.Pc)
  | leaveCrew (caller crewId : String)
  | leaveMember (caller crewId : String)
  | kickCrew (caller crewId target : String)
  | kickOwner (caller crewId target : String)
  | removeTarget (crewId target : String)
  | remove (crewId userId : String)
  | transferCrew (caller crewId target : String)
  | transferOwner (caller crewId target : String)
  | transferTarget (caller crewId target : String)
  | transfer (crewId fromUserId toUserId : String)

/-- The first query of a request. -/
def Request.begin : Request → Pc
  | .crew (.reform caller sourceCrewId targetFestivalId new) =>
      .reform ⟨caller, sourceCrewId, targetFestivalId, new⟩
        (.begin (.reform caller sourceCrewId targetFestivalId new))
  | .crew r => .crew (.begin r)
  | .leave caller crewId => .leaveCrew caller crewId
  | .kick caller crewId target => .kickCrew caller crewId target
  | .adminRemove crewId target => .removeTarget crewId target
  | .transfer caller crewId target => .transferCrew caller crewId target

/-- `crews.getMember` -/
@[grind =] def getMember (db : Db) (crewId userId : String) : Option Member :=
  (db.getById crewId).bind (fun c => c.members.get userId)

/-- The crew without one of its members. -/
def dropMember (userId : String) (c : Crew) : Crew :=
  { c with members := c.members.remove userId }

theorem dropMember_id (userId : String) (c : Crew) : (dropMember userId c).id = c.id := rfl

/-- `crews.removeMember` -/
def removeMember (db : Db) (crewId userId : String) : Db :=
  db.modifyCrew crewId (dropMember userId) (dropMember_id userId)

/-- `crews.transferOwnership` -/
def transferOwnershipOf (db : Db) (crewId fromUserId toUserId : String) : Db :=
  db.modifyCrew crewId
    (fun c => { c with members := transferOwnership c.members fromUserId toUserId }) fun _ => rfl

/-- The second query of `resolveCrewOwnership`. -/
def requireOwner (db : Db) (crewId caller actionLabel : String) : Except Refusal Unit :=
  match getMember db crewId caller with
  | some m =>
      if m.role = .owner then .ok ()
      else .error (.error 403 ("Only the crew owner can " ++ actionLabel) .forbidden)
  | none => .error (.error 403 ("Only the crew owner can " ++ actionLabel) .forbidden)

/-- What a request does in one turn: the database after its query, and the next query, or none
when it is answered. -/
def advance (db : Db) (now : ℕ) : Pc → Db × Except Refusal (Option Pc)
  | .crew pc =>
      ((CrewSize.advance db now pc).1, (CrewSize.advance db now pc).2.map (Option.map .crew))
  | .reform r pc =>
      ((CrewSize.advance db now pc).1, (CrewSize.advance db now pc).2.map (Option.map (.reform r)))
  | .leaveCrew caller crewId =>
      match db.getById crewId with
      | none => (db, .error (.error 404 "Crew not found" .notFound))
      | some _ => (db, .ok (some (.leaveMember caller crewId)))
  | .leaveMember caller crewId =>
      match getMember db crewId caller with
      | none => (db, .error (.error 400 "Not a member of this crew" .invalidInput))
      | some m =>
          if m.role = .owner then
            (db, .error (.error 400 "Transfer ownership before leaving" .forbidden))
          else (db, .ok (some (.remove crewId caller)))
  | .kickCrew caller crewId target =>
      match db.getById crewId with
      | none => (db, .error (.error 404 "Crew not found" .notFound))
      | some _ => (db, .ok (some (.kickOwner caller crewId target)))
  | .kickOwner caller crewId target =>
      match requireOwner db crewId caller "kick members" with
      | .error e => (db, .error e)
      | .ok _ =>
          if target = caller then (db, .error (.error 400 "Cannot kick yourself" .invalidInput))
          else (db, .ok (some (.removeTarget crewId target)))
  | .removeTarget crewId target =>
      match getMember db crewId target with
      | none => (db, .error (.error 404 "Member not found" .notFound))
      | some _ => (db, .ok (some (.remove crewId target)))
  | .remove crewId userId => (removeMember db crewId userId, .ok none)
  | .transferCrew caller crewId target =>
      match db.getById crewId with
      | none => (db, .error (.error 404 "Crew not found" .notFound))
      | some _ => (db, .ok (some (.transferOwner caller crewId target)))
  | .transferOwner caller crewId target =>
      match requireOwner db crewId caller "transfer" with
      | .error e => (db, .error e)
      | .ok _ =>
          if target = caller then (db, .error (.error 400 "Already the owner" .invalidInput))
          else (db, .ok (some (.transferTarget caller crewId target)))
  | .transferTarget caller crewId target =>
      match getMember db crewId target with
      | none => (db, .error (.error 404 "Target is not a crew member" .notFound))
      | some _ => (db, .ok (some (.transfer crewId caller target)))
  | .transfer crewId fromUserId toUserId =>
      (transferOwnershipOf db crewId fromUserId toUserId, .ok none)

/-! ## What is written down -/

/-- The crews that were reformed for the caller, from the source into the festival. -/
def reformed (db : Db) (r : Reform) : List Crew :=
  db.crews.filter (fun c => decide (c.createdBy = r.caller ∧ c.festivalId = r.targetFestivalId ∧
    c.reformedFrom = some r.sourceCrewId))

/-- The crew that a reform chose, or none where it failed, with the crews that were reformed for
it by then. -/
structure Answer where
  existing : List Crew
  returned : Option String

/-- A user whom a reform added: was the user a member of the source crew then, was there a profile
in the target festival, and had the user left the new crew or been removed from it? -/
structure Added where
  crewId : String
  userId : String
  inSource : Bool
  hasProfile : Bool
  departed : Bool
  deriving DecidableEq

/-- What a reform answers when it looks for its crew. The requests that are refused because the
caller is no member of the source crew or has no profile are answered before. -/
def answer (db : Db) (now : ℕ) : Pc → Option Answer
  | .reform r pc =>
      match pc, (CrewSize.advance db now pc).2 with
      | _, .ok (some (.reformRoster _ newCrew _ _)) => some ⟨reformed db r, some newCrew.id⟩
      | .reformCrews _ _ _ _, .error _ => some ⟨reformed db r, none⟩
      | .reformRaced _ _ _, .error _ => some ⟨reformed db r, none⟩
      | .reformReadNew _ _ _, .error _ => some ⟨reformed db r, none⟩
      | _, _ => none
  | _ => none

scoped instance lawfulBEqPair : LawfulBEq (String × String) := inferInstance

/-- The automatic addition of a turn. -/
def added (db : Db) (departed : List (String × String)) : Pc → Option Added
  | .reform r (.reformAdd newCrewId (uid :: _) slots) =>
      if 0 < slots ∧ (insertMember db newCrewId uid).isSome = true then
        some
          { crewId := newCrewId
            userId := uid
            inSource := isMember db r.sourceCrewId uid
            hasProfile := ⟨uid, r.targetFestivalId⟩ ∈ db.profiles
            departed := (newCrewId, uid) ∈ departed }
      else none
  | _ => none

/-- The member who goes in a turn, with the crew. -/
def departure (db : Db) : Pc → Option (String × String)
  | .remove crewId userId => if isMember db crewId userId then some (crewId, userId) else none
  | _ => none

/-! ## The machine -/

/-- The database and the requests under way, with what was written down. -/
structure State where
  db : Db
  requests : List Pc
  departed : List (String × String)
  adds : List Added
  answers : List Answer

inductive Action where
  | arrive (r : Request)
  /-- the request at this place takes its next turn -/
  | turn (i now : ℕ)
  /-- users join festivals and leave them -/
  | setProfiles (profiles : List Profile)

/-- The state after a turn of a request. -/
def State.turn (s : State) (i now : ℕ) (pc : Pc) : State :=
  { db := (advance s.db now pc).1
    requests := InFlight.proceed s.requests i (advance s.db now pc).2.toOption.join
    departed := s.departed ++ (departure s.db pc).toList
    adds := s.adds ++ (added s.db s.departed pc).toList
    answers := s.answers ++ (answer s.db now pc).toList }

def step (s : State) : Action → Option State
  | .arrive r => if r.valid then some { s with requests := s.requests ++ [r.begin] } else none
  | .turn i now => (s.requests[i]?).map (s.turn i now)
  | .setProfiles profiles => some { s with db := { s.db with profiles := profiles } }

/-- No request is under way, and nothing was written down. -/
def start (db : Db) : State := ⟨db, [], [], [], []⟩

/-! ## What the crews keep -/

/-- What no request changes of a crew. -/
structure Lineage where
  id : String
  createdBy : String
  festivalId : String
  reformedFrom : Option String
  deriving DecidableEq

def lineage (c : Crew) : Lineage := ⟨c.id, c.createdBy, c.festivalId, c.reformedFrom⟩

def lineages (db : Db) : List Lineage := db.crews.map lineage

/-- The lineage of a crew that is reformed for this request. -/
def reformLineage (r : Reform) (crewId : String) : Lineage :=
  ⟨crewId, r.caller, r.targetFestivalId, some r.sourceCrewId⟩

/-- `crews_reform_idem_uidx`: of the crews with one creator, festival and source there is one. -/
def ReformUnique (db : Db) : Prop :=
  ∀ l ∈ lineages db, ∀ m ∈ lineages db, l.createdBy = m.createdBy → l.festivalId = m.festivalId →
    l.reformedFrom = m.reformedFrom → l.reformedFrom.isSome = true → l.id = m.id

/-- Crews, their lineages and their members stay, and no profile changes. -/
structure Grows (db db' : Db) : Prop where
  lineages : ∀ l ∈ lineages db, l ∈ lineages db'
  members : ∀ crewId userId, isMember db crewId userId = true → isMember db' crewId userId = true
  profiles : db'.profiles = db.profiles

theorem Grows.refl (db : Db) : Grows db db := ⟨fun _ h => h, fun _ _ h => h, rfl⟩

section
variable {db db' : Db} {crewId userId : String}

theorem isMember_eq (db : Db) (crewId userId : String) :
    isMember db crewId userId = (getMember db crewId userId).isSome := by
  unfold isMember getMember
  cases db.getById crewId <;> rfl

theorem isSome_get_iff {ms : Members} {u : String} :
    (ms.get u).isSome = true ↔ u ∈ ms.rows.map Member.userId := by
  simp [Members.get, Keyed.lookup]

/-- A change of one crew that keeps its lineage. -/
theorem lineages_modifyCrew (f : Crew → Crew) (hf : ∀ c, (f c).id = c.id)
    (h : ∀ c, lineage (f c) = lineage c) (crewId : String) :
    lineages (db.modifyCrew crewId f hf) = lineages db :=
  Keyed.map_modify h db.crews

theorem getById_modifyCrew (f : Crew → Crew) (hf : ∀ c, (f c).id = c.id) (crewId otherId : String) :
    (db.modifyCrew crewId f hf).getById otherId =
      if otherId = crewId then (db.getById crewId).map f else db.getById otherId :=
  Keyed.lookup_modify hf otherId db.crews

theorem getMember_modifyCrew (f : Crew → Crew) (hf : ∀ c, (f c).id = c.id)
    (crewId otherId : String) :
    getMember (db.modifyCrew crewId f hf) otherId userId =
      if otherId = crewId then (db.getById crewId).bind (fun c => (f c).members.get userId)
      else getMember db otherId userId := by
  unfold getMember
  rw [getById_modifyCrew]
  split_ifs
  · rw [bind_map]
    rfl
  · rfl

theorem reformUnique_of_lineages (h : ReformUnique db) (heq : lineages db' = lineages db) :
    ReformUnique db' := by
  unfold ReformUnique
  rw [heq]
  exact h

/-- A change of one crew that keeps its lineage and its members. -/
theorem grows_modifyCrew {f : Crew → Crew} {hf : ∀ c, (f c).id = c.id}
    (hlineage : ∀ c, lineage (f c) = lineage c)
    (hmembers : ∀ c ∈ db.getById crewId, ∀ u, (c.members.get u).isSome = true →
      ((f c).members.get u).isSome = true) :
    Grows db (db.modifyCrew crewId f hf) := by
  refine ⟨fun l hl => ?_, fun otherId u h => ?_, rfl⟩
  · rw [lineages_modifyCrew f hf hlineage]
    exact hl
  · rw [isMember_eq] at h ⊢
    rw [getMember_modifyCrew]
    split_ifs with hid
    · subst hid
      unfold getMember at h
      cases hc : db.getById otherId with
      | none => rw [hc] at h; cases h
      | some c =>
        rw [hc] at h
        exact hmembers c hc u h
    · exact h

theorem grows_updateLimit (maxMembers : ℕ) :
    Grows db (CrewSize.updateLimit db crewId maxMembers) :=
  grows_modifyCrew (fun _ => rfl) fun _ _ _ h => h

theorem lineages_updateLimit (maxMembers : ℕ) :
    lineages (CrewSize.updateLimit db crewId maxMembers) = lineages db := by
  unfold CrewSize.updateLimit
  exact lineages_modifyCrew _ _ (fun c => by rfl) crewId

theorem grows_transferOwnershipOf (fromUserId toUserId : String) :
    Grows db (transferOwnershipOf db crewId fromUserId toUserId) := by
  refine grows_modifyCrew (fun _ => rfl) fun c _ u h => ?_
  rw [isSome_get_iff] at h ⊢
  have hsame : ∀ (ms : Members) (v : String) (role : Ledger.Role),
      (ms.setRole v role).rows.map Member.userId = ms.rows.map Member.userId := by
    intro ms v role
    rw [Members.setRole, List.map_map]
    refine map_congr_left fun m _ => ?_
    simp only [Function.comp_apply]
    split <;> rfl
  rw [transferOwnership, hsame, hsame]
  exact h

theorem lineages_transferOwnershipOf (fromUserId toUserId : String) :
    lineages (transferOwnershipOf db crewId fromUserId toUserId) = lineages db := by
  unfold transferOwnershipOf
  exact lineages_modifyCrew _ _ (fun c => by rfl) crewId

theorem lineages_removeMember : lineages (removeMember db crewId userId) = lineages db := by
  unfold removeMember
  exact lineages_modifyCrew _ _ (fun c => by rfl) crewId

/-- Only the one who is removed is no member afterwards. -/
theorem isMember_removeMember {otherId u : String} (h : isMember db otherId u = true)
    (hne : (otherId, u) ≠ (crewId, userId)) :
    isMember (removeMember db crewId userId) otherId u = true := by
  rw [isMember_eq] at h ⊢
  rw [removeMember, getMember_modifyCrew]
  split_ifs with hid
  · subst hid
    unfold getMember at h
    cases hc : db.getById otherId with
    | none => rw [hc] at h; cases h
    | some c =>
      rw [hc] at h
      have hu : u ≠ userId := fun hu => hne (by rw [hu])
      simp only [bind_some, isSome_get_iff, dropMember, Members.remove, Keyed.erase] at h ⊢
      obtain ⟨m, hm, rfl⟩ := List.mem_map.mp h
      exact List.mem_map_of_mem (mem_filter.mpr ⟨hm, by simpa using hu⟩)
  · exact h

theorem insertMember_cases (h : insertMember db crewId userId = some db') :
    Grows db db' ∧ lineages db' = lineages db := by
  obtain ⟨c, hc, h⟩ := bind_eq_some_iff.mp h
  obtain ⟨members, hadd, h⟩ := bind_eq_some_iff.mp h
  obtain rfl := some.inj h
  refine ⟨grows_modifyCrew (fun _ => rfl) fun d hd u hu => ?_, ?_⟩
  swap
  · unfold Db.setMembers
    exact lineages_modifyCrew _ _ (fun c => by rfl) crewId
  obtain rfl := some.inj (hc.symm.trans hd)
  unfold addMember at hadd
  split_ifs at hadd
  obtain rfl := some.inj hadd
  rw [isSome_get_iff] at hu ⊢
  simp only [Members.add, map_append, mem_append]
  exact .inl hu

end

/-! ## A new crew -/

section
variable {db db' : Db} {new : NewCrew} {festivalId createdBy : String} {maxMembers : ℕ}
  {reformedFrom : Option String}

/-- The crews beside which a crew is inserted are no reforms like it. -/
theorem insertCrew_free {c : Crew} (h : db.insertCrew c = some db') :
    ∀ d ∈ db.crews, Db.sameReform c d = false := by
  intro d hd
  unfold Db.insertCrew at h
  split at h
  · split at h
    · cases h
    · next hany =>
      simp only [List.any_eq_true, not_exists, not_and, Bool.or_eq_true, not_or] at hany
      exact Bool.not_eq_true _ ▸ (hany d hd).2
  · cases h

/-- What the database keeps and gets when a crew is inserted. -/
theorem persistCrew_cases
    (h : persistCrew db new festivalId createdBy maxMembers reformedFrom = some db') :
    Grows db db' ∧
      lineages db' = lineages db ++ [⟨new.id, createdBy, festivalId, reformedFrom⟩] ∧
      ∀ l ∈ lineages db, ¬ (l.createdBy = createdBy ∧ l.festivalId = festivalId ∧
        l.reformedFrom = reformedFrom ∧ l.reformedFrom.isSome = true) := by
  obtain ⟨hfresh, hcrews⟩ := insertCrew_eq_some h
  have hlineages : lineages db' = lineages db ++
      [⟨new.id, createdBy, festivalId, reformedFrom⟩] := by
    rw [lineages, hcrews, map_append]
    rfl
  have hgetById : ∀ id c, db.getById id = some c → db'.getById id = some c := by
    intro id c hc
    obtain ⟨hmem, rfl⟩ := mem_of_getById hc
    exact getById_of_mem (by rw [hcrews]; exact mem_append_left _ hmem)
  refine ⟨⟨fun l hl => ?_, fun crewId u hu => ?_, ?_⟩, hlineages, ?_⟩
  · rw [hlineages]
    exact mem_append_left _ hl
  · unfold isMember at hu ⊢
    cases hc : db.getById crewId with
    | none => rw [hc] at hu; cases hu
    | some c =>
      rw [hc] at hu
      rw [hgetById crewId c hc]
      exact hu
  · unfold persistCrew Db.insertCrew at h
    split_ifs at h
    obtain rfl := some.inj h
    rfl
  · rintro l hl ⟨hcreated, hfestival, hfrom, hsome⟩
    obtain ⟨c, hc, rfl⟩ := List.mem_map.mp hl
    have hfree := insertCrew_free h c hc
    rw [Db.sameReform, decide_eq_false_iff_not] at hfree
    exact hfree ⟨hcreated.symm, hfestival.symm, hfrom.symm, hfrom ▸ hsome⟩

theorem reformUnique_persistCrew (hdb : ReformUnique db)
    (h : persistCrew db new festivalId createdBy maxMembers reformedFrom = some db') :
    ReformUnique db' := by
  obtain ⟨-, hlineages, hnone⟩ := persistCrew_cases h
  intro l hl m hm hcreated hfestival hfrom hsome
  rw [hlineages] at hl hm
  rcases mem_append.mp hl with hl | hl <;> rcases mem_append.mp hm with hm | hm
  · exact hdb l hl m hm hcreated hfestival hfrom hsome
  · obtain rfl := mem_singleton.mp hm
    exact absurd ⟨hcreated, hfestival, hfrom, hsome⟩ (hnone l hl)
  · obtain rfl := mem_singleton.mp hl
    exact absurd ⟨hcreated.symm, hfestival.symm, hfrom.symm, hfrom ▸ hsome⟩ (hnone m hm)
  · rw [mem_singleton.mp hl, mem_singleton.mp hm]

end

end FestivalPlanner.Crews.ReformRequests
