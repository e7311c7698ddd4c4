import FestivalPlanner.Crews.CrewSize

/-!
# How much a crew may have, and how many crews a user

The requests that create polls, packing items, ride offers and crews: `POST /:crewId/polls`,
`POST /:crewId/packing`, `POST /:crewId/rides` and `POST /crews`.  Each counts what is there in
one query and inserts in another, without a lock between them.

* `Tables`, `WithinLimits` — the tables, and the limits that the routes enforce;
* `advance` — what a request does in its next turn;
* `step` — any number of requests, each at its own place, among deletions and the clock;
* `creationLimits_iff` — the limits hold throughout a run exactly when each insert finds fewer
  rows than the limit allows.
-/

namespace FestivalPlanner.Crews.CreationLimits

open InFlight List Option
open Ledger (Refusal)
open CrewSize (isMember)

/-! ## Tables -/

/-- A row of `crew_polls`. -/
structure Poll where
  id : String
  crewId : String
  createdBy : String
  question : String
  options : List String
  closesAt : Option ℕ
  closed : Bool

/-- A row of `crew_packing_items`. -/
structure PackingItem where
  id : String
  crewId : String
  createdBy : String
  label : String
  broughtBy : Option String
  claimed : Bool

/-- A row of `crew_ride_offers`. -/
structure RideOffer where
  id : String
  crewId : String
  createdBy : String
  driver : Option String
  seats : Option ℕ
  departFrom : Option String
  departAt : Option String
  note : Option String

/-- What the routes read and write, and the time that `NOW()` gives. -/
structure Tables where
  db : Db
  polls : List Poll
  packing : List PackingItem
  rides : List RideOffer
  now : ℕ

/-- `closed = FALSE AND (closes_at IS NULL OR closes_at > NOW())` -/
def Poll.isActive (p : Poll) (now : ℕ) : Bool :=
  !p.closed && p.closesAt.all fun t => decide (now < t)

/-- `polls.countActiveByCrew` -/
def Tables.countActivePolls (t : Tables) (crewId : String) : ℕ :=
  t.polls.countP fun p => decide (p.crewId = crewId) && p.isActive t.now

/-- `crewPacking.countByCrew` -/
def Tables.countPacking (t : Tables) (crewId : String) : ℕ :=
  t.packing.countP fun i => decide (i.crewId = crewId)

/-- `crewRides.countByCrew` -/
def Tables.countRides (t : Tables) (crewId : String) : ℕ :=
  t.rides.countP fun r => decide (r.crewId = crewId)

/-- The length of what `crews.listByUserAndFestival` lists. -/
def Tables.countCrews (t : Tables) (userId festivalId : String) : ℕ :=
  (t.db.listByUserAndFestival userId festivalId).length

/-- No crew has more active polls, packing items or ride offers, and no user more crews in a
festival, than the routes allow. -/
structure WithinLimits (t : Tables) : Prop where
  polls : ∀ crewId, t.countActivePolls crewId ≤ 3
  packing : ∀ crewId, t.countPacking crewId ≤ 200
  rides : ∀ crewId, t.countRides crewId ≤ 200
  crews : ∀ userId festivalId, t.countCrews userId festivalId ≤ maxCrewsPerUserPerFestival

/-! ## The requests -/

/-- What is created on the board of a crew; its creator is the caller. -/
inductive Item where
  | poll (p : Poll)
  | packing (i : PackingItem)
  | ride (r : RideOffer)

def Item.crewId : Item → String
  | .poll p => p.crewId
  | .packing i => i.crewId
  | .ride r => r.crewId

def Item.createdBy : Item → String
  | .poll p => p.createdBy
  | .packing i => i.createdBy
  | .ride r => r.createdBy

/-- The limit of the route. -/
def Item.limit : Item → ℕ
  | .poll _ => 3
  | .packing _ => 200
  | .ride _ => 200

/-- The answer of the route when there are as many. -/
def Item.tooMany : Item → Refusal
  | .poll _ => .error 409 "Max 3 active polls per crew" .conflict
  | .packing _ => .error 409 "Max 200 packing items per crew" .conflict
  | .ride _ => .error 409 "Max 200 ride offers per crew" .conflict

/-- The answer of the route when a query throws. -/
def Item.failed : Item → Refusal
  | .poll _ => .error 500 "Failed to create poll" .internalError
  | .packing _ => .error 500 "Failed to add packing item" .internalError
  | .ride _ => .error 500 "Failed to add ride offer" .internalError

/-- What the route counts. -/
def Tables.count (t : Tables) : Item → ℕ
  | .poll p => t.countActivePolls p.crewId
  | .packing i => t.countPacking i.crewId
  | .ride r => t.countRides r.crewId

/-- The row is inserted; a poll is open at first. -/
def Tables.add (t : Tables) : Item → Tables
  | .poll p => { t with polls := t.polls ++ [{ p with closed := false }] }
  | .packing i => { t with packing := t.packing ++ [i] }
  | .ride r => { t with rides := t.rides ++ [r] }

/-- `create` of the store; `none` when the crew or the user is gone. -/
def Tables.create (t : Tables) (x : Item) : Option Tables :=
  if (t.db.getById x.crewId).isSome && (t.db.user x.createdBy).isSome then some (t.add x) else none

/-- A request that has passed the authentication and the schema of its body. -/
inductive Request where
  | item (x : Item)
  | crew (caller festivalId : String) (new : NewCrew)

/-- The query that a request is about to make. -/
inductive Pc where
  | begin (r : Request)
  | itemCount (x : Item)
  | itemInsert (x : Item)
  | crewProfile (caller festivalId : String) (new : NewCrew)
  | crewCount (caller festivalId : String) (new : NewCrew)
  | crewInsert (caller festivalId : String) (new : NewCrew)

/-- What a request does in one turn: the tables after its query, and the next query, or none
when it is answered. -/
def advance (t : Tables) : Pc → Tables × Except Refusal (Option Pc)
  | .begin (.item x) =>
      if isMember t.db x.crewId x.createdBy then (t, .ok (some (.itemCount x)))
      else (t, .error (.error 403 "Not a crew member" .forbidden))
  | .itemCount x =>
      if x.limit ≤ t.count x then (t, .error x.tooMany) else (t, .ok (some (.itemInsert x)))
  | .itemInsert x =>
      match t.create x with
      | some t => (t, .ok none)
      | none => (t, .error x.failed)
  | .begin (.crew caller festivalId new) =>
      if festivalId ∈ t.db.festivals then (t, .ok (some (.crewProfile caller festivalId new)))
      else (t, .error (.error 404 "Festival not found" .notFound))
  | .crewProfile caller festivalId new =>
      if ⟨caller, festivalId⟩ ∈ t.db.profiles then
        (t, .ok (some (.crewCount caller festivalId new)))
      else (t, .error (.error 403 "Join the festival first" .forbidden))
  | .crewCount caller festivalId new =>
      if maxCrewsPerUserPerFestival ≤ t.countCrews caller festivalId then
        (t, .error (.error 400 "Maximum 3 crews per festival" .maxLimitReached))
      else (t, .ok (some (.crewInsert caller festivalId new)))
  | .crewInsert caller festivalId new =>
      match persistCrew t.db new festivalId caller 30 none with
      | some db => ({ t with db := db }, .ok none)
      | none => (t, .error (.error 500 "Failed to create crew" .internalError))

/-! ## The machine -/

/-- The tables and the requests under way. -/
structure State where
  tables : Tables
  requests : List Pc

inductive Action where
  | arrive (r : Request)
  /-- the request at this place takes its next turn -/
  | turn (i : ℕ)
  | closePoll (pollId : String)
  | deletePacking (itemId : String)
  | deleteRide (offerId : String)
  /-- somebody leaves or is removed -/
  | removeMember (crewId userId : String)
  | deleteCrew (crewId : String)
  /-- time passes -/
  | tick (later : ℕ)

/-- The poll is closed. -/
def Poll.close (pollId : String) (p : Poll) : Poll :=
  if p.id = pollId then { p with closed := true } else p

/-- The crew without the member. -/
def without (userId : String) (c : Crew) : Crew := { c with members := c.members.remove userId }

theorem without_id (userId : String) (c : Crew) : (without userId c).id = c.id := rfl

/-- `crews.removeMember` -/
def removeMember (db : Db) (crewId userId : String) : Db :=
  db.modifyCrew crewId (without userId) (without_id userId)

/-- `DELETE FROM crews`, with what goes along. -/
def Tables.deleteCrew (t : Tables) (crewId : String) : Tables :=
  { t with
    db := t.db.deleteCrew crewId
    polls := t.polls.filter fun p => p.crewId ≠ crewId
    packing := t.packing.filter fun i => i.crewId ≠ crewId
    rides := t.rides.filter fun r => r.crewId ≠ crewId }

/-- One step. -/
def step (s : State) : Action → Option State
  | .arrive r => some { s with requests := s.requests ++ [.begin r] }
  | .turn i =>
      match s.requests[i]? with
      | none => none
      | some pc =>
          let (t, next) := advance s.tables pc
          some ⟨t, proceed s.requests i next.toOption.join⟩
  | .closePoll pollId =>
      some { s with tables := { s.tables with polls := s.tables.polls.map (Poll.close pollId) } }
  | .deletePacking itemId =>
      some { s with tables := { s.tables with
        packing := s.tables.packing.filter fun i => i.id ≠ itemId } }
  | .deleteRide offerId =>
      some { s with tables := { s.tables with
        rides := s.tables.rides.filter fun r => r.id ≠ offerId } }
  | .removeMember crewId userId =>
      some { s with tables := { s.tables with db := removeMember s.tables.db crewId userId } }
  | .deleteCrew crewId => some { s with tables := s.tables.deleteCrew crewId }
  | .tick later => some { s with tables := { s.tables with now := s.tables.now + later } }

/-- No request is under way. -/
def start (t : Tables) : State := ⟨t, []⟩

/-! ## A free place -/

/-- Does the row count at this time? -/
def Item.counts (now : ℕ) : Item → Bool
  | .poll p => ({ p with closed := false } : Poll).isActive now
  | _ => true

/-- What an insert must find: fewer rows than the limit, still. -/
def FindsPlace (t : Tables) : Pc → Prop
  | .itemInsert x => (t.create x).isSome = true → x.counts t.now = true → t.count x < x.limit
  | .crewInsert caller festivalId new =>
      (persistCrew t.db new festivalId caller 30 none).isSome = true →
        t.countCrews caller festivalId < maxCrewsPerUserPerFestival
  | _ => True

/-- The request that takes its turn finds a place. -/
def PlaceLeft (s : State) : Action → Prop
  | .turn i => ∀ pc ∈ s.requests[i]?, FindsPlace s.tables pc
  | _ => True

instance (t : Tables) : ∀ pc, Decidable (FindsPlace t pc) := fun pc => by
  unfold FindsPlace
  split <;> infer_instance

instance (s : State) : ∀ a, Decidable (PlaceLeft s a) := fun a => by
  unfold PlaceLeft
  split <;> infer_instance

/-! ## Counting -/

section Counting

variable {α κ : Type*} {l : List α} {q : κ → α → Bool} {limit : ℕ}

/-- One row more, counted under one key at most: every count is within the limit exactly when
that key has a place left. -/
theorem countP_append_le_iff (h : ∀ k, l.countP (q k) ≤ limit) {x : α} (k₀ : κ)
    (hx : ∀ k, q k x = true → k = k₀) :
    (∀ k, (l ++ [x]).countP (q k) ≤ limit) ↔ (q k₀ x = true → l.countP (q k₀) < limit) := by
  have hcount : ∀ k, (l ++ [x]).countP (q k) = l.countP (q k) + if q k x = true then 1 else 0 := by
    intro k
    rw [countP_append, countP_singleton]
  constructor
  · intro hall hq
    have hle := hall k₀
    rw [hcount, if_pos hq] at hle
    exact hle
  · intro hplace k
    rw [hcount]
    split
    · next hq =>
      obtain rfl := hx k hq
      exact hplace hq
    · exact h k

/-- Changing one element in a way that no more is counted. -/
theorem countP_modify_le [DecidableEq κ] {key : α → κ} {f : α → α} {p : α → Bool}
    (hf : ∀ x, p (f x) = true → p x = true) (k : κ) (l : List α) :
    (Keyed.modify key k f l).countP p ≤ l.countP p := by
  induction l with
  | nil => exact le_rfl
  | cons x l ih =>
    rw [Keyed.modify]
    split
    · simp only [countP_cons]
      have := hf x
      split_ifs <;> simp_all
    · simp only [countP_cons]
      exact Nat.add_le_add_right ih _

end Counting

/-! ## What only takes away -/

section Deletions

variable {t : Tables}

/-- Nothing is counted that was not counted before. -/
structure Fewer (t' t : Tables) : Prop where
  polls : ∀ crewId, t'.countActivePolls crewId ≤ t.countActivePolls crewId
  packing : ∀ crewId, t'.countPacking crewId ≤ t.countPacking crewId
  rides : ∀ crewId, t'.countRides crewId ≤ t.countRides crewId
  crews : ∀ userId festivalId, t'.countCrews userId festivalId ≤ t.countCrews userId festivalId

theorem Fewer.refl (t : Tables) : Fewer t t :=
  ⟨fun _ => le_rfl, fun _ => le_rfl, fun _ => le_rfl, fun _ _ => le_rfl⟩

theorem WithinLimits.of_fewer {t' : Tables} (h : WithinLimits t) (hfewer : Fewer t' t) :
    WithinLimits t' :=
  ⟨fun c => (hfewer.polls c).trans (h.polls c), fun c => (hfewer.packing c).trans (h.packing c),
    fun c => (hfewer.rides c).trans (h.rides c),
    fun u f => (hfewer.crews u f).trans (h.crews u f)⟩

theorem countCrews_eq_countP (t : Tables) (userId festivalId : String) :
    t.countCrews userId festivalId =
      t.db.crews.countP (fun c => (c.members.get userId).isSome && decide (c.festivalId = festivalId)) :=
  countP_eq_length_filter.symm

theorem fewer_closePoll (pollId : String) :
    Fewer { t with polls := t.polls.map (Poll.close pollId) } t := by
  refine { Fewer.refl t with polls := fun crewId => ?_ }
  simp only [Tables.countActivePolls, countP_map]
  refine countP_mono_left fun p _ hp => ?_
  simp only [Function.comp_apply, Poll.close] at hp
  split at hp
  · simp [Poll.isActive] at hp
  · exact hp

theorem fewer_deletePacking (itemId : String) :
    Fewer { t with packing := t.packing.filter fun i => i.id ≠ itemId } t :=
  { Fewer.refl t with packing := fun _ => filter_sublist.countP_le }

theorem fewer_deleteRide (offerId : String) :
    Fewer { t with rides := t.rides.filter fun r => r.id ≠ offerId } t :=
  { Fewer.refl t with rides := fun _ => filter_sublist.countP_le }

/-- Time closes polls and opens none. -/
theorem fewer_tick (later : ℕ) : Fewer { t with now := t.now + later } t := by
  refine { Fewer.refl t with polls := fun crewId => countP_mono_left fun p _ hp => ?_ }
  simp only [Poll.isActive, Bool.and_eq_true, Bool.not_eq_true', Option.all_eq_true,
    decide_eq_true_eq] at hp ⊢
  refine ⟨hp.1, hp.2.1, fun closesAt hat => ?_⟩
  have := hp.2.2 closesAt hat
  omega

/-- Whoever is a member after a removal was one before. -/
theorem get_remove_isSome {members : Ledger.Members} {userId other : String}
    (h : ((members.remove userId).get other).isSome = true) : (members.get other).isSome = true := by
  rw [Ledger.Members.get, Ledger.Members.remove, Keyed.lookup_erase] at h
  split at h
  · cases h
  · exact h

theorem fewer_removeMember (crewId userId : String) :
    Fewer { t with db := removeMember t.db crewId userId } t := by
  refine { Fewer.refl t with crews := fun user festivalId => ?_ }
  rw [countCrews_eq_countP, countCrews_eq_countP]
  refine countP_modify_le (fun c hc => ?_) crewId t.db.crews
  simp only [Bool.and_eq_true] at hc ⊢
  exact ⟨get_remove_isSome hc.1, hc.2⟩

theorem fewer_deleteCrew (crewId : String) : Fewer (t.deleteCrew crewId) t := by
  refine ⟨fun _ => filter_sublist.countP_le, fun _ => filter_sublist.countP_le,
    fun _ => filter_sublist.countP_le, fun userId festivalId => ?_⟩
  rw [countCrews_eq_countP, countCrews_eq_countP]
  refine (filter_sublist.countP_le).trans ?_
  exact le_of_eq countP_map

end Deletions

/-! ## What an insert does -/

section Inserts

variable {t t' : Tables}

/-- A row keeps the limits exactly where it finds a place. -/
theorem withinLimits_add (ht : WithinLimits t) (x : Item) :
    WithinLimits (t.add x) ↔ (x.counts t.now = true → t.count x < x.limit) := by
  cases x with
  | poll p =>
    have hiff : (∀ crewId, (t.add (.poll p)).countActivePolls crewId ≤ 3) ↔
        ((Item.poll p).counts t.now = true → t.countActivePolls p.crewId < 3) := by
      refine (countP_append_le_iff ht.polls p.crewId fun crewId hcounts => ?_).trans ?_
      · simp only [Bool.and_eq_true, decide_eq_true_eq] at hcounts
        exact hcounts.1.symm
      · simp [Item.counts, Tables.countActivePolls]
    exact ⟨fun h => hiff.mp h.polls, fun h => { ht with polls := hiff.mpr h }⟩
  | packing i =>
    have hiff : (∀ crewId, (t.add (.packing i)).countPacking crewId ≤ 200) ↔
        ((Item.packing i).counts t.now = true → t.countPacking i.crewId < 200) := by
      refine (countP_append_le_iff ht.packing i.crewId fun crewId hcounts => ?_).trans ?_
      · exact (of_decide_eq_true hcounts).symm
      · simp [Item.counts, Tables.countPacking]
    exact ⟨fun h => hiff.mp h.packing, fun h => { ht with packing := hiff.mpr h }⟩
  | ride r =>
    have hiff : (∀ crewId, (t.add (.ride r)).countRides crewId ≤ 200) ↔
        ((Item.ride r).counts t.now = true → t.countRides r.crewId < 200) := by
      refine (countP_append_le_iff ht.rides r.crewId fun crewId hcounts => ?_).trans ?_
      · exact (of_decide_eq_true hcounts).symm
      · simp [Item.counts, Tables.countRides]
    exact ⟨fun h => hiff.mp h.rides, fun h => { ht with rides := hiff.mpr h }⟩

theorem withinLimits_create (ht : WithinLimits t) {x : Item} (h : t.create x = some t') :
    WithinLimits t' ↔ (x.counts t.now = true → t.count x < x.limit) := by
  obtain ⟨-, h⟩ := ite_none_right_eq_some.mp h
  obtain rfl := some.inj h
  exact withinLimits_add ht x

/-- A new crew counts for its creator, in its festival. -/
theorem withinLimits_persistCrew (ht : WithinLimits t) {new : NewCrew} {festivalId caller : String}
    {db : Db} (h : persistCrew t.db new festivalId caller 30 none = some db) :
    WithinLimits { t with db := db } ↔
      t.countCrews caller festivalId < maxCrewsPerUserPerFestival := by
  obtain ⟨-, hcrews⟩ := insertCrew_eq_some h
  let q : String × String → Crew → Bool :=
    fun k c => (c.members.get k.1).isSome && decide (c.festivalId = k.2)
  have hcount : ∀ (t : Tables) k, t.countCrews k.1 k.2 = t.db.crews.countP (q k) :=
    fun t k => countCrews_eq_countP t k.1 k.2
  have hiff : (∀ k, db.crews.countP (q k) ≤ maxCrewsPerUserPerFestival) ↔
      t.countCrews caller festivalId < maxCrewsPerUserPerFestival := by
    rw [hcrews]
    refine (countP_append_le_iff (fun k => ?_) (caller, festivalId) fun k hcounts => ?_).trans ?_
    · rw [← hcount]
      exact ht.crews k.1 k.2
    · obtain ⟨hmember, hfestival⟩ := Bool.and_eq_true_iff.mp hcounts
      refine Prod.ext_iff.mpr ⟨?_, (of_decide_eq_true hfestival).symm⟩
      simp only [Ledger.Members.get, Keyed.lookup_cons] at hmember
      split at hmember
      · next hcaller => exact hcaller.symm
      · cases hmember
    · rw [← hcount t (caller, festivalId)]
      simp [q, Ledger.Members.get, Keyed.lookup_cons]
  constructor
  · intro h
    refine hiff.mp fun k => ?_
    rw [← hcount { t with db := db }]
    exact h.crews k.1 k.2
  · intro hplace
    refine { ht with crews := fun userId festivalId => ?_ }
    rw [hcount _ (userId, festivalId)]
    exact hiff.mpr hplace _

end Inserts

/-! ## Every run -/

section Runs

variable {t : Tables} {s s' : State} {a : Action}

/-- A turn keeps the limits exactly where it finds a place. -/
theorem withinLimits_advance (ht : WithinLimits t) (pc : Pc) :
    WithinLimits (advance t pc).1 ↔ FindsPlace t pc := by
  cases pc with
  | itemInsert x =>
    cases hcreate : t.create x with
    | none =>
      simp only [advance, FindsPlace, hcreate]
      exact iff_of_true ht fun h => by cases h
    | some t' =>
      simp only [advance, FindsPlace, hcreate, isSome_some, forall_const]
      exact withinLimits_create ht hcreate
  | crewInsert caller festivalId new =>
    cases hpersist : persistCrew t.db new festivalId caller 30 none with
    | none =>
      simp only [advance, FindsPlace, hpersist]
      exact iff_of_true ht fun h => by cases h
    | some db =>
      simp only [advance, FindsPlace, hpersist, isSome_some, forall_const]
      exact withinLimits_persistCrew ht hpersist
  | begin r =>
    cases r with
    | item x =>
      simp only [advance, FindsPlace]
      split <;> exact iff_of_true ht trivial
    | crew caller festivalId new =>
      simp only [advance, FindsPlace]
      split <;> exact iff_of_true ht trivial
  | _ =>
    simp only [advance, FindsPlace]
    split <;> exact iff_of_true ht trivial

theorem withinLimits_step (hs : WithinLimits s.tables) (h : step s a = some s') :
    WithinLimits s'.tables ↔ PlaceLeft s a := by
  cases a with
  | turn i =>
    simp only [step] at h
    split at h
    · cases h
    · next pc hpc =>
      obtain rfl := some.inj h
      refine (withinLimits_advance hs pc).trans ⟨fun hplace pc' hpc' => ?_, fun h => h pc hpc⟩
      rw [hpc] at hpc'
      cases hpc'
      exact hplace
  | arrive r =>
    obtain rfl := some.inj h
    exact iff_of_true hs trivial
  | closePoll pollId =>
    obtain rfl := some.inj h
    exact iff_of_true (hs.of_fewer (fewer_closePoll pollId)) trivial
  | deletePacking itemId =>
    obtain rfl := some.inj h
    exact iff_of_true (hs.of_fewer (fewer_deletePacking itemId)) trivial
  | deleteRide offerId =>
    obtain rfl := some.inj h
    exact iff_of_true (hs.of_fewer (fewer_deleteRide offerId)) trivial
  | removeMember crewId userId =>
    obtain rfl := some.inj h
    exact iff_of_true (hs.of_fewer (fewer_removeMember crewId userId)) trivial
  | deleteCrew crewId =>
    obtain rfl := some.inj h
    exact iff_of_true (hs.of_fewer (fewer_deleteCrew crewId)) trivial
  | tick later =>
    obtain rfl := some.inj h
    exact iff_of_true (hs.of_fewer (fewer_tick later)) trivial

/-- **The limits hold throughout a run exactly when each insert still finds fewer rows than the
limit allows.** -/
theorem creationLimits_iff (ht : WithinLimits t) {as : List Action}
    (hrun : Machine.run step (start t) as = some s) :
    Machine.Always step (fun s => WithinLimits s.tables) (start t) as ↔
      Machine.Meets step PlaceLeft (start t) as :=
  Machine.always_iff_meets (fun _ _ _ hs h => withinLimits_step hs h) ht hrun

end Runs

/-- Ana and Ben are in a crew that has nothing on its board yet. -/
def emptyBoard : Tables where
  db := CrewSize.twoPlaces.setMembers "c1"
    ⟨[⟨"ana", "Ana", .owner⟩, ⟨"ben", "Ben", .member⟩], by decide⟩
  polls := []
  packing := []
  rides := []
  now := 5

theorem emptyBoard_withinLimits : WithinLimits emptyBoard where
  polls _ := Nat.zero_le _
  packing _ := Nat.zero_le _
  rides _ := Nat.zero_le _
  crews _ _ := (length_filter_le _ _).trans (by decide)

/-- A poll in the crew, with this id. -/
def campPoll (id createdBy : String) : Request :=
  .item (.poll ⟨id, "c1", createdBy, "Where to camp?", ["North", "South"], none, false⟩)

/-- A request that nobody gets in the way of. -/
def alone (r : Request) (turns : ℕ) : List Action := .arrive r :: List.replicate turns (.turn 0)

/-- Three polls are opened and a fourth is refused; one is closed, and the fourth finds its place.
Ben brings a tent and offers a ride, Ana creates a second crew. -/
def fullBoard : List Action :=
  alone (campPoll "p1" "ana") 3 ++ alone (campPoll "p2" "ben") 3 ++ alone (campPoll "p3" "ana") 3 ++
    alone (campPoll "p4" "ben") 2 ++ .closePoll "p2" :: alone (campPoll "p5" "ben") 3 ++
    alone (.item (.packing ⟨"i1", "c1", "ben", "Tent", some "ben", true⟩)) 3 ++
    alone (.item (.ride ⟨"r1", "c1", "ben", some "ben", some 3, some "Graz", none, none⟩)) 3 ++
    alone (.crew "ana" "may" ⟨"c2", "BBBB", 20⟩) 4

theorem fullBoard_withinLimits : ∃ t, Machine.run step (start emptyBoard) fullBoard = some t ∧
    t.tables.polls.map Poll.id = ["p1", "p2", "p3", "p5"] ∧
    t.tables.countCrews "ana" "may" = 2 ∧
    Machine.Always step (fun s => WithinLimits s.tables) (start emptyBoard) fullBoard := by
  obtain ⟨t, ht, hpolls, hcrews⟩ : ∃ t ∈ Machine.run step (start emptyBoard) fullBoard,
      t.tables.polls.map Poll.id = ["p1", "p2", "p3", "p5"] ∧
      t.tables.countCrews "ana" "may" = 2 := by
    decide
  exact ⟨t, ht, hpolls, hcrews, (creationLimits_iff emptyBoard_withinLimits ht).mpr (by decide)⟩

/-- **Requests that count before any of them inserts**: Ana and Ben open four polls at once, each
counts none, and the crew has four active polls.  Ben creates three crews likewise, and is in
four. -/
theorem crowded_board : ¬∀ (t : Tables) (as : List Action) (s : State),
    WithinLimits t → Machine.run step (start t) as = some s → WithinLimits s.tables := by
  intro h
  obtain ⟨s, hs, hover, hcrews⟩ : ∃ s ∈ Machine.run step (start emptyBoard)
      ([.arrive (campPoll "p1" "ana"), .arrive (campPoll "p2" "ben"), .arrive (campPoll "p3" "ana"),
          .arrive (campPoll "p4" "ben"), .turn 0, .turn 1, .turn 2, .turn 3, .turn 0, .turn 1,
          .turn 2, .turn 3, .turn 0, .turn 0, .turn 0, .turn 0,
          .arrive (.crew "ben" "may" ⟨"c2", "BBBB", 20⟩),
          .arrive (.crew "ben" "may" ⟨"c3", "CCCC", 20⟩),
          .arrive (.crew "ben" "may" ⟨"c4", "DDDD", 20⟩), .turn 0, .turn 1, .turn 2, .turn 0,
          .turn 1, .turn 2, .turn 0, .turn 1, .turn 2, .turn 0, .turn 0, .turn 0]),
      3 < s.tables.countActivePolls "c1" ∧ s.tables.countCrews "ben" "may" = 4 := by
    decide
  exact absurd ((h _ _ s emptyBoard_withinLimits hs).polls "c1") (Nat.not_le.mpr hover)

end FestivalPlanner.Crews.CreationLimits
