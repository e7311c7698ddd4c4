import FestivalPlanner.Lib.InFlight
import FestivalPlanner.Lib.Keyed
import FestivalPlanner.Lib.Machine

/-!
# The cache of roles

`createRolesStore` keeps, on each worker, the roles of a user for five minutes.  A check that finds
no such entry reads the table, and stores what it has read when the answer comes.  A grant or a
revocation changes the table and then drops the entry of the user on its own worker.

* `cached`, `setCached`, `invalidateCache` — the cache of a worker;
* `step` — any number of checks, loads, grants and revocations on any number of workers, of which
  each awaits its query;
* `Safe` — no check returns a revoked role, or will if it begins now or after some time;
* `FreshStore` — a load stores no role that was revoked while it was under way;
* `revoked_roles_stop_iff` — revoked roles stop working throughout a run exactly when its loads are like that.
-/

namespace FestivalPlanner.RoleCache

open InFlight List Option Keyed

/-! ## The cache of a worker -/

/-- `CACHE_TTL`, in milliseconds. -/
def CACHE_TTL (nodeEnv : Option String) : ℕ := if nodeEnv = some "test" then 0 else 5 * 60 * 1000

/-- What `roleCache` has for a user. -/
structure Entry where
  userId : String
  roles : List String
  ts : ℕ

/-- The roles of an entry that is not too old. -/
def cached (ttl now : ℕ) (userId : String) (cache : List Entry) : Option (List String) :=
  match lookup Entry.userId userId cache with
  | none => none
  | some e => if now < e.ts + ttl then some e.roles else none

/-- `roleCache.set`, which keeps the place of an entry; a full cache loses its oldest one first. -/
def setCached (e : Entry) (cache : List Entry) : List Entry :=
  upsert Entry.userId e (if 10000 ≤ cache.length then cache.tail else cache)

def invalidateCache (userId : String) (cache : List Entry) : List Entry :=
  erase Entry.userId userId cache

/-! ## The table -/

/-- A row of `user_roles`, joined with its role. -/
structure UserRole where
  userId : String
  role : String
  deriving DecidableEq

/-- The query of `getUserRoles`; `names` are the roles that there are, in their order. -/
def rolesOf (names : List String) (userRoles : List UserRole) (userId : String) : List String :=
  names.filter fun name => decide (⟨userId, name⟩ ∈ userRoles)

/-- The statement of `grantRole`. -/
def insertRole (names : List String) (row : UserRole) (userRoles : List UserRole) : List UserRole :=
  if row.role ∈ names ∧ row ∉ userRoles then userRoles ++ [row] else userRoles

/-- The statement of `revokeRole`. -/
def deleteRole (row : UserRole) (userRoles : List UserRole) : List UserRole :=
  userRoles.filter fun r => r ≠ row

/-! ## The machine -/

/-- A call that awaits its query, or has its answer. -/
inductive Call where
  /-- `getUserRoles`, of a check when there is a role; `since` counts the revocations that had
  completed when it began -/
  | load (worker : ℕ) (userId : String) (role : Option String) (since : ℕ)
      (read : Option (List String))
  | grant (worker : ℕ) (row : UserRole) (executed : Bool)
  | revoke (worker : ℕ) (row : UserRole) (executed : Bool)

/-- A revocation that has completed, and after which the role was not granted again. -/
structure Revocation where
  number : ℕ
  row : UserRole
  worker : ℕ
  time : ℕ

/-- What a check has returned, and whether the role stood revoked for it. -/
structure Answer where
  worker : ℕ
  row : UserRole
  value : Bool
  revoked : Bool

structure State where
  now : ℕ
  names : List String
  userRoles : List UserRole
  caches : ℕ → List Entry
  calls : List Call
  revocations : ℕ
  standing : List Revocation
  answers : List Answer

inductive Action where
  /-- time passes -/
  | wait (later : ℕ)
  | getUserRoles (worker : ℕ) (userId : String)
  /-- as in `adminAuth` -/
  | hasRole (worker : ℕ) (row : UserRole)
  | grantRole (worker : ℕ) (row : UserRole)
  | revokeRole (worker : ℕ) (row : UserRole)
  /-- the database executes the query of the call at this place -/
  | execute (i : ℕ)
  /-- the call goes on with the answer -/
  | resume (i : ℕ)
  /-- the query throws, and the call with it -/
  | fail (i : ℕ)

variable {ttl : ℕ}

/-- Had the role been revoked when the check began, and does it stand so: on this worker, or for
longer than an entry lives? -/
def State.isRevoked (ttl : ℕ) (s : State) (worker : ℕ) (row : UserRole) (since : ℕ) : Bool :=
  s.standing.any fun r => decide (r.number < since ∧ r.row = row ∧
    (r.worker = worker ∨ r.time + ttl < s.now))

/-- `roles.includes(roleName)`, for a check. -/
def State.answer (ttl : ℕ) (s : State) (worker : ℕ) (userId : String) (role : Option String)
    (since : ℕ) (roles : List String) : State :=
  match role with
  | none => s
  | some role =>
      { s with
        answers := s.answers ++ [⟨worker, ⟨userId, role⟩, decide (role ∈ roles),
          s.isRevoked ttl worker ⟨userId, role⟩ since⟩] }

/-- `getUserRoles` up to its first await, or to its end. -/
def State.begin (ttl : ℕ) (s : State) (worker : ℕ) (userId : String) (role : Option String) :
    State :=
  match cached ttl s.now userId (s.caches worker) with
  | some roles => s.answer ttl worker userId role s.revocations roles
  | none => { s with calls := s.calls ++ [.load worker userId role s.revocations none] }

def State.wait (s : State) (later : ℕ) : State := { s with now := s.now + later }

/-- The cache of one worker changes. -/
@[grind =] def State.modifyCache (s : State) (worker : ℕ) (f : List Entry → List Entry) : State :=
  { s with caches := fun w => if w = worker then f (s.caches w) else s.caches w }

/-- The query of a call; the roles that the table has again no longer stand revoked. -/
def State.execute (s : State) (i : ℕ) : Call → Option State
  | .load worker userId role since none =>
      let roles := rolesOf s.names s.userRoles userId
      some { s with calls := s.calls.set i (.load worker userId role since (some roles)) }
  | .grant worker row false =>
      let userRoles := insertRole s.names row s.userRoles
      some { s with
        userRoles := userRoles
        standing := s.standing.filter fun r => decide (r.row ∉ userRoles)
        calls := s.calls.set i (.grant worker row true) }
  | .revoke worker row false =>
      some { s with
        userRoles := deleteRole row s.userRoles
        calls := s.calls.set i (.revoke worker row true) }
  | _ => none

/-- A completed revocation stands when the table does not have the role again. -/
def State.complete (s : State) (worker : ℕ) (row : UserRole) : State :=
  { s with
    revocations := s.revocations + 1
    standing := if row ∈ s.userRoles then s.standing
      else s.standing ++ [⟨s.revocations, row, worker, s.now⟩] }

/-- What comes after the await. -/
def State.resume (ttl : ℕ) (s : State) : Call → Option State
  | .load worker userId role since (some roles) =>
      some ((s.modifyCache worker (setCached ⟨userId, roles, s.now⟩)).answer ttl worker userId role
        since roles)
  | .grant worker row true => some (s.modifyCache worker (invalidateCache row.userId))
  | .revoke worker row true =>
      some ((s.modifyCache worker (invalidateCache row.userId)).complete worker row)
  | _ => none

/-- One step. -/
def step (ttl : ℕ) (s : State) : Action → Option State
  | .wait later => some (s.wait later)
  | .getUserRoles worker userId => some (s.begin ttl worker userId none)
  | .hasRole worker row => some (s.begin ttl worker row.userId (some row.role))
  | .grantRole worker row => some { s with calls := s.calls ++ [.grant worker row false] }
  | .revokeRole worker row => some { s with calls := s.calls ++ [.revoke worker row false] }
  | .execute i =>
      match s.calls[i]? with
      | none => none
      | some c => s.execute i c
  | .resume i =>
      match s.calls[i]? with
      | none => none
      | some c => { s with calls := s.calls.eraseIdx i }.resume ttl c
  | .fail i => if i < s.calls.length then some { s with calls := s.calls.eraseIdx i } else none

/-- The workers have started. -/
def start (names : List String) (userRoles : List UserRole) (now : ℕ) : State :=
  ⟨now, names, userRoles, fun _ => [], [], 0, [], []⟩

/-! ## Revoked roles stop working -/

/-- No check has returned a role that stood revoked for it. -/
def Obeyed (s : State) : Prop := ∀ x ∈ s.answers, x.value = true → x.revoked = false

/-- Nor does one that begins now or after some time, if nothing else happens. -/
def Safe (ttl : ℕ) (s : State) : Prop :=
  ∀ later worker userId role, Obeyed ((s.wait later).begin ttl worker userId (some role))

/-- A load does not store a role that was revoked meanwhile: on its worker not at all, and on
another one not before the last millisecond. -/
def Fresh (ttl : ℕ) (s : State) : Call → Prop
  | .load worker userId _ _ (some roles) =>
      ∀ r ∈ s.standing, r.row.userId = userId → r.row.role ∈ roles → 0 < ttl →
        worker ≠ r.worker ∧ s.now ≤ r.time + 1
  | _ => True

/-- The load that goes on, if one does, is like that. -/
def FreshStore (ttl : ℕ) (s : State) : Action → Prop
  | .resume i => ∀ c ∈ s.calls[i]?, Fresh ttl s c
  | _ => True

instance (s : State) : ∀ c, Decidable (Fresh ttl s c) := fun c => by
  unfold Fresh
  split <;> infer_instance

instance (s : State) : ∀ a, Decidable (FreshStore ttl s a) := fun a => by
  unfold FreshStore
  split <;> infer_instance

/-! ## The invariant -/

/-- A load that has read found no role that stood revoked when it began. -/
def CallFine (s : State) : Call → Prop
  | .load _ userId _ since read =>
      since ≤ s.revocations ∧ ∀ roles ∈ read, ∀ r ∈ s.standing, r.number < since →
        r.row.userId = userId → r.row.role ∉ roles
  | _ => True

/-- What holds while every store is fresh. -/
structure Inv (ttl : ℕ) (s : State) : Prop where
  gone : ∀ r ∈ s.standing, r.row ∉ s.userRoles
  number : ∀ r ∈ s.standing, r.number < s.revocations
  written : ∀ w, ∀ e ∈ s.caches w, e.ts ≤ s.now
  calls : ∀ c ∈ s.calls, CallFine s c
  entries : 0 < ttl → ∀ r ∈ s.standing, ∀ w, ∀ e ∈ s.caches w, e.userId = r.row.userId →
    r.row.role ∈ e.roles → w ≠ r.worker ∧ e.ts ≤ r.time + 1
  obeyed : Obeyed s

section Cache

variable {now : ℕ} {userId : String} {cache : List Entry} {roles : List String} {e x : Entry}

theorem cached_eq_some (h : cached ttl now userId cache = some roles) :
    ∃ e ∈ cache, e.userId = userId ∧ e.roles = roles ∧ now < e.ts + ttl := by
  unfold cached at h
  split at h
  · cases h
  · next e he =>
    obtain ⟨hlt, h⟩ := ite_none_right_eq_some.mp h
    obtain ⟨hmem, hid⟩ := mem_of_lookup he
    exact ⟨e, hmem, hid, some.inj h, hlt⟩

theorem mem_setCached (h : x ∈ setCached e cache) : x = e ∨ x ∈ cache := by
  rcases mem_or_eq_of_mem_upsert h with h | h
  · exact .inl h
  · split at h
    · exact .inr (mem_of_mem_tail h)
    · exact .inr h

/-- What is stored is found until its time is up. -/
theorem cached_setCached (h : now < e.ts + ttl) :
    cached ttl now e.userId (setCached e cache) = some e.roles := by
  unfold cached setCached
  rw [lookup_upsert, if_pos rfl]
  exact if_pos h

end Cache

variable {row : UserRole} {c : Call} {name : String} {a : Action}

section Invariant

variable {s t : State} {worker : ℕ} {userId : String} {role : Option String} {since : ℕ}
  {roles : List String}

theorem isRevoked_eq_false (h : ∀ r ∈ s.standing, r.number < since → r.row = row →
      r.worker ≠ worker ∧ s.now ≤ r.time + ttl) : s.isRevoked ttl worker row since = false := by
  refine List.any_eq_false.mpr fun r hr hrevoked => ?_
  obtain ⟨hnumber, hrow, hover⟩ := of_decide_eq_true hrevoked
  obtain ⟨hworker, htime⟩ := h r hr hnumber hrow
  rcases hover with hown | hlong
  · exact hworker hown
  · exact absurd hlong (Nat.not_lt.mpr htime)

/-- An answer is recorded, and nothing else. -/
theorem Inv.answer (h : Inv ttl s)
    (hrevoked : ∀ name ∈ role, name ∈ roles → s.isRevoked ttl worker ⟨userId, name⟩ since = false) :
    Inv ttl (s.answer ttl worker userId role since roles) := by
  cases role with
  | none => exact h
  | some name =>
    refine { h with obeyed := forall_mem_append_singleton h.obeyed fun hvalue => ?_ }
    exact hrevoked name rfl (of_decide_eq_true hvalue)

theorem Inv.wait (h : Inv ttl s) (later : ℕ) : Inv ttl (s.wait later) :=
  { h with written := fun w e he => (h.written w e he).trans (Nat.le_add_right _ _) }

/-- A call arrives. -/
theorem Inv.addCall (h : Inv ttl s) (hc : CallFine s c) :
    Inv ttl { s with calls := s.calls ++ [c] } :=
  { h with calls := forall_mem_append_singleton h.calls hc }

theorem Inv.eraseCall (h : Inv ttl s) (i : ℕ) : Inv ttl { s with calls := s.calls.eraseIdx i } :=
  { h with calls := fun c hc => h.calls c (mem_of_mem_eraseIdx hc) }

/-- An entry that is found holds no role that stands revoked on its worker, or for long. -/
theorem Inv.isRevoked_of_cached (h : Inv ttl s)
    (hcached : cached ttl s.now userId (s.caches worker) = some roles) (hname : name ∈ roles) :
    s.isRevoked ttl worker ⟨userId, name⟩ since = false := by
  obtain ⟨e, he, huser, rfl, hlt⟩ := cached_eq_some hcached
  have hwritten := h.written worker e he
  refine isRevoked_eq_false fun r hr _ hrow => ?_
  have huser' : e.userId = r.row.userId := by rw [huser, hrow]
  have hrole : r.row.role ∈ e.roles := by rwa [hrow]
  obtain ⟨hne, hts⟩ := h.entries (by omega) r hr worker e he huser' hrole
  exact ⟨hne.symm, by omega⟩

theorem Inv.begin (h : Inv ttl s) : Inv ttl (s.begin ttl worker userId role) := by
  unfold State.begin
  split
  · next roles hcached => exact h.answer fun name _ hname => h.isRevoked_of_cached hcached hname
  · exact h.addCall ⟨le_rfl, fun _ hread => by cases hread⟩

theorem Inv.safe (h : Inv ttl s) : Safe ttl s := fun later _ _ _ => ((h.wait later).begin).obeyed

theorem Inv.invalidate (h : Inv ttl s) (worker : ℕ) (userId : String) :
    Inv ttl (s.modifyCache worker (invalidateCache userId)) := by
  have hsub : ∀ w, ∀ e ∈ (s.modifyCache worker (invalidateCache userId)).caches w,
      e ∈ s.caches w := by
    intro w e he
    simp only [State.modifyCache] at he
    split at he
    · exact (mem_erase.mp he).1
    · exact he
  exact { h with
    written := fun w e he => h.written w e (hsub w e he)
    entries := fun httl r hr w e he => h.entries httl r hr w e (hsub w e he) }

/-- A fresh store. -/
theorem Inv.store (h : Inv ttl s)
    (hfresh : ∀ r ∈ s.standing, r.row.userId = userId → r.row.role ∈ roles → 0 < ttl →
      worker ≠ r.worker ∧ s.now ≤ r.time + 1) :
    Inv ttl (s.modifyCache worker (setCached ⟨userId, roles, s.now⟩)) := by
  have hmem : ∀ w, ∀ e ∈ (s.modifyCache worker (setCached ⟨userId, roles, s.now⟩)).caches w,
      e ∈ s.caches w ∨ w = worker ∧ e = ⟨userId, roles, s.now⟩ := by
    intro w e he
    simp only [State.modifyCache] at he
    split at he
    · next hw => exact (mem_setCached he).symm.imp_right fun heq => ⟨hw, heq⟩
    · exact .inl he
  refine { h with written := fun w e he => ?_, entries := fun httl r hr w e he huser hrole => ?_ }
  · rcases hmem w e he with he | ⟨-, rfl⟩
    · exact h.written w e he
    · exact le_rfl
  · rcases hmem w e he with he | ⟨rfl, rfl⟩
    · exact h.entries httl r hr w e he huser hrole
    · exact hfresh r hr huser.symm hrole httl

/-- A revocation completes, and its worker has no entry of the user. -/
theorem Inv.complete (h : Inv ttl s) (hnone : ∀ e ∈ s.caches worker, e.userId ≠ row.userId) :
    Inv ttl (s.complete worker row) := by
  have hnew : ∀ {P : Revocation → Prop}, (∀ r ∈ s.standing, P r) →
      (row ∉ s.userRoles → P ⟨s.revocations, row, worker, s.now⟩) →
      ∀ r ∈ (s.complete worker row).standing, P r := by
    intro P hold hP
    simp only [State.complete]
    split
    · exact hold
    · next hgone => exact forall_mem_append_singleton hold (hP hgone)
  refine { h with
    gone := hnew h.gone id
    number := hnew (fun r hr => (h.number r hr).trans (Nat.lt_succ_self _))
      fun _ => Nat.lt_succ_self _
    calls := fun c hc => ?_
    entries := fun httl => hnew (h.entries httl) fun _ w e he huser _ => ⟨?_, ?_⟩ }
  · have hfine := h.calls c hc
    cases c with
    | load worker' userId role since read =>
      refine ⟨hfine.1.trans (Nat.le_succ _), fun roles hread => ?_⟩
      refine hnew (hfine.2 roles hread) fun _ hlt => ?_
      exact absurd hfine.1 (Nat.not_le.mpr hlt)
    | grant | revoke => trivial
  · rintro rfl
    exact hnone e he huser
  · exact (h.written w e he).trans (Nat.le_succ _)

theorem mem_rolesOf {names : List String} {userRoles : List UserRole} :
    name ∈ rolesOf names userRoles userId ↔ name ∈ names ∧ ⟨userId, name⟩ ∈ userRoles := by
  simp [rolesOf]

/-- The database executes a query. -/
theorem Inv.execute (h : Inv ttl s) {i : ℕ} (hc : s.calls[i]? = some c)
    (ht : s.execute i c = some t) : Inv ttl t := by
  have hfine := h.calls c (mem_of_getElem? hc)
  cases c with
  | load worker userId role since read =>
    cases read with
    | some => cases ht
    | none =>
      obtain rfl := some.inj ht
      refine { h with calls := forall_mem_set h.calls ⟨hfine.1, fun roles hread r hr _ huser => ?_⟩ }
      obtain rfl := some.inj hread
      intro hrole
      refine h.gone r hr ?_
      rw [← show (⟨userId, r.row.role⟩ : UserRole) = r.row by rw [← huser]]
      exact (mem_rolesOf.mp hrole).2
  | grant worker row executed =>
    cases executed with
    | true => cases ht
    | false =>
      obtain rfl := some.inj ht
      have hsub := fun r (hr : r ∈ s.standing.filter fun r =>
        decide (r.row ∉ insertRole s.names row s.userRoles)) => mem_filter.mp hr
      refine { h with
        gone := fun r hr => of_decide_eq_true (hsub r hr).2
        number := fun r hr => h.number r (hsub r hr).1
        calls := forall_mem_set (fun c hc => ?_) trivial
        entries := fun httl r hr => h.entries httl r (hsub r hr).1 }
      have hfine := h.calls c hc
      cases c with
      | load => exact ⟨hfine.1, fun roles hread r hr => hfine.2 roles hread r (hsub r hr).1⟩
      | grant | revoke => trivial
  | revoke worker row executed =>
    cases executed with
    | true => cases ht
    | false =>
      obtain rfl := some.inj ht
      exact { h with
        gone := fun r hr hmem => h.gone r hr (mem_of_mem_filter hmem)
        calls := forall_mem_set h.calls trivial }

/-- A call goes on; a load that stores must be fresh. -/
theorem Inv.resume (h : Inv ttl s) (hfine : CallFine s c) (hfresh : Fresh ttl s c)
    (ht : s.resume ttl c = some t) : Inv ttl t := by
  cases c with
  | load worker userId role since read =>
    cases read with
    | none => cases ht
    | some roles =>
      obtain rfl := some.inj ht
      refine (h.store hfresh).answer fun name _ hname => ?_
      refine isRevoked_eq_false fun r hr hnumber hrow => ?_
      exact absurd (by rwa [hrow]) (hfine.2 roles rfl r hr hnumber (by rw [hrow]))
  | grant worker row executed =>
    cases executed with
    | false => cases ht
    | true =>
      obtain rfl := some.inj ht
      exact h.invalidate worker row.userId
  | revoke worker row executed =>
    cases executed with
    | false => cases ht
    | true =>
      obtain rfl := some.inj ht
      refine (h.invalidate worker row.userId).complete fun e he => ?_
      simp only [State.modifyCache, if_pos] at he
      exact (mem_erase.mp he).2

theorem Inv.step (h : Inv ttl s) (hC : FreshStore ttl s a) (ht : step ttl s a = some t) :
    Inv ttl t := by
  cases a with
  | wait later =>
    obtain rfl := some.inj ht
    exact h.wait later
  | getUserRoles worker userId =>
    obtain rfl := some.inj ht
    exact h.begin
  | hasRole worker row =>
    obtain rfl := some.inj ht
    exact h.begin
  | grantRole worker row =>
    obtain rfl := some.inj ht
    exact h.addCall trivial
  | revokeRole worker row =>
    obtain rfl := some.inj ht
    exact h.addCall trivial
  | execute i =>
    simp only [RoleCache.step] at ht
    split at ht
    · cases ht
    · next c hc => exact h.execute hc ht
  | resume i =>
    simp only [RoleCache.step] at ht
    split at ht
    · cases ht
    · next c hc =>
      have hfresh : Fresh ttl s c := hC c hc
      refine (h.eraseCall i).resume (h.calls c (mem_of_getElem? hc)) ?_ ht
      cases c <;> exact hfresh
  | fail i =>
    obtain ⟨-, ht⟩ := ite_none_right_eq_some.mp ht
    obtain rfl := some.inj ht
    exact h.eraseCall i

/-! ## A store that is not fresh -/

/-- A check that finds a role, which has stood revoked on its worker or for long, is not obeyed. -/
theorem not_obeyed_begin {role : String}
    (hcached : cached ttl s.now userId (s.caches worker) = some roles) (hrole : role ∈ roles)
    (hrevoked : s.isRevoked ttl worker ⟨userId, role⟩ s.revocations = true) :
    ¬Obeyed (s.begin ttl worker userId (some role)) := by
  intro h
  unfold State.begin at h
  rw [hcached] at h
  have hanswer := h _ (mem_append_right _ (mem_singleton_self _)) (decide_eq_true hrole)
  rw [hrevoked] at hanswer
  cases hanswer

/-- What an answer leaves alone. -/
theorem answer_same : (s.answer ttl worker userId role since roles).caches = s.caches ∧
    (s.answer ttl worker userId role since roles).standing = s.standing ∧
    (s.answer ttl worker userId role since roles).revocations = s.revocations ∧
    (s.answer ttl worker userId role since roles).now = s.now := by
  cases role <;> exact ⟨rfl, rfl, rfl, rfl⟩

/-- A stale role that is stored is returned, at once on the worker of the revocation, and on
another one when the revocation is as old as an entry may be. -/
theorem not_safe_store (h : Inv ttl s) {r : Revocation} (hr : r ∈ s.standing)
    (huser : r.row.userId = userId) (hrole : r.row.role ∈ roles) (httl : 0 < ttl)
    (hstale : worker = r.worker ∨ r.time + 1 < s.now)
    (ht : (s.modifyCache worker (setCached ⟨userId, roles, s.now⟩)).answer ttl worker userId role
      since roles = t) : ¬Safe ttl t := by
  intro hsafe
  obtain ⟨hcaches, hstanding, hrevocations, hnow⟩ :
      t.caches = (s.modifyCache worker (setCached ⟨userId, roles, s.now⟩)).caches ∧
        t.standing = s.standing ∧ t.revocations = s.revocations ∧ t.now = s.now :=
    ht ▸ answer_same
  obtain ⟨later, hlive, hover⟩ : ∃ later, s.now + later < s.now + ttl ∧
      (r.worker = worker ∨ r.time + ttl < s.now + later) := by
    rcases hstale with rfl | hlong
    · exact ⟨0, by omega, .inl rfl⟩
    · exact ⟨r.time + ttl + 1 - s.now, by omega, .inr (by omega)⟩
  have hcached : cached ttl (t.wait later).now userId ((t.wait later).caches worker) = some roles := by
    have hcache : t.caches worker = setCached ⟨userId, roles, s.now⟩ (s.caches worker) := by
      rw [hcaches]
      exact if_pos rfl
    rw [State.wait, hcache, hnow]
    exact cached_setCached (e := ⟨userId, roles, s.now⟩) hlive
  refine not_obeyed_begin hcached hrole ?_ (hsafe later worker userId r.row.role)
  refine List.any_eq_true.mpr ⟨r, ?_, decide_eq_true ⟨?_, ?_, ?_⟩⟩
  · exact hstanding ▸ hr
  · exact hrevocations ▸ h.number r hr
  · rw [← huser]
  · rw [State.wait, hnow]
    exact hover

/-! ## Every run -/

theorem safe_step (h : Inv ttl s) (ht : step ttl s a = some t) :
    Safe ttl t ↔ FreshStore ttl s a := by
  refine ⟨fun hsafe => ?_, fun hC => (h.step hC ht).safe⟩
  cases a with
  | resume i =>
    simp only [RoleCache.step] at ht
    split at ht
    · cases ht
    · next c hc =>
      intro c' hc'
      obtain rfl := some.inj (hc.symm.trans hc')
      cases c with
      | load worker userId role since read =>
        cases read with
        | none => trivial
        | some roles =>
          intro r hr huser hrole httl
          by_contra hnot
          refine not_safe_store (h.eraseCall i) hr huser hrole httl ?_ (some.inj ht) hsafe
          by_contra hboth
          obtain ⟨hworker, htime⟩ := not_or.mp hboth
          exact hnot ⟨hworker, Nat.not_lt.mp htime⟩
      | grant | revoke => trivial
  | _ => trivial

theorem inv_start (names : List String) (userRoles : List UserRole) (now : ℕ) :
    Inv ttl (start names userRoles now) where
  gone _ hr := absurd hr not_mem_nil
  number _ hr := absurd hr not_mem_nil
  written _ _ he := absurd he not_mem_nil
  calls _ hc := absurd hc not_mem_nil
  entries _ _ hr := absurd hr not_mem_nil
  obeyed _ hx := absurd hx not_mem_nil

/-- **Revoked roles stop working throughout a run exactly when no load in it stores a role that was
revoked while the load was under way.** -/
theorem revoked_roles_stop_iff {nodeEnv : Option String} {names : List String} {userRoles : List UserRole}
    {now : ℕ} {as : List Action}
    (hrun : Machine.run (step (CACHE_TTL nodeEnv)) (start names userRoles now) as = some s) :
    Machine.Always (step (CACHE_TTL nodeEnv)) (Safe (CACHE_TTL nodeEnv))
        (start names userRoles now) as ↔
      Machine.Meets (step (CACHE_TTL nodeEnv)) (FreshStore (CACHE_TTL nodeEnv))
        (start names userRoles now) as := by
  have hstart : Inv (CACHE_TTL nodeEnv) (start names userRoles now) :=
    inv_start names userRoles now
  have hiff : Machine.Each (step (CACHE_TTL nodeEnv)) (fun _ _ t => Safe (CACHE_TTL nodeEnv) t)
      (start names userRoles now) as ↔ _ :=
    Machine.each_iff_meets (fun _ _ _ => Inv.step) (fun _ _ _ => safe_step) hstart hrun
  exact Machine.always_iff_each.trans ((and_iff_right hstart.safe).trans hiff)

end Invariant

/-- The roles of the migration, of which Ana has one. -/
def seeded : State := start ["admin", "moderator", "user"] [⟨"ana", "admin"⟩] 1000

/-- Ana is an admin, and a check on each worker finds it; worker 0 revokes the role.  Its next check
reads the table, that of worker 1 is refused when its entry has expired, and a grant works. -/
def revocation : List Action :=
  [.hasRole 0 ⟨"ana", "admin"⟩, .execute 0, .resume 0, .hasRole 1 ⟨"ana", "admin"⟩, .execute 0,
    .resume 0, .hasRole 0 ⟨"ana", "admin"⟩, .revokeRole 0 ⟨"ana", "admin"⟩, .execute 0, .resume 0,
    .hasRole 0 ⟨"ana", "admin"⟩, .execute 0, .resume 0, .wait 300000, .hasRole 1 ⟨"ana", "admin"⟩,
    .execute 0, .resume 0, .grantRole 1 ⟨"ana", "admin"⟩, .execute 0, .resume 0,
    .hasRole 1 ⟨"ana", "admin"⟩, .execute 0, .resume 0]

theorem revocation_safe : ∃ s ∈ Machine.run (step (CACHE_TTL none)) seeded revocation,
    s.answers.map Answer.value = [true, true, true, false, false, true] ∧
    Machine.Always (step (CACHE_TTL none)) (Safe (CACHE_TTL none)) seeded revocation := by
  obtain ⟨s, hs, hanswers⟩ : ∃ s ∈ Machine.run (step (CACHE_TTL none)) seeded revocation,
      s.answers.map Answer.value = [true, true, true, false, false, true] := by
    decide
  exact ⟨s, hs, hanswers, (revoked_roles_stop_iff hs).mpr (by decide)⟩

/-- **A check that has read the table when the role is revoked**: it stores the role after the
revocation has dropped the entry, and for five minutes the checks of the same worker find it. -/
theorem late_store_revives : ¬∀ (names : List String) (userRoles : List UserRole) (now : ℕ)
    (as : List Action) (s : State),
    Machine.run (step (CACHE_TTL none)) (start names userRoles now) as = some s → Obeyed s := by
  intro h
  obtain ⟨s, hs, x, hx, hvalue, hrevoked⟩ : ∃ s ∈ Machine.run (step (CACHE_TTL none)) seeded
      [.hasRole 0 ⟨"ana", "admin"⟩, .execute 0, .revokeRole 0 ⟨"ana", "admin"⟩, .execute 1,
        .resume 1, .resume 0, .wait 299999, .hasRole 0 ⟨"ana", "admin"⟩],
      ∃ x ∈ s.answers, x.value = true ∧ x.revoked = true := by
    decide
  have hobeyed := h _ _ _ _ s hs x hx hvalue
  rw [hrevoked] at hobeyed
  cases hobeyed

end FestivalPlanner.RoleCache
