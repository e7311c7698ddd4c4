import FestivalPlanner.Lib.InFlight
import FestivalPlanner.Lib.Landing
import FestivalPlanner.Lib.Machine

/-!
# The session that the phone keeps

The storage of the auth store with a secure storage configured: every change of the state starts a
`setItem`, which writes the state without its tokens to the regular storage and then each token to
the secure one, where it waits for an operation 1.5 seconds at most.

* `Persisted`, `Storage`, `Item` — a state, the two storages, and an operation on one of them;
* `setItem`, `getItem` — the operations of a write, and what is read;
* `State`, `step` — the writes under way, and the operations that none of them waits for any more;
* `Timely` — an operation of an older state takes effect before that of the last state;
* `persisted_of_timely` — then the last state is read when all operations have finished.
-/

namespace FestivalPlanner.PersistedSession

open List Option InFlight Function

/-! ## The storage -/

/-- A credential; the store has `null` in place of an empty one. -/
abbrev Token := { token : String // token ≠ "" }

inductive Field where
  | userToken | adminToken
  deriving DecidableEq

/-- `SECURE_FIELDS` -/
def secureFields : List Field := [.userToken, .adminToken]

/-- What is persisted of the auth store; `υ` is the record of a user. -/
structure Persisted (υ : Type) where
  user : Option υ
  userToken : Option Token
  isAdmin : Bool
  adminToken : Option Token
  deriving DecidableEq

section
variable {υ : Type}

def Persisted.token (v : Persisted υ) : Field → Option Token
  | .userToken => v.userToken
  | .adminToken => v.adminToken

def Persisted.setToken (v : Persisted υ) (token : Option Token) : Field → Persisted υ
  | .userToken => { v with userToken := token }
  | .adminToken => { v with adminToken := token }

variable (υ) in
/-- The regular storage, which an old version wrote with the tokens, and the secure one. -/
structure Storage where
  regular : Option (Persisted υ)
  secure : Field → Option Token

variable (υ) in
/-- An operation: `setItem` of the regular storage, or `setItem` or `removeItem` of the secure
one. -/
inductive Item where
  | regular (state : Persisted υ)
  | secure (field : Field) (token : Option Token)
  deriving DecidableEq

/-- An operation takes effect. -/
def Storage.run (storage : Storage υ) : Item υ → Storage υ
  | .regular state => { storage with regular := some state }
  | .secure field token => { storage with secure := update storage.secure field token }

/-- The operations of `setItem`, in the order in which it starts them. -/
@[grind =] def setItem (value : Persisted υ) : List (Item υ) :=
  .regular (secureFields.foldl (fun state field => state.setToken none field) value) ::
    secureFields.map fun field => .secure field (value.token field)

/-- `getItem`: a token of the secure storage, or else what the regular one has. -/
def getItem (storage : Storage υ) : Option (Persisted υ) :=
  storage.regular.map fun parsed =>
    secureFields.foldl (fun state field =>
      match storage.secure field with
      | some token => state.setToken (some token) field
      | none => state) parsed

end

/-! ## Writes under way -/

/-- A `setItem`: the operations that it has not gone past yet, in order, and whether the first of
them has taken effect. -/
structure Job (υ : Type) where
  landed : Bool
  writes : List (Landing.Issued (Item υ))

structure State (υ : Type) where
  storage : Storage υ
  jobs : List (Job υ)
  /-- operations that outlasted the timeout -/
  late : List (Landing.Issued (Item υ))
  /-- how many changes of the state there were, and the last -/
  count : ℕ
  last : Option (Persisted υ)

inductive Action (υ : Type) where
  /-- the state of the store changes -/
  | setState (value : Persisted υ)
  /-- the operation that a `setItem` waits for takes effect -/
  | land (i : ℕ)
  /-- the `setItem` goes on -/
  | goOn (i : ℕ)
  /-- `safeSecure` gives up waiting -/
  | timeout (i : ℕ)
  /-- an operation that was given up takes effect -/
  | landLate (i : ℕ)

section
variable {υ : Type}

/-- The operation on the secure storage is awaited with a timeout. -/
def Item.isSecure : Item υ → Bool
  | .regular _ => false
  | .secure _ _ => true

/-- The `setItem` at a place goes past its first operation. -/
def State.advance (s : State υ) (i : ℕ) (job : Job υ) : State υ :=
  { s with jobs := match job.writes.tail with
    | [] => s.jobs.eraseIdx i
    | writes => s.jobs.set i ⟨false, writes⟩ }

def step (s : State υ) : Action υ → Option (State υ)
  | .setState value => some { s with
      jobs := s.jobs ++ [⟨false, (setItem value).map (Landing.Issued.mk (s.count + 1))⟩]
      count := s.count + 1
      last := some value }
  | .land i => s.jobs[i]?.bind fun job =>
      match job.landed, job.writes with
      | false, w :: _ => some { s with
          storage := s.storage.run w.op
          jobs := s.jobs.set i { job with landed := true } }
      | _, _ => none
  | .goOn i => s.jobs[i]?.bind fun job => if job.landed then some (s.advance i job) else none
  | .timeout i => s.jobs[i]?.bind fun job =>
      match job.landed, job.writes with
      | false, w :: _ =>
          if w.op.isSecure then some { s.advance i job with late := s.late ++ [w] } else none
      | _, _ => none
  | .landLate i => s.late[i]?.map fun w =>
      { s with storage := s.storage.run w.op, late := s.late.eraseIdx i }

/-- The app starts with what is stored; nothing is under way. -/
def start (storage : Storage υ) : State υ := ⟨storage, [], [], 0, none⟩

/-! ## What should hold -/

/-- When all operations have finished, the last state is read. -/
def Settled (s : State υ) : Prop :=
  s.jobs = [] → s.late = [] → ∀ value ∈ s.last, getItem s.storage = some value

/-- The operations of a `setItem` that are still to take effect. -/
@[grind =] def Job.pending (job : Job υ) : List (Landing.Issued (Item υ)) :=
  if job.landed then job.writes.tail else job.writes

/-- All operations that are still to take effect. -/
@[grind =] def State.pending (s : State υ) : List (Landing.Issued (Item υ)) :=
  s.jobs.flatMap Job.pending ++ s.late

def Item.cell : Item υ → Option Field
  | .regular _ => none
  | .secure field _ => some field

/-- The storage has what an operation writes. -/
def Storage.holds (storage : Storage υ) : Item υ → Prop
  | .regular state => storage.regular = some state
  | .secure field token => storage.secure field = token

/-- The storage, as a medium on which operations land. -/
def medium (υ : Type) : Landing.Medium (Storage υ) (Item υ) (Option Field) where
  cell := Item.cell
  run := Storage.run
  holds := Storage.holds
  holds_run := by
    intro s o
    cases o with
    | regular state => rfl
    | secure field token => exact update_self field token s.secure
  holds_run_of_ne := by
    intro s o p hne hp
    cases o with
    | regular state =>
      cases p with
      | regular other => exact absurd rfl hne
      | secure field token => exact hp
    | secure field token =>
      cases p with
      | regular state => exact hp
      | secure other token' =>
        have hfield : other ≠ field := fun heq => hne (congrArg some heq.symm)
        exact (update_of_ne hfield token s.secure).trans hp

/-- What the last state writes. -/
def State.wanted (s : State υ) : List (Item υ) := (s.last.map setItem).getD []

/-- The operation writes what the last state does, or that of the last state on the same item is
still to take effect. -/
def Timely (s : State υ) (w : Landing.Issued (Item υ)) : Prop :=
  Landing.Timely (medium υ) s.pending s.count s.wanted w

/-- Every operation that takes effect is timely. -/
def Careful (s : State υ) : Action υ → Prop
  | .land i => ∀ job ∈ s.jobs[i]?, ∀ w ∈ job.writes.head?, Timely s w
  | .landLate i => ∀ w ∈ s.late[i]?, Timely s w
  | _ => True

instance Timely.decidable [DecidableEq υ] (s : State υ) (w : Landing.Issued (Item υ)) :
    Decidable (Timely s w) :=
  Landing.Timely.decidable (medium υ) s.pending s.count s.wanted w

instance Careful.decidable [DecidableEq υ] (s : State υ) : ∀ a, Decidable (Careful s a) := fun a => by
  unfold Careful
  split <;> infer_instance

end

/-! ## The last state -/

section
variable {υ : Type} {s t : State υ}

theorem eq_of_cell_eq (value : Persisted υ) : ∀ o ∈ setItem value, ∀ p ∈ setItem value,
    o.cell = p.cell → o = p := by
  intro o ho p hp hcell
  simp only [setItem, secureFields, map_cons, map_nil, mem_cons, not_mem_nil,
    or_false] at ho hp
  rcases ho with rfl | rfl | rfl <;> rcases hp with rfl | rfl | rfl <;> first | rfl | cases hcell

/-- A storage that has what the `setItem` of a state writes has the state. -/
theorem getItem_of_holds {storage : Storage υ} {value : Persisted υ}
    (h : ∀ item ∈ setItem value, storage.holds item) : getItem storage = some value := by
  simp only [setItem, secureFields, map_cons, map_nil, forall_mem_cons,
    foldl_cons, foldl_nil, Storage.holds] at h
  obtain ⟨hregular, huser, hadmin, -⟩ := h
  simp only [getItem, secureFields, hregular, map_some, foldl_cons, foldl_nil,
    huser, hadmin]
  obtain ⟨user, userToken, isAdmin, adminToken⟩ := value
  cases userToken <;> cases adminToken <;> rfl

/-- Every item has what the last state writes, or that is still to take effect. -/
def Inv (s : State υ) : Prop := Landing.Covered (medium υ) s.storage s.pending s.count s.wanted

theorem Inv.settled (hi : Inv s) : Settled s := by
  intro hjobs hlate value hlast
  have hpending : s.pending = [] := by rw [State.pending, hjobs, hlate]; rfl
  have hwanted : s.wanted = setItem value := by rw [State.wanted, hlast]; rfl
  have hcovered : Landing.Covered (medium υ) s.storage [] s.count (setItem value) := by
    rw [← hpending, ← hwanted]
    exact hi
  exact getItem_of_holds hcovered.holds

theorem wanted_cell (s : State υ) : ∀ o ∈ s.wanted, ∀ p ∈ s.wanted, o.cell = p.cell → o = p := by
  cases hlast : s.last with
  | none =>
    intro o ho
    rw [State.wanted, hlast] at ho
    exact absurd ho not_mem_nil
  | some value =>
    have hwanted : s.wanted = setItem value := by rw [State.wanted, hlast]; rfl
    rw [hwanted]
    exact eq_of_cell_eq value

theorem mem_pending {w : Landing.Issued (Item υ)} :
    w ∈ s.pending ↔ w ∈ s.jobs.flatMap Job.pending ∨ w ∈ s.late := mem_append

theorem Inv.setState (hi : Inv s) (value : Persisted υ) :
    Inv { s with
      jobs := s.jobs ++ [⟨false, (setItem value).map (Landing.Issued.mk (s.count + 1))⟩]
      count := s.count + 1
      last := some value } := by
  refine (hi.issue (setItem value)).of_mem_iff fun w => ?_
  simp only [State.pending, flatMap_append, flatMap_cons, flatMap_nil,
    append_nil, Job.pending, Bool.false_eq_true, if_false, mem_append]
  exact or_right_comm

/-- The operation that a `setItem` waits for takes effect. -/
theorem Inv.land (hi : Inv s) {i : ℕ} {job : Job υ} {w : Landing.Issued (Item υ)}
    {ws : List (Landing.Issued (Item υ))} (hjob : s.jobs[i]? = some job)
    (hlanded : job.landed = false) (hwrites : job.writes = w :: ws) (hw : Timely s w) :
    Inv { s with
      storage := s.storage.run w.op
      jobs := s.jobs.set i { job with landed := true } } := by
  have hbefore : job.pending = w :: ws := by rw [Job.pending, hlanded, hwrites]; rfl
  have hafter : ({ job with landed := true } : Job υ).pending = ws := by
    rw [Job.pending, hwrites]
    rfl
  refine Landing.Covered.land hi hw (wanted_cell s) (fun u hu => ?_) fun u hu hne => ?_
  · refine mem_pending.mpr ((mem_pending.mp hu).imp_left fun hu => ?_)
    rw [mem_flatMap_iff hjob, hbefore]
    have hu := (mem_flatMap_proceed hjob (some _)).mp hu
    rw [elim_some, hafter] at hu
    exact hu.imp_right (Or.imp_left (mem_cons_of_mem w))
  · refine mem_pending.mpr ((mem_pending.mp hu).imp_left fun hu => ?_)
    rw [mem_flatMap_iff hjob, hbefore] at hu
    refine (mem_flatMap_proceed hjob (some _)).mpr ?_
    rw [elim_some, hafter]
    exact hu.imp_right (Or.imp_left fun hu => (mem_cons.mp hu).resolve_left hne)

/-- What is still to take effect of the `setItem`s when one goes past its first operation. -/
theorem mem_advance {i : ℕ} {job : Job υ} (hjob : s.jobs[i]? = some job)
    {u : Landing.Issued (Item υ)} : u ∈ (s.advance i job).jobs.flatMap Job.pending ↔
      u ∈ (s.jobs.take i).flatMap Job.pending ∨ u ∈ job.writes.tail ∨
        u ∈ (s.jobs.drop (i + 1)).flatMap Job.pending := by
  simp only [State.advance]
  cases htail : job.writes.tail with
  | nil => exact mem_flatMap_proceed hjob none
  | cons w ws => exact mem_flatMap_proceed hjob (some ⟨false, w :: ws⟩)

theorem Inv.goOn (hi : Inv s) {i : ℕ} {job : Job υ} (hjob : s.jobs[i]? = some job)
    (hlanded : job.landed = true) : Inv (s.advance i job) := by
  refine Landing.Covered.of_mem_iff hi fun u => ?_
  have hpending : job.pending = job.writes.tail := by rw [Job.pending, hlanded]; rfl
  rw [mem_pending, mem_pending, mem_advance hjob, mem_flatMap_iff hjob, hpending]
  rfl

theorem Inv.timeout (hi : Inv s) {i : ℕ} {job : Job υ} {w : Landing.Issued (Item υ)}
    {ws : List (Landing.Issued (Item υ))} (hjob : s.jobs[i]? = some job)
    (hlanded : job.landed = false) (hwrites : job.writes = w :: ws) :
    Inv { s.advance i job with late := s.late ++ [w] } := by
  refine Landing.Covered.of_mem_iff hi fun u => ?_
  have hpending : job.pending = w :: ws := by rw [Job.pending, hlanded, hwrites]; rfl
  rw [mem_pending, mem_pending, mem_flatMap_iff hjob, hpending]
  simp only [mem_advance hjob, hwrites, tail_cons, mem_cons, mem_append]
  tauto

/-- An operation that was given up takes effect. -/
theorem Inv.landLate (hi : Inv s) {i : ℕ} {w : Landing.Issued (Item υ)}
    (hlate : s.late[i]? = some w) (hw : Timely s w) :
    Inv { s with storage := s.storage.run w.op, late := s.late.eraseIdx i } := by
  refine Landing.Covered.land hi hw (wanted_cell s) (fun u hu => ?_) fun u hu hne => ?_
  · exact mem_pending.mpr ((mem_pending.mp hu).imp_right mem_of_mem_eraseIdx)
  · refine mem_pending.mpr ((mem_pending.mp hu).imp_right fun hu => ?_)
    exact (mem_eraseIdx_or hlate hu).resolve_left hne

theorem inv_step {a : Action υ} (hi : Inv s) (hcareful : Careful s a) (hstep : step s a = some t) :
    Inv t := by
  cases a with
  | setState value =>
    cases hstep
    exact hi.setState value
  | land i =>
    obtain ⟨job, hjob, hstep⟩ := bind_eq_some_iff.mp hstep
    split at hstep
    · rename_i w ws hlanded hwrites
      obtain rfl := some.inj hstep
      refine hi.land hjob hlanded hwrites (hcareful job hjob w ?_)
      rw [hwrites]
      rfl
    · cases hstep
  | goOn i =>
    obtain ⟨job, hjob, hstep⟩ := bind_eq_some_iff.mp hstep
    obtain ⟨hlanded, hstep⟩ := ite_none_right_eq_some.mp hstep
    obtain rfl := some.inj hstep
    exact hi.goOn hjob hlanded
  | timeout i =>
    obtain ⟨job, hjob, hstep⟩ := bind_eq_some_iff.mp hstep
    split at hstep
    · rename_i w ws hlanded hwrites
      obtain ⟨-, hstep⟩ := ite_none_right_eq_some.mp hstep
      obtain rfl := some.inj hstep
      exact hi.timeout hjob hlanded hwrites
    · cases hstep
  | landLate i =>
    obtain ⟨w, hlate, rfl⟩ := map_eq_some_iff.mp hstep
    exact hi.landLate hlate (hcareful w hlate)

theorem inv_start (storage : Storage υ) : Inv (start storage) where
  round_le := fun _ hw => absurd hw not_mem_nil
  mem_wanted := fun _ hw => absurd hw not_mem_nil
  reached := fun _ ho => absurd ho not_mem_nil

/-- **The persisted session is the last state** in a run whose operations are timely, whatever was
stored. -/
theorem persisted_of_timely (storage : Storage υ) {as : List (Action υ)}
    (h : Machine.Meets step Careful (start storage) as) :
    Machine.Always step Settled (start storage) as :=
  Machine.always_of_meets (fun _ _ _ hi hcareful hstep => inv_step hi hcareful hstep)
    (fun _ hi => hi.settled) (inv_start storage) h

end

/-! ## Two runs -/

/-- Nothing is stored. -/
def nothing : Storage String := ⟨none, fun _ => none⟩

/-- Alice logs in. -/
def alice : Persisted String := ⟨some "alice", some ⟨"t1", by decide⟩, false, none⟩

/-- She logs out. -/
def nobody : Persisted String := ⟨none, none, false, none⟩

/-- The logout is written after the login; the removal of the token outlasts the timeout. -/
def slowLogout : List (Action String) :=
  [.setState alice, .land 0, .goOn 0, .land 0, .goOn 0, .land 0, .goOn 0,
    .setState nobody, .land 0, .goOn 0, .timeout 0, .land 0, .goOn 0, .landLate 0]

theorem slow_logout_persisted : Machine.Always step Settled (start nothing) slowLogout :=
  persisted_of_timely nothing (by decide)

/-- The token of the login outlasts the timeout, and is written after the logout. -/
def slowLogin : List (Action String) :=
  [.setState alice, .land 0, .goOn 0, .timeout 0, .land 0, .goOn 0,
    .setState nobody, .land 0, .goOn 0, .land 0, .goOn 0, .land 0, .goOn 0, .landLate 0]

theorem token_found_after_logout :
    ¬ ∀ (υ : Type) (storage : Storage υ) (as : List (Action υ)),
      Machine.Always step Settled (start storage) as := by
  intro h
  have hrun : ∃ t, Machine.run step (start nothing) slowLogin = some t ∧ t.jobs = [] ∧
      t.late = [] ∧ t.last = some nobody ∧ getItem t.storage = some { nobody with
        userToken := alice.userToken } :=
    ⟨_, rfl, rfl, rfl, rfl, rfl⟩
  obtain ⟨t, ht, hjobs, hlate, hlast, hgot⟩ := hrun
  have hsettled := (h String nothing slowLogin).last ht hjobs hlate nobody hlast
  rw [hgot] at hsettled
  exact absurd hsettled (by decide)

end FestivalPlanner.PersistedSession
