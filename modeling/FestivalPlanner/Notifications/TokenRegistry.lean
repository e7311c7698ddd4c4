import FestivalPlanner.Lib.InFlight
import FestivalPlanner.Lib.Keyed
import FestivalPlanner.Lib.Machine
import FestivalPlanner.Server.SanitizedText

/-!
# The registry of push tokens

A registration checks who owns the token, lists the tokens of the user, unregisters the oldest one
when there are ten, and then inserts the token or overwrites its row.  Each of these is a statement
of its own, and other requests come in between.

* `Row.live`, `held` — the tokens that have not expired, and those of a user;
* `step` — registrations a statement at a time, the other writes, and the passing of time;
* `Bounded`, `Steady` — ten tokens a user; no other token goes for one that the user has, and no live
  token changes its owner;
* `Undisturbed` — what the statements of a registration rely on is still so when they run;
* `registry_kept` — under this condition the registry is bounded and steady.
-/

namespace FestivalPlanner.TokenRegistry

open Server Utf16 List Keyed

/-! ## Rows and requests -/

inductive Platform
  | web
  | ios
  | android

/-- A row of `device_tokens`; the times are in milliseconds. -/
structure Row where
  id : String
  userId : String
  token : Text
  platform : Platform
  deviceName : Option Text
  createdAt : ℤ
  lastUsedAt : ℤ
  expiresAt : Option ℤ

structure Body where
  token : Text
  platform : Platform
  deviceName : Option Text

def tokenMinLength : ℕ := 20

def tokenMaxLength : ℕ := 4096

def deviceNameMax : ℕ := 60

def maxTokensPerUser : ℕ := 10

/-- Ninety days, in milliseconds. -/
def lifetime : ℤ := 90 * 24 * 60 * 60 * 1000

/-- The checks on the token before the first statement. -/
def Body.valid (body : Body) : Bool :=
  tokenMinLength ≤ body.token.length && body.token.length ≤ tokenMaxLength &&
    trim body.token ≠ [] && body.token.all fun c => !(c.val < 0x20)

/-- The device name that is stored: `''` counts as none. -/
def Body.cleanDeviceName (nfc : Text → Text) (body : Body) : Option Text :=
  match body.deviceName with
  | none => none
  | some [] => none
  | some name =>
      match sanitizeString nfc name deviceNameMax with
      | [] => none
      | clean => some clean

/-- The statement that a registration comes to next. -/
inductive Phase
  | getTokenOwner
  | listByUser
  | unregister (oldest : Text)
  | register

structure Request where
  userId : String
  /-- The id that `createOpaqueId` will give to a new row. -/
  id : String
  body : Body
  phase : Phase

structure State where
  rows : List Row
  requests : List Request
  /-- The time that `NOW()` gives. -/
  now : ℤ

def State.initial : State := ⟨[], [], 0⟩

def Row.live (now : ℤ) (row : Row) : Bool := row.expiresAt.all (now < ·)

/-- The rows of `listByUser`. -/
def held (now : ℤ) (userId : String) (rows : List Row) : List Row :=
  rows.filter fun row => row.userId = userId && row.live now

inductive Action
  | wait (ms : ℕ)
  | post (userId id : String) (body : Body)
  | getTokenOwner (i : ℕ)
  /-- `listByUser`, and which of the rows it puts last. -/
  | listByUser (i : ℕ) (last : ℕ)
  | unregister (i : ℕ)
  /-- The upsert, with the time of the server's own clock. -/
  | register (i : ℕ) (clock : ℤ)
  /-- A statement of a registration fails. -/
  | fails (i : ℕ)
  | deleteToken (userId : String) (token : Text)
  | deleteByUser (userId : String)
  | deleteExpired
  | deleteStale (days : ℕ)

namespace State

def finish (s : State) (i : ℕ) : State := { s with requests := s.requests.eraseIdx i }

def goOn (s : State) (i : ℕ) (r : Request) (phase : Phase) : State :=
  { s with requests := s.requests.set i { r with phase := phase } }

def getTokenOwner (s : State) (token : Text) : Option String :=
  (s.rows.find? fun row => row.token = token && row.live s.now).map Row.userId

def unregister (s : State) (token : Text) (userId : String) : State :=
  { s with rows := s.rows.filter fun row => !(row.token = token && row.userId = userId) }

/-- The row that the upsert leaves: a conflict keeps the id and the time of creation. -/
def upserted (nfc : Text → Text) (s : State) (r : Request) (clock : ℤ) : Row :=
  let old := s.rows.find? fun row => row.token = r.body.token
  { id := old.elim r.id Row.id
    userId := r.userId
    token := r.body.token
    platform := r.body.platform
    deviceName := r.body.cleanDeviceName nfc
    createdAt := old.elim clock Row.createdAt
    lastUsedAt := clock
    expiresAt := some (clock + lifetime) }

/-- The row may stand last in a list that is sorted by the last use, latest first. -/
def isLast (existing : List Row) (oldest : Row) : Bool :=
  existing.all fun row => oldest.lastUsedAt ≤ row.lastUsedAt

/-- What a registration does when the tokens of the user have been listed. -/
def listed (s : State) (i last : ℕ) (r : Request) (existing : List Row) : Option State :=
  if maxTokensPerUser ≤ existing.length then
    match existing[last]? with
    | none => none
    | some oldest =>
        if isLast existing oldest then some (s.goOn i r (.unregister oldest.token)) else none
  else some (s.goOn i r .register)

end State

@[grind =] def step (nfc : Text → Text) (s : State) : Action → Option State
  | .wait ms => some { s with now := s.now + ms }
  | .post userId id body =>
      if body.valid then
        some { s with requests := s.requests ++ [⟨userId, id, body, .getTokenOwner⟩] }
      else some s
  | .getTokenOwner i =>
      match s.requests[i]? with
      | some ⟨userId, id, body, .getTokenOwner⟩ =>
          match s.getTokenOwner body.token with
          | none => some (s.goOn i ⟨userId, id, body, .getTokenOwner⟩ .listByUser)
          | some owner =>
              if owner ≠ userId then some (s.finish i)
              else some (s.goOn i ⟨userId, id, body, .getTokenOwner⟩ .listByUser)
      | _ => none
  | .listByUser i last =>
      match s.requests[i]? with
      | some ⟨userId, id, body, .listByUser⟩ =>
          s.listed i last ⟨userId, id, body, .listByUser⟩ (held s.now userId s.rows)
      | _ => none
  | .unregister i =>
      match s.requests[i]? with
      | some ⟨userId, id, body, .unregister oldest⟩ =>
          some ((s.unregister oldest userId).goOn i ⟨userId, id, body, .unregister oldest⟩ .register)
      | _ => none
  | .register i clock =>
      match s.requests[i]? with
      | some ⟨userId, id, body, .register⟩ =>
          some { s.finish i with
            rows := upsert Row.token
              (s.upserted nfc ⟨userId, id, body, .register⟩ clock) s.rows }
      | _ => none
  | .fails i => if i < s.requests.length then some (s.finish i) else none
  | .deleteToken userId token => some (s.unregister token userId)
  | .deleteByUser userId => some { s with rows := s.rows.filter fun row => row.userId ≠ userId }
  | .deleteExpired => some { s with
      rows := s.rows.filter fun row =>
        !(row.expiresAt.any (· < s.now) || row.lastUsedAt < s.now - 60 * 24 * 60 * 60 * 1000) }
  | .deleteStale days => some { s with
      rows := s.rows.filter fun row =>
        !(row.lastUsedAt < s.now - (max 1 (min 3650 days) : ℕ) * 24 * 60 * 60 * 1000) }

/-! ## A bounded, steady registry -/

/-- Whenever no registration is in progress, no user has more than ten live tokens. -/
def Bounded (s : State) : Prop :=
  s.requests = [] → ∀ userId, (held s.now userId s.rows).length ≤ maxTokensPerUser

/-- The user of the registration has its token already. -/
def Request.holds (s : State) (r : Request) : Bool :=
  (held s.now r.userId s.rows).any fun row => row.token = r.body.token

structure Steady (s : State) (a : Action) (t : State) : Prop where
  /-- The registration of a token that the user has unregisters no other token. -/
  others : ∀ i, a = .unregister i → ∀ r, s.requests[i]? = some r → r.holds s = true →
    ∀ row ∈ s.rows, row.token ≠ r.body.token → row ∈ t.rows
  /-- A live token stays with its owner as long as there is one. -/
  owner : ∀ row ∈ s.rows, row.live s.now = true → ∀ row' ∈ t.rows, row'.token = row.token →
    row'.userId = row.userId

/-- The token that a registration is about to unregister. -/
def Phase.oldest : Phase → Option Text
  | .unregister oldest => some oldest
  | _ => none

/-- The condition on a step: a registration of a token that the user has unregisters at most that
token; and when a registration inserts its token, no other user has the token, and it finds room
unless the user has the token already. -/
def Undisturbed (s : State) : Action → Prop
  | .unregister i => ∀ r ∈ s.requests[i]?, r.holds s = true →
      ∀ oldest ∈ r.phase.oldest, oldest = r.body.token
  | .register i _ => ∀ r ∈ s.requests[i]?,
      (∀ row ∈ s.rows, row.token = r.body.token → row.live s.now = true → row.userId = r.userId) ∧
      (r.holds s = true ∨ (held s.now r.userId s.rows).length < maxTokensPerUser)
  | _ => True

instance (s : State) : ∀ a, Decidable (Undisturbed s a) := fun a => by
  unfold Undisturbed
  split <;> infer_instance

/-! ## What every step keeps -/

/-- The tokens are unique, and the bound holds also while registrations are in progress. -/
structure Sound (s : State) : Prop where
  unique : UniqueKeys Row.token s.rows
  bounded : ∀ userId, (held s.now userId s.rows).length ≤ maxTokensPerUser

variable {nfc : Text → Text} {s t : State} {i : ℕ} {r : Request}

theorem held_length (now : ℤ) (userId : String) (rows : List Row) :
    (held now userId rows).length = rows.countP fun row => row.userId = userId && row.live now := by
  rw [held, countP_eq_length_filter]

/-- Fewer rows and a later time leave fewer live tokens. -/
theorem Sound.of_sublist (h : Sound s) (hrows : t.rows.Sublist s.rows) (hnow : s.now ≤ t.now) :
    Sound t where
  unique := List.Nodup.sublist (hrows.map _) h.unique
  bounded userId := by
    refine le_trans ?_ (h.bounded userId)
    rw [held_length, held_length]
    refine (hrows.countP_le).trans (countP_mono_left fun row _ hrow => ?_)
    simp only [Row.live, Bool.and_eq_true, Option.all_eq_true, decide_eq_true_eq] at hrow ⊢
    exact ⟨hrow.1, fun expiry hexpiry => hnow.trans_lt (hrow.2 expiry hexpiry)⟩

theorem step_rows {a : Action} (h : step nfc s a = some t)
    (hregister : ∀ i clock, a ≠ .register i clock) :
    t.rows.Sublist s.rows ∧ s.now ≤ t.now := by
  cases a with
  | wait ms =>
    cases h
    refine ⟨List.Sublist.refl _, ?_⟩
    change s.now ≤ s.now + ms
    omega
  | register i clock => exact absurd rfl (hregister i clock)
  | unregister i =>
    simp only [step] at h
    split at h <;> cases h
    exact ⟨filter_sublist, le_refl _⟩
  | listByUser i last =>
    simp only [step, State.listed] at h
    repeat' split at h
    all_goals cases h
    all_goals exact ⟨List.Sublist.refl _, le_refl _⟩
  | getTokenOwner i =>
    simp only [step] at h
    repeat' split at h
    all_goals cases h
    all_goals exact ⟨List.Sublist.refl _, le_refl _⟩
  | post userId id body =>
    simp only [step] at h
    split at h <;> cases h <;> exact ⟨List.Sublist.refl _, le_refl _⟩
  | fails i =>
    simp only [step] at h
    split at h <;> cases h
    exact ⟨List.Sublist.refl _, le_refl _⟩
  | deleteToken userId token =>
    cases h
    exact ⟨filter_sublist, le_refl _⟩
  | deleteByUser userId =>
    cases h
    exact ⟨filter_sublist, le_refl _⟩
  | deleteExpired =>
    cases h
    exact ⟨filter_sublist, le_refl _⟩
  | deleteStale days =>
    cases h
    exact ⟨filter_sublist, le_refl _⟩

/-- The upsert of a registration. -/
theorem step_register {clock : ℤ} (h : step nfc s (.register i clock) = some t) :
    ∃ r, s.requests[i]? = some r ∧ t.now = s.now ∧
      t.rows = upsert Row.token (s.upserted nfc r clock) s.rows := by
  simp only [step] at h
  split at h
  · rename_i userId id body hget
    cases h
    exact ⟨_, hget, rfl, rfl⟩
  · cases h

theorem Sound.register (h : Sound s) {clock : ℤ} (hget : s.requests[i]? = some r)
    (hcalm : Undisturbed s (.register i clock)) (hnow : t.now = s.now)
    (hrows : t.rows = upsert Row.token (s.upserted nfc r clock) s.rows) : Sound t where
  unique := by
    rw [hrows]
    exact h.unique.upsert _
  bounded userId := by
    obtain ⟨-, hroom⟩ := hcalm r hget
    have hcount := @Keyed.countP_upsert Text Row _ Row.token
      (fun row => decide (row.userId = userId) && row.live s.now) (s.upserted nfc r clock) s.rows
    have hbounded := h.bounded userId
    rw [held_length] at hbounded
    rw [held_length, hnow, hrows]
    by_cases huser : r.userId = userId
    · subst huser
      rcases hroom with hholds | hroom
      · -- the live row of the token is replaced
        rw [Request.holds, any_eq_true] at hholds
        obtain ⟨row, hrow, htoken⟩ := hholds
        obtain ⟨hmem, hlive⟩ := mem_filter.mp hrow
        have hfind : s.rows.find? (fun y => decide (y.token = (s.upserted nfc r clock).token)) =
            some row := by
          have := lookup_of_mem h.unique hmem
          rw [of_decide_eq_true htoken] at this
          exact this
        rw [hfind, Option.elim_some, if_pos hlive] at hcount
        split_ifs at hcount <;> omega
      · rw [held_length] at hroom
        split_ifs at hcount <;> omega
    · have hother : (decide ((s.upserted nfc r clock).userId = userId) &&
          (s.upserted nfc r clock).live s.now) ≠ true := by
        have hne : (s.upserted nfc r clock).userId ≠ userId := huser
        simp [hne]
      rw [if_neg hother] at hcount
      omega

theorem Sound.step (h : Sound s) {a : Action} (hcalm : Undisturbed s a)
    (hstep : step nfc s a = some t) : Sound t := by
  by_cases hregister : ∃ i clock, a = .register i clock
  · obtain ⟨i, clock, rfl⟩ := hregister
    obtain ⟨r, hget, hnow, hrows⟩ := step_register hstep
    exact h.register hget hcalm hnow hrows
  · obtain ⟨hrows, hnow⟩ := step_rows hstep fun i clock ha => hregister ⟨i, clock, ha⟩
    exact h.of_sublist hrows hnow

theorem Sound.steady (h : Sound s) {a : Action} (hcalm : Undisturbed s a)
    (hstep : TokenRegistry.step nfc s a = some t) : Steady s a t where
  others := by
    rintro i rfl r hget hholds row hrow htoken
    simp only [TokenRegistry.step] at hstep
    split at hstep
    · rename_i userId id body oldest hget'
      obtain rfl := Option.some.inj (hget.symm.trans hget')
      cases hstep
      have hsame : oldest = body.token := hcalm _ hget hholds oldest rfl
      refine mem_filter.mpr ⟨hrow, ?_⟩
      have hne : row.token ≠ oldest := fun heq => htoken (heq.trans hsame)
      simp [hne]
    · cases hstep
  owner := by
    intro row hrow hlive row' hrow' htoken
    by_cases hregister : ∃ i clock, a = .register i clock
    · obtain ⟨i, clock, rfl⟩ := hregister
      obtain ⟨r, hget, -, hrows⟩ := step_register hstep
      rw [hrows, h.unique.mem_upsert_iff] at hrow'
      rcases hrow' with rfl | ⟨hmem, -⟩
      · exact ((hcalm r hget).1 row hrow htoken.symm hlive).symm
      · rw [h.unique.eq_of_mem hmem hrow htoken]
    · obtain ⟨hrows, -⟩ := step_rows hstep fun i clock ha => hregister ⟨i, clock, ha⟩
      rw [h.unique.eq_of_mem (hrows.subset hrow') hrow htoken]

/-- While the statements of every registration find what they rely on, no user has more than ten
tokens, none goes for one that the user has, and no live token changes its owner. -/
theorem registry_kept (nfc : Text → Text) {as : List Action}
    (h : Machine.Meets (step nfc) Undisturbed State.initial as) :
    Machine.Always (step nfc) Bounded State.initial as ∧
      Machine.Each (step nfc) Steady State.initial as := by
  have hinitial : Sound State.initial := ⟨List.nodup_nil, fun userId => Nat.zero_le _⟩
  constructor
  · exact Machine.always_of_meets (I := Sound) (fun _ _ _ hs hcalm hstep => hs.step hcalm hstep)
      (fun _ hs => fun _ => hs.bounded) hinitial h
  · exact Machine.each_of_meets (I := Sound) (fun _ _ _ hs hcalm hstep => hs.step hcalm hstep)
      (fun _ _ _ hs hcalm hstep => hs.steady hcalm hstep) hinitial h

/-! ## Two users and one token -/

def sampleToken : Text := List.replicate 20 (unit 't')

def sampleBody : Body := ⟨sampleToken, .web, none⟩

/-- A token is registered twice, unregistered, and taken by another user. -/
theorem registry_kept_handover :
    Machine.Always (step id) Bounded State.initial
        [.post "a" "1" sampleBody, .getTokenOwner 0, .listByUser 0 0, .register 0 5, .wait 10,
          .post "a" "2" sampleBody, .getTokenOwner 0, .listByUser 0 0, .register 0 15,
          .deleteToken "a" sampleToken, .post "b" "3" sampleBody, .getTokenOwner 0,
          .listByUser 0 0, .register 0 20] ∧
      Machine.Each (step id) Steady State.initial
        [.post "a" "1" sampleBody, .getTokenOwner 0, .listByUser 0 0, .register 0 5, .wait 10,
          .post "a" "2" sampleBody, .getTokenOwner 0, .listByUser 0 0, .register 0 15,
          .deleteToken "a" sampleToken, .post "b" "3" sampleBody, .getTokenOwner 0,
          .listByUser 0 0, .register 0 20] :=
  registry_kept id (by decide)

/-- Both users find the token free, and the second one takes it from the first. -/
theorem token_taken :
    ¬ ∀ as, Machine.Always (step id) Bounded State.initial as ∧
      Machine.Each (step id) Steady State.initial as := by
  intro h
  have hsteady := (h ([.post "a" "1" sampleBody, .post "b" "2" sampleBody, .getTokenOwner 0,
    .getTokenOwner 1, .listByUser 0 0, .listByUser 1 0, .register 0 5] ++ [.register 0 6])).2.last
    rfl rfl
  have hsame := hsteady.owner _ (List.mem_cons_self ..) (by decide) _ (List.mem_cons_self ..) rfl
  exact absurd hsame (by decide)

end FestivalPlanner.TokenRegistry
