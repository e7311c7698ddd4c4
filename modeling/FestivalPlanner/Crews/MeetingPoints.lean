import FestivalPlanner.Lib.InFlight
import FestivalPlanner.Lib.Machine
import FestivalPlanner.Server.SanitizedText
import Mathlib.Data.Rat.Defs

/-!
# The expiry of meeting points

A one-shot point with a meet time expires half an hour after it; a sweep deactivates what has
expired.  An edit writes the columns of its body together with an expiry that it has computed from
the body and the row that it read, and other edits may come between the two statements.

* `Point.due` — the expiry that the row should have;
* `UpdateBody.expiresAt` — the one that the edit computes;
* `step` — the requests, a statement at a time, and the sweep;
* `ReadsAnew` — what the edit left to the row is as it was when the edit read it;
* `expiry_kept` — under this condition every row has its due expiry, and the sweep comes in time.
-/

namespace FestivalPlanner.MeetingPoints

open Server Utf16

/-! ## Points and bodies -/

inductive PointType
  | preShow
  | during
  | postShow
  | postEvent
  | emergency
  | general

/-- A time of a body: what `new Date` reads, in milliseconds, and what the column stores, in
microseconds. -/
structure MeetTime where
  millis : ℤ
  micros : ℤ

/-- A row of `crew_meeting_points`; the times are in microseconds. -/
structure Point where
  id : String
  crewId : String
  createdBy : String
  label : Text
  location : Text
  type : PointType
  meetAt : Option ℤ
  stageReference : Option Text
  expiresAt : Option ℤ
  latitude : Option ℚ
  longitude : Option ℚ
  recursDaily : Bool
  active : Bool

structure CreateBody where
  label : Text
  location : Text
  type : PointType
  meetAt : Option MeetTime
  stageReference : Option Text
  latitude : Option ℚ
  longitude : Option ℚ
  recursDaily : Option Bool

/-- The fields of an edit that are there; some of them may be `null`. -/
structure UpdateBody where
  label : Option Text
  location : Option Text
  type : Option PointType
  meetAt : Option (Option MeetTime)
  stageReference : Option (Option Text)
  latitude : Option (Option ℚ)
  longitude : Option (Option ℚ)
  recursDaily : Option Bool

def maxMeetingPointsPerCrew : ℕ := 20

/-- Half an hour, in microseconds. -/
def halfHour : ℤ := 30 * 60000 * 1000

/-- What the column stores of `new Date(millis + 30 * 60_000).toISOString()`. -/
def expiryAfter (millis : ℤ) : ℤ := (millis + 30 * 60000) * 1000

/-- The `Date` that a stored time is read as. -/
def dateOf (micros : ℤ) : ℤ := micros / 1000

def sanitizeMeetingPointText (nfc : Text → Text) (value : Text) (maxLen : ℕ) : Text :=
  (sanitizeString nfc value maxLen).filter fun c => c ≠ unit '<' && c ≠ unit '>'

def CreateBody.expiresAt (body : CreateBody) : Option ℤ :=
  if body.recursDaily = some true then none
  else body.meetAt.map fun time => expiryAfter time.millis

def CreateBody.point (nfc : Text → Text) (body : CreateBody) (id crewId userId : String) :
    Point where
  id := id
  crewId := crewId
  createdBy := userId
  label := sanitizeMeetingPointText nfc body.label 100
  location := sanitizeMeetingPointText nfc body.location 200
  type := body.type
  meetAt := body.meetAt.map MeetTime.micros
  stageReference := body.stageReference
  expiresAt := body.expiresAt
  latitude := body.latitude
  longitude := body.longitude
  recursDaily := body.recursDaily.getD false
  active := true

namespace UpdateBody

/-- The meet time after the merge, as a `Date`. -/
def effMeetAt (body : UpdateBody) (existing : Point) : Option ℤ :=
  match body.meetAt with
  | some meetAt => meetAt.map MeetTime.millis
  | none => existing.meetAt.map dateOf

def effRecurs (body : UpdateBody) (existing : Point) : Bool :=
  body.recursDaily.getD existing.recursDaily

def expiresAt (body : UpdateBody) (existing : Point) : Option ℤ :=
  if body.effRecurs existing then none else (body.effMeetAt existing).map expiryAfter

/-- The `UPDATE` of the row with the fields of the body and the expiry. -/
def update (nfc : Text → Text) (body : UpdateBody) (expiresAt : Option ℤ) (p : Point) : Point :=
  { p with
    label := (body.label.map (sanitizeMeetingPointText nfc · 100)).getD p.label
    location := (body.location.map (sanitizeMeetingPointText nfc · 200)).getD p.location
    type := body.type.getD p.type
    meetAt := (body.meetAt.map (·.map MeetTime.micros)).getD p.meetAt
    stageReference := body.stageReference.getD p.stageReference
    expiresAt := expiresAt
    latitude := body.latitude.getD p.latitude
    longitude := body.longitude.getD p.longitude
    recursDaily := body.effRecurs p }

end UpdateBody

/-- One row of the sweep `expireStale`. -/
def Point.swept (now : ℤ) (p : Point) : Point :=
  if p.active && p.expiresAt.any (· < now) then { p with active := false } else p

/-! ## Requests and statements -/

inductive Role
  | owner
  | member
  deriving DecidableEq

inductive Operation
  | create (id : String) (body : CreateBody)
  | edit (mpId : String) (body : UpdateBody)
  | remove (mpId : String)

/-- The statement that a request comes to next. -/
inductive Phase
  | getMember
  | countByCrew
  | insert
  | getById (role : Role)
  | write (existing : Point)

structure Request where
  crewId : String
  userId : String
  operation : Operation
  phase : Phase

structure State where
  points : List Point
  requests : List Request

def State.initial : State := ⟨[], []⟩

inductive Action
  | request (crewId userId : String) (operation : Operation)
  /-- The statement `getMember` of a request, and what it finds. -/
  | member (i : ℕ) (role : Option Role)
  /-- The next statement of a request. -/
  | statement (i : ℕ)
  /-- A statement of a request fails. -/
  | fails (i : ℕ)
  | expireStale (now : ℤ)

namespace State

def finish (s : State) (i : ℕ) : State := { s with requests := s.requests.eraseIdx i }

def goOn (s : State) (i : ℕ) (r : Request) (phase : Phase) : State :=
  { s with requests := s.requests.set i { r with phase := phase } }

def countByCrew (s : State) (crewId : String) : ℕ :=
  s.points.countP fun p => p.crewId = crewId && p.active

def getById (s : State) (id : String) : Option Point := s.points.find? fun p => p.id = id

/-- An `UPDATE ... WHERE id = $1`. -/
def updateWhere (s : State) (id : String) (f : Point → Point) : State :=
  { s with points := s.points.map fun p => if p.id = id then f p else p }

/-- The checks on the row that an edit or a removal has read. -/
def allows (r : Request) (role : Role) (existing : Point) : Bool :=
  existing.crewId = r.crewId && existing.active &&
    (existing.createdBy = r.userId || role = .owner)

/-- The id of the point that an edit or a removal is about. -/
def pointOf (s : State) : Operation → Option Point
  | .create _ _ => none
  | .edit mpId _ => s.getById mpId
  | .remove mpId => s.getById mpId

def statement (nfc : Text → Text) (s : State) (i : ℕ) (r : Request) : Option State :=
  match r.operation, r.phase with
  | _, .getMember => none
  | .create _ _, .countByCrew =>
      if maxMeetingPointsPerCrew ≤ s.countByCrew r.crewId then some (s.finish i)
      else some (s.goOn i r .insert)
  | .create id body, .insert =>
      -- the primary key
      if (s.getById id).isSome then some (s.finish i)
      else some { s.finish i with
        points := s.points ++ [body.point nfc id r.crewId r.userId] }
  | operation, .getById role =>
      match s.pointOf operation with
      | none => some (s.finish i)
      | some existing =>
          if allows r role existing then some (s.goOn i r (.write existing))
          else some (s.finish i)
  | .edit mpId body, .write existing =>
      some ((s.updateWhere mpId (body.update nfc (body.expiresAt existing))).finish i)
  | .remove mpId, .write _ =>
      some ((s.updateWhere mpId fun p => { p with active := false }).finish i)
  | _, _ => none

end State

def step (nfc : Text → Text) (s : State) : Action → Option State
  | .request crewId userId operation =>
      some { s with requests := s.requests ++ [⟨crewId, userId, operation, .getMember⟩] }
  | .member i role =>
      match s.requests[i]? with
      | some ⟨crewId, userId, operation, .getMember⟩ =>
          match role, operation with
          | none, _ => some (s.finish i)
          | some _, .create id body =>
              some (s.goOn i ⟨crewId, userId, .create id body, .getMember⟩ .countByCrew)
          | some role, operation =>
              some (s.goOn i ⟨crewId, userId, operation, .getMember⟩ (.getById role))
      | _ => none
  | .statement i =>
      match s.requests[i]? with
      | none => none
      | some r => s.statement nfc i r
  | .fails i => if i < s.requests.length then some (s.finish i) else none
  | .expireStale now => some { s with points := s.points.map (Point.swept now) }

/-! ## The due expiry -/

/-- Nothing for a recurring or untimed point, half an hour after the meet time for the others. -/
def Point.due (p : Point) : Option ℤ :=
  if p.recursDaily then none else p.meetAt.map (· + halfHour)

/-- Whenever no request is in progress, every row has its due expiry. -/
def Settled (s : State) : Prop := s.requests = [] → ∀ p ∈ s.points, p.expiresAt = p.due

/-- What the sweep deactivates is a one-shot point, and its meet time is half an hour ago. -/
def SweptInTime (s : State) (a : Action) (t : State) : Prop :=
  ∀ now, a = .expireStale now → ∀ (i : ℕ) (p q : Point), s.points[i]? = some p →
    t.points[i]? = some q → p.active = true → q.active = false →
    p.recursDaily = false ∧ ∃ meetAt, p.meetAt = some meetAt ∧ meetAt + halfHour < now

/-- The expiry that the edit has computed is the one for the row as it is now, and the time of a
one-shot point has no fraction of a millisecond. -/
def UpdateBody.ReadsAnew (body : UpdateBody) (existing p : Point) : Prop :=
  body.expiresAt existing = body.expiresAt p ∧ (body.effRecurs p = false →
    (body.meetAt.map (·.map MeetTime.micros)).getD p.meetAt = (body.effMeetAt p).map (· * 1000))

def CreateBody.WholeMillis (body : CreateBody) : Prop :=
  body.recursDaily ≠ some true → ∀ time ∈ body.meetAt, time.micros = time.millis * 1000

instance (body : UpdateBody) (existing p : Point) : Decidable (body.ReadsAnew existing p) :=
  inferInstanceAs (Decidable (_ ∧ _))

instance (body : CreateBody) : Decidable body.WholeMillis := inferInstanceAs (Decidable (_ → _))

/-- The row that an edit has read. -/
def Phase.existing : Phase → Option Point
  | .write existing => some existing
  | _ => none

def Phase.isInsert : Phase → Bool
  | .insert => true
  | _ => false

def Request.ReadsAnew (points : List Point) (r : Request) : Prop :=
  match r.operation with
  | .create _ body => r.phase.isInsert = true → body.WholeMillis
  | .edit mpId body => ∀ existing ∈ r.phase.existing, ∀ p ∈ points, p.id = mpId →
      body.ReadsAnew existing p
  | .remove _ => True

instance (points : List Point) : ∀ r : Request, Decidable (r.ReadsAnew points)
  | ⟨_, _, .create _ body, phase⟩ =>
      inferInstanceAs (Decidable (phase.isInsert = true → body.WholeMillis))
  | ⟨_, _, .edit mpId body, phase⟩ =>
      inferInstanceAs (Decidable (∀ existing ∈ phase.existing, ∀ p ∈ points, p.id = mpId →
        body.ReadsAnew existing p))
  | ⟨_, _, .remove _, _⟩ => .isTrue trivial

/-- The condition on a step: a point is inserted or edited with a time in whole milliseconds, and
with an expiry that no other edit has made out of date. -/
def ReadsAnew (s : State) : Action → Prop
  | .statement i => ∀ r ∈ s.requests[i]?, r.ReadsAnew s.points
  | _ => True

instance (s : State) : ∀ a, Decidable (ReadsAnew s a)
  | .statement i => inferInstanceAs (Decidable (∀ r ∈ s.requests[i]?, r.ReadsAnew s.points))
  | .request _ _ _ => .isTrue trivial
  | .member _ _ => .isTrue trivial
  | .fails _ => .isTrue trivial
  | .expireStale _ => .isTrue trivial

/-! ## Every write gives the due expiry -/

theorem expiryAfter_eq (millis : ℤ) : expiryAfter millis = millis * 1000 + halfHour := by
  simp only [expiryAfter, halfHour]
  omega

theorem CreateBody.due_point {body : CreateBody} (h : body.WholeMillis) (nfc : Text → Text)
    (id crewId userId : String) :
    (body.point nfc id crewId userId).expiresAt = (body.point nfc id crewId userId).due := by
  simp only [CreateBody.point, CreateBody.expiresAt, Point.due]
  by_cases hrecurs : body.recursDaily = some true
  · simp [hrecurs]
  · have hone : body.recursDaily.getD false = false := by
      rcases hdaily : body.recursDaily with _ | _ | _
      · rfl
      · rfl
      · exact absurd hdaily hrecurs
    simp only [hrecurs, hone, if_false, Bool.false_eq_true, Option.map_map]
    refine Option.map_congr fun time htime => ?_
    simp [expiryAfter_eq, h hrecurs time htime]

theorem UpdateBody.due_update {body : UpdateBody} {existing p : Point}
    (h : body.ReadsAnew existing p) (nfc : Text → Text) :
    (body.update nfc (body.expiresAt existing) p).expiresAt =
      (body.update nfc (body.expiresAt existing) p).due := by
  obtain ⟨hsame, hwhole⟩ := h
  have hdue : (body.update nfc (body.expiresAt existing) p).due =
      if body.effRecurs p then none else
        ((body.meetAt.map (·.map MeetTime.micros)).getD p.meetAt).map (· + halfHour) := rfl
  rw [hdue]
  change body.expiresAt existing = _
  rw [hsame, UpdateBody.expiresAt]
  by_cases hrecurs : body.effRecurs p = true
  · rw [if_pos hrecurs, if_pos hrecurs]
  · rw [if_neg hrecurs, if_neg hrecurs, hwhole (by simpa using hrecurs), Option.map_map]
    exact Option.map_congr fun millis _ => expiryAfter_eq millis

theorem Point.swept_eq (now : ℤ) (p : Point) :
    (p.swept now).expiresAt = p.expiresAt ∧ (p.swept now).due = p.due := by
  unfold Point.swept
  split_ifs <;> exact ⟨rfl, rfl⟩

/-! ## What every step keeps -/

/-- Every row has its due expiry, also while requests are in progress. -/
def Sound (s : State) : Prop := ∀ p ∈ s.points, p.expiresAt = p.due

variable {nfc : Text → Text} {s t : State} {i : ℕ} {r : Request}

theorem Sound.updateWhere (h : Sound s) {id : String} {f : Point → Point}
    (hf : ∀ p ∈ s.points, p.id = id → (f p).expiresAt = (f p).due) :
    Sound (s.updateWhere id f) := by
  intro q hq
  obtain ⟨p, hp, rfl⟩ := List.mem_map.mp hq
  split_ifs with hid
  · exact hf p hp hid
  · exact h p hp

theorem Sound.statement (h : Sound s) (hget : s.requests[i]? = some r)
    (hreads : ReadsAnew s (.statement i)) (hstep : s.statement nfc i r = some t) : Sound t := by
  have hcond := hreads r hget
  obtain ⟨crewId, userId, operation, phase⟩ := r
  cases phase with
  | getMember => simp [State.statement] at hstep
  | countByCrew =>
    cases operation with
    | create id body =>
      simp only [State.statement] at hstep
      split_ifs at hstep <;> cases hstep <;> exact h
    | edit mpId body => cases hstep
    | remove mpId => cases hstep
  | insert =>
    cases operation with
    | create id body =>
      simp only [State.statement] at hstep
      split_ifs at hstep
      · cases hstep
        exact h
      · cases hstep
        exact InFlight.forall_mem_append_singleton h (CreateBody.due_point (hcond rfl) nfc _ _ _)
    | edit mpId body => cases hstep
    | remove mpId => cases hstep
  | getById role =>
    have hpoints : t.points = s.points := by
      cases operation <;> simp only [State.statement] at hstep <;>
        split at hstep <;> try split_ifs at hstep
      all_goals cases hstep; rfl
    intro p hp
    exact h p (hpoints ▸ hp)
  | write existing =>
    cases operation with
    | create id body => cases hstep
    | edit mpId body =>
      cases hstep
      exact h.updateWhere fun p hp hid => UpdateBody.due_update (hcond existing rfl p hp hid) nfc
    | remove mpId =>
      cases hstep
      exact h.updateWhere fun p hp _ => h p hp

theorem Sound.step (h : Sound s) {a : Action} (hreads : ReadsAnew s a)
    (hstep : step nfc s a = some t) : Sound t := by
  cases a with
  | request crewId userId operation =>
    cases hstep
    exact h
  | member i role =>
    simp only [MeetingPoints.step] at hstep
    repeat' split at hstep
    all_goals cases hstep
    all_goals exact h
  | statement i =>
    simp only [MeetingPoints.step] at hstep
    split at hstep
    · cases hstep
    · rename_i r hget
      exact h.statement hget hreads hstep
  | fails i =>
    simp only [MeetingPoints.step] at hstep
    split_ifs at hstep
    cases hstep
    exact h
  | expireStale now =>
    cases hstep
    intro q hq
    obtain ⟨p, hp, rfl⟩ := List.mem_map.mp hq
    obtain ⟨hexpires, hdue⟩ := Point.swept_eq now p
    rw [hexpires, hdue]
    exact h p hp

/-- A row with its due expiry that the sweep deactivates is a one-shot point whose time has come. -/
theorem Sound.sweptInTime (h : Sound s) {a : Action} (hstep : MeetingPoints.step nfc s a = some t) :
    SweptInTime s a t := by
  rintro now rfl i p q hp hq hactive hgone
  cases hstep
  have hq' : q = p.swept now := by
    simpa [List.getElem?_map, hp] using hq.symm
  have hdue := h p (List.mem_of_getElem? hp)
  subst hq'
  simp only [Point.swept] at hgone
  split_ifs at hgone with hstale
  · rw [Bool.and_eq_true, Option.any_eq_true] at hstale
    obtain ⟨-, expiry, hexpiry, hlt⟩ := hstale
    rw [hexpiry, Point.due] at hdue
    split_ifs at hdue with hrecurs
    obtain ⟨meetAt, hmeetAt, rfl⟩ := Option.map_eq_some_iff.mp hdue.symm
    exact ⟨by simpa using hrecurs, meetAt, hmeetAt, by simpa using hlt⟩
  · rw [hactive] at hgone
    cases hgone

/-- While every edit computes the expiry that the row needs when it is written, every row has its due
expiry whenever no request is in progress, and the sweep deactivates nothing before its time. -/
theorem expiry_kept (nfc : Text → Text) {as : List Action}
    (h : Machine.Meets (step nfc) ReadsAnew State.initial as) :
    Machine.Always (step nfc) Settled State.initial as ∧
      Machine.Each (step nfc) SweptInTime State.initial as := by
  have hinitial : Sound State.initial := by
    intro p hp
    cases hp
  constructor
  · exact Machine.always_of_meets (I := Sound) (fun _ _ _ hs hreads hstep => hs.step hreads hstep)
      (fun _ hs => fun _ => hs) hinitial h
  · exact Machine.each_of_meets (I := Sound) (fun _ _ _ hs hreads hstep => hs.step hreads hstep)
      (fun _ _ _ hs _ hstep => hs.sweptInTime hstep) hinitial h

/-! ## Two edits of one point -/

def noEdit : UpdateBody := ⟨none, none, none, none, none, none, none, none⟩

/-- A point at three, in minutes of the day, and its edits: it recurs, it is at four. -/
def atThree : CreateBody :=
  ⟨[], [], .during, some ⟨900 * 60000, 900 * 60000 * 1000⟩, none, none, none, none⟩

def recurring : UpdateBody := { noEdit with recursDaily := some true }

def atFour : UpdateBody :=
  { noEdit with meetAt := some (some ⟨960 * 60000, 960 * 60000 * 1000⟩) }

/-- The requests that make a point at three. -/
def creation : List Action :=
  [.request "c" "u" (.create "p" atThree), .member 0 (some .owner), .statement 0, .statement 0]

/-- One edit after the other. -/
theorem expiry_kept_inTurn :
    Machine.Always (step id) Settled State.initial
        (creation ++ [.request "c" "u" (.edit "p" atFour), .member 0 (some .owner), .statement 0,
          .statement 0, .request "c" "u" (.edit "p" recurring), .member 0 (some .owner),
          .statement 0, .statement 0, .expireStale (2000 * 60000 * 1000)]) ∧
      Machine.Each (step id) SweptInTime State.initial
        (creation ++ [.request "c" "u" (.edit "p" atFour), .member 0 (some .owner), .statement 0,
          .statement 0, .request "c" "u" (.edit "p" recurring), .member 0 (some .owner),
          .statement 0, .statement 0, .expireStale (2000 * 60000 * 1000)]) :=
  expiry_kept id (by decide)

/-- Both edits read the point before either writes it: the recurring point expires. -/
theorem recurring_expires :
    ¬ ∀ as, Machine.Always (step id) Settled State.initial as ∧
      Machine.Each (step id) SweptInTime State.initial as := by
  intro h
  have hsettled := (h (creation ++ [.request "c" "u" (.edit "p" recurring),
    .request "c" "u" (.edit "p" atFour), .member 0 (some .owner), .member 1 (some .owner),
    .statement 0, .statement 1, .statement 0, .statement 0])).1.last rfl
  have hdue := hsettled rfl _ (List.mem_cons_self ..)
  cases hdue

end FestivalPlanner.MeetingPoints
