import FestivalPlanner.Crews.CrewStore
import FestivalPlanner.Lib.Machine

/-!
# The statuses of the members

Four writers put rows into `crewStatuses`: a status event, `loadStatuses`, the answer to the
user's own update, and its rejection.  Only the first looks at the times.

* `newest` — the newest row of a member among those that were received;
* `State` — the list, the updates of the user and what is under way;
* `step` — updates, what the server makes of them, and what arrives;
* `NotOlder`, `Settled` — what the list shows after a step and when everything is delivered;
* `Timely` — no reload, answer or rejection brings back what is older than a row received before;
* `settled_of_timely` — the list settles in every run whose steps are timely.
-/

namespace FestivalPlanner.MemberStatuses

open CrewStore Keyed List Option

/-! ## What the server sends -/

/-- A row of the server has a time. -/
structure ServerStatus where
  row : CrewMemberStatus
  time : ℤ
  dated : row.updatedAt = some time
  confirmed : row.optimistic = false

/-- The columns of `crew_member_status`; a list has names and avatars too, an event has not. -/
def columns (row : CrewMemberStatus) : CrewMemberStatus :=
  { row with
    username := none
    name := none
    avatarKey := none
    avatarVersion := none
    optimistic := false }

def SameUpdate (x y : ServerStatus) : Prop := columns x.row = columns y.row

variable {x row : ServerStatus} {i : ℕ}

theorem SameUpdate.time_eq {y : ServerStatus} (h : SameUpdate x y) : x.time = y.time := by
  have hupdated : (columns x.row).updatedAt = (columns y.row).updatedAt := by rw [h]
  change x.row.updatedAt = y.row.updatedAt at hupdated
  rw [x.dated, y.dated] at hupdated
  exact some.inj hupdated

theorem isStale_eq (x y : ServerStatus) : isStale x.row y.row = decide (y.time < x.time) := by
  rw [isStale, x.dated, y.dated]

/-- The server keeps one row for each member. -/
structure Listing where
  rows : List ServerStatus
  unique : (rows.map fun x => x.row.userId).Nodup

/-! ## The newest row -/

/-- The row that comes now, unless the one before is newer. -/
@[grind =] def later (x : ServerStatus) : Option ServerStatus → ServerStatus
  | some n => if x.time < n.time then n else x
  | none => x

/-- The newest row of a member; the list starts with the row that came last. -/
@[grind =] def newest (userId : String) : List ServerStatus → Option ServerStatus
  | [] => none
  | x :: received =>
      if x.row.userId = userId then some (later x (newest userId received))
      else newest userId received

theorem le_later (x : ServerStatus) (n : Option ServerStatus) : x.time ≤ (later x n).time := by
  cases n with
  | none => exact le_rfl
  | some n =>
    rw [later]
    split_ifs with hlt
    · exact hlt.le
    · exact le_rfl

theorem le_later_some (x n : ServerStatus) : n.time ≤ (later x (some n)).time := by
  rw [later]
  split_ifs with hlt
  · exact le_rfl
  · exact not_lt.mp hlt

theorem later_eq_or (x : ServerStatus) (n : Option ServerStatus) :
    later x n = x ∨ some (later x n) = n := by
  cases n with
  | none => exact .inl rfl
  | some n =>
    rw [later]
    split_ifs
    · exact .inr rfl
    · exact .inl rfl

variable {received rows : List ServerStatus} {n : ServerStatus}

theorem newest_mem {userId : String} (h : newest userId received = some n) :
    n ∈ received ∧ n.row.userId = userId := by
  induction received with
  | nil => cases h
  | cons x received ih =>
    rw [newest] at h
    split_ifs at h with hx
    · obtain rfl := some.inj h
      rcases later_eq_or x (newest userId received) with heq | heq
      · rw [heq]
        exact ⟨mem_cons_self, hx⟩
      · obtain ⟨hmem, hown⟩ := ih heq.symm
        exact ⟨mem_cons_of_mem _ hmem, hown⟩
    · obtain ⟨hmem, hown⟩ := ih h
      exact ⟨mem_cons_of_mem _ hmem, hown⟩

/-- No row of the member is newer. -/
theorem le_newest {userId : String} (hx : x ∈ received) (hown : x.row.userId = userId) :
    ∃ n, newest userId received = some n ∧ x.time ≤ n.time := by
  induction received with
  | nil => cases hx
  | cons y received ih =>
    rw [newest]
    split_ifs with hy
    · refine ⟨_, rfl, ?_⟩
      rcases mem_cons.mp hx with rfl | hx
      · exact le_later x _
      · obtain ⟨n, hn, hle⟩ := ih hx
        rw [hn]
        exact hle.trans (le_later_some y n)
    · rcases mem_cons.mp hx with rfl | hx
      · exact absurd hown hy
      · exact ih hx

/-- The newest row only gets newer. -/
theorem newest_append_le {userId : String} {m : ServerStatus} (rows received : List ServerStatus)
    (hn : newest userId received = some n) (hm : newest userId (rows ++ received) = some m) :
    n.time ≤ m.time := by
  obtain ⟨hmem, hown⟩ := newest_mem hn
  obtain ⟨k, hk, hle⟩ := le_newest (mem_append_right rows hmem) hown
  rwa [some.inj (hm.symm.trans hk)]

theorem newest_of_absent {userId : String} (h : ∀ x ∈ rows, x.row.userId ≠ userId)
    (received : List ServerStatus) : newest userId (rows ++ received) = newest userId received := by
  induction rows with
  | nil => rfl
  | cons x rows ih =>
    rw [cons_append, newest, if_neg (h x mem_cons_self)]
    exact ih fun y hy => h y (mem_cons_of_mem x hy)

theorem newest_of_mem (hunique : (rows.map fun x => x.row.userId).Nodup) (hx : x ∈ rows)
    (received : List ServerStatus) :
    newest x.row.userId (rows ++ received) = some (later x (newest x.row.userId received)) := by
  induction rows with
  | nil => cases hx
  | cons y rows ih =>
    rw [map_cons, nodup_cons] at hunique
    obtain ⟨hy, hunique⟩ := hunique
    rw [cons_append, newest]
    rcases mem_cons.mp hx with rfl | hx
    · rw [if_pos rfl, newest_of_absent]
      exact fun z hz heq => hy (List.mem_map.mpr ⟨z, hz, heq⟩)
    · have hne : y.row.userId ≠ x.row.userId :=
        fun heq => hy (List.mem_map.mpr ⟨x, hx, heq.symm⟩)
      rw [if_neg hne]
      exact ih hunique hx

/-! ## Updates, events and loads -/

/-- An `updateMyStatus` that is not through: its request is under way or queued, and the server
may have accepted it. -/
structure Update where
  prevMine : Option CrewMemberStatus
  queued : Bool
  accepted : Option ServerStatus

structure State where
  store : Store
  updates : List Update
  /-- The events of this user's own row that are under way. -/
  echoes : List ServerStatus
  /-- The rows that have come, the last one first. -/
  received : List ServerStatus
  /-- The last update of this user that the server accepted. -/
  accepted : Option ServerStatus

/-- Statuses are not loaded yet; the server may have a row of the user. -/
def start (store : Store) (accepted : Option ServerStatus) : State :=
  { store := { store with crewStatuses := [] }
    updates := []
    echoes := []
    received := []
    accepted := accepted }

inductive Action where
  | updateMyStatus (request : UpdateCrewMemberStatusRequest) (now : ℤ)
  /-- The call is queued and returns. -/
  | queued (i : ℕ)
  /-- The server accepts the request of a call. -/
  | accept (i : ℕ) (row : ServerStatus)
  | answered (i : ℕ)
  | rejected (i : ℕ) (message : String)
  /-- A queued update is replayed and accepted. -/
  | replayed (i : ℕ) (row : ServerStatus)
  /-- A queued update goes without: a later one takes its place, or it fails for good. -/
  | dropped (i : ℕ)
  /-- An update from another device of this user. -/
  | acceptElsewhere (row : ServerStatus)
  /-- The event of an own row. -/
  | echo (i : ℕ)
  /-- The event of another member's row. -/
  | applyStatusUpdate (row : ServerStatus)
  | loadStatuses (list : Listing)

/-- A row of this user that the server had. -/
def Known (accepted : Option ServerStatus) (x : ServerStatus) : Prop :=
  ∃ a, accepted = some a ∧ (x.time < a.time ∨ SameUpdate x a)

instance (x y : ServerStatus) : Decidable (SameUpdate x y) := inferInstanceAs (Decidable (_ = _))

instance : ∀ (accepted : Option ServerStatus) (x : ServerStatus), Decidable (Known accepted x)
  | none, _ => .isFalse fun h => by simp [Known] at h
  | some a, x => decidable_of_iff (x.time < a.time ∨ SameUpdate x a) (by simp [Known])

variable (crewId myUserId : String)

@[grind =] def step (s : State) : Action → Option State
  | .updateMyStatus request now =>
      some { s with
        store := s.store.updateMyStatus crewId request myUserId now
        updates := s.updates ++ [⟨statusOf myUserId s.store.crewStatuses, false, none⟩] }
  | .queued i =>
      match s.updates[i]? with
      | some u => some { s with updates := s.updates.set i { u with queued := true } }
      | none => none
  | .accept i row =>
      match s.updates[i]? with
      | some u =>
          if u.queued = false ∧ u.accepted = none ∧ row.row.userId = myUserId then
            some { s with
              updates := s.updates.set i { u with accepted := some row }
              echoes := s.echoes ++ [row]
              accepted := some row }
          else none
      | none => none
  | .answered i =>
      match s.updates[i]? with
      | some ⟨_, false, some row⟩ =>
          some { s with
            store := s.store.putServerStatus row.row
            updates := s.updates.eraseIdx i
            received := row :: s.received }
      | _ => none
  | .rejected i message =>
      match s.updates[i]? with
      | some ⟨prevMine, false, none⟩ =>
          some { s with
            store := s.store.rollBackStatus myUserId prevMine message
            updates := s.updates.eraseIdx i }
      | _ => none
  | .replayed i row =>
      match s.updates[i]? with
      | some ⟨_, true, _⟩ =>
          if row.row.userId = myUserId then
            some { s with
              updates := s.updates.eraseIdx i
              echoes := s.echoes ++ [row]
              accepted := some row }
          else none
      | _ => none
  | .dropped i =>
      match s.updates[i]? with
      | some ⟨_, true, _⟩ => some { s with updates := s.updates.eraseIdx i }
      | _ => none
  | .acceptElsewhere row =>
      if row.row.userId = myUserId then
        some { s with echoes := s.echoes ++ [row], accepted := some row }
      else none
  | .echo i =>
      match s.echoes[i]? with
      | some row =>
          some { s with
            store := s.store.applyStatusUpdate row.row
            echoes := s.echoes.eraseIdx i
            received := row :: s.received }
      | none => none
  | .applyStatusUpdate row =>
      if row.row.userId ≠ myUserId then
        some { s with
          store := s.store.applyStatusUpdate row.row
          received := row :: s.received }
      else none
  | .loadStatuses list =>
      if ∀ x ∈ list.rows, x.row.userId = myUserId → Known s.accepted x then
        some { s with
          store := s.store.loadStatuses (list.rows.map ServerStatus.row)
          received := list.rows ++ s.received }
      else none

/-! ## What the list shows -/

/-- The row that is held of a member. -/
def held (s : State) (userId : String) : Option CrewMemberStatus :=
  statusOf userId s.store.crewStatuses

/-- No row gives way to one with an older time. -/
def NotOlder (s t : State) : Prop :=
  ∀ userId r r', held s userId = some r → held t userId = some r' → isStale r r' = false

/-- No row of the server gives way to an older row of the server. -/
def NewerOnly (s t : State) : Prop :=
  ∀ userId r r', held s userId = some r → held t userId = some r' →
    r.optimistic = false → r'.optimistic = false → isStale r r' = false

/-- One row a member. -/
def OneEach (s : State) : Prop := UniqueKeys Entry.id s.store.crewStatuses

/-- The row of another member is the newest that came; and once no update and no event of this
user is under way and the last accepted update has come, its row is held. -/
structure Settled (s : State) : Prop where
  others : ∀ userId ≠ myUserId, held s userId = (newest userId s.received).map ServerStatus.row
  mine : s.updates = [] → s.echoes = [] → ∀ a, s.accepted = some a →
    (∃ x ∈ s.received, x.row.userId = myUserId ∧ SameUpdate x a) →
    (held s myUserId).map columns = some (columns a.row)

/-- The server's time has moved on since the last update that it accepted. -/
def Ticks (s : State) (row : ServerStatus) : Prop := ∀ a, s.accepted = some a → a.time < row.time

/-- The row of this user is not one that the user waits for. -/
def Confirmed (s : State) : Prop :=
  held s myUserId = (newest myUserId s.received).map ServerStatus.row

/-- A load has a row for every member that has one, and none that is older; an answer is not older
than a row that came; a rejection restores the newest row, or the optimistic row of another
update under way; and an event that comes last is neither older than a row that came nor skipped
because of the user's clock. -/
def Timely (s : State) : Action → Prop
  | .accept _ row | .acceptElsewhere row | .replayed _ row => Ticks s row
  | .answered i =>
      ∀ u row, s.updates[i]? = some u → u.accepted = some row →
        ∀ n, newest myUserId s.received = some n → n.time ≤ row.time
  | .rejected i _ =>
      ∀ u, s.updates[i]? = some u →
        u.prevMine = (newest myUserId s.received).map ServerStatus.row ∨
          (∃ r, u.prevMine = some r ∧ r.optimistic = true) ∧
            (s.updates.eraseIdx i ≠ [] ∨ s.echoes ≠ [])
  | .dropped i => Confirmed myUserId s ∨ s.updates.eraseIdx i ≠ [] ∨ s.echoes ≠ []
  | .echo i =>
      Confirmed myUserId s ∨ s.updates ≠ [] ∨ s.echoes.eraseIdx i ≠ [] ∨
        ∀ row, s.echoes[i]? = some row →
          (∀ n, newest myUserId s.received = some n → n.time ≤ row.time) ∧
            ∀ r, held s myUserId = some r → isStale r row.row = false
  | .loadStatuses list =>
      ∀ userId n, newest userId s.received = some n →
        ∃ x ∈ list.rows, x.row.userId = userId ∧ n.time ≤ x.time
  | .updateMyStatus _ _ | .queued _ | .applyStatusUpdate _ => True

/-! ## What each writer leaves -/

theorem ServerStatus.plain (x : ServerStatus) : { x.row with optimistic := false } = x.row := by
  obtain ⟨row, time, dated, confirmed⟩ := x
  cases row
  cases confirmed
  rfl

section Writers

variable (s : Store) (userId : String)

theorem statusOf_putServerStatus (x : ServerStatus) :
    statusOf userId (s.putServerStatus x.row).crewStatuses
      = if x.row.userId = userId then some x.row else statusOf userId s.crewStatuses := by
  have hput : (s.putServerStatus x.row).crewStatuses = putStatus x.row s.crewStatuses := by
    rw [Store.putServerStatus, x.plain]
  rw [hput, statusOf_putStatus]

/-- The row that is shown after an event. -/
@[grind =] def afterEvent (x : ServerStatus) : Option CrewMemberStatus → CrewMemberStatus
  | some existing => if isStale existing x.row then existing else x.row
  | none => x.row

theorem statusOf_applyStatusUpdate (x : ServerStatus) :
    statusOf userId (s.applyStatusUpdate x.row).crewStatuses
      = if x.row.userId = userId then some (afterEvent x (statusOf userId s.crewStatuses))
        else statusOf userId s.crewStatuses := by
  by_cases hown : x.row.userId = userId
  · subst hown
    rw [if_pos rfl, Store.applyStatusUpdate]
    cases hheld : statusOf x.row.userId s.crewStatuses with
    | none => simp only [statusOf_putServerStatus, if_pos, afterEvent]
    | some existing =>
      simp only [afterEvent]
      split_ifs
      · exact hheld
      · rw [statusOf_putServerStatus, if_pos rfl]
  · rw [if_neg hown, Store.applyStatusUpdate]
    split
    · split_ifs
      · rfl
      · rw [statusOf_putServerStatus, if_neg hown]
    · rw [statusOf_putServerStatus, if_neg hown]

theorem isStale_self (r : CrewMemberStatus) : isStale r r = false := by
  unfold isStale
  split
  · simp_all
  · rfl

theorem isStale_afterEvent (x : ServerStatus) (r : CrewMemberStatus) :
    isStale r (afterEvent x (some r)) = false := by
  rw [afterEvent]
  split_ifs with hstale
  · exact isStale_self r
  · exact Bool.eq_false_iff.mpr hstale

theorem afterEvent_eq_or (x : ServerStatus) (existing : Option CrewMemberStatus) :
    afterEvent x existing = x.row ∨ some (afterEvent x existing) = existing := by
  cases existing with
  | none => exact .inl rfl
  | some r =>
    rw [afterEvent]
    split_ifs
    · exact .inr rfl
    · exact .inl rfl

theorem uniqueKeys_applyStatusUpdate {s : Store} (h : UniqueKeys Entry.id s.crewStatuses)
    (row : CrewMemberStatus) : UniqueKeys Entry.id (s.applyStatusUpdate row).crewStatuses := by
  unfold Store.applyStatusUpdate
  split
  · split_ifs
    · exact h
    · exact uniqueKeys_putStatus h { row with optimistic := false }
  · exact uniqueKeys_putStatus h { row with optimistic := false }

/-- An event leaves the newer one of two rows of the server. -/
theorem afterEvent_row (x n : ServerStatus) :
    afterEvent x (some n.row) = (later x (some n)).row := by
  rw [afterEvent, isStale_eq, later]
  by_cases hlt : x.time < n.time
  · rw [if_pos (decide_eq_true hlt), if_pos hlt]
  · rw [if_neg (by simpa using hlt), if_neg hlt]

theorem statusOf_rollBackStatus (myUserId message : String) {prevMine : Option CrewMemberStatus}
    (hprev : ∀ r, prevMine = some r → r.userId = myUserId) :
    statusOf userId (s.rollBackStatus myUserId prevMine message).crewStatuses
      = if myUserId = userId then prevMine else statusOf userId s.crewStatuses := by
  cases prevMine with
  | none => exact statusOf_without userId myUserId s.crewStatuses
  | some r =>
    simp only [Store.rollBackStatus]
    rw [statusOf_cons, statusOf_without, hprev r rfl]
    by_cases hown : myUserId = userId
    · rw [if_pos hown, if_pos hown]
    · rw [if_neg hown, if_neg hown, if_neg hown]

theorem loadStatuses_crewStatuses (list : Listing) :
    (s.loadStatuses (list.rows.map ServerStatus.row)).crewStatuses
      = list.rows.map ServerStatus.row := by
  refine filter_eq_self.mpr ?_
  intro r hr
  obtain ⟨x, -, rfl⟩ := List.mem_map.mp hr
  simpa [Entry.optimistic] using x.confirmed

theorem Listing.uniqueKeys (list : Listing) :
    UniqueKeys Entry.id (list.rows.map ServerStatus.row) := by
  rw [UniqueKeys, List.map_map]
  exact list.unique

/-- A load that is not older than what came shows the newest rows. -/
theorem statusOf_loadStatuses (list : Listing) (received : List ServerStatus)
    (hfresh : ∀ n, newest userId received = some n →
      ∃ x ∈ list.rows, x.row.userId = userId ∧ n.time ≤ x.time) :
    statusOf userId (s.loadStatuses (list.rows.map ServerStatus.row)).crewStatuses
      = (newest userId (list.rows ++ received)).map ServerStatus.row := by
  rw [loadStatuses_crewStatuses]
  have hfound : ∀ x ∈ list.rows, x.row.userId = userId →
      statusOf userId (list.rows.map ServerStatus.row) = some x.row := by
    rintro x hx rfl
    exact lookup_of_mem list.uniqueKeys (List.mem_map_of_mem hx)
  cases hn : newest userId received with
  | some n =>
    obtain ⟨x, hx, rfl, hle⟩ := hfresh n hn
    rw [hfound x hx rfl, newest_of_mem list.unique hx, hn, later, if_neg (not_lt.mpr hle)]
    rfl
  | none =>
    by_cases habsent : ∀ x ∈ list.rows, x.row.userId ≠ userId
    · rw [newest_of_absent habsent, hn]
      refine lookup_eq_none.mpr fun r hr => ?_
      obtain ⟨x, hx, rfl⟩ := List.mem_map.mp hr
      exact habsent x hx
    · push Not at habsent
      obtain ⟨x, hx, rfl⟩ := habsent
      rw [hfound x hx rfl, newest_of_mem list.unique hx, hn]
      rfl

end Writers

/-! ## The invariant -/

/-- What every step keeps. -/
structure Rows (s : State) : Prop where
  unique : OneEach s
  own : ∀ u ∈ s.updates, ∀ r, u.prevMine = some r → r.userId = myUserId

/-- What every timely step keeps. -/
structure Inv (s : State) : Prop where
  others : ∀ userId ≠ myUserId, held s userId = (newest userId s.received).map ServerStatus.row
  shown : Confirmed myUserId s ∨ s.updates ≠ [] ∨ s.echoes ≠ []
  /-- A row of this user that is not optimistic has come from the server. -/
  heard : ∀ r, held s myUserId = some r → r.optimistic = false →
    ∃ x ∈ s.received, x.row.userId = myUserId ∧ x.row = r
  knownReceived : ∀ x ∈ s.received, x.row.userId = myUserId → Known s.accepted x
  knownEchoes : ∀ x ∈ s.echoes, x.row.userId = myUserId ∧ Known s.accepted x
  knownUpdates : ∀ u ∈ s.updates, ∀ x, u.accepted = some x →
    x.row.userId = myUserId ∧ Known s.accepted x

variable {crewId myUserId} {s t : State} {a : Action}

theorem Inv.settled (h : Inv myUserId s) : Settled myUserId s := by
  refine ⟨h.others, ?_⟩
  rintro hupdates hechoes a ha ⟨x, hx, hown, hsame⟩
  have hshown : Confirmed myUserId s := by
    rcases h.shown with hshown | hne | hne
    · exact hshown
    · exact absurd hupdates hne
    · exact absurd hechoes hne
  obtain ⟨n, hn, hle⟩ := le_newest hx hown
  obtain ⟨hmem, hnown⟩ := newest_mem hn
  obtain ⟨b, hb, hlt | hcols⟩ := h.knownReceived n hmem hnown
  · obtain rfl := some.inj (ha.symm.trans hb)
    have htime := hsame.time_eq
    omega
  · obtain rfl := some.inj (ha.symm.trans hb)
    rw [hshown, hn, map_some, map_some, show columns n.row = columns a.row from hcols]

/-- What came is not newer than what is the newest. -/
theorem Inv.heard_le (h : Inv myUserId s) {r : CrewMemberStatus}
    (hheld : held s myUserId = some r) (hplain : r.optimistic = false) :
    ∃ x n : ServerStatus, x.row = r ∧ newest myUserId s.received = some n ∧ x.time ≤ n.time := by
  obtain ⟨x, hx, hown, hrow⟩ := h.heard r hheld hplain
  obtain ⟨n, hn, hle⟩ := le_newest hx hown
  exact ⟨x, n, hrow, hn, hle⟩

theorem Known.of_ticks (h : Known s.accepted x) (hticks : Ticks s row) : Known (some row) x := by
  obtain ⟨a, ha, hx⟩ := h
  refine ⟨row, rfl, .inl ?_⟩
  have hlt := hticks a ha
  rcases hx with hx | hx
  · exact hx.trans hlt
  · exact hx.time_eq.le.trans_lt hlt

theorem Known.self (row : ServerStatus) : Known (some row) row := ⟨row, rfl, .inr rfl⟩

theorem newest_cons_of_ne {userId : String} (h : x.row.userId ≠ userId)
    (received : List ServerStatus) : newest userId (x :: received) = newest userId received := by
  rw [newest, if_neg h]

theorem newest_cons_self (x : ServerStatus) (received : List ServerStatus) :
    newest x.row.userId (x :: received) = some (later x (newest x.row.userId received)) := by
  rw [newest, if_pos rfl]

/-- The rows of the others only get newer, and so does the own row if the newest one is shown. -/
theorem newerOnly_of (hs : Inv myUserId s) (ht : Inv myUserId t) (rows : List ServerStatus)
    (hreceived : t.received = rows ++ s.received)
    (hmine : Confirmed myUserId t ∨ ∀ r r', held s myUserId = some r → held t myUserId = some r' →
      r'.optimistic = false → isStale r r' = false) : NewerOnly s t := by
  intro userId r r' hr hr' hplain hplain'
  by_cases hown : userId = myUserId
  · subst hown
    rcases hmine with hconfirmed | hmine
    · obtain ⟨x, n, rfl, hn, hle⟩ := hs.heard_le hr hplain
      rw [hconfirmed, hreceived] at hr'
      obtain ⟨m, hm, rfl⟩ := map_eq_some_iff.mp hr'
      have hnm := newest_append_le rows s.received hn hm
      rw [isStale_eq]
      exact decide_eq_false (not_lt.mpr (hle.trans hnm))
    · exact hmine r r' hr hr' hplain'
  · rw [hs.others userId hown] at hr
    rw [ht.others userId hown, hreceived] at hr'
    obtain ⟨n, hn, rfl⟩ := map_eq_some_iff.mp hr
    obtain ⟨m, hm, rfl⟩ := map_eq_some_iff.mp hr'
    rw [isStale_eq]
    exact decide_eq_false (not_lt.mpr (newest_append_le rows s.received hn hm))

/-! ## Each step -/

/-- The list has one row a member after every step, timely or not. -/
theorem rows_step (h : Rows myUserId s) (ht : step crewId myUserId s a = some t) :
    Rows myUserId t := by
  have herase : ∀ i, ∀ u ∈ s.updates.eraseIdx i, ∀ r, u.prevMine = some r → r.userId = myUserId :=
    fun i u hu => h.own u (mem_of_mem_eraseIdx hu)
  have hset : ∀ (i : ℕ) (u v : Update), s.updates[i]? = some u → v.prevMine = u.prevMine →
      ∀ w ∈ s.updates.set i v, ∀ r, w.prevMine = some r → r.userId = myUserId := by
    intro i u v hu hv w hw
    rcases mem_or_eq_of_mem_set hw with hw | rfl
    · exact h.own w hw
    · rw [hv]
      exact h.own u (mem_of_getElem? hu)
  cases a with
  | updateMyStatus request now =>
    cases ht
    refine ⟨uniqueKeys_putStatus h.unique _, ?_⟩
    intro u hu r hr
    rcases mem_append.mp hu with hu | hu
    · exact h.own u hu r hr
    · obtain rfl := mem_singleton.mp hu
      exact statusOf_own r hr
  | queued i =>
    simp only [step] at ht
    split at ht
    · rename_i u hu
      cases ht
      exact ⟨h.unique, hset i u _ hu rfl⟩
    · cases ht
  | accept i row =>
    simp only [step] at ht
    split at ht
    · rename_i u hu
      simp only [ite_none_right_eq_some] at ht
      obtain ⟨-, ht⟩ := ht
      cases ht
      exact ⟨h.unique, hset i u _ hu rfl⟩
    · cases ht
  | answered i =>
    simp only [step] at ht
    split at ht <;> cases ht
    exact ⟨uniqueKeys_putStatus h.unique _, herase i⟩
  | rejected i message =>
    simp only [step] at ht
    split at ht
    · rename_i prevMine hu
      cases ht
      refine ⟨?_, herase i⟩
      cases prevMine with
      | none => exact h.unique.erase _
      | some r =>
        have hput := uniqueKeys_putStatus h.unique r
        rwa [putStatus, h.own _ (mem_of_getElem? hu) r rfl] at hput
    · cases ht
  | replayed i row =>
    simp only [step] at ht
    split at ht
    · simp only [ite_none_right_eq_some] at ht
      obtain ⟨-, ht⟩ := ht
      cases ht
      exact ⟨h.unique, herase i⟩
    · cases ht
  | dropped i =>
    simp only [step] at ht
    split at ht <;> cases ht
    exact ⟨h.unique, herase i⟩
  | acceptElsewhere row =>
    simp only [step, ite_none_right_eq_some] at ht
    obtain ⟨-, ht⟩ := ht
    cases ht
    exact ⟨h.unique, h.own⟩
  | echo i =>
    simp only [step] at ht
    split at ht <;> cases ht
    exact ⟨uniqueKeys_applyStatusUpdate h.unique _, h.own⟩
  | applyStatusUpdate row =>
    simp only [step, ite_none_right_eq_some] at ht
    obtain ⟨-, ht⟩ := ht
    cases ht
    exact ⟨uniqueKeys_applyStatusUpdate h.unique _, h.own⟩
  | loadStatuses list =>
    simp only [step, ite_none_right_eq_some] at ht
    obtain ⟨-, ht⟩ := ht
    cases ht
    refine ⟨?_, h.own⟩
    rw [OneEach, loadStatuses_crewStatuses]
    exact list.uniqueKeys

theorem inv_updateMyStatus (h : Inv myUserId s) {request : UpdateCrewMemberStatusRequest} {now : ℤ}
    (ht : step crewId myUserId s (.updateMyStatus request now) = some t) :
    Inv myUserId t ∧ NewerOnly s t := by
  cases ht
  set row := mergeStatus crewId request myUserId now (statusOf myUserId s.store.crewStatuses)
    with hrow
  have hheld : ∀ userId, statusOf userId (putStatus row s.store.crewStatuses)
      = if myUserId = userId then some row else statusOf userId s.store.crewStatuses :=
    fun userId => statusOf_putStatus userId row _
  have hinv : Inv myUserId { s with
      store := s.store.updateMyStatus crewId request myUserId now
      updates := s.updates ++ [⟨statusOf myUserId s.store.crewStatuses, false, none⟩] } :=
    { h with
      others := by
        intro userId hne
        exact (hheld userId).trans (by rw [if_neg (Ne.symm hne)]; exact h.others userId hne)
      shown := .inr (.inl (by simp))
      heard := by
        intro r hr hplain
        obtain rfl := some.inj (((hheld myUserId).trans (if_pos rfl)).symm.trans hr)
        cases hplain
      knownUpdates := by
        intro u hu x hx
        rcases mem_append.mp hu with hu | hu
        · exact h.knownUpdates u hu x hx
        · obtain rfl := mem_singleton.mp hu
          cases hx }
  refine ⟨hinv, newerOnly_of h hinv [] rfl (.inr ?_)⟩
  intro r r' _ hr' hplain'
  obtain rfl := some.inj (((hheld myUserId).trans (if_pos rfl)).symm.trans hr')
  cases hplain'

theorem newerOnly_of_store_eq (h : t.store = s.store) : NewerOnly s t := by
  intro userId r r' hr hr' _ _
  have heq : held t userId = held s userId := by rw [held, held, h]
  obtain rfl := some.inj (hr.symm.trans (heq.symm.trans hr'))
  exact isStale_self r

theorem inv_queued (h : Inv myUserId s) (ht : step crewId myUserId s (.queued i) = some t) :
    Inv myUserId t ∧ NewerOnly s t := by
  simp only [step] at ht
  split at ht
  · rename_i u hu
    cases ht
    have hmem := mem_of_getElem? hu
    refine ⟨{ h with
      shown := ?_
      knownUpdates := fun v hv => ?_ }, newerOnly_of_store_eq rfl⟩
    · rcases h.shown with hshown | - | hshown
      · exact .inl hshown
      · exact .inr (.inl (by simpa using ne_nil_of_mem hmem))
      · exact .inr (.inr hshown)
    · rcases mem_or_eq_of_mem_set hv with hv | rfl
      · exact h.knownUpdates v hv
      · exact h.knownUpdates u hmem
  · cases ht

/-- The server accepts an update of this user; the updates that are not through are among those
from before, or it is the accepted one. -/
theorem Inv.accept (h : Inv myUserId s) {updates : List Update} (hown : row.row.userId = myUserId)
    (hticks : Ticks s row) (hupdates : ∀ u ∈ updates, u ∈ s.updates ∨ u.accepted = some row) :
    Inv myUserId { s with
      updates := updates
      echoes := s.echoes ++ [row]
      accepted := some row } :=
  { h with
    shown := .inr (.inr (by simp))
    knownReceived := fun x hx hxown => (h.knownReceived x hx hxown).of_ticks hticks
    knownEchoes := by
      intro x hx
      rcases mem_append.mp hx with hx | hx
      · exact (h.knownEchoes x hx).imp_right fun hknown => hknown.of_ticks hticks
      · obtain rfl := mem_singleton.mp hx
        exact ⟨hown, .self x⟩
    knownUpdates := by
      intro u hu x hx
      rcases hupdates u hu with hold | haccepted
      · exact (h.knownUpdates u hold x hx).imp_right fun hknown => hknown.of_ticks hticks
      · obtain rfl := some.inj (haccepted.symm.trans hx)
        exact ⟨hown, .self row⟩ }

/-- An update is through. -/
theorem Inv.erase (h : Inv myUserId s)
    (hshown : Confirmed myUserId s ∨ s.updates.eraseIdx i ≠ [] ∨ s.echoes ≠ []) :
    Inv myUserId { s with updates := s.updates.eraseIdx i } :=
  { h with
    shown := hshown
    knownUpdates := fun u hu => h.knownUpdates u (mem_of_mem_eraseIdx hu) }

theorem inv_answered (h : Inv myUserId s) (htimely : Timely myUserId s (.answered i))
    (ht : step crewId myUserId s (.answered i) = some t) : Inv myUserId t ∧ NewerOnly s t := by
  simp only [step] at ht
  split at ht
  · rename_i prevMine row hu
    cases ht
    obtain ⟨hown, hknown⟩ := h.knownUpdates _ (mem_of_getElem? hu) row rfl
    have hle := htimely _ row hu rfl
    have hheld : ∀ userId, statusOf userId (s.store.putServerStatus row.row).crewStatuses
        = if row.row.userId = userId then some row.row else held s userId :=
      fun userId => statusOf_putServerStatus s.store userId row
    have hnewest : newest myUserId (row :: s.received) = some row := by
      rw [← hown, newest_cons_self, hown]
      cases hn : newest myUserId s.received with
      | none => rfl
      | some n => rw [later, if_neg (not_lt.mpr (hle n hn))]
    set t : State := { s with
      store := s.store.putServerStatus row.row
      updates := s.updates.eraseIdx i
      received := row :: s.received }
    have hconfirmed : Confirmed myUserId t := by
      refine (hheld myUserId).trans ?_
      rw [if_pos hown, hnewest]
      rfl
    have hinv : Inv myUserId t :=
      { h with
        others := by
          intro userId hne
          have hother : row.row.userId ≠ userId := by rwa [hown, ne_comm]
          refine (hheld userId).trans ?_
          rw [if_neg hother, newest_cons_of_ne hother]
          exact h.others userId hne
        shown := .inl hconfirmed
        heard := by
          intro r hr _
          rw [hconfirmed, hnewest] at hr
          exact ⟨row, mem_cons_self, hown, some.inj hr⟩
        knownReceived := by
          intro x hx hxown
          rcases mem_cons.mp hx with rfl | hx
          · exact hknown
          · exact h.knownReceived x hx hxown
        knownUpdates := fun u hu => h.knownUpdates u (mem_of_mem_eraseIdx hu) }
    exact ⟨hinv, newerOnly_of h hinv [row] rfl (.inl hconfirmed)⟩
  · cases ht

theorem inv_rejected (hrows : Rows myUserId s) (h : Inv myUserId s) {message : String}
    (htimely : Timely myUserId s (.rejected i message))
    (ht : step crewId myUserId s (.rejected i message) = some t) :
    Inv myUserId t ∧ NewerOnly s t := by
  simp only [step] at ht
  split at ht
  · rename_i prevMine hu
    cases ht
    have hown := hrows.own _ (mem_of_getElem? hu)
    have hheld : ∀ userId,
        statusOf userId (s.store.rollBackStatus myUserId prevMine message).crewStatuses
          = if myUserId = userId then prevMine else held s userId :=
      fun userId => statusOf_rollBackStatus s.store userId myUserId message hown
    set t : State := { s with
      store := s.store.rollBackStatus myUserId prevMine message
      updates := s.updates.eraseIdx i }
    have hmine : held t myUserId = prevMine := (hheld myUserId).trans (if_pos rfl)
    have hinv : Inv myUserId t :=
      { h with
        others := by
          intro userId hne
          refine (hheld userId).trans ?_
          rw [if_neg (Ne.symm hne)]
          exact h.others userId hne
        shown := by
          rcases htimely _ hu with hnewest | ⟨-, hrest⟩
          · exact .inl (hmine.trans hnewest)
          · exact .inr hrest
        heard := by
          intro r hr hplain
          rw [hmine] at hr
          subst hr
          rcases htimely _ hu with hnewest | ⟨⟨r', hr', hopt⟩, -⟩
          · obtain ⟨n, hn, rfl⟩ := map_eq_some_iff.mp hnewest.symm
            obtain ⟨hmem, hnown⟩ := newest_mem hn
            exact ⟨n, hmem, hnown, rfl⟩
          · obtain rfl := some.inj hr'
            rw [hopt] at hplain
            cases hplain
        knownUpdates := fun u hu => h.knownUpdates u (mem_of_mem_eraseIdx hu) }
    refine ⟨hinv, newerOnly_of h hinv [] rfl ?_⟩
    rcases htimely _ hu with hnewest | ⟨⟨r', hr', hopt⟩, -⟩
    · exact .inl (hmine.trans hnewest)
    · refine .inr fun r r'' _ hr'' hplain => ?_
      rw [hmine] at hr''
      obtain rfl := some.inj (hr'.symm.trans hr'')
      rw [hopt] at hplain
      cases hplain
  · cases ht

theorem inv_echo (h : Inv myUserId s) (htimely : Timely myUserId s (.echo i))
    (ht : step crewId myUserId s (.echo i) = some t) : Inv myUserId t ∧ NewerOnly s t := by
  simp only [step] at ht
  split at ht
  · rename_i row hrow
    cases ht
    obtain ⟨hown, hknown⟩ := h.knownEchoes row (mem_of_getElem? hrow)
    have hheld : ∀ userId, statusOf userId (s.store.applyStatusUpdate row.row).crewStatuses
        = if row.row.userId = userId then some (afterEvent row (held s userId))
          else held s userId :=
      fun userId => statusOf_applyStatusUpdate s.store userId row
    set t : State := { s with
      store := s.store.applyStatusUpdate row.row
      echoes := s.echoes.eraseIdx i
      received := row :: s.received }
    have hmine : held t myUserId = some (afterEvent row (held s myUserId)) :=
      (hheld myUserId).trans (if_pos hown)
    have hnewest : newest myUserId (row :: s.received)
        = some (later row (newest myUserId s.received)) := by
      rw [← hown, newest_cons_self]
    have hinv : Inv myUserId t :=
      { h with
        others := by
          intro userId hne
          have hother : row.row.userId ≠ userId := by rwa [hown, ne_comm]
          refine (hheld userId).trans ?_
          rw [if_neg hother, newest_cons_of_ne hother]
          exact h.others userId hne
        shown := by
          rcases htimely with hconfirmed | hupdates | hechoes | hnext
          · refine .inl (hmine.trans ?_)
            rw [hnewest, hconfirmed]
            cases newest myUserId s.received with
            | none => rfl
            | some n => exact congrArg some (afterEvent_row row n)
          · exact .inr (.inl hupdates)
          · exact .inr (.inr hechoes)
          · obtain ⟨hle, hstale⟩ := hnext row hrow
            refine .inl (hmine.trans ?_)
            rw [hnewest]
            have hlater : later row (newest myUserId s.received) = row := by
              cases hn : newest myUserId s.received with
              | none => rfl
              | some n => rw [later, if_neg (not_lt.mpr (hle n hn))]
            have hafter : afterEvent row (held s myUserId) = row.row := by
              cases hr : held s myUserId with
              | none => rfl
              | some r => simp [afterEvent, hstale r hr]
            rw [hlater, hafter]
            rfl
        heard := by
          intro r hr hplain
          obtain rfl := some.inj (hmine.symm.trans hr)
          rcases afterEvent_eq_or row (held s myUserId) with heq | heq
          · exact ⟨row, mem_cons_self, hown, heq.symm⟩
          · obtain ⟨x, hx, hxown, hxrow⟩ := h.heard _ heq.symm hplain
            exact ⟨x, mem_cons_of_mem _ hx, hxown, hxrow⟩
        knownReceived := by
          intro x hx hxown
          rcases mem_cons.mp hx with rfl | hx
          · exact hknown
          · exact h.knownReceived x hx hxown
        knownEchoes := fun x hx => h.knownEchoes x (mem_of_mem_eraseIdx hx) }
    refine ⟨hinv, newerOnly_of h hinv [row] rfl (.inr ?_)⟩
    intro r r' hr hr' _
    obtain rfl := some.inj (hmine.symm.trans hr')
    rw [hr]
    exact isStale_afterEvent row r
  · cases ht

theorem inv_applyStatusUpdate (h : Inv myUserId s)
    (ht : step crewId myUserId s (.applyStatusUpdate row) = some t) :
    Inv myUserId t ∧ NewerOnly s t := by
  simp only [step, ite_none_right_eq_some] at ht
  obtain ⟨hother, ht⟩ := ht
  cases ht
  have hheld : ∀ userId, statusOf userId (s.store.applyStatusUpdate row.row).crewStatuses
      = if row.row.userId = userId then some (afterEvent row (held s userId))
        else held s userId :=
    fun userId => statusOf_applyStatusUpdate s.store userId row
  set t : State := { s with
    store := s.store.applyStatusUpdate row.row
    received := row :: s.received }
  have hmine : held t myUserId = held s myUserId := (hheld myUserId).trans (if_neg hother)
  have hinv : Inv myUserId t :=
    { h with
      others := by
        intro userId hne
        refine (hheld userId).trans ?_
        by_cases hrow : row.row.userId = userId
        · subst hrow
          rw [if_pos rfl, newest_cons_self, h.others _ hne]
          cases newest row.row.userId s.received with
          | none => rfl
          | some n => exact congrArg some (afterEvent_row row n)
        · rw [if_neg hrow, newest_cons_of_ne hrow]
          exact h.others userId hne
      shown := by
        rcases h.shown with hshown | hshown
        · refine .inl (hmine.trans ?_)
          rw [newest_cons_of_ne hother]
          exact hshown
        · exact .inr hshown
      heard := by
        intro r hr hplain
        rw [hmine] at hr
        obtain ⟨x, hx, hxown, hxrow⟩ := h.heard r hr hplain
        exact ⟨x, mem_cons_of_mem _ hx, hxown, hxrow⟩
      knownReceived := by
        intro x hx hxown
        rcases mem_cons.mp hx with rfl | hx
        · exact absurd hxown hother
        · exact h.knownReceived x hx hxown }
  refine ⟨hinv, newerOnly_of h hinv [row] rfl (.inr ?_)⟩
  intro r r' hr hr' _
  rw [hmine, hr] at hr'
  obtain rfl := some.inj hr'
  exact isStale_self r

theorem inv_loadStatuses (h : Inv myUserId s) {list : Listing}
    (htimely : Timely myUserId s (.loadStatuses list))
    (ht : step crewId myUserId s (.loadStatuses list) = some t) :
    Inv myUserId t ∧ NewerOnly s t := by
  simp only [step, ite_none_right_eq_some] at ht
  obtain ⟨hknown, ht⟩ := ht
  cases ht
  have hheld : ∀ userId,
      statusOf userId (s.store.loadStatuses (list.rows.map ServerStatus.row)).crewStatuses
        = (newest userId (list.rows ++ s.received)).map ServerStatus.row :=
    fun userId => statusOf_loadStatuses s.store userId list s.received (htimely userId)
  set t : State := { s with
    store := s.store.loadStatuses (list.rows.map ServerStatus.row)
    received := list.rows ++ s.received }
  have hconfirmed : Confirmed myUserId t := hheld myUserId
  have hinv : Inv myUserId t :=
    { h with
      others := fun userId _ => hheld userId
      shown := .inl hconfirmed
      heard := by
        intro r hr _
        rw [hconfirmed] at hr
        obtain ⟨n, hn, rfl⟩ := map_eq_some_iff.mp hr
        obtain ⟨hmem, hown⟩ := newest_mem hn
        exact ⟨n, hmem, hown, rfl⟩
      knownReceived := by
        intro x hx hown
        rcases mem_append.mp hx with hx | hx
        · exact hknown x hx hown
        · exact h.knownReceived x hx hown }
  exact ⟨hinv, newerOnly_of h hinv list.rows rfl (.inl hconfirmed)⟩

/-- A timely step keeps the invariant, and no row of the server gives way to an older one. -/
theorem inv_step (hrows : Rows myUserId s) (h : Inv myUserId s) (htimely : Timely myUserId s a)
    (ht : step crewId myUserId s a = some t) : Inv myUserId t ∧ NewerOnly s t := by
  cases a with
  | updateMyStatus request now => exact inv_updateMyStatus h ht
  | queued i => exact inv_queued h ht
  | accept i row =>
    simp only [step] at ht
    split at ht
    · simp only [ite_none_right_eq_some] at ht
      obtain ⟨⟨-, -, hown⟩, ht⟩ := ht
      cases ht
      refine ⟨h.accept hown htimely fun v hv => ?_, newerOnly_of_store_eq rfl⟩
      rcases mem_or_eq_of_mem_set hv with hv | rfl
      · exact .inl hv
      · exact .inr rfl
    · cases ht
  | answered i => exact inv_answered h htimely ht
  | rejected i message => exact inv_rejected hrows h htimely ht
  | replayed i row =>
    simp only [step] at ht
    split at ht
    · simp only [ite_none_right_eq_some] at ht
      obtain ⟨hown, ht⟩ := ht
      cases ht
      refine ⟨h.accept hown htimely fun v hv => ?_, newerOnly_of_store_eq rfl⟩
      exact .inl (mem_of_mem_eraseIdx hv)
    · cases ht
  | dropped i =>
    simp only [step] at ht
    split at ht
    · cases ht
      exact ⟨h.erase htimely, newerOnly_of_store_eq rfl⟩
    · cases ht
  | acceptElsewhere row =>
    simp only [step, ite_none_right_eq_some] at ht
    obtain ⟨hown, ht⟩ := ht
    cases ht
    exact ⟨h.accept hown htimely fun v hv => .inl hv, newerOnly_of_store_eq rfl⟩
  | echo i => exact inv_echo h htimely ht
  | applyStatusUpdate row => exact inv_applyStatusUpdate h ht
  | loadStatuses list => exact inv_loadStatuses h htimely ht

/-! ## Whole runs -/

/-- Does a status event come? -/
def Action.isEvent : Action → Bool
  | .echo _ | .applyStatusUpdate _ => true
  | _ => false

theorem notOlder_applyStatusUpdate (hstore : t.store = s.store.applyStatusUpdate x.row) :
    NotOlder s t := by
  intro userId r r' hr hr'
  rw [held, hstore, statusOf_applyStatusUpdate, ← held] at hr'
  split_ifs at hr'
  · obtain rfl := some.inj hr'
    rw [hr]
    exact isStale_afterEvent x r
  · obtain rfl := some.inj (hr.symm.trans hr')
    exact isStale_self r

/-- An event never brings back an older row, whatever came before. -/
theorem notOlder_event (hevent : a.isEvent = true) (ht : step crewId myUserId s a = some t) :
    NotOlder s t := by
  cases a with
  | echo i =>
    simp only [step] at ht
    split at ht
    · cases ht
      exact notOlder_applyStatusUpdate rfl
    · cases ht
  | applyStatusUpdate row =>
    simp only [step, ite_none_right_eq_some] at ht
    obtain ⟨-, ht⟩ := ht
    cases ht
    exact notOlder_applyStatusUpdate rfl
  | _ => cases hevent

theorem rows_start (store : Store) (accepted : Option ServerStatus) :
    Rows myUserId (start store accepted) :=
  { unique := nodup_nil
    own := by simp [start] }

theorem inv_start (store : Store) (accepted : Option ServerStatus) :
    Inv myUserId (start store accepted) :=
  { others := fun _ _ => rfl
    shown := .inl rfl
    heard := by
      intro r hr
      cases hr
    knownReceived := by simp [start]
    knownEchoes := by simp [start]
    knownUpdates := by simp [start] }

/-- The list always has one row a member, and no event brings back an older row.  In a run whose
steps are timely, no row of the server gives way to an older one, and the list has settled
whenever everything is delivered. -/
theorem settled_of_timely (crewId myUserId : String) (store : Store)
    (accepted : Option ServerStatus) (as : List Action) :
    Machine.Always (step crewId myUserId) OneEach (start store accepted) as ∧
      Machine.Each (step crewId myUserId) (fun s a t => a.isEvent = true → NotOlder s t)
        (start store accepted) as ∧
      (Machine.Meets (step crewId myUserId) (Timely myUserId) (start store accepted) as →
        Machine.Each (step crewId myUserId) (fun s _ t => NewerOnly s t)
            (start store accepted) as ∧
          Machine.Always (step crewId myUserId) (Settled myUserId) (start store accepted) as) := by
  have hrows : Rows myUserId (start store accepted) := rows_start store accepted
  have hinv : Inv myUserId (start store accepted) := inv_start store accepted
  refine ⟨?_, ?_, ?_⟩
  · exact Machine.always_of_step (fun s a t hI ht => rows_step hI ht) (fun s hI => hI.unique) hrows
  · exact Machine.each_of_step (fun s a t ht hevent => notOlder_event hevent ht) as _
  · intro htimely
    have hkeep : ∀ s a t, Rows myUserId s ∧ Inv myUserId s → Timely myUserId s a →
        step crewId myUserId s a = some t → Rows myUserId t ∧ Inv myUserId t :=
      fun s a t hI hC ht => ⟨rows_step hI.1 ht, (inv_step hI.1 hI.2 hC ht).1⟩
    refine ⟨Machine.each_of_meets hkeep (fun s a t hI hC ht => (inv_step hI.1 hI.2 hC ht).2)
      ⟨hrows, hinv⟩ htimely, ?_⟩
    refine Machine.always_iff_each.mpr ⟨hinv.settled, ?_⟩
    exact Machine.each_of_meets hkeep (fun s a t hI hC ht => (hkeep s a t hI hC ht).2.settled)
      ⟨hrows, hinv⟩ htimely

/-! ## Two runs -/

/-- The row of a member, as the server has it. -/
def rowAt (userId : String) (status : Status) (time : ℤ) : ServerStatus :=
  { row :=
      { crewId := "c1"
        userId := userId
        status := some status
        targetMeetingPointId := none
        etaMinutes := none
        note := none
        latitude := none
        longitude := none
        locationCapturedAt := none
        updatedAt := some time
        username := none
        name := none
        avatarKey := none
        avatarVersion := none
        optimistic := false }
    time := time
    dated := rfl
    confirmed := rfl }

def loadedList : Listing :=
  { rows := [rowAt "u" .onMyWay 5, rowAt "v" .delayed 6]
    unique := by decide }

def nowHere : UpdateCrewMemberStatusRequest :=
  { status := some .here
    targetMeetingPointId := none
    etaMinutes := none
    note := none
    position := none }

/-- An update is answered, and then its event and one of another member come. -/
def answeredRun : List Action :=
  [.loadStatuses loadedList,
    .updateMyStatus nowHere 10,
    .accept 0 (rowAt "u" .here 11),
    .answered 0,
    .applyStatusUpdate (rowAt "v" .here 12),
    .echo 0]

theorem answeredRun_settled :
    Machine.Each (step "c1" "u") (fun s _ t => NewerOnly s t)
        (start Store.initial (some (rowAt "u" .onMyWay 5))) answeredRun ∧
      Machine.Always (step "c1" "u") (Settled "u")
        (start Store.initial (some (rowAt "u" .onMyWay 5))) answeredRun := by
  refine (settled_of_timely "c1" "u" Store.initial (some (rowAt "u" .onMyWay 5)) answeredRun).2.2 ?_
  refine ⟨(fun _ _ h => nomatch h), trivial, ?_, ?_, trivial, .inl rfl, trivial⟩
  · rintro _ ⟨rfl⟩
    decide
  · rintro _ _ ⟨rfl⟩ ⟨rfl⟩ _ ⟨rfl⟩
    decide

/-- A rejected update gives way to the row from before. -/
theorem rejected_brings_back_older :
    ¬ Machine.Each (step "c1" "u") (fun s _ t => NotOlder s t)
      (start Store.initial (some (rowAt "u" .onMyWay 5)))
      [.loadStatuses loadedList, .updateMyStatus nowHere 10,
        .rejected 0 "Failed to update status"] := by
  rintro ⟨-, -, h, -⟩
  exact absurd (h "u" _ _ rfl rfl) (by decide)

end FestivalPlanner.MemberStatuses
