import FestivalPlanner.Auth.Sessions

/-!
# What a change of the password ends

`POST /change-password` updates the password, reads the sessions of the user, deletes those
it read, revokes the refresh tokens and creates a session of its own, while logins and
refreshes go on.

* `OldLoginsEnded` — once the change is done, every accepted token descends from a password
  verified after the update or from the change itself;
* `NoLateSession` — no request with an older credential creates its session after the change
  has read the sessions to delete;
* `oldLogins_ended` — under that condition the change ends every older login.
-/

namespace FestivalPlanner.Auth

open List

/-! ## What is accepted -/

/-- `validateUserSession`, as one piece. -/
def Db.validateUserSession (cfg : Config) (now : ℕ) (db : Db) (token : ℕ) : Option Session :=
  match db.selectSession token with
  | some x => if Db.sessionExpired cfg now x then none else some x
  | none => none

/-- `refreshTokens.validate`, as one piece. -/
def Db.validateRefreshToken (now : ℕ) (db : Db) (token : ℕ) : Option RefreshToken :=
  match db.selectRefreshToken token with
  | some r =>
      if Db.refreshRefused now r then none
      else match r.sessionToken with
        | some session => if (db.selectSession session).isSome then some r else none
        | none => some r
  | none => none

/-- Once the change is done, no token of the user that is accepted, at any time, descends
from a credential older than the new password. -/
def OldLoginsEnded (cfg : Config) (s : State) : Prop :=
  ∀ userId mark, s.change = .done userId mark →
    (∀ now token x, s.db.validateUserSession cfg now token = some x → x.userId = userId →
      mark ≤ x.root) ∧
    ∀ now token r, s.db.validateRefreshToken now token = some r → r.userId = userId → mark ≤ r.root

/-! ## The condition -/

/-- The change of this user's password has read the sessions to delete, and the credential
is older than it. -/
def Change.isLate (userId : String) (root : ℕ) : Change → Bool
  | .delete u mark _ | .revoke u mark | .create u mark | .done u mark =>
      decide (userId = u ∧ root < mark)
  | _ => false

/-- The action does not create a session for an older credential after the change has read
the sessions to delete. -/
def NoLateSession (s : State) (a : Action) : Prop :=
  match a with
  | .run i _ =>
      match s.tasks[i]?.bind Task.creates with
      | some (userId, root) => s.change.isLate userId root = false
      | none => True
  | _ => True

instance (s : State) (a : Action) : Decidable (NoLateSession s a) :=
  match a with
  | .run i _ =>
      match h : s.tasks[i]?.bind Task.creates with
      | some (userId, root) =>
          decidable_of_iff (s.change.isLate userId root = false) (by simp [NoLateSession, h])
      | none => .isTrue (by simp [NoLateSession, h])
  | .request _ | .changePassword _ _ _ | .runChange _ => .isTrue trivial

/-! ## The invariant -/

/-- No session of the user is older than the mark. -/
def NoOldSession (db : Db) (userId : String) (mark : ℕ) : Prop :=
  ∀ x ∈ db.sessions, x.userId = userId → mark ≤ x.root

/-- The session is gone, and its token is not taken again. -/
def Gone (db : Db) (session : ℕ) : Prop :=
  session < db.nextToken ∧ ∀ x ∈ db.sessions, x.token ≠ session

/-- The older refresh tokens of the user are revoked or linked to a session that is gone. -/
def OldRefreshDead (db : Db) (userId : String) (mark : ℕ) : Prop :=
  ∀ r ∈ db.refreshTokens, r.userId = userId → r.root < mark → r.revoked = false →
    ∃ session, r.sessionToken = some session ∧ Gone db session

/-- What the change has ended so far. -/
def Ending (s : State) : Prop :=
  match s.change with
  | .delete u mark tokens => ∀ x ∈ s.db.sessions, x.userId = u → x.root < mark → x.token ∈ tokens
  | .revoke u mark => NoOldSession s.db u mark
  | .create u mark | .done u mark => NoOldSession s.db u mark ∧ OldRefreshDead s.db u mark
  | _ => True

variable {db db' : Db} {created : Option (String × ℕ)} {issued : Option (String × ℕ × ℕ)}
  {userId : String} {cfg : Config} {s : State}

theorem Gone.of_grows {session : ℕ} (h : Gone db session) (hg : Grows db db' created issued) :
    Gone db' session := by
  refine ⟨lt_of_lt_of_le h.1 hg.nextToken_le, fun x hx htoken => ?_⟩
  rcases hg.sessions x hx with ⟨y, hy, hty, -, -⟩ | ⟨hnew, -, -⟩
  · exact h.2 y hy (hty.trans htoken)
  · have := h.1
    omega

theorem NoOldSession.of_grows {mark : ℕ} (h : NoOldSession db userId mark)
    (hg : Grows db db' created issued)
    (hcreated : ∀ u root, created = some (u, root) → u = userId → mark ≤ root) :
    NoOldSession db' userId mark := by
  intro x hx huser
  rcases hg.sessions x hx with ⟨y, hy, -, huy, hry⟩ | ⟨-, -, hcr⟩
  · exact hry ▸ h y hy (huy.trans huser)
  · exact hcreated _ _ hcr huser

/-- Dead refresh tokens stay dead, and one that is issued for a session that no longer
exists is dead. -/
theorem OldRefreshDead.of_grows {mark : ℕ} (h : OldRefreshDead db userId mark)
    (hg : Grows db db' created issued)
    (hissued : ∀ u root session, issued = some (u, root, session) → u = userId → root < mark →
      Gone db session) : OldRefreshDead db' userId mark := by
  intro r hr huser hroot hrevoked
  rcases hg.refreshTokens r hr with
    ⟨q, hq, -, huq, hrq, hsq, hrev, -⟩ | ⟨-, -, -, session, hsession, hiss⟩
  · have hlive : q.revoked = false := by
      cases hcase : q.revoked with
      | false => rfl
      | true =>
        rw [hrev hcase] at hrevoked
        cases hrevoked
    obtain ⟨session, hsession, hgone⟩ := h q hq (huq.trans huser) (hrq ▸ hroot) hlive
    exact ⟨session, hsq ▸ hsession, hgone.of_grows hg⟩
  · exact ⟨session, hsession, (hissued _ _ _ hiss huser hroot).of_grows hg⟩

theorem holds_of_issues {task : Task} {issued : String × ℕ × ℕ} (h : task.issues = some issued) :
    task.holds = some issued := by
  cases task <;> first | exact h | cases h

/-! ## Every step -/

/-- A statement of a request leaves alone what the change has ended, if it creates no late
session. -/
theorem ending_run {i now : ℕ} {task next : Task} (hc : Consistent s) (he : Ending s)
    (hlate : NoLateSession s (.run i now)) (htask : s.tasks[i]? = some task)
    (hrun : runTask cfg now s.db task = some (db, next)) :
    Ending { s with db := db, tasks := s.tasks.set i next } := by
  have hgrows := runTask_grows hrun
  have hmem : task ∈ s.tasks := mem_of_getElem? htask
  have hcreates : ∀ u root, task.creates = some (u, root) → s.change.isLate u root = false := by
    intro u root hcr
    simpa [NoLateSession, htask, hcr] using hlate
  -- a refresh token issued for an older credential belongs to a session that was deleted
  have hissues : ∀ u mark, NoOldSession s.db u mark → ∀ v root session,
      task.issues = some (v, root, session) → v = u → root < mark → Gone s.db session := by
    intro u mark hno v root session hiss hv hroot
    obtain ⟨hlt, hrows⟩ := hc.holds task hmem _ _ _ (holds_of_issues hiss)
    refine ⟨hlt, fun x hx htoken => ?_⟩
    obtain ⟨huser, hr⟩ := hrows x hx htoken
    have := hno x hx (huser.trans hv)
    omega
  unfold Ending at he ⊢
  cases hchange : s.change with
  | delete u mark tokens =>
    simp only [hchange] at he ⊢
    intro x hx huser hroot
    rcases hgrows.sessions x hx with ⟨y, hy, hty, huy, hry⟩ | ⟨-, -, hcr⟩
    · exact hty ▸ he y hy (huy.trans huser) (hry ▸ hroot)
    · have := hcreates _ _ hcr
      simp [hchange, Change.isLate, huser, hroot] at this
  | revoke u mark =>
    simp only [hchange] at he ⊢
    refine he.of_grows hgrows fun v root hcr hv => ?_
    have := hcreates _ _ hcr
    simpa [hchange, Change.isLate, hv] using this
  | create u mark =>
    simp only [hchange] at he ⊢
    refine ⟨he.1.of_grows hgrows fun v root hcr hv => ?_,
      he.2.of_grows hgrows (hissues u mark he.1)⟩
    have := hcreates _ _ hcr
    simpa [hchange, Change.isLate, hv] using this
  | done u mark =>
    simp only [hchange] at he ⊢
    refine ⟨he.1.of_grows hgrows fun v root hcr hv => ?_,
      he.2.of_grows hgrows (hissues u mark he.1)⟩
    have := hcreates _ _ hcr
    simpa [hchange, Change.isLate, hv] using this
  | _ => trivial

theorem mem_userSessions {x : Session} (hx : x ∈ db.sessions) (huser : x.userId = userId) :
    x.token ∈ db.userSessions userId := by
  unfold Db.userSessions
  apply mem_map_of_mem
  rw [mem_insertionSort, mem_filter]
  exact ⟨hx, by simpa using huser⟩

/-- Each statement of the change ends what it is there to end. -/
theorem ending_runChange {now : ℕ} {next : Change} (he : Ending s)
    (hrun : runChange cfg now s.db s.change = some (db, next)) :
    Ending { s with db := db, change := next } := by
  have hgrows := runChange_grows hrun
  unfold Ending at he
  cases hchange : s.change with
  | list u mark =>
    rw [hchange] at hrun
    cases hrun
    exact fun x hx huser _ => mem_userSessions hx huser
  | delete u mark tokens =>
    simp only [hchange] at he
    rw [hchange] at hrun
    cases hrun
    intro x hx huser
    obtain ⟨hx, hdeleted⟩ := mem_filter.mp hx
    by_contra hold
    exact of_decide_eq_true hdeleted (he x hx huser (not_le.mp hold))
  | revoke u mark =>
    simp only [hchange] at he
    rw [hchange] at hrun
    cases hrun
    refine ⟨he, fun r hr huser _ hlive => ?_⟩
    obtain ⟨q, -, rfl⟩ := mem_map.mp hr
    by_cases hcase : q.userId = u ∧ q.revoked = false
    · rw [if_pos hcase] at hlive
      cases hlive
    · rw [if_neg hcase] at huser hlive
      exact absurd ⟨huser, hlive⟩ hcase
  | create u mark =>
    simp only [hchange] at he
    rw [hchange] at hrun hgrows
    cases hrun
    refine ⟨he.1.of_grows hgrows fun v root hcr _ => ?_,
      he.2.of_grows hgrows fun v root session hiss => ?_⟩
    · cases hcr
      exact le_rfl
    · cases hiss
  | auth token currentPassword newPassword =>
    rw [hchange] at hrun
    simp only [runChange] at hrun
    repeat' split at hrun
    all_goals
      cases hrun
      trivial
  | verify userId currentPassword newPassword =>
    rw [hchange] at hrun
    simp only [runChange] at hrun
    repeat' split at hrun
    all_goals
      cases hrun
      trivial
  | _ =>
    rw [hchange] at hrun
    cases hrun
    try trivial

/-- What holds throughout a run whose steps create no late session. -/
theorem ending_step {t : State} {a : Action} (hI : Consistent s ∧ Ending s)
    (hlate : NoLateSession s a) (h : step cfg s a = some t) : Consistent t ∧ Ending t := by
  refine ⟨consistent_step hI.1 h, ?_⟩
  cases a with
  | request task =>
    obtain ⟨-, rfl⟩ := step_request h
    exact hI.2
  | run i now =>
    obtain ⟨task, db, next, htask, hrun, rfl⟩ := step_run h
    exact ending_run hI.1 hI.2 hlate htask hrun
  | changePassword token currentPassword newPassword =>
    obtain ⟨-, rfl⟩ := step_changePassword h
    trivial
  | runChange now =>
    obtain ⟨db, next, hrun, rfl⟩ := step_runChange h
    exact ending_runChange hI.2 hrun

/-! ## Every run -/

/-- A change that has ended the older logins has ended their tokens. -/
theorem oldLoginsEnded_of_ending (h : Ending s) : OldLoginsEnded cfg s := by
  intro userId mark hdone
  unfold Ending at h
  rw [hdone] at h
  obtain ⟨hno, hdead⟩ := h
  constructor
  · intro now token x hx huser
    unfold Db.validateUserSession at hx
    split at hx
    · rename_i y hy
      split at hx
      · cases hx
      · cases hx
        exact hno x (mem_of_find?_eq_some hy) huser
    · cases hx
  · intro now token r hr huser
    by_contra hold
    unfold Db.validateRefreshToken at hr
    split at hr
    · rename_i q hq
      split at hr
      · cases hr
      · rename_i hrefused
        have hlive : q.revoked = false := by
          simp only [Db.refreshRefused, Bool.or_eq_true, not_or, Bool.not_eq_true] at hrefused
          exact hrefused.1
        have hrow := mem_of_find?_eq_some hq
        cases hlink : q.sessionToken with
        | none =>
          simp only [hlink] at hr
          cases hr
          obtain ⟨session, hsession, -⟩ := hdead r hrow huser (not_le.mp hold) hlive
          rw [hlink] at hsession
          cases hsession
        | some linked =>
          simp only [hlink, Option.ite_none_right_eq_some, Option.some.injEq] at hr
          obtain ⟨hexists, rfl⟩ := hr
          obtain ⟨session, hsession, -, hgone⟩ := hdead q hrow huser (not_le.mp hold) hlive
          obtain rfl := Option.some.inj (hlink.symm.trans hsession)
          obtain ⟨x, hx⟩ := Option.isSome_iff_exists.mp hexists
          exact hgone x (mem_of_find?_eq_some hx) (by simpa using find?_some hx)
    · cases hr

/-- **Changing the password ends every older login**, in every run of logins, refreshes and
one change from any tables, in which no request with an older credential creates its session
after the change has read the sessions to delete. -/
theorem oldLogins_ended {cfg : Config} {db : Db} (hdb : db.Started) {as : List Action} {s : State}
    (hrun : Machine.run (step cfg) { db := db, tasks := [], change := .idle } as = some s)
    (hlate : Machine.Meets (step cfg) NoLateSession { db := db, tasks := [], change := .idle } as) :
    OldLoginsEnded cfg s := by
  have hinv : Consistent s ∧ Ending s :=
    Machine.inv_run_of_meets (fun s a t hI hC h => ending_step hI hC h) ⟨hdb, trivial⟩ hlate hrun
  exact oldLoginsEnded_of_ending hinv.2

/-- A login, a change of the password from its session, and an exchange of its refresh
token, which is refused. -/
def changeRun : List Action :=
  loginRun ++ .changePassword 0 "old" "new" :: List.replicate 7 (.runChange 0) ++
    [.request (.exchange 1), .run 1 0, .run 1 0]

theorem oldLogins_ended_changeRun :
    ∃ s, Machine.run (step longLived) { db := oneUser, tasks := [], change := .idle } changeRun =
      some s ∧ s.change = .done "ana" 1 ∧ s.tasks = [.finished, .finished] ∧
      OldLoginsEnded longLived s := by
  obtain ⟨s, hs, hdone, htasks⟩ : ∃ s ∈ Machine.run (step longLived)
      { db := oneUser, tasks := [], change := .idle } changeRun,
      s.change = .done "ana" 1 ∧ s.tasks = [.finished, .finished] := by decide
  exact ⟨s, hs, hdone, htasks, oldLogins_ended oneUser_started hs (by decide)⟩

/-- An exchange validates the refresh token, the change reads and deletes the sessions, and
then the exchange creates its session and inserts its refresh token: both are accepted after
the change is done. -/
def lateExchangeRun : List Action :=
  loginRun ++ .request (.exchange 1) :: List.replicate 3 (.run 1 0) ++
    .changePassword 0 "old" "new" :: List.replicate 6 (.runChange 0) ++
    List.replicate 3 (.run 1 0) ++ [.runChange 0]

theorem old_login_survives_change :
    ∃ s, Machine.run (step longLived) { db := oneUser, tasks := [], change := .idle }
      lateExchangeRun = some s ∧ s.change = .done "ana" 1 ∧
      (s.db.validateUserSession longLived 0 2).map (·.root) = some 0 ∧
      (s.db.validateRefreshToken 0 3).map (·.root) = some 0 ∧ ¬ OldLoginsEnded longLived s := by
  obtain ⟨s, hs, hdone, hsession, hrefresh⟩ : ∃ s ∈ Machine.run (step longLived)
      { db := oneUser, tasks := [], change := .idle } lateExchangeRun, s.change = .done "ana" 1 ∧
      s.db.validateUserSession longLived 0 2 = some ⟨2, "ana", 0, 0, 0⟩ ∧
      s.db.validateRefreshToken 0 3 = some ⟨3, "ana", some 2, 1000000, false, none, 0⟩ := by
    decide
  refine ⟨s, hs, hdone, by rw [hsession]; rfl, by rw [hrefresh]; rfl, fun hended => ?_⟩
  exact absurd ((hended "ana" 1 hdone).1 0 2 _ hsession rfl) (by decide)

end FestivalPlanner.Auth
