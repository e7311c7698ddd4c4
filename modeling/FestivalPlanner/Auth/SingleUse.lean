import FestivalPlanner.Auth.Sessions

/-!
# Refresh tokens are used once

`POST /refresh-token` validates the token it was given, creates a session and rotates: the
rotation reads the old row again, marks it and inserts the new token, whether or not another
request has marked the row in between.

* `SingleUse`, `SingleChain` — one request at most obtains a token for a token, and one
  token at most of each login is live;
* `RotatesOnce` — a rotation finds its row there and not rotated yet;
* `refreshTokens_singleUse` — under that condition both hold in every run.
-/

namespace FestivalPlanner.Auth

open List

/-! ## The property and the condition -/

/-- At most one request has obtained a new refresh token for each one presented. -/
def SingleUse (s : State) : Prop :=
  ∀ (i j : ℕ) (token fresh fresh' : ℕ), s.tasks[i]? = some (.exchanged token fresh) →
    s.tasks[j]? = some (.exchanged token fresh') → i = j

/-- The refresh tokens that descend from one login are a chain: at most its last is live. -/
def SingleChain (db : Db) : Prop :=
  ∀ r ∈ db.refreshTokens, ∀ q ∈ db.refreshTokens, r.revoked = false → q.revoked = false →
    r.root = q.root → r.token = q.token

/-- A rotation meets the row of its old token, and nobody has rotated it before. -/
def RotatesOnce (s : State) (a : Action) : Prop :=
  match a with
  | .run i _ =>
      match s.tasks[i]? with
      | some (.exchangeRotate token _ _ _) =>
          ∃ r ∈ s.db.refreshTokens, r.token = token ∧ r.rotatedAt = none
      | _ => True
  | _ => True

instance (s : State) (a : Action) : Decidable (RotatesOnce s a) := by
  unfold RotatesOnce
  split
  · split <;> infer_instance
  · infer_instance

/-! ## The invariant -/

/-- The credential of a login whose refresh token is not issued yet. -/
def Task.opens : Task → Option ℕ
  | .loginCreate _ root | .loginIssue _ root _ => some root
  | _ => none

/-- Rotated rows are revoked, and the others descend from different logins. -/
structure Db.Chains (db : Db) : Prop where
  revoked : ∀ r ∈ db.refreshTokens, r.rotatedAt ≠ none → r.revoked = true
  single : ∀ r ∈ db.refreshTokens, ∀ q ∈ db.refreshTokens, r.rotatedAt = none →
    q.rotatedAt = none → r.root = q.root → r.token = q.token
  root_lt : ∀ r ∈ db.refreshTokens, r.root < db.nextRoot

/-- The tables, the requests that have exchanged a token and those that will issue one. -/
structure Chained (s : State) : Prop where
  chains : s.db.Chains
  used : ∀ token fresh, .exchanged token fresh ∈ s.tasks → token < s.db.nextToken ∧
    ∀ r ∈ s.db.refreshTokens, r.token = token → r.rotatedAt ≠ none
  once : SingleUse s
  opens_lt : ∀ task ∈ s.tasks, ∀ root, task.opens = some root → root < s.db.nextRoot
  opens_new : ∀ task ∈ s.tasks, ∀ root, task.opens = some root →
    ∀ r ∈ s.db.refreshTokens, r.root ≠ root
  opens_once : ∀ (i j : ℕ) (task other : Task) (root : ℕ), s.tasks[i]? = some task → s.tasks[j]? = some other →
    task.opens = some root → other.opens = some root → i = j

variable {db db' : Db} {cfg : Config} {now root session : ℕ} {task next : Task} {userId : String}
  {s : State}

/-- Chains stay chains when the tables grow by a token whose login has no live one. -/
theorem Db.Chains.of_grows {created : Option (String × ℕ)} {issued : Option (String × ℕ × ℕ)}
    (h : db.Chains) (hg : Grows db db' created issued)
    (hlt : ∀ r ∈ db.refreshTokens, r.token < db.nextToken)
    (hissued : ∀ u root session, issued = some (u, root, session) → root < db'.nextRoot ∧
      ∀ r ∈ db'.refreshTokens, r.token ≠ db.nextToken → r.rotatedAt = none → r.root ≠ root) :
    db'.Chains where
  revoked := by
    intro r hr hrotated
    rcases hg.refreshTokens r hr with ⟨q, hq, -, -, -, -, hrev, -, hback⟩ | ⟨-, -, hnone, -⟩
    · rcases hback hrotated with hbefore | hnow
      · exact hrev (h.revoked q hq hbefore)
      · exact hnow
    · exact absurd hnone hrotated
  single := by
    intro r hr q hq hnr hnq hroot
    rcases hg.refreshTokens r hr with ⟨r', hr', htr, -, hrr, -, -, hkr, -⟩ | ⟨htr, -, -, _, -, hir⟩ <;>
      rcases hg.refreshTokens q hq with ⟨q', hq', htq, -, hrq, -, -, hkq, -⟩ | ⟨htq, -, -, _, -, hiq⟩
    · rw [← htr, ← htq]
      exact h.single r' hr' q' hq' (by_contra fun hc => hkr hc hnr)
        (by_contra fun hc => hkq hc hnq) (by rw [hrr, hrq, hroot])
    · have hne : r.token ≠ db.nextToken := (htr ▸ hlt r' hr').ne
      exact absurd hroot ((hissued _ _ _ hiq).2 r hr hne hnr)
    · have hne : q.token ≠ db.nextToken := (htq ▸ hlt q' hq').ne
      exact absurd hroot.symm ((hissued _ _ _ hir).2 q hq hne hnq)
    · rw [htr, htq]
  root_lt := by
    intro r hr
    rcases hg.refreshTokens r hr with ⟨q, hq, -, -, hrq, -⟩ | ⟨-, -, -, _, -, hir⟩
    · exact hrq ▸ lt_of_lt_of_le (h.root_lt q hq) hg.nextRoot_le
    · exact (hissued _ _ _ hir).1

/-! ## What the statements do -/

/-- Only a rotation obtains a token. -/
theorem runTask_exchanged {token fresh : ℕ}
    (h : runTask cfg now db task = some (db', .exchanged token fresh)) :
    ∃ userId root session, task = .exchangeRotate token userId root session ∧
      db' = db.rotate cfg now token userId session root := by
  cases task with
  | exchangeRotate token userId root session =>
    cases h
    exact ⟨userId, root, session, rfl, rfl⟩
  | _ =>
    simp only [runTask] at h
    repeat' split at h
    all_goals cases h

/-- A request that will issue a token has just taken its credential or did so before, and it
has not issued one by this statement. -/
theorem runTask_opens (h : runTask cfg now db task = some (db', next))
    (hopens : next.opens = some root) :
    task.issues = none ∧ (task.opens = some root ∨ root = db.nextRoot ∧ root < db'.nextRoot) := by
  cases task with
  | login userId password =>
    simp only [runTask] at h
    repeat' split at h
    · cases h
      cases hopens
      exact ⟨rfl, .inr ⟨rfl, Nat.lt_succ_self _⟩⟩
    · cases h
      cases hopens
    · cases h
      cases hopens
  | loginCreate userId root =>
    cases h
    cases hopens
    exact ⟨rfl, .inl rfl⟩
  | _ =>
    simp only [runTask] at h
    repeat' split at h
    all_goals
      cases h
      try cases hopens

/-- A statement that issues a token belongs to a login or is a rotation. -/
theorem issues_cases (h : task.issues = some (userId, root, session)) :
    task.opens = some root ∨ ∃ token, task = .exchangeRotate token userId root session := by
  cases task with
  | loginIssue userId root session =>
    cases h
    exact .inl rfl
  | exchangeRotate token userId root session =>
    cases h
    exact .inr ⟨token, rfl⟩
  | _ => cases h

variable {oldToken i j : ℕ} {r : RefreshToken} {l : List Task}

/-- The other rows of a rotated table, unless rotated, are those of other tokens. -/
theorem rotate_unrotated (hr : r ∈ (db.rotate cfg now oldToken userId session root).refreshTokens)
    (hne : r.token ≠ db.nextToken) (hnone : r.rotatedAt = none) :
    r ∈ db.refreshTokens ∧ r.token ≠ oldToken := by
  rcases mem_append.mp hr with hr | hr
  · obtain ⟨q, hq, rfl⟩ := mem_map.mp hr
    by_cases hold : q.token = oldToken
    · simp [hold] at hnone
    · rw [if_neg hold]
      exact ⟨hq, hold⟩
  · rw [mem_singleton.mp hr] at hne
    exact absurd rfl hne

/-- After a rotation every row of the old token is rotated. -/
theorem rotate_rotated (hlt : oldToken < db.nextToken)
    (hr : r ∈ (db.rotate cfg now oldToken userId session root).refreshTokens)
    (hold : r.token = oldToken) : r.rotatedAt ≠ none := by
  intro hnone
  exact (rotate_unrotated hr (by omega) hnone).2 hold

/-- A place of a list with one element set is that place or another. -/
theorem getElem?_set_cases (h : (l.set i next)[j]? = some task) :
    j = i ∧ task = next ∨ j ≠ i ∧ l[j]? = some task := by
  by_cases hij : i = j
  · subst hij
    rw [getElem?_set_self'] at h
    obtain ⟨-, -, rfl⟩ := Option.map_eq_some_iff.mp h
    exact .inl ⟨rfl, rfl⟩
  · rw [getElem?_set_ne hij] at h
    exact .inr ⟨Ne.symm hij, h⟩

/-! ## Every step -/

theorem chained_run (hc : Consistent s) (hs : Chained s) (honce : RotatesOnce s (.run i now))
    (htask : s.tasks[i]? = some task) (hrun : runTask cfg now s.db task = some (db, next)) :
    Chained { s with db := db, tasks := s.tasks.set i next } := by
  have hgrows := runTask_grows hrun
  have hmem : task ∈ s.tasks := mem_of_getElem? htask
  have hrotates : ∀ token userId root session, task = .exchangeRotate token userId root session →
      token < s.db.nextToken ∧
        ∃ r ∈ s.db.refreshTokens, r.token = token ∧ r.rotatedAt = none ∧ r.root = root := by
    rintro token userId root session rfl
    obtain ⟨r, hr, htoken, hnone⟩ : ∃ r ∈ s.db.refreshTokens, r.token = token ∧
        r.rotatedAt = none := by
      simpa [RotatesOnce, htask] using honce
    obtain ⟨hlt, hrows⟩ := hc.presents _ hmem token userId root rfl
    exact ⟨hlt, r, hr, htoken, hnone, (hrows r hr htoken).2⟩
  -- the credential of an issued token is not that of another login that will issue one
  have hissued_new : ∀ userId root session, task.issues = some (userId, root, session) →
      ∀ j other, j ≠ i → s.tasks[j]? = some other → other.opens ≠ some root := by
    intro userId root session hissues j other hne hother hopens
    rcases issues_cases hissues with hlogin | ⟨token, hrotate⟩
    · exact hne (hs.opens_once j i other task root hother htask hopens hlogin)
    · obtain ⟨-, r, hr, -, -, hroot⟩ := hrotates _ _ _ _ hrotate
      exact hs.opens_new other (mem_of_getElem? hother) root hopens r hr hroot
  refine
    { chains := hs.chains.of_grows hgrows hc.refresh_lt ?_
      used := ?_
      once := ?_
      opens_lt := ?_
      opens_new := ?_
      opens_once := ?_ }
  · intro userId root session hissues
    rcases issues_cases hissues with hlogin | ⟨token, rfl⟩
    · refine ⟨lt_of_lt_of_le (hs.opens_lt task hmem root hlogin) hgrows.nextRoot_le, ?_⟩
      intro r hr hne _
      rcases hgrows.refreshTokens r hr with ⟨q, hq, -, -, hroot, -⟩ | ⟨hnew, -⟩
      · exact hroot ▸ hs.opens_new task hmem root hlogin q hq
      · exact absurd hnew hne
    · cases hrun
      obtain ⟨-, old, hold, htoken, hnone, hroot⟩ := hrotates _ _ _ _ rfl
      refine ⟨hroot ▸ hs.chains.root_lt old hold, fun r hr hne hunrotated heq => ?_⟩
      obtain ⟨hr, hother⟩ := rotate_unrotated hr hne hunrotated
      have := hs.chains.single r hr old hold hunrotated hnone (heq.trans hroot.symm)
      exact hother (this.trans htoken)
  · intro token fresh hexchanged
    rcases mem_or_eq_of_mem_set hexchanged with hbefore | rfl
    · obtain ⟨hlt, hrotated⟩ := hs.used token fresh hbefore
      refine ⟨lt_of_lt_of_le hlt hgrows.nextToken_le, fun r hr htoken => ?_⟩
      rcases hgrows.refreshTokens r hr with ⟨q, hq, htq, -, -, -, -, hkeep, -⟩ | ⟨hnew, -⟩
      · exact hkeep (hrotated q hq (htq.trans htoken))
      · omega
    · obtain ⟨userId, root, session, rfl, rfl⟩ := runTask_exchanged hrun
      obtain ⟨hlt, -⟩ := hrotates _ _ _ _ rfl
      exact ⟨lt_of_lt_of_le hlt hgrows.nextToken_le, fun r hr htoken => rotate_rotated hlt hr htoken⟩
  · -- whoever exchanged the token before has rotated its row
    have hfirst : ∀ (j token fresh fresh' : ℕ), next = .exchanged token fresh →
        s.tasks[j]? ≠ some (.exchanged token fresh') := by
      rintro j token fresh fresh' rfl hbefore
      obtain ⟨userId, root, session, rfl, -⟩ := runTask_exchanged hrun
      obtain ⟨-, r, hr, htoken, hnone, -⟩ := hrotates _ _ _ _ rfl
      exact (hs.used token fresh' (mem_of_getElem? hbefore)).2 r hr htoken hnone
    intro j k token fresh fresh' hj hk
    rcases getElem?_set_cases hj with ⟨rfl, hjnew⟩ | ⟨-, hjold⟩ <;>
      rcases getElem?_set_cases hk with ⟨rfl, hknew⟩ | ⟨-, hkold⟩
    · rfl
    · exact absurd hkold (hfirst k token fresh fresh' hjnew.symm)
    · exact absurd hjold (hfirst j token fresh' fresh hknew.symm)
    · exact hs.once j k token fresh fresh' hjold hkold
  · intro other hother root hopens
    rcases mem_or_eq_of_mem_set hother with hother | rfl
    · exact lt_of_lt_of_le (hs.opens_lt other hother root hopens) hgrows.nextRoot_le
    · rcases (runTask_opens hrun hopens).2 with hbefore | ⟨-, hlt⟩
      · exact lt_of_lt_of_le (hs.opens_lt task hmem root hbefore) hgrows.nextRoot_le
      · exact hlt
  · intro other hother root hopens r hr
    obtain ⟨j, hj⟩ := mem_iff_getElem?.mp hother
    rcases getElem?_set_cases hj with ⟨rfl, rfl⟩ | ⟨hne, hj⟩
    · obtain ⟨hissues, hcase⟩ := runTask_opens hrun hopens
      rcases hgrows.refreshTokens r hr with ⟨q, hq, -, -, hroot, -⟩ | ⟨-, -, -, _, -, hissue⟩
      · rw [← hroot]
        rcases hcase with hbefore | ⟨rfl, -⟩
        · exact hs.opens_new task hmem root hbefore q hq
        · exact (hs.chains.root_lt q hq).ne
      · rw [hissues] at hissue
        cases hissue
    · rcases hgrows.refreshTokens r hr with ⟨q, hq, -, -, hroot, -⟩ | ⟨-, -, -, _, -, hissue⟩
      · exact hroot ▸ hs.opens_new other (mem_of_getElem? hj) root hopens q hq
      · exact fun heq => hissued_new _ _ _ hissue j other hne hj (heq ▸ hopens)
  · -- a credential that was just taken is nobody's
    have hfresh : ∀ (j : ℕ) (other : Task) (root : ℕ), j ≠ i → next.opens = some root →
        s.tasks[j]? = some other → other.opens ≠ some root := by
      intro j other root hne hopens hother hothers
      rcases (runTask_opens hrun hopens).2 with hbefore | ⟨rfl, -⟩
      · exact hne (hs.opens_once j i other task root hother htask hothers hbefore)
      · exact (hs.opens_lt other (mem_of_getElem? hother) _ hothers).false
    intro j k one other root hj hk hone hother
    rcases getElem?_set_cases hj with ⟨rfl, rfl⟩ | ⟨hjne, hjold⟩ <;>
      rcases getElem?_set_cases hk with ⟨rfl, rfl⟩ | ⟨hkne, hkold⟩
    · rfl
    · exact absurd hother (hfresh k other root hkne hone hkold)
    · exact absurd hone (hfresh j one root hjne hother hjold)
    · exact hs.opens_once j k one other root hjold hkold hone hother

theorem opens_of_isRequest (h : task.isRequest = true) :
    task.opens = none ∧ ∀ token fresh, task ≠ .exchanged token fresh := by
  cases task <;> first | (cases h; done) | exact ⟨rfl, fun _ _ hc => by cases hc⟩

theorem getElem?_append_cases {last : Task} (h : (l ++ [last])[j]? = some task) :
    task = last ∨ l[j]? = some task := by
  rcases Nat.lt_or_ge j l.length with hj | hj
  · rw [getElem?_append_left hj] at h
    exact .inr h
  · rw [getElem?_append_right hj] at h
    exact .inl (mem_singleton.mp (mem_of_getElem? h))

/-- A request that arrives has exchanged nothing and opens nothing. -/
theorem chained_request (hs : Chained s) (hrequest : task.isRequest = true) :
    Chained { s with tasks := s.tasks ++ [task] } := by
  obtain ⟨hopens, hexchanged⟩ := opens_of_isRequest hrequest
  have hold : ∀ other ∈ s.tasks ++ [task], ∀ root, other.opens = some root →
      other ∈ s.tasks := by
    intro other hother root ho
    rcases mem_append.mp hother with hmem | hmem
    · exact hmem
    · rw [mem_singleton.mp hmem, hopens] at ho
      cases ho
  refine
    { chains := hs.chains
      used := ?_
      once := ?_
      opens_lt := fun other hother root ho => hs.opens_lt other (hold other hother root ho) root ho
      opens_new := fun other hother root ho =>
        hs.opens_new other (hold other hother root ho) root ho
      opens_once := ?_ }
  · intro token fresh hmem
    rcases mem_append.mp hmem with hmem | hmem
    · exact hs.used token fresh hmem
    · exact absurd (mem_singleton.mp hmem).symm (hexchanged token fresh)
  · intro i j token fresh fresh' hi hj
    rcases getElem?_append_cases hi with hi | hi
    · exact absurd hi.symm (hexchanged token fresh)
    · rcases getElem?_append_cases hj with hj | hj
      · exact absurd hj.symm (hexchanged token fresh')
      · exact hs.once i j token fresh fresh' hi hj
  · intro i j one other root hi hj hone hother
    rcases getElem?_append_cases hi with rfl | hi
    · rw [hopens] at hone
      cases hone
    · rcases getElem?_append_cases hj with rfl | hj
      · rw [hopens] at hother
        cases hother
      · exact hs.opens_once i j one other root hi hj hone hother

/-- The change of the password issues no refresh token. -/
theorem chained_runChange {next : Change} (hc : Consistent s) (hs : Chained s)
    (hrun : runChange cfg now s.db s.change = some (db, next)) :
    Chained { s with db := db, change := next } := by
  have hgrows := runChange_grows hrun
  have hrows : ∀ r ∈ db.refreshTokens, ∃ q ∈ s.db.refreshTokens, q.token = r.token ∧
      q.root = r.root ∧ (q.rotatedAt ≠ none → r.rotatedAt ≠ none) := by
    intro r hr
    rcases hgrows.refreshTokens r hr with ⟨q, hq, htq, -, hroot, -, -, hkeep, -⟩ | ⟨-, -, -, _, -, hi⟩
    · exact ⟨q, hq, htq, hroot, hkeep⟩
    · cases hi
  exact
    { chains := hs.chains.of_grows hgrows hc.refresh_lt (fun _ _ _ hissued => by cases hissued)
      used := by
        intro token fresh hmem
        obtain ⟨hlt, hrotated⟩ := hs.used token fresh hmem
        refine ⟨lt_of_lt_of_le hlt hgrows.nextToken_le, fun r hr htoken => ?_⟩
        obtain ⟨q, hq, htq, -, hkeep⟩ := hrows r hr
        exact hkeep (hrotated q hq (htq.trans htoken))
      once := hs.once
      opens_lt := fun task htask root hopens =>
        lt_of_lt_of_le (hs.opens_lt task htask root hopens) hgrows.nextRoot_le
      opens_new := by
        intro task htask root hopens r hr
        obtain ⟨q, hq, -, hroot, -⟩ := hrows r hr
        exact hroot ▸ hs.opens_new task htask root hopens q hq
      opens_once := hs.opens_once }

theorem chained_step {t : State} {a : Action} (hI : Consistent s ∧ Chained s)
    (honce : RotatesOnce s a) (h : step cfg s a = some t) : Consistent t ∧ Chained t := by
  refine ⟨consistent_step hI.1 h, ?_⟩
  cases a with
  | request task =>
    obtain ⟨hrequest, rfl⟩ := step_request h
    exact chained_request hI.2 hrequest
  | run i now =>
    obtain ⟨task, db, next, htask, hrun, rfl⟩ := step_run h
    exact chained_run hI.1 hI.2 honce htask hrun
  | changePassword token currentPassword newPassword =>
    obtain ⟨-, rfl⟩ := step_changePassword h
    exact { hI.2 with }
  | runChange now =>
    obtain ⟨db, next, hrun, rfl⟩ := step_runChange h
    exact chained_runChange hI.1 hI.2 hrun

/-! ## Every run -/

theorem Db.Chains.singleChain (h : db.Chains) : SingleChain db := by
  have hlive : ∀ r ∈ db.refreshTokens, r.revoked = false → r.rotatedAt = none := by
    intro r hr hrevoked
    by_contra hrotated
    rw [h.revoked r hr hrotated] at hrevoked
    cases hrevoked
  intro r hr q hq hnr hnq hroot
  exact h.single r hr q hq (hlive r hr hnr) (hlive q hq hnq) hroot

/-- **Refresh tokens are used once**, in every run of logins, refreshes and a change of the
password from any tables whose refresh tokens are chains, in which every rotation finds its
row there and not rotated yet. -/
theorem refreshTokens_singleUse {cfg : Config} {db : Db} (hdb : db.Started) (hchains : db.Chains)
    {as : List Action} {s : State}
    (hrun : Machine.run (step cfg) { db := db, tasks := [], change := .idle } as = some s)
    (honce : Machine.Meets (step cfg) RotatesOnce { db := db, tasks := [], change := .idle } as) :
    SingleUse s ∧ SingleChain s.db := by
  have hstart : Chained { db := db, tasks := [], change := .idle } :=
    { chains := hchains
      used := by simp
      once := by simp [SingleUse]
      opens_lt := by simp
      opens_new := by simp
      opens_once := by simp }
  have hinv : Consistent s ∧ Chained s :=
    Machine.inv_run_of_meets (fun s a t hI hC h => chained_step hI hC h) ⟨hdb, hstart⟩ honce hrun
  exact ⟨hinv.2.once, hinv.2.chains.singleChain⟩

theorem oneUser_chains : oneUser.Chains where
  revoked := by simp [oneUser]
  single := by simp [oneUser]
  root_lt := by simp [oneUser]

/-- A login and two exchanges of its refresh token, one after the other. -/
def twoExchangesRun : List Action :=
  loginRun ++ [.request (.exchange 1), .request (.exchange 1)] ++ List.replicate 6 (.run 1 0) ++
    List.replicate 2 (.run 2 0)

theorem singleUse_twoExchangesRun :
    ∃ s, Machine.run (step longLived) { db := oneUser, tasks := [], change := .idle }
      twoExchangesRun = some s ∧ s.tasks = [.finished, .exchanged 1 3, .finished] ∧
      SingleUse s ∧ SingleChain s.db := by
  obtain ⟨s, hs, htasks⟩ : ∃ s ∈ Machine.run (step longLived)
      { db := oneUser, tasks := [], change := .idle } twoExchangesRun,
      s.tasks = [.finished, .exchanged 1 3, .finished] := by decide
  exact ⟨s, hs, htasks, refreshTokens_singleUse oneUser_started oneUser_chains hs
    (by decide)⟩

/-- The same, but both exchanges are validated before one of them rotates. -/
def overlappingExchangesRun : List Action :=
  loginRun ++ [.request (.exchange 1), .request (.exchange 1)] ++
    (List.replicate 6 [.run 1 0, .run 2 0]).flatten

/-- **Both requests obtain a token**, and both tokens are live. -/
theorem refreshToken_used_twice :
    ∃ s, Machine.run (step longLived) { db := oneUser, tasks := [], change := .idle }
      overlappingExchangesRun = some s ∧
      s.tasks = [.finished, .exchanged 1 4, .exchanged 1 5] ∧ ¬ SingleUse s ∧
      ¬ SingleChain s.db := by
  obtain ⟨s, hs, htasks, hrows⟩ : ∃ s ∈ Machine.run (step longLived)
      { db := oneUser, tasks := [], change := .idle } overlappingExchangesRun,
      s.tasks = [.finished, .exchanged 1 4, .exchanged 1 5] ∧
      s.db.refreshTokens = [⟨1, "ana", some 0, 1000000, true, some 0, 0⟩,
        ⟨4, "ana", some 2, 1000000, false, none, 0⟩,
        ⟨5, "ana", some 3, 1000000, false, none, 0⟩] := by decide
  refine ⟨s, hs, htasks, fun honce => ?_, fun hchain => ?_⟩
  · have := honce 1 2 1 4 5 (by rw [htasks]; rfl) (by rw [htasks]; rfl)
    omega
  · rw [SingleChain, hrows] at hchain
    simp at hchain

end FestivalPlanner.Auth
