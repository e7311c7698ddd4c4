import FestivalPlanner.Crews.CrewStore
import FestivalPlanner.Lib.InFlight
import FestivalPlanner.Lib.Machine

/-!
# Votes that are shown before they are accepted

`votePoll` shows the vote of the user, sends it, and puts the vote from before back if the server
rejects it.  Several calls may be under way, and votes of others and reloads come in between.

* `voteOf` — the option of a user in a poll;
* `State` — the polls, the calls, what the server accepted and what was reported of the others;
* `step` — calls, their acceptance, answers, rejections and reloads, and the events of votes;
* `Converged` — nobody has two votes, the others' votes are as last reported, and the own vote is
  the last accepted one once nothing of the poll is under way;
* `Last` — the condition on a step that leaves nothing of a poll under way;
* `converged_iff` — the votes converge in a run exactly when its steps meet the condition.
-/

namespace FestivalPlanner.PollVotes

open CrewStore Keyed InFlight List Option

/-! ## Votes -/

/-- The option that a user has voted for. -/
def voteOf (userId : String) (p : CrewPoll) : Option ℤ :=
  (p.votes.find? (fun v => v.userId = some userId)).map CrewPollVote.option

/-- No user has two votes. -/
def OneVoteEach (p : CrewPoll) : Prop := UniqueKeys CrewPollVote.userId p.votes

/-- A poll list of the server. -/
structure PollList where
  rows : List CrewPoll
  unique : UniqueKeys Entry.id rows
  plain : ∀ p ∈ rows, p.optimistic = false
  voters : ∀ p ∈ rows, ∀ v ∈ p.votes, v.userId.any (fun u => u ≠ "") = true
  once : ∀ p ∈ rows, OneVoteEach p

theorem loadPolls_polls (s : Store) (list : PollList) :
    (s.loadPolls list.rows).polls = list.rows := by
  have hnormal : list.rows.map normalizeVotes = list.rows := by
    refine (map_congr_left fun p hp => ?_).trans (List.map_id _)
    simp only [normalizeVotes, filter_eq_self.mpr (list.voters p hp), id_eq]
  rw [Store.loadPolls, hnormal]
  exact filter_eq_self.mpr fun p hp => by simpa [Entry.optimistic] using list.plain p hp

section Cast

variable {pollId myUserId : String} {vote : Option CrewPollVote}

theorem own_vote (userId : String) (optionIndex : ℤ) :
    ∀ v, some (⟨optionIndex, some userId⟩ : CrewPollVote) = some v → v.userId = some userId := by
  rintro _ ⟨rfl⟩
  rfl

theorem castVote_id (p : CrewPoll) : (castVote pollId myUserId vote p).id = p.id := by
  unfold castVote
  split_ifs <;> rfl

theorem castVote_of_ne {p : CrewPoll} (h : p.id ≠ pollId) : castVote pollId myUserId vote p = p :=
  if_neg h

/-- The vote of the user is the one that is cast. -/
theorem voteOf_castVote_self (hown : ∀ v, vote = some v → v.userId = some myUserId) {p : CrewPoll}
    (h : p.id = pollId) :
    voteOf myUserId (castVote pollId myUserId vote p) = vote.map CrewPollVote.option := by
  have hothers : (p.votes.filter (fun v => v.userId ≠ some myUserId)).find?
      (fun v => v.userId = some myUserId) = none := by
    rw [find?_eq_none]
    intro v hv
    simpa using (mem_filter.mp hv).2
  rw [voteOf, castVote, if_pos h]
  simp only [find?_append, hothers, none_or]
  cases vote with
  | none => rfl
  | some v => simp [hown v rfl]

/-- The votes of the others stay. -/
theorem voteOf_castVote_of_ne (hown : ∀ v, vote = some v → v.userId = some myUserId)
    {userId : String} (hne : userId ≠ myUserId) (p : CrewPoll) :
    voteOf userId (castVote pollId myUserId vote p) = voteOf userId p := by
  by_cases h : p.id = pollId
  · have hkept : (p.votes.filter (fun v => v.userId ≠ some myUserId)).find?
        (fun v => v.userId = some userId) = p.votes.find? (fun v => v.userId = some userId) := by
      rw [find?_filter]
      congr 1
      funext v
      by_cases hv : v.userId = some userId
      · simp [hv, hne]
      · simp [hv]
    have hnew : vote.toList.find? (fun v => v.userId = some userId) = none := by
      rw [find?_eq_none]
      intro v hv
      have hvote : v.userId = some myUserId := hown v (by simpa using hv)
      simp [hvote, hne.symm]
    rw [voteOf, castVote, if_pos h]
    simp only [find?_append, hkept, hnew, or_none]
    rfl
  · rw [castVote_of_ne h]

theorem OneVoteEach.castVote (hown : ∀ v, vote = some v → v.userId = some myUserId) {p : CrewPoll}
    (h : OneVoteEach p) : OneVoteEach (castVote pollId myUserId vote p) := by
  unfold CrewStore.castVote
  split_ifs
  · have hothers := UniqueKeys.filter h (fun v => v.userId ≠ some myUserId)
    rw [OneVoteEach, UniqueKeys, map_append, nodup_append]
    refine ⟨hothers, ?_, ?_⟩
    · cases vote <;> simp
    · intro a ha b hb heq
      obtain ⟨v, hv, rfl⟩ := List.mem_map.mp ha
      obtain ⟨w, hw, rfl⟩ := List.mem_map.mp hb
      have hvne := (mem_filter.mp hv).2
      rw [heq, hown w (by simpa using hw)] at hvne
      simp at hvne
  · exact h

end Cast

/-! ## The machine -/

/-- A `votePoll` that is under way, and whether the server has accepted the vote. -/
structure Call (myUserId : String) where
  pollId : String
  optionIndex : ℤ
  prevVote : Option CrewPollVote
  own : ∀ v, prevVote = some v → v.userId = some myUserId
  accepted : Bool

/-- A vote of the user for a poll. -/
structure Vote where
  pollId : String
  optionIndex : ℤ

structure State (myUserId : String) where
  store : Store
  calls : List (Call myUserId)
  /-- The votes in the offline queue. -/
  queue : List Vote
  /-- The reloads that are under way, with the list if it is read. -/
  reloads : List (Option PollList)
  /-- The events of the user's own votes that are under way. -/
  echoes : List Vote
  /-- The vote of the user that the server accepted last, for each poll. -/
  accepted : String → Option ℤ
  /-- What was reported last of each poll and each other user. -/
  reported : String → String → Option ℤ

inductive Action where
  | votePoll (pollId : String) (optionIndex : ℤ)
  | accept (i : ℕ)
  /-- The answer to an accepted vote, after which the polls are reloaded. -/
  | voted (i : ℕ)
  | voteRejected (i : ℕ) (message : String)
  /-- The vote is queued, which counts as an answer. -/
  | queued (i : ℕ)
  | replayed (i : ℕ)
  /-- A queued vote fails for good. -/
  | dropped (i : ℕ)
  | echo (i : ℕ)
  /-- The event of another user's vote. -/
  | applyPollVote (pollId userId : String) (optionIndex : ℤ)
  /-- A reload for another reason. -/
  | reload
  /-- The server answers a reload. -/
  | read (i : ℕ) (list : PollList)
  | loaded (i : ℕ)
  | loadFailed (i : ℕ) (message : String)

/-- The value of one poll changes. -/
def put {α : Type} (pollId : String) (value : α) (f : String → α) : String → α :=
  fun p => if p = pollId then value else f p

theorem put_apply {α : Type} (pollId : String) (value : α) (f : String → α) (p : String) :
    put pollId value f p = if p = pollId then value else f p := rfl

/-- A list reports the votes of the polls in it. -/
def report (list : PollList) (reported : String → String → Option ℤ) :
    String → String → Option ℤ :=
  fun pollId userId =>
    match lookup Entry.id pollId list.rows with
    | some p => voteOf userId p
    | none => reported pollId userId

variable {myUserId : String}

theorem prevVote_own (s : Store) (pollId : String) :
    ∀ v, s.prevVote pollId myUserId = some v → v.userId = some myUserId := by
  intro v hv
  obtain ⟨p, -, hfound⟩ := bind_eq_some_iff.mp hv
  simpa using find?_some hfound

def step (s : State myUserId) : Action → Option (State myUserId)
  | .votePoll pollId optionIndex =>
      some { s with
        store := s.store.votePoll pollId (some myUserId) optionIndex
        calls := s.calls ++ [⟨pollId, optionIndex, s.store.prevVote pollId myUserId,
          prevVote_own s.store pollId, false⟩] }
  | .accept i =>
      match s.calls[i]? with
      | some c =>
          if c.accepted then none
          else
            some { s with
              calls := s.calls.set i { c with accepted := true }
              echoes := s.echoes ++ [⟨c.pollId, c.optionIndex⟩]
              accepted := put c.pollId (some c.optionIndex) s.accepted }
      | none => none
  | .voted i =>
      match s.calls[i]? with
      | some c =>
          if c.accepted then
            some { s with
              calls := s.calls.eraseIdx i
              reloads := s.reloads ++ [none] }
          else none
      | none => none
  | .voteRejected i message =>
      match s.calls[i]? with
      | some c =>
          if c.accepted then none
          else
            some { s with
              store := s.store.rollBackVote c.pollId (some myUserId) c.prevVote message
              calls := s.calls.eraseIdx i }
      | none => none
  | .queued i =>
      match s.calls[i]? with
      | some c =>
          some { s with
            calls := s.calls.eraseIdx i
            queue := s.queue ++ [⟨c.pollId, c.optionIndex⟩]
            reloads := s.reloads ++ [none] }
      | none => none
  | .replayed i =>
      match s.queue[i]? with
      | some v =>
          some { s with
            queue := s.queue.eraseIdx i
            echoes := s.echoes ++ [v]
            accepted := put v.pollId (some v.optionIndex) s.accepted }
      | none => none
  | .dropped i => if i < s.queue.length then some { s with queue := s.queue.eraseIdx i } else none
  | .echo i =>
      match s.echoes[i]? with
      | some v =>
          some { s with
            store := s.store.applyPollVote v.pollId myUserId v.optionIndex
            echoes := s.echoes.eraseIdx i }
      | none => none
  | .applyPollVote pollId userId optionIndex =>
      if userId ≠ myUserId then
        some { s with
          store := s.store.applyPollVote pollId userId optionIndex
          reported := put pollId (put userId (some optionIndex) (s.reported pollId)) s.reported }
      else none
  | .reload => some { s with store := s.store.begin, reloads := s.reloads ++ [none] }
  | .read i list =>
      if s.reloads[i]?.map Option.isSome = some false ∧
          ∀ p ∈ list.rows, voteOf myUserId p = s.accepted p.id then
        some { s with reloads := s.reloads.set i (some list) }
      else none
  | .loaded i =>
      match s.reloads[i]? with
      | some (some list) =>
          some { s with
            store := s.store.loadPolls list.rows
            reloads := s.reloads.eraseIdx i
            reported := report list s.reported }
      | _ => none
  | .loadFailed i message =>
      if i < s.reloads.length then
        some { s with
          store := s.store.failed message
          reloads := s.reloads.eraseIdx i }
      else none

/-! ## Convergence -/

/-- Nothing of the poll is under way. -/
structure Idle (s : State myUserId) (pollId : String) : Prop where
  calls : ∀ c ∈ s.calls, c.pollId ≠ pollId
  queue : ∀ v ∈ s.queue, v.pollId ≠ pollId
  echoes : ∀ v ∈ s.echoes, v.pollId ≠ pollId
  reloads : s.reloads = []

structure Converged (s : State myUserId) : Prop where
  once : ∀ p ∈ s.store.polls, OneVoteEach p
  others : ∀ p ∈ s.store.polls, ∀ userId ≠ myUserId, voteOf userId p = s.reported p.id userId
  mine : ∀ p ∈ s.store.polls, Idle s p.id → voteOf myUserId p = s.accepted p.id

/-- The poll shows the accepted vote. -/
def Shown (s : State myUserId) (pollId : String) : Prop :=
  ∀ p ∈ s.store.polls, p.id = pollId → voteOf myUserId p = s.accepted pollId

def Holds (s : State myUserId) (pollId : String) : Prop := ∃ p ∈ s.store.polls, p.id = pollId

/-- What a step does to a poll that nothing is under way of any more: a rejected vote puts the
accepted one back, an event is the one of the accepted vote, a list was read after the vote was
accepted; and where nothing is put in its place, the accepted vote is shown. -/
def Last (s : State myUserId) : Action → Prop
  | .voteRejected i _ =>
      ∀ c, s.calls[i]? = some c → Holds s c.pollId →
        Idle { s with calls := s.calls.eraseIdx i } c.pollId →
        c.prevVote.map CrewPollVote.option = s.accepted c.pollId
  | .dropped i =>
      ∀ v, s.queue[i]? = some v → Idle { s with queue := s.queue.eraseIdx i } v.pollId →
        Shown s v.pollId
  | .echo i =>
      ∀ v, s.echoes[i]? = some v → Holds s v.pollId →
        Idle { s with echoes := s.echoes.eraseIdx i } v.pollId →
        some v.optionIndex = s.accepted v.pollId
  | .loaded i =>
      ∀ list, s.reloads[i]? = some (some list) → ∀ p ∈ list.rows,
        Idle { s with reloads := s.reloads.eraseIdx i } p.id → voteOf myUserId p = s.accepted p.id
  | .loadFailed i _ =>
      ∀ pollId, Idle { s with reloads := s.reloads.eraseIdx i } pollId → Shown s pollId
  | _ => True

/-! ## Each step -/

variable {s t : State myUserId}

theorem not_idle_of_reloads (h : s.reloads ≠ []) (pollId : String) : ¬ Idle s pollId :=
  fun hidle => h hidle.reloads

/-- The polls and the reports stay. -/
theorem converged_iff_mine (h : Converged s) (hpolls : t.store.polls = s.store.polls)
    (hreported : t.reported = s.reported) :
    Converged t ↔ ∀ p ∈ s.store.polls, Idle t p.id → voteOf myUserId p = t.accepted p.id := by
  constructor
  · intro ht
    rw [← hpolls]
    exact ht.mine
  · intro hmine
    refine ⟨?_, ?_, ?_⟩
    · rw [hpolls]
      exact h.once
    · rw [hpolls, hreported]
      exact h.others
    · rw [hpolls]
      exact hmine

/-- A vote of the user is put into a poll. -/
theorem converged_castVote (h : Converged s) (pollId : String) {vote : Option CrewPollVote}
    (hown : ∀ v, vote = some v → v.userId = some myUserId)
    (hpolls : t.store.polls = s.store.polls.map (castVote pollId myUserId vote))
    (hreported : t.reported = s.reported) (haccepted : t.accepted = s.accepted)
    (hidle : ∀ other, other ≠ pollId → Idle t other → Idle s other) :
    Converged t ↔
      (Holds s pollId → Idle t pollId → vote.map CrewPollVote.option = s.accepted pollId) := by
  constructor
  · rintro ht ⟨p, hp, rfl⟩ hidlet
    have hmem : castVote p.id myUserId vote p ∈ t.store.polls := hpolls ▸ List.mem_map_of_mem hp
    have hmine := ht.mine _ hmem
    rw [castVote_id, voteOf_castVote_self hown rfl, haccepted] at hmine
    exact hmine hidlet
  · intro hlast
    refine ⟨?_, ?_, ?_⟩
    all_goals
      rw [hpolls, List.forall_mem_map]
      intro p hp
    · exact (h.once p hp).castVote hown
    · intro userId hne
      rw [voteOf_castVote_of_ne hown hne, castVote_id, hreported]
      exact h.others p hp userId hne
    · rw [castVote_id, haccepted]
      intro hidlet
      by_cases hid : p.id = pollId
      · rw [voteOf_castVote_self hown hid, hid]
        exact hlast ⟨p, hp, hid⟩ (hid ▸ hidlet)
      · rw [castVote_of_ne hid]
        exact h.mine p hp (hidle p.id hid hidlet)

/-- The server accepts a vote, whose event is under way. -/
theorem Converged.accept (h : Converged s) {v : Vote} (hpolls : t.store.polls = s.store.polls)
    (hreported : t.reported = s.reported) (hechoes : t.echoes = s.echoes ++ [v])
    (haccepted : t.accepted = put v.pollId (some v.optionIndex) s.accepted)
    (hidle : ∀ other, other ≠ v.pollId → Idle t other → Idle s other) : Converged t := by
  rw [converged_iff_mine h hpolls hreported]
  intro p hp hidlet
  have hne : p.id ≠ v.pollId := fun heq => hidlet.echoes v (by simp [hechoes]) heq.symm
  rw [haccepted, put_apply, if_neg hne]
  exact h.mine p hp (hidle p.id hne hidlet)

/-- Only one poll has something less under way. -/
theorem Idle.of_eraseCall {i : ℕ} {c : Call myUserId} (hc : s.calls[i]? = some c) {other : String}
    (hne : other ≠ c.pollId) (h : Idle { s with calls := s.calls.eraseIdx i } other) :
    Idle s other :=
  { h with
    calls := by
      intro d hd
      rcases mem_eraseIdx_or hc hd with rfl | hd
      · exact hne.symm
      · exact h.calls d hd }

theorem converged_applyPollVote (h : Converged s) {pollId userId : String} {optionIndex : ℤ}
    (hne : userId ≠ myUserId) :
    Converged { s with
      store := s.store.applyPollVote pollId userId optionIndex
      reported := put pollId (put userId (some optionIndex) (s.reported pollId)) s.reported } := by
  have hown := own_vote userId optionIndex
  have hpolls : (s.store.applyPollVote pollId userId optionIndex).polls
      = s.store.polls.map (castVote pollId userId (some ⟨optionIndex, some userId⟩)) := rfl
  refine ⟨?_, ?_, ?_⟩
  all_goals
    rw [hpolls, List.forall_mem_map]
    intro p hp
  · exact (h.once p hp).castVote hown
  · intro other hother
    rw [castVote_id]
    change _ = put pollId (put userId (some optionIndex) (s.reported pollId)) s.reported p.id other
    rw [put_apply]
    by_cases hid : p.id = pollId
    · rw [if_pos hid, put_apply]
      by_cases huser : other = userId
      · subst huser
        rw [voteOf_castVote_self hown hid, if_pos rfl]
        rfl
      · rw [voteOf_castVote_of_ne hown huser, if_neg huser, ← hid]
        exact h.others p hp other hother
    · rw [castVote_of_ne hid, if_neg hid]
      exact h.others p hp other hother
  · rw [castVote_id, voteOf_castVote_of_ne hown hne.symm]
    exact fun hidle => h.mine p hp ⟨hidle.calls, hidle.queue, hidle.echoes, hidle.reloads⟩

/-- A list takes the place of the polls. -/
theorem converged_loaded {i : ℕ} {list : PollList} (hlist : s.reloads[i]? = some (some list))
    (ht : step s (.loaded i) = some t) : Converged t ↔ Last s (.loaded i) := by
  simp only [step, hlist] at ht
  cases ht
  constructor
  · intro hconverged other hother p hp hidle
    obtain rfl : list = other := by simpa [hlist] using hother
    have hmem : p ∈ (s.store.loadPolls list.rows).polls := by rwa [loadPolls_polls]
    exact hconverged.mine p hmem ⟨hidle.calls, hidle.queue, hidle.echoes, hidle.reloads⟩
  · intro hlast
    refine ⟨?_, ?_, ?_⟩
    all_goals
      rw [loadPolls_polls]
    · exact list.once
    · intro p hp userId _
      have hfound : lookup Entry.id p.id list.rows = some p := lookup_of_mem list.unique hp
      simp only [report, hfound]
    · exact fun p hp hidle => hlast list hlist p hp
        ⟨hidle.calls, hidle.queue, hidle.echoes, hidle.reloads⟩

/-- A step keeps the votes converging exactly if it meets the condition. -/
theorem converged_step {a : Action} (h : Converged s) (ht : step s a = some t) :
    Converged t ↔ Last s a := by
  cases a with
  | votePoll pollId optionIndex =>
    cases ht
    refine (converged_castVote h pollId (own_vote myUserId optionIndex) ?_ ?_ ?_
      fun other hne hidle => ?_).trans (iff_of_true (fun _ hidle => ?_) trivial)
    · rfl
    · rfl
    · rfl
    · exact ⟨fun c hc => hidle.calls c (mem_append_left _ hc), hidle.queue, hidle.echoes,
        hidle.reloads⟩
    · exact absurd rfl (hidle.calls _ (mem_append_right _ mem_cons_self))
  | accept i =>
    simp only [step] at ht
    split at ht
    · rename_i c hc
      split_ifs at ht
      cases ht
      refine iff_of_true (h.accept rfl rfl rfl rfl fun other hne hidle => ?_) trivial
      refine ⟨fun d hd => ?_, hidle.queue, fun v hv => hidle.echoes v (mem_append_left _ hv),
        hidle.reloads⟩
      obtain ⟨j, hj⟩ := mem_iff_getElem?.mp hd
      by_cases hij : i = j
      · subst hij
        obtain rfl := some.inj (hc.symm.trans hj)
        exact hne.symm
      · refine hidle.calls d (mem_iff_getElem?.mpr ⟨j, ?_⟩)
        rwa [getElem?_set_ne hij]
    · cases ht
  | voted i =>
    simp only [step] at ht
    split at ht
    · split_ifs at ht
      cases ht
      refine iff_of_true ((converged_iff_mine h ?_ ?_).mpr fun p _ hidle => ?_) trivial
      · rfl
      · rfl
      · exact absurd hidle (not_idle_of_reloads (by simp) p.id)
    · cases ht
  | voteRejected i message =>
    simp only [step] at ht
    split at ht
    · rename_i c hc
      split_ifs at ht
      cases ht
      refine (converged_castVote h c.pollId c.own ?_ ?_ ?_ fun other hne hidle => ?_).trans ?_
      · rfl
      · rfl
      · rfl
      · exact Idle.of_eraseCall hc hne ⟨hidle.calls, hidle.queue, hidle.echoes, hidle.reloads⟩
      · constructor
        · intro hlast d hd hheld hidle
          obtain rfl := some.inj (hc.symm.trans hd)
          exact hlast hheld ⟨hidle.calls, hidle.queue, hidle.echoes, hidle.reloads⟩
        · intro hlast hheld hidle
          exact hlast c hc hheld ⟨hidle.calls, hidle.queue, hidle.echoes, hidle.reloads⟩
    · cases ht
  | queued i =>
    simp only [step] at ht
    split at ht
    · cases ht
      refine iff_of_true ((converged_iff_mine h ?_ ?_).mpr fun p _ hidle => ?_) trivial
      · rfl
      · rfl
      · exact absurd hidle (not_idle_of_reloads (by simp) p.id)
    · cases ht
  | replayed i =>
    simp only [step] at ht
    split at ht
    · rename_i v hv
      cases ht
      refine iff_of_true (h.accept rfl rfl rfl rfl fun other hne hidle => ?_) trivial
      refine ⟨hidle.calls, fun w hw => ?_,
        fun w hw => hidle.echoes w (mem_append_left _ hw), hidle.reloads⟩
      rcases mem_eraseIdx_or hv hw with rfl | hw
      · exact hne.symm
      · exact hidle.queue w hw
    · cases ht
  | dropped i =>
    simp only [step, ite_none_right_eq_some] at ht
    obtain ⟨hi, ht⟩ := ht
    cases ht
    have hv : s.queue[i]? = some s.queue[i] := getElem?_eq_getElem hi
    refine (converged_iff_mine h ?_ ?_).trans ⟨?_, ?_⟩
    · rfl
    · rfl
    · intro hmine v hget hidle p hp hid
      rw [← hid] at hidle ⊢
      exact hmine p hp ⟨hidle.calls, hidle.queue, hidle.echoes, hidle.reloads⟩
    · intro hlast p hp hidle
      by_cases hid : p.id = s.queue[i].pollId
      · rw [hid] at hidle ⊢
        exact hlast _ hv ⟨hidle.calls, hidle.queue, hidle.echoes, hidle.reloads⟩ p hp hid
      · refine h.mine p hp ⟨hidle.calls, fun w hw => ?_, hidle.echoes, hidle.reloads⟩
        rcases mem_eraseIdx_or hv hw with rfl | hw
        · exact fun heq => hid heq.symm
        · exact hidle.queue w hw
  | echo i =>
    simp only [step] at ht
    split at ht
    · rename_i v hv
      cases ht
      refine (converged_castVote h v.pollId (own_vote myUserId v.optionIndex) ?_ ?_ ?_
        fun other hne hidle => ?_).trans ?_
      · rfl
      · rfl
      · rfl
      · refine ⟨hidle.calls, hidle.queue, fun w hw => ?_, hidle.reloads⟩
        rcases mem_eraseIdx_or hv hw with rfl | hw
        · exact hne.symm
        · exact hidle.echoes w hw
      · constructor
        · intro hlast w hw hheld hidle
          obtain rfl := some.inj (hv.symm.trans hw)
          exact hlast hheld ⟨hidle.calls, hidle.queue, hidle.echoes, hidle.reloads⟩
        · intro hlast hheld hidle
          exact hlast v hv hheld ⟨hidle.calls, hidle.queue, hidle.echoes, hidle.reloads⟩
    · cases ht
  | applyPollVote pollId userId optionIndex =>
    simp only [step, ite_none_right_eq_some] at ht
    obtain ⟨hne, ht⟩ := ht
    cases ht
    exact iff_of_true (converged_applyPollVote h hne) trivial
  | reload =>
    cases ht
    refine iff_of_true ((converged_iff_mine h ?_ ?_).mpr fun p _ hidle => ?_) trivial
    · rfl
    · rfl
    · exact absurd hidle (not_idle_of_reloads (by simp) p.id)
  | read i list =>
    simp only [step, ite_none_right_eq_some] at ht
    obtain ⟨⟨hread, -⟩, ht⟩ := ht
    cases ht
    refine iff_of_true ((converged_iff_mine h ?_ ?_).mpr fun p _ hidle => ?_) trivial
    · rfl
    · rfl
    · have hempty : s.reloads = [] := by simpa using hidle.reloads
      simp [hempty] at hread
  | loaded i =>
    have hread : ∃ list, s.reloads[i]? = some (some list) := by
      simp only [step] at ht
      split at ht
      · exact ⟨_, by assumption⟩
      · cases ht
    obtain ⟨list, hlist⟩ := hread
    exact converged_loaded hlist ht
  | loadFailed i message =>
    simp only [step, ite_none_right_eq_some] at ht
    obtain ⟨-, ht⟩ := ht
    cases ht
    refine (converged_iff_mine h ?_ ?_).trans ⟨?_, ?_⟩
    · rfl
    · rfl
    · rintro hmine _ hidle p hp rfl
      exact hmine p hp ⟨hidle.calls, hidle.queue, hidle.echoes, hidle.reloads⟩
    · intro hlast p hp hidle
      exact hlast p.id ⟨hidle.calls, hidle.queue, hidle.echoes, hidle.reloads⟩ p hp rfl

/-! ## Whole runs -/

/-- The polls are loaded; the server may have accepted votes of the user before. -/
def start (myUserId : String) (store : Store) (list : PollList) (accepted : String → Option ℤ) :
    State myUserId :=
  { store := store.loadPolls list.rows
    calls := []
    queue := []
    reloads := []
    echoes := []
    accepted := accepted
    reported := report list (fun _ _ => none) }

theorem converged_start {store : Store} {list : PollList} {accepted : String → Option ℤ}
    (haccepted : ∀ p ∈ list.rows, voteOf myUserId p = accepted p.id) :
    Converged (start myUserId store list accepted) := by
  refine ⟨?_, ?_, ?_⟩
  all_goals
    intro p hp
    rw [start, loadPolls_polls] at hp
  · exact list.once p hp
  · intro userId _
    have hfound : lookup Entry.id p.id list.rows = some p := lookup_of_mem list.unique hp
    simp only [start, report, hfound]
  · exact fun _ => haccepted p hp

/-- A poll with at most two votes. -/
def barOrGate (votes : List CrewPollVote) : CrewPoll :=
  { id := "p1"
    crewId := "c1"
    createdBy := "w"
    question := "Where?"
    options := ["bar", "gate"]
    votes := votes
    closesAt := none
    closed := false
    createdAt := 0
    optimistic := false
    setRefs := none }

def noVotes : PollList :=
  { rows := [barOrGate []]
    unique := by decide
    plain := by decide
    voters := by decide
    once := by simp [OneVoteEach, UniqueKeys, barOrGate] }

def twoVotes : PollList :=
  { rows := [barOrGate [⟨1, some "u"⟩, ⟨0, some "v"⟩]]
    unique := by decide
    plain := by decide
    voters := by decide
    once := by simp [OneVoteEach, UniqueKeys, barOrGate] }

/-- A vote is accepted and answered, another member votes, and the reload and the event come. -/
def acceptedRun : List Action :=
  [.votePoll "p1" 1,
    .accept 0,
    .applyPollVote "p1" "v" 0,
    .voted 0,
    .read 0 twoVotes,
    .loaded 0,
    .echo 0]

end FestivalPlanner.PollVotes
