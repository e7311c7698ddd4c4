import FestivalPlanner.Crews.CrewStore
import FestivalPlanner.Lib.Machine

/-!
# Polls keep the sets behind their options

The references of a schedule-aware poll live on this client only, while copies of the poll come
from the server.

* `Wins` — the option with the most votes, the first of these; `resolveWinningSetRef_eq`: the
  reference of that option is the one that `closePoll` takes;
* `State` — the polls, and the references of the open polls that were created here;
* `step` — creates, votes, events, reloads, replays, restarts and closes;
* `Kept` — every such poll is held with its references, so that closing it creates the meeting
  point of the winning set;
* `Gentle` — the condition on a step: the list is not reloaded, and so on;
* `kept_iff` — the references are kept throughout a run exactly when its steps are gentle.
-/

namespace FestivalPlanner.SetPolls

open CrewStore List Option

/-! ## The winner -/

/-- The number of votes for an option. -/
def votesFor (p : CrewPoll) (i : ℕ) : ℕ := p.votes.countP (fun v => v.option = (i : ℤ))

/-- The option has a vote, and more than those before it and no less than those behind. -/
structure Wins (p : CrewPoll) (i : ℕ) : Prop where
  isOption : i < p.options.length
  voted : 0 < votesFor p i
  most : ∀ j < p.options.length, votesFor p j ≤ votesFor p i
  first : ∀ j < i, votesFor p j < votesFor p i

theorem countVote_getElem? (counts : List ℕ) (v : CrewPollVote) (i : ℕ) :
    (countVote counts v)[i]? = counts[i]?.map (· + if v.option = (i : ℤ) then 1 else 0) := by
  unfold countVote
  by_cases hi : i < counts.length
  · split_ifs with hoption heq heq
    · have htoNat : v.option.toNat = i := by omega
      simp [htoNat]
    · have htoNat : v.option.toNat ≠ i := by omega
      simp [htoNat]
    · omega
    · simp
  · have hlen : (if 0 ≤ v.option ∧ v.option < (counts.length : ℤ) then
        counts.modify v.option.toNat (· + 1) else counts).length = counts.length := by
      split_ifs <;> simp
    rw [getElem?_eq_none (by omega), getElem?_eq_none (by omega)]
    rfl

theorem foldl_countVote_getElem? (votes : List CrewPollVote) (counts : List ℕ) (i : ℕ) :
    (votes.foldl countVote counts)[i]?
      = counts[i]?.map (· + votes.countP (fun v => v.option = (i : ℤ))) := by
  induction votes generalizing counts with
  | nil => simp
  | cons v votes ih =>
    rw [foldl_cons, ih, countVote_getElem?, countP_cons]
    cases counts[i]? with
    | none => rfl
    | some count => simp [Nat.add_assoc, Nat.add_comm]

theorem voteCounts_getElem? (p : CrewPoll) (i : ℕ) :
    (voteCounts p)[i]? = if i < p.options.length then some (votesFor p i) else none := by
  rw [voteCounts, foldl_countVote_getElem?, getElem?_replicate]
  split_ifs
  · simp [votesFor]
  · rfl

/-- What the loop has found in the counts that it has seen. -/
def Found (seen : List ℕ) : Option ℕ × ℕ → Prop
  | (none, best) => best = 0 ∧ ∀ count ∈ seen, count = 0
  | (some winner, best) =>
      0 < best ∧ seen[winner]? = some best ∧ (∀ count ∈ seen, count ≤ best) ∧
        ∀ j count, j < winner → seen[j]? = some count → count < best

variable {seen : List ℕ} {p : CrewPoll} {i : ℕ} {pollId id : String}

theorem Found.count_le {acc : Option ℕ × ℕ} (h : Found seen acc) :
    ∀ count ∈ seen, count ≤ acc.2 := by
  obtain ⟨_ | winner, best⟩ := acc
  · intro count hcount
    exact (h.2 count hcount).le.trans (Nat.zero_le best)
  · exact h.2.2.1

/-- The loop looks at one more count. -/
theorem Found.next {winner : Option ℕ} {best : ℕ} (h : Found seen (winner, best)) (count : ℕ) :
    Found (seen ++ [count])
      (if best < count then (some seen.length, count) else (winner, best)) := by
  have hle := h.count_le
  split_ifs with hlt
  · refine ⟨by omega, by simp, ?_, ?_⟩
    · intro c hc
      rcases mem_append.mp hc with hc | hc
      · exact (hle c hc).trans hlt.le
      · exact (mem_singleton.mp hc).le
    · intro j c hj hc
      rw [getElem?_append_left hj] at hc
      exact lt_of_le_of_lt (hle c (mem_of_getElem? hc)) hlt
  · cases winner with
    | none =>
      refine ⟨h.1, ?_⟩
      intro c hc
      rcases mem_append.mp hc with hc | hc
      · exact h.2 c hc
      · have hzero := h.1
        have heq := mem_singleton.mp hc
        omega
    | some winner =>
      obtain ⟨hpos, hat, -, hfirst⟩ := h
      have hwinner : winner < seen.length := (List.getElem?_eq_some_iff.mp hat).1
      refine ⟨hpos, by rwa [getElem?_append_left hwinner], ?_, ?_⟩
      · intro c hc
        rcases mem_append.mp hc with hc | hc
        · exact hle c hc
        · have heq := mem_singleton.mp hc
          omega
      · intro j c hj hc
        rw [getElem?_append_left (hj.trans hwinner)] at hc
        exact hfirst j c hj hc

theorem found_findWinner (counts seen : List ℕ) (acc : Option ℕ × ℕ) (h : Found seen acc) :
    Found (seen ++ counts) (findWinner counts seen.length acc) := by
  induction counts generalizing seen acc with
  | nil => simpa [findWinner] using h
  | cons count counts ih =>
    obtain ⟨winner, best⟩ := acc
    have hrest := ih (seen ++ [count]) _ (h.next count)
    simpa [findWinner] using hrest

/-- An option wins, or none has a vote. -/
def Elected (p : CrewPoll) : Option ℕ → Prop
  | some i => Wins p i
  | none => ∀ i < p.options.length, votesFor p i = 0

theorem elected_findWinner (p : CrewPoll) :
    Elected p (findWinner (voteCounts p) 0 (none, 0)).1 := by
  have hstart : Found [] (none, 0) := ⟨rfl, by simp⟩
  have hfound := found_findWinner (voteCounts p) [] (none, 0) hstart
  have hcount : ∀ i < p.options.length, (voteCounts p)[i]? = some (votesFor p i) :=
    fun i hi => by rw [voteCounts_getElem?, if_pos hi]
  rw [nil_append, length_nil] at hfound
  generalize findWinner (voteCounts p) 0 (none, 0) = acc at hfound
  obtain ⟨_ | i, best⟩ := acc
  · exact fun i hi => hfound.2 _ (mem_of_getElem? (hcount i hi))
  · obtain ⟨hpos, hat, hmost, hfirst⟩ := hfound
    have hi : i < p.options.length := by
      by_contra hi
      rw [voteCounts_getElem?, if_neg hi] at hat
      cases hat
    have hbest : votesFor p i = best := some.inj ((hcount i hi).symm.trans hat)
    subst hbest
    exact
      { isOption := hi
        voted := hpos
        most := fun j hj => hmost _ (mem_of_getElem? (hcount j hj))
        first := fun j hj => hfirst j _ hj (hcount j (hj.trans hi)) }

theorem Wins.unique {j : ℕ} (hi : Wins p i) (hj : Wins p j) : i = j := by
  rcases lt_trichotomy i j with hlt | heq | hlt
  · exact absurd (hi.most j hj.isOption) (by have := hj.first i hlt; omega)
  · exact heq
  · exact absurd (hj.most i hi.isOption) (by have := hi.first j hlt; omega)

/-- The set of a poll with references is the one behind the winning option. -/
theorem resolveWinningSetRef_eq {refs : List (Option PollSetRef)} (hrefs : p.setRefs = some refs)
    (hlen : refs.length = p.options.length) (hi : Wins p i) :
    resolveWinningSetRef p = (refs[i]?).join := by
  have hfound := elected_findWinner p
  have hne : refs.length ≠ 0 := by
    have := hi.isOption
    omega
  unfold resolveWinningSetRef
  rw [hrefs]
  simp only [if_neg hne]
  cases hwinner : (findWinner (voteCounts p) 0 (none, 0)).1 with
  | none =>
    rw [hwinner] at hfound
    exact absurd (hfound i hi.isOption) hi.voted.ne'
  | some j =>
    rw [hwinner] at hfound
    rw [hi.unique hfound]

/-- A poll with a vote for an option has a winner. -/
theorem exists_wins {v : CrewPollVote} (hv : v ∈ p.votes) (hi : i < p.options.length)
    (hvote : v.option = (i : ℤ)) : ∃ j, Wins p j := by
  have hfound := elected_findWinner p
  cases hwinner : (findWinner (voteCounts p) 0 (none, 0)).1 with
  | none =>
    rw [hwinner] at hfound
    have hzero := hfound i hi
    rw [votesFor, countP_eq_zero] at hzero
    exact absurd hvote (by simpa using hzero v hv)
  | some j =>
    rw [hwinner] at hfound
    exact ⟨j, hfound⟩

/-! ## What happens to a poll -/

/-- An open poll that was created here with references, under the id that it has now. -/
structure Watch where
  id : String
  refs : List (Option PollSetRef)

/-- A poll as the server sends it: without references. -/
structure ServerPoll where
  row : CrewPoll
  plain : row.setRefs = none

/-- A `votePoll` that waits for its answer. -/
structure Voting where
  pollId : String
  userId : Option String
  prevVote : Option CrewPollVote

structure State where
  store : Store
  /-- The `clientId` of every queued create. -/
  queue : List String
  voting : List Voting
  watched : List Watch

inductive Action where
  /-- The answer to an online create. -/
  | createPoll (request : CreateCrewPollRequest) (setRefs : Option (List (Option PollSetRef)))
      (poll : ServerPoll)
  | createPollOffline (clientId crewId : String) (request : CreateCrewPollRequest)
      (setRefs : Option (List (Option PollSetRef))) (now : ℤ)
  | votePoll (pollId : String) (userId : Option String) (optionIndex : ℤ)
  /-- The answer to a vote; its reload comes as `loadPolls`, or fails. -/
  | voted (i : ℕ)
  | voteRejected (i : ℕ) (message : String)
  | applyPollVote (pollId userId : String) (optionIndex : ℤ)
  | applyPollCreated (poll : ServerPoll)
  | loadPolls (list : List ServerPoll)
  | replayed (clientId : String) (poll : ServerPoll)
  | restart
  /-- The poll is closed, by this user or with an event. -/
  | applyPollClosed (pollId : String)
  /-- The poll is closed on the server, and no event has come. -/
  | closedElsewhere (pollId : String)

/-- The composer has a reference, or none, for each option. -/
def aligned (request : CreateCrewPollRequest) (setRefs : Option (List (Option PollSetRef))) : Bool :=
  setRefs.all (fun refs => refs.length = request.options.length)

/-- The id is new: no poll that was created here has it. -/
def Fresh (s : State) (id : String) : Prop :=
  (∀ p ∈ s.store.polls, p.id = id → p.setRefs = none) ∧ ∀ w ∈ s.watched, w.id ≠ id

instance (s : State) (id : String) : Decidable (Fresh s id) := inferInstanceAs (Decidable (_ ∧ _))

/-- What is watched of a new poll. -/
def watch (id : String) (setRefs : Option (List (Option PollSetRef))) : List Watch :=
  (localSetRefs setRefs).toList.map (fun refs => ⟨id, refs⟩)

def unwatch (id : String) (watched : List Watch) : List Watch := watched.filter (fun w => w.id ≠ id)

/-- The poll has got its real id. -/
def Watch.rename (clientId realId : String) (w : Watch) : Watch :=
  if w.id = clientId then { w with id := realId } else w

variable (platform : Platform)

/-- The server gives a new poll a new id, and as many options as were asked for. -/
def step (s : State) : Action → Option State
  | .createPoll request setRefs poll =>
      if aligned request setRefs ∧ Fresh s poll.row.id ∧
          poll.row.options.length = request.options.length then
        some { s with
          store := s.store.createPoll poll.row setRefs
          watched := watch poll.row.id setRefs ++ s.watched }
      else none
  | .createPollOffline clientId crewId request setRefs now =>
      if aligned request setRefs ∧ Fresh s clientId then
        some { s with
          store := s.store.createPollOffline clientId crewId request setRefs now
          queue := s.queue ++ [clientId]
          watched := watch clientId setRefs ++ s.watched }
      else none
  | .votePoll pollId userId optionIndex =>
      some { s with
        store := s.store.votePoll pollId userId optionIndex
        voting := s.voting ++ [⟨pollId, userId, userId.bind (s.store.prevVote pollId)⟩] }
  | .voted i => if i < s.voting.length then some { s with voting := s.voting.eraseIdx i } else none
  | .voteRejected i message =>
      match s.voting[i]? with
      | some v =>
          some { s with
            store := s.store.rollBackVote v.pollId v.userId v.prevVote message
            voting := s.voting.eraseIdx i }
      | none => none
  | .applyPollVote pollId userId optionIndex =>
      some { s with store := s.store.applyPollVote pollId userId optionIndex }
  | .applyPollCreated poll => some { s with store := s.store.applyPollCreated poll.row }
  | .loadPolls list => some { s with store := s.store.loadPolls (list.map ServerPoll.row) }
  | .replayed clientId poll =>
      if clientId ∈ s.queue ∧ Fresh s poll.row.id ∧
          ∀ p ∈ s.store.polls, p.id = clientId → poll.row.options.length = p.options.length then
        some { s with
          store :=
            match platform with
            | .native => s.store.reconcilePoll clientId (some poll.row)
            | .web => s.store
          queue := s.queue.filter (fun q => q ≠ clientId)
          watched := s.watched.map (Watch.rename clientId poll.row.id) }
      else none
  | .restart => some { s with store := s.store.restartPolls, voting := [] }
  | .applyPollClosed pollId =>
      some { s with
        store := s.store.applyPollClosed pollId
        watched := unwatch pollId s.watched }
  | .closedElsewhere pollId => some { s with watched := unwatch pollId s.watched }

/-! ## What is kept -/

/-- The poll has its references, one for each option. -/
def Carries (p : CrewPoll) (w : Watch) : Prop :=
  p.setRefs = some w.refs ∧ w.refs.length = p.options.length

@[grind =] def CarriedIn (polls : List CrewPoll) (w : Watch) : Prop :=
  ∃ p, polls.find? (fun p => p.id = w.id) = some p ∧ Carries p w

/-- With a vote for an option, closing the poll creates the meeting point of the set behind the
option that wins, if there is one behind it. -/
def ClosesRight (s : Store) (w : Watch) : Prop :=
  ∀ p, s.polls.find? (fun p => p.id = w.id) = some p → ∀ v ∈ p.votes, ∀ i < p.options.length,
    v.option = (i : ℤ) →
    ∃ j, Wins p j ∧ s.closePollCreates w.id = ((w.refs[j]?).join).map meetingPointOf

def Kept (s : State) : Prop :=
  ∀ w ∈ s.watched, CarriedIn s.store.polls w ∧ ClosesRight s.store w

/-- No reload while such a poll is open; its replay goes through the reconciler before any other
copy comes; a restart finds it in the head of the list. -/
def Gentle (s : State) : Action → Prop
  | .loadPolls _ => s.watched = []
  | .replayed clientId poll =>
      (∃ w ∈ s.watched, w.id = clientId) →
        platform = .native ∧ present poll.row.id s.store.polls = false
  | .restart => ∀ w ∈ s.watched, present w.id (s.store.polls.take maxCachedPolls) = true
  | _ => True

/-! ## Each change of the list -/

section Carried

variable {polls : List CrewPoll} {w : Watch}

/-- A poll that carries its references is closed right. -/
theorem CarriedIn.closesRight {s : Store} (h : CarriedIn s.polls w) : ClosesRight s w := by
  intro p hp v hv i hi hvote
  obtain ⟨q, hq, hrefs, hlen⟩ := h
  obtain rfl : q = p := some.inj (hq.symm.trans hp)
  obtain ⟨j, hj⟩ := exists_wins hv hi hvote
  refine ⟨j, hj, ?_⟩
  rw [Store.closePollCreates, hq, bind_some, resolveWinningSetRef_eq hrefs hlen hj]

theorem kept_iff_carried {s : State} : Kept s ↔ ∀ w ∈ s.watched, CarriedIn s.store.polls w :=
  ⟨fun h w hw => (h w hw).1, fun h w hw => ⟨h w hw, (h w hw).closesRight⟩⟩

theorem CarriedIn.mem (h : CarriedIn polls w) : ∃ p ∈ polls, p.id = w.id ∧ Carries p w := by
  obtain ⟨p, hp, hcarries⟩ := h
  exact ⟨p, mem_of_find?_eq_some hp, by simpa using find?_some hp, hcarries⟩

/-- Only polls without references have the id. -/
theorem not_carriedIn (h : ∀ p ∈ polls, p.id = w.id → p.setRefs = none) : ¬ CarriedIn polls w := by
  intro hcarried
  obtain ⟨p, hp, hid, hrefs, -⟩ := hcarried.mem
  rw [h p hp hid] at hrefs
  cases hrefs

theorem carriedIn_cons_of_ne (hne : w.id ≠ p.id) :
    CarriedIn (p :: polls) w ↔ CarriedIn polls w := by
  rw [CarriedIn, CarriedIn, find?_cons_of_neg (by simpa using hne.symm)]

theorem carriedIn_cons_self (heq : p.id = w.id) : CarriedIn (p :: polls) w ↔ Carries p w := by
  rw [CarriedIn, find?_cons_of_pos (by simpa using heq)]
  constructor
  · rintro ⟨q, hq, hcarries⟩
    rwa [some.inj hq]
  · intro hcarries
    exact ⟨p, rfl, hcarries⟩

/-- A change of each poll that keeps its id, its options and its references. -/
theorem carriedIn_map {f : CrewPoll → CrewPoll} (hid : ∀ p, (f p).id = p.id)
    (hoptions : ∀ p, (f p).options = p.options) (hrefs : ∀ p, (f p).setRefs = p.setRefs) :
    CarriedIn (polls.map f) w ↔ CarriedIn polls w := by
  have hfind : (polls.map f).find? (fun p => p.id = w.id)
      = (polls.find? (fun p => p.id = w.id)).map f := by
    rw [find?_map]
    simp only [Function.comp_def, hid]
  rw [CarriedIn, CarriedIn, hfind]
  constructor
  · rintro ⟨q, hq, hcarries⟩
    obtain ⟨p, hp, rfl⟩ := map_eq_some_iff.mp hq
    rw [Carries, hrefs, hoptions] at hcarries
    exact ⟨p, hp, hcarries⟩
  · rintro ⟨p, hp, hcarries⟩
    refine ⟨f p, by rw [hp]; rfl, ?_⟩
    rwa [Carries, hrefs, hoptions]

theorem castVote_id (pollId userId : String) (vote : Option CrewPollVote) (p : CrewPoll) :
    (castVote pollId userId vote p).id = p.id := by
  unfold castVote
  split_ifs <;> rfl

theorem carriedIn_castVote (pollId userId : String) (vote : Option CrewPollVote) :
    CarriedIn (polls.map (castVote pollId userId vote)) w ↔ CarriedIn polls w := by
  refine carriedIn_map (castVote_id pollId userId vote) ?_ ?_
  all_goals
    intro p
    unfold castVote
    split_ifs <;> rfl

theorem find?_without (hne : id ≠ pollId) (l : List CrewPoll) :
    (without pollId l).find? (fun p => p.id = id) = l.find? (fun p => p.id = id) := by
  induction l with
  | nil => rfl
  | cons p l ih =>
    rw [without, Keyed.erase] at ih ⊢
    by_cases hp : p.id = pollId
    · have hother : p.id ≠ id := fun h => hne (h.symm.trans hp)
      rw [filter_cons_of_neg (by simpa [Entry.id] using hp), ih,
        find?_cons_of_neg (by simpa using hother)]
    · rw [filter_cons_of_pos (by simpa [Entry.id] using hp), find?_cons, find?_cons,
        ih]

theorem carriedIn_without (hne : w.id ≠ pollId) :
    CarriedIn (without pollId polls) w ↔ CarriedIn polls w := by
  rw [CarriedIn, CarriedIn, find?_without hne]

theorem not_carriedIn_loadPolls (s : Store) (list : List ServerPoll) :
    ¬ CarriedIn (s.loadPolls (list.map ServerPoll.row)).polls w := by
  apply not_carriedIn
  rintro p hp -
  have hmem := mem_of_mem_filter hp
  rw [List.map_map] at hmem
  obtain ⟨poll, -, rfl⟩ := List.mem_map.mp hmem
  exact poll.plain

theorem CarriedIn.take_iff (h : CarriedIn polls w) (n : ℕ) :
    CarriedIn (polls.take n) w ↔ present w.id (polls.take n) = true := by
  obtain ⟨p, hp, hcarries⟩ := h
  constructor
  · intro htake
    obtain ⟨q, hq, hid, -⟩ := htake.mem
    exact List.any_eq_true.mpr ⟨q, hq, decide_eq_true hid⟩
  · intro hpresent
    obtain ⟨q, hq, hid⟩ := List.any_eq_true.mp hpresent
    have hfound : ((polls.take n).find? (fun p => p.id = w.id)).isSome :=
      find?_isSome.mpr ⟨q, hq, hid⟩
    obtain ⟨r, hr⟩ := isSome_iff_exists.mp hfound
    have hfirst : polls.find? (fun p => p.id = w.id) = some r := by
      rw [← take_append_drop n polls, find?_append, hr]
      rfl
    obtain rfl : r = p := some.inj (hfirst.symm.trans hp)
    exact ⟨r, hr, hcarries⟩

end Carried

/-! ## Each step -/

section Replay

variable {s : Store} {w : Watch} {clientId : String} {row : CrewPoll}

/-- The row that the reconciler puts in the list. -/
def carriedOver (polls : List CrewPoll) (clientId : String) (row : CrewPoll) : CrewPoll :=
  { row with
    optimistic := false
    setRefs := (polls.find? (fun p => p.id = clientId)).bind CrewPoll.setRefs <|> row.setRefs }

theorem reconcilePoll_polls :
    (s.reconcilePoll clientId (some row)).polls
      = if present clientId s.polls then
          if present row.id (without clientId s.polls) then without clientId s.polls
          else carriedOver s.polls clientId row :: without clientId s.polls
        else s.polls := rfl

/-- The replay of another create. -/
theorem carriedIn_reconcilePoll_of_ne (hclient : w.id ≠ clientId) (hrow : w.id ≠ row.id) :
    CarriedIn (s.reconcilePoll clientId (some row)).polls w ↔ CarriedIn s.polls w := by
  rw [reconcilePoll_polls]
  split_ifs
  · exact carriedIn_without hclient
  · have hplaced : w.id ≠ (carriedOver s.polls clientId row).id := hrow
    rw [carriedIn_cons_of_ne hplaced]
    exact carriedIn_without hclient
  · exact Iff.rfl

/-- The replay of the create itself carries the references over, unless a copy is there. -/
theorem CarriedIn.reconcilePoll_iff (h : CarriedIn s.polls w) (hne : w.id ≠ row.id)
    (hfresh : ∀ p ∈ s.polls, p.id = row.id → p.setRefs = none)
    (hoptions : ∀ p ∈ s.polls, p.id = w.id → row.options.length = p.options.length) :
    CarriedIn (s.reconcilePoll w.id (some row)).polls { w with id := row.id } ↔
      present row.id s.polls = false := by
  obtain ⟨p, hp, hrefs, hlen⟩ := h
  have hmem : p ∈ s.polls := mem_of_find?_eq_some hp
  have hid : p.id = w.id := by simpa using find?_some hp
  have htemp : present w.id s.polls = true :=
    List.any_eq_true.mpr ⟨p, hmem, decide_eq_true hid⟩
  have hcopy : present row.id (without w.id s.polls) = present row.id s.polls := by
    rw [Bool.eq_iff_iff, present, present, List.any_eq_true, List.any_eq_true]
    constructor
    · rintro ⟨q, hq, hqid⟩
      exact ⟨q, mem_of_mem_filter hq, hqid⟩
    · rintro ⟨q, hq, hqid⟩
      have hother : q.id ≠ w.id := fun heq => hne (heq.symm.trans (of_decide_eq_true hqid))
      exact ⟨q, Keyed.mem_erase.mpr ⟨hq, hother⟩, hqid⟩
  rw [reconcilePoll_polls, if_pos htemp, hcopy]
  by_cases hpresent : present row.id s.polls = true
  · rw [if_pos hpresent, hpresent]
    refine iff_of_false ?_ (by simp)
    exact not_carriedIn fun q hq hqid => hfresh q (mem_of_mem_filter hq) hqid
  · rw [if_neg hpresent, carriedIn_cons_self rfl]
    refine iff_of_true ⟨?_, ?_⟩ (Bool.eq_false_iff.mpr hpresent)
    · rw [carriedOver, hp]
      simp [hrefs]
    · exact hlen.trans (hoptions p hmem hid).symm

end Replay

/-- The row that an online create puts in the list. -/
def linked (row : CrewPoll) (setRefs : Option (List (Option PollSetRef))) : CrewPoll :=
  { row with setRefs := localSetRefs setRefs <|> row.setRefs }

theorem createPoll_polls (s : Store) (row : CrewPoll)
    (setRefs : Option (List (Option PollSetRef))) :
    (s.createPoll row setRefs).polls = linked row setRefs :: s.polls := rfl

theorem mem_unwatch {watched : List Watch} {w : Watch} :
    w ∈ unwatch pollId watched ↔ w ∈ watched ∧ w.id ≠ pollId := by
  rw [unwatch, mem_filter, decide_eq_true_eq]

/-- A new poll carries what is watched of it. -/
theorem carries_watch {request : CreateCrewPollRequest}
    {setRefs : Option (List (Option PollSetRef))} (haligned : aligned request setRefs)
    (hoptions : p.options.length = request.options.length)
    (hrefs : ∀ refs, localSetRefs setRefs = some refs → p.setRefs = some refs) {w : Watch}
    (hw : w ∈ watch id setRefs) : w.id = id ∧ Carries p w := by
  obtain ⟨refs, hlocal, rfl⟩ := List.mem_map.mp hw
  have hsome : localSetRefs setRefs = some refs := by simpa using hlocal
  have hset : setRefs = some refs := (filter_eq_some_iff.mp hsome).1
  rw [aligned, hset, all_some, decide_eq_true_eq] at haligned
  exact ⟨rfl, hrefs refs hsome, haligned.trans hoptions.symm⟩

/-- What is watched is carried after a change that carries the new poll and keeps the others. -/
theorem kept_of_carried {s t : State} (hs : Kept s)
    (hstep : ∀ w ∈ t.watched, CarriedIn t.store.polls w ∨
      w ∈ s.watched ∧ (CarriedIn s.store.polls w → CarriedIn t.store.polls w)) : Kept t := by
  rw [kept_iff_carried]
  intro w hw
  rcases hstep w hw with hnew | ⟨hold, hkeep⟩
  · exact hnew
  · exact hkeep (hs w hold).1

variable {platform} {s t : State}

theorem kept_replayed {clientId : String} {poll : ServerPoll} (hs : Kept s)
    (ht : step platform s (.replayed clientId poll) = some t) :
    Kept t ↔ Gentle platform s (.replayed clientId poll) := by
  simp only [step, ite_none_right_eq_some] at ht
  obtain ⟨⟨-, ⟨hrefs, hids⟩, hoptions⟩, hst⟩ := ht
  cases hst
  rw [kept_iff_carried] at hs ⊢
  simp only [Gentle, List.mem_map, forall_exists_index, and_imp, forall_apply_eq_imp_iff₂]
  constructor
  · intro h w hw hclient
    subst hclient
    have hrenamed := h w hw
    rw [Watch.rename, if_pos rfl] at hrenamed
    cases platform with
    | native => exact ⟨rfl, ((hs w hw).reconcilePoll_iff (hids w hw) hrefs hoptions).mp hrenamed⟩
    | web => exact absurd hrenamed (not_carriedIn hrefs)
  · intro h w hw
    by_cases hclient : w.id = clientId
    · obtain ⟨rfl, habsent⟩ := h w hw hclient
      subst hclient
      rw [Watch.rename, if_pos rfl]
      exact ((hs w hw).reconcilePoll_iff (hids w hw) hrefs hoptions).mpr habsent
    · rw [Watch.rename, if_neg hclient]
      cases platform with
      | native => exact (carriedIn_reconcilePoll_of_ne hclient (hids w hw)).mpr (hs w hw)
      | web => exact hs w hw

/-- A step keeps the references of the polls that are open exactly if it is gentle. -/
theorem kept_step {a : Action} (hs : Kept s) (ht : step platform s a = some t) :
    Kept t ↔ Gentle platform s a := by
  cases a with
  | createPoll request setRefs poll =>
    simp only [step, ite_none_right_eq_some] at ht
    obtain ⟨⟨haligned, hfresh, hoptions⟩, hst⟩ := ht
    cases hst
    refine iff_of_true (kept_of_carried hs fun w hw => ?_) trivial
    rw [createPoll_polls]
    rcases mem_append.mp hw with hnew | hold
    · have hrefs : ∀ refs, localSetRefs setRefs = some refs →
          (linked poll.row setRefs).setRefs = some refs := fun refs h => by simp [linked, h]
      have hlinked : (linked poll.row setRefs).options.length = request.options.length := hoptions
      obtain ⟨hid, hcarries⟩ := carries_watch haligned hlinked hrefs hnew
      have hself : (linked poll.row setRefs).id = w.id := hid.symm
      exact .inl ((carriedIn_cons_self hself).mpr hcarries)
    · have hne : w.id ≠ (linked poll.row setRefs).id := hfresh.2 w hold
      exact .inr ⟨hold, (carriedIn_cons_of_ne hne).mpr⟩
  | createPollOffline clientId crewId request setRefs now =>
    simp only [step, ite_none_right_eq_some] at ht
    obtain ⟨⟨haligned, hfresh⟩, hst⟩ := ht
    cases hst
    refine iff_of_true (kept_of_carried hs fun w hw => ?_) trivial
    rcases mem_append.mp hw with hnew | hold
    · obtain ⟨hid, hcarries⟩ := carries_watch haligned
        (p := optimisticPoll clientId crewId request setRefs now) rfl (fun refs h => h) hnew
      exact .inl ((carriedIn_cons_self hid.symm).mpr hcarries)
    · exact .inr ⟨hold, (carriedIn_cons_of_ne (hfresh.2 w hold)).mpr⟩
  | votePoll pollId userId optionIndex =>
    cases ht
    refine iff_of_true (kept_of_carried hs fun w hw => .inr ⟨hw, ?_⟩) trivial
    cases userId with
    | none => exact id
    | some user => exact (carriedIn_castVote pollId user _).mpr
  | voted i =>
    simp only [step, ite_none_right_eq_some] at ht
    obtain ⟨-, hst⟩ := ht
    cases hst
    exact iff_of_true hs trivial
  | voteRejected i message =>
    simp only [step] at ht
    split at ht
    · cases ht
      refine iff_of_true (kept_of_carried hs fun w hw => .inr ⟨hw, ?_⟩) trivial
      rename_i v _
      obtain ⟨pollId, userId, prevVote⟩ := v
      cases userId with
      | none => exact id
      | some user => exact (carriedIn_castVote pollId user _).mpr
    · cases ht
  | applyPollVote pollId userId optionIndex =>
    cases ht
    refine iff_of_true (kept_of_carried hs fun w hw => .inr ⟨hw, ?_⟩) trivial
    exact (carriedIn_castVote pollId userId _).mpr
  | applyPollCreated poll =>
    cases ht
    refine iff_of_true (kept_of_carried hs fun w hw => .inr ⟨hw, fun hcarried => ?_⟩) trivial
    obtain ⟨p, hp, hid, -⟩ := hcarried.mem
    simp only [Store.applyPollCreated]
    split_ifs with hpresent
    · exact hcarried
    · refine (carriedIn_cons_of_ne fun heq => hpresent ?_).mpr hcarried
      exact List.any_eq_true.mpr ⟨p, hp, decide_eq_true (hid.trans heq)⟩
  | loadPolls list =>
    cases ht
    rw [kept_iff_carried, Gentle]
    constructor
    · intro h
      exact eq_nil_iff_forall_not_mem.mpr
        fun w hw => not_carriedIn_loadPolls s.store list (h w hw)
    · intro hnil w hw
      rw [hnil] at hw
      cases hw
  | replayed clientId poll => exact kept_replayed hs ht
  | restart =>
    cases ht
    rw [kept_iff_carried]
    exact forall₂_congr fun w hw => (hs w hw).1.take_iff maxCachedPolls
  | applyPollClosed pollId =>
    cases ht
    refine iff_of_true (kept_of_carried hs fun w hw => ?_) trivial
    obtain ⟨hold, hne⟩ := mem_unwatch.mp hw
    exact .inr ⟨hold, (carriedIn_without hne).mpr⟩
  | closedElsewhere pollId =>
    cases ht
    refine iff_of_true (kept_of_carried hs fun w hw => ?_) trivial
    exact .inr ⟨(mem_unwatch.mp hw).1, id⟩

/-! ## Whole runs -/

/-- The store when the crew is selected; polls that are loaded are not watched. -/
def initial (store : Store) (queue : List String) : State :=
  { store := store
    queue := queue
    voting := []
    watched := [] }

/-- Every open poll that was created here keeps its references, and closes right, throughout a
run exactly when the steps of the run are gentle. -/
theorem kept_iff {store : Store} {queue : List String} {as : List Action}
    (hrun : Machine.run (step platform) (initial store queue) as = some t) :
    Machine.Always (step platform) Kept (initial store queue) as ↔
      Machine.Meets (step platform) (Gentle platform) (initial store queue) as := by
  have hinit : Kept (initial store queue) := fun w hw => by cases hw
  exact Machine.always_iff_meets (fun _ _ _ => kept_step) hinit hrun

/-! ## Two runs -/

def nextAct : CreateCrewPollRequest :=
  { question := "Next?"
    options := ["Elbow", "bar"]
    closesAt := none }

def elbow : PollSetRef :=
  { setId := "s1"
    label := "Elbow"
    stageReference := some "Main"
    meetAt := some "2026-07-03T20:00:00Z" }

/-- The poll as the server has it. -/
def nextPoll (votes : List CrewPollVote) : ServerPoll :=
  { row :=
      { id := "p1"
        crewId := "c1"
        createdBy := "u"
        question := "Next?"
        options := ["Elbow", "bar"]
        votes := votes
        closesAt := none
        closed := false
        createdAt := 2
        optimistic := false
        setRefs := none }
    plain := rfl }

def emptyStart : State := initial Store.initial []

/-- A poll is created offline, replayed, voted on by another member, restarted and closed. -/
def carriedRun : List Action :=
  [.createPollOffline "q1" "c1" nextAct (some [some elbow, none]) 1,
    .replayed "q1" (nextPoll []),
    .applyPollVote "p1" "v" 0,
    .restart,
    .applyPollClosed "p1"]

theorem carriedRun_kept :
    ∃ t, Machine.run (step .native) emptyStart carriedRun = some t ∧
      Machine.Always (step .native) Kept emptyStart carriedRun :=
  ⟨_, rfl, (kept_iff rfl).mpr ⟨trivial, fun _ => ⟨rfl, rfl⟩, trivial,
    List.forall_mem_singleton.mpr rfl, trivial, trivial⟩⟩

/-- The vote of the user reloads the polls, and closing the poll creates nothing. -/
theorem vote_drops_setRefs :
    ∃ t, Machine.run (step .native) emptyStart
        [.createPoll nextAct (some [some elbow, none]) (nextPoll []),
          .votePoll "p1" (some "u") 0,
          .voted 0,
          .loadPolls [nextPoll [⟨0, some "u"⟩]]] = some t ∧
      t.watched.map Watch.id = ["p1"] ∧ t.store.closePollCreates "p1" = none ∧ ¬ Kept t := by
  refine ⟨_, rfl, rfl, rfl, fun h => ?_⟩
  have hcarried := (h _ List.mem_cons_self).1
  exact not_carriedIn_loadPolls Store.initial [nextPoll [⟨0, some "u"⟩]] hcarried

end FestivalPlanner.SetPolls
