import FestivalPlanner.Lib.History
import FestivalPlanner.Sync.OfflineQueue

/-!
# Temporary ids and the entries that mention them

An optimistic create carries its `clientId` as a temporary id; later mutations may
mention it in their url or body.  When the create is replayed `drainQueue` learns
the real id and rewrites the urls of the stored queue, once in each url; the
snapshot it iterates, the bodies, and what is enqueued afterwards stay as they are
(`dependent_sent_with_tempId`).

* `expectedUrl` — the url an accepted mutation should be sent with: every id learnt
  since is substituted;
* `SentRewritten` — every replay is sent with that url, and mentions no temporary
  id whose real id is known;
* `CoveredByRewrite` — the condition on a step: the rewriting reaches every mention
  of the id it learns;
* `drainQueue_sentRewritten` — under that condition every replay of every run is
  sent rewritten.
-/

namespace FestivalPlanner.OfflineQueue

open Js List

/-! ## What should be sent -/

/-- Does the text occur in the body? -/
def bodyMentions (text : String) (m : Mutation) : Bool :=
  match m.body with
  | some body => body.mentions text
  | none => false

/-- Does the text occur in the url or the body? -/
def mentions (text : String) (m : Mutation) : Bool := includes text m.url || bodyMentions text m

/-- The ids of a `learned` event. -/
@[grind =] def Event.learned? : Event → Option (String × String)
  | learned tempId realId => some (tempId, realId)
  | _ => none

/-- How an event changes the url the mutation number `serial` should have. -/
def trackUrl (serial : ℕ) (url : Option String) : Event → Option String
  | .accepted e => if e.serial = serial then some e.url else url
  | .learned tempId realId => url.map (substitute tempId realId)
  | _ => url

/-- The url the mutation number `serial` should be sent with after this history. -/
def expectedUrl (serial : ℕ) (log : List Event) : Option String :=
  log.foldl (trackUrl serial) none

/-- The temporary and real ids learnt in a history. -/
@[grind =] def learnedIds (log : List Event) : List (String × String) := log.filterMap Event.learned?

/-- A replay is sent with the real ids substituted, and with no temporary id whose
real id is known. -/
def SentAsExpected (past : List Event) : Event → Prop
  | .sent m =>
      expectedUrl m.serial past = some m.url ∧
        ∀ ids ∈ learnedIds past, mentions ids.1 m.toMutation = false
  | _ => True

/-- Every replay of the history is sent rewritten. -/
def SentRewritten (log : List Event) : Prop := History.Along SentAsExpected log

instance SentAsExpected.decidable (past : List Event) : ∀ ev, Decidable (SentAsExpected past ev) := fun ev => by
  unfold SentAsExpected
  split <;> infer_instance

instance (log : List Event) : Decidable (SentRewritten log) :=
  inferInstanceAs (Decidable (History.Along SentAsExpected log))

/-! ## The condition on a step -/

/-- The rewriting reaches every mention of the id it learns: the entries still to be
replayed from the snapshot mention it nowhere, and the stored ones only in their
url, where the substitution leaves no known temporary id. -/
def RewriteReaches (s : State) (now : ℤ) : Pc → Prop
  | .rewriting m realId rest =>
      (∀ q ∈ rest, mentions m.clientId q.toMutation = false) ∧
        ∀ q ∈ s.queue, isFresh now q = true → bodyMentions m.clientId q.toMutation = false ∧
          ∀ tempId ∈ m.clientId :: (learnedIds s.log).map Prod.fst,
            includes tempId (substitute m.clientId realId q.url) = false
  | _ => True

/-- The condition on a step: a rewriting reaches every mention, and a mutation
enqueued later mentions no temporary id whose real id is known. -/
def CoveredByRewrite (s : State) : Action → Prop
  | .enqueue m _ _ => ∀ ids ∈ learnedIds s.log, mentions ids.1 m = false
  | .rewrite now => RewriteReaches s now s.pc
  | _ => True

instance RewriteReaches.decidable (s : State) (now : ℤ) :
    ∀ pc, Decidable (RewriteReaches s now pc) := fun pc => by
  unfold RewriteReaches
  split <;> infer_instance

instance CoveredByRewrite.decidable (s : State) : ∀ a, Decidable (CoveredByRewrite s a) := fun a => by
  unfold CoveredByRewrite
  split <;> infer_instance

/-! ## How the history changes what is expected -/

theorem expectedUrl_append (serial : ℕ) (log new : List Event) :
    expectedUrl serial (log ++ new) = new.foldl (trackUrl serial) (expectedUrl serial log) :=
  List.foldl_append

theorem expectedUrl_recorded (serial : ℕ) (log : List Event) (l : List QueuedMutation) :
    expectedUrl serial (log ++ l.map .recorded) = expectedUrl serial log := by
  rw [expectedUrl_append, foldl_map]
  exact foldl_fixed' (fun _ => rfl) l

theorem learnedIds_recorded (log : List Event) (l : List QueuedMutation) :
    learnedIds (log ++ l.map .recorded) = learnedIds log := by
  simp [learnedIds, filterMap_map, Function.comp_def, Event.learned?]

/-! ## The invariant -/

/-- The entry has the url it should have, and mentions no temporary id whose real id
is known. -/
def UpToDate (s : State) (q : QueuedMutation) : Prop :=
  expectedUrl q.serial s.log = some q.url ∧
    ∀ ids ∈ learnedIds s.log, mentions ids.1 q.toMutation = false

/-- What holds in every state of a run whose rewritings reach every mention. -/
structure IdInv (s : State) : Prop where
  /-- The stored entries are up to date. -/
  stored : ∀ q ∈ s.queue, UpToDate s q
  /-- So are the entries of the snapshot still to be replayed. -/
  waiting : ∀ q ∈ s.pc.rest, UpToDate s q
  /-- Serials are used once. -/
  storedSerial : ∀ q ∈ s.queue, q.serial < s.nextSerial
  waitingSerial : ∀ q ∈ s.pc.rest, q.serial < s.nextSerial
  /-- What was sent so far was sent rewritten. -/
  sent : SentRewritten s.log

theorem sentRewritten_recorded {log : List Event} (h : SentRewritten log)
    (l : List QueuedMutation) : SentRewritten (log ++ l.map .recorded) := by
  refine History.Along.append h fun past y hy => ?_
  obtain ⟨m, -, rfl⟩ := mem_map.mp hy
  trivial

variable {s t : State} {n : ℕ}

/-- Being up to date depends on the url, the body and what is expected. -/
theorem UpToDate.of_same {q q' : QueuedMutation} (h : UpToDate s q) (hurl : q'.url = q.url)
    (hbody : q'.body = q.body) (hexp : expectedUrl q'.serial t.log = expectedUrl q.serial s.log)
    (hids : learnedIds t.log = learnedIds s.log) : UpToDate t q' := by
  refine ⟨by rw [hexp, hurl]; exact h.1, fun ids hmem => ?_⟩
  have := h.2 ids (hids ▸ hmem)
  rwa [mentions, bodyMentions, hurl, hbody, ← bodyMentions, ← mentions]

/-- Steps that learn and accept nothing keep the invariant when what is stored and
what waits was stored or waiting before. -/
theorem IdInv.frame (hi : IdInv s) (l : List QueuedMutation)
    (hlog : t.log = s.log ++ l.map .recorded) (hnext : t.nextSerial = s.nextSerial)
    (hqueue : ∀ q ∈ t.queue, ∃ q₀ ∈ s.queue,
      q.url = q₀.url ∧ q.body = q₀.body ∧ q.serial = q₀.serial)
    (hrest : ∀ q ∈ t.pc.rest, q ∈ s.pc.rest ∨ q ∈ s.queue) : IdInv t := by
  have hids : learnedIds t.log = learnedIds s.log := by rw [hlog, learnedIds_recorded]
  have hexp : ∀ n, expectedUrl n t.log = expectedUrl n s.log :=
    fun n => by rw [hlog, expectedUrl_recorded]
  refine ⟨?_, ?_, ?_, ?_, hlog ▸ sentRewritten_recorded hi.sent l⟩
  · intro q hq
    obtain ⟨q₀, hq₀, hurl, hbody, hserial⟩ := hqueue q hq
    exact (hi.stored q₀ hq₀).of_same hurl hbody (by rw [hexp, hserial]) hids
  · intro q hq
    rcases hrest q hq with h | h
    · exact (hi.waiting q h).of_same rfl rfl (hexp _) hids
    · exact (hi.stored q h).of_same rfl rfl (hexp _) hids
  · intro q hq
    obtain ⟨q₀, hq₀, -, -, hserial⟩ := hqueue q hq
    rw [hserial, hnext]
    exact hi.storedSerial q₀ hq₀
  · intro q hq
    rw [hnext]
    exact (hrest q hq).elim (hi.waitingSerial q) (hi.storedSerial q)

/-- One more event that learns and accepts nothing. -/
theorem IdInv.quiet (hi : IdInv s) (ev : Event) (pc : Pc) (hexp : ∀ n u, trackUrl n u ev = u)
    (hids : ev.learned? = none) (hev : SentAsExpected s.log ev)
    (hrest : ∀ q ∈ pc.rest, q ∈ s.pc.rest) : IdInv { s.note ev with pc := pc } := by
  have hu : ∀ n, expectedUrl n (s.log ++ [ev]) = expectedUrl n s.log := fun n => by
    rw [expectedUrl_append, foldl_cons, foldl_nil, hexp]
  have hl : learnedIds (s.log ++ [ev]) = learnedIds s.log := by simp [learnedIds, hids]
  refine ⟨fun q hq => ?_, fun q hq => ?_, hi.storedSerial, fun q hq => ?_, ?_⟩
  · exact (hi.stored q hq).of_same rfl rfl (hu _) hl
  · exact (hi.waiting q (hrest q hq)).of_same rfl rfl (hu _) hl
  · exact hi.waitingSerial q (hrest q hq)
  · exact History.along_concat.mpr ⟨hi.sent, hev⟩

/-! ## The steps -/

theorem idInv_enqueue (hi : IdInv s) (m : Mutation) (createdAt : Option ℤ) (now : ℤ)
    (hm : ∀ ids ∈ learnedIds s.log, mentions ids.1 m = false) :
    IdInv (enqueueMutation m createdAt now s) := by
  set e := newEntry m createdAt now s with he
  set stale := s.queue.filter (fun m => !isFresh now m) with hstale
  have hlog : (enqueueMutation m createdAt now s).log =
      s.log ++ stale.map .recorded ++ [.accepted e] := by
    simp [enqueueMutation, writeQueue, he, newEntry, hstale]
  have hexp : ∀ n, expectedUrl n (enqueueMutation m createdAt now s).log =
      if e.serial = n then some e.url else expectedUrl n s.log := by
    intro n
    rw [hlog, expectedUrl_append, expectedUrl_recorded]
    rfl
  have hids : learnedIds (enqueueMutation m createdAt now s).log = learnedIds s.log := by
    rw [hlog, learnedIds, filterMap_append, ← learnedIds, learnedIds_recorded]
    simp [Event.learned?]
  -- An older entry has another serial, so nothing changes for it.
  have hold : ∀ q, q.serial < s.nextSerial → UpToDate s q →
      UpToDate (enqueueMutation m createdAt now s) q := by
    intro q hlt hup
    refine hup.of_same rfl rfl ?_ hids
    rw [hexp, if_neg]
    change s.nextSerial ≠ q.serial
    omega
  have hqueue : ∀ q ∈ (enqueueMutation m createdAt now s).queue, q = e ∨ q ∈ s.queue := by
    intro q hq
    rw [enqueueMutation_queue] at hq
    exact (Keyed.mem_or_eq_of_mem_upsert hq).imp id (fun h => (mem_filter.mp h).1)
  refine ⟨?_, ?_, ?_, ?_, ?_⟩
  · intro q hq
    rcases hqueue q hq with rfl | hq
    · exact ⟨by rw [hexp, if_pos rfl], fun ids h => hm ids (hids ▸ h)⟩
    · exact hold q (hi.storedSerial q hq) (hi.stored q hq)
  · intro q hq
    rw [enqueueMutation_pc] at hq
    exact hold q (hi.waitingSerial q hq) (hi.waiting q hq)
  · intro q hq
    rw [enqueueMutation_nextSerial]
    rcases hqueue q hq with rfl | hq
    · exact Nat.lt_succ_self _
    · exact (hi.storedSerial q hq).trans (Nat.lt_succ_self _)
  · intro q hq
    rw [enqueueMutation_pc] at hq
    rw [enqueueMutation_nextSerial]
    exact (hi.waitingSerial q hq).trans (Nat.lt_succ_self _)
  · rw [hlog]
    exact History.along_concat.mpr ⟨sentRewritten_recorded hi.sent stale, trivial⟩

theorem idInv_rewrite (hi : IdInv s) {m : QueuedMutation} {realId : String}
    {rest : List QueuedMutation} (now : ℤ) (hpc : s.pc = .rewriting m realId rest)
    (hreach : RewriteReaches s now s.pc) :
    IdInv { (rewriteUrls m.clientId realId now s).note (.learned m.clientId realId) with
      pc := .looping rest } := by
  set t : State := { (rewriteUrls m.clientId realId now s).note (.learned m.clientId realId) with
    pc := .looping rest } with ht
  set stale := s.queue.filter (fun m => !isFresh now m) with hstale
  simp only [hpc, RewriteReaches] at hreach
  obtain ⟨hrest, hqueue⟩ := hreach
  have hlog : t.log = s.log ++ stale.map .recorded ++ [.learned m.clientId realId] := by
    simp [ht, hstale]
  have hexp : ∀ n, expectedUrl n t.log =
      (expectedUrl n s.log).map (substitute m.clientId realId) := by
    intro n
    rw [hlog, expectedUrl_append, expectedUrl_recorded]
    rfl
  have hids : learnedIds t.log = learnedIds s.log ++ [(m.clientId, realId)] := by
    rw [hlog, learnedIds, filterMap_append, ← learnedIds, learnedIds_recorded]
    rfl
  have hwaiting : ∀ q ∈ rest, q ∈ s.pc.rest := fun q hq => by rw [hpc]; exact hq
  have htqueue : t.queue = (s.queue.filter (isFresh now)).map
      (fun q => { q with url := substitute m.clientId realId q.url }) := by simp [ht]
  refine ⟨?_, ?_, ?_, ?_, ?_⟩
  · intro q hq
    rw [htqueue, mem_map] at hq
    obtain ⟨q₀, hq₀, rfl⟩ := hq
    obtain ⟨hmem, hfresh⟩ := mem_filter.mp hq₀
    obtain ⟨hbody, hclean⟩ := hqueue q₀ hmem hfresh
    obtain ⟨hurl, hold⟩ := hi.stored q₀ hmem
    refine ⟨by rw [hexp, hurl]; rfl, fun ids h => ?_⟩
    rw [hids, mem_append, mem_singleton] at h
    rw [mentions, Bool.or_eq_false_iff]
    rcases h with h | rfl
    · have hids₀ := hold ids h
      rw [mentions, Bool.or_eq_false_iff] at hids₀
      exact ⟨hclean ids.1 (mem_cons_of_mem _ (mem_map_of_mem h)), hids₀.2⟩
    · exact ⟨hclean m.clientId (mem_cons_self ..), hbody⟩
  · intro q hq
    obtain ⟨hurl, hold⟩ := hi.waiting q (hwaiting q hq)
    have hnot := hrest q hq
    refine ⟨?_, fun ids h => ?_⟩
    · rw [mentions, Bool.or_eq_false_iff] at hnot
      rw [hexp, hurl, Option.map_some, substitute, if_neg (by simp [hnot.1])]
    · rw [hids, mem_append, mem_singleton] at h
      rcases h with h | rfl
      · exact hold ids h
      · exact hnot
  · intro q hq
    rw [htqueue, mem_map] at hq
    obtain ⟨q₀, hq₀, rfl⟩ := hq
    have := hi.storedSerial q₀ (mem_filter.mp hq₀).1
    simpa [ht] using this
  · intro q hq
    have := hi.waitingSerial q (hwaiting q hq)
    simpa [ht] using this
  · rw [hlog]
    exact History.along_concat.mpr ⟨sentRewritten_recorded hi.sent stale, trivial⟩

/-- Every step whose rewriting reaches every mention keeps the invariant. -/
theorem idInv_step {a : Action} (hi : IdInv s) (hc : CoveredByRewrite s a) (h : step s a = some t) :
    IdInv t := by
  have hsame : ∀ q : QueuedMutation, q ∈ s.queue → ∃ q₀ ∈ s.queue,
      q.url = q₀.url ∧ q.body = q₀.body ∧ q.serial = q₀.serial :=
    fun q hq => ⟨q, hq, rfl, rfl, rfl⟩
  have hremove : ∀ clientId now, ∀ q ∈ (removeEntry clientId now s).queue, q ∈ s.queue := by
    intro clientId now q hq
    rw [removeEntry_queue] at hq
    exact (mem_filter.mp (Keyed.mem_erase.mp hq).1).1
  cases Step.of_step h with
  | enqueue m createdAt now => exact idInv_enqueue hi m createdAt now hc
  | skip => exact hi
  | start now hpc =>
    refine hi.frame _ (readQueue_log now s) (readQueue_nextSerial now s) ?_ ?_
    · intro q hq
      simp only [readQueue_queue] at hq
      exact hsame q (mem_filter.mp hq).1
    · intro q hq
      have hq := mem_sortQueue.mp hq
      rw [readQueue_queue] at hq
      exact .inr (mem_filter.mp hq).1
  | send m rest hpc =>
    refine hi.quiet (.sent m) _ (fun _ _ => rfl) rfl ?_ ?_
    · exact hi.waiting m (by rw [hpc]; exact mem_cons_self ..)
    · exact fun q hq => by rw [hpc]; exact mem_cons_of_mem _ hq
  | succeed m rest v offline hpc =>
    exact hi.quiet (.delivered m) _ (fun _ _ => rfl) rfl trivial
      (fun q hq => by rw [hpc]; exact hq)
  | stop m rest status message hpc =>
    exact hi.frame [] (by simp) rfl hsame (fun q hq => by cases hq)
  | fail m rest status message hpc =>
    exact hi.frame [] (by simp) rfl hsame (fun q hq => .inl (by rw [hpc]; exact hq))
  | settle m r rest now _ hpc hset =>
    have hrest : ∀ q ∈ rest, q ∈ s.pc.rest ∨ q ∈ s.queue :=
      fun q hq => .inl (by rw [hpc]; exact hq)
    cases hset with
    | learns v realId hid =>
      exact hi.frame _ (readQueue_log now s) (removeEntry_nextSerial m.clientId now s)
        (fun q hq => hsame q (hremove _ _ q hq)) hrest
    | removes v hid =>
      exact hi.frame _ (readQueue_log now s) (removeEntry_nextSerial m.clientId now s)
        (fun q hq => hsame q (hremove _ _ q hq)) hrest
    | fails status message hgives =>
      exact hi.frame _ (readQueue_log now s) (removeEntry_nextSerial m.clientId now s)
        (fun q hq => hsame q (hremove _ _ q hq)) hrest
    | keeps status message hgives =>
      refine hi.frame _ ((bumpRetries_log ..).trans (readQueue_log now s))
        (bumpRetries_nextSerial ..) ?_ hrest
      intro q hq
      simp only [bumpRetries_queue] at hq
      rcases Keyed.mem_of_mem_modify hq with hq | ⟨q₀, hq₀, -, rfl⟩
      · exact hsame q (mem_filter.mp hq).1
      · exact ⟨q₀, (mem_filter.mp hq₀).1, rfl, rfl, rfl⟩
  | record m error rest now hpc =>
    exact hi.frame [m] rfl rfl hsame (fun q hq => .inl (by rw [hpc]; exact hq))
  | rewrite m realId rest now hpc => exact idInv_rewrite hi now hpc hc
  | finish hpc => exact hi.frame [] (by simp) rfl hsame (fun q hq => by cases hq)

/-! ## From a stored queue -/

/-- Entries with another serial change nothing. -/
theorem foldl_trackUrl_number {k : ℕ} (hk : k < n) (l : List (Mutation × ℤ)) (u : Option String) :
    ((number n l).map Event.accepted).foldl (trackUrl k) u = u := by
  induction l generalizing n u with
  | nil => rfl
  | cons p l ih =>
    rw [number, map_cons, foldl_cons, ih (by omega), trackUrl, if_neg]
    change n ≠ k
    omega

theorem foldl_trackUrl_of_mem_number {l : List (Mutation × ℤ)} {e : QueuedMutation}
    (h : e ∈ number n l) (u : Option String) :
    ((number n l).map Event.accepted).foldl (trackUrl e.serial) u = some e.url := by
  induction l generalizing n u with
  | nil => cases h
  | cons p l ih =>
    rw [number, map_cons, foldl_cons]
    rcases mem_cons.mp h with rfl | h
    · rw [trackUrl, if_pos rfl, foldl_trackUrl_number (Nat.lt_succ_self _)]
    · exact ih h _

theorem idInv_initial (q : StoredQueue) (failedSync : List FailedSyncItem) (reconciler : Bool) :
    IdInv (initial q failedSync reconciler) := by
  have hids : learnedIds ((number 0 q.entries).map Event.accepted) = [] := by
    simp [learnedIds, filterMap_map, Function.comp_def, Event.learned?]
  refine ⟨fun e he => ⟨foldl_trackUrl_of_mem_number he none, fun ids h => ?_⟩,
    (fun _ hm => by cases hm), fun e he => ?_, (fun _ hm => by cases hm), ?_⟩
  · change ids ∈ learnedIds ((number 0 q.entries).map Event.accepted) at h
    rw [hids] at h
    cases h
  · have := serial_lt_of_mem_number he
    simpa [initial] using this
  · refine History.Along.append (h := []) History.along_nil fun past y hy => ?_
    obtain ⟨e, -, rfl⟩ := mem_map.mp hy
    trivial

/-- **Every replay is sent rewritten** in a run whose rewritings reach every mention:
in the pass that learns a real id and in every later one, the mutations replayed
afterwards carry the real id and never the temporary one. -/
theorem drainQueue_sentRewritten (q : StoredQueue) (failedSync : List FailedSyncItem)
    (reconciler : Bool) (as : List Action) (s : State)
    (hrun : Machine.run step (initial q failedSync reconciler) as = some s)
    (hcovered : Machine.Meets step CoveredByRewrite (initial q failedSync reconciler) as) :
    SentRewritten s.log :=
  (Machine.inv_run_of_meets (fun _ _ _ hi hc h => idInv_step hi hc h)
    (idInv_initial q failedSync reconciler) hcovered hrun).sent

/-! ## A dependent sent with the temporary id -/

/-- An optimistic poll, created offline under a temporary id. -/
def pollCreate : Mutation where
  clientId := "tmp-1"
  url := "/crews/c1/polls"
  method := .post

/-- A vote on that poll. -/
def pollVote : Mutation where
  clientId := "PUT:/crews/c1/polls/tmp-1/vote"
  url := "/crews/c1/polls/tmp-1/vote"
  method := .put

/-- The reply that carries the real id of the poll. -/
def pollReply : Reply := .ok (.obj [("poll", .obj [("id", .str "p7")])])

/-- Only the create is stored. -/
def onePoll : StoredQueue := ⟨[(pollCreate, 0)], by decide⟩

/-- The vote is enqueued while the create is in flight, and replayed by the next drain. -/
def lateVoteRun : List Action :=
  [.start false 1, .send, .enqueue pollVote none 2, .reply pollReply false, .settle 3,
    .rewrite 3, .finish, .start false 4, .send, .reply (.ok .null) false, .settle 5, .finish]

/-- The promise on a run in which the rewriting reaches the one dependent. -/
theorem sentRewritten_lateVoteRun :
    ∃ s ∈ Machine.run step (initial onePoll [] true) lateVoteRun, SentRewritten s.log := by
  obtain ⟨s, hs⟩ : ∃ s, Machine.run step (initial onePoll [] true) lateVoteRun = some s :=
    Option.isSome_iff_exists.mp (by decide)
  exact ⟨s, hs, drainQueue_sentRewritten onePoll [] true lateVoteRun s hs (by decide)⟩

/-- The create and the vote are both stored when the drain starts. -/
def pollAndVote : StoredQueue := ⟨[(pollCreate, 0), (pollVote, 1)], by decide⟩

/-- One drain replays both. -/
def samePassRun : List Action :=
  [.start false 2, .send, .reply pollReply false, .settle 3, .rewrite 3, .send]

/-- **The dependent is sent with the temporary id**: the stored entry is rewritten,
but the drain replays the one of its snapshot. -/
theorem dependent_sent_with_tempId :
    ∃ s ∈ Machine.run step (initial pollAndVote [] true) samePassRun, ¬SentRewritten s.log := by
  decide

end FestivalPlanner.OfflineQueue
