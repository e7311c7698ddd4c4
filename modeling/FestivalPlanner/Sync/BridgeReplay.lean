import FestivalPlanner.Lib.Machine
import FestivalPlanner.Sync.ApiClient
import FestivalPlanner.Sync.QueueCalls

/-!
# A pass of the web queue through the api client

`processQueue(adapter)`: the entries of the queue are replayed by the client that queues writes
itself.

* `State`, `step` — a pass, for any behaviour of the network and of `offlineMode`;
* `ReplaysEntry` — what is to be true of the replay of one entry;
* `Answered` — the write is not one that the client queues, or it is online and gets an answer
  that it can read;
* `replays_iff` — all entries of a pass are replayed so exactly when each of them is answered.
-/

namespace FestivalPlanner.WebQueue.Bridge

open List

/-! ## A pass -/

structure State where
  client : Client
  /-- The entries that are still to be replayed. -/
  pass : List Entry

inductive Action where
  | replay (now : ℤ) (randomId : String) (net : Network)
  | setOfflineMode (offline : Bool)

def step (storage : Storage) (s : State) : Action → Option State
  | .replay now randomId net =>
      match s.pass with
      | [] => none
      | m :: rest =>
          if m.isSendable then
            some { client := s.client.replay ⟨storage, now, randomId⟩ net m, pass := rest }
          else some { s with pass := rest }
  | .setOfflineMode offline => some { s with client := { s.client with offlineMode := offline } }

/-- The entries of the storage that works. -/
def entries (storage : Storage) (q : Queue) : List Entry :=
  match storage with
  | .indexedDb => q.idb
  | .localStorage => q.localQueue

/-- The pass begins: the queue is read. -/
def start (storage : Storage) (now : ℤ) (q : Queue) (offlineMode : Bool) : State :=
  let r := Queue.getAll now { q with device := storage.device }
  { client := { queue := r.2, offlineMode := offlineMode, sent := [] }
    pass := (r.1.map pendingInOrder).getD [] }

/-! ## The replay of an entry -/

/-- Was the last request of the entry answered with success? -/
def answered (c : Client) : Bool :=
  match c.lastStatus with
  | some status => isOk status
  | none => false

/-- An entry with one more retry, in its place and with its age. -/
def retried (clientId : String) (x : Entry) : Entry :=
  if x.clientId = clientId then { x with retries := x.retries + 1 } else x

/-- The replay of `m`, from `s` to `t`. -/
structure ReplaysEntry (storage : Storage) (s t : State) (m : Entry) : Prop where
  /-- Every request carries the client id of the entry. -/
  keys : ∀ x ∈ t.client.sent, ("Idempotency-Key", m.clientId) ∈ x.1.headers
  /-- No entry is added. -/
  adds : t.client.queue.serial = s.client.queue.serial ∧
    ∀ y ∈ entries storage t.client.queue, ∃ x ∈ entries storage s.client.queue, y.call = x.call
  /-- An entry is removed when its request was answered, or when it was reported. -/
  removed : ∀ x ∈ entries storage s.client.queue,
    (∃ y ∈ entries storage t.client.queue, y.call = x.call) ∨
    x = m ∧ (answered t.client ∨
      ∃ f ∈ t.client.queue.failedSync, f.serial = m.serial ∧ f.clientId = m.clientId)
  /-- A failed attempt counts as a retry and changes nothing else. -/
  failed : answered t.client = false → isPermanent m t.client.lastStatus = false →
    entries storage t.client.queue = (entries storage s.client.queue).map (retried m.clientId)

/-- The entries that are sent are replayed so. -/
def Replays (storage : Storage) (s : State) : Action → State → Prop
  | .replay .., t => ∀ m rest, s.pass = m :: rest → m.isSendable → ReplaysEntry storage s t m
  | .setOfflineMode _, _ => True

/-- A write that the client could queue is sent, and ends in an answer that it can use. -/
def Answered (s : State) : Action → Prop
  | .replay _ _ net =>
      match s.pass with
      | m :: _ =>
          m.isSendable → m.type = .api → isQueueable (adapterRequest m) →
            s.client.offlineMode = false ∧ net.breaks (adapterRequest m).path = false
      | [] => True
  | .setOfflineMode _ => True

/-! ## The queue during a pass -/

/-- The entries of the pass are entries of the queue. -/
structure Inv (storage : Storage) (s : State) : Prop where
  stored : s.client.queue.Stored
  mem : ∀ m ∈ s.pass, m ∈ entries storage s.client.queue
  nodup : (s.pass.map (fun e => e.clientId)).Nodup
  named : ∀ m ∈ s.pass, m.clientId ≠ ""

variable {q : Queue} {storage : Storage} {m : Entry} {s : State}

theorem clients_entries (h : q.Stored) (storage : Storage) :
    ((entries storage q).map (fun e => e.clientId)).Nodup := by
  cases storage with
  | indexedDb => exact h.idbClients
  | localStorage => exact h.localClients

theorem pending_entries (h : q.Stored) (storage : Storage) :
    ∀ e ∈ entries storage q, e.status = .pending := by
  cases storage with
  | indexedDb => exact h.idbPending
  | localStorage => exact h.localPending

/-- The first entry of a client id is the only one. -/
theorem updateFirst_eq_map {clientId : String} {retries : ℕ} {all : List Entry}
    (hn : (all.map (fun e => e.clientId)).Nodup) :
    updateFirst clientId retries all = all.map (fun x =>
      if x.clientId = clientId then { x with retries := retries, status := .pending } else x) := by
  induction all with
  | nil => rfl
  | cons m ms ih =>
    obtain ⟨hm, hn⟩ := nodup_cons.mp hn
    rw [updateFirst, map_cons]
    split_ifs with hc
    · have hself : ms.map (fun x => if x.clientId = clientId then
          { x with retries := retries, status := .pending } else x) = ms := by
        refine (map_congr_left (fun x hx => ?_)).trans (map_id ms)
        have hne : x.clientId ≠ clientId :=
          fun hx' => hm (mem_map.mpr ⟨x, hx, hx'.trans hc.symm⟩)
        simp [hne]
      rw [hself]
    · rw [ih hn]

/-- On a storage that works a bump adds a retry to the entry. -/
theorem entries_bump (h : q.Stored) (hm : m ∈ entries storage q) :
    entries storage (Queue.bump { q with device := storage.settling } m)
      = (entries storage q).map (retried m.clientId) := by
  have hsame {x : Entry} (hx : x ∈ entries storage q) (hc : x.clientId = m.clientId) : x = m :=
    inj_on_of_nodup_map (clients_entries h storage) hx hm hc
  have hself (x : Entry) (hx : x ∈ entries storage q) (hc : x.clientId = m.clientId) :
      ({ x with retries := m.retries + 1, status := .pending } : Entry) = retried m.clientId x := by
    obtain rfl := hsame hx hc
    have hp := pending_entries h storage x hm
    obtain ⟨mutation, id, status, retries, createdAt, serial⟩ := x
    obtain rfl : status = .pending := hp
    simp [retried]
  cases storage with
  | indexedDb =>
    obtain ⟨k, -, hid⟩ := h.idLt m hm
    simp only [Queue.bump, hid, Queue.updateMutation, entries, Storage.settling, Device.tx,
      Device.access, if_true]
    refine map_congr_left (fun x hx => ?_)
    by_cases hc : x.clientId = m.clientId
    · rw [if_pos (hsame hx hc ▸ hid)]
      exact hself x hx hc
    · have hk : x.id ≠ some k := fun hk =>
        hc (congrArg (fun e : Entry => e.clientId)
          (inj_on_of_nodup_map h.ids hx hm (hk.trans hid.symm)))
      simp [hk, retried, hc]
  | localStorage =>
    have hid : m.id = none := h.localId m hm
    have hex : ∃ x ∈ q.localQueue, x.clientId = m.clientId := ⟨m, hm, rfl⟩
    simp only [Queue.bump, hid, Queue.updateMutationByClientId, entries, Storage.settling,
      Device.access, hex, and_self, if_true]
    rw [updateFirst_eq_map h.localClients]
    refine map_congr_left (fun x hx => ?_)
    split_ifs with hc
    · exact hself x hx hc
    · simp [retried, hc]

/-- On a storage that works a removal removes the entry. -/
theorem entries_remove (h : q.Stored) (hm : m ∈ entries storage q) :
    entries storage (Queue.remove { q with device := storage.settling } m)
      = (entries storage q).filter (fun x => x.clientId ≠ m.clientId) := by
  cases storage with
  | indexedDb =>
    obtain ⟨k, -, hid⟩ := h.idLt m hm
    simp only [Queue.remove, hid, Queue.removeMutation, entries, Storage.settling, Device.tx,
      Device.access, if_true]
    refine filter_congr (fun x hx => ?_)
    rw [decide_eq_decide, not_iff_not]
    constructor
    · intro hk
      rw [inj_on_of_nodup_map h.ids hx hm (hk.trans hid.symm)]
    · intro hc
      rw [inj_on_of_nodup_map h.idbClients hx hm hc, hid]
  | localStorage =>
    have hid : m.id = none := h.localId m hm
    simp only [Queue.remove, hid, Queue.removeMutationByClientId, entries, Storage.settling,
      Device.access, if_true]

/-- A settled entry is removed, with a report unless it was delivered, or gets a retry. -/
theorem entries_settle (h : q.Stored) (hm : m ∈ entries storage q) (now : ℤ) (reply : Reply) :
    let t := Queue.settle now { q with device := storage.settling } m reply
    (entries storage t = (entries storage q).filter (fun x => x.clientId ≠ m.clientId) ∧
      (reply = .ok ∨ ∃ status message, reply = .error status message ∧ isPermanent m status ∧
        ∃ f ∈ t.failedSync, f.serial = m.serial ∧ f.clientId = m.clientId)) ∨
    (∃ status message, reply = .error status message ∧ isPermanent m status = false ∧
      entries storage t = (entries storage q).map (retried m.clientId)) := by
  cases reply with
  | ok => exact .inl ⟨entries_remove h hm, .inl rfl⟩
  | error status message =>
    simp only [Queue.settle]
    split_ifs with hp
    · refine .inl ⟨?_, .inr ⟨status, message, rfl, hp,
        report now (reason status message) m, ?_, rfl, rfl⟩⟩
      · exact entries_remove (q := q.addFailedSync (report now (reason status message) m))
          (h.reports _ _ _) (by cases storage <;> exact hm)
      · rw [(replaced_remove _ m).1]
        simp [Queue.addFailedSync]
    · exact .inr ⟨status, message, rfl, by simpa using hp, entries_bump h hm⟩

/-- A retry of an entry is permanent with the status of a network failure only if it is with
any status. -/
theorem isPermanent_of_fits {e status : Option ℕ} {message : String}
    (h : (Reply.error e message).Fits status) (hp : isPermanent m status = false) :
    isPermanent m e = false := by
  rcases h with rfl | rfl
  · simp only [isPermanent, Bool.or_eq_false_iff] at hp
    simp [isPermanent, hp.1.2]
  · exact hp

theorem answered_of_ok {c : Client} (h : Reply.ok.Fits c.lastStatus) : answered c = true := by
  obtain ⟨n, hn, hok⟩ := h
  simp [answered, hn, hok]

/-- The replay of an entry whose call only sends. -/
theorem replaysEntry_of_sends (h : Inv storage s) {rest : List Entry} (hpass : s.pass = m :: rest)
    {now : ℤ} {p : Reply × Client} (hqueue : p.2.queue = s.client.queue)
    (hsent : ∀ x ∈ p.2.sent, x.1 = withHeaders (adapterRequest m))
    (hfits : p.1.Fits p.2.lastStatus) {pass : List Entry} :
    ReplaysEntry storage s ⟨{ p.2 with
      queue := Queue.settle now { p.2.queue with device := storage.settling } m p.1 }, pass⟩ m := by
  have hmem : m ∈ entries storage s.client.queue := h.mem m (by simp [hpass])
  have hname : m.clientId ≠ "" := h.named m (by simp [hpass])
  have hs := shrinks_settle now { p.2.queue with device := storage.settling } m p.1
  have hset := entries_settle h.stored hmem now p.1
  rw [← hqueue] at hset
  refine ⟨?_, ⟨?_, ?_⟩, ?_, ?_⟩
  · intro x hx
    rw [hsent x hx]
    simp [withHeaders, adapterRequest, hname]
  · rw [← hqueue]
    exact hs.serial
  · intro y hy
    rw [← hqueue]
    cases storage with
    | indexedDb =>
      obtain ⟨x, hx, hcall, -⟩ := hs.idb y hy
      exact ⟨x, hx, hcall.symm⟩
    | localStorage =>
      obtain ⟨x, hx, hcall⟩ := hs.localQueue y hy
      exact ⟨x, hx, hcall.symm⟩
  · intro x hx
    rcases hset with ⟨heq, hreply⟩ | ⟨status, message, -, -, heq⟩
    · by_cases hc : x.clientId = m.clientId
      · refine .inr ⟨inj_on_of_nodup_map (clients_entries h.stored storage) hx hmem hc, ?_⟩
        rcases hreply with hok | ⟨status, message, -, -, hreported⟩
        · exact .inl (answered_of_ok (hok ▸ hfits))
        · exact .inr hreported
      · refine .inl ⟨x, ?_, rfl⟩
        rw [heq, hqueue]
        simp [hx, hc]
    · refine .inl ⟨retried m.clientId x, ?_, ?_⟩
      · rw [heq, hqueue]
        exact mem_map_of_mem hx
      · unfold retried
        split <;> rfl
  · intro hanswered hperm
    rcases hset with ⟨heq, hreply⟩ | ⟨status, message, -, -, heq⟩
    · rcases hreply with hok | ⟨status, message, hreply, hp, -⟩
      · have hyes : answered p.2 = true := answered_of_ok (hok ▸ hfits)
        exact absurd (hanswered.symm.trans hyes) Bool.false_ne_true
      · rw [hreply] at hfits
        exact absurd hp (by simp [isPermanent_of_fits hfits hperm])
    · rw [heq, hqueue]

/-- The replay of an entry that is answered: its call only sends, and its entry is settled. -/
theorem replay_of_answered (env : Setting) (net : Network) (c : Client) (m : Entry)
    (h : m.type = .api → isQueueable (adapterRequest m) →
      c.offlineMode = false ∧ net.breaks (adapterRequest m).path = false) :
    ∃ p : Reply × Client, p.2.queue = c.queue ∧
      (∀ x ∈ p.2.sent, x.1 = withHeaders (adapterRequest m)) ∧ p.1.Fits p.2.lastStatus ∧
      c.replay env net m = { p.2 with
        queue := Queue.settle env.now { p.2.queue with device := env.storage.settling } m p.1 } := by
  cases htype : m.type with
  | socket =>
    refine ⟨(.error none "socketEmitFn not provided", { c with sent := [] }), rfl, by simp,
      Or.inr rfl, ?_⟩
    simp only [Client.replay, htype]
  | api =>
    have hcond : isQueueable (adapterRequest m) = true →
        c.offlineMode = false ∧ net.breaks (adapterRequest m).path = false := h htype
    have hsends := @apiRequest_sends (adapterRequest m) { c with sent := [] } env net hcond
    simp only [Client.replay, htype]
    generalize { c with sent := [] }.apiRequest env net (adapterRequest m) = p at hsends
    obtain ⟨new, hnew, hheaders⟩ := hsends.sent
    refine ⟨p, hsends.queue, fun x hx => hheaders x ?_, hsends.fits, rfl⟩
    simpa [hnew] using hx

theorem replays_iff_answered {t : State} {a : Action} (h : Inv storage s)
    (hstep : step storage s a = some t) : Replays storage s a t ↔ Answered s a := by
  cases a with
  | setOfflineMode offline => exact Iff.rfl
  | replay now randomId net =>
    cases hpass : s.pass with
    | nil => simp [step, hpass] at hstep
    | cons m rest =>
      by_cases hsend : m.isSendable = true
      · simp only [step, hpass, hsend, if_true] at hstep
        obtain rfl := Option.some.inj hstep
        simp only [Replays, Answered, hpass, hsend, List.cons.injEq, true_imp_iff]
        constructor
        · intro hreplays hapi hqueue
          by_contra hnot
          have hadds := (hreplays m rest ⟨rfl, rfl⟩ hsend).adds.1
          have hcond : s.client.offlineMode = true ∨ net.breaks (adapterRequest m).path = true := by
            cases hoff : s.client.offlineMode with
            | true => exact .inl rfl
            | false => exact .inr (Bool.eq_true_of_not_eq_false (fun hb => hnot ⟨hoff, hb⟩))
          have hcall := @serial_apiRequest (adapterRequest m) { s.client with sent := [] }
            ⟨storage, now, randomId⟩ net hqueue hcond
          simp only [Client.replay, hapi] at hadds
          generalize { s.client with sent := [] }.apiRequest ⟨storage, now, randomId⟩ net
            (adapterRequest m) = p at hadds hcall
          rw [(shrinks_settle now { p.2.queue with device := storage.settling } m p.1).serial,
            hcall] at hadds
          exact absurd hadds (Nat.succ_ne_self _)
        · rintro hanswered m' rest' ⟨rfl, rfl⟩ -
          obtain ⟨p, hqueue, hsent, hfits, heq⟩ :=
            replay_of_answered ⟨storage, now, randomId⟩ net s.client m hanswered
          rw [heq]
          exact replaysEntry_of_sends h hpass hqueue hsent hfits
      · simp only [step, hpass, hsend] at hstep
        simp only [Replays, Answered, hpass, hsend, List.cons.injEq]
        constructor
        · exact fun _ hno => absurd hno Bool.false_ne_true
        · rintro - m' rest' ⟨rfl, rfl⟩ hno
          exact absurd hno hsend

theorem inv_step {t : State} {a : Action} (h : Inv storage s) (hanswered : Answered s a)
    (hstep : step storage s a = some t) : Inv storage t := by
  cases a with
  | setOfflineMode offline =>
    obtain rfl := Option.some.inj hstep
    exact ⟨h.stored, h.mem, h.nodup, h.named⟩
  | replay now randomId net =>
    cases hpass : s.pass with
    | nil => simp [step, hpass] at hstep
    | cons m rest =>
      have hmem := h.mem
      have hnamed := h.named
      have hn := h.nodup
      rw [hpass] at hmem hnamed hn
      obtain ⟨hm, hrest⟩ := nodup_cons.mp hn
      simp only [step, hpass] at hstep
      split_ifs at hstep with hsend
      · obtain rfl := Option.some.inj hstep
        simp only [Answered, hpass] at hanswered
        obtain ⟨p, hqueue, -, -, heq⟩ :=
          replay_of_answered ⟨storage, now, randomId⟩ net s.client m (hanswered hsend)
        rw [heq, hqueue]
        have hstored : Queue.Stored { s.client.queue with device := storage.settling } :=
          h.stored.reports _ _ _
        refine ⟨hstored.settle now m p.1, fun x hx => ?_, hrest,
          fun x hx => hnamed x (mem_cons_of_mem m hx)⟩
        have hne : x.clientId ≠ m.clientId := fun hc => hm (mem_map.mpr ⟨x, hx, hc⟩)
        have hxmem := hmem x (mem_cons_of_mem m hx)
        rcases entries_settle h.stored (hmem m mem_cons_self) now p.1 with
          ⟨hset, -⟩ | ⟨_, _, -, -, hset⟩
        · rw [hset]
          simp [hxmem, hne]
        · rw [hset]
          exact mem_map.mpr ⟨x, hxmem, by simp [retried, hne]⟩
      · obtain rfl := Option.some.inj hstep
        exact ⟨h.stored, fun x hx => hmem x (mem_cons_of_mem m hx), hrest,
          fun x hx => hnamed x (mem_cons_of_mem m hx)⟩

/-! ## Queues -/

/-- What every operation keeps of the queue. -/
structure WellFormed (q : Queue) : Prop where
  stored : q.Stored
  named : ∀ e ∈ q.idb ++ q.localQueue, e.clientId ≠ ""

theorem WellFormed.of_shrinks {t : Queue} (h : WellFormed q) (ht : t.Stored) (hs : Shrinks q t) :
    WellFormed t := by
  refine ⟨ht, fun e he => ?_⟩
  rcases mem_append.mp he with he | he
  · obtain ⟨x, hx, hcall, -⟩ := hs.idb e he
    have hc : x.clientId = e.clientId := congrArg (fun c => c.2.clientId) hcall
    exact hc ▸ h.named x (mem_append_left _ hx)
  · obtain ⟨x, hx, hcall⟩ := hs.localQueue e he
    have hc : x.clientId = e.clientId := congrArg (fun c => c.2.clientId) hcall
    exact hc ▸ h.named x (mem_append_right _ hx)

theorem WellFormed.reports (h : WellFormed q) (d : Device) (f : List FailedSyncItem) (r : List ℕ) :
    WellFormed { q with device := d, failedSync := f, replaced := r } :=
  h.of_shrinks (h.stored.reports d f r) (Shrinks.reports q d f r)

theorem entries_append {e : Entry} (he : e ∈ entries storage q) : e ∈ q.idb ++ q.localQueue := by
  cases storage with
  | indexedDb => exact mem_append_left _ he
  | localStorage => exact mem_append_right _ he

/-- A pass begins with the fresh entries of the storage that works, in the order of their age. -/
theorem pass_start (storage : Storage) (now : ℤ) (q : Queue) (offlineMode : Bool) :
    (start storage now q offlineMode).pass
      = pendingInOrder ((entries storage q).filter (Entry.isFresh now)) := by
  cases storage <;> rfl

theorem inv_start (h : WellFormed q) (now : ℤ) (offlineMode : Bool) :
    Inv storage (start storage now q offlineMode) := by
  have hq : WellFormed { q with device := storage.device } := h.reports _ _ _
  obtain ⟨d, f, r, heq⟩ := getAll_eq now { q with device := storage.device }
  have hqueue : (start storage now q offlineMode).client.queue
      = { q with device := d, failedSync := f, replaced := r } := heq
  have hmem : ∀ m ∈ (start storage now q offlineMode).pass, m ∈ entries storage q := by
    intro m hm
    rw [pass_start, pendingInOrder, mem_insertionSort, mem_filter, mem_filter] at hm
    exact hm.1.1
  refine ⟨hqueue ▸ h.stored.reports d f r, fun m hm => ?_, ?_,
    fun m hm => h.named m (entries_append (hmem m hm))⟩
  · rw [hqueue]
    cases storage <;> exact hmem m hm
  · rw [pass_start, pendingInOrder]
    refine ((perm_insertionSort _ _).map _).nodup_iff.mpr ?_
    exact (clients_entries h.stored storage).sublist
      ((filter_sublist.trans filter_sublist).map _)

/-- In a pass over any queue, on either storage, the entries are replayed as they should be
exactly when each write that the client could queue itself is sent and answered. -/
theorem replays_iff {storage : Storage} {q : Queue} (hq : WellFormed q) {now : ℤ}
    {offlineMode : Bool} {as : List Action} {t : State}
    (hrun : Machine.run (step storage) (start storage now q offlineMode) as = some t) :
    Machine.Each (step storage) (Replays storage) (start storage now q offlineMode) as ↔
      Machine.Meets (step storage) Answered (start storage now q offlineMode) as :=
  Machine.each_iff_meets (I := Inv storage) (fun _ _ _ => inv_step)
    (fun _ _ _ => replays_iff_answered) (inv_start hq now offlineMode) hrun

/-- A pick that is changed without a connection, in IndexedDB. -/
def queued : Queue :=
  { initial with
    idb := [{ clientId := "pick-p1-s1"
              type := .api
              url := some "/profiles/p1"
              method := some "PUT"
              id := some 1
              status := .pending
              retries := 0
              createdAt := 1000
              serial := 0 }]
    nextId := 2
    serial := 1 }

theorem wellFormed_queued : WellFormed queued := by
  refine ⟨⟨?_, ?_, ?_, ?_, ?_, ?_, ?_⟩, ?_⟩ <;> simp [queued, initial]

/-- A network whose first request ends so, without a refresh. -/
def network (first : Answer) : Network :=
  { first := first, refresh := .noHandler, second := .timedOut, onLine := true }

/-- The server is unavailable: the pick has one more retry. -/
def unavailableRun : List Action :=
  [.replay 5000 "r" (network (.response 503 "Service Unavailable" (.unreadable "")))]

theorem unavailableRun_replays : ∃ t,
    Machine.run (step .indexedDb) (start .indexedDb 5000 queued false) unavailableRun = some t ∧
    t.client.queue.idb.map (fun e => (e.serial, e.retries, e.createdAt)) = [(0, 1, 1000)] ∧
    Machine.Each (step .indexedDb) (Replays .indexedDb) (start .indexedDb 5000 queued false)
      unavailableRun :=
  ⟨_, rfl, rfl, (replays_iff wellFormed_queued rfl).mpr ⟨fun _ _ _ => ⟨rfl, rfl⟩, trivial⟩⟩

/-- The request is lost. -/
def lostRun : List Action := [.replay 5000 "r" (network (.lost "Failed to fetch"))]

/-- The pick is removed without an answer or a report; a new one is queued in its place. -/
theorem pick_requeued : ∃ t,
    Machine.run (step .indexedDb) (start .indexedDb 5000 queued false) lostRun = some t ∧
    t.client.queue.idb.map (fun e => (e.clientId, e.serial, e.retries, e.createdAt))
      = [("PUT:/profiles/p1", 1, 0, 5000)] ∧
    t.client.queue.failedSync.length = 0 ∧
    ¬ Machine.Each (step .indexedDb) (Replays .indexedDb) (start .indexedDb 5000 queued false)
      lostRun := by
  refine ⟨_, rfl, by decide, by decide, fun h => ?_⟩
  have hreplays := (Machine.each_cons.mp h _ rfl).1 _ _ rfl rfl
  exact absurd hreplays.adds.1 (by decide)

end FestivalPlanner.WebQueue.Bridge
