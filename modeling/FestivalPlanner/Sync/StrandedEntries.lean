import FestivalPlanner.Lib.Machine
import FestivalPlanner.Sync.WebQueue
import Mathlib.Data.List.Dedup
import Mathlib.Data.List.Perm.Subperm

/-!
# Entries that no read finds

What the reads of the web queue find after any history of storage failures.

* `Action`, `step` — calls of `queueMutation`, `getPendingCount` and `processQueue`, one after
  the other, with the accesses to storage that succeed in each;
* `FindsAll` — the count is that of all pending mutations, and a pass attempts all of them;
* `noStranded_iff` — the calls of a run find all exactly when each of them reads a store that
  holds all that is pending.
-/

namespace FestivalPlanner.WebQueue

open List

/-! ## A pass -/

/-- `for (const mutation of pending)`, with the serials of the entries that are attempted.
An entry without a reply fails without a status. -/
def Queue.processEntries (now : ℤ) (q : Queue) : List Reply → List Entry → List ℕ × Queue
  | _, [] => ([], q)
  | replies, m :: ms =>
      if m.isSendable then
        let r := (replies.head?).getD (.error none "")
        let next := (q.settle now m r).processEntries now replies.tail ms
        (m.serial :: next.1, next.2)
      else q.processEntries now replies ms

/-- `processQueue`, when no other pass runs. -/
def Queue.processQueue (now : ℤ) (replies : List Reply) (q : Queue) : List ℕ × Queue :=
  match (q.getAll now).1 with
  | none => ([], (q.getAll now).2.getPendingCount.2)
  | some all =>
      let r := (q.getAll now).2.processEntries now replies (pendingInOrder all)
      (r.1, r.2.getPendingCount.2)

inductive Action where
  | queueMutation (now : ℤ) (fresh : String) (m : Mutation) (io : List Bool)
  | getPendingCount (io : List Bool)
  | processQueue (now : ℤ) (replies : List Reply) (io : List Bool)

def step (q : Queue) : Action → Option Queue
  | .queueMutation now fresh m io => some ((q.withIo io).queueMutation now fresh m)
  | .getPendingCount io => some (q.withIo io).getPendingCount.2
  | .processQueue now replies io => some ((q.withIo io).processQueue now replies).2

/-! ## What a read finds -/

/-- The mutations that were accepted and are pending, in either store. -/
def Queue.pendingSerials (q : Queue) : List ℕ :=
  ((q.idb ++ q.localQueue).filter Entry.isPending).map Entry.serial

/-- The count counts every pending mutation, and the pass attempts every pending mutation. -/
def FindsAll (q : Queue) : Action → Queue → Prop
  | .queueMutation .., _ => True
  | .getPendingCount io, _ => (q.withIo io).getPendingCount.1 = some q.pendingSerials.dedup.length
  | .processQueue now replies io, _ =>
      ∀ u ∈ q.pendingSerials, u ∈ ((q.withIo io).processQueue now replies).1

/-- One of the stores answers, and it holds every pending mutation of both; a pass also needs
them to be younger than 24 hours and to have an address. -/
def ReadsAll (q : Queue) : Action → Prop
  | .queueMutation .. => True
  | .getPendingCount io =>
      match (q.withIo io).read.1 with
      | none => False
      | some all => ∀ u ∈ q.pendingSerials, u ∈ (all.filter Entry.isPending).map Entry.serial
  | .processQueue now _ io =>
      match (q.withIo io).read.1 with
      | none => q.pendingSerials = []
      | some all => ∀ u ∈ q.pendingSerials,
          u ∈ (all.filter (fun m => m.isPending && m.isFresh now && m.isSendable)).map Entry.serial

instance (q : Queue) : ∀ a : Action, Decidable (ReadsAll q a)
  | .queueMutation .. => .isTrue trivial
  | .getPendingCount io =>
      match h : (q.withIo io).read.1 with
      | none => .isFalse (by simp [ReadsAll, h])
      | some all =>
          decidable_of_iff
            (∀ u ∈ q.pendingSerials, u ∈ (all.filter Entry.isPending).map Entry.serial)
            (by simp [ReadsAll, h])
  | .processQueue now _ io =>
      match h : (q.withIo io).read.1 with
      | none => decidable_of_iff (q.pendingSerials = []) (by simp [ReadsAll, h])
      | some all =>
          decidable_of_iff
            (∀ u ∈ q.pendingSerials, u ∈ (all.filter (fun m =>
              m.isPending && m.isFresh now && m.isSendable)).map Entry.serial)
            (by simp [ReadsAll, h])

/-! ## Serials -/

/-- Every entry of a store is that of another call. -/
structure Numbered (n : ℕ) (all : List Entry) : Prop where
  nodup : (all.map Entry.serial).Nodup
  lt : ∀ m ∈ all, m.serial < n

def Queue.Inv (q : Queue) : Prop := Numbered q.serial q.idb ∧ Numbered q.serial q.localQueue

variable {n : ℕ} {all : List Entry} {q : Queue} {now : ℤ}

theorem Numbered.mono {k : ℕ} (h : Numbered n all) (hk : n ≤ k) : Numbered k all :=
  ⟨h.nodup, fun m hm => lt_of_lt_of_le (h.lt m hm) hk⟩

theorem Numbered.sublist {some : List Entry} (h : Numbered n all) (hs : some.Sublist all) :
    Numbered n some :=
  ⟨h.nodup.sublist (hs.map _), fun m hm => h.lt m (hs.mem hm)⟩

theorem Numbered.of_map_eq {other : List Entry} (h : Numbered n all)
    (hs : other.map Entry.serial = all.map Entry.serial) : Numbered n other := by
  refine ⟨hs ▸ h.nodup, fun m hm => ?_⟩
  have hmem : m.serial ∈ all.map Entry.serial := hs ▸ mem_map_of_mem hm
  obtain ⟨x, hx, hxm⟩ := mem_map.mp hmem
  exact hxm ▸ h.lt x hx

/-- The entry of a new call is appended. -/
theorem Numbered.append (h : Numbered n all) {e : Entry} (he : e.serial = n) :
    Numbered (n + 1) (all ++ [e]) := by
  refine ⟨?_, ?_⟩
  · rw [map_append, nodup_append]
    refine ⟨h.nodup, by simp, ?_⟩
    intro a ha b hb
    obtain ⟨m, hm, rfl⟩ := mem_map.mp ha
    obtain rfl : b = n := by simpa [he] using hb
    exact (h.lt m hm).ne
  · intro m hm
    rcases mem_append.mp hm with hm | hm
    · exact (h.lt m hm).trans (Nat.lt_succ_self n)
    · obtain rfl := mem_singleton.mp hm
      omega

theorem inv_addFailedSync (h : q.Inv) (item : FailedSyncItem) :
    (q.addFailedSync item).Inv := h

theorem inv_getAll (h : q.Inv) : (q.getAll now).2.Inv := by
  obtain ⟨d, f, r, heq⟩ := getAll_eq now q
  rw [heq]
  exact h

theorem inv_remove (h : q.Inv) (m : Entry) : (q.remove m).Inv := by
  obtain ⟨d, heq | ⟨k, -, heq⟩ | ⟨-, heq⟩⟩ := remove_cases q m
  · rw [heq]
    exact h
  · rw [heq]
    exact ⟨h.1.sublist filter_sublist, h.2⟩
  · rw [heq]
    exact ⟨h.1, h.2.sublist filter_sublist⟩

theorem inv_bump (h : q.Inv) (m : Entry) : (q.bump m).Inv := by
  obtain ⟨d, heq | ⟨k, -, heq⟩ | ⟨-, heq⟩⟩ := bump_cases q m
  · rw [heq]
    exact h
  · have hmap : (q.idb.map (bumpAt k (m.retries + 1))).map Entry.serial
        = q.idb.map Entry.serial := by simp [Function.comp_def]
    rw [heq]
    exact ⟨h.1.of_map_eq hmap, h.2⟩
  · rw [heq]
    exact ⟨h.1, h.2.of_map_eq (map_updateFirst Entry.serial (fun _ _ => rfl) _ _ _)⟩

theorem inv_settle (h : q.Inv) (m : Entry) (r : Reply) : (q.settle now m r).Inv := by
  cases r with
  | ok => exact inv_remove h m
  | error status message =>
    simp only [Queue.settle]
    split
    · exact inv_remove (inv_addFailedSync h _) m
    · exact inv_bump h m

theorem inv_processEntries {replies : List Reply} {ms : List Entry} (h : q.Inv) :
    (q.processEntries now replies ms).2.Inv := by
  induction ms generalizing q replies with
  | nil => exact h
  | cons m ms ih =>
    rw [Queue.processEntries]
    split
    · exact ih (inv_settle h m _)
    · exact ih h

/-- The two stores with an entry of a new call in one of them. -/
theorem inv_queueMutation {fresh : String} (h : q.Inv) (m : Mutation) :
    (q.queueMutation now fresh m).Inv := by
  have hidb (e : Entry) (he : e.serial = q.serial) (d : Device) :
      (Queue.upsertIdb { q with serial := q.serial + 1, device := d } e).Inv :=
    ⟨(h.1.sublist filter_sublist).append he, h.2.mono (Nat.le_succ _)⟩
  have hlocal (q' : Queue) (hq : q'.serial = q.serial + 1) (h1 : Numbered q'.serial q'.idb)
      (h2 : q'.localQueue = q.localQueue) (e : Entry) (he : e.serial = q.serial) :
      (q'.queueInLocal now e).2.Inv := by
    have hl : Numbered q'.serial q'.localQueue := by
      rw [hq, h2]
      exact h.2.mono (Nat.le_succ _)
    have hup : Numbered q'.serial
        (q'.localQueue.eraseP (fun m => m.clientId = e.clientId ∧ m.status = .pending) ++ [e]) := by
      rw [hq, h2]
      exact (h.2.sublist eraseP_sublist).append he
    simp only [Queue.queueInLocal]
    split_ifs
    · exact ⟨h1, hl⟩
    · exact ⟨h1, hl⟩
    · exact ⟨h1, hup⟩
    · exact ⟨h1, hup⟩
  simp only [Queue.queueMutation, Queue.queueInIdb]
  generalize (if m.clientId = "" then { m with clientId := fresh } else m) = m'
  split_ifs with hopen hdone hdone
  · exact hidb _ rfl _
  · exact hlocal _ rfl (hidb _ rfl _).1 rfl _ rfl
  · contradiction
  · exact hlocal { q with serial := q.serial + 1, device := q.device.openTx.2 } rfl
      (h.1.mono (Nat.le_succ _)) rfl (entryOf now q.serial m') rfl

theorem inv_step {t : Queue} {a : Action} (h : q.Inv) (hstep : step q a = some t) : t.Inv := by
  cases a with
  | queueMutation now fresh m io =>
    obtain rfl := Option.some.inj hstep
    exact inv_queueMutation (q := q.withIo io) h m
  | getPendingCount io =>
    obtain rfl := Option.some.inj hstep
    exact h
  | processQueue now replies io =>
    obtain rfl := Option.some.inj hstep
    have hall : ((q.withIo io).getAll now).2.Inv := inv_getAll (q := q.withIo io) h
    unfold Queue.processQueue
    split
    · exact hall
    · exact inv_processEntries hall

/-! ## Reads -/

/-- A pass attempts the entries of its list that can be sent. -/
theorem attempted_processEntries (now : ℤ) (q : Queue) (replies : List Reply) (ms : List Entry) :
    (q.processEntries now replies ms).1 = (ms.filter Entry.isSendable).map Entry.serial := by
  induction ms generalizing q replies with
  | nil => rfl
  | cons m ms ih =>
    rw [Queue.processEntries]
    by_cases hm : m.isSendable = true
    · simp [hm, ih]
    · simp [hm, ih]

theorem mem_attempted_iff {replies : List Reply} {u : ℕ} :
    u ∈ (q.processQueue now replies).1 ↔
      ∃ all, q.read.1 = some all ∧ u ∈ (all.filter (fun m =>
        m.isPending && m.isFresh now && m.isSendable)).map Entry.serial := by
  unfold Queue.processQueue Queue.getAll
  cases hread : q.read.1 with
  | none => simp
  | some all =>
    simp only [attempted_processEntries, mem_map, mem_filter, pendingInOrder,
      mem_insertionSort, Option.some.injEq, exists_eq_left', Bool.and_eq_true]
    constructor
    · rintro ⟨m, ⟨⟨⟨hm, hfresh⟩, hpending⟩, hsend⟩, rfl⟩
      exact ⟨m, ⟨hm, ⟨hpending, hfresh⟩, hsend⟩, rfl⟩
    · rintro ⟨m, ⟨hm, ⟨hpending, hfresh⟩, hsend⟩, rfl⟩
      exact ⟨m, ⟨⟨⟨hm, hfresh⟩, hpending⟩, hsend⟩, rfl⟩

/-- The count of one store is the number of all pending mutations exactly when the store holds
all of them. -/
theorem length_pending_eq_iff (h : q.Inv) (hall : all = q.idb ∨ all = q.localQueue) :
    (all.filter Entry.isPending).length = q.pendingSerials.dedup.length ↔
      ∀ u ∈ q.pendingSerials, u ∈ (all.filter Entry.isPending).map Entry.serial := by
  have hnodup : ((all.filter Entry.isPending).map Entry.serial).Nodup := by
    have hn : (all.map Entry.serial).Nodup := by
      rcases hall with rfl | rfl
      · exact h.1.nodup
      · exact h.2.nodup
    exact hn.sublist (filter_sublist.map _)
  have hsub : (all.filter Entry.isPending).map Entry.serial ⊆ q.pendingSerials.dedup := by
    intro u hu
    obtain ⟨m, hm, rfl⟩ := mem_map.mp hu
    obtain ⟨hm, hpending⟩ := mem_filter.mp hm
    rw [mem_dedup, Queue.pendingSerials]
    refine mem_map_of_mem (mem_filter.mpr ⟨mem_append.mpr ?_, hpending⟩)
    rcases hall with rfl | rfl
    · exact .inl hm
    · exact .inr hm
  have hsubperm := hnodup.subperm hsub
  rw [← length_map (f := Entry.serial)]
  constructor
  · intro hlen u hu
    exact (hsubperm.perm_of_length_le hlen.ge).mem_iff.mpr (mem_dedup.mpr hu)
  · intro hmem
    refine le_antisymm hsubperm.length_le ?_
    exact ((nodup_dedup _).subperm (fun u hu => hmem u (mem_dedup.mp hu))).length_le

theorem findsAll_iff {t : Queue} {a : Action} (h : q.Inv) (_ : step q a = some t) :
    FindsAll q a t ↔ ReadsAll q a := by
  cases a with
  | queueMutation now fresh m io => exact Iff.rfl
  | getPendingCount io =>
    simp only [FindsAll, ReadsAll, Queue.getPendingCount]
    cases hread : (q.withIo io).read.1 with
    | none => simp
    | some all => simpa using length_pending_eq_iff h (@read_eq (q.withIo io) all hread)
  | processQueue now replies io =>
    simp only [FindsAll, ReadsAll, mem_attempted_iff]
    cases hread : (q.withIo io).read.1 with
    | none => simp [eq_nil_iff_forall_not_mem]
    | some all => simp

/-- A pick that is changed without a connection. -/
def pick (setId : String) : Mutation :=
  { clientId := "pick-" ++ setId, type := .api, url := some "/profiles/p1", method := some "PUT" }

/-- Two picks on a working device: counted, attempted, delivered. -/
def workingRun : List Action :=
  [.queueMutation 1000 "r" (pick "s1") [], .queueMutation 2000 "r" (pick "s2") [],
    .getPendingCount [], .processQueue 3000 [.ok, .ok] []]

/-- IndexedDB fails while the first pick is queued, and works from then on. -/
def strandingRun : List Action :=
  [.queueMutation 1000 "r" (pick "s1") [false, true, true], .getPendingCount [],
    .processQueue 3000 [.ok] []]

end FestivalPlanner.WebQueue
