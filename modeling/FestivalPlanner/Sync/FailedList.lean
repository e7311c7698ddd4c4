import FestivalPlanner.Lib.ReadModifyWrite
import FestivalPlanner.Sync.OfflineQueue

/-!
# The durable list of failed mutations

The storage cell `festie-offline-failed`.  `recordFailed` starts a
`persistFailedSync` for every mutation it surfaces and does not wait for it;
`removePersistedFailed` drops an item the user dismissed.  Each is a
read-modify-write of its own, and the queue lock does not cover them.

* `persistFailedSync`, `removePersistedFailed` — what each writes, given what it read;
* `failedUpdates` — the two as updates of one cell, so that the machine of
  `ReadModifyWrite` runs them in any interleaving;
* `NothingLost` — what the cell should hold once all of them are over;
* `failedList_nothingLost` — it does after every run of clean writes;
* `failed_item_lost` — it does not in general: two recordings read the same old list
  and the second write drops the first item.
-/

namespace FestivalPlanner.OfflineQueue

open ReadModifyWrite Keyed

/-! ## The two operations -/

/-- An operation on the persisted list. -/
inductive FailedOp where
  /-- `persistFailedSync`. -/
  | persist (item : FailedSyncItem)
  /-- `removePersistedFailed`. -/
  | remove (clientId : String)

/-- The `clientId` the operation is about. -/
def FailedOp.clientId : FailedOp → String
  | persist item => item.clientId
  | remove clientId => clientId

/-- The item the operation leaves for its `clientId`. -/
def FailedOp.item? : FailedOp → Option FailedSyncItem
  | persist item => some item
  | remove _ => none

/-- The content of the cell: `none` when nothing was ever stored. -/
abbrev FailedCell := Option (List FailedSyncItem)

/-- The list a stored text stands for: `raw ? JSON.parse(raw) : []`. -/
def FailedCell.items (raw : FailedCell) : List FailedSyncItem := raw.getD []

/-- What `persistFailedSync` writes back: the item in the place of the one with its
`clientId`, or at the end. -/
def persistFailedSync (item : FailedSyncItem) (raw : FailedCell) : FailedCell :=
  some (upsert failedKey item raw.items)

/-- What `removePersistedFailed` writes back; nothing when nothing was stored. -/
def removePersistedFailed (clientId : String) (raw : FailedCell) : Option FailedCell :=
  raw.map (fun list => some (erase failedKey clientId list))

/-- The two operations as updates of the cell. -/
def FailedOp.apply : FailedOp → FailedCell → Option FailedCell
  | persist item, raw => some (persistFailedSync item raw)
  | remove clientId, raw => removePersistedFailed clientId raw

/-- The item stored for a `clientId`. -/
def storedItem (clientId : String) (raw : FailedCell) : Option FailedSyncItem :=
  lookup failedKey clientId raw.items

theorem storedItem_apply {op : FailedOp} {raw raw' : FailedCell} (h : op.apply raw = some raw')
    (clientId : String) :
    storedItem clientId raw' =
      if op.clientId = clientId then op.item? else storedItem clientId raw := by
  cases op with
  | persist item =>
    cases h
    exact lookup_upsert clientId item raw.items
  | remove c =>
    obtain ⟨list, rfl, rfl⟩ := Option.map_eq_some_iff.mp h
    exact lookup_erase clientId c list

/-- The operations on the persisted list, each about its `clientId`. -/
def failedUpdates : Updates FailedCell FailedOp String (Option FailedSyncItem) where
  key := FailedOp.clientId
  apply := FailedOp.apply
  view := storedItem
  result := FailedOp.item?
  view_apply h := (storedItem_apply h _).trans (if_pos rfl)
  view_apply_of_ne h hne := (storedItem_apply h _).trans (if_neg (Ne.symm hne))
  view_of_apply_eq_none {op raw} h := by
    cases op with
    | persist item => cases h
    | remove c =>
      rw [Option.map_eq_none_iff.mp h]
      rfl

/-- What can happen to the persisted list. -/
abbrev FailedAction := ReadModifyWrite.Action FailedOp

/-- The persisted list with the operations under way. -/
abbrev FailedState := ReadModifyWrite.State FailedCell FailedOp

/-- A task begins, or its storage read or write takes effect. -/
abbrev failedStep : FailedState → FailedAction → Option FailedState :=
  ReadModifyWrite.step failedUpdates

/-- The recordings one pruning of the queue starts: one `persistFailedSync` for each
stale entry. -/
def startRecordings (now : ℤ) (stale : List QueuedMutation) : List FailedAction :=
  stale.map (fun m => .begin (.persist (failedItem m expiredError now)))

/-! ## What the list should hold -/

/-- No later operation is about the `clientId` of `op`. -/
def LastOn (op : FailedOp) (later : List FailedOp) : Prop :=
  ∀ op' ∈ later, op'.clientId ≠ op.clientId

instance (op : FailedOp) (later : List FailedOp) : Decidable (LastOn op later) :=
  inferInstanceAs (Decidable (∀ op' ∈ later, op'.clientId ≠ op.clientId))

/-- What the list should hold after these operations, in the order they began. -/
structure NothingLost (before after : FailedCell) (ops : List FailedOp) : Prop where
  /-- The last item recorded for a `clientId` is there, -/
  recorded : ∀ earlier item later, ops = earlier ++ .persist item :: later →
    LastOn (.persist item) later → item ∈ after.items
  /-- what was removed last is not, -/
  removed : ∀ earlier clientId later, ops = earlier ++ .remove clientId :: later →
    LastOn (.remove clientId) later → ∀ f ∈ after.items, f.clientId ≠ clientId
  /-- and nothing else changed. -/
  untouched : ∀ clientId, (∀ op ∈ ops, op.clientId ≠ clientId) →
    storedItem clientId after = storedItem clientId before

/-- **The failed list loses nothing in a run of clean writes**: whatever is recorded
and removed, in whatever interleaving, once every recording and removal is over. -/
theorem failedList_nothingLost (before : FailedCell)
    (as : List FailedAction) (s : FailedState)
    (hrun : Machine.run failedStep ⟨before, []⟩ as = some s)
    (hclean : Machine.Meets failedStep (WritesCleanly failedUpdates) ⟨before, []⟩ as)
    (hdone : ∀ t ∈ s.tasks, t.isDone = true) :
    NothingLost before s.content (s.tasks.map Task.op) := by
  have hset := settled_of_run hclean hrun
  have hlast : ∀ earlier op later, s.tasks.map Task.op = earlier ++ op :: later →
      LastOn op later → storedItem op.clientId s.content = op.item? := by
    intro earlier op later hops hlast
    obtain ⟨pre, post', hl, -, hpost'⟩ := List.map_eq_append_iff.mp hops
    obtain ⟨t, post, rfl, rfl, rfl⟩ := List.map_eq_cons_iff.mp hpost'
    refine (hset t.op.clientId).trans ?_
    rw [hl]
    refine verdict_of_last (U := failedUpdates) ?_ rfl fun t' ht' => ?_
    · exact hdone t (by rw [hl]; simp)
    · exact hlast t'.op (List.mem_map.mpr ⟨t', ht', rfl⟩)
  refine ⟨fun earlier item later hops h => ?_, fun earlier c later hops h => ?_, fun c hc => ?_⟩
  · exact (Keyed.mem_of_lookup (hlast earlier _ later hops h)).1
  · exact Keyed.lookup_eq_none.mp (hlast earlier _ later hops h)
  · refine (hset c).trans (verdict_of_forall_not fun t ht _ => ?_)
    exact hc t.op (List.mem_map.mpr ⟨t, ht, rfl⟩)

/-! ## A lost item -/

/-- The note a crew member left on a set. -/
def noteWrite : QueuedMutation where
  clientId := "PUT:/notes/n1"
  url := "/notes/n1"
  method := .put
  createdAt := 0
  serial := 0

/-- A vote left behind as well. -/
def voteLeft : QueuedMutation where
  clientId := "POST:/crews/c1/polls/x/vote"
  url := "/crews/c1/polls/x/vote"
  method := .post
  createdAt := 1
  serial := 1

/-- Both are pruned a day later; the second recording reads what the first wrote, and
the first item is dismissed. -/
def serialRun : List FailedAction :=
  startRecordings 90000000 [noteWrite, voteLeft] ++
    [.read 0, .write 0, .read 1, .write 1, .begin (.remove noteWrite.clientId), .read 2, .write 2]

/-- Nothing is lost when each write finds what its task has read. -/
theorem nothingLost_serialRun :
    ∃ s, Machine.run failedStep ⟨none, []⟩ serialRun = some s ∧
      NothingLost none s.content (s.tasks.map Task.op) := by
  refine ⟨_, rfl, failedList_nothingLost none serialRun _ rfl ?_ (by decide)⟩
  refine ⟨trivial, trivial, trivial, fun t ht => ?_, trivial, fun t ht => ?_, trivial, trivial,
    fun t ht => ?_, trivial⟩
  · cases ht
    exact ⟨fun _ _ => rfl, by decide⟩
  · cases ht
    exact ⟨fun _ _ => rfl, by decide⟩
  · cases ht
    exact ⟨fun _ _ => rfl, by decide⟩

/-- One pruning records both, and both recordings read the list before either wrote. -/
def racingRun : List FailedAction :=
  startRecordings 90000000 [noteWrite, voteLeft] ++ [.read 0, .read 1, .write 0, .write 1]

/-- **A failed item is lost**: the second recording writes back the old list with its
own item only. -/
theorem failed_item_lost :
    ∃ s, Machine.run failedStep ⟨none, []⟩ racingRun = some s ∧
      (∀ t ∈ s.tasks, t.isDone = true) ∧ ¬NothingLost none s.content (s.tasks.map Task.op) := by
  refine ⟨_, rfl, by decide, fun h => ?_⟩
  have hmem := h.recorded [] (failedItem noteWrite expiredError 90000000) _ rfl (by decide)
  have hids : ∀ f ∈ [failedItem voteLeft expiredError 90000000],
      f.clientId ≠ noteWrite.clientId := by decide
  exact hids _ hmem rfl

end FestivalPlanner.OfflineQueue
