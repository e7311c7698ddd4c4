import FestivalPlanner.Lib.InFlight
import FestivalPlanner.Lib.Machine

/-!
# The cached maps of users and festivals

A worker holds a map of all users and one of all festivals.  A lookup takes the map when its version
is the current one, and reads the table otherwise.  An invalidation, its own or the message of
another worker, starts a new version; so does a lookup that finds the map a minute old.  The version
of a map is the one that is current when the read has come back.

* `Cache`, `getMap`, `invalidate` — the map, its version and its age;
* `State`, `step` — writes, invalidations, and lookups that are under way;
* `Fresh` — what a lookup returns was read after the writes that were invalidated before it, and
  the map of the current version was read after all of them;
* `Unchanged` — the condition on a load that installs what it has read;
* `fresh_iff` — no lookup is stale in a run exactly when its steps meet the condition.
-/

namespace FestivalPlanner.CacheInvalidation

open InFlight List Option

/-! ## The cache -/

/-- `CACHE_TTL_MS` -/
def CACHE_TTL_MS : ℤ := 60000

/-- Two of the maps are cached. -/
inductive Table where
  | users
  | festivals

/-- The rows of a read, and how many writes came before it. -/
structure Snapshot (ρ : Type) where
  rows : List ρ
  readAt : ℕ

structure Cache (ρ : Type) where
  map : Option (Snapshot ρ)
  mapVersion : ℕ
  mapAt : ℤ
  dataVersion : ℕ

variable {ρ : Type}

/-- Another version begins. -/
def Cache.bump (drop : Bool) (c : Cache ρ) : Cache ρ :=
  { c with
    dataVersion := c.dataVersion + 1
    map := if drop then none else c.map }

/-- The map of users stays, with an old version. -/
def invalidateUserCache (c : Cache ρ) : Cache ρ := c.bump false

def invalidateFestivalCache (c : Cache ρ) : Cache ρ := c.bump true

/-- The callbacks of the bus do the same. -/
def Cache.invalidate : Table → Cache ρ → Cache ρ
  | .users => invalidateUserCache
  | .festivals => invalidateFestivalCache

/-- What a lookup does to a map that is too old. -/
def Cache.expire (table : Table) (now : ℤ) (c : Cache ρ) : Cache ρ :=
  if c.map.isSome = true ∧ now - c.mapAt > CACHE_TTL_MS then c.invalidate table else c

/-- The map when it is of the current version. -/
def Cache.current (c : Cache ρ) : Option (Snapshot ρ) :=
  if c.mapVersion = c.dataVersion then c.map else none

/-- The read has come back. -/
def Cache.install (snapshot : Snapshot ρ) (now : ℤ) (c : Cache ρ) : Cache ρ :=
  { c with
    map := some snapshot
    mapVersion := c.dataVersion
    mapAt := now }

/-- The entry of the map; of two rows with one id the later one. -/
def find (id : ρ → String) (key : String) (rows : List ρ) : Option ρ :=
  rows.reverse.find? fun r => id r = key

/-! ## The machine -/

/-- A lookup that reads the table. -/
structure Load (ρ : Type) where
  key : String
  /-- The writes that were invalidated when it began. -/
  since : ℕ
  read : Option (Snapshot ρ)

structure Answer (ρ : Type) where
  key : String
  since : ℕ
  readAt : ℕ
  value : Option ρ

structure State (ρ : Type) where
  /-- The rows after each write. -/
  content : ℕ → List ρ
  writes : ℕ
  /-- The last write whose invalidation the worker has processed. -/
  invalidated : ℕ
  cache : Cache ρ
  loads : List (Load ρ)
  answers : List (Answer ρ)

inductive Action (ρ : Type) where
  /-- Any worker writes. -/
  | write (rows : List ρ)
  /-- The invalidation that follows the write is processed, or its message. -/
  | invalidate (write : ℕ)
  | lookup (key : String) (now : ℤ)
  /-- The database executes the read. -/
  | read (i : ℕ)
  | readFails (i : ℕ)
  | install (i : ℕ) (now : ℤ)

/-- The rows after one more write. -/
def extend (content : ℕ → List ρ) (writes : ℕ) (rows : List ρ) : ℕ → List ρ :=
  fun n => if n = writes + 1 then rows else content n

variable {content : ℕ → List ρ} {writes : ℕ} {snapshot : Snapshot ρ} {c : Cache ρ} {now : ℤ}
  {key : String} {a : Action ρ}

theorem extend_of_le {n : ℕ} (rows : List ρ) (h : n ≤ writes) :
    extend content writes rows n = content n := if_neg (by omega)

@[grind =] def step (table : Table) (id : ρ → String) (s : State ρ) : Action ρ → Option (State ρ)
  | .write rows =>
      some { s with
        content := extend s.content s.writes rows
        writes := s.writes + 1 }
  | .invalidate write =>
      if write ≤ s.writes then
        some { s with
          cache := s.cache.invalidate table
          invalidated := max s.invalidated write }
      else none
  | .lookup key now =>
      let cache := s.cache.expire table now
      match cache.current with
      | some snapshot =>
          some { s with
            cache := cache
            answers := s.answers ++
              [⟨key, s.invalidated, snapshot.readAt, find id key snapshot.rows⟩] }
      | none =>
          some { s with
            cache := cache
            loads := s.loads ++ [⟨key, s.invalidated, none⟩] }
  | .read i =>
      match s.loads[i]? with
      | some ⟨key, since, none⟩ =>
          some { s with loads := s.loads.set i ⟨key, since, some ⟨s.content s.writes, s.writes⟩⟩ }
      | _ => none
  | .readFails i => if i < s.loads.length then some { s with loads := s.loads.eraseIdx i } else none
  | .install i now =>
      match s.loads[i]? with
      | some ⟨key, since, some snapshot⟩ =>
          some { s with
            cache := s.cache.install snapshot now
            loads := s.loads.eraseIdx i
            answers := s.answers ++
              [⟨key, since, snapshot.readAt, find id key snapshot.rows⟩] }
      | _ => none

/-! ## No stale read -/

structure Fresh (id : ρ → String) (s : State ρ) : Prop where
  answers : ∀ a ∈ s.answers, a.since ≤ a.readAt ∧ a.value = find id a.key (s.content a.readAt)
  current : ∀ snapshot, s.cache.current = some snapshot → s.invalidated ≤ snapshot.readAt

/-- No write that came after the read of a load has been invalidated when it installs the rows. -/
def Unchanged (s : State ρ) : Action ρ → Prop
  | .install i _ =>
      ∀ load snapshot, s.loads[i]? = some load → load.read = some snapshot →
        s.invalidated ≤ snapshot.readAt
  | _ => True

/-! ## What was read when -/

/-- The rows are those of the table when they were read. -/
structure Snapshot.Sound (content : ℕ → List ρ) (writes : ℕ) (snapshot : Snapshot ρ) : Prop where
  rows : snapshot.rows = content snapshot.readAt
  readAt : snapshot.readAt ≤ writes

structure Load.Sound (s : State ρ) (load : Load ρ) : Prop where
  since : load.since ≤ s.invalidated
  read : ∀ snapshot, load.read = some snapshot →
    snapshot.Sound s.content s.writes ∧ load.since ≤ snapshot.readAt

structure Sound (s : State ρ) : Prop where
  invalidated : s.invalidated ≤ s.writes
  version : s.cache.mapVersion ≤ s.cache.dataVersion
  map : ∀ snapshot, s.cache.map = some snapshot → snapshot.Sound s.content s.writes
  loads : ∀ load ∈ s.loads, load.Sound s
  answers : ∀ a ∈ s.answers, a.readAt ≤ s.writes

variable {table : Table} {id : ρ → String} {s t : State ρ} {i : ℕ}

theorem Snapshot.Sound.write (h : snapshot.Sound content writes) (rows : List ρ) :
    snapshot.Sound (extend content writes rows) (writes + 1) :=
  ⟨by rw [extend_of_le rows h.readAt, h.rows], h.readAt.trans (Nat.le_succ writes)⟩

theorem invalidate_versions (c : Cache ρ) (table : Table) :
    (c.invalidate table).mapVersion = c.mapVersion ∧
      (c.invalidate table).dataVersion = c.dataVersion + 1 := by
  cases table with
  | users => exact ⟨rfl, rfl⟩
  | festivals => exact ⟨rfl, rfl⟩

theorem invalidate_version (h : c.mapVersion ≤ c.dataVersion) (table : Table) :
    (c.invalidate table).mapVersion ≤ (c.invalidate table).dataVersion := by
  obtain ⟨hmap, hdata⟩ := invalidate_versions c table
  omega

/-- An invalidation leaves no map of the current version. -/
theorem current_invalidate (h : c.mapVersion ≤ c.dataVersion) (table : Table) :
    (c.invalidate table).current = none := by
  obtain ⟨hmap, hdata⟩ := invalidate_versions c table
  exact if_neg (by omega)

theorem invalidate_map {table : Table} (h : (c.invalidate table).map = some snapshot) :
    c.map = some snapshot := by
  cases table with
  | users => exact h
  | festivals => cases h

/-- An old map is not of the current version any more, and another one stays as it is. -/
theorem expire_cases (table : Table) (now : ℤ) (c : Cache ρ) :
    c.expire table now = c ∨ c.expire table now = c.invalidate table := by
  unfold Cache.expire
  split_ifs
  · exact .inr rfl
  · exact .inl rfl

theorem expire_version (h : c.mapVersion ≤ c.dataVersion) (table : Table) (now : ℤ) :
    (c.expire table now).mapVersion ≤ (c.expire table now).dataVersion := by
  rcases expire_cases table now c with heq | heq <;> rw [heq]
  · exact h
  · exact invalidate_version h table

theorem expire_map {table : Table} (h : (c.expire table now).map = some snapshot) :
    c.map = some snapshot := by
  rcases expire_cases table now c with heq | heq <;> rw [heq] at h
  · exact h
  · exact invalidate_map h

theorem expire_current (hversion : c.mapVersion ≤ c.dataVersion) {table : Table}
    (h : (c.expire table now).current = some snapshot) : c.current = some snapshot := by
  rcases expire_cases table now c with heq | heq <;> rw [heq] at h
  · exact h
  · rw [current_invalidate hversion] at h
    cases h

theorem map_of_current (h : c.current = some snapshot) : c.map = some snapshot := by
  unfold Cache.current at h
  split_ifs at h
  exact h

theorem current_install (snapshot : Snapshot ρ) (now : ℤ) (c : Cache ρ) :
    (c.install snapshot now).current = some snapshot := if_pos rfl

/-! ## The shape of a step -/

theorem step_lookup (h : step table id s (.lookup key now) = some t) :
    (∃ snapshot, (s.cache.expire table now).current = some snapshot ∧
      t = { s with
        cache := s.cache.expire table now
        answers := s.answers ++
          [⟨key, s.invalidated, snapshot.readAt, find id key snapshot.rows⟩] }) ∨
      t = { s with
        cache := s.cache.expire table now
        loads := s.loads ++ [⟨key, s.invalidated, none⟩] } := by
  simp only [step] at h
  split at h
  · rename_i snapshot hcurrent
    exact .inl ⟨snapshot, hcurrent, (some.inj h).symm⟩
  · exact .inr (some.inj h).symm

theorem step_read (h : step table id s (.read i) = some t) :
    ∃ key since, s.loads[i]? = some ⟨key, since, none⟩ ∧
      t = { s with
        loads := s.loads.set i ⟨key, since, some ⟨s.content s.writes, s.writes⟩⟩ } := by
  simp only [step] at h
  split at h
  · rename_i key since hi
    exact ⟨key, since, hi, (some.inj h).symm⟩
  · cases h

theorem step_install (h : step table id s (.install i now) = some t) :
    ∃ key since snapshot, s.loads[i]? = some ⟨key, since, some snapshot⟩ ∧
      t = { s with
        cache := s.cache.install snapshot now
        loads := s.loads.eraseIdx i
        answers := s.answers ++
          [⟨key, since, snapshot.readAt, find id key snapshot.rows⟩] } := by
  simp only [step] at h
  split at h
  · rename_i key since snapshot hi
    exact ⟨key, since, snapshot, hi, (some.inj h).symm⟩
  · cases h

theorem sound_step (h : Sound s) (ht : step table id s a = some t) : Sound t := by
  cases a with
  | write rows =>
    cases ht
    refine ⟨h.invalidated.trans (Nat.le_succ _), h.version,
      fun snapshot hmap => (h.map snapshot hmap).write rows, fun load hload => ?_,
      fun a ha => (h.answers a ha).trans (Nat.le_succ _)⟩
    obtain ⟨hsince, hread⟩ := h.loads load hload
    exact ⟨hsince, fun snapshot hsnapshot =>
      ⟨(hread snapshot hsnapshot).1.write rows, (hread snapshot hsnapshot).2⟩⟩
  | invalidate write =>
    obtain ⟨hle, ht⟩ := ite_none_right_eq_some.mp ht
    cases ht
    refine ⟨max_le h.invalidated hle, invalidate_version h.version table,
      fun snapshot hmap => h.map snapshot (invalidate_map hmap), fun load hload => ?_, h.answers⟩
    obtain ⟨hsince, hread⟩ := h.loads load hload
    exact ⟨hsince.trans (le_max_left _ _), hread⟩
  | lookup key now =>
    rcases step_lookup ht with ⟨snapshot, hcurrent, rfl⟩ | rfl
    · have hmap := h.map snapshot (expire_map (map_of_current hcurrent))
      refine ⟨h.invalidated, expire_version h.version table now,
        fun snapshot hmap => h.map snapshot (expire_map hmap),
        fun load hload => ⟨(h.loads load hload).since, (h.loads load hload).read⟩, ?_⟩
      exact forall_mem_append_singleton h.answers hmap.readAt
    · refine ⟨h.invalidated, expire_version h.version table now,
        fun snapshot hmap => h.map snapshot (expire_map hmap), ?_, h.answers⟩
      refine forall_mem_append_singleton ?_ ⟨le_refl s.invalidated, fun _ => (nomatch ·)⟩
      exact fun load hload => ⟨(h.loads load hload).since, (h.loads load hload).read⟩
  | read i =>
    obtain ⟨key, since, hi, rfl⟩ := step_read ht
    have hload := h.loads _ (mem_of_getElem? hi)
    refine ⟨h.invalidated, h.version, h.map, forall_mem_set ?_ ⟨hload.since, ?_⟩, h.answers⟩
    · exact fun load hload => ⟨(h.loads load hload).since, (h.loads load hload).read⟩
    · rintro _ ⟨rfl⟩
      exact ⟨⟨rfl, le_rfl⟩, hload.since.trans h.invalidated⟩
  | readFails i =>
    obtain ⟨-, ht⟩ := ite_none_right_eq_some.mp ht
    cases ht
    refine ⟨h.invalidated, h.version, h.map, fun load hmem => ?_, h.answers⟩
    have hload := h.loads load (mem_of_mem_eraseIdx hmem)
    exact ⟨hload.since, hload.read⟩
  | install i now =>
    obtain ⟨key, since, snapshot, hi, rfl⟩ := step_install ht
    obtain ⟨hsound, -⟩ := (h.loads _ (mem_of_getElem? hi)).read snapshot rfl
    refine ⟨h.invalidated, le_rfl, ?_, fun load hmem => ?_,
      forall_mem_append_singleton h.answers hsound.readAt⟩
    · rintro _ ⟨rfl⟩
      exact hsound
    · have hload := h.loads load (mem_of_mem_eraseIdx hmem)
      exact ⟨hload.since, hload.read⟩

/-! ## Each step -/

theorem fresh_install (hs : Sound s) (h : Fresh id s)
    (ht : step table id s (.install i now) = some t) :
    Fresh id t ↔ Unchanged s (.install i now) := by
  obtain ⟨key, since, snapshot, hi, rfl⟩ := step_install ht
  obtain ⟨hsound, hsince⟩ := (hs.loads _ (mem_of_getElem? hi)).read snapshot rfl
  constructor
  · intro hfresh load snapshot' hload hread
    obtain rfl := some.inj (hi.symm.trans hload)
    obtain rfl := some.inj hread
    exact hfresh.current snapshot (current_install snapshot now s.cache)
  · intro hunchanged
    refine ⟨forall_mem_append_singleton h.answers ⟨hsince, ?_⟩, fun snapshot' hcurrent => ?_⟩
    · exact congrArg (find id key) hsound.rows
    · obtain rfl := some.inj ((current_install snapshot now s.cache).symm.trans hcurrent)
      exact hunchanged _ _ hi rfl

theorem fresh_lookup (hs : Sound s) (h : Fresh id s)
    (ht : step table id s (.lookup key now) = some t) : Fresh id t := by
  rcases step_lookup ht with ⟨snapshot, hcurrent, rfl⟩ | rfl
  · have hnow := expire_current hs.version hcurrent
    refine ⟨forall_mem_append_singleton h.answers ⟨h.current snapshot hnow, ?_⟩, ?_⟩
    · exact congrArg (find id key) (hs.map snapshot (map_of_current hnow)).rows
    · exact fun snapshot' h' => h.current snapshot' (expire_current hs.version h')
  · exact ⟨h.answers, fun snapshot' h' => h.current snapshot' (expire_current hs.version h')⟩

theorem fresh_step (hs : Sound s) (h : Fresh id s) (ht : step table id s a = some t) :
    Fresh id t ↔ Unchanged s a := by
  cases a with
  | write rows =>
    cases ht
    refine iff_of_true ⟨fun a ha => ?_, h.current⟩ trivial
    have hread := h.answers a ha
    exact ⟨hread.1, by simpa only [extend_of_le rows (hs.answers a ha)] using hread.2⟩
  | invalidate write =>
    obtain ⟨-, ht⟩ := ite_none_right_eq_some.mp ht
    cases ht
    refine iff_of_true ⟨h.answers, fun snapshot hcurrent => ?_⟩ trivial
    rw [current_invalidate hs.version] at hcurrent
    cases hcurrent
  | lookup key now => exact iff_of_true (fresh_lookup hs h ht) trivial
  | read i =>
    obtain ⟨key, since, -, rfl⟩ := step_read ht
    exact iff_of_true ⟨h.answers, h.current⟩ trivial
  | readFails i =>
    obtain ⟨-, ht⟩ := ite_none_right_eq_some.mp ht
    cases ht
    exact iff_of_true ⟨h.answers, h.current⟩ trivial
  | install i now => exact fresh_install hs h ht

/-! ## Whole runs -/

/-- A worker starts, with nothing in its cache. -/
def start (rows : List ρ) : State ρ :=
  { content := fun _ => rows
    writes := 0
    invalidated := 0
    cache :=
      { map := none
        mapVersion := 0
        mapAt := 0
        dataVersion := 0 }
    loads := []
    answers := [] }

theorem sound_start (rows : List ρ) : Sound (start rows) :=
  ⟨le_rfl, le_rfl, fun _ => (nomatch ·), fun _ => (nomatch ·), fun _ => (nomatch ·)⟩

theorem fresh_start (id : ρ → String) (rows : List ρ) : Fresh id (start rows) :=
  ⟨fun _ => (nomatch ·), fun _ => (nomatch ·)⟩

/-- No lookup is stale in a run exactly when every load that installs its rows has read them after
the writes that were invalidated by then. -/
theorem fresh_iff {rows : List ρ} {as : List (Action ρ)}
    (hrun : Machine.run (step table id) (start rows) as = some t) :
    Machine.Always (step table id) (Fresh id) (start rows) as ↔
      Machine.Meets (step table id) Unchanged (start rows) as := by
  rw [Machine.always_iff_each, and_iff_right (fresh_start id rows)]
  refine Machine.each_iff_meets (I := fun s => Sound s ∧ Fresh id s) ?_ ?_
    ⟨sound_start rows, fresh_start id rows⟩ hrun
  · rintro s a t ⟨hs, h⟩ hunchanged ht
    exact ⟨sound_step hs ht, (fresh_step hs h ht).mpr hunchanged⟩
  · rintro s a t ⟨hs, h⟩ ht
    exact fresh_step hs h ht

/-! ## A row that is written anew -/

/-- An id and a name. -/
abbrev NamedRow := String × String

/-- The row is looked up before a write and again after its invalidation. -/
def lookedUpTwice : List (Action NamedRow) :=
  [.lookup "f" 0,
    .read 0,
    .install 0 1,
    .write [("f", "new")],
    .invalidate 1,
    .lookup "f" 2,
    .read 0,
    .install 0 3]

theorem lookedUpTwice_fresh :
    (∃ t, Machine.run (step .festivals Prod.fst) (start [("f", "old")]) lookedUpTwice = some t ∧
      t.answers.map Answer.value = [some ("f", "old"), some ("f", "new")]) ∧
    Machine.Always (step .festivals Prod.fst) (Fresh Prod.fst) (start [("f", "old")])
      lookedUpTwice := by
  refine ⟨⟨_, rfl, rfl⟩, (fresh_iff rfl).mpr ?_⟩
  refine ⟨trivial, trivial, ?_, trivial, trivial, trivial, trivial, ?_, trivial⟩
  · rintro _ _ ⟨rfl⟩ ⟨rfl⟩
    exact Nat.le_refl 0
  · rintro _ _ ⟨rfl⟩ ⟨rfl⟩
    exact Nat.le_refl 1

/-- The write is invalidated while a load that has read the old row is under way. -/
theorem load_installs_old_row :
    ∃ t, Machine.run (step .festivals Prod.fst) (start [("f", "old")])
        [.lookup "f" 0, .read 0, .write [("f", "new")], .invalidate 1, .install 0 1,
          .lookup "f" 2] = some t ∧
      t.answers.map Answer.value = [some ("f", "old"), some ("f", "old")] ∧
      t.answers.map Answer.since = [0, 1] ∧ ¬ Fresh Prod.fst t := by
  refine ⟨_, rfl, rfl, rfl, fun h => ?_⟩
  have hcurrent : 1 ≤ 0 := h.current ⟨[("f", "old")], 0⟩ rfl
  omega

end FestivalPlanner.CacheInvalidation
