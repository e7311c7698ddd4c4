import FestivalPlanner.Lib.Keyed
import FestivalPlanner.Lib.Keyset

/-!
# Pages of the activity of a crew

The model of `getByCrew` of `lib/db/stores/activity.ts`: what happened in a crew, newest first,
a page at a time.  The rows come in the order of their times, and the cursor of a page is the
id of its last row, a random identifier.

* `Row`, `Db`, `PageSize` — the tables and the size that a request may ask for;
* `getByCrew` — one page;
* `getByCrew_paged` — the pages are those of the crew's rows, newest first;
* `activity_pages_partition_iff` — following the cursors visits every row once, in that order,
  exactly when at each page boundary the ids are on the sides on which the times are.
-/

namespace FestivalPlanner.ActivityLog

open Keyset List

/-! ## The tables -/

/-- The columns of `crew_activity`. -/
structure Columns where
  id : String
  crewId : String
  userId : String
  type : String
  detail : Option String
  /-- in microseconds -/
  createdAt : ℤ
  deriving DecidableEq

/-- A row of `crew_activity`. -/
structure Row extends Columns where
  /-- `randomUUID()` -/
  id_ne : id ≠ ""

theorem Row.ext_columns {r s : Row} (h : r.toColumns = s.toColumns) : r = s := by
  cases r
  cases s
  cases h
  rfl

instance : DecidableEq Row := fun r s =>
  decidable_of_iff (r.toColumns = s.toColumns) ⟨Row.ext_columns, congrArg Row.toColumns⟩

/-- What the join reads of `users`. -/
structure User where
  id : String
  username : String
  deleted : Bool
  deriving DecidableEq

/-- The tables with their primary keys. -/
structure Db where
  activity : List Row
  users : List User
  activity_unique : Keyed.UniqueKeys (fun r : Row => r.id) activity
  users_unique : Keyed.UniqueKeys User.id users

def MAX_PUBLIC_PAGE_SIZE : ℕ := 100

/-- The `limit` that `paginationQuery` lets pass. -/
structure PageSize where
  limit : ℕ
  one_le : 1 ≤ limit
  le_max : limit ≤ MAX_PUBLIC_PAGE_SIZE

/-! ## One page -/

/-- A row with the name of its author. -/
structure Item where
  row : Row
  username : String
  deriving DecidableEq

def Item.key (i : Item) : ℤ × String := (i.row.createdAt, i.row.id)

/-- The row joined with its author, whose account is not deleted. -/
def joined (db : Db) (crewId : String) (r : Row) : Option Item :=
  if r.crewId = crewId then
    (Keyed.lookup User.id r.userId db.users).bind fun u =>
      if u.deleted then none else some { row := r, username := u.username }
  else none

/-- The clause of the cursor; an empty one is left out. -/
def cursorClause (c : Collation) (cursor : Option String) (i : Item) : Bool :=
  match cursor with
  | none => true
  | some cursor => if cursor = "" then true else c.lt i.row.id cursor

/-- One page: a row more than the limit is asked for. -/
def getByCrew (c : Collation) (db : Db) (crewId : String) (size : PageSize)
    (cursor : Option String) : Except String (Page Item String) :=
  let rows := (newestFirst c Item.key
    ((db.activity.filterMap (joined db crewId)).filter (cursorClause c cursor))).take
      (size.limit + 1)
  let hasMore := size.limit < rows.length
  let items := if hasMore then rows.dropLast else rows
  .ok { items := items
        nextCursor := if hasMore then items.getLast?.map (fun i => i.row.id) else none }

/-- The rows of the crew whose authors' accounts are not deleted, newest first. -/
def activityOf (c : Collation) (db : Db) (crewId : String) : List Item :=
  newestFirst c Item.key (db.activity.filterMap (joined db crewId))

/-! ## The pages of the rows -/

section Pages

variable {c : Collation} {db : Db} {crewId : String} {size : PageSize}

/-- Is `i` after the cursor of `r`? -/
def afterCursor (c : Collation) (r i : Item) : Bool := c.lt i.row.id r.row.id

theorem row_of_joined {r : Row} {i : Item} (h : joined db crewId r = some i) : i.row = r := by
  unfold joined at h
  split at h
  · obtain ⟨u, -, hu⟩ := Option.bind_eq_some_iff.mp h
    split at hu
    · cases hu
    · cases hu
      rfl
  · cases h

theorem ids_nodup : ((db.activity.filterMap (joined db crewId)).map fun i => i.key.2).Nodup := by
  refine pairwise_map.mpr (pairwise_filterMap.mpr ?_)
  refine (pairwise_map.mp db.activity_unique).imp ?_
  intro r r' hne i hi i' hi'
  show i.row.id ≠ i'.row.id
  rwa [row_of_joined hi, row_of_joined hi']

theorem activityOf_nodup : (activityOf c db crewId).Nodup :=
  (perm_newestFirst c Item.key _).nodup_iff.mpr (List.Nodup.of_map _ ids_nodup)

/-- A page of some rows, of which one more than the limit is asked for. -/
theorem getByCrew_eq (cursor : Option String) : getByCrew c db crewId size cursor =
    .ok (pageOf (fun i : Item => i.row.id) size.limit (size.limit + 1)
      (newestFirst c Item.key
        ((db.activity.filterMap (joined db crewId)).filter (cursorClause c cursor)))) := by
  unfold getByCrew pageOf
  generalize newestFirst c Item.key
    ((db.activity.filterMap (joined db crewId)).filter (cursorClause c cursor)) = rows
  simp only [length_take]
  by_cases hmore : size.limit + 1 ≤ rows.length
  · have hlong : size.limit < min (size.limit + 1) rows.length := by omega
    have hitems : (rows.take (size.limit + 1)).dropLast = rows.take size.limit := by
      rw [dropLast_eq_take, length_take, take_take]
      congr 1
      omega
    simp only [hlong, hmore, if_true, hitems]
  · have hshort : ¬ size.limit < min (size.limit + 1) rows.length := by omega
    simp only [hshort, hmore, if_false]
    rw [take_of_length_le (by omega), take_of_length_le (by omega)]

/-- The pages of a crew are those of its rows, newest first. -/
theorem getByCrew_paged : Paged (getByCrew c db crewId size) (fun i : Item => i.row.id)
    (afterCursor c) size.limit (size.limit + 1) (activityOf c db crewId) where
  first := by
    rw [getByCrew_eq, newestFirst_filter c ids_nodup]
    congr 2
    exact filter_eq_self.mpr fun _ _ => rfl
  next := by
    intro r hr
    rw [getByCrew_eq, newestFirst_filter c ids_nodup]
    congr 2
    apply filter_congr
    intro i _
    exact if_neg r.row.id_ne
  pos := size.one_le
  le := Nat.le_succ _
  le_succ := le_rfl
  nodup := activityOf_nodup

end Pages

/-! ## The partition -/

/-- At each boundary of the pages the ids are on the sides on which the times are: those up to
it are not before the id of its last row, those of the next page are, and where there are more,
another one is. -/
def IdsFollowTimes (c : Collation) (limit : ℕ) (rows : List Item) : Prop :=
  ∀ k r, limit ∣ k → 0 < k → k < rows.length → rows[k - 1]? = some r →
    (∀ i ∈ rows.take k, c.lt i.row.id r.row.id = false) ∧
    (∀ i ∈ (rows.drop k).take limit, c.lt i.row.id r.row.id = true) ∧
    (limit + k < rows.length → ∃ i ∈ rows.drop (k + limit), c.lt i.row.id r.row.id = true)

/-- **The pages of a crew's activity are a partition** of its rows, newest first, exactly when
the ids follow the times at each page boundary. -/
theorem activity_pages_partition_iff (c : Collation) (db : Db) (crewId : String)
    (size : PageSize) :
    Follow (getByCrew c db crewId size) none (activityOf c db crewId) ↔
      IdsFollowTimes c size.limit (activityOf c db crewId) := by
  rw [getByCrew_paged.follow_iff, boundaries_iff size.one_le activityOf_nodup]
  rfl

/-! ## Ids against time -/

/-- A row of the crew, at some second. -/
def rowAt (id : String) (id_ne : id ≠ "") (seconds : ℤ) : Row :=
  { id := id, crewId := "c1", userId := "u1", type := "crew:join", detail := none
    createdAt := 1788550200000000 + seconds * 1000000, id_ne := id_ne }

def pageOfOne : PageSize := { limit := 1, one_le := by decide, le_max := by decide }

/-- Two rows of which the later one has the smaller id. -/
def fallingDb : Db where
  activity := [rowAt "20" (by decide) 0, rowAt "10" (by decide) 1]
  users := [{ id := "u1", username := "ana", deleted := false }]
  activity_unique := by decide
  users_unique := by decide

/-- The earlier row is on no page. -/
theorem fallingDb_skips :
    Follow (getByCrew .codePoints fallingDb "c1" pageOfOne) none
        [⟨rowAt "10" (by decide) 1, "ana"⟩] ∧
      ¬ Follow (getByCrew .codePoints fallingDb "c1" pageOfOne) none
        (activityOf .codePoints fallingDb "c1") := by
  have h : Follow (getByCrew .codePoints fallingDb "c1" pageOfOne) none
      [⟨rowAt "10" (by decide) 1, "ana"⟩] := by
    have hfirst : getByCrew .codePoints fallingDb "c1" pageOfOne none =
        .ok ⟨[⟨rowAt "10" (by decide) 1, "ana"⟩], some "10"⟩ := by decide
    have hsecond : getByCrew .codePoints fallingDb "c1" pageOfOne (some "10") =
        .ok ⟨[], none⟩ := by decide
    exact Follow.next hfirst rfl (Follow.last hsecond rfl)
  refine ⟨h, fun hall => ?_⟩
  exact absurd (h.eq hall) (by decide)

end FestivalPlanner.ActivityLog
