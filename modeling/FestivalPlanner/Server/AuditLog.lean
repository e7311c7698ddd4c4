import FestivalPlanner.Lib.JsDate
import FestivalPlanner.Lib.Keyed
import FestivalPlanner.Lib.Keyset

/-!
# Pages of the audit log

The model of `query` of `lib/db/stores/audit.ts`: the rows of the audit log that match some
filters, newest first, a page at a time.  The cursor of a page is the time of its last row as
`toISOString` writes it, in milliseconds, and the row's id; the times of the rows are in
microseconds.

* `AuditRow`, `Log`, `Query` — the table and the filters;
* `query` — one page;
* `query_paged` — the pages are those of the matching rows, newest first;
* `audit_pages_partition_iff` — following the cursors visits every matching row once, in that
  order, exactly when no page ends within a millisecond.
-/

namespace FestivalPlanner.AuditLog

open Js Keyset List

/-! ## The table -/

/-- `details_json` as the driver gives it: an object, or another value as a text. -/
inductive DetailsJson where
  | object (json : String)
  | text (s : String)
  deriving DecidableEq

/-- The columns of `audit_log`. -/
structure AuditColumns where
  id : String
  actorType : Option String := none
  actorId : Option String := none
  action : Option String := none
  targetType : Option String := none
  targetId : Option String := none
  detailsJson : Option DetailsJson := none
  ip : Option String := none
  userAgent : Option String := none
  requestId : Option String := none
  status : Option String := none
  /-- in microseconds -/
  createdAt : ℤ
  deriving DecidableEq

structure AuditRow extends AuditColumns where
  /-- `entry.id || randomUUID()` -/
  id_ne : id ≠ ""

theorem AuditRow.ext_columns {r s : AuditRow} (h : r.toAuditColumns = s.toAuditColumns) : r = s := by
  cases r
  cases s
  cases h
  rfl

instance : DecidableEq AuditRow := fun r s =>
  decidable_of_iff (r.toAuditColumns = s.toAuditColumns)
    ⟨AuditRow.ext_columns, congrArg AuditRow.toAuditColumns⟩

def AuditRow.key (r : AuditRow) : ℤ × String := (r.createdAt, r.id)

/-- The rows; `id` is the primary key. -/
structure Log where
  rows : List AuditRow
  unique : Keyed.UniqueKeys (fun r : AuditRow => r.id) rows

/-- The arguments of `query`, without those that are falsy. -/
structure Query where
  actorId : Option String := none
  action : Option String := none
  resourceType : Option String := none
  /-- in microseconds, as the next -/
  from_ : Option ℤ := none
  to_ : Option ℤ := none
  limit : Option ℤ := none

/-- `Math.min(Math.max(1, limit || 50), 200)` -/
def Query.finalLimit (q : Query) : ℕ :=
  let limit := match q.limit with
    | none => 50
    | some n => if n = 0 then 50 else n
  (min (max 1 limit) 200).toNat

/-- The filters of the `WHERE` clause, all but the cursor. -/
def Query.selects (q : Query) (r : AuditRow) : Bool :=
  (q.actorId.isNone || r.actorId == q.actorId) && (q.action.isNone || r.action == q.action) &&
    (q.resourceType.isNone || r.targetType == q.resourceType) &&
    q.from_.all (fun t => decide (t ≤ r.createdAt)) && q.to_.all (fun t => decide (r.createdAt ≤ t))

/-! ## One page -/

/-- What the API returns of a row. -/
structure Entry where
  row : AuditRow
  details : Option String
  deriving DecidableEq

/-- A row with its details; `parse` is `JSON.parse`, which may throw. -/
def entryOf (parse : String → Option String) (r : AuditRow) : Entry :=
  { row := r
    details := match r.detailsJson with
      | none => none
      | some (.object json) => some json
      | some (.text s) => if s = "" then none else parse s }

/-- `new Date(createdAt).toISOString()`: a date has milliseconds. -/
def isoOf (createdAt : ℤ) : List Char :=
  match toISOString (some (createdAt / 1000)) with
  | .ok text => text
  | .error _ => []

/-- The cursor of a page whose last row this is. -/
def cursorOf (r : AuditRow) : String := String.ofList (isoOf r.createdAt ++ '|' :: r.id.toList)

/-- The time and the id of a cursor; one without a bar is dropped, and an empty half is null. -/
def parseCursor (cursor : Option String) : Option (List Char) × Option String :=
  match cursor with
  | none => (none, none)
  | some cursor =>
      if '|' ∈ cursor.toList then
        let time := cursor.toList.takeWhile (· ≠ '|')
        let id := (cursor.toList.dropWhile (· ≠ '|')).drop 1
        (if time = [] then none else some time, if id = [] then none else some (String.ofList id))
      else (none, none)

/-- `(created_at, id) < ($6, $7)`; against a null id only an earlier time is less. -/
def passes (c : Collation) (time : ℤ) (id : Option String) (r : AuditRow) : Bool :=
  match id with
  | some id => c.keyLt r.key (time, id)
  | none => decide (r.createdAt < time)

/-- A page of the rows that the `WHERE` clause selects. -/
def pageOfRows (c : Collation) (parse : String → Option String) (limit : ℕ)
    (rows : List AuditRow) : Page Entry String :=
  let found := ((newestFirst c AuditRow.key rows).take limit).map (entryOf parse)
  { items := found
    nextCursor :=
      if found.length = limit then found.getLast?.map (fun e => cursorOf e.row) else none }

/-- One page.  `readTimestamp` is the cast to `TIMESTAMPTZ`, in microseconds. -/
def query (c : Collation) (parse : String → Option String)
    (readTimestamp : List Char → Option ℤ) (log : Log) (q : Query) (cursor : Option String) :
    Except String (Page Entry String) :=
  let rows := log.rows.filter q.selects
  match parseCursor cursor with
  | (none, _) => .ok (pageOfRows c parse q.finalLimit rows)
  | (some text, id) =>
      match readTimestamp text with
      | none => .error "invalid input syntax for type timestamp with time zone"
      | some time => .ok (pageOfRows c parse q.finalLimit (rows.filter (passes c time id)))

/-- The rows that match the filters, newest first. -/
def matching (c : Collation) (log : Log) (q : Query) : List AuditRow :=
  newestFirst c AuditRow.key (log.rows.filter q.selects)

/-! ## Cursors -/

theorem Query.finalLimit_pos (q : Query) : 0 < q.finalLimit := by
  unfold finalLimit
  have : (1 : ℤ) ≤ min (max 1 (match q.limit with
      | none => 50
      | some n => if n = 0 then 50 else n)) 200 := le_min (le_max_left _ _) (by decide)
  simp only
  omega

theorem bar_notMem_repr (n : ℕ) : '|' ∉ n.repr.toList := by
  rw [Nat.toList_repr]
  intro h
  exact absurd (Nat.isDigit_of_mem_toDigits (by decide) (by decide) h) (by decide)

/-- Numbers are written without a bar. -/
theorem bar_notMem_padStart (width : ℕ) (n : ℤ) : '|' ∉ padStart width n.repr.toList := by
  rw [padStart, mem_append, mem_replicate, Int.repr_eq_if]
  rintro (⟨-, h⟩ | h)
  · exact absurd h (by decide)
  · split at h
    · exact bar_notMem_repr _ h
    · rw [String.toList_append, mem_append] at h
      rcases h with h | h
      · exact absurd h (by decide)
      · exact bar_notMem_repr _ h

theorem bar_notMem_isoOf (createdAt : ℤ) : '|' ∉ isoOf createdAt := by
  unfold isoOf toISOString
  simp only [Int.toString_eq_repr, append_assoc, cons_append, mem_append,
    mem_cons, Char.reduceEq, bar_notMem_padStart, not_mem_nil, or_self, or_false]
  split_ifs <;> simp [bar_notMem_padStart]

theorem isoOf_ne_nil (createdAt : ℤ) : isoOf createdAt ≠ [] := by
  unfold isoOf toISOString
  simp

/-- The cursor of a row is read as its time and its id. -/
theorem parseCursor_cursorOf (r : AuditRow) :
    parseCursor (some (cursorOf r)) = (some (isoOf r.createdAt), some r.id) := by
  have hall : ∀ x ∈ isoOf r.createdAt, decide (x ≠ '|') = true := by
    intro x hx
    rw [decide_eq_true_eq]
    rintro rfl
    exact bar_notMem_isoOf _ hx
  have hid : r.id.toList ≠ [] := by
    intro h
    exact r.id_ne (String.toList_injective h)
  unfold parseCursor cursorOf
  simp only [String.toList_ofList]
  rw [if_pos (by simp), takeWhile_append_of_pos hall, dropWhile_append_of_pos hall]
  simp [isoOf_ne_nil, hid]

/-! ## The pages of the matching rows -/

section Pages

variable (c : Collation) (parse : String → Option String)
  (readTimestamp : List Char → Option ℤ) (log : Log) (q : Query)

/-- The time of a row as its cursor has it: whole milliseconds. -/
def cursorTime (r : AuditRow) : ℤ := r.createdAt / 1000 * 1000

/-- Is `e` after the cursor of `r`? -/
def afterCursor (r e : Entry) : Bool := passes c (cursorTime r.row) (some r.row.id) e.row

/-- The entries that match the filters, newest first. -/
def entries : List Entry := (matching c log q).map (entryOf parse)

variable {c parse readTimestamp log q}

theorem pageOfRows_eq {limit : ℕ} (rows : List AuditRow) :
    pageOfRows c parse limit rows = pageOf (fun e : Entry => cursorOf e.row) limit limit
      ((newestFirst c AuditRow.key rows).map (entryOf parse)) := by
  unfold pageOfRows pageOf
  simp only [← map_take, length_map, length_take]
  congr 1
  by_cases h : limit ≤ (newestFirst c AuditRow.key rows).length
  · rw [if_pos (Nat.min_eq_left h), if_pos h]
  · rw [if_neg (by omega), if_neg h]

theorem ids_nodup : ((log.rows.filter q.selects).map fun r => r.key.2).Nodup :=
  log.unique.sublist (filter_sublist.map _)

theorem mem_matching {r : AuditRow} :
    r ∈ matching c log q ↔ r ∈ log.rows ∧ q.selects r = true := by
  unfold matching
  rw [(perm_newestFirst c AuditRow.key _).mem_iff, mem_filter]

theorem matching_nodup : (matching c log q).Nodup := by
  have hids : ((log.rows.filter q.selects).map fun r => r.key.2).Nodup := ids_nodup
  exact (perm_newestFirst c AuditRow.key _).nodup_iff.mpr (List.Nodup.of_map _ hids)

theorem entryOf_injective : Function.Injective (entryOf parse) := by
  intro r r' h
  exact congrArg Entry.row h

/-- The pages of the log are those of the matching entries, newest first, where the cast to a
timestamp reads the times of the cursors. -/
theorem query_paged
    (hread : ∀ r ∈ log.rows, readTimestamp (isoOf r.createdAt) = some (cursorTime r)) :
    Paged (query c parse readTimestamp log q) (fun e : Entry => cursorOf e.row) (afterCursor c)
      q.finalLimit q.finalLimit (entries c parse log q) where
  first := by
    unfold query
    rw [show parseCursor none = (none, none) from rfl]
    simp only
    rw [pageOfRows_eq]
    rfl
  next := by
    intro e he
    obtain ⟨r, hr, rfl⟩ := mem_map.mp he
    unfold query
    rw [parseCursor_cursorOf]
    simp only [show (entryOf parse r).row = r from rfl, hread r (mem_matching.mp hr).1]
    rw [pageOfRows_eq, newestFirst_filter c ids_nodup]
    congr 2
    unfold entries
    rw [filter_map]
    rfl
  pos := q.finalLimit_pos
  le := le_rfl
  le_succ := Nat.le_succ _
  nodup := matching_nodup.map entryOf_injective

/-- The row of a cursor is not after it. -/
theorem afterCursor_self (e : Entry) : afterCursor c e e = false := by
  show c.keyLt (e.row.createdAt, e.row.id) (cursorTime e.row, e.row.id) = false
  rw [Bool.eq_false_iff, ne_eq, Collation.keyLt_iff]
  rintro (h | ⟨-, h⟩)
  · simp only [cursorTime] at h
    omega
  · rw [c.irrefl] at h
    cases h

end Pages

/-! ## The partition -/

/-- No page ends within a millisecond: the row after a full page is before the cursor. -/
def EndsOnMilliseconds (c : Collation) (log : Log) (q : Query) : Prop :=
  ∀ k r s, q.finalLimit ∣ k → 0 < k → (matching c log q)[k - 1]? = some r →
    (matching c log q)[k]? = some s →
      s.createdAt < cursorTime r ∨ (s.createdAt = cursorTime r ∧ c.lt s.id r.id = true)

/-- **The pages of the audit log are a partition** of the matching rows, in their order,
exactly when none of them ends within a millisecond. -/
theorem audit_pages_partition_iff {c : Collation} {parse : String → Option String}
    {readTimestamp : List Char → Option ℤ} {log : Log} (q : Query)
    (hread : ∀ r ∈ log.rows, readTimestamp (isoOf r.createdAt) = some (cursorTime r)) :
    Follow (query c parse readTimestamp log q) none (entries c parse log q) ↔
      EndsOnMilliseconds c log q := by
  have hpaged : Paged (query c parse readTimestamp log q) (fun e : Entry => cursorOf e.row)
      (afterCursor c) q.finalLimit q.finalLimit (entries c parse log q) := query_paged hread
  have hself : ∀ e ∈ entries c parse log q, afterCursor c e e = false := by
    intro e _
    exact afterCursor_self e
  have hmono : ∀ e ∈ entries c parse log q, (entries c parse log q).Pairwise
      (fun x y => afterCursor c e x = true → afterCursor c e y = true) := by
    intro e _
    exact List.pairwise_map.mpr ((pairwise_newestFirst c ids_nodup).imp
      fun hxy hx => Collation.keyLt_trans hxy hx)
  rw [hpaged.follow_iff, boundaries_iff_of_threshold q.finalLimit_pos hself hmono]
  unfold entries EndsOnMilliseconds
  simp only [List.getElem?_map, Option.map_eq_some_iff]
  constructor
  · intro h k r s hk hpos hr hs
    exact Collation.keyLt_iff.mp
      (h k (entryOf parse r) (entryOf parse s) hk hpos ⟨r, hr, rfl⟩ ⟨s, hs, rfl⟩)
  · rintro h k _ _ hk hpos ⟨r, hr, rfl⟩ ⟨s, hs, rfl⟩
    exact Collation.keyLt_iff.mpr (h k r s hk hpos hr hs)

/-! ## A burst of rows -/

/-- A cast to a timestamp that reads the texts that `toISOString` writes. -/
def readIso : List Char → Option ℤ
  | [y1, y2, y3, y4, '-', m1, m2, '-', d1, d2, 'T', h1, h2, ':', n1, n2, ':', s1, s2, '.',
      f1, f2, f3, 'Z'] =>
      let day := Calendar.makeDay (ofDigits [y1, y2, y3, y4]) (ofDigits [m1, m2]) (ofDigits [d1, d2])
      some ((day * msPerDay + ofDigits [h1, h2] * msPerHour + ofDigits [n1, n2] * msPerMinute +
        ofDigits [s1, s2] * 1000 + ofDigits [f1, f2, f3]) * 1000)
  | _ => none

/-- A row at some microseconds after half past seven on 4 September 2026. -/
def eveningRow (id : String) (id_ne : id ≠ "") (micros : ℤ) : AuditRow :=
  { id := id, id_ne := id_ne, createdAt := 1788550200000000 + micros }

/-- Three rows of different milliseconds. -/
def spacedLog : Log where
  rows := [eveningRow "b" (by decide) 1900, eveningRow "a" (by decide) 2100,
    eveningRow "c" (by decide) 700]
  unique := by decide

theorem spacedLog_partition :
    Follow (query .codePoints (fun _ => none) readIso spacedLog { limit := some 1 }) none
      (entries .codePoints (fun _ => none) spacedLog { limit := some 1 }) := by
  refine (audit_pages_partition_iff _ (by decide)).mpr ?_
  have hrows : matching .codePoints spacedLog { limit := some 1 } =
      [eveningRow "a" (by decide) 2100, eveningRow "b" (by decide) 1900,
        eveningRow "c" (by decide) 700] := by decide
  intro k r s _ hpos hr hs
  rw [hrows] at hr hs
  rcases k with _ | _ | _ | k
  · omega
  · cases hr
    cases hs
    exact Or.inl (by decide)
  · cases hr
    cases hs
    exact Or.inl (by decide)
  · cases hs

/-- Two rows of one millisecond. -/
def burstLog : Log where
  rows := [eveningRow "a" (by decide) 900, eveningRow "b" (by decide) 100]
  unique := by decide

/-- The second row of the burst is on no page. -/
theorem burstLog_skips :
    Follow (query .codePoints (fun _ => none) readIso burstLog { limit := some 1 }) none
        [entryOf (fun _ => none) (eveningRow "a" (by decide) 900)] ∧
      ¬ Follow (query .codePoints (fun _ => none) readIso burstLog { limit := some 1 }) none
        (entries .codePoints (fun _ => none) burstLog { limit := some 1 }) := by
  have h : Follow (query .codePoints (fun _ => none) readIso burstLog { limit := some 1 }) none
      [entryOf (fun _ => none) (eveningRow "a" (by decide) 900)] := by
    have hfirst : query .codePoints (fun _ => none) readIso burstLog { limit := some 1 } none =
        .ok ⟨[entryOf (fun _ => none) (eveningRow "a" (by decide) 900)],
          some "2026-09-04T19:30:00.000Z|a"⟩ := by decide
    have hsecond : query .codePoints (fun _ => none) readIso burstLog { limit := some 1 }
        (some "2026-09-04T19:30:00.000Z|a") = .ok ⟨[], none⟩ := by decide
    exact Follow.next hfirst rfl (Follow.last hsecond rfl)
  refine ⟨h, fun hall => ?_⟩
  exact absurd (h.eq hall) (by decide)

end FestivalPlanner.AuditLog
