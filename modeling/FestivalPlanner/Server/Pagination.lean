import FestivalPlanner.Lib.JsDate
import FestivalPlanner.Lib.Keyed
import FestivalPlanner.Lib.Keyset
import FestivalPlanner.Lib.NumberText
import FestivalPlanner.Share.Base64Url

/-!
# Pages of profiles and users

The model of `lib/pagination.ts` and of the lists that `routes/profiles.ts` and
`routes/admin-users.ts` hand to it.  A cursor is the base64url text of the JSON of the last item's
`createdAt` and `id`; the next page starts at the first item that is greater.

* `encodeCursor`, `decodeCursor` — a date comes back as a text (`decodeCursor_encodeCursor`);
* `paginateArray` — one page;
* `Row`, `Route`, `Route.items` — the rows of the stores, in their order;
* `page_eq` — the pages are those of `Lib.Keyset`;
* `pages_visit_once_iff` — following the cursors visits everything that stays once, exactly when
  the list is in the order in which the cursors are compared.
-/

namespace FestivalPlanner.Pages

open Js JsonText Keyset Utf16 List

/-! ## Cursors -/

/-- The buffers of the server. -/
structure Node where
  /-- `Buffer.from(text).toString('base64url')` -/
  toBase64Url : Text → Text
  /-- `Buffer.from(cursor, 'base64url').toString('utf8')` -/
  fromBase64Url : Text → Text
  fromBase64Url_nil : fromBase64Url [] = []
  fromBase64Url_toBase64Url {t : Text} : WellFormed t → fromBase64Url (toBase64Url t) = t

/-- `new Date(ms).toISOString()` -/
def isoText (ms : ℤ) : Text :=
  match toISOString (some ms) with
  | .ok text => ofString (String.ofList text)
  | .error _ => []

/-- `createdAt` of an item: a date, or the text that `toISOString` writes of one. -/
inductive CreatedAt where
  | date (ms : ℤ)
  | text (ms : ℤ)
  deriving DecidableEq

namespace CreatedAt

/-- JSON writes a date as a text. -/
@[grind =] def toJSON : CreatedAt → Text
  | .date ms => isoText ms
  | .text ms => isoText ms

/-- `createdAt === value`, for a text -/
def equals : CreatedAt → Text → Bool
  | .date _, _ => false
  | .text ms, value => decide (isoText ms = value)

/-- `createdAt > value`, for a text that is no number; a date is compared with `NaN` -/
def greater : CreatedAt → Text → Bool
  | .date _, _ => false
  | .text ms, value => decide (value < isoText ms)

end CreatedAt

/-- A cursor, decoded. -/
structure Cursor where
  value : Text
  id : Text

def encodeCursor (node : Node) (value : CreatedAt) (id : Text) : Text :=
  node.toBase64Url (stringify Double.numerals
    (.obj [(ofString "value", .str value.toJSON), (ofString "id", .str id)]))

/-- A text that was not made by `encodeCursor` counts as no cursor. -/
def decodeCursor (node : Node) (cursor : Text) : Option Cursor :=
  if cursor = [] then none
  else
    match parse Double.numerals (node.fromBase64Url cursor) with
    | some (.obj fields) =>
        match field (ofString "value") fields, field (ofString "id") fields with
        | some (.str value), some (.str id) => some ⟨value, id⟩
        | _, _ => none
    | _ => none

theorem decodeCursor_encodeCursor (node : Node) (value : CreatedAt) (id : Text) :
    decodeCursor node (encodeCursor node value id) = some ⟨value.toJSON, id⟩ := by
  have hback := node.fromBase64Url_toBase64Url (wellFormed_stringify (N := Double.numerals)
    (.obj [(ofString "value", .str value.toJSON), (ofString "id", .str id)]))
  have hparse := parse_stringify (N := Double.numerals)
    (v := .obj [(ofString "value", .str value.toJSON), (ofString "id", .str id)])
    (.obj (by
      intro f hf
      rcases mem_cons.mp hf with rfl | hf
      · exact .str _
      · obtain rfl := mem_singleton.mp hf
        exact .str _))
  have hnames : [ofString "value", ofString "id"].Nodup := by decide
  have hvalue : field (ofString "value") [(ofString "value", Value.str value.toJSON),
      (ofString "id", Value.str id)] = some (.str value.toJSON : Value Double.Number) :=
    field_eq_some hnames (by simp)
  have hid : field (ofString "id") [(ofString "value", Value.str value.toJSON),
      (ofString "id", Value.str id)] = some (.str id : Value Double.Number) :=
    field_eq_some hnames (by simp)
  unfold decodeCursor encodeCursor
  rw [if_neg, hback, hparse]
  · simp only [hvalue, hid]
  · -- the text of a cursor is not empty
    intro hnil
    rw [hnil, node.fromBase64Url_nil] at hback
    rw [← hback] at hparse
    cases hparse

/-! ## One page -/

structure Pagination where
  hasMore : Bool
  nextCursor : Option Text
  pageSize : ℕ
  total : ℕ

section
variable {α : Type*} (node : Node) (createdAt : α → CreatedAt) (id : α → Text)

/-- Does an item come after the cursor? -/
def isAfter (decoded : Cursor) (item : α) : Bool :=
  if (createdAt item).equals decoded.value then decide (decoded.id < id item)
  else (createdAt item).greater decoded.value

def paginateArray (items : List α) (limit : ℕ) (cursor : Option Text) : List α × Pagination :=
  let startIndex := match cursor.bind (decodeCursor node) with
    | none => 0
    | some decoded => items.findIdx (isAfter createdAt id decoded)
  let page := (items.drop startIndex).take (limit + 1)
  let hasMore := decide (limit < page.length)
  let page := if hasMore then page.dropLast else page
  let nextCursor :=
    if hasMore && decide (0 < page.length) then
      page.getLast?.map (fun last => encodeCursor node (createdAt last) (id last))
    else none
  (page, { hasMore, nextCursor, pageSize := limit, total := items.length })

/-- What a client follows. -/
def page (items : List α) (limit : ℕ) (cursor : Option Text) : Page α Text :=
  let result := paginateArray node createdAt id items limit cursor
  { items := result.1, nextCursor := result.2.nextCursor }

/-- The cursor of a page that ends with this item. -/
def cursorOf (item : α) : Text := encodeCursor node (createdAt item) (id item)

/-- Is the item after the cursor?  All are after a text that is none. -/
def afterCursor (cursor : Text) (item : α) : Bool :=
  (decodeCursor node cursor).all (fun decoded => isAfter createdAt id decoded item)

variable {node createdAt id}

/-- A page and one item more, of which the last is dropped when there is one more. -/
theorem slice_eq (rest : List α) (limit : ℕ) :
    (let page := rest.take (limit + 1)
      let hasMore := decide (limit < page.length)
      let page := if hasMore then page.dropLast else page
      let nextCursor :=
        if hasMore && decide (0 < page.length) then
          page.getLast?.map (fun last => encodeCursor node (createdAt last) (id last))
        else none
      ({ items := page, nextCursor := nextCursor } : Page α Text)) =
      pageOf (cursorOf node createdAt id) limit (limit + 1) rest := by
  unfold pageOf
  by_cases hmore : limit + 1 ≤ rest.length
  · have hlen : (rest.take (limit + 1)).length = limit + 1 := by
      rw [length_take]
      omega
    have htake : (rest.take (limit + 1)).dropLast = rest.take limit := by
      rw [dropLast_eq_take, hlen, take_take, Nat.add_sub_cancel]
      congr 1
      omega
    have hlast : decide (limit < (rest.take (limit + 1)).length) = true := by
      rw [hlen]
      exact decide_eq_true (Nat.lt_succ_self limit)
    simp only [hlast, if_true, htake, if_pos hmore, Bool.true_and, decide_eq_true_eq]
    congr 1
    split
    · rfl
    · rename_i hzero
      rw [eq_nil_of_length_eq_zero (by omega : (rest.take limit).length = 0)]
      rfl
  · have hall : rest.take (limit + 1) = rest := take_of_length_le (by omega)
    have hlast : decide (limit < rest.length) = false := decide_eq_false (by omega)
    simp only [hall, hlast, Bool.false_and, Bool.false_eq_true, if_false, if_neg hmore]
    rw [take_of_length_le (by omega)]

theorem page_eq (items : List α) (limit : ℕ) (cursor : Option Text) :
    page node createdAt id items limit cursor =
      pageFrom (cursorOf node createdAt id) (afterCursor node createdAt id) limit items cursor := by
  have hstart : (match cursor.bind (decodeCursor node) with
      | none => 0
      | some decoded => items.findIdx (isAfter createdAt id decoded)) =
      cursor.elim 0 fun c => items.findIdx (afterCursor node createdAt id c) := by
    cases cursor with
    | none => rfl
    | some c =>
      simp only [Option.bind_some, Option.elim_some]
      unfold afterCursor
      cases decodeCursor node c with
      | none => cases items <;> simp [findIdx_cons]
      | some decoded => rfl
  unfold page paginateArray pageFrom
  rw [hstart]
  exact slice_eq _ limit

theorem afterCursor_cursorOf (x y : α) :
    afterCursor node createdAt id (cursorOf node createdAt id x) y =
      isAfter createdAt id ⟨(createdAt x).toJSON, id x⟩ y := by
  unfold afterCursor cursorOf
  rw [decodeCursor_encodeCursor]
  rfl

end

/-- An item is after the cursor of another when both times are texts and its own is greater, or
the same and its id is greater. -/
theorem isAfter_iff {α : Type*} {createdAt : α → CreatedAt} {id : α → Text} {x y : α} :
    isAfter createdAt id ⟨(createdAt x).toJSON, id x⟩ y = true ↔
      ∃ ms, createdAt y = .text ms ∧ ((createdAt x).toJSON < isoText ms ∨
        isoText ms = (createdAt x).toJSON ∧ id x < id y) := by
  unfold isAfter
  cases hy : createdAt y with
  | date ms => simp [CreatedAt.equals, CreatedAt.greater]
  | text ms =>
    by_cases heq : isoText ms = (createdAt x).toJSON
    · simp [CreatedAt.equals, heq]
    · simp [CreatedAt.equals, CreatedAt.greater, heq]

/-- Of two items only one is after the cursor of the other. -/
theorem isAfter_asymm {α : Type*} {createdAt : α → CreatedAt} {id : α → Text} {x y : α}
    (h : isAfter createdAt id ⟨(createdAt x).toJSON, id x⟩ y = true) :
    isAfter createdAt id ⟨(createdAt y).toJSON, id y⟩ x = false := by
  rw [Bool.eq_false_iff]
  intro h'
  obtain ⟨ms, hy, hlt⟩ := isAfter_iff.mp h
  obtain ⟨ms', hx, hlt'⟩ := isAfter_iff.mp h'
  rw [hx] at hlt
  rw [hy] at hlt'
  simp only [CreatedAt.toJSON] at hlt hlt'
  rcases hlt with hlt | ⟨heq, hlt⟩
  · rcases hlt' with hlt' | ⟨heq', -⟩
    · exact List.lt_asymm hlt hlt'
    · rw [heq'] at hlt
      exact List.lt_irrefl _ hlt
  · rcases hlt' with hlt' | ⟨-, hlt'⟩
    · rw [heq] at hlt'
      exact List.lt_irrefl _ hlt'
    · exact List.lt_asymm hlt hlt'

/-! ## The lists of the routes -/

/-- A row of `users` or `festival_profiles`: the key, and the columns that a route reads. -/
structure Row (β : Type*) where
  id : String
  /-- in microseconds -/
  createdAt : ℤ
  columns : β
  /-- it is the time of a date -/
  dated : timeClip (createdAt / 1000) = some (createdAt / 1000)

variable {β : Type*}

def Row.key (r : Row β) : ℤ × String := (r.createdAt, r.id)

/-- The rows that there are at some time; `id` is the primary key. -/
structure Table (β : Type*) where
  rows : List (Row β)
  unique : Keyed.UniqueKeys (fun r : Row β => r.id) rows

/-- A list: the `WHERE` clause of the store, and what the route keeps of its answer. -/
structure Route (β : Type*) where
  where_ : β → Bool
  keeps : β → Bool

/-- The items, in the order `ORDER BY created_at ASC, id ASC` of both stores. -/
def Route.items (route : Route β) (c : Collation) (rows : List (Row β)) : List (Row β) :=
  (oldestFirst c Row.key (rows.filter fun r => route.where_ r.columns)).filter
    fun r => route.keeps r.columns

structure ProfileColumns where
  festivalId : String
  deleted : Bool
  deriving DecidableEq

/-- `GET /profiles/:festivalId`: `getByFestival` -/
def profilesOf (festivalId : String) : Route ProfileColumns where
  where_ profile := profile.festivalId == festivalId && !profile.deleted
  keeps _ := true

structure UserColumns where
  username : String
  email : Option String
  deleted : Bool
  deriving DecidableEq

/-- `GET /users`: `readAll`, and the search, which is in lower case. -/
def usersMatching (toLowerCase : String → String) (search : Option String) :
    Route UserColumns where
  where_ user := !user.deleted
  keeps user := search.all fun search =>
    includes search (toLowerCase user.username) ||
      user.email.any (fun email => includes search (toLowerCase email))

/-- Do the items have dates, or the texts that `toISOString` of the stores makes of them? -/
inductive Handed where
  | dates
  | texts
  deriving DecidableEq

/-- `item.createdAt`; a date has milliseconds. -/
def Handed.createdAt (handed : Handed) (r : Row β) : CreatedAt :=
  match handed with
  | .dates => .date (r.createdAt / 1000)
  | .texts => .text (r.createdAt / 1000)

def Row.itemId (r : Row β) : Text := ofString r.id

/-- The page that a route answers with. -/
def Route.page (route : Route β) (node : Node) (c : Collation) (handed : Handed)
    (rows : List (Row β)) (limit : ℕ) (cursor : Option Text) : Page (Row β) Text :=
  Pages.page node handed.createdAt Row.itemId (route.items c rows) limit cursor

/-- Rows may come and go before they are selected and ordered, or after. -/
theorem Route.items_filter (route : Route β) (c : Collation) (table : Table β)
    (here : Row β → Bool) :
    route.items c (table.rows.filter here) = (route.items c table.rows).filter here := by
  have hids : ((table.rows.filter fun r => route.where_ r.columns).map
      fun r => r.key.2).Nodup := table.unique.sublist (filter_sublist.map _)
  unfold Route.items
  rw [filter_comm, oldestFirst_filter c hids, filter_comm]

theorem Route.items_nodup (route : Route β) (c : Collation) (table : Table β) :
    (route.items c table.rows).Nodup := by
  have hrows : table.rows.Nodup := List.Nodup.of_map _ table.unique
  exact ((perm_oldestFirst c Row.key _).nodup_iff.mpr (hrows.filter _)).filter _

/-! ## Following the cursors -/

/-- Whatever comes and goes of the rows of the table between two requests, and for pages of any
size, following the cursors from the first page comes to an end and gives the items that are
there throughout, once and in the order of the list. -/
def VisitsAllOnce (route : Route β) (node : Node) (c : Collation) (handed : Handed)
    (table : Table β) : Prop :=
  ∀ limit, 0 < limit → ∀ here : ℕ → Row β → Bool, ∃ n visited,
    Walk (fun i => route.page node c handed (table.rows.filter (here i)) limit) 0 none n visited ∧
      visited.filter (throughout here n) = (route.items c table.rows).filter (throughout here n)

/-- The times are texts, and `x` is before `y` by its text and id, as texts of code units. -/
def Before (handed : Handed) (x y : Row β) : Prop :=
  handed = .texts ∧ (isoText (x.createdAt / 1000) < isoText (y.createdAt / 1000) ∨
    isoText (y.createdAt / 1000) = isoText (x.createdAt / 1000) ∧ x.itemId < y.itemId)

theorem Before.trans {handed : Handed} {x y z : Row β} (hxy : Before handed x y)
    (hyz : Before handed y z) : Before handed x z := by
  obtain ⟨htexts, hxy⟩ := hxy
  obtain ⟨-, hyz⟩ := hyz
  refine ⟨htexts, ?_⟩
  rcases hxy with hxy | ⟨hxy, hids⟩
  · rcases hyz with hyz | ⟨hyz, -⟩
    · exact .inl (List.lt_trans hxy hyz)
    · rw [hyz]
      exact .inl hxy
  · rcases hyz with hyz | ⟨hyz, hids'⟩
    · rw [← hxy]
      exact .inl hyz
    · exact .inr ⟨hyz.trans hxy, List.lt_trans hids hids'⟩

theorem visitsAllOnce_iff_visitsOnce {route : Route β} {node : Node} {c : Collation}
    {handed : Handed} {table : Table β} :
    VisitsAllOnce route node c handed table ↔
      VisitsOnce (cursorOf node handed.createdAt Row.itemId)
        (afterCursor node handed.createdAt Row.itemId) (route.items c table.rows) := by
  unfold VisitsAllOnce VisitsOnce Route.page
  simp only [funext (page_eq _ _), Route.items_filter]

theorem visitsAllOnce_iff_pairwise {route : Route β} {node : Node} {c : Collation}
    {handed : Handed} {table : Table β} :
    VisitsAllOnce route node c handed table ↔
      (route.items c table.rows).Pairwise (Before handed) := by
  rw [visitsAllOnce_iff_visitsOnce, visitsOnce_iff (route.items_nodup c table)]
  · refine iff_of_eq (congrArg (fun R => List.Pairwise R (route.items c table.rows)) ?_)
    funext x y
    rw [afterCursor_cursorOf, eq_iff_iff, isAfter_iff]
    cases handed with
    | dates => simp [Before, Handed.createdAt]
    | texts => simp [Before, Handed.createdAt, CreatedAt.toJSON]
  · intro x _ y _ h
    rw [afterCursor_cursorOf] at h ⊢
    exact isAfter_asymm h

theorem visitsAllOnce_iff_isChain {route : Route β} {node : Node} {c : Collation}
    {handed : Handed} {table : Table β} :
    VisitsAllOnce route node c handed table ↔
      (route.items c table.rows).IsChain (Before handed) := by
  have : Trans (@Before β handed) (Before handed) (Before handed) := ⟨Before.trans⟩
  rw [visitsAllOnce_iff_pairwise, isChain_iff_pairwise]

/-- **Following the cursors gives everything that stays once**, of the profiles of a festival and
of the users that a search finds, exactly when each item of the list is before the next one as the
cursors are compared. -/
theorem pages_visit_once_iff (node : Node) (c : Collation) (handed : Handed) :
    (∀ festivalId (table : Table ProfileColumns),
      VisitsAllOnce (profilesOf festivalId) node c handed table ↔
        ((profilesOf festivalId).items c table.rows).IsChain (Before handed)) ∧
      ∀ toLowerCase search (table : Table UserColumns),
        VisitsAllOnce (usersMatching toLowerCase search) node c handed table ↔
          ((usersMatching toLowerCase search).items c table.rows).IsChain (Before handed) :=
  ⟨fun _ _ => visitsAllOnce_iff_isChain, fun _ _ _ => visitsAllOnce_iff_isChain⟩

/-! ## Two profiles of one millisecond -/

/-- A buffer that writes base64url and reads it back. -/
def node : Node where
  toBase64Url := Share.toBase64Url
  fromBase64Url t := (Share.fromBase64Url t).getD []
  fromBase64Url_nil := by decide
  fromBase64Url_toBase64Url h := by rw [Share.fromBase64Url_toBase64Url h]; rfl

/-- Two profiles that a statement created in one millisecond. -/
def sameMillisecond : Table ProfileColumns where
  rows := [⟨"prof-b", 1788550200000100, ⟨"fest", false⟩, by decide⟩,
    ⟨"prof-a", 1788550200000900, ⟨"fest", false⟩, by decide⟩]
  unique := by decide

/-- Two profiles that were created a second apart. -/
def aSecondApart : Table ProfileColumns where
  rows := [⟨"prof-a", 1788550200000000, ⟨"fest", false⟩, by decide⟩,
    ⟨"prof-b", 1788550201000000, ⟨"fest", false⟩, by decide⟩]
  unique := by decide

/-- The second profile is on no page: its id is less than that of the cursor of its millisecond,
and no date is greater than the text of one. -/
theorem second_profile_lost :
    ¬ VisitsAllOnce (profilesOf "fest") node .codePoints .texts sameMillisecond ∧
      ¬ VisitsAllOnce (profilesOf "fest") node .codePoints .dates aSecondApart := by
  constructor
  · intro h
    have hpair := visitsAllOnce_iff_pairwise.mp h
    rw [show (profilesOf "fest").items .codePoints sameMillisecond.rows = sameMillisecond.rows
      from rfl] at hpair
    obtain ⟨-, hlt | ⟨-, hlt⟩⟩ := (List.pairwise_cons.mp hpair).1 _ (List.mem_cons_self ..)
    · exact absurd hlt (by decide)
    · exact absurd hlt (by decide)
  · intro h
    have hpair := visitsAllOnce_iff_pairwise.mp h
    rw [show (profilesOf "fest").items .codePoints aSecondApart.rows = aSecondApart.rows
      from rfl] at hpair
    obtain ⟨htexts, -⟩ := (List.pairwise_cons.mp hpair).1 _ (List.mem_cons_self ..)
    cases htexts

end FestivalPlanner.Pages
