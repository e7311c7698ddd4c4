import FestivalPlanner.Lib.NumberText
import FestivalPlanner.Share.Base64Url
import Mathlib.Algebra.Group.Action.Defs

/-!
# The snapshot of a plan that two phones share

`planSnapshot.ts`: a plan becomes a JSON text, its UTF-8 bytes and their base64url text, which
a QR code or a message carries; the other phone reads it back and checks every field.

* `encodePlanSnapshot`, `decodePlanSnapshot` — the two functions of the file;
* `snapshotBytes` — the bytes of a plan's JSON text, from the plan;
* `decode_encode_iff` — **a plan comes back, with at most 50 picks, if and only if its JSON text has
  at most 3072 bytes**: a longer one is encoded all the same, and then refused.
-/

namespace FestivalPlanner.Share

open Utf16 Double List Option

/-! ## Data -/

/-- `PLAN_SNAPSHOT_VERSION` -/
def planSnapshotVersion : ℕ := 1

/-- `MAX_ENCODED_LENGTH` -/
def maxEncodedLength : ℕ := 4096

/-- `MAX_PICKS` -/
def maxPicks : ℕ := 50

/-- `PickPriority` -/
inductive PickPriority where
  | must
  | want
  | maybe
  deriving DecidableEq

/-- `PICK_PRIORITIES` -/
def pickPriorities : List PickPriority := [.must, .want, .maybe]

/-- The string that a priority is. -/
def PickPriority.text : PickPriority → Text
  | .must => ofString "must"
  | .want => ofString "want"
  | .maybe => ofString "maybe"

structure Pick where
  setId : Text
  priority : PickPriority

structure MeetingPoint where
  label : Text
  lat : Number
  lng : Number

structure PlanSnapshotInput where
  festivalId : Text
  festivalName : Text
  picks : List Pick
  meetingPoint : Option MeetingPoint

structure PlanSnapshot extends PlanSnapshotInput where
  v : ℕ

/-- A JSON value of the program. -/
abbrev Json := JsonText.Value Number

/-! ## The schema -/

/-- `z.string().min(min).max(max)`, on a text. -/
def lengthWithin (min max : ℕ) (s : Text) : Bool := decide (min ≤ s.length ∧ s.length ≤ max)

/-- `z.number().finite().min(min).max(max)`, on a number. -/
def valueWithin (min max : ℚ) (x : Number) : Bool :=
  x.value.any (fun q => decide (min ≤ q ∧ q ≤ max))

/-- `z.string().min(min).max(max)` -/
@[grind =] def zString (min max : ℕ) : Json → Option Text
  | .str s => if lengthWithin min max s then some s else none
  | _ => none

/-- `z.number().finite().min(min).max(max)` -/
def zNumber (min max : ℚ) : Json → Option Number
  | .num x => if valueWithin min max x then some x else none
  | _ => none

/-- `z.enum(PICK_PRIORITIES)` -/
def zPriority : Json → Option PickPriority
  | .str s => pickPriorities.find? (fun p => p.text = s)
  | _ => none

/-- `z.object(…).strict()`: the fields, when no other one is there. -/
def zStrict (names : List Text) : Json → Option (List (Text × Json))
  | .obj fields => if fields.all (fun f => names.contains f.1) then some fields else none
  | _ => none

/-- `pickSchema` -/
def pickSchema (value : Json) : Option Pick := do
  let fields ← zStrict [ofString "setId", ofString "priority"] value
  let setId ← (JsonText.field (ofString "setId") fields).bind (zString 1 128)
  let priority ← (JsonText.field (ofString "priority") fields).bind zPriority
  some { setId := setId, priority := priority }

/-- `meetingPointSchema` -/
def meetingPointSchema (value : Json) : Option MeetingPoint := do
  let fields ← zStrict [ofString "label", ofString "lat", ofString "lng"] value
  let label ← (JsonText.field (ofString "label") fields).bind (zString 1 120)
  let lat ← (JsonText.field (ofString "lat") fields).bind (zNumber (-90) 90)
  let lng ← (JsonText.field (ofString "lng") fields).bind (zNumber (-180) 180)
  some { label := label, lat := lat, lng := lng }

/-- `z.array(pickSchema).max(MAX_PICKS)` -/
def zPicks : Json → Option (List Pick)
  | .arr items => if items.length ≤ maxPicks then items.mapM pickSchema else none
  | _ => none

/-- `.optional()`, on a field that may be missing. -/
def zOptional {α : Type} (schema : Json → Option α) : Option Json → Option (Option α)
  | none => some none
  | some value => (schema value).map some

/-- `z.literal(PLAN_SNAPSHOT_VERSION)` -/
def isVersion : Json → Bool
  | .num x => x.value = some (planSnapshotVersion : ℚ)
  | _ => false

/-- The keys of `envelopeSchema`. -/
def envelopeNames : List Text :=
  [ofString "v", ofString "festivalId", ofString "festivalName", ofString "picks",
    ofString "meetingPoint"]

/-- `envelopeSchema` -/
def envelopeSchema (value : Json) : Option PlanSnapshot := do
  let fields ← zStrict envelopeNames value
  let _ ← (JsonText.field (ofString "v") fields).filter isVersion
  let festivalId ← (JsonText.field (ofString "festivalId") fields).bind (zString 1 128)
  let festivalName ← (JsonText.field (ofString "festivalName") fields).bind (zString 1 200)
  let picks ← (JsonText.field (ofString "picks") fields).bind zPicks
  let meetingPoint ← zOptional meetingPointSchema (JsonText.field (ofString "meetingPoint") fields)
  some
    { v := planSnapshotVersion
      festivalId := festivalId
      festivalName := festivalName
      picks := picks
      meetingPoint := meetingPoint }

/-! ## The two functions -/

/-- The value of `PLAN_SNAPSHOT_VERSION`. -/
def versionNumber : Number :=
  .finite ((planSnapshotVersion : ℤ) : ℚ) (representable_intCast (by decide))

/-- The fields of a pick. -/
@[grind =] def Pick.fields (p : Pick) : List (Text × Json) :=
  [(ofString "setId", .str p.setId), (ofString "priority", .str p.priority.text)]

/-- The fields of a meeting point. -/
@[grind =] def MeetingPoint.fields (m : MeetingPoint) : List (Text × Json) :=
  [(ofString "label", .str m.label), (ofString "lat", .num m.lat), (ofString "lng", .num m.lng)]

/-- The fields of `envelope`. -/
@[grind =] def envelopeFields (input : PlanSnapshotInput) : List (Text × Json) :=
  [(ofString "v", .num versionNumber),
    (ofString "festivalId", .str input.festivalId),
    (ofString "festivalName", .str input.festivalName),
    (ofString "picks", .arr ((input.picks.take maxPicks).map (fun p => .obj p.fields)))] ++
  input.meetingPoint.toList.map (fun m => (ofString "meetingPoint", .obj m.fields))

/-- `envelope` -/
@[grind =] def envelope (input : PlanSnapshotInput) : Json := .obj (envelopeFields input)

/-- `encodePlanSnapshot` -/
@[grind =] def encodePlanSnapshot (input : PlanSnapshotInput) : Text :=
  toBase64Url (JsonText.stringify numerals (envelope input))

/-- `'v' in parsed && parsed.v !== PLAN_SNAPSHOT_VERSION` -/
def hasOtherVersion : Json → Bool
  | .obj fields => (JsonText.field (ofString "v") fields).any (fun v => !isVersion v)
  | _ => false

/-- `decodePlanSnapshot`; `none` is an input that is no string. -/
def decodePlanSnapshot (text : Option Text) : Except String PlanSnapshot :=
  match text with
  | none => .error "empty or non-string input"
  | some text =>
    if text.length = 0 then .error "empty or non-string input"
    else if maxEncodedLength < text.length then .error "input exceeds maximum size"
    else
      match fromBase64Url text with
      | none => .error "not valid base64url"
      | some json =>
        match JsonText.parse numerals json with
        | none => .error "not valid JSON"
        | some parsed =>
          if hasOtherVersion parsed then .error "unsupported snapshot version"
          else
            match envelopeSchema parsed with
            | none => .error "snapshot failed validation"
            | some data => .ok data

/-! ## What the schema accepts -/

/-- The input has the lengths and the ranges of the schema; it may have any number of picks. -/
structure Satisfies (x : PlanSnapshotInput) : Prop where
  festivalId : lengthWithin 1 128 x.festivalId = true
  festivalName : lengthWithin 1 200 x.festivalName = true
  setIds : ∀ p ∈ x.picks, lengthWithin 1 128 p.setId = true
  label : ∀ m ∈ x.meetingPoint, lengthWithin 1 120 m.label = true
  lat : ∀ m ∈ x.meetingPoint, valueWithin (-90) 90 m.lat = true
  lng : ∀ m ∈ x.meetingPoint, valueWithin (-180) 180 m.lng = true

/-- What the other phone should get: the plan with its first picks. -/
def snapshotOf (x : PlanSnapshotInput) : PlanSnapshot :=
  { x with picks := x.picks.take maxPicks, v := planSnapshotVersion }

theorem zStrict_eq_some {names : List Text} {fields : List (Text × Json)}
    (h : ∀ name ∈ fields.map Prod.fst, name ∈ names) :
    zStrict names (.obj fields) = some fields := by
  have hall : fields.all (fun f => names.contains f.1) = true := by simpa using h
  simp only [zStrict, hall, if_true]

theorem zPriority_text (p : PickPriority) : zPriority (.str p.text) = some p := by
  cases p <;> decide

variable {name : Text} {v : Json} {m : MeetingPoint} {x : PlanSnapshotInput}

theorem Pick.field_eq {p : Pick} (h : (name, v) ∈ p.fields) :
    JsonText.field name p.fields = some v := by
  have hnames : [ofString "setId", ofString "priority"].Nodup := by decide
  exact JsonText.field_eq_some hnames h

theorem MeetingPoint.field_eq (h : (name, v) ∈ m.fields) :
    JsonText.field name m.fields = some v := by
  have hnames : [ofString "label", ofString "lat", ofString "lng"].Nodup := by decide
  exact JsonText.field_eq_some hnames h

theorem envelopeFields_names (x : PlanSnapshotInput) :
    ((envelopeFields x).map Prod.fst).Sublist envelopeNames := by
  unfold envelopeFields envelopeNames
  cases x.meetingPoint <;> simp

theorem envelope_field_eq (h : (name, v) ∈ envelopeFields x) :
    JsonText.field name (envelopeFields x) = some v := by
  have hnames : envelopeNames.Nodup := by decide
  exact JsonText.field_eq_some (hnames.sublist (envelopeFields_names x)) h

theorem pickSchema_fields {p : Pick} (h : lengthWithin 1 128 p.setId = true) :
    pickSchema (.obj p.fields) = some p := by
  have hsetId := Pick.field_eq (p := p) (mem_cons_self ..)
  have hpriority := Pick.field_eq (p := p) (mem_cons_of_mem _ (mem_cons_self ..))
  unfold pickSchema
  rw [zStrict_eq_some (by simp [Pick.fields])]
  simp only [bind_eq_bind, bind_some, hsetId, hpriority, zPriority_text, zString, h,
    if_true]

theorem meetingPointSchema_fields (hlabel : lengthWithin 1 120 m.label = true)
    (hlat : valueWithin (-90) 90 m.lat = true) (hlng : valueWithin (-180) 180 m.lng = true) :
    meetingPointSchema (.obj m.fields) = some m := by
  have h1 : JsonText.field (ofString "label") m.fields = some (.str m.label) :=
    m.field_eq (by simp [MeetingPoint.fields])
  have h2 : JsonText.field (ofString "lat") m.fields = some (.num m.lat) :=
    m.field_eq (by simp [MeetingPoint.fields])
  have h3 : JsonText.field (ofString "lng") m.fields = some (.num m.lng) :=
    m.field_eq (by simp [MeetingPoint.fields])
  unfold meetingPointSchema
  rw [zStrict_eq_some (by simp [MeetingPoint.fields])]
  simp only [bind_eq_bind, bind_some, h1, h2, h3, zString, zNumber, hlabel, hlat,
    hlng, if_true]

theorem zPicks_fields {picks : List Pick} (hlength : picks.length ≤ maxPicks)
    (h : ∀ p ∈ picks, lengthWithin 1 128 p.setId = true) :
    zPicks (.arr (picks.map (fun p => .obj p.fields))) = some picks := by
  have hall : (picks.map (fun p => (JsonText.Value.obj p.fields : Json))).mapM pickSchema = some picks := by
    clear hlength
    induction picks with
    | nil => rfl
    | cons p picks ih =>
      rw [map_cons, mapM_cons, pickSchema_fields (h p mem_cons_self),
        ih (fun q hq => h q (mem_cons_of_mem p hq))]
      rfl
  simp only [zPicks, length_map, hlength, if_true, hall]

theorem isVersion_versionNumber : isVersion (.num versionNumber) = true := by
  decide

theorem hasOtherVersion_envelope (x : PlanSnapshotInput) : hasOtherVersion (envelope x) = false := by
  have hv : JsonText.field (ofString "v") (envelopeFields x) = some (.num versionNumber) :=
    envelope_field_eq (by simp [envelopeFields])
  simp only [hasOtherVersion, envelope, hv, any_some, isVersion_versionNumber, Bool.not_true]

/-- The schema accepts what is encoded. -/
theorem envelopeSchema_envelope (h : Satisfies x) :
    envelopeSchema (envelope x) = some (snapshotOf x) := by
  have hv : JsonText.field (ofString "v") (envelopeFields x) = some (.num versionNumber) :=
    envelope_field_eq (by simp [envelopeFields])
  have hid : JsonText.field (ofString "festivalId") (envelopeFields x) =
      some (.str x.festivalId) := envelope_field_eq (by simp [envelopeFields])
  have hname : JsonText.field (ofString "festivalName") (envelopeFields x) =
      some (.str x.festivalName) := envelope_field_eq (by simp [envelopeFields])
  have hpicks : JsonText.field (ofString "picks") (envelopeFields x) =
      some (.arr ((x.picks.take maxPicks).map (fun p => .obj p.fields))) :=
    envelope_field_eq (by simp [envelopeFields])
  have hschema := zPicks_fields (length_take_le maxPicks x.picks)
    (fun p hp => h.setIds p (mem_of_mem_take hp))
  have hpoint : zOptional meetingPointSchema
      (JsonText.field (ofString "meetingPoint") (envelopeFields x)) = some x.meetingPoint := by
    cases hm : x.meetingPoint with
    | none =>
      have hnot : ofString "meetingPoint" ∉ [ofString "v", ofString "festivalId",
          ofString "festivalName", ofString "picks"] := by decide
      rw [JsonText.field_eq_none (by simpa [envelopeFields, hm] using hnot), zOptional]
    | some m =>
      have hfield : JsonText.field (ofString "meetingPoint") (envelopeFields x) =
          some (.obj m.fields) := envelope_field_eq (by simp [envelopeFields, hm])
      rw [hfield, zOptional, meetingPointSchema_fields (h.label m hm) (h.lat m hm) (h.lng m hm),
        map_some]
  unfold envelopeSchema envelope
  rw [zStrict_eq_some (fun name hname => (envelopeFields_names x).subset hname)]
  simp only [bind_eq_bind, bind_some, hv, hid, hname, hpicks, hschema, hpoint,
    filter_some, isVersion_versionNumber, zString, h.festivalId, h.festivalName, if_true]
  rfl

/-! ## The bytes of a plan -/

/-- The bytes of a unit in a JSON string, when it is no half of a pair. -/
def unitBytes (c : CodeUnit) : ℕ :=
  if (JsonText.shortEscapes.lookup c).isSome then 2
  else if c.val < 0x20 || isSurrogate c then 6
  else if c.val < 0x80 then 1
  else if c.val < 0x800 then 2
  else 3

/-- The bytes of a JSON string, without its quotes. -/
def stringBytes : Text → ℕ
  | [] => 0
  | [c] => unitBytes c
  | c :: d :: rest =>
    if isHigh c && isLow d then 4 + stringBytes rest else unitBytes c + stringBytes (d :: rest)

/-- The bytes of a pick. -/
def pickBytes (p : Pick) : ℕ := 26 + stringBytes p.setId + p.priority.text.length

/-- The bytes of the list of picks, without its brackets. -/
def picksBytes (picks : List Pick) : ℕ := (picks.map pickBytes).sum + (picks.length - 1)

/-- The bytes of a meeting point and its name. -/
def meetingPointBytes (m : MeetingPoint) : ℕ :=
  42 + stringBytes m.label + m.lat.toText.length + m.lng.toText.length

/-- **The bytes of the JSON text of a plan.** -/
def snapshotBytes (x : PlanSnapshotInput) : ℕ :=
  52 + stringBytes x.festivalId + stringBytes x.festivalName +
    picksBytes (x.picks.take maxPicks) + (x.meetingPoint.map meetingPointBytes).getD 0

/-- The bytes of a value. -/
@[grind =] def valueBytes (v : Json) : ℕ := (utf8Encode (JsonText.stringify numerals v)).length

theorem length_escapeUnit (c : CodeUnit) :
    (utf8Encode (JsonText.escapeUnit c)).length = unitBytes c := by
  unfold JsonText.escapeUnit unitBytes
  cases hshort : JsonText.shortEscapes.lookup c with
  | some letter =>
    simp only [isSome_some, if_true]
    exact length_utf8Encode_ascii (JsonText.ascii_short hshort)
  | none =>
    simp only [isSome_none, Bool.false_eq_true, if_false]
    by_cases hescape : (decide (c.val < 0x20) || isSurrogate c) = true
    · rw [if_pos hescape, if_pos hescape]
      exact length_utf8Encode_ascii (JsonText.ascii_unicodeEscape c)
    · rw [if_neg hescape, if_neg hescape]
      have hs : isSurrogate c = false := by
        cases hs : isSurrogate c <;> simp_all
      rw [utf8Encode_unit hs, bytesOfUnit]
      split_ifs <;> rfl

theorem length_escape (s : Text) : (utf8Encode (JsonText.escape s)).length = stringBytes s := by
  fun_induction JsonText.escape s with
  | case1 => rfl
  | case2 c => exact length_escapeUnit c
  | case3 c d rest hpair ih =>
    have hhigh : isHigh c = true := by
      rw [Bool.and_eq_true] at hpair
      exact hpair.1
    rw [utf8Encode_pair hhigh, length_append, ih, stringBytes, if_pos hpair]
    rfl
  | case4 c d rest hpair ih =>
    rw [length_utf8Encode_append (JsonText.wellFormed_escapeUnit c), length_escapeUnit, ih,
      stringBytes, if_neg hpair]

theorem length_quote (s : Text) : (utf8Encode (JsonText.quote s)).length = stringBytes s + 2 := by
  rw [JsonText.quote, length_utf8Encode_cons (by decide),
    length_utf8Encode_append (JsonText.wellFormed_escape s), length_escape,
    length_utf8Encode_ascii (show Ascii [unit '"'] by decide), length_singleton]
  omega

theorem valueBytes_str (s : Text) : valueBytes (.str s) = stringBytes s + 2 := length_quote s

theorem valueBytes_num {x : Number} (h : x.value.isSome) :
    valueBytes (.num x) = x.toText.length := by
  have hnumber : JsonText.stringify numerals (.num x) = x.toText := by
    rw [JsonText.stringify]
    exact if_pos h
  rw [valueBytes, hnumber]
  exact length_utf8Encode_ascii (JsonText.ascii_toText (N := numerals) h)

/-- The bytes of a field, with its quotes and its colon. -/
@[grind =] def fieldBytes (f : Text × Json) : ℕ := stringBytes f.1 + 3 + valueBytes f.2

theorem length_field (name : Text) (v : Json) (rest : Text) :
    (utf8Encode (JsonText.quote name ++ unit ':' :: (JsonText.stringify numerals v ++ rest))).length =
      fieldBytes (name, v) + (utf8Encode rest).length := by
  rw [length_utf8Encode_append (JsonText.wellFormed_quote name), length_quote,
    length_utf8Encode_cons (by decide),
    length_utf8Encode_append (JsonText.wellFormed_stringify v)]
  simp only [fieldBytes, valueBytes]
  omega

theorem length_stringifyFields (fields : List (Text × Json)) :
    (utf8Encode (JsonText.stringifyFields numerals fields)).length =
      (fields.map (fun f => fieldBytes f + 1)).sum + 1 := by
  induction fields with
  | nil =>
    rw [JsonText.stringifyFields]
    exact length_utf8Encode_ascii (show Ascii [JsonText.closeBrace] by decide)
  | cons f fields ih =>
    obtain ⟨name, v⟩ := f
    rw [JsonText.stringifyFields, length_utf8Encode_cons (by decide), length_field, ih,
      map_cons, sum_cons]
    omega

theorem valueBytes_obj (f : Text × Json) (fields : List (Text × Json)) :
    valueBytes (.obj (f :: fields)) =
      fieldBytes f + (fields.map (fun f => fieldBytes f + 1)).sum + 2 := by
  obtain ⟨name, v⟩ := f
  rw [valueBytes, JsonText.stringify, length_utf8Encode_cons (by decide), length_field,
    length_stringifyFields]
  omega

theorem length_stringifyItems (items : List Json) :
    (utf8Encode (JsonText.stringifyItems numerals items)).length =
      (items.map (fun v => valueBytes v + 1)).sum + 1 := by
  induction items with
  | nil =>
    rw [JsonText.stringifyItems]
    exact length_utf8Encode_ascii (show Ascii [unit ']'] by decide)
  | cons v items ih =>
    rw [JsonText.stringifyItems, length_utf8Encode_cons (by decide),
      length_utf8Encode_append (JsonText.wellFormed_stringify v), ih, map_cons, sum_cons,
      valueBytes]
    omega

theorem valueBytes_arr (items : List Json) :
    valueBytes (.arr items) = (items.map valueBytes).sum + (items.length - 1) + 2 := by
  cases items with
  | nil =>
    rw [valueBytes, JsonText.stringify]
    exact length_utf8Encode_ascii (show Ascii [unit '[', unit ']'] by decide)
  | cons v items =>
    rw [valueBytes, JsonText.stringify, length_utf8Encode_cons (by decide),
      length_utf8Encode_append (JsonText.wellFormed_stringify v), length_stringifyItems,
      sum_map_add]
    simp only [valueBytes, map_cons, sum_cons, map_const', sum_replicate,
      length_cons, smul_eq_mul, mul_one]
    omega

theorem valueBytes_pick (p : Pick) : valueBytes (.obj p.fields) = pickBytes p := by
  have hpriority : ∀ p : PickPriority, stringBytes p.text = p.text.length := by
    intro p
    cases p <;> decide
  have hsetId : stringBytes (ofString "setId") = 5 := by decide
  have hname : stringBytes (ofString "priority") = 8 := by decide
  rw [Pick.fields, valueBytes_obj]
  simp only [fieldBytes, valueBytes_str, map_cons, map_nil, sum_cons, sum_nil,
    hsetId, hname, hpriority, pickBytes]
  omega

theorem valueBytes_meetingPoint (hlat : m.lat.value.isSome) (hlng : m.lng.value.isSome) :
    fieldBytes (ofString "meetingPoint", .obj m.fields) + 1 = meetingPointBytes m := by
  have hlabel : stringBytes (ofString "label") = 5 := by decide
  have hlatName : stringBytes (ofString "lat") = 3 := by decide
  have hlngName : stringBytes (ofString "lng") = 3 := by decide
  have hname : stringBytes (ofString "meetingPoint") = 12 := by decide
  rw [fieldBytes, MeetingPoint.fields, valueBytes_obj]
  simp only [fieldBytes, valueBytes_str, valueBytes_num hlat, valueBytes_num hlng, map_cons,
    map_nil, sum_cons, sum_nil, hlabel, hlatName, hlngName, hname,
    meetingPointBytes]
  omega

theorem isSome_of_valueWithin {min max : ℚ} {x : Number} (h : valueWithin min max x = true) :
    x.value.isSome := by
  unfold valueWithin at h
  cases hx : x.value with
  | none => simp [hx] at h
  | some q => rfl

/-- `snapshotBytes` is the number of bytes that are encoded. -/
theorem valueBytes_envelope (h : Satisfies x) : valueBytes (envelope x) = snapshotBytes x := by
  have hversion : valueBytes (.num versionNumber) = 1 := by decide +kernel
  have hv : stringBytes (ofString "v") = 1 := by decide
  have hid : stringBytes (ofString "festivalId") = 10 := by decide
  have hname : stringBytes (ofString "festivalName") = 12 := by decide
  have hpicks : stringBytes (ofString "picks") = 5 := by decide
  have hlist : valueBytes (.arr ((x.picks.take maxPicks).map (fun p => .obj p.fields))) =
      picksBytes (x.picks.take maxPicks) + 2 := by
    have hmap : (x.picks.take maxPicks).map (valueBytes ∘ fun p => .obj p.fields) =
        (x.picks.take maxPicks).map pickBytes :=
      map_congr_left (fun p _ => valueBytes_pick p)
    rw [valueBytes_arr, List.map_map, length_map, hmap, picksBytes]
  have hpoint : ((x.meetingPoint.toList.map (fun m =>
      (ofString "meetingPoint", (JsonText.Value.obj m.fields : Json)))).map
        (fun f => fieldBytes f + 1)).sum = (x.meetingPoint.map meetingPointBytes).getD 0 := by
    cases hm : x.meetingPoint with
    | none => rfl
    | some m =>
      have hbytes := valueBytes_meetingPoint (m := m) (isSome_of_valueWithin (h.lat m hm))
        (isSome_of_valueWithin (h.lng m hm))
      simpa using hbytes
  rw [envelope, envelopeFields, cons_append, valueBytes_obj, map_append,
    sum_append, hpoint]
  simp only [fieldBytes, map_cons, map_nil, sum_cons, sum_nil, hlist,
    valueBytes_str, hversion, hv, hid, hname, hpicks, snapshotBytes]
  omega

/-! ## The round trip -/

theorem finite_envelope (h : Satisfies x) : JsonText.Finite numerals (envelope x) := by
  refine .obj (fun f hf => ?_)
  simp only [envelopeFields, mem_append, mem_cons, not_mem_nil, or_false,
    List.mem_map, mem_toList] at hf
  rcases hf with (rfl | rfl | rfl | rfl) | ⟨m, hm, rfl⟩
  · exact .num rfl
  · exact .str _
  · exact .str _
  · refine .arr (fun v hv => ?_)
    obtain ⟨p, -, rfl⟩ := List.mem_map.mp hv
    refine .obj (fun f hf => ?_)
    simp only [Pick.fields, mem_cons, not_mem_nil, or_false] at hf
    rcases hf with rfl | rfl <;> exact .str _
  · refine .obj (fun f hf => ?_)
    simp only [MeetingPoint.fields, mem_cons, not_mem_nil, or_false] at hf
    rcases hf with rfl | rfl | rfl
    · exact .str _
    · exact .num (isSome_of_valueWithin (h.lat m hm))
    · exact .num (isSome_of_valueWithin (h.lng m hm))

theorem length_encode (h : Satisfies x) :
    (encodePlanSnapshot x).length = (4 * snapshotBytes x + 2) / 3 := by
  rw [encodePlanSnapshot, length_toBase64Url (JsonText.wellFormed_stringify _), ← valueBytes,
    valueBytes_envelope h]

theorem snapshotBytes_pos (x : PlanSnapshotInput) : 52 ≤ snapshotBytes x := by
  unfold snapshotBytes
  omega

/-- A plan of at most 3072 bytes comes back. -/
theorem decode_encode_of_le (h : Satisfies x) (hbytes : snapshotBytes x ≤ 3072) :
    decodePlanSnapshot (some (encodePlanSnapshot x)) = .ok (snapshotOf x) := by
  have hlength := length_encode h
  have hpos := snapshotBytes_pos x
  have hread : fromBase64Url (encodePlanSnapshot x) =
      some (JsonText.stringify numerals (envelope x)) :=
    fromBase64Url_toBase64Url (JsonText.wellFormed_stringify _)
  unfold decodePlanSnapshot
  simp only [if_neg (show ¬ (encodePlanSnapshot x).length = 0 by omega),
    if_neg (show ¬ maxEncodedLength < (encodePlanSnapshot x).length by
      unfold maxEncodedLength
      omega),
    hread, JsonText.parse_stringify (finite_envelope h), hasOtherVersion_envelope,
    envelopeSchema_envelope h, Bool.false_eq_true, if_false]

/-- A larger one is refused. -/
theorem decode_encode_of_lt (h : Satisfies x) (hbytes : 3072 < snapshotBytes x) :
    decodePlanSnapshot (some (encodePlanSnapshot x)) = .error "input exceeds maximum size" := by
  have hlength := length_encode h
  unfold decodePlanSnapshot
  simp only [if_neg (show ¬ (encodePlanSnapshot x).length = 0 by omega),
    if_pos (show maxEncodedLength < (encodePlanSnapshot x).length by
      unfold maxEncodedLength
      omega)]

/-- **A plan comes back, with its first 50 picks, if and only if its JSON text has at most 3072
bytes.** -/
theorem decode_encode_iff {x : PlanSnapshotInput} (h : Satisfies x) :
    decodePlanSnapshot (some (encodePlanSnapshot x)) = .ok (snapshotOf x) ↔
      snapshotBytes x ≤ 3072 := by
  constructor
  · intro hok
    by_contra hlt
    rw [decode_encode_of_lt h (not_le.mp hlt)] at hok
    cases hok
  · exact decode_encode_of_le h

/-- A plan with a meeting point, and letters that take several bytes. -/
def northCoast : PlanSnapshotInput :=
  { festivalId := ofString "fest-123"
    festivalName := ofString "Café 2026 ☀"
    picks := [{ setId := ofString "set-a", priority := .must },
      { setId := ofString "set-b", priority := .want }]
    meetingPoint := some
      { label := ofString "Big tree", lat := ofRat (41881 / 1000), lng := ofRat (-87623 / 1000) } }

theorem northCoast_comes_back :
    decodePlanSnapshot (some (encodePlanSnapshot northCoast)) = .ok (snapshotOf northCoast) :=
  (decode_encode_iff
    { festivalId := by decide
      festivalName := by decide
      setIds := by decide
      label := by decide
      lat := by decide +kernel
      lng := by decide +kernel }).mpr (by decide +kernel)

/-- Fifty picks of sets that have the ids the server makes. -/
def fiftyPicks : PlanSnapshotInput :=
  { festivalId := ofString "f"
    festivalName := ofString "F"
    picks := (List.range 50).map (fun n =>
      { setId := ofString "set-" ++ digitsText (n + 1) ++
          ofString "-3f2b8c1e-7d4a-4e0b-9c55-a1b2c3d4e5f6"
        priority := .must })
    meetingPoint := none }

/-- Fifty picks are within the limit, and the text is refused all the same. -/
theorem fiftyPicks_refused : Satisfies fiftyPicks ∧
    decodePlanSnapshot (some (encodePlanSnapshot fiftyPicks)) =
      .error "input exceeds maximum size" := by
  have h : Satisfies fiftyPicks :=
    { festivalId := by decide
      festivalName := by decide
      setIds := by decide
      label := by decide
      lat := by decide
      lng := by decide }
  exact ⟨h, decode_encode_of_lt h (by decide)⟩

end FestivalPlanner.Share
