import FestivalPlanner.Lib.Keyed
import FestivalPlanner.Lib.Double

/-!
# What a log entry keeps of its meta data

`sanitizeLogMeta` on the values that are logged: objects and arrays inside one another, with dates
and errors among them.

* `Meta`, `LogMeta` — the values, an object as its own entries in the order of `Object.entries`;
* `sanitizeLogMeta` — the redaction, with the loop over the entries;
* `Alike` — two values that differ only under sensitive names;
* `sanitizeLogMeta_congr` — such values are logged alike;
* `get_sanitizeLogMeta` — what stands at a path of which no name is sensitive;
* `redacts_only_iff` — **when every other leaf is kept**: a date and an error are not, and nothing
  below a field `__proto__` is.
-/

namespace FestivalPlanner.LogRedaction

open Keyed

/-! ## The values -/

/-- A value that is no object. -/
inductive Primitive where
  | undefined
  | null
  | bool (b : Bool)
  | num (x : Double.Number)
  | str (s : String)

/-- A value of a log entry. An error has its own entries next to its name and message; an object
has a prototype when one was set on it. -/
inductive Meta where
  | prim (p : Primitive)
  | date (time : Option ℤ)
  | error (name message : String) (own : List (String × Meta))
  | arr (items : List Meta)
  | obj (own : List (String × Meta)) (proto : Option Meta)

/-- No object has two entries of one name. -/
inductive Meta.Valid : Meta → Prop
  | prim (p : Primitive) : Valid (.prim p)
  | date (time : Option ℤ) : Valid (.date time)
  | error {name message : String} {own : List (String × Meta)} :
      UniqueKeys Prod.fst own → (∀ e ∈ own, Valid e.2) → Valid (.error name message own)
  | arr {items : List Meta} : (∀ v ∈ items, Valid v) → Valid (.arr items)
  | obj {own : List (String × Meta)} {proto : Option Meta} :
      UniqueKeys Prod.fst own → (∀ e ∈ own, Valid e.2) → Valid (.obj own proto)

/-- A value that may be logged. -/
structure LogMeta where
  value : Meta
  valid : value.Valid

/-- `typeof value === 'object' && value !== null` -/
def Meta.isObject : Meta → Bool
  | .prim _ => false
  | _ => true

/-- Primitives, dates and errors have nothing below them. -/
def Meta.isLeaf : Meta → Bool
  | .prim _ => true
  | .date _ => true
  | .error .. => true
  | .arr _ => false
  | .obj .. => false

/-- One step of a path. -/
inductive Step where
  | index (i : ℕ)
  | field (name : String)
deriving DecidableEq

/-- What stands at a path. -/
@[grind =] def Meta.get : Meta → List Step → Option Meta
  | v, [] => some v
  | .arr items, .index i :: path => items[i]?.bind fun v => v.get path
  | .obj own _, .field name :: path => (lookup Prod.fst name own).bind fun e => e.2.get path
  | _, _ :: _ => none

/-! ## The redaction -/

/-- The object under construction. -/
structure Plain where
  own : List (String × Meta) := []
  proto : Option Meta := none

/-- `sanitized[key] = value`. The name `__proto__` is a setter of every plain object: it takes an
object or `null`, and ignores the rest. -/
def Plain.assign (sanitized : Plain) (key : String) (value : Meta) : Plain :=
  if key = "__proto__" then
    match value with
    | .prim .null => { sanitized with proto := some value }
    | .prim _ => sanitized
    | _ => { sanitized with proto := some value }
  else { sanitized with own := upsert Prod.fst (key, value) sanitized.own }

def sensitiveFields : List String :=
  ["password", "passwordhash", "token", "secret", "cookie",
    "authorization", "creditcard", "ssn", "apikey",
    "email", "refreshtoken", "confirmpassword", "newpassword",
    "currentpassword", "sessiontoken", "usertoken",
    "accesstoken", "clientsecret", "privatekey", "credentials"]

/-- `'[REDACTED]'` -/
def redacted : Meta := .prim (.str "[REDACTED]")

section
variable (toLowerCase : String → String)

/-- `sensitiveFields.has(key.toLowerCase())` -/
def Sensitive (key : String) : Prop := toLowerCase key ∈ sensitiveFields

instance (key : String) : Decidable (Sensitive toLowerCase key) :=
  inferInstanceAs (Decidable (_ ∈ _))

mutual

@[grind =] def sanitizeLogMeta : Meta → Meta
  | .prim p => .prim p
  | .arr items => .arr (sanitizeItems items)
  -- the entries of an error are its own ones: its name, message and stack are not among them
  | .error _ _ own =>
    let sanitized := sanitizeFields own {}
    .obj sanitized.own sanitized.proto
  | .obj own _ =>
    let sanitized := sanitizeFields own {}
    .obj sanitized.own sanitized.proto
  -- a date has no entries
  | .date _ => .obj [] none

/-- `obj.map((item) => sanitizeLogMeta(item))` -/
def sanitizeItems : List Meta → List Meta
  | [] => []
  | item :: items => sanitizeLogMeta item :: sanitizeItems items

/-- The loop over the entries. -/
def sanitizeFields : List (String × Meta) → Plain → Plain
  | [], sanitized => sanitized
  | (key, value) :: rest, sanitized =>
    sanitizeFields rest (sanitized.assign key
      (if Sensitive toLowerCase key then redacted
      else if value.isObject then sanitizeLogMeta value
      else value))

end

/-- What the loop stores under a name. -/
@[grind =] def stored (key : String) (value : Meta) : Meta :=
  if Sensitive toLowerCase key then redacted else sanitizeLogMeta toLowerCase value

variable {toLowerCase}

theorem sanitizeFields_cons (key : String) (value : Meta) (rest : List (String × Meta))
    (sanitized : Plain) :
    sanitizeFields toLowerCase ((key, value) :: rest) sanitized =
      sanitizeFields toLowerCase rest (sanitized.assign key (stored toLowerCase key value)) := by
  rw [sanitizeFields, stored]
  cases value <;> rfl

theorem sanitizeItems_eq_map (items : List Meta) :
    sanitizeItems toLowerCase items = items.map (sanitizeLogMeta toLowerCase) := by
  induction items with
  | nil => rfl
  | cons item items ih => rw [sanitizeItems, ih, List.map_cons]

theorem own_assign {key : String} (h : key ≠ "__proto__") (value : Meta) (o : Plain) :
    (o.assign key value).own = upsert Prod.fst (key, value) o.own := by
  simp only [Plain.assign, if_neg h]

theorem own_assign_proto (value : Meta) (o : Plain) :
    (o.assign "__proto__" value).own = o.own := by
  simp only [Plain.assign, if_pos]
  split <;> rfl

/-- The object has, under every name but `__proto__`, what the loop stores there. -/
theorem lookup_sanitizeFields {name : String} (hname : name ≠ "__proto__")
    {own : List (String × Meta)} (hown : UniqueKeys Prod.fst own) (o : Plain) :
    lookup Prod.fst name (sanitizeFields toLowerCase own o).own =
      ((lookup Prod.fst name own).map fun e => (name, stored toLowerCase name e.2)).or
        (lookup Prod.fst name o.own) := by
  induction own generalizing o with
  | nil => rfl
  | cons e own ih =>
    obtain ⟨key, value⟩ := e
    obtain ⟨hkey, hrest⟩ := uniqueKeys_cons.mp hown
    rw [sanitizeFields_cons, ih hrest, lookup_cons]
    by_cases hk : key = name
    · subst hk
      have hnone : lookup Prod.fst key own = none := lookup_eq_none.mpr hkey
      rw [hnone, if_pos rfl, own_assign hname, lookup_upsert, if_pos rfl]
      rfl
    · rw [if_neg hk]
      by_cases hp : key = "__proto__"
      · rw [hp, own_assign_proto]
      · rw [own_assign hp, lookup_upsert, if_neg hk]

/-- Every entry of the object is one that the loop stored, and none is named `__proto__`. -/
theorem mem_sanitizeFields {e : String × Meta} {own : List (String × Meta)} {o : Plain}
    (h : e ∈ (sanitizeFields toLowerCase own o).own) :
    e ∈ o.own ∨ e.1 ≠ "__proto__" ∧ ∃ v, e.2 = stored toLowerCase e.1 v := by
  induction own generalizing o with
  | nil => exact .inl h
  | cons e' own ih =>
    obtain ⟨key, value⟩ := e'
    rw [sanitizeFields_cons] at h
    rcases ih h with hmem | hnew
    · by_cases hp : key = "__proto__"
      · rw [hp, own_assign_proto] at hmem
        exact .inl hmem
      · rw [own_assign hp] at hmem
        rcases mem_or_eq_of_mem_upsert hmem with heq | hold
        · rw [heq]
          exact .inr ⟨hp, value, rfl⟩
        · exact .inl hold
    · exact .inr hnew

/-! ## Two values that differ under sensitive names -/

mutual

/-- The values differ only in what they have under sensitive names. -/
inductive Alike (toLowerCase : String → String) : Meta → Meta → Prop
  | prim (p : Primitive) : Alike toLowerCase (.prim p) (.prim p)
  | date (time : Option ℤ) : Alike toLowerCase (.date time) (.date time)
  | error {name message : String} {own own' : List (String × Meta)} :
      AlikeFields toLowerCase own own' →
      Alike toLowerCase (.error name message own) (.error name message own')
  | arr {items items' : List Meta} :
      AlikeItems toLowerCase items items' → Alike toLowerCase (.arr items) (.arr items')
  | obj {own own' : List (String × Meta)} {proto : Option Meta} :
      AlikeFields toLowerCase own own' → Alike toLowerCase (.obj own proto) (.obj own' proto)

inductive AlikeItems (toLowerCase : String → String) : List Meta → List Meta → Prop
  | nil : AlikeItems toLowerCase [] []
  | cons {v w : Meta} {items items' : List Meta} :
      Alike toLowerCase v w → AlikeItems toLowerCase items items' →
      AlikeItems toLowerCase (v :: items) (w :: items')

inductive AlikeFields (toLowerCase : String → String) :
    List (String × Meta) → List (String × Meta) → Prop
  | nil : AlikeFields toLowerCase [] []
  | hidden {key : String} {v w : Meta} {own own' : List (String × Meta)} :
      Sensitive toLowerCase key → AlikeFields toLowerCase own own' →
      AlikeFields toLowerCase ((key, v) :: own) ((key, w) :: own')
  | shown {key : String} {v w : Meta} {own own' : List (String × Meta)} :
      Alike toLowerCase v w → AlikeFields toLowerCase own own' →
      AlikeFields toLowerCase ((key, v) :: own) ((key, w) :: own')

end

mutual

/-- **What stands under a sensitive name has no influence on what is logged.** -/
theorem sanitizeLogMeta_congr {v w : Meta} :
    Alike toLowerCase v w → sanitizeLogMeta toLowerCase v = sanitizeLogMeta toLowerCase w
  | .prim _ => rfl
  | .date _ => rfl
  | .error hown => by
    rw [sanitizeLogMeta, sanitizeLogMeta, sanitizeFields_congr hown]
  | .arr hitems => by
    rw [sanitizeLogMeta, sanitizeLogMeta, sanitizeItems_congr hitems]
  | .obj hown => by
    rw [sanitizeLogMeta, sanitizeLogMeta, sanitizeFields_congr hown]

theorem sanitizeItems_congr {items items' : List Meta} :
    AlikeItems toLowerCase items items' →
      sanitizeItems toLowerCase items = sanitizeItems toLowerCase items'
  | .nil => rfl
  | .cons hv hitems => by
    rw [sanitizeItems, sanitizeItems, sanitizeLogMeta_congr hv, sanitizeItems_congr hitems]

theorem sanitizeFields_congr {own own' : List (String × Meta)} :
    AlikeFields toLowerCase own own' →
      sanitizeFields toLowerCase own = sanitizeFields toLowerCase own'
  | .nil => rfl
  | .hidden hkey hown => by
    funext o
    rw [sanitizeFields_cons, sanitizeFields_cons, stored, stored, if_pos hkey, if_pos hkey,
      sanitizeFields_congr hown]
  | .shown hv hown => by
    funext o
    rw [sanitizeFields_cons, sanitizeFields_cons, stored, stored, sanitizeLogMeta_congr hv,
      sanitizeFields_congr hown]

end

/-! ## What stands at a path -/

/-- No name on the path is sensitive. -/
def Shown (toLowerCase : String → String) (path : List Step) : Prop :=
  ∀ name, Step.field name ∈ path → ¬ Sensitive toLowerCase name

/-- What stood at a path stands there redacted. -/
theorem get_sanitizeLogMeta {path : List Step} {v w : Meta} (hv : v.Valid)
    (hget : v.get path = some w) (hshown : Shown toLowerCase path)
    (hproto : Step.field "__proto__" ∉ path) :
    (sanitizeLogMeta toLowerCase v).get path = some (sanitizeLogMeta toLowerCase w) := by
  induction path generalizing v with
  | nil =>
    simp only [Meta.get, Option.some.injEq] at hget
    rw [hget, Meta.get]
  | cons step path ih =>
    have hshown' : Shown toLowerCase path := fun name h => hshown name (List.mem_cons_of_mem _ h)
    have hproto' : Step.field "__proto__" ∉ path := fun h => hproto (List.mem_cons_of_mem _ h)
    cases hv with
    | arr hitems =>
      cases step with
      | field name => cases hget
      | index i =>
        obtain ⟨u, hu, hget⟩ := Option.bind_eq_some_iff.mp hget
        have hvalid := hitems u (List.mem_of_getElem? hu)
        rw [sanitizeLogMeta, sanitizeItems_eq_map, Meta.get, List.getElem?_map, hu]
        exact ih hvalid hget hshown' hproto'
    | obj hown hvalid =>
      cases step with
      | index i => cases hget
      | field name =>
        obtain ⟨e, he, hget⟩ := Option.bind_eq_some_iff.mp hget
        have hname : name ≠ "__proto__" := by
          rintro rfl
          exact hproto (List.mem_cons_self ..)
        rw [sanitizeLogMeta, Meta.get, lookup_sanitizeFields hname hown, he, Option.map_some,
          Option.some_or, Option.bind_some, stored, if_neg (hshown name (List.mem_cons_self ..))]
        exact ih (hvalid e (mem_of_lookup he).1) hget hshown' hproto'
    | prim => exact absurd hget (by simp [Meta.get])
    | date => exact absurd hget (by simp [Meta.get])
    | error => exact absurd hget (by simp [Meta.get])

/-- What stands at a path of a redacted value is a redacted value, and no step of the path is a
field `__proto__`. -/
theorem of_get_sanitizeLogMeta {path : List Step} {v w : Meta}
    (h : (sanitizeLogMeta toLowerCase v).get path = some w) :
    Step.field "__proto__" ∉ path ∧ ∃ u, w = sanitizeLogMeta toLowerCase u := by
  induction path generalizing v with
  | nil =>
    simp only [Meta.get, Option.some.injEq] at h
    exact ⟨List.not_mem_nil, v, h.symm⟩
  | cons step path ih =>
    have hfields : ∀ (own : List (String × Meta)) (proto : Option Meta),
        (Meta.obj (sanitizeFields toLowerCase own {}).own proto).get (step :: path) = some w →
          Step.field "__proto__" ∉ step :: path ∧ ∃ u, w = sanitizeLogMeta toLowerCase u := by
      intro own proto h
      cases step with
      | index i => cases h
      | field name =>
        obtain ⟨e, he, hget⟩ := Option.bind_eq_some_iff.mp h
        obtain ⟨hmem, rfl⟩ := mem_of_lookup he
        rcases mem_sanitizeFields hmem with hnil | ⟨hname, u, hu⟩
        · cases hnil
        · have hstored : ∃ u, e.2 = sanitizeLogMeta toLowerCase u := by
            rw [hu, stored]
            split
            · exact ⟨redacted, rfl⟩
            · exact ⟨u, rfl⟩
          obtain ⟨u, hu⟩ := hstored
          rw [hu] at hget
          obtain ⟨hpath, hw⟩ := ih hget
          refine ⟨fun hmem => ?_, hw⟩
          rcases List.mem_cons.mp hmem with heq | hmem
          · exact hname (Step.field.inj heq).symm
          · exact hpath hmem
    cases v with
    | prim p => exact absurd h (by simp [sanitizeLogMeta, Meta.get])
    | date time => cases step <;> cases h
    | error name message own => exact hfields own _ h
    | obj own proto => exact hfields own _ h
    | arr items =>
      cases step with
      | field name => cases h
      | index i =>
        rw [sanitizeLogMeta, sanitizeItems_eq_map, Meta.get, List.getElem?_map] at h
        obtain ⟨u, hu, hget⟩ := Option.bind_eq_some_iff.mp h
        obtain ⟨item, -, rfl⟩ := Option.map_eq_some_iff.mp hu
        obtain ⟨hpath, hw⟩ := ih hget
        refine ⟨fun hmem => ?_, hw⟩
        rcases List.mem_cons.mp hmem with heq | hmem
        · cases heq
        · exact hpath hmem

/-! ## What is kept -/

/-- Every leaf whose path has no sensitive name is found unchanged at its path. -/
def Faithful (toLowerCase : String → String) (v : Meta) : Prop :=
  ∀ path leaf, v.get path = some leaf → leaf.isLeaf → Shown toLowerCase path →
    (sanitizeLogMeta toLowerCase v).get path = some leaf

/-- Every leaf whose path has no sensitive name is a primitive, and not below a field
`__proto__`. -/
def PlainLeaves (toLowerCase : String → String) (v : Meta) : Prop :=
  ∀ path leaf, v.get path = some leaf → leaf.isLeaf → Shown toLowerCase path →
    leaf.isObject = false ∧ Step.field "__proto__" ∉ path

theorem sanitizeLogMeta_of_isObject_eq_false {v : Meta} (h : v.isObject = false) :
    sanitizeLogMeta toLowerCase v = v := by
  cases v with
  | prim p => rfl
  | _ => cases h

/-- No date and no error is what a value is redacted to. -/
theorem isObject_of_isLeaf {v : Meta} (h : (sanitizeLogMeta toLowerCase v).isLeaf) :
    (sanitizeLogMeta toLowerCase v).isObject = false := by
  cases v with
  | prim p => rfl
  | _ => cases h

theorem faithful_iff {v : Meta} (hv : v.Valid) :
    Faithful toLowerCase v ↔ PlainLeaves toLowerCase v := by
  constructor
  · intro h path leaf hget hleaf hshown
    obtain ⟨hproto, u, rfl⟩ := of_get_sanitizeLogMeta (h path leaf hget hleaf hshown)
    exact ⟨isObject_of_isLeaf hleaf, hproto⟩
  · intro h path leaf hget hleaf hshown
    obtain ⟨hprim, hproto⟩ := h path leaf hget hleaf hshown
    rw [get_sanitizeLogMeta hv hget hshown hproto, sanitizeLogMeta_of_isObject_eq_false hprim]

/-- **When the redaction hides what is sensitive and nothing else.** -/
theorem redacts_only_iff (toLowerCase : String → String) (v : LogMeta) :
    (∀ w : LogMeta, Alike toLowerCase v.value w.value →
        sanitizeLogMeta toLowerCase v.value = sanitizeLogMeta toLowerCase w.value) ∧
      Faithful toLowerCase v.value ↔ PlainLeaves toLowerCase v.value := by
  rw [faithful_iff v.valid]
  exact ⟨fun h => h.2, fun h => ⟨fun w hw => sanitizeLogMeta_congr hw, h⟩⟩

end

/-! ## A date -/

/-- The letters of the basic Latin alphabet in lower case. -/
def latinLowerCase (s : String) : String := String.ofList (s.toList.map Char.toLower)

example : Sensitive latinLowerCase "newPassword" ∧ ¬ Sensitive latinLowerCase "at" := by decide

/-- `{ at: new Date(0) }` -/
def dated : LogMeta where
  value := .obj [("at", .date (some 0))] none
  valid := .obj (by decide) fun e he => by
    rw [List.mem_singleton.mp he]
    exact .date _

/-- A date is logged as `{}`. -/
theorem date_not_kept :
    ¬ ∀ (v : LogMeta),
      (∀ w : LogMeta, Alike latinLowerCase v.value w.value →
          sanitizeLogMeta latinLowerCase v.value = sanitizeLogMeta latinLowerCase w.value) ∧
        Faithful latinLowerCase v.value := by
  intro h
  have hshown : Shown latinLowerCase [.field "at"] := by
    intro name hname
    obtain rfl := Step.field.inj (List.mem_singleton.mp hname)
    decide
  have hget := (h dated).2 [.field "at"] (.date (some 0)) rfl rfl hshown
  obtain ⟨-, u, hu⟩ := of_get_sanitizeLogMeta hget
  cases u <;> cases hu

end FestivalPlanner.LogRedaction
