import FestivalPlanner.Lib.Utf16
import Mathlib.Data.List.Nodup
import Mathlib.Data.Rat.Defs

/-!
# JSON texts

`JSON.stringify` and `JSON.parse` on texts of UTF-16 code units.

* `Numerals` — how the numbers are written and read;
* `quote`, `parseString` — strings, with the escapes of `JSON.stringify`: a surrogate that
  stands alone is written as an escape;
* `stringify`, `parse` — values;
* `parse_stringify` — **what is written is read back**;
* `wellFormed_stringify` — and every surrogate of it stands in a pair.
-/

namespace JsonText

open Utf16 List Option

universe u

/-! ## Numbers -/

/-- The characters of a JSON number. -/
def isNumeral (c : CodeUnit) : Bool := (ofString "0123456789+-.eE").contains c

/-- The numbers of a program: their values, and how they are written and read. -/
structure Numerals (ν : Type u) where
  /-- The value; `none` for the infinities and `NaN`. -/
  value : ν → Option ℚ
  /-- `Number::toString` -/
  toText : ν → Text
  /-- The number that a JSON number is read as; `none` when the text is no JSON number. -/
  read : Text → Option ν
  toText_ne_nil {x : ν} : (value x).isSome → toText x ≠ []
  toText_numeral {x : ν} : (value x).isSome → ∀ c ∈ toText x, isNumeral c = true
  read_toText {x : ν} : (value x).isSome → read (toText x) = some x

/-! ## Values -/

/-- A JSON value. An object has its fields in the order of the text; of two fields of one name
the last one counts. -/
inductive Value (ν : Type u) where
  | null
  | bool (b : Bool)
  | num (x : ν)
  | str (s : Text)
  | arr (items : List (Value ν))
  | obj (fields : List (Text × Value ν))

variable {ν : Type u} (N : Numerals ν)

/-- `fields[name]` -/
def field (name : Text) (fields : List (Text × Value ν)) : Option (Value ν) :=
  (fields.reverse.find? (fun f => f.1 = name)).map Prod.snd

theorem field_eq_some {name : Text} {v : Value ν} {fields : List (Text × Value ν)}
    (hnames : (fields.map Prod.fst).Nodup) (h : (name, v) ∈ fields) :
    field name fields = some v := by
  unfold field
  cases hfind : fields.reverse.find? (fun f => f.1 = name) with
  | none =>
    have hnone := find?_eq_none.mp hfind (name, v) (mem_reverse.mpr h)
    simp at hnone
  | some f =>
    have hmem := mem_reverse.mp (mem_of_find?_eq_some hfind)
    have hname : f.1 = name := by simpa using find?_some hfind
    rw [inj_on_of_nodup_map hnames hmem h hname, map_some]

theorem field_eq_none {name : Text} {fields : List (Text × Value ν)}
    (h : name ∉ fields.map Prod.fst) : field name fields = none := by
  unfold field
  rw [map_eq_none_iff, find?_eq_none]
  intro f hf heq
  rw [decide_eq_true_eq] at heq
  exact h (List.mem_map.mpr ⟨f, mem_reverse.mp hf, heq⟩)

/-- Every number in it is finite. -/
inductive Finite : Value ν → Prop
  | null : Finite .null
  | bool (b : Bool) : Finite (.bool b)
  | num {x : ν} : (N.value x).isSome → Finite (.num x)
  | str (s : Text) : Finite (.str s)
  | arr {items : List (Value ν)} : (∀ v ∈ items, Finite v) → Finite (.arr items)
  | obj {fields : List (Text × Value ν)} : (∀ f ∈ fields, Finite f.2) → Finite (.obj fields)

/-! ## Strings -/

/-- A digit of an escape. -/
def hexDigit (n : ℕ) : CodeUnit := fromCharCode (if n < 10 then 48 + n else 87 + n : ℕ)

/-- `\x5cuXXXX` -/
def unicodeEscape (c : CodeUnit) : Text :=
  [unit '\\', unit 'u', hexDigit (c.val / 4096), hexDigit (c.val / 256 % 16),
    hexDigit (c.val / 16 % 16), hexDigit (c.val % 16)]

/-- The units that have an escape of one letter, with the letter. -/
def shortEscapes : List (CodeUnit × CodeUnit) :=
  [(fromCharCode 0x08, unit 'b'), (fromCharCode 0x09, unit 't'), (fromCharCode 0x0a, unit 'n'),
    (fromCharCode 0x0c, unit 'f'), (fromCharCode 0x0d, unit 'r'), (unit '"', unit '"'),
    (unit '\\', unit '\\')]

/-- The unit as `QuoteJSONString` writes it when it is no half of a pair. -/
def escapeUnit (c : CodeUnit) : Text :=
  match shortEscapes.lookup c with
  | some letter => [unit '\\', letter]
  | none => if c.val < 0x20 || isSurrogate c then unicodeEscape c else [c]

/-- The inner part of `QuoteJSONString`. -/
@[grind =] def escape : Text → Text
  | [] => []
  | [c] => escapeUnit c
  | c :: d :: rest =>
    if isHigh c && isLow d then c :: d :: escape rest else escapeUnit c ++ escape (d :: rest)

/-- `QuoteJSONString` -/
def quote (s : Text) : Text := unit '"' :: (escape s ++ [unit '"'])

/-- The value of a digit of an escape, in either case. -/
def hexValue (c : CodeUnit) : Option ℕ :=
  if 48 ≤ c.val ∧ c.val ≤ 57 then some (c.val - 48)
  else if 97 ≤ c.val ∧ c.val ≤ 102 then some (c.val - 87)
  else if 65 ≤ c.val ∧ c.val ≤ 70 then some (c.val - 55)
  else none

/-- The unit of `\x5cuXXXX`. -/
def hexUnit (h1 h2 h3 h4 : CodeUnit) : Option CodeUnit := do
  let d1 ← hexValue h1
  let d2 ← hexValue h2
  let d3 ← hexValue h3
  let d4 ← hexValue h4
  some (fromCharCode (((d1 * 16 + d2) * 16 + d3) * 16 + d4 : ℕ))

/-- The unit of an escape of one letter; `\x5c/` is one that is read and never written. -/
def unescape (letter : CodeUnit) : Option CodeUnit :=
  if letter = unit '/' then some (unit '/')
  else (shortEscapes.find? (fun e => e.2 = letter)).map Prod.fst

/-- A string after its opening quote, and what follows the closing one. -/
@[grind =] def parseString : Text → Option (Text × Text)
  | [] => none
  | c :: rest =>
    if c = unit '"' then some ([], rest)
    else if c = unit '\\' then
      match rest with
      | [] => none
      | letter :: rest =>
        if letter = unit 'u' then
          match rest with
          | h1 :: h2 :: h3 :: h4 :: rest =>
            (hexUnit h1 h2 h3 h4).bind (fun u => (parseString rest).map (fun p => (u :: p.1, p.2)))
          | _ => none
        else
          (unescape letter).bind (fun u => (parseString rest).map (fun p => (u :: p.1, p.2)))
    else if c.val < 0x20 then none
    else (parseString rest).map (fun p => (c :: p.1, p.2))

/-! ### A string is read back -/

theorem hexValue_hexDigit : ∀ n < 16, hexValue (hexDigit n) = some n := by
  decide

theorem hexUnit_digits (c : CodeUnit) :
    hexUnit (hexDigit (c.val / 4096)) (hexDigit (c.val / 256 % 16)) (hexDigit (c.val / 16 % 16))
      (hexDigit (c.val % 16)) = some c := by
  have hlt := c.isLt
  unfold hexUnit
  rw [hexValue_hexDigit _ (by omega), hexValue_hexDigit _ (by omega),
    hexValue_hexDigit _ (by omega), hexValue_hexDigit _ (by omega)]
  simp only [bind_eq_bind, bind_some, some.injEq]
  apply fromCharCode_eq
  omega

theorem parseString_quote (t : Text) : parseString (unit '"' :: t) = some ([], t) := by
  rw [parseString.eq_def]
  exact if_pos rfl

theorem parseString_plain {c : CodeUnit} (hquote : c ≠ unit '"') (hslash : c ≠ unit '\\')
    (hspace : ¬ c.val < 0x20) (t : Text) :
    parseString (c :: t) = (parseString t).map (fun p => (c :: p.1, p.2)) := by
  rw [parseString.eq_def]
  simp only [if_neg hquote, if_neg hslash, if_neg hspace]

theorem unescape_shortEscapes :
    ∀ e ∈ shortEscapes, e.2 ≠ unit 'u' ∧ unescape e.2 = some e.1 := by
  have hall : shortEscapes.all (fun e => e.2 != unit 'u' && unescape e.2 == some e.1) = true := by
    decide
  intro e he
  simpa using List.all_eq_true.mp hall e he

theorem parseString_short {c letter : CodeUnit} (h : (c, letter) ∈ shortEscapes) (t : Text) :
    parseString (unit '\\' :: letter :: t) = (parseString t).map (fun p => (c :: p.1, p.2)) := by
  obtain ⟨hu, hunescape⟩ := unescape_shortEscapes (c, letter) h
  rw [parseString.eq_def]
  simp only [if_neg (show unit '\\' ≠ unit '"' by decide), if_true, if_neg hu, hunescape,
    bind_some]

theorem parseString_unicode (c : CodeUnit) (t : Text) :
    parseString (unicodeEscape c ++ t) = (parseString t).map (fun p => (c :: p.1, p.2)) := by
  unfold unicodeEscape
  rw [cons_append, parseString.eq_def]
  simp only [if_neg (show unit '\\' ≠ unit '"' by decide), if_true, cons_append,
    nil_append, hexUnit_digits, bind_some]

/-- The units that must be escaped have an escape. -/
theorem mem_shortEscapes_of_lookup {c letter : CodeUnit}
    (h : shortEscapes.lookup c = some letter) : (c, letter) ∈ shortEscapes := by
  obtain ⟨before, after, heq, -⟩ := lookup_eq_some_iff.mp h
  rw [heq]
  exact mem_append_right before mem_cons_self

theorem parseString_escapeUnit (c : CodeUnit) (t : Text) :
    parseString (escapeUnit c ++ t) = (parseString t).map (fun p => (c :: p.1, p.2)) := by
  unfold escapeUnit
  cases hshort : shortEscapes.lookup c with
  | some letter => exact parseString_short (mem_shortEscapes_of_lookup hshort) t
  | none =>
    have hquote : c ≠ unit '"' := by
      rintro rfl
      exact absurd hshort (by decide)
    have hslash : c ≠ unit '\\' := by
      rintro rfl
      exact absurd hshort (by decide)
    by_cases hc : c.val < 0x20
    · simp only [hc, decide_true, Bool.true_or, if_true]
      exact parseString_unicode c t
    by_cases hs : isSurrogate c = true
    · simp only [hs, Bool.or_true, if_true]
      exact parseString_unicode c t
    · simp only [hc, hs, decide_false, Bool.or_self, Bool.false_eq_true, if_false]
      exact parseString_plain hquote hslash hc t

theorem not_control_of_surrogate {c : CodeUnit} (h : isHigh c = true ∨ isLow c = true) :
    c ≠ unit '"' ∧ c ≠ unit '\\' ∧ ¬ c.val < 0x20 := by
  have hval : 0xd800 ≤ c.val := by
    simp only [isHigh, isLow, decide_eq_true_eq] at h
    omega
  refine ⟨?_, ?_, by omega⟩
  · rintro rfl
    exact absurd hval (by decide)
  · rintro rfl
    exact absurd hval (by decide)

theorem parseString_escape (s t : Text) :
    parseString (escape s ++ t) = (parseString t).map (fun p => (s ++ p.1, p.2)) := by
  fun_induction escape s with
  | case1 => simp
  | case2 c =>
    rw [parseString_escapeUnit]
    rfl
  | case3 c d rest hpair ih =>
    rw [Bool.and_eq_true] at hpair
    obtain ⟨hq, hs, hc⟩ := not_control_of_surrogate (.inl hpair.1)
    obtain ⟨hq', hs', hd⟩ := not_control_of_surrogate (.inr hpair.2)
    rw [cons_append, cons_append, parseString_plain hq hs hc,
      parseString_plain hq' hs' hd, ih]
    cases parseString t <;> simp
  | case4 c d rest _ ih =>
    rw [append_assoc, parseString_escapeUnit, ih]
    cases parseString t <;> simp

/-- A string is read back. -/
theorem parseString_quoted (s t : Text) :
    parseString (escape s ++ unit '"' :: t) = some (s, t) := by
  rw [parseString_escape, parseString_quote]
  simp

/-! ### A quoted string is well-formed -/

theorem hexDigit_ascii : ∀ n < 16, (hexDigit n).val < 0x80 := by
  decide

theorem shortEscapes_ascii : ∀ e ∈ shortEscapes, e.2.val < 0x80 := by
  have hall : shortEscapes.all (fun e => e.2.val < 0x80) = true := by decide
  intro e he
  simpa using List.all_eq_true.mp hall e he

theorem ascii_unicodeEscape (c : CodeUnit) : Ascii (unicodeEscape c) := by
  have hlt := c.isLt
  intro u hu
  simp only [unicodeEscape, mem_cons, not_mem_nil, or_false] at hu
  rcases hu with rfl | rfl | rfl | rfl | rfl | rfl
  · decide
  · decide
  · exact hexDigit_ascii _ (by omega)
  · exact hexDigit_ascii _ (by omega)
  · exact hexDigit_ascii _ (by omega)
  · exact hexDigit_ascii _ (by omega)

theorem ascii_short {c letter : CodeUnit} (h : shortEscapes.lookup c = some letter) :
    Ascii [unit '\\', letter] := by
  intro u hu
  simp only [mem_cons, not_mem_nil, or_false] at hu
  rcases hu with rfl | rfl
  · decide
  · exact shortEscapes_ascii _ (mem_shortEscapes_of_lookup h)

theorem wellFormed_escapeUnit (c : CodeUnit) : WellFormed (escapeUnit c) := by
  unfold escapeUnit
  cases hshort : shortEscapes.lookup c with
  | some letter => exact (ascii_short hshort).wellFormed
  | none =>
    by_cases hc : c.val < 0x20 ∨ isSurrogate c = true
    · simp only [Bool.or_eq_true, decide_eq_true_eq, hc, if_true]
      exact (ascii_unicodeEscape c).wellFormed
    · simp only [Bool.or_eq_true, decide_eq_true_eq, hc, if_false]
      exact .unit (by simpa using (not_or.mp hc).2) .nil

theorem wellFormed_escape (s : Text) : WellFormed (escape s) := by
  fun_induction escape s with
  | case1 => exact .nil
  | case2 c => exact wellFormed_escapeUnit c
  | case3 c d rest hpair ih =>
    rw [Bool.and_eq_true] at hpair
    exact .pair hpair.1 hpair.2 ih
  | case4 c d rest _ ih => exact (wellFormed_escapeUnit c).append ih

theorem wellFormed_quote (s : Text) : WellFormed (quote s) := by
  have hquote : Ascii [unit '"'] := by decide
  exact hquote.wellFormed.append ((wellFormed_escape s).append hquote.wellFormed)

/-- A text that does not begin with the second half of a pair is escaped by itself. -/
theorem escape_append {s t : Text} (h : ∀ c ∈ t.head?, isLow c = false) :
    escape (s ++ t) = escape s ++ escape t := by
  induction s using escape.induct with
  | case1 => rfl
  | case2 c =>
    cases t with
    | nil => simp [escape]
    | cons d t =>
      have hd : isLow d = false := h d rfl
      simp [escape, hd]
  | case3 c d rest hpair ih =>
    rw [cons_append, cons_append, escape, if_pos hpair, escape, if_pos hpair, ih]
    rfl
  | case4 c d rest hpair ih =>
    rw [cons_append, cons_append, escape, if_neg hpair, escape, if_neg hpair,
      ← cons_append, ih, append_assoc]

/-! ## Writing a value -/

def openBrace : CodeUnit := fromCharCode 0x7b

def closeBrace : CodeUnit := fromCharCode 0x7d

mutual
/-- `JSON.stringify(v)` -/
def stringify : Value ν → Text
  | .null => ofString "null"
  | .bool b => ofString (if b then "true" else "false")
  | .num x => if (N.value x).isSome then N.toText x else ofString "null"
  | .str s => quote s
  | .arr [] => [unit '[', unit ']']
  | .arr (v :: items) => unit '[' :: (stringify v ++ stringifyItems items)
  | .obj [] => [openBrace, closeBrace]
  | .obj ((name, v) :: fields) =>
    openBrace :: (quote name ++ unit ':' :: (stringify v ++ stringifyFields fields))

/-- The items after the first, and the bracket. -/
def stringifyItems : List (Value ν) → Text
  | [] => [unit ']']
  | v :: items => unit ',' :: (stringify v ++ stringifyItems items)

/-- The fields after the first, and the brace. -/
def stringifyFields : List (Text × Value ν) → Text
  | [] => [closeBrace]
  | (name, v) :: fields =>
    unit ',' :: (quote name ++ unit ':' :: (stringify v ++ stringifyFields fields))
end

/-! ## Reading a value -/

def isSpace (c : CodeUnit) : Bool := c.val == 0x20 || c.val == 0x09 || c.val == 0x0a || c.val == 0x0d

/-- The text from its next token on. -/
def skipSpace (t : Text) : Text := t.dropWhile isSpace

/-- The unit of the next token if it is `c`, and the text after it. -/
def expect (c : CodeUnit) (t : Text) : Option Text :=
  match skipSpace t with
  | [] => none
  | d :: rest => if d = c then some rest else none

/-- `null`, `true` and `false`. -/
def parseLiteral (t : Text) : Option (Value ν × Text) :=
  if ofString "null" <+: t then some (.null, t.drop 4)
  else if ofString "true" <+: t then some (.bool true, t.drop 4)
  else if ofString "false" <+: t then some (.bool false, t.drop 5)
  else none

/-- A number: all the units that can be part of one. -/
def parseNumber (t : Text) : Option (Value ν × Text) :=
  (N.read (t.takeWhile isNumeral)).map (fun x => (.num x, t.dropWhile isNumeral))

mutual
/-- A value and the text after it, with at most so many calls inside one another. -/
@[grind =] def parseValue : ℕ → Text → Option (Value ν × Text)
  | 0, _ => none
  | fuel + 1, t =>
    match skipSpace t with
    | [] => none
    | c :: rest =>
      if c = unit '"' then (parseString rest).map (fun p => (.str p.1, p.2))
      else if c = unit '[' then
        match expect (unit ']') rest with
        | some rest => some (.arr [], rest)
        | none =>
          (parseValue fuel rest).bind (fun p => (parseItems fuel p.2).map (fun q =>
            (.arr (p.1 :: q.1), q.2)))
      else if c = openBrace then
        match expect (closeBrace) rest with
        | some rest => some (.obj [], rest)
        | none =>
          (parseField fuel rest).bind (fun p => (parseFields fuel p.2).map (fun q =>
            (.obj (p.1 :: q.1), q.2)))
      else (parseLiteral (c :: rest)).or (parseNumber N (c :: rest))

/-- The items after the first. -/
def parseItems : ℕ → Text → Option (List (Value ν) × Text)
  | 0, _ => none
  | fuel + 1, t =>
    match expect (unit ']') t with
    | some rest => some ([], rest)
    | none =>
      (expect (unit ',') t).bind (fun rest => (parseValue fuel rest).bind (fun p =>
        (parseItems fuel p.2).map (fun q => (p.1 :: q.1, q.2))))

/-- A name and its value. -/
def parseField : ℕ → Text → Option ((Text × Value ν) × Text)
  | 0, _ => none
  | fuel + 1, t =>
    (expect (unit '"') t).bind (fun rest => (parseString rest).bind (fun p =>
      (expect (unit ':') p.2).bind (fun rest => (parseValue fuel rest).map (fun q =>
        ((p.1, q.1), q.2)))))

/-- The fields after the first. -/
def parseFields : ℕ → Text → Option (List (Text × Value ν) × Text)
  | 0, _ => none
  | fuel + 1, t =>
    match expect (closeBrace) t with
    | some rest => some ([], rest)
    | none =>
      (expect (unit ',') t).bind (fun rest => (parseField fuel rest).bind (fun p =>
        (parseFields fuel p.2).map (fun q => (p.1 :: q.1, q.2))))
end

/-- `JSON.parse(t)`; `none` is a throw. A unit of the text is taken before each inner call. -/
def parse (t : Text) : Option (Value ν) :=
  match parseValue N (t.length + 1) t with
  | some (v, rest) => if skipSpace rest = [] then some v else none
  | none => none

/-! ## A value is read back -/

variable {N}

/-- What no unit of a number is. -/
theorem isSpace_of_numeral {c : CodeUnit} (h : isNumeral c = true) :
    isSpace c = false ∧ c ∉ [unit '"', unit '[', unit ']', openBrace, unit 'n', unit 't',
      unit 'f'] := by
  have hall : (ofString "0123456789+-.eE").all (fun c => !isSpace c &&
      !([unit '"', unit '[', unit ']', openBrace, unit 'n', unit 't', unit 'f'].contains c)) =
        true := by
    decide
  simpa using List.all_eq_true.mp hall c (by simpa [isNumeral] using h)

theorem ofString_null : ofString "null" = unit 'n' :: ofString "ull" := by
  decide

theorem ofString_true : ofString "true" = unit 't' :: ofString "rue" := by
  decide

theorem ofString_false : ofString "false" = unit 'f' :: ofString "alse" := by
  decide

theorem skipSpace_cons {c : CodeUnit} (h : isSpace c = false) (t : Text) :
    skipSpace (c :: t) = c :: t := by
  simp [skipSpace, h]

theorem expect_self {c : CodeUnit} (h : isSpace c = false) (t : Text) :
    expect c (c :: t) = some t := by
  simp [expect, skipSpace_cons h]

theorem expect_ne {c d : CodeUnit} (h : isSpace d = false) (hne : d ≠ c) (t : Text) :
    expect c (d :: t) = none := by
  simp [expect, skipSpace_cons h, hne]

theorem parseNumber_toText {x : ν} (hx : (N.value x).isSome) {rest : Text} (hrest : Ends isNumeral rest) :
    parseNumber N (N.toText x ++ rest) = some (.num x, rest) := by
  have hnumeral := N.toText_numeral hx
  unfold parseNumber
  rw [takeWhile_append_of_ends hnumeral hrest, dropWhile_append_of_ends hnumeral hrest,
    N.read_toText hx, map_some]

theorem parseLiteral_of_numeral {c : CodeUnit} (h : isNumeral c = true) (t : Text) :
    (parseLiteral (c :: t) : Option (Value ν × Text)) = none := by
  have hne := (isSpace_of_numeral h).2
  simp only [mem_cons, not_or] at hne
  obtain ⟨-, -, -, -, hn, ht, hf, -⟩ := hne
  simp [parseLiteral, ofString_null, ofString_true, ofString_false, cons_prefix_cons,
    Ne.symm hn, Ne.symm ht, Ne.symm hf]

/-- The first unit of a value. -/
theorem stringify_eq_cons {v : Value ν} (hv : Finite N v) :
    ∃ c t, stringify N v = c :: t ∧ isSpace c = false ∧ c ≠ unit ']' := by
  cases hv with
  | null => exact ⟨unit 'n', ofString "ull", ofString_null, by decide, by decide⟩
  | bool b =>
    cases b with
    | true => exact ⟨unit 't', ofString "rue", ofString_true, by decide, by decide⟩
    | false => exact ⟨unit 'f', ofString "alse", ofString_false, by decide, by decide⟩
  | @num x hx =>
    cases htext : N.toText x with
    | nil => exact absurd htext (N.toText_ne_nil hx)
    | cons c t =>
      obtain ⟨hspace, hne⟩ := isSpace_of_numeral (N.toText_numeral hx c (by simp [htext]))
      refine ⟨c, t, by simp [stringify, hx, htext], hspace, ?_⟩
      rintro rfl
      simp at hne
  | str s => exact ⟨unit '"', _, rfl, by decide, by decide⟩
  | @arr items _ =>
    cases items with
    | nil => exact ⟨unit '[', _, rfl, by decide, by decide⟩
    | cons v items => exact ⟨unit '[', _, by rw [stringify], by decide, by decide⟩
  | @obj fields _ =>
    cases fields with
    | nil => exact ⟨openBrace, _, rfl, by decide, by decide⟩
    | cons f fields => exact ⟨openBrace, _, by rw [stringify], by decide, by decide⟩

theorem ends_stringifyItems (items : List (Value ν)) (rest : Text) :
    Ends isNumeral (stringifyItems N items ++ rest) := by
  cases items with
  | nil => exact ends_cons (by decide) _
  | cons v items =>
    rw [stringifyItems]
    exact ends_cons (by decide) _

theorem ends_stringifyFields (fields : List (Text × Value ν)) (rest : Text) :
    Ends isNumeral (stringifyFields N fields ++ rest) := by
  rcases fields with _ | ⟨⟨name, v⟩, fields⟩
  · exact ends_cons (by decide) _
  · rw [stringifyFields]
    exact ends_cons (by decide) _

/-- The number that `stringify` wrote is read back. -/
theorem parseValue_num {x : ν} (hx : (N.value x).isSome) {rest : Text} (hrest : Ends isNumeral rest)
    (fuel : ℕ) : parseValue N (fuel + 1) (N.toText x ++ rest) = some (.num x, rest) := by
  have hparse := parseNumber_toText hx hrest
  cases htext : N.toText x with
  | nil => exact absurd htext (N.toText_ne_nil hx)
  | cons c t =>
    rw [htext] at hparse
    have hc : isNumeral c = true := N.toText_numeral hx c (by simp [htext])
    obtain ⟨hspace, hne⟩ := isSpace_of_numeral hc
    simp only [mem_cons, not_or] at hne
    obtain ⟨hquote, hbracket, -, hbrace, -⟩ := hne
    rw [cons_append] at hparse ⊢
    rw [parseValue, skipSpace_cons hspace]
    simp only [if_neg hquote, if_neg hbracket, if_neg hbrace, parseLiteral_of_numeral hc, hparse,
      none_or]

theorem parseValue_literal {t : Text} {v : Value ν} {c : CodeUnit} {t' : Text}
    (ht : t = c :: t') (hc : isSpace c = false) (hne : c ∉ [unit '"', unit '[', openBrace])
    {rest : Text} (hparse : parseLiteral (t ++ rest) = some (v, rest)) (fuel : ℕ) :
    parseValue N (fuel + 1) (t ++ rest) = some (v, rest) := by
  simp only [mem_cons, not_mem_nil, or_false, not_or] at hne
  obtain ⟨hquote, hbracket, hbrace⟩ := hne
  subst ht
  rw [cons_append] at hparse ⊢
  rw [parseValue, skipSpace_cons hc]
  simp only [if_neg hquote, if_neg hbracket, if_neg hbrace, hparse, some_or]

theorem parseField_quote {name t : Text} {v : Value ν} {rest : Text} {fuel : ℕ}
    (h : parseValue N fuel t = some (v, rest)) :
    parseField N (fuel + 1) (quote name ++ unit ':' :: t) = some ((name, v), rest) := by
  rw [quote, cons_append, append_assoc, parseField, expect_self (by decide),
    bind_some, singleton_append, parseString_quoted, bind_some,
    expect_self (by decide), bind_some, h, map_some]

mutual
/-- A value is read back from its text, whatever comes after. -/
theorem parseValue_stringify : ∀ (v : Value ν), Finite N v → ∀ (fuel : ℕ) (rest : Text),
    (stringify N v).length ≤ fuel → Ends isNumeral rest →
      parseValue N fuel (stringify N v ++ rest) = some (v, rest)
  | v, hv, 0, rest, hfuel, _ => by
    obtain ⟨c, t, heq, -⟩ := stringify_eq_cons hv
    simp [heq] at hfuel
  | .null, _, fuel + 1, rest, _, _ => by
    refine parseValue_literal ofString_null (by decide) (by decide) ?_ fuel
    rw [ofString_null]
    rfl
  | .bool true, _, fuel + 1, rest, _, _ => by
    refine parseValue_literal ofString_true (by decide) (by decide) ?_ fuel
    rfl
  | .bool false, _, fuel + 1, rest, _, _ => by
    refine parseValue_literal ofString_false (by decide) (by decide) ?_ fuel
    rfl
  | .num x, hv, fuel + 1, rest, _, hrest => by
    have hx : (N.value x).isSome := by
      cases hv with
      | num hx => exact hx
    rw [stringify, if_pos hx]
    exact parseValue_num hx hrest fuel
  | .str s, _, fuel + 1, rest, _, _ => by
    rw [stringify, quote, cons_append, append_assoc, singleton_append, parseValue,
      skipSpace_cons (by decide)]
    simp only [if_true, parseString_quoted, map_some]
  | .arr [], _, fuel + 1, rest, _, _ => by
    rw [stringify, cons_append, singleton_append, parseValue, skipSpace_cons (by decide)]
    simp only [if_neg (show unit '[' ≠ unit '"' by decide), if_true, expect_self (c := unit ']')
      (by decide)]
  | .arr (v :: items), hv, fuel + 1, rest, hfuel, _ => by
    have hall : ∀ w ∈ v :: items, Finite N w := by
      cases hv with
      | arr hall => exact hall
    have hv := hall v mem_cons_self
    rw [stringify] at hfuel ⊢
    simp only [length_cons, length_append] at hfuel
    have hvalue := parseValue_stringify v hv fuel (stringifyItems N items ++ rest) (by omega)
      (ends_stringifyItems items rest)
    have hitems := parseItems_stringify items (fun w hw => hall w (mem_cons_of_mem v hw))
      fuel rest (by omega)
    have hbracket : expect (unit ']') (stringify N v ++ (stringifyItems N items ++ rest)) =
        none := by
      obtain ⟨c, t, heq, hspace, hne⟩ := stringify_eq_cons hv
      rw [heq, cons_append, expect_ne hspace hne]
    rw [cons_append, append_assoc, parseValue, skipSpace_cons (by decide)]
    simp only [if_neg (show unit '[' ≠ unit '"' by decide), if_true, hbracket, hvalue,
      bind_some, hitems, map_some]
  | .obj [], _, fuel + 1, rest, _, _ => by
    rw [stringify, cons_append, singleton_append, parseValue, skipSpace_cons (by decide)]
    simp only [if_neg (show openBrace ≠ unit '"' by decide),
      if_neg (show openBrace ≠ unit '[' by decide), if_true, expect_self (c := closeBrace)
      (by decide)]
  | .obj ((name, v) :: fields), hv, fuel + 1, rest, hfuel, _ => by
    have hall : ∀ f ∈ (name, v) :: fields, Finite N f.2 := by
      cases hv with
      | obj hall => exact hall
    have hv : Finite N v := hall (name, v) mem_cons_self
    rw [stringify] at hfuel ⊢
    simp only [length_cons, length_append, quote, length_nil] at hfuel
    obtain ⟨fuel, rfl⟩ : ∃ k, fuel = k + 1 := ⟨fuel - 1, by omega⟩
    have hvalue := parseValue_stringify v hv fuel (stringifyFields N fields ++ rest) (by omega)
      (ends_stringifyFields fields rest)
    have hfields := parseFields_stringify fields
      (fun f hf => hall f (mem_cons_of_mem _ hf)) (fuel + 1) rest (by omega)
    have hbrace : expect closeBrace (quote name ++ unit ':' ::
        (stringify N v ++ (stringifyFields N fields ++ rest))) = none := by
      rw [quote, cons_append, expect_ne (by decide) (by decide)]
    rw [cons_append, append_assoc, cons_append, append_assoc, parseValue,
      skipSpace_cons (by decide)]
    simp only [if_neg (show openBrace ≠ unit '"' by decide),
      if_neg (show openBrace ≠ unit '[' by decide), if_true, hbrace, parseField_quote hvalue,
      bind_some, hfields, map_some]

theorem parseItems_stringify : ∀ (items : List (Value ν)), (∀ v ∈ items, Finite N v) →
    ∀ (fuel : ℕ) (rest : Text), (stringifyItems N items).length ≤ fuel →
      parseItems N fuel (stringifyItems N items ++ rest) = some (items, rest)
  | [], _, 0, rest, hfuel => by
    simp [stringifyItems] at hfuel
  | [], _, fuel + 1, rest, _ => by
    rw [stringifyItems, singleton_append, parseItems, expect_self (by decide)]
  | v :: items, hall, 0, rest, hfuel => by
    simp [stringifyItems] at hfuel
  | v :: items, hall, fuel + 1, rest, hfuel => by
    rw [stringifyItems] at hfuel ⊢
    simp only [length_cons, length_append] at hfuel
    have hvalue := parseValue_stringify v (hall v mem_cons_self) fuel
      (stringifyItems N items ++ rest) (by omega) (ends_stringifyItems items rest)
    have hitems := parseItems_stringify items (fun w hw => hall w (mem_cons_of_mem v hw))
      fuel rest (by omega)
    rw [cons_append, append_assoc, parseItems, expect_ne (by decide) (by decide),
      expect_self (by decide)]
    simp only [bind_some, hvalue, hitems, map_some]

theorem parseFields_stringify : ∀ (fields : List (Text × Value ν)),
    (∀ f ∈ fields, Finite N f.2) → ∀ (fuel : ℕ) (rest : Text),
      (stringifyFields N fields).length ≤ fuel →
        parseFields N fuel (stringifyFields N fields ++ rest) = some (fields, rest)
  | [], _, 0, rest, hfuel => by
    simp [stringifyFields] at hfuel
  | [], _, fuel + 1, rest, _ => by
    rw [stringifyFields, singleton_append, parseFields, expect_self (by decide)]
  | (name, v) :: fields, hall, 0, rest, hfuel => by
    simp [stringifyFields] at hfuel
  | (name, v) :: fields, hall, fuel + 1, rest, hfuel => by
    rw [stringifyFields] at hfuel ⊢
    simp only [length_cons, length_append, quote, length_nil] at hfuel
    obtain ⟨fuel, rfl⟩ : ∃ k, fuel = k + 1 := ⟨fuel - 1, by omega⟩
    have hvalue := parseValue_stringify v (hall (name, v) mem_cons_self) fuel
      (stringifyFields N fields ++ rest) (by omega) (ends_stringifyFields fields rest)
    have hfields := parseFields_stringify fields
      (fun f hf => hall f (mem_cons_of_mem _ hf)) (fuel + 1) rest (by omega)
    rw [cons_append, append_assoc, cons_append, append_assoc, parseFields,
      expect_ne (by decide) (by decide), expect_self (by decide)]
    simp only [bind_some, parseField_quote hvalue, hfields, map_some]
end

/-- **What is written is read back.** -/
theorem parse_stringify {v : Value ν} (hv : Finite N v) :
    parse N (stringify N v) = some v := by
  have hvalue := parseValue_stringify v hv ((stringify N v).length + 1) [] (by omega) ends_nil
  rw [append_nil] at hvalue
  unfold parse
  rw [hvalue]
  rfl

/-! ## A written value is well-formed -/

theorem ascii_of_numeral {c : CodeUnit} (h : isNumeral c = true) : c.val < 0x80 := by
  have hall : Ascii (ofString "0123456789+-.eE") := by decide
  exact hall c (by simpa [isNumeral] using h)

theorem ascii_toText {x : ν} (hx : (N.value x).isSome) : Ascii (N.toText x) :=
  fun c hc => ascii_of_numeral (N.toText_numeral hx c hc)

mutual
/-- Every surrogate of a written value stands in a pair. -/
theorem wellFormed_stringify : ∀ v : Value ν, WellFormed (stringify N v)
  | .null => (show Ascii (ofString "null") by decide).wellFormed
  | .bool true => (show Ascii (ofString "true") by decide).wellFormed
  | .bool false => (show Ascii (ofString "false") by decide).wellFormed
  | .num x => by
    rw [stringify]
    split_ifs with hx
    · exact (ascii_toText hx).wellFormed
    · exact (show Ascii (ofString "null") by decide).wellFormed
  | .str s => wellFormed_quote s
  | .arr [] => (show Ascii [unit '[', unit ']'] by decide).wellFormed
  | .arr (v :: items) => by
    rw [stringify]
    exact ((wellFormed_stringify v).append (wellFormed_stringifyItems items)).cons_ascii (by decide)
  | .obj [] => (show Ascii [openBrace, closeBrace] by decide).wellFormed
  | .obj ((name, v) :: fields) => by
    rw [stringify]
    have hvalue := (wellFormed_stringify v).append (wellFormed_stringifyFields fields)
    exact ((wellFormed_quote name).append (hvalue.cons_ascii (by decide))).cons_ascii (by decide)

theorem wellFormed_stringifyItems : ∀ items : List (Value ν), WellFormed (stringifyItems N items)
  | [] => (show Ascii [unit ']'] by decide).wellFormed
  | v :: items => by
    rw [stringifyItems]
    exact ((wellFormed_stringify v).append (wellFormed_stringifyItems items)).cons_ascii (by decide)

theorem wellFormed_stringifyFields :
    ∀ fields : List (Text × Value ν), WellFormed (stringifyFields N fields)
  | [] => (show Ascii [closeBrace] by decide).wellFormed
  | (name, v) :: fields => by
    rw [stringifyFields]
    have hvalue := (wellFormed_stringify v).append (wellFormed_stringifyFields fields)
    exact ((wellFormed_quote name).append (hvalue.cons_ascii (by decide))).cons_ascii (by decide)
end

end JsonText
