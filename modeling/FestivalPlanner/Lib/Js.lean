import Mathlib.Algebra.GroupWithZero.Nat
import Mathlib.Data.List.Infix
import Mathlib.Data.Rat.Defs

/-!
# JSON values and string operations of JavaScript

What a JavaScript program does with texts and parsed JSON, as far as plain data
goes:

* `Json` — a parsed JSON value; an object is the list of its own enumerable
  string-keyed fields, in enumeration order;
* `includes` — `String.prototype.includes`;
* `replaceFirst` — `String.prototype.replace` with a string pattern: the first
  occurrence only, with the `$` patterns of the replacement text expanded;
* `split`, `slice`, `padStart`, `parseInt` — the pieces of a text and the number at its
  beginning; `Number` — a number that may be `NaN`;
* `Json.mentions` — does a text occur in some string of a value, keys included.
-/

namespace Js

/-! ## JSON values -/

/-- A parsed JSON value. -/
inductive Json where
  | null
  | bool (b : Bool)
  | num (q : ℚ)
  | str (s : String)
  | arr (items : List Json)
  | obj (fields : List (String × Json))
  deriving Inhabited

namespace Json

/-- `v?.name`: only an object has fields. -/
def field (name : String) : Json → Option Json
  | .obj fields => (fields.find? (fun f => f.1 = name)).map Prod.snd
  | _ => none

/-- `v?.name` when it is a string. -/
def stringField (name : String) : Json → Option String
  | .obj fields =>
      match fields.find? (fun f => f.1 = name) with
      | some (_, .str s) => some s
      | _ => none
  | _ => none

/-- `Object.values(v)`, for the values that are objects or arrays. -/
def values : Json → List Json
  | .arr items => items
  | .obj fields => fields.map Prod.snd
  | _ => []

end Json

/-! ## Strings -/

/-- `s.includes(pattern)`. -/
def includes (pattern s : String) : Bool := decide (pattern.toList <:+: s.toList)

/-- The texts before and after the first occurrence of `pattern`. -/
def splitFirst (pattern : List Char) : List Char → Option (List Char × List Char)
  | [] => if pattern = [] then some ([], []) else none
  | c :: cs =>
      if pattern <+: c :: cs then some ([], (c :: cs).drop pattern.length)
      else (splitFirst pattern cs).map (fun p => (c :: p.1, p.2))

/-- The replacement text with `$$`, `$&`, `$` + backquote and `$` + quote expanded
to a dollar sign, the match, and the texts before and after it.  Without capture
groups every other `$` stands for itself. -/
def expandReplacement (pattern before after : List Char) : List Char → List Char
  | '$' :: c :: rest =>
      if c = '$' then '$' :: expandReplacement pattern before after rest
      else if c = '&' then pattern ++ expandReplacement pattern before after rest
      else if c = Char.ofNat 96 then before ++ expandReplacement pattern before after rest
      else if c = Char.ofNat 39 then after ++ expandReplacement pattern before after rest
      else '$' :: expandReplacement pattern before after (c :: rest)
  | c :: rest => c :: expandReplacement pattern before after rest
  | [] => []

/-- `s.replace(pattern, replacement)` with a string pattern. -/
def replaceFirst (s pattern replacement : String) : String :=
  match splitFirst pattern.toList s.toList with
  | none => s
  | some (before, after) =>
      String.ofList (before ++
        expandReplacement pattern.toList before after replacement.toList ++ after)

example : replaceFirst "/polls/tmp/vote" "tmp" "p1" = "/polls/p1/vote" := by decide

/-- `s.split(sep)` for a separator of one character. -/
def split (sep : Char) : List Char → List (List Char)
  | [] => [[]]
  | c :: cs =>
      if c = sep then [] :: split sep cs
      else match split sep cs with
        | [] => [[c]]
        | word :: words => (c :: word) :: words

/-- `s.slice(0, n)`: a character outside the basic plane counts for two.  The half of such
a character that a slice may end in is left out. -/
@[grind =] def slice : ℕ → List Char → List Char
  | _, [] => []
  | n, c :: cs =>
      let units := if c.toNat < 65536 then 1 else 2
      if units ≤ n then c :: slice (n - units) cs else []

/-- `s.length`, which counts a character outside the basic plane as two. -/
def length (s : List Char) : ℕ := (s.map (fun c => if c.toNat < 65536 then 1 else 2)).sum

/-- `s.padStart(n, '0')`. -/
def padStart (n : ℕ) (s : List Char) : List Char := List.replicate (n - s.length) '0' ++ s

/-! ## Numbers -/

/-- A number without a fraction; `none` is `NaN`. -/
abbrev Number := Option ℤ

/-- White space and line ends, which `parseInt` skips. -/
def isSpace (c : Char) : Bool :=
  c.toNat ∈ [9, 10, 11, 12, 13, 32, 160, 5760, 8232, 8233, 8239, 8287, 12288, 65279] ||
    (8192 ≤ c.toNat && c.toNat ≤ 8202)

/-- `s.trim()`. -/
def trim (s : List Char) : List Char :=
  ((s.dropWhile isSpace).reverse.dropWhile isSpace).reverse

/-- The value of a digit. -/
def digit (c : Char) : ℤ := (c.toNat : ℤ) - 48

/-- The number that digits write. -/
def ofDigits (ds : List Char) : ℤ := ds.foldl (fun n c => 10 * n + digit c) 0

/-- The digits at the beginning of a text, as a number. -/
def leadingDigits (cs : List Char) : Number :=
  match cs.takeWhile Char.isDigit with
  | [] => none
  | d :: ds => some (ofDigits (d :: ds))

/-- `parseInt(s, 10)`. -/
def parseInt (s : List Char) : Number :=
  match s.dropWhile isSpace with
  | '-' :: cs => (leadingDigits cs).map (fun n => -n)
  | '+' :: cs => leadingDigits cs
  | cs => leadingDigits cs

example : parseInt " 007px".toList = some 7 ∧ parseInt "px".toList = none := by decide

/-! ## Occurrence in a value -/

mutual

/-- Does `text` occur in a string of the value, field names included? -/
def Json.mentions (text : String) : Json → Bool
  | .str s => includes text s
  | .arr items => mentionsItems text items
  | .obj fields => mentionsFields text fields
  | _ => false

/-- `Json.mentions` for the items of an array. -/
def mentionsItems (text : String) : List Json → Bool
  | [] => false
  | v :: vs => v.mentions text || mentionsItems text vs

/-- `Json.mentions` for the fields of an object. -/
def mentionsFields (text : String) : List (String × Json) → Bool
  | [] => false
  | (name, v) :: fs => includes text name || v.mentions text || mentionsFields text fs

end

end Js
