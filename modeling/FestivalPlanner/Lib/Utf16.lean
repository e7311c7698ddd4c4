import Mathlib.Data.Fin.Basic
import Mathlib.Data.List.Basic
import Mathlib.Data.List.TakeWhile

/-!
# Texts of UTF-16 code units

A JavaScript string is a list of 16-bit code units, in which a surrogate may stand alone.

* `Text` — the strings; `fromCharCode` — `String.fromCharCode`;
* `ofString` — the code units of a text of characters; `ofString_injective` — they tell it;
* `takeWhile_append_of_ends` — the units of one kind at the beginning of a text;
* `WellFormed` — every surrogate stands in a pair.
-/

namespace Utf16

open List

/-! ## Code units -/

/-- A 16-bit code unit. -/
abbrev CodeUnit := Fin 0x10000

/-- A JavaScript string. -/
abbrev Text := List CodeUnit

/-- The first half of a surrogate pair. -/
@[grind =] def isHigh (c : CodeUnit) : Bool := decide (0xd800 ≤ c.val ∧ c.val ≤ 0xdbff)

/-- The second half of a surrogate pair. -/
@[grind =] def isLow (c : CodeUnit) : Bool := decide (0xdc00 ≤ c.val ∧ c.val ≤ 0xdfff)

@[grind =] def isSurrogate (c : CodeUnit) : Bool := isHigh c || isLow c

/-- `String.fromCharCode(n)`, which keeps the low 16 bits. -/
@[grind =] def fromCharCode (n : ℤ) : CodeUnit := Fin.ofNat 0x10000 (n % 0x10000).toNat

theorem fromCharCode_val (c : CodeUnit) : fromCharCode c.val = c := by
  have := c.isLt
  apply Fin.ext
  simp only [fromCharCode, Fin.ofNat]
  omega

variable {n : ℤ} {c : CodeUnit} {t : Text}

theorem fromCharCode_eq (h : n = c.val) : fromCharCode n = c := by
  rw [h, fromCharCode_val]

/-- The code unit of a character of the basic plane. -/
@[grind =] def unit (c : Char) : CodeUnit := fromCharCode c.toNat

/-- The code units of a character. -/
def unitsOf (c : Char) : Text :=
  if c.toNat < 0x10000 then [unit c]
  else [fromCharCode (0xd800 + (c.toNat - 0x10000) / 0x400),
    fromCharCode (0xdc00 + (c.toNat - 0x10000) % 0x400)]

/-- The code units of a text of characters. -/
def ofString (s : String) : Text := s.toList.flatMap unitsOf

theorem fromCharCode_inj {m : ℤ} (hm : 0 ≤ m ∧ m < 0x10000) (hn : 0 ≤ n ∧ n < 0x10000)
    (h : fromCharCode m = fromCharCode n) : m = n := by
  have hval := congrArg Fin.val h
  simp only [fromCharCode, Fin.ofNat] at hval
  omega

/-- Characters are no halves of surrogate pairs. -/
theorem toNat_valid (c : Char) :
    c.toNat < 0xd800 ∨ 0xdfff < c.toNat ∧ c.toNat < 0x110000 := c.valid

/-- The first character of a text is read from its code units. -/
theorem unitsOf_append_inj {c c' : Char} {s s' : Text} (h : unitsOf c ++ s = unitsOf c' ++ s') :
    c = c' ∧ s = s' := by
  have hc := toNat_valid c
  have hc' := toNat_valid c'
  have hsame (heq : c.toNat = c'.toNat) : c = c' := Char.ext (UInt32.toNat.inj heq)
  unfold unitsOf unit at h
  split at h <;> split at h
  · obtain ⟨hunit, rfl⟩ := List.cons.inj h
    have := fromCharCode_inj (by omega) (by omega) hunit
    exact ⟨hsame (by omega), rfl⟩
  · have := fromCharCode_inj (by omega) (by omega) (List.cons.inj h).1
    omega
  · have := fromCharCode_inj (by omega) (by omega) (List.cons.inj h).1
    omega
  · obtain ⟨hhigh, h⟩ := List.cons.inj h
    obtain ⟨hlow, rfl⟩ := List.cons.inj h
    have := fromCharCode_inj (by omega) (by omega) hhigh
    have := fromCharCode_inj (by omega) (by omega) hlow
    exact ⟨hsame (by omega), rfl⟩

theorem unitsOf_ne_nil (c : Char) : unitsOf c ≠ [] := by
  unfold unitsOf
  split <;> simp

/-- Texts of the same code units are the same. -/
theorem ofString_injective : Function.Injective ofString := by
  intro s t h
  apply String.ext
  unfold ofString at h
  generalize s.toList = cs at h ⊢
  generalize t.toList = ds at h ⊢
  induction cs generalizing ds with
  | nil =>
    cases ds with
    | nil => rfl
    | cons d ds =>
      rw [flatMap_nil, flatMap_cons] at h
      exact absurd (append_eq_nil_iff.mp h.symm).1 (unitsOf_ne_nil d)
  | cons c cs ih =>
    cases ds with
    | nil =>
      rw [flatMap_nil, flatMap_cons] at h
      exact absurd (append_eq_nil_iff.mp h).1 (unitsOf_ne_nil c)
    | cons d ds =>
      rw [flatMap_cons, flatMap_cons] at h
      obtain ⟨rfl, hrest⟩ := unitsOf_append_inj h
      rw [ih ds hrest]

/-! ## The beginning of a text -/

variable {p : CodeUnit → Bool} {s rest : Text}

/-- The next unit is none of those. -/
def Ends (p : CodeUnit → Bool) (rest : Text) : Prop := ∀ c ∈ rest.head?, p c = false

theorem ends_nil : Ends p [] := by
  simp [Ends]

theorem ends_cons (h : p c = false) (t : Text) : Ends p (c :: t) := by
  simp [Ends, h]

theorem takeWhile_append_of_ends (hs : ∀ c ∈ s, p c = true) (hrest : Ends p rest) :
    (s ++ rest).takeWhile p = s := by
  rw [takeWhile_append_of_pos hs]
  cases rest with
  | nil => simp
  | cons c t => simp [hrest c (by simp)]

theorem dropWhile_append_of_ends (hs : ∀ c ∈ s, p c = true) (hrest : Ends p rest) :
    (s ++ rest).dropWhile p = rest := by
  rw [dropWhile_append_of_pos hs]
  cases rest with
  | nil => simp
  | cons c t => simp [hrest c (by simp)]

/-! ## Well-formed texts -/

/-- Every surrogate stands in a pair. -/
inductive WellFormed : Text → Prop
  | nil : WellFormed []
  | unit {c : CodeUnit} {t : Text} : isSurrogate c = false → WellFormed t → WellFormed (c :: t)
  | pair {h l : CodeUnit} {t : Text} :
      isHigh h = true → isLow l = true → WellFormed t → WellFormed (h :: l :: t)

theorem WellFormed.append {s : Text} (hs : WellFormed s) (ht : WellFormed t) :
    WellFormed (s ++ t) := by
  induction hs with
  | nil => exact ht
  | unit hc _ ih => exact .unit hc ih
  | pair hh hl _ ih => exact .pair hh hl ih

theorem wellFormed_of_forall (h : ∀ c ∈ t, isSurrogate c = false) : WellFormed t := by
  induction t with
  | nil => exact .nil
  | cons c t ih =>
    exact .unit (h c mem_cons_self) (ih (fun d hd => h d (mem_cons_of_mem c hd)))

/-- The units up to 0x7f are no surrogates. -/
theorem isSurrogate_of_ascii (h : c.val < 0x80) : isSurrogate c = false := by
  simp only [isSurrogate, isHigh, isLow, Bool.or_eq_false_iff, decide_eq_false_iff_not]
  omega

theorem WellFormed.cons_ascii (ht : WellFormed t) (hc : c.val < 0x80) : WellFormed (c :: t) :=
  .unit (isSurrogate_of_ascii hc) ht

/-- Only ASCII characters. -/
@[grind =] def Ascii (t : Text) : Prop := ∀ c ∈ t, c.val < 0x80

instance (t : Text) : Decidable (Ascii t) := List.decidableBAll (fun c : CodeUnit => c.val < 0x80) t

theorem Ascii.wellFormed (h : Ascii t) : WellFormed t :=
  wellFormed_of_forall (fun c hc => isSurrogate_of_ascii (h c hc))

end Utf16
