import FestivalPlanner.Lib.Js
import Mathlib.Data.List.TakeWhile
import Mathlib.Data.Char
import Mathlib.Tactic.Ring
import Mathlib.Tactic.Positivity

/-!
# Texts of digits

Reading numbers that are written with digits, and the order of such texts.

* `parseInt_digits` — a text of digits reads as its number;
* `split_append`, `split_of_notMem`, `slice_prefix` — the pieces of a text;
* `ofDigits_bounds` — the size of a number of so many digits;
* `ofDigits_lt` — numbers of the same number of digits are ordered as their texts;
* `append_not_lt` — the order of texts that begin with parts of the same length.
-/

namespace Js

open List

/-! ## Digits -/

/-- Every character is a digit. -/
def Digits (ds : List Char) : Prop := ∀ c ∈ ds, c.isDigit = true

variable {c sep : Char} {ds es : List Char} {n : ℤ}

theorem digits_cons : Digits (c :: ds) ↔ c.isDigit = true ∧ Digits ds := by
  unfold Digits
  simp

theorem toNat_of_isDigit (h : c.isDigit = true) : 48 ≤ c.toNat ∧ c.toNat ≤ 57 := by
  unfold Char.isDigit at h
  simp only [ge_iff_le, Bool.and_eq_true, decide_eq_true_eq] at h
  exact h

theorem digit_bounds (h : c.isDigit = true) : 0 ≤ digit c ∧ digit c ≤ 9 := by
  have := toNat_of_isDigit h
  unfold digit
  omega

theorem Digits.notMem (h : Digits ds) (hsep : sep.isDigit = false) : sep ∉ ds := by
  intro hmem
  rw [h sep hmem] at hsep
  cases hsep

theorem isSpace_of_isDigit (h : c.isDigit = true) : isSpace c = false := by
  have := toNat_of_isDigit h
  unfold isSpace
  simp only [mem_cons, not_mem_nil, or_false, Bool.or_eq_false_iff,
    decide_eq_false_iff_not, Bool.and_eq_false_iff]
  omega

theorem leadingDigits_digits (h : Digits ds) (hne : ds ≠ []) :
    leadingDigits ds = some (ofDigits ds) := by
  have htake : ds.takeWhile Char.isDigit = ds := takeWhile_eq_self_iff.mpr h
  unfold leadingDigits
  cases ds with
  | nil => exact absurd rfl hne
  | cons d ds => rw [htake]

/-- A text of digits reads as its number. -/
theorem parseInt_digits (h : Digits ds) (hne : ds ≠ []) : parseInt ds = some (ofDigits ds) := by
  have hlead := leadingDigits_digits h hne
  cases ds with
  | nil => exact absurd rfl hne
  | cons d ds =>
    have hd := (digits_cons.mp h).1
    have hminus : d ≠ '-' := by
      rintro rfl
      cases hd
    have hplus : d ≠ '+' := by
      rintro rfl
      cases hd
    unfold parseInt
    rw [dropWhile_cons_of_neg (by simp [isSpace_of_isDigit hd])]
    simp [hminus, hplus, hlead]

/-! ## Pieces -/

theorem split_of_notMem (h : sep ∉ ds) : split sep ds = [ds] := by
  induction ds with
  | nil => rfl
  | cons c ds ih =>
    rw [mem_cons, not_or] at h
    rw [split, if_neg (Ne.symm h.1), ih h.2]

/-- The first piece ends at the first separator. -/
theorem split_append {rest : List Char} (h : sep ∉ ds) :
    split sep (ds ++ sep :: rest) = ds :: split sep rest := by
  induction ds with
  | nil => rw [nil_append, split, if_pos rfl]
  | cons c ds ih =>
    rw [mem_cons, not_or] at h
    rw [cons_append, split, if_neg (Ne.symm h.1), ih h.2]

theorem slice_prefix (n : ℕ) (cs : List Char) : slice n cs <+: cs := by
  induction cs generalizing n with
  | nil => simp [slice]
  | cons c cs ih =>
    rw [slice]
    by_cases h : (if c.toNat < 65536 then 1 else 2) ≤ n
    · simp only [if_pos h]
      exact cons_prefix_cons.mpr ⟨rfl, ih _⟩
    · simp only [if_neg h]
      exact nil_prefix

/-- A slice of characters of the basic plane counts them. -/
theorem slice_eq_take {cs : List Char} (h : ∀ c ∈ cs, c.toNat < 65536) (n : ℕ) :
    slice n cs = cs.take n := by
  induction cs generalizing n with
  | nil => simp [slice]
  | cons c cs ih =>
    rw [forall_mem_cons] at h
    cases n with
    | zero => simp [slice, h.1]
    | succ n => simp [slice, h.1, ih h.2]

/-- Slicing again changes nothing. -/
theorem slice_slice (n : ℕ) (cs : List Char) : slice n (slice n cs) = slice n cs := by
  induction cs generalizing n with
  | nil => simp [slice]
  | cons c cs ih =>
    by_cases h : (if c.toNat < 65536 then 1 else 2) ≤ n
    · simp only [slice, if_pos h, ih]
    · simp only [slice, if_neg h]

/-! ## Size -/

theorem foldl_digit_bounds (h : Digits ds) (hn : 0 ≤ n) :
    0 ≤ ds.foldl (fun n c => 10 * n + digit c) n ∧
      ds.foldl (fun n c => 10 * n + digit c) n < (n + 1) * 10 ^ ds.length := by
  induction ds generalizing n with
  | nil => simp [hn]
  | cons d ds ih =>
    rw [digits_cons] at h
    have hd := digit_bounds h.1
    obtain ⟨hlow, hhigh⟩ := ih h.2 (show 0 ≤ 10 * n + digit d by omega)
    refine ⟨hlow, lt_of_lt_of_le hhigh ?_⟩
    calc (10 * n + digit d + 1) * 10 ^ ds.length
        ≤ ((n + 1) * 10) * 10 ^ ds.length := by
          apply mul_le_mul_of_nonneg_right _ (by positivity)
          omega
      _ = (n + 1) * 10 ^ (d :: ds).length := by
          rw [length_cons, pow_succ]
          ring

/-- Digits write a number that is not negative and has no more digits. -/
theorem ofDigits_bounds (h : Digits ds) : 0 ≤ ofDigits ds ∧ ofDigits ds < 10 ^ ds.length := by
  have := foldl_digit_bounds h le_rfl
  rw [zero_add, one_mul] at this
  exact this

/-! ## Order -/

/-- Reading on keeps a lead. -/
theorem foldl_digit_lt (hlen : ds.length = es.length) (hds : Digits ds) (hes : Digits es) {m : ℤ}
    (h : n < m) :
    ds.foldl (fun n c => 10 * n + digit c) n < es.foldl (fun n c => 10 * n + digit c) m := by
  induction ds generalizing es n m with
  | nil =>
    cases es with
    | nil => exact h
    | cons e es => cases hlen
  | cons d ds ih =>
    cases es with
    | nil => cases hlen
    | cons e es =>
      rw [digits_cons] at hds hes
      have hd := digit_bounds hds.1
      have he := digit_bounds hes.1
      apply ih (Nat.succ.inj hlen) hds.2 hes.2
      show 10 * n + digit d < 10 * m + digit e
      omega

theorem foldl_digit_lt_of_lt (hlen : ds.length = es.length) (hds : Digits ds) (hes : Digits es)
    (h : ds < es) (n : ℤ) :
    ds.foldl (fun n c => 10 * n + digit c) n < es.foldl (fun n c => 10 * n + digit c) n := by
  induction ds generalizing es n with
  | nil =>
    cases es with
    | nil => exact absurd h (lt_irrefl _)
    | cons e es => cases hlen
  | cons d ds ih =>
    cases es with
    | nil => cases hlen
    | cons e es =>
      rw [digits_cons] at hds hes
      rcases cons_lt_cons_iff.mp h with hlt | ⟨rfl, hlt⟩
      · apply foldl_digit_lt (Nat.succ.inj hlen) hds.2 hes.2
        have : d.toNat < e.toNat := Char.lt_def.mp hlt
        show 10 * n + digit d < 10 * n + digit e
        unfold digit
        omega
      · exact ih (Nat.succ.inj hlen) hds.2 hes.2 hlt _

/-- Numbers of the same number of digits are ordered as their texts. -/
theorem ofDigits_lt (hlen : ds.length = es.length) (hds : Digits ds) (hes : Digits es)
    (h : ds < es) : ofDigits ds < ofDigits es :=
  foldl_digit_lt_of_lt hlen hds hes h 0

/-- Texts that begin with parts of the same length are ordered by these first. -/
theorem append_not_lt {rs ss : List Char} (hlen : ds.length = es.length)
    (h : ¬ es ++ ss < ds ++ rs) : ds < es ∨ ds = es ∧ ¬ ss < rs := by
  induction ds generalizing es with
  | nil =>
    cases es with
    | nil => exact .inr ⟨rfl, h⟩
    | cons e es => cases hlen
  | cons d ds ih =>
    cases es with
    | nil => cases hlen
    | cons e es =>
      rcases lt_trichotomy d e with hlt | rfl | hlt
      · exact .inl (cons_lt_cons_iff.mpr (.inl hlt))
      · have htail : ¬ es ++ ss < ds ++ rs := fun hlt =>
          h (cons_lt_cons_iff.mpr (.inr ⟨rfl, hlt⟩))
        rcases ih (Nat.succ.inj hlen) htail with hlt | ⟨rfl, hrest⟩
        · exact .inl (cons_lt_cons_iff.mpr (.inr ⟨rfl, hlt⟩))
        · exact .inr ⟨rfl, hrest⟩
      · exact absurd (cons_lt_cons_iff.mpr (.inl hlt)) h

end Js
