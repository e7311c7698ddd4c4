import Mathlib.Data.Int.Log
import Mathlib.Data.Rat.Floor
import Mathlib.Algebra.Order.Field.Power
import Mathlib.Tactic.Positivity

/-!
# Double-precision numbers by their values

* `Representable` — the finite double-precision numbers, `m · 2 ^ e` with 53 binary digits;
* `Number` — the numbers of JavaScript; `0` and `-0` are one number, as `===` has it;
* `nearest`, `ofRat` — rounding to nearest, of two to the even one;
* `nearest_eq_self` — what is representable is its own nearest number.
-/

namespace Double

/-! ## Numbers -/

/-- A finite double-precision number. -/
def Representable (q : ℚ) : Prop :=
  |q| < 2 ^ 1024 ∧ ∃ m e : ℤ, |m| < 2 ^ 53 ∧ -1074 ≤ e ∧ q = m * 2 ^ e

/-- A number of JavaScript. -/
inductive Number where
  | finite (q : ℚ) (h : Representable q)
  | infinite (negative : Bool)
  | nan

/-- The value of a finite number. -/
def Number.value : Number → Option ℚ
  | .finite q _ => some q
  | .infinite _ => none
  | .nan => none

theorem representable_intCast {m : ℤ} (h : |m| < 2 ^ 53) : Representable m := by
  refine ⟨?_, m, 0, h, by omega, by simp⟩
  have hm : (|m| : ℚ) < 2 ^ 53 := by exact_mod_cast h
  exact hm.trans (pow_lt_pow_right₀ (by norm_num) (by norm_num))

theorem Representable.neg {q : ℚ} (h : Representable q) : Representable (-q) := by
  obtain ⟨hq, m, e, hm, he, rfl⟩ := h
  exact ⟨by rwa [abs_neg], -m, e, by rwa [abs_neg], he, by push_cast; ring⟩

/-! ## Rounding -/

/-- The nearest integer, of two the even one. -/
@[grind =] def roundEven (q : ℚ) : ℤ :=
  if q - ⌊q⌋ < 1 / 2 then ⌊q⌋
  else if 1 / 2 < q - ⌊q⌋ then ⌊q⌋ + 1
  else if ⌊q⌋ % 2 = 0 then ⌊q⌋
  else ⌊q⌋ + 1

/-- The exponent of the last of the 53 digits of `q`. -/
@[grind =] def exponent (q : ℚ) : ℤ := max (Int.log 2 |q| - 52) (-1074)

/-- `q` rounded to 53 digits. -/
@[grind =] def nearest (q : ℚ) : ℚ := roundEven (q / 2 ^ exponent q) * 2 ^ exponent q

theorem roundEven_intCast (n : ℤ) : roundEven n = n := by
  simp [roundEven]

theorem roundEven_le {q : ℚ} {n : ℤ} (h : q ≤ n) : roundEven q ≤ n := by
  have hfloor : ⌊q⌋ ≤ n := Int.floor_le_iff.mpr (by linarith)
  rcases hfloor.lt_or_eq with hlt | heq
  · unfold roundEven
    split_ifs <;> omega
  · -- `q` is at least its floor `n`, so it is `n`
    have hq : q = n := le_antisymm h (heq ▸ Int.floor_le q)
    rw [hq, roundEven_intCast]

theorem le_roundEven {q : ℚ} {n : ℤ} (h : (n : ℚ) ≤ q) : n ≤ roundEven q := by
  have hfloor : n ≤ ⌊q⌋ := Int.le_floor.mpr h
  unfold roundEven
  split_ifs <;> omega

theorem roundEven_neg (q : ℚ) : roundEven (-q) = -roundEven q := by
  have hle : (⌊q⌋ : ℚ) ≤ q := Int.floor_le q
  have hlt : q < ⌊q⌋ + 1 := Int.lt_floor_add_one q
  rcases hle.lt_or_eq with hfrac | heq
  · have hfloor : ⌊-q⌋ = -⌊q⌋ - 1 := by
      rw [Int.floor_eq_iff]
      push_cast
      constructor <;> linarith
    have hdiff : -q - (⌊-q⌋ : ℚ) = 1 - (q - ⌊q⌋) := by
      rw [hfloor]
      push_cast
      ring
    unfold roundEven
    rw [hdiff, hfloor]
    split_ifs <;> first | omega | linarith
  · rw [← heq, roundEven_intCast, ← Int.cast_neg, roundEven_intCast]

theorem nearest_neg (q : ℚ) : nearest (-q) = -nearest q := by
  have hexp : exponent (-q) = exponent q := by
    unfold exponent
    rw [abs_neg]
  rw [nearest, nearest, hexp, neg_div, roundEven_neg]
  push_cast
  ring

/-- The 53 digits are enough. -/
theorem abs_div_exponent_lt (q : ℚ) : |q / 2 ^ exponent q| < 2 ^ 53 := by
  have hlog : |q| < (2 : ℚ) ^ (Int.log 2 |q| + 1) := by
    simpa using Int.lt_zpow_succ_log_self (b := 2) (by omega) |q|
  have hpow : (0 : ℚ) < 2 ^ exponent q := by positivity
  rw [abs_div, abs_of_pos hpow, div_lt_iff₀ hpow]
  calc |q| < (2 : ℚ) ^ (Int.log 2 |q| + 1) := hlog
    _ ≤ 2 ^ (53 + exponent q) := by
        apply zpow_le_zpow_right₀ (by norm_num)
        unfold exponent
        omega
    _ = 2 ^ 53 * 2 ^ exponent q := by rw [zpow_add₀ (by norm_num)]; norm_num

/-- What the rounding gives is representable unless it is too large. -/
theorem representable_nearest {q : ℚ} (h : |nearest q| < 2 ^ 1024) : Representable (nearest q) := by
  have habs := abs_lt.mp (abs_div_exponent_lt q)
  have hhigh : roundEven (q / 2 ^ exponent q) ≤ 2 ^ 53 :=
    roundEven_le (by push_cast; exact habs.2.le)
  have hlow : -2 ^ 53 ≤ roundEven (q / 2 ^ exponent q) :=
    le_roundEven (by push_cast; exact habs.1.le)
  have hexp : -1074 ≤ exponent q := le_max_right _ _
  refine ⟨h, ?_⟩
  by_cases hlt : |roundEven (q / 2 ^ exponent q)| < 2 ^ 53
  · exact ⟨_, _, hlt, hexp, rfl⟩
  · -- the 53 ones were rounded up to a one and zeros, of which one digit less is needed
    have hpow : (2 : ℚ) ^ (exponent q + 1) = 2 ^ exponent q * 2 := zpow_add_one₀ (by norm_num) _
    rcases le_abs'.mp (not_lt.mp hlt) with hneg | hpos
    · have heq : roundEven (q / 2 ^ exponent q) = -2 ^ 53 := le_antisymm hneg hlow
      refine ⟨-2 ^ 52, exponent q + 1, by norm_num, by omega, ?_⟩
      rw [nearest, heq, hpow]
      push_cast
      ring
    · have heq : roundEven (q / 2 ^ exponent q) = 2 ^ 53 := le_antisymm hhigh hpos
      refine ⟨2 ^ 52, exponent q + 1, by norm_num, by omega, ?_⟩
      rw [nearest, heq, hpow]
      push_cast
      ring

/-- The number that a rational is rounded to. -/
def ofRat (q : ℚ) : Number :=
  if h : |nearest q| < 2 ^ 1024 then .finite (nearest q) (representable_nearest h)
  else .infinite (decide (q < 0))

theorem exponent_le {m e : ℤ} (hm : |m| < 2 ^ 53) (he : -1074 ≤ e) (hne : (m : ℚ) * 2 ^ e ≠ 0) :
    exponent (m * 2 ^ e) ≤ e := by
  have hpos : 0 < |(m : ℚ) * 2 ^ e| := abs_pos.mpr hne
  have hlog : (2 : ℚ) ^ Int.log 2 |(m : ℚ) * 2 ^ e| ≤ |(m : ℚ) * 2 ^ e| := by
    simpa using Int.zpow_log_le_self (b := 2) (by omega) hpos
  have hbound : |(m : ℚ) * 2 ^ e| < 2 ^ (53 + e) := by
    have hmq : |(m : ℚ)| < 2 ^ 53 := by exact_mod_cast hm
    have hpow : (0 : ℚ) < 2 ^ e := by positivity
    rw [abs_mul, abs_of_pos hpow, zpow_add₀ (by norm_num)]
    exact mul_lt_mul_of_pos_right (by simpa using hmq) hpow
  have hlt : Int.log 2 |(m : ℚ) * 2 ^ e| < 53 + e :=
    (zpow_lt_zpow_iff_right₀ (by norm_num : (1 : ℚ) < 2)).mp (hlog.trans_lt hbound)
  unfold exponent
  omega

/-- **A representable number is its own nearest number.** -/
theorem nearest_eq_self {q : ℚ} (h : Representable q) : nearest q = q := by
  obtain ⟨-, m, e, hm, he, rfl⟩ := h
  by_cases hzero : (m : ℚ) * 2 ^ e = 0
  · simp [hzero, nearest, roundEven]
  have hle := exponent_le hm he hzero
  set E := exponent ((m : ℚ) * 2 ^ e) with hE
  have hpow : (2 : ℚ) ^ e = 2 ^ (e - E) * 2 ^ E := by
    rw [← zpow_add₀ (by norm_num), sub_add_cancel]
  have hint : (m : ℚ) * 2 ^ e / 2 ^ E = ((m * 2 ^ (e - E).toNat : ℤ) : ℚ) := by
    have hnat : (2 : ℚ) ^ (e - E) = 2 ^ (e - E).toNat := by
      rw [← zpow_natCast, Int.toNat_of_nonneg (by omega)]
    rw [hpow, ← mul_assoc, mul_div_assoc, div_self (by positivity), mul_one, hnat]
    push_cast
    rfl
  rw [nearest, ← hE, hint, roundEven_intCast, ← hint, div_mul_cancel₀ _ (by positivity)]

end Double
