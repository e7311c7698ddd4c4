import Mathlib.Algebra.BigOperators.Group.List.Basic
import Mathlib.Algebra.Order.Ring.Int
import Mathlib.Data.List.Nodup
import Mathlib.Tactic.Abel
import Mathlib.Tactic.Ring

/-!
# Positions in a ledger

A position says how much everyone is owed, or owes when it is negative.  Who the
people are and what the amounts are is arbitrary.

* `total` — the sum of the positions of a list of people;
* `Transfer`, `net` — payments, and what a list of payments does to a position;
* `spread` — an amount split into a base share each and one unit more for the first
  `remainder` people; `total_spread_div` — the shares add up to the amount.
-/

namespace Positions

open List

variable {ι M : Type*} [AddCommGroup M]

/-! ## Totals -/

/-- The sum of the positions of these people. -/
def total (us : List ι) (f : ι → M) : M := (us.map f).sum

@[simp] theorem total_nil (f : ι → M) : total [] f = 0 := rfl

theorem total_cons (u : ι) (us : List ι) (f : ι → M) :
    total (u :: us) f = f u + total us f := by
  simp [total]

theorem total_congr {us : List ι} {f g : ι → M} (h : ∀ u ∈ us, f u = g u) :
    total us f = total us g := by
  unfold total
  rw [map_congr_left h]

theorem total_zero (us : List ι) : total us (fun _ => (0 : M)) = 0 := by
  induction us with
  | nil => rfl
  | cons u us ih => rw [total_cons, ih, add_zero]

theorem total_add (us : List ι) (f g : ι → M) :
    total us (fun u => f u + g u) = total us f + total us g := by
  induction us with
  | nil => simp
  | cons u us ih =>
    rw [total_cons, total_cons, total_cons, ih]
    abel

theorem total_sub (us : List ι) (f g : ι → M) :
    total us (fun u => f u - g u) = total us f - total us g := by
  induction us with
  | nil => simp
  | cons u us ih =>
    rw [total_cons, total_cons, total_cons, ih]
    abel

/-- The total of a sum of positions. -/
theorem total_sum {β : Type*} (us : List ι) (bs : List β) (f : β → ι → M) :
    total us (fun u => (bs.map (fun b => f b u)).sum) = (bs.map (fun b => total us (f b))).sum := by
  induction bs with
  | nil => simpa using total_zero us
  | cons b bs ih =>
    simp only [map_cons, sum_cons]
    rw [total_add, ih]

variable [DecidableEq ι]

theorem total_single_of_notMem {us : List ι} {a : ι} (h : a ∉ us) (x : M) :
    total us (fun u => if a = u then x else 0) = 0 := by
  rw [total_congr (g := fun _ => 0) fun u hu => if_neg fun (heq : a = u) => h (heq ▸ hu)]
  exact total_zero us

/-- One person's amount counts once among different people. -/
theorem total_single {us : List ι} (hn : us.Nodup) (a : ι) (x : M) :
    total us (fun u => if a = u then x else 0) = if a ∈ us then x else 0 := by
  induction us with
  | nil => simp
  | cons u us ih =>
    obtain ⟨hu, hn⟩ := nodup_cons.mp hn
    rw [total_cons]
    by_cases h : a = u
    · subst h
      rw [if_pos rfl, total_single_of_notMem hu, add_zero, if_pos (mem_cons_self ..)]
    · rw [if_neg h, zero_add, ih hn]
      simp [h]

/-! ## Payments -/

/-- A payment. -/
structure Transfer (ι M : Type*) where
  source : ι
  target : ι
  amount : M

/-- Who pays is owed more, who is paid is owed less. -/
@[grind =] def Transfer.effect (t : Transfer ι M) (u : ι) : M :=
  (if t.source = u then t.amount else 0) - if t.target = u then t.amount else 0

/-- What a list of payments does to a position. -/
def net (ts : List (Transfer ι M)) (u : ι) : M := (ts.map (fun t => t.effect u)).sum

@[simp] theorem net_nil (u : ι) : net ([] : List (Transfer ι M)) u = 0 := rfl

theorem net_cons (t : Transfer ι M) (ts : List (Transfer ι M)) (u : ι) :
    net (t :: ts) u = t.effect u + net ts u := by
  simp [net]

/-- The order of the payments does not matter. -/
theorem net_perm {ts ts' : List (Transfer ι M)} (h : ts.Perm ts') (u : ι) :
    net ts u = net ts' u :=
  (h.map _).sum_eq

theorem Transfer.effect_of_ne {t : Transfer ι M} {u : ι} (hs : t.source ≠ u)
    (ht : t.target ≠ u) : t.effect u = 0 := by
  rw [Transfer.effect, if_neg hs, if_neg ht, sub_zero]

theorem Transfer.effect_source {t : Transfer ι M} (h : t.target ≠ t.source) :
    t.effect t.source = t.amount := by
  rw [Transfer.effect, if_pos rfl, if_neg h, sub_zero]

theorem Transfer.effect_target {t : Transfer ι M} (h : t.source ≠ t.target) :
    t.effect t.target = -t.amount := by
  rw [Transfer.effect, if_neg h, if_pos rfl, zero_sub]

/-- Payments do not touch who takes no part in them. -/
theorem net_of_notMem {ts : List (Transfer ι M)} {u : ι}
    (h : ∀ t ∈ ts, t.source ≠ u ∧ t.target ≠ u) : net ts u = 0 := by
  induction ts with
  | nil => rfl
  | cons t ts ih =>
    obtain ⟨hs, ht⟩ := h t (mem_cons_self ..)
    rw [net_cons, Transfer.effect_of_ne hs ht, zero_add]
    exact ih fun t' ht' => h t' (mem_cons_of_mem _ ht')

/-! ## Shares -/

/-- What one person owes when each of a list of people owes the base, and the first
`remainder` of them one unit more. -/
def spread (base : ℤ) : ℤ → List ι → ι → ℤ
  | _, [], _ => 0
  | remainder, v :: vs, u =>
      (if v = u then base + (if 0 < remainder then 1 else 0) else 0) +
        spread base (if 0 < remainder then remainder - 1 else remainder) vs u

/-- The shares add up to the bases and the units. -/
theorem total_spread {us vs : List ι} (hn : us.Nodup) (hvs : ∀ v ∈ vs, v ∈ us) (base : ℤ)
    {remainder : ℤ} (h0 : 0 ≤ remainder) :
    total us (spread base remainder vs) = base * vs.length + min remainder vs.length := by
  induction vs generalizing remainder with
  | nil =>
    have hnil : total us (spread base remainder []) = 0 := total_zero us
    simpa [hnil] using h0
  | cons v vs ih =>
    have hv : v ∈ us := hvs v (mem_cons_self ..)
    have hrest : ∀ v ∈ vs, v ∈ us := fun w hw => hvs w (mem_cons_of_mem _ hw)
    have hstep : total us (spread base remainder (v :: vs)) =
        (base + if 0 < remainder then 1 else 0) +
          total us (spread base (if 0 < remainder then remainder - 1 else remainder) vs) := by
      show total us (fun u => (if v = u then base + (if 0 < remainder then 1 else 0) else 0) +
        spread base (if 0 < remainder then remainder - 1 else remainder) vs u) = _
      rw [total_add, total_single hn, if_pos hv]
    rw [hstep, length_cons]
    push_cast
    by_cases hr : 0 < remainder
    · rw [if_pos hr, if_pos hr, ih hrest (by omega), mul_add, mul_one]
      omega
    · rw [if_neg hr, if_neg hr, ih hrest h0, mul_add, mul_one]
      omega

/-- **An amount split evenly is split completely**: the floor of the quotient each, and
the remainder one unit each to the first. -/
theorem total_spread_div {us vs : List ι} (hn : us.Nodup) (hvs : ∀ v ∈ vs, v ∈ us)
    (hne : vs ≠ []) (amount : ℤ) :
    total us (spread (amount / vs.length) (amount - amount / vs.length * vs.length) vs) =
      amount := by
  have hpos : (0 : ℤ) < vs.length := by
    exact_mod_cast length_pos_iff.mpr hne
  have hmod : amount - amount / vs.length * vs.length = amount % vs.length := by
    rw [Int.emod_def]
    ring
  have hlt := Int.emod_lt_of_pos amount hpos
  rw [total_spread hn hvs _ (hmod ▸ Int.emod_nonneg amount hpos.ne'), hmod,
    min_eq_left hlt.le, ← hmod]
  ring

end Positions
