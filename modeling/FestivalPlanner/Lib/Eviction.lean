import Mathlib.Data.List.Basic

/-!
# Evicting the first entries of a sorted list

What is over a limit is taken from the front of a list that is sorted by a strict order, the
oldest first.  The elements and the order are arbitrary.

* `length_filter_evicted_le` — what is not evicted is within the limit;
* `mem_evicted_iff` — an entry is evicted exactly when as many come after it as the limit allows.
-/

namespace Eviction

open List

variable {α : Type*}

/-- What is over the limit `m`. -/
def evicted (m : ℕ) (l : List α) : List α := l.take (l.length - m)

theorem length_filter_evicted_le [DecidableEq α] (m : ℕ) (l : List α) :
    (l.filter (fun x => decide (x ∉ evicted m l))).length ≤ m := by
  have hnil : (l.take (l.length - m)).filter (fun x => decide (x ∉ evicted m l)) = [] := by
    rw [filter_eq_nil_iff]
    intro x hx hnot
    exact of_decide_eq_true hnot hx
  have hsplit : l.filter (fun x => decide (x ∉ evicted m l)) =
      (l.drop (l.length - m)).filter (fun x => decide (x ∉ evicted m l)) := by
    rw [← nil_append ((l.drop _).filter _), ← hnil, ← filter_append,
      take_append_drop]
  have hle := length_filter_le (fun x => decide (x ∉ evicted m l)) (l.drop (l.length - m))
  rw [length_drop] at hle
  rw [hsplit]
  omega

/-- The entries after `x` in the order `r`. -/
def after (r : α → α → Bool) (x : α) (l : List α) : ℕ := l.countP (r x)

theorem mem_evicted_iff {r : α → α → Bool} (hasymm : ∀ x y, r x y = true → r y x = false)
    {m : ℕ} {l : List α} (hl : l.Pairwise (fun x y => r x y = true)) {x : α} (hx : x ∈ l) :
    x ∈ evicted m l ↔ m ≤ after r x l := by
  induction l with
  | nil => cases hx
  | cons y l ih =>
    obtain ⟨hy, hl⟩ := pairwise_cons.mp hl
    have hself : r y y = false := by
      by_contra hyy
      have := hasymm y y (by simpa using hyy)
      simp [this] at hyy
    unfold evicted after at ih ⊢
    rcases mem_cons.mp hx with rfl | hxl
    · have hcount : (x :: l).countP (r x) = l.length := by
        rw [countP_cons_of_neg (by simp [hself]), countP_eq_length]
        exact hy
      rw [hcount, length_cons]
      constructor
      · intro hmem
        by_contra hlt
        rw [Nat.sub_eq_zero_of_le (by omega)] at hmem
        cases hmem
      · intro hle
        rw [Nat.succ_sub hle]
        exact mem_cons_self
    · have hne : r x y = false := hasymm y x (hy x hxl)
      rw [countP_cons_of_neg (by simp [hne]), length_cons]
      have hbound : l.countP (r x) ≤ l.length := countP_le_length
      by_cases hle : m ≤ l.length
      · rw [Nat.succ_sub hle, take_succ_cons, mem_cons]
        constructor
        · rintro (rfl | hmem)
          · rw [hy x hxl] at hne
            cases hne
          · exact (ih hl hxl).mp hmem
        · exact fun hcount => .inr ((ih hl hxl).mpr hcount)
      · rw [Nat.sub_eq_zero_of_le (by omega)]
        exact iff_of_false not_mem_nil (by omega)

end Eviction
