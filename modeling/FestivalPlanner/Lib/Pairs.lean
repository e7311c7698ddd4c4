import Mathlib.Data.List.Nodup
import Mathlib.Data.List.Count

/-!
# Pairs of a list, each found once

Two nested loops over a list visit each pair of its positions once; a set of keys that were
seen keeps what is found from being found again.

* `pairs` — the pairs of a list, in the order of the loops;
* `firstOfKey` — the items that pass a test, without those whose key was seen;
* `countP_firstOfKey` — where no two items share a key, an item is found once if it passes.
-/

namespace Pairs

open List

variable {α κ : Type*}

/-! ## Pairs -/

/-- The pairs of a list, the item that comes first on the left. -/
def pairs : List α → List (α × α)
  | [] => []
  | a :: as => as.map (fun b => (a, b)) ++ pairs as

variable {l xs : List α} {test : α → Bool} {key : α → κ} {seen : List κ} {x : α}

theorem mem_of_mem_pairs {p : α × α} (h : p ∈ pairs l) : p.1 ∈ l ∧ p.2 ∈ l := by
  induction l with
  | nil => cases h
  | cons a as ih =>
    rw [pairs, mem_append, mem_map] at h
    rcases h with ⟨b, hb, rfl⟩ | h
    · exact ⟨mem_cons_self, mem_cons_of_mem _ hb⟩
    · exact ⟨mem_cons_of_mem _ (ih h).1, mem_cons_of_mem _ (ih h).2⟩

/-- Two different members are a pair, in one order or the other. -/
theorem mem_pairs {a b : α} (ha : a ∈ l) (hb : b ∈ l) (hne : a ≠ b) :
    (a, b) ∈ pairs l ∨ (b, a) ∈ pairs l := by
  induction l with
  | nil => cases ha
  | cons x xs ih =>
    simp only [pairs, mem_append, mem_map, Prod.mk.injEq]
    rcases mem_cons.mp ha with rfl | ha'
    · rcases mem_cons.mp hb with rfl | hb'
      · exact absurd rfl hne
      · exact .inl (.inl ⟨b, hb', rfl, rfl⟩)
    · rcases mem_cons.mp hb with rfl | hb'
      · exact .inr (.inl ⟨a, ha', rfl, rfl⟩)
      · exact (ih ha' hb').imp Or.inr Or.inr

/-! ## Found once -/

variable [DecidableEq κ]

/-- The items that pass the test, in order, without those whose key was seen before. -/
def firstOfKey (test : α → Bool) (key : α → κ) : List κ → List α → List α
  | _, [] => []
  | seen, x :: xs =>
      if test x then
        if key x ∈ seen then firstOfKey test key seen xs
        else x :: firstOfKey test key (key x :: seen) xs
      else firstOfKey test key seen xs

theorem mem_of_mem_firstOfKey (h : x ∈ firstOfKey test key seen xs) : x ∈ xs := by
  induction xs generalizing seen with
  | nil => exact h
  | cons y ys ih =>
    rw [firstOfKey] at h
    split at h
    · split at h
      · exact mem_cons_of_mem _ (ih h)
      · rcases mem_cons.mp h with rfl | h
        · exact mem_cons_self
        · exact mem_cons_of_mem _ (ih h)
    · exact mem_cons_of_mem _ (ih h)

/-- Where no two items share a key, every item that passes is found. -/
theorem firstOfKey_eq_filter (hkeys : (xs.map key).Nodup) (hseen : ∀ x ∈ xs, key x ∉ seen) :
    firstOfKey test key seen xs = xs.filter test := by
  induction xs generalizing seen with
  | nil => rfl
  | cons x xs ih =>
    rw [map_cons, nodup_cons] at hkeys
    rw [forall_mem_cons] at hseen
    rw [firstOfKey]
    by_cases ht : test x = true
    · rw [if_pos ht, if_neg hseen.1, filter_cons_of_pos ht]
      congr 1
      apply ih hkeys.2
      intro y hy hmem
      rcases mem_cons.mp hmem with heq | hmem
      · exact hkeys.1 (heq ▸ mem_map_of_mem hy)
      · exact hseen.2 y hy hmem
    · rw [if_neg ht, filter_cons_of_neg ht]
      exact ih hkeys.2 hseen.2

/-- Where no two items share a key, what holds of the items of one key only is found once if
its item is there and passes. -/
theorem countP_firstOfKey {q : α → Bool} (hkeys : (xs.map key).Nodup) (hx : x ∈ xs)
    (hq : q x = true) (hkey : ∀ y ∈ xs, q y = true → key y = key x) :
    (firstOfKey test key [] xs).countP q = if test x then 1 else 0 := by
  classical
  have honly : ∀ y ∈ xs, q y = true → y = x := fun y hy hqy =>
    inj_on_of_nodup_map hkeys hy hx (hkey y hy hqy)
  rw [firstOfKey_eq_filter hkeys (fun _ _ => not_mem_nil)]
  have hcongr : (xs.filter test).countP q = (xs.filter test).count x := by
    apply countP_congr
    intro y hy
    have hmem := (mem_filter.mp hy).1
    rw [beq_iff_eq]
    exact ⟨honly y hmem, fun h => h ▸ hq⟩
  have hnodup : (xs.filter test).Nodup := (List.Nodup.of_map _ hkeys).filter _
  rw [hcongr]
  split
  · rename_i ht
    exact count_eq_one_of_mem hnodup (mem_filter.mpr ⟨hx, ht⟩)
  · rename_i ht
    exact count_eq_zero.mpr fun h => ht (mem_filter.mp h).2

end Pairs
