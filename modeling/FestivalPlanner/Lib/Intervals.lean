import Mathlib.Data.List.Sort

/-!
# Intervals that overlap

Things that occupy an interval from `start` to `stop`, which two of them may touch but not share.
Nothing in this file knows what they are.

* `Apart` — one ends before the other starts;
* `neighbours` — what a list has side by side;
* `pairwise_apart_iff` — when they are sorted by start, it is enough to look at neighbours.
-/

namespace Intervals

open List

variable {α τ : Type*}

/-! ## Neighbours -/

/-- Every element with the one after it. -/
def neighbours (l : List α) : List (α × α) := l.zip (l.drop 1)

theorem forall_mem_neighbours {R : α → α → Prop} {l : List α} :
    (∀ p ∈ neighbours l, R p.1 p.2) ↔ l.IsChain R := by
  induction l with
  | nil => simp [neighbours]
  | cons x l ih =>
    cases l with
    | nil => simp [neighbours]
    | cons y l =>
      rw [isChain_cons_cons, ← ih]
      simp [neighbours]

/-! ## Apart -/

variable [LinearOrder τ] {start stop : α → τ}

/-- One of the two ends before the other starts. -/
def Apart (start stop : α → τ) (x y : α) : Prop := stop x ≤ start y ∨ stop y ≤ start x

theorem Apart.symm {x y : α} (h : Apart start stop x y) : Apart start stop y x := Or.symm h

/-- Of intervals in the order of their starts, every one ends before all the later ones start when
it ends before the next one. -/
theorem pairwise_of_isChain {l : List α} (hproper : ∀ x ∈ l, start x ≤ stop x)
    (hsorted : l.Pairwise (fun x y => start x ≤ start y))
    (hchain : l.IsChain (fun x y => stop x ≤ start y)) :
    l.Pairwise (fun x y => stop x ≤ start y) := by
  induction l with
  | nil => exact List.Pairwise.nil
  | cons x l ih =>
    obtain ⟨hx, hl⟩ := pairwise_cons.mp hsorted
    have htail := ih (fun y hy => hproper y (mem_cons_of_mem _ hy)) hl (isChain_of_isChain_cons hchain)
    refine pairwise_cons.mpr ⟨fun y hy => ?_, htail⟩
    cases l with
    | nil => cases hy
    | cons z l =>
      have hxz : stop x ≤ start z := (isChain_cons_cons.mp hchain).1
      rcases mem_cons.mp hy with rfl | hy
      · exact hxz
      · exact hxz.trans ((pairwise_cons.mp hl).1 y hy)

/-- **No two of the intervals overlap exactly when no two neighbours do in the order of the
starts.** -/
theorem pairwise_apart_iff {l : List α} (hproper : ∀ x ∈ l, start x < stop x) :
    l.Pairwise (Apart start stop) ↔
      (l.insertionSort (fun x y => start x ≤ start y)).IsChain (fun x y => stop x ≤ start y) := by
  set sorted := l.insertionSort (fun x y => start x ≤ start y) with hsortedEq
  have hperm : sorted.Perm l := perm_insertionSort _ l
  have hsorted : sorted.Pairwise (fun x y => start x ≤ start y) := pairwise_insertionSort _ l
  rw [← hperm.pairwise_iff fun h => Apart.symm h]
  constructor
  · intro h
    refine ((h.and hsorted).imp_of_mem ?_).isChain
    rintro x y - hy ⟨hapart, hle⟩
    rcases hapart with hapart | hapart
    · exact hapart
    · -- the later one cannot end before the earlier one starts
      have hlt := hproper y (hperm.mem_iff.mp hy)
      exact absurd (hlt.trans_le (hapart.trans hle)) (lt_irrefl _)
  · intro h
    have hle : ∀ x ∈ sorted, start x ≤ stop x := fun x hx =>
      (hproper x (hperm.mem_iff.mp hx)).le
    exact (pairwise_of_isChain hle hsorted h).imp Or.inl

end Intervals
