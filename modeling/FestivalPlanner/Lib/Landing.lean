import Mathlib.Data.List.Basic
import Mathlib.Order.Lattice

/-!
# Operations that land in any order

Operations on the cells of a medium are issued in rounds, one operation a cell and round, and each
of them takes effect at some time after that.  Nothing in this file knows what the cells hold.

* `Medium` — what an operation does to its cell, and what it leaves alone;
* `Covered` — every cell has what the last round writes to it, or that operation is still to land;
* `Timely` — an operation of an older round lands while that of the last round is still to land;
* `Covered.issue`, `Covered.land` — a new round, and a timely operation that lands;
* `Covered.holds` — when all have landed, the cells have what the last round writes.
-/

namespace Landing

open List

/-- A medium `σ` with cells `κ`, and operations `ο` that each write one of them. -/
structure Medium (σ ο κ : Type*) where
  cell : ο → κ
  run : σ → ο → σ
  holds : σ → ο → Prop
  holds_run : ∀ s o, holds (run s o) o
  holds_run_of_ne : ∀ {s o p}, cell o ≠ cell p → holds s p → holds (run s o) p

/-- An operation of a round. -/
structure Issued (ο : Type*) where
  round : ℕ
  op : ο
  deriving DecidableEq

section
variable {σ ο κ : Type*} (m : Medium σ ο κ)

/-- After round `n`, which writes `wanted`, with the operations `pending` still to land. -/
structure Covered (s : σ) (pending : List (Issued ο)) (n : ℕ) (wanted : List ο) : Prop where
  round_le : ∀ w ∈ pending, w.round ≤ n
  mem_wanted : ∀ w ∈ pending, w.round = n → w.op ∈ wanted
  reached : ∀ o ∈ wanted, m.holds s o ∨ ⟨n, o⟩ ∈ pending

/-- The operation writes what the last round does, or the last round is still to write its cell. -/
def Timely (pending : List (Issued ο)) (n : ℕ) (wanted : List ο) (w : Issued ο) : Prop :=
  w.op ∈ wanted ∨ ∃ u ∈ pending, u.round = n ∧ m.cell u.op = m.cell w.op

instance Timely.decidable [DecidableEq ο] [DecidableEq κ] (pending : List (Issued ο)) (n : ℕ)
    (wanted : List ο) (w : Issued ο) : Decidable (Timely m pending n wanted w) :=
  inferInstanceAs (Decidable (_ ∨ _))

variable {m} {s : σ} {pending next : List (Issued ο)} {n : ℕ} {wanted : List ο}

/-- When all have landed, every cell has what the last round writes. -/
theorem Covered.holds (h : Covered m s [] n wanted) : ∀ o ∈ wanted, m.holds s o :=
  fun o ho => (h.reached o ho).resolve_right not_mem_nil

/-- The order of what is to land does not matter. -/
theorem Covered.of_mem_iff (h : Covered m s pending n wanted)
    (hnext : ∀ w, w ∈ next ↔ w ∈ pending) : Covered m s next n wanted where
  round_le := fun w hw => h.round_le w ((hnext w).mp hw)
  mem_wanted := fun w hw => h.mem_wanted w ((hnext w).mp hw)
  reached := fun o ho => (h.reached o ho).imp_right (hnext _).mpr

/-- A new round is issued. -/
theorem Covered.issue (h : Covered m s pending n wanted) (new : List ο) :
    Covered m s (pending ++ new.map (Issued.mk (n + 1))) (n + 1) new where
  round_le := by
    intro w hw
    rcases mem_append.mp hw with hw | hw
    · exact (h.round_le w hw).trans (Nat.le_succ n)
    · obtain ⟨o, -, rfl⟩ := mem_map.mp hw
      exact le_refl _
  mem_wanted := by
    intro w hw hround
    rcases mem_append.mp hw with hw | hw
    · have := h.round_le w hw
      omega
    · obtain ⟨o, ho, rfl⟩ := mem_map.mp hw
      exact ho
  reached := fun o ho => .inr (mem_append_right _ (mem_map_of_mem ho))

/-- A timely operation lands; the last round writes every cell once. -/
theorem Covered.land (h : Covered m s pending n wanted) {w : Issued ο}
    (hw : Timely m pending n wanted w)
    (hcell : ∀ o ∈ wanted, ∀ p ∈ wanted, m.cell o = m.cell p → o = p)
    (hsub : ∀ u ∈ next, u ∈ pending) (hkeep : ∀ u ∈ pending, u ≠ w → u ∈ next) :
    Covered m (m.run s w.op) next n wanted where
  round_le := fun u hu => h.round_le u (hsub u hu)
  mem_wanted := fun u hu => h.mem_wanted u (hsub u hu)
  reached := by
    intro o ho
    by_cases hop : w.op = o
    · exact .inl (hop ▸ m.holds_run s w.op)
    have hne : (⟨n, o⟩ : Issued ο) ≠ w := fun heq => hop (congrArg Issued.op heq).symm
    by_cases hc : m.cell w.op = m.cell o
    · -- an older operation on the cell: the one of the last round is still to land
      rcases hw with hw | ⟨u, hu, hround, hcu⟩
      · exact absurd (hcell _ hw _ ho hc) hop
      · have huo : u.op = o := hcell _ (h.mem_wanted u hu hround) _ ho (hcu.trans hc)
        have hpending : (⟨n, o⟩ : Issued ο) ∈ pending := by
          rw [← hround, ← huo]
          exact hu
        exact .inr (hkeep _ hpending hne)
    · exact (h.reached o ho).imp (m.holds_run_of_ne hc) fun hpending => hkeep _ hpending hne

end

end Landing
