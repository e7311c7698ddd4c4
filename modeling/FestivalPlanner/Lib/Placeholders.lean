import Mathlib.Data.List.Range

/-!
# Numbered placeholders

The numbers that a statement with several rows gives to its values: one after the other through
all rows.  Nothing in this file knows what the values are.

* `numbersFrom` — the numbers of each row, from a first number on;
* `flatten_numbersFrom` — all numbers are consecutive, one for each value;
* `numbersFrom_of_width` — rows of one width begin at multiples of it.
-/

namespace Placeholders

open List

variable {α : Type*}

/-- The numbers of the values of each row. -/
def numbersFrom (start : ℕ) : List (List α) → List (List ℕ)
  | [] => []
  | row :: rows => List.range' start row.length :: numbersFrom (start + row.length) rows

/-- Through all rows, the numbers are consecutive. -/
theorem flatten_numbersFrom (start : ℕ) (rows : List (List α)) :
    (numbersFrom start rows).flatten = List.range' start rows.flatten.length := by
  induction rows generalizing start with
  | nil => rfl
  | cons row rows ih =>
    rw [numbersFrom, flatten_cons, ih, flatten_cons, length_append,
      range'_append_1]

/-- Rows of one width: the number of a value is given by its row and its column. -/
theorem numbersFrom_of_width {w : ℕ} {rows : List (List α)}
    (h : ∀ row ∈ rows, row.length = w) (start : ℕ) :
    numbersFrom start rows = rows.mapIdx (fun i _ => List.range' (start + i * w) w) := by
  induction rows generalizing start with
  | nil => rfl
  | cons row rows ih =>
    obtain ⟨hrow, hrows⟩ := forall_mem_cons.mp h
    rw [numbersFrom, mapIdx_cons, hrow, ih hrows, Nat.zero_mul, Nat.add_zero]
    congr 1
    refine congrArg (fun f => List.mapIdx f rows) ?_
    funext i _
    rw [Nat.add_one_mul]
    congr 1
    omega

/-- The number of values of rows of one width. -/
theorem length_flatten_of_width {w : ℕ} {rows : List (List α)}
    (h : ∀ row ∈ rows, row.length = w) : rows.flatten.length = rows.length * w := by
  induction rows with
  | nil => simp
  | cons row rows ih =>
    obtain ⟨hrow, hrows⟩ := forall_mem_cons.mp h
    rw [flatten_cons, length_append, hrow, ih hrows, length_cons, Nat.add_one_mul,
      Nat.add_comm]

end Placeholders
