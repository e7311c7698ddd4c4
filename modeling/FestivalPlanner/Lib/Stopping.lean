import Mathlib.Data.List.Infix

/-!
# Loops that may stop

A loop over a list whose body may throw: what was done before stays done, and the elements after
the one that threw are left out.

* `loop` — the loop, which also says whether it came to its end;
* `through` — the elements up to the first that stops the loop, with that one;
* `loop_eq` — **the loop does what its body does to those elements, and ends when none stops it**;
* `through_eq_self_iff` — nothing is left out exactly when no element before the last stops it;
* `slices` — the pieces of a list that a loop of fixed stride takes; `flatten_slices`.
-/

namespace Stopping

open List

variable {α σ : Type*}

/-! ## The loop -/

/-- `for (const x of l) body(x)`; the body says whether it went well. -/
def loop (body : σ → α → σ × Bool) : List α → σ → σ × Bool
  | [], s => (s, true)
  | x :: l, s =>
    match body s x with
    | (s', true) => loop body l s'
    | (s', false) => (s', false)

/-- The elements up to the first with `p`, that one included. -/
@[grind =] def through (p : α → Bool) : List α → List α
  | [] => []
  | x :: l => if p x then [x] else x :: through p l

/-! ## What the loop does -/

section
variable {p : α → Bool} {l : List α}

theorem loop_eq (body : σ → α → σ × Bool) (act : σ → α → σ) (p : α → Bool)
    (h : ∀ s x, body s x = (act s x, !p x)) (l : List α) (s : σ) :
    loop body l s = ((through p l).foldl act s, !l.any p) := by
  induction l generalizing s with
  | nil => rfl
  | cons x l ih =>
    rw [loop, h, through]
    cases hp : p x with
    | true => simp [hp]
    | false => simp [hp, ih]

theorem prefix_through (p : α → Bool) (l : List α) : through p l <+: l := by
  induction l with
  | nil => exact prefix_rfl
  | cons x l ih =>
    rw [through]
    split
    · exact ⟨l, rfl⟩
    · exact (prefix_cons_inj x).mpr ih

theorem mem_of_mem_through {x : α} (h : x ∈ through p l) : x ∈ l :=
  (prefix_through p l).subset h

theorem through_of_forall (h : ∀ x ∈ l, p x = false) : through p l = l := by
  induction l with
  | nil => rfl
  | cons x l ih =>
    obtain ⟨hx, hl⟩ := forall_mem_cons.mp h
    rw [through, if_neg (by simp [hx]), ih hl]

/-- Nothing is left out when only the last element may stop the loop. -/
theorem through_eq_self_iff : through p l = l ↔ ∀ x ∈ l.dropLast, p x = false := by
  induction l with
  | nil => simp [through]
  | cons x l ih =>
    cases l with
    | nil => simp [through]
    | cons y l =>
      rw [through, dropLast_cons_cons, forall_mem_cons, ← ih]
      cases hp : p x with
      | true => simp
      | false => simp

/-- What is left out is missed in the number of the elements. -/
theorem through_eq_self_of_length (h : (through p l).length = l.length) : through p l = l :=
  (prefix_through p l).eq_of_length h

/-- Elements that cannot stop the loop may be left out before. -/
theorem filter_through (q : α → Bool) (p : α → Bool) (l : List α) :
    (through (fun x => q x && p x) l).filter q = through p (l.filter q) := by
  induction l with
  | nil => rfl
  | cons x l ih =>
    rw [through, filter_cons]
    cases hq : q x with
    | false => simp [hq, ih]
    | true =>
      rw [if_pos rfl, through]
      cases hp : p x with
      | true => simp [hq]
      | false => simp [hq, ih]

theorem through_congr {p q : α → Bool} (h : ∀ x ∈ l, p x = q x) : through p l = through q l := by
  induction l with
  | nil => rfl
  | cons x l ih =>
    obtain ⟨hx, hl⟩ := forall_mem_cons.mp h
    rw [through, through, hx, ih hl]

theorem through_map {β : Type*} (f : α → β) (p : β → Bool) (l : List α) :
    through p (l.map f) = (through (fun x => p (f x)) l).map f := by
  induction l with
  | nil => rfl
  | cons x l ih =>
    rw [map_cons, through, through, ih]
    split_ifs <;> rfl

/-- A list that every step appends to. -/
theorem foldl_append {β : Type*} (get : σ → List β) {act : σ → α → σ} {f : α → List β}
    (h : ∀ s x, get (act s x) = get s ++ f x) (l : List α) (s : σ) :
    get (l.foldl act s) = get s ++ l.flatMap f := by
  induction l generalizing s with
  | nil => simp
  | cons x l ih => rw [foldl_cons, ih, h, flatMap_cons, append_assoc]

/-- A list that the steps with `q` append an element to. -/
theorem foldl_append_if {β : Type*} (get : σ → List β) {act : σ → α → σ} {q : α → Bool}
    {f : α → β} (h : ∀ s x, get (act s x) = get s ++ if q x then [f x] else []) (l : List α)
    (s : σ) : get (l.foldl act s) = get s ++ (l.filter q).map f := by
  rw [foldl_append get h]
  congr 1
  induction l with
  | nil => rfl
  | cons x l ih =>
    rw [flatMap_cons, ih, filter_cons]
    split_ifs <;> rfl

end

/-! ## Slices -/

/-- The slices of `n` elements, from an index that is moved by `n` as often as the fuel says. -/
def slicesFrom (n : ℕ) : ℕ → List α → List (List α)
  | 0, _ => []
  | _ + 1, [] => []
  | fuel + 1, x :: l => (x :: l).take n :: slicesFrom n fuel ((x :: l).drop n)

/-- `for (let i = 0; i < l.length; i += n) l.slice(i, i + n)` -/
def slices (n : ℕ) (l : List α) : List (List α) := slicesFrom n l.length l

theorem flatten_slicesFrom {n : ℕ} (hn : 0 < n) (fuel : ℕ) (l : List α) (h : l.length ≤ fuel) :
    (slicesFrom n fuel l).flatten = l := by
  induction fuel generalizing l with
  | zero =>
    rw [length_eq_zero_iff.mp (Nat.le_zero.mp h)]
    rfl
  | succ fuel ih =>
    cases l with
    | nil => rfl
    | cons x l =>
      have hdrop : ((x :: l).drop n).length ≤ fuel := by
        rw [length_drop]
        rw [length_cons] at h ⊢
        omega
      rw [slicesFrom, flatten_cons, ih _ hdrop, take_append_drop]

/-- The slices are the list. -/
theorem flatten_slices {n : ℕ} (hn : 0 < n) (l : List α) : (slices n l).flatten = l :=
  flatten_slicesFrom hn l.length l le_rfl

theorem slicesFrom_map {β : Type*} (f : α → β) (n fuel : ℕ) (l : List α) :
    slicesFrom n fuel (l.map f) = (slicesFrom n fuel l).map (List.map f) := by
  induction fuel generalizing l with
  | zero => rfl
  | succ fuel ih =>
    cases l with
    | nil => rfl
    | cons x l =>
      rw [map_cons, slicesFrom, slicesFrom, map_cons, ← ih, ← map_cons,
        map_take, map_drop]

theorem slices_map {β : Type*} (f : α → β) (n : ℕ) (l : List α) :
    slices n (l.map f) = (slices n l).map (List.map f) := by
  rw [slices, length_map, slicesFrom_map, slices]

theorem ne_nil_of_mem_slicesFrom {n : ℕ} (hn : 0 < n) {fuel : ℕ} {l c : List α}
    (h : c ∈ slicesFrom n fuel l) : c ≠ [] := by
  induction fuel generalizing l with
  | zero => cases h
  | succ fuel ih =>
    cases l with
    | nil => cases h
    | cons x l =>
      rcases mem_cons.mp h with rfl | h
      · rw [ne_eq, take_eq_nil_iff]
        simp [hn.ne']
      · exact ih h

/-- No slice is empty. -/
theorem ne_nil_of_mem_slices {n : ℕ} (hn : 0 < n) {l c : List α} (h : c ∈ slices n l) : c ≠ [] :=
  ne_nil_of_mem_slicesFrom hn h

end Stopping
