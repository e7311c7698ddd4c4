import Mathlib.Data.List.Basic

/-!
# What is in flight

The calls, requests or messages that are under way, as a list: a new one comes last, one that moves
on is put back in its place, and one that ends leaves the list.  Nothing in this file knows what
they are.

* `mem_eraseIdx_or`, `mem_set_or` — only the one that ends is gone, and only the one that moves on
  is another;
* `forall_mem_set`, `forall_mem_append_singleton` — what holds of all of them still does;
* `getElem?_append_singleton_cases` — a new one is the last;
* `map_set_eq` — what a step does not change of the one that moves on is not changed at all;
* `eq_take_cons_drop` — the ones before it, it, and the ones after it;
* `countP_set` — how many have a property changes with the one that moves on;
* `proceed` — one that moves on or ends;
* `mem_flatMap_proceed` — what they have between them then.
-/

namespace InFlight

open List

variable {α β : Type*} {l : List α} {i : ℕ} {x y : α}

theorem mem_eraseIdx_or (hx : l[i]? = some x) (hy : y ∈ l) : y = x ∨ y ∈ l.eraseIdx i := by
  obtain ⟨j, hj⟩ := mem_iff_getElem?.mp hy
  by_cases hij : j = i
  · subst hij
    exact .inl (Option.some.inj (hj.symm.trans hx))
  · exact .inr (mem_eraseIdx_iff_getElem?.mpr ⟨j, hij, hj⟩)

theorem mem_set_or (hx : l[i]? = some x) (hy : y ∈ l) (z : α) : y = x ∨ y ∈ l.set i z := by
  obtain ⟨j, hj⟩ := mem_iff_getElem?.mp hy
  by_cases hij : i = j
  · subst hij
    exact .inl (Option.some.inj (hj.symm.trans hx))
  · exact .inr (mem_iff_getElem?.mpr ⟨j, by rw [getElem?_set_ne hij, hj]⟩)

theorem mem_set_self (hx : l[i]? = some x) (z : α) : z ∈ l.set i z := by
  obtain ⟨hlt, -⟩ := List.getElem?_eq_some_iff.mp hx
  exact mem_iff_getElem?.mpr ⟨i, getElem?_set_self hlt⟩

theorem forall_mem_set {P : α → Prop} (hl : ∀ z ∈ l, P z) (hy : P y) : ∀ z ∈ l.set i y, P z := by
  intro z hz
  rcases mem_or_eq_of_mem_set hz with hz | rfl
  · exact hl z hz
  · exact hy

theorem forall_mem_append_singleton {P : α → Prop} (hl : ∀ z ∈ l, P z) (hy : P y) :
    ∀ z ∈ l ++ [y], P z := by
  intro z hz
  rcases mem_append.mp hz with hz | hz
  · exact hl z hz
  · obtain rfl := mem_singleton.mp hz
    exact hy

theorem getElem?_append_of_eq_some (hx : l[i]? = some x) (m : List α) :
    (l ++ m)[i]? = some x := by
  obtain ⟨hlt, -⟩ := List.getElem?_eq_some_iff.mp hx
  rw [getElem?_append_left hlt, hx]

theorem getElem?_append_singleton_cases (h : (l ++ [y])[i]? = some x) :
    l[i]? = some x ∨ i = l.length ∧ x = y := by
  obtain ⟨hlt, -⟩ := List.getElem?_eq_some_iff.mp h
  rw [length_append, length_singleton] at hlt
  rw [getElem?_append] at h
  split at h
  · exact .inl h
  · exact .inr ⟨by omega, mem_singleton.mp (mem_of_getElem? h)⟩

/-- One of them, when one more has come. -/
theorem getElem?_append_singleton (l : List α) (y : α) (i : ℕ) :
    (l ++ [y])[i]? = if i = l.length then some y else l[i]? := by
  split_ifs with hi
  · rw [hi, getElem?_concat_length]
  · rw [getElem?_append]
    split
    · rfl
    · rw [getElem?_eq_none (by simp; omega), getElem?_eq_none (by omega)]

/-- One of them, when one has moved on. -/
theorem getElem?_set_cases {j : ℕ} {z : α} (h : (l.set i y)[j]? = some z) :
    j = i ∧ z = y ∨ j ≠ i ∧ l[j]? = some z := by
  by_cases hij : i = j
  · subst hij
    rw [getElem?_set_self' ] at h
    refine .inl ⟨rfl, ?_⟩
    cases hl : l[i]? <;> simp [hl] at h
    exact h.symm
  · exact .inr ⟨Ne.symm hij, by rwa [getElem?_set_ne hij] at h⟩

/-- The ones before it, it, and the ones after it. -/
theorem eq_take_cons_drop (hx : l[i]? = some x) : l = l.take i ++ x :: l.drop (i + 1) := by
  obtain ⟨hlt, rfl⟩ := List.getElem?_eq_some_iff.mp hx
  rw [← drop_eq_getElem_cons hlt, take_append_drop]

theorem set_eq_take_cons_drop (hx : l[i]? = some x) (y : α) :
    l.set i y = l.take i ++ y :: l.drop (i + 1) := by
  obtain ⟨hlt, -⟩ := List.getElem?_eq_some_iff.mp hx
  rw [set_eq_take_append_cons_drop, if_pos hlt]

theorem map_set_eq {f : α → β} (hx : l[i]? = some x) (hf : f y = f x) :
    (l.set i y).map f = l.map f := by
  have hget : (l.map f)[i]? = some (f y) := by rw [getElem?_map, hx, Option.map_some, hf]
  obtain ⟨hlt, hval⟩ := List.getElem?_eq_some_iff.mp hget
  rw [map_set, ← hval, set_getElem_self]

/-- How many of them have a property, when one moves on. -/
theorem countP_set (p : α → Bool) (hx : l[i]? = some x) (y : α) :
    (l.set i y).countP p + (if p x then 1 else 0) = l.countP p + (if p y then 1 else 0) := by
  obtain ⟨hlt, hval⟩ := List.getElem?_eq_some_iff.mp hx
  rw [List.countP_set hlt, hval]
  have hpos : p x = true → 0 < l.countP p := fun hp =>
    countP_pos_iff.mpr ⟨x, mem_of_getElem? hx, hp⟩
  split
  · have := hpos (by assumption)
    omega
  · omega

/-- The one at a place moves on, or ends. -/
@[grind =] def proceed (l : List α) (i : ℕ) : Option α → List α
  | some y => l.set i y
  | none => l.eraseIdx i

theorem mem_proceed_or (hx : l[i]? = some x) (hy : y ∈ l) (next : Option α) :
    y = x ∨ y ∈ proceed l i next := by
  cases next with
  | none => exact mem_eraseIdx_or hx hy
  | some z => exact mem_set_or hx hy z

theorem mem_proceed_cases {next : Option α} (hy : y ∈ proceed l i next) : y ∈ l ∨ next = some y := by
  cases next with
  | none => exact .inl (mem_of_mem_eraseIdx hy)
  | some z => exact (mem_or_eq_of_mem_set hy).imp_right fun heq => congrArg some heq.symm

theorem mem_proceed_self (hx : l[i]? = some x) (y : α) : y ∈ proceed l i (some y) :=
  mem_set_self hx y

/-- What the ones in flight have between them, when one moves on or ends. -/
theorem mem_flatMap_proceed {f : α → List β} {b : β} (hx : l[i]? = some x) (next : Option α) :
    b ∈ (proceed l i next).flatMap f ↔
      b ∈ (l.take i).flatMap f ∨ b ∈ next.elim [] f ∨ b ∈ (l.drop (i + 1)).flatMap f := by
  cases next with
  | none => simp [proceed, eraseIdx_eq_take_drop_succ]
  | some y => rw [proceed, set_eq_take_cons_drop hx]; simp

theorem mem_flatMap_iff {f : α → List β} {b : β} (hx : l[i]? = some x) :
    b ∈ l.flatMap f ↔ b ∈ (l.take i).flatMap f ∨ b ∈ f x ∨ b ∈ (l.drop (i + 1)).flatMap f := by
  conv_lhs => rw [eq_take_cons_drop hx]
  simp

theorem forall_mem_append_toList {P : α → Prop} (hl : ∀ z ∈ l, P z) {next : Option α}
    (hnext : ∀ y, next = some y → P y) : ∀ z ∈ l ++ next.toList, P z := by
  cases next with
  | none => simpa using hl
  | some y => exact forall_mem_append_singleton hl (hnext y rfl)

end InFlight
