import Mathlib.Data.List.Sort
import Mathlib.Data.List.Perm.Basic

/-!
# The first ones in an order

The first `n` of a list when it is sorted stably by a total preorder.

* `best` — sort, then cut;
* `rel_of_notMem_best`, `mem_best_of_countP_le` — what is left out comes after all that is kept, and
  what few come before is kept;
* `map_best_of_perm`, `best_eq_of_perm` — another order of the list only changes which of the tied
  ones are kept;
* `filter_insertionSort`, `mem_best_filter` — the sort is stable, so that what is kept stays kept when
  others leave the list.
-/

namespace Ranked

open List

variable {α : Type*} {r : α → α → Prop} [DecidableRel r] {n : ℕ} {l : List α} {x y : α}

/-- The first `n` in the order `r`. -/
@[grind =] def best (r : α → α → Prop) [DecidableRel r] (n : ℕ) (l : List α) : List α :=
  (l.insertionSort r).take n

@[simp] theorem best_nil : best r n [] = [] := take_nil

theorem mem_of_mem_best (h : x ∈ best r n l) : x ∈ l :=
  (mem_insertionSort r).mp (mem_of_mem_take h)

theorem length_best : (best r n l).length = min n l.length := by
  rw [best, length_take, length_insertionSort]

theorem nodup_best (h : l.Nodup) : (best r n l).Nodup :=
  ((perm_insertionSort r l).nodup_iff.mpr h).sublist (take_sublist _ _)

theorem mem_drop_of_notMem_best (hy : y ∈ l) (hout : y ∉ best r n l) :
    y ∈ (l.insertionSort r).drop n := by
  have hmem := (mem_insertionSort r).mpr hy
  rw [← take_append_drop n (l.insertionSort r), mem_append] at hmem
  exact hmem.resolve_left hout

section Total

variable [Std.Total r] [IsTrans α r]

theorem pairwise_best (n : ℕ) (l : List α) : (best r n l).Pairwise r :=
  (pairwise_insertionSort r l).sublist (take_sublist _ _)

/-- What is left out comes after what is kept. -/
theorem rel_of_notMem_best (hx : x ∈ best r n l) (hy : y ∈ l) (hout : y ∉ best r n l) : r x y := by
  have hsorted := pairwise_insertionSort r l
  rw [← take_append_drop n (l.insertionSort r), pairwise_append] at hsorted
  exact hsorted.2.2 x hx y (mem_drop_of_notMem_best hy hout)

/-- What has at most `n` ones before it or with it, itself among them, is kept. -/
theorem mem_best_of_countP_le (hx : x ∈ l) (hfew : l.countP (fun y => r y x) ≤ n) :
    x ∈ best r n l := by
  by_contra hout
  have hdrop := mem_drop_of_notMem_best hx hout
  have hkept : (best r n l).countP (fun y => r y x) = (best r n l).length :=
    countP_eq_length.mpr fun y hy => decide_eq_true (rel_of_notMem_best hy hx hout)
  have hleft : 0 < ((l.insertionSort r).drop n).countP (fun y => r y x) :=
    countP_pos_iff.mpr ⟨x, hdrop, decide_eq_true (refl_of r x)⟩
  have hlong : n < l.length := by
    have hlt := length_pos_of_mem hdrop
    rw [length_drop, length_insertionSort] at hlt
    omega
  have hcount := (perm_insertionSort r l).countP_eq (fun y => r y x)
  rw [← take_append_drop n (l.insertionSort r), countP_append] at hcount
  rw [length_best, min_eq_left hlong.le, best] at hkept
  omega

/-- When the list comes in another order, the ones that are kept rank the same. -/
theorem map_best_of_perm {κ : Type*} [LinearOrder κ] {key : α → κ}
    (hkey : ∀ a b, r a b ↔ key a ≤ key b) {m : List α} (hperm : l.Perm m) :
    (best r n l).map key = (best r n m).map key := by
  have hsorted (k : List α) : ((k.insertionSort r).map key).SortedLE :=
    ((pairwise_insertionSort r k).map key fun _ _ h => (hkey _ _).mp h).sortedLE
  have hsame : ((l.insertionSort r).map key).Perm ((m.insertionSort r).map key) :=
    (((perm_insertionSort r l).trans hperm).trans (perm_insertionSort r m).symm).map key
  rw [best, best, map_take, map_take, hsame.eq_of_sortedLE (hsorted l) (hsorted m)]

/-- When no two are tied, they are the same. -/
theorem best_eq_of_perm {m : List α} (hperm : l.Perm m)
    (hties : ∀ a ∈ l, ∀ b ∈ l, r a b → r b a → a = b) : best r n l = best r n m := by
  have hsame : (l.insertionSort r).Perm (m.insertionSort r) :=
    ((perm_insertionSort r l).trans hperm).trans (perm_insertionSort r m).symm
  have heq : l.insertionSort r = m.insertionSort r :=
    hsame.eq_of_pairwise
      (fun a b ha hb => hties a ((mem_insertionSort r).mp ha) b
        (hperm.mem_iff.mpr ((mem_insertionSort r).mp hb)))
      (pairwise_insertionSort r l) (pairwise_insertionSort r m)
  rw [best, best, heq]

omit [Std.Total r] in
theorem filter_orderedInsert (p : α → Bool) (a : α) (hl : l.Pairwise r) :
    (l.orderedInsert r a).filter p =
      if p a then (l.filter p).orderedInsert r a else l.filter p := by
  induction l with
  | nil => cases hp : p a <;> simp [hp]
  | cons b l ih =>
    obtain ⟨hb, hl⟩ := pairwise_cons.mp hl
    by_cases hab : r a b
    · rw [orderedInsert_cons_of_le r l hab]
      cases hp : p a with
      | false => simp [hp]
      | true =>
        have hfirst : ∀ c ∈ (b :: l).filter p, r a c := by
          intro c hc
          rcases mem_cons.mp (mem_filter.mp hc).1 with rfl | hc
          · exact hab
          · exact trans_of r hab (hb c hc)
        rw [filter_cons_of_pos hp, if_pos rfl]
        cases hf : (b :: l).filter p with
        | nil => rfl
        | cons c k =>
          exact (orderedInsert_cons_of_le r k
            (hfirst c (hf ▸ mem_cons_self))).symm
    · rw [orderedInsert_of_not_le r l hab, filter_cons, ih hl, filter_cons]
      cases hpb : p b with
      | false => simp
      | true =>
        cases hp : p a with
        | false => simp
        | true => simp [orderedInsert_of_not_le r _ hab]

/-- The sort is stable. -/
theorem filter_insertionSort (p : α → Bool) (l : List α) :
    (l.filter p).insertionSort r = (l.insertionSort r).filter p := by
  induction l with
  | nil => rfl
  | cons a l ih =>
    rw [insertionSort_cons, filter_orderedInsert p a (pairwise_insertionSort r l), ← ih,
      filter_cons]
    cases p a with
    | false => rfl
    | true => rfl

/-- What is kept stays kept when others leave. -/
theorem mem_best_filter {p : α → Bool} (hx : x ∈ best r n l) (hp : p x = true) :
    x ∈ best r n (l.filter p) := by
  have hkept : x ∈ (best r n l).filter p := mem_filter.mpr ⟨hx, hp⟩
  have hlength : ((best r n l).filter p).length ≤ n :=
    (length_filter_le _ _).trans (length_take_le _ _)
  have hprefix : (best r n l).filter p <+: (l.insertionSort r).filter p := by
    conv_rhs => rw [← take_append_drop n (l.insertionSort r), filter_append]
    exact prefix_append _ _
  rw [best, filter_insertionSort]
  obtain ⟨rest, hrest⟩ := hprefix
  rw [← hrest, take_append, take_of_length_le hlength]
  exact mem_append_left _ hkept

end Total

end Ranked
