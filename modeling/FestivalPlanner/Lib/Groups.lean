import FestivalPlanner.Lib.Keyed
import Mathlib.Algebra.BigOperators.Group.List.Basic
import Mathlib.Data.List.Induction

/-!
# Values collected under keys

A list of keys, each with the values that were collected under it, in their order.

* `entries` — the values under a key, none for a new one;
* `push` — one more value under a key;
* `forall_iff` — what holds of every group is what holds of the entries of every key;
* `collect` — the values of a list under their keys; `mem_collect_iff` — a group has the values of
  its key, in their order; `sum_collect` — a sum is taken group by group.
-/

namespace Groups

open List

variable {κ β : Type*} [DecidableEq κ]

/-- The values under a key. -/
@[grind =] def entries (k : κ) (groups : List (κ × List β)) : List β :=
  (Keyed.lookup Prod.fst k groups).elim [] Prod.snd

/-- One more value under a key. -/
@[grind =] def push (k : κ) (v : β) (groups : List (κ × List β)) : List (κ × List β) :=
  Keyed.upsert Prod.fst (k, entries k groups ++ [v]) groups

@[simp] theorem entries_nil (k : κ) : entries k ([] : List (κ × List β)) = [] := rfl

theorem entries_push (k k' : κ) (v : β) (groups : List (κ × List β)) :
    entries k (push k' v groups) = entries k groups ++ if k' = k then [v] else [] := by
  rw [entries, push, Keyed.lookup_upsert]
  by_cases hk : k' = k
  · subst hk
    simp
  · simp [hk, entries]

theorem push_cons (k : κ) (v : β) (g : κ × List β) (groups : List (κ × List β)) :
    push k v (g :: groups) =
      if g.1 = k then (k, g.2 ++ [v]) :: groups else g :: push k v groups := by
  by_cases hk : g.1 = k <;> simp [push, Keyed.upsert, entries, Keyed.lookup_cons, hk]

theorem sum_push {M : Type*} [AddCommMonoid M] (f : β → M) (k : κ) (v : β)
    (groups : List (κ × List β)) :
    ((push k v groups).map fun g => (g.2.map f).sum).sum =
      (groups.map fun g => (g.2.map f).sum).sum + f v := by
  induction groups with
  | nil => simp [push, Keyed.upsert]
  | cons g groups ih =>
    rw [push_cons]
    by_cases hk : g.1 = k
    · simp only [if_pos hk, map_cons, map_append, sum_append, sum_cons,
        map_nil, sum_nil, add_zero]
      exact add_right_comm _ _ _
    · simp only [if_neg hk, map_cons, sum_cons, ih]
      exact (add_assoc _ _ _).symm

theorem uniqueKeys_push {groups : List (κ × List β)} (h : Keyed.UniqueKeys Prod.fst groups) (k : κ)
    (v : β) : Keyed.UniqueKeys Prod.fst (push k v groups) :=
  h.upsert _

/-- With unique keys, a property of lists that the empty one has. -/
theorem forall_iff {groups : List (κ × List β)} (h : Keyed.UniqueKeys Prod.fst groups)
    {P : List β → Prop} (hnil : P []) :
    (∀ g ∈ groups, P g.2) ↔ ∀ k, P (entries k groups) := by
  constructor
  · intro hall k
    cases hk : Keyed.lookup Prod.fst k groups with
    | none => simpa [entries, hk] using hnil
    | some g =>
      have hg := hall g (Keyed.mem_of_lookup hk).1
      simpa [entries, hk] using hg
  · intro hall g hg
    have hk := hall g.1
    rwa [entries, Keyed.lookup_of_mem h hg] at hk

/-! ## Collected from a list -/

section
variable {α : Type*} {key : α → κ} {val : α → β}

/-- The values of the items under their keys. -/
def collect (key : α → κ) (val : α → β) (l : List α) : List (κ × List β) :=
  l.foldl (fun groups x => push (key x) (val x) groups) []

theorem collect_append_singleton (l : List α) (x : α) :
    collect key val (l ++ [x]) = push (key x) (val x) (collect key val l) := by
  simp [collect]

theorem uniqueKeys_collect (key : α → κ) (val : α → β) (l : List α) :
    Keyed.UniqueKeys Prod.fst (collect key val l) := by
  induction l using List.reverseRecOn with
  | nil => exact nodup_nil
  | append_singleton l x ih =>
    rw [collect_append_singleton]
    exact uniqueKeys_push ih _ _

theorem entries_collect (k : κ) (l : List α) :
    entries k (collect key val l) = (l.filter fun x => key x = k).map val := by
  induction l using List.reverseRecOn with
  | nil => rfl
  | append_singleton l x ih =>
    rw [collect_append_singleton, entries_push, ih, filter_append, map_append]
    by_cases hk : key x = k <;> simp [hk]

theorem ne_nil_of_mem_collect {l : List α} {g : κ × List β} (h : g ∈ collect key val l) :
    g.2 ≠ [] := by
  induction l using List.reverseRecOn with
  | nil => cases h
  | append_singleton l x ih =>
    rw [collect_append_singleton, push] at h
    rcases Keyed.mem_or_eq_of_mem_upsert h with rfl | hold
    · simp
    · exact ih hold

/-- **A group has the values of its key.** -/
theorem mem_collect_iff {l : List α} {g : κ × List β} :
    g ∈ collect key val l ↔ g.2 ≠ [] ∧ g.2 = (l.filter fun x => key x = g.1).map val := by
  have hunique := uniqueKeys_collect key val l
  constructor
  · intro hg
    refine ⟨ne_nil_of_mem_collect hg, ?_⟩
    rw [← entries_collect, entries, Keyed.lookup_of_mem hunique hg]
    rfl
  · rintro ⟨hne, heq⟩
    rw [← entries_collect] at heq
    rw [heq, entries] at hne
    cases hk : Keyed.lookup Prod.fst g.1 (collect key val l) with
    | none =>
      rw [hk] at hne
      exact absurd rfl hne
    | some g' =>
      obtain ⟨hmem, hkey⟩ := Keyed.mem_of_lookup hk
      rw [entries, hk] at heq
      rwa [show g = g' from Prod.ext hkey.symm heq]

/-- A sum over a list is the sum over its groups. -/
theorem sum_collect {M : Type*} [AddCommMonoid M] (f : α → M) (l : List α) :
    (l.map f).sum = ((collect key id l).map fun g => (g.2.map f).sum).sum := by
  induction l using List.reverseRecOn with
  | nil => rfl
  | append_singleton l x ih =>
    rw [collect_append_singleton, sum_push, map_append, sum_append, ih]
    simp

end

end Groups
