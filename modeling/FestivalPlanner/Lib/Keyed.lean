import Mathlib.Data.List.Nodup

/-!
# Lists addressed by a key

A list whose elements carry a key is what a program uses for a small map that
must keep its order: replace the element with the same key or append
(`upsert`), drop an element (`erase`), change one in place (`modify`), move one
to the end (`putLast`), find one (`lookup`).  The element type and the key
function are arbitrary.

* `UniqueKeys` — no key occurs twice; every operation keeps it;
* `mem_upsert_iff`, `mem_erase`, `mem_putLast` — what the operations leave;
* `lookup_upsert`, `lookup_erase`, `lookup_modify` — the map laws.
-/

namespace Keyed

open List

variable {κ α : Type*}

/-! ## Unique keys -/

/-- No key occurs twice. -/
@[grind =] def UniqueKeys (key : α → κ) (l : List α) : Prop := (l.map key).Nodup

variable {y z x : α} {l l' m : List α} {k : κ} {f : α → α}

section
variable {key : α → κ}

theorem uniqueKeys_cons :
    UniqueKeys key (y :: l) ↔ (∀ z ∈ l, key z ≠ key y) ∧ UniqueKeys key l := by
  simp [UniqueKeys, nodup_cons]

theorem UniqueKeys.eq_of_mem (h : UniqueKeys key l) (hy : y ∈ l) (hz : z ∈ l) (hk : key y = key z) :
    y = z :=
  inj_on_of_nodup_map h hy hz hk

theorem UniqueKeys.filter (h : UniqueKeys key l) (p : α → Bool) : UniqueKeys key (l.filter p) :=
  List.Nodup.sublist (filter_sublist.map key) h

theorem UniqueKeys.of_perm (hp : l.Perm l') (h : UniqueKeys key l) : UniqueKeys key l' :=
  (hp.map key).nodup_iff.mp h

/-- With unique keys, one element has the key of an element. -/
theorem UniqueKeys.filter_eq [DecidableEq κ] (h : UniqueKeys key l) (hx : x ∈ l) :
    l.filter (fun y => decide (key y = key x)) = [x] := by
  induction l with
  | nil => cases hx
  | cons y l ih =>
    obtain ⟨hy, hl⟩ := uniqueKeys_cons.mp h
    rcases mem_cons.mp hx with rfl | hx
    · have hnil : l.filter (fun y => decide (key y = key x)) = [] := by
        simpa [filter_eq_nil_iff] using hy
      simp [hnil]
    · have hne : key y ≠ key x := fun hk => hy x hx hk.symm
      rw [filter_cons, if_neg (by simpa using hne), ih hl hx]

/-- Lists without a common key may be put together. -/
theorem UniqueKeys.append (hl : UniqueKeys key l) (hm : UniqueKeys key m)
    (h : ∀ x ∈ l, ∀ y ∈ m, key x ≠ key y) : UniqueKeys key (l ++ m) := by
  rw [UniqueKeys, map_append, nodup_append]
  refine ⟨hl, hm, ?_⟩
  intro k hk k' hk'
  obtain ⟨x, hx, rfl⟩ := mem_map.mp hk
  obtain ⟨y, hy, rfl⟩ := mem_map.mp hk'
  exact h x hx y hy

/-- An element with a new key may be appended. -/
theorem UniqueKeys.append_singleton (h : UniqueKeys key l) (hx : ∀ y ∈ l, key y ≠ key x) :
    UniqueKeys key (l ++ [x]) := by
  refine h.append (nodup_singleton _) fun y hy z hz => ?_
  rw [mem_singleton.mp hz]
  exact hx y hy

/-- Changing elements without changing their keys keeps the keys unique. -/
theorem UniqueKeys.of_map_eq (hk : l'.map key = l.map key) (h : UniqueKeys key l) :
    UniqueKeys key l' := by
  rw [UniqueKeys, hk]
  exact h

end

variable [DecidableEq κ] (key : α → κ)

/-! ## The operations -/

/-- The first element with key `k`. -/
@[grind =] def lookup (k : κ) (l : List α) : Option α := l.find? (fun x => key x = k)

/-- Replace the first element with the key of `x` by `x`, or append `x`. -/
@[grind =] def upsert (x : α) : List α → List α
  | [] => [x]
  | y :: l => if key y = key x then x :: l else y :: upsert x l

/-- Drop every element with key `k`. -/
@[grind =] def erase (k : κ) (l : List α) : List α := l.filter (fun x => key x ≠ k)

/-- Apply `f` to the first element with key `k`. -/
@[grind =] def modify (k : κ) (f : α → α) : List α → List α
  | [] => []
  | y :: l => if key y = k then f y :: l else y :: modify k f l

/-- Drop every element with the key of `x`, then append `x`. -/
def putLast (x : α) (l : List α) : List α := erase key (key x) l ++ [x]

instance (l : List α) : Decidable (UniqueKeys key l) :=
  inferInstanceAs (Decidable (l.map key).Nodup)

variable {key}

/-! ## Membership -/

theorem mem_erase : z ∈ erase key k l ↔ z ∈ l ∧ key z ≠ k := by
  simp [erase]

theorem mem_putLast : z ∈ putLast key x l ↔ z = x ∨ z ∈ l ∧ key z ≠ key x := by
  rw [putLast, mem_append, mem_erase, mem_singleton, or_comm]

theorem mem_upsert_self (x : α) (l : List α) : x ∈ upsert key x l := by
  induction l with
  | nil => simp [upsert]
  | cons y l ih =>
    rw [upsert]
    split
    · simp
    · exact mem_cons_of_mem _ ih

theorem mem_or_eq_of_mem_upsert (h : z ∈ upsert key x l) : z = x ∨ z ∈ l := by
  induction l with
  | nil => exact .inl (by simpa [upsert] using h)
  | cons y l ih =>
    rw [upsert] at h
    split at h
    · rcases mem_cons.mp h with rfl | h
      · exact .inl rfl
      · exact .inr (mem_cons_of_mem _ h)
    · rcases mem_cons.mp h with rfl | h
      · exact .inr (mem_cons_self ..)
      · exact (ih h).imp id (mem_cons_of_mem _)

theorem mem_upsert_of_ne (h : z ∈ l) (hne : key z ≠ key x) : z ∈ upsert key x l := by
  induction l with
  | nil => cases h
  | cons y l ih =>
    rw [upsert]
    split
    · rename_i hy
      rcases mem_cons.mp h with rfl | h
      · exact absurd hy hne
      · exact mem_cons_of_mem _ h
    · rcases mem_cons.mp h with rfl | h
      · exact mem_cons_self ..
      · exact mem_cons_of_mem _ (ih h)

/-! ## The operations keep the keys unique -/

/-- With unique keys, `upsert` leaves `x` and the elements with another key. -/
theorem UniqueKeys.mem_upsert_iff (h : UniqueKeys key l) :
    z ∈ upsert key x l ↔ z = x ∨ z ∈ l ∧ key z ≠ key x := by
  constructor
  · intro hz
    induction l with
    | nil => exact .inl (by simpa [upsert] using hz)
    | cons y l ih =>
      obtain ⟨hy, hl⟩ := uniqueKeys_cons.mp h
      rw [upsert] at hz
      split at hz
      · rename_i hyx
        rcases mem_cons.mp hz with rfl | hz
        · exact .inl rfl
        · exact .inr ⟨mem_cons_of_mem _ hz, hyx ▸ hy z hz⟩
      · rename_i hyx
        rcases mem_cons.mp hz with rfl | hz
        · exact .inr ⟨mem_cons_self .., hyx⟩
        · exact (ih hl hz).imp id (fun h => ⟨mem_cons_of_mem _ h.1, h.2⟩)
  · rintro (rfl | ⟨hz, hne⟩)
    · exact mem_upsert_self _ _
    · exact mem_upsert_of_ne hz hne

theorem UniqueKeys.upsert (h : UniqueKeys key l) (x : α) : UniqueKeys key (upsert key x l) := by
  induction l with
  | nil => simp [Keyed.upsert, UniqueKeys]
  | cons y l ih =>
    obtain ⟨hy, hl⟩ := uniqueKeys_cons.mp h
    rw [Keyed.upsert]
    split
    · rename_i hyx
      exact uniqueKeys_cons.mpr ⟨fun z hz => hyx ▸ hy z hz, hl⟩
    · rename_i hyx
      refine uniqueKeys_cons.mpr ⟨fun z hz => ?_, ih hl⟩
      rcases mem_or_eq_of_mem_upsert hz with rfl | hz
      · exact fun hzy => hyx hzy.symm
      · exact hy z hz

/-- How many elements have a property, when one of them is replaced or one more comes. -/
theorem countP_upsert (p : α → Bool) (x : α) (l : List α) :
    (upsert key x l).countP p +
        ((l.find? fun y => key y = key x).elim 0 fun y => if p y then 1 else 0) =
      l.countP p + if p x then 1 else 0 := by
  induction l with
  | nil => simp [Keyed.upsert, countP_cons]
  | cons y l ih =>
    rw [Keyed.upsert]
    by_cases hk : key y = key x
    · rw [if_pos hk, find?_cons_of_pos (by simpa using hk), countP_cons,
        countP_cons, Option.elim_some]
      omega
    · rw [if_neg hk, find?_cons_of_neg (by simpa using hk), countP_cons,
        countP_cons]
      omega

theorem UniqueKeys.erase (h : UniqueKeys key l) (k : κ) : UniqueKeys key (erase key k l) :=
  h.filter _

theorem UniqueKeys.putLast (h : UniqueKeys key l) (x : α) : UniqueKeys key (putLast key x l) :=
  (h.erase (key x)).append_singleton fun _ hy => (mem_erase.mp hy).2

/-- What `f` does not change of the elements is not changed at all. -/
theorem map_modify {β : Type*} {g : α → β} (hf : ∀ x, g (f x) = g x) (l : List α) :
    (modify key k f l).map g = l.map g := by
  induction l with
  | nil => rfl
  | cons y l ih =>
    rw [modify]
    split
    · simp [hf]
    · simp [ih]

theorem map_key_modify (hf : ∀ x, key (f x) = key x) (l : List α) :
    (modify key k f l).map key = l.map key :=
  map_modify hf l

/-- What `modify` leaves: an element of the list, or the changed element. -/
theorem mem_of_mem_modify (h : z ∈ modify key k f l) : z ∈ l ∨ ∃ y ∈ l, key y = k ∧ z = f y := by
  induction l with
  | nil => cases h
  | cons y l ih =>
    rw [modify] at h
    split at h
    · rename_i hy
      rcases mem_cons.mp h with rfl | h
      · exact .inr ⟨y, mem_cons_self .., hy, rfl⟩
      · exact .inl (mem_cons_of_mem _ h)
    · rcases mem_cons.mp h with rfl | h
      · exact .inl (mem_cons_self ..)
      · rcases ih h with h | ⟨w, hw, hk, rfl⟩
        · exact .inl (mem_cons_of_mem _ h)
        · exact .inr ⟨w, mem_cons_of_mem _ hw, hk, rfl⟩

/-- Every element survives `modify`, changed or not. -/
theorem mem_modify_of_mem (h : y ∈ l) : y ∈ modify key k f l ∨ f y ∈ modify key k f l := by
  induction l with
  | nil => cases h
  | cons w l ih =>
    rw [modify]
    split
    · rcases mem_cons.mp h with rfl | h
      · exact .inr (mem_cons_self ..)
      · exact .inl (mem_cons_of_mem _ h)
    · rcases mem_cons.mp h with rfl | h
      · exact .inl (mem_cons_self ..)
      · exact (ih h).imp (mem_cons_of_mem _) (mem_cons_of_mem _)

theorem mem_modify_of_ne (h : z ∈ l) (hne : key z ≠ k) : z ∈ modify key k f l := by
  induction l with
  | nil => cases h
  | cons y l ih =>
    rw [modify]
    split
    · rename_i hy
      rcases mem_cons.mp h with rfl | h
      · exact absurd hy hne
      · exact mem_cons_of_mem _ h
    · rcases mem_cons.mp h with rfl | h
      · exact mem_cons_self ..
      · exact mem_cons_of_mem _ (ih h)

/-! ## The map laws -/

theorem lookup_eq_none : lookup key k l = none ↔ ∀ z ∈ l, key z ≠ k := by
  simp [lookup, find?_eq_none]

theorem mem_of_lookup (h : lookup key k l = some x) : x ∈ l ∧ key x = k :=
  ⟨mem_of_find?_eq_some h, by simpa using find?_some h⟩

theorem lookup_of_mem (h : UniqueKeys key l) (hx : x ∈ l) : lookup key (key x) l = some x := by
  cases hl : lookup key (key x) l with
  | none => exact absurd rfl (lookup_eq_none.mp hl x hx)
  | some y =>
    obtain ⟨hy, hk⟩ := mem_of_lookup hl
    rw [h.eq_of_mem hy hx hk]

/-- A list of pairs gives for a key the value that is paired with it. -/
theorem UniqueKeys.map_snd_lookup {β : Type*} {l : List (κ × β)} (h : UniqueKeys Prod.fst l)
    {v : β} : (lookup Prod.fst k l).map Prod.snd = some v ↔ (k, v) ∈ l := by
  rw [Option.map_eq_some_iff]
  constructor
  · rintro ⟨⟨k', v'⟩, hlookup, rfl⟩
    obtain ⟨hmem, rfl⟩ := mem_of_lookup hlookup
    exact hmem
  · intro hmem
    exact ⟨(k, v), lookup_of_mem h hmem, rfl⟩

theorem modify_of_lookup_eq_none (h : lookup key k l = none) : modify key k f l = l := by
  induction l with
  | nil => rfl
  | cons y l ih =>
    have hl := lookup_eq_none.mp h
    rw [modify, if_neg (hl y (mem_cons_self ..)),
      ih (lookup_eq_none.mpr fun z hz => hl z (mem_cons_of_mem _ hz))]

theorem lookup_cons (k : κ) (y : α) (l : List α) :
    lookup key k (y :: l) = if key y = k then some y else lookup key k l := by
  by_cases h : key y = k <;> simp [lookup, h]

/-- The element that is found is the one that is changed. -/
theorem mem_modify_of_lookup (h : lookup key k l = some x) : f x ∈ modify key k f l := by
  induction l with
  | nil => cases h
  | cons y l ih =>
    rw [lookup_cons] at h
    rw [modify]
    split at h
    · rename_i hy
      obtain rfl := Option.some.inj h
      rw [if_pos hy]
      exact mem_cons_self ..
    · rename_i hy
      rw [if_neg hy]
      exact mem_cons_of_mem _ (ih h)

/-- With unique keys, `modify` leaves the changed element and the elements with another
key. -/
theorem UniqueKeys.mem_modify_iff (hf : ∀ x, key (f x) = key x) (h : UniqueKeys key l)
    (hx : lookup key k l = some x) : z ∈ modify key k f l ↔ z = f x ∨ z ∈ l ∧ key z ≠ k := by
  obtain ⟨hxl, hxk⟩ := mem_of_lookup hx
  have hunique : UniqueKeys key (modify key k f l) := h.of_map_eq (map_key_modify hf l)
  constructor
  · intro hz
    by_cases hk : key z = k
    · refine .inl (hunique.eq_of_mem hz (mem_modify_of_lookup hx) ?_)
      rw [hf, hxk, hk]
    · rcases mem_of_mem_modify hz with hz | ⟨y, -, hy, rfl⟩
      · exact .inr ⟨hz, hk⟩
      · exact absurd ((hf y).trans hy) hk
  · rintro (rfl | ⟨hz, hk⟩)
    · exact mem_modify_of_lookup hx
    · exact mem_modify_of_ne hz hk

theorem lookup_upsert (k : κ) (x : α) (l : List α) :
    lookup key k (upsert key x l) = if key x = k then some x else lookup key k l := by
  induction l with
  | nil => simp only [upsert, lookup_cons]
  | cons y l ih =>
    rw [upsert]
    split
    · rename_i hyx
      rw [lookup_cons, lookup_cons, hyx]
      split <;> rfl
    · rename_i hyx
      rw [lookup_cons, lookup_cons, ih]
      split
      · rename_i hyk
        rw [if_neg (fun h => hyx (hyk.trans h.symm))]
      · rfl

/-- An element with a new key comes last. -/
theorem upsert_of_lookup_eq_none (h : lookup key (key x) l = none) : upsert key x l = l ++ [x] := by
  induction l with
  | nil => rfl
  | cons y l ih =>
    have hl := lookup_eq_none.mp h
    rw [upsert, if_neg (hl y (mem_cons_self ..)),
      ih (lookup_eq_none.mpr fun z hz => hl z (mem_cons_of_mem _ hz)), cons_append]

/-- What an element has in common with the one that it replaces is not changed at all. -/
theorem map_upsert_of_lookup {β : Type*} {g : α → β} (h : lookup key (key x) l = some y)
    (hg : g x = g y) : (upsert key x l).map g = l.map g := by
  induction l with
  | nil => cases h
  | cons z l ih =>
    rw [lookup_cons] at h
    rw [upsert]
    by_cases hz : key z = key x
    · rw [if_pos hz] at h ⊢
      obtain rfl := Option.some.inj h
      rw [map_cons, map_cons, hg]
    · rw [if_neg hz] at h ⊢
      rw [map_cons, map_cons, ih h]

/-- An order of the list, in which the elements come before `x` and `x`, put in the place of one,
comes before all. -/
theorem pairwise_upsert {R : α → α → Prop} (hl : l.Pairwise R)
    (hbefore : ∀ y ∈ l, key y ≠ key x → R y x) (hafter : ∀ y ∈ l, key y = key x → ∀ z ∈ l, R x z) :
    (upsert key x l).Pairwise R := by
  induction l with
  | nil => exact pairwise_singleton R x
  | cons y l ih =>
    obtain ⟨hy, hl⟩ := pairwise_cons.mp hl
    rw [upsert]
    by_cases hk : key y = key x
    · rw [if_pos hk]
      exact pairwise_cons.mpr
        ⟨fun z hz => hafter y (mem_cons_self ..) hk z (mem_cons_of_mem _ hz), hl⟩
    · rw [if_neg hk]
      refine pairwise_cons.mpr ⟨fun z hz => ?_, ih hl ?_ ?_⟩
      · rcases mem_or_eq_of_mem_upsert hz with rfl | hz
        · exact hbefore y (mem_cons_self ..) hk
        · exact hy z hz
      · exact fun w hw hwk => hbefore w (mem_cons_of_mem _ hw) hwk
      · exact fun w hw hwk z hz =>
          hafter w (mem_cons_of_mem _ hw) hwk z (mem_cons_of_mem _ hz)

/-- A part of the list has the same element for a key, or none. -/
theorem UniqueKeys.lookup_sublist (h : UniqueKeys key l) (hm : m.Sublist l) (k : κ) :
    lookup key k m = lookup key k l ∨ lookup key k m = none := by
  cases hk : lookup key k m with
  | none => exact .inr rfl
  | some x =>
    obtain ⟨hx, rfl⟩ := mem_of_lookup hk
    exact .inl (lookup_of_mem h (hm.subset hx)).symm

theorem lookup_modify (hf : ∀ x, key (f x) = key x) (k' : κ) (l : List α) :
    lookup key k' (modify key k f l) =
      if k' = k then (lookup key k l).map f else lookup key k' l := by
  induction l with
  | nil => simp [modify, lookup]
  | cons y l ih =>
    rw [modify]
    by_cases hy : key y = k
    · rw [if_pos hy, lookup_cons, lookup_cons, lookup_cons, hf, hy]
      by_cases hk : k' = k
      · simp [hk]
      · simp [hk, Ne.symm hk]
    · rw [if_neg hy, lookup_cons, ih, lookup_cons, lookup_cons, if_neg hy]
      by_cases hk : k' = k
      · simp [hk, hy]
      · simp [hk]

theorem lookup_erase (k c : κ) (l : List α) :
    lookup key k (erase key c l) = if c = k then none else lookup key k l := by
  induction l with
  | nil => simp [erase, lookup]
  | cons y l ih =>
    rw [erase, filter_cons]
    by_cases hy : key y = c
    · rw [if_neg (by simpa using hy), ← erase, ih, lookup_cons]
      by_cases hck : c = k
      · simp [hck]
      · rw [if_neg hck, if_neg hck, if_neg (fun h => hck (hy.symm.trans h))]
    · rw [if_pos (by simpa using hy), ← erase, lookup_cons, ih, lookup_cons]
      by_cases hck : c = k
      · rw [if_neg (fun h => hy (h.trans hck.symm)), if_pos hck, if_pos hck]
      · rw [if_neg hck, if_neg hck]

end Keyed
