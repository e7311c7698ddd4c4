import Mathlib.Data.List.Basic

/-!
# Writes that are shown before they are confirmed

A map, and a list of layers in the order in which they were put on top of it.  A layer writes
some keys, remembers what was under them, and is pending until it is confirmed or taken back.

* `write`, `restore` — put a layer on a map, and put back what was under it;
* `tip` — the map under all pending layers;
* `Chained` — every pending layer remembers what is under it;
* `Chained.confirm` — a layer moves into the base when none below it shares a key;
* `Chained.takeBack` — a layer goes when none above it shares a key, and restoring is exact.
-/

namespace Layers

open List Function

variable {κ ν : Type*} [DecidableEq κ]

/-- What a layer writes, what was under its keys, and whether it is pending. -/
structure Layer (κ ν : Type*) where
  prev : List (κ × ν)
  body : κ → ν
  pending : Bool

/-- The keys that a layer writes. -/
def Layer.keys (l : Layer κ ν) : List κ := l.prev.map Prod.fst

/-- No key is written by both. -/
def Layer.Disjoint (l d : Layer κ ν) : Prop := ∀ k ∈ l.keys, k ∉ d.keys

omit [DecidableEq κ] in
theorem Layer.Disjoint.symm {l d : Layer κ ν} (h : l.Disjoint d) : d.Disjoint l :=
  fun k hd hl => h k hl hd

/-- The map with the layer on top. -/
def write (l : Layer κ ν) (base : κ → ν) : κ → ν :=
  fun k => if k ∈ l.keys then l.body k else base k

/-- Put values back under their keys. -/
def restore (prev : List (κ × ν)) (m : κ → ν) : κ → ν :=
  prev.foldl (fun m p => update m p.1 p.2) m

/-- The map under all pending layers. -/
@[grind =] def tip (base : κ → ν) : List (Layer κ ν) → κ → ν
  | [] => base
  | l :: ls => tip (if l.pending then write l base else base) ls

/-- Every pending layer remembers what is under it. -/
@[grind =] def Chained (base : κ → ν) : List (Layer κ ν) → Prop
  | [] => True
  | l :: ls =>
      (l.pending = true → ∀ p ∈ l.prev, p.2 = base p.1) ∧
        Chained (if l.pending then write l base else base) ls

section
variable {l d : Layer κ ν} {base : κ → ν} {ls pre post : List (Layer κ ν)}

theorem write_of_mem {k : κ} (h : k ∈ l.keys) (base : κ → ν) : write l base k = l.body k :=
  if_pos h

theorem write_of_not_mem {k : κ} (h : k ∉ l.keys) (base : κ → ν) : write l base k = base k :=
  if_neg h

theorem write_comm (h : l.Disjoint d) (base : κ → ν) :
    write l (write d base) = write d (write l base) := by
  funext k
  by_cases hl : k ∈ l.keys
  · have hd := h k hl
    rw [write_of_mem hl, write_of_not_mem hd, write_of_mem hl]
  · rw [write_of_not_mem hl]
    by_cases hd : k ∈ d.keys
    · rw [write_of_mem hd, write_of_mem hd]
    · rw [write_of_not_mem hd, write_of_not_mem hd, write_of_not_mem hl]

/-- Restoring puts the value under every key that a function gives for it. -/
theorem restore_apply {prev : List (κ × ν)} {g : κ → ν} (h : ∀ p ∈ prev, p.2 = g p.1) (m : κ → ν)
    (k : κ) : restore prev m k = if k ∈ prev.map Prod.fst then g k else m k := by
  induction prev generalizing m with
  | nil => rfl
  | cons p prev ih =>
    have hstep : restore (p :: prev) m = restore prev (update m p.1 p.2) := rfl
    rw [hstep, ih fun q hq => h q (mem_cons_of_mem _ hq)]
    simp only [map_cons, mem_cons]
    by_cases hk : k ∈ prev.map Prod.fst
    · rw [if_pos hk, if_pos (.inr hk)]
    · rw [if_neg hk, update_apply]
      by_cases hp : k = p.1
      · rw [if_pos hp, if_pos (.inl hp), h p mem_cons_self, hp]
      · rw [if_neg hp, if_neg (not_or.mpr ⟨hp, hk⟩)]

/-- Other keys stay as they are. -/
theorem restore_of_not_mem {prev : List (κ × ν)} {k : κ} (h : k ∉ prev.map Prod.fst) (m : κ → ν) :
    restore prev m k = m k := by
  induction prev generalizing m with
  | nil => rfl
  | cons p prev ih =>
    have hstep : restore (p :: prev) m = restore prev (update m p.1 p.2) := rfl
    rw [map_cons, mem_cons, not_or] at h
    rw [hstep, ih h.2, update_of_ne h.1]

/-- Restoring undoes the write. -/
theorem restore_write (h : ∀ p ∈ l.prev, p.2 = base p.1) : restore l.prev (write l base) = base := by
  funext k
  rw [restore_apply h]
  split
  · rfl
  · exact write_of_not_mem ‹_› base

theorem tip_append (base : κ → ν) (pre post : List (Layer κ ν)) :
    tip base (pre ++ post) = tip (tip base pre) post := by
  induction pre generalizing base with
  | nil => rfl
  | cons l pre ih => exact ih _

theorem chained_append : Chained base (pre ++ post) ↔
    Chained base pre ∧ Chained (tip base pre) post := by
  induction pre generalizing base with
  | nil => simp [Chained, tip]
  | cons l pre ih => simp only [cons_append, Chained, tip, ih, and_assoc]

/-! ## A layer that is not pending -/

theorem tip_skip (h : l.pending = false) : tip base (pre ++ l :: post) = tip base (pre ++ post) := by
  rw [tip_append, tip_append, tip, h]
  rfl

theorem chained_skip (h : l.pending = false) :
    Chained base (pre ++ l :: post) ↔ Chained base (pre ++ post) := by
  rw [chained_append, chained_append, Chained, h]
  simp

/-! ## A new layer -/

theorem Chained.push (h : Chained base ls) (hprev : ∀ p ∈ l.prev, p.2 = tip base ls p.1) :
    Chained base (ls ++ [l]) :=
  chained_append.mpr ⟨h, fun _ => hprev, trivial⟩

theorem tip_push (hpending : l.pending = true)
    (hbody : ∀ k, k ∉ l.keys → l.body k = tip base ls k) : tip base (ls ++ [l]) = l.body := by
  rw [tip_append, tip, hpending]
  funext k
  change write l (tip base ls) k = l.body k
  by_cases hk : k ∈ l.keys
  · exact write_of_mem hk _
  · rw [write_of_not_mem hk, hbody k hk]

/-! ## The base changes under a layer -/

/-- Writes below that share no key with what is written into the base. -/
theorem tip_write (h : ∀ d ∈ ls, d.pending = true → l.Disjoint d) :
    tip (write l base) ls = write l (tip base ls) := by
  induction ls generalizing base with
  | nil => rfl
  | cons d ls ih =>
    have htail : ∀ e ∈ ls, e.pending = true → l.Disjoint e :=
      fun e he => h e (mem_cons_of_mem _ he)
    rw [tip, tip]
    cases hd : d.pending with
    | false => exact ih htail
    | true =>
      have hcomm := write_comm (h d mem_cons_self hd).symm base
      rw [if_pos rfl, if_pos rfl, hcomm]
      exact ih htail

theorem chained_write (h : ∀ d ∈ ls, d.pending = true → l.Disjoint d) :
    Chained (write l base) ls ↔ Chained base ls := by
  induction ls generalizing base with
  | nil => exact Iff.rfl
  | cons d ls ih =>
    have htail : ∀ e ∈ ls, e.pending = true → l.Disjoint e :=
      fun e he => h e (mem_cons_of_mem _ he)
    rw [Chained, Chained]
    cases hd : d.pending with
    | false => simp only [Bool.false_eq_true, false_implies, if_false, ih htail]
    | true =>
      have hdisjoint := h d mem_cons_self hd
      have hsame : (∀ p ∈ d.prev, p.2 = write l base p.1) ↔ ∀ p ∈ d.prev, p.2 = base p.1 := by
        refine forall₂_congr fun p hp => ?_
        have hmem : p.1 ∈ d.keys := mem_map_of_mem hp
        rw [write_of_not_mem (hdisjoint.symm _ hmem)]
      rw [if_pos rfl, if_pos rfl, hsame, write_comm hdisjoint.symm, ih htail]

/-- **A layer is confirmed**: it moves into the base when no pending layer below shares a key. -/
theorem Chained.confirm (h : Chained base (pre ++ l :: post)) (hpending : l.pending = true)
    (hpre : ∀ d ∈ pre, d.pending = true → l.Disjoint d) :
    Chained (write l base) (pre ++ post) ∧
      tip (write l base) (pre ++ post) = tip base (pre ++ l :: post) := by
  obtain ⟨hbelow, -, habove⟩ := chained_append.mp h
  rw [if_pos hpending] at habove
  have htip : tip (write l base) pre = write l (tip base pre) := tip_write hpre
  refine ⟨chained_append.mpr ⟨(chained_write hpre).mpr hbelow, htip.symm ▸ habove⟩, ?_⟩
  rw [tip_append, tip_append, tip, if_pos hpending, htip]

/-- **A layer is taken back**: restoring is exact when no pending layer above shares a key. -/
theorem Chained.takeBack (h : Chained base (pre ++ l :: post)) (hpending : l.pending = true)
    (hpost : ∀ d ∈ post, d.pending = true → l.Disjoint d) :
    Chained base (pre ++ post) ∧
      tip base (pre ++ post) = restore l.prev (tip base (pre ++ l :: post)) := by
  obtain ⟨hbelow, hprev, habove⟩ := chained_append.mp h
  rw [if_pos hpending] at habove
  refine ⟨chained_append.mpr ⟨hbelow, (chained_write hpost).mp habove⟩, ?_⟩
  have hkept : ∀ p ∈ l.prev, p.2 = tip (tip base pre) post p.1 := by
    intro p hp
    have huntouched : ∀ (ls : List (Layer κ ν)) (m : κ → ν),
        (∀ d ∈ ls, d.pending = true → l.Disjoint d) → tip m ls p.1 = m p.1 := by
      intro ls
      induction ls with
      | nil => exact fun m _ => rfl
      | cons d ls ih =>
        intro m hls
        rw [tip, ih _ fun e he => hls e (mem_cons_of_mem _ he)]
        cases hd : d.pending with
        | false => rfl
        | true =>
          have hfree := hls d mem_cons_self hd p.1 (mem_map_of_mem hp)
          exact write_of_not_mem hfree m
    rw [huntouched post _ hpost]
    exact hprev hpending p hp
  rw [tip_append, tip_append, tip, if_pos hpending, tip_write hpost, restore_write hkept]

end

end Layers
