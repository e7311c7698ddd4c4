import Mathlib.Algebra.Order.BigOperators.Group.List
import Mathlib.Algebra.Order.Group.Abs
import Mathlib.Algebra.Order.Ring.Int
import Mathlib.Data.List.Infix

/-!
# Matching two lists of amounts

Two lists of amounts are matched from the front: the smaller of the two heads is taken
off both, and a head with at most one unit left is dropped.  Amounts of one unit are too
small to be matched.

* `Matched` — the matching, with what it leaves of each amount;
* `Matched.oneSide` — one of the lists is used up, but for single units;
* `PairsOff` — both lists can be cut into groups that pay for each other;
* `Matched.small_iff` — the matching uses up both lists exactly when they pair off.
-/

namespace Matching

open List

/-! ## The matching -/

/-- Matching `cs` against `ds` leaves `rc` and `rd`. -/
inductive Matched : List ℤ → List ℤ → List ℤ → List ℤ → Prop
  /-- Only single units are left on one side. -/
  | stop {cs ds : List ℤ} (h : (∀ c ∈ cs, c = 1) ∨ ∀ d ∈ ds, d = 1) : Matched cs ds cs ds
  /-- The heads pay for each other. -/
  | both {c d : ℤ} {cs ds rc rd : List ℤ} (hc : 2 ≤ c) (hd : 2 ≤ d) (hclose : |c - d| ≤ 1)
      (rest : Matched cs ds rc rd) :
      Matched (c :: cs) (d :: ds) ((c - min c d) :: rc) ((d - min c d) :: rd)
  /-- The first head outlasts the second. -/
  | left {c d : ℤ} {cs ds rc rd : List ℤ} (hd : 2 ≤ d) (hlt : d + 2 ≤ c)
      (rest : Matched ((c - d) :: cs) ds rc rd) : Matched (c :: cs) (d :: ds) rc (0 :: rd)
  /-- The second head outlasts the first. -/
  | right {c d : ℤ} {cs ds rc rd : List ℤ} (hc : 2 ≤ c) (hlt : c + 2 ≤ d)
      (rest : Matched cs ((d - c) :: ds) rc rd) : Matched (c :: cs) (d :: ds) (0 :: rc) rd

variable {cs ds rc rd p q l : List ℤ} {c d x : ℤ}

/-- Exchanging the lists exchanges what is left. -/
theorem Matched.symm (h : Matched cs ds rc rd) : Matched ds cs rd rc := by
  induction h with
  | stop h => exact .stop h.symm
  | both hc hd hclose rest ih =>
    rw [min_comm]
    exact .both hd hc (by rwa [abs_sub_comm]) ih
  | left hd hlt rest ih => exact .right hd hlt ih
  | right hc hlt rest ih => exact .left hc hlt ih

/-- Nothing is taken off that is not there. -/
theorem Matched.nonneg (h : Matched cs ds rc rd) (hcs : ∀ c ∈ cs, 0 ≤ c) : ∀ r ∈ rc, 0 ≤ r := by
  induction h with
  | stop h => exact hcs
  | @both c d cs ds rc rd hc hd hclose rest ih =>
    intro r hr
    rcases mem_cons.mp hr with rfl | hr
    · have := min_le_left c d
      omega
    · exact ih (fun c hc => hcs c (mem_cons_of_mem _ hc)) r hr
  | @left c d cs ds rc rd hd hlt rest ih =>
    refine ih fun x hx => ?_
    rcases mem_cons.mp hx with rfl | hx
    · omega
    · exact hcs x (mem_cons_of_mem _ hx)
  | right hc hlt rest ih =>
    intro r hr
    rcases mem_cons.mp hr with rfl | hr
    · exact le_refl 0
    · exact ih (fun c hc => hcs c (mem_cons_of_mem _ hc)) r hr

/-- **One of the lists is used up**, but for single units. -/
theorem Matched.oneSide (h : Matched cs ds rc rd) : (∀ r ∈ rc, r ≤ 1) ∨ ∀ r ∈ rd, r ≤ 1 := by
  induction h with
  | stop h => exact h.imp (fun h c hc => (h c hc).le) (fun h d hd => (h d hd).le)
  | @both c d cs ds rc rd hc hd hclose rest ih =>
    rw [abs_le] at hclose
    refine ih.imp (fun h r hr => ?_) (fun h r hr => ?_)
    · rcases mem_cons.mp hr with rfl | hr
      · omega
      · exact h r hr
    · rcases mem_cons.mp hr with rfl | hr
      · omega
      · exact h r hr
  | left hd hlt rest ih =>
    refine ih.imp id (fun h r hr => ?_)
    rcases mem_cons.mp hr with rfl | hr
    · exact zero_le_one
    · exact h r hr
  | right hc hlt rest ih =>
    refine ih.imp (fun h r hr => ?_) id
    rcases mem_cons.mp hr with rfl | hr
    · exact zero_le_one
    · exact h r hr

/-! ## Lists that pair off -/

/-- The totals differ by at most one unit. -/
@[grind =] def Close (p q : List ℤ) : Prop := |p.sum - q.sum| ≤ 1

/-- Both lists can be cut into the same number of groups that pay for each other, each
group as short as it can be. -/
inductive PairsOff : List ℤ → List ℤ → Prop
  | nil : PairsOff [] []
  | group {cs ds cs' ds' : List ℤ} (hc : cs ≠ []) (hd : ds ≠ []) (hclose : Close cs ds)
      (hfirst : ∀ p q, p <+: cs → q <+: ds → p ≠ [] → q ≠ [] → Close p q → p = cs ∧ q = ds)
      (rest : PairsOff cs' ds') : PairsOff (cs ++ cs') (ds ++ ds')

theorem Close.symm (h : Close p q) : Close q p := by
  unfold Close at h ⊢
  rwa [abs_sub_comm]

theorem PairsOff.symm (h : PairsOff cs ds) : PairsOff ds cs := by
  induction h with
  | nil => exact .nil
  | group hc hd hclose hfirst rest ih =>
    refine .group hd hc hclose.symm (fun p q hp hq hpne hqne h => ?_) ih
    exact (hfirst q p hq hp hqne hpne h.symm).symm

/-- Nothing pays for a nonempty list but a nonempty list. -/
theorem pairsOff_nil_left : PairsOff [] ds ↔ ds = [] := by
  constructor
  · intro h
    generalize hcs : ([] : List ℤ) = cs at h
    cases h with
    | nil => rfl
    | group hc =>
      rw [eq_comm, append_eq_nil_iff] at hcs
      exact absurd hcs.1 hc
  · rintro rfl
    exact .nil

/-- The first group of two nonempty lists. -/
theorem PairsOff.cons_inv (h : PairsOff (c :: cs) (d :: ds)) :
    ∃ p q cs' ds', cs = p ++ cs' ∧ ds = q ++ ds' ∧ Close (c :: p) (d :: q) ∧
      (∀ p' q', p' <+: p → q' <+: q → Close (c :: p') (d :: q') → p' = p ∧ q' = q) ∧
      PairsOff cs' ds' := by
  generalize hcs : c :: cs = l at h
  generalize hds : d :: ds = m at h
  cases h with
  | nil => cases hcs
  | @group p q cs' ds' hp hq hclose hfirst rest =>
    obtain ⟨c₀, p, rfl⟩ := exists_cons_of_ne_nil hp
    obtain ⟨d₀, q, rfl⟩ := exists_cons_of_ne_nil hq
    rw [cons_append, List.cons.injEq] at hcs hds
    obtain ⟨rfl, rfl⟩ := hcs
    obtain ⟨rfl, rfl⟩ := hds
    refine ⟨p, q, cs', ds', rfl, rfl, hclose, fun p' q' hp' hq' h => ?_, rest⟩
    have := hfirst (c :: p') (d :: q') (cons_prefix_cons.mpr ⟨rfl, hp'⟩)
      (cons_prefix_cons.mpr ⟨rfl, hq'⟩) (cons_ne_nil _ _) (cons_ne_nil _ _) h
    simpa using this

/-- A first group, given by its tails. -/
theorem PairsOff.cons {cs' ds' : List ℤ} (hclose : Close (c :: p) (d :: q))
    (hfirst : ∀ p' q', p' <+: p → q' <+: q → Close (c :: p') (d :: q') → p' = p ∧ q' = q)
    (rest : PairsOff cs' ds') : PairsOff (c :: (p ++ cs')) (d :: (q ++ ds')) := by
  rw [← cons_append, ← cons_append]
  refine .group (cons_ne_nil _ _) (cons_ne_nil _ _) hclose
    (fun p₀ q₀ hp hq hpne hqne h => ?_) rest
  obtain ⟨c₀, p', rfl⟩ := exists_cons_of_ne_nil hpne
  obtain ⟨d₀, q', rfl⟩ := exists_cons_of_ne_nil hqne
  obtain ⟨rfl, hp'⟩ := cons_prefix_cons.mp hp
  obtain ⟨rfl, hq'⟩ := cons_prefix_cons.mp hq
  obtain ⟨rfl, rfl⟩ := hfirst p' q' hp' hq' h
  exact ⟨rfl, rfl⟩

/-- Heads that pay for each other are a group. -/
theorem pairsOff_both (h : |c - d| ≤ 1) : PairsOff (c :: cs) (d :: ds) ↔ PairsOff cs ds := by
  have hclose : Close [c] [d] := by simpa [Close] using h
  constructor
  · intro hp
    obtain ⟨p, q, cs', ds', rfl, rfl, -, hfirst, rest⟩ := hp.cons_inv
    obtain ⟨rfl, rfl⟩ := hfirst [] [] nil_prefix nil_prefix hclose
    exact rest
  · intro hp
    refine PairsOff.cons (p := []) (q := []) hclose (fun p' q' hp' hq' _ => ?_) hp
    exact ⟨prefix_nil.mp hp', prefix_nil.mp hq'⟩

theorem sum_nonneg_of_prefix (hp : p <+: l) (hl : ∀ x ∈ l, 0 ≤ x) : 0 ≤ p.sum :=
  sum_nonneg fun x hx => hl x (hp.subset hx)

/-- A head that outlasts the other goes on with the rest. -/
theorem pairsOff_left (hcs : ∀ x ∈ cs, 0 ≤ x) (hlt : d + 2 ≤ c) :
    PairsOff (c :: cs) (d :: ds) ↔ PairsOff ((c - d) :: cs) ds := by
  -- The group of the smaller head has a second member, and dropping it changes no difference.
  have hshift : ∀ p q x, Close (c :: p) (d :: x :: q) ↔ Close ((c - d) :: p) (x :: q) := by
    intro p q x
    unfold Close
    simp only [sum_cons]
    rw [show c + p.sum - (d + (x + q.sum)) = c - d + p.sum - (x + q.sum) by omega]
  have halone : ∀ p, p <+: cs → ¬Close (c :: p) [d] := by
    intro p hp hclose
    have hnonneg := sum_nonneg_of_prefix hp hcs
    simp only [Close, sum_cons, sum_nil, abs_le] at hclose
    omega
  constructor
  · intro h
    obtain ⟨p, q, cs', ds', rfl, rfl, hclose, hfirst, rest⟩ := h.cons_inv
    cases q with
    | nil => exact absurd hclose (halone p (prefix_append p cs'))
    | cons x q =>
      refine PairsOff.cons ((hshift p q x).mp hclose) (fun p' q' hp' hq' h => ?_) rest
      have := hfirst p' (x :: q') hp' (cons_prefix_cons.mpr ⟨rfl, hq'⟩)
        ((hshift p' q' x).mpr h)
      simpa using this
  · intro h
    cases ds with
    | nil => exact absurd (pairsOff_nil_left.mp h.symm) (cons_ne_nil _ _)
    | cons x ds =>
      obtain ⟨p, q, cs', ds', rfl, rfl, hclose, hfirst, rest⟩ := h.cons_inv
      refine PairsOff.cons (q := x :: q) ((hshift p q x).mpr hclose) (fun p' q' hp' hq' hpq => ?_)
        rest
      cases q' with
      | nil => exact absurd hpq (halone p' (hp'.trans (prefix_append p cs')))
      | cons y q' =>
        obtain ⟨rfl, htail⟩ := cons_prefix_cons.mp hq'
        obtain ⟨rfl, rfl⟩ := hfirst p' q' hp' htail ((hshift p' q' y).mp hpq)
        exact ⟨rfl, rfl⟩

/-- The same for the second list. -/
theorem pairsOff_right (hds : ∀ x ∈ ds, 0 ≤ x) (hlt : c + 2 ≤ d) :
    PairsOff (c :: cs) (d :: ds) ↔ PairsOff cs ((d - c) :: ds) := by
  have h : PairsOff (d :: ds) (c :: cs) ↔ PairsOff ((d - c) :: ds) cs := pairsOff_left hds hlt
  exact ⟨fun hp => (h.mp hp.symm).symm, fun hp => (h.mpr hp.symm).symm⟩

/-! ## What the matching leaves -/

/-- The amounts that can be matched. -/
def large (l : List ℤ) : List ℤ := l.filter (fun x => decide (2 ≤ x))

theorem large_cons_of_le (h : 2 ≤ x) (l : List ℤ) : large (x :: l) = x :: large l := by
  simp [large, h]

theorem large_eq_nil : large l = [] ↔ ∀ x ∈ l, x ≤ 1 := by
  simp only [large, filter_eq_nil_iff, decide_eq_true_eq, not_le]
  exact forall₂_congr fun x _ => by omega

theorem nonneg_of_mem_large (h : x ∈ large l) : 0 ≤ x := by
  have := (mem_filter.mp h).2
  simp only [decide_eq_true_eq] at this
  omega

/-- **The matching leaves single units only when the amounts pair off**, and only then. -/
theorem Matched.small_iff (h : Matched cs ds rc rd) :
    ((∀ r ∈ rc, r ≤ 1) ∧ ∀ r ∈ rd, r ≤ 1) ↔ PairsOff (large cs) (large ds) := by
  induction h with
  | @stop cs ds h =>
    rw [← large_eq_nil, ← large_eq_nil]
    rcases h with h | h
    · have hnil : large cs = [] := large_eq_nil.mpr fun c hc => (h c hc).le
      rw [hnil, pairsOff_nil_left]
      simp
    · have hnil : large ds = [] := large_eq_nil.mpr fun d hd => (h d hd).le
      rw [hnil]
      exact ⟨fun h => h.1 ▸ .nil, fun h => ⟨pairsOff_nil_left.mp h.symm, rfl⟩⟩
  | @both c d cs ds rc rd hc hd hclose rest ih =>
    rw [large_cons_of_le hc, large_cons_of_le hd, pairsOff_both hclose, ← ih,
      forall_mem_cons, forall_mem_cons]
    rw [abs_le] at hclose
    have hcl : c - min c d ≤ 1 := by omega
    have hdl : d - min c d ≤ 1 := by omega
    simp [hcl, hdl]
  | @left c d cs ds rc rd hd hlt rest ih =>
    rw [large_cons_of_le (by omega : 2 ≤ c), large_cons_of_le hd,
      pairsOff_left (fun x hx => nonneg_of_mem_large hx) hlt,
      ← large_cons_of_le (by omega : 2 ≤ c - d), ← ih, forall_mem_cons]
    simp
  | @right c d cs ds rc rd hc hlt rest ih =>
    rw [large_cons_of_le (by omega : 2 ≤ d), large_cons_of_le hc,
      pairsOff_right (fun x hx => nonneg_of_mem_large hx) hlt,
      ← large_cons_of_le (by omega : 2 ≤ d - c), ← ih, forall_mem_cons]
    simp

end Matching
