import Mathlib.Data.Finset.Card

/-!
# Union-find with path compression

Each of the numbers below `n` has a parent, a root itself.  The loops have a round for each number,
which is enough.

* `root`, `compress`, `find` — the root of a number; the numbers on the way are put under it;
* `union` — one root is put under another;
* `Represents` — the parents lead every number to its representative;
* `root_eq` — the rounds are enough;
* `Represents.find`, `Represents.union` — what the operations keep and change;
* `exists_represents` — **after the unions of a list of edges two numbers have one root exactly when
  the edges connect them**.
-/

namespace UnionFind

/-! ## The operations -/

/-- The root that the parents of `x` lead to. -/
def root (parent : ℕ → ℕ) : ℕ → ℕ → ℕ
  | 0, x => x
  | fuel + 1, x => if parent x = x then x else root parent fuel (parent x)

/-- Puts the numbers on the way from `x` under the root. -/
def compress (r : ℕ) : ℕ → (ℕ → ℕ) → ℕ → (ℕ → ℕ)
  | 0, parent, _ => parent
  | fuel + 1, parent, x =>
      if parent x = r then parent else compress r fuel (Function.update parent x r) (parent x)

/-- The root of a number, and the parents after the way to it. -/
def find (n : ℕ) (parent : ℕ → ℕ) (x : ℕ) : ℕ × (ℕ → ℕ) :=
  let r := root parent n x
  (r, compress r n parent x)

/-- Puts the root of `a` under that of `b`. -/
def union (n : ℕ) (parent : ℕ → ℕ) (a b : ℕ) : ℕ → ℕ :=
  let (ra, parent) := find n parent a
  let (rb, parent) := find n parent b
  if ra ≠ rb then Function.update parent ra rb else parent

/-- The unions of a list of edges, from numbers that are roots. -/
def unionAll (n : ℕ) (edges : List (ℕ × ℕ)) : ℕ → ℕ :=
  edges.foldl (fun parent e => union n parent e.1 e.2) id

/-! ## Parents that lead to representatives -/

/-- Parents are nearer to their roots by a measure. -/
def Nearer (n : ℕ) (parent measure : ℕ → ℕ) : Prop :=
  ∀ x < n, parent x ≠ x → measure (parent x) < measure x

/-- The parents lead each number to its representative. -/
structure Represents (n : ℕ) (parent rep : ℕ → ℕ) : Prop where
  lt : ∀ x < n, parent x < n
  same : ∀ x < n, rep (parent x) = rep x
  of_root : ∀ x < n, parent x = x → rep x = x
  nearer : ∃ measure, Nearer n parent measure

theorem represents_id (n : ℕ) : Represents n id id :=
  ⟨fun _ h => h, fun _ _ => rfl, fun _ _ _ => rfl, id, fun _ _ h => absurd rfl h⟩

section
variable {n : ℕ} {parent rep measure : ℕ → ℕ} {x : ℕ}

/-- A measure may be taken below the number of the numbers. -/
theorem exists_nearer_lt (h : Nearer n parent measure) (hlt : ∀ x < n, parent x < n) :
    ∃ depth, Nearer n parent depth ∧ ∀ x < n, depth x < n := by
  refine ⟨fun x => ((Finset.range n).filter (measure · < measure x)).card, ?_, ?_⟩
  · intro x hx hne
    apply Finset.card_lt_card
    rw [Finset.ssubset_iff_of_subset]
    · refine ⟨parent x, ?_, ?_⟩
      · exact Finset.mem_filter.mpr ⟨Finset.mem_range.mpr (hlt x hx), h x hx hne⟩
      · simp
    · intro y hy
      rw [Finset.mem_filter] at hy ⊢
      exact ⟨hy.1, hy.2.trans (h x hx hne)⟩
  · intro x hx
    calc ((Finset.range n).filter (measure · < measure x)).card < (Finset.range n).card := by
          apply Finset.card_lt_card
          refine ⟨Finset.filter_subset _ _, fun hall => ?_⟩
          have := hall (Finset.mem_range.mpr hx)
          simp at this
      _ = n := Finset.card_range n

theorem Represents.rep_spec (h : Represents n parent rep) (hm : Nearer n parent measure)
    (hx : x < n) :
    rep x < n ∧ parent (rep x) = rep x ∧ rep (rep x) = rep x ∧
      (rep x ≠ x → measure (rep x) < measure x) := by
  induction hk : measure x using Nat.strong_induction_on generalizing x with
  | _ k ih =>
    by_cases hroot : parent x = x
    · have hrep := h.of_root x hx hroot
      rw [hrep]
      exact ⟨hx, hroot, hrep, absurd rfl⟩
    · have hless := hm x hx hroot
      obtain ⟨hlt, hfix, hidem, hnear⟩ := ih _ (hk ▸ hless) (h.lt x hx) rfl
      rw [h.same x hx] at hlt hfix hidem hnear
      refine ⟨hlt, hfix, hidem, fun _ => ?_⟩
      by_cases hparent : rep x = parent x
      · rw [hparent]
        omega
      · have := hnear hparent
        omega

theorem root_of_le (h : Represents n parent rep) (hm : Nearer n parent measure) {fuel : ℕ}
    (hx : x < n) (hfuel : measure x ≤ fuel) : root parent fuel x = rep x := by
  induction fuel generalizing x with
  | zero =>
    have hroot : parent x = x := by
      by_contra hne
      have := hm x hx hne
      omega
    exact (h.of_root x hx hroot).symm
  | succ fuel ih =>
    unfold root
    by_cases hroot : parent x = x
    · rw [if_pos hroot]
      exact (h.of_root x hx hroot).symm
    · have hless := hm x hx hroot
      rw [if_neg hroot, ih (h.lt x hx) (by omega), h.same x hx]

/-- **The root is the representative.** -/
theorem root_eq (h : Represents n parent rep) (hx : x < n) : root parent n x = rep x := by
  obtain ⟨measure, hm⟩ := h.nearer
  obtain ⟨depth, hdepth, hlt⟩ := exists_nearer_lt hm h.lt
  exact root_of_le h hdepth hx (hlt x hx).le

/-- A number may be put under its root. -/
theorem Represents.update (h : Represents n parent rep) (hx : x < n) :
    Represents n (Function.update parent x (rep x)) rep := by
  obtain ⟨measure, hm⟩ := h.nearer
  obtain ⟨hlt, -, hidem, hnear⟩ := h.rep_spec hm hx
  refine ⟨fun y hy => ?_, fun y hy => ?_, fun y hy hroot => ?_, measure, fun y hy hne => ?_⟩
  all_goals
    rcases eq_or_ne y x with rfl | hyx
    · simp only [Function.update_self] at *
      first
        | exact hlt
        | exact hidem
        | exact hroot
        | exact hnear hne
    · simp only [Function.update_of_ne hyx] at *
      first
        | exact h.lt y hy
        | exact h.same y hy
        | exact h.of_root y hy hroot
        | exact hm y hy hne

theorem Represents.compress (h : Represents n parent rep) (fuel : ℕ) (hx : x < n) :
    Represents n (compress (rep x) fuel parent x) rep := by
  induction fuel generalizing parent x with
  | zero => exact h
  | succ fuel ih =>
    unfold UnionFind.compress
    split
    · exact h
    · rw [← h.same x hx]
      have hput := h.update hx
      rw [← h.same x hx] at hput
      exact ih hput (h.lt x hx)

/-- A search finds the representative and keeps all of them. -/
theorem Represents.find (h : Represents n parent rep) (hx : x < n) :
    (find n parent x).1 = rep x ∧ Represents n (find n parent x).2 rep := by
  unfold UnionFind.find
  simp only [root_eq h hx, true_and]
  exact h.compress n hx

/-- A root may be put under another one. -/
theorem Represents.link (h : Represents n parent rep) {a b : ℕ} (ha : a < n) (hb : b < n)
    (hne : rep a ≠ rep b) :
    Represents n (Function.update parent (rep a) (rep b))
      (fun y => if rep y = rep a then rep b else rep y) := by
  obtain ⟨measure, hm⟩ := h.nearer
  obtain ⟨-, haroot, haidem, -⟩ := h.rep_spec hm ha
  obtain ⟨hblt, -, hbidem, -⟩ := h.rep_spec hm hb
  refine ⟨fun y hy => ?_, fun y hy => ?_, fun y hy hroot => ?_,
    fun y => measure y + if rep y = rep a then measure (rep b) + 1 else 0, fun y hy hstep => ?_⟩
  all_goals
    rcases eq_or_ne y (rep a) with rfl | hya
  · rwa [Function.update_self]
  · rw [Function.update_of_ne hya]
    exact h.lt y hy
  · simp only [Function.update_self, hbidem, haidem, if_true, if_neg hne.symm]
  · simp only [Function.update_of_ne hya, h.same y hy]
  · rw [Function.update_self] at hroot
    exact absurd hroot.symm hne
  · rw [Function.update_of_ne hya] at hroot
    rw [h.of_root y hy hroot, if_neg hya]
  · simp only [Function.update_self, hbidem, haidem, if_true, if_neg hne.symm]
    omega
  · simp only [Function.update_of_ne hya, h.same y hy] at hstep ⊢
    have := hm y hy hstep
    omega

/-- A union gives the numbers of one root the other. -/
theorem Represents.union (h : Represents n parent rep) {a b : ℕ} (ha : a < n) (hb : b < n) :
    Represents n (union n parent a b) (fun y => if rep y = rep a then rep b else rep y) := by
  obtain ⟨hra, hparent⟩ := h.find ha
  obtain ⟨hrb, hparent'⟩ := hparent.find hb
  unfold UnionFind.union
  simp only [hra, hrb]
  split
  · next hne => exact hparent'.link ha hb hne
  · next hsame =>
    rw [not_not] at hsame
    have hrep : (fun y => if rep y = rep a then rep b else rep y) = rep := by
      funext y
      split
      · next hy => rw [hy, hsame]
      · rfl
    rwa [hrep]

end

/-! ## Edges -/

/-- The edges connect two numbers. -/
def Connected (edges : List (ℕ × ℕ)) : ℕ → ℕ → Prop :=
  Relation.EqvGen fun a b => (a, b) ∈ edges

theorem connected_mono {edges edges' : List (ℕ × ℕ)} (h : ∀ e ∈ edges, e ∈ edges') {x y : ℕ}
    (hxy : Connected edges x y) : Connected edges' x y :=
  Relation.EqvGen.mono (fun a b => h (a, b)) _ _ hxy

/-- **After the unions two numbers have one root exactly when the edges connect them.** -/
theorem exists_represents {n : ℕ} (edges : List (ℕ × ℕ))
    (hedges : ∀ e ∈ edges, e.1 < n ∧ e.2 < n) :
    ∃ rep, Represents n (unionAll n edges) rep ∧ ∀ x y, rep x = rep y ↔ Connected edges x y := by
  induction edges using List.reverseRecOn with
  | nil =>
    refine ⟨id, represents_id n, fun x y => ⟨fun h => ?_, fun h => ?_⟩⟩
    · rw [id, id] at h
      exact h ▸ Relation.EqvGen.refl x
    · induction h with
      | rel a b hab => cases hab
      | refl a => rfl
      | symm a b _ ih => exact ih.symm
      | trans a b c _ _ ih ih' => exact ih.trans ih'
  | append_singleton edges e ih =>
    obtain ⟨rep, hrep, hiff⟩ := ih fun e he => hedges e (List.mem_append_left _ he)
    obtain ⟨ha, hb⟩ := hedges e (by simp)
    obtain ⟨a, b⟩ := e
    have hold {x y : ℕ} (h : rep x = rep y) : Connected (edges ++ [(a, b)]) x y :=
      connected_mono (fun e => List.mem_append_left _) ((hiff x y).mp h)
    have hnew : Connected (edges ++ [(a, b)]) a b := Relation.EqvGen.rel _ _ (by simp)
    refine ⟨fun y => if rep y = rep a then rep b else rep y, ?_,
      fun x y => ⟨fun h => ?_, fun h => ?_⟩⟩
    · rw [unionAll, List.foldl_append, ← unionAll]
      exact hrep.union ha hb
    · simp only at h
      split_ifs at h with hx hy hy
      · exact hold (hx.trans hy.symm)
      · exact ((hold hx).trans _ _ _ hnew).trans _ _ _ (hold h)
      · exact ((hold h).trans _ _ _ (hnew.symm _ _)).trans _ _ _ (hold hy).symm
      · exact hold h
    · induction h with
      | rel u v huv =>
        rcases List.mem_append.mp huv with hin | hin
        · simp only [(hiff u v).mpr (Relation.EqvGen.rel _ _ hin)]
        · obtain ⟨rfl, rfl⟩ := Prod.mk.inj (List.mem_singleton.mp hin)
          simp
      | refl u => rfl
      | symm u v _ ih => exact ih.symm
      | trans u v w _ _ ih ih' => exact ih.trans ih'

end UnionFind
