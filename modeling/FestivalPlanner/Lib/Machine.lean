import Mathlib.Data.List.Basic
import Mathlib.Order.Lattice

/-!
# Partial machines, runs and conditional invariants

A machine is a function `step : σ → α → Option σ`: what one action makes of a
state, and `none` when the action is not enabled there.  Nothing in this file
knows what the states or the actions are.

* `run` — a whole sequence of actions, `none` as soon as one is not enabled;
* `Meets` — every step of a run is taken in a state that meets a condition;
* `Always` — every state of a run has a property;
* `Each` — every step of a run has a property;
* `inv_run` — an invariant that every step keeps is kept by every run;
* `inv_run_of_meets` — the same when the steps keep it only under a condition
  that every step of the run meets;
* `clocked` — the machine with a clock that only advances.
-/

namespace Machine

variable {σ α : Type*}

/-! ## Runs -/

/-- Take the actions one after the other; `none` as soon as one is not enabled. -/
def run (step : σ → α → Option σ) (s : σ) : List α → Option σ
  | [] => some s
  | a :: as =>
      match step s a with
      | none => none
      | some t => run step t as

/-- Every action of the run from `s` is taken in a state that meets `C`. -/
@[grind =] def Meets (step : σ → α → Option σ) (C : σ → α → Prop) (s : σ) : List α → Prop
  | [] => True
  | a :: as =>
      C s a ∧ match step s a with
        | none => True
        | some t => Meets step C t as

/-- The property holds in every state of the run from `s`. -/
def Always (step : σ → α → Option σ) (P : σ → Prop) (s : σ) : List α → Prop
  | [] => P s
  | a :: as =>
      P s ∧ match step s a with
        | none => True
        | some t => Always step P t as

/-- Every step of the run from `s` has the property `Q`. -/
def Each (step : σ → α → Option σ) (Q : σ → α → σ → Prop) (s : σ) : List α → Prop
  | [] => True
  | a :: as =>
      match step s a with
      | none => True
      | some t => Q s a t ∧ Each step Q t as

instance Meets.decidable (step : σ → α → Option σ) (C : σ → α → Prop)
    [∀ s a, Decidable (C s a)] : ∀ (s : σ) (as : List α), Decidable (Meets step C s as)
  | _, [] => .isTrue trivial
  | s, a :: as =>
      have : Decidable (match step s a with
          | none => True
          | some t => Meets step C t as) :=
        match step s a with
        | none => .isTrue trivial
        | some t => Meets.decidable step C t as
      inferInstanceAs (Decidable (_ ∧ _))

variable {step : σ → α → Option σ} {C : σ → α → Prop}

theorem run_cons_eq_some {s t : σ} {a : α} {as : List α} :
    run step s (a :: as) = some t ↔ ∃ m, step s a = some m ∧ run step m as = some t := by
  rw [run]
  cases step s a <;> simp

theorem meets_cons {s : σ} {a : α} {as : List α} :
    Meets step C s (a :: as) ↔ C s a ∧ ∀ t, step s a = some t → Meets step C t as := by
  rw [Meets]
  cases step s a <;> simp

/-- A weaker condition is met by the same runs. -/
theorem Meets.mono {D : σ → α → Prop} (hCD : ∀ s a, C s a → D s a) {as : List α} {s : σ}
    (h : Meets step C s as) : Meets step D s as := by
  induction as generalizing s with
  | nil => trivial
  | cons a as ih =>
    rw [meets_cons] at h ⊢
    exact ⟨hCD s a h.1, fun t ht => ih (h.2 t ht)⟩

theorem Meets.of_forall (hC : ∀ s a, C s a) (as : List α) (s : σ) : Meets step C s as := by
  induction as generalizing s with
  | nil => trivial
  | cons a as ih =>
    rw [meets_cons]
    exact ⟨hC s a, fun t _ => ih t⟩

/-! ## Invariants -/

/-- An invariant kept by every step that meets `C` holds at the end of every run
all of whose steps meet `C`. -/
theorem inv_run_of_meets {I : σ → Prop}
    (hstep : ∀ s a t, I s → C s a → step s a = some t → I t) {as : List α} {s t : σ}
    (hI : I s) (hC : Meets step C s as) (hrun : run step s as = some t) : I t := by
  induction as generalizing s with
  | nil =>
    cases hrun
    exact hI
  | cons a as ih =>
    obtain ⟨m, hm, hrest⟩ := run_cons_eq_some.mp hrun
    obtain ⟨ha, hnext⟩ := meets_cons.mp hC
    exact ih (hstep s a m hI ha hm) (hnext m hm) hrest

/-- An invariant kept by every step holds at the end of every run. -/
theorem inv_run {I : σ → Prop} (hstep : ∀ s a t, I s → step s a = some t → I t)
    {as : List α} {s t : σ} (hI : I s) (hrun : run step s as = some t) : I t :=
  inv_run_of_meets (fun s a t hI _ => hstep s a t hI) hI
    (Meets.of_forall (fun _ _ => trivial) as s) hrun

theorem always_cons {P : σ → Prop} {s : σ} {a : α} {as : List α} :
    Always step P s (a :: as) ↔ P s ∧ ∀ t, step s a = some t → Always step P t as := by
  rw [Always]
  cases step s a <;> simp

theorem Always.head {P : σ → Prop} {s : σ} {as : List α} (h : Always step P s as) : P s := by
  cases as with
  | nil => exact h
  | cons a as => exact h.1

theorem Always.last {P : σ → Prop} {s t : σ} {as : List α} (h : Always step P s as)
    (hrun : run step s as = some t) : P t := by
  induction as generalizing s with
  | nil =>
    cases hrun
    exact h
  | cons a as ih =>
    obtain ⟨m, hm, hrest⟩ := run_cons_eq_some.mp hrun
    exact ih ((always_cons.mp h).2 m hm) hrest

theorem each_cons {Q : σ → α → σ → Prop} {s : σ} {a : α} {as : List α} :
    Each step Q s (a :: as) ↔ ∀ t, step s a = some t → Q s a t ∧ Each step Q t as := by
  rw [Each]
  cases step s a <;> simp

/-- A weaker property is one of the same steps. -/
theorem Each.mono {Q R : σ → α → σ → Prop} (hQR : ∀ s a t, Q s a t → R s a t) {as : List α}
    {s : σ} (h : Each step Q s as) : Each step R s as := by
  induction as generalizing s with
  | nil => trivial
  | cons a as ih =>
    rw [each_cons] at h ⊢
    exact fun t ht => ⟨hQR s a t (h t ht).1, ih (h t ht).2⟩

/-- It is one of the last step. -/
theorem Each.last {Q : σ → α → σ → Prop} {as : List α} {a : α} {s m t : σ}
    (h : Each step Q s (as ++ [a])) (hrun : run step s as = some m) (hstep : step m a = some t) :
    Q m a t := by
  induction as generalizing s with
  | nil =>
    cases hrun
    exact (each_cons.mp h t hstep).1
  | cons b as ih =>
    obtain ⟨n, hn, hrest⟩ := run_cons_eq_some.mp hrun
    rw [List.cons_append] at h
    exact ih (each_cons.mp h n hn).2 hrest

/-- In a run whose steps are all taken in the domain `D`: when such a step from a state with the
invariant has a property exactly if it meets `C`, and then keeps the invariant, all steps have it
exactly if all of them meet `C`. -/
theorem each_iff_meets_of_meets {I : σ → Prop} {D : σ → α → Prop} {Q : σ → α → σ → Prop}
    (hinv : ∀ s a t, I s → D s a → C s a → step s a = some t → I t)
    (hstep : ∀ s a t, I s → D s a → step s a = some t → (Q s a t ↔ C s a)) {as : List α}
    {s t : σ} (hs : I s) (hD : Meets step D s as) (hrun : run step s as = some t) :
    Each step Q s as ↔ Meets step C s as := by
  induction as generalizing s with
  | nil => exact Iff.rfl
  | cons a as ih =>
    obtain ⟨m, hm, hrest⟩ := run_cons_eq_some.mp hrun
    obtain ⟨ha, hDm⟩ := meets_cons.mp hD
    rw [each_cons, meets_cons]
    constructor
    · intro h
      obtain ⟨hQ, hE⟩ := h m hm
      have hC := (hstep s a m hs ha hm).mp hQ
      refine ⟨hC, fun t ht => ?_⟩
      obtain rfl := Option.some.inj (hm.symm.trans ht)
      exact (ih (hinv s a m hs ha hC hm) (hDm m hm) hrest).mp hE
    · rintro ⟨hC, h⟩ t ht
      obtain rfl := Option.some.inj (hm.symm.trans ht)
      exact ⟨(hstep s a m hs ha hm).mpr hC,
        (ih (hinv s a m hs ha hC hm) (hDm m hm) hrest).mpr (h m hm)⟩

/-- When a step from a state with the invariant has a property exactly if it meets `C`, and then
keeps the invariant, all steps of a run have it exactly if all of them meet `C`. -/
theorem each_iff_meets {I : σ → Prop} {Q : σ → α → σ → Prop}
    (hinv : ∀ s a t, I s → C s a → step s a = some t → I t)
    (hstep : ∀ s a t, I s → step s a = some t → (Q s a t ↔ C s a)) {as : List α} {s t : σ}
    (hs : I s) (hrun : run step s as = some t) : Each step Q s as ↔ Meets step C s as :=
  each_iff_meets_of_meets (fun s a t hI _ => hinv s a t hI) (fun s a t hI _ => hstep s a t hI) hs
    (Meets.of_forall (fun _ _ => trivial) as s) hrun

/-- The same in one direction: the steps of a run that meet `C` have the property. -/
theorem each_of_meets {I : σ → Prop} {Q : σ → α → σ → Prop}
    (hinv : ∀ s a t, I s → C s a → step s a = some t → I t)
    (hstep : ∀ s a t, I s → C s a → step s a = some t → Q s a t) {as : List α} {s : σ}
    (hs : I s) (hC : Meets step C s as) : Each step Q s as := by
  induction as generalizing s with
  | nil => trivial
  | cons a as ih =>
    obtain ⟨ha, hnext⟩ := meets_cons.mp hC
    rw [each_cons]
    exact fun t ht => ⟨hstep s a t hs ha ht, ih (hinv s a t hs ha ht) (hnext t ht)⟩

/-- A property of every step is one of every step of a run. -/
theorem each_of_step {Q : σ → α → σ → Prop} (hstep : ∀ s a t, step s a = some t → Q s a t)
    (as : List α) (s : σ) : Each step Q s as :=
  each_of_meets (I := fun _ => True) (fun _ _ _ _ _ _ => trivial)
    (fun s a t _ _ => hstep s a t) trivial (Meets.of_forall (fun _ _ => trivial) as s)

/-- The states of a run are the first one and those that its steps lead to. -/
theorem always_iff_each {P : σ → Prop} {as : List α} {s : σ} :
    Always step P s as ↔ P s ∧ Each step (fun _ _ t => P t) s as := by
  induction as generalizing s with
  | nil => exact ⟨fun h => ⟨h, trivial⟩, fun h => h.1⟩
  | cons a as ih =>
    rw [always_cons, each_cons]
    exact and_congr_right fun _ => forall_congr' fun t => imp_congr_right fun _ => ih

/-- In a run whose steps are all taken in the domain `D`, a property that such a step keeps exactly
when it meets `C` holds throughout exactly when all of the steps meet `C`. -/
theorem always_iff_meets_of_meets {P : σ → Prop} {D : σ → α → Prop}
    (hstep : ∀ s a t, P s → D s a → step s a = some t → (P t ↔ C s a)) {as : List α} {s t : σ}
    (hs : P s) (hD : Meets step D s as) (hrun : run step s as = some t) :
    Always step P s as ↔ Meets step C s as := by
  rw [always_iff_each, and_iff_right hs]
  exact each_iff_meets_of_meets (fun s a t hP hD hC h => (hstep s a t hP hD h).mpr hC) hstep hs hD
    hrun

/-- A property that a step keeps exactly when it meets `C` holds throughout a run exactly
when all of its steps meet `C`. -/
theorem always_iff_meets {P : σ → Prop}
    (hstep : ∀ s a t, P s → step s a = some t → (P t ↔ C s a)) {as : List α} {s t : σ}
    (hs : P s) (hrun : run step s as = some t) :
    Always step P s as ↔ Meets step C s as :=
  always_iff_meets_of_meets (fun s a t hP _ => hstep s a t hP) hs
    (Meets.of_forall (fun _ _ => trivial) as s) hrun

/-- The same when the equivalence needs an invariant that a step keeps from states with the
property. -/
theorem always_iff_meets_of_inv {I P : σ → Prop}
    (hinv : ∀ s a t, I s → P s → step s a = some t → I t)
    (hstep : ∀ s a t, I s → P s → step s a = some t → (P t ↔ C s a)) {as : List α} {s t : σ}
    (hI : I s) (hs : P s) (hrun : run step s as = some t) :
    Always step P s as ↔ Meets step C s as := by
  rw [always_iff_each, and_iff_right hs]
  exact each_iff_meets (I := fun s => I s ∧ P s)
    (fun s a t h hC ht => ⟨hinv s a t h.1 h.2 ht, (hstep s a t h.1 h.2 ht).mpr hC⟩)
    (fun s a t h => hstep s a t h.1 h.2) ⟨hI, hs⟩ hrun

/-- What an invariant of the steps that meet `C` gives holds in every state of a run all of whose
steps meet `C`. -/
theorem always_of_meets {I P : σ → Prop}
    (hstep : ∀ s a t, I s → C s a → step s a = some t → I t) (hP : ∀ s, I s → P s) {as : List α}
    {s : σ} (hs : I s) (hC : Meets step C s as) : Always step P s as :=
  always_iff_each.mpr ⟨hP s hs,
    each_of_meets hstep (fun s a t hI ha h => hP t (hstep s a t hI ha h)) hs hC⟩

/-- What an invariant of all steps gives holds in every state of a run. -/
theorem always_of_step {I P : σ → Prop} (hstep : ∀ s a t, I s → step s a = some t → I t)
    (hP : ∀ s, I s → P s) {as : List α} {s : σ} (hs : I s) : Always step P s as :=
  always_of_meets (fun s a t hI _ => hstep s a t hI) hP hs
    (Meets.of_forall (fun _ _ => trivial) as s)

/-! ## Runs under a clock -/

/-- The machine together with a clock that only advances: an action that carries a
time is enabled when that time has not passed, and sets the clock. -/
def clocked {τ : Type*} [LinearOrder τ] (time : α → Option τ) (step : σ → α → Option σ)
    (p : σ × τ) (a : α) : Option (σ × τ) :=
  match time a with
  | none => (step p.1 a).map (fun t => (t, p.2))
  | some now => if p.2 ≤ now then (step p.1 a).map (fun t => (t, now)) else none

/-- A clocked step is a step at a time that is not before the clock. -/
theorem clocked_eq_some {τ : Type*} [LinearOrder τ] {time : α → Option τ} {p q : σ × τ} {a : α}
    (h : clocked time step p a = some q) :
    step p.1 a = some q.1 ∧ p.2 ≤ q.2 ∧ ∀ now, time a = some now → q.2 = now := by
  simp only [clocked] at h
  cases ht : time a with
  | none =>
    rw [ht] at h
    obtain ⟨t, hs, rfl⟩ := Option.map_eq_some_iff.mp h
    exact ⟨hs, le_refl _, fun now hn => by cases hn⟩
  | some now =>
    rw [ht] at h
    by_cases hle : p.2 ≤ now
    · simp only [if_pos hle] at h
      obtain ⟨t, hs, rfl⟩ := Option.map_eq_some_iff.mp h
      exact ⟨hs, hle, fun n hn => by cases hn; rfl⟩
    · simp only [if_neg hle] at h
      cases h

end Machine
