import Mathlib.Data.List.Basic
import Mathlib.Order.Lattice

/-!
# Histories

A history is the list of what happened so far, oldest first.  A statement about
runs often says of each event how it relates to the events before it; `Along P h`
says that of the whole history `h`, `Onward F h` says of each event how it relates to
the events after it, and the lemmas follow how a history grows.  `exists_parted` parts a history
at a time.
-/

namespace History

open List

variable {ε : Type*} {P : List ε → ε → Prop}

/-- Every event `x` of the history, with the events `past` before it, meets `P past x`. -/
def Along (P : List ε → ε → Prop) (h : List ε) : Prop :=
  ∀ past x future, h = past ++ x :: future → P past x

theorem along_nil : Along P [] := by
  intro past x future h
  simp at h

/-- A statement about the events of a longer history is one about the events of the shorter one,
with one more event after them, and one about the new event. -/
theorem forall_concat {Q : List ε → ε → List ε → Prop} {h : List ε} {y : ε} :
    (∀ past x future, h ++ [y] = past ++ x :: future → Q past x future) ↔
      (∀ past x future, h = past ++ x :: future → Q past x (future ++ [y])) ∧ Q h y [] := by
  constructor
  · intro H
    exact ⟨fun past x future e => H past x (future ++ [y]) (by simp [e]), H h y [] rfl⟩
  · rintro ⟨H, hy⟩ past x future e
    rcases eq_nil_or_concat future with rfl | ⟨future, z, rfl⟩
    · obtain ⟨rfl, hx⟩ := append_inj' e rfl
      cases hx
      exact hy
    · rw [concat_eq_append, ← cons_append, ← append_assoc] at e
      obtain ⟨rfl, hz⟩ := append_inj' e rfl
      cases hz
      rw [concat_eq_append]
      exact H past x future rfl

/-- One more event adds one more requirement. -/
theorem along_concat {h : List ε} {y : ε} : Along P (h ++ [y]) ↔ Along P h ∧ P h y :=
  forall_concat

/-- Events that require nothing can be added freely. -/
theorem Along.append {h new : List ε} (H : Along P h) (hnew : ∀ past, ∀ y ∈ new, P past y) :
    Along P (h ++ new) := by
  induction new generalizing h with
  | nil => simpa using H
  | cons y new ih =>
    rw [← singleton_append, ← append_assoc]
    exact ih (along_concat.mpr ⟨H, hnew h y (mem_cons_self ..)⟩)
      (fun past z hz => hnew past z (mem_cons_of_mem _ hz))

/-! ## What follows -/

/-- Every event `x` of the history, with the events `future` after it, meets `F x future`. -/
def Onward (F : ε → List ε → Prop) (h : List ε) : Prop :=
  ∀ past x future, h = past ++ x :: future → F x future

section
variable {F G : ε → List ε → Prop} {h : List ε}

theorem onward_nil : Onward F [] := by
  intro past x future e
  simp at e

theorem onward_concat {y : ε} :
    Onward F (h ++ [y]) ↔ Onward (fun x future => F x (future ++ [y])) h ∧ F y [] :=
  forall_concat

theorem Onward.mono (H : Onward F h) (hFG : ∀ x future, F x future → G x future) : Onward G h :=
  fun past x future e => hFG x future (H past x future e)

end

/-! ## In the order of time -/

/-- A history in the order of time parts at any time. -/
theorem exists_parted {τ : Type*} [LinearOrder τ] {time : ε → τ} {h : List ε}
    (hh : h.Pairwise (fun x y => time x ≤ time y)) (t : τ) :
    ∃ before after, h = before ++ after ∧ (∀ x ∈ before, time x < t) ∧ ∀ x ∈ after, t ≤ time x := by
  induction h with
  | nil => exact ⟨[], [], rfl, by simp, by simp⟩
  | cons x h ih =>
    obtain ⟨hx, hh⟩ := pairwise_cons.mp hh
    by_cases hlt : time x < t
    · obtain ⟨before, after, rfl, hbefore, hafter⟩ := ih hh
      refine ⟨x :: before, after, rfl, ?_, hafter⟩
      intro y hy
      rcases mem_cons.mp hy with rfl | hy
      · exact hlt
      · exact hbefore y hy
    · refine ⟨[], x :: h, rfl, by simp, ?_⟩
      intro y hy
      rcases mem_cons.mp hy with rfl | hy
      · exact not_lt.mp hlt
      · exact le_trans (not_lt.mp hlt) (hx y hy)

/-! ## Deciding -/

/-- `Along P` for the events `h` that come after the events `past`. -/
def AlongFrom (P : List ε → ε → Prop) (past : List ε) : List ε → Prop
  | [] => True
  | x :: h => P past x ∧ AlongFrom P (past ++ [x]) h

theorem alongFrom_iff {past h : List ε} :
    AlongFrom P past h ↔ ∀ mid x future, h = mid ++ x :: future → P (past ++ mid) x := by
  induction h generalizing past with
  | nil => simp [AlongFrom]
  | cons y h ih =>
    rw [AlongFrom, ih]
    constructor
    · rintro ⟨hy, H⟩ mid x future e
      cases mid with
      | nil =>
        cases e
        simpa using hy
      | cons z mid =>
        obtain ⟨rfl, e'⟩ := List.cons.inj e
        simpa using H mid x future e'
    · intro H
      refine ⟨by simpa using H [] y h rfl, fun mid x future e => ?_⟩
      simpa using H (y :: mid) x future (by simp [e])

instance AlongFrom.decidable [∀ past x, Decidable (P past x)] :
    ∀ past h, Decidable (AlongFrom P past h)
  | _, [] => .isTrue trivial
  | past, x :: h =>
      have := AlongFrom.decidable (past ++ [x]) h
      inferInstanceAs (Decidable (P past x ∧ AlongFrom P (past ++ [x]) h))

instance Along.decidable [∀ past x, Decidable (P past x)] (h : List ε) : Decidable (Along P h) :=
  decidable_of_iff (AlongFrom P [] h) (by rw [alongFrom_iff]; simp [Along])

end History
