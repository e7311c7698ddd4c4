import FestivalPlanner.Lib.JsDate

/-!
# Time zones whose clock is changed now and then

A zone gives every instant an offset, which stays the same from one transition to the next.

* `Zone` — offsets of at most fourteen hours, transitions more than two days apart and of at most
  two hours;
* `Zone.changed` — a zone with one transition;
* `Zone.within` — in two days there is one transition at most;
* `Zone.Shows` — the wall clock shows a time at some instant;
* `Zone.instant` — an offset guessed from the wall clock and corrected once;
* `Zone.localTime_instant` — **the instant of a time that the wall clock shows shows that time**.
-/

namespace Zones

open Js

/-- The offset is another one from this instant on. -/
def IsTransition (offset : ℤ → ℤ) (t : ℤ) : Prop := offset (t - 1) ≠ offset t

/-- A zone, by its offset at each instant. -/
structure Zone where
  offset : ℤ → ℤ
  bounded : ∀ t, |offset t| ≤ 14 * msPerHour
  apart : ∀ t u, IsTransition offset t → IsTransition offset u → t < u → 2 * msPerDay < u - t
  small : ∀ t, |offset t - offset (t - 1)| ≤ 2 * msPerHour

namespace Zone

variable (z : Zone)

/-- What the wall clock shows at an instant. -/
def localTime (t : ℤ) : ℤ := t + z.offset t

/-- The wall clock shows the time at some instant. -/
def Shows (wall : ℤ) : Prop := ∃ t, z.localTime t = wall

/-- The offset at the instant that the offset at `wall`, taken for an instant, leads to. -/
def offsetAt (wall : ℤ) : ℤ := z.offset (wall - z.offset wall)

/-- The instant of a time of the wall clock, with the offset corrected once. -/
def instant (wall : ℤ) : ℤ := wall - z.offsetAt wall

/-- An offset that is another one from an instant on. -/
@[grind =] def changedOffset (change before after t : ℤ) : ℤ := if t < change then before else after

theorem changedOffset_bounded {change before after : ℤ} (hbefore : |before| ≤ 14 * msPerHour)
    (hafter : |after| ≤ 14 * msPerHour) (t : ℤ) :
    |changedOffset change before after t| ≤ 14 * msPerHour := by
  unfold changedOffset
  split_ifs
  · exact hbefore
  · exact hafter

theorem isTransition_changedOffset {change before after t : ℤ}
    (h : IsTransition (changedOffset change before after) t) : t = change := by
  unfold IsTransition changedOffset at h
  split_ifs at h with hbefore hat
  · exact absurd rfl h
  · omega
  · omega
  · exact absurd rfl h

theorem changedOffset_small {change before after : ℤ} (hsmall : |after - before| ≤ 2 * msPerHour)
    (t : ℤ) : |changedOffset change before after t - changedOffset change before after (t - 1)| ≤
      2 * msPerHour := by
  have hnone : |(0 : ℤ)| ≤ 2 * msPerHour := by decide
  unfold changedOffset
  split_ifs
  · rwa [sub_self]
  · omega
  · exact hsmall
  · rwa [sub_self]

/-- A zone whose clock is changed once. -/
def changed (change before after : ℤ) (hbefore : |before| ≤ 14 * msPerHour)
    (hafter : |after| ≤ 14 * msPerHour) (hsmall : |after - before| ≤ 2 * msPerHour) : Zone where
  offset := changedOffset change before after
  bounded := changedOffset_bounded hbefore hafter
  apart _ _ ht hu hlt := absurd
    ((isTransition_changedOffset ht).trans (isTransition_changedOffset hu).symm) (ne_of_lt hlt)
  small := changedOffset_small hsmall

/-! ## One transition in two days -/

variable {z}

theorem offset_mem (t : ℤ) : -(14 * msPerHour) ≤ z.offset t ∧ z.offset t ≤ 14 * msPerHour :=
  abs_le.mp (z.bounded t)

/-- Without a transition the offset stays. -/
theorem offset_eq_of_steady {t u : ℤ} (htu : t ≤ u)
    (h : ∀ x, t < x → x ≤ u → ¬IsTransition z.offset x) : z.offset u = z.offset t := by
  induction u, htu using Int.leInduction with
  | base => rfl
  | succ u htu ih =>
    have hstay := h (u + 1) (by omega) le_rfl
    rw [IsTransition, not_not, add_sub_cancel_right] at hstay
    rw [← hstay]
    exact ih fun x hx hxu => h x hx (by omega)

/-- In two days there is one transition at most, of two hours at most. -/
theorem within {low high : ℤ} (hshort : high - low ≤ 2 * msPerDay) :
    ∃ change before after, |after - before| ≤ 2 * msPerHour ∧ ∀ t, low ≤ t → t ≤ high →
      (t < change → z.offset t = before) ∧ (change ≤ t → z.offset t = after) := by
  by_cases hchange : ∃ u, low < u ∧ u ≤ high ∧ IsTransition z.offset u
  · obtain ⟨u, hlow, hhigh, hu⟩ := hchange
    refine ⟨u, z.offset (u - 1), z.offset u, z.small u, fun t ht ht' => ⟨fun hlt => ?_,
      fun hafter => ?_⟩⟩
    · symm
      refine offset_eq_of_steady (by omega) fun x hx hxu hother => ?_
      have := z.apart x u hother hu (by omega)
      omega
    · refine offset_eq_of_steady hafter fun x hx hxt hother => ?_
      have := z.apart u x hu hother hx
      omega
  · refine ⟨low, z.offset low, z.offset low, by rw [sub_self, abs_zero]; decide, ?_⟩
    intro t ht ht'
    refine ⟨fun hlt => absurd ht (not_le.mpr hlt), fun _ => ?_⟩
    exact offset_eq_of_steady ht fun x hx hxt hother => hchange ⟨x, hx, by omega, hother⟩

/-! ## The instant of a time of the wall clock -/

/-- **The instant of a time that the wall clock shows shows that time.** -/
theorem localTime_instant {wall : ℤ} (h : z.Shows wall) : z.localTime (z.instant wall) = wall := by
  obtain ⟨t, ht⟩ := h
  have hshort : (wall + 14 * msPerHour) - (wall - 14 * msPerHour) ≤ 2 * msPerDay := by
    unfold msPerHour msPerDay
    omega
  obtain ⟨change, before, after, -, hsides⟩ := z.within hshort
  unfold instant offsetAt
  unfold localTime at ht ⊢
  have hguess := z.offset_mem wall
  have hcorrected := z.offset_mem (wall - z.offset wall)
  have htrue := z.offset_mem t
  have hwall := hsides wall (by unfold msPerHour; omega) (by unfold msPerHour; omega)
  have hfirst := hsides (wall - z.offset wall) (by omega) (by omega)
  have hsecond := hsides (wall - z.offset (wall - z.offset wall)) (by omega) (by omega)
  have hshown := hsides t (by omega) (by omega)
  -- the side of the guess, of the corrected instant and of the true one
  rcases lt_or_ge wall change with hw | hw
  · rw [hwall.1 hw] at hfirst hsecond ⊢
    rcases lt_or_ge (wall - before) change with hf | hf
    · rw [hfirst.1 hf] at hsecond ⊢
      rw [hsecond.1 hf]
      omega
    · rw [hfirst.2 hf] at hsecond ⊢
      rcases lt_or_ge t change with hs | hs
      · have := hshown.1 hs
        omega
      · have := hshown.2 hs
        rw [hsecond.2 (by omega)]
        omega
  · rw [hwall.2 hw] at hfirst hsecond ⊢
    rcases lt_or_ge (wall - after) change with hf | hf
    · rw [hfirst.1 hf] at hsecond ⊢
      rcases lt_or_ge t change with hs | hs
      · have := hshown.1 hs
        rw [hsecond.1 (by omega)]
        omega
      · have := hshown.2 hs
        omega
    · rw [hfirst.2 hf] at hsecond ⊢
      rw [hsecond.2 hf]
      omega

/-- The instant of a time of the wall clock is within fourteen hours of it. -/
theorem instant_mem (wall : ℤ) :
    wall - 14 * msPerHour ≤ z.instant wall ∧ z.instant wall ≤ wall + 14 * msPerHour := by
  have := z.offset_mem (wall - z.offset wall)
  unfold instant offsetAt
  omega

end Zone

end Zones
