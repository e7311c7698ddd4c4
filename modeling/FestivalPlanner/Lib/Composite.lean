import Mathlib.Data.List.Basic

/-!
# Names put together with a separator

A program often names a thing by two texts with a separator between them.  The name determines both
when one of the two parts cannot hold the separator.

* `append_cons_inj_left`, `append_cons_inj_right` — for lists, by the part without the separator;
* `join_inj_right` — for strings.
-/

namespace Composite

open List

variable {α : Type*} {a : α} {l m l' m' : List α}

/-- The first separator parts a list whose first part has none. -/
theorem append_cons_inj_left (hl : a ∉ l) (hl' : a ∉ l') (h : l ++ a :: m = l' ++ a :: m') :
    l = l' ∧ m = m' := by
  induction l generalizing l' with
  | nil =>
    cases l' with
    | nil => exact ⟨rfl, (List.cons.inj h).2⟩
    | cons b l' =>
      obtain ⟨rfl, -⟩ := List.cons.inj h
      exact absurd (mem_cons_self ..) hl'
  | cons b l ih =>
    cases l' with
    | nil =>
      obtain ⟨rfl, -⟩ := List.cons.inj h
      exact absurd (mem_cons_self ..) hl
    | cons c l' =>
      obtain ⟨rfl, hrest⟩ := List.cons.inj h
      obtain ⟨rfl, rfl⟩ := ih (fun hmem => hl (mem_cons_of_mem _ hmem))
        (fun hmem => hl' (mem_cons_of_mem _ hmem)) hrest
      exact ⟨rfl, rfl⟩

/-- The last separator parts a list whose last part has none. -/
theorem append_cons_inj_right (hm : a ∉ m) (hm' : a ∉ m') (h : l ++ a :: m = l' ++ a :: m') :
    l = l' ∧ m = m' := by
  have hrev : m.reverse ++ a :: l.reverse = m'.reverse ++ a :: l'.reverse := by
    simpa using congrArg List.reverse h
  obtain ⟨hms, hls⟩ := append_cons_inj_left (by simpa using hm) (by simpa using hm') hrev
  exact ⟨reverse_injective hls, reverse_injective hms⟩

/-! ## Strings -/

variable {c : Char} {s t s' t' : String}

theorem toList_join : (s ++ c.toString ++ t).toList = s.toList ++ c :: t.toList := by
  simp

theorem join_inj_right (ht : c ∉ t.toList) (ht' : c ∉ t'.toList)
    (h : s ++ c.toString ++ t = s' ++ c.toString ++ t') : s = s' ∧ t = t' := by
  have hlist := congrArg String.toList h
  rw [toList_join, toList_join] at hlist
  obtain ⟨hleft, hright⟩ := append_cons_inj_right ht ht' hlist
  exact ⟨String.toList_inj.mp hleft, String.toList_inj.mp hright⟩

end Composite
