import FestivalPlanner.Lib.Js
import Mathlib.Data.List.TakeWhile

/-!
# Trimmed texts

What `trim` of JavaScript leaves of a text.

* `Visible` — some character is not white space: then the trimmed text is not empty;
* `length_trim_lt` — trimming keeps a visible character and all in front of it.
-/

namespace Js

open List

/-- Some character is not white space. -/
def Visible (cs : List Char) : Prop := ∃ c ∈ cs, isSpace c = false

variable {x cs : List Char}

theorem Visible.append_left (hx : Visible x) (y : List Char) : Visible (x ++ y) := by
  obtain ⟨c, hc, hspace⟩ := hx
  exact ⟨c, mem_append_left _ hc, hspace⟩

theorem Visible.append_right {y : List Char} (hy : Visible y) (x : List Char) : Visible (x ++ y) := by
  obtain ⟨c, hc, hspace⟩ := hy
  exact ⟨c, mem_append_right _ hc, hspace⟩

theorem dropWhile_ne_nil_iff : cs.dropWhile isSpace ≠ [] ↔ Visible cs := by
  rw [ne_eq, dropWhile_eq_nil_iff]
  simp [Visible]

theorem dropWhile_append (hx : Visible x) (y : List Char) :
    (x ++ y).dropWhile isSpace = x.dropWhile isSpace ++ y := by
  rw [List.dropWhile_append, if_neg]
  simpa using dropWhile_ne_nil_iff.mpr hx

theorem visible_dropWhile (h : Visible cs) : Visible (cs.dropWhile isSpace) := by
  obtain ⟨c, hc, hspace⟩ := h
  rw [← takeWhile_append_dropWhile (p := isSpace) (l := cs), mem_append] at hc
  rcases hc with hc | hc
  · simp [mem_takeWhile_imp hc] at hspace
  · exact ⟨c, hc, hspace⟩

theorem visible_reverse : Visible cs.reverse ↔ Visible cs := by
  simp [Visible]

theorem trim_ne_nil_iff : trim cs ≠ [] ↔ Visible cs := by
  rw [trim, ne_eq, reverse_eq_nil_iff, ← ne_eq, dropWhile_ne_nil_iff, visible_reverse]
  constructor
  · rintro ⟨c, hc, hspace⟩
    exact ⟨c, (dropWhile_sublist _).mem hc, hspace⟩
  · exact visible_dropWhile

/-- A text with a visible character behind it is longer when trimmed. -/
theorem length_trim_lt (hx : Visible x) {c : Char} (hc : isSpace c = false) (y : List Char) :
    (trim x).length < (trim (x ++ c :: y)).length := by
  have hlast : Visible (y.reverse ++ [c]) := ⟨c, by simp, hc⟩
  have hkeep : ∃ z, (y.reverse ++ [c]).dropWhile isSpace = z ++ [c] := by
    by_cases hy : Visible y.reverse
    · exact ⟨_, dropWhile_append hy _⟩
    · have hnil : y.reverse.dropWhile isSpace = [] := by
        by_contra hne
        exact hy (dropWhile_ne_nil_iff.mp hne)
      refine ⟨[], ?_⟩
      simp [List.dropWhile_append, hnil, hc]
  obtain ⟨z, hz⟩ := hkeep
  have hlong : (trim (x ++ c :: y)).length =
      z.length + 1 + (x.dropWhile isSpace).length := by
    have hrev : (x.dropWhile isSpace ++ c :: y).reverse =
        (y.reverse ++ [c]) ++ (x.dropWhile isSpace).reverse := by simp
    rw [trim, dropWhile_append hx, hrev, dropWhile_append hlast, hz]
    simp
    omega
  have hshort : (trim x).length ≤ (x.dropWhile isSpace).length := by
    have hle := (dropWhile_sublist isSpace (l := (x.dropWhile isSpace).reverse)).length_le
    simpa [trim] using hle
  omega

end Js
