import FestivalPlanner.Lib.Utf16
import Mathlib.Data.List.Count
import Mathlib.Data.List.DropRight

/-!
# Sanitized texts

`sanitizeString` of `lib/helpers/sanitize.ts`, over code units: normal form, removal of invisible
and control characters, `trim`, and a cut at the limit.  The cut comes after the trim, and the
removal after the normal form, so that a second pass may find more to do.

* `cleaned` — the text before the cut; `plain_cleaned` — no character of it is to be removed;
* `NormalForm` — what is relied on of `normalize('NFC')`;
* `sanitizeString_idem` — a text whose cut is normalised and ends with no white space is kept;
* `sanitizeString_idem_iff` — only such a text is.
-/

namespace FestivalPlanner.Server

open Utf16 List

/-! ## The function -/

/-- Marks of direction, joiners, separators of lines and annotations. -/
def isInvisible (c : CodeUnit) : Bool :=
  decide (c.val ∈ [0x061C, 0x200B, 0x200E, 0x200F, 0x2060] ∨
    0x2028 ≤ c.val ∧ c.val ≤ 0x202E ∨ 0x2066 ≤ c.val ∧ c.val ≤ 0x2069 ∨
    0xFFF9 ≤ c.val ∧ c.val ≤ 0xFFFB)

/-- Control characters, tab, line feed and carriage return apart. -/
def isControl (c : CodeUnit) : Bool :=
  decide (c.val ≤ 0x08 ∨ c.val ∈ [0x0B, 0x0C, 0x7F] ∨ 0x0E ≤ c.val ∧ c.val ≤ 0x1F)

/-- The white space that `trim` removes. -/
def isSpace (c : CodeUnit) : Bool :=
  decide (c.val ∈ [9, 10, 11, 12, 13, 32, 160, 5760, 8232, 8233, 8239, 8287, 12288, 65279] ∨
    8192 ≤ c.val ∧ c.val ≤ 8202)

/-- `.replace(/\r\n?/g, '\n')` -/
def lineEnds : Text → Text
  | [] => []
  | [c] => [if c = unit '\r' then unit '\n' else c]
  | c :: d :: t =>
    if c = unit '\r' then
      if d = unit '\n' then unit '\n' :: lineEnds t else unit '\n' :: lineEnds (d :: t)
    else c :: lineEnds (d :: t)

/-- `s.trim()` -/
@[grind =] def trim (t : Text) : Text := (t.dropWhile isSpace).rdropWhile isSpace

/-- The text before the cut. -/
def cleaned (nfc : Text → Text) (value : Text) : Text :=
  let visible := (nfc value).filter (fun c => !isInvisible c)
  let spaced := (lineEnds visible).map (fun c => if c = unit '\t' then unit ' ' else c)
  trim (spaced.filter (fun c => !isControl c))

/-- `sanitizeString` of a string. -/
def sanitizeString (nfc : Text → Text) (value : Text) (maxLen : ℕ) : Text :=
  (cleaned nfc value).take maxLen

/-! ## What is left -/

/-- Is the unit removed or replaced? -/
def isRemoved (c : CodeUnit) : Bool :=
  isInvisible c || isControl c || c == unit '\r' || c == unit '\t'

/-- No unit is to be removed or replaced. -/
def Plain (t : Text) : Prop := ∀ c ∈ t, isRemoved c = false

variable {s t : Text}

theorem Plain.sublist (h : Plain t) (hsub : s.Sublist t) : Plain s :=
  fun c hc => h c (hsub.mem hc)

/-- Line ends add nothing but line feeds, and leave no carriage return. -/
theorem mem_lineEnds : ∀ c ∈ lineEnds t, c ≠ unit '\r' ∧ (c ∈ t ∨ c = unit '\n') := by
  have hfeed : unit '\n' ≠ unit '\r' := by decide
  fun_induction lineEnds t with
  | case1 => simp
  | case2 c =>
    intro d hd
    rw [mem_singleton.mp hd]
    split
    · exact ⟨hfeed, .inr rfl⟩
    · rename_i hne
      exact ⟨hne, .inl mem_cons_self⟩
  | case3 t ih => grind
  | case4 d t hd ih => grind
  | case5 c d t hc ih => grind

theorem lineEnds_of_notMem (h : unit '\r' ∉ t) : lineEnds t = t := by
  fun_induction lineEnds t with
  | case1 => rfl
  | case2 c =>
    have hne : c ≠ unit '\r' := fun heq => h (heq ▸ mem_cons_self)
    rw [if_neg hne]
  | case3 t ih => exact absurd mem_cons_self h
  | case4 d t hd ih => exact absurd mem_cons_self h
  | case5 c d t hc ih => rw [ih (fun hmem => h (mem_cons_of_mem c hmem))]

theorem trim_sublist (t : Text) : (trim t).Sublist t :=
  (List.rdropWhile_prefix isSpace _).sublist.trans (dropWhile_sublist isSpace)

/-- The cleaned text has nothing to remove. -/
theorem plain_cleaned (nfc : Text → Text) (value : Text) : Plain (cleaned nfc value) := by
  have hspaced : ∀ c ∈ ((lineEnds ((nfc value).filter (fun c => !isInvisible c))).map
      (fun c => if c = unit '\t' then unit ' ' else c)).filter (fun c => !isControl c),
      isRemoved c = false := by
    intro c hc
    obtain ⟨hc, hcontrol⟩ := mem_filter.mp hc
    obtain ⟨d, hd, rfl⟩ := mem_map.mp hc
    obtain ⟨hne, hmem⟩ := mem_lineEnds d hd
    split
    · decide
    · rename_i htab
      rw [if_neg htab] at hcontrol
      have hvisible : isInvisible d = false := by
        rcases hmem with hmem | rfl
        · simpa using (mem_filter.mp hmem).2
        · decide
      simp only [isRemoved, hvisible, Bool.false_or, Bool.or_eq_false_iff, beq_eq_false_iff_ne,
        ne_eq]
      exact ⟨⟨by simpa using hcontrol, hne⟩, htab⟩
  exact Plain.sublist hspaced (trim_sublist _)

/-- Only the trim acts on a plain text. -/
theorem cleaned_of_plain {nfc : Text → Text} {value : Text} (h : Plain (nfc value)) :
    cleaned nfc value = trim (nfc value) := by
  have hremoved : ∀ c ∈ nfc value, isInvisible c = false ∧ isControl c = false ∧
      c ≠ unit '\r' ∧ c ≠ unit '\t' := by
    intro c hc
    have hplain := h c hc
    simp only [isRemoved, Bool.or_eq_false_iff, beq_eq_false_iff_ne, ne_eq] at hplain
    exact ⟨hplain.1.1.1, hplain.1.1.2, hplain.1.2, hplain.2⟩
  have hvisible : (nfc value).filter (fun c => !isInvisible c) = nfc value :=
    filter_eq_self.mpr (fun c hc => by simp [(hremoved c hc).1])
  have hends : lineEnds (nfc value) = nfc value :=
    lineEnds_of_notMem (fun hmem => (hremoved _ hmem).2.2.1 rfl)
  have htabs : (nfc value).map (fun c => if c = unit '\t' then unit ' ' else c) = nfc value := by
    conv_rhs => rw [← map_id (nfc value)]
    exact map_congr_left (fun c hc => if_neg (hremoved c hc).2.2.2)
  have hcontrols : (nfc value).filter (fun c => !isControl c) = nfc value :=
    filter_eq_self.mpr (fun c hc => by simp [(hremoved c hc).2.1])
  simp only [cleaned, hvisible, hends, htabs, hcontrols]

/-! ## Trimmed texts -/

/-- Nothing but white space is trimmed. -/
theorem exists_trim (t : Text) : ∃ front back : Text, t = front ++ trim t ++ back ∧
    (∀ c ∈ front, isSpace c = true) ∧ ∀ c ∈ back, isSpace c = true := by
  refine ⟨t.takeWhile isSpace, (t.dropWhile isSpace).rtakeWhile isSpace, ?_, ?_, ?_⟩
  · rw [append_assoc, trim, rdropWhile_append_rtakeWhile, takeWhile_append_dropWhile]
  · exact fun c hc => mem_takeWhile_imp hc
  · exact fun c hc => mem_rtakeWhile_imp hc

theorem head_of_prefix (hsub : s <+: t) (h : Ends isSpace t) : Ends isSpace s := by
  cases s with
  | nil => exact ends_nil
  | cons c s =>
    obtain ⟨rest, rfl⟩ := hsub
    exact ends_cons (h c rfl) s

/-- A trimmed text begins with no white space. -/
theorem ends_trim (t : Text) : Ends isSpace (trim t) := by
  refine head_of_prefix (List.rdropWhile_prefix isSpace _) ?_
  intro c hc
  have hhead := head?_dropWhile_not isSpace t
  rw [hc] at hhead
  simpa using hhead

/-- A text is trimmed when it neither begins nor ends with white space. -/
theorem trim_eq_self (hfirst : Ends isSpace t) (hlast : ∀ c ∈ t.getLast?, isSpace c = false) :
    trim t = t := by
  have hdrop : t.dropWhile isSpace = t := by
    cases t with
    | nil => rfl
    | cons c t => rw [dropWhile_cons_of_neg (by simp [hfirst c rfl])]
  rw [trim, hdrop, rdropWhile_eq_self_iff]
  intro hne
  simp [hlast _ (getLast?_eq_some_getLast hne)]

/-- And only then. -/
theorem last_of_trim_eq_self (h : trim t = t) : ∀ c ∈ t.getLast?, isSpace c = false := by
  intro c hc
  rw [← h, trim] at hc
  obtain ⟨hne, hlast⟩ := mem_getLast?_eq_getLast hc
  have hnot := rdropWhile_last_not isSpace (t.dropWhile isSpace) hne
  rw [hlast]
  simpa using hnot

/-! ## The second pass -/

/-- The text is normalised, and does not end with white space. -/
structure Settled (nfc : Text → Text) (t : Text) : Prop where
  normalised : nfc t = t
  last : ∀ c ∈ t.getLast?, isSpace c = false

/-- What is relied on of the normal form: it brings in none of the removed characters, it keeps
the number of white spaces, and a text is never equivalent to a longer one that begins with it. -/
structure NormalForm (nfc : Text → Text) : Prop where
  removed : ∀ t, ∀ c ∈ nfc t, isRemoved c = true → c ∈ t
  spaces : ∀ t, (nfc t).countP isSpace = t.countP isSpace
  proper : ∀ t more, nfc t = t ++ more → more = []

variable {nfc : Text → Text} {value : Text} {maxLen : ℕ}

theorem plain_sanitizeString (nfc : Text → Text) (value : Text) (maxLen : ℕ) :
    Plain (sanitizeString nfc value maxLen) :=
  (plain_cleaned nfc value).sublist (take_sublist maxLen _)

theorem ends_sanitizeString (nfc : Text → Text) (value : Text) (maxLen : ℕ) :
    Ends isSpace (sanitizeString nfc value maxLen) :=
  head_of_prefix (List.take_prefix maxLen _) (ends_trim _)

/-- A settled result is kept by a second pass. -/
theorem sanitizeString_idem (h : Settled nfc ((cleaned nfc value).take maxLen)) :
    sanitizeString nfc (sanitizeString nfc value maxLen) maxLen =
      sanitizeString nfc value maxLen := by
  have hplain := plain_sanitizeString nfc value maxLen
  have hfirst := ends_sanitizeString nfc value maxLen
  have hlen : (sanitizeString nfc value maxLen).length ≤ maxLen := length_take_le maxLen _
  have hnfc : nfc (sanitizeString nfc value maxLen) = sanitizeString nfc value maxLen :=
    h.normalised
  have hcleaned : cleaned nfc (sanitizeString nfc value maxLen) =
      sanitizeString nfc value maxLen := by
    rw [cleaned_of_plain (by rw [hnfc]; exact hplain), hnfc, trim_eq_self hfirst h.last]
  calc sanitizeString nfc (sanitizeString nfc value maxLen) maxLen
      = (cleaned nfc (sanitizeString nfc value maxLen)).take maxLen := rfl
    _ = sanitizeString nfc value maxLen := by rw [hcleaned, take_of_length_le hlen]

theorem countP_eq_zero_of_spaces (h : ∀ c ∈ t, isSpace c = true) (hcount : t.countP isSpace = 0) :
    t = [] := by
  rw [countP_eq_length.mpr h] at hcount
  exact length_eq_zero_iff.mp hcount

/-- A plain text that a pass keeps is settled. -/
theorem settled_of_kept (hnfc : NormalForm nfc) (hplain : Plain t)
    (hkept : sanitizeString nfc t maxLen = t) : Settled nfc t := by
  have hstill : Plain (nfc t) := by
    intro c hc
    by_contra hremoved
    rw [Bool.not_eq_false] at hremoved
    rw [hplain c (hnfc.removed t c hc hremoved)] at hremoved
    cases hremoved
  unfold sanitizeString at hkept
  rw [cleaned_of_plain hstill] at hkept
  obtain ⟨more, hmore⟩ : ∃ more, trim (nfc t) = t ++ more := by
    refine ⟨(trim (nfc t)).drop maxLen, ?_⟩
    conv_lhs => rw [← take_append_drop maxLen (trim (nfc t)), hkept]
  obtain ⟨front, back, hsplit, hfront, hback⟩ := exists_trim (nfc t)
  have hcount := hnfc.spaces t
  rw [hsplit, hmore] at hcount
  simp only [countP_append] at hcount
  have hnofront : front = [] := countP_eq_zero_of_spaces hfront (by omega)
  have hnoback : back = [] := countP_eq_zero_of_spaces hback (by omega)
  have hall : nfc t = trim (nfc t) := by
    simpa [hnofront, hnoback] using hsplit
  have hnomore : more = [] := hnfc.proper t more (hall.trans hmore)
  have hnormal : nfc t = t := by
    rw [hall, hmore, hnomore, append_nil]
  refine { normalised := hnormal, last := last_of_trim_eq_self ?_ }
  rw [← hnormal, ← hall]

/-- A second pass keeps the result exactly when what is left of the cleaned text at the limit is
normalised and does not end with white space. -/
theorem sanitizeString_idem_iff (hnfc : NormalForm nfc) (value : Text) (maxLen : ℕ) :
    sanitizeString nfc (sanitizeString nfc value maxLen) maxLen =
      sanitizeString nfc value maxLen ↔ Settled nfc ((cleaned nfc value).take maxLen) :=
  ⟨settled_of_kept hnfc (plain_sanitizeString nfc value maxLen), sanitizeString_idem⟩

/-- An ASCII text is its own normal form. -/
theorem normalForm_id : NormalForm id :=
  { removed := fun _ _ hc _ => hc
    spaces := fun _ => rfl
    proper := fun t more h => by simpa using h.symm }

theorem trimmed_idem :
    sanitizeString id (sanitizeString id (ofString " ab cd") 2) 2 =
      sanitizeString id (ofString " ab cd") 2 := by
  refine (sanitizeString_idem_iff normalForm_id (ofString " ab cd") 2).mpr
    { normalised := rfl, last := ?_ }
  have hlast : ((cleaned id (ofString " ab cd")).take 2).getLast? = some (unit 'b') := by decide
  rw [hlast]
  rintro c ⟨⟩
  decide

/-- A cut after a space is trimmed by the second pass. -/
theorem cut_not_idem :
    ¬ ∀ (value : Text) (maxLen : ℕ),
      sanitizeString id (sanitizeString id value maxLen) maxLen =
        sanitizeString id value maxLen := by
  intro h
  exact absurd (h (ofString "ab cd") 3) (by decide)

end FestivalPlanner.Server
