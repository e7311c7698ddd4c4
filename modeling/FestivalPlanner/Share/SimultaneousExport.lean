import FestivalPlanner.Share.ExportHtml

/-!
# The export as a substitution

`buildExportHtml` replaces the placeholders of its template one after the other, with the escaped
texts as replacement strings.

* `Template` — a template whose own texts have neither dollar signs nor underscores;
* `Template.substitute` — every placeholder replaced at once;
* `Substituted` — the document is this one, and no shown text was read as anything else;
* `Inert` — no shown text has a dollar sign before a unit that means something behind it, or the
  name of a placeholder that is replaced later;
* `substituted_iff` — **the export substitutes exactly when what it shows is inert**.
-/

namespace FestivalPlanner.Share

open Utf16 Substitution List

/-! ## Templates -/

/-- The text before the first placeholder, and every placeholder with the text behind it. -/
structure Template where
  front : Text
  parts : List (Slot × Text)
  plain : isPlain front = true
  separated : ∀ part ∈ parts, isSeparator part.2 = true

@[grind =] def Template.text (t : Template) : Text :=
  t.front ++ t.parts.flatMap (fun part => part.1.name ++ part.2)

/-- The placeholders of a template. -/
def Template.used (t : Template) : List Slot := t.parts.map Prod.fst

/-- Every placeholder replaced, all at once. -/
def Template.substitute (t : Template) (markup : Slot → Markup) : Text :=
  t.front ++ t.parts.flatMap (fun part => (markup part.1).text ++ part.2)

/-- The placeholders that are replaced before one. -/
def Slot.earlier (slot : Slot) : List Slot := slots.takeWhile (fun s => s ≠ slot)

/-- The text in which a placeholder is looked for. -/
def textAt (t : Template) (x : ExportInput) (slot : Slot) : Text :=
  replaceSlots (slotMarkup x) t.text slot.earlier

/-- The document is the template with its placeholders replaced.  A placeholder is found only where
the template has it, and what is put in there has no replacement pattern. -/
structure Substituted (t : Template) (x : ExportInput) : Prop where
  document : buildExportHtml t.text x = t.substitute (slotMarkup x)
  placeholders : ∀ slot, occurrences slot.name (textAt t x slot) = t.used.count slot
  patterns : ∀ slot, 0 < occurrences slot.name (textAt t x slot) →
    hasPattern (slotMarkup x slot).text = false

/-- The texts that a markup shows. -/
def Markup.values (m : Markup) : List Text :=
  m.filterMap (fun
    | .fixed _ => none
    | .escaped value => some value)

/-- A dollar sign stands before another one, or before a unit that is escaped. -/
def readsAsPattern : Text → Bool
  | [] => false
  | [_] => false
  | c :: d :: t =>
    (c == unit '$' && (d == unit '$' || escapeUnit d != [d])) || readsAsPattern (d :: t)

/-- No text that is shown for a placeholder has a meaning, or the name of a later placeholder. -/
def Inert (t : Template) (x : ExportInput) : Prop :=
  ∀ slot ∈ t.used, ∀ value ∈ (slotMarkup x slot).values,
    readsAsPattern value = false ∧ ∀ later : Slot, slot ∈ later.earlier → ¬ later.name <:+: value

/-! ## Names -/

set_option maxRecDepth 4000

theorem isNameUnit_of_mem_name (slot : Slot) : ∀ c ∈ slot.name, isNameUnit c = true := by
  have h : slot.name.all isNameUnit = true := by
    cases slot <;> decide
  exact all_eq_true.mp h

theorem name_ne_nil (slot : Slot) : slot.name ≠ [] := by
  cases slot <;> decide

theorem head?_name (slot : Slot) : slot.name.head? = some (unit '_') := by
  cases slot <;> decide

theorem getLast?_name (slot : Slot) : slot.name.getLast? = some (unit '_') := by
  cases slot <;> decide

variable {slot : Slot} {t : Text} {m : Markup} {x : ExportInput}

theorem name_notInfix {other : Slot} (h : slot ≠ other) : ¬ slot.name <:+: other.name := by
  cases slot <;> cases other <;> first | exact absurd rfl h | decide

theorem not_mem_of_isPlain (h : isPlain t = true) : unit '$' ∉ t ∧ unit '_' ∉ t := by
  rw [isPlain, all_eq_true] at h
  exact ⟨fun hmem => by simpa using h _ hmem, fun hmem => by simpa using h _ hmem⟩

theorem notBegun_of_isPlain (h : isPlain t = true) (slot : Slot) : NotBegun slot.name t := by
  intro a ha
  rw [head?_name, Option.mem_some_iff] at ha
  exact ha ▸ (not_mem_of_isPlain h).2

theorem head?_of_isSeparator (h : isSeparator t = true) :
    ∃ c rest, t = c :: rest ∧ isSpecial c = false ∧ isNameUnit c = false := by
  obtain ⟨-, hhead⟩ := Bool.and_eq_true_iff.mp h
  cases t with
  | nil => simp at hhead
  | cons c rest =>
    simp only [head?_cons, Option.any_some, Bool.and_eq_true, Bool.not_eq_true'] at hhead
    exact ⟨c, rest, rfl, hhead⟩

theorem separates_of_isSeparator (h : isSeparator t = true) (slot : Slot) :
    Separates slot.name t := by
  have hplain := isPlain_of_isSeparator h
  refine ⟨notBegun_of_isPlain hplain slot, fun a ha => ?_, ?_⟩
  · rw [getLast?_name, Option.mem_some_iff] at ha
    exact ha ▸ (not_mem_of_isPlain hplain).2
  · obtain ⟨c, rest, rfl, -, hname⟩ := head?_of_isSeparator h
    refine ⟨c, mem_cons_self, fun hmem => ?_⟩
    rw [isNameUnit_of_mem_name slot c hmem] at hname
    cases hname

/-! ## Escaped texts -/

/-- A unit is left as it is, or a text without dollar signs and units of names is put in for it. -/
theorem escapeUnit_cases (c : CodeUnit) :
    (escapeUnit c = [c] ∧ isSpecial c = (c == unit '$')) ∨
    (escapeUnit c ≠ [c] ∧ c ≠ unit '$' ∧ isNameUnit c = false ∧
      (escapeUnit c).head? = some (unit '&') ∧
      ∀ u ∈ escapeUnit c, isNameUnit u = false ∧ u ≠ unit '$') := by
  have hescaped : [unit '&', unit '<', unit '>', unit '"', unit (Char.ofNat 39),
      unit (Char.ofNat 96)].all (fun c => escapeUnit c != [c] && c != unit '$' &&
        !isNameUnit c && (escapeUnit c).head? == some (unit '&') &&
        (escapeUnit c).all (fun u => !isNameUnit u && u != unit '$')) = true := by
    decide
  by_cases hc : c ∈ [unit '&', unit '<', unit '>', unit '"', unit (Char.ofNat 39),
      unit (Char.ofNat 96)]
  · have h := all_eq_true.mp hescaped c hc
    simp only [Bool.and_eq_true, bne_iff_ne, ne_eq, Bool.not_eq_true', beq_iff_eq,
      all_eq_true] at h
    obtain ⟨⟨⟨⟨hself, hdollar⟩, hname⟩, hhead⟩, hunits⟩ := h
    exact .inr ⟨hself, hdollar, hname, hhead, hunits⟩
  · simp only [mem_cons, not_mem_nil, or_false, not_or] at hc
    obtain ⟨hamp, hlt, hgt, hquot, hapos, htick⟩ := hc
    refine .inl ⟨?_, ?_⟩
    · rw [escapeUnit, if_neg hamp, if_neg hlt, if_neg hgt, if_neg hquot, if_neg hapos, if_neg htick]
    · simp only [isSpecial, beq_eq_false_iff_ne.mpr hamp, beq_eq_false_iff_ne.mpr htick,
        beq_eq_false_iff_ne.mpr hapos, Bool.or_false]

theorem escapeHtml_cons (c : CodeUnit) (t : Text) :
    escapeHtml (c :: t) = escapeUnit c ++ escapeHtml t := rfl

theorem dollar_not_mem_escapeUnit {c : CodeUnit} (h : c ≠ unit '$') : unit '$' ∉ escapeUnit c := by
  rcases escapeUnit_cases c with ⟨hself, -⟩ | ⟨-, -, -, -, hunits⟩
  · rw [hself, mem_singleton]
    exact h.symm
  · exact fun hmem => (hunits _ hmem).2 rfl

/-- Whether an escaped text has a pattern is seen in the text. -/
theorem hasPattern_escapeHtml (t : Text) : hasPattern (escapeHtml t) = readsAsPattern t := by
  fun_induction readsAsPattern t with
  | case1 => rfl
  | case2 c =>
    rw [escapeHtml_cons]
    by_cases hc : c = unit '$'
    · subst c
      decide
    · rw [hasPattern_fixed (dollar_not_mem_escapeUnit hc)]
      rfl
  | case3 c d t ih =>
    rw [escapeHtml_cons]
    by_cases hc : c = unit '$'
    · have hself : escapeUnit c = [c] := by
        subst c
        decide
      rw [hself, singleton_append, ← ih]
      rcases escapeUnit_cases d with ⟨hd, hspecial⟩ | ⟨hd, -, -, hhead, -⟩
      · rw [escapeHtml_cons, hd, singleton_append, hasPattern, hspecial]
        simp
      · obtain ⟨e, hunits⟩ : ∃ e, escapeUnit d = unit '&' :: e := by
          cases hunits : escapeUnit d with
          | nil => simp [hunits] at hhead
          | cons u e =>
            rw [hunits, head?_cons, Option.some.injEq] at hhead
            exact ⟨e, by rw [hhead]⟩
        rw [escapeHtml_cons, hunits, cons_append, hasPattern, ← hunits]
        simp [hc, hd, isSpecial]
    · rw [hasPattern_fixed (dollar_not_mem_escapeUnit hc), ih]
      simp [hc]

theorem infix_append_iff_of_notBegun {p s : Text} (hp : p ≠ []) (h : NotBegun p s) (rest : Text) :
    p <:+: s ++ rest ↔ p <:+: rest := by
  rw [← not_iff_not, ← occurrences_eq_zero_iff hp, ← occurrences_eq_zero_iff hp,
    occurrences_fixed hp h]

theorem prefix_escapeHtml {p : Text} (h : ∀ c ∈ p, isNameUnit c = true) (t : Text) :
    p <+: escapeHtml t ↔ p <+: t := by
  induction p generalizing t with
  | nil => simp
  | cons a p ih =>
    cases t with
    | nil => exact Iff.rfl
    | cons c t =>
      have ha := h a mem_cons_self
      rw [escapeHtml_cons]
      rcases escapeUnit_cases c with ⟨hself, -⟩ | ⟨-, -, hname, hhead, hunits⟩
      · rw [hself, singleton_append, cons_prefix_cons, cons_prefix_cons,
          ih (fun c hc => h c (mem_cons_of_mem a hc))]
      · refine ⟨fun hprefix => ?_, fun hprefix => ?_⟩
        · cases hlist : escapeUnit c with
          | nil => simp [hlist] at hhead
          | cons u e =>
            rw [hlist, cons_append, cons_prefix_cons] at hprefix
            have hu := (hunits u (hlist ▸ mem_cons_self)).1
            rw [← hprefix.1, ha] at hu
            cases hu
        · rw [← (cons_prefix_cons.mp hprefix).1, ha] at hname
          cases hname

/-- Escaping puts no name into a text and takes none out. -/
theorem name_infix_escapeHtml (slot : Slot) (t : Text) :
    slot.name <:+: escapeHtml t ↔ slot.name <:+: t := by
  have hp := name_ne_nil slot
  have hfree : ∀ s : Text, (∀ u ∈ s, isNameUnit u = false) → NotBegun slot.name s := by
    intro s hs a ha hmem
    have hname := isNameUnit_of_mem_name slot a (mem_of_mem_head? ha)
    rw [hs a hmem] at hname
    cases hname
  induction t with
  | nil => exact Iff.rfl
  | cons c t ih =>
    have hprefix := prefix_escapeHtml (isNameUnit_of_mem_name slot) (c :: t)
    rw [escapeHtml_cons] at hprefix ⊢
    rcases escapeUnit_cases c with ⟨hself, -⟩ | ⟨-, -, hname, -, hunits⟩
    · rw [hself, singleton_append] at hprefix ⊢
      rw [infix_cons_iff, infix_cons_iff, hprefix]
      exact or_congr_right ih
    · have hright := infix_append_iff_of_notBegun hp (hfree [c] (by simpa using hname)) t
      rw [infix_append_iff_of_notBegun hp (hfree _ (fun u hu => (hunits u hu).1))]
      exact ih.trans hright.symm

/-! ## Markups as pieces -/

/-- What a part is for the placeholders: an escaped text may hold a match. -/
def Part.piece : Part → Piece CodeUnit
  | .fixed t => .fixed t
  | .escaped value => .hole (escapeHtml value)

theorem text_pieces_markup (m : Markup) : Substitution.text (m.map Part.piece) = m.text := by
  rw [Substitution.text, flatMap_map]
  exact flatMap_congr (fun part _ => by cases part <;> rfl)

theorem closed_of_isSpaced (h : isSpaced m = true) (slot : Slot) :
    Closed slot.name (m.map Part.piece) := by
  fun_induction isSpaced m with
  | case1 => trivial
  | case2 t m ih =>
    obtain ⟨ht, hrest⟩ := Bool.and_eq_true_iff.mp h
    exact ⟨notBegun_of_isPlain (isPlain_of_isSeparator ht) slot, ih hrest⟩
  | case3 value t m ih =>
    obtain ⟨ht, hrest⟩ := Bool.and_eq_true_iff.mp h
    exact ⟨separates_of_isSeparator ht slot, ih hrest⟩
  | case4 value m hno => cases h

theorem isSeparator_lt : isSeparator (ofString "<") = true := by
  decide

theorem hasPattern_of_isSeparator (h : isSeparator t = true) (rest : Text) :
    hasPattern (t ++ rest) = hasPattern rest :=
  hasPattern_fixed (not_mem_of_isPlain (isPlain_of_isSeparator h)).1 rest

/-- A text and the fixed text behind it make no pattern together. -/
theorem hasPattern_value (h : isSeparator t = true) (value rest : Text) :
    hasPattern (escapeHtml value ++ (t ++ rest)) = (readsAsPattern value || hasPattern rest) := by
  obtain ⟨c, tail, rfl, hspecial, -⟩ := head?_of_isSeparator h
  rw [cons_append, hasPattern_hole hspecial, ← cons_append, hasPattern_of_isSeparator h,
    hasPattern_escapeHtml]

theorem hasPattern_spaced (h : isSpaced m = true) :
    hasPattern m.text = m.values.any readsAsPattern := by
  fun_induction isSpaced m with
  | case1 => rfl
  | case2 t m ih =>
    obtain ⟨ht, hrest⟩ := Bool.and_eq_true_iff.mp h
    exact (hasPattern_of_isSeparator ht _).trans (ih hrest)
  | case3 value t m ih =>
    obtain ⟨ht, hrest⟩ := Bool.and_eq_true_iff.mp h
    exact (hasPattern_value ht value _).trans (congrArg _ (ih hrest))
  | case4 value m hno => cases h

/-- A replacement has a pattern when a shown text has one. -/
theorem hasPattern_slotMarkup (x : ExportInput) (slot : Slot) :
    hasPattern (slotMarkup x slot).text = (slotMarkup x slot).values.any readsAsPattern := by
  have hspaced := hasPattern_spaced (isSpaced_slotMarkup x slot isSeparator_lt)
  have hend : hasPattern ((slotMarkup x slot).text ++ ofString "<") =
      hasPattern (slotMarkup x slot).text := by
    obtain ⟨c, tail, hlt, hspecial, -⟩ := head?_of_isSeparator isSeparator_lt
    have hnone : hasPattern (c :: tail) = false := by
      rw [← hlt]
      decide
    rw [hlt, hasPattern_hole hspecial, hnone, Bool.or_false]
  rw [← hend]
  simpa [Markup.text, Markup.values, Part.text, html] using hspaced

/-! ## Stages of the replacement -/

/-- A placeholder, or what is put in for it, and the text behind it. -/
@[grind =] def partPieces (x : ExportInput) (done : List Slot) (part : Slot × Text) :
    List (Piece CodeUnit) :=
  (if part.1 ∈ done then (slotMarkup x part.1).map Part.piece else [.hole part.1.name]) ++
    [.fixed part.2]

/-- The template with some placeholders replaced. -/
def Template.pieces (t : Template) (x : ExportInput) (done : List Slot) : List (Piece CodeUnit) :=
  .fixed t.front :: t.parts.flatMap (partPieces x done)

theorem text_append (pieces more : List (Piece CodeUnit)) :
    Substitution.text (pieces ++ more) = Substitution.text pieces ++ Substitution.text more :=
  flatMap_append

theorem text_partPieces (x : ExportInput) (done : List Slot) (part : Slot × Text) :
    Substitution.text (partPieces x done part) =
      (if part.1 ∈ done then (slotMarkup x part.1).text else part.1.name) ++ part.2 := by
  have hend : Substitution.text [Piece.fixed part.2] = part.2 := append_nil _
  have hhole : Substitution.text [Piece.hole part.1.name] = part.1.name := append_nil _
  rw [partPieces, text_append, hend]
  split
  · rw [text_pieces_markup]
  · rw [hhole]

theorem text_pieces (t : Template) (x : ExportInput) (done : List Slot) :
    Substitution.text (t.pieces x done) = t.front ++ t.parts.flatMap (fun part =>
      (if part.1 ∈ done then (slotMarkup x part.1).text else part.1.name) ++ part.2) := by
  have hcons : Substitution.text (t.pieces x done) =
      t.front ++ Substitution.text (t.parts.flatMap (partPieces x done)) := rfl
  rw [hcons, Substitution.text, flatMap_assoc]
  exact congrArg _ (flatMap_congr (fun part _ => text_partPieces x done part))

theorem closed_partPieces (x : ExportInput) (done : List Slot) (slot : Slot)
    {part : Slot × Text} (h : isSeparator part.2 = true) :
    Closed slot.name (partPieces x done part) := by
  unfold partPieces
  split
  · have hclosed := closed_of_isSpaced (isSpaced_slotMarkup x part.1 h) slot
    rwa [map_append] at hclosed
  · exact ⟨separates_of_isSeparator h slot, trivial⟩

theorem closed_pieces (t : Template) (x : ExportInput) (done : List Slot) (slot : Slot) :
    Closed slot.name (t.pieces x done) :=
  ⟨notBegun_of_isPlain t.plain slot,
    Closed.flatMap (fun _ hpart => closed_partPieces x done slot (t.separated _ hpart))⟩

/-- The matches of a name in what is put in for a placeholder. -/
def shownMatches (x : ExportInput) (slot other : Slot) : ℕ :=
  (((slotMarkup x other).map Part.piece).map (Piece.occurrences slot.name)).sum

theorem shownMatches_eq_zero_iff (x : ExportInput) (slot other : Slot) :
    shownMatches x slot other = 0 ↔
      ∀ value ∈ (slotMarkup x other).values, ¬ slot.name <:+: value := by
  rw [shownMatches, sum_eq_zero_iff]
  simp only [map_map, mem_map, forall_exists_index, and_imp, forall_apply_eq_imp_iff₂,
    Markup.values, mem_filterMap, Function.comp_apply]
  constructor
  · intro h value part hpart hvalue
    cases part with
    | fixed t => cases hvalue
    | escaped v =>
      obtain rfl := Option.some.inj hvalue
      have hzero := h _ hpart
      rwa [Part.piece, Piece.occurrences, occurrences_eq_zero_iff (name_ne_nil slot),
        name_infix_escapeHtml] at hzero
  · intro h part hpart
    cases part with
    | fixed t => rfl
    | escaped v =>
      rw [Part.piece, Piece.occurrences, occurrences_eq_zero_iff (name_ne_nil slot),
        name_infix_escapeHtml]
      exact h v _ hpart rfl

theorem occurrences_name (slot other : Slot) :
    occurrences slot.name other.name = if slot = other then 1 else 0 := by
  split
  · rename_i h
    rw [h, occurrences_self (name_ne_nil other)]
  · rename_i h
    exact (occurrences_eq_zero_iff (name_ne_nil slot)).mpr (name_notInfix h)

theorem not_mem_earlier (slot : Slot) : slot ∉ slot.earlier := by
  cases slot <;> decide

/-- The matches in a stage: the placeholders of the template, and those in what was put in. -/
theorem occurrences_pieces (t : Template) (x : ExportInput) (slot : Slot) :
    occurrences slot.name (Substitution.text (t.pieces x slot.earlier)) = t.used.count slot +
      (t.parts.map (fun part =>
        if part.1 ∈ slot.earlier then shownMatches x slot part.1 else 0)).sum := by
  rw [occurrences_text (name_ne_nil slot) (closed_pieces t x slot.earlier slot), Template.pieces,
    Template.used]
  have hpart (part : Slot × Text) :
      ((partPieces x slot.earlier part).map (Piece.occurrences slot.name)).sum =
        (if slot = part.1 then 1 else 0) +
          (if part.1 ∈ slot.earlier then shownMatches x slot part.1 else 0) := by
    rw [partPieces, map_append, sum_append]
    by_cases hmem : part.1 ∈ slot.earlier
    · have hne : slot ≠ part.1 := fun heq => not_mem_earlier slot (heq ▸ hmem)
      rw [if_pos hmem, if_neg hne, if_pos hmem, Nat.zero_add]
      rfl
    · rw [if_neg hmem, if_neg hmem, ← occurrences_name]
      rfl
  have hfront : Piece.occurrences slot.name (.fixed t.front) = 0 := rfl
  rw [map_cons, sum_cons, hfront, Nat.zero_add]
  induction t.parts with
  | nil => rfl
  | cons part parts ih =>
    rw [flatMap_cons, map_append, sum_append, ih, hpart, map_cons,
      count_cons, map_cons, sum_cons]
    simp only [beq_iff_eq, eq_comm (a := part.1)]
    omega

/-- A replacement finds the placeholders of the template alone, and puts in what it is given. -/
structure Undisturbed (t : Template) (x : ExportInput) (slot : Slot) : Prop where
  names : ∀ other ∈ t.used, other ∈ slot.earlier →
    ∀ value ∈ (slotMarkup x other).values, ¬ slot.name <:+: value
  plain : slot ∈ t.used → hasPattern (slotMarkup x slot).text = false

theorem occurrences_eq_count_iff (t : Template) (x : ExportInput) (slot : Slot) :
    occurrences slot.name (Substitution.text (t.pieces x slot.earlier)) = t.used.count slot ↔
      ∀ other ∈ t.used, other ∈ slot.earlier →
        ∀ value ∈ (slotMarkup x other).values, ¬ slot.name <:+: value := by
  rw [occurrences_pieces, Nat.add_eq_left, sum_eq_zero_iff]
  simp only [Template.used, mem_map, forall_exists_index, and_imp, forall_apply_eq_imp_iff₂,
    ite_eq_right_iff, shownMatches_eq_zero_iff]

theorem map_replaceBy_of_shown {p : Slot} (h : ∀ value ∈ m.values, ¬ p.name <:+: value) (r : Text) :
    (m.map Part.piece).map (Piece.replaceBy p.name r) = m.map Part.piece := by
  rw [map_map]
  refine map_congr_left (fun part hpart => ?_)
  cases part with
  | fixed t => rfl
  | escaped value =>
    have hvalue := h value (mem_filterMap.mpr ⟨_, hpart, rfl⟩)
    rw [← name_infix_escapeHtml] at hvalue
    exact congrArg Piece.hole (replaceBy_of_notInfix hvalue r)

/-- One replacement takes a stage to the next, in the part of a placeholder. -/
theorem replaceBy_part {t : Template} (h : Undisturbed t x slot) {part : Slot × Text}
    (hpart : part ∈ t.parts) :
    Substitution.text ((partPieces x slot.earlier part).map
        (Piece.replaceBy slot.name (slotMarkup x slot).text)) =
      Substitution.text (partPieces x (slot.earlier ++ [slot]) part) := by
  have hused : part.1 ∈ t.used := mem_map_of_mem hpart
  have hfixed (r : Text) : Piece.replaceBy slot.name r (.fixed part.2) = .fixed part.2 := rfl
  rw [text_partPieces, partPieces, map_append, text_append, map_singleton, hfixed]
  have hend : Substitution.text [Piece.fixed part.2] = part.2 := append_nil _
  rw [hend]
  by_cases hmem : part.1 ∈ slot.earlier
  · rw [if_pos hmem, if_pos (mem_append_left _ hmem),
      map_replaceBy_of_shown (h.names _ hused hmem), text_pieces_markup]
  · have hhole (r : Text) : Substitution.text ([Piece.hole part.1.name].map
        (Piece.replaceBy slot.name r)) = replaceBy slot.name r part.1.name := append_nil _
    rw [if_neg hmem, hhole]
    by_cases hself : slot = part.1
    · rw [← hself, if_pos (by simp), replaceBy_self (name_ne_nil slot)]
    · have hnext : part.1 ∉ slot.earlier ++ [slot] := by
        simpa [hmem] using fun heq => hself (Eq.symm heq)
      rw [if_neg hnext, replaceBy_of_notInfix (name_notInfix hself)]

theorem replaceGlobal_pieces {t : Template} (h : Undisturbed t x slot) :
    replaceGlobal slot.name (slotMarkup x slot).text
        (Substitution.text (t.pieces x slot.earlier)) =
      Substitution.text (t.pieces x (slot.earlier ++ [slot])) := by
  have hp := name_ne_nil slot
  have hcount := (occurrences_eq_count_iff t x slot).mpr h.names
  rw [replaceGlobal_eq hp (fun hpos => h.plain (count_pos_iff.mp (hcount ▸ hpos))),
    replaceBy_text hp (closed_pieces t x slot.earlier slot)]
  have hmap : Substitution.text ((t.pieces x slot.earlier).map
      (Piece.replaceBy slot.name (slotMarkup x slot).text)) =
        t.front ++ Substitution.text ((t.parts.flatMap (partPieces x slot.earlier)).map
          (Piece.replaceBy slot.name (slotMarkup x slot).text)) := rfl
  have hnext : Substitution.text (t.pieces x (slot.earlier ++ [slot])) =
      t.front ++ Substitution.text (t.parts.flatMap (partPieces x (slot.earlier ++ [slot]))) := rfl
  rw [hmap, hnext, map_flatMap, Substitution.text, Substitution.text, flatMap_assoc,
    flatMap_assoc]
  exact congrArg _ (flatMap_congr (fun part hpart => replaceBy_part h hpart))

/-! ## Runs -/

/-- A placeholder comes after those replaced before it. -/
theorem slot_induction {motive : Slot → Prop}
    (h : ∀ slot : Slot, (∀ other ∈ slot.earlier, motive other) → motive slot) (slot : Slot) :
    motive slot := by
  have hless (slot other : Slot) (hmem : other ∈ slot.earlier) :
      other.earlier.length < slot.earlier.length := by
    revert hmem
    cases slot <;> cases other <;> decide
  induction hn : slot.earlier.length using Nat.strong_induction_on generalizing slot with
  | _ n ih =>
    subst hn
    exact h slot (fun other hmem => ih _ (hless slot other hmem) other rfl)

theorem earlier_cases (slot : Slot) :
    slot.earlier = [] ∨ ∃ last : Slot, slot.earlier = last.earlier ++ [last] := by
  cases slot with
  | title => exact .inl rfl
  | subtitle => exact .inr ⟨.title, rfl⟩
  | overview => exact .inr ⟨.subtitle, rfl⟩
  | live => exact .inr ⟨.overview, rfl⟩
  | reminders => exact .inr ⟨.live, rfl⟩
  | sections => exact .inr ⟨.reminders, rfl⟩
  | exportedAt => exact .inr ⟨.sections, rfl⟩

theorem replaceSlots_append (markup : Slot → Markup) (template : Text) (done rest : List Slot) :
    replaceSlots markup template (done ++ rest) =
      replaceSlots markup (replaceSlots markup template done) rest := by
  induction done generalizing template with
  | nil => rfl
  | cons slot done ih => exact ih _

/-- Undisturbed replacements go through the stages. -/
theorem textAt_eq {t : Template} (slot : Slot) (h : ∀ other ∈ slot.earlier, Undisturbed t x other) :
    textAt t x slot = Substitution.text (t.pieces x slot.earlier) := by
  induction slot using slot_induction with
  | _ slot ih =>
    rcases earlier_cases slot with hnil | ⟨last, hlast⟩
    · rw [textAt, hnil, text_pieces]
      rfl
    · rw [hlast] at ih h
      have hmem : last ∈ last.earlier ++ [last] := by simp
      have hstage := ih last hmem (fun other hother => h other (mem_append_left _ hother))
      rw [textAt, hlast, replaceSlots_append, ← replaceGlobal_pieces (h last hmem), ← hstage]
      rfl

theorem forall_undisturbed_iff (t : Template) (x : ExportInput) :
    (∀ slot, Undisturbed t x slot) ↔ Inert t x := by
  constructor
  · intro h slot hslot value hvalue
    refine ⟨?_, fun later hlater => (h later).names slot hslot hlater value hvalue⟩
    have hplain := (h slot).plain hslot
    rw [hasPattern_slotMarkup, any_eq_false] at hplain
    simpa using hplain value hvalue
  · intro h slot
    refine ⟨fun other hother hmem value hvalue => (h other hother value hvalue).2 slot hmem,
      fun hslot => ?_⟩
    rw [hasPattern_slotMarkup, any_eq_false]
    intro value hvalue
    simpa using (h slot hslot value hvalue).1

theorem substituted_of_undisturbed {t : Template} (h : ∀ slot, Undisturbed t x slot) :
    Substituted t x := by
  have hstage (slot : Slot) := textAt_eq slot (fun other _ => h other)
  have hcount (slot : Slot) : occurrences slot.name (textAt t x slot) = t.used.count slot := by
    rw [hstage]
    exact (occurrences_eq_count_iff t x slot).mpr (h slot).names
  refine ⟨?_, hcount, fun slot hpos => ?_⟩
  · have hslots : slots = Slot.exportedAt.earlier ++ [.exportedAt] := rfl
    have hall (slot : Slot) : slot ∈ slots := by
      cases slot <;> decide
    have hlast : buildExportHtml t.text x = replaceGlobal Slot.exportedAt.name
        (slotMarkup x .exportedAt).text (textAt t x .exportedAt) := rfl
    rw [hlast, hstage, replaceGlobal_pieces (h .exportedAt), ← hslots, text_pieces,
      Template.substitute]
    exact congrArg _ (flatMap_congr (fun part _ => by rw [if_pos (hall part.1)]))
  · rw [hcount] at hpos
    exact (h slot).plain (count_pos_iff.mp hpos)

theorem undisturbed_of_substituted {t : Template} (h : Substituted t x) (slot : Slot) :
    Undisturbed t x slot := by
  induction slot using slot_induction with
  | _ slot ih =>
    have hcount := h.placeholders slot
    refine ⟨?_, fun hslot => h.patterns slot ?_⟩
    · rw [textAt_eq slot ih] at hcount
      exact (occurrences_eq_count_iff t x slot).mp hcount
    · rw [hcount]
      exact count_pos_iff.mpr hslot

/-- The export substitutes exactly when what it shows is inert. -/
theorem substituted_iff (t : Template) (x : ExportInput) : Substituted t x ↔ Inert t x := by
  rw [← forall_undisturbed_iff]
  exact ⟨undisturbed_of_substituted, substituted_of_undisturbed⟩

/-- The template of the route, when there is no file, in front of its placeholder. -/
def fallbackFront : Text :=
  ofString ("<!DOCTYPE html><html lang=\"en\"><head><meta charset=\"utf-8\">" ++
    "<title>Festie Export</title></head><body>")

theorem isPlain_fallbackFront : isPlain fallbackFront = true := by
  decide

theorem isSeparator_fallbackEnd :
    ∀ part ∈ [(Slot.sections, ofString "</body></html>")], isSeparator part.2 = true := by
  decide

def fallbackTemplate : Template where
  front := fallbackFront
  parts := [(.sections, ofString "</body></html>")]
  plain := isPlain_fallbackFront
  separated := isSeparator_fallbackEnd

/-- The export of one picked set, by an artist whose name has two dollar signs. -/
def dollarInput : ExportInput where
  host := {
    localeCompare := fun _ _ => 0
    parse := fun _ => none
    toLocaleString := fun _ => []
    toUpperCase := id }
  festival := {
    name := ofString "Fest"
    location := []
    stages := []
    days := [{
      label := ofString "Day 1"
      date := []
      sets := [{
        id := ofString "s"
        artist := ofString "A$$AP"
        stageId := []
        startTime := []
        endTime := [] }] }] }
  profile := {
    id := ofString "p"
    name := ofString "Ann"
    picks := [(ofString "s", ofString "must")]
    notes := []
    reminders := [] }
  allProfiles := []
  exportedAt := 0

theorem dollars_not_substituted : ¬ Substituted fallbackTemplate dollarInput := by
  intro h
  have hlength := congrArg List.length h.document
  revert hlength
  decide +kernel

end FestivalPlanner.Share
