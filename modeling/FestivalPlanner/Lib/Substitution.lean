import FestivalPlanner.Lib.Utf16
import Mathlib.Algebra.GroupWithZero.Nat
import Mathlib.Data.List.Infix

/-!
# Substitution of placeholders

The global replacement of a name in a text, `text.replace(/name/g, replacement)`, one name after
the other, and when this is a substitution of placeholders.

* `splitAll`, `occurrences` — the texts between the matches of a name, and their number;
* `replaceBy` — every match replaced by one text, as it is;
* `Piece`, `Closed` — a text of fixed pieces and holes, in which no match leaves its hole;
  `replaceBy_text`, `occurrences_text` — **then a replacement is made in each hole alone**;
* `expandReplacement`, `replaceGlobal` — the replacement of JavaScript, in which `$` has a meaning;
  `replaceGlobal_eq` — without such patterns it is `replaceBy`.
-/

namespace Substitution

open List

universe u

variable {α : Type u}

/-! ## Parts -/

/-- A text in front of the first part. -/
@[grind =] def addFirst (front : List α) : List (List α) → List (List α)
  | [] => [front]
  | part :: parts => (front ++ part) :: parts

/-- The parts, with a text between them. -/
@[grind =] def joinWith (r : List α) : List (List α) → List α
  | [] => []
  | [part] => part
  | part :: parts => part ++ r ++ joinWith r parts

theorem addFirst_ne_nil (front : List α) (parts : List (List α)) : addFirst front parts ≠ [] := by
  cases parts <;> simp [addFirst]

theorem length_addFirst (front : List α) {parts : List (List α)} (h : parts ≠ []) :
    (addFirst front parts).length = parts.length := by
  cases parts with
  | nil => exact absurd rfl h
  | cons part parts => rfl

theorem joinWith_cons (r part : List α) {parts : List (List α)} (h : parts ≠ []) :
    joinWith r (part :: parts) = part ++ r ++ joinWith r parts := by
  cases parts with
  | nil => exact absurd rfl h
  | cons next parts => rfl

theorem joinWith_addFirst (r front : List α) {parts : List (List α)} (h : parts ≠ []) :
    joinWith r (addFirst front parts) = front ++ joinWith r parts := by
  match parts, h with
  | [part], _ => rfl
  | part :: next :: parts, _ => simp [addFirst, joinWith]

/-- The parts of two texts, the last part of the first with the first of the second. -/
@[grind =] def glue : List (List α) → List (List α) → List (List α)
  | [], parts => parts
  | [part], parts => addFirst part parts
  | part :: next :: more, parts => part :: glue (next :: more) parts

theorem glue_cons {more : List (List α)} (h : more ≠ []) (part : List α)
    (parts : List (List α)) : glue (part :: more) parts = part :: glue more parts := by
  cases more with
  | nil => exact absurd rfl h
  | cons next more => rfl

theorem glue_addFirst (front : List α) {more : List (List α)} (h : more ≠ [])
    {parts : List (List α)} (hparts : parts ≠ []) :
    glue (addFirst front more) parts = addFirst front (glue more parts) := by
  match more, h, parts, hparts with
  | [part], _, next :: parts, _ => simp [addFirst, glue]
  | part :: next :: more, _, parts, _ => rfl

theorem glue_ne_nil (more : List (List α)) {parts : List (List α)} (h : parts ≠ []) :
    glue more parts ≠ [] := by
  match more with
  | [] => exact h
  | [part] => exact addFirst_ne_nil part parts
  | part :: next :: more => simp [glue]

theorem length_glue {more parts : List (List α)} (hmore : more ≠ []) (hparts : parts ≠ []) :
    (glue more parts).length - 1 = (more.length - 1) + (parts.length - 1) := by
  induction more with
  | nil => exact absurd rfl hmore
  | cons part more ih =>
    cases more with
    | nil => simp [glue, length_addFirst part hparts]
    | cons next more =>
      have hstep := ih (cons_ne_nil next more)
      have hpos := length_pos_iff.mpr (glue_ne_nil (next :: more) hparts)
      simp only [glue, length_cons] at hstep hpos ⊢
      omega

theorem joinWith_glue (r : List α) {more parts : List (List α)} (hmore : more ≠ [])
    (hparts : parts ≠ []) : joinWith r (glue more parts) = joinWith r more ++ joinWith r parts := by
  induction more with
  | nil => exact absurd rfl hmore
  | cons part more ih =>
    cases more with
    | nil => exact joinWith_addFirst r part hparts
    | cons next more =>
      have hne := glue_ne_nil (next :: more) hparts
      have hstep := ih (cons_ne_nil next more)
      rw [glue, joinWith_cons r part hne, hstep, joinWith_cons r part (cons_ne_nil next more),
        append_assoc _ _ (joinWith r parts)]

/-! ## Holes -/

variable {p s : List α}

/-- No match of `p` begins in `s`. -/
def NotBegun (p s : List α) : Prop := ∀ a ∈ p.head?, a ∉ s

/-- No match of `p` begins or ends in `s`, or covers it. -/
structure Separates (p s : List α) : Prop where
  notBegun : NotBegun p s
  notEnded : ∀ a ∈ p.getLast?, a ∉ s
  foreign : ∃ c ∈ s, c ∉ p

theorem not_prefix_of_notBegun (hp : p ≠ []) {c : α} (hc : c ∈ s) (h : NotBegun p s)
    (rest : List α) : ¬ p <+: c :: rest := by
  intro hprefix
  cases p with
  | nil => exact hp rfl
  | cons a p =>
    obtain ⟨rfl, -⟩ := cons_prefix_cons.mp hprefix
    exact h a rfl hc

/-- A match that begins before a separator ends before it. -/
theorem Separates.prefix_iff (h : Separates p s) {u : List α} (rest : List α) :
    p <+: u ++ (s ++ rest) ↔ p <+: u := by
  refine ⟨fun hprefix => ?_, fun hprefix => hprefix.trans (prefix_append u _)⟩
  rcases prefix_or_prefix_of_prefix hprefix (prefix_append u (s ++ rest)) with hu | hu
  · exact hu
  · obtain ⟨q, rfl⟩ := hu
    have hq : q <+: s ++ rest := (prefix_append_right_inj u).mp hprefix
    cases hlast : q.getLast? with
    | none => rw [getLast?_eq_none_iff.mp hlast, append_nil]
    | some a =>
      have hlastp : a ∈ (u ++ q).getLast? := by
        rw [getLast?_append, hlast]
        rfl
      obtain ⟨c, hc, hforeign⟩ := h.foreign
      obtain ⟨s₁, s₂, rfl⟩ := append_of_mem hc
      have hq₁ : q <+: s₁ ++ (c :: s₂ ++ rest) := by simpa using hq
      rcases prefix_or_prefix_of_prefix hq₁ (prefix_append s₁ _) with hle | hle
      · have hmem : a ∈ s₁ := hle.subset (mem_of_getLast? hlast)
        exact absurd (mem_append_left _ hmem) (h.notEnded a hlastp)
      · obtain ⟨q', rfl⟩ := hle
        have hq' : q' <+: c :: s₂ ++ rest := (prefix_append_right_inj s₁).mp hq₁
        cases q' with
        | nil =>
          rw [append_nil] at hlast
          have hmem : a ∈ s₁ := mem_of_getLast? hlast
          exact absurd (mem_append_left _ hmem) (h.notEnded a hlastp)
        | cons d q' =>
          obtain ⟨rfl, -⟩ := cons_prefix_cons.mp hq'
          exact absurd (by simp) hforeign

/-- A fixed piece of a text, or a hole with what is in it. -/
inductive Piece (α : Type u) where
  | fixed (text : List α)
  | hole (text : List α)

def Piece.text : Piece α → List α
  | .fixed t => t
  | .hole t => t

/-- The whole text. -/
@[grind =] def text (pieces : List (Piece α)) : List α := pieces.flatMap Piece.text

/-- Fixed pieces begin no match, and one that separates stands behind every hole. -/
def Closed (p : List α) : List (Piece α) → Prop
  | [] => True
  | .fixed s :: pieces => NotBegun p s ∧ Closed p pieces
  | .hole _ :: .fixed s :: pieces => Separates p s ∧ Closed p pieces
  | .hole _ :: _ => False

/-- Closed texts one after the other. -/
theorem Closed.append {pieces more : List (Piece α)} (h : Closed p pieces)
    (hmore : Closed p more) : Closed p (pieces ++ more) := by
  fun_induction Closed p pieces with
  | case1 => exact hmore
  | case2 s pieces ih => exact ⟨h.1, ih h.2⟩
  | case3 u s pieces ih => exact ⟨h.1, ih h.2⟩
  | case4 u pieces hno => exact h.elim

theorem Closed.flatMap {β : Type*} {items : List β} {pieces : β → List (Piece α)}
    (h : ∀ b ∈ items, Closed p (pieces b)) : Closed p (items.flatMap pieces) := by
  induction items with
  | nil => trivial
  | cons b items ih =>
    rw [flatMap_cons]
    exact (h b mem_cons_self).append (ih (fun c hc => h c (mem_cons_of_mem b hc)))

/-! ## Matches -/

variable [DecidableEq α]

/-- The parts between the matches, of which the first `skip` units of the text are the rest of
one. -/
@[grind =] def splitFrom (p : List α) : ℕ → List α → List (List α)
  | _, [] => [[]]
  | skip + 1, _ :: s => splitFrom p skip s
  | 0, c :: s =>
    if p <+: c :: s then [] :: splitFrom p (p.length - 1) s else addFirst [c] (splitFrom p 0 s)

/-- The parts between the matches of `p`, found from the left. -/
@[grind =] def splitAll (p s : List α) : List (List α) := splitFrom p 0 s

/-- How many matches there are. -/
@[grind =] def occurrences (p s : List α) : ℕ := (splitAll p s).length - 1

/-- Every match of `p` replaced by `r`. -/
@[grind =] def replaceBy (p r s : List α) : List α := joinWith r (splitAll p s)

theorem splitFrom_ne_nil (p : List α) (skip : ℕ) (s : List α) : splitFrom p skip s ≠ [] := by
  induction s generalizing skip with
  | nil => simp [splitFrom]
  | cons c s ih =>
    cases skip with
    | zero =>
      rw [splitFrom]
      split
      · simp
      · exact addFirst_ne_nil _ _
    | succ skip => exact ih skip

theorem splitFrom_length (p s : List α) : splitFrom p s.length s = [[]] := by
  induction s with
  | nil => rfl
  | cons c s ih => exact ih

/-- A name is one match of itself. -/
theorem splitAll_self {p : List α} (hp : p ≠ []) : splitAll p p = [[], []] := by
  cases p with
  | nil => exact absurd rfl hp
  | cons c p =>
    rw [splitAll, splitFrom, if_pos (prefix_refl _)]
    exact congrArg (List.cons []) (splitFrom_length (c :: p) p)

theorem splitAll_of_notInfix {p s : List α} (h : ¬ p <:+: s) : splitAll p s = [s] := by
  induction s with
  | nil => rfl
  | cons c s ih =>
    rw [infix_cons_iff, not_or] at h
    rw [splitAll, splitFrom, if_neg h.1]
    have hs : splitFrom p 0 s = [s] := ih h.2
    rw [hs]
    rfl

theorem occurrences_eq_zero_iff {p s : List α} (hp : p ≠ []) :
    occurrences p s = 0 ↔ ¬ p <:+: s := by
  constructor
  · intro h hinfix
    induction s with
    | nil => exact hp (infix_nil.mp hinfix)
    | cons c s ih =>
      unfold occurrences splitAll at h ih
      rw [splitFrom] at h
      split at h
      · have hpos := length_pos_iff.mpr (splitFrom_ne_nil p (p.length - 1) s)
        rw [length_cons] at h
        omega
      · rename_i hprefix
        rw [length_addFirst _ (splitFrom_ne_nil p 0 s)] at h
        exact ih h ((infix_cons_iff.mp hinfix).resolve_left hprefix)
  · intro h
    rw [occurrences, splitAll_of_notInfix h]
    rfl

theorem replaceBy_of_notInfix {p s : List α} (h : ¬ p <:+: s) (r : List α) :
    replaceBy p r s = s := by
  rw [replaceBy, splitAll_of_notInfix h]
  rfl

theorem replaceBy_self {p : List α} (hp : p ≠ []) (r : List α) : replaceBy p r p = r := by
  rw [replaceBy, splitAll_self hp]
  simp [joinWith]

theorem occurrences_self {p : List α} (hp : p ≠ []) : occurrences p p = 1 := by
  rw [occurrences, splitAll_self hp]
  rfl

/-- Fixed text before the rest. -/
theorem splitFrom_fixed (hp : p ≠ []) (h : NotBegun p s) (rest : List α) :
    splitFrom p 0 (s ++ rest) = addFirst s (splitFrom p 0 rest) := by
  induction s with
  | nil =>
    cases hrest : splitFrom p 0 rest with
    | nil => exact absurd hrest (splitFrom_ne_nil p 0 rest)
    | cons part parts => simp [addFirst, hrest]
  | cons c s ih =>
    have hs : NotBegun p s := fun a ha hmem => h a ha (mem_cons_of_mem c hmem)
    rw [cons_append, splitFrom, if_neg (not_prefix_of_notBegun hp mem_cons_self h _),
      ih hs]
    cases splitFrom p 0 rest <;> rfl

/-- A hole before a separator. -/
theorem splitFrom_hole (hp : p ≠ []) (h : Separates p s) {u : List α} {skip : ℕ}
    (hskip : skip ≤ u.length) (rest : List α) :
    splitFrom p skip (u ++ (s ++ rest)) =
      glue (splitFrom p skip u) (addFirst s (splitFrom p 0 rest)) := by
  induction u generalizing skip with
  | nil =>
    obtain rfl : skip = 0 := by simpa using hskip
    rw [nil_append, splitFrom_fixed hp h.notBegun]
    cases splitFrom p 0 rest <;> rfl
  | cons c u ih =>
    cases skip with
    | succ skip => exact ih (by simpa using hskip)
    | zero =>
      have hiff := h.prefix_iff (u := c :: u) rest
      rw [cons_append] at hiff ⊢
      rw [splitFrom, splitFrom]
      by_cases hprefix : p <+: c :: u
      · have hlen : p.length - 1 ≤ u.length := by
          have := hprefix.length_le
          rw [length_cons] at this
          omega
        rw [if_pos (hiff.mpr hprefix), if_pos hprefix, ih hlen,
          glue_cons (splitFrom_ne_nil p (p.length - 1) u)]
      · rw [if_neg (fun hlong => hprefix (hiff.mp hlong)), if_neg hprefix, ih (Nat.zero_le _),
          glue_addFirst _ (splitFrom_ne_nil p 0 u) (addFirst_ne_nil _ _)]

theorem replaceBy_fixed (hp : p ≠ []) (h : NotBegun p s) (r rest : List α) :
    replaceBy p r (s ++ rest) = s ++ replaceBy p r rest := by
  rw [replaceBy, splitAll, splitFrom_fixed hp h, joinWith_addFirst r s (splitFrom_ne_nil p 0 rest)]
  rfl

theorem occurrences_fixed (hp : p ≠ []) (h : NotBegun p s) (rest : List α) :
    occurrences p (s ++ rest) = occurrences p rest := by
  rw [occurrences, splitAll, splitFrom_fixed hp h, length_addFirst s (splitFrom_ne_nil p 0 rest)]
  rfl

theorem replaceBy_hole (hp : p ≠ []) (h : Separates p s) (r u rest : List α) :
    replaceBy p r (u ++ (s ++ rest)) = replaceBy p r u ++ (s ++ replaceBy p r rest) := by
  rw [replaceBy, splitAll, splitFrom_hole hp h (Nat.zero_le _),
    joinWith_glue r (splitFrom_ne_nil p 0 u) (addFirst_ne_nil _ _),
    joinWith_addFirst r s (splitFrom_ne_nil p 0 rest)]
  rfl

theorem occurrences_hole (hp : p ≠ []) (h : Separates p s) (u rest : List α) :
    occurrences p (u ++ (s ++ rest)) = occurrences p u + occurrences p rest := by
  rw [occurrences, splitAll, splitFrom_hole hp h (Nat.zero_le _),
    length_glue (splitFrom_ne_nil p 0 u) (addFirst_ne_nil _ _),
    length_addFirst s (splitFrom_ne_nil p 0 rest)]
  rfl

/-! ## Texts of pieces -/

/-- A piece with its match replaced, when it is a hole. -/
@[grind =] def Piece.replaceBy (p r : List α) : Piece α → Piece α
  | .fixed t => .fixed t
  | .hole t => .hole (Substitution.replaceBy p r t)

/-- The matches in a hole. -/
@[grind =] def Piece.occurrences (p : List α) : Piece α → ℕ
  | .fixed _ => 0
  | .hole t => Substitution.occurrences p t

/-- In a closed text, matches are replaced in the holes alone. -/
theorem replaceBy_text (hp : p ≠ []) {pieces : List (Piece α)} (h : Closed p pieces)
    (r : List α) :
    replaceBy p r (text pieces) = text (pieces.map (Piece.replaceBy p r)) := by
  fun_induction Closed p pieces with
  | case1 => simp [text, replaceBy, splitAll, splitFrom, joinWith]
  | case2 s pieces ih =>
    have hcons : text (.fixed s :: pieces) = s ++ text pieces := rfl
    rw [hcons, replaceBy_fixed hp h.1, ih h.2]
    rfl
  | case3 u s pieces ih =>
    have hcons : text (.hole u :: .fixed s :: pieces) = u ++ (s ++ text pieces) := rfl
    rw [hcons, replaceBy_hole hp h.1, ih h.2]
    rfl
  | case4 u pieces hno => exact h.elim

/-- In a closed text, matches are counted in the holes alone. -/
theorem occurrences_text (hp : p ≠ []) {pieces : List (Piece α)} (h : Closed p pieces) :
    occurrences p (text pieces) = (pieces.map (Piece.occurrences p)).sum := by
  fun_induction Closed p pieces with
  | case1 => simp [text, occurrences, splitAll, splitFrom]
  | case2 s pieces ih =>
    have hcons : text (.fixed s :: pieces) = s ++ text pieces := rfl
    rw [hcons, occurrences_fixed hp h.1, ih h.2]
    simp [Piece.occurrences]
  | case3 u s pieces ih =>
    have hcons : text (.hole u :: .fixed s :: pieces) = u ++ (s ++ text pieces) := rfl
    rw [hcons, occurrences_hole hp h.1, ih h.2]
    simp [Piece.occurrences]
  | case4 u pieces hno => exact h.elim

/-! ## Replacement patterns -/

open Utf16

/-- The units that have a meaning behind a dollar sign: a dollar sign, the match, and the texts
before and after it. -/
def isSpecial (c : CodeUnit) : Bool :=
  c == unit '$' || c == unit '&' || c == unit (Char.ofNat 96) || c == unit (Char.ofNat 39)

/-- A replacement with its patterns expanded.  Without capture groups every other dollar sign
stands for itself. -/
def expandReplacement (matched before after : Text) : Text → Text
  | [] => []
  | [c] => [c]
  | c :: d :: t =>
    if c = unit '$' ∧ isSpecial d = true then
      (if d = unit '$' then [d] else if d = unit '&' then matched
        else if d = unit (Char.ofNat 96) then before else after) ++
      expandReplacement matched before after t
    else c :: expandReplacement matched before after (d :: t)

/-- The parts after `before`, with the expanded replacement between them. -/
def putReplacements (p r : Text) : Text → List Text → Text
  | _, [] => []
  | _, [part] => part
  | before, part :: parts =>
    part ++ expandReplacement p (before ++ part) (joinWith p parts) r ++
      putReplacements p r (before ++ part ++ p) parts

/-- `text.replace(/p/g, r)` -/
def replaceGlobal (p r t : Text) : Text := putReplacements p r [] (splitAll p t)

/-- Some dollar sign has a meaning. -/
@[grind =] def hasPattern : Text → Bool
  | [] => false
  | [_] => false
  | c :: d :: t => (c == unit '$' && isSpecial d) || hasPattern (d :: t)

theorem expandReplacement_of_not {t : Text} (h : hasPattern t = false)
    (matched before after : Text) : expandReplacement matched before after t = t := by
  fun_induction expandReplacement matched before after t with
  | case1 => rfl
  | case2 c => rfl
  | case3 c d t hspecial ih => simp [hasPattern, hspecial] at h
  | case4 c d t hspecial ih =>
    simp only [hasPattern, Bool.or_eq_false_iff] at h
    rw [ih h.2]

theorem putReplacements_of_not {r : Text} (h : hasPattern r = false) (p before : Text)
    (parts : List Text) : putReplacements p r before parts = joinWith r parts := by
  fun_induction putReplacements p r before parts with
  | case1 => rfl
  | case2 before part => rfl
  | case3 before part parts hne ih =>
    have hparts : parts ≠ [] := fun heq => hne (heq ▸ rfl)
    rw [joinWith_cons r part hparts, expandReplacement_of_not h, ih]

/-- Without a pattern, and without a match, a replacement is put in as it is. -/
theorem replaceGlobal_eq {p r t : Text} (hp : p ≠ [])
    (h : 0 < occurrences p t → hasPattern r = false) : replaceGlobal p r t = replaceBy p r t := by
  rcases Nat.eq_zero_or_pos (occurrences p t) with hzero | hpos
  · rw [occurrences_eq_zero_iff hp] at hzero
    rw [replaceGlobal, replaceBy, splitAll_of_notInfix hzero]
    rfl
  · exact putReplacements_of_not (h hpos) p [] _

theorem hasPattern_cons {c : CodeUnit} (h : c ≠ unit '$') (t : Text) :
    hasPattern (c :: t) = hasPattern t := by
  cases t with
  | nil => rfl
  | cons d t => simp [hasPattern, h]

/-- A text without dollar signs adds no pattern. -/
theorem hasPattern_fixed {s : Text} (h : unit '$' ∉ s) (rest : Text) :
    hasPattern (s ++ rest) = hasPattern rest := by
  induction s with
  | nil => rfl
  | cons c s ih =>
    have hc : c ≠ unit '$' := fun heq => h (heq ▸ mem_cons_self)
    rw [cons_append, hasPattern_cons hc, ih (fun hmem => h (mem_cons_of_mem c hmem))]

/-- No pattern goes on beyond a unit that has no meaning. -/
theorem hasPattern_hole {d : CodeUnit} (h : isSpecial d = false) (u rest : Text) :
    hasPattern (u ++ d :: rest) = (hasPattern u || hasPattern (d :: rest)) := by
  induction u with
  | nil => rfl
  | cons c u ih =>
    cases u with
    | nil => simp [hasPattern, h]
    | cons e u =>
      simp only [cons_append, hasPattern] at ih ⊢
      rw [ih, Bool.or_assoc]

end Substitution
