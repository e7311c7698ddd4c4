import FestivalPlanner.Lib.Utf16
import Mathlib.Data.List.Flatten
import Mathlib.Tactic.Ring

/-!
# Folded content lines

The layer of lines under a calendar text: lines end with a carriage return and a line feed, and
a line break before a blank only folds a longer line.

* `physicalLines` — the lines between the line breaks; `join` — lines with breaks between them;
* `unfold` — the text without its folds; `contentLines` — the lines of the unfolded text;
* `Written` — a text that is unfolded to a line wherever it stands; `contentLines_join` — **joined
  texts are read as the lines that they were written for**;
* `foldAt` — a first piece of a fixed number of units, and pieces of another number after it;
* `octets` — the length in UTF-8; `octets_le_length_iff` — no more octets than units are ASCII;
* `foldAt_fits_iff` — **the pieces have as few octets as units exactly when everything before
  the last fold is ASCII and the last piece is short.**
-/

namespace ContentLines

open Utf16 List

/-! ## Lines -/

/-- A carriage return and a line feed. -/
@[grind =] def crlf : Text := [unit '\r', unit '\n']

/-- A space or a tab. -/
def isBlank (c : CodeUnit) : Bool := c == unit ' ' || c == unit '\t'

/-- No carriage return, with which every line break begins. -/
def NoReturn (t : Text) : Prop := unit '\r' ∉ t

instance (t : Text) : Decidable (NoReturn t) := inferInstanceAs (Decidable (¬ unit '\r' ∈ t))

@[simp] theorem noReturn_nil : NoReturn [] := not_mem_nil

variable {c : CodeUnit} {t s : Text} {lines texts : List Text} {limit : ℕ}

@[simp] theorem noReturn_cons : NoReturn (c :: t) ↔ c ≠ unit '\r' ∧ NoReturn t := by
  simp only [NoReturn, mem_cons, not_or, ne_eq, eq_comm]

@[simp] theorem noReturn_append : NoReturn (s ++ t) ↔ NoReturn s ∧ NoReturn t := by
  simp only [NoReturn, mem_append, not_or]

/-- One more unit of the first line. -/
def consFirst (c : CodeUnit) : List Text → List Text
  | [] => [[c]]
  | line :: lines => (c :: line) :: lines

/-- The lines between the line breaks. -/
@[grind =] def physicalLines : Text → List Text
  | [] => [[]]
  | [c] => [[c]]
  | c :: d :: t =>
    if c = unit '\r' ∧ d = unit '\n' then [] :: physicalLines t
    else consFirst c (physicalLines (d :: t))

/-- The lines, with a line break between them. -/
@[grind =] def join : List Text → Text
  | [] => []
  | [line] => line
  | line :: lines => line ++ crlf ++ join lines

theorem physicalLines_ne_nil (t : Text) : physicalLines t ≠ [] := by
  fun_cases physicalLines t with
  | case1 => simp
  | case2 c => simp
  | case3 c d t h => simp
  | case4 c d t h => cases physicalLines (d :: t) <;> simp [consFirst]

theorem consFirst_append (c : CodeUnit) (h : lines ≠ []) (more : List Text) :
    consFirst c (lines ++ more) = consFirst c lines ++ more := by
  cases lines with
  | nil => exact absurd rfl h
  | cons line lines => rfl

theorem physicalLines_crlf (t : Text) : physicalLines (crlf ++ t) = [] :: physicalLines t := by
  simp [crlf, physicalLines]

/-- A unit that is no carriage return belongs to the first line. -/
theorem physicalLines_cons (h : c ≠ unit '\r') (t : Text) :
    physicalLines (c :: t) = consFirst c (physicalLines t) := by
  cases t with
  | nil => rfl
  | cons d t => simp [physicalLines, h]

/-- A line break parts the lines before it from those after it. -/
theorem physicalLines_append_crlf (s t : Text) :
    physicalLines (s ++ crlf ++ t) = physicalLines s ++ physicalLines t := by
  fun_induction physicalLines s with
  | case1 => exact physicalLines_crlf t
  | case2 c =>
    have hno : ¬ (c = unit '\r' ∧ unit '\r' = unit '\n') := fun h => absurd h.2 (by decide)
    have hcons : [c] ++ crlf ++ t = c :: unit '\r' :: (unit '\n' :: t) := rfl
    rw [hcons, physicalLines, if_neg hno]
    exact congrArg (consFirst c) (physicalLines_crlf t)
  | case3 c d s h ih =>
    have hcons : c :: d :: s ++ crlf ++ t = c :: d :: (s ++ crlf ++ t) := by simp
    rw [hcons, physicalLines, if_pos h, ih, cons_append]
  | case4 c d s h ih =>
    have hcons : c :: d :: s ++ crlf ++ t = c :: d :: (s ++ crlf ++ t) := by simp
    rw [hcons, physicalLines, if_neg h, ← consFirst_append c (physicalLines_ne_nil _), ← ih]
    simp

/-- A text without a carriage return is one line. -/
theorem physicalLines_of_noReturn (h : NoReturn t) : physicalLines t = [t] := by
  induction t with
  | nil => rfl
  | cons c t ih =>
    have ⟨hc, ht⟩ := noReturn_cons.mp h
    rw [physicalLines_cons hc, ih ht]
    rfl

theorem join_cons_cons (s t : Text) (ts : List Text) :
    join (s :: t :: ts) = s ++ crlf ++ join (t :: ts) := rfl

/-- The lines of joined texts are those of the texts. -/
theorem physicalLines_join {ts : List Text} (hne : ts ≠ []) :
    physicalLines (join ts) = ts.flatMap physicalLines := by
  induction ts with
  | nil => exact absurd rfl hne
  | cons s ts ih =>
    cases ts with
    | nil => simp [join]
    | cons t ts =>
      rw [join_cons_cons, physicalLines_append_crlf, ih (cons_ne_nil t ts)]
      rfl

/-! ## Unfolding -/

/-- The text without its line breaks before blanks, and without these blanks. -/
@[grind =] def unfold : Text → Text
  | [] => []
  | [c] => [c]
  | [c, d] => [c, d]
  | c :: d :: e :: t =>
    if c = unit '\r' ∧ d = unit '\n' ∧ isBlank e = true then unfold t
    else c :: unfold (d :: e :: t)

/-- The lines of the unfolded text. -/
def contentLines (t : Text) : List Text := physicalLines (unfold t)

/-- A unit that is no carriage return stays. -/
theorem unfold_cons (h : c ≠ unit '\r') (t : Text) : unfold (c :: t) = c :: unfold t := by
  match t with
  | [] => rfl
  | [d] => rfl
  | d :: e :: t => simp [unfold, h]

theorem unfold_append (h : NoReturn s) (t : Text) : unfold (s ++ t) = s ++ unfold t := by
  induction s with
  | nil => rfl
  | cons c s ih =>
    have ⟨hc, hs⟩ := noReturn_cons.mp h
    rw [cons_append, unfold_cons hc, ih hs, cons_append]

/-- A fold disappears. -/
theorem unfold_fold (t : Text) : unfold (crlf ++ unit ' ' :: t) = unfold t := by
  simp [crlf, unfold, isBlank]

/-- A line break that no blank follows stays. -/
theorem unfold_crlf (h : Ends isBlank t) : unfold (crlf ++ t) = crlf ++ unfold t := by
  cases t with
  | nil => rfl
  | cons e t =>
    have he : isBlank e = false := h e rfl
    have hno : ¬ (unit '\r' = unit '\r' ∧ unit '\n' = unit '\n' ∧ isBlank e = true) := by
      simp [he]
    have hcons : crlf ++ e :: t = unit '\r' :: unit '\n' :: e :: t := rfl
    rw [hcons, unfold, if_neg hno, unfold_cons (by decide)]
    rfl

/-- The text stands for the line: it is unfolded to it wherever it stands. -/
structure Written (line text : Text) : Prop where
  noReturn : NoReturn line
  begins : Ends isBlank text
  unfolds : ∀ rest, unfold (text ++ rest) = line ++ unfold rest

theorem Written.self {line : Text} (h : NoReturn line) (hb : Ends isBlank line) :
    Written line line :=
  { noReturn := h, begins := hb, unfolds := unfold_append h }

theorem ends_blank_join (h : Ends isBlank s) (ts : List Text) : Ends isBlank (join (s :: ts)) := by
  cases ts with
  | nil => exact h
  | cons t ts =>
    cases s with
    | nil => exact ends_cons (by decide) _
    | cons c s => exact ends_cons (h c rfl) _

theorem unfold_join (h : List.Forall₂ Written lines texts) : unfold (join texts) = join lines := by
  induction h with
  | nil => rfl
  | @cons line text lines texts hline hlines ih =>
    cases hlines with
    | nil =>
      have hself := hline.unfolds []
      simpa [join, unfold] using hself
    | @cons line' text' lines texts hline' hlines =>
      rw [join_cons_cons, join_cons_cons, append_assoc, hline.unfolds,
        unfold_crlf (ends_blank_join hline'.begins texts), ih, append_assoc]

/-- Joined texts are read as the lines that they were written for. -/
theorem contentLines_join (h : List.Forall₂ Written lines texts) (hne : lines ≠ []) :
    contentLines (join texts) = lines := by
  rw [contentLines, unfold_join h, physicalLines_join hne]
  clear hne
  induction h with
  | nil => rfl
  | cons hline hlines ih =>
    rw [flatMap_cons, physicalLines_of_noReturn hline.noReturn, ih]
    rfl

/-! ## Folding -/

/-- The rest of a line, in pieces after a line break and a space each. -/
@[grind =] def foldRest (next : ℕ) : ℕ → Text → Text
  | 0, _ => []
  | fuel + 1, rest =>
    if 0 < rest.length then
      crlf ++ unit ' ' :: rest.take next ++ foldRest next fuel (rest.drop next)
    else []

/-- A line of at most `first` units is left alone; of a longer one, pieces of `next` units follow
the first. -/
def foldAt (first next : ℕ) (line : Text) : Text :=
  if line.length ≤ first then line
  else line.take first ++ foldRest next line.length (line.drop first)

variable {first next fuel : ℕ} {line rest : Text}

theorem unfold_foldRest (hnext : 0 < next) (hfuel : rest.length ≤ fuel) (h : NoReturn rest)
    (t : Text) : unfold (foldRest next fuel rest ++ t) = rest ++ unfold t := by
  induction fuel generalizing rest with
  | zero =>
    rw [length_eq_zero_iff.mp (Nat.le_zero.mp hfuel)]
    rfl
  | succ fuel ih =>
    rw [foldRest]
    split
    · have hsplit : NoReturn (rest.take next) ∧ NoReturn (rest.drop next) := by
        rw [← noReturn_append, take_append_drop]
        exact h
      have hlen : (rest.drop next).length ≤ fuel := by
        rw [length_drop]
        omega
      calc unfold (crlf ++ unit ' ' :: rest.take next ++ foldRest next fuel (rest.drop next) ++ t)
          = unfold (crlf ++ unit ' ' ::
              (rest.take next ++ (foldRest next fuel (rest.drop next) ++ t))) := by simp
        _ = rest.take next ++ (rest.drop next ++ unfold t) := by
            rw [unfold_fold, unfold_append hsplit.1, ih hlen hsplit.2]
        _ = rest ++ unfold t := by rw [← append_assoc, take_append_drop]
    · have hnil : rest = [] := length_eq_zero_iff.mp (by omega)
      subst hnil
      rfl

/-- A folded line is unfolded. -/
theorem Written.foldAt (hfirst : 0 < first) (hnext : 0 < next) (h : NoReturn line)
    (hb : Ends isBlank line) : Written line (foldAt first next line) := by
  unfold ContentLines.foldAt
  split
  · exact Written.self h hb
  · rename_i hlong
    have hsplit : NoReturn (line.take first) ∧ NoReturn (line.drop first) := by
      rw [← noReturn_append, take_append_drop]
      exact h
    refine { noReturn := h, begins := ?_, unfolds := ?_ }
    · cases line with
      | nil => simp at hlong
      | cons c line =>
        obtain ⟨k, rfl⟩ := Nat.exists_eq_succ_of_ne_zero hfirst.ne'
        exact ends_cons (hb c rfl) _
    · intro t
      rw [append_assoc, unfold_append hsplit.1,
        unfold_foldRest hnext (by rw [length_drop]; omega) hsplit.2, ← append_assoc,
        take_append_drop]

/-! ## Octets -/

/-- The octets of a unit that stands alone; a lone surrogate is replaced by U+FFFD. -/
@[grind =] def unitOctets (c : CodeUnit) : ℕ := if c.val < 0x80 then 1 else if c.val < 0x800 then 2 else 3

/-- The length of a text in UTF-8. -/
@[grind =] def octets : Text → ℕ
  | [] => 0
  | [c] => unitOctets c
  | c :: d :: t =>
    if isHigh c = true ∧ isLow d = true then 4 + octets t else unitOctets c + octets (d :: t)

theorem unitOctets_pos (c : CodeUnit) : 1 ≤ unitOctets c := by
  unfold unitOctets
  split <;> [omega; split <;> omega]

theorem unitOctets_eq_one_iff : unitOctets c = 1 ↔ c.val < 0x80 := by
  unfold unitOctets
  split <;> [omega; split <;> omega]

theorem length_le_octets (t : Text) : t.length ≤ octets t := by
  fun_induction octets t with
  | case1 => simp
  | case2 c => exact unitOctets_pos c
  | case3 c d t h ih =>
    simp only [length_cons]
    omega
  | case4 c d t h ih =>
    have := unitOctets_pos c
    simp only [length_cons] at ih ⊢
    omega

theorem not_ascii_of_isHigh (h : isHigh c = true) : ¬ c.val < 0x80 := by
  simp only [isHigh, decide_eq_true_eq] at h
  omega

theorem octets_cons_ascii (h : c.val < 0x80) (t : Text) : octets (c :: t) = 1 + octets t := by
  cases t with
  | nil => simp [octets, unitOctets_eq_one_iff.mpr h]
  | cons d t =>
    have hno : ¬ (isHigh c = true ∧ isLow d = true) :=
      fun hpair => not_ascii_of_isHigh hpair.1 h
    rw [octets, if_neg hno, unitOctets_eq_one_iff.mpr h]

/-- There are no more octets than units only in ASCII. -/
theorem octets_le_length_iff (t : Text) : octets t ≤ t.length ↔ Ascii t := by
  fun_induction octets t with
  | case1 => simp [Ascii]
  | case2 c =>
    have hone := unitOctets_pos c
    have hiff := unitOctets_eq_one_iff (c := c)
    simp only [length_singleton, Ascii, mem_singleton, forall_eq]
    omega
  | case3 c d t h ih =>
    have hlen := length_le_octets t
    have hno : ¬ Ascii (c :: d :: t) :=
      fun hascii => not_ascii_of_isHigh h.1 (hascii c mem_cons_self)
    simp only [length_cons, hno, iff_false, not_le]
    omega
  | case4 c d t h ih =>
    have hone := unitOctets_pos c
    have hiff := unitOctets_eq_one_iff (c := c)
    have hlen := length_le_octets (d :: t)
    have hcons : Ascii (c :: d :: t) ↔ c.val < 0x80 ∧ Ascii (d :: t) := forall_mem_cons
    rw [hcons, ← ih, length_cons]
    omega

/-- Every line of the text has at most `limit` octets. -/
@[grind =] def Fits (limit : ℕ) (text : Text) : Prop := ∀ l ∈ physicalLines text, octets l ≤ limit

instance (limit : ℕ) (text : Text) : Decidable (Fits limit text) :=
  List.decidableBAll (fun l => octets l ≤ limit) (physicalLines text)

theorem fits_join_iff (hne : texts ≠ []) : Fits limit (join texts) ↔ ∀ t ∈ texts, Fits limit t := by
  simp only [Fits, physicalLines_join hne, mem_flatMap]
  exact ⟨fun h t ht l hl => h l ⟨t, ht, hl⟩, fun h l ⟨t, ht, hl⟩ => h t ht l hl⟩

theorem fits_iff_of_noReturn {text : Text} (h : NoReturn text) :
    Fits limit text ↔ octets text ≤ limit := by
  simp [Fits, physicalLines_of_noReturn h]

/-- How many units stand before the last fold, in a rest of `n` units. -/
def lastFoldOfRest (next n : ℕ) : ℕ := next * ((n - 1) / next)

/-- How many units stand before the last fold of a line of `n` units. -/
def lastFold (first next n : ℕ) : ℕ :=
  if n ≤ first then 0 else first + lastFoldOfRest next (n - first)

/-- Everything before the last fold is ASCII, and the octets after it are as few as the units
that have room there. -/
def Short (first next : ℕ) (line : Text) : Prop :=
  Ascii (line.take (lastFold first next line.length)) ∧
    octets (line.drop (lastFold first next line.length)) ≤
      if line.length ≤ first then first else next

theorem ascii_append : Ascii (s ++ t) ↔ Ascii s ∧ Ascii t := forall_mem_append

/-- The lines of a text and of the pieces after it. -/
theorem fits_append_foldRest (hs : NoReturn s) (hrest : rest ≠ []) :
    Fits limit (s ++ foldRest next (fuel + 1) rest) ↔
      octets s ≤ limit ∧
        Fits limit (unit ' ' :: rest.take next ++ foldRest next fuel (rest.drop next)) := by
  have hpos : 0 < rest.length := length_pos_iff.mpr hrest
  have happ : s ++ foldRest next (fuel + 1) rest =
      s ++ crlf ++ (unit ' ' :: rest.take next ++ foldRest next fuel (rest.drop next)) := by
    rw [foldRest, if_pos hpos]
    simp
  rw [happ, Fits, physicalLines_append_crlf, physicalLines_of_noReturn hs, singleton_append,
    forall_mem_cons]
  rfl

/-- The pieces after the first. -/
theorem fits_foldRest_iff (hnext : 0 < next) (hfuel : rest.length ≤ fuel) (h : NoReturn rest) :
    Fits (next + 1) (unit ' ' :: rest.take next ++ foldRest next fuel (rest.drop next)) ↔
      Ascii (rest.take (lastFoldOfRest next rest.length)) ∧
        octets (rest.drop (lastFoldOfRest next rest.length)) ≤ next := by
  induction fuel generalizing rest with
  | zero =>
    rw [length_eq_zero_iff.mp (Nat.le_zero.mp hfuel)]
    simp [foldRest, Fits, physicalLines, lastFoldOfRest, Ascii, octets, unitOctets, unit,
      fromCharCode]
  | succ fuel ih =>
    have hspace : (unit ' ').val < 0x80 := by decide
    have hsplit : NoReturn (rest.take next) ∧ NoReturn (rest.drop next) := by
      rw [← noReturn_append, take_append_drop]
      exact h
    have hpiece : NoReturn (unit ' ' :: rest.take next) :=
      noReturn_cons.mpr ⟨by decide, hsplit.1⟩
    rcases Nat.lt_or_ge next rest.length with hlong | hshort
    · have hrest : rest.drop next ≠ [] := by
        rw [Ne, drop_eq_nil_iff]
        omega
      have hlen : (rest.drop next).length ≤ fuel := by
        rw [length_drop]
        omega
      have htake : (rest.take next).length = next := by
        rw [length_take]
        omega
      have hlast : lastFoldOfRest next rest.length =
          next + lastFoldOfRest next (rest.drop next).length := by
        have hdiv : (rest.length - 1) / next = (rest.length - next - 1) / next + 1 := by
          have hsub : rest.length - 1 = rest.length - next - 1 + next := by omega
          rw [hsub, Nat.add_div_right _ hnext]
        rw [lastFoldOfRest, lastFoldOfRest, length_drop, hdiv]
        ring
      have hoctets : octets (unit ' ' :: rest.take next) ≤ next + 1 ↔ Ascii (rest.take next) := by
        rw [octets_cons_ascii hspace, ← octets_le_length_iff, htake]
        omega
      rw [fits_append_foldRest hpiece hrest, ih hlen hsplit.2, hoctets, hlast, take_add,
        ascii_append, drop_drop, and_assoc]
    · have hdrop : rest.drop next = [] := drop_eq_nil_iff.mpr hshort
      have hlast : lastFoldOfRest next rest.length = 0 := by
        rw [lastFoldOfRest, Nat.div_eq_of_lt (by omega), Nat.mul_zero]
      have hnone : foldRest next (fuel + 1) (rest.drop next) = [] := by simp [hdrop, foldRest]
      rw [hnone, append_nil, fits_iff_of_noReturn hpiece, octets_cons_ascii hspace, hlast,
        take_of_length_le hshort]
      simp only [take_zero, drop_zero, Ascii, not_mem_nil, false_imp_iff,
        implies_true, true_and]
      omega

/-- The lines of a folded text have as few octets as units have room there exactly when the line
is short. -/
theorem foldAt_fits_iff (hnext : 0 < next) (h : NoReturn line) :
    Fits (next + 1) (foldAt (next + 1) next line) ↔ Short (next + 1) next line := by
  unfold foldAt Short lastFold
  by_cases hlen : line.length ≤ next + 1
  · simp only [if_pos hlen, take_zero, drop_zero]
    rw [fits_iff_of_noReturn h]
    simp [Ascii]
  · have hsplit : NoReturn (line.take (next + 1)) ∧ NoReturn (line.drop (next + 1)) := by
      rw [← noReturn_append, take_append_drop]
      exact h
    have hrest : line.drop (next + 1) ≠ [] := by
      rw [Ne, drop_eq_nil_iff]
      exact hlen
    have htake : (line.take (next + 1)).length = next + 1 := by
      rw [length_take]
      omega
    obtain ⟨fuel, hfuel⟩ : ∃ fuel, line.length = fuel + 1 := ⟨line.length - 1, by omega⟩
    have hdrop : (line.drop (next + 1)).length ≤ fuel := by
      rw [length_drop]
      omega
    have hascii : octets (line.take (next + 1)) ≤ next + 1 ↔ Ascii (line.take (next + 1)) := by
      rw [← octets_le_length_iff, htake]
    have hadd (k : ℕ) : line.take (next + 1 + k) =
        line.take (next + 1) ++ (line.drop (next + 1)).take k := take_add
    simp only [if_neg hlen]
    rw [hfuel, fits_append_foldRest hsplit.1 hrest, fits_foldRest_iff hnext hdrop hsplit.2, hascii,
      hadd, ascii_append, length_drop, hfuel, drop_drop, and_assoc]

end ContentLines
