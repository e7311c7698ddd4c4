import FestivalPlanner.Lib.Double
import FestivalPlanner.Lib.JsonText
import Mathlib.Data.Nat.Digits.Lemmas

/-!
# The texts of numbers

`Number::toString`, and the reading of a JSON number.

* `Decimal` — the digits that `Number::toString` chooses, the fewest that are rounded back;
* `Decimal.toText`, `readDecimal` — a decimal with its point or its exponent;
* `readDecimal_toText` — **a decimal is read back**;
* `numerals` — the numbers of JavaScript, for `JSON.stringify` and `JSON.parse`; `naturals`.
-/

namespace Double

open Utf16 List Option

/-! ## Decimals -/

/-- The decimal `digits · 10 ^ exponent`. -/
structure Decimal where
  digits : ℕ
  exponent : ℤ

@[grind =] def Decimal.value (d : Decimal) : ℚ := d.digits * 10 ^ d.exponent

/-- The two decimals of `k` digits around a positive number, the nearer one first. -/
def candidates (q : ℚ) (k : ℕ) : List Decimal :=
  let exponent := Int.log 10 q + 1 - k
  let scaled := q / 10 ^ exponent
  let below : Decimal := { digits := ⌊scaled⌋.toNat, exponent := exponent }
  let above : Decimal :=
    -- one more than `k` nines is the one digit 1
    if ⌊scaled⌋.toNat + 1 = 10 ^ k then { digits := 1, exponent := exponent + k }
    else { digits := ⌊scaled⌋.toNat + 1, exponent := exponent }
  if roundEven scaled = ⌊scaled⌋ then [below, above] else [above, below]

/-- All digits of a positive number. -/
def allDigits (q : ℚ) : Decimal := { digits := ⌊q * 10 ^ 1074⌋.toNat, exponent := -1074 }

/-- The fewest digits, from `k` on, that are rounded to `q`. -/
def shortestFrom (q : ℚ) : ℕ → ℕ → Decimal
  | 0, _ => allDigits q
  | fuel + 1, k =>
    match (candidates q k).find? (fun d => nearest d.value = q) with
    | some d => d
    | none => shortestFrom q fuel (k + 1)

/-- The digits of `Number::toString`; 17 are always enough. -/
def shortest (q : ℚ) : Decimal := shortestFrom q 17 1

/-! ## Their texts -/

/-- The digits of a number, none for `0`. -/
@[grind =] def digitsText (n : ℕ) : Text := (Nat.digits 10 n).reverse.map (fun d => fromCharCode (48 + d : ℕ))

/-- `Number::toString` of a decimal; `k` and `n` are those of its definition. -/
@[grind =] def Decimal.toText (d : Decimal) : Text :=
  let ds := digitsText d.digits
  let k : ℤ := ds.length
  let n := d.exponent + k
  if k ≤ n ∧ n ≤ 21 then ds ++ List.replicate (n - k).toNat (unit '0')
  else if 0 < n ∧ n ≤ 21 then ds.take n.toNat ++ unit '.' :: ds.drop n.toNat
  else if -6 < n ∧ n ≤ 0 then
    unit '0' :: unit '.' :: (List.replicate (-n).toNat (unit '0') ++ ds)
  else
    let sign := if n - 1 < 0 then unit '-' else unit '+'
    ds.take 1 ++ (if k = 1 then [] else unit '.' :: ds.drop 1) ++
      unit 'e' :: sign :: digitsText (n - 1).natAbs

/-- `Number::toString` -/
@[grind =] def Number.toText : Number → Text
  | .finite q _ =>
    if q = 0 then ofString "0"
    else if q < 0 then unit '-' :: (shortest (-q)).toText
    else (shortest q).toText
  | .infinite negative => ofString (if negative then "-Infinity" else "Infinity")
  | .nan => ofString "NaN"

/-! ## Reading -/

def isDigit (c : CodeUnit) : Bool := decide (48 ≤ c.val ∧ c.val ≤ 57)

/-- The number that some digits are. -/
@[grind =] def ofDigits (ds : Text) : ℕ := ds.foldl (fun n c => n * 10 + (c.val - 48)) 0

/-- The digits at the beginning of a text, one at least, and what comes after them. -/
@[grind =] def readDigits (t : Text) : Option (Text × Text) :=
  if t.takeWhile isDigit = [] then none else some (t.takeWhile isDigit, t.dropWhile isDigit)

/-- The part of a JSON number before its point: no digit comes after a first `0`. -/
@[grind =] def readInt (t : Text) : Option (Text × Text) :=
  (readDigits t).filter (fun p => p.1.head? ≠ some (unit '0') ∨ p.1.length = 1)

/-- The digits after the point, when there is one. -/
@[grind =] def readFraction : Text → Option (Text × Text)
  | [] => some ([], [])
  | c :: t => if c = unit '.' then readDigits t else some ([], c :: t)

/-- The exponent, when there is one. -/
def readExponent : Text → Option (ℤ × Text)
  | [] => some (0, [])
  | c :: t =>
    if c = unit 'e' ∨ c = unit 'E' then
      match t with
      | [] => none
      | sign :: rest =>
        if sign = unit '-' then (readDigits rest).map (fun p => (-(ofDigits p.1 : ℤ), p.2))
        else if sign = unit '+' then (readDigits rest).map (fun p => ((ofDigits p.1 : ℤ), p.2))
        else (readDigits (sign :: rest)).map (fun p => ((ofDigits p.1 : ℤ), p.2))
    else some (0, c :: t)

/-- A JSON number without a sign. -/
@[grind =] def readUnsigned (t : Text) : Option ℚ :=
  (readInt t).bind (fun int => (readFraction int.2).bind (fun frac =>
    (readExponent frac.2).bind (fun exp =>
      if exp.2 = [] then
        some (ofDigits (int.1 ++ frac.1) * 10 ^ (exp.1 - (frac.1.length : ℤ)))
      else none)))

/-- The value of a JSON number, before it is rounded. -/
def readDecimal : Text → Option ℚ
  | [] => none
  | c :: t => if c = unit '-' then (readUnsigned t).map (- ·) else readUnsigned (c :: t)

/-- The number that a JSON number is read as. -/
def readNumber (t : Text) : Option Number := (readDecimal t).map ofRat

/-! ## Digits -/

theorem digitsText_zero : digitsText 0 = [] := by
  simp [digitsText]

theorem digitsText_of_pos {n : ℕ} (h : n ≠ 0) :
    digitsText n = digitsText (n / 10) ++ [fromCharCode (48 + n % 10 : ℕ)] := by
  unfold digitsText
  rw [Nat.digits_def' (by omega) (Nat.pos_of_ne_zero h), reverse_cons, map_append]
  rfl

theorem digit_val : ∀ m < 10, (fromCharCode (48 + m : ℕ)).val = 48 + m := by
  decide

theorem isDigit_digitsText (n : ℕ) : ∀ c ∈ digitsText n, isDigit c = true := by
  intro c hc
  unfold digitsText at hc
  obtain ⟨m, hm, rfl⟩ := List.mem_map.mp hc
  have hlt : m < 10 := Nat.digits_lt_base (by omega) (mem_reverse.mp hm)
  simp only [isDigit, digit_val m hlt, decide_eq_true_eq]
  omega

theorem digitsText_ne_nil {n : ℕ} (h : n ≠ 0) : digitsText n ≠ [] := by
  rw [digitsText_of_pos h]
  simp

theorem head_digitsText (n : ℕ) : (digitsText n).head? ≠ some (unit '0') := by
  induction n using Nat.strong_induction_on with
  | _ n ih =>
    by_cases hzero : n = 0
    · simp [hzero, digitsText_zero]
    rw [digitsText_of_pos hzero]
    by_cases hsmall : n / 10 = 0
    · have hall : ∀ m < 10, m ≠ 0 → fromCharCode (48 + m : ℕ) ≠ unit '0' := by decide
      rw [hsmall, digitsText_zero, nil_append, head?_cons]
      intro heq
      exact hall (n % 10) (by omega) (by omega) (some.inj heq)
    · rw [head?_append_of_ne_nil _ (digitsText_ne_nil hsmall)]
      exact ih (n / 10) (by omega)

theorem foldl_ofDigits (ds : Text) (n : ℕ) :
    ds.foldl (fun n c => n * 10 + (c.val - 48)) n = n * 10 ^ ds.length + ofDigits ds := by
  unfold ofDigits
  induction ds generalizing n with
  | nil => simp
  | cons c ds ih =>
    rw [foldl_cons, foldl_cons, ih, ih (0 * 10 + (c.val - 48)), length_cons, pow_succ]
    ring

theorem ofDigits_append (ds es : Text) :
    ofDigits (ds ++ es) = ofDigits ds * 10 ^ es.length + ofDigits es := by
  rw [← foldl_ofDigits, ofDigits, ofDigits, List.foldl_append]

theorem ofDigits_zeros (m : ℕ) : ofDigits (List.replicate m (unit '0')) = 0 := by
  induction m with
  | zero => rfl
  | succ m ih =>
    have hdigit : ofDigits [unit '0'] = 0 := by decide
    rw [replicate_succ', ofDigits_append, ih, hdigit]
    simp

/-- The digits of a number are read as the number. -/
theorem ofDigits_digitsText (n : ℕ) : ofDigits (digitsText n) = n := by
  induction n using Nat.strong_induction_on with
  | _ n ih =>
    by_cases hzero : n = 0
    · subst hzero
      rw [digitsText_zero]
      rfl
    have hdigit : ofDigits [fromCharCode (48 + n % 10 : ℕ)] = n % 10 := by
      simp only [ofDigits, foldl_cons, foldl_nil, digit_val (n % 10) (by omega)]
      omega
    rw [digitsText_of_pos hzero, ofDigits_append, ih (n / 10) (by omega), hdigit]
    simp only [length_singleton, pow_one]
    omega

/-! ## A decimal is read back -/

variable {ds rest : Text}

theorem readDigits_append (hds : ∀ c ∈ ds, isDigit c = true) (hne : ds ≠ [])
    (hrest : Ends isDigit rest) : readDigits (ds ++ rest) = some (ds, rest) := by
  unfold readDigits
  rw [takeWhile_append_of_ends hds hrest, dropWhile_append_of_ends hds hrest, if_neg hne]

theorem readInt_append (hds : ∀ c ∈ ds, isDigit c = true) (hne : ds ≠ [])
    (hzero : ds.head? ≠ some (unit '0') ∨ ds.length = 1) (hrest : Ends isDigit rest) :
    readInt (ds ++ rest) = some (ds, rest) := by
  unfold readInt
  rw [readDigits_append hds hne hrest, filter_some, if_pos (by simpa using hzero)]

theorem readUnsigned_eq {t r : Text} {int frac : Text} {rest : Text} {exp : ℤ}
    (hint : readInt t = some (int, r)) (hfrac : readFraction r = some (frac, rest))
    (hexp : readExponent rest = some (exp, [])) :
    readUnsigned t = some ((ofDigits (int ++ frac) : ℚ) * 10 ^ (exp - (frac.length : ℤ))) := by
  simp [readUnsigned, hint, hfrac, hexp]

/-- The digits of a decimal; no `0` stands first. -/
structure Significant (ds : Text) : Prop where
  digit : ∀ c ∈ ds, isDigit c = true
  ne_nil : ds ≠ []
  head : ds.head? ≠ some (unit '0')

theorem significant_digitsText {n : ℕ} (h : n ≠ 0) : Significant (digitsText n) :=
  ⟨isDigit_digitsText n, digitsText_ne_nil h, head_digitsText n⟩

theorem isDigit_zeros (m : ℕ) : ∀ c ∈ List.replicate m (unit '0'), isDigit c = true := by
  intro c hc
  rw [eq_of_mem_replicate hc]
  decide

/-- No point: zeros come after the digits. -/
theorem readUnsigned_zeros (h : Significant ds) (m : ℕ) :
    readUnsigned (ds ++ List.replicate m (unit '0')) = some ((ofDigits ds : ℚ) * 10 ^ m) := by
  have hint : readInt ((ds ++ List.replicate m (unit '0')) ++ []) =
      some (ds ++ List.replicate m (unit '0'), []) := by
    apply readInt_append
    · intro c hc
      rcases mem_append.mp hc with hc | hc
      · exact h.digit c hc
      · exact isDigit_zeros m c hc
    · simp [h.ne_nil]
    · left
      rw [head?_append_of_ne_nil _ h.ne_nil]
      exact h.head
    · exact ends_nil
  rw [append_nil] at hint
  rw [readUnsigned_eq hint rfl rfl, append_nil, ofDigits_append, ofDigits_zeros]
  simp

/-- The point stands among the digits. -/
theorem readUnsigned_point (h : Significant ds) {n : ℕ} (hpos : 0 < n) (hlt : n < ds.length) :
    readUnsigned (ds.take n ++ unit '.' :: ds.drop n) =
      some ((ofDigits ds : ℚ) * 10 ^ ((n : ℤ) - ds.length)) := by
  have hint : readInt (ds.take n ++ unit '.' :: ds.drop n) =
      some (ds.take n, unit '.' :: ds.drop n) := by
    apply readInt_append (fun c hc => h.digit c (mem_of_mem_take hc))
    · simp [h.ne_nil, Nat.ne_of_gt hpos]
    · left
      rw [head?_take, if_neg (Nat.ne_of_gt hpos)]
      exact h.head
    · exact ends_cons (by decide) _
  have hfrac : readFraction (unit '.' :: ds.drop n) = some (ds.drop n, []) := by
    rw [readFraction, if_pos rfl, ← append_nil (ds.drop n), append_nil]
    have hdigits := readDigits_append (fun c hc => h.digit c (mem_of_mem_drop hc))
      (show ds.drop n ≠ [] by simpa using hlt) (ends_nil (p := isDigit))
    rwa [append_nil] at hdigits
  rw [readUnsigned_eq hint hfrac rfl, take_append_drop, length_drop,
    Nat.cast_sub hlt.le, zero_sub, neg_sub]

/-- The point stands before the digits, with zeros between. -/
theorem readUnsigned_small (h : Significant ds) (m : ℕ) :
    readUnsigned (unit '0' :: unit '.' :: (List.replicate m (unit '0') ++ ds)) =
      some ((ofDigits ds : ℚ) * 10 ^ (-(m : ℤ) - ds.length)) := by
  have hint : readInt (unit '0' :: unit '.' :: (List.replicate m (unit '0') ++ ds)) =
      some ([unit '0'], unit '.' :: (List.replicate m (unit '0') ++ ds)) :=
    @readInt_append [unit '0'] _ (isDigit_zeros 1) (by simp) (.inr rfl)
      (ends_cons (by decide) _)
  have hfrac : readFraction (unit '.' :: (List.replicate m (unit '0') ++ ds)) =
      some (List.replicate m (unit '0') ++ ds, []) := by
    have hdigits := @readDigits_append (List.replicate m (unit '0') ++ ds) []
      (fun c hc => (mem_append.mp hc).elim (isDigit_zeros m c) (h.digit c))
      (by simp [h.ne_nil]) ends_nil
    rw [append_nil] at hdigits
    rw [readFraction, if_pos rfl, hdigits]
  have hzero : ofDigits [unit '0'] = 0 := by decide
  rw [readUnsigned_eq hint hfrac rfl, ofDigits_append, ofDigits_append, ofDigits_zeros, hzero,
    length_append, length_replicate, zero_mul, zero_mul, zero_add, zero_add, zero_sub,
    Nat.cast_add, neg_add']

/-- One digit before the point, and an exponent. -/
theorem readUnsigned_exponent (h : Significant ds) {exp : ℤ} (hexp : exp ≠ 0) :
    readUnsigned (ds.take 1 ++ (if (ds.length : ℤ) = 1 then [] else unit '.' :: ds.drop 1) ++
        unit 'e' :: (if exp < 0 then unit '-' else unit '+') :: digitsText exp.natAbs) =
      some ((ofDigits ds : ℚ) * 10 ^ (exp + 1 - ds.length)) := by
  have hdigits : readDigits (digitsText exp.natAbs) = some (digitsText exp.natAbs, []) := by
    have hread := @readDigits_append _ [] (isDigit_digitsText exp.natAbs)
      (digitsText_ne_nil (by omega)) ends_nil
    rwa [append_nil] at hread
  have hexponent : readExponent (unit 'e' :: (if exp < 0 then unit '-' else unit '+') ::
      digitsText exp.natAbs) = some (exp, []) := by
    rw [readExponent, if_pos (.inl rfl)]
    by_cases hneg : exp < 0
    · simp only [if_pos hneg, if_true, hdigits, map_some, ofDigits_digitsText]
      congr 2
      omega
    · simp only [if_neg hneg, if_neg (show unit '+' ≠ unit '-' by decide), if_true, hdigits,
        map_some, ofDigits_digitsText]
      congr 2
      omega
  have hsign : isDigit (unit 'e') = false := by decide
  have htake : ∀ c ∈ ds.take 1, isDigit c = true := fun c hc => h.digit c (mem_of_mem_take hc)
  have hone : (ds.take 1).length = 1 := by
    rw [length_take]
    have := length_pos_of_ne_nil h.ne_nil
    omega
  have hne : ds.take 1 ≠ [] := ne_nil_of_length_eq_add_one hone
  set tail := unit 'e' :: (if exp < 0 then unit '-' else unit '+') :: digitsText exp.natAbs
  rw [append_assoc]
  by_cases hlength : (ds.length : ℤ) = 1
  · have hint : readInt (ds.take 1 ++ ([] ++ tail)) = some (ds.take 1, tail) :=
      readInt_append htake hne (.inr hone) (ends_cons hsign _)
    have hfrac : readFraction tail = some ([], tail) := by
      rw [readFraction, if_neg (by decide)]
    rw [if_pos hlength, readUnsigned_eq hint hfrac hexponent, append_nil,
      take_of_length_le (by omega), hlength]
    simp
  · have hint : readInt (ds.take 1 ++ ((unit '.' :: ds.drop 1) ++ tail)) =
        some (ds.take 1, (unit '.' :: ds.drop 1) ++ tail) :=
      readInt_append htake hne (.inr hone) (ends_cons (by decide) _)
    have hfrac : readFraction ((unit '.' :: ds.drop 1) ++ tail) = some (ds.drop 1, tail) := by
      rw [cons_append, readFraction, if_pos rfl]
      apply readDigits_append (fun c hc => h.digit c (mem_of_mem_drop hc))
      · have := length_pos_of_ne_nil h.ne_nil
        rw [Ne, drop_eq_nil_iff]
        omega
      · exact ends_cons hsign _
    rw [if_neg hlength, readUnsigned_eq hint hfrac hexponent, take_append_drop,
      length_drop, Nat.cast_sub (length_pos_of_ne_nil h.ne_nil), Nat.cast_one,
      sub_sub_eq_add_sub]

/-- **A decimal is read back.** -/
theorem readUnsigned_toText {d : Decimal} (h : d.digits ≠ 0) :
    readUnsigned d.toText = some d.value := by
  have hds := significant_digitsText h
  have hvalue : ∀ e : ℤ, e = d.exponent →
      (ofDigits (digitsText d.digits) : ℚ) * 10 ^ e = d.value := by
    rintro e rfl
    rw [ofDigits_digitsText, Decimal.value]
  unfold Decimal.toText
  simp only
  set ds := digitsText d.digits
  by_cases hzeros : (ds.length : ℤ) ≤ d.exponent + ds.length ∧ d.exponent + ds.length ≤ 21
  · rw [if_pos hzeros, readUnsigned_zeros hds, ← zpow_natCast, hvalue _ (by omega)]
  by_cases hpoint : 0 < d.exponent + ds.length ∧ d.exponent + ds.length ≤ 21
  · rw [if_neg hzeros, if_pos hpoint, readUnsigned_point hds (by omega) (by omega),
      hvalue _ (by omega)]
  by_cases hsmall : -6 < d.exponent + ds.length ∧ d.exponent + ds.length ≤ 0
  · rw [if_neg hzeros, if_neg hpoint, if_pos hsmall, readUnsigned_small hds, hvalue _ (by omega)]
  · rw [if_neg hzeros, if_neg hpoint, if_neg hsmall, readUnsigned_exponent hds (by omega),
      hvalue _ (by omega)]

/-! ## The digits of a number are rounded back to it -/

variable {q : ℚ}

/-- A binary fraction is a decimal one. -/
theorem exists_int_mul_ten_pow (m : ℤ) {e : ℤ} {k : ℕ} (he : -k ≤ e) :
    ∃ z : ℤ, (m : ℚ) * 2 ^ e * 10 ^ k = z := by
  refine ⟨m * 2 ^ (e + k).toNat * 5 ^ k, ?_⟩
  have hpow : (2 : ℚ) ^ e * 2 ^ k = 2 ^ (e + k).toNat := by
    rw [← zpow_natCast 2 (e + k).toNat, Int.toNat_of_nonneg (by omega), zpow_add₀ (by norm_num),
      zpow_natCast]
  push_cast
  rw [← hpow, show (10 : ℚ) = 2 * 5 by norm_num, mul_pow]
  ring

theorem value_allDigits (h : Representable q) (hpos : 0 < q) : (allDigits q).value = q := by
  obtain ⟨-, m, e, -, he, rfl⟩ := h
  obtain ⟨z, hz⟩ := exists_int_mul_ten_pow m (k := 1074) he
  have hnonneg : 0 ≤ z := by
    have hq : (0 : ℚ) ≤ z := hz ▸ by positivity
    exact_mod_cast hq
  unfold Decimal.value allDigits
  simp only [hz, Int.floor_intCast]
  have hcast : ((z.toNat : ℕ) : ℚ) = z := by
    rw [← Int.cast_natCast, Int.toNat_of_nonneg hnonneg]
  rw [hcast, ← hz, zpow_neg, show ((10 : ℚ) ^ (1074 : ℤ)) = 10 ^ (1074 : ℕ) from zpow_natCast 10 1074]
  exact mul_inv_cancel_right₀ (pow_ne_zero 1074 (by norm_num)) _

theorem nearest_shortestFrom (h : Representable q) (hpos : 0 < q) (fuel k : ℕ) :
    nearest (shortestFrom q fuel k).value = q := by
  induction fuel generalizing k with
  | zero => rw [shortestFrom, value_allDigits h hpos, nearest_eq_self h]
  | succ fuel ih =>
    rw [shortestFrom]
    split
    · rename_i d hfind
      simpa using find?_some hfind
    · exact ih (k + 1)

/-- The digits of a number are rounded to it. -/
theorem nearest_shortest (h : Representable q) (hpos : 0 < q) :
    nearest (shortest q).value = q :=
  nearest_shortestFrom h hpos 17 1

theorem digits_shortest (h : Representable q) (hpos : 0 < q) : (shortest q).digits ≠ 0 := by
  intro hzero
  have hnearest := nearest_shortest h hpos
  rw [Decimal.value, hzero] at hnearest
  simp [nearest, roundEven] at hnearest
  exact hpos.ne hnearest

theorem readUnsigned_minus (t : Text) : readUnsigned (unit '-' :: t) = none := by
  have hminus : isDigit (unit '-') = false := by decide
  simp [readUnsigned, readInt, readDigits, hminus]

/-- A number without a sign is read as itself. -/
theorem readDecimal_of_readUnsigned {t : Text} (h : readUnsigned t = some q) :
    readDecimal t = some q := by
  cases t with
  | nil => simp [readUnsigned, readInt, readDigits] at h
  | cons c t =>
    have hc : c ≠ unit '-' := by
      rintro rfl
      rw [readUnsigned_minus] at h
      cases h
    rw [readDecimal, if_neg hc, h]

theorem readUnsigned_zero : readUnsigned (ofString "0") = some 0 := by
  have hint : readInt (ofString "0") = some ([unit '0'], []) := by decide
  have hdigits : ofDigits ([unit '0'] ++ []) = 0 := by decide
  rw [readUnsigned_eq hint rfl rfl, hdigits, Nat.cast_zero, zero_mul]

/-- `Number::toString` is read back. -/
theorem readDecimal_toText (h : Representable q) :
    ∃ r, readDecimal (Number.finite q h).toText = some r ∧ nearest r = q := by
  rcases lt_trichotomy q 0 with hneg | rfl | hpos
  · have hminus : 0 < -q := by linarith
    refine ⟨-(shortest (-q)).value, ?_, ?_⟩
    · rw [Number.toText, if_neg hneg.ne, if_pos hneg, readDecimal, if_pos rfl,
        readUnsigned_toText (digits_shortest h.neg hminus), map_some]
    · rw [nearest_neg, nearest_shortest h.neg hminus, neg_neg]
  · refine ⟨0, ?_, by simp [nearest, roundEven]⟩
    rw [Number.toText, if_pos rfl, readDecimal_of_readUnsigned readUnsigned_zero]
  · refine ⟨(shortest q).value, ?_, nearest_shortest h hpos⟩
    rw [Number.toText, if_neg hpos.ne', if_neg (by linarith),
      readDecimal_of_readUnsigned (readUnsigned_toText (digits_shortest h hpos))]

/-! ## The numbers of JSON -/

theorem isNumeral_of_isDigit {c : CodeUnit} (h : isDigit c = true) :
    JsonText.isNumeral c = true := by
  have hall : ∀ m < 10, JsonText.isNumeral (fromCharCode (48 + m : ℕ)) = true := by
    decide
  simp only [isDigit, decide_eq_true_eq] at h
  have hc : fromCharCode (48 + (c.val - 48) : ℕ) = c := fromCharCode_eq (by omega)
  rw [← hc]
  exact hall (c.val - 48) (by omega)

/-- A decimal is written with the characters of a JSON number. -/
theorem isNumeral_toText (d : Decimal) : ∀ c ∈ d.toText, JsonText.isNumeral c = true := by
  have hdigits : ∀ n : ℕ, ∀ c ∈ digitsText n, JsonText.isNumeral c = true :=
    fun n c hc => isNumeral_of_isDigit (isDigit_digitsText n c hc)
  have hzeros : ∀ m : ℕ, ∀ c ∈ List.replicate m (unit '0'), JsonText.isNumeral c = true :=
    fun m c hc => isNumeral_of_isDigit (isDigit_zeros m c hc)
  have hpoint : JsonText.isNumeral (unit '.') = true := by decide
  have hletter : JsonText.isNumeral (unit 'e') = true := by decide
  have hsign : ∀ negative : Prop, ∀ _ : Decidable negative,
      JsonText.isNumeral (if negative then unit '-' else unit '+') = true := by
    intro negative _
    split_ifs <;> decide
  have hds := hdigits d.digits
  unfold Decimal.toText
  simp only
  set ds := digitsText d.digits
  have htake : ∀ n : ℕ, ∀ c ∈ ds.take n, JsonText.isNumeral c = true :=
    fun n c hc => hds c (mem_of_mem_take hc)
  have hdrop : ∀ n : ℕ, ∀ c ∈ ds.drop n, JsonText.isNumeral c = true :=
    fun n c hc => hds c (mem_of_mem_drop hc)
  split
  · exact forall_mem_append.mpr ⟨hds, hzeros _⟩
  split
  · exact forall_mem_append.mpr ⟨htake _, forall_mem_cons.mpr ⟨hpoint, hdrop _⟩⟩
  split
  · exact forall_mem_cons.mpr ⟨isNumeral_of_isDigit (by decide),
      forall_mem_cons.mpr ⟨hpoint, forall_mem_append.mpr ⟨hzeros _, hds⟩⟩⟩
  · refine forall_mem_append.mpr ⟨forall_mem_append.mpr ⟨htake 1, ?_⟩,
      forall_mem_cons.mpr ⟨hletter, forall_mem_cons.mpr ⟨hsign _ _, hdigits _⟩⟩⟩
    split
    · simp
    · exact forall_mem_cons.mpr ⟨hpoint, hdrop 1⟩

/-- The numbers of JavaScript as JSON has them. -/
def numerals : JsonText.Numerals Number where
  value := Number.value
  toText := Number.toText
  read := readNumber
  toText_ne_nil := by
    rintro (⟨q, h⟩ | negative | _) hx
    · intro hnil
      obtain ⟨r, hread, -⟩ := readDecimal_toText h
      rw [hnil] at hread
      cases hread
    · cases hx
    · cases hx
  toText_numeral := by
    rintro (⟨q, h⟩ | negative | _) hx c hc
    · have hzero : (ofString "0").all JsonText.isNumeral = true := by decide
      rw [Number.toText] at hc
      split_ifs at hc
      · exact List.all_eq_true.mp hzero c hc
      · rcases mem_cons.mp hc with rfl | hc
        · decide
        · exact isNumeral_toText _ c hc
      · exact isNumeral_toText _ c hc
    · cases hx
    · cases hx
  read_toText := by
    rintro (⟨q, h⟩ | negative | _) hx
    · obtain ⟨r, hread, hnearest⟩ := readDecimal_toText h
      have hr : ofRat r = .finite q h := by
        subst hnearest
        unfold ofRat
        rw [dif_pos h.1]
      simp only [readNumber, hread, map_some, hr]
    · cases hx
    · cases hx

/-- `Number::toString` of a natural number. -/
@[grind =] def naturalText (n : ℕ) : Text := if n = 0 then [unit '0'] else digitsText n

/-- The natural number that some digits are. -/
def readNatural (t : Text) : Option ℕ :=
  (readDigits t).bind (fun p => if p.2 = [] then some (ofDigits p.1) else none)

theorem naturalText_ne_nil (n : ℕ) : naturalText n ≠ [] := by
  unfold naturalText
  split_ifs with h
  · simp
  · exact digitsText_ne_nil h

theorem isDigit_naturalText (n : ℕ) : ∀ c ∈ naturalText n, isDigit c = true := by
  intro c hc
  unfold naturalText at hc
  split_ifs at hc
  · exact isDigit_zeros 1 c hc
  · exact isDigit_digitsText n c hc

theorem ofDigits_naturalText (n : ℕ) : ofDigits (naturalText n) = n := by
  unfold naturalText
  split_ifs with h
  · rw [h]
    exact ofDigits_zeros 1
  · exact ofDigits_digitsText n

theorem readNatural_naturalText (n : ℕ) : readNatural (naturalText n) = some n := by
  have hread := readDigits_append (isDigit_naturalText n) (naturalText_ne_nil n) ends_nil
  rw [append_nil] at hread
  rw [readNatural, hread, bind_some, if_pos rfl, ofDigits_naturalText]

theorem isNumeral_naturalText (n : ℕ) : ∀ c ∈ naturalText n, JsonText.isNumeral c = true :=
  fun c hc => isNumeral_of_isDigit (isDigit_naturalText n c hc)

/-- The natural numbers as JSON has them. -/
def naturals : JsonText.Numerals ℕ where
  value n := some (n : ℚ)
  toText := naturalText
  read := readNatural
  toText_ne_nil {n} _ := naturalText_ne_nil n
  toText_numeral {n} _ := isNumeral_naturalText n
  read_toText {n} _ := readNatural_naturalText n

end Double
