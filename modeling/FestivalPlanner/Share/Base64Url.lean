import FestivalPlanner.Lib.Utf16
import Mathlib.Data.Nat.Bitwise
import Mathlib.Tactic.IntervalCases

/-!
# The base64url codec of a shared plan

The hand-written codec of `planSnapshot.ts`: the text to UTF-8, the bytes to base64url, and
back. The numbers of the bit operations are as in the source; the `buffer` of the decoder is
an `int32` there, and is kept here as its 32 bits.

* `utf8Decode_utf8Encode` — a well-formed text comes back from its bytes;
* `fromBase64Url_toBase64Url` — and from its base64url text;
* `length_toBase64Url` — the length of that text.
-/

namespace FestivalPlanner.Share

open Utf16 List Option

/-! ## UTF-8 -/

/-- `utf8Encode` -/
@[grind =] def utf8Encode : Text → List ℕ
  | [] => []
  | c :: rest =>
    let code := c.val
    if code < 0x80 then code :: utf8Encode rest
    else if code < 0x800 then
      (0xc0 ||| (code >>> 6)) :: (0x80 ||| (code &&& 0x3f)) :: utf8Encode rest
    else
      let threeBytes := [0xe0 ||| (code >>> 12), 0x80 ||| ((code >>> 6) &&& 0x3f),
        0x80 ||| (code &&& 0x3f)]
      if 0xd800 ≤ code ∧ code ≤ 0xdbff then
        match rest with
        -- a high surrogate is combined with the unit after it, whatever that is
        | next :: rest =>
          let code := 0x10000 + ((code &&& 0x3ff) <<< 10) + (next.val &&& 0x3ff)
          [0xf0 ||| (code >>> 18), 0x80 ||| ((code >>> 12) &&& 0x3f),
            0x80 ||| ((code >>> 6) &&& 0x3f), 0x80 ||| (code &&& 0x3f)] ++ utf8Encode rest
        | [] => threeBytes
      else threeBytes ++ utf8Encode rest

/-- Is the byte one of `10xxxxxx`? -/
def isContinuation (b : ℕ) : Bool := b &&& 0xc0 == 0x80

/-- `utf8Decode`; `none` is a throw. A byte past the end reads as `0`, which is no
continuation byte. -/
def utf8Decode : List ℕ → Option Text
  | [] => some []
  | b0 :: rest =>
    if b0 < 0x80 then (utf8Decode rest).map (fromCharCode b0 :: ·)
    else if 0xc0 ≤ b0 ∧ b0 < 0xe0 then
      match rest with
      | b1 :: rest =>
        if isContinuation b1 then
          (utf8Decode rest).map
            (fromCharCode (((b0 &&& 0x1f) <<< 6 ||| (b1 &&& 0x3f) : ℕ) : ℤ) :: ·)
        else none
      | _ => none
    else if 0xe0 ≤ b0 ∧ b0 < 0xf0 then
      match rest with
      | b1 :: b2 :: rest =>
        if isContinuation b1 && isContinuation b2 then
          (utf8Decode rest).map (fromCharCode
            (((b0 &&& 0x0f) <<< 12 ||| (b1 &&& 0x3f) <<< 6 ||| (b2 &&& 0x3f) : ℕ) : ℤ) :: ·)
        else none
      | _ => none
    else if 0xf0 ≤ b0 then
      match rest with
      | b1 :: b2 :: b3 :: rest =>
        if isContinuation b1 && isContinuation b2 && isContinuation b3 then
          let cp := (b0 &&& 0x07) <<< 18 ||| (b1 &&& 0x3f) <<< 12 ||| (b2 &&& 0x3f) <<< 6 |||
            (b3 &&& 0x3f)
          let off := (cp : ℤ) - 0x10000
          -- `off >> 10` and `off & 0x3ff` of an `int32`, which may be negative
          (utf8Decode rest).map (fun out =>
            fromCharCode (0xd800 + off / 0x400) :: fromCharCode (0xdc00 + off % 0x400) :: out)
        else none
      | _ => none
    else none

/-! ### The bits as arithmetic -/

theorem and_1f (n : ℕ) : n &&& 0x1f = n % 32 := Nat.and_two_pow_sub_one_eq_mod n 5

theorem and_0f (n : ℕ) : n &&& 0x0f = n % 16 := Nat.and_two_pow_sub_one_eq_mod n 4

theorem and_07 (n : ℕ) : n &&& 0x07 = n % 8 := Nat.and_two_pow_sub_one_eq_mod n 3

theorem and_03 (n : ℕ) : n &&& 0x03 = n % 4 := Nat.and_two_pow_sub_one_eq_mod n 2

theorem and_3f (n : ℕ) : n &&& 0x3f = n % 64 := Nat.and_two_pow_sub_one_eq_mod n 6

theorem and_ff (n : ℕ) : n &&& 0xff = n % 256 := Nat.and_two_pow_sub_one_eq_mod n 8

theorem and_3ff (n : ℕ) : n &&& 0x3ff = n % 1024 := Nat.and_two_pow_sub_one_eq_mod n 10

variable {b c n i m : ℕ} {h l : CodeUnit} {s t : Text} {more : List ℕ}

/-- Bits put below a multiple of `2 ^ k` are added. -/
theorem or_eq_add {a : ℕ} (k m : ℕ) (ha : a = 2 ^ k * m) (hb : b < 2 ^ k) : a ||| b = a + b := by
  rw [ha, Nat.two_pow_add_eq_or_of_lt hb]

/-- Six bits put below `a`. -/
theorem or_six (a : ℕ) (hb : b < 64) : a <<< 6 ||| b = a * 64 + b := by
  rw [← Nat.shiftLeft_add_eq_or_of_lt (show b < 2 ^ 6 from hb), Nat.shiftLeft_eq]

theorem or_six_six (a : ℕ) (hb : b < 64) (hc : c < 64) :
    a <<< 12 ||| b <<< 6 ||| c = (a * 64 + b) * 64 + c := by
  rw [show a <<< 12 = (a <<< 6) <<< 6 from Nat.shiftLeft_add a 6 6, ← Nat.shiftLeft_or_distrib,
    or_six a hb, or_six _ hc]

theorem or_six_six_six (a : ℕ) {d : ℕ} (hb : b < 64) (hc : c < 64) (hd : d < 64) :
    a <<< 18 ||| b <<< 12 ||| c <<< 6 ||| d = ((a * 64 + b) * 64 + c) * 64 + d := by
  rw [show a <<< 18 = (a <<< 12) <<< 6 from Nat.shiftLeft_add a 12 6,
    show b <<< 12 = (b <<< 6) <<< 6 from Nat.shiftLeft_add b 6 6, ← Nat.shiftLeft_or_distrib,
    ← Nat.shiftLeft_or_distrib, or_six_six a hb hc, or_six _ hd]

theorem two_lead (h : n < 32) : 0xc0 ||| n = 0xc0 + n := or_eq_add 5 6 rfl h

theorem three_lead (h : n < 16) : 0xe0 ||| n = 0xe0 + n := or_eq_add 4 14 rfl h

theorem four_lead (h : n < 8) : 0xf0 ||| n = 0xf0 + n := or_eq_add 3 30 rfl h

theorem continuation (n : ℕ) : 0x80 ||| (n &&& 0x3f) = 0x80 + n % 64 := by
  rw [and_3f]
  exact or_eq_add 6 2 rfl (Nat.mod_lt n (by omega))

theorem isContinuation_add (n : ℕ) : isContinuation (0x80 + n % 64) = true := by
  have hall : ∀ m < 64, isContinuation (0x80 + m) = true := by decide
  exact hall (n % 64) (Nat.mod_lt n (by omega))

/-! ### What is written for a unit and for a pair -/

/-- The bytes of a unit that is no half of a pair. -/
@[grind =] def bytesOfUnit (c : ℕ) : List ℕ :=
  if c < 0x80 then [c]
  else if c < 0x800 then [0xc0 + c / 64, 0x80 + c % 64]
  else [0xe0 + c / 4096, 0x80 + c / 64 % 64, 0x80 + c % 64]

/-- The bytes of the code point of a pair. -/
@[grind =] def bytesOfPair (p : ℕ) : List ℕ :=
  [0xf0 + p / 262144, 0x80 + p / 4096 % 64, 0x80 + p / 64 % 64, 0x80 + p % 64]

/-- The code point of a pair. -/
@[grind =] def codePoint (h l : CodeUnit) : ℕ := 0x10000 + h.val % 1024 * 1024 + l.val % 1024

theorem codePoint_lt (h l : CodeUnit) : codePoint h l < 0x110000 := by
  unfold codePoint
  omega

theorem utf8Encode_unit {c : CodeUnit} (h : isSurrogate c = false) (t : Text) :
    utf8Encode (c :: t) = bytesOfUnit c.val ++ utf8Encode t := by
  have hlt := c.isLt
  have hhigh : ¬ (0xd800 ≤ c.val ∧ c.val ≤ 0xdbff) := by
    simp only [isSurrogate, isHigh, Bool.or_eq_false_iff, decide_eq_false_iff_not] at h
    exact h.1
  rw [utf8Encode]
  simp only [continuation, Nat.shiftRight_eq_div_pow, bytesOfUnit, if_neg hhigh]
  by_cases h1 : c.val < 0x80
  · simp [h1]
  by_cases h2 : c.val < 0x800
  · simp [h1, h2, two_lead (n := c.val / 64) (by omega)]
  · simp [h1, h2, three_lead (n := c.val / 4096) (by omega)]

theorem utf8Encode_pair (hh : isHigh h = true) (t : Text) :
    utf8Encode (h :: l :: t) = bytesOfPair (codePoint h l) ++ utf8Encode t := by
  have hhigh : 0xd800 ≤ h.val ∧ h.val ≤ 0xdbff := by
    simpa only [isHigh, decide_eq_true_eq] using hh
  have hcode : 0x10000 + ((h.val &&& 0x3ff) <<< 10) + (l.val &&& 0x3ff) = codePoint h l := by
    rw [and_3ff, and_3ff, Nat.shiftLeft_eq, codePoint]
  have hlt := codePoint_lt h l
  rw [utf8Encode]
  simp only [if_neg (show ¬ h.val < 0x80 by omega), if_neg (show ¬ h.val < 0x800 by omega),
    if_pos hhigh, hcode, continuation, Nat.shiftRight_eq_div_pow, bytesOfPair]
  simp [four_lead (n := codePoint h l / 262144) (by omega)]

/-- A well-formed text is written apart from what follows it. -/
theorem utf8Encode_append (hs : WellFormed s) (t : Text) :
    utf8Encode (s ++ t) = utf8Encode s ++ utf8Encode t := by
  induction hs with
  | nil => rfl
  | unit hc _ ih =>
    rw [cons_append, utf8Encode_unit hc, utf8Encode_unit hc, ih, append_assoc]
  | pair hh _ _ ih =>
    rw [cons_append, cons_append, utf8Encode_pair hh, utf8Encode_pair hh, ih,
      append_assoc]

/-! ### How many bytes it takes -/

theorem length_utf8Encode_append (hs : WellFormed s) (t : Text) :
    (utf8Encode (s ++ t)).length = (utf8Encode s).length + (utf8Encode t).length := by
  rw [utf8Encode_append hs, length_append]

theorem length_utf8Encode_cons {c : CodeUnit} (hc : c.val < 0x80) (t : Text) :
    (utf8Encode (c :: t)).length = 1 + (utf8Encode t).length := by
  rw [utf8Encode_unit (isSurrogate_of_ascii hc), bytesOfUnit, if_pos hc, length_append,
    length_singleton]

theorem length_utf8Encode_ascii (h : Ascii t) : (utf8Encode t).length = t.length := by
  induction t with
  | nil => rfl
  | cons c t ih =>
    rw [length_utf8Encode_cons (h c mem_cons_self),
      ih (fun d hd => h d (mem_cons_of_mem c hd)), length_cons, Nat.add_comm]

/-! ### Reading it back -/

theorem utf8Decode_unit (c : CodeUnit) (bytes : List ℕ) :
    utf8Decode (bytesOfUnit c.val ++ bytes) = (utf8Decode bytes).map (c :: ·) := by
  have hlt := c.isLt
  unfold bytesOfUnit
  by_cases h1 : c.val < 0x80
  · rw [if_pos h1, singleton_append, utf8Decode.eq_def]
    simp only [if_pos h1, fromCharCode_val]
  by_cases h2 : c.val < 0x800
  · have hunit : ((0xc0 + c.val / 64) &&& 0x1f) <<< 6 ||| ((0x80 + c.val % 64) &&& 0x3f) =
        c.val := by
      rw [and_1f, and_3f, or_six _ (by omega)]
      omega
    rw [if_neg h1, if_pos h2, cons_append, singleton_append, utf8Decode.eq_def]
    simp only [if_neg (show ¬ 0xc0 + c.val / 64 < 0x80 by omega),
      if_pos (show 0xc0 ≤ 0xc0 + c.val / 64 ∧ 0xc0 + c.val / 64 < 0xe0 by omega),
      isContinuation_add, if_true, hunit, fromCharCode_val]
  · have hunit : ((0xe0 + c.val / 4096) &&& 0x0f) <<< 12 |||
        ((0x80 + c.val / 64 % 64) &&& 0x3f) <<< 6 ||| ((0x80 + c.val % 64) &&& 0x3f) = c.val := by
      rw [and_0f, and_3f, and_3f, or_six_six _ (by omega) (by omega)]
      omega
    rw [if_neg h1, if_neg h2, cons_append, cons_append, singleton_append,
      utf8Decode.eq_def]
    simp only [if_neg (show ¬ 0xe0 + c.val / 4096 < 0x80 by omega),
      if_neg (show ¬ (0xc0 ≤ 0xe0 + c.val / 4096 ∧ 0xe0 + c.val / 4096 < 0xe0) by omega),
      if_pos (show 0xe0 ≤ 0xe0 + c.val / 4096 ∧ 0xe0 + c.val / 4096 < 0xf0 by omega),
      isContinuation_add, Bool.and_true, if_true, hunit, fromCharCode_val]

theorem utf8Decode_pair (hh : isHigh h = true) (hl : isLow l = true) (bytes : List ℕ) :
    utf8Decode (bytesOfPair (codePoint h l) ++ bytes) =
      (utf8Decode bytes).map (fun out => h :: l :: out) := by
  simp only [isHigh, isLow, decide_eq_true_eq] at hh hl
  have hlt := codePoint_lt h l
  have hhigh : fromCharCode (0xd800 + ((codePoint h l : ℤ) - 0x10000) / 0x400) = h := by
    apply fromCharCode_eq
    unfold codePoint
    omega
  have hlow : fromCharCode (0xdc00 + ((codePoint h l : ℤ) - 0x10000) % 0x400) = l := by
    apply fromCharCode_eq
    unfold codePoint
    omega
  generalize codePoint h l = p at hlt hhigh hlow ⊢
  have hcp : ((0xf0 + p / 262144) &&& 0x07) <<< 18 ||| ((0x80 + p / 4096 % 64) &&& 0x3f) <<< 12 |||
      ((0x80 + p / 64 % 64) &&& 0x3f) <<< 6 ||| ((0x80 + p % 64) &&& 0x3f) = p := by
    rw [and_07, and_3f, and_3f, and_3f, or_six_six_six _ (by omega) (by omega) (by omega)]
    omega
  unfold bytesOfPair
  rw [cons_append, cons_append, cons_append, singleton_append,
    utf8Decode.eq_def]
  simp only [if_neg (show ¬ 0xf0 + p / 262144 < 0x80 by omega),
    if_neg (show ¬ (0xc0 ≤ 0xf0 + p / 262144 ∧ 0xf0 + p / 262144 < 0xe0) by omega),
    if_neg (show ¬ (0xe0 ≤ 0xf0 + p / 262144 ∧ 0xf0 + p / 262144 < 0xf0) by omega),
    if_pos (show 0xf0 ≤ 0xf0 + p / 262144 by omega), isContinuation_add, Bool.and_true, if_true,
    hcp, hhigh, hlow]

/-- **A well-formed text comes back from its bytes.** -/
theorem utf8Decode_utf8Encode (h : WellFormed t) : utf8Decode (utf8Encode t) = some t := by
  induction h with
  | nil => rfl
  | unit hc _ ih => rw [utf8Encode_unit hc, utf8Decode_unit, ih, map_some]
  | pair hh hl _ ih => rw [utf8Encode_pair hh, utf8Decode_pair hh hl, ih, map_some]

/-- The bytes are bytes. -/
theorem utf8Encode_lt (h : WellFormed t) : ∀ b ∈ utf8Encode t, b < 256 := by
  induction h with
  | nil => simp [utf8Encode]
  | @unit c _ hc _ ih =>
    have hlt := c.isLt
    intro b hb
    rw [utf8Encode_unit hc, mem_append] at hb
    rcases hb with hb | hb
    · unfold bytesOfUnit at hb
      split_ifs at hb <;> simp only [mem_cons, not_mem_nil, or_false] at hb <;> omega
    · exact ih b hb
  | @pair h l _ hh _ _ ih =>
    have hlt := codePoint_lt h l
    intro b hb
    rw [utf8Encode_pair hh, mem_append] at hb
    rcases hb with hb | hb
    · simp only [bytesOfPair, mem_cons, not_mem_nil, or_false] at hb
      omega
    · exact ih b hb

/-! ## base64url -/

/-- `B64URL_ALPHABET` -/
def b64urlAlphabet : Text :=
  ofString "ABCDEFGHIJKLMNOPQRSTUVWXYZabcdefghijklmnopqrstuvwxyz0123456789-_"

/-- `B64URL_ALPHABET[i] ?? ''` -/
@[grind =] def letter (i : ℕ) : Text := b64urlAlphabet[i]?.toList

/-- `code < 128 ? B64URL_LOOKUP[code] : -1`; `none` is `-1`. -/
def b64urlLookup (code : CodeUnit) : Option ℕ :=
  if code.val < 128 then b64urlAlphabet.findIdx? (· = code) else none

/-- The loop of `toBase64Url`, three bytes a round. -/
def base64UrlOfBytes : List ℕ → Text
  | [] => []
  | [b0] => letter (b0 >>> 2) ++ letter ((b0 &&& 0x03) <<< 4 ||| 0)
  | [b0, b1] => letter (b0 >>> 2) ++ letter ((b0 &&& 0x03) <<< 4 ||| b1 >>> 4) ++
      letter ((b1 &&& 0x0f) <<< 2 ||| 0)
  | b0 :: b1 :: b2 :: rest => letter (b0 >>> 2) ++ letter ((b0 &&& 0x03) <<< 4 ||| b1 >>> 4) ++
      letter ((b1 &&& 0x0f) <<< 2 ||| b2 >>> 6) ++ letter (b2 &&& 0x3f) ++ base64UrlOfBytes rest

/-- `toBase64Url` -/
def toBase64Url (str : Text) : Text := base64UrlOfBytes (utf8Encode str)

/-- The variables of the loop of `fromBase64Url`. -/
structure Reader where
  bytes : List ℕ
  buffer : ℕ
  bits : ℕ

/-- Six more bits, and a byte when there are eight. -/
def Reader.push (r : Reader) (val : ℕ) : Reader :=
  -- an `int32`, so that `<< 6` loses the high bits
  let buffer := (r.buffer <<< 6) % 2 ^ 32 ||| val
  let bits := r.bits + 6
  if 8 ≤ bits then
    { bytes := r.bytes ++ [(buffer >>> (bits - 8)) &&& 0xff], buffer := buffer, bits := bits - 8 }
  else { bytes := r.bytes, buffer := buffer, bits := bits }

/-- One round of the loop; `none` is a throw. -/
def Reader.read (r : Reader) (code : CodeUnit) : Option Reader := (b64urlLookup code).map r.push

/-- The bytes of a base64url text. -/
def bytesOfBase64Url (str : Text) : Option (List ℕ) :=
  (str.foldlM Reader.read { bytes := [], buffer := 0, bits := 0 }).map Reader.bytes

/-- `fromBase64Url` -/
def fromBase64Url (str : Text) : Option Text := (bytesOfBase64Url str).bind utf8Decode

/-! ### Letters -/

theorem lookup_alphabet : ∀ i < 64, b64urlAlphabet[i]?.bind b64urlLookup = some i := by
  decide

/-- A letter that is written reads as its six bits. -/
theorem foldlM_letter (hi : i < 64) (r : Reader) (rest : Text) :
    (letter i ++ rest).foldlM Reader.read r = rest.foldlM Reader.read (r.push i) := by
  have hlookup := lookup_alphabet i hi
  unfold letter
  cases hletter : b64urlAlphabet[i]? with
  | none => simp [hletter] at hlookup
  | some c =>
    rw [hletter, bind_some] at hlookup
    simp [Reader.read, hlookup]

theorem length_letter (hi : i < 64) : (letter i).length = 1 := by
  have hlookup := lookup_alphabet i hi
  unfold letter
  cases hletter : b64urlAlphabet[i]? with
  | none => simp [hletter] at hlookup
  | some c => rfl

/-! ### A round of the loop -/

/-- The buffer of the decoder after six more bits. -/
theorem buffer_push (n : ℕ) {val : ℕ} (h : val < 64) :
    (n <<< 6) % 2 ^ 32 ||| val = n * 64 % 4294967296 + val := by
  rw [Nat.shiftLeft_eq]
  exact or_eq_add 6 (n * 64 % 4294967296 / 64) (by omega) h

/-- What a reader has read: the bytes, and so many bits `p` of the next one. -/
structure Holds (r : Reader) (bytes : List ℕ) (bits p : ℕ) : Prop where
  bytes_eq : r.bytes = bytes
  bits_eq : r.bits = bits
  pending_eq : r.buffer % 2 ^ bits = p

variable {r : Reader} {bytes : List ℕ} {p v : ℕ}

theorem Holds.push_first (h : Holds r bytes 0 p) (hv : v < 64) :
    Holds (r.push v) bytes 6 v := by
  obtain ⟨hbytes, hbits, -⟩ := h
  have hbuffer := buffer_push r.buffer hv
  constructor
  · simp [Reader.push, hbits, hbytes]
  · simp [Reader.push, hbits]
  · simp only [Reader.push, hbits, hbuffer, Nat.zero_add, if_neg (show ¬ 8 ≤ 6 by omega)]
    omega

/-- With two bits or more pending, six more make a byte. -/
theorem Holds.push_byte {k : ℕ} (h : Holds r bytes (k + 2) p) (hk : k ≤ 4) (hv : v < 64) :
    Holds (r.push v) (bytes ++ [(p * 64 + v) / 2 ^ k]) k ((p * 64 + v) % 2 ^ k) := by
  obtain ⟨rfl, hbits, rfl⟩ := h
  have hbuffer := buffer_push r.buffer hv
  constructor
  · simp only [Reader.push, hbits, hbuffer, if_pos (show 8 ≤ k + 2 + 6 by omega),
      and_ff, Nat.shiftRight_eq_div_pow]
    congr 2
    rw [show k + 2 + 6 - 8 = k by omega]
    interval_cases k <;> omega
  · simp only [Reader.push, hbits, if_pos (show 8 ≤ k + 2 + 6 by omega)]
    omega
  · simp only [Reader.push, hbits, hbuffer, if_pos (show 8 ≤ k + 2 + 6 by omega)]
    interval_cases k <;> omega

/-! ### The round trip -/

theorem or_zero_four (n : ℕ) : (n &&& 0x03) <<< 4 ||| 0 = n % 4 * 16 := by
  rw [and_03, Nat.shiftLeft_eq, Nat.or_zero]

theorem or_zero_two (n : ℕ) : (n &&& 0x0f) <<< 2 ||| 0 = n % 16 * 4 := by
  rw [and_0f, Nat.shiftLeft_eq, Nat.or_zero]

theorem or_high (n : ℕ) (h : m < 256) : (n &&& 0x03) <<< 4 ||| m >>> 4 = n % 4 * 16 + m / 16 := by
  rw [and_03, Nat.shiftLeft_eq, Nat.shiftRight_eq_div_pow]
  exact or_eq_add 4 (n % 4) (by omega) (by omega)

theorem or_low (n : ℕ) (h : m < 256) : (n &&& 0x0f) <<< 2 ||| m >>> 6 = n % 16 * 4 + m / 64 := by
  rw [and_0f, Nat.shiftLeft_eq, Nat.shiftRight_eq_div_pow]
  exact or_eq_add 2 (n % 16) (by omega) (by omega)

theorem shiftRight_two (n : ℕ) : n >>> 2 = n / 4 := Nat.shiftRight_eq_div_pow n 2

/-- What is written is read back, from a reader that has read whole bytes. -/
theorem foldlM_base64UrlOfBytes (hmore : ∀ b ∈ more, b < 256) (h : Holds r bytes 0 p) :
    ∃ r', (base64UrlOfBytes more).foldlM Reader.read r = some r' ∧ r'.bytes = bytes ++ more := by
  fun_induction base64UrlOfBytes more generalizing r bytes p with
  | case1 => exact ⟨r, rfl, by simp [h.bytes_eq]⟩
  | case2 b0 =>
    have hb0 : b0 < 256 := hmore b0 (by simp)
    have hread := (h.push_first (v := b0 / 4) (by omega)).push_byte (k := 4)
      (v := b0 % 4 * 16) le_rfl (by omega)
    refine ⟨_, ?_, hread.bytes_eq.trans ?_⟩
    · rw [shiftRight_two, or_zero_four, foldlM_letter (by omega),
        ← append_nil (letter (b0 % 4 * 16)), foldlM_letter (by omega)]
      rfl
    · rw [show (b0 / 4 * 64 + b0 % 4 * 16) / 2 ^ 4 = b0 by omega]
  | case3 b0 b1 =>
    have hb0 : b0 < 256 := hmore b0 (by simp)
    have hb1 : b1 < 256 := hmore b1 (by simp)
    have hread := ((h.push_first (v := b0 / 4) (by omega)).push_byte (k := 4)
      (v := b0 % 4 * 16 + b1 / 16) le_rfl (by omega)).push_byte (k := 2)
      (v := b1 % 16 * 4) (by omega) (by omega)
    refine ⟨_, ?_, hread.bytes_eq.trans ?_⟩
    · rw [shiftRight_two, or_high b0 hb1, or_zero_two, append_assoc,
        foldlM_letter (by omega), foldlM_letter (by omega),
        ← append_nil (letter (b1 % 16 * 4)), foldlM_letter (by omega)]
      rfl
    · have hfirst : (b0 / 4 * 64 + (b0 % 4 * 16 + b1 / 16)) / 2 ^ 4 = b0 := by omega
      have hsecond : ((b0 / 4 * 64 + (b0 % 4 * 16 + b1 / 16)) % 2 ^ 4 * 64 + b1 % 16 * 4) / 2 ^ 2 =
          b1 := by omega
      simp only [hfirst, hsecond, append_assoc, cons_append, nil_append]
  | case4 b0 b1 b2 rest ih =>
    have hb0 : b0 < 256 := hmore b0 (by simp)
    have hb1 : b1 < 256 := hmore b1 (by simp)
    have hb2 : b2 < 256 := hmore b2 (by simp)
    have hread := (((h.push_first (v := b0 / 4) (by omega)).push_byte (k := 4)
      (v := b0 % 4 * 16 + b1 / 16) le_rfl (by omega)).push_byte (k := 2)
      (v := b1 % 16 * 4 + b2 / 64) (by omega) (by omega)).push_byte (k := 0)
      (v := b2 % 64) (by omega) (by omega)
    obtain ⟨r', hr', hbytes⟩ := ih (fun b hb => hmore b (by simp [hb])) hread
    refine ⟨r', ?_, hbytes.trans ?_⟩
    · rw [shiftRight_two, or_high b0 hb1, or_low b1 hb2, and_3f]
      simp only [append_assoc]
      rw [foldlM_letter (by omega), foldlM_letter (by omega), foldlM_letter (by omega),
        foldlM_letter (by omega)]
      exact hr'
    · have hfirst : (b0 / 4 * 64 + (b0 % 4 * 16 + b1 / 16)) / 2 ^ 4 = b0 := by omega
      have hsecond : ((b0 / 4 * 64 + (b0 % 4 * 16 + b1 / 16)) % 2 ^ 4 * 64 +
          (b1 % 16 * 4 + b2 / 64)) / 2 ^ 2 = b1 := by omega
      have hthird : (((b0 / 4 * 64 + (b0 % 4 * 16 + b1 / 16)) % 2 ^ 4 * 64 +
          (b1 % 16 * 4 + b2 / 64)) % 2 ^ 2 * 64 + b2 % 64) / 2 ^ 0 = b2 := by omega
      simp only [hfirst, hsecond, hthird, append_assoc, cons_append, nil_append]

theorem bytesOfBase64Url_base64UrlOfBytes (h : ∀ b ∈ more, b < 256) :
    bytesOfBase64Url (base64UrlOfBytes more) = some more := by
  obtain ⟨r', hr', hbytes⟩ := foldlM_base64UrlOfBytes
    (r := { bytes := [], buffer := 0, bits := 0 }) h ⟨rfl, rfl, rfl⟩
  unfold bytesOfBase64Url
  rw [hr', map_some, hbytes, nil_append]

/-- **A well-formed text comes back from its base64url text.** -/
theorem fromBase64Url_toBase64Url (h : WellFormed t) : fromBase64Url (toBase64Url t) = some t := by
  unfold fromBase64Url toBase64Url
  rw [bytesOfBase64Url_base64UrlOfBytes (utf8Encode_lt h), bind_some,
    utf8Decode_utf8Encode h]

/-! ### Its length -/

theorem length_base64UrlOfBytes (h : ∀ b ∈ more, b < 256) :
    (base64UrlOfBytes more).length = (4 * more.length + 2) / 3 := by
  fun_induction base64UrlOfBytes more with
  | case1 => rfl
  | case2 b0 =>
    have hb0 : b0 < 256 := h b0 (by simp)
    rw [shiftRight_two, or_zero_four, length_append, length_letter (by omega),
      length_letter (by omega)]
    simp
  | case3 b0 b1 =>
    have hb0 : b0 < 256 := h b0 (by simp)
    have hb1 : b1 < 256 := h b1 (by simp)
    rw [shiftRight_two, or_high b0 hb1, or_zero_two, length_append, length_append,
      length_letter (by omega), length_letter (by omega), length_letter (by omega)]
    simp
  | case4 b0 b1 b2 rest ih =>
    have hb0 : b0 < 256 := h b0 (by simp)
    have hb1 : b1 < 256 := h b1 (by simp)
    have hb2 : b2 < 256 := h b2 (by simp)
    have ih := ih (fun b hb => h b (by simp [hb]))
    rw [shiftRight_two, or_high b0 hb1, or_low b1 hb2, and_3f]
    simp only [length_append, length_cons, ih]
    rw [length_letter (by omega), length_letter (by omega), length_letter (by omega),
      length_letter (by omega)]
    omega

/-- Three bytes are four letters. -/
theorem length_toBase64Url (h : WellFormed t) :
    (toBase64Url t).length = (4 * (utf8Encode t).length + 2) / 3 :=
  length_base64UrlOfBytes (utf8Encode_lt h)

end FestivalPlanner.Share
