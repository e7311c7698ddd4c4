import FestivalPlanner.Share.PlanSnapshot

/-!
# The bytes that a snapshot is read from

What `decodePlanSnapshot` accepts, compared with the UTF-8 of the standard.  The decoder of the
file asks for the continuation bytes that a lead byte announces, and for nothing else: overlong
forms, surrogates and values above `0x10ffff` are read as units.

* `WellFormedUtf8` — the bytes of a text of characters; `wellFormedUtf8_iff` — these are the bytes
  that the encoder writes for well-formed texts;
* `Spells` — lead bytes with the continuations they announce, and the units they are read as;
  `utf8Decode_eq_some_iff` — the decoder reads exactly these;
* `codec_exact_iff` — a text comes back from its base64url text, and a malformed sequence is
  refused exactly when it does not spell the JSON text of a snapshot.
-/

namespace FestivalPlanner.Share

open Utf16 Double List Option

/-! ## Well-formed UTF-8 -/

/-- The bytes of a character. -/
def bytesOfChar (c : Char) : List ℕ := (String.utf8EncodeChar c).map UInt8.toNat

/-- The bytes are those of a text of characters. -/
def WellFormedUtf8 (bytes : List ℕ) : Prop := ∃ cs : List Char, bytes = cs.flatMap bytesOfChar

theorem bytesOfChar_eq (c : Char) :
    bytesOfChar c = if c.toNat < 0x10000 then bytesOfUnit c.toNat else bytesOfPair c.toNat := by
  have hval : c.val.toNat = c.toNat := rfl
  have hlt := toNat_valid c
  unfold bytesOfChar String.utf8EncodeChar bytesOfUnit bytesOfPair
  simp only [hval]
  split_ifs <;> simp <;> omega

variable {c : Char} {n : ℕ} {t : Text} {bytes : List ℕ}

theorem unit_val (h : c.toNat < 0x10000) : (unit c).val = c.toNat := by
  simp only [unit, fromCharCode, Fin.ofNat]
  omega

theorem high_val (h : 0x10000 ≤ n ∧ n < 0x110000) :
    (fromCharCode (0xd800 + ((n : ℤ) - 0x10000) / 0x400)).val = 0xd800 + (n - 0x10000) / 0x400 := by
  simp only [fromCharCode, Fin.ofNat]
  omega

theorem low_val (h : 0x10000 ≤ n ∧ n < 0x110000) :
    (fromCharCode (0xdc00 + ((n : ℤ) - 0x10000) % 0x400)).val = 0xdc00 + (n - 0x10000) % 0x400 := by
  simp only [fromCharCode, Fin.ofNat]
  omega

/-- The encoder writes the bytes of a character. -/
theorem utf8Encode_unitsOf (c : Char) (t : Text) :
    utf8Encode (unitsOf c ++ t) = bytesOfChar c ++ utf8Encode t := by
  have hlt := toNat_valid c
  rw [bytesOfChar_eq]
  unfold unitsOf
  split
  · rename_i hunit
    have hnone : isSurrogate (unit c) = false := by
      simp only [isSurrogate, isHigh, isLow, unit_val hunit, Bool.or_eq_false_iff,
        decide_eq_false_iff_not]
      omega
    rw [singleton_append, utf8Encode_unit hnone, unit_val hunit]
  · rename_i hpair
    have hrange : 0x10000 ≤ c.toNat ∧ c.toNat < 0x110000 := by omega
    have hhigh := high_val hrange
    have hlow := low_val hrange
    have hcode : codePoint (fromCharCode (0xd800 + ((c.toNat : ℤ) - 0x10000) / 0x400))
        (fromCharCode (0xdc00 + ((c.toNat : ℤ) - 0x10000) % 0x400)) = c.toNat := by
      unfold codePoint
      rw [hhigh, hlow]
      omega
    have hish : isHigh (fromCharCode (0xd800 + ((c.toNat : ℤ) - 0x10000) / 0x400)) = true := by
      simp only [isHigh, hhigh, decide_eq_true_eq]
      omega
    rw [cons_append, singleton_append, utf8Encode_pair hish, hcode]

theorem utf8Encode_flatMap (cs : List Char) :
    utf8Encode (cs.flatMap unitsOf) = cs.flatMap bytesOfChar := by
  induction cs with
  | nil => rfl
  | cons c cs ih => rw [flatMap_cons, utf8Encode_unitsOf, ih, flatMap_cons]

theorem wellFormed_unitsOf (c : Char) : WellFormed (unitsOf c) := by
  have hlt := toNat_valid c
  unfold unitsOf
  split
  · rename_i hunit
    refine .unit ?_ .nil
    simp only [isSurrogate, isHigh, isLow, unit_val hunit, Bool.or_eq_false_iff,
      decide_eq_false_iff_not]
    omega
  · have hrange : 0x10000 ≤ c.toNat ∧ c.toNat < 0x110000 := by omega
    have hhigh := high_val hrange
    have hlow := low_val hrange
    refine .pair ?_ ?_ .nil
    · simp only [isHigh, hhigh, decide_eq_true_eq]
      omega
    · simp only [isLow, hlow, decide_eq_true_eq]
      omega

/-- A well-formed text is a text of characters. -/
theorem exists_chars (h : WellFormed t) : ∃ cs : List Char, t = cs.flatMap unitsOf := by
  induction h with
  | nil => exact ⟨[], rfl⟩
  | @unit c t hc _ ih =>
    obtain ⟨cs, rfl⟩ := ih
    have hlt := c.isLt
    simp only [isSurrogate, isHigh, isLow, Bool.or_eq_false_iff, decide_eq_false_iff_not] at hc
    have hvalid : c.val.isValidChar := by
      simp only [Nat.isValidChar]
      omega
    refine ⟨Char.ofNatAux c.val hvalid :: cs, ?_⟩
    have hnat : (Char.ofNatAux c.val hvalid).toNat = c.val := rfl
    rw [flatMap_cons, unitsOf, if_pos (by rw [hnat]; exact hlt), unit, hnat, fromCharCode_val]
    rfl
  | @pair h l t hh hl _ ih =>
    obtain ⟨cs, rfl⟩ := ih
    simp only [isHigh, isLow, decide_eq_true_eq] at hh hl
    have hlt := codePoint_lt h l
    have hge : 0x10000 ≤ codePoint h l := by
      unfold codePoint
      omega
    have hvalid : (codePoint h l).isValidChar := by
      simp only [Nat.isValidChar]
      omega
    refine ⟨Char.ofNatAux (codePoint h l) hvalid :: cs, ?_⟩
    have hnat : (Char.ofNatAux (codePoint h l) hvalid).toNat = codePoint h l := rfl
    have hfirst : fromCharCode (0xd800 + ((codePoint h l : ℤ) - 0x10000) / 0x400) = h := by
      apply fromCharCode_eq
      unfold codePoint
      omega
    have hsecond : fromCharCode (0xdc00 + ((codePoint h l : ℤ) - 0x10000) % 0x400) = l := by
      apply fromCharCode_eq
      unfold codePoint
      omega
    rw [flatMap_cons, unitsOf, if_neg (by rw [hnat]; omega), hnat, hfirst, hsecond]
    rfl

/-- The well-formed byte sequences are those that the encoder writes for well-formed texts. -/
theorem wellFormedUtf8_iff : WellFormedUtf8 bytes ↔ ∃ t, WellFormed t ∧ bytes = utf8Encode t := by
  constructor
  · rintro ⟨cs, rfl⟩
    refine ⟨cs.flatMap unitsOf, ?_, (utf8Encode_flatMap cs).symm⟩
    induction cs with
    | nil => exact .nil
    | cons c cs ih => exact (wellFormed_unitsOf c).append ih
  · rintro ⟨t, ht, rfl⟩
    obtain ⟨cs, rfl⟩ := exists_chars ht
    exact ⟨cs, utf8Encode_flatMap cs⟩

/-! ## What the decoder reads -/

/-- The bytes are lead bytes, each with the continuation bytes it announces, and the units of the
text have the bits of these bytes.  Every lead byte from `0xf0` on announces three. -/
inductive Spells : List ℕ → Text → Prop
  | nil : Spells [] []
  | one {b0 : ℕ} {bytes : List ℕ} {t : Text} :
      b0 < 0x80 → Spells bytes t → Spells (b0 :: bytes) (fromCharCode b0 :: t)
  | two {b0 b1 : ℕ} {bytes : List ℕ} {t : Text} :
      0xc0 ≤ b0 ∧ b0 < 0xe0 → isContinuation b1 = true → Spells bytes t →
      Spells (b0 :: b1 :: bytes) (fromCharCode (b0 % 32 * 64 + b1 % 64 : ℕ) :: t)
  | three {b0 b1 b2 : ℕ} {bytes : List ℕ} {t : Text} :
      0xe0 ≤ b0 ∧ b0 < 0xf0 → isContinuation b1 = true → isContinuation b2 = true →
      Spells bytes t →
      Spells (b0 :: b1 :: b2 :: bytes)
        (fromCharCode ((b0 % 16 * 64 + b1 % 64) * 64 + b2 % 64 : ℕ) :: t)
  | four {b0 b1 b2 b3 : ℕ} {off : ℤ} {bytes : List ℕ} {t : Text} :
      0xf0 ≤ b0 → isContinuation b1 = true → isContinuation b2 = true →
      isContinuation b3 = true →
      off = (((b0 % 8 * 64 + b1 % 64) * 64 + b2 % 64) * 64 + b3 % 64 : ℕ) - 0x10000 →
      Spells bytes t →
      Spells (b0 :: b1 :: b2 :: b3 :: bytes)
        (fromCharCode (0xd800 + off / 0x400) :: fromCharCode (0xdc00 + off % 0x400) :: t)

/-- The decoder reads exactly what the bytes spell. -/
theorem utf8Decode_eq_some_iff : utf8Decode bytes = some t ↔ Spells bytes t := by
  constructor
  · intro h
    fun_induction utf8Decode bytes generalizing t with
    | case1 =>
      cases h
      exact .nil
    | case2 b0 rest h0 ih =>
      obtain ⟨t, ht, rfl⟩ := map_eq_some_iff.mp h
      exact .one h0 (ih ht)
    | case3 b0 h0 h1 b1 rest hb1 ih =>
      obtain ⟨t, ht, rfl⟩ := map_eq_some_iff.mp h
      rw [and_1f, and_3f, or_six _ (Nat.mod_lt b1 (by omega))]
      exact .two h1 hb1 (ih ht)
    | case6 b0 h0 h1 h2 b1 b2 rest hb ih =>
      obtain ⟨t, ht, rfl⟩ := map_eq_some_iff.mp h
      have ⟨hb1, hb2⟩ := Bool.and_eq_true_iff.mp hb
      rw [and_0f, and_3f, and_3f, or_six_six _ (Nat.mod_lt b1 (by omega))
        (Nat.mod_lt b2 (by omega))]
      exact .three h2 hb1 hb2 (ih ht)
    | case9 b0 h0 h1 h2 h3 b1 b2 b3 rest hb cp =>
      rename_i off ih
      obtain ⟨t, ht, rfl⟩ := map_eq_some_iff.mp h
      have ⟨hb12, hb3⟩ := Bool.and_eq_true_iff.mp hb
      have ⟨hb1, hb2⟩ := Bool.and_eq_true_iff.mp hb12
      refine .four h3 hb1 hb2 hb3 ?_ (ih ht)
      simp only [off, cp]
      rw [and_07, and_3f, and_3f, and_3f, or_six_six_six _ (Nat.mod_lt b1 (by omega))
        (Nat.mod_lt b2 (by omega)) (Nat.mod_lt b3 (by omega))]
    | _ => cases h
  · intro h
    induction h with
    | nil => rfl
    | @one b0 bytes t h0 _ ih =>
      rw [utf8Decode.eq_def]
      simp only [if_pos h0, ih, map_some]
    | @two b0 b1 bytes t h0 hb1 _ ih =>
      have hone : ¬ b0 < 0x80 := by omega
      have hunit := or_six (b0 % 32) (Nat.mod_lt b1 (show 0 < 64 by omega))
      rw [utf8Decode.eq_def]
      simp only [if_neg hone, if_pos h0, hb1, if_true, ih, map_some, and_1f, and_3f, hunit]
    | @three b0 b1 b2 bytes t h0 hb1 hb2 _ ih =>
      have hone : ¬ b0 < 0x80 := by omega
      have htwo : ¬ (0xc0 ≤ b0 ∧ b0 < 0xe0) := by omega
      have hunit := or_six_six (b0 % 16) (Nat.mod_lt b1 (show 0 < 64 by omega))
        (Nat.mod_lt b2 (show 0 < 64 by omega))
      rw [utf8Decode.eq_def]
      simp only [if_neg hone, if_neg htwo, if_pos h0, hb1, hb2, Bool.and_true, if_true, ih,
        map_some, and_0f, and_3f, hunit]
    | @four b0 b1 b2 b3 off bytes t h0 hb1 hb2 hb3 hoff _ ih =>
      have hone : ¬ b0 < 0x80 := by omega
      have htwo : ¬ (0xc0 ≤ b0 ∧ b0 < 0xe0) := by omega
      have hthree : ¬ (0xe0 ≤ b0 ∧ b0 < 0xf0) := by omega
      have hcp := or_six_six_six (b0 % 8) (Nat.mod_lt b1 (show 0 < 64 by omega))
        (Nat.mod_lt b2 (show 0 < 64 by omega)) (Nat.mod_lt b3 (show 0 < 64 by omega))
      rw [utf8Decode.eq_def]
      simp only [if_neg hone, if_neg htwo, if_neg hthree, if_pos h0, hb1, hb2, hb3, Bool.and_true,
        if_true, ih, map_some, and_07, and_3f, hcp, hoff]

/-! ## Which sequences are refused -/

/-- `JSON.parse` and the schema take the text for a snapshot of this version. -/
def IsSnapshotText (json : Text) : Prop :=
  ∃ parsed, JsonText.parse numerals json = some parsed ∧ hasOtherVersion parsed = false ∧
    (envelopeSchema parsed).isSome

/-- A value is reported exactly for a text within the limits whose bytes spell a snapshot. -/
theorem decodePlanSnapshot_isOk_iff {text : Text} (h : bytesOfBase64Url text = some bytes) :
    (∃ data, decodePlanSnapshot (some text) = .ok data) ↔
      text ≠ [] ∧ text.length ≤ maxEncodedLength ∧ ∃ json, Spells bytes json ∧
        IsSnapshotText json := by
  have hfrom : fromBase64Url text = utf8Decode bytes := by
    rw [fromBase64Url, h, bind_some]
  simp only [← utf8Decode_eq_some_iff, IsSnapshotText]
  by_cases hempty : text.length = 0
  · simp [decodePlanSnapshot, length_eq_zero_iff.mp hempty]
  by_cases hlong : maxEncodedLength < text.length
  · simp [decodePlanSnapshot, hempty, hlong]
  have hne : text ≠ [] := fun heq => hempty (length_eq_zero_iff.mpr heq)
  simp only [decodePlanSnapshot, if_neg hempty, if_neg hlong, hfrom, ne_eq, hne, not_false_eq_true,
    not_lt.mp hlong, true_and]
  cases utf8Decode bytes with
  | none => simp
  | some json =>
    cases hparse : JsonText.parse numerals json with
    | none => simp [hparse]
    | some parsed =>
      cases hversion : hasOtherVersion parsed with
      | true => simp [hparse, hversion]
      | false =>
        cases hschema : envelopeSchema parsed with
        | none => simp [hparse, hversion, hschema]
        | some data => simp [hparse, hversion, hschema]

theorem decodePlanSnapshot_isError_iff (text : Option Text) :
    (∃ e, decodePlanSnapshot text = .error e) ↔ ¬ ∃ data, decodePlanSnapshot text = .ok data := by
  cases decodePlanSnapshot text with
  | error e => simp
  | ok data => simp

/-- A well-formed text comes back from its base64url text, and the text of a malformed sequence is
refused exactly when it is too long or does not spell the JSON text of a snapshot. -/
theorem codec_exact_iff (s text : Text) (bytes : List ℕ) :
    (WellFormed s → fromBase64Url (toBase64Url s) = some s) ∧
    (bytesOfBase64Url text = some bytes →
      ((¬ WellFormedUtf8 bytes → ∃ e, decodePlanSnapshot (some text) = .error e) ↔
        WellFormedUtf8 bytes ∨ maxEncodedLength < text.length ∨
          ∀ json, Spells bytes json → ¬ IsSnapshotText json)) := by
  refine ⟨fun hs => fromBase64Url_toBase64Url hs, ?_⟩
  intro h
  have hok := decodePlanSnapshot_isOk_iff h
  rw [decodePlanSnapshot_isError_iff, hok]
  constructor
  · intro hrefused
    by_cases hwell : WellFormedUtf8 bytes
    · exact .inl hwell
    right
    by_cases hlong : maxEncodedLength < text.length
    · exact .inl hlong
    right
    intro json hspells hsnapshot
    have hne : text ≠ [] := by
      intro hnil
      subst hnil
      have hbytes : bytes = [] := by
        cases h
        rfl
      exact hwell ⟨[], hbytes⟩
    exact hrefused hwell ⟨hne, not_lt.mp hlong, json, hspells, hsnapshot⟩
  · rintro (hwell | hlong | hnone) hmalformed ⟨-, hlength, json, hspells, hsnapshot⟩
    · exact hmalformed hwell
    · exact absurd hlength (not_le.mpr hlong)
    · exact hnone json hspells hsnapshot

/-- The first two of three bytes. -/
theorem truncated_refused :
    ∃ e, decodePlanSnapshot (some (base64UrlOfBytes [0xe2, 0x98])) = .error e := by
  have hbytes : bytesOfBase64Url (base64UrlOfBytes [0xe2, 0x98]) = some [0xe2, 0x98] :=
    bytesOfBase64Url_base64UrlOfBytes (by decide)
  have hnone : ∀ json, ¬ Spells [0xe2, 0x98] json := by
    intro json hspells
    cases utf8Decode_eq_some_iff.mpr hspells
  have hwell : ¬ WellFormedUtf8 [0xe2, 0x98] := by
    rintro hwell
    obtain ⟨t, ht, hbytes⟩ := wellFormedUtf8_iff.mp hwell
    have hdecode := utf8Decode_utf8Encode ht
    rw [← hbytes] at hdecode
    cases hdecode
  exact ((codec_exact_iff [] _ _).2 hbytes).mpr
    (.inr (.inr (fun json hspells => absurd hspells (hnone json)))) hwell

/-- The JSON text of a plan whose name is the overlong form of one letter. -/
def overlongBytes : List ℕ :=
  utf8Encode (ofString "\x7b\"v\":1,\"festivalId\":\"f\",\"festivalName\":\"") ++ [0xc1, 0x81] ++
    utf8Encode (ofString "\",\"picks\":[]\x7d")

/-- No character has a byte that leads an overlong form of two bytes. -/
theorem ne_overlongLead_of_mem {b : ℕ} (h : b ∈ bytesOfChar c) : b ≠ 0xc1 := by
  have hlt := toNat_valid c
  rw [bytesOfChar_eq, bytesOfUnit, bytesOfPair] at h
  split_ifs at h <;> simp only [mem_cons, not_mem_nil, or_false] at h <;> omega

/-- The bytes are malformed, and a plan is reported. -/
theorem overlong_accepted :
    ¬ ∀ (text : Text) (bytes : List ℕ), bytesOfBase64Url text = some bytes →
      ¬ WellFormedUtf8 bytes → ∃ e, decodePlanSnapshot (some text) = .error e := by
  intro h
  have hbytes : bytesOfBase64Url (base64UrlOfBytes overlongBytes) = some overlongBytes :=
    bytesOfBase64Url_base64UrlOfBytes (by decide +kernel)
  have hmalformed : ¬ WellFormedUtf8 overlongBytes := by
    rintro ⟨cs, hcs⟩
    have hmem : 0xc1 ∈ overlongBytes := by decide +kernel
    rw [hcs] at hmem
    obtain ⟨c, -, hc⟩ := List.mem_flatMap.mp hmem
    exact ne_overlongLead_of_mem hc rfl
  obtain ⟨e, he⟩ := h _ _ hbytes hmalformed
  have hok : (decodePlanSnapshot (some (base64UrlOfBytes overlongBytes))).isOk = true := by
    decide +kernel
  rw [he] at hok
  cases hok

end FestivalPlanner.Share
