import BlobCache.Text.Utf8

/-!
# UTF-8 reads back

Every text is read back from its UTF-8 bytes (`decode_encode`). The bytes of one character are read
as that character, whatever follows (`decodeFrom_encodeChar`), with one lemma for each length of a
sequence; the ranges of the second byte are met because the encoder takes the shortest sequence and
no character is a surrogate. A zero byte stands for the zero character only
(`ne_zero_of_mem_encode`).
-/

namespace BlobCache.Utf8

/-! ### Sequences -/

private theorem isContinuation_of_toNat {b : UInt8} (hlow : 128 ≤ b.toNat) (hhigh : b.toNat ≤ 191) :
    isContinuation b = true := by
  simp only [isContinuation, Bool.and_eq_true, decide_eq_true_eq, UInt8.le_iff_toNat_le]
  exact ⟨hlow, hhigh⟩

/-- A continuation byte may come second if it makes no overlong sequence, no surrogate and nothing
beyond the last character. -/
private theorem isSecond_of_toNat {a b : UInt8} (hlow : 128 ≤ b.toNat) (hhigh : b.toNat ≤ 191)
    (hE0 : a.toNat = 224 → 160 ≤ b.toNat) (hED : a.toNat = 237 → b.toNat ≤ 159)
    (hF0 : a.toNat = 240 → 144 ≤ b.toNat) (hF4 : a.toNat = 244 → b.toNat ≤ 143) :
    isSecond a b = true := by
  have hrange : ∀ low high : UInt8, low.toNat ≤ b.toNat → b.toNat ≤ high.toNat →
      (decide (low ≤ b) && decide (b ≤ high)) = true := by
    intro low high hl hh
    simp only [Bool.and_eq_true, decide_eq_true_eq, UInt8.le_iff_toNat_le]
    exact ⟨hl, hh⟩
  rw [isSecond]
  by_cases h0 : a = 0xE0
  · rw [if_pos h0]
    exact hrange _ _ (hE0 (by rw [h0]; rfl)) hhigh
  rw [if_neg h0]
  by_cases hd : a = 0xED
  · rw [if_pos hd]
    exact hrange _ _ hlow (hED (by rw [hd]; rfl))
  rw [if_neg hd]
  by_cases hf : a = 0xF0
  · rw [if_pos hf]
    exact hrange _ _ (hF0 (by rw [hf]; rfl)) hhigh
  rw [if_neg hf]
  by_cases h4 : a = 0xF4
  · rw [if_pos h4]
    exact hrange _ _ hlow (hF4 (by rw [h4]; rfl))
  rw [if_neg h4]
  exact isContinuation_of_toNat hlow hhigh

/-- A lead byte of a longer sequence is neither a character of its own nor malformed. -/
private theorem not_lt_of_toNat {a : UInt8} (hlow : 194 ≤ a.toNat) (hhigh : a.toNat ≤ 244) :
    ¬a < 0x80 ∧ ¬(a < 0xC2 ∨ 0xF4 < a) := by
  constructor
  · intro h
    have hlt : a.toNat < 128 := UInt8.lt_iff_toNat_lt.mp h
    omega
  · rintro (h | h)
    · have hlt : a.toNat < 194 := UInt8.lt_iff_toNat_lt.mp h
      omega
    · have hlt : 244 < a.toNat := UInt8.lt_iff_toNat_lt.mp h
      omega

private theorem decodeFrom_one {a : UInt8} (ha : a.toNat < 128) (start : Nat) (rest : Bytes) :
    decodeFrom start (a :: rest) =
      (decodeFrom (start + 1) rest).map (Char.ofNat a.toNat :: ·) := by
  have hlt : a < 0x80 := UInt8.lt_iff_toNat_lt.mpr ha
  rw [decodeFrom.eq_def]
  simp only [hlt, if_true]

private theorem decodeFrom_two {a b : UInt8} (ha : 194 ≤ a.toNat) (ha' : a.toNat < 224)
    (hb : isContinuation b = true) (start : Nat) (rest : Bytes) :
    decodeFrom start (a :: b :: rest) = (decodeFrom (start + 2) rest).map (char2 a b :: ·) := by
  obtain ⟨hone, hlead⟩ := not_lt_of_toNat ha (by omega)
  have htwo : a < 0xE0 := UInt8.lt_iff_toNat_lt.mpr ha'
  rw [decodeFrom.eq_def]
  simp only [hone, hlead, htwo, hb, if_true, if_false]

private theorem decodeFrom_three {a b c : UInt8} (ha : 224 ≤ a.toNat) (ha' : a.toNat < 240)
    (hb : isSecond a b = true) (hc : isContinuation c = true) (start : Nat) (rest : Bytes) :
    decodeFrom start (a :: b :: c :: rest) =
      (decodeFrom (start + 3) rest).map (char3 a b c :: ·) := by
  obtain ⟨hone, hlead⟩ := not_lt_of_toNat (a := a) (by omega) (by omega)
  have htwo : ¬a < 0xE0 := fun h => by
    have hlt : a.toNat < 224 := UInt8.lt_iff_toNat_lt.mp h
    omega
  have hthree : a < 0xF0 := UInt8.lt_iff_toNat_lt.mpr ha'
  rw [decodeFrom.eq_def]
  simp only [hone, hlead, htwo, hthree, hb, hc, Bool.not_true, Bool.false_eq_true,
    if_true, if_false]

private theorem decodeFrom_four {a b c d : UInt8} (ha : 240 ≤ a.toNat) (ha' : a.toNat ≤ 244)
    (hb : isSecond a b = true) (hc : isContinuation c = true) (hd : isContinuation d = true)
    (start : Nat) (rest : Bytes) :
    decodeFrom start (a :: b :: c :: d :: rest) =
      (decodeFrom (start + 4) rest).map (char4 a b c d :: ·) := by
  obtain ⟨hone, hlead⟩ := not_lt_of_toNat (a := a) (by omega) ha'
  have htwo : ¬a < 0xE0 := fun h => by
    have hlt : a.toNat < 224 := UInt8.lt_iff_toNat_lt.mp h
    omega
  have hthree : ¬a < 0xF0 := fun h => by
    have hlt : a.toNat < 240 := UInt8.lt_iff_toNat_lt.mp h
    omega
  rw [decodeFrom.eq_def]
  simp only [hone, hlead, htwo, hthree, hb, hc, hd, Bool.not_true,
    Bool.false_eq_true, if_true, if_false]

/-! ### Characters -/

theorem toNat_ofNat {n : Nat} (h : n < 256) : (UInt8.ofNat n).toNat = n := by
  rw [UInt8.toNat_ofNat']
  exact Nat.mod_eq_of_lt h

/-- A continuation byte with the given payload. -/
private theorem payload_ofNat (n : Nat) :
    payload (UInt8.ofNat (n % 64 + 128)) = n % 64 ∧
      128 ≤ (UInt8.ofNat (n % 64 + 128)).toNat ∧ (UInt8.ofNat (n % 64 + 128)).toNat ≤ 191 := by
  rw [payload, toNat_ofNat (by omega)]
  omega

theorem encodeChar_one {c : Char} (h : c.toNat ≤ 127) :
    String.utf8EncodeChar c = [UInt8.ofNat c.toNat] :=
  if_pos h

theorem encodeChar_two {c : Char} (h : 127 < c.toNat) (h' : c.toNat ≤ 2047) :
    String.utf8EncodeChar c =
      [UInt8.ofNat (c.toNat / 64 % 32 + 192), UInt8.ofNat (c.toNat % 64 + 128)] :=
  (if_neg (Nat.not_le_of_lt h)).trans (if_pos h')

theorem encodeChar_three {c : Char} (h : 2047 < c.toNat) (h' : c.toNat ≤ 65535) :
    String.utf8EncodeChar c =
      [UInt8.ofNat (c.toNat / 4096 % 16 + 224), UInt8.ofNat (c.toNat / 64 % 64 + 128),
        UInt8.ofNat (c.toNat % 64 + 128)] :=
  (if_neg (Nat.not_le_of_lt (Nat.lt_trans (by decide) h))).trans
    ((if_neg (Nat.not_le_of_lt h)).trans (if_pos h'))

theorem encodeChar_four {c : Char} (h : 65535 < c.toNat) :
    String.utf8EncodeChar c =
      [UInt8.ofNat (c.toNat / 262144 % 8 + 240), UInt8.ofNat (c.toNat / 4096 % 64 + 128),
        UInt8.ofNat (c.toNat / 64 % 64 + 128), UInt8.ofNat (c.toNat % 64 + 128)] :=
  (if_neg (Nat.not_le_of_lt (Nat.lt_trans (by decide) h))).trans
    ((if_neg (Nat.not_le_of_lt (Nat.lt_trans (by decide) h))).trans
      (if_neg (Nat.not_le_of_lt h)))

/-- The bytes of a character are read as that character. -/
theorem decodeFrom_encodeChar (c : Char) (start : Nat) (rest : Bytes) :
    ∃ n, decodeFrom start (String.utf8EncodeChar c ++ rest) =
      (decodeFrom (start + n) rest).map (c :: ·) := by
  have hvalid : c.toNat < 55296 ∨ (57343 < c.toNat ∧ c.toNat < 1114112) := c.valid
  have hchar : ∀ n, n = c.toNat → Char.ofNat n = c := fun n hn => by
    rw [hn, Char.ofNat_toNat]
  obtain ⟨h0, h0l, h0h⟩ := payload_ofNat c.toNat
  obtain ⟨h1, h1l, h1h⟩ := payload_ofNat (c.toNat / 64)
  obtain ⟨h2, h2l, h2h⟩ := payload_ofNat (c.toNat / 4096)
  by_cases hone : c.toNat ≤ 127
  · have ha := toNat_ofNat (n := c.toNat) (by omega)
    refine ⟨1, ?_⟩
    rw [encodeChar_one hone, List.singleton_append, decodeFrom_one (by omega), ha,
      Char.ofNat_toNat]
  by_cases htwo : c.toNat ≤ 2047
  · have ha := toNat_ofNat (n := c.toNat / 64 % 32 + 192) (by omega)
    refine ⟨2, ?_⟩
    rw [encodeChar_two (by omega) htwo, List.cons_append, List.singleton_append,
      decodeFrom_two (by omega) (by omega) (isContinuation_of_toNat h0l h0h), char2, h0, ha,
      hchar _ (by omega)]
  by_cases hthree : c.toNat ≤ 65535
  · have ha := toNat_ofNat (n := c.toNat / 4096 % 16 + 224) (by omega)
    have hb := toNat_ofNat (n := c.toNat / 64 % 64 + 128) (by omega)
    -- the lead byte E0 means at least U+0800, and ED means no surrogate
    have hsecond := isSecond_of_toNat (a := UInt8.ofNat (c.toNat / 4096 % 16 + 224)) h1l h1h
      (by omega) (by omega) (by omega) (by omega)
    refine ⟨3, ?_⟩
    rw [encodeChar_three (by omega) hthree, List.cons_append, List.cons_append,
      List.singleton_append, decodeFrom_three (by omega) (by omega) hsecond
      (isContinuation_of_toNat h0l h0h), char3, h0, h1, ha, hchar _ (by omega)]
  · have ha := toNat_ofNat (n := c.toNat / 262144 % 8 + 240) (by omega)
    have hb := toNat_ofNat (n := c.toNat / 4096 % 64 + 128) (by omega)
    -- the lead byte F0 means at least U+10000, and F4 at most U+10FFFF
    have hsecond := isSecond_of_toNat (a := UInt8.ofNat (c.toNat / 262144 % 8 + 240)) h2l h2h
      (by omega) (by omega) (by omega) (by omega)
    refine ⟨4, ?_⟩
    rw [encodeChar_four (by omega), List.cons_append, List.cons_append, List.cons_append,
      List.singleton_append, decodeFrom_four (by omega) (by omega) hsecond
      (isContinuation_of_toNat h1l h1h) (isContinuation_of_toNat h0l h0h), char4, h0, h1, h2, ha,
      hchar _ (by omega)]

/-- A byte below 128 stands for the character with its number, and for no other. -/
theorem toNat_eq_of_mem_encodeChar {c : Char} {b : UInt8} (hb : b ∈ String.utf8EncodeChar c)
    (hlt : b.toNat < 128) : c.toNat = b.toNat := by
  -- in a longer sequence, every byte has a marker
  have hmarked : ∀ n, 128 ≤ n → n < 256 → b ≠ UInt8.ofNat n := by
    rintro n hn hn' rfl
    rw [toNat_ofNat hn'] at hlt
    omega
  by_cases hone : c.toNat ≤ 127
  · rw [encodeChar_one hone, List.mem_singleton] at hb
    rw [hb, toNat_ofNat (by omega)]
  by_cases htwo : c.toNat ≤ 2047
  · rw [encodeChar_two (by omega) htwo] at hb
    simp only [List.mem_cons, List.not_mem_nil, or_false] at hb
    rcases hb with hb | hb
    · exact absurd hb (hmarked _ (by omega) (by omega))
    · exact absurd hb (hmarked _ (by omega) (by omega))
  by_cases hthree : c.toNat ≤ 65535
  · rw [encodeChar_three (by omega) hthree] at hb
    simp only [List.mem_cons, List.not_mem_nil, or_false] at hb
    rcases hb with hb | hb | hb
    · exact absurd hb (hmarked _ (by omega) (by omega))
    · exact absurd hb (hmarked _ (by omega) (by omega))
    · exact absurd hb (hmarked _ (by omega) (by omega))
  · rw [encodeChar_four (by omega)] at hb
    simp only [List.mem_cons, List.not_mem_nil, or_false] at hb
    rcases hb with hb | hb | hb | hb
    · exact absurd hb (hmarked _ (by omega) (by omega))
    · exact absurd hb (hmarked _ (by omega) (by omega))
    · exact absurd hb (hmarked _ (by omega) (by omega))
    · exact absurd hb (hmarked _ (by omega) (by omega))

/-- No byte of a character is zero, unless the character is. -/
private theorem ne_zero_of_mem_encodeChar {c : Char} (hc : c ≠ '\x00') {b : UInt8}
    (hb : b ∈ String.utf8EncodeChar c) : b ≠ 0 := by
  rintro rfl
  exact hc (Char.toNat_inj.mp (toNat_eq_of_mem_encodeChar hb (by decide)))

/-! ### Texts -/

/-- A text is read back from its bytes, wherever they stand. -/
theorem decodeFrom_encode (s : List Char) (start : Nat) : decodeFrom start (encode s) = .ok s := by
  induction s generalizing start with
  | nil => rfl
  | cons c s ih =>
    obtain ⟨n, hn⟩ := decodeFrom_encodeChar c start (encode s)
    rw [encode, List.flatMap_cons]
    exact hn.trans (by rw [ih]; rfl)

/-- A text is read back from its bytes, one character after the other (`decodeFrom_encodeChar`). -/
theorem decode_encode (s : List Char) : decode (encode s) = .ok s :=
  decodeFrom_encode s 0

/-- The bytes of a text without the zero character are not zero. -/
theorem ne_zero_of_mem_encode {s : List Char} (h : '\x00' ∉ s) {b : UInt8} (hb : b ∈ encode s) :
    b ≠ 0 := by
  obtain ⟨c, hc, hbc⟩ := List.mem_flatMap.mp hb
  have hne : c ≠ '\x00' := fun heq => h (heq ▸ hc)
  exact ne_zero_of_mem_encodeChar hne hbc

end BlobCache.Utf8
