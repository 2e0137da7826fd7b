import BlobCache.Proofs.Text.Utf8

/-!
# Well-formed UTF-8

A byte string is well formed when it is the UTF-8 of some text (`Utf8.WellFormed`). What can be read
as UTF-8 is exactly what is well formed: the text that is read has the bytes that were read
(`decode_eq_ok_iff`), one lemma for each length of a sequence, and where reading fails there is no
such text (`exists_decode_error_iff`).

A character below U+0080 has one byte, which stands for nothing else. So well-formed bytes can be
cut at such a byte, and both pieces are well formed (`exists_of_encode_eq_append`).
-/

namespace BlobCache.Utf8

/-- The bytes of some text. -/
def WellFormed (bytes : Bytes) : Prop :=
  ∃ text, bytes = encode text

/-! ### Sequences -/

private theorem toNat_of_isContinuation {b : UInt8} (h : isContinuation b = true) :
    128 ≤ b.toNat ∧ b.toNat ≤ 191 := by
  rw [isContinuation, Bool.and_eq_true, decide_eq_true_eq, decide_eq_true_eq] at h
  exact ⟨UInt8.le_iff_toNat_le.mp h.1, UInt8.le_iff_toNat_le.mp h.2⟩

/-- A second byte makes no overlong sequence, no surrogate and nothing beyond the last character. -/
private theorem toNat_of_isSecond {a b : UInt8} (h : isSecond a b = true) :
    128 ≤ b.toNat ∧ b.toNat ≤ 191 ∧ (a.toNat = 224 → 160 ≤ b.toNat) ∧
      (a.toNat = 237 → b.toNat ≤ 159) ∧ (a.toNat = 240 → 144 ≤ b.toNat) ∧
      (a.toNat = 244 → b.toNat ≤ 143) := by
  have hrange : ∀ low high : UInt8, (decide (low ≤ b) && decide (b ≤ high)) = true →
      low.toNat ≤ b.toNat ∧ b.toNat ≤ high.toNat := by
    intro low high hb
    rw [Bool.and_eq_true, decide_eq_true_eq, decide_eq_true_eq] at hb
    exact ⟨UInt8.le_iff_toNat_le.mp hb.1, UInt8.le_iff_toNat_le.mp hb.2⟩
  have hne : ∀ lead : UInt8, a ≠ lead → a.toNat ≠ lead.toNat := fun lead h heq =>
    h (UInt8.toNat_inj.mp heq)
  rw [isSecond] at h
  by_cases h0 : a = 0xE0
  · rw [if_pos h0] at h
    have hb : 160 ≤ b.toNat ∧ b.toNat ≤ 191 := hrange _ _ h
    have ha : a.toNat = 224 := congrArg UInt8.toNat h0
    omega
  rw [if_neg h0] at h
  have h0 : a.toNat ≠ 224 := hne _ h0
  by_cases hd : a = 0xED
  · rw [if_pos hd] at h
    have hb : 128 ≤ b.toNat ∧ b.toNat ≤ 159 := hrange _ _ h
    have ha : a.toNat = 237 := congrArg UInt8.toNat hd
    omega
  rw [if_neg hd] at h
  have hd : a.toNat ≠ 237 := hne _ hd
  by_cases hf : a = 0xF0
  · rw [if_pos hf] at h
    have hb : 144 ≤ b.toNat ∧ b.toNat ≤ 191 := hrange _ _ h
    have ha : a.toNat = 240 := congrArg UInt8.toNat hf
    omega
  rw [if_neg hf] at h
  have hf : a.toNat ≠ 240 := hne _ hf
  by_cases h4 : a = 0xF4
  · rw [if_pos h4] at h
    have hb : 128 ≤ b.toNat ∧ b.toNat ≤ 143 := hrange _ _ h
    have ha : a.toNat = 244 := congrArg UInt8.toNat h4
    omega
  rw [if_neg h4] at h
  have h4 : a.toNat ≠ 244 := hne _ h4
  have hb := toNat_of_isContinuation h
  omega

private theorem toNat_charOfNat {n : Nat} (h : n.isValidChar) : (Char.ofNat n).toNat = n := by
  rw [Char.ofNat, dif_pos h]
  rfl

/-! ### Characters -/

private theorem encodeChar_ofNat {a : UInt8} (ha : a.toNat < 128) :
    String.utf8EncodeChar (Char.ofNat a.toNat) = [a] := by
  have hchar := toNat_charOfNat (n := a.toNat) (.inl (by omega))
  rw [encodeChar_one (by omega), hchar, UInt8.ofNat_toNat]

private theorem encodeChar_char2 {a b : UInt8} (ha : 194 ≤ a.toNat) (ha' : a.toNat < 224)
    (hb : isContinuation b = true) : String.utf8EncodeChar (char2 a b) = [a, b] := by
  obtain ⟨hb, hb'⟩ := toNat_of_isContinuation hb
  have hvalid : (a.toNat % 32 * 64 + payload b).isValidChar := by
    rw [payload, Nat.isValidChar]
    omega
  have hchar : (char2 a b).toNat = a.toNat % 32 * 64 + payload b := toNat_charOfNat hvalid
  rw [payload] at hchar
  have h1 : (char2 a b).toNat / 64 % 32 + 192 = a.toNat := by omega
  have h2 : (char2 a b).toNat % 64 + 128 = b.toNat := by omega
  rw [encodeChar_two (by omega) (by omega), h1, h2, UInt8.ofNat_toNat, UInt8.ofNat_toNat]

private theorem encodeChar_char3 {a b c : UInt8} (ha : 224 ≤ a.toNat) (ha' : a.toNat < 240)
    (hb : isSecond a b = true) (hc : isContinuation c = true) :
    String.utf8EncodeChar (char3 a b c) = [a, b, c] := by
  obtain ⟨hb, hb', hE0, hED, -, -⟩ := toNat_of_isSecond hb
  obtain ⟨hc, hc'⟩ := toNat_of_isContinuation hc
  have hvalid : ((a.toNat % 16 * 64 + payload b) * 64 + payload c).isValidChar := by
    rw [payload, payload, Nat.isValidChar]
    omega
  have hchar : (char3 a b c).toNat = (a.toNat % 16 * 64 + payload b) * 64 + payload c :=
    toNat_charOfNat hvalid
  rw [payload, payload] at hchar
  have h1 : (char3 a b c).toNat / 4096 % 16 + 224 = a.toNat := by omega
  have h2 : (char3 a b c).toNat / 64 % 64 + 128 = b.toNat := by omega
  have h3 : (char3 a b c).toNat % 64 + 128 = c.toNat := by omega
  rw [encodeChar_three (by omega) (by omega), h1, h2, h3, UInt8.ofNat_toNat, UInt8.ofNat_toNat,
    UInt8.ofNat_toNat]

private theorem encodeChar_char4 {a b c d : UInt8} (ha : 240 ≤ a.toNat) (ha' : a.toNat ≤ 244)
    (hb : isSecond a b = true) (hc : isContinuation c = true) (hd : isContinuation d = true) :
    String.utf8EncodeChar (char4 a b c d) = [a, b, c, d] := by
  obtain ⟨hb, hb', -, -, hF0, hF4⟩ := toNat_of_isSecond hb
  obtain ⟨hc, hc'⟩ := toNat_of_isContinuation hc
  obtain ⟨hd, hd'⟩ := toNat_of_isContinuation hd
  have hvalid :
      (((a.toNat % 8 * 64 + payload b) * 64 + payload c) * 64 + payload d).isValidChar := by
    rw [payload, payload, payload, Nat.isValidChar]
    omega
  have hchar : (char4 a b c d).toNat =
      ((a.toNat % 8 * 64 + payload b) * 64 + payload c) * 64 + payload d :=
    toNat_charOfNat hvalid
  rw [payload, payload, payload] at hchar
  have h1 : (char4 a b c d).toNat / 262144 % 8 + 240 = a.toNat := by omega
  have h2 : (char4 a b c d).toNat / 4096 % 64 + 128 = b.toNat := by omega
  have h3 : (char4 a b c d).toNat / 64 % 64 + 128 = c.toNat := by omega
  have h4 : (char4 a b c d).toNat % 64 + 128 = d.toNat := by omega
  rw [encodeChar_four (by omega), h1, h2, h3, h4, UInt8.ofNat_toNat, UInt8.ofNat_toNat,
    UInt8.ofNat_toNat, UInt8.ofNat_toNat]

/-! ### Texts -/

/-- A character in front of a text has its bytes in front of those of the text. -/
theorem encode_cons (c : Char) (s : List Char) :
    encode (c :: s) = String.utf8EncodeChar c ++ encode s := by
  rw [encode, List.flatMap_cons]
  rfl

theorem encode_append (s t : List Char) : encode (s ++ t) = encode s ++ encode t :=
  List.flatMap_append

/-- What is read behind a character that was read from its bytes. -/
private theorem encode_of_map_cons {c : Char} {s : List Char} {rest : Bytes}
    {x : Except Fault (List Char)} (hx : x.map (c :: ·) = .ok s)
    (hrest : ∀ {t}, x = .ok t → encode t = rest) :
    encode s = String.utf8EncodeChar c ++ rest := by
  cases x with
  | error fault => cases hx
  | ok t =>
    cases hx
    rw [encode_cons, hrest rfl]

/-- A text that is read has the bytes from which it is read. -/
theorem encode_of_decodeFrom {start : Nat} {bytes : Bytes} {s : List Char}
    (h : decodeFrom start bytes = .ok s) : encode s = bytes := by
  have hge : ∀ {a b : UInt8}, ¬a < b → b.toNat ≤ a.toNat := fun h =>
    Nat.le_of_not_lt fun hlt => h (UInt8.lt_iff_toNat_lt.mpr hlt)
  have hlead : ∀ {a : UInt8}, ¬(a < 194 ∨ 244 < a) → 194 ≤ a.toNat ∧ a.toNat ≤ 244 := fun h =>
    ⟨hge fun hlt => h (.inl hlt), hge fun hlt => h (.inr hlt)⟩
  -- the other cases are those in which reading fails
  fun_induction decodeFrom start bytes generalizing s with
  | case1 =>
    cases h
    rfl
  | case2 start a rest ha ih =>
    rw [encode_of_map_cons h ih, encodeChar_ofNat (UInt8.lt_iff_toNat_lt.mp ha)]
    rfl
  | case5 start a _ ha b rest ha' hb ih =>
    have hlt : a.toNat < 224 := UInt8.lt_iff_toNat_lt.mp ha'
    rw [encode_of_map_cons h ih, encodeChar_char2 (hlead ha).1 hlt hb]
    rfl
  | case10 start a _ ha b ha' hb c rest hc ha'' ih =>
    have hlt : a.toNat < 240 := UInt8.lt_iff_toNat_lt.mp ha''
    rw [encode_of_map_cons h ih, encodeChar_char3 (hge ha') hlt (by simpa using hb)
      (by simpa using hc)]
    rfl
  | case12 start a _ ha b ha' hb c hc ha'' d rest hd ih =>
    rw [encode_of_map_cons h ih, encodeChar_char4 (hge ha'') (hlead ha).2 (by simpa using hb)
      (by simpa using hc) hd]
    rfl
  | _ => cases h

/-- What is read is the text of which these are the bytes. One direction is `decode_encode`; for the
other, each character that is read has the bytes that were read (`encode_of_decodeFrom`). -/
theorem decode_eq_ok_iff {bytes : Bytes} {s : List Char} :
    decode bytes = .ok s ↔ bytes = encode s := by
  constructor
  · intro h
    exact (encode_of_decodeFrom h).symm
  · rintro rfl
    exact decode_encode s

theorem encode_injective : Function.Injective encode := by
  intro s t h
  exact Except.ok.inj ((decode_eq_ok_iff.mpr rfl).symm.trans (decode_eq_ok_iff.mpr h))

/-- Reading fails exactly on bytes that are not well formed. -/
theorem exists_decode_error_iff {bytes : Bytes} :
    (∃ fault, decode bytes = .error fault) ↔ ¬WellFormed bytes := by
  cases h : decode bytes with
  | ok text =>
    refine iff_of_false (fun ⟨_, hfault⟩ => nomatch hfault) (not_not_intro ?_)
    exact ⟨text, decode_eq_ok_iff.mp h⟩
  | error fault =>
    refine iff_of_true ⟨fault, rfl⟩ ?_
    rintro ⟨text, htext⟩
    rw [decode_eq_ok_iff.mpr htext] at h
    cases h

/-- Where a text has the byte of a character below U+0080, it has the character, between the texts
of the bytes before and after it. -/
theorem exists_of_encode_eq_append {s : List Char} {c : Char} (hc : c.toNat < 128)
    {before after : Bytes} (h : encode s = before ++ UInt8.ofNat c.toNat :: after) :
    ∃ s₁ s₂, s = s₁ ++ c :: s₂ ∧ encode s₁ = before ∧ encode s₂ = after := by
  have hbyte : (UInt8.ofNat c.toNat).toNat = c.toNat := toNat_ofNat (by omega)
  induction s generalizing before with
  | nil => exact absurd h.symm (List.append_ne_nil_of_right_ne_nil _ (List.cons_ne_nil _ _))
  | cons d s ih =>
    rw [encode_cons] at h
    by_cases hd : d = c
    · subst hd
      rw [encodeChar_one (by omega), List.singleton_append] at h
      cases before with
      | nil => exact ⟨[], s, rfl, rfl, (List.cons.inj h).2⟩
      | cons b before =>
        obtain ⟨rfl, hrest⟩ := List.cons.inj h
        obtain ⟨s₁, s₂, rfl, rfl, rfl⟩ := ih hrest
        refine ⟨d :: s₁, s₂, rfl, ?_, rfl⟩
        rw [encode_cons, encodeChar_one (by omega), List.singleton_append]
    · -- the byte is none of another character, so it comes behind this one
      have hnot : UInt8.ofNat c.toNat ∉ String.utf8EncodeChar d := fun hmem => by
        have hnat := toNat_eq_of_mem_encodeChar hmem (by omega)
        exact hd (Char.toNat_inj.mp (hnat.trans hbyte))
      obtain ⟨more, rfl, hrest⟩ | ⟨more, hmore, hrest⟩ := List.append_eq_append_iff.mp h
      · obtain ⟨s₁, s₂, rfl, rfl, rfl⟩ := ih hrest
        exact ⟨d :: s₁, s₂, rfl, encode_cons d s₁, rfl⟩
      · cases more with
        | nil =>
          have hhead : encode s = [] ++ UInt8.ofNat c.toNat :: after := hrest.symm
          obtain ⟨s₁, s₂, rfl, h₁, rfl⟩ := ih hhead
          refine ⟨d :: s₁, s₂, rfl, ?_, rfl⟩
          rw [encode_cons, h₁, hmore, List.append_nil, List.append_nil]
        | cons b more =>
          obtain ⟨rfl, -⟩ := List.cons.inj hrest
          rw [hmore] at hnot
          exact absurd (List.mem_append_right _ List.mem_cons_self) hnot

end BlobCache.Utf8
