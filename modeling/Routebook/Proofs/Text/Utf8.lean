/-
  Routebook.Proofs.Text.Utf8

  A text that is written as bytes is read back as it was, up to its line ends
  (`ofBytes_toUTF8`); a text without carriage returns is read back unchanged.
-/
import Routebook.Text.Utf8

namespace Routebook.Text

/-! ## Bytes of one character -/

theorem maySecond_of {b c : UInt8} (hc : isContinuation c = true)
    (hE0 : b.toNat = 0xE0 → 0xA0 ≤ c.toNat) (hED : b.toNat = 0xED → c.toNat < 0xA0)
    (hF0 : b.toNat = 0xF0 → 0x90 ≤ c.toNat) (hF4 : b.toNat = 0xF4 → c.toNat < 0x90) :
    maySecond b c = true := by
  unfold maySecond
  rw [hc, Bool.true_and]
  split
  · next h => exact decide_eq_true (hE0 h)
  · next h => exact decide_eq_true (hED h)
  · next h => exact decide_eq_true (hF0 h)
  · next h => exact decide_eq_true (hF4 h)
  · rfl

theorem decodeFirst_one {b : UInt8} (h : b.toNat < 0x80) (rest : List UInt8) :
    decodeFirst b rest = .char (Char.ofNat b.toNat) rest := by
  simp [decodeFirst, h]

theorem decodeFirst_two {b c : UInt8} (h₁ : 0xC2 ≤ b.toNat) (h₂ : b.toNat < 0xE0)
    (hc : isContinuation c = true) (rest : List UInt8) :
    decodeFirst b (c :: rest) = .char (Char.ofNat ((b.toNat - 0xC0) * 64 + payload c)) rest := by
  have hsecond : maySecond b c = true := maySecond_of hc (by omega) (by omega) (by omega) (by omega)
  have h80 : ¬ b.toNat < 0x80 := by omega
  have hC2 : ¬ b.toNat < 0xC2 := by omega
  have hF4 : ¬ 0xF4 < b.toNat := by omega
  simp [decodeFirst, h80, hC2, hF4, hsecond, h₂]

theorem decodeFirst_three {b c d : UInt8} (h₁ : 0xE0 ≤ b.toNat) (h₂ : b.toNat < 0xF0)
    (hsecond : maySecond b c = true) (hd : isContinuation d = true) (rest : List UInt8) :
    decodeFirst b (c :: d :: rest) =
      .char (Char.ofNat (((b.toNat - 0xE0) * 64 + payload c) * 64 + payload d)) rest := by
  have h80 : ¬ b.toNat < 0x80 := by omega
  have hC2 : ¬ b.toNat < 0xC2 := by omega
  have hF4 : ¬ 0xF4 < b.toNat := by omega
  have hE0 : ¬ b.toNat < 0xE0 := by omega
  simp [decodeFirst, h80, hC2, hF4, hE0, hsecond, hd, h₂]

theorem decodeFirst_four {b c d e : UInt8} (h₁ : 0xF0 ≤ b.toNat) (h₂ : b.toNat ≤ 0xF4)
    (hsecond : maySecond b c = true) (hd : isContinuation d = true)
    (he : isContinuation e = true) (rest : List UInt8) :
    decodeFirst b (c :: d :: e :: rest) =
      .char (Char.ofNat
        ((((b.toNat - 0xF0) * 64 + payload c) * 64 + payload d) * 64 + payload e)) rest := by
  have h80 : ¬ b.toNat < 0x80 := by omega
  have hC2 : ¬ b.toNat < 0xC2 := by omega
  have hF4 : ¬ 0xF4 < b.toNat := by omega
  have hE0 : ¬ b.toNat < 0xE0 := by omega
  have hF0 : ¬ b.toNat < 0xF0 := by omega
  simp [decodeFirst, h80, hC2, hF4, hE0, hF0, hsecond, hd, he]

/-- A byte that continues a character, by its payload. -/
theorem continuation_ofNat (n : Nat) :
    isContinuation (UInt8.ofNat (n % 64 + 0x80)) = true ∧
      (UInt8.ofNat (n % 64 + 0x80)).toNat = n % 64 + 0x80 ∧
      payload (UInt8.ofNat (n % 64 + 0x80)) = n % 64 := by
  have hval : (UInt8.ofNat (n % 64 + 0x80)).toNat = n % 64 + 0x80 := by
    rw [UInt8.toNat_ofNat']
    omega
  refine ⟨?_, hval, ?_⟩
  · simp only [isContinuation, hval, Bool.and_eq_true, decide_eq_true_eq]
    omega
  · simp only [payload, hval]
    omega

theorem toNat_ofNat_of_lt {n : Nat} (h : n < 256) : (UInt8.ofNat n).toNat = n := by
  rw [UInt8.toNat_ofNat']
  omega

/-! ## One character of each length

Lead bytes carry the top bits of a character, so their marks can be
subtracted; the remainders that the encoder takes change nothing in range. -/

theorem decodeFirst_encoded_two {c : Char} (hlow : 0x7f < c.toNat) (hhigh : c.toNat ≤ 0x7ff)
    (rest : List UInt8) :
    decodeFirst (UInt8.ofNat (c.toNat / 64 % 0x20 + 0xc0))
      (UInt8.ofNat (c.toNat % 64 + 0x80) :: rest) = .char c rest := by
  obtain ⟨hlast, -, hpayload⟩ := continuation_ofNat c.toNat
  have hb : (UInt8.ofNat (c.toNat / 64 % 0x20 + 0xc0)).toNat = c.toNat / 64 + 0xc0 := by
    rw [toNat_ofNat_of_lt (by omega)]
    omega
  have hcode : (c.toNat / 64 + 0xc0 - 0xC0) * 64 + c.toNat % 64 = c.toNat := by omega
  rw [decodeFirst_two (by omega) (by omega) hlast rest, hb, hpayload, hcode, Char.ofNat_toNat]

theorem decodeFirst_encoded_three {c : Char} (hlow : 0x7ff < c.toNat) (hhigh : c.toNat ≤ 0xffff)
    (rest : List UInt8) :
    decodeFirst (UInt8.ofNat (c.toNat / 4096 % 0x10 + 0xe0))
      (UInt8.ofNat (c.toNat / 64 % 64 + 0x80) :: UInt8.ofNat (c.toNat % 64 + 0x80) :: rest)
      = .char c rest := by
  have hvalid : c.toNat < 0xD800 ∨ (0xDFFF < c.toNat ∧ c.toNat < 0x110000) := c.valid
  obtain ⟨hthird, hbyte, hpayload⟩ := continuation_ofNat (c.toNat / 64)
  obtain ⟨hlast, -, hpayload'⟩ := continuation_ofNat c.toNat
  have hb : (UInt8.ofNat (c.toNat / 4096 % 0x10 + 0xe0)).toNat = c.toNat / 4096 + 0xe0 := by
    rw [toNat_ofNat_of_lt (by omega)]
    omega
  -- After the lead byte 0xE0 stands no short form, after 0xED no half of a pair.
  have hmay : maySecond (UInt8.ofNat (c.toNat / 4096 % 0x10 + 0xe0))
      (UInt8.ofNat (c.toNat / 64 % 64 + 0x80)) = true := by
    apply maySecond_of hthird <;> rw [hb, hbyte] <;> omega
  have hcode : ((c.toNat / 4096 + 0xe0 - 0xE0) * 64 + c.toNat / 64 % 64) * 64 + c.toNat % 64
      = c.toNat := by omega
  rw [decodeFirst_three (by omega) (by omega) hmay hlast rest, hb, hpayload, hpayload', hcode,
    Char.ofNat_toNat]

theorem decodeFirst_encoded_four {c : Char} (hlow : 0xffff < c.toNat) (rest : List UInt8) :
    decodeFirst (UInt8.ofNat (c.toNat / 262144 % 0x08 + 0xf0))
      (UInt8.ofNat (c.toNat / 4096 % 64 + 0x80) :: UInt8.ofNat (c.toNat / 64 % 64 + 0x80) ::
        UInt8.ofNat (c.toNat % 64 + 0x80) :: rest) = .char c rest := by
  have hvalid : c.toNat < 0xD800 ∨ (0xDFFF < c.toNat ∧ c.toNat < 0x110000) := c.valid
  obtain ⟨hsecond, hbyte, hpayload⟩ := continuation_ofNat (c.toNat / 4096)
  obtain ⟨hthird, -, hpayload'⟩ := continuation_ofNat (c.toNat / 64)
  obtain ⟨hlast, -, hpayload''⟩ := continuation_ofNat c.toNat
  have hb : (UInt8.ofNat (c.toNat / 262144 % 0x08 + 0xf0)).toNat = c.toNat / 262144 + 0xf0 := by
    rw [toNat_ofNat_of_lt (by omega)]
    omega
  -- After 0xF0 stands no short form, and 0xF4 is the last lead byte in range.
  have hmay : maySecond (UInt8.ofNat (c.toNat / 262144 % 0x08 + 0xf0))
      (UInt8.ofNat (c.toNat / 4096 % 64 + 0x80)) = true := by
    apply maySecond_of hsecond <;> rw [hb, hbyte] <;> omega
  have hcode : (((c.toNat / 262144 + 0xf0 - 0xF0) * 64 + c.toNat / 4096 % 64) * 64
      + c.toNat / 64 % 64) * 64 + c.toNat % 64 = c.toNat := by omega
  rw [decodeFirst_four (by omega) (by omega) hmay hthird hlast rest, hb, hpayload, hpayload',
    hpayload'', hcode, Char.ofNat_toNat]

/-- The bytes of a character are read as that character, whatever follows. -/
theorem decodeFirst_utf8EncodeChar (c : Char) :
    ∃ b more, String.utf8EncodeChar c = b :: more ∧
      ∀ rest, decodeFirst b (more ++ rest) = .char c rest := by
  have hval : c.val.toNat = c.toNat := rfl
  unfold String.utf8EncodeChar
  simp only [hval]
  -- One case for each length that the bytes of a character can have.
  split
  · next h1 =>
      refine ⟨_, _, rfl, fun rest => ?_⟩
      have hb : (UInt8.ofNat c.toNat).toNat = c.toNat := toNat_ofNat_of_lt (by omega)
      rw [decodeFirst_one (by omega), hb, Char.ofNat_toNat]
      rfl
  · next h1 =>
      split
      · next h2 => exact ⟨_, _, rfl, decodeFirst_encoded_two (by omega) h2⟩
      · next h2 =>
          split
          · next h3 => exact ⟨_, _, rfl, decodeFirst_encoded_three (by omega) h3⟩
          · next h3 => exact ⟨_, _, rfl, decodeFirst_encoded_four (by omega)⟩

/-! ## All characters -/

theorem length_le_length_utf8Encode (cs : List Char) :
    cs.length ≤ (cs.flatMap String.utf8EncodeChar).length := by
  induction cs with
  | nil => exact Nat.le_refl 0
  | cons c cs ih =>
      have hone : 0 < (String.utf8EncodeChar c).length :=
        List.length_pos_iff.mpr String.utf8EncodeChar_ne_nil
      rw [List.flatMap_cons, List.length_append, List.length_cons]
      omega

theorem decodeStrict_utf8Encode (fuel position : Nat) (acc cs : List Char)
    (h : cs.length ≤ fuel) :
    decodeStrict fuel position acc (cs.flatMap String.utf8EncodeChar)
      = .ok (acc.reverse ++ cs) := by
  induction cs generalizing fuel position acc with
  | nil =>
      rw [List.append_nil]
      cases fuel <;> rfl
  | cons c cs ih =>
      obtain ⟨b, more, hbytes, hfirst⟩ := decodeFirst_utf8EncodeChar c
      -- A character takes one unit of fuel, however many bytes it has.
      obtain ⟨fuel, rfl⟩ : ∃ n, fuel = n + 1 := ⟨fuel - 1, by simp at h; omega⟩
      rw [List.flatMap_cons, hbytes, List.cons_append, decodeStrict, hfirst]
      refine (ih fuel (position + c.utf8Size) (c :: acc) (by simpa using h)).trans ?_
      rw [List.reverse_cons, List.append_assoc, List.singleton_append]

/-! ## Texts -/

/-- The bytes from a place on, behind those that were taken before. -/
theorem toList_loop (bytes : ByteArray) (i : Nat) (acc : List UInt8) :
    ByteArray.toList.loop bytes i acc = acc.reverse ++ bytes.data.toList.drop i := by
  fun_induction ByteArray.toList.loop bytes i acc with
  | case1 i acc hi ih =>
      have hlt : i < bytes.data.toList.length := hi
      rw [ih, List.drop_eq_getElem_cons hlt, List.reverse_cons, List.append_assoc]
      simp [ByteArray.get!, hi]
  | case2 i acc hi =>
      rw [List.drop_eq_nil_of_le (Nat.le_of_not_lt hi), List.append_nil]

theorem toList_toUTF8 (s : String) :
    s.toUTF8.toList = s.toList.flatMap String.utf8EncodeChar := by
  have hbytes : s.toUTF8 = (s.toList.flatMap String.utf8EncodeChar).toByteArray := by
    rw [String.toUTF8_eq_toByteArray, ← String.utf8Encode_toList]
    rfl
  rw [hbytes, ByteArray.toList, toList_loop, List.toList_data_toByteArray]
  rfl

/-- A text that is written as bytes is read with single line ends. -/
theorem ofBytes_toUTF8 (s : String) :
    ofBytes s.toUTF8 = .ok (String.ofList (singleLineEnds s.toList)) := by
  have hfuel : s.toList.length ≤ s.toUTF8.size := by
    have hsize : s.toUTF8.size = s.toUTF8.toList.length := by
      rw [ByteArray.toList, toList_loop]
      rfl
    rw [hsize, toList_toUTF8]
    exact length_le_length_utf8Encode s.toList
  unfold ofBytes
  rw [toList_toUTF8, decodeStrict_utf8Encode _ _ _ _ hfuel]
  rfl

/-- Without carriage returns there is nothing to change about line ends. -/
theorem singleLineEnds_eq_self {cs : List Char} (h : '\r' ∉ cs) : singleLineEnds cs = cs := by
  induction cs with
  | nil => rfl
  | cons c cs ih =>
      rw [List.mem_cons, not_or] at h
      rw [singleLineEnds, ih h.2]
      · exact fun _ hc _ => h.1 hc.symm
      · exact fun hc => h.1 hc.symm

theorem ofBytes_toUTF8_of_not_mem {s : String} (h : '\r' ∉ s.toList) :
    ofBytes s.toUTF8 = .ok s := by
  rw [ofBytes_toUTF8, singleLineEnds_eq_self h, String.ofList_toList]

/-! ## Lenient reading -/

theorem decodeLenient_of_decodeStrict {fuel position : Nat} {acc cs : List Char}
    {bytes : List UInt8} (h : decodeStrict fuel position acc bytes = .ok cs) :
    decodeLenient fuel acc bytes = cs := by
  fun_induction decodeStrict fuel position acc bytes with
  | case1 | case2 => simpa [decodeLenient] using h
  | case3 => exact absurd h nofun
  | case4 fuel position acc b more c rest hfirst ih =>
      rw [decodeLenient, hfirst]
      exact ih h

/-- Bytes that are a text are read leniently as that text. -/
theorem ofBytesLenient_of_ofBytes {bytes : ByteArray} {text : String}
    (h : ofBytes bytes = .ok text) : ofBytesLenient bytes = text := by
  unfold ofBytes at h
  unfold ofBytesLenient
  cases hcs : decodeStrict bytes.size 0 [] bytes.toList with
  | error why => exact absurd (hcs ▸ h) nofun
  | ok cs =>
      rw [hcs] at h
      rw [decodeLenient_of_decodeStrict hcs]
      exact Except.ok.inj h

end Routebook.Text
