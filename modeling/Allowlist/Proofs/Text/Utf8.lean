import Allowlist.Text.Utf8

/-!
# Decoding what was encoded

The bytes of a character are read back as that character, whatever follows them. The decoder is
first restated with its tests on numbers, one equation for each length of a sequence.
-/
namespace Allowlist.Utf8

theorem isTail_iff (b : UInt8) : isTail b = true ↔ 0x80 ≤ b.toNat ∧ b.toNat ≤ 0xBF := by
  simp only [isTail, Bool.and_eq_true, decide_eq_true_eq, UInt8.le_iff_toNat_le]
  rfl

theorem toNat_tail (n : Nat) : (tail n).toNat = 0x80 + n % 0x40 := by
  simp only [tail, UInt8.toNat_ofNat']
  omega

theorem isTail_tail (n : Nat) : isTail (tail n) = true := by
  rw [isTail_iff, toNat_tail]
  omega

/-- What `isSecond` demands beyond a tail, by the number of the first byte. -/
def SecondOk (a b : Nat) : Prop :=
  (a = 0xE0 → 0xA0 ≤ b) ∧ (a = 0xED → b < 0xA0) ∧ (a = 0xF0 → 0x90 ≤ b) ∧ (a = 0xF4 → b < 0x90)

theorem isSecond_of_isTail {a b : UInt8} (hb : isTail b = true)
    (h : SecondOk a.toNat b.toNat) : isSecond a b = true := by
  obtain ⟨h0, hd, hf, h4⟩ := h
  simp only [isSecond, hb, Bool.true_and]
  split
  · next he => subst he; exact decide_eq_true (UInt8.le_iff_toNat_le.mpr (h0 rfl))
  split
  · next he => subst he; exact decide_eq_true (UInt8.lt_iff_toNat_lt.mpr (hd rfl))
  split
  · next he => subst he; exact decide_eq_true (UInt8.le_iff_toNat_le.mpr (hf rfl))
  split
  · next he => subst he; exact decide_eq_true (UInt8.lt_iff_toNat_lt.mpr (h4 rfl))
  rfl

section Sequences

variable (pos : Nat) {a b c d : UInt8} (rest : Bytes)

theorem decodeFrom_one (ha : a.toNat < 0x80) :
    decodeFrom pos (a :: rest) = (assemble 0 a [] :: ·) <$> decodeFrom (pos + 1) rest := by
  have h₁ : a < 0x80 := UInt8.lt_iff_toNat_lt.mpr ha
  rw [decodeFrom.eq_def]
  simp only [h₁, ↓reduceIte]

theorem decodeFrom_two (ha : 0xC2 ≤ a.toNat) (ha' : a.toNat < 0xE0) (hb : isTail b = true) :
    decodeFrom pos (a :: b :: rest) =
      (assemble 0xC0 a [b] :: ·) <$> decodeFrom (pos + 2) rest := by
  have h₁ : ¬a < 0x80 := by simp [UInt8.lt_iff_toNat_lt]; omega
  have h₂ : ¬a < 0xC2 := by simp [UInt8.lt_iff_toNat_lt]; omega
  have h₃ : a < 0xE0 := UInt8.lt_iff_toNat_lt.mpr ha'
  rw [decodeFrom.eq_def]
  simp only [h₁, h₂, h₃, hb, ↓reduceIte]

theorem decodeFrom_three (ha : 0xE0 ≤ a.toNat) (ha' : a.toNat < 0xF0)
    (hb : isSecond a b = true) (hc : isTail c = true) :
    decodeFrom pos (a :: b :: c :: rest) =
      (assemble 0xE0 a [b, c] :: ·) <$> decodeFrom (pos + 3) rest := by
  have h₁ : ¬a < 0x80 := by simp [UInt8.lt_iff_toNat_lt]; omega
  have h₂ : ¬a < 0xC2 := by simp [UInt8.lt_iff_toNat_lt]; omega
  have h₃ : ¬a < 0xE0 := by simp [UInt8.lt_iff_toNat_lt]; omega
  have h₄ : a < 0xF0 := UInt8.lt_iff_toNat_lt.mpr ha'
  rw [decodeFrom.eq_def]
  simp only [h₁, h₂, h₃, h₄, hb, hc, ↓reduceIte, Bool.not_true, Bool.false_eq_true]

theorem decodeFrom_four (ha : 0xF0 ≤ a.toNat) (ha' : a.toNat < 0xF5)
    (hb : isSecond a b = true) (hc : isTail c = true) (hd : isTail d = true) :
    decodeFrom pos (a :: b :: c :: d :: rest) =
      (assemble 0xF0 a [b, c, d] :: ·) <$> decodeFrom (pos + 4) rest := by
  have h₁ : ¬a < 0x80 := by simp [UInt8.lt_iff_toNat_lt]; omega
  have h₂ : ¬a < 0xC2 := by simp [UInt8.lt_iff_toNat_lt]; omega
  have h₃ : ¬a < 0xE0 := by simp [UInt8.lt_iff_toNat_lt]; omega
  have h₄ : ¬a < 0xF0 := by simp [UInt8.lt_iff_toNat_lt]; omega
  have h₅ : a < 0xF5 := UInt8.lt_iff_toNat_lt.mpr ha'
  rw [decodeFrom.eq_def]
  simp only [h₁, h₂, h₃, h₄, h₅, hb, hc, hd, ↓reduceIte, Bool.not_true, Bool.false_eq_true]

end Sequences

theorem not_surrogate (c : Char) : c.toNat < 0xD800 ∨ 0xDFFF < c.toNat := by
  have h : c.toNat < 0xd800 ∨ 0xdfff < c.toNat ∧ c.toNat < 0x110000 := c.valid
  omega

theorem assemble_eq {lead : Nat} {a : UInt8} {tails : Bytes} {c : Char}
    (h : tails.foldl (fun n b => n * 0x40 + (b.toNat - 0x80)) (a.toNat - lead) = c.toNat) :
    assemble lead a tails = c := by
  rw [assemble, h, Char.ofNat_toNat]

section Characters

variable (pos : Nat) (c : Char) (rest : Bytes)

theorem decodeFrom_char_one (h : c.toNat < 0x80) :
    decodeFrom pos (.ofNat c.toNat :: rest) = (c :: ·) <$> decodeFrom (pos + 1) rest := by
  have ha : (UInt8.ofNat c.toNat).toNat = c.toNat := by rw [UInt8.toNat_ofNat']; omega
  have he : assemble 0 (.ofNat c.toNat) [] = c := assemble_eq (by simp [ha])
  rw [decodeFrom_one _ _ (by omega), he]

theorem decodeFrom_char_two (h : 0x80 ≤ c.toNat) (h' : c.toNat < 0x800) :
    decodeFrom pos (.ofNat (0xC0 + c.toNat / 0x40) :: tail c.toNat :: rest) =
      (c :: ·) <$> decodeFrom (pos + 2) rest := by
  have ha : (UInt8.ofNat (0xC0 + c.toNat / 0x40)).toNat = 0xC0 + c.toNat / 0x40 := by
    rw [UInt8.toNat_ofNat']; omega
  have he : assemble 0xC0 (.ofNat (0xC0 + c.toNat / 0x40)) [tail c.toNat] = c := by
    refine assemble_eq ?_
    simp only [List.foldl_cons, List.foldl_nil, toNat_tail, ha]
    omega
  rw [decodeFrom_two _ _ (by omega) (by omega) (isTail_tail _), he]

theorem decodeFrom_char_three (h : 0x800 ≤ c.toNat) (h' : c.toNat < 0x10000) :
    decodeFrom pos (.ofNat (0xE0 + c.toNat / 0x1000) :: tail (c.toNat / 0x40) ::
      tail c.toNat :: rest) = (c :: ·) <$> decodeFrom (pos + 3) rest := by
  have hs := not_surrogate c
  have ha : (UInt8.ofNat (0xE0 + c.toNat / 0x1000)).toNat = 0xE0 + c.toNat / 0x1000 := by
    rw [UInt8.toNat_ofNat']; omega
  have he : assemble 0xE0 (.ofNat (0xE0 + c.toNat / 0x1000))
      [tail (c.toNat / 0x40), tail c.toNat] = c := by
    refine assemble_eq ?_
    simp only [List.foldl_cons, List.foldl_nil, toNat_tail, ha]
    omega
  have hb : isSecond (.ofNat (0xE0 + c.toNat / 0x1000)) (tail (c.toNat / 0x40)) = true := by
    refine isSecond_of_isTail (isTail_tail _) ?_
    rw [ha, toNat_tail, SecondOk]
    omega
  rw [decodeFrom_three _ _ (by omega) (by omega) hb (isTail_tail _), he]

theorem decodeFrom_char_four (h : 0x10000 ≤ c.toNat) :
    decodeFrom pos (.ofNat (0xF0 + c.toNat / 0x40000) :: tail (c.toNat / 0x1000) ::
      tail (c.toNat / 0x40) :: tail c.toNat :: rest) =
        (c :: ·) <$> decodeFrom (pos + 4) rest := by
  have hlt := CodePoint.toNat_lt c
  have ha : (UInt8.ofNat (0xF0 + c.toNat / 0x40000)).toNat = 0xF0 + c.toNat / 0x40000 := by
    rw [UInt8.toNat_ofNat']; omega
  have he : assemble 0xF0 (.ofNat (0xF0 + c.toNat / 0x40000))
      [tail (c.toNat / 0x1000), tail (c.toNat / 0x40), tail c.toNat] = c := by
    refine assemble_eq ?_
    simp only [List.foldl_cons, List.foldl_nil, toNat_tail, ha]
    omega
  have hb : isSecond (.ofNat (0xF0 + c.toNat / 0x40000)) (tail (c.toNat / 0x1000)) = true := by
    refine isSecond_of_isTail (isTail_tail _) ?_
    rw [ha, toNat_tail, SecondOk]
    omega
  rw [decodeFrom_four _ _ (by omega) (by omega) hb (isTail_tail _) (isTail_tail _), he]

/-- The bytes of one character are read as that character. -/
theorem decodeFrom_encodeChar : decodeFrom pos (encodeChar c ++ rest) =
    (c :: ·) <$> decodeFrom (pos + (encodeChar c).length) rest := by
  simp only [encodeChar]
  split
  · next h => exact decodeFrom_char_one pos c rest h
  split
  · next h h' => exact decodeFrom_char_two pos c rest (by omega) h'
  split
  · next h h' => exact decodeFrom_char_three pos c rest (by omega) h'
  · next h => exact decodeFrom_char_four pos c rest (by omega)

end Characters

theorem decodeFrom_encode (pos : Nat) (cs : List Char) : decodeFrom pos (encode cs) = .ok cs := by
  induction cs generalizing pos with
  | nil => rfl
  | cons c cs ih =>
    rw [encode_cons, decodeFrom_encodeChar, ih]
    rfl

theorem decode_encode (cs : List Char) : decode (encode cs) = .ok cs := decodeFrom_encode 0 cs

theorem encode_injective {cs ds : List Char} (h : encode cs = encode ds) : cs = ds := by
  have hc := decode_encode cs
  rw [h, decode_encode] at hc
  exact (Except.ok.inj hc).symm

/-- Only an ASCII character has a byte of its own; all other bytes are beyond ASCII. -/
theorem toNat_of_mem_encodeChar {c : Char} {b : UInt8} (h : b ∈ encodeChar c) :
    b.toNat = c.toNat ∨ 0x80 ≤ b.toNat := by
  have hlt := CodePoint.toNat_lt c
  simp only [encodeChar] at h
  split at h
  · obtain rfl := List.mem_singleton.mp h
    left
    rw [UInt8.toNat_ofNat']
    omega
  right
  split at h
  · simp only [List.mem_cons, List.not_mem_nil, or_false] at h
    rcases h with rfl | rfl
    · rw [UInt8.toNat_ofNat']; omega
    · rw [toNat_tail]; omega
  split at h
  · simp only [List.mem_cons, List.not_mem_nil, or_false] at h
    rcases h with rfl | rfl | rfl
    · rw [UInt8.toNat_ofNat']; omega
    · rw [toNat_tail]; omega
    · rw [toNat_tail]; omega
  · simp only [List.mem_cons, List.not_mem_nil, or_false] at h
    rcases h with rfl | rfl | rfl | rfl
    · rw [UInt8.toNat_ofNat']; omega
    · rw [toNat_tail]; omega
    · rw [toNat_tail]; omega
    · rw [toNat_tail]; omega

/-- Text without control characters has bytes without them. -/
theorem blank_le_of_mem_encode {cs : List Char} (h : ∀ c ∈ cs, 0x20 ≤ c.toNat) {b : UInt8}
    (hb : b ∈ encode cs) : 0x20 ≤ b := by
  obtain ⟨c, hc, hb⟩ := List.mem_flatMap.mp hb
  have hle : 0x20 ≤ c.toNat := h c hc
  rw [UInt8.le_iff_toNat_le]
  change 0x20 ≤ b.toNat
  rcases toNat_of_mem_encodeChar hb with h | h <;> omega

end Allowlist.Utf8
