import ProgramAudit.Bytes.Base64

/-! Bytes that are written in base 64 are read back. -/

namespace ProgramAudit.Bytes.Base64

variable {value : Nat}

/-- The digits are the characters that have a value; none is the padding, and each is one byte. -/
theorem digit_spec (h : value < 64) :
    value? (digit value) = some value ∧ digit value ≠ padding ∧ (digit value).toNat < 128 := by
  have hall : ∀ value : Fin 64, value? (digit value) = some value.val ∧ digit value ≠ padding ∧
      (digit value).toNat < 128 := by decide +kernel
  exact hall ⟨value, h⟩

theorem decodeFrom_digit (h : value < 64) (quad : Quad) (done : Bytes) (rest : List Char) :
    decodeFrom quad done (digit value :: rest) =
      decodeFrom (quad.push value).2 ((quad.push value).1.toList ++ done) rest := by
  obtain ⟨hvalue, hpadding, -⟩ := digit_spec h
  rw [decodeFrom, if_neg hpadding, hvalue]
  dsimp only
  split <;> rename_i hpush <;> rw [hpush] <;> rfl

section Positions

variable (h : value < 64) (carry : Nat) (done : Bytes) (rest : List Char)

include h

theorem decodeFrom_first :
    decodeFrom {} done (digit value :: rest) = decodeFrom ⟨1, value, 0⟩ done rest :=
  decodeFrom_digit h {} done rest

theorem decodeFrom_second (byte : UInt8) (hbyte : carry * 4 + value / 16 = byte.toNat) :
    decodeFrom ⟨1, carry, 0⟩ done (digit value :: rest) =
      decodeFrom ⟨2, value % 16, 0⟩ (byte :: done) rest := by
  rw [decodeFrom_digit h, Quad.push, hbyte, UInt8.ofNat_toNat]
  rfl

theorem decodeFrom_third (byte : UInt8) (hbyte : carry * 16 + value / 4 = byte.toNat) :
    decodeFrom ⟨2, carry, 0⟩ done (digit value :: rest) =
      decodeFrom ⟨3, value % 4, 0⟩ (byte :: done) rest := by
  rw [decodeFrom_digit h, Quad.push, hbyte, UInt8.ofNat_toNat]
  rfl

theorem decodeFrom_fourth (byte : UInt8) (hbyte : carry * 64 + value = byte.toNat) :
    decodeFrom ⟨3, carry, 0⟩ done (digit value :: rest) = decodeFrom {} (byte :: done) rest := by
  rw [decodeFrom_digit h, Quad.push, hbyte, UInt8.ofNat_toNat]
  rfl

end Positions

/-- By the quads of the encoding; the last one may have padding. -/
theorem decodeFrom_encode (bytes done : Bytes) :
    decodeFrom {} done (encode bytes) = .ok (done.reverse ++ bytes) := by
  induction bytes using encode.induct generalizing done with
  | case1 => simp [encode, decodeFrom]
  | case2 a =>
      have ha := a.toNat_lt
      rw [encode, decodeFrom_first (by omega), decodeFrom_second (by omega) _ _ _ a (by omega)]
      simp [decodeFrom, Quad.closes]
  | case3 a b =>
      have ha := a.toNat_lt
      have hb := b.toNat_lt
      rw [encode, decodeFrom_first (by omega), decodeFrom_second (by omega) _ _ _ a (by omega),
        decodeFrom_third (by omega) _ _ _ b (by omega)]
      simp [decodeFrom, Quad.closes]
  | case4 a b c rest ih =>
      have ha := a.toNat_lt
      have hb := b.toNat_lt
      have hc := c.toNat_lt
      rw [encode, decodeFrom_first (by omega), decodeFrom_second (by omega) _ _ _ a (by omega),
        decodeFrom_third (by omega) _ _ _ b (by omega), decodeFrom_fourth (by omega) _ _ _ c (by omega),
        ih]
      simp

theorem decode_encode (bytes : Bytes) : decode (encode bytes) = .ok bytes :=
  decodeFrom_encode bytes []

theorem lt_of_mem_encode {c : Char} {bytes : Bytes} (h : c ∈ encode bytes) : c.toNat < 128 := by
  have hpadding : padding.toNat < 128 := by decide
  induction bytes using encode.induct with
  | case1 => cases h
  | case2 a =>
      have ha := a.toNat_lt
      simp only [encode, List.mem_cons, List.not_mem_nil, or_false] at h
      rcases h with rfl | rfl | rfl | rfl <;>
        first | exact hpadding | exact (digit_spec (by omega)).2.2
  | case3 a b =>
      have ha := a.toNat_lt
      have hb := b.toNat_lt
      simp only [encode, List.mem_cons, List.not_mem_nil, or_false] at h
      rcases h with rfl | rfl | rfl | rfl <;>
        first | exact hpadding | exact (digit_spec (by omega)).2.2
  | case4 a b c rest ih =>
      have ha := a.toNat_lt
      have hb := b.toNat_lt
      have hc := c.toNat_lt
      simp only [encode, List.mem_cons] at h
      rcases h with rfl | rfl | rfl | rfl | hrest <;>
        first | exact ih hrest | exact (digit_spec (by omega)).2.2

end ProgramAudit.Bytes.Base64
