import Mathlib.Data.List.GetD
import Mathlib.Data.List.TakeWhile
import ProgramAudit.Address.Basic
import ProgramAudit.Proofs.Number.Positional
import ProgramAudit.Proofs.Text.Numeral

/-! Every key has an address, which is valid, stands without blanks and denotes the key again. -/

namespace ProgramAudit.Address

open Number

namespace Base58

theorem value?_digit {value : Nat} (h : value < 58) : value? (digit value) = some value := by
  have hall : ∀ value : Fin 58, value? (digit value) = some value.val := by decide +kernel
  exact hall ⟨value, h⟩

theorem digit_ne_zero {value : Nat} (h : value < 58) (hne : value ≠ 0) : digit value ≠ zero := by
  intro heq
  have hvalue := value?_digit h
  rw [heq] at hvalue
  exact hne (Option.some.inj (hvalue.symm.trans (by decide +kernel : value? zero = some 0)))

theorem isDigit_digit (value : Nat) : digit value ∈ alphabet := by
  unfold digit
  by_cases h : value < alphabet.length
  · rw [List.getD_eq_getElem _ _ h]
    exact List.getElem_mem h
  · rw [List.getD_eq_default _ _ (by omega)]
    decide

theorem mem_alphabet_of_mem_encode {bytes : Bytes} {c : Char} (h : c ∈ encode bytes) :
    c ∈ alphabet := by
  rcases List.mem_append.mp h with hzero | hdigit
  · rw [(List.mem_replicate.mp hzero).2]
    decide
  · obtain ⟨value, -, rfl⟩ := List.mem_map.mp hdigit
    exact isDigit_digit value

/-- The digits of the bytes behind the leading zeros. -/
def significant (bytes : Bytes) : List Nat :=
  positional 58 (ofPositional 256 ((bytes.dropWhile (· == 0)).map UInt8.toNat))

theorem encode_eq (bytes : Bytes) : encode bytes =
    List.replicate (bytes.takeWhile (· == 0)).length zero ++ (significant bytes).map digit := rfl

theorem head?_significant (bytes : Bytes) : ((significant bytes).map digit).head? ≠ some zero := by
  rw [List.head?_map]
  cases hhead : (significant bytes).head? with
  | none => nofun
  | some value =>
      have hlt : value < 58 :=
        lt_of_mem_positional 58 _ value (by decide) (List.mem_of_mem_head? hhead)
      have hne : value ≠ 0 := by
        intro hzero
        exact head?_positional_ne_zero (by decide) _ (hzero ▸ hhead)
      simpa using digit_ne_zero hlt hne

theorem takeWhile_replicate_append {α : Type} [BEq α] [LawfulBEq α] (count : Nat) (a : α)
    {rest : List α} (h : rest.head? ≠ some a) :
    (List.replicate count a ++ rest).takeWhile (· == a) = List.replicate count a ∧
      (List.replicate count a ++ rest).dropWhile (· == a) = rest := by
  induction count with
  | zero =>
      cases rest with
      | nil => exact ⟨rfl, rfl⟩
      | cons first rest =>
          have hne : (first == a) = false := by simpa using h
          simp [hne]
  | succ count ih => simpa [List.replicate_succ] using ih

theorem mapM_value?_digit (values : List Nat) (h : ∀ value ∈ values, value < 58) :
    (values.map digit).mapM value? = some values := by
  induction values with
  | nil => rfl
  | cons value values ih =>
      have hvalue := value?_digit (h value List.mem_cons_self)
      have hvalues := ih fun other hother => h other (List.mem_cons_of_mem value hother)
      simp [List.mapM_cons, hvalue, hvalues]

theorem toNat_lt_of_mem {bytes : Bytes} {n : Nat} (h : n ∈ bytes.map UInt8.toNat) : n < 256 := by
  obtain ⟨byte, -, rfl⟩ := List.mem_map.mp h
  exact byte.toNat_lt

theorem head?_dropWhile_zero (bytes : Bytes) :
    ((bytes.dropWhile (· == 0)).map UInt8.toNat).head? ≠ some 0 := by
  rw [List.head?_map]
  cases hhead : (bytes.dropWhile (· == 0)).head? with
  | none => nofun
  | some byte =>
      have hbyte := List.head?_dropWhile_not (· == 0) bytes
      rw [hhead] at hbyte
      have hne : byte ≠ 0 := by simpa using hbyte
      simpa using fun hzero : byte.toNat = 0 => hne (UInt8.toNat_inj.mp hzero)

theorem replicate_takeWhile {α : Type} [BEq α] [LawfulBEq α] (a : α) (items : List α) :
    List.replicate (items.takeWhile (· == a)).length a = items.takeWhile (· == a) := by
  refine (List.eq_replicate_iff.mpr ⟨rfl, fun item hitem => ?_⟩).symm
  have hequal := List.mem_takeWhile_imp hitem
  exact eq_of_beq hequal

theorem decode?_encode (bytes : Bytes) : decode? (encode bytes) = some bytes := by
  obtain ⟨htake, hdrop⟩ := takeWhile_replicate_append (bytes.takeWhile (· == 0)).length zero
    (head?_significant bytes)
  have hdigits : ((significant bytes).map digit).mapM value? = some (significant bytes) :=
    mapM_value?_digit _ fun value hvalue => lt_of_mem_positional 58 _ value (by decide) hvalue
  have hbytes : positional 256 (ofPositional 58 (significant bytes)) =
      (bytes.dropWhile (· == 0)).map UInt8.toNat := by
    rw [significant, ofPositional_positional 58 _ (by decide)]
    exact positional_ofPositional (by decide) _ (fun _ => toNat_lt_of_mem)
      (head?_dropWhile_zero bytes)
  simp only [decode?, encode_eq, htake, hdrop, hdigits, hbytes, Option.map_some,
    List.length_replicate, replicate_takeWhile, List.map_map, Option.some.injEq]
  have hback : (UInt8.ofNat ∘ UInt8.toNat) = id := by
    funext byte
    simp
  rw [hback, List.map_id, List.takeWhile_append_dropWhile]

/-- Each leading zero byte has a digit, and the bytes behind them take what room is left. -/
theorem length_encode_le {key : Bytes} (h : key.length = keyLength) :
    (encode key).length ≤ longestText := by
  have hroom : ∀ zeros : Fin 33, 256 ^ (32 - zeros.val) ≤ 58 ^ (44 - zeros.val) := by
    decide +kernel
  have hparts : (key.takeWhile (· == 0)).length + (key.dropWhile (· == 0)).length = 32 := by
    rw [← List.length_append, List.takeWhile_append_dropWhile, h, keyLength]
  have hnumber := ofPositional_lt ((key.dropWhile (· == 0)).map UInt8.toNat)
    (fun _ => toNat_lt_of_mem)
  have hdigits : (significant key).length ≤ 44 - (key.takeWhile (· == 0)).length := by
    refine length_positional_le (by decide) (hnumber.trans_le ?_)
    have hrest : ((key.dropWhile (· == 0)).map UInt8.toNat).length =
        32 - (key.takeWhile (· == 0)).length := by
      rw [List.length_map]
      omega
    rw [hrest]
    exact hroom ⟨(key.takeWhile (· == 0)).length, by omega⟩
  rw [encode_eq, List.length_append, List.length_replicate, List.length_map, longestText]
  omega

end Base58

theorem utf8ByteSize_ofList {text : List Char} (h : ∀ c ∈ text, c.utf8Size = 1) :
    (String.ofList text).utf8ByteSize = text.length := by
  induction text with
  | nil => rfl
  | cons c text ih =>
      have hrest := ih fun other hother => h other (List.mem_cons_of_mem c hother)
      have hfirst : (String.ofList [c]).utf8ByteSize = 1 :=
        String.utf8ByteSize_singleton.trans (h c List.mem_cons_self)
      rw [← List.singleton_append, String.ofList_append, String.utf8ByteSize_append, hfirst, hrest,
        List.length_append, List.length_singleton]

/-- No digit is a blank, and each is one byte. -/
theorem alphabet_plain {c : Char} (h : c ∈ Base58.alphabet) :
    Text.isBlank c = false ∧ c.utf8Size = 1 := by
  have hall : (Base58.alphabet.all fun c => !Text.isBlank c && c.utf8Size == 1) = true := by
    decide +kernel
  simpa using List.all_eq_true.mp hall c h

theorem strip_ofKey (key : Bytes) : Text.strip (ofKey key) = ofKey key := by
  rw [Text.strip, ofKey, String.toList_ofList, Text.trim_of_forall]
  exact fun c hc => (alphabet_plain (Base58.mem_alphabet_of_mem_encode hc)).1

theorem key?_ofKey {key : Bytes} (h : key.length = keyLength) : key? (ofKey key) = some key := by
  have hsize : (ofKey key).utf8ByteSize = (Base58.encode key).length :=
    utf8ByteSize_ofList fun c hc => (alphabet_plain (Base58.mem_alphabet_of_mem_encode hc)).2
  have hlength := Base58.length_encode_le h
  rw [key?, if_neg (by omega), ofKey, String.toList_ofList, Base58.decode?_encode]
  simp [h]

theorem isValid_ofKey {key : Bytes} (h : key.length = keyLength) : isValid (ofKey key) = true := by
  rw [isValid, strip_ofKey, key?_ofKey h]
  rfl

/-- One key is one address. -/
theorem distinct_ofKey {key : Bytes} (h : key.length = keyLength) :
    distinct [some (ofKey key)] = [ofKey key] := by
  simp [distinct, isValid_ofKey h, strip_ofKey]

end ProgramAudit.Address
