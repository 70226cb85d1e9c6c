import ProgramAudit.Proofs.Address.Base58
import ProgramAudit.Proofs.Audit.Sound
import ProgramAudit.Proofs.Table

/-!
A valid address is the one spelling of its key: reading and writing keys undo each other in both
directions, and nothing but blanks around an address is lost when it is accepted. Of candidates the
spellings of their keys are kept, each once and in the order in which the keys first come.
-/

namespace ProgramAudit.Address

open Number

namespace Base58

/-! ### Digits that were read -/

theorem length_alphabet : alphabet.length = 58 := by decide

theorem digit_of_value? {c : Char} {value : Nat} (h : value? c = some value) :
    value < 58 ∧ digit value = c := by
  rw [value?, List.idxOf?_eq_some_iff] at h
  obtain ⟨hlt, hc, -⟩ := h
  refine ⟨length_alphabet ▸ hlt, ?_⟩
  rw [digit, List.getD_eq_getElem _ _ hlt, hc]

theorem digits_of_mapM {text : List Char} {digits : List Nat}
    (h : text.mapM value? = some digits) :
    digits.map digit = text ∧ ∀ value ∈ digits, value < 58 := by
  induction text generalizing digits with
  | nil =>
      cases h
      exact ⟨rfl, nofun⟩
  | cons c text ih =>
      rw [List.mapM_cons] at h
      obtain ⟨value, hvalue, h⟩ := Option.bind_eq_some_iff.mp h
      obtain ⟨rest, hrest, h⟩ := Option.bind_eq_some_iff.mp h
      cases h
      obtain ⟨hlt, hdigit⟩ := digit_of_value? hvalue
      obtain ⟨hmap, hall⟩ := ih hrest
      refine ⟨by rw [List.map_cons, hdigit, hmap], ?_⟩
      rintro other (_ | ⟨_, hother⟩)
      · exact hlt
      · exact hall other hother

/-- What follows the leading zero digits does not start with one. -/
theorem head?_ne_zero_of_map {digits : List Nat} {text : List Char}
    (hmap : digits.map digit = text.dropWhile (· == zero)) : digits.head? ≠ some 0 := by
  intro hzero
  have hfirst : (text.dropWhile (· == zero)).head? = some zero := by
    rw [← hmap, List.head?_map, hzero]
    rfl
  have hnot := List.head?_dropWhile_not (· == zero) text
  rw [hfirst] at hnot
  simp at hnot

theorem toNat_ofNat_positional (n : Nat) :
    ((positional 256 n).map UInt8.ofNat).map UInt8.toNat = positional 256 n := by
  rw [List.map_map]
  refine (List.map_congr_left fun value hvalue => ?_).trans (List.map_id _)
  exact UInt8.toNat_ofNat_of_lt (lt_of_mem_positional 256 n value (by decide) hvalue)

theorem head?_ofNat_positional (n : Nat) :
    ((positional 256 n).map UInt8.ofNat).head? ≠ some 0 := by
  intro hzero
  have hback := congrArg (Option.map UInt8.toNat) hzero
  rw [← List.head?_map, toNat_ofNat_positional] at hback
  exact head?_positional_ne_zero (by decide) n hback

theorem encode_of_decode? {text : List Char} {bytes : Bytes} (h : decode? text = some bytes) :
    encode bytes = text := by
  obtain ⟨digits, hdigits, rfl⟩ := Option.map_eq_some_iff.mp h
  obtain ⟨hmap, hsmall⟩ := digits_of_mapM hdigits
  have hnumber : positional 58 (ofPositional 58 digits) = digits :=
    positional_ofPositional (by decide) digits hsmall (head?_ne_zero_of_map hmap)
  obtain ⟨htake, hdrop⟩ := takeWhile_replicate_append (text.takeWhile (· == zero)).length
    (0 : UInt8) (head?_ofNat_positional (ofPositional 58 digits))
  calc encode _
      = List.replicate (text.takeWhile (· == zero)).length zero ++ digits.map digit := by
        simp only [encode, htake, hdrop, List.length_replicate, toNat_ofNat_positional,
          ofPositional_positional 256 _ (by decide), hnumber]
    _ = text.takeWhile (· == zero) ++ text.dropWhile (· == zero) := by
        rw [replicate_takeWhile, hmap]
    _ = text := List.takeWhile_append_dropWhile

/-! ### Length -/

/-- A byte holds more than a digit, so there are no fewer digits than bytes. -/
theorem length_le_length_significant (bytes : Bytes) :
    (bytes.dropWhile (· == 0)).length ≤ (significant bytes).length := by
  have hhead := head?_dropWhile_zero bytes
  unfold significant
  rw [← List.length_map UInt8.toNat]
  generalize (bytes.dropWhile (· == 0)).map UInt8.toNat = rest at hhead ⊢
  by_cases hempty : rest = []
  · simp [hempty]
  · have hvalue : 58 ^ (rest.length - 1) ≤ ofPositional 256 rest :=
      calc 58 ^ (rest.length - 1)
          ≤ 256 ^ (rest.length - 1) := Nat.pow_le_pow_left (by decide) _
        _ ≤ ofPositional 256 rest := pow_le_ofPositional hhead hempty
    have hdigits := lt_length_positional (by decide) hvalue
    omega

theorem length_le_length_encode (bytes : Bytes) : bytes.length ≤ (encode bytes).length := by
  have hrest := length_le_length_significant bytes
  have hparts : (bytes.takeWhile (· == 0)).length + (bytes.dropWhile (· == 0)).length =
      bytes.length := by
    rw [← List.length_append, List.takeWhile_append_dropWhile]
  rw [encode_eq, List.length_append, List.length_replicate, List.length_map]
  omega

end Base58

/-! ### Keys and their spellings -/

theorem ofKey_injective : Function.Injective ofKey := by
  intro key other heq
  have htext : Base58.encode key = Base58.encode other := String.ofList_injective heq
  have hdecoded := Base58.decode?_encode key
  rw [htext, Base58.decode?_encode] at hdecoded
  exact (Option.some.inj hdecoded).symm

theorem length_ofKey {key : Bytes} (h : key.length = keyLength) :
    keyLength ≤ (ofKey key).length ∧ (ofKey key).length ≤ longestText := by
  rw [ofKey, String.length_ofList]
  exact ⟨h ▸ Base58.length_le_length_encode key, Base58.length_encode_le h⟩

theorem key?_eq_some_iff {text : String} {key : Bytes} :
    key? text = some key ↔ key.length = keyLength ∧ text = ofKey key := by
  constructor
  · intro h
    unfold key? at h
    split at h
    · cases h
    · obtain ⟨hdecoded, hlength⟩ := Option.filter_eq_some_iff.mp h
      refine ⟨by simpa using hlength, ?_⟩
      rw [ofKey, Base58.encode_of_decode? hdecoded, String.ofList_toList]
  · rintro ⟨hlength, rfl⟩
    exact key?_ofKey hlength

theorem validate_eq_ok_iff {given : Json} {address : String} :
    validate given = .ok address ↔ ∃ text key, given = .str text ∧ address = Text.strip text ∧
      key.length = keyLength ∧ address = ofKey key := by
  constructor
  · intro h
    unfold validate at h
    split at h
    case h_2 => cases h
    case h_1 found hfound =>
      cases h
      unfold ofValue? at hfound
      split at hfound
      case h_2 => cases hfound
      case h_1 text =>
        obtain ⟨hvalid, hstrip⟩ := Option.ite_none_right_eq_some.mp hfound
        obtain ⟨key, hkey⟩ := Option.isSome_iff_exists.mp hvalid
        obtain ⟨hlength, hspelling⟩ := key?_eq_some_iff.mp hkey
        cases hstrip
        exact ⟨text, key, rfl, rfl, hlength, hspelling⟩
  · rintro ⟨text, key, rfl, hstrip, hlength, hspelling⟩
    have hvalid : isValid text = true := by
      rw [isValid, ← hstrip, hspelling, key?_ofKey hlength]
      rfl
    simp only [validate, ofValue?, hvalid, if_true, hstrip]

theorem validate_ofKey {key : Bytes} (h : key.length = keyLength) :
    validate (.str (ofKey key)) = .ok (ofKey key) :=
  validate_eq_ok_iff.mpr ⟨ofKey key, key, rfl, (strip_ofKey key).symm, h, rfl⟩

theorem distinct_concat_some (candidates : List (Option String)) (text : String) :
    distinct (candidates ++ [some text]) =
      if isValid text && !(distinct candidates).contains (Text.strip text) then
        distinct candidates ++ [Text.strip text]
      else distinct candidates := by
  rw [distinct, List.foldl_append]
  rfl

theorem distinct_concat_none (candidates : List (Option String)) :
    distinct (candidates ++ [none]) = distinct candidates := by
  rw [distinct, List.foldl_append]
  rfl

theorem mem_distinct_concat_some {candidates : List (Option String)} {text address : String} :
    address ∈ distinct (candidates ++ [some text]) ↔
      address ∈ distinct candidates ∨ isValid text = true ∧ Text.strip text = address := by
  rw [distinct_concat_some]
  split
  case isTrue hnew =>
    have hvalid : isValid text = true := (Bool.and_eq_true_iff.mp hnew).1
    rw [List.mem_append, List.mem_singleton, hvalid, eq_comm (a := address)]
    simp
  case isFalse hold =>
    refine ⟨.inl, ?_⟩
    rintro (hfound | ⟨hvalid, rfl⟩)
    · exact hfound
    · simpa [hvalid] using hold

/-- By induction from the last candidate: what was found before it stays found. -/
theorem mem_distinct_iff {candidates : List (Option String)} {address : String} :
    address ∈ distinct candidates ↔
      ∃ text, some text ∈ candidates ∧ isValid text = true ∧ Text.strip text = address := by
  induction candidates using List.reverseRecOn with
  | nil => simp [distinct]
  | append_singleton candidates candidate ih =>
      cases candidate with
      | none => simpa [distinct_concat_none] using ih
      | some text =>
          rw [mem_distinct_concat_some, ih]
          constructor
          · rintro (⟨earlier, hmem, hrest⟩ | hlast)
            · exact ⟨earlier, List.mem_append_left _ hmem, hrest⟩
            · exact ⟨text, by simp, hlast⟩
          · rintro ⟨other, hmem, hrest⟩
            rcases List.mem_append.mp hmem with hearlier | hlast
            · exact .inl ⟨other, hearlier, hrest⟩
            · have hother : other = text := by simpa using hlast
              exact .inr (hother ▸ hrest)

/-! ### Candidates and their keys -/

section Candidates

/-- The key that a candidate spells. -/
def candidateKey? (candidate : Option String) : Option Bytes :=
  candidate.bind fun text => key? (Text.strip text)

variable {candidates : List (Option String)} {text address : String} {key : Bytes}

theorem length_of_mem_candidateKeys (h : key ∈ candidates.filterMap candidateKey?) :
    key.length = keyLength := by
  obtain ⟨candidate, -, hkey⟩ := List.mem_filterMap.mp h
  obtain ⟨text, -, hspelled⟩ := Option.bind_eq_some_iff.mp hkey
  exact (key?_eq_some_iff.mp hspelled).1

/-- By induction from the last candidate: it adds its spelling if and only if it adds its key. -/
theorem distinct_eq_map (candidates : List (Option String)) :
    distinct candidates =
      (ProgramAudit.distinct (candidates.filterMap candidateKey?)).map ofKey := by
  induction candidates using List.reverseRecOn with
  | nil => rfl
  | append_singleton candidates candidate ih =>
      rw [List.filterMap_append]
      cases candidate with
      | none =>
          have hlast : [none].filterMap candidateKey? = [] := rfl
          rw [distinct_concat_none, ih, hlast, List.append_nil]
      | some text =>
          rw [distinct_concat_some]
          cases hkey : key? (Text.strip text) with
          | none =>
              have hinvalid : isValid text = false := by rw [isValid, hkey]; rfl
              simp [candidateKey?, hkey, hinvalid, ih]
          | some key =>
              have hvalid : isValid text = true := by rw [isValid, hkey]; rfl
              have hspelling : Text.strip text = ofKey key := (key?_eq_some_iff.mp hkey).2
              have hlast : [some text].filterMap candidateKey? = [key] := by
                simp [candidateKey?, hkey]
              have hknown : ofKey key ∈ distinct candidates ↔
                  key ∈ candidates.filterMap candidateKey? := by
                rw [ih, List.mem_map_of_injective ofKey_injective, mem_distinct]
              rw [hlast, distinct_concat, hvalid, hspelling]
              by_cases hold : key ∈ candidates.filterMap candidateKey?
              · have hheld : (distinct candidates).contains (ofKey key) = true :=
                  List.contains_iff_mem.mpr (hknown.mpr hold)
                rw [hheld, if_pos hold, ← ih]
                rfl
              · have hnew : (distinct candidates).contains (ofKey key) = false := by
                  simpa using fun hheld => hold (hknown.mp hheld)
                rw [hnew, if_neg hold, List.map_append, ← ih]
                rfl

theorem validate_of_mem_distinct (h : address ∈ distinct candidates) :
    validate (.str address) = .ok address := by
  rw [distinct_eq_map] at h
  obtain ⟨key, hkey, rfl⟩ := List.mem_map.mp h
  exact validate_ofKey (length_of_mem_candidateKeys (mem_distinct.mp hkey))

/-- The keys of the addresses are those that the candidates spell. -/
theorem map_key?_distinct (candidates : List (Option String)) :
    (distinct candidates).map key? =
      (ProgramAudit.distinct (candidates.filterMap candidateKey?)).map some := by
  rw [distinct_eq_map, List.map_map]
  refine List.map_congr_left fun key hkey => ?_
  exact key?_ofKey (length_of_mem_candidateKeys (mem_distinct.mp hkey))

theorem nodup_map_key?_distinct (candidates : List (Option String)) :
    ((distinct candidates).map key?).Nodup := by
  rw [map_key?_distinct]
  exact (nodup_distinct _).map (Option.some_injective _)

/-- A valid candidate is kept without its blanks. -/
theorem strip_mem_distinct (hmem : some text ∈ candidates) (hvalid : isValid text = true) :
    Text.strip text ∈ distinct candidates :=
  mem_distinct_iff.mpr ⟨text, hmem, hvalid, rfl⟩

/-- Addresses that are kept are kept again. -/
theorem distinct_distinct (candidates : List (Option String)) :
    distinct ((distinct candidates).map some) = distinct candidates := by
  have hkeys : ((distinct candidates).map some).filterMap candidateKey? =
      ProgramAudit.distinct (candidates.filterMap candidateKey?) := by
    rw [List.filterMap_map, distinct_eq_map, List.filterMap_map]
    refine (List.filterMap_congr fun key hkey => ?_).trans List.filterMap_some
    have hlength := length_of_mem_candidateKeys (mem_distinct.mp hkey)
    simp [candidateKey?, strip_ofKey, key?_ofKey hlength]
  rw [distinct_eq_map ((distinct candidates).map some), hkeys, distinct_of_nodup (nodup_distinct _),
    distinct_eq_map]

end Candidates

/-! ### Addresses and their keys -/

/-- Each key has an address of 32 to 44 digits, which no other key has and which is accepted as it
stands; a text that is accepted is, within its blanks, the address of a key. So no authority that a
header names is lost among candidates. -/
theorem validate_canonical :
    (∀ key : Bytes, key.length = 32 → 32 ≤ (ofKey key).length ∧ (ofKey key).length ≤ 44 ∧
      validate (.str (ofKey key)) = .ok (ofKey key)) ∧
    (∀ key other : Bytes, key ≠ other → ofKey key ≠ ofKey other) ∧
    (∀ text address, validate (.str text) = .ok address →
      address = Text.strip text ∧ validate (.str address) = .ok address ∧
      ∃ key : Bytes, key.length = 32 ∧ key? address = some key ∧ ofKey key = Text.strip text ∧
        ∀ other spelling, validate (.str other) = .ok spelling → key? spelling = some key →
          spelling = address) ∧
    (∀ data found authority candidates, Program.readImageAccount data = .ok found →
      found.authority = some authority → some authority ∈ candidates →
      authority ∈ distinct candidates) := by
  refine ⟨fun key hkey => ?_, fun key other hne heq => hne (ofKey_injective heq),
    fun text address haccepted => ?_, fun data found authority candidates hread hnamed hmem => ?_⟩
  · obtain ⟨hleast, hmost⟩ := length_ofKey hkey
    exact ⟨hleast, hmost, validate_ofKey hkey⟩
  · obtain ⟨_, key, heq, hstrip, hlength, hspelling⟩ := validate_eq_ok_iff.mp haccepted
    cases heq
    refine ⟨hstrip, hspelling ▸ validate_ofKey hlength, key, hlength, ?_, hspelling ▸ hstrip, ?_⟩
    · exact key?_eq_some_iff.mpr ⟨hlength, hspelling⟩
    · intro other spelling _ hkey
      rw [(key?_eq_some_iff.mp hkey).2, hspelling]
  · obtain ⟨key, hlength, rfl⟩ := Audit.keyed_readImageAccount hread authority hnamed
    exact mem_distinct_iff.mpr ⟨ofKey key, hmem, isValid_ofKey hlength, strip_ofKey key⟩

def leadingKey : Bytes := List.replicate 31 0 ++ [1]

/-- A key with leading zeros, its address with blanks around it, and a header that names it. -/
theorem validate_canonical_leading :
    leadingKey.length = 32 ∧ 32 ≤ (ofKey leadingKey).length ∧
    List.replicate 32 0 ≠ leadingKey ∧ ofKey (List.replicate 32 0) ≠ ofKey leadingKey ∧
    validate (.str " 11111111111111111111111111111112\n") =
      .ok "11111111111111111111111111111112" ∧
    validate (.str "11111111111111111111111111111112") =
      .ok "11111111111111111111111111111112" ∧
    Program.readImageAccount ([3, 0, 0, 0, 0, 0, 0, 0, 0, 0, 0, 0, 1] ++ leadingKey) =
      .ok ⟨some (ofKey leadingKey), []⟩ ∧
    ofKey leadingKey ∈ distinct [none, some (ofKey leadingKey)] := by
  obtain ⟨hkeys, hapart, hspelled, hkept⟩ := validate_canonical
  have hlength : leadingKey.length = 32 := rfl
  have hne : List.replicate 32 0 ≠ leadingKey := by decide
  have hvalue : ofValue? (.str " 11111111111111111111111111111112\n") =
      some "11111111111111111111111111111112" := by decide +kernel
  have haccepted : validate (.str " 11111111111111111111111111111112\n") =
      .ok "11111111111111111111111111111112" := by rw [validate, hvalue]
  have hread : Program.readImageAccount
      ([3, 0, 0, 0, 0, 0, 0, 0, 0, 0, 0, 0, 1] ++ leadingKey) =
        .ok ⟨some (ofKey leadingKey), []⟩ := rfl
  exact ⟨hlength, (hkeys leadingKey hlength).1, hne, hapart _ _ hne, haccepted,
    (hspelled _ _ haccepted).2.1, hread, hkept _ _ _ _ hread rfl (by simp)⟩

end ProgramAudit.Address
