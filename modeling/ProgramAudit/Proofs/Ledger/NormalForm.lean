import Mathlib.Data.Nat.Digits.Defs
import Mathlib.Tactic.SplitIfs
import ProgramAudit.Ledger.Instruction
import ProgramAudit.Proofs.Failure

/-!
The normal form of an instruction. Whatever payload an instruction was read from, its written form is
a payload without indices that is read as the same instruction, by whichever keys. A value that counts
as present is never written as nothing, so what is read out of it can be told from what is absent.
-/

namespace ProgramAudit

/-! ### Values that count as present -/

namespace Number

theorem write_ne_nil (style : DecimalStyle) (decimal : Decimal) : style.write decimal ≠ [] := by
  unfold DecimalStyle.write
  dsimp only
  by_cases hpoint : style.pointFrom ≤ decimal.exponent + (Nat.toDigits 10 decimal.digits).length - 1 ∧
      decimal.exponent + (Nat.toDigits 10 decimal.digits).length - 1 < style.pointBelow
  · rw [if_pos hpoint]
    split_ifs <;> simp
  · rw [if_neg hpoint]
    simp

theorem realText_ne_empty (x : Float) : realText x ≠ "" := by
  unfold realText
  cases binaryOf x with
  | undefined => simp
  | infinite negative => cases negative <;> simp
  | finite negative mantissa exponent =>
      rw [ne_eq, String.ofList_eq_empty_iff, List.append_eq_nil_iff]
      rintro ⟨-, hbody⟩
      split_ifs at hbody <;> exact absurd hbody (write_ne_nil _ _)

end Number

theorem toString_ne_empty (value : Int) : toString value ≠ "" := by
  cases value with
  | ofNat n => exact Nat.repr_ne_empty
  | negSucc n =>
      change "-" ++ (n + 1).repr ≠ ""
      simp

theorem Json.text_ne_empty {value : Json} (h : value.isPresent = true) : value.text ≠ "" := by
  cases value with
  | null => cases h
  | bool value =>
      subst h
      decide
  | int value => exact toString_ne_empty value
  | real value => exact Number.realText_ne_empty value
  | str content => simpa [isPresent, text] using h
  | arr items => simp [text, innerText]
  | obj fields => simp [text, innerText]

namespace Ledger.Instruction

/-- There is a program, and a type if the endpoint has read the instruction. -/
structure IsNormal (instruction : Instruction) : Prop where
  program : instruction.programId ≠ ""
  type : ∀ parsed ∈ instruction.parsed, parsed.type ≠ ""

variable {instruction : Instruction} {payload : Json} {keys : List String}

/-! ### What is read is normal -/

theorem type_of_parsedOfPayload? {parsed : ParsedInstruction}
    (h : parsedOfPayload? payload = some parsed) : parsed.type ≠ "" := by
  unfold parsedOfPayload? at h
  cases hparsed : payload.get "parsed" with
  | obj fields =>
      rw [hparsed] at h
      dsimp only at h
      by_cases htype : ((Json.field? "type" fields).getD .null).isPresent = true
      · rw [if_pos htype] at h
        have hne := Json.text_ne_empty htype
        split at h <;> cases h <;> exact hne
      · rw [if_neg htype] at h
        cases h
  | _ =>
      rw [hparsed] at h
      cases h

theorem isNormal_of_ofPayload (h : ofPayload keys payload = .ok (some instruction)) :
    instruction.IsNormal := by
  unfold ofPayload at h
  dsimp only at h
  by_cases hread : (payload.isObject && (programOfPayload keys payload).isPresent) = true
  · rw [if_pos hread] at h
    obtain ⟨accounts, -, hinstruction⟩ := Result.map_eq_ok.mp h
    cases hinstruction
    rw [Bool.and_eq_true] at hread
    exact ⟨Json.text_ne_empty hread.2, fun parsed hparsed => type_of_parsedOfPayload? hparsed⟩
  · rw [if_neg hread] at h
    cases h

/-! ### What is normal is read back -/

theorem get_programId_toJson (instruction : Instruction) :
    instruction.toJson.get "programId" = .str instruction.programId := rfl

theorem get_accounts_toJson (instruction : Instruction) :
    instruction.toJson.get "accounts" = Json.strings instruction.accounts := rfl

theorem get_parsed_toJson (instruction : Instruction) :
    instruction.toJson.get "parsed" = Json.ofOption parsedJson instruction.parsed := by
  obtain ⟨programId, accounts, parsed⟩ := instruction
  cases parsed <;> rfl

theorem filterMap_accountAt? (keys accounts : List String) :
    (accounts.map Json.str).filterMap (accountAt? keys) = accounts := by
  induction accounts with
  | nil => rfl
  | cons account rest ih => simp [accountAt?, ih]

theorem accountsOfPayload_toJson (instruction : Instruction) (keys : List String) :
    accountsOfPayload keys instruction.toJson = .ok instruction.accounts := by
  unfold accountsOfPayload
  rw [get_accounts_toJson]
  cases haccounts : instruction.accounts with
  | nil => rfl
  | cons account rest =>
      change Except.ok (((account :: rest).map Json.str).filterMap (accountAt? keys)) = _
      rw [filterMap_accountAt?]

theorem parsedOfPayload?_toJson (h : ∀ parsed ∈ instruction.parsed, parsed.type ≠ "") :
    parsedOfPayload? instruction.toJson = instruction.parsed := by
  unfold parsedOfPayload?
  rw [get_parsed_toJson]
  cases hparsed : instruction.parsed with
  | none => rfl
  | some parsed =>
      have htype : (Json.str parsed.type).isPresent = true := by
        simpa [Json.isPresent] using h parsed hparsed
      exact if_pos htype

theorem ofPayload_toJson (h : instruction.IsNormal) (keys : List String) :
    ofPayload keys instruction.toJson = .ok (some instruction) := by
  have hprogram : programOfPayload keys instruction.toJson = .str instruction.programId := by
    rw [programOfPayload, get_programId_toJson]
    rfl
  have hpresent : (Json.str instruction.programId).isPresent = true := by
    simpa [Json.isPresent] using h.program
  have hobject : instruction.toJson.isObject = true := rfl
  unfold ofPayload
  dsimp only
  rw [hprogram, hobject, hpresent, accountsOfPayload_toJson, parsedOfPayload?_toJson h.type]
  rfl

/-- Writing an instruction and reading it back, by whichever keys, gives exactly the instruction if
it was read from a payload itself. Of all instructions these are the ones with a program and, if the
endpoint has read them, with a type. -/
theorem reads_back :
    (∀ keys payload instruction, ofPayload keys payload = .ok (some instruction) →
      ∀ others, ofPayload others instruction.toJson = .ok (some instruction)) ∧
    ∀ instruction : Instruction, (instruction.programId ≠ "" ∧
      ∀ parsed ∈ instruction.parsed, parsed.type ≠ "") ↔
        ∀ keys, ofPayload keys instruction.toJson = .ok (some instruction) := by
  refine ⟨fun keys payload instruction h => ofPayload_toJson (isNormal_of_ofPayload h), ?_⟩
  intro instruction
  constructor
  · rintro ⟨hprogram, htype⟩
    exact ofPayload_toJson ⟨hprogram, htype⟩
  · intro h
    have hnormal := isNormal_of_ofPayload (h [])
    exact ⟨hnormal.program, hnormal.type⟩

/-- A program and an account by their indices, an account in place, one that is no account, and a
type that is no text. -/
def mixedPayload : Json :=
  .obj [("programIdIndex", .int 1), ("accounts", .arr [.int 0, .str "C", .null, .bool true]),
    ("parsed", .obj [("type", .int 7), ("info", .obj [("amount", .int 5)])])]

def mixedInstruction : Instruction := ⟨"B", ["A", "C", "B"], some ⟨"7", [("amount", .int 5)]⟩⟩

theorem reads_back_mixed :
    ofPayload ["A", "B"] mixedPayload = .ok (some mixedInstruction) ∧
      ofPayload [] mixedInstruction.toJson = .ok (some mixedInstruction) := by
  have hread : ofPayload ["A", "B"] mixedPayload = .ok (some mixedInstruction) := rfl
  exact ⟨hread, reads_back.1 _ _ _ hread []⟩

end Ledger.Instruction

end ProgramAudit
