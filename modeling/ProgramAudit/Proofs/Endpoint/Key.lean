import Mathlib
import ProgramAudit.Endpoint.Request
import ProgramAudit.Proofs.Json.Written

/-!
What requests are told apart by. Two requests with one key ask for the same, so whatever is kept
under a key is the result of one request only.
-/

namespace ProgramAudit.Endpoint

open Json

namespace Request

def commitment : Request → String
  | .account _ _ commitment => commitment
  | .signatures _ _ commitment => commitment
  | .transaction _ commitment => commitment

/-- Two requests ask for the same. A signature is taken as it is written, but for the order of
fields; a signature that is a text is taken as it is. -/
inductive Alike : Request → Request → Prop
  | same (request : Request) : Alike request request
  | transactions {signature other : Json} (commitment : String)
      (h : signature.sortedText = other.sortedText) :
      Alike (.transaction signature commitment) (.transaction other commitment)

/-! ### The texts of params -/

theorem sortedText_params (request : Request) :
    request.params.sortedText =
      "[" ++ (request.subject.sortedText ++ (", " ++ (request.options.sortedText ++ "]"))) := by
  simp only [params, sortedText, sorted, sortedAll, render, write, writeAll_line]
  simp [Layout.group, Layout.line, render, String.append_assoc]

/-- Every other option comes behind the commitment. -/
def optionsHead (commitment : String) : String :=
  "\x7b" ++ (writeString "commitment" ++ (": " ++ (writeString commitment ++ ", ")))

theorem sortedText_accountOptions (address : String) (encoding : Encoding) (commitment : String) :
    (account address encoding commitment).options.sortedText = optionsHead commitment ++
      (writeString "encoding" ++ (": " ++ (writeString encoding.word ++ "\x7d"))) := by
  simp [options, sortedText, sorted, sortedFields, sortedField, sortFields, insertField, render,
    write, writeFields, writeField, Layout.group, Layout.line, optionsHead, String.append_assoc]

theorem sortedText_signaturesOptions (address : String) (limit : Int) (commitment : String) :
    (signatures address limit commitment).options.sortedText = optionsHead commitment ++
      (writeString "limit" ++ (": " ++ (toString limit ++ "\x7d"))) := by
  simp [options, sortedText, sorted, sortedFields, sortedField, sortFields, insertField, render,
    write, writeFields, writeField, Layout.group, Layout.line, optionsHead, String.append_assoc]

theorem word_injective : Function.Injective Encoding.word := by
  intro left right h
  cases left <;> cases right <;> simp_all [Encoding.word]

/-! ### Keys -/

theorem key_eq_iff {left right : Request} (hcommitment : left.commitment = right.commitment) :
    left.key = right.key ↔ Alike left right := by
  constructor
  · intro h
    obtain ⟨hmethod, htext⟩ := Prod.mk.inj h
    rw [sortedText_params, sortedText_params, String.append_right_inj] at htext
    cases left with
    | account address encoding commitment =>
        cases right with
        | account address' encoding' commitment' =>
            cases hcommitment
            obtain ⟨rfl, hrest⟩ := writeString_append_inj htext
            rw [sortedText_accountOptions, sortedText_accountOptions] at hrest
            simp only [String.append_right_inj, String.append_left_inj, String.append_assoc] at hrest
            rw [word_injective (writeString_injective hrest)]
            exact .same _
        | _ => simp [method] at hmethod
    | signatures address limit commitment =>
        cases right with
        | signatures address' limit' commitment' =>
            cases hcommitment
            obtain ⟨rfl, hrest⟩ := writeString_append_inj htext
            rw [sortedText_signaturesOptions, sortedText_signaturesOptions] at hrest
            simp only [String.append_right_inj, String.append_left_inj, String.append_assoc] at hrest
            rw [Int.repr_injective hrest]
            exact .same _
        | _ => simp [method] at hmethod
    | transaction signature commitment =>
        cases right with
        | transaction signature' commitment' =>
            cases hcommitment
            exact .transactions commitment ((String.append_left_inj _).mp htext)
        | _ => simp [method] at hmethod
  · rintro (_ | ⟨commitment, h⟩)
    · rfl
    · simp only [key, sortedText_params, subject, options, method, h]

end Request

end ProgramAudit.Endpoint
