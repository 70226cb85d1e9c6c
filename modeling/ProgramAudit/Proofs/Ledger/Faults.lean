import ProgramAudit.Ledger.Transaction
import ProgramAudit.Proofs.Failure

/-!
Payloads that cannot be read. Whatever a payload is, reading it comes to a value or to a fault, and
never to a failure that stands for a request without an answer.
-/

namespace ProgramAudit

variable {α β : Type}

/-- A value, or a fault. -/
inductive Result.OrFault : Result α → Prop
  | value (value : α) : OrFault (.ok value)
  | fault (kind : Fault) (detail : String) : OrFault (.error (.fault kind detail))

namespace Result.OrFault

theorem bind {result : Result α} {f : α → Result β} (h : result.OrFault)
    (hf : ∀ value, (f value).OrFault) : (result >>= f).OrFault := by
  cases h with
  | value value => exact hf value
  | fault kind detail => exact .fault kind detail

theorem map {result : Result α} (h : result.OrFault) (f : α → β) :
    Result.OrFault (result.map f) := by
  cases h with
  | value value => exact .value (f value)
  | fault kind detail => exact .fault kind detail

theorem mapM {f : α → Result β} (hf : ∀ item, (f item).OrFault) (items : List α) :
    (items.mapM f).OrFault := by
  induction items with
  | nil => exact .value []
  | cons item rest ih =>
      rw [List.mapM_cons]
      exact (hf item).bind fun first => ih.bind fun found => .value (first :: found)

theorem orIfUnreadable {result : Result α} (h : result.OrFault) (fallback : α) :
    (Result.orIfUnreadable fallback result).OrFault := by
  cases h with
  | value value => exact .value value
  | fault kind detail =>
      unfold Result.orIfUnreadable
      dsimp only
      split_ifs
      · exact .value fallback
      · exact .fault kind detail

end Result.OrFault

/-! ### Values -/

namespace Json

theorem wholePart_orFault (x : Float) : (wholePart x).OrFault := by
  unfold wholePart
  split
  · exact .value _
  · split_ifs
    · exact .fault _ _
    · exact .fault _ _

theorem toInteger_orFault (value : Json) : value.toInteger.OrFault := by
  cases value with
  | bool value => exact .value _
  | int value => exact .value _
  | real value => exact wholePart_orFault value
  | str text =>
      unfold toInteger
      dsimp only
      split
      · exact .value _
      · exact .fault _ _
  | _ => exact .fault _ _

theorem toDouble_orFault (value : Json) : value.toDouble.OrFault := by
  cases value with
  | bool value => exact .value _
  | int value =>
      unfold toDouble doubleOf
      dsimp only
      split
      · exact .value _
      · exact .fault _ _
  | real value => exact .value _
  | str text =>
      unfold toDouble
      dsimp only
      split
      · exact .value _
      · exact .fault _ _
  | _ => exact .fault _ _

theorem elements_orFault (value : Json) : value.elements.OrFault := by
  cases value with
  | arr items => exact .value _
  | str text => exact .value _
  | obj fields => exact .value _
  | _ => exact .fault _ _

theorem first_orFault (value : Json) : value.first.OrFault := by
  unfold first
  split
  · exact .value _
  · split
    · exact .value _
    · exact .fault _ _
  · exact .fault _ _
  · exact .fault _ _
  · exact .fault _ _

theorem demandField_orFault (name : String) (value : Json) : (value.demandField name).OrFault := by
  cases value with
  | obj fields => exact .value _
  | _ => exact .fault _ _

end Json

/-! ### Payloads -/

namespace Ledger

theorem solOfLamports_orFault (lamports : Int) : (solOfLamports lamports).OrFault := by
  unfold solOfLamports
  split
  · exact .value _
  · exact .fault _ _

namespace Account

theorem decodeData_orFault (data : Json) : (decodeData data).OrFault := by
  unfold decodeData
  split
  · split_ifs
    · cases hdecode : Bytes.Base64.decode _ with
      | ok bytes => exact .value _
      | error defect => cases defect <;> exact .fault _ _
    · exact .fault _ _
  · exact .fault _ _

theorem ofPayload_orFault (payload : Json) : (ofPayload payload).OrFault := by
  have hdata (data : Json) : (dataOfPayload data).OrFault := by
    unfold dataOfPayload
    split
    · split_ifs
      · exact decodeData_orFault _
      · exact .value _
    · split_ifs
      · exact .value _
      · exact decodeData_orFault _
    · exact .value _
  exact (Json.demandField_orFault _ _).bind fun data => (hdata data).bind fun _ =>
    (Json.toInteger_orFault _).bind fun _ => .value _

end Account

theorem Instruction.ofPayload_orFault (keys : List String) (payload : Json) :
    (Instruction.ofPayload keys payload).OrFault := by
  unfold ofPayload
  dsimp only
  split_ifs
  · refine Result.OrFault.map ?_ _
    unfold accountsOfPayload
    split_ifs
    · exact (Json.elements_orFault _).map _
    · exact .value _
  · exact .value _

namespace Transaction

theorem elementsOrNone_orFault (value : Json) : (elementsOrNone value).OrFault := by
  unfold elementsOrNone
  split_ifs
  · exact Json.elements_orFault value
  · exact .value _

theorem signatureOf_orFault (asked : Option Json) (transaction : Json) :
    (signatureOf asked transaction).OrFault := by
  unfold signatureOf
  split
  · exact .value _
  · dsimp only
    split_ifs
    · exact (Json.first_orFault _).map _
    · exact .value _

theorem balanceDelta_orFault (before after : Json) : (balanceDelta before after).OrFault := by
  unfold balanceDelta
  split_ifs
  · refine Result.OrFault.orIfUnreadable ?_ _
    exact (Json.first_orFault before).bind fun _ => (Json.toInteger_orFault _).bind fun _ =>
      (Json.first_orFault after).bind fun _ => (Json.toInteger_orFault _).bind fun _ =>
        solOfLamports_orFault _
  · exact .value _

theorem ofPayload_orFault (asked : Option Json) (payload : Json) :
    (ofPayload asked payload).OrFault := by
  unfold ofPayload
  dsimp only
  split_ifs
  · refine (signatureOf_orFault _ _).bind fun signature => ?_
    refine ((elementsOrNone_orFault _).map _).bind fun keys => ?_
    refine ((elementsOrNone_orFault _).bind fun entries =>
      (Result.OrFault.mapM (Instruction.ofPayload_orFault keys) entries).bind fun found =>
        .value _).bind fun instructions => ?_
    refine (((Json.toInteger_orFault _).bind solOfLamports_orFault).orIfUnreadable _).bind
      fun fee => ?_
    exact (Json.toInteger_orFault _).bind fun slot => (balanceDelta_orFault _ _).bind fun volume =>
      .value _
  · exact .value _

end Transaction

end Ledger

end ProgramAudit
