import Mathlib.Data.Multiset.Bind
import ProgramAudit.Ledger.Recorded
import ProgramAudit.Proofs.Failure
import ProgramAudit.Proofs.Routine.Logs
import ProgramAudit.Proofs.Table
import ProgramAudit.Traffic.Economics

/-!
The mints of a window and their decimals: which mints are looked up, what a look-up asks and is told,
and by which power of ten the amount of a transfer is scaled.
-/

namespace ProgramAudit

open Ledger Routine

variable {τ σ : Type}

namespace Ledger

/-- What is asked of a source, and what it answers about mints. -/
inductive Inquiry where
  | asked (call : Call)
  | answered (mint : String) (answer : Result (Option Mint))

/-- The same source, which notes its calls and what it answers about mints. -/
def Source.inquired (source : Source τ σ) : Source τ (σ × List Inquiry) where
  account address := (source.account address).observed [.asked (.account address)] fun _ => []
  transactions address limit :=
    (source.transactions address limit).observed [.asked (.transactions address limit)] fun _ => []
  mint mint := (source.mint mint).observed [.asked (.mint mint)] fun result =>
    [.answered mint result]

end Ledger

namespace Traffic

variable {policy : EconomicPolicy} {instruction : Instruction} {window : List Classified}
  {mint : String}

/-- A transfer of tokens that names its mint. -/
def Transfers (policy : EconomicPolicy) (instruction : Instruction) (mint : String) : Prop :=
  policy.isTransfer instruction = true ∧ (instruction.infoField "mint").isPresent = true ∧
    (instruction.infoField "mint").text = mint

namespace Mints

def Reserved (mint : String) : Prop := mint = sol ∨ mint = governance

instance (mint : String) : Decidable (Reserved mint) :=
  inferInstanceAs (Decidable (mint = sol ∨ mint = governance))

/-! ### Which mints are looked up -/

theorem lookedUp?_eq_some :
    lookedUp? policy instruction = some mint ↔
      Transfers policy instruction mint ∧ ¬Reserved mint := by
  unfold lookedUp? Transfers Reserved
  simp only [Option.ite_none_right_eq_some, Bool.and_eq_true, bne_iff_ne, Option.some.injEq,
    not_or]
  constructor
  · rintro ⟨⟨⟨⟨htransfer, hpresent⟩, hsol⟩, hgovernance⟩, rfl⟩
    exact ⟨⟨htransfer, hpresent, rfl⟩, hsol, hgovernance⟩
  · rintro ⟨⟨htransfer, hpresent, rfl⟩, hsol, hgovernance⟩
    exact ⟨⟨⟨⟨htransfer, hpresent⟩, hsol⟩, hgovernance⟩, rfl⟩

theorem mem_ofWindow : mint ∈ ofWindow policy window ↔
    (∃ classified ∈ window, ∃ instruction ∈ classified.transaction.instructions,
      Transfers policy instruction mint) ∧ ¬Reserved mint := by
  simp only [ofWindow, mem_distinct, List.mem_flatMap, List.mem_filterMap, lookedUp?_eq_some]
  constructor
  · rintro ⟨classified, hclassified, instruction, hinstruction, htransfers, hfree⟩
    exact ⟨⟨classified, hclassified, instruction, hinstruction, htransfers⟩, hfree⟩
  · rintro ⟨⟨classified, hclassified, instruction, hinstruction, htransfers⟩, hfree⟩
    exact ⟨classified, hclassified, instruction, hinstruction, htransfers, hfree⟩

theorem nodup_ofWindow (policy : EconomicPolicy) (window : List Classified) :
    (ofWindow policy window).Nodup := nodup_distinct _

/-! ### What a look-up finds -/

/-- The decimals that an answer gives: those of the metadata if they are an integer, else the
default. -/
def given : Result (Option Mint) → Int
  | .ok (some found) => found.decimals.integer?.getD Mint.defaultDecimals
  | _ => Mint.defaultDecimals

/-- The power of ten by which amounts of a mint are scaled. Reserved mints have the default. -/
def exponent (answer : String → Result (Option Mint)) (mint : String) : Int :=
  if Reserved mint then Mint.defaultDecimals else given (answer mint)

theorem integer?_of_decimalsOf {answer : Result (Option Mint)} {value : Json}
    (h : decimalsOf answer = .ok value) :
    value.integer?.getD Mint.defaultDecimals = given answer := by
  match answer with
  | .error failure =>
      cases h
      rfl
  | .ok none => cases h
  | .ok (some found) =>
      cases h
      show _ = found.decimals.integer?.getD Mint.defaultDecimals
      split
      case isTrue => rfl
      case isFalse hinteger =>
        rw [Option.not_isSome_iff_eq_none.mp hinteger]
        rfl

/-- What was asked and told about some mints, and the decimals that came of it. -/
def LookedUp (mints : List String) (own : Multiset Inquiry) (decimals : Decimals) : Prop :=
  ∃ answer : String → Result (Option Mint),
    own = (mints : Multiset String).bind
      (fun mint => {.asked (.mint mint), .answered mint (answer mint)}) ∧
    ∀ mint, decimals.of mint =
      if mint ∈ mints then given (answer mint) else Mint.defaultDecimals

theorem lookedUp_of_found {mints : List String} {found : List (Result (Option Mint))}
    {values : List Json} (hnodup : mints.Nodup) (hlength : found.length = mints.length)
    (hvalues : found.mapM decimalsOf = .ok values) :
    LookedUp mints (List.zipWith (fun mint answer =>
      ({.asked (.mint mint), .answered mint answer} : Multiset Inquiry)) mints found).sum
      (mints.zip values) := by
  have heach := Result.mapM_eq_ok.mp hvalues
  obtain ⟨value, rfl⟩ := exists_map_of_nodup (β := Json) hnodup (heach.length_eq.trans hlength)
  obtain ⟨answer, rfl⟩ := exists_map_of_nodup (β := Result (Option Mint)) hnodup hlength
  have hdecimals : ∀ mint ∈ mints, decimalsOf (answer mint) = .ok (value mint) := by
    rw [List.forall₂_map_left_iff, List.forall₂_map_right_iff] at heach
    exact List.forall₂_same.mp heach
  have hzip : mints.zip (mints.map value) = mints.map fun mint => (mint, value mint) :=
    List.map_prod_left_eq_zip.symm
  refine ⟨answer, ?_, fun mint => ?_⟩
  · rw [List.zipWith_map_right, List.zipWith_self]
    rfl
  · rw [hzip, Decimals.of, Table.get?_map_pair]
    by_cases hmem : mint ∈ mints
    · rw [if_pos hmem, if_pos hmem]
      exact integer?_of_decimalsOf (hdecimals mint hmem)
    · rw [if_neg hmem, if_neg hmem]
      rfl

/-! ### What a look-up asks -/

theorem logs_attempt_inquired (source : Source τ σ) (mint : String) :
    (source.inquired.mint mint).attempt.Logs (Writes fun answer =>
      {.asked (.mint mint), .answered mint answer}) Once 0 none := by
  have hmint : (source.inquired.mint mint).Logs (fun own seen => ∀ answer, seen = some answer →
      own = {.asked (.mint mint), .answered mint answer}) Once 0 none := by
    refine logs_observed (source.mint mint) nofun nofun (fun _ => nofun) fun result => ?_
    rintro answer ⟨⟩
    exact Multiset.pair_comm (Inquiry.answered mint result) (.asked (.mint mint))
  refine logs_mapResult hmint fun own seen hwrites answer hanswer => ?_
  obtain ⟨result, rfl, hresult⟩ := Option.map_eq_some_iff.mp hanswer
  cases hresult
  exact hwrites _ rfl

/-- Nothing is written any more once the answers are there, and they give the mints their
decimals. -/
def ReadOut (mints : List String) (found : List (Result (Option Mint))) (own : Multiset Inquiry)
    (seen : Option (Result Decimals)) : Prop :=
  own = 0 ∧ ∀ decimals, seen = some (.ok decimals) →
    ∃ values, found.mapM decimalsOf = .ok values ∧ decimals = mints.zip values

variable [Clock τ]

theorem logs_readOut (mints : List String) (found : List (Result (Option Mint))) :
    ((notes (failures mints found)).bind fun _ =>
      (ofResult (found.mapM decimalsOf)).bind fun values => succeed (mints.zip values) :
        Routine τ (σ × List Inquiry) Decimals).Logs (ReadOut mints found) Once 0 none := by
  refine logs_bind_quiet (logs_notes rfl rfl) ⟨rfl, nofun⟩ (fun _ => ⟨rfl, nofun⟩) fun _ => ?_
  cases hread : found.mapM decimalsOf with
  | error failure => exact logs_error_bind ⟨rfl, nofun⟩ ⟨rfl, nofun⟩
  | ok values =>
      refine logs_ok_bind (logs_ofResult ⟨rfl, nofun⟩ ⟨rfl, fun decimals hdecimals => ?_⟩)
      cases hdecimals
      exact ⟨values, hread, rfl⟩

theorem logs_lookUp (source : Source τ σ) {mints : List String} (hnodup : mints.Nodup) :
    (lookUp source.inquired mints).Logs (fun own seen => ∀ decimals,
      seen = some (.ok decimals) → LookedUp mints own decimals) Once 0 none := by
  have hasked := logs_all (logs_attempt_inquired source) mints
  unfold lookUp
  rw [distinct_of_nodup hnodup]
  refine (logs_bind hasked fun found _ _ => logs_readOut mints found).mono
    fun own seen hthen => ?_
  cases hthen with
  | first => exact nofun
  | failed => exact nofun
  | @second before after found _ hfound hlast =>
      obtain ⟨rfl, hdecimals⟩ := hlast
      rintro decimals rfl
      obtain ⟨values, hvalues, rfl⟩ := hdecimals decimals rfl
      obtain ⟨hlength, rfl⟩ := hfound found rfl
      rw [add_zero]
      exact lookedUp_of_found hnodup hlength hvalues

end Mints

/-! ### Transfers -/

/-- A transfer that names its mint is scaled by the decimals of that mint. -/
theorem amount_ofInstruction? {decimals : Decimals} {program : String} {classified : Classified}
    (h : Transfers policy instruction mint) :
    (Flow.ofInstruction? policy decimals program classified instruction).map
        (Option.map Flow.amount) =
      (Flow.scaled (decimals.of mint) (Flow.rawAmount instruction)).map some := by
  obtain ⟨htransfer, hpresent, rfl⟩ := h
  have hmint : (instruction.infoField "mint").orElse (.str Mint.unknownText) =
      instruction.infoField "mint" := by rw [Json.orElse, if_pos hpresent]
  simp only [Flow.ofInstruction?, htransfer, if_true, Flow.ofTransfer, hmint]
  cases Flow.scaled (decimals.of (instruction.infoField "mint").text)
    (Flow.rawAmount instruction) with
  | error failure => rfl
  | ok amount => rfl

end Traffic

end ProgramAudit
