import ProgramAudit.Proofs.Traffic.Sides
import ProgramAudit.Traffic.Economics

/-!
Instructions told otherwise. What an instruction is told to be, apart from its program and its type,
touches its own movement only, and of what a window amounts to nothing but the flows.
-/

namespace ProgramAudit.Traffic

open Ledger Result

open ProgramAudit.Traffic.Flow

variable {policy : EconomicPolicy} {decimals : Decimals} {program : String}
  {first last : List Instruction} {told retold : Instruction}

/-- The kind of a transaction comes from the programs and the types of its instructions alone. -/
theorem ofTransaction_retold (policy : KindPolicy) (program : String) (transaction : Transaction)
    (first last : List Instruction) (hprogram : retold.programId = told.programId)
    (htype : retold.parsedType = told.parsedType) :
    let classifiedOf (instruction : Instruction) := Classified.ofTransaction policy program
      { transaction with instructions := first ++ instruction :: last }
    (classifiedOf retold).kind = (classifiedOf told).kind ∧
      (classifiedOf retold).nonStandard = (classifiedOf told).nonStandard := by
  have hgovernance : policy.isGovernance retold = policy.isGovernance told := by
    simp only [KindPolicy.isGovernance, KindPolicy.hasType, hprogram, htype]
  have htoken : policy.isToken retold = policy.isToken told := by
    simp only [KindPolicy.isToken, hprogram]
  have hkind : policy.tokenKind? retold = policy.tokenKind? told := by
    simp only [KindPolicy.tokenKind?, htype]
  have hswap : policy.isSwap program retold = policy.isSwap program told := by
    simp only [KindPolicy.isSwap, hprogram]
  have hnft : policy.isNftMint retold = policy.isNftMint told := by
    simp only [KindPolicy.isNftMint, KindPolicy.hasType, hprogram, htype]
  have hfound : ((first ++ retold :: last).find? policy.isToken).bind policy.tokenKind? =
      ((first ++ told :: last).find? policy.isToken).bind policy.tokenKind? := by
    rw [List.find?_append, List.find?_append, List.find?_cons, List.find?_cons, htoken]
    cases first.find? policy.isToken with
    | some instruction => rfl
    | none =>
        cases policy.isToken told with
        | true => exact hkind
        | false => rfl
  constructor
  · simp only [Classified.ofTransaction, kindOf, List.any_append, List.any_cons, hgovernance, hswap,
      hnft, hprogram, hfound]
  · simp only [Classified.ofTransaction, isNonStandard, List.any_append, List.any_cons, htoken]

/-- A transaction told otherwise in one of its instructions: it is of the same kind, and all that is
not an instruction is the same. -/
structure SameApart (classified classified' : Classified) (first last : List Instruction)
    (told retold : Instruction) : Prop where
  kind : classified'.kind = classified.kind
  nonStandard : classified'.nonStandard = classified.nonStandard
  volume : classified'.transaction.volume = classified.transaction.volume
  fee : classified'.transaction.fee = classified.transaction.fee
  instructions : classified.transaction.instructions = first ++ told :: last
  instructions' : classified'.transaction.instructions = first ++ retold :: last

theorem sameApart_retold (policy : KindPolicy) (program : String) (transaction : Transaction)
    (first last : List Instruction) (hprogram : retold.programId = told.programId)
    (htype : retold.parsedType = told.parsedType) :
    SameApart
      (.ofTransaction policy program { transaction with instructions := first ++ told :: last })
      (.ofTransaction policy program { transaction with instructions := first ++ retold :: last })
      first last told retold :=
  have hsame := ofTransaction_retold policy program transaction first last hprogram htype
  ⟨hsame.1, hsame.2, rfl, rfl, rfl, rfl⟩

variable {classified classified' : Classified} {before behind : List Classified}

/-- The movements of the other instructions stay where they are. -/
theorem SameApart.flows_eq (h : SameApart classified classified' first last told retold)
    (policy : EconomicPolicy) (decimals : Decimals) (program : String)
    (before behind : List Classified) : ∃ (others others' : List Flow) (own own' : Option Flow),
      (before ++ classified :: behind).flatMap (shown policy decimals program) =
        others ++ own.toList ++ others' ∧
      (before ++ classified' :: behind).flatMap (shown policy decimals program) =
        others ++ own'.toList ++ others' := by
  have hsame : shownBy policy decimals program classified' =
      shownBy policy decimals program classified := by
    funext instruction
    simp only [shownBy, ofInstruction?, ofSwap, h.kind, h.volume]
  have hshown (instruction : Instruction) :
      (first ++ instruction :: last).filterMap (shownBy policy decimals program classified) =
        first.filterMap (shownBy policy decimals program classified) ++
          (shownBy policy decimals program classified instruction).toList ++
            last.filterMap (shownBy policy decimals program classified) := by
    rw [List.filterMap_append, List.filterMap_cons]
    cases shownBy policy decimals program classified instruction <;> simp
  refine ⟨before.flatMap (shown policy decimals program) ++
      first.filterMap (shownBy policy decimals program classified),
    last.filterMap (shownBy policy decimals program classified) ++
      behind.flatMap (shown policy decimals program),
    shownBy policy decimals program classified told,
    shownBy policy decimals program classified retold, ?_, ?_⟩
  · rw [List.flatMap_append, List.flatMap_cons, shown, h.instructions, hshown]
    simp only [List.append_assoc]
  · rw [List.flatMap_append, List.flatMap_cons, shown, h.instructions', hsame, hshown]
    simp only [List.append_assoc]

theorem SameApart.economics_eq (h : SameApart classified classified' first last told retold)
    {economics economics' : Economics}
    (hok : Economics.ofWindow policy decimals program (before ++ classified :: behind) = .ok economics)
    (hok' : Economics.ofWindow policy decimals program (before ++ classified' :: behind) =
      .ok economics') :
    { economics' with tokenFlows := economics.tokenFlows } = economics := by
  have hvolumes : (before ++ classified' :: behind).map Economics.volumeOf =
      (before ++ classified :: behind).map Economics.volumeOf := by
    simp [Economics.volumeOf, h.volume]
  have hfee : Economics.averageFeeOf (before ++ classified' :: behind) =
      Economics.averageFeeOf (before ++ classified :: behind) := by
    simp [Economics.averageFeeOf, h.fee]
  have hkinds : Economics.tallyKind (before ++ classified' :: behind) =
      Economics.tallyKind (before ++ classified :: behind) := by
    funext kind
    by_cases hkind : classified.kind = kind <;>
      simp [Economics.tallyKind, Economics.volumeOf, h.kind, h.volume, hkind]
  have hsuspicious : ((before ++ classified' :: behind).filter Classified.nonStandard).map
      Economics.volumeOf =
        ((before ++ classified :: behind).filter Classified.nonStandard).map Economics.volumeOf := by
    by_cases hkind : classified.nonStandard = true <;>
      simp [Economics.volumeOf, h.nonStandard, h.volume, hkind]
  simp only [Economics.ofWindow, bind_eq_ok, pure_eq_ok, hvolumes, hfee, hkinds, hsuspicious] at hok hok'
  obtain ⟨flows, -, volatility, hvolatility, rfl⟩ := hok
  obtain ⟨flows', -, volatility', hvolatility', rfl⟩ := hok'
  cases Except.ok.inj (hvolatility.symm.trans hvolatility')
  simp

end ProgramAudit.Traffic
