import ProgramAudit.Proofs.Failure
import ProgramAudit.Traffic.Flow

/-!
The two sides of a program. A movement from it is on the outer side, any other movement to it on the
inner one, and all others are on neither.
-/

namespace ProgramAudit

theorem Json.beq_str_iff {value : Json} {text : String} :
    (value == .str text) = true ↔ value = .str text := by
  cases value with
  | str other =>
      change (other == text) = true ↔ _
      rw [beq_iff_eq, Json.str.injEq]
  | _ => exact iff_of_false Bool.false_ne_true nofun

namespace Traffic

open Ledger Result

namespace Flow

inductive Side where
  | inward
  | outward
deriving DecidableEq

namespace Side

/-- The movements that count on a side of a program. -/
def counts (side : Side) (program : String) (flow : Flow) : Bool :=
  match side with
  | .inward => flow.isTo program
  | .outward => flow.isFrom program

/-- What a movement counts for: the account on its other end, the mint and the kind. -/
def entry (side : Side) (flow : Flow) : Entry :=
  match side with
  | .inward => flow.inflow
  | .outward => flow.outflow

def entries (side : Side) (program : String) (flows : List Flow) : List Entry :=
  (flows.filter (side.counts program)).map side.entry

/-- The groups that are reported of a side. -/
def reported (side : Side) (flows : TokenFlows) : List TokenFlow :=
  match side with
  | .inward => flows.topInflows
  | .outward => flows.topOutflows

variable {program : String} {flow : Flow}

theorem counts_outward_iff : outward.counts program flow = true ↔ flow.source = .str program :=
  Json.beq_str_iff

theorem counts_inward_iff : inward.counts program flow = true ↔
    flow.source ≠ .str program ∧ flow.destination = .str program := by
  change (!(flow.source == .str program) && flow.destination == .str program) = true ↔ _
  rw [Bool.and_eq_true, Bool.not_eq_true', ← Bool.not_eq_true, Json.beq_str_iff, Json.beq_str_iff]

end Side

section

variable (policy : EconomicPolicy) (decimals : Decimals) (program : String)

/-- The movements of all transactions that have two ends. -/
def ofWindow (window : List Classified) : Result (List Flow) :=
  (window.mapM (ofClassified policy decimals program)).map List.flatten

/-- The movement with two ends that an instruction of a transaction shows, if it can be read. -/
def shownBy (classified : Classified) (instruction : Instruction) : Option Flow :=
  (ofInstruction? policy decimals program classified instruction).toOption.join.filter hasEnds

def shown (classified : Classified) : List Flow :=
  classified.transaction.instructions.filterMap (shownBy policy decimals program classified)

end

section

variable {policy : EconomicPolicy} {decimals : Decimals} {program : String} {classified : Classified}
  {window : List Classified} {flows : List Flow}

theorem ofClassified_eq_shown (h : ofClassified policy decimals program classified = .ok flows) :
    flows = shown policy decimals program classified := by
  obtain ⟨found, hfound, hflows⟩ := bind_eq_ok.mp h
  cases hflows
  have heach := mapM_eq_ok.mp hfound
  rw [shown]
  clear hfound h
  generalize classified.transaction.instructions = instructions at heach ⊢
  induction heach with
  | nil => rfl
  | @cons found instruction _ _ hfound _ ih =>
      rw [List.filterMap_cons, List.filterMap_cons, shownBy, hfound, ← ih]
      cases found with
      | none => rfl
      | some flow =>
          by_cases hends : flow.hasEnds = true <;> simp [hends, Except.toOption, Option.filter]

theorem ofWindow_eq_shown (h : ofWindow policy decimals program window = .ok flows) :
    flows = window.flatMap (shown policy decimals program) := by
  obtain ⟨each, heach, rfl⟩ := map_eq_ok.mp h
  have hshown := mapM_eq_ok.mp heach
  clear h heach
  induction hshown with
  | nil => rfl
  | cons hflows _ ih => rw [List.flatMap_cons, List.flatten_cons, ih, ofClassified_eq_shown hflows]

end

end Flow

namespace TokenFlows

open ProgramAudit.Traffic.Flow

variable {policy : EconomicPolicy} {decimals : Decimals} {program : String}
  {window : List Classified} {reported : TokenFlows}

/-- What is reported of a window, from its movements on: the groups of both sides, and whether the
outer ones are concentrated. -/
theorem ofWindow_eq_ok : ofWindow policy decimals program window = .ok reported ↔
    ∃ flows outflows inflows risk, Flow.ofWindow policy decimals program window = .ok flows ∧
      TokenFlow.group (Side.outward.entries program flows) = .ok outflows ∧
      TokenFlow.group (Side.inward.entries program flows) = .ok inflows ∧
      isConcentrated policy outflows = .ok risk ∧
      reported = ⟨upTo policy.topFlows inflows, upTo policy.topFlows outflows, risk⟩ := by
  unfold ofWindow
  simp only [bind_eq_ok, pure_eq_ok, Flow.ofWindow, map_eq_ok]
  constructor
  · rintro ⟨each, heach, outflows, hout, inflows, hin, risk, hrisk, rfl⟩
    exact ⟨_, outflows, inflows, risk, ⟨each, heach, rfl⟩, hout, hin, hrisk, rfl⟩
  · rintro ⟨_, outflows, inflows, risk, ⟨each, heach, rfl⟩, hout, hin, hrisk, rfl⟩
    exact ⟨each, heach, outflows, hout, inflows, hin, risk, hrisk, rfl⟩

end TokenFlows

/-! ### Transfers -/

/-- A transfer of tokens as the token program tells of it. -/
def transferOf (source destination : Json) (mint : String) (amount : Json) : Instruction :=
  { programId := ({} : EconomicPolicy).tokenProgram
    accounts := []
    parsed := some {
      type := "transfer"
      info := [("source", source), ("destination", destination), ("mint", .str mint),
        ("amount", amount)] } }

/-- A transaction of a program that does no more than its instructions. -/
def classifiedOf (program : String) (instructions : List Instruction) : Classified :=
  .ofTransaction {} program {
    signature := .null
    slot := 0
    blockTime := .null
    instructions
    volume := 0
    fee := 0 }

end Traffic

end ProgramAudit
