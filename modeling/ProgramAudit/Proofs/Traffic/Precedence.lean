import ProgramAudit.Proofs.Table
import ProgramAudit.Traffic.Kind

/-!
The rules for the kind of a transaction, each said by what is among the instructions. The highest rule
that matches decides, and only the token instructions have an order that matters.
-/

namespace ProgramAudit.Traffic

open Ledger

/-- What a transaction is told by: governance, the type of its first token instruction, an exchange, a
new token, any use of the program, or nothing of these. -/
inductive Rule where
  | governance
  | token
  | exchange
  | newToken
  | ownUse
  | nothing
deriving DecidableEq

/-- An instruction has one of some types. -/
def HasType (types : List String) (instruction : Instruction) : Prop :=
  ∃ type ∈ types, instruction.parsedType = some type

namespace Rule

/-- The rules, the highest first. -/
def all : List Rule := [.governance, .token, .exchange, .newToken, .ownUse, .nothing]

/-- A rule matches the instructions of a transaction, and gives it a kind. -/
inductive Gives (policy : KindPolicy) (program : String) (instructions : List Instruction) :
    Rule → Kind → Prop
  | governance {instruction : Instruction} (hmem : instruction ∈ instructions)
    (h : instruction.programId ∈ policy.governancePrograms ∨
      HasType policy.governanceTypes instruction) :
    Gives policy program instructions .governance .governance
  | token {before after : List Instruction} {first : Instruction} {type : String} {kind : Kind}
    (hsplit : instructions = before ++ first :: after)
    (hbefore : ∀ earlier ∈ before, earlier.programId ≠ policy.tokenProgram)
    (hfirst : first.programId = policy.tokenProgram) (htype : first.parsedType = some type)
    (hlisted : Table.get? type policy.tokenTypes = some kind) :
    Gives policy program instructions .token kind
  | exchange {instruction : Instruction} (hmem : instruction ∈ instructions)
    (h : instruction.programId ∈ policy.swapPrograms ∨
      policy.programIsSwap = true ∧ instruction.programId = program) :
    Gives policy program instructions .exchange .swap
  | newToken {instruction : Instruction} (hmem : instruction ∈ instructions)
    (h : instruction.programId ∈ policy.nftPrograms ∨ HasType policy.nftTypes instruction) :
    Gives policy program instructions .newToken .nftMint
  | ownUse {instruction : Instruction} (hmem : instruction ∈ instructions)
    (h : instruction.programId = program) : Gives policy program instructions .ownUse .custom
  | nothing : Gives policy program instructions .nothing .unknown

end Rule

/-- The highest rule that matches gives the kind. -/
def Decides (policy : KindPolicy) (program : String) (instructions : List Instruction)
    (kind : Kind) : Prop :=
  ∃ higher rule lower, Rule.all = higher ++ rule :: lower ∧
    rule.Gives policy program instructions kind ∧
      ∀ above ∈ higher, ∀ other, ¬above.Gives policy program instructions other

variable {policy : KindPolicy} {program : String} {instructions reordered : List Instruction}
  {instruction : Instruction} {rule : Rule} {kind : Kind}

/-! ### What the rules ask of an instruction -/

theorem hasType_iff {types : List String} :
    KindPolicy.hasType types instruction = true ↔ HasType types instruction := by
  unfold KindPolicy.hasType HasType
  cases instruction.parsedType <;> simp

namespace KindPolicy

theorem isGovernance_iff : policy.isGovernance instruction = true ↔
    instruction.programId ∈ policy.governancePrograms ∨
      HasType policy.governanceTypes instruction := by
  simp [isGovernance, hasType_iff]

theorem isToken_iff :
    policy.isToken instruction = true ↔ instruction.programId = policy.tokenProgram := by
  simp [isToken]

theorem tokenKind?_eq_some : policy.tokenKind? instruction = some kind ↔
    ∃ type, instruction.parsedType = some type ∧ Table.get? type policy.tokenTypes = some kind :=
  Option.bind_eq_some_iff

theorem isSwap_iff : policy.isSwap program instruction = true ↔
    instruction.programId ∈ policy.swapPrograms ∨
      policy.programIsSwap = true ∧ instruction.programId = program := by
  simp [isSwap]

theorem isNftMint_iff : policy.isNftMint instruction = true ↔
    instruction.programId ∈ policy.nftPrograms ∨ HasType policy.nftTypes instruction := by
  simp [isNftMint, hasType_iff]

end KindPolicy

/-! ### The rules as they are checked -/

namespace Rule

/-- The kind that a rule gives, if it matches. -/
def kind? (policy : KindPolicy) (program : String) (instructions : List Instruction) :
    Rule → Option Kind
  | .governance => if instructions.any policy.isGovernance then some .governance else none
  | .token => (instructions.find? policy.isToken).bind policy.tokenKind?
  | .exchange => if instructions.any (policy.isSwap program) then some .swap else none
  | .newToken => if instructions.any policy.isNftMint then some .nftMint else none
  | .ownUse => if instructions.any (·.programId == program) then some .custom else none
  | .nothing => some .unknown

theorem ite_any_eq_some {test : Instruction → Bool} {given : Kind} :
    (if instructions.any test then some given else none) = some kind ↔
      given = kind ∧ ∃ instruction ∈ instructions, test instruction = true := by
  rw [← List.any_eq_true]
  split_ifs with hany <;> simp [hany]

theorem gives_token_iff : Gives policy program instructions .token kind ↔
    kind? policy program instructions .token = some kind := by
  rw [kind?, Option.bind_eq_some_iff]
  constructor
  · intro h
    cases h with
    | @token before after first type _ hsplit hbefore hfirst htype hlisted =>
        refine ⟨first, List.find?_eq_some_iff_append.mpr ⟨KindPolicy.isToken_iff.mpr hfirst, before,
          after, hsplit, fun earlier hearlier => ?_⟩,
          KindPolicy.tokenKind?_eq_some.mpr ⟨type, htype, hlisted⟩⟩
        simpa [KindPolicy.isToken] using hbefore earlier hearlier
  · rintro ⟨first, hfound, hkind⟩
    obtain ⟨hfirst, before, after, hsplit, hbefore⟩ := List.find?_eq_some_iff_append.mp hfound
    obtain ⟨type, htype, hlisted⟩ := KindPolicy.tokenKind?_eq_some.mp hkind
    refine .token hsplit (fun earlier hearlier => ?_) (KindPolicy.isToken_iff.mp hfirst) htype
      hlisted
    simpa [KindPolicy.isToken] using hbefore earlier hearlier

/-- Each rule matches when its check succeeds. -/
theorem gives_iff (rule : Rule) : rule.Gives policy program instructions kind ↔
    rule.kind? policy program instructions = some kind := by
  cases rule with
  | token => exact gives_token_iff
  | governance =>
      rw [kind?, ite_any_eq_some]
      constructor
      · intro h
        cases h with
        | governance hmem h => exact ⟨rfl, _, hmem, KindPolicy.isGovernance_iff.mpr h⟩
      · rintro ⟨rfl, instruction, hmem, h⟩
        exact .governance hmem (KindPolicy.isGovernance_iff.mp h)
  | exchange =>
      rw [kind?, ite_any_eq_some]
      constructor
      · intro h
        cases h with
        | exchange hmem h => exact ⟨rfl, _, hmem, KindPolicy.isSwap_iff.mpr h⟩
      · rintro ⟨rfl, instruction, hmem, h⟩
        exact .exchange hmem (KindPolicy.isSwap_iff.mp h)
  | newToken =>
      rw [kind?, ite_any_eq_some]
      constructor
      · intro h
        cases h with
        | newToken hmem h => exact ⟨rfl, _, hmem, KindPolicy.isNftMint_iff.mpr h⟩
      · rintro ⟨rfl, instruction, hmem, h⟩
        exact .newToken hmem (KindPolicy.isNftMint_iff.mp h)
  | ownUse =>
      rw [kind?, ite_any_eq_some]
      constructor
      · intro h
        cases h with
        | ownUse hmem h => exact ⟨rfl, _, hmem, beq_iff_eq.mpr h⟩
      · rintro ⟨rfl, instruction, hmem, h⟩
        exact .ownUse hmem (beq_iff_eq.mp h)
  | nothing =>
      constructor
      · intro h
        cases h
        rfl
      · rintro ⟨⟩
        exact .nothing

theorem not_gives_iff : (∀ other, ¬rule.Gives policy program instructions other) ↔
    rule.kind? policy program instructions = none := by
  rw [Option.eq_none_iff_forall_ne_some]
  exact forall_congr' fun other => not_congr (gives_iff rule)

/-- What does not come behind a rule is higher than it. -/
theorem mem_higher {higher lower : List Rule} {above : Rule} (hall : all = higher ++ rule :: lower)
    (hmem : above ∈ all) (hbehind : ¬(rule :: [above]).Sublist all) (hne : above ≠ rule) :
    above ∈ higher := by
  rw [hall] at hmem hbehind
  rcases List.mem_append.mp hmem with hhigher | hrest
  · exact hhigher
  · have hlower : above ∈ lower := List.mem_of_ne_of_mem hne hrest
    have hsublist : (rule :: [above]).Sublist (rule :: lower) :=
      (List.singleton_sublist.mpr hlower).cons_cons rule
    exact absurd (hsublist.trans (List.sublist_append_right higher (rule :: lower))) hbehind

/-- Of the order of the instructions a rule sees only the one among the token instructions. -/
theorem kind?_perm (hperm : reordered.Perm instructions)
    (htokens : reordered.filter policy.isToken = instructions.filter policy.isToken) (rule : Rule) :
    rule.kind? policy program reordered = rule.kind? policy program instructions := by
  cases rule with
  | token =>
      have hfirst : reordered.find? policy.isToken = instructions.find? policy.isToken := by
        rw [← List.head?_filter, htokens, List.head?_filter]
      rw [kind?, kind?, hfirst]
  | nothing => rfl
  | _ => rw [kind?, kind?, hperm.any_eq]

end Rule

/-! ### The rule that decides -/

/-- A transaction has the kind that the first of the rules gives. -/
theorem findSome?_all (policy : KindPolicy) (program : String) (transaction : Transaction) :
    Rule.all.findSome? (Rule.kind? policy program transaction.instructions) =
      some (kindOf policy program transaction) := by
  simp only [Rule.all, List.findSome?_cons, Rule.kind?, kindOf]
  generalize transaction.instructions = instructions
  cases instructions.any policy.isGovernance with
  | true => rfl
  | false =>
      cases (instructions.find? policy.isToken).bind policy.tokenKind? with
      | some kind => rfl
      | none =>
          cases instructions.any (policy.isSwap program) with
          | true => rfl
          | false =>
              cases instructions.any policy.isNftMint with
              | true => rfl
              | false => cases instructions.any (·.programId == program) <;> rfl

theorem decides_iff : Decides policy program instructions kind ↔
    Rule.all.findSome? (Rule.kind? policy program instructions) = some kind := by
  rw [List.findSome?_eq_some_iff]
  refine exists_congr fun higher => exists_congr fun rule => exists_congr fun lower => ?_
  exact and_congr_right' (and_congr (Rule.gives_iff rule)
    (forall₂_congr fun above _ => Rule.not_gives_iff))

theorem kindOf_eq_iff {transaction : Transaction} : kindOf policy program transaction = kind ↔
    Decides policy program transaction.instructions kind := by
  rw [decides_iff, findSome?_all, Option.some.injEq]

theorem kindOf_perm {transaction : Transaction} (hperm : reordered.Perm transaction.instructions)
    (htokens : reordered.filter policy.isToken =
      transaction.instructions.filter policy.isToken) :
    kindOf policy program { transaction with instructions := reordered } =
      kindOf policy program transaction := by
  have hrules : Rule.kind? policy program reordered =
      Rule.kind? policy program transaction.instructions := by
    funext rule
    exact Rule.kind?_perm hperm htokens rule
  have hfound := findSome?_all policy program { transaction with instructions := reordered }
  rw [hrules, findSome?_all] at hfound
  exact (Option.some.inj hfound).symm

/-- Where any use of the program is an exchange, the rule for an exchange is above the one for other
uses, so only the type of a token instruction could stand for such a use. -/
theorem kindOf_ne_custom (hswap : policy.programIsSwap = true)
    (htypes : ∀ type, Table.get? type policy.tokenTypes ≠ some .custom)
    (transaction : Transaction) : kindOf policy program transaction ≠ .custom := by
  intro hcustom
  obtain ⟨higher, rule, lower, hall, hgives, habove⟩ := kindOf_eq_iff.mp hcustom
  cases hgives with
  | token _ _ _ _ hlisted => exact htypes _ hlisted
  | ownUse hmem hprogram =>
      have hexchange : Rule.exchange ∈ higher := Rule.mem_higher hall (by decide) (by decide) (by decide)
      exact habove .exchange hexchange .swap (.exchange hmem (.inr ⟨hswap, hprogram⟩))

/-- Transfers, mints and burns are told by a token instruction alone. -/
theorem any_isToken_of_kindOf {transaction : Transaction}
    (h : kindOf policy program transaction = kind) (hkind : kind ∈ [Kind.transfer, .mint, .burn]) :
    transaction.instructions.any policy.isToken = true := by
  obtain ⟨higher, rule, lower, hall, hgives, habove⟩ := kindOf_eq_iff.mp h
  cases hgives with
  | @token before after first _ _ hsplit _ hfirst _ _ =>
      have hmem : first ∈ transaction.instructions := by
        rw [hsplit]
        exact List.mem_append_right before List.mem_cons_self
      exact List.any_eq_true.mpr ⟨first, hmem, KindPolicy.isToken_iff.mpr hfirst⟩
  | _ => simp at hkind

theorem nonStandard_of_mem_classify {transactions : List Transaction} {classified : Classified}
    (hmem : classified ∈ classify policy program transactions)
    (hkind : classified.kind ∈ [Kind.transfer, .mint, .burn]) : classified.nonStandard = false := by
  obtain ⟨transaction, -, rfl⟩ := List.mem_map.mp hmem
  have htoken := any_isToken_of_kindOf rfl hkind
  simp only [Classified.ofTransaction, isNonStandard, htoken, Bool.not_true]

/-- The kind of a transaction is the one that the highest matching rule gives. So it stays the same
however the instructions are put in another order that keeps the token instructions in theirs. Where any
use of the program is an exchange, no transaction is a custom one unless a type stands for that. Under
every policy, the default one too, a transfer, mint or burn is no transaction without token
instructions. -/
theorem kind_by_precedence (policy : KindPolicy) (program : String) :
    (∀ (transaction : Transaction) (kind : Kind), kindOf policy program transaction = kind ↔
      Decides policy program transaction.instructions kind) ∧
    (∀ (transaction : Transaction) (reordered : List Instruction),
      reordered.Perm transaction.instructions →
      reordered.filter policy.isToken = transaction.instructions.filter policy.isToken →
        kindOf policy program { transaction with instructions := reordered } =
          kindOf policy program transaction) ∧
    (policy.programIsSwap = true →
      (∀ type, Table.get? type policy.tokenTypes ≠ some .custom) →
        ∀ transaction, kindOf policy program transaction ≠ .custom) ∧
    ∀ transactions, ∀ classified ∈ classify policy program transactions,
      classified.kind ∈ [Kind.transfer, .mint, .burn] → classified.nonStandard = false :=
  ⟨fun _ _ => kindOf_eq_iff, fun _ _ => kindOf_perm, kindOf_ne_custom,
    fun _ _ => nonStandard_of_mem_classify⟩

/-- A burn goes before the exchange beside it and the transfer behind it, and moves to the front. -/
theorem kind_by_precedence_burn :
    let policy : KindPolicy := {}
    let exchange : Instruction := ⟨"675kPX9MHTjS2zt1qfr1NYHuzeLXfQM9H24wFSUt1Mp8", [], none⟩
    let burn : Instruction := ⟨policy.tokenProgram, [], some ⟨"burn", []⟩⟩
    let transfer : Instruction := ⟨policy.tokenProgram, [], some ⟨"transfer", []⟩⟩
    let transaction : Transaction :=
      { signature := .str "signature", slot := 1, blockTime := .null,
        instructions := [exchange, burn, transfer], volume := 0.0, fee := 0.0 }
    let reordered : List Instruction := [burn, exchange, transfer]
    reordered.Perm transaction.instructions ∧
      reordered.filter policy.isToken = transaction.instructions.filter policy.isToken ∧
      policy.programIsSwap = true ∧
      (∀ type, Table.get? type policy.tokenTypes ≠ some .custom) ∧
      Decides policy "program" transaction.instructions .burn ∧
      kindOf policy "program" { transaction with instructions := reordered } = .burn ∧
      kindOf policy "program" transaction ≠ .custom ∧
      (Classified.ofTransaction policy "program" transaction).nonStandard = false := by
  intro policy exchange burn transfer transaction reordered
  obtain ⟨hdecides, hreordered, hcustom, hstandard⟩ := kind_by_precedence policy "program"
  have hkind : kindOf policy "program" transaction = .burn := by decide
  have hperm : reordered.Perm transaction.instructions := .swap exchange burn [transfer]
  have htokens :
      reordered.filter policy.isToken = transaction.instructions.filter policy.isToken := rfl
  have htypes (type : String) : Table.get? type policy.tokenTypes ≠ some .custom := by
    intro hfound
    have hmem : Kind.custom ∈ policy.tokenTypes.map Prod.snd :=
      List.mem_map_of_mem (f := Prod.snd) (Table.mem_of_get? hfound)
    revert hmem
    decide
  refine ⟨hperm, htokens, rfl, htypes, (hdecides transaction .burn).mp hkind,
    (hreordered transaction reordered hperm htokens).trans hkind, hcustom rfl htypes transaction,
    hstandard [transaction] _ List.mem_cons_self ?_⟩
  simp [Classified.ofTransaction, hkind]

end ProgramAudit.Traffic
