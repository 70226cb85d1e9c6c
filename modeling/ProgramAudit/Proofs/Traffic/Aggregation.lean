import ProgramAudit.Proofs.Ledger.Defects
import ProgramAudit.Proofs.Number.DoubleRange
import ProgramAudit.Proofs.Traffic.Contributions
import ProgramAudit.Proofs.Traffic.Directions
import ProgramAudit.Proofs.Traffic.Retelling

/-!
When a window cannot be aggregated. An amount that cannot be read counts as nothing, and what else a
transfer is told to be touches its own movement only. But some transfers fail the whole window: an
integer past the doubles, a power of ten past them or below, and an account that is no key.
-/

namespace ProgramAudit

open Result

/-! ### Volumes -/

namespace Ledger.Transaction

theorem isFinite_balanceDelta {before after : Json} {volume : Float}
    (h : balanceDelta before after = .ok volume) : Number.isFinite volume = true := by
  unfold balanceDelta at h
  split_ifs at h
  · rcases eq_or_of_orIfUnreadable h with rfl | h
    · decide +kernel
    · simp only [bind_eq_ok] at h
      obtain ⟨_, -, _, -, _, -, _, -, h⟩ := h
      unfold solOfLamports at h
      split at h
      · cases h
        exact Number.isFinite_of_quotient? ‹_›
      · cases h
  · cases h
    decide +kernel

/-- A transaction that was read moves a finite volume. -/
theorem isFinite_volume {asked : Option Json} {payload : Json} {transaction : Transaction}
    (h : ofPayload asked payload = .ok (some transaction)) :
    Number.isFinite transaction.volume = true := by
  unfold ofPayload at h
  dsimp only at h
  split_ifs at h
  · simp only [bind_eq_ok, pure_eq_ok, Option.some.injEq] at h
    obtain ⟨_, -, _, -, _, -, _, -, _, -, volume, hvolume, rfl⟩ := h
    exact isFinite_balanceDelta hvolume
  · cases h

end Ledger.Transaction

namespace Traffic

open Ledger

namespace Flow

/-! ### Transfers -/

theorem fails_scaled {decimals : Int} {amount : Result Float} :
    Fails (scaled decimals amount) ↔ Fails amount ∨ 309 ≤ decimals ∨ decimals ≤ -324 := by
  unfold scaled
  split_ifs with hwhole
  · have hscale : Fails (Json.doubleOf (Number.tenTo decimals.toNat)) ↔ 309 ≤ decimals := by
      rw [Json.fails_doubleOf, Number.doubleOfInt?_tenTo_eq_none]
      omega
    have hrest (x : Float) : Fails (do return x / (← Json.doubleOf (Number.tenTo decimals.toNat))) ↔
        309 ≤ decimals := (fails_bind_iff_left fun _ _ => not_failsBy_ok).trans hscale
    refine (fails_bind fun x _ => hrest x).trans (or_congr_right ?_)
    exact ⟨.inl, fun h => h.resolve_right (by omega)⟩
  · have hrest (x : Float) : Fails
        (if (Number.nearestDouble false 1 (Number.tenTo (min decimals.natAbs 400)) == 0.0) = true then
          (.error .zeroDivision : Result Float)
        else return x / Number.nearestDouble false 1 (Number.tenTo (min decimals.natAbs 400))) ↔
          decimals ≤ -324 := by
      refine failsBy_ite.trans ?_
      rw [Number.vanishes_iff, and_iff_left (failsBy_error.mpr trivial)]
      omega
    have hexponent : Fails (Json.doubleOf decimals) → decimals ≤ -324 := by
      intro h
      have hlarge := Number.doubleOfInt?_eq_none_of_neg (Json.fails_doubleOf.mp h) (by omega)
      omega
    refine (fails_bind fun _ _ => fails_bind fun x _ => hrest x).trans ⟨?_, ?_⟩
    · rintro (h | h | h)
      · exact .inr (.inr (hexponent h))
      · exact .inl h
      · exact .inr (.inr h)
    · rintro (h | h | h)
      · exact .inr (.inl h)
      · omega
      · exact .inr (.inr h)

/-- The mint that a transfer names. -/
def transferMint (instruction : Instruction) : String :=
  ((instruction.infoField "mint").orElse (.str Mint.unknownText)).text

/-- The amount of a transfer is an integer past the doubles, or a power of ten is past them or vanishes
among them. -/
inductive Unscalable (decimals : Decimals) (instruction : Instruction) : Prop
  | amount {value : Int} (hamount : givenAmount instruction = .int value)
    (hlarge : Number.doubleOfInt? value = none)
  | power (hlarge : 309 ≤ decimals.of (transferMint instruction))
  | reciprocal (hsmall : decimals.of (transferMint instruction) ≤ -324)

variable {policy : EconomicPolicy} {decimals : Decimals} {program : String} {classified : Classified}
  {instruction : Instruction} {window : List Classified}

theorem fails_ofTransfer :
    Fails (ofTransfer decimals instruction) ↔ Unscalable decimals instruction := by
  have hscaled : Fails (ofTransfer decimals instruction) ↔
      Fails (scaled (decimals.of (transferMint instruction)) (rawAmount instruction)) :=
    fails_bind_iff_left fun _ _ => not_failsBy_ok
  rw [hscaled, fails_scaled, rawAmount, fails_orIfUnreadable, Json.breaks_toDouble]
  constructor
  · rintro (⟨value, hamount, hlarge⟩ | hlarge | hsmall)
    · exact .amount hamount hlarge
    · exact .power hlarge
    · exact .reciprocal hsmall
  · rintro (⟨hamount, hlarge⟩ | hlarge | hsmall)
    · exact .inl ⟨_, hamount, hlarge⟩
    · exact .inr (.inl hlarge)
    · exact .inr (.inr hsmall)

theorem fails_ofInstruction? : Fails (ofInstruction? policy decimals program classified instruction) ↔
    policy.isTransfer instruction = true ∧ Unscalable decimals instruction := by
  unfold ofInstruction?
  by_cases htransfer : policy.isTransfer instruction = true
  · rw [if_pos htransfer, and_iff_right htransfer]
    exact failsBy_map.trans fails_ofTransfer
  · rw [if_neg htransfer]
    refine iff_of_false ?_ fun h => htransfer h.1
    split
    · exact not_failsBy_ok
    · exact not_failsBy_ok
    · exact not_failsBy_ok
    · split_ifs <;> exact not_failsBy_ok
    · exact not_failsBy_ok

theorem fails_ofWindow : Fails (ofWindow policy decimals program window) ↔
    ∃ classified ∈ window, ∃ instruction ∈ classified.transaction.instructions,
      policy.isTransfer instruction = true ∧ Unscalable decimals instruction := by
  have heach (classified : Classified) : Fails (ofClassified policy decimals program classified) ↔
      ∃ instruction ∈ classified.transaction.instructions,
        policy.isTransfer instruction = true ∧ Unscalable decimals instruction := by
    refine (fails_bind_iff_left fun _ _ => not_failsBy_ok).trans ?_
    exact fails_mapM.trans (exists_congr fun instruction => and_congr_right' fails_ofInstruction?)
  exact failsBy_map.trans (fails_mapM.trans (exists_congr fun classified =>
    and_congr_right' (heach classified)))

end Flow

/-! ### Windows -/

open ProgramAudit.Traffic.Flow

theorem TokenFlow.fails_group {entries : List Entry} :
    Fails (TokenFlow.group entries) ↔ ∃ entry ∈ entries, entry.1.account.isKey = false := by
  constructor
  · rintro h
    by_contra hkeys
    have hall : ∀ entry ∈ entries, entry.1.account.isKey = true := by simpa using hkeys
    exact not_failsBy_ok (group_eq_ok_iff.mpr ⟨hall, rfl⟩ ▸ h)
  · rintro ⟨entry, hentry, hkey⟩
    refine (fails_or_exists _).resolve_right fun ⟨groups, hgroups⟩ => ?_
    cases hkey.symm.trans ((group_eq_ok_iff.mp hgroups).1 entry hentry)

namespace Volatility

variable {policy : EconomicPolicy} {ratio : Float} {volumes : List Float}

theorem fails_ofVolumes (hratio : policy.volatilityRatio.toReal? = some ratio)
    (hfinite : ∀ volume ∈ volumes, Number.isFinite volume = true) :
    Fails (ofVolumes policy volumes) ↔ Number.overflowsPartially [] volumes = true := by
  unfold ofVolumes
  split_ifs with hempty
  · rw [List.isEmpty_iff.mp hempty]
    exact iff_of_false not_failsBy_ok Bool.false_ne_true
  · have hspecial : volumes.filter (fun x => !Number.isFinite x) = [] := by simpa using hfinite
    have hall : volumes.all Number.isFinite = true := List.all_eq_true.mpr hfinite
    have hmean : Fails ((Number.mean volumes).mapError sumFailure) ↔
        Number.overflowsPartially [] volumes = true := by
      unfold Number.mean Number.exactSum
      split_ifs with hoverflow
      · exact iff_of_true (failsBy_error.mpr trivial) hoverflow
      · rw [hspecial]
        exact iff_of_false not_failsBy_ok hoverflow
    refine (fails_bind_iff_left fun mean _ => ?_).trans hmean
    unfold Number.deviation?
    rw [if_pos hall, Number.times_real hratio]
    exact not_failsBy_ok

end Volatility

variable {policy : EconomicPolicy} {decimals : Decimals} {program : String}
  {window : List Classified}

theorem fails_group_entries {flows : List Flow} {side : Side} :
    Fails (TokenFlow.group (side.entries program flows)) ↔
      ∃ flow ∈ flows, side.counts program flow = true ∧
        (side.entry flow).1.account.isKey = false := by
  rw [TokenFlow.fails_group]
  simp only [Side.entries, List.mem_map, List.mem_filter]
  constructor
  · rintro ⟨_, ⟨flow, ⟨hflow, hcounts⟩, rfl⟩, hkey⟩
    exact ⟨flow, hflow, hcounts, hkey⟩
  · rintro ⟨flow, hflow, hcounts, hkey⟩
    exact ⟨_, ⟨flow, ⟨hflow, hcounts⟩, rfl⟩, hkey⟩

namespace TokenFlows

variable {ratio : Float} (hratio : policy.concentrationRatio.toReal? = some ratio)

include hratio

theorem not_fails_isConcentrated (groups : List TokenFlow) : ¬Fails (isConcentrated policy groups) := by
  cases groups with
  | nil => exact not_failsBy_ok
  | cons greatest others =>
      unfold isConcentrated
      change ¬Fails (policy.concentrationRatio.times (.real (sumOf (greatest :: others))) >>= _)
      rw [Number.times_real hratio]
      exact not_failsBy_ok

/-- Flows that can be read fail if an account on either side is no key. -/
theorem fails_ofWindow : Fails (ofWindow policy decimals program window) ↔
    Fails (Flow.ofWindow policy decimals program window) ∨
      ∃ flows, Flow.ofWindow policy decimals program window = .ok flows ∧
        ∃ side : Side, ∃ flow ∈ flows, side.counts program flow = true ∧
          (side.entry flow).1.account.isKey = false := by
  have hsteps : ofWindow policy decimals program window =
      Flow.ofWindow policy decimals program window >>= fun flows => do
        let outflows ← TokenFlow.group (Side.outward.entries program flows)
        let inflows ← TokenFlow.group (Side.inward.entries program flows)
        return {
          topInflows := upTo policy.topFlows inflows
          topOutflows := upTo policy.topFlows outflows
          concentrationRisk := ← isConcentrated policy outflows } := by
    unfold ofWindow Flow.ofWindow
    cases window.mapM (Flow.ofClassified policy decimals program) <;> rfl
  have hlast (outflows inflows : List TokenFlow) : ¬Fails (do
      let risk ← isConcentrated policy outflows
      return (⟨upTo policy.topFlows inflows, upTo policy.topFlows outflows, risk⟩ : TokenFlows)) := by
    refine mt (fails_bind_iff_left fun _ _ => ?_).mp (not_fails_isConcentrated hratio outflows)
    exact not_failsBy_ok
  rw [hsteps]
  refine failsBy_bind.trans (or_congr_right (exists_congr fun flows => and_congr_right' ?_))
  refine (fails_bind fun outflows _ => fails_bind_iff_left fun inflows _ =>
    hlast outflows inflows).trans ?_
  rw [fails_group_entries, fails_group_entries]
  constructor
  · rintro (h | h)
    · exact ⟨.outward, h⟩
    · exact ⟨.inward, h⟩
  · rintro ⟨side, h⟩
    cases side with
    | inward => exact .inr h
    | outward => exact .inl h

end TokenFlows

namespace Economics

/-- What keeps a window from being aggregated: a transfer that cannot be scaled, a movement that counts
for an account that is no key, or volumes whose partial sums pass the doubles. -/
inductive Defect (policy : EconomicPolicy) (decimals : Decimals) (program : String)
    (window : List Classified) : Prop
  | transfer {classified : Classified} {instruction : Instruction} (hclassified : classified ∈ window)
    (hinstruction : instruction ∈ classified.transaction.instructions)
    (htransfer : policy.isTransfer instruction = true) (h : Unscalable decimals instruction)
  | account {classified : Classified} {flow : Flow} {side : Side} (hclassified : classified ∈ window)
    (hflow : flow ∈ shown policy decimals program classified)
    (hcounts : side.counts program flow = true) (h : (side.entry flow).1.account.isKey = false)
  | volumes (h : Number.overflowsPartially [] (window.map volumeOf) = true)

theorem fails_ofWindow {share ratio : Float} (hshare : policy.concentrationRatio.toReal? = some share)
    (hratio : policy.volatilityRatio.toReal? = some ratio)
    (hfinite : ∀ classified ∈ window, Number.isFinite (volumeOf classified) = true) :
    Fails (ofWindow policy decimals program window) ↔ Defect policy decimals program window := by
  have hvolumes : ∀ volume ∈ window.map volumeOf, Number.isFinite volume = true := by
    intro volume hvolume
    obtain ⟨classified, hclassified, rfl⟩ := List.mem_map.mp hvolume
    exact hfinite classified hclassified
  have hsteps : Fails (ofWindow policy decimals program window) ↔
      Fails (TokenFlows.ofWindow policy decimals program window) ∨
        Number.overflowsPartially [] (window.map volumeOf) = true := by
    refine fails_bind fun tokenFlows _ => ?_
    refine (fails_bind_iff_left fun _ _ => not_failsBy_ok).trans ?_
    exact Volatility.fails_ofVolumes hratio hvolumes
  rw [hsteps, TokenFlows.fails_ofWindow hshare, Flow.fails_ofWindow]
  constructor
  · rintro ((⟨classified, hclassified, instruction, hinstruction, htransfer, h⟩ |
      ⟨flows, hflows, side, flow, hflow, hcounts, hkey⟩) | h)
    · exact .transfer hclassified hinstruction htransfer h
    · rw [ofWindow_eq_shown hflows] at hflow
      obtain ⟨classified, hclassified, hshown⟩ := List.mem_flatMap.mp hflow
      exact .account hclassified hshown hcounts hkey
    · exact .volumes h
  · rintro (⟨hclassified, hinstruction, htransfer, h⟩ | ⟨hclassified, hshown, hcounts, hkey⟩ | h)
    · exact .inl (.inl ⟨_, hclassified, _, hinstruction, htransfer, h⟩)
    · rw [← Flow.fails_ofWindow]
      have hread := fails_or_exists (Flow.ofWindow policy decimals program window)
      refine .inl (hread.imp_right fun ⟨flows, hflows⟩ => ?_)
      have hflow := List.mem_flatMap.mpr ⟨_, hclassified, hshown⟩
      rw [← ofWindow_eq_shown hflows] at hflow
      exact ⟨flows, hflows, _, _, hflow, hcounts, hkey⟩
    · exact .inr h

end Economics

namespace Economics

variable {economics : Economics}

theorem computed_of_ofWindow (h : ofWindow policy decimals program window = .ok economics) :
    economics.computed = true := by
  simp only [ofWindow, bind_eq_ok, pure_eq_ok] at h
  obtain ⟨flows, -, volatility, -, rfl⟩ := h
  rfl

theorem ofWindow_flows (h : ofWindow policy decimals program window = .ok economics) :
    Flow.ofWindow policy decimals program window =
      .ok (window.flatMap (shown policy decimals program)) := by
  obtain ⟨tokenFlows, htokenFlows, -⟩ := bind_eq_ok.mp h
  obtain ⟨flows, _, _, _, hflows, -⟩ := TokenFlows.ofWindow_eq_ok.mp htokenFlows
  rw [hflows, ← ofWindow_eq_shown hflows]

end Economics

namespace Economics

/-- What an endpoint tells of a transaction with one transfer. -/
def paymentOf (amount : Json) : Json :=
  .obj [("transaction", .obj [("message", .obj [("instructions", .arr [.obj [
    ("programId", .str ({} : EconomicPolicy).tokenProgram),
    ("parsed", .obj [("type", .str "transfer"),
      ("info", .obj [("source", .str "program"), ("destination", .str "account"),
        ("mint", .str "mint"), ("amount", amount)])])]])])])]

def paymentRead (amount : Json) : Transaction :=
  { signature := .str ""
    slot := 0
    blockTime := .null
    instructions := [transferOf (.str "program") (.str "account") "mint" amount]
    volume := 0.0
    fee := 0.0 }

theorem ofPayload_paymentOf (amount : Json) :
    Transaction.ofPayload none (paymentOf amount) = .ok (some (paymentRead amount)) := rfl

end Economics

end Traffic

end ProgramAudit
