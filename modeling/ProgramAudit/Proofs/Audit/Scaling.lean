import ProgramAudit.Audit.Run
import ProgramAudit.Proofs.Routine.Ends
import ProgramAudit.Proofs.Stage
import ProgramAudit.Proofs.Traffic.Mints

/-!
Agreement of two choices: which mints an audit looks up, and by which decimals it scales the amounts
of a transfer.
-/

namespace ProgramAudit.Audit

open Ledger Program Traffic Routine

variable {τ σ : Type}

/-- The same surroundings around a source that notes what it is asked and told. -/
def Surroundings.inquired (around : Surroundings τ σ) : Surroundings τ (σ × List Inquiry) where
  source := around.source.inquired
  price := around.price.observed [] fun _ => []
  sleep delay := (around.sleep delay).observed [] fun _ => []
  now := around.now

/-- If the decimals are computed, they are those that were told. -/
def Computed (mints : List String) (own : Multiset Inquiry)
    (seen : Option (Result (StageResult Decimals))) : Prop :=
  ∀ outcome, seen = some (.ok outcome) → outcome.computed = true →
    Mints.LookedUp mints own outcome.value

theorem logs_derived (binary : StageResult Profile) (outcome : StageResult Decimals) :
    (succeed { binary, tokenDecimals := outcome } : Routine τ (σ × List Inquiry) Derived).Logs
      (fun own seen => own = 0 ∧ ∀ derived, seen = some (.ok derived) →
        derived.tokenDecimals = outcome) Once 0 none := by
  refine logs_ofResult ⟨rfl, fun _ hnone => nomatch hnone⟩ ⟨rfl, fun derived hderived => ?_⟩
  cases hderived
  rfl

variable [Clock τ]

theorem logs_decimalsStage (plan : Plan) (around : Surroundings τ σ) (window : List Classified) :
    (decimalsStage plan around.inquired window).Logs (Computed (Mints.ofWindow {} window)) Once 0
      none := by
  have hlookUp := Mints.logs_lookUp around.source (Mints.nodup_ofWindow {} window)
  refine (Stage.concluded_runTimed hlookUp).mono fun own seen hconcluded outcome hseen hdone => ?_
  obtain ⟨result, rfl, hvalue⟩ := hconcluded.2 outcome hseen
  obtain ⟨decimals, rfl, -⟩ := StageResult.exists_of_computed hdone
  exact hvalue decimals rfl decimals rfl

theorem logs_binaryStage (image : Image) (address : String) :
    (binaryStage image address : Routine τ (σ × List Inquiry) _).Logs (fun own _ => own = 0) Once 0
      none := by
  refine (Stage.concluded_run (T := fun own _ => own = 0) ?_).mono
    fun own seen hconcluded => hconcluded.1.choose_spec
  unfold recorded
  refine logs_ok_bind ?_
  exact logs_bind_quiet (logs_notes rfl rfl) rfl (fun _ => rfl) fun _ => logs_ofResult rfl rfl

theorem logs_derive (plan : Plan) (around : Surroundings τ σ) (address : String)
    (fetched : Fetched) :
    (derive plan around.inquired address fetched).Logs (fun own seen => ∀ derived,
      seen = some (.ok derived) → derived.tokenDecimals.computed = true →
        Mints.LookedUp (Mints.ofWindow {} fetched.transactions.value) own
          derived.tokenDecimals.value) Once 0 none := by
  have hstage := logs_decimalsStage plan around fetched.transactions.value
  unfold derive
  dsimp only
  cases fetched.program.degraded with
  | true =>
      have hpath := logs_bind hstage fun outcome _ _ =>
        logs_derived (unavailableBinary fetched.program address) outcome
      refine hpath.mono fun own seen hthen => ?_
      cases hthen with
      | first => exact fun _ hnone => nomatch hnone
      | failed => exact fun _ hfailed => nomatch hfailed
      | @second _ _ outcome _ hfirst hlast =>
          obtain ⟨rfl, htaken⟩ := hlast
          intro derived hseen hdone
          obtain rfl := htaken derived hseen
          rw [add_zero]
          exact hfirst _ rfl hdone
  | false =>
      have hboth := logs_settleLater (logs_join
        (logs_spawned (logs_binaryStage (τ := τ) (σ := σ) fetched.program.value address))
        (logs_spawned hstage))
      rw [add_zero] at hboth
      have hpath := logs_bind hboth fun pair _ _ => logs_derived pair.1 pair.2
      refine hpath.mono fun own seen hthen => ?_
      cases hthen with
      | first => exact fun _ hnone => nomatch hnone
      | failed => exact fun _ hfailed => nomatch hfailed
      | @second _ _ pair _ hfirst hlast =>
          obtain ⟨rfl, htaken⟩ := hlast
          obtain ⟨sides, ⟨left, right, rfl, rfl, hright⟩, hpair⟩ := hfirst
          intro derived hseen hdone
          rw [htaken derived hseen] at hdone ⊢
          rw [add_zero, zero_add]
          exact hright pair.2 (hpair pair rfl).2 hdone

/-- **Amounts are scaled by the decimals that were looked up.** Whenever the decimals are computed,
each mint that a transfer names, except the reserved ones, has been asked for exactly once, and
nothing else has been asked for. The amount of a transfer is scaled by what was told of its own mint:
nine places for a reserved mint, and for one whose answer is a failure or gives no integer. -/
theorem derive_scales (plan : Plan) (around : Surroundings τ σ) (address : String)
    (fetched : Fetched) (progress : Progress τ σ) (derived : Derived)
    (hrun : (Routine.run { progress with state := (progress.state, []) }
      (derive plan around.inquired address fetched)).result = some (.ok derived))
    (hcomputed : derived.tokenDecimals.computed = true) :
    let window := fetched.transactions.value
    ∃ (mints : List String) (answer : String → Result (Option Mint)),
      mints.Nodup ∧
      (∀ mint, mint ∈ mints ↔ (∃ classified ∈ window,
        ∃ instruction ∈ classified.transaction.instructions, Transfers {} instruction mint) ∧
          mint ≠ "SOL" ∧ mint ≠ "GOVERNANCE") ∧
      ((Routine.run { progress with state := (progress.state, []) }
        (derive plan around.inquired address fetched)).final.state.2 : Multiset Inquiry) =
          (mints : Multiset String).bind
            (fun mint => {.asked (.mint mint), .answered mint (answer mint)}) ∧
      ∀ program, ∀ classified ∈ window, ∀ instruction ∈ classified.transaction.instructions,
        ∀ mint, Transfers {} instruction mint →
          (Flow.ofInstruction? {} derived.tokenDecimals.value program classified instruction).map
              (Option.map Flow.amount) =
            (Flow.scaled (Mints.exponent answer mint) (Flow.rawAmount instruction)).map some := by
  intro window
  have hlogs := (logs_derive plan around address fetched).run
    { progress with state := (progress.state, []) } rfl
  obtain ⟨answer, hlog, hdecimals⟩ := hlogs derived hrun hcomputed
  refine ⟨Mints.ofWindow {} window, answer, Mints.nodup_ofWindow {} window, fun mint => ?_, hlog,
    fun program classified hclassified instruction hinstruction mint htransfers => ?_⟩
  · rw [Mints.mem_ofWindow, Mints.Reserved, not_or]
    rfl
  · have hexponent : derived.tokenDecimals.value.of mint = Mints.exponent answer mint := by
      rw [hdecimals, Mints.exponent]
      by_cases hreserved : Mints.Reserved mint
      · have hnot : mint ∉ Mints.ofWindow {} window := fun hmem =>
          (Mints.mem_ofWindow.mp hmem).2 hreserved
        rw [if_neg hnot, if_pos hreserved]
      · have hmem : mint ∈ Mints.ofWindow {} window := Mints.mem_ofWindow.mpr
          ⟨⟨classified, hclassified, instruction, hinstruction, htransfers⟩, hreserved⟩
        rw [if_pos hmem, if_neg hreserved]
    rw [amount_ofInstruction? htransfers, hexponent]

/-- A transfer of the token program that names a mint. -/
def transferOf (mint : String) : Instruction where
  programId := "TokenkegQfeZyiNwAJbNbGKPFXCWuBvf9Ss623VQ5DA"
  accounts := ["a", "b"]
  parsed := some ⟨"transfer", [("mint", .str mint), ("amount", .str "1500")]⟩

/-- A window that moves a mint that is known, one that is not, and the reserved one. -/
def mixedFetched : Fetched where
  program := ⟨"program", .missing "p", false, some "gone"⟩
  transactions := ⟨"transactions", [{
    transaction := { signature := .str "s", slot := 1, blockTime := .null, volume := 0.0, fee := 0.0
                     instructions := ["known", "lost", "known", "SOL"].map transferOf }
    kind := .transfer
    nonStandard := false }], true, none⟩
  price := ⟨"price", defaultPrice, true, none⟩

def mixedSurroundings : Surroundings Int Unit where
  source := {
    account := fun _ => succeed none
    transactions := fun _ _ => succeed none
    mint := fun mint =>
      if mint = "known" then succeed (some { Mint.neutral (some mint) with decimals := .int 6 })
      else fail (.refused "unknown mint" .null) }
  price := .halt
  sleep := Routine.sleep
  now := 0

def mixedStart : Progress Int Unit := ⟨0, 0, (), []⟩

def mixedRun : Routine.Outcome Int (Unit × List Inquiry) Derived :=
  Routine.run ⟨mixedStart.now, mixedStart.turn, (mixedStart.state, []), mixedStart.journal⟩
    (derive {} mixedSurroundings.inquired "p" mixedFetched)

theorem derive_scales_mixed : ∃ derived, mixedRun.result = some (.ok derived) ∧
    derived.tokenDecimals.computed = true ∧
    ∃ (mints : List String) (answer : String → Result (Option Mint)), mints.Nodup ∧
      (mixedRun.final.state.2 : Multiset Inquiry) = (mints : Multiset String).bind
        (fun mint => {.asked (.mint mint), .answered mint (answer mint)}) ∧
      ∀ classified ∈ mixedFetched.transactions.value,
        (Flow.ofInstruction? {} derived.tokenDecimals.value "p" classified
            (transferOf "known")).map (Option.map Flow.amount) =
          (Flow.scaled (Mints.exponent answer "known")
            (Flow.rawAmount (transferOf "known"))).map some := by
  have hall : (match mixedRun.result with
      | some (.ok derived) => derived.tokenDecimals.computed
      | some (.error _) => false
      | none => false) = true := by decide +kernel
  split at hall
  case h_1 derived hrun =>
    unfold mixedRun at hrun ⊢
    obtain ⟨mints, answer, hnodup, -, hlog, hscaled⟩ := derive_scales {} mixedSurroundings "p"
      mixedFetched mixedStart derived hrun hall
    refine ⟨derived, hrun, hall, mints, answer, hnodup, hlog, ?_⟩
    intro classified hclassified
    have hone : classified.transaction.instructions =
        ["known", "lost", "known", "SOL"].map transferOf := by
      rw [List.mem_singleton.mp hclassified]
    exact hscaled "p" classified hclassified _ (hone ▸ List.mem_map_of_mem List.mem_cons_self)
      "known" ⟨by decide, by decide, by decide⟩
  case h_2 => cases hall
  case h_3 => cases hall

end ProgramAudit.Audit
