import ProgramAudit.Audit.Run
import ProgramAudit.Proofs.Stage

/-!
What the stages of an audit are, each in terms of those before it. A stage that reads has any result
of its work or a timeout; every other stage is a function of what it is given. The equations below
hold of every audit, whatever the source answers and in whatever order.
-/

namespace ProgramAudit

open Program Traffic Control Finding Score

/-- The authority of an image is the address of a key. -/
def Program.Image.Keyed (image : Image) : Prop :=
  ∀ authority ∈ image.upgradeAuthority, ∃ key : Bytes,
    key.length = Address.keyLength ∧ authority = Address.ofKey key

/-- Authorities that stand for the distinct addresses of candidates, in their order. -/
def Control.AddressedBy (candidates : List (Option String)) (found : List Authority) : Prop :=
  found.map Authority.address = Address.distinct candidates

namespace Audit

structure Fetched.Sound (plan : Plan) (address : String) (P : Result Json → Prop)
    (fetched : Fetched) : Prop where
  program : ∃ result, Routine.Yields Image.Keyed result ∧
    fetched.program = .ofResult "program" plan.stageTimeout (.missing address) result
  transactions : ∃ result,
    fetched.transactions = .ofResult "transactions" plan.fetchTimeout [] result
  price : ∃ result, P result ∧
    fetched.price = .ofResult "price" plan.stageTimeout defaultPrice result

/-- The profile of an image, or the neutral one of a program without an image. -/
def binaryOf (address : String) (program : StageResult Image) : StageResult Profile :=
  if program.degraded then unavailableBinary program address
  else
    let authorities := program.value.candidateAuthorities
    .ofResult "binary" none (.neutral address authorities)
      (.ok (Profile.ofData {} (some program.value.data) address authorities))

structure Derived.Sound (plan : Plan) (address : String) (fetched : Fetched)
    (derived : Derived) : Prop where
  binary : derived.binary = binaryOf address fetched.program
  tokenDecimals : ∃ result,
    derived.tokenDecimals = .ofResult "token_decimals" plan.stageTimeout [] result

structure Analyzed.Sound (plan : Plan) (address : String) (window : List Classified)
    (derived : Derived) (analyzed : Analyzed) : Prop where
  economics : analyzed.economics = .ofResult "economics" none .neutral
    (Economics.ofWindow {} derived.tokenDecimals.value address window)
  callGraph : analyzed.callGraph = .ofResult "call_graph" none (.empty address)
    (.ok (CallGraph.ofWindow address window))
  vulnerabilities : analyzed.vulnerabilities = .ofResult "vulnerabilities" none []
    (Scan.run Rule.standard {} (some derived.binary.value))
  authorities : ∃ result,
    Routine.Yields (AddressedBy ((derived.binary.value.candidateAuthorities.getD []).map some))
      result ∧ analyzed.authorities = .ofResult "authorities" plan.stageTimeout [] result
  fees : analyzed.fees = .ofResult "fees" none { computed := false }
    (Fees.ofWindow Fees.defaultMultiplier window)
  interface : analyzed.interface = .ofResult "idl" none { computed := false }
    (Interface.ofWindow (some derived.binary.value) Interface.defaultCount window)
  upgrades : analyzed.upgrades = .ofResult "upgrades" none [] (.ok (Upgrade.ofWindow window))

structure Fused.Sound (profile : Profile) (window : List Classified) (analyzed : Analyzed)
    (fused : Fused) : Prop where
  governance : fused.governance = .ofResult "governance" none .neutral
    (Governance.infer {} analyzed.authorities.value (some analyzed.callGraph.value))
  behavior : fused.behavior = .ofResult "behavior" none .neutral
    (Behavior.infer {} (some profile) (some analyzed.economics.value))
  safety : fused.safety = .ofResult "safety" none .neutral
    (Safety.assess {} (some profile) analyzed.authorities.value
      (some analyzed.economics.value) (some analyzed.callGraph.value))
  deepDive : fused.deepDive = .ofResult "deep_dive" none { computed := false }
    (DeepDive.ofWindow (some profile) (some analyzed.economics.value) window)
  risks : fused.risks = .ofResult "risks" none []
    (Risk.assess (some profile) analyzed.vulnerabilities.value)

structure Stages.Sound (plan : Plan) (address : String) (P : Result Json → Prop)
    (stages : Stages) : Prop where
  fetched : stages.fetched.Sound plan address P
  derived : stages.derived.Sound plan address stages.fetched
  analyzed : stages.analyzed.Sound plan address stages.fetched.transactions.value stages.derived
  fused : stages.fused.Sound stages.derived.binary.value stages.fetched.transactions.value
    stages.analyzed
  prediction : stages.prediction = .ofResult "prediction" none .neutral
    (Prediction.predict {} stages.analyzed.authorities.value
      (some stages.analyzed.economics.value) (some stages.fused.safety.value))

/-- The stages of an audit are sound, and its report is made of them. -/
structure Sound (plan : Plan) (now : Number) (address : String) (P : Result Json → Prop)
    (audit : Audit) : Prop where
  subject : audit.address = address
  stages : audit.stages.Sound plan address P
  report : ∃ generatedAt price, Report.Timestamp.ofSeconds now = .ok generatedAt ∧
    audit.stages.fetched.price.value.toDouble = .ok price ∧
    audit.report = .ofResult "report" none
      (.fallback address generatedAt plan.network (degradedNames audit.stages.outcomes))
      (.ok (.compose (reportInputs plan address price audit.stages) generatedAt))

theorem Sound.document_eq {plan : Plan} {now : Number} {address : String} {P : Result Json → Prop}
    {audit : Audit} (h : audit.Sound plan now address P) : ∃ generatedAt price,
      audit.document = .compose (reportInputs plan address price audit.stages) generatedAt := by
  obtain ⟨generatedAt, price, -, -, hreport⟩ := h.report
  refine ⟨generatedAt, price, ?_⟩
  rw [document, hreport]
  rfl

variable {τ σ α : Type}

/-- How an audit can end: refused before anything is read, without a date or a price that the report
can show, or with sound stages. -/
inductive Ended (plan : Plan) (around : Surroundings τ σ) (given : Json) (P : Result Json → Prop) :
    Result Audit → Prop
  | invalid {failure : Failure} : Address.validate given = .error failure →
      Ended plan around given P (.error failure)
  | unbounded {failure : Failure} : Timeframe.seconds? plan.fetch.timeframe = .error failure →
      Ended plan around given P (.error failure)
  | undated {failure : Failure} : Report.Timestamp.ofSeconds around.now = .error failure →
      Ended plan around given P (.error failure)
  | unpriced {failure : Failure} {result : Result Json} : P result →
      (StageResult.ofResult "price" plan.stageTimeout defaultPrice result).value.toDouble =
        .error failure → Ended plan around given P (.error failure)
  | done {audit : Audit} {address : String} : Address.validate given = .ok address →
      audit.Sound plan around.now address P → Ended plan around given P (.ok audit)

/-! ### Stages that read -/

theorem keyed_readImageAccount {data : Bytes} {found : ImageAccount}
    (h : readImageAccount data = .ok found) :
    ∀ authority ∈ found.authority, ∃ key : Bytes,
      key.length = Address.keyLength ∧ authority = Address.ofKey key := by
  intro authority hauthority
  unfold readImageAccount at h
  split at h
  · rename_i hheader
    cases h
    dsimp only at hauthority
    split at hauthority
    · cases hauthority
      refine ⟨_, ?_, rfl⟩
      have hlength : headerLength ≤ data.length := hheader.1
      simp only [List.length_take, List.length_drop, Address.keyLength, headerLength] at *
      omega
    · cases hauthority
  · cases h

theorem keyed_ofAccount (address : String) (account : Ledger.Account) :
    (Image.ofAccount address account).Keyed := by
  unfold Image.ofAccount
  split
  · exact keyed_readImageAccount ‹_›
  · exact fun _ => nofun

theorem keyed_behindPointer (address imageAddress : String) (account : Ledger.Account)
    (holder : Option Ledger.Account) :
    (Image.behindPointer address imageAddress account holder).1.Keyed := by
  cases holder with
  | none => exact fun _ => nofun
  | some holder =>
      unfold Image.behindPointer
      split
      · exact fun _ => nofun
      · split
        · exact keyed_readImageAccount ‹_›
        · exact fun _ => nofun

variable [Clock τ]

open Routine

theorem settles_fetchImage (source : Ledger.Source τ σ) (address : String) :
    (Image.fetch source address).Settles (Yields Image.Keyed) := by
  refine settles_bind_yields (settles_yields_true _) fun found _ => ?_
  cases found with
  | none =>
      exact settles_bind_yields (settles_yields_true _) fun _ _ => settles_succeed fun _ => nofun
  | some account =>
      dsimp only
      split
      · exact settles_succeed fun _ => nofun
      · split
        · exact settles_succeed (keyed_ofAccount address account)
        · refine settles_bind_yields (settles_yields_true _) fun holder _ => ?_
          exact settles_bind_yields (settles_yields_true _) fun _ _ =>
            settles_succeed (keyed_behindPointer address _ account holder)

theorem settles_fetchAuthority (source : Ledger.Source τ σ) (now : Number) (address : String) :
    (Authority.fetch source now address).Settles
      (Yields fun authority => authority.address = address) := by
  refine settles_bind_yields (settles_yields_true _) fun readings _ => settles_ofResult ?_
  unfold Authority.ofReadings
  cases Authority.balanceOf readings.1 with
  | error failure => trivial
  | ok balance =>
      cases Authority.walletAgeOf (Authority.lastTimeOf readings.2) now with
      | error failure => trivial
      | ok walletAge => rfl

theorem settles_fetchAuthorities (source : Ledger.Source τ σ) (now : Number)
    (candidates : List (Option String)) :
    (Authority.fetchAll source now candidates).Settles (Yields (AddressedBy candidates)) := by
  unfold Authority.fetchAll
  dsimp only
  split
  · rename_i hempty
    exact settles_succeed (List.isEmpty_iff.mp hempty).symm
  · have heach : (all ((Address.distinct candidates).map (Authority.fetch source now))).Settles
        (Each (fun address => Yields fun authority => authority.address = address)
          (Address.distinct candidates)) :=
      settles_all fun address _ => settles_fetchAuthority source now address
    refine settles_bind_yields (A := AddressedBy candidates)
      (heach.mono fun result hresult => ?_) fun found hfound =>
        settles_bind_yields (settles_yields_true _) fun _ _ => settles_succeed hfound
    cases result with
    | error failure => trivial
    | ok found =>
        have hequal : List.Forall₂ (· = ·) (Address.distinct candidates)
            (found.map Authority.address) :=
          List.forall₂_map_right_iff.mpr (hresult.imp fun _ _ h => h.symm)
        exact (List.forall₂_eq_eq_eq ▸ hequal).symm

/-! ### The groups of stages -/

theorem settles_recorded {P : Result α → Prop} {records : α → List Journal.Record}
    {result : Result α} (h : P result) :
    (recorded records result : Routine τ σ α).Settles P := by
  cases result with
  | error failure => exact settles_ofResult h
  | ok value =>
      refine settles_bind_value (A := (· = value)) (settles_ofResult rfl) fun _ hvalue => ?_
      subst hvalue
      exact settles_bind_value (settles_notes (Q := Value fun _ => True) trivial)
        fun _ _ => settles_succeed h

/-- A stage that does not read has one result. -/
theorem settles_stage_recorded [Assessed α] {stage : String} {fallback : α}
    {records : α → List Journal.Record} {result : Result α} :
    (Stage.run stage none fallback (recorded records result) : Routine τ σ _).Settles
      (Value (· = .ofResult stage none fallback result)) := by
  refine (Stage.settles_run (settles_recorded (P := (· = result)) rfl)).mono fun outcome h => ?_
  cases outcome with
  | error failure => exact h
  | ok outcome =>
      obtain ⟨_, rfl, houtcome⟩ := h
      exact houtcome

theorem settles_stage_ofResult [Assessed α] {stage : String} {fallback : α} {result : Result α} :
    (Stage.run stage none fallback (ofResult result) : Routine τ σ _).Settles
      (Value (· = .ofResult stage none fallback result)) := by
  refine (Stage.settles_run (settles_ofResult (P := (· = result)) rfl)).mono fun outcome h => ?_
  cases outcome with
  | error failure => exact h
  | ok outcome =>
      obtain ⟨_, rfl, houtcome⟩ := h
      exact houtcome

variable {plan : Plan} {around : Surroundings τ σ} {address : String} {P : Result Json → Prop}

theorem settles_fetchAll (hprice : around.price.Settles P) (htimeout : P (.error timeout)) :
    (fetchAll plan around address).Settles (Value (Fetched.Sound plan address P)) := by
  have hprogram : (programStage plan around address).Settles _ :=
    Stage.settles_runTimed (settles_fetchImage around.source address) trivial
  have htransactions : (transactionsStage plan around address).Settles _ :=
    Stage.settles_runTimed (settles_true _) trivial
  have hprice : (priceStage plan around).Settles _ := Stage.settles_runTimed hprice htimeout
  refine settles_bind_value (settles_settleLater (settles_join_value (settles_spawned hprogram)
    (settles_join_value (settles_spawned htransactions) (settles_spawned hprice))))
    fun found hfound => ?_
  obtain ⟨program, transactions, price⟩ := found
  obtain ⟨hprogram, ⟨result, -, htransactions⟩, hprice⟩ := hfound
  exact settles_succeed ⟨hprogram, ⟨result, htransactions⟩, hprice⟩

theorem settles_derive (fetched : Fetched) :
    (derive plan around address fetched).Settles (Value (Derived.Sound plan address fetched)) := by
  have hdecimals : (decimalsStage plan around fetched.transactions.value).Settles _ :=
    Stage.settles_runTimed (settles_true _) trivial
  unfold derive
  dsimp only
  split
  · rename_i hdegraded
    refine settles_bind_value hdecimals fun decimals hfound => settles_succeed ?_
    obtain ⟨result, -, hdecimals⟩ := hfound
    exact ⟨(if_pos hdegraded).symm, result, hdecimals⟩
  · rename_i hcomputed
    refine settles_bind_value (settles_both_value settles_stage_recorded hdecimals)
      fun pair hfound => settles_succeed ?_
    obtain ⟨hbinary, result, -, hdecimals⟩ := hfound
    exact ⟨hbinary.trans (if_neg hcomputed).symm, result, hdecimals⟩

theorem settles_analyze (fetched : Fetched) (derived : Derived) :
    (analyze plan around address fetched derived).Settles
      (Value (Analyzed.Sound plan address fetched.transactions.value derived)) := by
  have heconomics : (economicsStage address fetched.transactions.value derived.tokenDecimals.value :
    Routine τ σ _).Settles _ := settles_stage_recorded
  have hgraph : (callGraphStage address fetched.transactions.value : Routine τ σ _).Settles _ :=
    settles_stage_recorded
  have hvulnerabilities : (vulnerabilitiesStage derived.binary.value : Routine τ σ _).Settles _ :=
    settles_stage_recorded
  have hauthorities : (authoritiesStage plan around derived.binary.value).Settles _ :=
    Stage.settles_runTimed (settles_fetchAuthorities around.source around.now _) trivial
  have hfees : (feesStage fetched.transactions.value : Routine τ σ _).Settles _ :=
    settles_stage_ofResult
  have hinterface : (interfaceStage derived.binary.value fetched.transactions.value :
    Routine τ σ _).Settles _ := settles_stage_ofResult
  have hupgrades : (upgradesStage fetched.transactions.value : Routine τ σ _).Settles _ :=
    settles_stage_recorded
  refine settles_bind_value (settles_settleLater
    (settles_join_value (settles_spawned heconomics)
    (settles_join_value (settles_spawned hgraph)
    (settles_join_value (settles_spawned hvulnerabilities)
    (settles_join_value (settles_spawned hauthorities)
    (settles_join_value (settles_spawned hfees)
    (settles_join_value (settles_spawned hinterface)
      (settles_spawned hupgrades)))))))) fun found hfound => ?_
  obtain ⟨economics, callGraph, vulnerabilities, authorities, fees, interface, upgrades⟩ := found
  obtain ⟨heconomics, hgraph, hvulnerabilities, hauthorities, hfees, hinterface, hupgrades⟩ :=
    hfound
  exact settles_succeed
    ⟨heconomics, hgraph, hvulnerabilities, hauthorities, hfees, hinterface, hupgrades⟩

theorem settles_fuse (fetched : Fetched) (derived : Derived) (analyzed : Analyzed) :
    (fuse fetched derived analyzed : Routine τ σ Fused).Settles
      (Value (Fused.Sound derived.binary.value fetched.transactions.value analyzed)) := by
  refine settles_bind_value (settles_settleLater
    (settles_join_value (settles_spawned settles_stage_ofResult)
    (settles_join_value (settles_spawned settles_stage_ofResult)
    (settles_join_value (settles_spawned settles_stage_recorded)
    (settles_join_value (settles_spawned settles_stage_ofResult)
      (settles_spawned settles_stage_ofResult)))))) fun found hfound => ?_
  obtain ⟨governance, behavior, safety, deepDive, risks⟩ := found
  obtain ⟨hgovernance, hbehavior, hsafety, hdeepDive, hrisks⟩ := hfound
  exact settles_succeed ⟨hgovernance, hbehavior, hsafety, hdeepDive, hrisks⟩

/-- Every run of the stages gives sound ones. -/
theorem settles_runStages (hprice : around.price.Settles P) (htimeout : P (.error timeout)) :
    (runStages plan around address).Settles (Value (Stages.Sound plan address P)) := by
  refine settles_bind_value (settles_fetchAll hprice htimeout) fun fetched hfetched =>
    settles_bind_value (settles_derive fetched) fun derived hderived =>
    settles_bind_value (settles_analyze fetched derived) fun analyzed hanalyzed =>
    settles_bind_value (settles_fuse fetched derived analyzed) fun fused hfused =>
    settles_bind_value settles_stage_ofResult fun prediction hprediction => settles_succeed ?_
  exact ⟨hfetched, hderived, hanalyzed, hfused, hprediction⟩

theorem settles_run {given : Json} (hprice : around.price.Settles P)
    (htimeout : P (.error timeout)) :
    (run plan around given).Settles (Ended plan around given P) := by
  refine settles_bind (settles_ofResult (P := (· = Address.validate given)) rfl)
    (fun address hvalid => ?_) fun _ hfailure => .invalid hfailure.symm
  refine settles_bind (settles_ofResult (P := (· = Timeframe.seconds? plan.fetch.timeframe)) rfl)
    (fun _ _ => ?_) fun _ hfailure => .unbounded hfailure.symm
  refine settles_bind_value (A := fun _ => True) (settles_note trivial) fun _ _ => ?_
  refine settles_bind_value (settles_runStages hprice htimeout) fun stages hstages => ?_
  refine settles_bind_value (A := fun _ => True) (settles_notes trivial) fun _ _ => ?_
  refine settles_bind (settles_ofResult (P := (· = Report.Timestamp.ofSeconds around.now)) rfl)
    (fun generatedAt hdate => ?_) fun _ hfailure => .undated hfailure.symm
  refine settles_bind (settles_ofResult (P := (· = stages.fetched.price.value.toDouble)) rfl)
    (fun price htoDouble => ?_) fun _ hfailure => ?_
  · refine settles_bind_value settles_stage_recorded fun report hreport => ?_
    refine settles_bind_value (A := fun _ => True) (settles_note trivial) fun _ _ => ?_
    exact settles_succeed
      (.done hvalid.symm ⟨rfl, hstages, generatedAt, price, hdate.symm, htoDouble.symm, hreport⟩)
  · obtain ⟨result, hresult, hstage⟩ := hstages.fetched.price
    exact .unpriced hresult (hstage ▸ hfailure.symm)

end Audit

end ProgramAudit
