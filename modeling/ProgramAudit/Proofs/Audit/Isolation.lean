import ProgramAudit.Proofs.Audit.Degradation
import ProgramAudit.Proofs.Routine.Alike

/-!
Isolation. The account of a program and its transactions are read at once and under limits of their
own. For sources without a state, what goes wrong or is late on one side leaves the stages of the
other side as they are.
-/

namespace ProgramAudit

open Routine Program Traffic Ledger

variable {τ : Type} [ExactClock τ]

namespace Stage

variable {α : Type} [Assessed α] {stage : String} {fallback : α}
  {work left right : Routine τ Unit α}

theorem certain_run {limit : Option Number} {result : Result α} (h : Certain result work.attempt) :
    Certain (.ofResult stage limit fallback result) (run stage limit fallback work) := by
  refine certain_inStage (certain_bind h ?_)
  cases result with
  | ok value => exact certain_succeed _
  | error failure => exact certain_bind (certain_succeed ()) (certain_succeed _)

/-- Under a time limit a stage comes to the same result for work that cannot be told apart. -/
theorem certain_runTimed {limit : Option Number} (hlimit : limit.isSome = true)
    (h : Alike left right) : ∃ outcome,
    Certain outcome (runTimed stage limit fallback left) ∧
    Certain outcome (runTimed stage limit fallback right) := by
  obtain ⟨span, rfl⟩ := Option.isSome_iff_exists.mp hlimit
  obtain ⟨result, hleft, hright⟩ := certain_attempt_within span h
  exact ⟨_, certain_run hleft, certain_run hright⟩

end Stage

/-- The answer to a call, and how long it takes, follow from the call alone. -/
structure Ledger.Source.Stateless (source : Source τ Unit) : Prop where
  account : ∀ address, Fixed (source.account address)
  transactions : ∀ address limit, Fixed (source.transactions address limit)
  mint : ∀ mint, Fixed (source.mint mint)

/-- Two sources answer alike when they are asked for accounts. -/
def Ledger.Source.SameAccounts (left right : Source τ Unit) : Prop :=
  ∀ address, Alike (left.account address) (right.account address)

/-- Two sources answer alike when they are asked for the transactions of a program or for mints. -/
structure Ledger.Source.SameTraffic (program : String) (limit : Int)
    (left right : Source τ Unit) : Prop where
  transactions : Alike (left.transactions program limit) (right.transactions program limit)
  mint : ∀ mint, Alike (left.mint mint) (right.mint mint)

theorem Ledger.Source.Stateless.sameAccounts {source : Source τ Unit} (h : source.Stateless) :
    source.SameAccounts source := fun address => (h.account address).alike

theorem Ledger.Source.Stateless.sameTraffic {source : Source τ Unit} (h : source.Stateless)
    (program : String) (limit : Int) : source.SameTraffic program limit source :=
  ⟨(h.transactions program limit).alike, fun mint => (h.mint mint).alike⟩

/-! ### What is read -/

theorem Program.Image.alike_fetch {left right : Source τ Unit} (h : left.SameAccounts right)
    (address : String) : Alike (Image.fetch left address) (Image.fetch right address) := by
  refine alike_bind (h address) fun found => ?_
  cases found with
  | none => exact alike_bind (alike_note _ _) fun _ => alike_ofResult _
  | some account =>
      dsimp only
      split
      · exact alike_ofResult _
      · split
        · exact alike_ofResult _
        · exact alike_bind (h _) fun _ => alike_bind (alike_note _ _) fun _ => alike_ofResult _

theorem Traffic.Window.alike_fetchClassified {left right : Source τ Unit}
    {sleep : Number → Routine τ Unit Unit} {plan : FetchPlan} {address : String}
    (hsleep : ∀ delay, Fixed (sleep delay)) (h : left.SameTraffic address plan.limit right)
    (policy : KindPolicy) (now : Number) :
    Alike (fetchClassified left sleep plan policy now address)
      (fetchClassified right sleep plan policy now address) := by
  refine alike_mapResult (alike_bind (alike_ofResult _) fun _ => ?_)
  refine alike_bind (alike_retry hsleep h.transactions) fun _ => ?_
  exact alike_bind (alike_ofResult _) fun _ => alike_bind (alike_note _ _) fun _ => alike_ofResult _

theorem Traffic.Mints.alike_lookUp {left right : Source τ Unit}
    (h : ∀ mint, Alike (left.mint mint) (right.mint mint)) (mints : List String) :
    Alike (lookUp left mints) (lookUp right mints) := by
  refine alike_bind (surelyAlike_all ?_).alike fun _ => ?_
  · rw [List.forall₂_map_left_iff, List.forall₂_map_right_iff, List.forall₂_same]
    exact fun mint _ => surelyAlike_attempt (h mint)
  · exact alike_bind (alike_notes _ _) fun _ => alike_bind (alike_ofResult _) fun _ =>
      alike_ofResult _

namespace Audit

variable {plan : Plan} {around : Surroundings τ Unit} {address : String} {given : Json}

/-! ### The first stages -/

theorem certain_recorded {α : Type} (records : α → List Journal.Record) (value : α) :
    Certain value (recorded records (.ok value) : Routine τ Unit α) :=
  certain_bind (certain_succeed value)
    (certain_bind (certain_notes (records value)) (certain_succeed value))

theorem certain_fetchAll {program transactions price}
    (hprogram : Certain program (programStage plan around address))
    (htransactions : Certain transactions (transactionsStage plan around address))
    (hprice : Certain price (priceStage plan around)) :
    Certain ⟨program, transactions, price⟩ (fetchAll plan around address) :=
  certain_bind (certain_settleLater (certain_join (certain_spawned hprogram)
    (certain_join (certain_spawned htransactions) (certain_spawned hprice)))) (certain_succeed _)

theorem certain_derive (fetched : Fetched) {decimals}
    (h : Certain decimals (decimalsStage plan around fetched.transactions.value)) :
    Certain ⟨binaryOf address fetched.program, decimals⟩ (derive plan around address fetched) := by
  have hbinary : Certain _ (binaryStage fetched.program.value address : Routine τ Unit _) :=
    Stage.certain_run (certain_attempt (certain_recorded _ _))
  unfold derive binaryOf
  cases hdegraded : fetched.program.degraded with
  | true => exact certain_bind h (certain_succeed _)
  | false => exact certain_bind (certain_settleLater (certain_join (certain_spawned hbinary)
      (certain_spawned h))) (certain_succeed _)

/-- An audit whose first stages always come to the same results has these results. -/
theorem leads_run {fetched : Fetched} {derived : Derived}
    (haddress : Address.validate given = .ok address)
    (hfetched : Certain fetched (fetchAll plan around address))
    (hderived : Certain derived (derive plan around address fetched)) :
    Leads (Yields fun audit => audit.stages.fetched = fetched ∧ audit.stages.derived = derived)
      (run plan around given) := by
  refine leads_ofResult_bind (fun found hfound => ?_) fun _ _ => trivial
  obtain rfl : address = found := Except.ok.inj (haddress.symm.trans hfound)
  refine leads_ofResult_bind (fun _ _ => leads_note_bind ?_) fun _ _ => trivial
  refine leads_certain_bind hfetched (leads_certain_bind hderived ?_)
  -- What follows only keeps these stages, whatever it reads and however long it takes.
  refine leads_of_settles (settles_bind_yields
    (A := fun stages => stages.fetched = fetched ∧ stages.derived = derived) ?_
    fun stages hfirst => ?_)
  · refine settles_bind_yields (settles_yields_true _) fun analyzed _ => ?_
    refine settles_bind_yields (settles_yields_true _) fun fused _ => ?_
    exact settles_bind_yields (settles_yields_true _) fun prediction _ =>
      settles_succeed ⟨rfl, rfl⟩
  · refine settles_bind_yields (settles_yields_true _) fun _ _ => ?_
    refine settles_bind_yields (settles_yields_true _) fun _ _ => ?_
    refine settles_bind_yields (settles_yields_true _) fun _ _ => ?_
    refine settles_bind_yields (settles_yields_true _) fun _ _ => ?_
    exact settles_bind_yields (settles_yields_true _) fun _ _ => settles_succeed hfirst

/-! ### Two runs -/

/-- Two audits have the same stages of the transactions and of what follows from them alone. -/
structure SameFlow (left right : Audit) : Prop where
  transactions : left.stages.fetched.transactions = right.stages.fetched.transactions
  price : left.stages.fetched.price = right.stages.fetched.price
  tokenDecimals : left.stages.derived.tokenDecimals = right.stages.derived.tokenDecimals
  economics : left.stages.analyzed.economics = right.stages.analyzed.economics
  callGraph : left.stages.analyzed.callGraph = right.stages.analyzed.callGraph
  fees : left.stages.analyzed.fees = right.stages.analyzed.fees
  upgrades : left.stages.analyzed.upgrades = right.stages.analyzed.upgrades

/-- Two audits have the same stages of the image and of what follows from it alone. -/
structure SameImage (left right : Audit) : Prop where
  program : left.stages.fetched.program = right.stages.fetched.program
  price : left.stages.fetched.price = right.stages.fetched.price
  binary : left.stages.derived.binary = right.stages.derived.binary
  vulnerabilities : left.stages.analyzed.vulnerabilities = right.stages.analyzed.vulnerabilities
  risks : left.stages.fused.risks = right.stages.fused.risks

variable {left right : Audit} {P Q : Result Json → Prop} {now : Number}

theorem Sound.sameFlow (hleft : left.Sound plan now address P)
    (hright : right.Sound plan now address Q)
    (htransactions : left.stages.fetched.transactions = right.stages.fetched.transactions)
    (hprice : left.stages.fetched.price = right.stages.fetched.price)
    (hdecimals : left.stages.derived.tokenDecimals = right.stages.derived.tokenDecimals) :
    left.SameFlow right where
  transactions := htransactions
  price := hprice
  tokenDecimals := hdecimals
  economics := by
    rw [hleft.stages.analyzed.economics, hright.stages.analyzed.economics, htransactions, hdecimals]
  callGraph := by
    rw [hleft.stages.analyzed.callGraph, hright.stages.analyzed.callGraph, htransactions]
  fees := by rw [hleft.stages.analyzed.fees, hright.stages.analyzed.fees, htransactions]
  upgrades := by rw [hleft.stages.analyzed.upgrades, hright.stages.analyzed.upgrades, htransactions]

theorem Sound.sameImage (hleft : left.Sound plan now address P)
    (hright : right.Sound plan now address Q)
    (hprogram : left.stages.fetched.program = right.stages.fetched.program)
    (hprice : left.stages.fetched.price = right.stages.fetched.price) :
    left.SameImage right := by
  have hbinary : left.stages.derived.binary = right.stages.derived.binary := by
    rw [hleft.stages.derived.binary, hright.stages.derived.binary, hprogram]
  have hvulnerabilities :
      left.stages.analyzed.vulnerabilities = right.stages.analyzed.vulnerabilities := by
    rw [hleft.stages.analyzed.vulnerabilities, hright.stages.analyzed.vulnerabilities, hbinary]
  refine ⟨hprogram, hprice, hbinary, hvulnerabilities, ?_⟩
  rw [hleft.stages.fused.risks, hright.stages.fused.risks, hbinary, hvulnerabilities]

/-- Nothing around an audit keeps a state. -/
structure Surroundings.Stateless (around : Surroundings τ Unit) : Prop where
  source : around.source.Stateless
  price : Fixed around.price
  sleep : ∀ delay, Fixed (around.sleep delay)

/-- The same surroundings with another source. -/
def Surroundings.reading (around : Surroundings τ Unit) (source : Source τ Unit) :
    Surroundings τ Unit := { around with source }

theorem Surroundings.Stateless.reading (h : around.Stateless) {source : Source τ Unit}
    (hsource : source.Stateless) : (around.reading source).Stateless :=
  ⟨hsource, h.price, h.sleep⟩

omit [ExactClock τ] in
theorem Ready.reading (h : Ready plan around given) (source : Source τ Unit) :
    Ready plan (around.reading source) given :=
  ⟨h.valid, h.timeframe, h.dated, h.stage, h.fetch, h.priced⟩

theorem leads_stages {program transactions price decimals}
    (haddress : Address.validate given = .ok address)
    (hprogram : Certain program (programStage plan around address))
    (htransactions : Certain transactions (transactionsStage plan around address))
    (hprice : Certain price (priceStage plan around))
    (hdecimals : Certain decimals (decimalsStage plan around transactions.value)) :
    Leads (Yields fun audit => audit.stages.fetched = ⟨program, transactions, price⟩ ∧
      audit.stages.derived = ⟨binaryOf address program, decimals⟩) (run plan around given) :=
  leads_run haddress (certain_fetchAll hprogram htransactions hprice)
    (certain_derive ⟨program, transactions, price⟩ hdecimals)

/-! The stages that read, for two sources that answer alike. -/

variable {other : Source τ Unit}

theorem certain_programStage (hstage : plan.stageTimeout.isSome = true)
    (h : around.source.SameAccounts other) (address : String) : ∃ program,
    Certain program (programStage plan around address) ∧
    Certain program (programStage plan (around.reading other) address) :=
  Stage.certain_runTimed hstage (Image.alike_fetch h address)

theorem certain_transactionsStage (hfetch : plan.fetchTimeout.isSome = true)
    (hsleep : ∀ delay, Fixed (around.sleep delay))
    (h : around.source.SameTraffic address plan.fetch.limit other) : ∃ transactions,
    Certain transactions (transactionsStage plan around address) ∧
    Certain transactions (transactionsStage plan (around.reading other) address) :=
  Stage.certain_runTimed hfetch (Window.alike_fetchClassified hsleep h plan.kinds around.now)

theorem certain_priceStage (hstage : plan.stageTimeout.isSome = true)
    (hprice : Fixed around.price) : ∃ price, Certain price (priceStage plan around) :=
  (Stage.certain_runTimed hstage hprice.alike).imp fun _ h => h.1

theorem certain_decimalsStage (hstage : plan.stageTimeout.isSome = true)
    (h : ∀ mint, Alike (around.source.mint mint) (other.mint mint)) (window : List Classified) :
    ∃ decimals, Certain decimals (decimalsStage plan around window) ∧
    Certain decimals (decimalsStage plan (around.reading other) window) :=
  Stage.certain_runTimed hstage (Mints.alike_lookUp h (Mints.ofWindow {} window))

section Pair

variable {progress progress' : Progress τ Unit}

/-- Whatever the accounts are, the stages of the transactions are the same. -/
theorem sameFlow_of_sameTraffic (hready : Ready plan around given) (haround : around.Stateless)
    (hother : other.Stateless) (haddress : Address.validate given = .ok address)
    (hsame : around.source.SameTraffic address plan.fetch.limit other)
    (hleft : (Routine.run progress (run plan around given)).result = some (.ok left))
    (hright : (Routine.run progress' (run plan (around.reading other) given)).result =
      some (.ok right))
    (hsoundLeft : left.Sound plan around.now address P)
    (hsoundRight : right.Sound plan around.now address Q) : left.SameFlow right := by
  obtain ⟨program, hprogram, -⟩ :=
    certain_programStage hready.stage haround.source.sameAccounts address
  have hown : (around.reading other).source.SameAccounts other := hother.sameAccounts
  obtain ⟨program', hprogram', -⟩ := certain_programStage hready.stage hown address
  obtain ⟨transactions, htransactions, htransactions'⟩ :=
    certain_transactionsStage hready.fetch haround.sleep hsame
  obtain ⟨price, hprice⟩ := certain_priceStage hready.stage haround.price
  obtain ⟨decimals, hdecimals, hdecimals'⟩ :=
    certain_decimalsStage hready.stage hsame.mint transactions.value
  obtain ⟨hfetched, hderived⟩ :=
    (leads_stages haddress hprogram htransactions hprice hdecimals).run hleft
  obtain ⟨hfetched', hderived'⟩ :=
    (leads_stages haddress hprogram' htransactions' hprice hdecimals').run hright
  exact hsoundLeft.sameFlow hsoundRight (by rw [hfetched, hfetched']) (by rw [hfetched, hfetched'])
    (by rw [hderived, hderived'])

/-- Whatever the transactions are, the stages of the image are the same. -/
theorem sameImage_of_sameAccounts (hready : Ready plan around given) (haround : around.Stateless)
    (hother : other.Stateless) (haddress : Address.validate given = .ok address)
    (hsame : around.source.SameAccounts other)
    (hleft : (Routine.run progress (run plan around given)).result = some (.ok left))
    (hright : (Routine.run progress' (run plan (around.reading other) given)).result =
      some (.ok right))
    (hsoundLeft : left.Sound plan around.now address P)
    (hsoundRight : right.Sound plan around.now address Q) : left.SameImage right := by
  have hown : (around.reading other).source.SameTraffic address plan.fetch.limit other :=
    hother.sameTraffic address plan.fetch.limit
  obtain ⟨program, hprogram, hprogram'⟩ := certain_programStage hready.stage hsame address
  obtain ⟨transactions, htransactions, -⟩ := certain_transactionsStage hready.fetch haround.sleep
    (haround.source.sameTraffic address plan.fetch.limit)
  obtain ⟨transactions', htransactions', -⟩ :=
    certain_transactionsStage hready.fetch (haround.reading hother).sleep hown
  obtain ⟨price, hprice⟩ := certain_priceStage hready.stage haround.price
  obtain ⟨decimals, hdecimals, -⟩ := certain_decimalsStage hready.stage
    (haround.source.sameTraffic address plan.fetch.limit).mint transactions.value
  obtain ⟨decimals', hdecimals', -⟩ :=
    certain_decimalsStage hready.stage hown.mint transactions'.value
  obtain ⟨hfetched, -⟩ := (leads_stages haddress hprogram htransactions hprice hdecimals).run hleft
  obtain ⟨hfetched', -⟩ :=
    (leads_stages haddress hprogram' htransactions' hprice hdecimals').run hright
  exact hsoundLeft.sameImage hsoundRight (by rw [hfetched, hfetched']) (by rw [hfetched, hfetched'])

end Pair

/-- A source that finds no account but after a while, and is broken otherwise. -/
def lateSource (span : τ) : Source τ Unit :=
  { brokenSurroundings.source with account := fun _ => (sleepFor span).bind fun _ => succeed none }

theorem stateless_brokenSurroundings :
    (brokenSurroundings : Surroundings τ Unit).Stateless where
  source := ⟨fun _ => ⟨_, steady_halt⟩, fun _ _ => ⟨_, steady_ofResult _⟩,
    fun _ => ⟨_, steady_ofResult _⟩⟩
  price := ⟨_, steady_halt⟩
  sleep := fixed_sleep

theorem stateless_lateSource (span : τ) : (lateSource span).Stateless where
  account _ := ⟨_, steady_bind (steady_sleepFor span) fun _ => steady_ofResult _⟩
  transactions := stateless_brokenSurroundings.source.transactions
  mint := stateless_brokenSurroundings.source.mint

end Audit

end ProgramAudit
