import ProgramAudit.Json.Identity
import ProgramAudit.Proofs.Address.Base58
import ProgramAudit.Proofs.Audit.Degradation
import ProgramAudit.Proofs.Finding.Scan
import ProgramAudit.Proofs.Report.Sections
import ProgramAudit.Proofs.Routine.Ends
import ProgramAudit.Proofs.Score.Signals

/-!
Agreement of the sections of a report. The weaknesses, the safety, the outlook and the sections on
the image, the calls and the authorities each read the stages on their own; what they say of one
signal is the same in every report.
-/

namespace ProgramAudit

open Program Traffic Control Finding Score Report

/-! ### The candidates of an image -/

namespace Program.Image

theorem candidateAuthorities_cases (image : Image) : image.candidateAuthorities = [] ∨
    ∃ authority ∈ image.upgradeAuthority, authority ≠ "" ∧
      image.candidateAuthorities = [authority] := by
  unfold candidateAuthorities
  cases image.upgradeAuthority with
  | none => exact Or.inl rfl
  | some authority =>
      by_cases hempty : authority = ""
      · subst hempty
        exact Or.inl rfl
      · exact Or.inr ⟨authority, rfl, hempty, by simp [Option.filter, hempty]⟩

theorem candidates_candidateAuthorities (image : Image) :
    Profile.candidates image.candidateAuthorities = image.candidateAuthorities := by
  rcases image.candidateAuthorities_cases with hnone | ⟨authority, -, hne, hone⟩
  · rw [hnone]
    rfl
  · simp [hone, Profile.candidates, ProgramAudit.distinct, hne]

/-- No candidate of an image is lost among its addresses. -/
theorem distinct_candidateAuthorities {image : Image} (h : image.Keyed) :
    Address.distinct (image.candidateAuthorities.map some) = image.candidateAuthorities := by
  rcases image.candidateAuthorities_cases with hnone | ⟨authority, hauthority, -, hone⟩
  · rw [hnone]
    rfl
  · obtain ⟨key, hkey, rfl⟩ := h authority hauthority
    rw [hone]
    exact Address.distinct_ofKey hkey

end Program.Image

/-- What an issue takes from the safety score if the feedback lists it. -/
def Report.Document.penalty (issue : String) (amount : Int) (document : Document) : Int :=
  if document.feedback.any fun listed => listed = Json.str issue then amount else 0

/-- What the sections of a report say of one another. Those on the authorities agree if their stage
is not degraded. -/
structure Report.Document.Agrees (document : Document) (known : Prop) : Prop where
  minting : .str "Unchecked Minting" ∈ document.weaknesses ↔
    document.binary.get "hiddenMintSignal" = .bool true
  mintingFeedback : .str "Potential unchecked minting" ∈ document.feedback ↔
    document.binary.get "hiddenMintSignal" = .bool true
  controlFlow : .str "High Control-Flow Complexity" ∈ document.weaknesses ↔
    (document.binary.get "controlFlow").get "complexity" = .str "High"
  reentrancy : ∃ count : Int, document.binary.get "instructionCount" = .int count ∧
    (.str "Reentrancy" ∈ document.weaknesses ↔ 1000 < count) ∧
    (.str "Potential reentrancy risk" ∈ document.assessedRisks ↔ 1000 < count) ∧
    (.str "High instruction count" ∈ document.assessedRisks ↔ 1000 < count)
  interactions : .str "Complex interactions" ∈ document.feedback ↔
    (document.toJson.get "callGraphAnalysis").get "interactionComplexity" = .str "High"
  authority : known →
    (.str "Centralized Upgrade Authority" ∈ document.weaknesses ↔
      document.authorities.length = 1) ∧
    (.str "Single authority" ∈ document.feedback ↔ document.authorities.length = 1) ∧
    (.str "Single authority" ∈ document.riskFactors ↔ document.authorities.length = 1) ∧
    (.str "Privileged Mint Authority" ∈ document.weaknesses ↔
      document.binary.get "hiddenMintSignal" = .bool true ∧ document.authorities.length = 1)
  lowSafety : .str "Low safety score" ∈ document.riskFactors ↔
    (document.toJson.get "executiveSummary").get "riskLevel" = .str "High"
  feedback : document.feedback.Sublist [.str "Potential unchecked minting",
    .str "Single authority", .str "High suspicious volume", .str "Complex interactions"]
  score : (document.toJson.get "safetyAnalysis").get "safetyScore" = .int (80 -
    (document.penalty "Potential unchecked minting" 20 + document.penalty "Single authority" 10 +
      document.penalty "High suspicious volume" 15 + document.penalty "Complex interactions" 10))

theorem Traffic.CallGraph.complexity_eq_high (graph : CallGraph) :
    graph.complexity = "High" ↔ 50 < graph.edges.length := by
  unfold complexity
  split
  · simp [*]
  · split <;> simp [*]

namespace Audit

variable {plan : Plan} {address : String} {P : Result Json → Prop}

theorem built_binaryOf (address : String) (program : StageResult Image) :
    (binaryOf address program).value.Built program.value.candidateAuthorities := by
  unfold binaryOf
  split
  · exact Profile.built_neutral address _
  · have hbuilt := Profile.built_ofData program.value.data address
      program.value.candidateAuthorities
    rwa [Image.candidates_candidateAuthorities] at hbuilt

theorem Fetched.Sound.keyed {fetched : Fetched} (h : fetched.Sound plan address P) :
    fetched.program.value.Keyed := by
  obtain ⟨result, hresult, hprogram⟩ := h.program
  rw [hprogram]
  cases result with
  | ok image => exact hresult
  | error failure => exact fun _ => nofun

theorem Analyzed.Sound.divisible {window : List Classified} {derived : Derived}
    {analyzed : Analyzed} (h : analyzed.Sound plan address window derived) :
    Economics.Divisible analyzed.economics.value.totalVolume := by
  rw [h.economics]
  cases heconomics : Economics.ofWindow {} derived.tokenDecimals.value address window with
  | error failure => exact Economics.divisible_neutral
  | ok economics =>
      have hvolume := Economics.totalVolume_of_ofWindow heconomics
      exact hvolume ▸ Economics.divisible_sum _

/-- As long as the stage of the authorities is not degraded, it has one for each candidate. -/
theorem Stages.Sound.authorities {stages : Stages} (h : stages.Sound plan address P)
    (hknown : stages.analyzed.authorities.computed = true) :
    stages.analyzed.authorities.value.length =
      stages.fetched.program.value.candidateAuthorities.length := by
  obtain ⟨result, hresult, hstage⟩ := h.analyzed.authorities
  have hbuilt := built_binaryOf address stages.fetched.program
  rw [← h.derived.binary] at hbuilt
  cases result with
  | error failure =>
      rw [hstage] at hknown
      cases hknown
  | ok found =>
      -- The candidates go through a check of addresses here, but not in the profile.
      rw [hbuilt.candidates, Option.getD_some] at hresult
      have haddresses : found.map Authority.address = _ := hresult
      rw [Image.distinct_candidateAuthorities h.fetched.keyed] at haddresses
      rw [hstage, ← haddresses, List.length_map]
      rfl

theorem Sound.authorities_known {audit : Audit} {now : Number}
    (h : audit.Sound plan now address P) (hknown : "authorities" ∉ audit.degraded) :
    audit.stages.analyzed.authorities.computed = true := by
  by_contra hcomputed
  obtain ⟨result, -, hstage⟩ := h.stages.analyzed.authorities
  refine hknown (List.mem_map.mpr ⟨.of audit.stages.analyzed.authorities, ?_, ?_⟩)
  · refine List.mem_filter.mpr ⟨?_, by simpa [Outcome.of, Outcome.degraded] using hcomputed⟩
    simp [outcomes, Stages.outcomes]
  · rw [Outcome.of, hstage, StageResult.stage_ofResult]

/-! ### The stages that the sections read -/

namespace Stages.Sound

variable {stages : Stages} (h : stages.Sound plan address P)

include h

theorem built : stages.derived.binary.value.Built
    stages.fetched.program.value.candidateAuthorities :=
  h.derived.binary ▸ built_binaryOf address stages.fetched.program

theorem vulnerabilities_eq : stages.analyzed.vulnerabilities.value =
    Scan.findings Rule.standard {} stages.derived.binary.value := by
  rw [h.analyzed.vulnerabilities]
  rfl

theorem risks_eq : stages.fused.risks.value =
    stages.analyzed.vulnerabilities.value.map Risk.ofVulnerability ++
      if 1000 < stages.derived.binary.value.instructionCount
      then [Risk.reentrancy, Risk.manyInstructions] else [] := by
  rw [h.fused.risks, Risk.assess_eq h.built]
  rfl

theorem safety_eq : ∃ suspicious, stages.fused.safety.value = Safety.ofSignals 80
    (Safety.signals {} stages.derived.binary.value stages.analyzed.authorities.value suspicious
      stages.analyzed.callGraph.value) := by
  obtain ⟨suspicious, hassess⟩ := Safety.assess_eq stages.derived.binary.value
    stages.analyzed.authorities.value h.analyzed.divisible stages.analyzed.callGraph.value
  refine ⟨suspicious, ?_⟩
  rw [h.fused.safety, hassess]
  rfl

theorem prediction_eq : stages.prediction.value = Prediction.ofSignals {}
    (Prediction.signals {} stages.analyzed.authorities.value stages.analyzed.economics.value
      stages.fused.safety.value) := by
  rw [h.prediction]
  rfl

end Stages.Sound

/-- The profile of every audit has all that a report needs. -/
theorem Sound.computed {audit : Audit} {now : Number} (h : audit.Sound plan now address P) :
    audit.document.computed = true := by
  obtain ⟨generatedAt, price, hvalue⟩ := h.document_eq
  have hbuilt := h.stages.built
  obtain ⟨syscalls, hsyscalls⟩ := Option.isSome_iff_exists.mp hbuilt.syscalls
  have hsections : ∃ sections,
      Sections.ofInputs (reportInputs plan address price audit.stages) = .ok sections := by
    simp only [Sections.ofInputs, reportInputs, Option.demand, Sections.orFail,
      Profile.demandSyscalls, hsyscalls, hbuilt.risk, bind, Except.bind]
    exact ⟨_, rfl⟩
  obtain ⟨sections, hsections⟩ := hsections
  rw [hvalue, Document.compose, hsections]
  rfl

theorem Sound.sections {audit : Audit} {now : Number} (h : audit.Sound plan now address P)
    (hcomputed : audit.document.computed = true) : ∃ (sections : Sections) (price : Float),
      sections.MadeOf (reportInputs plan address price audit.stages) ∧
      audit.document.body = .composed sections := by
  obtain ⟨generatedAt, price, hvalue⟩ := h.document_eq
  rw [hvalue] at hcomputed ⊢
  obtain ⟨sections, hmade, hbody⟩ := Document.sections_of_computed hcomputed
  exact ⟨sections, price, hmade, hbody⟩

/-- The sections of a report are related as the stages are. -/
structure Related (authorities : List String) (sections : Sections) : Prop where
  built : sections.profile.Built authorities
  vulnerabilities : sections.vulnerabilities = Scan.findings Rule.standard {} sections.profile
  safety : ∃ suspicious, sections.safety = Safety.ofSignals 80
    (Safety.signals {} sections.profile sections.authorities suspicious sections.graph)
  prediction : sections.prediction = Prediction.ofSignals {}
    (Prediction.signals {} sections.authorities sections.economics sections.safety)
  assessedRisks : sections.assessedRisks = sections.vulnerabilities.map Risk.ofVulnerability ++
    if 1000 < sections.profile.instructionCount
    then [Risk.reentrancy, Risk.manyInstructions] else []

theorem Stages.Sound.related {stages : Stages} (h : stages.Sound plan address P) {price : Float}
    {sections : Sections} (hmade : sections.MadeOf (reportInputs plan address price stages)) :
    Related stages.fetched.program.value.candidateAuthorities sections := by
  have hprofile : stages.derived.binary.value = sections.profile := Option.some.inj hmade.profile
  have heconomics : stages.analyzed.economics.value = sections.economics :=
    Option.some.inj hmade.economics
  have hgraph : stages.analyzed.callGraph.value = sections.graph := Option.some.inj hmade.graph
  have hauthorities : stages.analyzed.authorities.value = sections.authorities :=
    Option.some.inj hmade.authorities
  have hvulnerabilities : stages.analyzed.vulnerabilities.value = sections.vulnerabilities :=
    Option.some.inj hmade.vulnerabilities
  have hsafety : stages.fused.safety.value = sections.safety := Option.some.inj hmade.safety
  have hprediction : stages.prediction.value = sections.prediction :=
    Option.some.inj hmade.prediction
  have hrisks : stages.fused.risks.value = sections.assessedRisks :=
    Option.some.inj hmade.assessedRisks
  obtain ⟨suspicious, hassessed⟩ := h.safety_eq
  constructor
  case built => exact hprofile ▸ h.built
  case vulnerabilities =>
    rw [← hvulnerabilities, ← hprofile]
    exact h.vulnerabilities_eq
  case safety =>
    rw [← hsafety, ← hprofile, ← hauthorities, ← hgraph]
    exact ⟨suspicious, hassessed⟩
  case prediction =>
    rw [← hprediction, ← hauthorities, ← heconomics, ← hsafety]
    exact h.prediction_eq
  case assessedRisks =>
    rw [← hrisks, ← hvulnerabilities, ← hprofile]
    exact h.risks_eq

section Related

variable {authorities : List String} {sections : Sections} (h : Related authorities sections)

include h

theorem Related.mem_vulnerabilities {kind : String}
    (hinvocation : kind ≠ "Unverified Cross-Program Invocation")
    (hmemory : kind ≠ "Manual Memory Management") (hlayout : kind ≠ "Unknown Serialization") :
    kind ∈ sections.vulnerabilities.map Vulnerability.kind ↔
      ((sections.profile.hiddenMint = true ∧ authorities.length = 1) ∧
        "Privileged Mint Authority" = kind) ∨
      (sections.profile.hiddenMint = true ∧ "Unchecked Minting" = kind) ∨
      (1000 < sections.profile.instructionCount ∧ "Reentrancy" = kind) ∨
      (authorities.length = 1 ∧ "Centralized Upgrade Authority" = kind) ∨
      (70 < sections.profile.controlFlow.total ∧ "High Control-Flow Complexity" = kind) := by
  rw [h.vulnerabilities]
  exact Scan.mem_standard_kinds h.built hinvocation hmemory hlayout

end Related

/-- The report of an audit agrees with itself. -/
theorem Related.agrees {document : Document} {authorities : List String} {sections : Sections}
    {known : Prop} (h : Related authorities sections) (hbody : document.body = .composed sections)
    (hknown : known → sections.authorities.length = authorities.length) :
    document.Agrees known := by
  obtain ⟨suspicious, hsafety⟩ := h.safety
  have hminting : .str "Potential unchecked minting" ∈ document.feedback ↔
      sections.profile.hiddenMint = true := by
    rw [Document.feedback_eq hbody, Document.str_mem_map, hsafety]
    exact Safety.mem_hiddenMint
  have hsingle : .str "Single authority" ∈ document.feedback ↔
      sections.authorities.length = 1 := by
    rw [Document.feedback_eq hbody, Document.str_mem_map, hsafety]
    exact Safety.mem_singleAuthority
  have hsuspicious : .str "High suspicious volume" ∈ document.feedback ↔ suspicious = true := by
    rw [Document.feedback_eq hbody, Document.str_mem_map, hsafety]
    exact Safety.mem_suspiciousVolume
  have hcomplex : .str "Complex interactions" ∈ document.feedback ↔
      50 < (sections.graph.edges.length : Int) := by
    rw [Document.feedback_eq hbody, Document.str_mem_map, hsafety]
    exact Safety.mem_complexGraph
  have hlength : document.authorities.length = sections.authorities.length := by
    rw [Document.authorities_eq hbody, List.length_map]
  constructor
  case minting =>
    rw [Document.weaknesses_eq hbody, Document.str_mem_map, Document.hiddenMintSignal_eq hbody,
      h.mem_vulnerabilities (by decide) (by decide) (by decide)]
    simp
  case mintingFeedback => rw [hminting, Document.hiddenMintSignal_eq hbody, Json.bool.injEq]
  case controlFlow =>
    rw [Document.weaknesses_eq hbody, Document.str_mem_map, Document.flowComplexity_eq hbody,
      Json.str.injEq, Sections.flowComplexity_eq_high,
      h.mem_vulnerabilities (by decide) (by decide) (by decide)]
    simp
  case reentrancy =>
    refine ⟨_, Document.instructionCount_eq hbody, ?_, ?_, ?_⟩
    · rw [Document.weaknesses_eq hbody, Document.str_mem_map,
        h.mem_vulnerabilities (by decide) (by decide) (by decide)]
      simp
    · rw [Document.assessedRisks_eq hbody, Document.str_mem_map, h.assessedRisks,
        Risk.mem_issues _ (by decide)]
      simp [Risk.reentrancy]
    · rw [Document.assessedRisks_eq hbody, Document.str_mem_map, h.assessedRisks,
        Risk.mem_issues _ (by decide)]
      simp [Risk.manyInstructions]
  case interactions =>
    rw [hcomplex, Document.interactionComplexity_eq hbody, Json.str.injEq,
      CallGraph.complexity_eq_high]
    omega
  case authority =>
    intro hstage
    have hcandidates := hknown hstage
    refine ⟨?_, ?_, ?_, ?_⟩
    · rw [Document.weaknesses_eq hbody, Document.str_mem_map, hlength, hcandidates,
        h.mem_vulnerabilities (by decide) (by decide) (by decide)]
      simp
    · rw [hsingle, hlength]
    · rw [Document.riskFactors_eq hbody, Document.str_mem_map, h.prediction, hlength]
      exact Prediction.mem_singleAuthority
    · rw [Document.weaknesses_eq hbody, Document.str_mem_map, Document.hiddenMintSignal_eq hbody,
        hlength, hcandidates, h.mem_vulnerabilities (by decide) (by decide) (by decide)]
      simp
  case lowSafety =>
    rw [Document.riskFactors_eq hbody, Document.str_mem_map, h.prediction,
      Document.riskLevel_eq hbody, Json.str.injEq, riskLevel_eq_high]
    exact Prediction.mem_lowSafety
  case feedback =>
    rw [Document.feedback_eq hbody, hsafety]
    exact Safety.issues_sublist.map Json.str
  case score =>
    have hpenalty {issue : String} {amount : Int} {holds : Prop} [Decidable holds]
        (hiff : .str issue ∈ document.feedback ↔ holds) :
        document.penalty issue amount = if holds then amount else 0 := by
      simp [Document.penalty, hiff]
    rw [Document.safetyScore_eq hbody, hsafety, Safety.score_eq, hpenalty hminting,
      hpenalty hsingle, hpenalty hsuspicious, hpenalty hcomplex]

/-- **The sections of every report agree.** Whatever the source answers, and whichever stages are
degraded: the report never says of one signal that it is there and elsewhere that it is not. -/
theorem run_agrees {τ σ : Type} [Clock τ] (plan : Plan) (around : Surroundings τ σ) (given : Json)
    (progress : Routine.Progress τ σ) (audit : Audit)
    (hrun : (Routine.run progress (run plan around given)).result = some (.ok audit))
    (hcomputed : audit.document.computed = true) :
    audit.document.Agrees ("authorities" ∉ audit.degraded) := by
  have hended := Routine.run_settles progress
    (settles_run (P := fun _ => True) (Routine.settles_true around.price) trivial) hrun
  cases hended with
  | done _ hsound =>
      obtain ⟨sections, price, hmade, hbody⟩ := hsound.sections hcomputed
      exact (hsound.stages.related hmade).agrees hbody fun hknown =>
        Option.some.inj hmade.authorities ▸
          hsound.stages.authorities (hsound.authorities_known hknown)

/-- The image of a program that mints, behind its pointer, with a key that may replace it; there is no
price. -/
def mintingSurroundings : Surroundings Int Unit where
  source := {
    account := fun address => Routine.succeed (some
      { lamports := 1
        owner := upgradeableLoader
        executable := true
        data :=
          if address = "11111111111111111111111111111111" then 2 :: 0 :: 0 :: 0 :: List.replicate 32 7
          else [3, 0, 0, 0, 0, 0, 0, 0, 0, 0, 0, 0, 1] ++ List.replicate 32 9 ++ Bytes.ofText "mint" })
    transactions := fun _ _ => Routine.succeed (some [])
    mint := fun _ => Routine.succeed none }
  price := Routine.fail (.transient "refused" none)
  sleep := Routine.sleep
  now := 1700000000

def mintingRun : Option (Result Audit) :=
  (Routine.run ⟨(0 : Int), 0, (), []⟩
    (run { stageTimeout := some 5, fetchTimeout := some 5 } mintingSurroundings
      (.str "11111111111111111111111111111111"))).result

/-- A report without a price in which the signals of minting and of the one authority are there, in each
of the sections that speak of them. -/
theorem run_agrees_minting : ∃ audit, mintingRun = some (.ok audit) ∧
    audit.document.computed = true ∧ audit.degraded = ["price"] ∧
    audit.document.binary.get "hiddenMintSignal" = .bool true ∧
    audit.document.authorities.length = 1 ∧
    .str "Privileged Mint Authority" ∈ audit.document.weaknesses ∧
    .str "Single authority" ∈ audit.document.riskFactors ∧
    audit.document.Agrees ("authorities" ∉ audit.degraded) := by
  have hall : (match mintingRun with
      | some (.ok audit) => audit.document.computed && decide (audit.degraded = ["price"]) &&
          decide (audit.document.binary.get "hiddenMintSignal" = .bool true) &&
          decide (audit.document.authorities.length = 1)
      | some (.error _) => false
      | none => false) = true := by decide +kernel
  split at hall
  case h_1 audit hrun =>
    simp only [Bool.and_eq_true, decide_eq_true_eq] at hall
    obtain ⟨⟨⟨hcomputed, hdegraded⟩, hminting⟩, hone⟩ := hall
    have hagrees := run_agrees _ mintingSurroundings _ _ audit hrun hcomputed
    have hknown : "authorities" ∉ audit.degraded := by
      rw [hdegraded]
      decide
    obtain ⟨-, -, hsingle, hprivileged⟩ := hagrees.authority hknown
    exact ⟨audit, hrun, hcomputed, hdegraded, hminting, hone, hprivileged.mpr ⟨hminting, hone⟩,
      hsingle.mpr hone, hagrees⟩
  case h_2 => cases hall
  case h_3 => cases hall

end Audit

end ProgramAudit
