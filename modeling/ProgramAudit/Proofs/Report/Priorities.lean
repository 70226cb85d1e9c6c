import Mathlib.Data.List.Infix
import ProgramAudit.Proofs.Report.Sections

/-!
The order of the risks in a report and their numbers. The ranking goes through the findings and the risks
of the safety once for each severity, and the breakdown counts each severity on its own. The ranking is a
stable sort all the same, and the breakdown counts the ranking.
-/

namespace ProgramAudit

namespace Report

open Finding

namespace RankedRisk

variable {ranked : List RankedRisk} {severity : Severity}

/-- A risk goes before every other one that is not more severe. -/
def goesBefore (left right : RankedRisk) : Bool :=
  decide (right.severity.rank ≤ left.severity.rank)

def ofSeverity (severity : Severity) (ranked : List RankedRisk) : List RankedRisk :=
  ranked.filter fun risk => decide (risk.severity = severity)

theorem goesBefore_trans (first second third : RankedRisk) (h : goesBefore first second = true)
    (h' : goesBefore second third = true) : goesBefore first third = true :=
  decide_eq_true ((of_decide_eq_true h').trans (of_decide_eq_true h))

theorem goesBefore_total (left right : RankedRisk) :
    (goesBefore left right || goesBefore right left) = true := by
  rw [Bool.or_eq_true]
  exact (Nat.le_total right.severity.rank left.severity.rank).imp decide_eq_true decide_eq_true

theorem ofSeverity_eq_nil {first : RankedRisk}
    (h : ∀ other ∈ ranked, goesBefore first other = true)
    (hbelow : first.severity.rank < severity.rank) : ofSeverity severity ranked = [] := by
  refine List.filter_eq_nil_iff.mpr fun other hother hseverity => ?_
  have hle := of_decide_eq_true (h other hother)
  rw [of_decide_eq_true hseverity] at hle
  exact Nat.not_le_of_lt hbelow hle

/-- By induction over the list: behind its first risk there is nothing more severe. -/
theorem eq_append_of_pairwise (h : ranked.Pairwise fun left right => goesBefore left right = true) :
    ranked = ofSeverity .critical ranked ++ ofSeverity .high ranked ++
      ofSeverity .moderate ranked ++ ofSeverity .low ranked := by
  induction ranked with
  | nil => rfl
  | cons first rest ih =>
      obtain ⟨hfirst, hrest⟩ := List.pairwise_cons.mp h
      have hnone (severity : Severity) (hbelow : first.severity.rank < severity.rank) :
          ofSeverity severity rest = [] := ofSeverity_eq_nil hfirst hbelow
      have hsplit := ih hrest
      have hcons (severity : Severity) : ofSeverity severity (first :: rest) =
          if first.severity = severity then first :: ofSeverity severity rest
          else ofSeverity severity rest := by
        simp [ofSeverity, List.filter_cons]
      simp only [hcons]
      cases hseverity : first.severity with
      | critical => simpa using hsplit
      | high =>
          rw [hnone .critical (by rw [hseverity]; decide)] at hsplit ⊢
          simpa using hsplit
      | moderate =>
          rw [hnone .critical (by rw [hseverity]; decide),
            hnone .high (by rw [hseverity]; decide)] at hsplit ⊢
          simpa using hsplit
      | low =>
          rw [hnone .critical (by rw [hseverity]; decide),
            hnone .high (by rw [hseverity]; decide),
            hnone .moderate (by rw [hseverity]; decide)] at hsplit ⊢
          simpa using hsplit

/-- A stable sort keeps the order inside of each severity: the risks of one severity are in order as they
are, so they stand in the sorted list as they stood before. -/
theorem ofSeverity_mergeSort (severity : Severity) (ranked : List RankedRisk) :
    ofSeverity severity (ranked.mergeSort goesBefore) = ofSeverity severity ranked := by
  have hordered : (ofSeverity severity ranked).Pairwise
      fun left right => goesBefore left right = true := by
    refine List.pairwise_of_forall_mem_list fun left hleft right hright => decide_eq_true ?_
    rw [of_decide_eq_true (List.mem_filter.mp hleft).2, of_decide_eq_true (List.mem_filter.mp hright).2]
  have hstands : (ofSeverity severity ranked).Sublist (ranked.mergeSort goesBefore) :=
    List.sublist_mergeSort goesBefore_trans goesBefore_total hordered List.filter_sublist
  have hsublist : (ofSeverity severity ranked).Sublist
      (ofSeverity severity (ranked.mergeSort goesBefore)) := by
    have hfiltered := hstands.filter fun risk => decide (risk.severity = severity)
    rwa [ofSeverity, List.filter_filter, show (fun risk : RankedRisk =>
      decide (risk.severity = severity) && decide (risk.severity = severity)) =
        fun risk => decide (risk.severity = severity) from funext fun _ => Bool.and_self _]
      at hfiltered
  have hperm := (List.mergeSort_perm ranked goesBefore).filter
    fun risk => decide (risk.severity = severity)
  exact (hsublist.eq_of_length hperm.length_eq.symm).symm

/-! ### The ranking -/

/-- What is ranked, in the order in which it was found. -/
def entries (found : List Vulnerability) (safety : Score.Safety) : List RankedRisk :=
  found.map ofVulnerability ++ safety.risks.map ofRisk

theorem severity_ofRisk (risk : Risk) :
    ((ofRisk risk).severity = .high ↔ "malicious".toList <:+: risk.implication.toList) ∧
      ((ofRisk risk).severity = .moderate ↔ ¬"malicious".toList <:+: risk.implication.toList) := by
  rw [← isInfix_iff]
  change (severityOf risk = .high ↔ isMalicious risk = true) ∧
    (severityOf risk = .moderate ↔ ¬isMalicious risk = true)
  unfold severityOf
  split <;> simp [*]

/-- The risks of the safety that are of a severity; none is critical or low. -/
def safetyRisksOf : Severity → List Risk → List RankedRisk
  | .high, risks => risksOf true risks
  | .moderate, risks => risksOf false risks
  | _, _ => []

theorem ofSeverity_map_ofRisk (severity : Severity) (risks : List Risk) :
    ofSeverity severity (risks.map ofRisk) = safetyRisksOf severity risks := by
  have hfilter : ofSeverity severity (risks.map ofRisk) =
      (risks.filter fun risk => decide (severityOf risk = severity)).map ofRisk := List.filter_map
  have hseverity (malicious : Bool) (risk : Risk) : isMalicious risk = malicious →
      severityOf risk = if malicious then .high else .moderate := by
    rintro rfl
    rfl
  rw [hfilter]
  cases severity with
  | high | moderate =>
      refine congrArg (List.map ofRisk) (List.filter_congr fun risk _ => ?_)
      cases hmalicious : isMalicious risk <;> rw [hseverity _ risk hmalicious] <;> rfl
  | _ =>
      refine List.map_eq_nil_iff.mpr (List.filter_eq_nil_iff.mpr fun risk _ => ?_)
      cases hmalicious : isMalicious risk <;> rw [hseverity _ risk hmalicious] <;> decide

theorem ofSeverity_entries (severity : Severity) (found : List Vulnerability)
    (safety : Score.Safety) : ofSeverity severity (entries found safety) =
      vulnerabilitiesOf severity found ++ ofSeverity severity (safety.risks.map ofRisk) := by
  have hfound : ofSeverity severity (found.map ofVulnerability) =
      vulnerabilitiesOf severity found := List.filter_map
  rw [← hfound]
  exact List.filter_append ..

/-- Six passes make the sorted list: of each severity they take what the sort has of it. -/
theorem ranking_eq_mergeSort (found : List Vulnerability) (safety : Score.Safety) :
    ranking found safety = (entries found safety).mergeSort goesBefore := by
  have hsorted := eq_append_of_pairwise
    (List.pairwise_mergeSort goesBefore_trans goesBefore_total (entries found safety))
  simp only [ofSeverity_mergeSort, ofSeverity_entries, ofSeverity_map_ofRisk, safetyRisksOf]
    at hsorted
  rw [hsorted, ranking]
  simp only [List.append_assoc, List.append_nil]

/-! ### The breakdown -/

theorem length_eq_sum_countP (ranked : List RankedRisk) :
    ranked.length = ranked.countP (fun risk => decide (risk.severity = .critical)) +
      ranked.countP (fun risk => decide (risk.severity = .high)) +
      ranked.countP (fun risk => decide (risk.severity = .moderate)) +
      ranked.countP (fun risk => decide (risk.severity = .low)) := by
  induction ranked with
  | nil => rfl
  | cons first rest ih =>
      simp only [List.countP_cons, List.length_cons]
      cases first.severity <;> simp <;> omega

end RankedRisk

open RankedRisk

def Breakdown.count (breakdown : Breakdown) : Severity → Nat
  | .critical => breakdown.critical
  | .high => breakdown.high
  | .moderate => breakdown.moderate
  | .low => breakdown.low

theorem count_ofFindings (severity : Severity) (found : List Vulnerability) (safety : Score.Safety) :
    (Breakdown.ofFindings found safety).count severity =
      (ranking found safety).countP fun risk => decide (risk.severity = severity) := by
  have hranking : (ranking found safety).countP (fun risk => decide (risk.severity = severity)) =
      Breakdown.countOf severity found +
        (ofSeverity severity (safety.risks.map ofRisk)).length := by
    rw [ranking_eq_mergeSort, (List.mergeSort_perm _ _).countP_eq, List.countP_eq_length_filter]
    change (ofSeverity severity (entries found safety)).length = _
    rw [ofSeverity_entries, List.length_append, vulnerabilitiesOf, List.length_map,
      ← List.countP_eq_length_filter]
    rfl
  have hrisks : safety.risks.length =
      safety.risks.countP isMalicious + (risksOf false safety.risks).length := by
    rw [List.length_eq_countP_add_countP isMalicious, risksOf, List.length_map,
      ← List.countP_eq_length_filter]
    congr 2
    funext risk
    cases isMalicious risk <;> rfl
  rw [hranking, ofSeverity_map_ofRisk]
  cases severity with
  | critical => rfl
  | low => rfl
  | high =>
      rw [safetyRisksOf, risksOf, List.length_map, ← List.countP_eq_length_filter]
      simp [Breakdown.count, Breakdown.ofFindings]
  | moderate =>
      change Breakdown.countOf .moderate found +
        (safety.risks.length - safety.risks.countP isMalicious) =
          Breakdown.countOf .moderate found + (risksOf false safety.risks).length
      omega

theorem length_ranking (found : List Vulnerability) (safety : Score.Safety) :
    let breakdown := Breakdown.ofFindings found safety
    (ranking found safety).length =
      breakdown.critical + breakdown.high + breakdown.moderate + breakdown.low := by
  rw [length_eq_sum_countP, ← count_ofFindings, ← count_ofFindings, ← count_ofFindings,
    ← count_ofFindings]
  rfl

/-- A composed report shows the ranking and the breakdown of its own findings and safety. -/
theorem assessment_of_computed {inputs : Inputs} {generatedAt : String} {found : List Vulnerability}
    {safety : Score.Safety} (hfound : inputs.vulnerabilities = some found)
    (hsafety : inputs.safety = some safety)
    (hcomputed : (Document.compose inputs generatedAt).computed = true) :
    ∃ sections : Sections,
      (Document.compose inputs generatedAt).toJson.get "riskAssessment" = sections.riskAssessment ∧
      sections.ranking = ranking found safety ∧
      sections.breakdown = Breakdown.ofFindings found safety := by
  obtain ⟨sections, hmade, hbody⟩ := Document.sections_of_computed hcomputed
  have hvulnerabilities : sections.vulnerabilities = found :=
    Option.some.inj (hmade.vulnerabilities.symm.trans hfound)
  have hrisks : sections.safety = safety := Option.some.inj (hmade.safety.symm.trans hsafety)
  refine ⟨sections, ?_, ?_, ?_⟩
  · rw [Document.toJson_eq hbody]
    rfl
  · rw [Sections.ranking, hvulnerabilities, hrisks]
  · rw [Sections.breakdown, hvulnerabilities, hrisks]

/-- **Risks are ranked by their severity and counted once.** The ranking is the stable sort, the most
severe first, of the findings and behind them the risks of the safety, which are high if they speak of
malice and moderate otherwise. It has each of them once, and those of one severity in the order in which
they were found. The breakdown says for each severity how many of the ranking are of it, and in a report
the four numbers add up to the total. -/
theorem ranking_counted (found : List Vulnerability) (safety : Score.Safety) :
    let ranked := ranking found safety
    let breakdown := Breakdown.ofFindings found safety
    ranked = (entries found safety).mergeSort goesBefore ∧
    ranked.Perm (entries found safety) ∧
    (∀ severity, ofSeverity severity ranked =
      ofSeverity severity (entries found safety)) ∧
    (∀ risk, ((ofRisk risk).severity = .high ↔
        "malicious".toList <:+: risk.implication.toList) ∧
      ((ofRisk risk).severity = .moderate ↔
        ¬"malicious".toList <:+: risk.implication.toList)) ∧
    (∀ severity, breakdown.count severity =
      ranked.countP fun risk => decide (risk.severity = severity)) ∧
    ∀ (inputs : Inputs) (generatedAt : String), inputs.vulnerabilities = some found →
      inputs.safety = some safety → (Document.compose inputs generatedAt).computed = true →
      let assessment := (Document.compose inputs generatedAt).toJson.get "riskAssessment"
      assessment.get "prioritizedRisks" = .arr (ranked.map RankedRisk.toJson) ∧
      assessment.get "riskScoreBreakdown" = breakdown.toJson ∧
      assessment.get "totalRisks" = .int
        (breakdown.critical + breakdown.high + breakdown.moderate + breakdown.low) := by
  intro ranked breakdown
  have hsorted : ranked = (entries found safety).mergeSort goesBefore :=
    ranking_eq_mergeSort found safety
  refine ⟨hsorted, ?_, fun severity => ?_, severity_ofRisk,
    fun severity => count_ofFindings severity found safety, ?_⟩
  · rw [hsorted]
    exact List.mergeSort_perm _ _
  · rw [hsorted, ofSeverity_mergeSort]
  · intro inputs generatedAt hfound hsafety hcomputed assessment
    obtain ⟨sections, hassessment, hranking, hbreakdown⟩ :=
      assessment_of_computed hfound hsafety hcomputed
    have hlength : sections.ranking.length =
        breakdown.critical + breakdown.high + breakdown.moderate + breakdown.low := by
      rw [hranking, length_ranking]
    change assessment = sections.riskAssessment at hassessment
    rw [hassessment]
    refine ⟨?_, ?_, ?_⟩
    · change Json.arr (sections.ranking.map RankedRisk.toJson) = _
      rw [hranking]
    · change sections.breakdown.toJson = _
      rw [hbreakdown]
    · change Json.int (sections.ranking.length : Int) = _
      rw [hlength]
      rfl

/-- Low before critical among the findings, and harmless before malicious among the risks. -/
def mixedFindings : List Vulnerability :=
  [⟨"Marker", .low, "", 50, ""⟩, ⟨"Authority", .critical, "", 90, ""⟩]

def mixedSafety : Score.Safety where
  score := 40
  risks := [⟨"Complex", "hard to review", ""⟩, ⟨"Mint", "malicious minting", ""⟩]

def mixedInputs : Inputs where
  address := "program"
  profile := some (.neutral "program" [])
  economics := some .neutral
  graph := some (.empty "program")
  authorities := some []
  governance := some .neutral
  vulnerabilities := some mixedFindings
  safety := some mixedSafety
  behavior := some .neutral
  prediction := some .neutral
  fees := some {}
  deepDive := some {}
  assessedRisks := some []
  interface := some {}
  upgrades := some []
  solPrice := some 150

theorem ranking_counted_mixed : (Document.compose mixedInputs "").computed = true ∧
    ((Document.compose mixedInputs "").toJson.get "riskAssessment").get "totalRisks" = .int 4 := by
  refine ⟨rfl, ?_⟩
  have hreport := (ranking_counted mixedFindings mixedSafety).2.2.2.2.2 mixedInputs "" rfl rfl rfl
  exact hreport.2.2.trans (congrArg Json.int (by decide))

end Report

end ProgramAudit
