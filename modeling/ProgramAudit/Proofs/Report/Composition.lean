import ProgramAudit.Proofs.Report.Whole

/-!
Composition is all or nothing. Drafts make either all sections or none, and which of both depends on
whether the inputs are sufficient.
-/

namespace ProgramAudit.Report.Draft

open Result Sections

namespace Inputs

/-- Every section is the one that is written from the inputs. -/
structure Composed (inputs : Inputs) (generatedAt : String) (sheet : Sheet) : Prop where
  computed : sheet.computed = true
  address : sheet.address = inputs.address
  generatedAt : sheet.generatedAt = generatedAt
  network : sheet.network = inputs.network
  degraded : sheet.degraded = inputs.degraded
  sections : List.Forall₂ (fun found part => found.1 = part.name ∧ part.write inputs = .ok found.2)
    sheet.sections Inputs.sections

/-- No section tells anything of the inputs, and the report is degraded itself. -/
structure Neutral (inputs : Inputs) (generatedAt : String) (sheet : Sheet) : Prop where
  fallback : sheet =
    (Document.fallback inputs.address generatedAt inputs.network inputs.degraded).sheet
  computed : sheet.computed = false
  sections : sheet.sections = Document.neutralFields
  degraded : sheet.degraded =
    if Document.ownSection ∈ inputs.degraded then distinct inputs.degraded
    else distinct inputs.degraded ++ [Document.ownSection]
  nodup : sheet.degraded.Nodup
  listed : sheet.metadata.get "degradedSections" = Json.strings sheet.degraded

variable {inputs : Inputs} {ranking : List Json} {fields : List (String × Json)}

theorem composed_of_content (h : inputs.content = .ok (ranking, fields)) (generatedAt : String) :
    Composed inputs generatedAt (inputs.composed generatedAt fields) := by
  simp only [content, Inputs.fields, bind_eq_ok, pure_eq_ok, Prod.mk.injEq, mapM_eq_ok] at h
  obtain ⟨_, -, _, hfields, rfl, rfl⟩ := h
  refine ⟨rfl, rfl, rfl, rfl, rfl, hfields.imp ?_⟩
  rintro _ part ⟨json, hjson, rfl⟩
  exact ⟨rfl, hjson⟩

theorem neutral_neutral (inputs : Inputs) (generatedAt : String) :
    Neutral inputs generatedAt (inputs.neutral generatedAt) :=
  ⟨rfl, rfl, rfl, distinct_concat inputs.degraded Document.ownSection, nodup_distinct _, rfl⟩

/-- What was ranked has a score to record. -/
theorem compose_eq_composed (h : inputs.content = .ok (ranking, fields)) (generatedAt : String) :
    ∃ record, inputs.compose generatedAt = .ok (inputs.composed generatedAt fields, record) := by
  have hranking : Succeeds inputs.ranking := (succeeds_content.mp ⟨_, h⟩).1
  obtain ⟨safety, hsafety, -⟩ := succeeds_judgedRisks.mp (succeeds_ranking.mp hranking).1
  unfold compose
  rw [h]
  exact ⟨_, bind_ok (bind_ok (Option.demand_eq_ok.mpr hsafety) rfl) rfl⟩

theorem compose_eq_neutral (h : ¬inputs.Sufficient) (generatedAt : String) :
    ∃ record, inputs.compose generatedAt = .ok (inputs.neutral generatedAt, record) := by
  obtain ⟨failure, hfailure⟩ := not_succeeds_iff.mp (mt succeeds_content_iff.mp h)
  unfold compose
  rw [hfailure]
  exact ⟨_, rfl⟩

/-- A report is written from drafts without gaps as it is composed of the parts themselves. -/
theorem compose_ofWhole (given : Report.Inputs) (generatedAt : String) :
    ∃ record, (ofWhole given).compose generatedAt =
      .ok ((Document.compose given generatedAt).sheet, record) := by
  unfold Document.compose
  cases hsections : Sections.ofInputs given with
  | error failure =>
      have hinsufficient : ¬(ofWhole given).Sufficient := fun h =>
        not_succeeds_error (hsections ▸ succeeds_ofInputs h)
      exact compose_eq_neutral hinsufficient generatedAt
  | ok sections =>
      obtain ⟨hsyscalls, hrisk⟩ := reads_of_ofInputs hsections
      rw [ofWhole_eq (madeOf_of_ofInputs hsections)]
      exact compose_eq_composed
        (bind_ok ranking_ofSections <| bind_ok (fields_ofSections hsyscalls hrisk) rfl) generatedAt

end Inputs

/-- **A report is composed of all its sections, or neutral throughout.** Whatever is missing in its
inputs, it comes out as one of both, with the same names of sections. It is composed exactly if the inputs
are sufficient, and inputs without gaps make the document that is composed of their parts. -/
theorem composes_all_or_nothing (inputs : Inputs) (generatedAt : String) :
    (∃ sheet record, inputs.compose generatedAt = .ok (sheet, record) ∧
      (inputs.Sufficient ∧ inputs.Composed generatedAt sheet ∨
        ¬inputs.Sufficient ∧ inputs.Neutral generatedAt sheet) ∧
      sheet.sections.map Prod.fst = Inputs.sections.map Inputs.Section.name) ∧
    ∀ given, ∃ record, (Inputs.ofWhole given).compose generatedAt =
      .ok ((Document.compose given generatedAt).sheet, record) := by
  refine ⟨?_, fun given => Inputs.compose_ofWhole given generatedAt⟩
  by_cases h : inputs.Sufficient
  · obtain ⟨⟨ranking, fields⟩, hcontent⟩ := Inputs.succeeds_content_iff.mpr h
    obtain ⟨record, hcompose⟩ := Inputs.compose_eq_composed hcontent generatedAt
    have hcomposed := Inputs.composed_of_content hcontent generatedAt
    refine ⟨_, record, hcompose, .inl ⟨h, hcomposed⟩, ?_⟩
    rw [← List.forall₂_eq_eq_eq, List.forall₂_map_left_iff, List.forall₂_map_right_iff]
    exact hcomposed.sections.imp fun _ _ => And.left
  · obtain ⟨record, hcompose⟩ := Inputs.compose_eq_neutral h generatedAt
    exact ⟨_, record, hcompose, .inr ⟨h, Inputs.neutral_neutral inputs generatedAt⟩, rfl⟩

end ProgramAudit.Report.Draft
