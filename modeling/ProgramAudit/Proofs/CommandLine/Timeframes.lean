import ProgramAudit.Proofs.CommandLine.Statuses

/-!
Timeframes and what becomes of them. A text that stands for nothing is refused before anything is
read, by an audit as by the command line. Two kinds of texts are neither read nor refused: those with
the long s for a letter, and those with more digits than the longest numeral.
-/

namespace ProgramAudit.CommandLine

open Endpoint Routine Traffic Timeframe

variable {τ σ : Type} [Clock τ]

/-- An audit without a window is over where it begins. -/
theorem runOver_unbounded {connection : Connection τ σ} {start : Settings → σ} {moment : τ}
    {now : Number} {environment : Environment} {texts : List String} {arguments : Arguments}
    {settings : Settings} {address : String} {failure : Failure} {least : Int}
    (harguments : Usage.ofTexts texts = .run arguments)
    (hleast : thresholdOf environment arguments = .ok least)
    (hsettings : Settings.ofEnvironment environment = .ok settings)
    (haddress : Address.validate (.str arguments.address) = .ok address)
    (hquick : arguments.quick = false)
    (h : seconds? (some (timeframeOf environment arguments)) = .error failure) :
    runOver connection start moment now environment texts =
      reportOf least (.error failure) (connection.count (start settings)) [loadedRecord settings] := by
  have hrun : (task connection now arguments settings).run (begun start moment settings) =
      ⟨some (.error failure), begun start moment settings⟩ := by
    rw [← timeframe_planOf hsettings] at h
    unfold task
    rw [if_neg (by simp [hquick])]
    exact run_bind_error (Audit.run_unbounded haddress h _)
  rw [runOver_settled harguments hleast hsettings hrun]
  rfl

/-- What the seconds of a text are, which texts have none, and how an audit and the command line end
then: before anything has been read. The command line blames the input, unless it cannot keep records. -/
theorem timeframe_told (text : String) :
    (seconds? (some text) = .ok none ↔ Whole text) ∧
    (∀ span, seconds? (some text) = .ok (some span) ↔ ∃ digits letter seconds,
      Written text.toList digits letter ∧ (letter, seconds) ∈ letters ∧ digits.length ≤ 4300 ∧
      span = Text.amountOf digits * seconds) ∧
    (∀ failure, seconds? (some text) = .error failure ↔
      (Malformed text ∧ failure = invalid text) ∨
      (∃ digits, Written text.toList digits 'ſ' ∧ digits.length ≤ 4300 ∧
        failure = .missingKey (.str "ſ")) ∨
      ∃ digits letter, Written text.toList digits letter ∧ Passes letter ∧ 4300 < digits.length ∧
        failure = Json.noNumeral (String.ofList digits)) ∧
    (∀ (plan : Audit.Plan) (around : Audit.Surroundings τ σ) given address failure progress,
      Address.validate given = .ok address → plan.fetch.timeframe = some text →
      seconds? (some text) = .error failure →
      (Audit.run plan around given).run progress = ⟨some (.error failure), progress⟩) ∧
    ∀ (connection : Connection τ σ) (start : Settings → σ) moment now environment texts arguments
      settings address, (∀ settings, connection.count (start settings) = 0) →
      Usage.ofTexts texts = .run arguments → Settings.ofEnvironment environment = .ok settings →
      Address.validate (.str arguments.address) = .ok address → arguments.quick = false →
      timeframeOf environment arguments = text → Malformed text →
      (runOver connection start moment now environment texts).outcome =
        (thresholdOf environment arguments).map (fun _ =>
          { status := 2, complaints := [complaint (invalid text)] }) ∧
      (runOver connection start moment now environment texts).requests = 0 := by
  refine ⟨?_, fun span => ?_, fun failure => ?_, ?_, ?_⟩
  · rw [seconds?_eq_iff]
    refine ⟨fun h => ?_, .whole⟩
    cases h with
    | whole h => exact h
  · rw [seconds?_eq_iff]
    constructor
    · intro h
      cases h with
      | span h hletter hlength => exact ⟨_, _, _, h, hletter, hlength, rfl⟩
    · rintro ⟨digits, letter, seconds, h, hletter, hlength, rfl⟩
      exact .span h hletter hlength
  · rw [seconds?_eq_iff]
    constructor
    · intro h
      cases h with
      | malformed h => exact .inl ⟨h, rfl⟩
      | longS h hlength => exact .inr (.inl ⟨_, h, hlength, rfl⟩)
      | overlong h hletter hlength => exact .inr (.inr ⟨_, _, h, hletter, hlength, rfl⟩)
    · rintro (⟨h, rfl⟩ | ⟨digits, h, hlength, rfl⟩ | ⟨digits, letter, h, hletter, hlength, rfl⟩)
      · exact .malformed h
      · exact .longS h hlength
      · exact .overlong h hletter hlength
  · intro plan around given address failure progress haddress htimeframe h
    exact Audit.run_unbounded haddress (htimeframe ▸ h) progress
  · intro connection start moment now environment texts arguments settings address hstart harguments
      hsettings haddress hquick htimeframe h
    have hseconds : seconds? (some (timeframeOf environment arguments)) = .error (invalid text) := by
      rw [htimeframe]
      exact seconds?_of_malformed h
    cases hleast : thresholdOf environment arguments with
    | error failure =>
        rw [runOver_unranked harguments hleast]
        exact ⟨rfl, rfl⟩
    | ok least =>
        rw [runOver_unbounded harguments hleast hsettings haddress hquick hseconds]
        exact ⟨rfl, hstart settings⟩

/-- An audit of the system program with a letter that stands for no unit. -/
theorem timeframe_told_unknown :
    Malformed "7x" ∧
    (run (0.0 : Float) {} 0 sampleEnvironment
      ["11111111111111111111111111111111", "--timeframe", "7x"]).outcome =
        .ok { status := 2, complaints := [complaint (invalid "7x")] } ∧
    (run (0.0 : Float) {} 0 sampleEnvironment
      ["11111111111111111111111111111111", "--timeframe", "7x"]).requests = 0 := by
  obtain ⟨-, -, hfailures, -, hcommand⟩ := timeframe_told (τ := Float) (σ := Session Float) "7x"
  have hmalformed : Malformed "7x" := by
    have hseconds : seconds? (some "7x") = .error (invalid "7x") := rfl
    rcases (hfailures _).mp hseconds with ⟨h, -⟩ | ⟨_, _, _, h⟩ | ⟨_, _, _, _, _, h⟩
    · exact h
    · cases h
    · cases h
  have hvalue : Address.ofValue? (.str "11111111111111111111111111111111") =
      some "11111111111111111111111111111111" := by decide +kernel
  have haddress : Address.validate (.str "11111111111111111111111111111111") =
      .ok "11111111111111111111111111111111" := by rw [Address.validate, hvalue]
  have harguments : Usage.ofTexts ["11111111111111111111111111111111", "--timeframe", "7x"] =
      .run { address := "11111111111111111111111111111111", timeframe := some "7x" } := rfl
  have hstart (settings : Settings) :
      (Session.connection {}).count (sessionOf sampleEnvironment settings : Session Float) = 0 := rfl
  exact ⟨hmalformed, hcommand (Session.connection {}) (sessionOf sampleEnvironment) 0.0 0
    sampleEnvironment _ _ _ _ hstart harguments rfl haddress rfl rfl hmalformed⟩

/-- A text with the long s, and one with too many digits. The one is of the form for no letter with
seconds, the other is of the form, and both times the failure blames something else than the input. -/
theorem timeframe_neither :
    (¬Whole "7ſ" ∧ (∀ digits letter seconds, Written "7ſ".toList digits letter →
      (letter, seconds) ∉ letters) ∧ seconds? (some "7ſ") = .error (.missingKey (.str "ſ"))) ∧
    (Written (String.ofList (List.replicate 4301 '9' ++ ['d'])).toList (List.replicate 4301 '9') 'd' ∧
      ('d', 86400) ∈ letters ∧
      seconds? (some (String.ofList (List.replicate 4301 '9' ++ ['d']))) =
        .error (Json.noNumeral (String.ofList (List.replicate 4301 '9')))) := by
  have hsplit : split? "7ſ".toList = some (['7'], 'ſ') := rfl
  obtain ⟨hwritten, hpasses⟩ := written_of_split? hsplit
  have hshort : ['7'].length ≤ Number.integerDigitLimit := by decide
  have hletter (digits : List Char) (letter : Char) (seconds : Int)
      (h : Written "7ſ".toList digits letter) : (letter, seconds) ∉ letters := by
    intro hmem
    obtain ⟨-, rfl⟩ := hwritten.unique h hpasses (.inl ⟨seconds, hmem⟩)
    simp [letters] at hmem
  have hnines : ∀ c ∈ List.replicate 4301 '9', Text.isDigit c = true := by
    intro c hc
    rw [List.eq_of_mem_replicate hc]
    decide
  have hlength : Number.integerDigitLimit < (List.replicate 4301 '9').length := by
    rw [List.length_replicate]
    decide
  have hmany : Written (String.ofList (List.replicate 4301 '9' ++ ['d'])).toList
      (List.replicate 4301 '9') 'd' := by
    rw [String.toList_ofList]
    exact .plain hnines (List.ne_nil_of_length_pos (Nat.zero_lt_of_lt hlength)) 'd'
  have hday : ('d', 86400) ∈ letters := by decide
  exact ⟨⟨not_whole_of_written hwritten, hletter, seconds?_of_meaning (.longS hwritten hshort)⟩,
    hmany, hday, seconds?_of_meaning (.overlong hmany (.inl ⟨_, hday⟩) hlength)⟩

end ProgramAudit.CommandLine
