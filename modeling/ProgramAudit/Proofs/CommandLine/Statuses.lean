import ProgramAudit.CommandLine.Run
import ProgramAudit.Proofs.Audit.Refusals
import ProgramAudit.Proofs.Routine.Ventures
import ProgramAudit.Proofs.Table
import ProgramAudit.Proofs.Traffic.Digraph
import ProgramAudit.Proofs.Traffic.Timeframe

/-!
The statuses of the command line. One of them blames the configuration and one the input, both before
there is any request; under a third one there is an answer to show. An endpoint can bring about
neither of the first two, whatever it delivers. But an environment can name a threshold for records that
is none, and then a run fails with its first record, under no status at all.
-/

namespace ProgramAudit.CommandLine

open Endpoint Routine Traffic

/-! ### What was asked -/

/-- A result that stands for input that is refused. -/
def Invalid {α : Type} (result : Result α) : Prop :=
  ∃ message, result = .error (.invalidInput message)

/-- No settings can be made of the environment. -/
def Misconfigured (environment : Environment) : Prop :=
  ∃ message, Settings.ofEnvironment environment = .error (.misconfigured message)

/-- The timeframe of an audit: the one in the arguments, or else in the environment, or else the
default. -/
def timeframeOf (environment : Environment) (arguments : Arguments) : String :=
  (arguments.timeframe.or (environment.stripped? "SOLPROOF_TIMEFRAME")).getD Settings.defaultTimeframe

/-- There are settings, and the address is refused, or the timeframe of an audit. -/
structure Refused (environment : Environment) (arguments : Arguments) : Prop where
  settled : ∃ settings, Settings.ofEnvironment environment = .ok settings
  refused : Invalid (Address.validate (.str arguments.address)) ∨
    arguments.quick = false ∧ Invalid (Timeframe.seconds? (some (timeframeOf environment arguments)))

/-- The program ends by itself under the status. -/
def Report.Ends (report : Report) (status : Nat) : Prop :=
  ∃ outcome, report.outcome = .ok outcome ∧ outcome.status = status

/-- The program ends by itself and has shown the text. -/
def Report.Shows (report : Report) (text : String) : Prop :=
  ∃ outcome, report.outcome = .ok outcome ∧ answerText outcome = text

variable {environment : Environment} {arguments : Arguments} {settings : Settings} {failure : Failure}
  {least : Int}

/-! ### Thresholds -/

/-- Only two names stand for no rank, and each for the failure of its own kind. -/
theorem rankOf_eq_error {name : String} : Journal.Level.rankOf name = .error failure ↔
    name = "BASIC_FORMAT" ∧ failure = Journal.Level.incomparable "str" ∨
      name = "_STYLES" ∧ failure = Journal.Level.incomparable "dict" := by
  constructor
  · intro h
    unfold Journal.Level.rankOf at h
    cases hfound : Table.get? name Journal.Level.ranks with
    | none =>
        rw [hfound] at h
        cases h
    | some found =>
        rw [hfound] at h
        obtain rfl : found = .error failure := h
        have hentry := Table.mem_of_get? hfound
        simpa [Journal.Level.ranks] using hentry
  · rintro (⟨rfl, rfl⟩ | ⟨rfl, rfl⟩)
    · rfl
    · rfl

theorem thresholdOf_eq_error : thresholdOf environment arguments = .error failure ↔
    arguments.verbose = false ∧
      (Journal.Level.nameIn environment = "BASIC_FORMAT" ∧
        failure = Journal.Level.incomparable "str" ∨
      Journal.Level.nameIn environment = "_STYLES" ∧
        failure = Journal.Level.incomparable "dict") := by
  unfold thresholdOf
  cases arguments.verbose with
  | true => simp
  | false => simpa [Journal.Level.thresholdOf] using rankOf_eq_error

/-! ### Settings -/

theorem failsOnly_realOr (name : String) (fallback : Float) (environment : Environment) :
    FailsOnly (∃ message, · = .misconfigured message) (environment.realOr name fallback) := by
  unfold Environment.realOr
  split
  · trivial
  · split
    · trivial
    · exact ⟨_, rfl⟩

theorem failsOnly_integerOr (name : String) (fallback : Int) (environment : Environment) :
    FailsOnly (∃ message, · = .misconfigured message) (environment.integerOr name fallback) := by
  unfold Environment.integerOr
  split
  · trivial
  · split
    · trivial
    · exact ⟨_, rfl⟩

theorem failsOnly_ofEnvironment (environment : Environment) :
    FailsOnly (∃ message, · = .misconfigured message) (Settings.ofEnvironment environment) := by
  have hendpoint : FailsOnly (∃ message, · = .misconfigured message)
      (Settings.endpointOf environment) := by
    unfold Settings.endpointOf
    split
    · trivial
    · trivial
    · exact ⟨_, rfl⟩
  refine failsOnly_bind (failsOnly_realOr _ _ _) fun _ => ?_
  refine failsOnly_bind (failsOnly_integerOr _ _ _) fun _ => ?_
  refine failsOnly_bind hendpoint fun _ => failsOnly_bind (failsOnly_realOr _ _ _) fun _ => ?_
  exact failsOnly_bind (failsOnly_realOr _ _ _) fun _ => trivial

theorem misconfigured_of_error (h : Settings.ofEnvironment environment = .error failure) :
    ∃ message, failure = .misconfigured message := by
  have hfails := failsOnly_ofEnvironment environment
  rwa [h] at hfails

theorem timeframe_planOf (h : Settings.ofEnvironment environment = .ok settings) :
    (planOf arguments settings).fetch.timeframe = some (timeframeOf environment arguments) := by
  obtain ⟨_, -, h⟩ := Result.bind_eq_ok.mp h
  obtain ⟨_, -, h⟩ := Result.bind_eq_ok.mp h
  obtain ⟨_, -, h⟩ := Result.bind_eq_ok.mp h
  obtain ⟨_, -, h⟩ := Result.bind_eq_ok.mp h
  obtain ⟨_, -, h⟩ := Result.bind_eq_ok.mp h
  cases h
  unfold planOf timeframeOf
  cases arguments.timeframe <;> rfl

/-! ### Input -/

theorem invalid_of_address {given : Json} (h : Address.validate given = .error failure) :
    Invalid (Address.validate given) := by
  unfold Address.validate at h ⊢
  split at h
  · cases h
  · exact ⟨_, rfl⟩

theorem invalid_of_timeframe {text : String} (h : Timeframe.seconds? (some text) = .error failure) :
    Invalid (Timeframe.seconds? (some text)) ∨ failure.OfReading := by
  cases Timeframe.seconds?_eq_iff.mp h with
  | longS => exact .inr (.fault _ _)
  | overlong => exact .inr (.fault _ _)
  | malformed => exact .inl ⟨_, h⟩

/-! ### Runs -/

variable {τ σ : Type} [Clock τ] {connection : Connection τ σ} {start : Settings → σ} {moment : τ}
  {now : Number}

/-- Where the work begins, after the settings have been noted. -/
def begun (start : Settings → σ) (moment : τ) (settings : Settings) : Progress τ σ :=
  ⟨moment, 0, start settings, [loadedRecord settings]⟩

/-- What there is to show: a check if one was asked for, or else the report of an audit. -/
inductive Answer (connection : Connection τ σ) (start : Settings → σ) (moment : τ) (now : Number)
    (environment : Environment) (arguments : Arguments) : Json → Prop
  | check {settings : Settings} {check : QuickCheck}
    (hsettings : Settings.ofEnvironment environment = .ok settings) (hquick : arguments.quick = true)
    (h : ((QuickCheck.run (surroundings connection now).source (.str arguments.address)).run
      (begun start moment settings)).result = some (.ok check)) :
    Answer connection start moment now environment arguments check.toJson
  | report {settings : Settings} {audit : Audit}
    (hsettings : Settings.ofEnvironment environment = .ok settings) (hquick : arguments.quick = false)
    (h : ((Audit.run (planOf arguments settings) (surroundings connection now)
      (.str arguments.address)).run (begun start moment settings)).result = some (.ok audit)) :
    Answer connection start moment now environment arguments audit.document.toJson

theorem result_quickCheck (connection : Connection τ σ) (now : Number) (arguments : Arguments)
    (progress : Progress τ σ) :
    ((quickCheck connection now arguments).run progress).result =
      ((QuickCheck.run (surroundings connection now).source (.str arguments.address)).run
        progress).result.map fun result => result >>= fun check => .ok { answer := check.toJson } :=
  run_bind_prompt (fun _ => .settle) _ progress

theorem result_audit (connection : Connection τ σ) (now : Number) (arguments : Arguments)
    (settings : Settings) (progress : Progress τ σ) :
    ((audit connection now arguments settings).run progress).result =
      ((Audit.run (planOf arguments settings) (surroundings connection now)
        (.str arguments.address)).run progress).result.map fun result => result >>= fun audit =>
          (dotOf arguments audit).map fun dot => { answer := audit.document.toJson, dot } := by
  refine run_bind_prompt (fun audit => ?_) _ progress
  cases dotOf arguments audit with
  | error failure => exact .settle
  | ok dot =>
      cases dot with
      | none => exact .settle
      | some dot => exact .record .settle

/-- A graph that cannot be written fails like something that was read. -/
theorem ofReading_dotOf {audit : Audit} (h : dotOf arguments audit = .error failure) :
    failure.OfReading := by
  unfold dotOf at h
  split at h
  · cases h
  · rcases Result.bind_eq_error.mp h with hrender | ⟨_, -, hpure⟩
    · rw [Dot.eq_overlong hrender]
      exact .fault _ _
    · cases hpure

/-- What is done with the settings: a check, or an audit. -/
def task (connection : Connection τ σ) (now : Number) (arguments : Arguments) (settings : Settings) :
    Routine τ σ Product :=
  if arguments.quick then quickCheck connection now arguments
  else audit connection now arguments settings

/-- Input that is refused ends the work where it begins. -/
theorem run_refused (hsettings : Settings.ofEnvironment environment = .ok settings)
    (h : Refused environment arguments) (progress : Progress τ σ) : ∃ message,
    (task connection now arguments settings).run progress =
      ⟨some (.error (.invalidInput message)), progress⟩ := by
  cases haddress : Address.validate (.str arguments.address) with
  | error failure =>
      obtain ⟨message, hinvalid⟩ := invalid_of_address haddress
      refine ⟨message, ?_⟩
      unfold task
      split
      · refine run_bind_error ?_
        unfold QuickCheck.run
        rw [hinvalid]
        rfl
      · exact run_bind_error (Audit.run_invalid hinvalid progress)
  | ok address =>
      have haccepted : ¬Invalid (Address.validate (.str arguments.address)) := by
        rintro ⟨message, hinvalid⟩
        cases haddress.symm.trans hinvalid
      obtain ⟨hquick, message, hinvalid⟩ := h.refused.resolve_left haccepted
      refine ⟨message, ?_⟩
      rw [← timeframe_planOf hsettings] at hinvalid
      unfold task
      rw [if_neg (by simp [hquick])]
      exact run_bind_error (Audit.run_unbounded haddress hinvalid progress)

section

variable (hpost : ∀ number request, (connection.post number request).Settles Result.OrFault)

include hpost

/-- The work comes to an answer. If it fails, then because the input is refused, or while it reads. -/
theorem result_task (hsettings : Settings.ofEnvironment environment = .ok settings)
    {result : Result Product} (hrun : ((task connection now arguments settings).run
      (begun start moment settings)).result = some result) :
    (∃ product, result = .ok product ∧
      Answer connection start moment now environment arguments product.answer) ∨
    ∃ failure, result = .error failure ∧ (Refused environment arguments ∨ failure.OfReading) := by
  unfold task at hrun
  cases hquick : arguments.quick with
  | true =>
      rw [if_pos hquick, result_quickCheck] at hrun
      obtain ⟨found, hfound, rfl⟩ := Option.map_eq_some_iff.mp hrun
      cases found with
      | ok check => exact .inl ⟨_, rfl, .check hsettings hquick hfound⟩
      | error failure =>
          refine .inr ⟨failure, rfl, ?_⟩
          rcases run_settles _ (Access.settles_check hpost _) hfound with haddress | hreading
          · exact .inl ⟨⟨settings, hsettings⟩, .inl (invalid_of_address haddress)⟩
          · exact .inr hreading
  | false =>
      rw [if_neg (by simp [hquick]), result_audit] at hrun
      obtain ⟨found, hfound, rfl⟩ := Option.map_eq_some_iff.mp hrun
      cases found with
      | ok audit =>
          rw [show (Except.ok audit >>= fun audit => (dotOf arguments audit).map _ : Result Product) =
            (dotOf arguments audit).map _ from rfl]
          cases hdot : dotOf arguments audit with
          | ok dot => exact .inl ⟨_, rfl, .report hsettings hquick hfound⟩
          | error failure => exact .inr ⟨failure, rfl, .inr (ofReading_dotOf hdot)⟩
      | error failure =>
          refine .inr ⟨failure, rfl, ?_⟩
          rcases run_settles _ (Audit.settles_run_failsOnly _ _ _) hfound with
            haddress | htimeframe | hreading
          · exact .inl ⟨⟨settings, hsettings⟩, .inl (invalid_of_address haddress)⟩
          · rw [timeframe_planOf hsettings] at htimeframe
            rcases invalid_of_timeframe htimeframe with hinvalid | hreading
            · exact .inl ⟨⟨settings, hsettings⟩, .inr ⟨hquick, hinvalid⟩⟩
            · exact .inr hreading
          · exact .inr hreading

end

/-! ### Statuses -/

section

variable {requests : Nat} {journal : List Journal.Record}

@[simp]
theorem ends_iff {outcome : Outcome} {status : Nat} :
    Report.Ends { outcome := .ok outcome, requests, journal, least } status ↔ outcome.status = status := by
  refine ⟨?_, fun h => ⟨outcome, rfl, h⟩⟩
  rintro ⟨_, ⟨⟩, hstatus⟩
  exact hstatus

theorem not_ends_error {report : Report} (h : report.outcome = .error failure) (status : Nat) :
    ¬report.Ends status := by
  rintro ⟨outcome, houtcome, -⟩
  cases h.symm.trans houtcome

/-- A failure of reading is not expected, and ends the program under none of the statuses. -/
theorem not_ends_ofReading (h : failure.OfReading) (status : Nat) :
    ¬(reportOf least (.error failure) requests journal).Ends status := by
  cases h <;> exact not_ends_error rfl status

end

/-- How the command line may end: blaming the configuration, blaming the input, with an answer, or
by a failure while it reads. -/
inductive Verdict (environment : Environment) (arguments : Arguments) (shown : Json → Prop) :
    Report → Prop
  | misconfigured {least : Int} {message : String} (h : Misconfigured environment)
    (hrefused : ¬Refused environment arguments) :
    Verdict environment arguments shown (reportOf least (.error (.misconfigured message)) 0 [])
  | refused {least : Int} {message : String} {journal : List Journal.Record}
    (hconfigured : ¬Misconfigured environment) (h : Refused environment arguments) :
    Verdict environment arguments shown (reportOf least (.error (.invalidInput message)) 0 journal)
  | answered {least : Int} {product : Product} {requests : Nat} {journal : List Journal.Record}
    (hconfigured : ¬Misconfigured environment) (haccepted : ¬Refused environment arguments)
    (h : shown product.answer) :
    Verdict environment arguments shown (reportOf least (.ok product) requests journal)
  | failed {least : Int} {failure : Failure} {requests : Nat} {journal : List Journal.Record}
    (hconfigured : ¬Misconfigured environment) (haccepted : ¬Refused environment arguments)
    (h : failure.OfReading) :
    Verdict environment arguments shown (reportOf least (.error failure) requests journal)

/-- What a verdict says about each of the statuses. -/
theorem Verdict.statuses {shown : Json → Prop} {report : Report}
    (h : Verdict environment arguments shown report) :
    (report.Ends 1 ↔ Misconfigured environment) ∧
    (report.Ends 2 ↔ Refused environment arguments) ∧
    (report.Ends 1 ∨ report.Ends 2 → report.requests = 0 ∧ report.Shows "") ∧
    (report.Ends 0 → ∃ answer, shown answer ∧ report.Shows answer.renderIndented) := by
  cases h with
  | misconfigured h hrefused =>
      refine ⟨by simpa [reportOf, conclude] using h, by simpa [reportOf, conclude] using hrefused,
        fun _ => ⟨rfl, _, rfl, rfl⟩, fun h => ?_⟩
      simp [reportOf, conclude] at h
  | refused hconfigured h =>
      refine ⟨by simpa [reportOf, conclude] using hconfigured, by simpa [reportOf, conclude] using h,
        fun _ => ⟨rfl, _, rfl, rfl⟩, fun h => ?_⟩
      simp [reportOf, conclude] at h
  | answered hconfigured haccepted h =>
      refine ⟨by simpa [reportOf, conclude] using hconfigured,
        by simpa [reportOf, conclude] using haccepted, fun h => ?_, fun _ => ?_⟩
      · simp [reportOf, conclude] at h
      · exact ⟨_, h, _, rfl, rfl⟩
  | failed hconfigured haccepted h =>
      refine ⟨iff_of_false (not_ends_ofReading h 1) hconfigured,
        iff_of_false (not_ends_ofReading h 2) haccepted, fun hends => ?_, fun hends => ?_⟩
      · exact (hends.elim (not_ends_ofReading h 1) (not_ends_ofReading h 2)).elim
      · exact (not_ends_ofReading h 0 hends).elim

section

variable {texts : List String} (harguments : Usage.ofTexts texts = .run arguments)
  (hleast : thresholdOf environment arguments = .ok least)

include harguments hleast

theorem runOver_settled (hsettings : Settings.ofEnvironment environment = .ok settings)
    {ended : Routine.Outcome τ σ Product}
    (hrun : (task connection now arguments settings).run (begun start moment settings) = ended) :
    runOver connection start moment now environment texts =
      reportOf least (ended.result.getD (.error stuck)) (connection.count ended.final.state)
        ended.final.journal.reverse := by
  subst hrun
  simp only [runOver, harguments, hleast, hsettings]
  rfl

theorem verdict_misconfigured {shown : Json → Prop}
    (h : Settings.ofEnvironment environment = .error failure) :
    Verdict environment arguments shown (runOver connection start moment now environment texts) := by
  obtain ⟨message, rfl⟩ := misconfigured_of_error h
  have hrefused : ¬Refused environment arguments := by
    rintro ⟨⟨settings, hsettings⟩, -⟩
    cases h.symm.trans hsettings
  simp only [runOver, harguments, hleast, h]
  exact .misconfigured ⟨message, h⟩ hrefused

theorem verdict_refused (hstart : ∀ settings, connection.count (start settings) = 0)
    {shown : Json → Prop} (hconfigured : ¬Misconfigured environment)
    (h : Refused environment arguments) :
    Verdict environment arguments shown (runOver connection start moment now environment texts) := by
  obtain ⟨settings, hsettings⟩ := h.settled
  obtain ⟨message, hrun⟩ := run_refused hsettings h (begun start moment settings)
  rw [runOver_settled harguments hleast hsettings hrun,
    show connection.count (begun start moment settings).state = 0 from hstart settings]
  exact .refused hconfigured h

/-- What is neither misconfigured nor refused comes to an answer, or fails while it reads. -/
theorem verdict_accepted
    (hpost : ∀ number request, (connection.post number request).Settles Result.OrFault)
    (hsettings : Settings.ofEnvironment environment = .ok settings)
    (hconfigured : ¬Misconfigured environment) (haccepted : ¬Refused environment arguments) :
    Verdict environment arguments (Answer connection start moment now environment arguments)
      (runOver connection start moment now environment texts) := by
  rw [runOver_settled harguments hleast hsettings rfl]
  cases hrun : ((task connection now arguments settings).run (begun start moment settings)).result with
  | none => exact .failed hconfigured haccepted (.fault _ _)
  | some result =>
      rcases result_task hpost hsettings hrun with ⟨product, rfl, hanswer⟩ | ⟨failure, rfl, hcause⟩
      · exact .answered hconfigured haccepted hanswer
      · exact .failed hconfigured haccepted (hcause.resolve_left haccepted)

theorem verdict_runOver
    (hpost : ∀ number request, (connection.post number request).Settles Result.OrFault)
    (hstart : ∀ settings, connection.count (start settings) = 0) :
    Verdict environment arguments (Answer connection start moment now environment arguments)
      (runOver connection start moment now environment texts) := by
  cases hsettings : Settings.ofEnvironment environment with
  | error failure => exact verdict_misconfigured harguments hleast hsettings
  | ok settings =>
      have hconfigured : ¬Misconfigured environment := by
        rintro ⟨message, hmisconfigured⟩
        cases hsettings.symm.trans hmisconfigured
      by_cases hrefused : Refused environment arguments
      · exact verdict_refused harguments hleast hstart hconfigured hrefused
      · exact verdict_accepted harguments hleast hpost hsettings hconfigured hrefused

end

/-- The first record is of the settings, or of what is wrong with them, and it is written before there
is any request. -/
theorem runOver_unranked {texts : List String} (harguments : Usage.ofTexts texts = .run arguments)
    (h : thresholdOf environment arguments = .error failure) :
    runOver connection start moment now environment texts = { outcome := .error failure } := by
  simp only [runOver, harguments, h]

/-- The records of a run can be held against a threshold. -/
def Ranked (environment : Environment) (arguments : Arguments) : Prop :=
  ∃ least, thresholdOf environment arguments = .ok least

/-- Where records can be held against a threshold, status one is for a configuration without settings,
status two for input that is refused; no request has been sent then, and nothing is shown. Under status
zero the answer is shown. Only two names of levels are no threshold, and then a run fails by that before
it sends a request, whatever the settings and the input are. -/
theorem run_statuses {connection : Connection τ σ} {start : Settings → σ}
    (hpost : ∀ number request, (connection.post number request).Settles Result.OrFault)
    (hstart : ∀ settings, connection.count (start settings) = 0) (environment : Environment)
    {texts : List String} {arguments : Arguments} (harguments : Usage.ofTexts texts = .run arguments)
    (moment : τ) (now : Number) :
    let report := runOver connection start moment now environment texts
    (report.Ends 1 ↔ Misconfigured environment ∧ Ranked environment arguments) ∧
    (report.Ends 2 ↔ Refused environment arguments ∧ Ranked environment arguments) ∧
    (report.Ends 1 ∨ report.Ends 2 → report.requests = 0 ∧ report.Shows "") ∧
    (report.Ends 0 → ∃ answer, Answer connection start moment now environment arguments answer ∧
      report.Shows answer.renderIndented) ∧
    (∀ failure, thresholdOf environment arguments = .error failure →
      report.outcome = .error failure ∧ report.requests = 0) ∧
    ∀ failure, thresholdOf environment arguments = .error failure ↔ arguments.verbose = false ∧
      (Journal.Level.nameIn environment = "BASIC_FORMAT" ∧
        failure = Journal.Level.incomparable "str" ∨
      Journal.Level.nameIn environment = "_STYLES" ∧
        failure = Journal.Level.incomparable "dict") := by
  intro report
  have hnames (failure : Failure) := @thresholdOf_eq_error environment arguments failure
  cases hleast : thresholdOf environment arguments with
  | error failure =>
      have hreport : report = { outcome := .error failure } := runOver_unranked harguments hleast
      have hunranked : ¬Ranked environment arguments := by
        rintro ⟨least, hranked⟩
        cases hleast.symm.trans hranked
      have hends : ∀ status, ¬report.Ends status :=
        not_ends_error (congrArg Report.outcome hreport)
      refine ⟨iff_of_false (hends 1) (hunranked ·.2), iff_of_false (hends 2) (hunranked ·.2),
        fun h => (h.elim (hends 1) (hends 2)).elim, fun h => (hends 0 h).elim, fun other h => ?_,
        hleast ▸ hnames⟩
      obtain rfl : failure = other := by simpa using h
      rw [hreport]
      exact ⟨rfl, rfl⟩
  | ok least =>
      have hranked : Ranked environment arguments := ⟨least, hleast⟩
      have hverdict : Verdict environment arguments
          (Answer connection start moment now environment arguments) report :=
        verdict_runOver harguments hleast hpost hstart
      obtain ⟨hone, htwo, hnothing, hanswer⟩ := hverdict.statuses
      exact ⟨hone.trans (and_iff_left hranked).symm, htwo.trans (and_iff_left hranked).symm, hnothing,
        hanswer, nofun, hleast ▸ hnames⟩

theorem settles_deliver (number : Json) (planned : PlannedReply) :
    (Script.deliver number planned : Routine τ σ Delivery).Settles Result.OrFault := by
  unfold Script.deliver
  split
  · exact settles_bind_value (A := fun _ => True) (settles_sleep trivial) fun _ _ =>
      settles_succeed (Result.OrFault.value _)
  · exact settles_succeed (Result.OrFault.value _)

theorem settles_post (script : Script) {part : Part σ (Traced τ)} (number : Int) (request : Request) :
    (script.post part number request).Settles Result.OrFault :=
  settles_bind_value (A := fun _ => True) (settles_now fun _ => trivial) fun _ _ =>
    settles_bind_value (A := fun _ => True) (settles_step fun _ => trivial) fun _ _ =>
      settles_deliver _ _

/-- An environment that names no more than an endpoint. -/
def sampleEnvironment : Environment := [("SOLANA_RPC_URL", "http://localhost")]

theorem validate_nowhere :
    Address.validate (.str "nowhere") = .error (Address.invalid (.str "nowhere")) := by
  have hinvalid : Address.isValid "nowhere" = false := by decide +kernel
  simp only [Address.validate, Address.ofValue?, hinvalid, Bool.false_eq_true, if_false]

/-- A quick check of what is no address. -/
theorem run_statuses_nowhere :
    Usage.ofTexts ["--quick", "nowhere"] = .run { address := "nowhere", quick := true } ∧
    Refused sampleEnvironment { address := "nowhere", quick := true } ∧
    Ranked sampleEnvironment { address := "nowhere", quick := true } ∧
    (run (0.0 : Float) {} 0 sampleEnvironment ["--quick", "nowhere"]).Ends 2 ∧
    (run (0.0 : Float) {} 0 sampleEnvironment ["--quick", "nowhere"]).requests = 0 ∧
    (run (0.0 : Float) {} 0 sampleEnvironment ["--quick", "nowhere"]).Shows "" := by
  have harguments : Usage.ofTexts ["--quick", "nowhere"] =
      .run { address := "nowhere", quick := true } := rfl
  have hrefused : Refused sampleEnvironment { address := "nowhere", quick := true } :=
    ⟨⟨_, rfl⟩, .inl ⟨_, validate_nowhere⟩⟩
  have hranked : Ranked sampleEnvironment { address := "nowhere", quick := true } := ⟨20, rfl⟩
  have hpost (number : Int) (request : Request) :
      ((Session.connection {}).post number request : Routine Float _ _).Settles Result.OrFault :=
    settles_post {} number request
  have hstart (settings : Settings) :
      (Session.connection {}).count (sessionOf sampleEnvironment settings : Session Float) = 0 := rfl
  obtain ⟨-, hstatus, hnothing, -⟩ := run_statuses hpost hstart sampleEnvironment harguments 0.0 0
  have hends := hstatus.mpr ⟨hrefused, hranked⟩
  exact ⟨harguments, hrefused, hranked, hends, hnothing (.inr hends)⟩

/-- A level named like the text of a format. Neither does a run without settings blame the configuration,
nor a check of what is no address the input: the first record cannot be held against a text. -/
theorem record_unranked :
    (Misconfigured [("LOG_LEVEL", "basic_format")] ∧
      ¬(run (0.0 : Float) {} 0 [("LOG_LEVEL", "basic_format")] ["--quick", "nowhere"]).Ends 1) ∧
    (Refused (("LOG_LEVEL", "basic_format") :: sampleEnvironment)
        { address := "nowhere", quick := true } ∧
      ¬(run (0.0 : Float) {} 0 (("LOG_LEVEL", "basic_format") :: sampleEnvironment)
        ["--quick", "nowhere"]).Ends 2) ∧
    (run (0.0 : Float) {} 0 [("LOG_LEVEL", "basic_format")] ["--quick", "nowhere"]).outcome =
      .error (.wrongType "'<' not supported between instances of 'int' and 'str'") := by
  have harguments : Usage.ofTexts ["--quick", "nowhere"] =
      .run { address := "nowhere", quick := true } := rfl
  have hrun (environment : Environment)
      (h : Journal.Level.nameIn environment = "BASIC_FORMAT") :
      run (0.0 : Float) {} 0 environment ["--quick", "nowhere"] =
        { outcome := .error (Journal.Level.incomparable "str") } :=
    runOver_unranked harguments (thresholdOf_eq_error.mpr ⟨rfl, .inl ⟨h, rfl⟩⟩)
  rw [hrun [("LOG_LEVEL", "basic_format")] rfl,
    hrun (("LOG_LEVEL", "basic_format") :: sampleEnvironment) rfl]
  exact ⟨⟨⟨_, rfl⟩, not_ends_error rfl 1⟩,
    ⟨⟨⟨_, rfl⟩, .inl ⟨_, validate_nowhere⟩⟩, not_ends_error rfl 2⟩, rfl⟩

end ProgramAudit.CommandLine
