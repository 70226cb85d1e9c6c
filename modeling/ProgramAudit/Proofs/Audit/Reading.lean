import ProgramAudit.Proofs.Audit.Agreement
import ProgramAudit.Proofs.Ledger.Observed
import ProgramAudit.Proofs.Table

/-!
Bounded reading. Beside any surroundings an audit keeps a log of what it asks and of what it is
told. What it asks for is a part of what it may ask: the account of the program, the account that
this one points to, the transactions as often as there are attempts, each mint of the window once,
and the account and the newest transaction of the key that the header of the image names.
-/

namespace ProgramAudit

open Routine Program Traffic Control Ledger

variable {τ σ α β : Type}

namespace Audit

/-- The same surroundings, which note the calls, the answers and the look at the price. -/
def Surroundings.observed (around : Surroundings τ σ) : Surroundings τ (σ × List Event) where
  source := around.source.observed
  price := around.price.observed [.priced] fun _ => []
  sleep delay := (around.sleep delay).observed [] fun _ => []
  now := around.now

/-! ### What an audit may ask for -/

/-- The account of a program of the upgradeable loader points to the account of its image. -/
def Points (events : Multiset Event) (program image : String) : Prop :=
  ∃ account, Event.account program (some account) ∈ events ∧
    account.owner = upgradeableLoader ∧ pointerOf? account.data = some image

/-- The header of the image of a program carries a key. -/
def Carries (events : Multiset Event) (program authority : String) : Prop :=
  ∃ holder account header, (holder = program ∨ Points events program holder) ∧
    Event.account holder (some account) ∈ events ∧
    readImageAccount account.data = .ok header ∧ header.authority = some authority

/-- A window is made of the transactions that were told of a program. -/
def Shows (plan : Plan) (now : Number) (events : Multiset Event) (program : String)
    (window : List Classified) : Prop :=
  ∃ answer kept, Event.transactions program plan.fetch.limit answer ∈ events ∧
    Timeframe.filter plan.fetch.timeframe now (answer.getD []) = .ok kept ∧
    window = classify plan.kinds program kept

/-- What an audit has been told, as far as it asks for more because of it. -/
structure Reading where
  image : Option String
  window : Option (List Classified)
  authority : Option String

structure Reading.Justified (plan : Plan) (now : Number) (program : String)
    (events : Multiset Event) (reading : Reading) : Prop where
  image : ∀ image ∈ reading.image, Points events program image
  window : ∀ window ∈ reading.window, Shows plan now events program window
  authority : ∀ authority ∈ reading.authority, Carries events program authority

/-- The calls for the accounts of a program. -/
def imageCalls (program : String) (image : Option String) : Multiset Call :=
  .account program ::ₘ image.elim 0 fun image => {.account image}

def trafficCalls (plan : Plan) (program : String) : Multiset Call :=
  Multiset.replicate (plan.fetch.retryDelays.length + 1) (.transactions program plan.fetch.limit)

/-- One call for each mint of a window. -/
def mintCalls (window : List Classified) : Multiset Call :=
  (Mints.ofWindow {} window : Multiset String).dedup.map .mint

def authorityCalls (authority : String) : Multiset Call :=
  {.account authority, .transactions authority 1}

/-- All that an audit may ask for. -/
def Reading.allowance (plan : Plan) (program : String) (reading : Reading) : Multiset Call :=
  imageCalls program reading.image + trafficCalls plan program +
    reading.window.elim 0 mintCalls + reading.authority.elim 0 authorityCalls

variable {plan : Plan} {around : Surroundings τ σ} {program : String}

/-! ### Answers that lead to more calls -/

theorem Points.mono {events events' : Multiset Event} {image : String}
    (h : Points events program image) (hle : events ⊆ events') : Points events' program image :=
  h.imp fun _ haccount => ⟨hle haccount.1, haccount.2⟩

theorem Carries.mono {events events' : Multiset Event} {authority : String}
    (h : Carries events program authority) (hle : events ⊆ events') :
    Carries events' program authority := by
  obtain ⟨holder, account, header, hholder, haccount, hheader⟩ := h
  exact ⟨holder, account, header, hholder.imp_right fun hpoints => hpoints.mono hle, hle haccount,
    hheader⟩

theorem Shows.mono {events events' : Multiset Event} {now : Number} {window : List Classified}
    (h : Shows plan now events program window) (hle : events ⊆ events') :
    Shows plan now events' program window := by
  obtain ⟨answer, kept, hanswer, hkept⟩ := h
  exact ⟨answer, kept, hle hanswer, hkept⟩

theorem authority_behindPointer {image authority : String} {account : Account}
    {holder : Option Account}
    (h : authority ∈ (Image.behindPointer program image account holder).1.upgradeAuthority) :
    ∃ found header, holder = some found ∧ readImageAccount found.data = .ok header ∧
      header.authority = some authority := by
  cases holder with
  | none => cases h
  | some found =>
      unfold Image.behindPointer at h
      dsimp only at h
      split at h
      · rename_i header hheader
        exact ⟨found, header, rfl, hheader, h⟩
      · cases h

theorem authority_ofAccount {authority : String} {account : Account}
    (h : authority ∈ (Image.ofAccount program account).upgradeAuthority) :
    ∃ header, readImageAccount account.data = .ok header ∧ header.authority = some authority := by
  unfold Image.ofAccount at h
  split at h
  · exact ⟨_, ‹_›, h⟩
  · cases h

/-- What is read of an image once the account of its program is told. -/
def ImageRead (program : String) (found : Option Account) (own : Multiset Event)
    (seen : Option (Result Image)) : Prop :=
  ∀ before : Multiset Event, Event.account program found ∈ before → ∃ image : Option String,
    (∀ holder ∈ image, Points (before + own) program holder) ∧
    calls own ≤ (image.elim 0 fun holder => {.account holder}) ∧
    ∀ result, seen = some (.ok result) → ∀ authority ∈ result.upgradeAuthority,
      Carries (before + own) program authority

/-- Nothing more is asked for. -/
theorem imageRead_zero {found : Option Account} {seen : Option (Result Image)}
    (h : ∀ result, seen = some (.ok result) → ∀ authority ∈ result.upgradeAuthority,
      ∃ account header, found = some account ∧ readImageAccount account.data = .ok header ∧
        header.authority = some authority) : ImageRead program found 0 seen := by
  intro before hbefore
  refine ⟨none, nofun, le_rfl, fun result hseen authority hauthority => ?_⟩
  obtain ⟨account, header, rfl, hheader⟩ := h result hseen authority hauthority
  rw [add_zero]
  exact ⟨program, account, header, Or.inl rfl, hbefore, hheader⟩

theorem logs_imageRead {found : Option Account} {image : Image}
    (h : ∀ authority ∈ image.upgradeAuthority, ∃ account header, found = some account ∧
      readImageAccount account.data = .ok header ∧ header.authority = some authority) :
    (succeed image : Routine τ (σ × List Event) Image).Logs (ImageRead program found) Once 0
      none := by
  refine logs_ofResult (imageRead_zero nofun) (imageRead_zero fun result hseen => ?_)
  cases hseen
  exact h

variable [Clock τ]

/-! ### The stages that only ask -/

theorem spends_lookUp (source : Source τ σ) (window : List Classified) :
    Spends (mintCalls window) (Mints.lookUp source.observed (Mints.ofWindow {} window)) := by
  have hnodup : (Mints.ofWindow {} window).Nodup := nodup_distinct _
  have hmints : (Mints.ofWindow {} window : Multiset String).dedup = Mints.ofWindow {} window :=
    Multiset.dedup_eq_self.mpr (Multiset.coe_nodup.mpr hnodup)
  have hcalls : mintCalls window =
      Multiset.bind (distinct (Mints.ofWindow {} window)) fun mint => {Call.mint mint} := by
    rw [mintCalls, Multiset.bind_singleton, distinct_of_nodup hnodup, hmints]
  rw [hcalls]
  have hmint (mint : String) : Spends {Call.mint mint} (source.observed.mint mint).attempt :=
    spends_mapResult (spends_observed (by rfl) (fun _ => rfl) (source.mint mint))
  exact spends_bind_zero (spends_all hmint _) fun _ => spends_bind_zero (spends_notes _) fun _ =>
    spends_bind_zero (spends_ofResult _) fun _ => spends_ofResult _

theorem spends_fetchAuthority (source : Source τ σ) (now : Number) (authority : String) :
    Spends (authorityCalls authority) (Authority.fetch source.observed now authority) := by
  have haccount : Spends {.account authority} (source.observed.account authority) :=
    spends_observed (by rfl) (calls_told fun _ => rfl) (source.account authority)
  have htransactions : Spends {.transactions authority 1}
      (source.observed.transactions authority 1) :=
    spends_observed (by rfl) (calls_told fun _ => rfl) (source.transactions authority 1)
  exact spends_bind_zero (spends_settleLater
    (spends_join (spends_spawned haccount) (spends_spawned htransactions)))
    fun _ => spends_ofResult _

theorem spends_fetchAuthorities (source : Source τ σ) (now : Number)
    (candidates : List (Option String)) :
    Spends (Multiset.bind (Address.distinct candidates) authorityCalls)
      (Authority.fetchAll source.observed now candidates) := by
  unfold Authority.fetchAll
  dsimp only
  split
  · exact (spends_ofResult (.ok [])).mono (Multiset.zero_le _)
  · exact spends_bind_zero (spends_all (spends_fetchAuthority source now) _) fun _ =>
      logs_note_bind (spends_ofResult _)

theorem spends_recorded {records : α → List Journal.Record} (result : Result α) :
    Spends 0 (recorded records result : Routine τ (σ × List Event) α) :=
  spends_bind_zero (spends_ofResult result) fun _ =>
    spends_bind_zero (spends_notes _) fun _ => spends_ofResult _

theorem spends_derive (fetched : Fetched) :
    Spends (mintCalls fetched.transactions.value)
      (derive plan around.observed program fetched) := by
  have hdecimals : Spends (mintCalls fetched.transactions.value)
      (decimalsStage plan around.observed fetched.transactions.value) :=
    Stage.spends_runTimed (spends_lookUp around.source fetched.transactions.value)
  have hbinary : Spends 0
      (binaryStage fetched.program.value program : Routine τ (σ × List Event) _) :=
    Stage.spends_run (spends_recorded _)
  unfold derive
  dsimp only
  split
  · exact spends_bind_zero hdecimals fun _ => spends_ofResult _
  · have hboth := spends_join (spends_spawned hbinary) (spends_spawned hdecimals)
    rw [zero_add] at hboth
    exact spends_bind_zero (spends_settleLater hboth) fun _ => spends_ofResult _

theorem spends_analyze (fetched : Fetched) (derived : Derived) :
    Spends (Multiset.bind (Address.distinct
        ((derived.binary.value.candidateAuthorities.getD []).map some)) authorityCalls)
      (analyze plan around.observed program fetched derived) := by
  have heconomics : Spends 0 (economicsStage program fetched.transactions.value
      derived.tokenDecimals.value : Routine τ (σ × List Event) _) :=
    Stage.spends_run (spends_recorded _)
  have hgraph : Spends 0 (callGraphStage program fetched.transactions.value :
      Routine τ (σ × List Event) _) := Stage.spends_run (spends_recorded _)
  have hvulnerabilities : Spends 0 (vulnerabilitiesStage derived.binary.value :
      Routine τ (σ × List Event) _) := Stage.spends_run (spends_recorded _)
  have hauthorities : Spends _ (authoritiesStage plan around.observed derived.binary.value) :=
    Stage.spends_runTimed (spends_fetchAuthorities around.source around.now _)
  have hfees : Spends 0 (feesStage fetched.transactions.value : Routine τ (σ × List Event) _) :=
    Stage.spends_run (spends_ofResult _)
  have hinterface : Spends 0 (interfaceStage derived.binary.value fetched.transactions.value :
      Routine τ (σ × List Event) _) := Stage.spends_run (spends_ofResult _)
  have hupgrades : Spends 0 (upgradesStage fetched.transactions.value :
      Routine τ (σ × List Event) _) := Stage.spends_run (spends_recorded _)
  have hall := spends_join (spends_spawned heconomics) (spends_join (spends_spawned hgraph)
    (spends_join (spends_spawned hvulnerabilities) (spends_join (spends_spawned hauthorities)
    (spends_join (spends_spawned hfees) (spends_join (spends_spawned hinterface)
      (spends_spawned hupgrades))))))
  simp only [zero_add, add_zero] at hall
  exact spends_bind_zero (spends_settleLater hall) fun _ => spends_ofResult _

theorem spends_fuse (fetched : Fetched) (derived : Derived) (analyzed : Analyzed) :
    Spends 0 (fuse fetched derived analyzed : Routine τ (σ × List Event) Fused) := by
  have hgovernance : Spends 0 (governanceStage analyzed : Routine τ (σ × List Event) _) :=
    Stage.spends_run (spends_ofResult _)
  have hbehavior : Spends 0 (behaviorStage derived.binary.value analyzed :
      Routine τ (σ × List Event) _) := Stage.spends_run (spends_ofResult _)
  have hsafety : Spends 0 (safetyStage derived.binary.value analyzed :
      Routine τ (σ × List Event) _) := Stage.spends_run (spends_recorded _)
  have hdeepDive : Spends 0
      (deepDiveStage derived.binary.value fetched.transactions.value analyzed :
        Routine τ (σ × List Event) _) := Stage.spends_run (spends_ofResult _)
  have hrisks : Spends 0 (risksStage derived.binary.value analyzed :
      Routine τ (σ × List Event) _) := Stage.spends_run (spends_ofResult _)
  have hall := spends_join (spends_spawned hgovernance) (spends_join (spends_spawned hbehavior)
    (spends_join (spends_spawned hsafety) (spends_join (spends_spawned hdeepDive)
      (spends_spawned hrisks))))
  simp only [zero_add] at hall
  exact spends_bind_zero (spends_settleLater hall) fun _ => spends_ofResult _

/-! ### The stages whose answers lead to more calls -/

theorem logs_behindPointer (source : Source τ σ) {account : Account} {image : String}
    (howner : account.owner = upgradeableLoader) (hpointer : pointerOf? account.data = some image) :
    ((source.observed.account image).bind fun holder =>
        (note (Image.behindPointer program image account holder).2).bind fun _ =>
          succeed (Image.behindPointer program image account holder).1).Logs
      (ImageRead program (some account)) Once 0 none := by
  have hcall : (source.observed.account image).Logs
      (Answered {.account image} (.account image)) Once 0 none :=
    logs_call (fun _ => rfl) (source.account image)
  have hlast (holder : Option Account) :
      ((note (Image.behindPointer program image account holder).2).bind fun _ =>
        succeed (Image.behindPointer program image account holder).1 :
          Routine τ (σ × List Event) Image).Logs (fun own seen => own = 0 ∧
        ∀ result, seen = some (.ok result) →
          result = (Image.behindPointer program image account holder).1) Once 0 none :=
    logs_note_bind (logs_ofResult ⟨rfl, nofun⟩ ⟨rfl, fun result hseen => by cases hseen; rfl⟩)
  refine (logs_bind hcall fun holder _ _ => hlast holder).mono
    fun own seen hthen before hbefore => ?_
  have hpoints (own : Multiset Event) : Points (before + own) program image :=
    ⟨account, Multiset.mem_add.mpr (Or.inl hbefore), howner, hpointer⟩
  have hpoints : ∀ holder ∈ some image, Points (before + own) program holder := by
    rintro _ ⟨⟩
    exact hpoints own
  cases hthen with
  | first hanswered => exact ⟨some image, hpoints, hanswered.1, nofun⟩
  | failed hanswered => exact ⟨some image, hpoints, hanswered.1, nofun⟩
  | @second own _ holder _ hanswered hlast =>
      obtain ⟨rfl, hresult⟩ := hlast
      rw [add_zero] at hpoints ⊢
      refine ⟨some image, hpoints, hanswered.1, fun result hseen authority hauthority => ?_⟩
      rw [hresult result hseen] at hauthority
      obtain ⟨found, header, rfl, hheader⟩ := authority_behindPointer hauthority
      exact ⟨image, found, header, Or.inr (hpoints image rfl),
        Multiset.mem_add.mpr (Or.inr (hanswered.2 _ rfl)), hheader⟩

/-- What is read of an image, from the account of its program on. -/
def ProgramRead (program : String) (own : Multiset Event) (seen : Option (Result Image)) : Prop :=
  ∃ image : Option String, (∀ holder ∈ image, Points own program holder) ∧
    calls own ≤ imageCalls program image ∧
    ∀ result, seen = some (.ok result) → ∀ authority ∈ result.upgradeAuthority,
      Carries own program authority

theorem logs_fetchImage (source : Source τ σ) (program : String) :
    (Image.fetch source.observed program).Logs (ProgramRead program) Once 0 none := by
  have hcall : (source.observed.account program).Logs
      (Answered {.account program} (.account program)) Once 0 none :=
    logs_call (fun _ => rfl) (source.account program)
  -- The account that is pointed to is justified by the answer to the first call, not by its own.
  refine (logs_bind hcall fun found _ _ =>
    (?_ : Logs (ImageRead program found) Once _ 0 none)).mono fun own seen hthen => ?_
  · cases found with
    | none => exact logs_note_bind (logs_imageRead nofun)
    | some account =>
        dsimp only
        split
        · exact logs_imageRead nofun
        · rename_i howner
          split
          · refine logs_imageRead fun authority hauthority => ?_
            obtain ⟨header, hheader⟩ := authority_ofAccount hauthority
            exact ⟨account, header, rfl, hheader⟩
          · exact logs_behindPointer source (not_not.mp howner) ‹_›
  · cases hthen with
    | first hanswered => exact ⟨none, nofun, hanswered.1, nofun⟩
    | failed hanswered => exact ⟨none, nofun, hanswered.1, nofun⟩
    | second hanswered hread =>
        obtain ⟨image, hpoints, hcalls, hauthority⟩ := hread _ (hanswered.2 _ rfl)
        refine ⟨image, hpoints, ?_, hauthority⟩
        rw [calls_add, imageCalls, ← Multiset.singleton_add]
        exact add_le_add hanswered.1 hcalls

/-- What is read of a window. -/
def TrafficRead (plan : Plan) (now : Number) (program : String) (own : Multiset Event)
    (seen : Option (Result (List Classified))) : Prop :=
  calls own ≤ trafficCalls plan program ∧
    ∀ window, seen = some (.ok window) → Shows plan now own program window

theorem logs_fetchWindow (around : Surroundings τ σ) (program : String) :
    (Window.fetch around.observed.source around.observed.sleep plan.fetch around.now program).Logs
      (fun own seen => calls own ≤ trafficCalls plan program ∧ ∀ kept, seen = some (.ok kept) →
        ∃ answer, Event.transactions program plan.fetch.limit answer ∈ own ∧
          Timeframe.filter plan.fetch.timeframe around.now (answer.getD []) = .ok kept)
      Once 0 none := by
  have hsleep (delay : Number) : Spends 0 (around.observed.sleep delay) :=
    spends_observed (by rfl) (fun _ => rfl) (around.sleep delay)
  have hretry : (retry "get_transactions" plan.fetch.retryDelays around.observed.sleep
      (around.observed.source.transactions program plan.fetch.limit)).Logs
      (Answered (trafficCalls plan program) (.transactions program plan.fetch.limit)) Once 0 none :=
    answered_attemptsFrom hsleep
      (logs_call (fun _ => rfl) (around.source.transactions program plan.fetch.limit)) _
  have hlast (result : Result (List Transaction)) (fetched : Nat) :
      ((ofResult result).bind fun kept =>
        (note (Window.loadedRecord plan.fetch program fetched kept.length)).bind fun _ =>
          succeed kept : Routine τ (σ × List Event) _).Logs
        (fun own seen => own = 0 ∧ ∀ kept, seen = some (.ok kept) → result = .ok kept)
        Once 0 none := by
    cases result with
    | error failure => exact logs_error_bind ⟨rfl, nofun⟩ ⟨rfl, nofun⟩
    | ok kept =>
        refine logs_ok_bind (logs_note_bind (logs_ofResult ⟨rfl, nofun⟩ ⟨rfl, ?_⟩))
        intro found hfound
        cases hfound
        rfl
  unfold Window.fetch
  cases Timeframe.seconds? plan.fetch.timeframe with
  | error failure => exact logs_error_bind ⟨Multiset.zero_le _, nofun⟩ ⟨Multiset.zero_le _, nofun⟩
  | ok span =>
      refine logs_ok_bind ((logs_bind hretry fun answer _ _ =>
        hlast (Timeframe.filter plan.fetch.timeframe around.now (answer.getD [])) _).mono
          fun own seen hthen => ?_)
      cases hthen with
      | first hanswered => exact ⟨hanswered.1, nofun⟩
      | failed hanswered => exact ⟨hanswered.1, nofun⟩
      | second hanswered hlast =>
          obtain ⟨rfl, hkept⟩ := hlast
          rw [add_zero]
          exact ⟨hanswered.1, fun kept hseen => ⟨_, hanswered.2 _ rfl, hkept kept hseen⟩⟩

theorem logs_fetchClassified (around : Surroundings τ σ) (program : String) :
    (Window.fetchClassified around.observed.source around.observed.sleep plan.fetch plan.kinds
      around.now program).Logs (TrafficRead plan around.now program) Once 0 none := by
  refine logs_mapResult (logs_fetchWindow around program) fun own seen hread => ⟨hread.1, ?_⟩
  intro window hwindow
  rcases seen with _ | failure | kept
  · cases hwindow
  · cases hwindow
  · cases hwindow
    obtain ⟨answer, hanswer, hkept⟩ := hread.2 kept rfl
    exact ⟨answer, kept, hanswer, hkept, rfl⟩

/-! ### The whole audit -/

/-- What is read before anything is analyzed. -/
def FetchRead (plan : Plan) (now : Number) (program : String) (own : Multiset Event)
    (seen : Option (Result Fetched)) : Prop :=
  ∃ image : Option String, (∀ holder ∈ image, Points own program holder) ∧
    calls own ≤ imageCalls program image + trafficCalls plan program ∧
    ∀ fetched, seen = some (.ok fetched) →
      (∀ authority ∈ fetched.program.value.upgradeAuthority, Carries own program authority) ∧
      (fetched.transactions.value = [] ∨ Shows plan now own program fetched.transactions.value)

omit [Clock τ] in
/-- The parts of what is read at once, together. -/
theorem read_of_joined {now : Number} {own : Multiset Event}
    {seen : Option (Result (StageResult Image × StageResult (List Classified) × StageResult Json))}
    (h : Joined (Stage.Staged (ProgramRead program) (.missing program))
      (Joined (Stage.Staged (TrafficRead plan now program) []) fun own _ => calls own ≤ 0)
      own seen) :
    ∃ image : Option String, (∀ holder ∈ image, Points own program holder) ∧
      calls own ≤ imageCalls program image + trafficCalls plan program ∧
      ∀ found, seen = some (.ok found) →
        (∀ authority ∈ found.1.value.upgradeAuthority, Carries own program authority) ∧
        (found.2.1.value = [] ∨ Shows plan now own program found.2.1.value) := by
  obtain ⟨sides, ⟨left, rest, rfl, hleft, hrest⟩, hpair⟩ := h
  obtain ⟨sides', ⟨middle, right, rfl, hmiddle, hright⟩, hpair'⟩ := hrest
  obtain ⟨⟨_, image, hpoints, hcalls, -⟩, hprogram⟩ := hleft
  obtain ⟨⟨_, hcalls', -⟩, htransactions⟩ := hmiddle
  have hleft : left ⊆ left + (middle + right) := Multiset.subset_of_le (Multiset.le_add_right _ _)
  have hmiddle : middle ⊆ left + (middle + right) := Multiset.subset_of_le
    ((Multiset.le_add_right _ _).trans (Multiset.le_add_left _ _))
  refine ⟨image, fun holder hholder => (hpoints holder hholder).mono hleft, ?_, ?_⟩
  · have hrest : calls middle + calls right ≤ trafficCalls plan program + 0 :=
      add_le_add hcalls' hright
    rw [calls_add, calls_add]
    exact add_le_add hcalls (by rwa [add_zero] at hrest)
  · rintro ⟨image, window, price⟩ hseen
    obtain ⟨hfirst, hsecond⟩ := hpair _ hseen
    -- A stage that fell back has no authority and no window, and leads to no further call.
    constructor
    · rcases hprogram image hfirst with hmissing | ⟨_, -, -, hauthority⟩
      · intro authority hauthority
        rw [hmissing] at hauthority
        cases hauthority
      · exact fun authority hmem => (hauthority _ rfl authority hmem).mono hleft
    · refine (htransactions window (hpair' _ hsecond).1).imp_right fun hread => ?_
      exact (hread.2 _ rfl).mono hmiddle

theorem logs_fetchAll (around : Surroundings τ σ) (program : String) :
    (fetchAll plan around.observed program).Logs (FetchRead plan around.now program) Once 0
      none := by
  have hprogram : (programStage plan around.observed program).Logs
      (Stage.Staged (ProgramRead program) (.missing program)) Once 0 none :=
    Stage.logs_runTimed (logs_fetchImage around.source program)
  have htransactions : (transactionsStage plan around.observed program).Logs
      (Stage.Staged (TrafficRead plan around.now program) []) Once 0 none :=
    Stage.logs_runTimed (logs_fetchClassified around program)
  have hprice : Spends 0 (priceStage plan around.observed) :=
    Stage.spends_runTimed (spends_observed (by rfl) (fun _ => rfl) around.price)
  refine (logs_bind (logs_settleLater (logs_join (logs_spawned hprogram)
    (logs_join (logs_spawned htransactions) (logs_spawned hprice)))) fun found _ _ =>
      (?_ : Logs (fun own (seen : Option (Result Fetched)) => own = 0 ∧
        ∀ fetched, seen = some (.ok fetched) → fetched.program = found.1 ∧
          fetched.transactions = found.2.1) Once _ 0 none)).mono fun own seen hthen => ?_
  · obtain ⟨image, window, price⟩ := found
    refine logs_ofResult ⟨rfl, fun _ hfetched => ?_⟩ ⟨rfl, fun _ hfetched => ?_⟩
    · cases hfetched
    · cases hfetched
      exact ⟨rfl, rfl⟩
  cases hthen with
  | first hjoined =>
      obtain ⟨image, hpoints, hcalls, -⟩ := read_of_joined hjoined
      refine ⟨image, hpoints, hcalls, fun _ hfetched => ?_⟩
      cases hfetched
  | failed hjoined =>
      obtain ⟨image, hpoints, hcalls, -⟩ := read_of_joined hjoined
      refine ⟨image, hpoints, hcalls, fun _ hfetched => ?_⟩
      cases hfetched
  | second hjoined hlast =>
      obtain ⟨image, hpoints, hcalls, hfound⟩ := read_of_joined hjoined
      obtain ⟨rfl, hfetched⟩ := hlast
      rw [add_zero]
      refine ⟨image, hpoints, hcalls, fun fetched hseen => ?_⟩
      obtain ⟨hprogram, htransactions⟩ := hfetched fetched hseen
      rw [hprogram, htransactions]
      exact hfound _ rfl

/-- The authorities that are asked for are the one of the image, if there is one. -/
theorem candidates_le {fetched : Fetched} {derived : Derived} (hkeyed : fetched.program.value.Keyed)
    (hbinary : derived.binary = binaryOf program fetched.program) :
    Multiset.bind (Address.distinct ((derived.binary.value.candidateAuthorities.getD []).map some))
        authorityCalls ≤ fetched.program.value.upgradeAuthority.elim 0 authorityCalls := by
  have hbuilt := built_binaryOf program fetched.program
  rw [← hbinary] at hbuilt
  rw [hbuilt.candidates, Option.getD_some, Image.distinct_candidateAuthorities hkeyed]
  rcases fetched.program.value.candidateAuthorities_cases with hnone | ⟨authority, hmem, -, hone⟩
  · rw [hnone, Multiset.coe_nil, Multiset.zero_bind]
    exact Multiset.zero_le _
  · have hsome : fetched.program.value.upgradeAuthority = some authority := hmem
    rw [hone, hsome, Multiset.coe_singleton, Multiset.singleton_bind]
    exact le_rfl

/-- After the first readings only the mints and the authority are asked for. -/
theorem spends_rest {around : Surroundings τ σ} {fetched : Fetched}
    (hkeyed : fetched.program.value.Keyed) :
    Spends (mintCalls fetched.transactions.value +
        fetched.program.value.upgradeAuthority.elim 0 authorityCalls)
      ((derive plan around.observed program fetched).bind fun derived =>
        (analyze plan around.observed program fetched derived).bind fun analyzed =>
          (fuse fetched derived analyzed).bind fun fused =>
            (predictionStage analyzed fused).bind fun prediction =>
              succeed { fetched, derived, analyzed, fused, prediction : Stages }) := by
  refine spends_bind (spends_derive fetched) (settles_derive fetched) fun derived hderived => ?_
  have hanalyze : Spends _ (analyze plan around.observed program fetched derived) :=
    (spends_analyze fetched derived).mono (candidates_le hkeyed hderived.binary)
  refine spends_bind_zero hanalyze fun analyzed => ?_
  refine spends_bind_zero (spends_fuse _ _ _) fun fused => ?_
  exact spends_bind_zero (Stage.spends_run (spends_ofResult _)) fun _ => spends_ofResult _

/-- Everything that is asked for is allowed by what is told. -/
def Bounded (plan : Plan) (now : Number) (program : String) (events : Multiset Event) : Prop :=
  ∃ reading : Reading, reading.Justified plan now program events ∧
    calls events ≤ reading.allowance plan program

theorem FetchRead.bounded {now : Number} {own : Multiset Event} {seen : Option (Result Fetched)}
    (h : FetchRead plan now program own seen) : Bounded plan now program own := by
  obtain ⟨image, hpoints, hcalls, -⟩ := h
  refine ⟨⟨image, none, none⟩, ⟨hpoints, nofun, nofun⟩, ?_⟩
  simpa only [Reading.allowance, Option.elim_none, add_zero] using hcalls

theorem FetchRead.bounded_add {now : Number} {own own' : Multiset Event} {fetched : Fetched}
    (h : FetchRead plan now program own (some (.ok fetched)))
    (hrest : calls own' ≤ mintCalls fetched.transactions.value +
      fetched.program.value.upgradeAuthority.elim 0 authorityCalls) :
    Bounded plan now program (own + own') := by
  obtain ⟨image, hpoints, hcalls, hfetched⟩ := h
  obtain ⟨hauthority, hwindow⟩ := hfetched fetched rfl
  have hown : own ⊆ own + own' := Multiset.subset_of_le (Multiset.le_add_right own own')
  have hpoints : ∀ holder ∈ image, Points (own + own') program holder :=
    fun holder hholder => (hpoints holder hholder).mono hown
  have hauthority : ∀ authority ∈ fetched.program.value.upgradeAuthority,
      Carries (own + own') program authority :=
    fun authority hmem => (hauthority authority hmem).mono hown
  rcases hwindow with hempty | hshows
  · refine ⟨⟨image, none, fetched.program.value.upgradeAuthority⟩, ⟨hpoints, nofun, hauthority⟩, ?_⟩
    rw [hempty] at hrest
    have hnone : mintCalls [] = 0 := rfl
    rw [calls_add, Reading.allowance, add_assoc]
    exact add_le_add hcalls (hnone ▸ hrest)
  · refine ⟨⟨image, some fetched.transactions.value, fetched.program.value.upgradeAuthority⟩,
      ⟨hpoints, ?_, hauthority⟩, ?_⟩
    · rintro _ ⟨⟩
      exact hshows.mono hown
    · rw [calls_add, Reading.allowance, add_assoc]
      exact add_le_add hcalls hrest

theorem logs_runStages (around : Surroundings τ σ) (program : String) :
    (runStages plan around.observed program).Logs
      (fun own _ => Bounded plan around.now program own) Once 0 none := by
  have hsettles : (fetchAll plan around.observed program).Settles
      (Value (Fetched.Sound plan program fun _ => True)) :=
    settles_fetchAll (settles_true _) trivial
  have hfetch : (fetchAll plan around.observed program).Logs _ Once 0 none :=
    (logs_fetchAll around program).settles hsettles (by simp)
  refine (logs_bind hfetch fun fetched _ hfetched =>
    spends_rest (hfetched.2 _ rfl).keyed).mono fun own seen hthen => ?_
  cases hthen with
  | first hread => exact hread.1.bounded
  | failed hread => exact hread.1.bounded
  | second hread hrest => exact hread.1.bounded_add hrest

theorem Bounded.add {now : Number} {own own' : Multiset Event}
    (h : Bounded plan now program own) (hrest : calls own' ≤ 0) :
    Bounded plan now program (own + own') := by
  obtain ⟨reading, hjustified, hcalls⟩ := h
  have hown : own ⊆ own + own' := Multiset.subset_of_le (Multiset.le_add_right own own')
  refine ⟨reading, ⟨?_, ?_, ?_⟩, ?_⟩
  · exact fun image himage => (hjustified.image image himage).mono hown
  · exact fun window hwindow => (hjustified.window window hwindow).mono hown
  · exact fun authority hauthority => (hjustified.authority authority hauthority).mono hown
  · rw [calls_add, ← add_zero (reading.allowance plan program)]
    exact add_le_add hcalls hrest

theorem bounded_zero (plan : Plan) (now : Number) (program : String) :
    Bounded plan now program 0 :=
  ⟨⟨none, none, none⟩, ⟨nofun, nofun, nofun⟩, Multiset.zero_le _⟩

theorem logs_run {around : Surroundings τ σ} {given : Json}
    (haddress : Address.validate given = .ok program) :
    (run plan around.observed given).Logs
      (fun own _ => Bounded plan around.now program own) Once 0 none := by
  have hzero := bounded_zero plan around.now program
  unfold run
  rw [haddress]
  refine logs_ok_bind ?_
  cases Timeframe.seconds? plan.fetch.timeframe with
  | error failure => exact logs_error_bind hzero hzero
  | ok span =>
      refine logs_ok_bind (logs_note_bind ?_)
      refine (logs_bind (logs_runStages around program) fun stages _ _ => (?_ : Spends 0 _)).mono
        fun own seen hthen => ?_
      · refine spends_bind_zero (spends_notes _) fun _ => spends_bind_zero (spends_ofResult _)
          fun _ => spends_bind_zero (spends_ofResult _) fun _ => ?_
        exact spends_bind_zero (Stage.spends_run (spends_recorded _)) fun _ =>
          logs_note_bind (spends_ofResult _)
      · cases hthen with
        | first hbounded => exact hbounded
        | failed hbounded => exact hbounded
        | second hbounded hrest => exact hbounded.add hrest

/-- **An audit asks only for what it may.** For a valid address the calls of every run are among
those that the answers so far allow. For any other one the run fails, and nothing has been asked
for. -/
theorem run_bounded (plan : Plan) (around : Surroundings τ σ) (given : Json)
    (progress : Progress τ σ) :
    let outcome := Routine.run { progress with state := (progress.state, []) }
      (run plan around.observed given)
    match Address.validate given with
    | .ok program => Bounded plan around.now program outcome.final.state.2
    | .error failure => failure = Address.invalid given ∧ outcome.result = some (.error failure) ∧
      outcome.final.state.2 = [] := by
  intro outcome
  cases haddress : Address.validate given with
  | ok program => exact Logs.run (logs_run haddress) _ rfl
  | error failure =>
      have hfailure : failure = Address.invalid given := by
        unfold Address.validate at haddress
        split at haddress
        · cases haddress
        · exact (Except.error.inj haddress).symm
      have houtcome : outcome =
          ⟨some (.error failure), { progress with state := (progress.state, []) }⟩ := by
        unfold outcome run
        rw [haddress]
        rfl
      rw [houtcome]
      exact ⟨hfailure, rfl, rfl⟩

end Audit

end ProgramAudit
