import ProgramAudit.Control.Authority
import ProgramAudit.Proofs.Address.Canonical
import ProgramAudit.Proofs.Failure
import ProgramAudit.Proofs.Number.DoubleRange
import ProgramAudit.Proofs.Routine.Ends
import ProgramAudit.Proofs.Routine.Follows
import ProgramAudit.Proofs.Routine.Rests
import ProgramAudit.Proofs.Routine.Sure

/-!
The keys that may change a program, looked up at once. There is one profile for each key that the
candidates spell, in the order of their first spellings and not of the answers, or one failure and no
profile at all. A failure is that of a look-up, unless what was answered cannot be counted: amounts and
times past the range of doubles, or a time that is no number.
-/

namespace ProgramAudit.Control.Authority

open Ledger Routine

variable {address : String} {now : Number} {account : Option Account}
  {transactions : Option (List Transaction)}

/-! ### The profile of one key -/

/-- Why no profile can be made of what was answered. -/
inductive Unreadable (now : Number) : Option Account → Option (List Transaction) → Failure → Prop
  | balance {account : Account} {transactions : Option (List Transaction)} :
    Number.quotient? account.lamports lamportsPerSol = none →
    Unreadable now (some account) transactions .quotientTooLarge
  | time {account : Option Account} {transactions : Option (List Transaction)} :
    (lastTimeOf transactions).isNull = false → (lastTimeOf transactions).number? = none →
    Unreadable now account transactions (.wrongType
      s!"unsupported operand type(s) for -: '{(Json.ofNumber now).kindName}' and '{(lastTimeOf transactions).kindName}'")
  | span {account : Option Account} {transactions : Option (List Transaction)} {time : Number} :
    (lastTimeOf transactions).number? = some time → now.sub? time = none →
    Unreadable now account transactions .integerTooLarge
  | days {account : Option Account} {transactions : Option (List Transaction)} {time : Number}
    {span : Float} : (lastTimeOf transactions).number? = some time →
    now.sub? time = some (.real span) → Number.floorQuotient? span secondsPerDay = none →
    Unreadable now account transactions
      (.invalidValue "cannot convert float NaN to integer")

theorem unreadable_of_balanceOf {failure : Failure} (h : balanceOf account = .error failure) :
    Unreadable now account transactions failure := by
  cases account with
  | none => cases h
  | some account =>
      change solOfLamports account.lamports = .error failure at h
      unfold solOfLamports at h
      split at h
      · cases h
      · cases h
        exact .balance ‹_›

theorem minus_eq_ok {left right span : Number} :
    left.minus right = .ok span ↔ left.sub? right = some span := by
  unfold Number.minus
  cases left.sub? right with
  | none => exact ⟨nofun, nofun⟩
  | some other => simp [Number.orTooLarge]

theorem minus_eq_error {left right : Number} {failure : Failure}
    (h : left.minus right = .error failure) :
    left.sub? right = none ∧ failure = .integerTooLarge := by
  unfold Number.minus at h
  cases hspan : left.sub? right with
  | none =>
      rw [hspan] at h
      exact ⟨rfl, (Except.error.inj h).symm⟩
  | some span =>
      rw [hspan] at h
      cases h

theorem wholeDays_eq_error {span : Number} {failure : Failure} (h : wholeDays span = .error failure) :
    ∃ x, span = .real x ∧ Number.floorQuotient? x secondsPerDay = none ∧
      failure = .invalidValue "cannot convert float NaN to integer" := by
  cases span with
  | int span => cases h
  | real x =>
      refine ⟨x, rfl, ?_⟩
      simp only [wholeDays] at h
      split at h
      · cases h
      · exact ⟨‹_›, (Except.error.inj h).symm⟩

theorem unreadable_of_walletAgeOf {failure : Failure}
    (h : walletAgeOf (lastTimeOf transactions) now = .error failure) :
    Unreadable now account transactions failure := by
  unfold walletAgeOf at h
  split at h
  · cases h
  · rename_i hnull
    split at h
    · rename_i time htime
      rcases Result.bind_eq_error.mp h with hspan | ⟨span, hspan, h⟩
      · obtain ⟨hlarge, rfl⟩ := minus_eq_error hspan
        exact .span htime hlarge
      · rcases Result.bind_eq_error.mp h with hdays | ⟨days, -, ⟨⟩⟩
        obtain ⟨x, rfl, hquotient, rfl⟩ := wholeDays_eq_error hdays
        exact .days htime (minus_eq_ok.mp hspan) hquotient
    · cases h
      exact .time (by simpa using hnull) ‹_›

theorem unreadable_of_ofReadings {failure : Failure}
    (h : ofReadings address now account transactions = .error failure) :
    Unreadable now account transactions failure := by
  rcases Result.bind_eq_error.mp h with hbalance | ⟨balance, -, h⟩
  · exact unreadable_of_balanceOf hbalance
  · rcases Result.bind_eq_error.mp h with hage | ⟨age, -, ⟨⟩⟩
    exact unreadable_of_walletAgeOf hage

theorem walletAgeOf_nonneg {lastTime : Json} {age : Int} (h : walletAgeOf lastTime now = .ok age) :
    0 ≤ age := by
  unfold walletAgeOf at h
  split at h
  · cases h
    exact le_refl 0
  · split at h
    · obtain ⟨span, -, h⟩ := Result.bind_eq_ok.mp h
      obtain ⟨days, -, h⟩ := Result.bind_eq_ok.mp h
      cases h
      exact le_max_left 0 days
    · cases h

theorem ofReadings_eq_ok {authority : Authority}
    (h : ofReadings address now account transactions = .ok authority) :
    authority.address = address ∧ 0 ≤ authority.walletAge := by
  obtain ⟨balance, -, h⟩ := Result.bind_eq_ok.mp h
  obtain ⟨age, hage, h⟩ := Result.bind_eq_ok.mp h
  cases h
  exact ⟨rfl, walletAgeOf_nonneg hage⟩

/-! ### Look-ups that are told -/

/-- How a look-up ended. -/
inductive Answer where
  | account (address : String) (result : Result (Option Account))
  | transactions (address : String) (result : Result (Option (List Transaction)))

/-- The same source, which tells how each look-up of an account or of transactions ends. -/
def telling {τ σ : Type} (source : Source τ σ) : Source τ (σ × List Answer) where
  account address := (source.account address).observed [] fun result => [.account address result]
  transactions address limit :=
    (source.transactions address limit).observed [] fun result => [.transactions address result]
  mint mint := (source.mint mint).lift

/-- The failure is that of a look-up of the address. -/
def LookupFailed (told : Multiset Answer) (address : String) (failure : Failure) : Prop :=
  .account address (.error failure) ∈ told ∨ .transactions address (.error failure) ∈ told

/-- Both look-ups of the address had these answers. -/
def Answered (told : Multiset Answer) (address : String) (account : Option Account)
    (transactions : Option (List Transaction)) : Prop :=
  .account address (.ok account) ∈ told ∧ .transactions address (.ok transactions) ∈ told

/-- What comes of an address: its profile, or why there is none. -/
inductive Looked (now : Number) (told : Multiset Answer) (address : String) :
    Result Authority → Prop
  | failed {failure : Failure} : LookupFailed told address failure →
    Looked now told address (.error failure)
  | unreadable {account : Option Account} {transactions : Option (List Transaction)}
    {failure : Failure} : Answered told address account transactions →
    Unreadable now account transactions failure → Looked now told address (.error failure)
  | read {account : Option Account} {transactions : Option (List Transaction)}
    {authority : Authority} : Answered told address account transactions →
    ofReadings address now account transactions = .ok authority →
    Looked now told address (.ok authority)

theorem Looked.mono {told told' : Multiset Answer} {result : Result Authority}
    (h : Looked now told address result) (hle : told ⊆ told') : Looked now told' address result := by
  cases h with
  | failed hfailed => exact .failed (hfailed.imp (hle ·) (hle ·))
  | unreadable hanswered hunreadable =>
      exact .unreadable (hanswered.imp (hle ·) (hle ·)) hunreadable
  | read hanswered hread => exact .read (hanswered.imp (hle ·) (hle ·)) hread

theorem grows_looked (now : Number) (address : String) :
    Grows fun told => Looked now told address :=
  fun _ _ _ hle h => h.mono (Multiset.subset_of_le hle)

variable {τ σ : Type} [Clock τ]

theorem rests_fetch (source : Source τ σ) (now : Number) (address : String) :
    (fetch (telling source) now address).Logs (Rests fun told => Looked now told address) Once 0
      none := by
  have haccount : ((telling source).account address).Logs
      (Rests fun told result => .account address result ∈ told) Once 0 none :=
    rests_observed _ fun result => by simp
  have htransactions : ((telling source).transactions address 1).Logs
      (Rests fun told result => .transactions address result ∈ told) Once 0 none :=
    rests_observed _ fun result => by simp
  have hgrows {α : Type} (tell : Result α → Answer) :
      Grows fun (told : Multiset Answer) (result : Result α) => tell result ∈ told :=
    fun _ _ _ hle hmem => Multiset.mem_of_le hle hmem
  refine rests_bind
    (rests_both (hgrows (.account address)) (hgrows (.transactions address)) haccount htransactions)
    (fun readings => rests_ofResult (P := fun _ result =>
      ofReadings address now readings.1 readings.2 = result) rfl) ?_ ?_
  · intro told failure hfailed
    exact .failed hfailed
  · rintro told told' ⟨account, transactions⟩ result hanswered hread
    have hboth : Answered (told + told') address account transactions :=
      hanswered.imp (Multiset.mem_of_le (Multiset.le_add_right _ _))
        (Multiset.mem_of_le (Multiset.le_add_right _ _))
    cases result with
    | error failure => exact .unreadable hboth (unreadable_of_ofReadings hread)
    | ok authority => exact .read hboth hread

theorem rests_fetchAll (source : Source τ σ) (now : Number) (candidates : List (Option String)) :
    (fetchAll (telling source) now candidates).Logs
      (Rests fun told => Each (Looked now told) (Address.distinct candidates)) Once 0 none := by
  unfold fetchAll
  dsimp only
  split
  · rename_i hempty
    rw [List.isEmpty_iff.mp hempty]
    exact rests_ofResult .nil
  · refine rests_bind (rests_all (grows_looked now) (rests_fetch source now) _)
      (fun found => logs_note_bind (rests_ofResult (P := fun _ result => result = .ok found) rfl))
      (fun _ _ => id) ?_
    rintro told told' found _ hlooked rfl
    exact grows_each (grows_looked now) _ told (told + told') _ (Multiset.le_add_right _ _) hlooked

/-- Telling how look-ups end, if each ends once, takes no other steps. -/
theorem follows_fetchAll {source : Source τ σ} {candidates : List (Option String)}
    (h : ∀ address ∈ Address.distinct candidates,
      (source.account address).SettlesOnce ∧ (source.transactions address 1).SettlesOnce) :
    Follows (fetchAll (telling source) now candidates) (fetchAll source now candidates) := by
  unfold fetchAll
  dsimp only
  split
  · exact follows_ofResult _
  · refine follows_bind (follows_all fun address haddress => ?_) fun found =>
      follows_bind (follows_note _) fun _ => follows_ofResult _
    obtain ⟨haccount, htransactions⟩ := h address haddress
    exact follows_bind (follows_both (follows_observed haccount _ _)
      (follows_observed htransactions _ _)) fun readings => follows_ofResult _

/-! ### Look-ups that end, and answers that are sure -/

theorem live_fetchAll {source : Source τ σ} {candidates : List (Option String)}
    (h : ∀ address ∈ Address.distinct candidates,
      (source.account address).Live ∧ (source.transactions address 1).Live) :
    (fetchAll source now candidates).Live := by
  unfold fetchAll
  dsimp only
  split
  · exact live_succeed []
  · refine live_bind (live_all fun address haddress => ?_) fun _ =>
      live_bind (live_note _) fun _ => live_succeed _
    obtain ⟨haccount, htransactions⟩ := h address haddress
    exact live_bind (live_both haccount htransactions) fun _ => live_ofResult _

theorem gives_fetch {source : Source τ σ} {authority : Authority}
    (haccount : Gives account (source.account address))
    (htransactions : Gives transactions (source.transactions address 1))
    (hread : ofReadings address now account transactions = .ok authority) :
    Gives authority (fetch source now address) := by
  refine (haccount.both htransactions).bind ?_
  dsimp only
  rw [hread]
  exact gives_succeed authority

theorem gives_fetchAll {source : Source τ σ} {candidates : List (Option String)}
    {profile : String → Authority}
    (h : ∀ address ∈ Address.distinct candidates,
      Gives (profile address) (fetch source now address)) :
    Gives ((Address.distinct candidates).map profile) (fetchAll source now candidates) := by
  unfold fetchAll
  dsimp only
  split
  · rename_i hempty
    rw [List.isEmpty_iff.mp hempty]
    exact gives_succeed []
  · exact (gives_all h).bind ((gives_note _).bind (gives_succeed _))

/-- **One profile for each key, or none at all.** The addresses that are looked up are valid and
without blanks; they spell the keys of the valid candidates, each once and in the order in which these
first come, and taking the addresses for candidates gives them again. Whatever the source does and
however long it takes, a run that fails does so with the failure of a look-up of one of the addresses
or because one's answers cannot be counted, and a run that succeeds has the profile of each of them, in
their order, made of what was answered for it, with no age below zero. That the look-ups are told does
not change the result. Look-ups that end make a run that ends, and answers that are sure make **one list
under every schedule**. -/
theorem profiles_each_key (now : Number) (candidates : List (Option String)) (source : Source τ σ)
    (start : Progress τ (σ × List Answer)) (hstart : start.state.2 = []) (start' : Progress τ σ) :
    let addresses := Address.distinct candidates
    let outcome := (fetchAll (telling source) now candidates).run start
    let told := outcome.final.state.2
    (addresses =
        (ProgramAudit.distinct (candidates.filterMap Address.candidateKey?)).map Address.ofKey ∧
      (∀ address ∈ addresses, Address.validate (.str address) = .ok address) ∧
      (addresses.map Address.key?).Nodup ∧
      (∀ text, some text ∈ candidates → Address.isValid text = true →
        Text.strip text ∈ addresses) ∧
      Address.distinct (addresses.map some) = addresses) ∧
    (∀ failure, outcome.result = some (.error failure) → ∃ address ∈ addresses,
      LookupFailed told address failure ∨ ∃ account transactions,
        Answered told address account transactions ∧
          Unreadable now account transactions failure) ∧
    (∀ found, outcome.result = some (.ok found) → found.map Authority.address = addresses ∧
      (∀ authority ∈ found, 0 ≤ authority.walletAge) ∧
      List.Forall₂ (fun address authority => ∃ account transactions,
        Answered told address account transactions ∧
          ofReadings address now account transactions = .ok authority) addresses found) ∧
    ((∀ address ∈ addresses,
        (source.account address).SettlesOnce ∧ (source.transactions address 1).SettlesOnce) →
      outcome.result = ((fetchAll source now candidates).run start.alone).result) ∧
    ((∀ address ∈ addresses,
        (source.account address).Live ∧ (source.transactions address 1).Live) →
      ∃ result, ((fetchAll source now candidates).run start').result = some result) ∧
    ∀ profile : String → Authority,
      (∀ address ∈ addresses, ∃ account transactions, Gives account (source.account address) ∧
        Gives transactions (source.transactions address 1) ∧
        ofReadings address now account transactions = .ok (profile address)) →
      ((fetchAll source now candidates).run start').result =
        some (.ok (addresses.map profile)) := by
  intro addresses outcome told
  have hrests : ∀ result, outcome.result = some result → Each (Looked now told) addresses result :=
    (rests_fetchAll source now candidates).run start (congrArg _ hstart)
  refine ⟨⟨Address.distinct_eq_map candidates, fun _ => Address.validate_of_mem_distinct,
    Address.nodup_map_key?_distinct candidates, fun _ => Address.strip_mem_distinct,
    Address.distinct_distinct candidates⟩, fun failure hfailed => ?_, fun found hfound => ?_,
    fun honce => (run_follows (follows_fetchAll honce) start).1,
    fun hlive => run_live start' (live_fetchAll hlive), fun profile hsure => ?_⟩
  · obtain ⟨address, haddress, hlooked⟩ := hrests _ hfailed
    refine ⟨address, haddress, ?_⟩
    cases hlooked with
    | failed hlookup => exact .inl hlookup
    | unreadable hanswered hunreadable => exact .inr ⟨_, _, hanswered, hunreadable⟩
  · have hread : List.Forall₂ (fun address authority => ∃ account transactions,
        Answered told address account transactions ∧
          ofReadings address now account transactions = .ok authority) addresses found := by
      refine (hrests _ hfound).imp fun address authority hlooked => ?_
      cases hlooked with
      | read hanswered hread => exact ⟨_, _, hanswered, hread⟩
    have hmade : List.Forall₂ (fun authority address =>
        0 ≤ authority.walletAge ∧ authority.address = address) found addresses := by
      refine hread.flip.imp fun authority address h => ?_
      obtain ⟨account, transactions, -, hmade⟩ := h
      exact (ofReadings_eq_ok hmade).symm
    obtain ⟨hages, hnamed⟩ := (List.forall₂_and_left found addresses).mp hmade
    have haddresses : List.Forall₂ (· = ·) (found.map Authority.address) addresses :=
      List.forall₂_map_left_iff.mpr hnamed
    exact ⟨List.forall₂_eq_eq_eq ▸ haddresses, hages, hread⟩
  · refine (gives_fetchAll fun address haddress => ?_).run start'
    obtain ⟨account, transactions, haccount, htransactions, hmade⟩ := hsure address haddress
    exact gives_fetch haccount htransactions hmade

/-! ### Two keys, and a time past the doubles -/

def slowKey : String := "11111111111111111111111111111111"

def quickKey : String := "11111111111111111111111111111112"

/-- The first key is answered after the second one, and each was last used at a given time. -/
def timedSource (lastTime : Json) : Source Int Unit where
  account address := do
    sleepFor (if address = slowKey then 5 else 1)
    return none
  transactions _ _ := succeed (some [⟨.str "last", 1, lastTime, [], 0.0, 0.0⟩])
  mint _ := succeed none

theorem gives_timedSource (lastTime : Json) (address : String) :
    Gives none ((timedSource lastTime).account address) :=
  (gives_sleepFor _).bind (gives_succeed none)

/-- Two keys, one of them in two spellings, a candidate that is none, and one without a key. -/
def mixedCandidates : List (Option String) :=
  [some slowKey, none, some "no key", some quickKey, some (" " ++ slowKey ++ "\n")]

theorem distinct_mixedCandidates : Address.distinct mixedCandidates = [slowKey, quickKey] := by
  decide +kernel

theorem profiles_each_key_mixed :
    Address.distinct mixedCandidates = [slowKey, quickKey] ∧
    Address.distinct [some slowKey, some quickKey] = [slowKey, quickKey] ∧
    ((fetchAll (timedSource (.int 0)) (.int 172800) mixedCandidates).run ⟨0, 0, (), []⟩).result =
      some (.ok [⟨slowKey, 0.0, 2, none⟩, ⟨quickKey, 0.0, 2, none⟩]) := by
  obtain ⟨⟨-, -, -, -, hagain⟩, -, -, -, -, hlisted⟩ := profiles_each_key (.int 172800) mixedCandidates
    (timedSource (.int 0)) ⟨0, 0, ((), []), []⟩ rfl ⟨0, 0, (), []⟩
  have hprofiles := hlisted (fun address => ⟨address, 0.0, 2, none⟩) fun address _ =>
    ⟨none, _, gives_timedSource _ address, gives_succeed _, rfl⟩
  rw [distinct_mixedCandidates] at hagain hprofiles
  exact ⟨distinct_mixedCandidates, hagain, hprofiles⟩

theorem settles_fetch_unreadable {source : Source τ σ} {failure : Failure}
    (haccount : Gives account (source.account address))
    (htransactions : Gives transactions (source.transactions address 1))
    (hread : ofReadings address now account transactions = .error failure) :
    (fetch source now address).Settles (· = .error failure) := by
  refine settles_bind (haccount.both htransactions).settles (fun readings hreadings => ?_) nofun
  cases hreadings
  dsimp only
  rw [hread]
  exact settles_ofResult rfl

/-- What cannot be counted for the only key of the candidates is the failure of the whole. -/
theorem run_unreadable {source : Source τ σ} {candidates : List (Option String)} {failure : Failure}
    (hcandidates : Address.distinct candidates = [address])
    (haccount : Gives account (source.account address))
    (htransactions : Gives transactions (source.transactions address 1))
    (hread : ofReadings address now account transactions = .error failure)
    (start : Progress τ σ) :
    ((fetchAll source now candidates).run start).result = some (.error failure) := by
  have hsettles : (fetchAll source now candidates).Settles (· = .error failure) := by
    unfold fetchAll
    rw [hcandidates]
    refine settles_bind (settles_all (P := fun _ => (· = .error failure)) fun key hkey => ?_) ?_ ?_
    · cases List.mem_singleton.mp hkey
      exact settles_fetch_unreadable haccount htransactions hread
    · rintro found (_ | ⟨⟨⟩, _⟩)
    · rintro other ⟨_, _, ⟨⟩⟩
      rfl
  have hlive : (fetchAll source now candidates).Live := by
    refine live_fetchAll fun key hkey => ?_
    rw [hcandidates, List.mem_singleton] at hkey
    rw [hkey]
    exact ⟨haccount.live, htransactions.live⟩
  obtain ⟨result, hrun⟩ := run_live start hlive
  rw [hrun, run_settles start hsettles hrun]

theorem walletAgeOf_of_large {time : Int} (hlarge : Number.doubleOfInt? time = none) (now : Float) :
    walletAgeOf (.int time) (.real now) = .error .integerTooLarge := by
  have hspan : (Number.real now).sub? (.int time) = none := by
    simp [Number.sub?, Number.join?, Number.toReal?, hlarge]
  have hminus : (Number.real now).minus (.int time) = .error .integerTooLarge := by
    rw [Number.minus, hspan]
    rfl
  exact Result.bind_eq_error.mpr (.inl hminus)

/-- No look-up fails, and a time to come that is past the doubles fails the whole. -/
theorem time_past_doubles :
    (∀ address ∈ Address.distinct [some slowKey], ∃ account transactions,
      Gives account ((timedSource (.int (Number.tenTo 400 : Nat))).account address) ∧
      Gives transactions
        ((timedSource (.int (Number.tenTo 400 : Nat))).transactions address 1)) ∧
    ((fetchAll (timedSource (.int (Number.tenTo 400 : Nat))) (.real 0.0) [some slowKey]).run
      ⟨0, 0, (), []⟩).result = some (.error .integerTooLarge) := by
  refine ⟨fun address _ => ⟨none, _, gives_timedSource _ address, gives_succeed _⟩, ?_⟩
  have hcandidates : Address.distinct [some slowKey] = [slowKey] := by decide +kernel
  refine run_unreadable hcandidates (gives_timedSource _ slowKey) (gives_succeed _) ?_ _
  have hlarge : Number.doubleOfInt? (Number.tenTo 400 : Nat) = none :=
    Number.doubleOfInt?_tenTo_eq_none.mpr (by decide)
  exact Result.bind_eq_error.mpr (.inr ⟨0.0, rfl,
    Result.bind_eq_error.mpr (.inl (walletAgeOf_of_large hlarge 0.0))⟩)

end ProgramAudit.Control.Authority
