import ProgramAudit.Ledger.Mint
import ProgramAudit.Proofs.Ledger.Faults

/-!
Payloads whose reading fails. Most of what cannot be read is passed over or has a default. What is
not is told here, for each reader as the defects that its failures come from.
-/

namespace ProgramAudit

open Result

/-- It fails by more than that a value cannot be read. -/
abbrev Result.Breaks {α : Type} (result : Result α) : Prop :=
  FailsBy (fun failure => failure.isUnreadable = false) result

theorem Result.fails_orIfUnreadable {α : Type} {fallback : α} {result : Result α} :
    Fails (orIfUnreadable fallback result) ↔ Breaks result := by
  cases result with
  | ok value => exact iff_of_false not_failsBy_ok not_failsBy_ok
  | error failure =>
      unfold orIfUnreadable
      cases hunreadable : failure.isUnreadable with
      | true =>
          simp only [hunreadable, if_true]
          refine iff_of_false not_failsBy_ok fun h => ?_
          cases hunreadable.symm.trans (failsBy_error.mp h)
      | false =>
          simp only [hunreadable, Bool.false_eq_true, if_false]
          exact iff_of_true (failsBy_error.mpr trivial) (failsBy_error.mpr hunreadable)

theorem Result.eq_or_of_orIfUnreadable {α : Type} {fallback value : α} {result : Result α}
    (h : orIfUnreadable fallback result = .ok value) : value = fallback ∨ result = .ok value := by
  cases result with
  | ok other => exact .inr h
  | error failure =>
      unfold orIfUnreadable at h
      dsimp only at h
      split_ifs at h
      cases h
      exact .inl rfl

/-! ### Values -/

namespace Json

/-- True, or a number other than zero: it counts as present and has no parts. -/
inductive Atomic : Json → Prop
  | truth : Atomic (.bool true)
  | int {value : Int} (h : value ≠ 0) : Atomic (.int value)
  | real {value : Float} (h : (value == 0.0) = false) : Atomic (.real value)

/-- There is something in it and no first one: it is an atom or an object. -/
inductive Headless : Json → Prop
  | atomic {value : Json} (h : value.Atomic) : Headless value
  | obj {fields : List (String × Json)} (h : fields ≠ []) : Headless (.obj fields)

/-- An infinity. -/
inductive Endless : Json → Prop
  | real {x : Float} {negative : Bool} (h : Number.binaryOf x = .infinite negative) :
    Endless (.real x)

/-- A truth value, a finite number, or a numeral. -/
inductive Integral : Json → Prop
  | bool (value : Bool) : Integral (.bool value)
  | int (value : Int) : Integral (.int value)
  | real {x : Float} {negative : Bool} {mantissa : Nat} {exponent : Int}
    (h : Number.binaryOf x = .finite negative mantissa exponent) : Integral (.real x)
  | str {text : String} {value : Int} (h : Number.readInteger? text = some value) :
    Integral (.str text)

/-- What reading as an integer comes to. -/
inductive Counted (value : Json) : Result Int → Prop
  | integral (count : Int) (h : value.Integral) : Counted value (.ok count)
  | endless (detail : String) (h : value.Endless) :
    Counted value (.error (.fault .overflow detail))
  | unreadable {failure : Failure} (hunreadable : failure.isUnreadable = true)
    (hintegral : ¬value.Integral) (hendless : ¬value.Endless) : Counted value (.error failure)

theorem counted (value : Json) : Counted value value.toInteger := by
  cases value with
  | bool value => exact .integral _ (.bool value)
  | int value => exact .integral _ (.int value)
  | real x =>
      cases hbinary : Number.binaryOf x with
      | finite negative mantissa exponent =>
          simp only [toInteger, wholePart, Number.integerPart?, hbinary]
          exact .integral _ (.real hbinary)
      | infinite negative =>
          simp only [toInteger, wholePart, Number.integerPart?, Number.isUndefined, hbinary]
          exact .endless _ (.real hbinary)
      | undefined =>
          simp only [toInteger, wholePart, Number.integerPart?, Number.isUndefined, hbinary]
          refine .unreadable rfl ?_ ?_
          · rintro ⟨⟩
            rename_i hfinite
            cases hbinary.symm.trans hfinite
          · rintro ⟨hinfinite⟩
            cases hbinary.symm.trans hinfinite
  | str text =>
      simp only [toInteger]
      cases hread : Number.readInteger? text with
      | some value => exact .integral _ (.str hread)
      | none =>
          refine .unreadable rfl ?_ nofun
          rintro ⟨⟩
          rename_i h
          cases hread.symm.trans h
  | _ => exact .unreadable rfl nofun nofun

theorem fails_toInteger {value : Json} : Fails value.toInteger ↔ ¬value.Integral := by
  have h := counted value
  generalize value.toInteger = result at h ⊢
  cases h with
  | integral count h => exact iff_of_false not_failsBy_ok (not_not_intro h)
  | endless detail h =>
      refine iff_of_true (failsBy_error.mpr trivial) ?_
      cases h with
      | real hinfinite =>
          rintro ⟨⟩
          rename_i hfinite
          cases hinfinite.symm.trans hfinite
  | unreadable _ hintegral => exact iff_of_true (failsBy_error.mpr trivial) hintegral

theorem breaks_toInteger {value : Json} : Breaks value.toInteger ↔ value.Endless := by
  have h := counted value
  generalize value.toInteger = result at h ⊢
  cases h with
  | integral count h =>
      refine iff_of_false not_failsBy_ok ?_
      rintro ⟨hinfinite⟩
      cases h with
      | real hfinite => cases hinfinite.symm.trans hfinite
  | endless detail h => exact iff_of_true (failsBy_error.mpr rfl) h
  | unreadable hunreadable _ hendless =>
      refine iff_of_false (fun h => ?_) hendless
      cases hunreadable.symm.trans (failsBy_error.mp h)

/-- Present, and not made of parts. -/
theorem atomic_iff {value : Json} :
    value.Atomic ↔ value.isPresent = true ∧ Fails value.elements := by
  cases value with
  | bool value =>
      cases value with
      | false => exact ⟨nofun, fun h => nomatch h.1⟩
      | true => exact iff_of_true .truth ⟨rfl, failsBy_error.mpr trivial⟩
  | int value =>
      constructor
      · rintro ⟨⟩
        rename_i hvalue
        exact ⟨bne_iff_ne.mpr hvalue, failsBy_error.mpr trivial⟩
      · exact fun h => .int (bne_iff_ne.mp h.1)
  | real value =>
      constructor
      · rintro ⟨⟩
        rename_i hvalue
        exact ⟨(Bool.not_eq_true' _).mpr hvalue, failsBy_error.mpr trivial⟩
      · exact fun h => .real ((Bool.not_eq_true' _).mp h.1)
  | null => exact ⟨nofun, fun h => nomatch h.1⟩
  | str text => exact ⟨nofun, fun h => absurd h.2 not_failsBy_ok⟩
  | arr items => exact ⟨nofun, fun h => absurd h.2 not_failsBy_ok⟩
  | obj fields => exact ⟨nofun, fun h => absurd h.2 not_failsBy_ok⟩

/-- What has items or characters in it has a first one. -/
theorem exists_first {value : Json} (hpresent : value.isPresent = true)
    (hlinear : (∃ text, value = .str text) ∨ ∃ items, value = .arr items) :
    ∃ item, value.first = .ok item := by
  obtain ⟨text, rfl⟩ | ⟨items, rfl⟩ := hlinear
  · unfold first
    cases htext : text.toList with
    | nil =>
        rw [String.toList_eq_nil_iff.mp htext] at hpresent
        cases hpresent
    | cons c rest =>
        simp only [htext]
        exact ⟨_, rfl⟩
  · cases items with
    | nil => cases hpresent
    | cons item rest => exact ⟨item, rfl⟩

section

variable {value : Json} (hpresent : value.isPresent = true)

include hpresent

theorem fails_first : Fails value.first ↔ value.Headless := by
  cases value with
  | null => cases hpresent
  | str text =>
      obtain ⟨item, hitem⟩ := exists_first hpresent (.inl ⟨text, rfl⟩)
      exact iff_of_false (hitem ▸ not_failsBy_ok) nofun
  | arr items =>
      obtain ⟨item, hitem⟩ := exists_first hpresent (.inr ⟨items, rfl⟩)
      exact iff_of_false (hitem ▸ not_failsBy_ok) nofun
  | obj fields =>
      refine iff_of_true (failsBy_error.mpr trivial) (.obj ?_)
      rintro rfl
      cases hpresent
  | _ =>
      exact iff_of_true (failsBy_error.mpr trivial)
        (.atomic (atomic_iff.mpr ⟨hpresent, failsBy_error.mpr trivial⟩))

theorem breaks_first : Breaks value.first ↔ value.isObject = true := by
  cases value with
  | str text =>
      obtain ⟨item, hitem⟩ := exists_first hpresent (.inl ⟨text, rfl⟩)
      exact iff_of_false (hitem ▸ not_failsBy_ok) nofun
  | arr items =>
      obtain ⟨item, hitem⟩ := exists_first hpresent (.inr ⟨items, rfl⟩)
      exact iff_of_false (hitem ▸ not_failsBy_ok) nofun
  | obj fields => exact iff_of_true (failsBy_error.mpr rfl) rfl
  | _ => exact iff_of_false (fun h => nomatch failsBy_error.mp h) nofun

end

theorem Headless.isPresent {value : Json} (h : value.Headless) : value.isPresent = true := by
  cases h with
  | atomic h => exact (atomic_iff.mp h).1
  | obj h => simpa [Json.isPresent] using h

theorem breaks_doubleOf {value : Int} :
    Breaks (doubleOf value) ↔ Number.doubleOfInt? value = none := by
  unfold doubleOf
  cases Number.doubleOfInt? value with
  | none => exact iff_of_true (failsBy_error.mpr rfl) rfl
  | some amount => exact iff_of_false not_failsBy_ok nofun

theorem doubleOf_eq_ok {value : Int} {x : Float} (h : Number.doubleOfInt? value = some x) :
    doubleOf value = .ok x := by
  unfold doubleOf
  rw [h]

theorem fails_doubleOf {value : Int} :
    Fails (doubleOf value) ↔ Number.doubleOfInt? value = none := by
  unfold doubleOf
  cases Number.doubleOfInt? value with
  | none => exact iff_of_true (failsBy_error.mpr trivial) rfl
  | some amount => exact iff_of_false not_failsBy_ok nofun

/-- A number is read as a double unless it is an integer past the doubles. -/
theorem breaks_toDouble {value : Json} :
    Breaks value.toDouble ↔ ∃ number, value = .int number ∧ Number.doubleOfInt? number = none := by
  cases value with
  | int number =>
      refine breaks_doubleOf.trans ⟨fun h => ⟨number, rfl, h⟩, ?_⟩
      rintro ⟨other, hother, h⟩
      cases hother
      exact h
  | str text =>
      refine iff_of_false (fun h => ?_) (by simp)
      unfold toDouble at h
      cases hread : Number.readReal? text with
      | none =>
          simp only [hread] at h
          cases failsBy_error.mp h
      | some x =>
          simp only [hread] at h
          exact not_failsBy_ok h
  | bool value => exact iff_of_false not_failsBy_ok (by simp)
  | real x => exact iff_of_false not_failsBy_ok (by simp)
  | null => exact iff_of_false (fun h => nomatch failsBy_error.mp h) (by simp)
  | arr items => exact iff_of_false (fun h => nomatch failsBy_error.mp h) (by simp)
  | obj fields => exact iff_of_false (fun h => nomatch failsBy_error.mp h) (by simp)

end Json

namespace Ledger

/-! ### Amounts -/

/-- It is no number of SOL: an infinity, or an amount past the doubles. -/
inductive Immense (value : Json) : Prop
  | endless (h : value.Endless)
  | large {lamports : Int} (hread : value.toInteger = .ok lamports)
    (hlarge : Number.quotient? lamports lamportsPerSol = none)

theorem breaks_solOfLamports {lamports : Int} :
    Breaks (solOfLamports lamports) ↔ Number.quotient? lamports lamportsPerSol = none := by
  unfold solOfLamports
  cases Number.quotient? lamports lamportsPerSol with
  | none => exact iff_of_true (failsBy_error.mpr rfl) rfl
  | some amount => exact iff_of_false not_failsBy_ok nofun

theorem breaks_amount {value : Json} :
    Breaks (value.toInteger >>= solOfLamports) ↔ Immense value := by
  refine failsBy_bind.trans ?_
  constructor
  · rintro (h | ⟨lamports, hread, h⟩)
    · exact .endless (Json.breaks_toInteger.mp h)
    · exact .large hread (breaks_solOfLamports.mp h)
  · rintro (h | ⟨hread, hlarge⟩)
    · exact .inl (Json.breaks_toInteger.mpr h)
    · exact .inr ⟨_, hread, breaks_solOfLamports.mpr hlarge⟩

def firstLamports (balances : Json) : Result Int := balances.first >>= Json.toInteger

/-- The balances are an object, or the first one is an infinity. -/
inductive Lost (balances : Json) : Prop
  | object (h : balances.isObject = true)
  | endless {balance : Json} (hfirst : balances.first = .ok balance) (h : balance.Endless)

theorem breaks_firstLamports {balances : Json} (hpresent : balances.isPresent = true) :
    Breaks (firstLamports balances) ↔ Lost balances := by
  refine failsBy_bind.trans ?_
  constructor
  · rintro (h | ⟨balance, hfirst, h⟩)
    · exact .object ((Json.breaks_first hpresent).mp h)
    · exact .endless hfirst (Json.breaks_toInteger.mp h)
  · rintro (h | ⟨hfirst, h⟩)
    · exact .inl ((Json.breaks_first hpresent).mpr h)
    · exact .inr ⟨_, hfirst, Json.breaks_toInteger.mpr h⟩

/-- There are balances before and after, and one of the first is lost or they are too far apart. -/
inductive Unbalanced (before after : Json) : Prop
  | before (h : Lost before)
  | after {left : Int} (hleft : firstLamports before = .ok left) (h : Lost after)
  | large {left right : Int} (hleft : firstLamports before = .ok left)
    (hright : firstLamports after = .ok right)
    (hlarge : Number.quotient? (left - right).natAbs lamportsPerSol = none)

theorem Transaction.fails_balanceDelta {before after : Json} :
    Fails (balanceDelta before after) ↔
      (before.isPresent = true ∧ after.isPresent = true) ∧ Unbalanced before after := by
  have hsteps : (do
      let left ← (← before.first).toInteger
      let right ← (← after.first).toInteger
      solOfLamports (left - right).natAbs) =
        firstLamports before >>= fun left => firstLamports after >>= fun right =>
          solOfLamports (left - right).natAbs := by
    simp only [firstLamports, bind_assoc]
  unfold balanceDelta
  rw [hsteps]
  refine failsBy_ite.trans ?_
  rw [Bool.and_eq_true]
  refine and_congr_right fun ⟨hbefore, hafter⟩ => fails_orIfUnreadable.trans ?_
  constructor
  · intro h
    obtain h | ⟨left, hleft, h⟩ := failsBy_bind.mp h
    · exact .before ((breaks_firstLamports hbefore).mp h)
    obtain h | ⟨right, hright, h⟩ := failsBy_bind.mp h
    · exact .after hleft ((breaks_firstLamports hafter).mp h)
    · exact .large hleft hright (breaks_solOfLamports.mp h)
  · rintro (h | ⟨hleft, h⟩ | ⟨hleft, hright, hlarge⟩)
    · exact ((breaks_firstLamports hbefore).mpr h).bind_left
    · exact .bind_right hleft ((breaks_firstLamports hafter).mpr h).bind_left
    · exact .bind_right hleft (.bind_right hright (breaks_solOfLamports.mpr hlarge))

/-! ### Instructions -/

/-- An instruction names its program, and its accounts are an atom. -/
structure Instruction.Defective (keys : List String) (payload : Json) : Prop where
  object : payload.isObject = true
  program : (programOfPayload keys payload).isPresent = true
  accounts : (payload.get "accounts").Atomic

theorem Instruction.fails_ofPayload {keys : List String} {payload : Json} :
    Fails (Instruction.ofPayload keys payload) ↔ Instruction.Defective keys payload := by
  have haccounts : Fails (accountsOfPayload keys payload) ↔ (payload.get "accounts").Atomic := by
    refine failsBy_ite.trans ((and_congr_right' failsBy_map).trans ?_)
    exact Json.atomic_iff.symm
  refine failsBy_ite.trans ((and_congr_right' (failsBy_map.trans haccounts)).trans ?_)
  rw [Bool.and_eq_true]
  exact ⟨fun ⟨⟨hobject, hprogram⟩, hatomic⟩ => ⟨hobject, hprogram, hatomic⟩,
    fun ⟨hobject, hprogram, hatomic⟩ => ⟨⟨hobject, hprogram⟩, hatomic⟩⟩

/-! ### Transactions -/

namespace Transaction

def messageOf (payload : Json) : Json := (payload.get "transaction").get "message"

/-- What keeps a transaction with a message from being read. -/
inductive Defect (asked : Option Json) (payload : Json) : Prop
  | signatures (hasked : asked = none)
    (h : ((payload.get "transaction").get "signatures").Headless)
  | keys (h : ((messageOf payload).get "accountKeys").Atomic)
  | instructions (h : ((messageOf payload).get "instructions").Atomic)
  | instruction {keys : List String} {entries : List Json} {entry : Json}
    (hkeys : keysOfMessage (messageOf payload) = .ok keys)
    (hentries : elementsOrNone ((messageOf payload).get "instructions") = .ok entries)
    (hentry : entry ∈ entries) (h : Instruction.Defective keys entry)
  | fee (h : Immense (((payload.get "meta").get "fee").orElse (.int 0)))
  | slot (h : ¬((payload.get "slot").orElse (.int 0)).Integral)
  | balances (hbefore : ((payload.get "meta").get "preBalances").isPresent = true)
    (hafter : ((payload.get "meta").get "postBalances").isPresent = true)
    (h : Unbalanced ((payload.get "meta").get "preBalances")
      ((payload.get "meta").get "postBalances"))

/-- There is a message, and something in the payload cannot be read. -/
structure Defective (asked : Option Json) (payload : Json) : Prop where
  message : (messageOf payload).isObject = true
  defect : Defect asked payload

theorem fails_elementsOrNone {value : Json} : Fails (elementsOrNone value) ↔ value.Atomic :=
  failsBy_ite.trans Json.atomic_iff.symm

theorem fails_signatureOf {asked : Option Json} {transaction : Json} :
    Fails (signatureOf asked transaction) ↔
      asked = none ∧ (transaction.get "signatures").Headless := by
  cases asked with
  | some signature => exact iff_of_false not_failsBy_ok nofun
  | none =>
      refine (failsBy_ite.trans (and_congr_right' failsBy_map)).trans ?_
      exact ⟨fun ⟨hpresent, h⟩ => ⟨rfl, (Json.fails_first hpresent).mp h⟩,
        fun ⟨_, h⟩ => ⟨h.isPresent, (Json.fails_first h.isPresent).mpr h⟩⟩

theorem fails_instructionsOfMessage {keys : List String} {message : Json} :
    Fails (instructionsOfMessage keys message) ↔ (message.get "instructions").Atomic ∨
      ∃ entries, elementsOrNone (message.get "instructions") = .ok entries ∧
        ∃ entry ∈ entries, Instruction.Defective keys entry := by
  refine failsBy_bind.trans (or_congr fails_elementsOrNone ?_)
  refine exists_congr fun entries => and_congr_right' ?_
  refine (failsBy_bind.trans (or_iff_left ?_)).trans ?_
  · rintro ⟨found, -, h⟩
    exact not_failsBy_ok h
  · refine fails_mapM.trans ?_
    simp only [Instruction.fails_ofPayload]

theorem fails_feeOf {status : Json} :
    Fails (feeOf status) ↔ Immense ((status.get "fee").orElse (.int 0)) :=
  fails_orIfUnreadable.trans breaks_amount

theorem fails_ofPayload {asked : Option Json} {payload : Json} :
    Fails (ofPayload asked payload) ↔ Defective asked payload := by
  have hsteps : Fails (ofPayload asked payload) ↔ (messageOf payload).isObject = true ∧
      (Fails (signatureOf asked (payload.get "transaction")) ∨
        Fails (keysOfMessage (messageOf payload)) ∨
          ∃ keys, keysOfMessage (messageOf payload) = .ok keys ∧
            (Fails (instructionsOfMessage keys (messageOf payload)) ∨
              Fails (feeOf (payload.get "meta")) ∨
              Fails ((payload.get "slot").orElse (.int 0)).toInteger ∨
              Fails (balanceDelta ((payload.get "meta").get "preBalances")
                ((payload.get "meta").get "postBalances")))) := by
    refine failsBy_ite.trans (and_congr_right' (fails_bind fun signature _ => ?_))
    refine failsBy_bind.trans (or_congr_right (exists_congr fun keys => and_congr_right' ?_))
    refine fails_bind fun instructions _ => fails_bind fun fee _ => fails_bind fun slot _ => ?_
    refine (fails_bind fun volume _ => ?_).trans (or_iff_left not_false)
    exact iff_of_false not_failsBy_ok id
  refine hsteps.trans ⟨fun ⟨hmessage, h⟩ => ⟨hmessage, ?_⟩, fun ⟨hmessage, h⟩ => ⟨hmessage, ?_⟩⟩
  · rcases h with h | h | ⟨keys, hkeys, h | h | h | h⟩
    · obtain ⟨hasked, h⟩ := fails_signatureOf.mp h
      exact .signatures hasked h
    · exact .keys (fails_elementsOrNone.mp (failsBy_map.mp h))
    · obtain h | ⟨entries, hentries, entry, hentry, h⟩ := fails_instructionsOfMessage.mp h
      · exact .instructions h
      · exact .instruction hkeys hentries hentry h
    · exact .fee (fails_feeOf.mp h)
    · exact .slot (Json.fails_toInteger.mp h)
    · obtain ⟨⟨hbefore, hafter⟩, h⟩ := fails_balanceDelta.mp h
      exact .balances hbefore hafter h
  · have hbehind {Q : List String → Prop} (hlater : ∀ keys, Q keys) :
        Fails (keysOfMessage (messageOf payload)) ∨
          ∃ keys, keysOfMessage (messageOf payload) = .ok keys ∧ Q keys :=
      (fails_or_exists _).imp_right fun ⟨keys, hkeys⟩ => ⟨keys, hkeys, hlater keys⟩
    cases h with
    | signatures hasked h => exact .inl (fails_signatureOf.mpr ⟨hasked, h⟩)
    | keys h => exact .inr (.inl (failsBy_map.mpr (fails_elementsOrNone.mpr h)))
    | instructions h =>
        exact .inr (hbehind fun _ => .inl (fails_instructionsOfMessage.mpr (.inl h)))
    | instruction hkeys hentries hentry h =>
        refine .inr (.inr ⟨_, hkeys, .inl (fails_instructionsOfMessage.mpr ?_)⟩)
        exact .inr ⟨_, hentries, _, hentry, h⟩
    | fee h => exact .inr (hbehind fun _ => .inr (.inl (fails_feeOf.mpr h)))
    | slot h => exact .inr (hbehind fun _ => .inr (.inr (.inl (Json.fails_toInteger.mpr h))))
    | balances hbefore hafter h =>
        have hvolume := fails_balanceDelta.mpr ⟨⟨hbefore, hafter⟩, h⟩
        exact .inr (hbehind fun _ => .inr (.inr (.inr hvolume)))

end Transaction

/-! ### Mints -/

namespace Mint

/-- An amount that cannot be divided by the power of ten of a number of decimals: the quotient, the
amount or the number is past the doubles, or the power vanishes. -/
inductive Unscalable (amount decimals : Int) : Prop
  | quotient (hwhole : 0 ≤ decimals)
    (hlarge : Number.quotient? amount (Number.tenTo decimals.toNat) = none)
  | decimals (hfraction : decimals < 0) (hlarge : Number.doubleOfInt? decimals = none)
  | amount (hfraction : decimals < 0) (hlarge : Number.doubleOfInt? amount = none)
  | power (hfraction : decimals < 0)
    (hzero : (Number.nearestDouble false 1 (Number.tenTo (min decimals.natAbs 400)) == 0.0) = true)

/-- What is known of a mint has decimals or a supply that are an infinity, or a supply that cannot be
divided. -/
inductive Defective (payload : Json) : Prop
  | decimals {info : List (String × Json)} (hinfo : infoOfPayload? payload = some info)
    (h : ((Json.field? "decimals" info).getD (.int defaultDecimals)).Endless)
  | supply {info : List (String × Json)} (hinfo : infoOfPayload? payload = some info)
    (h : ((Json.field? "supply" info).getD .null).Endless)
  | amount {info : List (String × Json)} {amount decimals : Int}
    (hinfo : infoOfPayload? payload = some info) (hdecimals : decimalsOfInfo info = .ok decimals)
    (hamount : ((Json.field? "supply" info).getD .null).toInteger = .ok amount)
    (h : Unscalable amount decimals)

theorem breaks_unscale {amount decimals : Int} :
    Breaks (unscale amount decimals) ↔ Unscalable amount decimals := by
  unfold unscale
  split_ifs with hwhole
  · cases hquotient : Number.quotient? amount (Number.tenTo decimals.toNat) with
    | none => exact iff_of_true (failsBy_error.mpr rfl) (.quotient hwhole hquotient)
    | some value =>
        refine iff_of_false not_failsBy_ok ?_
        rintro (⟨-, hlarge⟩ | ⟨hfraction⟩ | ⟨hfraction⟩ | ⟨hfraction⟩)
        · cases hquotient.symm.trans hlarge
        all_goals omega
  · have hfraction : decimals < 0 := by omega
    cases hdecimals : Number.doubleOfInt? decimals with
    | none => exact iff_of_true (Json.breaks_doubleOf.mpr hdecimals).bind_left (.decimals hfraction hdecimals)
    | some power =>
    cases hamount : Number.doubleOfInt? amount with
    | none =>
        refine iff_of_true ?_ (.amount hfraction hamount)
        exact .bind_right (Json.doubleOf_eq_ok hdecimals) (Json.breaks_doubleOf.mpr hamount).bind_left
    | some value =>
        rw [Json.doubleOf_eq_ok hdecimals, Json.doubleOf_eq_ok hamount]
        change Breaks (if _ then _ else _) ↔ _
        split_ifs with hzero
        · exact iff_of_true (failsBy_error.mpr rfl) (.power hfraction hzero)
        · refine iff_of_false not_failsBy_ok ?_
          rintro (⟨hwhole⟩ | ⟨-, hlarge⟩ | ⟨-, hlarge⟩ | ⟨-, hvanishes⟩)
          · omega
          · cases hdecimals.symm.trans hlarge
          · cases hamount.symm.trans hlarge
          · exact hzero hvanishes

theorem fails_decimalsOfInfo {info : List (String × Json)} : Fails (decimalsOfInfo info) ↔
    ((Json.field? "decimals" info).getD (.int defaultDecimals)).Endless :=
  fails_orIfUnreadable.trans Json.breaks_toInteger

theorem fails_supplyText {decimals : Int} {supply : Json} : Fails (supplyText decimals supply) ↔
    supply.Endless ∨ ∃ amount, supply.toInteger = .ok amount ∧ Unscalable amount decimals := by
  refine fails_orIfUnreadable.trans (failsBy_bind.trans ?_)
  refine or_congr Json.breaks_toInteger (exists_congr fun amount => and_congr_right' ?_)
  refine (failsBy_bind.trans (or_iff_left ?_)).trans breaks_unscale
  rintro ⟨value, -, h⟩
  exact not_failsBy_ok h

theorem fails_ofPayload {mint : String} {payload : Json} :
    Fails (ofPayload mint payload) ↔ Defective payload := by
  cases hinfo : infoOfPayload? payload with
  | none =>
      unfold ofPayload
      rw [hinfo]
      refine iff_of_false not_failsBy_ok fun h => ?_
      cases h with
      | decimals h | supply h | amount h => cases hinfo.symm.trans h
  | some info =>
      have hsteps : Fails (ofPayload mint payload) ↔ Fails (decimalsOfInfo info) ∨
          ∃ decimals, decimalsOfInfo info = .ok decimals ∧
            Fails (supplyText decimals ((Json.field? "supply" info).getD .null)) := by
        unfold ofPayload
        rw [hinfo]
        refine failsBy_bind.trans (or_congr_right (exists_congr fun decimals => ?_))
        refine and_congr_right' ?_
        dsimp only
        split_ifs with hnull
        · refine iff_of_false not_failsBy_ok ?_
          cases hsupply : (Json.field? "supply" info).getD .null with
          | null => exact not_failsBy_ok
          | _ =>
              rw [hsupply] at hnull
              cases hnull
        · refine failsBy_bind.trans (or_iff_left ?_)
          rintro ⟨text, -, h⟩
          cases text <;> exact not_failsBy_ok h
      refine hsteps.trans ⟨?_, fun h => ?_⟩
      · rintro (h | ⟨decimals, hdecimals, h⟩)
        · exact .decimals hinfo (fails_decimalsOfInfo.mp h)
        · obtain h | ⟨amount, hamount, h⟩ := fails_supplyText.mp h
          · exact .supply hinfo h
          · exact .amount hinfo hdecimals hamount h
      · cases h with
        | decimals hother h =>
            cases hinfo.symm.trans hother
            exact .inl (fails_decimalsOfInfo.mpr h)
        | supply hother h =>
            cases hinfo.symm.trans hother
            exact (fails_or_exists _).imp_right fun ⟨decimals, hdecimals⟩ =>
              ⟨decimals, hdecimals, fails_supplyText.mpr (.inl h)⟩
        | amount hother hdecimals hamount h =>
            cases hinfo.symm.trans hother
            exact .inr ⟨_, hdecimals, fails_supplyText.mpr (.inr ⟨_, hamount, h⟩)⟩

end Mint

end Ledger

end ProgramAudit
