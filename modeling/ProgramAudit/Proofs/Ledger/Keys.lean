import Mathlib.Data.List.ReduceOption
import ProgramAudit.Ledger.Transaction
import ProgramAudit.Proofs.Failure

/-!
What indices among the keys of a message come to. Entries that cannot be read are left out before
indices are looked up, so an index counts the readable entries alone: behind an entry that cannot be
read each index means a later entry than the one at its place.
-/

namespace ProgramAudit.Ledger

open Transaction

/-! ### Lists with entries left out -/

/-- An element of what is left has so many others before it that are left. -/
theorem getElem?_filterMap_eq_some {α β : Type} {f : α → Option β} {items : List α} {index : Nat}
    {value : β} : (items.filterMap f)[index]? = some value ↔ ∃ position,
      items[position]?.bind f = some value ∧
        (items.take position).countP (fun item => (f item).isSome) = index := by
  induction items generalizing index with
  | nil => simp
  | cons item rest ih =>
      cases hitem : f item with
      | none =>
          rw [List.filterMap_cons_none hitem, ih]
          constructor
          · rintro ⟨position, hvalue, hcount⟩
            exact ⟨position + 1, hvalue, by simpa [hitem] using hcount⟩
          · rintro ⟨_ | position, hvalue, hcount⟩
            · simp [hitem] at hvalue
            · exact ⟨position, hvalue, by simpa [hitem] using hcount⟩
      | some found =>
          rw [List.filterMap_cons_some hitem]
          cases index with
          | zero =>
              constructor
              · intro h
                exact ⟨0, by simpa [hitem] using h, rfl⟩
              · rintro ⟨_ | position, hvalue, hcount⟩
                · simpa [hitem] using hvalue
                · simp [hitem] at hcount
          | succ index =>
              rw [List.getElem?_cons_succ, ih]
              constructor
              · rintro ⟨position, hvalue, hcount⟩
                exact ⟨position + 1, hvalue, by simpa [hitem] using hcount⟩
              · rintro ⟨_ | position, hvalue, hcount⟩
                · simp at hcount
                · exact ⟨position, hvalue, by simpa [hitem] using hcount⟩

/-! ### Indices -/

def isReadable (entry : Json) : Bool := (addressOfKey? entry).isSome

/-- What an index comes to: the address of the readable entry with so many readable ones before it,
or nothing if there are not as many. -/
inductive Resolves (entries : List Json) (index : Int) : Option String → Prop
  | named {position : Nat} {address : String}
    (hentry : entries[position]?.bind addressOfKey? = some address)
    (hcount : ((entries.take position).countP isReadable : Int) = index) :
    Resolves entries index (some address)
  | dropped (h : index < 0 ∨ (entries.countP isReadable : Int) ≤ index) :
    Resolves entries index none

variable {entries : List Json} {item : Json} {index : Int} {resolved : Option String}

theorem length_keys (entries : List Json) :
    (entries.filterMap addressOfKey?).length = entries.countP isReadable :=
  List.length_filterMap_eq_countP

theorem resolves_keyAt? (entries : List Json) (hindex : item.integer? = some index) :
    Resolves entries index (Instruction.keyAt? (entries.filterMap addressOfKey?) item) := by
  have hlength := length_keys entries
  unfold Instruction.keyAt?
  rw [hindex]
  dsimp only
  split_ifs with hpositive
  · cases hfound : (entries.filterMap addressOfKey?)[index.toNat]? with
    | some address =>
        obtain ⟨position, hentry, hcount⟩ := getElem?_filterMap_eq_some.mp hfound
        refine .named hentry ?_
        rw [show (entries.take position).countP isReadable = index.toNat from hcount]
        omega
    | none =>
        have hpast := List.getElem?_eq_none_iff.mp hfound
        exact .dropped (.inr (by omega))
  · exact .dropped (.inl (by omega))

theorem keyAt?_of_resolves (hindex : item.integer? = some index)
    (h : Resolves entries index resolved) :
    Instruction.keyAt? (entries.filterMap addressOfKey?) item = resolved := by
  have hlength := length_keys entries
  unfold Instruction.keyAt?
  rw [hindex]
  dsimp only
  cases h with
  | @named position address hentry hcount =>
      have hfound := getElem?_filterMap_eq_some.mpr ⟨position, hentry, rfl⟩
      change (entries.filterMap addressOfKey?)[(entries.take position).countP isReadable]? = _
        at hfound
      rw [if_pos (by omega), ← hcount, Int.toNat_natCast, hfound]
  | dropped hpast =>
      split_ifs with hpositive
      · exact List.getElem?_eq_none_iff.mpr (by omega)
      · rfl

theorem Resolves.unique {other : Option String} (h : Resolves entries index resolved)
    (hother : Resolves entries index other) : resolved = other := by
  have hindex : (Json.int index).integer? = some index := rfl
  exact (keyAt?_of_resolves hindex h).symm.trans (keyAt?_of_resolves hindex hother)

/-- Past all entries an index comes to nothing. -/
theorem Resolves.eq_none (h : Resolves entries index resolved)
    (hpast : index < 0 ∨ (entries.length : Int) ≤ index) : resolved = none := by
  have hleast : entries.countP isReadable ≤ entries.length := List.countP_le_length
  exact h.unique (.dropped (hpast.imp_right (by omega)))

/-- Where every entry so far can be read, an index comes to the entry at its place. -/
theorem resolves_entry {index : Nat} {entry : Json} (hentry : entries[index]? = some entry)
    (hreadable : ∀ other ∈ entries.take (index + 1), isReadable other = true) :
    Resolves entries index (addressOfKey? entry) := by
  have hmem : entry ∈ entries.take (index + 1) := by
    refine List.mem_of_getElem? (i := index) ?_
    rwa [List.getElem?_take_of_lt (Nat.lt_succ_self index)]
  obtain ⟨address, haddress⟩ := Option.isSome_iff_exists.mp (hreadable entry hmem)
  have hcount : (entries.take index).countP isReadable = index := by
    have hall : ∀ other ∈ entries.take index, isReadable other = true := fun other hother =>
      hreadable other ((List.take_subset_take_left entries (Nat.le_succ index)) hother)
    have hbound : index < entries.length := (List.getElem?_eq_some_iff.mp hentry).1
    rw [List.countP_eq_length.mpr hall, List.length_take]
    omega
  have hfound : entries[index]?.bind addressOfKey? = some address := by
    rw [hentry]
    exact haddress
  rw [haddress]
  exact .named hfound (congrArg Nat.cast hcount)

/-- Behind an entry that cannot be read, an index comes to a later entry than its own. -/
theorem Resolves.later {index : Nat} {address : String} (h : Resolves entries index (some address))
    (hunreadable : ∃ other ∈ entries.take (index + 1), isReadable other = false) :
    ∃ position, index < position ∧ entries[position]?.bind addressOfKey? = some address := by
  obtain ⟨other, hother, hunreadable⟩ := hunreadable
  cases h with
  | @named position _ hentry hcount =>
      refine ⟨position, ?_, hentry⟩
      by_contra hle
      -- As many readable entries as there is room for leave none before the place unread.
      have hfew : (entries.take position).countP isReadable ≤ (entries.take position).length :=
        List.countP_le_length
      have hroom : (entries.take position).length ≤ position := List.length_take_le _ _
      obtain rfl : position = index := by omega
      have hall := List.countP_eq_length.mp (show (entries.take position).countP isReadable =
        (entries.take position).length by omega)
      rw [List.take_add_one, List.mem_append] at hother
      rcases hother with hbefore | hown
      · cases hunreadable.symm.trans (hall other hbefore)
      · rw [Option.mem_toList] at hown
        rw [hown] at hentry
        cases hunreadable.symm.trans (Option.isSome_iff_exists.mpr ⟨address, hentry⟩)

/-! ### Instructions -/

/-- An instruction that is given by indices alone. -/
structure ByIndices (payload : Json) (program : Int) (accounts : List Int) : Prop where
  isObject : payload.isObject = true
  unnamed : (payload.get "programId").isNull = true
  program : (payload.get "programIdIndex").integer? = some program
  accounts : ∃ items, payload.get "accounts" = .arr items ∧
    List.Forall₂ (fun account item => item.integer? = some account) accounts items

/-- What becomes of an instruction that is given by indices. Without an address for its program it is
left out, and an account without an address is. -/
inductive Told (entries : List Json) (program : Int) (accounts : List Int) :
    Option Instruction → Prop
  | read {instruction : Instruction} {resolved : List (Option String)}
    (hprogram : Resolves entries program (some instruction.programId))
    (hne : instruction.programId ≠ "")
    (haccounts : List.Forall₂ (Resolves entries) accounts resolved)
    (h : instruction.accounts = resolved.reduceOption) :
    Told entries program accounts (some instruction)
  | dropped {resolved : Option String} (hprogram : Resolves entries program resolved)
    (h : ∀ address, resolved = some address → address = "") : Told entries program accounts none

theorem accountAt?_of_integer? {keys : List String} (hindex : item.integer? = some index) :
    Instruction.accountAt? keys item = Instruction.keyAt? keys item := by
  cases item with
  | str text => cases hindex
  | _ => rfl

theorem resolves_accounts (entries : List Json) {items : List Json} {accounts : List Int}
    (h : List.Forall₂ (fun account item => item.integer? = some account) accounts items) :
    ∃ resolved, List.Forall₂ (Resolves entries) accounts resolved ∧
      items.filterMap (Instruction.accountAt? (entries.filterMap addressOfKey?)) =
        resolved.reduceOption := by
  induction h with
  | nil => exact ⟨[], .nil, rfl⟩
  | cons hindex _ ih =>
      obtain ⟨resolved, hresolved, haccounts⟩ := ih
      refine ⟨_, .cons (resolves_keyAt? entries hindex) hresolved, ?_⟩
      rw [List.filterMap_cons, accountAt?_of_integer? hindex, haccounts]
      split <;> rename_i hfound <;> rw [hfound] <;> rfl

theorem accountsOfPayload_arr {keys : List String} {payload : Json} {items : List Json}
    (h : payload.get "accounts" = .arr items) : Instruction.accountsOfPayload keys payload =
      .ok (items.filterMap (Instruction.accountAt? keys)) := by
  unfold Instruction.accountsOfPayload
  rw [h]
  cases items <;> rfl

theorem told_ofPayload {payload : Json} {program : Int} {accounts : List Int}
    (h : ByIndices payload program accounts) {found : Option Instruction}
    (hread : Instruction.ofPayload (entries.filterMap addressOfKey?) payload = .ok found) :
    Told entries program accounts found := by
  have hprogram := resolves_keyAt? entries h.program
  unfold Instruction.ofPayload Instruction.programOfPayload at hread
  rw [h.unnamed, h.isObject] at hread
  cases hkey : Instruction.keyAt? (entries.filterMap addressOfKey?) (payload.get "programIdIndex") with
  | none =>
      rw [hkey] at hprogram hread
      cases hread
      exact .dropped hprogram nofun
  | some address =>
      rw [hkey] at hprogram hread
      by_cases hempty : address = ""
      · subst hempty
        cases hread
        exact .dropped hprogram fun _ => (Option.some.inj · |>.symm)
      · have hpresent : (Json.str address).isPresent = true := by simpa [Json.isPresent] using hempty
        obtain ⟨items, hitems, hindices⟩ := h.accounts
        obtain ⟨resolved, hresolved, haccounts⟩ := resolves_accounts entries hindices
        simp only [hpresent, Bool.and_self, if_true, accountsOfPayload_arr hitems] at hread
        cases hread
        exact .read hprogram hempty hresolved haccounts

/-! ### Transactions -/

theorem elementsOrNone_arr (items : List Json) : elementsOrNone (.arr items) = .ok items := by
  cases items <;> rfl

/-- The instructions of a transaction are read one by one, by the keys that can be read. -/
theorem exists_instructions {asked : Option Json} {payload : Json} {transaction : Transaction}
    {listed : List Json}
    (hkeys : ((payload.get "transaction").get "message").get "accountKeys" = .arr entries)
    (hlisted : ((payload.get "transaction").get "message").get "instructions" = .arr listed)
    (h : Transaction.ofPayload asked payload = .ok (some transaction)) : ∃ found,
      transaction.instructions = found.reduceOption ∧ List.Forall₂ (fun instruction raw =>
        Instruction.ofPayload (entries.filterMap addressOfKey?) raw = .ok instruction)
          found listed := by
  unfold Transaction.ofPayload at h
  dsimp only at h
  split_ifs at h with hmessage
  case neg => cases h
  obtain ⟨signature, -, h⟩ := Result.bind_eq_ok.mp h
  obtain ⟨keys, hread, h⟩ := Result.bind_eq_ok.mp h
  obtain ⟨instructions, hinstructions, h⟩ := Result.bind_eq_ok.mp h
  obtain ⟨_, -, h⟩ := Result.bind_eq_ok.mp h
  obtain ⟨_, -, h⟩ := Result.bind_eq_ok.mp h
  obtain ⟨_, -, h⟩ := Result.bind_eq_ok.mp h
  cases h
  rw [keysOfMessage, hkeys, elementsOrNone_arr] at hread
  cases hread
  obtain ⟨raws, hraws, hinstructions⟩ := Result.bind_eq_ok.mp hinstructions
  rw [hlisted, elementsOrNone_arr] at hraws
  cases hraws
  obtain ⟨found, hfound, hinstructions⟩ := Result.bind_eq_ok.mp hinstructions
  cases hinstructions
  exact ⟨found, rfl, Result.mapM_eq_ok.mp hfound⟩

/-- Each index in a transaction comes to the address of an entry, and is left out past all entries.
It is the entry at its own place unless there is one so far that cannot be read, and a later one
otherwise. -/
theorem indices_resolved {asked : Option Json} {payload : Json} {transaction : Transaction}
    {entries listed : List Json}
    (hkeys : ((payload.get "transaction").get "message").get "accountKeys" = .arr entries)
    (hlisted : ((payload.get "transaction").get "message").get "instructions" = .arr listed)
    (h : Transaction.ofPayload asked payload = .ok (some transaction)) :
    (∃ found, transaction.instructions = found.reduceOption ∧
      List.Forall₂ (fun instruction raw => ∀ program accounts, ByIndices raw program accounts →
        Told entries program accounts instruction) found listed) ∧
    (∀ index resolved, Resolves entries index resolved →
      index < 0 ∨ (entries.length : Int) ≤ index → resolved = none) ∧
    (∀ (index : Nat) entry resolved, Resolves entries index resolved →
      entries[index]? = some entry → (∀ other ∈ entries.take (index + 1), isReadable other = true) →
      resolved = addressOfKey? entry) ∧
    ∀ (index : Nat) address, Resolves entries index (some address) →
      (∃ other ∈ entries.take (index + 1), isReadable other = false) →
      ∃ position, index < position ∧ entries[position]?.bind addressOfKey? = some address := by
  obtain ⟨found, hinstructions, hfound⟩ := exists_instructions hkeys hlisted h
  refine ⟨⟨found, hinstructions, ?_⟩, fun _ _ => Resolves.eq_none,
    fun index entry resolved hresolved hentry hreadable => ?_, fun _ _ => Resolves.later⟩
  · exact hfound.imp fun _ _ hread _ _ hindices => told_ofPayload hindices hread
  · exact hresolved.unique (resolves_entry hentry hreadable)

/-- An instruction that is given by indices. -/
def indexed (program : Int) (accounts : List Int) : Json :=
  .obj [("programIdIndex", .int program), ("accounts", .arr (accounts.map .int))]

/-- A payload of keys and instructions. -/
def keyed (entries listed : List Json) : Json :=
  .obj [("transaction", .obj [("message",
    .obj [("accountKeys", .arr entries), ("instructions", .arr listed)])])]

/-- All keys can be read, and an account is past them. -/
theorem indices_resolved_readable : ∃ transaction found,
    Transaction.ofPayload none (keyed [.str "A", .str "B"] [indexed 1 [0, 5]]) =
      .ok (some transaction) ∧
    transaction.instructions = [⟨"B", ["A"], none⟩] ∧
    transaction.instructions = found.reduceOption ∧
    List.Forall₂ (fun instruction raw => ∀ program accounts, ByIndices raw program accounts →
      Told [.str "A", .str "B"] program accounts instruction) found [indexed 1 [0, 5]] := by
  obtain ⟨transaction, hread, hsame⟩ : ∃ transaction,
      Transaction.ofPayload none (keyed [.str "A", .str "B"] [indexed 1 [0, 5]]) =
        .ok (some transaction) ∧ transaction.instructions = [⟨"B", ["A"], none⟩] := ⟨_, rfl, rfl⟩
  obtain ⟨⟨found, hinstructions, htold⟩, -⟩ := indices_resolved rfl rfl hread
  exact ⟨transaction, found, hread, hsame, hinstructions, htold⟩

/-- The first key has no address, and its index comes to the second one. -/
theorem index_shifted :
    addressOfKey? (.obj [("signer", .bool true)]) = none ∧
    ∃ transaction, Transaction.ofPayload none
      (keyed [.obj [("signer", .bool true)], .str "A"] [indexed 0 [0]]) = .ok (some transaction) ∧
      transaction.instructions = [⟨"A", ["A"], none⟩] :=
  ⟨rfl, _, rfl, rfl⟩

end ProgramAudit.Ledger
