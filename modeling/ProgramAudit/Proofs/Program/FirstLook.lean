import ProgramAudit.Proofs.Program.Loader
import ProgramAudit.Proofs.Routine.Sure
import ProgramAudit.QuickCheck

/-!
A first look at a program beside its image. Both read one account, but not by one test: the look calls
a program upgradeable for the owner of the account, and the image for the pointer in its data. So they
name one image for every account, and they differ on the accounts of the loader that point at none.
-/

namespace ProgramAudit.QuickCheck

open Ledger Program Routine

/-! ### What both say of an account -/

/-- The address to which an account of the upgradeable loader points. -/
def pointed? (account : Option Account) : Option String :=
  (account.filter isUpgradeable).bind fun account => pointerOf? account.data

/-- The account has the owner of a program that can be changed, and is no such program: a buffer, an
image, or bytes in no layout. -/
def Pointless (account : Option Account) : Prop :=
  ∃ found, account = some found ∧ found.owner = upgradeableLoader ∧ pointerOf? found.data = none

/-- The image that is fetched when these are the accounts of a program and of what it points to. -/
def imageOf (address : String) (account holder : Option Account) : Image :=
  match account with
  | none => .missing address
  | some found =>
    if found.owner ≠ upgradeableLoader then { address, data := found.data, account := found }
    else
      match pointerOf? found.data with
      | none => .ofAccount address found
      | some pointer => (Image.behindPointer address pointer found holder).1

variable {address pointer : String} {account holder : Option Account} {found : Account}
  {transactions : Option (List Transaction)}

theorem isUpgradeable_iff : isUpgradeable found = true ↔ found.owner = upgradeableLoader := by
  simp [isUpgradeable]

theorem pointed?_owned (howner : found.owner = upgradeableLoader) :
    pointed? (some found) = pointerOf? found.data := by
  have howned : isUpgradeable found = true := isUpgradeable_iff.mpr howner
  simp [pointed?, Option.filter, howned]

theorem pointed?_foreign (howner : found.owner ≠ upgradeableLoader) :
    pointed? (some found) = none := by
  have hforeign : isUpgradeable found = false := by
    simpa [isUpgradeable] using howner
  simp [pointed?, Option.filter, hforeign]

theorem imageAddress_ofAccount (address : String) (account : Account) :
    (Image.ofAccount address account).imageAddress = none := by
  unfold Image.ofAccount
  split <;> rfl

theorem imageAddress_behindPointer (address pointer : String) (account : Account)
    (holder : Option Account) :
    (Image.behindPointer address pointer account holder).1.imageAddress = some pointer := by
  cases holder with
  | none => rfl
  | some holder =>
      dsimp only [Image.behindPointer]
      split <;> rfl

theorem imageAddress_imageOf (address : String) (account holder : Option Account) :
    (imageOf address account holder).imageAddress = pointed? account := by
  cases account with
  | none => rfl
  | some found =>
      unfold imageOf
      dsimp only
      split
      · rename_i howner
        rw [pointed?_foreign howner]
      · rename_i howner
        rw [pointed?_owned (not_not.mp howner)]
        split
        · rename_i hpointer
          rw [imageAddress_ofAccount, hpointer]
        · rename_i pointer hpointer
          rw [imageAddress_behindPointer, hpointer]

theorem upgradeable_ofReadings (address : String) (account : Option Account)
    (transactions : Option (List Transaction)) :
    (ofReadings address account transactions).upgradeable = true ↔
      ∃ found, account = some found ∧ found.owner = upgradeableLoader := by
  cases account with
  | none => simp [ofReadings]
  | some found => simp [ofReadings, isUpgradeable_iff]

theorem upgradeable_of_pointed? (h : (pointed? account).isSome = true) :
    (ofReadings address account transactions).upgradeable = true := by
  cases account with
  | none => cases h
  | some found =>
      by_cases howner : found.owner = upgradeableLoader
      · exact (upgradeable_ofReadings _ _ _).mpr ⟨found, rfl, howner⟩
      · rw [pointed?_foreign howner] at h
        cases h

/-- The owner and the pointer say the same of every account but those that point at nothing. -/
theorem upgradeable_eq_isSome_iff :
    (ofReadings address account transactions).upgradeable = (pointed? account).isSome ↔
      ¬Pointless account := by
  constructor
  · rintro hsame ⟨found, rfl, howner, hpointer⟩
    rw [pointed?_owned howner, hpointer,
      (upgradeable_ofReadings _ _ _).mpr ⟨found, rfl, howner⟩] at hsame
    cases hsame
  · intro hpoints
    rw [Bool.eq_iff_iff]
    refine ⟨fun hupgradeable => ?_, upgradeable_of_pointed?⟩
    obtain ⟨found, rfl, howner⟩ := (upgradeable_ofReadings _ _ _).mp hupgradeable
    rw [pointed?_owned howner]
    by_contra hnone
    exact hpoints ⟨found, rfl, howner, by simpa using hnone⟩

/-! ### Runs over a source that always gives the same -/

variable {τ σ : Type} [Clock τ] {source : Source τ σ} {given : Json}

theorem gives_run (hvalid : Address.validate given = .ok address)
    (haccount : Gives account (source.account address))
    (htransactions : Gives transactions (source.transactions address 1)) :
    Gives (ofReadings address account transactions) (run source given) := by
  rw [run, hvalid]
  have hreadings := (haccount.both htransactions).map fun readings =>
    ofReadings address readings.1 readings.2
  exact (gives_succeed address).bind hreadings.rescue

theorem gives_fetch (haccount : Gives account (source.account address))
    (hholder : ∀ pointer, pointed? account = some pointer → Gives holder (source.account pointer)) :
    Gives (imageOf address account holder) (Image.fetch source address) := by
  refine haccount.bind ?_
  cases account with
  | none => exact (gives_note _).bind (gives_succeed _)
  | some found =>
      unfold imageOf
      dsimp only
      by_cases howner : found.owner = upgradeableLoader
      · have hpointed : pointed? (some found) = pointerOf? found.data := pointed?_owned howner
        rw [if_neg (not_not.mpr howner), if_neg (not_not.mpr howner)]
        cases hpointer : pointerOf? found.data with
        | none => exact gives_succeed _
        | some pointer =>
            exact (hholder pointer (hpointed.trans hpointer)).bind
              ((gives_note _).bind (gives_succeed _))
      · rw [if_pos howner, if_pos howner]
        exact gives_succeed _

/-- When every lookup that is needed gives one value under every schedule, a first look at a valid
address and the fetch of its image both succeed, and they name **the same image address**. The image
counts as upgradeable exactly if there is such an address, and then the look says so too. The two flags
agree **exactly if the account is no account of the loader without a pointer**; for such a one the look
says upgradeable and names no image. -/
theorem firstLook_against_image (hvalid : Address.validate given = .ok address)
    (haccount : Gives account (source.account address))
    (htransactions : Gives transactions (source.transactions address 1))
    (hholder : ∀ pointer, pointed? account = some pointer →
      ∃ holder, Gives holder (source.account pointer)) (start start' : Progress τ σ) :
    ∃ (check : QuickCheck) (image : Image),
      ((run source given).run start).result = some (.ok check) ∧
      ((Image.fetch source address).run start').result = some (.ok image) ∧
      check.address = address ∧ check.computed = true ∧
      check.imageAddress = image.imageAddress ∧ check.imageAddress = pointed? account ∧
      (image.upgradeable = true ↔ check.imageAddress.isSome = true) ∧
      (image.upgradeable = true → check.upgradeable = true) ∧
      (check.upgradeable = image.upgradeable ↔ ¬Pointless account) ∧
      (Pointless account → check.upgradeable = true ∧ check.imageAddress = none) := by
  obtain ⟨holder, hholder⟩ : ∃ holder, ∀ pointer, pointed? account = some pointer →
      Gives holder (source.account pointer) := by
    cases hpointed : pointed? account with
    | none => exact ⟨none, nofun⟩
    | some pointer =>
        obtain ⟨holder, hgives⟩ := hholder pointer hpointed
        refine ⟨holder, fun other hother => ?_⟩
        cases hother
        exact hgives
  have hlook : (ofReadings address account transactions).imageAddress = pointed? account := rfl
  have hupgradeable : (imageOf address account holder).upgradeable = (pointed? account).isSome := by
    rw [Image.upgradeable, imageAddress_imageOf]
  refine ⟨_, _, (gives_run hvalid haccount htransactions).run start,
    (gives_fetch haccount hholder).run start', rfl, rfl, ?_, hlook, ?_, ?_, ?_, ?_⟩
  · rw [hlook, imageAddress_imageOf]
  · rw [hupgradeable, hlook]
  · rw [hupgradeable]
    exact upgradeable_of_pointed?
  · rw [hupgradeable]
    exact upgradeable_eq_isSome_iff
  · rintro ⟨found, rfl, howner, hpointer⟩
    refine ⟨(upgradeable_ofReadings _ _ _).mpr ⟨found, rfl, howner⟩, ?_⟩
    rw [hlook, pointed?_owned howner, hpointer]

/-! ### A program and a buffer -/

def lookedAddress : String := "11111111111111111111111111111111"

/-- The upgradeable loader owns one account, with these bytes, and there is no other one. -/
def loaderSource (data : Bytes) : Source Int Unit where
  account address :=
    succeed (if address = lookedAddress then some ⟨1, upgradeableLoader, true, data⟩ else none)
  transactions _ _ := succeed (some [])
  mint _ := succeed none

theorem gives_loaderAccount (data : Bytes) :
    Gives (some ⟨1, upgradeableLoader, true, data⟩)
      ((loaderSource data).account lookedAddress) :=
  gives_succeed _

theorem gives_loaderTransactions (data : Bytes) :
    Gives (some []) ((loaderSource data).transactions lookedAddress 1) :=
  gives_succeed _

theorem validate_lookedAddress : Address.validate (.str lookedAddress) = .ok lookedAddress := by
  have hvalue : Address.ofValue? (.str lookedAddress) = some lookedAddress := by decide +kernel
  rw [Address.validate, hvalue]

theorem firstLook_against_image_program :
    ∃ (check : QuickCheck) (image : Image),
      ((run (loaderSource (pointerBytes heldKey [])) (.str lookedAddress)).run
        ⟨0, 0, (), []⟩).result = some (.ok check) ∧
      ((Image.fetch (loaderSource (pointerBytes heldKey [])) lookedAddress).run
        ⟨5, 9, (), []⟩).result = some (.ok image) ∧
      check.imageAddress = some (Address.ofKey heldKey) ∧
      image.imageAddress = some (Address.ofKey heldKey) ∧
      check.upgradeable = true ∧ image.upgradeable = true := by
  have hkey : heldKey.length = 32 := rfl
  have hpointed : pointed? (some ⟨1, upgradeableLoader, true, pointerBytes heldKey []⟩) =
      some (Address.ofKey heldKey) :=
    (pointed?_owned rfl).trans (pointerOf?_pointerBytes hkey)
  obtain ⟨check, image, hcheck, himage, -, -, hsame, hnamed, hflag, hsays, -, -⟩ :=
    firstLook_against_image validate_lookedAddress (gives_loaderAccount (pointerBytes heldKey []))
      (gives_loaderTransactions _) (fun pointer _ => ⟨_, gives_succeed _⟩) ⟨0, 0, (), []⟩
      ⟨5, 9, (), []⟩
  rw [hpointed] at hnamed
  have hupgradeable : image.upgradeable = true := hflag.mpr (by rw [hnamed]; rfl)
  exact ⟨check, image, hcheck, himage, hnamed, hsame.symm.trans hnamed, hsays hupgradeable,
    hupgradeable⟩

/-- A buffer: the look calls it upgradeable and names no image, and its image is not upgradeable. -/
theorem buffer_called_upgradeable :
    ∃ (check : QuickCheck) (image : Image),
      ((run (loaderSource [1, 0, 0, 0]) (.str lookedAddress)).run
        ⟨0, 0, (), []⟩).result = some (.ok check) ∧
      ((Image.fetch (loaderSource [1, 0, 0, 0]) lookedAddress).run
        ⟨0, 0, (), []⟩).result = some (.ok image) ∧
      check.upgradeable = true ∧ check.imageAddress = none ∧ image.upgradeable = false := by
  have hlook := (gives_run validate_lookedAddress (gives_loaderAccount [1, 0, 0, 0])
    (gives_loaderTransactions _)).run ⟨0, 0, (), []⟩
  exact ⟨_, _, hlook, rfl, rfl, rfl, rfl⟩

end ProgramAudit.QuickCheck
