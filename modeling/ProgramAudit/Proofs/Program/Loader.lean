import ProgramAudit.Program.Image
import ProgramAudit.Proofs.Bytes.Base64
import ProgramAudit.Proofs.Endpoint.Answers
import ProgramAudit.Proofs.Program.Markers
import ProgramAudit.Proofs.Routine.Settles

/-!
The two accounts of the upgradeable loader. What is written in their layouts comes back through the
endpoint byte for byte, and no authority is named but by a header that names it.
-/

namespace ProgramAudit.Program

open Endpoint Ledger Routine

/-! ### Layouts -/

/-- The account of a program: the tag, the key of the account that holds the image, and whatever
follows. -/
def pointerBytes (key trailing : Bytes) : Bytes := [2, 0, 0, 0] ++ key ++ trailing

/-- What stands before an image: the tag, the slot, the option byte and the key of the authority. -/
def headerBytes (slot : Bytes) (option : UInt8) (key : Bytes) : Bytes :=
  [3, 0, 0, 0] ++ slot ++ [option] ++ key

variable {key slot trailing image : Bytes} {option : UInt8}

theorem tag?_append {tag rest : Bytes} (htag : tag.length = 4) :
    tag? (tag ++ rest) = some (Bytes.littleEndian tag) := by
  rw [tag?, if_neg (by rw [List.length_append]; omega), List.take_left' htag]

theorem pointerOf?_pointerBytes (hkey : key.length = 32) :
    pointerOf? (pointerBytes key trailing) = some (Address.ofKey key) := by
  have hlong : 36 ≤ (pointerBytes key trailing).length := by
    simp [pointerBytes, hkey]
  have htag : tag? (pointerBytes key trailing) = some programTag := by
    rw [pointerBytes, List.append_assoc, tag?_append rfl]
    rfl
  have hpointer : ((pointerBytes key trailing).drop 4).take 32 = key := by
    have hbefore : ([2, 0, 0, 0] : Bytes).length = 4 := rfl
    rw [pointerBytes, List.append_assoc, List.drop_left' hbefore, List.take_left' hkey]
  rw [pointerOf?, if_pos ⟨hlong, htag⟩, hpointer]

theorem readImageAccount_headerBytes (hslot : slot.length = 8) (hkey : key.length = 32) :
    readImageAccount (headerBytes slot option key ++ image) =
      .ok ⟨if option = 1 then some (Address.ofKey key) else none, image⟩ := by
  have hlength : (headerBytes slot option key).length = headerLength := by
    simp [headerBytes, hslot, hkey, headerLength]
  have hlong : headerLength ≤ (headerBytes slot option key ++ image).length := by
    rw [List.length_append, hlength]
    omega
  have htag : tag? (headerBytes slot option key ++ image) = some imageTag := by
    simp only [headerBytes, List.append_assoc]
    rw [tag?_append rfl]
    rfl
  have hpresent : (headerBytes slot option key ++ image)[12]? = some option := by
    simp [headerBytes, hslot]
  have hbefore : ([3, 0, 0, 0] ++ slot ++ [option]).length = 13 := by
    simp [hslot]
  have hauthority : ((headerBytes slot option key ++ image).drop 13).take 32 = key := by
    rw [headerBytes, List.append_assoc _ key, List.drop_left' hbefore, List.take_left' hkey]
  rw [readImageAccount, if_pos ⟨hlong, htag⟩, hpresent, hauthority, List.drop_left' hlength]
  simp only [Option.some.injEq]

/-! ### Accounts as they are served -/

/-- An account as an endpoint serves it: its data in base 64, the upgradeable loader as its owner,
and an amount. -/
structure Served (data : Bytes) (payload : Json) : Prop where
  data : payload.get? "data" =
    some (.arr [.str (String.ofList (Bytes.Base64.encode data)), .str "base64"])
  owner : payload.get? "owner" = some (.str upgradeableLoader)
  lamports : ∃ amount, payload.get? "lamports" = some (.int amount)

variable {data : Bytes} {payload : Json}

theorem decodeData_encode (data : Bytes) :
    Account.decodeData (.str (String.ofList (Bytes.Base64.encode data))) = .ok data := by
  have hascii : ((Bytes.Base64.encode data).all fun c => decide (c.toNat < 128)) = true :=
    List.all_eq_true.mpr fun _ hc => decide_eq_true (Bytes.Base64.lt_of_mem_encode hc)
  rw [Account.decodeData, String.toList_ofList, if_pos hascii, Bytes.Base64.decode_encode]
  rfl

theorem dataOfPayload_encode (data : Bytes) (rest : List Json) :
    Account.dataOfPayload (.arr (.str (String.ofList (Bytes.Base64.encode data)) :: rest)) =
      .ok data := by
  rw [Account.dataOfPayload]
  split_ifs with hpresent
  · exact decodeData_encode data
  · have hempty : String.ofList (Bytes.Base64.encode data) = "" := by
      simpa [Json.isPresent] using hpresent
    have hdecoded := decodeData_encode data
    rw [hempty] at hdecoded
    exact hdecoded

theorem Served.ofPayload (h : Served data payload) :
    ∃ account, Account.ofPayload payload = .ok account ∧ account.data = data ∧
      account.owner = upgradeableLoader := by
  obtain ⟨amount, hamount⟩ := h.lamports
  cases payload with
  | obj fields =>
      have hdata : (Json.obj fields).demandField "data" =
          .ok (.arr [.str (String.ofList (Bytes.Base64.encode data)), .str "base64"]) := by
        have hfield : Json.field? "data" fields = _ := h.data
        rw [Json.demandField, hfield, Option.getD_some]
      have hlamports : (((Json.obj fields).get "lamports").orElse (.int 0)).toInteger =
          .ok amount := by
        rw [Json.get, hamount, Option.getD_some, Json.orElse]
        split_ifs with hpresent
        · rfl
        · have hzero : amount = 0 := by simpa [Json.isPresent] using hpresent
          rw [hzero]
          rfl
      have howner : (((Json.obj fields).get "owner").orElse (.str "")).text =
          upgradeableLoader := by
        rw [Json.get, h.owner]
        rfl
      refine ⟨⟨amount, upgradeableLoader, ((Json.obj fields).get "executable").isPresent, data⟩, ?_,
        rfl, rfl⟩
      rw [Account.ofPayload, hdata, hlamports, howner]
      change (Account.dataOfPayload _ >>= _) = _
      rw [dataOfPayload_encode]
      rfl
  | _ => cases hamount

/-- The bytes are those of the account of an image, and they name an authority. -/
structure Names (data : Bytes) (authority : String) : Prop where
  long : headerLength ≤ data.length
  tagged : tag? data = some imageTag
  present : data[12]? = some 1
  named : authority = Address.ofKey ((data.drop 13).take 32)

theorem names_of_readImageAccount {data : Bytes} {found : ImageAccount} {authority : String}
    (h : readImageAccount data = .ok found) (hauthority : found.authority = some authority) :
    Names data authority := by
  unfold readImageAccount at h
  split_ifs at h with hheader hpresent
  · cases h
    exact ⟨hheader.1, hheader.2, hpresent, (Option.some.inj hauthority).symm⟩
  · cases h
    cases hauthority

/-! ### Fetching -/

variable {τ σ : Type} [Clock τ]

/-- The image that is fetched from behind a pointer. -/
def fetched (address : String) (account : Account) (imageAddress : String) (found : ImageAccount) :
    Image where
  address := address
  data := found.image
  account := account
  imageAddress := imageAddress
  upgradeAuthority := found.authority

theorem comesTo_fetch {agreement : Agreement τ σ (Share τ)} {source : Source τ σ}
    {address imageAddress : String} {account holder : Account} {found : ImageAccount}
    (haccount : ComesTo agreement (some account) (source.account address))
    (howner : account.owner = upgradeableLoader)
    (hpointer : pointerOf? account.data = some imageAddress)
    (hholder : ComesTo agreement (some holder) (source.account imageAddress))
    (hfound : readImageAccount holder.data = .ok found) :
    ComesTo agreement (fetched address account imageAddress found)
      (Image.fetch source address) := by
  refine haccount.bind ?_
  dsimp only
  rw [if_neg (not_not.mpr howner), hpointer]
  refine hholder.bind ?_
  rw [Image.behindPointer, hfound]
  exact (comesTo_note _).bind (comesTo_succeed _)

/-- What an image says of its authority is what a header says in the bytes of an account: that of
the program, or the one to which the program points. -/
def Attested (held : String → Account → Prop) (address : String) (image : Image) : Prop :=
  ∀ authority, image.upgradeAuthority = some authority →
    ∃ holder account, (holder = address ∨ image.imageAddress = some holder) ∧
      held holder account ∧ Names account.data authority

variable {held : String → Account → Prop} {address imageAddress : String} {account : Account}

theorem attested_ofAccount (hheld : held address account) :
    Attested held address (Image.ofAccount address account) := by
  intro authority hauthority
  unfold Image.ofAccount at hauthority
  split at hauthority
  · rename_i found hfound
    exact ⟨address, account, .inl rfl, hheld, names_of_readImageAccount hfound hauthority⟩
  · cases hauthority

theorem attested_behindPointer {holder : Option Account}
    (hheld : ∀ account, holder = some account → held imageAddress account) :
    Attested held address (Image.behindPointer address imageAddress account holder).1 := by
  cases holder with
  | none => exact fun _ => nofun
  | some holder =>
      dsimp only [Image.behindPointer]
      cases hfound : readImageAccount holder.data with
      | error failure => exact fun _ => nofun
      | ok found =>
          intro authority hauthority
          exact ⟨imageAddress, holder, .inr rfl, hheld holder rfl,
            names_of_readImageAccount hfound hauthority⟩

theorem settles_fetch_attested {source : Source τ σ}
    (hsource : ∀ address, (source.account address).Settles
      (Yields fun found => ∀ account, found = some account → held address account))
    (address : String) :
    (Image.fetch source address).Settles (Yields (Attested held address)) := by
  refine settles_bind_yields (hsource address) fun found hfound => ?_
  cases found with
  | none =>
      exact settles_bind_yields (settles_yields_true _) fun _ _ => settles_succeed fun _ => nofun
  | some account =>
      dsimp only
      split
      · exact settles_succeed fun _ => nofun
      · split
        · exact settles_succeed (attested_ofAccount (hfound account rfl))
        · refine settles_bind_yields (hsource _) fun holder hholder => ?_
          exact settles_bind_yields (settles_yields_true _) fun _ _ =>
            settles_succeed (attested_behindPointer hholder)

/-- What the loader keeps of a program in its two accounts is fetched from an endpoint as it was
written: the image byte for byte, where it lies, and the authority if its option byte says that there
is one. The profile of it is of all its bytes: a byte string is shorter than `2 ^ 63`, and under another
policy its instructions must be counted and shared out. And whatever accounts hold, an authority is
fetched only from a header that names it. -/
theorem fetch_upgradeable {access : Access τ σ} (lawful : access.client.Lawful)
    {options : Client.Options} (hlifetime : options.lifetime.toReal?.isSome = true)
    (hspacing : options.spacing.toReal?.isSome = true) {start : Progress τ σ}
    (hstart : access.client.get start.state = .new options) {answer : Request → Json}
    {address : String} {key trailing slot authority image : Bytes} {option : UInt8}
    (hkey : key.length = 32) (hslot : slot.length = 8) (hauthority : authority.length = 32)
    (hprogram : access.Meets answer (.account address .base64 access.commitment))
    (himage : access.Meets answer (.account (Address.ofKey key) .base64 access.commitment))
    (hpointer : Served (pointerBytes key trailing)
      ((answer (.account address .base64 access.commitment)).get "value"))
    (hholder : Served (headerBytes slot option authority ++ image)
      ((answer (.account (Address.ofKey key) .base64 access.commitment)).get "value")) :
    (∃ found : Image, ((Image.fetch access.source address).run start).result = some (.ok found) ∧
      found.computed = true ∧ found.data = image ∧
      found.imageAddress = some (Address.ofKey key) ∧
      found.upgradeAuthority = (if option = 1 then some (Address.ofKey authority) else none) ∧
      (image.length < 2 ^ 63 →
        (Profile.ofData {} (some found.data) address found.candidateAuthorities).byteLength =
          image.length) ∧
      ∀ policy : ProfilePolicy, policy.bytesPerInstruction ≠ 0 →
        (∀ ratio ∈ [policy.branchRatio, policy.loopRatio], ∃ count,
          Profile.share (Int.fdiv image.length policy.bytesPerInstruction) ratio = .ok count) →
        (Profile.ofData policy (some found.data) address found.candidateAuthorities).byteLength =
          image.length) ∧
    ∀ (source : Source τ σ) (held : String → Account → Prop),
      (∀ address, (source.account address).Settles
        (Yields fun found => ∀ account, found = some account → held address account)) →
      ∀ address start found, ((Image.fetch source address).run start).result = some (.ok found) →
        Attested held address found := by
  constructor
  · obtain ⟨account, hread, hdata, howner⟩ := hpointer.ofPayload
    obtain ⟨holder, hreadHolder, hdataHolder, -⟩ := hholder.ofPayload
    have hfound : readImageAccount holder.data =
        .ok ⟨if option = 1 then some (Address.ofKey authority) else none, image⟩ := by
      rw [hdataHolder]
      exact readImageAccount_headerBytes hslot hauthority
    have hpointed : pointerOf? account.data = some (Address.ofKey key) := by
      rw [hdata]
      exact pointerOf?_pointerBytes hkey
    have hfetch : ComesTo (access.setting lawful answer options.permits options.spacing).books _
        (Image.fetch access.source address) :=
      comesTo_fetch (comesTo_account hspacing hprogram (accountBy_eq_ok hread)) howner hpointed
        (comesTo_account hspacing himage (accountBy_eq_ok hreadHolder)) hfound
    refine ⟨_, (hfetch.run (holds_new hlifetime hstart)).1, rfl, rfl, rfl, rfl, ?_, ?_⟩
    · intro hlength
      exact (Profile.shows_ofData hlength address _).byteLength
    · intro policy hbytes hshares
      exact Profile.byteLength_ofData hbytes hshares address _
  · intro source held hsource address start found hrun
    exact run_settles start (settles_fetch_attested hsource address) hrun

/-! ### A program that is held -/

def heldKey : Bytes := List.replicate 32 7

def heldAuthority : Bytes := List.replicate 32 9

/-- The program is at `p`, and what it points to everywhere else. -/
def heldBytes (address : String) : Bytes :=
  if address = "p" then pointerBytes heldKey [1]
  else headerBytes (List.replicate 8 5) 1 heldAuthority ++ [127, 69]

def heldAnswer : Request → Json
  | .account address _ _ => .obj [("value", .obj [
      ("data", .arr [.str (String.ofList (Bytes.Base64.encode (heldBytes address))), .str "base64"]),
      ("lamports", .int 1),
      ("owner", .str upgradeableLoader)])]
  | _ => .null

def heldAccess : Access Int (Client Int) := .serving heldAnswer fun _ => 1

theorem heldAccess_meets (address : String) :
    heldAccess.Meets heldAnswer (.account address .base64 Client.defaultCommitment) := by
  have hshort : (Nat.toDigits 10 1).length ≤ Number.integerDigitLimit := by decide
  refine serving_meets ?_
  simp [heldAnswer, Json.isPlain, Json.arePlain, Json.hasPlain, Json.entryIsPlain, hshort]

/-- The same accounts, given at once. -/
def heldSource : Source Int (Client Int) where
  account address := succeed (some ⟨1, upgradeableLoader, true, heldBytes address⟩)
  transactions _ _ := succeed none
  mint _ := succeed none

theorem fetch_upgradeable_held :
    (∃ found : Image,
      ((Image.fetch heldAccess.source "p").run ⟨0, 0, .new {}, []⟩).result = some (.ok found) ∧
        found.data = [127, 69] ∧ found.imageAddress = some (Address.ofKey heldKey) ∧
        found.upgradeAuthority = some (Address.ofKey heldAuthority) ∧
        (Profile.ofData {} (some found.data) "p" found.candidateAuthorities).byteLength = 2 ∧
        (Profile.ofData { branchRatio := 0, loopRatio := 0 } (some found.data) "p"
          found.candidateAuthorities).byteLength = 2) ∧
    ∀ found : Image,
      ((Image.fetch heldSource "p").run ⟨0, 0, .new {}, []⟩).result = some (.ok found) →
        Attested (fun address account => account.data = heldBytes address) "p" found := by
  have hserved (address : String) : Served (heldBytes address)
      ((heldAnswer (.account address .base64 Client.defaultCommitment)).get "value") :=
    ⟨rfl, rfl, 1, rfl⟩
  have hother : Address.ofKey heldKey ≠ "p" := by decide +kernel
  have hholder := hserved (Address.ofKey heldKey)
  rw [heldBytes, if_neg hother] at hholder
  obtain ⟨⟨found, hrun, -, hdata, haddress, hauthority, hlength, hprofile⟩, hattested⟩ :=
    @fetch_upgradeable Int (Client Int) _ heldAccess .itself {} rfl rfl ⟨0, 0, .new {}, []⟩ rfl
      heldAnswer "p" heldKey [1] (List.replicate 8 5) heldAuthority [127, 69] 1 rfl rfl rfl
      (heldAccess_meets _) (heldAccess_meets _) (hserved "p") hholder
  refine ⟨⟨found, hrun, hdata, haddress, hauthority, hlength (by decide), ?_⟩, ?_⟩
  · refine hprofile { branchRatio := 0, loopRatio := 0 } (by decide) ?_
    intro ratio hratio
    have hzero : ratio = 0 := by simpa using hratio
    rw [hzero]
    exact ⟨0, rfl⟩
  · have hsource (address : String) : (heldSource.account address).Settles (Yields fun found =>
        ∀ account, found = some account → account.data = heldBytes address) :=
      settles_succeed fun account hfound => by
        cases hfound
        rfl
    exact hattested heldSource _ hsource "p" _

end ProgramAudit.Program
