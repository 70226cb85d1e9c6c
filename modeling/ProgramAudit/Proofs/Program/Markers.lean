import ProgramAudit.Proofs.Number.DoubleProduct
import ProgramAudit.Proofs.Program.Profile

/-!
Marks in an image. A profile says of each system call, of each format and of minting whether its mark
stands somewhere in the bytes as one contiguous piece, at either end or across other marks. So bytes
around an image hide nothing of it. The mark of a token program begins with the mark of minting, and a
program known to govern is never taken for an exchange or a token program.
-/

namespace ProgramAudit.Program.Profile

open Number

variable {policy : ProfilePolicy} {data part whole : Bytes} {address name : String}
  {authorities : List String} {profile inner outer : Profile}

/-! ### Shares of the instructions -/

theorem exists_wholePart {x : Float} (h : isFinite x = true) : ∃ value, Json.wholePart x = .ok value := by
  unfold isFinite at h
  split at h
  · rename_i hbinary
    exact ⟨_, by rw [Json.wholePart, integerPart?, hbinary]⟩
  · cases h

theorem share_bounded {ratio : Float} (h : Bounded 400 ratio) {count : Nat} (hcount : count < twoTo 60) :
    ∃ value, share count (.real ratio) = .ok value := by
  obtain ⟨x, htimes, hfinite⟩ := times_bounded hcount h
  obtain ⟨value, hvalue⟩ := exists_wholePart hfinite
  exact ⟨value, Result.bind_ok htimes hvalue⟩

theorem bounded_branchRatio : Bounded 400 0.1 :=
  ⟨false, 7205759403792794, -56, by decide +kernel, by decide⟩

theorem bounded_loopRatio : Bounded 400 0.05 :=
  ⟨false, 7205759403792794, -57, by decide +kernel, by decide⟩

/-- Eight bytes are an instruction. -/
def countOf (data : Bytes) : Nat := data.length / 8

theorem estimate_eq (data : Bytes) : estimate {} data.length = .ok (countOf data : Int) := by
  rw [estimate, if_neg (by decide), Int.fdiv_eq_ediv_of_nonneg _ (by decide)]
  rfl

/-! ### Marks -/

theorem contains_iff {marker : Bytes} : Bytes.contains marker data = true ↔ marker <:+: data :=
  isInfix_iff

theorem mem_sortNames {names : List String} : name ∈ sortNames names ↔ name ∈ names :=
  List.mem_mergeSort

/-- A system call is one of an image if its signature stands in it. -/
theorem mem_syscallsOf : name ∈ syscallsOf policy data ↔
    ∃ signature, (name, signature) ∈ policy.signatures ∧ signature <:+: data := by
  simp [syscallsOf, mem_sortNames, contains_iff]

theorem categoryOf_eq_amm (h : categoryOf policy data address = .amm) :
    address ∉ policy.governancePrograms := by
  unfold categoryOf at h
  split at h
  · cases h
  · rename_i hunknown
    simpa using hunknown

theorem categoryOf_eq_nft (h : categoryOf policy data address = .nft) :
    address ∉ policy.governancePrograms ∧ policy.nftMarker <:+: data := by
  unfold categoryOf at h
  split_ifs at h with hknown hexchange htoken
  exact ⟨by simpa using hknown, contains_iff.mp htoken⟩

theorem mintMarker_infix_nftMarker :
    ({} : ProfilePolicy).mintMarker <:+: ({} : ProfilePolicy).nftMarker :=
  ⟨[], Bytes.ofText "NFT", by decide +kernel⟩

/-! ### Profiles of an image -/

/-- What a profile says of an image, where it is not the neutral one. -/
structure Shows (data : Bytes) (address : String) (profile : Profile) : Prop where
  computed : profile.computed = true
  address_eq : profile.address = address
  byteLength : profile.byteLength = data.length
  instructionCount : profile.instructionCount = profile.byteLength / 8
  syscalls : ∃ names, profile.syscalls = some names ∧ ∀ name, name ∈ names ↔
    ∃ signature, (name, signature) ∈ ({} : ProfilePolicy).signatures ∧ signature <:+: data
  usesBorsh : profile.usesBorsh = true ↔ Bytes.ofText "borsh" <:+: data
  hiddenMint : profile.hiddenMint = true ↔ Bytes.ofText "mint" <:+: data
  mints : profile.category = .nft → profile.hiddenMint = true
  ungoverned : profile.category = .amm ∨ profile.category = .nft →
    profile.address ∉ ({} : ProfilePolicy).governancePrograms

theorem exists_compute (h : data.length < 2 ^ 63) (address : String) (authorities : List String) :
    ∃ branches loops, compute {} data address authorities = .ok {
      address
      byteLength := data.length
      instructionCount := countOf data
      syscalls := some (syscallsOf {} data)
      category := categoryOf {} data address
      controlFlow := { branches, loops }
      reentrancyRisk := some (if 1000 < (countOf data : Int) then .moderate else .low)
      usesBorsh := Bytes.contains (Bytes.ofText "borsh") data
      hiddenMint := Bytes.contains (Bytes.ofText "mint") data
      candidateAuthorities := some authorities } := by
  have hcount : countOf data < twoTo 60 := by
    have hpower : twoTo 60 * 8 = 2 ^ 63 := by decide +kernel
    exact Nat.div_lt_of_lt_mul (by omega)
  obtain ⟨branches, hbranches⟩ := share_bounded bounded_branchRatio hcount
  obtain ⟨loops, hloops⟩ := share_bounded bounded_loopRatio hcount
  simp only [compute, Result.bind_eq_ok, Result.pure_eq_ok]
  exact ⟨branches, loops, _, estimate_eq data, _, hbranches, _, hloops, rfl⟩

theorem shows_ofData (h : data.length < 2 ^ 63) (address : String) (authorities : List String) :
    (ofData {} (some data) address authorities).Shows data address := by
  obtain ⟨branches, loops, hcompute⟩ := exists_compute h address (candidates authorities)
  rw [ofData, compute?, hcompute]
  exact {
    computed := rfl
    address_eq := rfl
    byteLength := rfl
    instructionCount := rfl
    syscalls := ⟨_, rfl, fun name => mem_syscallsOf⟩
    usesBorsh := contains_iff
    hiddenMint := contains_iff
    mints := fun hcategory =>
      contains_iff.mpr (mintMarker_infix_nftMarker.trans (categoryOf_eq_nft hcategory).2)
    ungoverned := fun hcategory =>
      hcategory.elim categoryOf_eq_amm fun hcategory => (categoryOf_eq_nft hcategory).1 }

/-! ### Images inside of images -/

/-- One profile reports all that another one does, and no less of it. -/
structure Covers (outer inner : Profile) : Prop where
  syscalls : ∀ names, inner.syscalls = some names →
    ∃ names', outer.syscalls = some names' ∧ names ⊆ names'
  usesBorsh : inner.usesBorsh = true → outer.usesBorsh = true
  hiddenMint : inner.hiddenMint = true → outer.hiddenMint = true
  instructionCount : inner.instructionCount ≤ outer.instructionCount
  reentrancyRisk : ∃ risk risk', inner.reentrancyRisk = some risk ∧
    outer.reentrancyRisk = some risk' ∧ risk.rank ≤ risk'.rank

theorem risk_rank_le {count count' : Int} (h : count ≤ count') :
    (if 1000 < count then Severity.moderate else .low).rank ≤
      (if 1000 < count' then Severity.moderate else .low).rank := by
  split_ifs <;> first | decide | omega

theorem Shows.covers (hinner : inner.Shows part address) (houter : outer.Shows whole address)
    (hbuilt : inner.Built authorities) (hbuilt' : outer.Built authorities) (h : part <:+: whole) :
    outer.Covers inner := by
  have hcount : inner.instructionCount ≤ outer.instructionCount := by
    rw [hinner.instructionCount, hinner.byteLength, houter.instructionCount, houter.byteLength]
    exact Int.ediv_le_ediv (by decide) (Int.ofNat_le.mpr h.length_le)
  obtain ⟨names, hnames, hmem⟩ := hinner.syscalls
  obtain ⟨names', hnames', hmem'⟩ := houter.syscalls
  exact {
    syscalls := fun found hfound => by
      cases hnames.symm.trans hfound
      refine ⟨names', hnames', fun name hname => ?_⟩
      obtain ⟨signature, hsignature, hstands⟩ := (hmem name).mp hname
      exact (hmem' name).mpr ⟨signature, hsignature, hstands.trans h⟩
    usesBorsh := fun hborsh => houter.usesBorsh.mpr ((hinner.usesBorsh.mp hborsh).trans h)
    hiddenMint := fun hmint => houter.hiddenMint.mpr ((hinner.hiddenMint.mp hmint).trans h)
    instructionCount := hcount
    reentrancyRisk := ⟨_, _, hbuilt.risk, hbuilt'.risk, risk_rank_le hcount⟩ }

/-- **Marks are found wherever they stand.** No image of less than `2 ^ 63` bytes falls back on the
neutral profile. Its system calls and its flags are those whose marks stand in it, an instruction is
counted for every eight bytes, a token program is one that mints, and no exchange and no token program
is known to govern. The profile of an image with bytes before and behind reports all that the profile of
the image does, with as many instructions and a reentrancy risk as high at least. -/
theorem marks_found {before data behind : Bytes} (h : (before ++ data ++ behind).length < 2 ^ 63)
    (address : String) (authorities : List String) :
    let inner := ofData {} (some data) address authorities
    let outer := ofData {} (some (before ++ data ++ behind)) address authorities
    inner.Shows data address ∧ outer.Shows (before ++ data ++ behind) address ∧
      outer.Covers inner := by
  intro inner outer
  have hinside : data <:+: before ++ data ++ behind := ⟨before, behind, rfl⟩
  have hinner : inner.Shows data address :=
    shows_ofData (hinside.length_le.trans_lt h) address authorities
  have houter : outer.Shows (before ++ data ++ behind) address :=
    shows_ofData h address authorities
  exact ⟨hinner, houter,
    hinner.covers houter (built_ofData _ _ _) (built_ofData _ _ _) hinside⟩

theorem marks_found_token :
    let token := Bytes.ofText "mintNFT" ++ [1, 0, 0]
    let inner := ofData {} (some token) "p" []
    let outer := ofData {} (some ([3] ++ token ++ [0])) "p" []
    ([3] ++ token ++ [0]).length < 2 ^ 63 ∧ outer.category = .nft ∧ outer.hiddenMint = true ∧
      outer.Covers inner := by
  intro token inner outer
  have hlength : ([3] ++ token ++ [0]).length < 2 ^ 63 := by decide +kernel
  have hcategory : outer.category = .nft := by decide +kernel
  obtain ⟨-, houter, hcovers⟩ := marks_found hlength "p" []
  exact ⟨hlength, hcategory, houter.mints hcategory, hcovers⟩

end ProgramAudit.Program.Profile
