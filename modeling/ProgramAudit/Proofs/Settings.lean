import ProgramAudit.Settings

/-!
What is shown of the endpoint of an audit. An address is shown up to its first key mark and no
further, so settings that were made from different keys show the same.
-/

namespace ProgramAudit

/-! ### The first place of a run -/

section Runs

variable {α : Type} {run shown rest list : List α}

/-- The run stands behind `shown` for the first time: it does not end before its last item there. -/
def IsFirstBehind (shown run : List α) : Prop := ¬run <:+: shown ++ run.dropLast

theorem isFirstBehind_nil (h : run ≠ []) : IsFirstBehind [] run := by
  intro hstands
  have hlength := hstands.length_le
  have hpos := List.length_pos_iff.mpr h
  simp only [List.nil_append, List.length_dropLast] at hlength
  omega

theorem isFirstBehind_cons {item : α} : IsFirstBehind (item :: shown) run ↔
    ¬run <+: item :: (shown ++ run.dropLast) ∧ IsFirstBehind shown run := by
  unfold IsFirstBehind
  rw [List.cons_append, List.infix_cons_iff, not_or]

/-- Whether a run starts at an item before its first place does not depend on what follows. -/
theorem prefix_cons_iff {item : α} (h : run ≠ []) :
    run <+: item :: (shown ++ run ++ rest) ↔ run <+: item :: (shown ++ run.dropLast) := by
  have hlength : run.length ≤ (item :: (shown ++ run.dropLast)).length := by
    have hpos := List.length_pos_iff.mpr h
    simp only [List.length_cons, List.length_append, List.length_dropLast]
    omega
  have hextends : item :: (shown ++ run.dropLast) <+: item :: (shown ++ run ++ rest) := by
    rw [List.append_assoc, List.cons_prefix_cons]
    refine ⟨rfl, (List.prefix_append_right_inj shown).mpr ?_⟩
    exact (List.dropLast_prefix run).trans (List.prefix_append run rest)
  constructor
  · intro hstarts
    exact List.prefix_of_prefix_length_le hstarts hextends hlength
  · intro hstarts
    exact hstarts.trans hextends

variable [BEq α] [LawfulBEq α]

theorem before?_append (h : run ≠ []) (hfirst : IsFirstBehind shown run) :
    before? run (shown ++ run ++ rest) = some shown := by
  induction shown with
  | nil =>
      have hstarts : run.isPrefixOf (run ++ rest) = true :=
        List.isPrefixOf_iff_prefix.mpr (List.prefix_append run rest)
      obtain ⟨item, tail, rfl⟩ := List.exists_cons_of_ne_nil h
      rw [List.nil_append, List.cons_append, before?, ← List.cons_append, if_pos hstarts]
  | cons item shown ih =>
      obtain ⟨hitem, hshown⟩ := isFirstBehind_cons.mp hfirst
      have hnot : ¬run.isPrefixOf (item :: (shown ++ run ++ rest)) = true := by
        rw [List.isPrefixOf_iff_prefix, prefix_cons_iff h]
        exact hitem
      rw [List.cons_append, List.cons_append, before?, if_neg hnot, ih hshown]
      rfl

omit [BEq α] [LawfulBEq α] in
/-- A run that stands somewhere stands somewhere for the first time. -/
theorem exists_isFirstBehind (h : run ≠ []) (hstands : run <:+: list) :
    ∃ shown rest, list = shown ++ run ++ rest ∧ IsFirstBehind shown run := by
  induction list with
  | nil => exact absurd (List.infix_nil.mp hstands) h
  | cons item list ih =>
      by_cases hstarts : run <+: item :: list
      · obtain ⟨rest, hrest⟩ := hstarts
        exact ⟨[], rest, hrest.symm, isFirstBehind_nil h⟩
      · have hlater : run <:+: list := (List.infix_cons_iff.mp hstands).resolve_left hstarts
        obtain ⟨shown, rest, rfl, hfirst⟩ := ih hlater
        exact ⟨item :: shown, rest, rfl,
          isFirstBehind_cons.mpr ⟨mt (prefix_cons_iff h).mpr hstarts, hfirst⟩⟩

end Runs

/-! ### Environments that differ in one variable -/

namespace Environment

/-- Every variable but one has the same value in both environments. -/
def SameBut (name : String) (left right : Environment) : Prop :=
  ∀ other, other ≠ name → Table.get? other left = Table.get? other right

section SameBut

variable {hidden name : String} {left right : Environment}

theorem SameBut.value?_eq (h : SameBut hidden left right) (hname : name ≠ hidden) :
    left.value? name = right.value? name := by
  unfold value?
  rw [h name hname]

theorem SameBut.stripped?_eq (h : SameBut hidden left right) (hname : name ≠ hidden) :
    left.stripped? name = right.stripped? name := by
  unfold stripped?
  rw [h.value?_eq hname]

theorem SameBut.first?_eq {names : List String} (h : SameBut hidden left right)
    (hnames : ∀ name ∈ names, name ≠ hidden) : left.first? names = right.first? names := by
  induction names with
  | nil => rfl
  | cons name names ih =>
      have hrest : left.first? names = right.first? names :=
        ih fun other hother => hnames other (List.mem_cons_of_mem name hother)
      unfold first? at hrest ⊢
      rw [List.findSome?_cons, List.findSome?_cons, hrest,
        h.value?_eq (hnames name List.mem_cons_self)]

theorem SameBut.realOr_eq (h : SameBut hidden left right) (hname : name ≠ hidden)
    (fallback : Float) : left.realOr name fallback = right.realOr name fallback := by
  unfold realOr
  rw [h.stripped?_eq hname]

theorem SameBut.integerOr_eq (h : SameBut hidden left right) (hname : name ≠ hidden)
    (fallback : Int) : left.integerOr name fallback = right.integerOr name fallback := by
  unfold integerOr
  rw [h.stripped?_eq hname]

end SameBut

theorem stripped?_of_unset {name : String} {environment : Environment}
    (h : Table.get? name environment = none) : environment.stripped? name = none := by
  unfold stripped? value?
  rw [h]
  rfl

theorem stripped?_of_text {name value : String} {environment : Environment}
    (h : Table.get? name environment = some value) (hvalue : Text.strip value ≠ "") :
    environment.stripped? name = some (Text.strip value) := by
  have hne : value ≠ "" := by
    rintro rfl
    exact hvalue rfl
  have hpresent : environment.value? name = some value := by simp [value?, h, hne]
  rw [stripped?, hpresent]
  simp [hvalue]

end Environment

namespace Settings

open Environment

/-! ### Masked addresses -/

theorem maskKey_append {shown : String} (hfirst : IsFirstBehind shown.toList keyMark.toList)
    (hidden : String) : maskKey (shown ++ keyMark ++ hidden) = shown ++ keyMark ++ "***" := by
  have hbefore : before? keyMark.toList (shown ++ keyMark ++ hidden).toList = some shown.toList := by
    rw [String.toList_append, String.toList_append]
    exact before?_append (by decide) hfirst
  rw [maskKey, hbefore]
  simp only [String.ofList_toList]

theorem exists_marked {url : String} (h : keyMark.toList <:+: url.toList) : ∃ shown hidden : String,
    url = shown ++ keyMark ++ hidden ∧ IsFirstBehind shown.toList keyMark.toList := by
  obtain ⟨shown, hidden, hurl, hfirst⟩ := exists_isFirstBehind (by decide) h
  refine ⟨String.ofList shown, String.ofList hidden, ?_, by rwa [String.toList_ofList]⟩
  apply String.toList_injective
  rw [hurl]
  simp only [String.toList_append, String.toList_ofList]

/-! ### Settings that a key gives -/

theorem networkOf_cases (environment : Environment) :
    networkOf environment = "devnet" ∨ networkOf environment = "mainnet" := by
  unfold networkOf
  split
  · split
    · exact Or.inl rfl
    · exact Or.inr rfl
  · exact Or.inr rfl

/-- The address of a network with nothing of the key in it. -/
def maskedNetwork (network : String) : String :=
  "https://" ++ network ++ ".helius-rpc.com/?" ++ keyMark ++ "***"

theorem maskKey_keyedEndpoint {network : String} (hnetwork : network = "devnet" ∨ network = "mainnet")
    (key : String) : maskKey (keyedEndpoint network key) = maskedNetwork network := by
  have hmark : keyedEndpoint network key =
      "https://" ++ network ++ ".helius-rpc.com/?" ++ keyMark ++ key := by
    have hend : ".helius-rpc.com/?api-key=" = ".helius-rpc.com/?" ++ keyMark := rfl
    rw [keyedEndpoint, hend, ← String.append_assoc]
  rw [hmark]
  apply maskKey_append
  unfold IsFirstBehind
  rw [← isInfix_iff]
  rcases hnetwork with rfl | rfl <;> decide

section Keyed

variable {environment environment' : Environment} {key : String}

theorem networkOf_eq (h : SameBut "HELIUS_API_KEY" environment environment') :
    networkOf environment = networkOf environment' := by
  have hnames : ∀ name ∈ ["SOLANA_NETWORK", "SOLANA_CLUSTER"], name ≠ "HELIUS_API_KEY" := by decide
  unfold networkOf
  rw [h.first?_eq hnames]

theorem endpointOf_keyed (hurl : Table.get? "SOLANA_RPC_URL" environment = none)
    (hkey : Table.get? "HELIUS_API_KEY" environment = some key) (hnonblank : Text.strip key ≠ "") :
    endpointOf environment = .ok (keyedEndpoint (networkOf environment) (Text.strip key)) := by
  unfold endpointOf
  rw [stripped?_of_unset hurl, stripped?_of_text hkey hnonblank]

/-- The endpoint is the only one of the settings that a key is part of. -/
theorem ofEnvironment_endpoint (h : SameBut "HELIUS_API_KEY" environment environment')
    {endpoint endpoint' : String} (hendpoint : endpointOf environment = .ok endpoint)
    (hendpoint' : endpointOf environment' = .ok endpoint') :
    ofEnvironment environment' =
      (ofEnvironment environment).map fun settings => { settings with endpoint := endpoint' } := by
  unfold ofEnvironment
  rw [hendpoint, hendpoint', networkOf_eq h, h.realOr_eq (by decide), h.integerOr_eq (by decide),
    h.stripped?_eq (by decide), h.realOr_eq (by decide), h.realOr_eq (by decide)]
  cases environment'.realOr "SOLPROOF_STAGE_TIMEOUT_SEC" 5.0 with
  | error failure => rfl
  | ok stageTimeout =>
      cases environment'.integerOr "SOLPROOF_TX_LIMIT" 25 with
      | error failure => rfl
      | ok limit =>
          cases environment'.realOr "SOLPROOF_CACHE_TTL_SEC" 600.0 with
          | error failure => rfl
          | ok lifetime =>
              cases environment'.realOr "SOLPROOF_SOL_PRICE_USD" 150.0 with
              | error failure => rfl
              | ok price => rfl

theorem endpoint_of_ofEnvironment {settings : Settings} {endpoint : String}
    (h : ofEnvironment environment = .ok settings)
    (hendpoint : endpointOf environment = .ok endpoint) : settings.endpoint = endpoint := by
  have hsame : SameBut "HELIUS_API_KEY" environment environment := fun _ _ => rfl
  have hmap := ofEnvironment_endpoint hsame hendpoint hendpoint
  rw [h] at hmap
  exact congrArg Settings.endpoint (Except.ok.inj hmap)

theorem maskedEndpoint_keyed {settings : Settings}
    (hurl : Table.get? "SOLANA_RPC_URL" environment = none)
    (hkey : Table.get? "HELIUS_API_KEY" environment = some key) (hnonblank : Text.strip key ≠ "")
    (hsettings : ofEnvironment environment = .ok settings) :
    settings.maskedEndpoint = maskedNetwork (networkOf environment) := by
  rw [maskedEndpoint,
    endpoint_of_ofEnvironment hsettings (endpointOf_keyed hurl hkey hnonblank)]
  exact maskKey_keyedEndpoint (networkOf_cases environment) (Text.strip key)

end Keyed

/-- **No key is shown.** Environments that differ in their keys alone, whatever these are, lead to
settings that show the same endpoint, or to the same failure; and of an address that holds a key mark
only what stands before the first mark is shown, whatever follows it. -/
theorem key_masked :
    (∀ (environment environment' : Environment) (key key' : String),
      SameBut "HELIUS_API_KEY" environment environment' →
      Table.get? "SOLANA_RPC_URL" environment = none →
      Table.get? "HELIUS_API_KEY" environment = some key → Text.strip key ≠ "" →
      Table.get? "HELIUS_API_KEY" environment' = some key' → Text.strip key' ≠ "" →
      (ofEnvironment environment).map maskedEndpoint =
        (ofEnvironment environment').map maskedEndpoint ∧
      ∀ settings, ofEnvironment environment = .ok settings →
        settings.maskedEndpoint = maskedNetwork (networkOf environment)) ∧
    ∀ url : String, keyMark.toList <:+: url.toList → ∃ shown hidden : String,
      url = shown ++ keyMark ++ hidden ∧
      ¬keyMark.toList <:+: shown.toList ++ keyMark.toList.dropLast ∧
      ∀ other, maskKey (shown ++ keyMark ++ other) = shown ++ keyMark ++ "***" := by
  constructor
  · intro environment environment' key key' hsame hurl hkey hnonblank hkey' hnonblank'
    have hurl' : Table.get? "SOLANA_RPC_URL" environment' = none :=
      (hsame "SOLANA_RPC_URL" (by decide)).symm.trans hurl
    have hmasked {settings : Settings} (hsettings : ofEnvironment environment = .ok settings) :=
      maskedEndpoint_keyed hurl hkey hnonblank hsettings
    have hendpoint' := endpointOf_keyed hurl' hkey' hnonblank'
    refine ⟨?_, fun settings hsettings => hmasked hsettings⟩
    rw [ofEnvironment_endpoint hsame (endpointOf_keyed hurl hkey hnonblank) hendpoint']
    cases hsettings : ofEnvironment environment with
    | error failure => rfl
    | ok settings =>
        refine congrArg Except.ok ((hmasked hsettings).trans ?_)
        rw [networkOf_eq hsame]
        exact (maskKey_keyedEndpoint (networkOf_cases environment') (Text.strip key')).symm
  · intro url hmarked
    obtain ⟨shown, hidden, hurl, hfirst⟩ := exists_marked hmarked
    exact ⟨shown, hidden, hurl, hfirst, maskKey_append hfirst⟩

/-- Two keys on the test network, one with a brace and one with a mark, and an address with two
marks. -/
theorem key_masked_braced :
    let environment : Environment := [("HELIUS_API_KEY", "k\x7b"), ("SOLANA_NETWORK", "devnet")]
    let environment' : Environment :=
      [("SOLANA_NETWORK", "devnet"), ("HELIUS_API_KEY", " api-key=2\n")]
    (SameBut "HELIUS_API_KEY" environment environment' ∧
      Table.get? "SOLANA_RPC_URL" environment = none ∧
      Table.get? "HELIUS_API_KEY" environment = some "k\x7b" ∧ Text.strip "k\x7b" ≠ "" ∧
      Table.get? "HELIUS_API_KEY" environment' = some " api-key=2\n" ∧
      Text.strip " api-key=2\n" ≠ "" ∧
      keyMark.toList <:+: "https://a.test/?api-key=b&api-key=c".toList) ∧
    (ofEnvironment environment).map maskedEndpoint =
      (ofEnvironment environment').map maskedEndpoint ∧
    ∃ shown hidden : String, "https://a.test/?api-key=b&api-key=c" = shown ++ keyMark ++ hidden ∧
      ¬keyMark.toList <:+: shown.toList ++ keyMark.toList.dropLast ∧
      maskKey "https://a.test/?api-key=b&api-key=c" = shown ++ keyMark ++ "***" := by
  intro environment environment'
  have hsame : SameBut "HELIUS_API_KEY" environment environment' := by
    intro name hname
    simp [environment, environment', Table.get?, Ne.symm hname]
  have hmarked : keyMark.toList <:+: "https://a.test/?api-key=b&api-key=c".toList := by
    rw [← isInfix_iff]
    decide
  have hnonblank : Text.strip "k\x7b" ≠ "" := by decide
  have hnonblank' : Text.strip " api-key=2\n" ≠ "" := by decide
  obtain ⟨hkeys, haddresses⟩ := key_masked
  obtain ⟨halike, -⟩ := hkeys environment environment' "k\x7b" " api-key=2\n" hsame rfl rfl hnonblank
    rfl hnonblank'
  obtain ⟨shown, hidden, hurl, hfirst, hmask⟩ := haddresses _ hmarked
  exact ⟨⟨hsame, rfl, rfl, hnonblank, rfl, hnonblank', hmarked⟩, halike, shown, hidden, hurl, hfirst,
    hurl ▸ hmask hidden⟩

end Settings

end ProgramAudit
