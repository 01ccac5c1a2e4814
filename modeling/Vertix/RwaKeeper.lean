import Vertix.TypedStore
import Vertix.CoinLedger
import Vertix.RwaKeys
import Mathlib.Tactic

/-!
# The rwa keeper

Store access of `x/rwa`: parameters, asset records with their issuer index,
membership lists, and the transfer policy which the bank consults before every
send.
-/

namespace Vertix
namespace Rwa

inductive RwaValue where
  | asset (record : AssetRecord)
  | presence
  | params (params : RWAParams)
  deriving DecidableEq

def RwaKey.Admits : RwaKey → RwaValue → Prop
  | .asset id, .asset rec => rec.assetId = id
  | .issuerIndex _ _, .presence => True
  | .member _ _ _, .presence => True
  | .params, .params _ => True
  | _, _ => False

theorem RwaKey.admits_asset (rec : AssetRecord) :
    (RwaKey.asset rec.assetId).Admits (.asset rec) := rfl

theorem RwaKey.admits_issuerIndex (issuer : Address) (id : String) :
    (RwaKey.issuerIndex issuer id).Admits .presence := trivial

theorem RwaKey.admits_member (list : MemberList) (id : KeyId)
    (addr : Address) : (RwaKey.member list id addr).Admits .presence := trivial

theorem RwaKey.admits_params (params : RWAParams) :
    RwaKey.params.Admits (.params params) := trivial

def rwaCodec : KeyCodec RwaKey := ⟨RwaKey.encode, RwaKey.encode_injective⟩

abbrev RwaStore := TypedStore rwaCodec RwaKey.Admits

/-! ## Parameters -/

def getParams (store : RwaStore) : RWAParams :=
  match store.get .params with
  | some (.params params) => params
  | _ => defaultParams

def writeParams (store : RwaStore) (params : RWAParams) : RwaStore :=
  store.set .params (.params params) (RwaKey.admits_params params)

def setParams (sdk : Sdk) (store : RwaStore) (params : RWAParams) :
    Except SdkError RwaStore := do
  params.validate sdk
  return writeParams store params

theorem get_writeParams (store : RwaStore) (params : RWAParams)
    (key : RwaKey) :
    (writeParams store params).get key =
      if RwaKey.params = key then some (.params params) else store.get key :=
  TypedStore.get_set store .params key _ _

theorem getParams_congr {store store' : RwaStore}
    (hget : store'.get .params = store.get .params) :
    getParams store' = getParams store := by
  unfold getParams
  rw [hget]

@[simp] theorem getParams_writeParams
    (store : RwaStore) (params : RWAParams) :
    getParams (writeParams store params) = params := by
  simp [getParams, get_writeParams]

theorem setParams_eq_ok_iff
    {sdk : Sdk} {store store' : RwaStore} {params : RWAParams} :
    setParams sdk store params = .ok store' ↔
      params.Valid sdk ∧ writeParams store params = store' := by
  simp only [setParams, bind_eq_ok_iff, pure_eq_ok_iff,
    RWAParams.validate_eq_ok_iff, exists_const]

/-! ## Asset records -/

def getAsset (store : RwaStore) (assetID : String) : Option AssetRecord :=
  match store.get (.asset assetID) with
  | some (.asset rec) => some rec
  | _ => none

/-- The record together with its index entry. -/
def writeAsset (store : RwaStore) (issuer : Address) (rec : AssetRecord) :
    RwaStore :=
  (store.set (.asset rec.assetId) (.asset rec) (RwaKey.admits_asset rec)).set
    (.issuerIndex issuer rec.assetId) .presence
    (RwaKey.admits_issuerIndex issuer rec.assetId)

/-- The record is written before the issuer is decoded; a failure is reverted
with the transaction. -/
def setAsset (sdk : Sdk) (store : RwaStore) (rec : AssetRecord) :
    Except SdkError RwaStore := do
  let issuer ← plainError (sdk.accAddressFromBech32 rec.issuer)
  return writeAsset store issuer rec

def iterateAssets (store : RwaStore) : List AssetRecord :=
  (store.prefixScan keyPrefixAsset).filterMap fun entry =>
    match entry.2 with
    | .asset rec => some rec
    | _ => none

theorem get_writeAsset (store : RwaStore) (issuer : Address)
    (rec : AssetRecord) (key : RwaKey) :
    (writeAsset store issuer rec).get key =
      if RwaKey.issuerIndex issuer rec.assetId = key then some .presence
      else if RwaKey.asset rec.assetId = key then some (.asset rec)
      else store.get key := by
  rw [writeAsset, TypedStore.get_set, TypedStore.get_set]

theorem getAsset_eq_some_iff
    {store : RwaStore} {assetID : String} {rec : AssetRecord} :
    getAsset store assetID = some rec ↔
      store.get (.asset assetID) = some (.asset rec) := by
  unfold getAsset
  cases hget : store.get (.asset assetID) with
  | none => simp
  | some value =>
      cases value with
      | asset rec' => simp
      | presence => simp
      | params params => simp

theorem getAsset_eq_none_iff {store : RwaStore} {assetID : String} :
    getAsset store assetID = none ↔ store.get (.asset assetID) = none := by
  cases hget : store.get (.asset assetID) with
  | none => simp [getAsset, hget]
  | some value =>
      have hadmits := TypedStore.admits_of_get hget
      cases value with
      | asset rec => simp [getAsset, hget]
      | presence => simp [RwaKey.Admits] at hadmits
      | params params => simp [RwaKey.Admits] at hadmits

theorem get_asset (store : RwaStore) (assetID : String) :
    store.get (.asset assetID) = (getAsset store assetID).map .asset := by
  cases hget : getAsset store assetID with
  | none => exact getAsset_eq_none_iff.mp hget
  | some rec => exact getAsset_eq_some_iff.mp hget

theorem getAsset_assetId
    {store : RwaStore} {assetID : String} {rec : AssetRecord}
    (hget : getAsset store assetID = some rec) : rec.assetId = assetID := by
  have hadmits := TypedStore.admits_of_get (getAsset_eq_some_iff.mp hget)
  exact hadmits

theorem getAsset_congr {store store' : RwaStore} {assetID : String}
    (hget : store'.get (.asset assetID) = store.get (.asset assetID)) :
    getAsset store' assetID = getAsset store assetID := by
  unfold getAsset
  rw [hget]

@[simp] theorem getAsset_writeParams
    (store : RwaStore) (params : RWAParams) (assetID : String) :
    getAsset (writeParams store params) assetID = getAsset store assetID :=
  getAsset_congr (by simp [get_writeParams])

@[simp] theorem getAsset_empty (assetID : String) :
    getAsset TypedStore.empty assetID = none := rfl

theorem getAsset_writeAsset (store : RwaStore) (issuer : Address)
    (rec : AssetRecord) (assetID : String) :
    getAsset (writeAsset store issuer rec) assetID =
      if rec.assetId = assetID then some rec else getAsset store assetID := by
  unfold getAsset
  rw [get_writeAsset]
  by_cases hid : rec.assetId = assetID <;> simp [hid]

@[simp] theorem getParams_writeAsset (store : RwaStore) (issuer : Address)
    (rec : AssetRecord) :
    getParams (writeAsset store issuer rec) = getParams store :=
  getParams_congr (by simp [get_writeAsset])

theorem setAsset_eq_ok_iff
    {sdk : Sdk} {store store' : RwaStore} {rec : AssetRecord} :
    setAsset sdk store rec = .ok store' ↔
      ∃ issuer, sdk.accAddressFromBech32 rec.issuer = .ok issuer ∧
        writeAsset store issuer rec = store' := by
  simp only [setAsset, bind_eq_ok_iff, plainError_eq_ok_iff, pure_eq_ok_iff]

/-- The iteration visits each stored record once, in the order of the ids'
bytes. -/
theorem mem_iterateAssets_and_sorted (store : RwaStore) :
    (∀ rec, rec ∈ iterateAssets store ↔
        getAsset store rec.assetId = some rec) ∧
      (iterateAssets store).Pairwise
        fun a b => strBytes a.assetId < strBytes b.assetId := by
  obtain ⟨records, hscan, -, hmem⟩ := TypedStore.exists_scanned keyPrefixAsset
    (fun rec : AssetRecord => .asset rec.assetId)
    (fun rec => .asset rec)
    (fun rec => (assetPrefix_prefix_iff _).mpr ⟨_, rfl⟩)
    (by
      intro key stored hstarts hadmits
      rcases (assetPrefix_prefix_iff key).mp hstarts with ⟨id, rfl⟩
      cases stored with
      | asset rec =>
          have hid : rec.assetId = id := hadmits
          exact ⟨rec, by rw [hid], rfl⟩
      | presence => simp [RwaKey.Admits] at hadmits
      | params params => simp [RwaKey.Admits] at hadmits)
    (fun left right _ hvalue => RwaValue.asset.inj hvalue)
    store
  have hrecords : iterateAssets store = records := by
    unfold iterateAssets
    rw [hscan, List.filterMap_map]
    exact List.filterMap_some
  have hsorted := store.prefixScan_sorted keyPrefixAsset
  rw [hscan, List.pairwise_map] at hsorted
  rw [hrecords]
  constructor
  · intro rec
    rw [hmem, getAsset_eq_some_iff]
  · apply hsorted.imp
    intro a b hlt
    simpa [rwaCodec, RwaKey.encode, assetKey, keyPrefixAsset] using hlt

theorem mem_iterateAssets {store : RwaStore} {rec : AssetRecord} :
    rec ∈ iterateAssets store ↔ getAsset store rec.assetId = some rec :=
  (mem_iterateAssets_and_sorted store).1 rec

theorem iterateAssets_nodup (store : RwaStore) :
    (iterateAssets store).Nodup := by
  apply (mem_iterateAssets_and_sorted store).2.imp
  rintro a b hlt rfl
  exact lt_irrefl _ hlt

/-- The records of the store and the record under one id apart. -/
theorem iterateAssets_perm (store : RwaStore) (assetID : String) :
    (iterateAssets store).Perm
      ((getAsset store assetID).toList ++
        (iterateAssets store).filter fun rec => rec.assetId ≠ assetID) := by
  apply (List.perm_ext_iff_of_nodup (iterateAssets_nodup store) ?_).mpr
  · intro rec
    simp only [List.mem_append, Option.mem_toList, List.mem_filter,
      mem_iterateAssets, ne_eq, decide_eq_true_eq]
    by_cases hid : rec.assetId = assetID
    · subst hid
      simp
    · simp only [hid, not_false_eq_true, and_true, iff_or_self]
      intro hget
      exact absurd (getAsset_assetId hget) hid
  · apply List.Nodup.append
    · cases getAsset store assetID <;> simp
    · exact (iterateAssets_nodup store).filter _
    · intro rec hfound hrest
      simp only [Option.mem_toList] at hfound
      simp only [List.mem_filter, ne_eq, decide_eq_true_eq] at hrest
      exact hrest.2 (getAsset_assetId hfound)

/-- Writing a record changes a sum over all records by the new term and the
term it replaces. -/
theorem sum_writeAsset (f : AssetRecord → ℕ) (store : RwaStore)
    (issuer : Address) (rec : AssetRecord) :
    ((iterateAssets (writeAsset store issuer rec)).map f).sum +
        ((getAsset store rec.assetId).map f).getD 0 =
      ((iterateAssets store).map f).sum + f rec := by
  have hothers :
      ((iterateAssets (writeAsset store issuer rec)).filter
        fun other => other.assetId ≠ rec.assetId).Perm
      ((iterateAssets store).filter
        fun other => other.assetId ≠ rec.assetId) := by
    apply (List.perm_ext_iff_of_nodup ((iterateAssets_nodup _).filter _)
      ((iterateAssets_nodup _).filter _)).mpr
    intro other
    simp only [List.mem_filter, mem_iterateAssets, ne_eq, decide_eq_true_eq]
    by_cases hid : other.assetId = rec.assetId
    · simp [hid]
    · rw [getAsset_writeAsset, if_neg (Ne.symm hid)]
  have hnew := ((iterateAssets_perm (writeAsset store issuer rec)
    rec.assetId).map f).sum_eq
  have hold := ((iterateAssets_perm store rec.assetId).map f).sum_eq
  have hrest := (hothers.map f).sum_eq
  have hself : getAsset (writeAsset store issuer rec) rec.assetId = some rec := by
    rw [getAsset_writeAsset, if_pos rfl]
  rw [hself] at hnew
  simp only [Option.toList_some, List.map_append, List.map_cons, List.map_nil,
    List.sum_append, List.sum_cons, List.sum_nil, Nat.add_zero] at hnew hold
  have hfound : (((getAsset store rec.assetId).toList).map f).sum =
      ((getAsset store rec.assetId).map f).getD 0 := by
    cases getAsset store rec.assetId <;> simp
  omega

theorem iterateAssets_congr {store store' : RwaStore}
    (hget : ∀ assetID, store'.get (.asset assetID) =
      store.get (.asset assetID)) :
    iterateAssets store' = iterateAssets store := by
  unfold iterateAssets
  rw [TypedStore.prefixScan_congr]
  intro key hstarts
  rcases (assetPrefix_prefix_iff key).mp hstarts with ⟨assetID, rfl⟩
  exact hget assetID

/-! ## Membership lists -/

def addMember (list : MemberList) (store : RwaStore) (assetID : String)
    (addr : Address) : RwaStore :=
  match keyId? assetID with
  | some id =>
      store.set (.member list id addr) .presence
        (RwaKey.admits_member list id addr)
  | none => store

def delMember (list : MemberList) (store : RwaStore) (assetID : String)
    (addr : Address) : RwaStore :=
  match keyId? assetID with
  | some id => store.delete (.member list id addr)
  | none => store

def isMember (list : MemberList) (store : RwaStore) (assetID : String)
    (addr : Address) : Bool :=
  match keyId? assetID with
  | some id => (store.get (.member list id addr)).isSome
  | none => false

def addAllowlist := addMember .allow
def delAllowlist := delMember .allow
def addDenylist := addMember .deny
def delDenylist := delMember .deny
def isAllowlisted := isMember .allow
def isDenylisted := isMember .deny

/-- The address bytes read back from the keys below a membership prefix. -/
def iterateMembers (store : RwaStore) (pre : Bytes) : List Bytes :=
  (store.prefixScan pre).filterMap fun entry =>
    match entry.1 with
    | _ :: idLen :: rest =>
        if rest.length < idLen.toNat then none
        else some (rest.drop idLen.toNat)
    | _ => none

theorem get_addMember_of_ne (list : MemberList) (store : RwaStore)
    (assetID : String) (addr : Address) {key : RwaKey}
    (hkey : ∀ id, key ≠ .member list id addr) :
    (addMember list store assetID addr).get key = store.get key := by
  unfold addMember
  cases keyId? assetID with
  | none => rfl
  | some id => exact TypedStore.get_set_of_ne store _ (Ne.symm (hkey id))

theorem get_delMember_of_ne (list : MemberList) (store : RwaStore)
    (assetID : String) (addr : Address) {key : RwaKey}
    (hkey : ∀ id, key ≠ .member list id addr) :
    (delMember list store assetID addr).get key = store.get key := by
  unfold delMember
  cases keyId? assetID with
  | none => rfl
  | some id =>
      simp only
      rw [TypedStore.get_delete, if_neg (Ne.symm (hkey id))]

theorem isMember_congr {list : MemberList} {store store' : RwaStore}
    {assetID : String} {addr : Address}
    (hget : ∀ id, store'.get (.member list id addr) =
      store.get (.member list id addr)) :
    isMember list store' assetID addr = isMember list store assetID addr := by
  unfold isMember
  cases keyId? assetID with
  | none => rfl
  | some id => simp only [hget]

@[simp] theorem isMember_empty (list : MemberList) (assetID : String)
    (addr : Address) : isMember list TypedStore.empty assetID addr = false := by
  unfold isMember
  cases keyId? assetID <;> simp

@[simp] theorem isMember_writeAsset (list : MemberList) (store : RwaStore)
    (issuer : Address) (rec : AssetRecord) (assetID : String)
    (addr : Address) :
    isMember list (writeAsset store issuer rec) assetID addr =
      isMember list store assetID addr :=
  isMember_congr fun id => by simp [get_writeAsset]

@[simp] theorem isMember_writeParams (list : MemberList) (store : RwaStore)
    (params : RWAParams) (assetID : String) (addr : Address) :
    isMember list (writeParams store params) assetID addr =
      isMember list store assetID addr :=
  isMember_congr fun id => by simp [get_writeParams]

theorem isMember_eq_get {assetID : String} (id : KeyId)
    (hid : id.text = assetID) (list : MemberList) (store : RwaStore)
    (addr : Address) :
    isMember list store assetID addr =
      (store.get (.member list id addr)).isSome := by
  rw [isMember, keyId?_eq_some_iff.mpr hid]

theorem isMember_addMember {assetID : String}
    (hslug : slugRegexMatch assetID = true) (list list' : MemberList)
    (store : RwaStore) (addr : Address) (assetID' : String)
    (addr' : Address) :
    isMember list' (addMember list store assetID addr) assetID' addr' =
      if list = list' ∧ assetID = assetID' ∧ addr = addr' then true
      else isMember list' store assetID' addr' := by
  unfold isMember addMember
  rw [keyId?_of_slug hslug]
  cases hid : keyId? assetID' with
  | none =>
      have hne : assetID ≠ assetID' := by
        rintro rfl
        rw [keyId?_of_slug hslug] at hid
        cases hid
      simp [hne]
  | some id =>
      have htext := keyId?_eq_some_iff.mp hid
      subst htext
      simp only [TypedStore.get_set, RwaKey.member.injEq]
      by_cases hsame : list = list' ∧ assetID = id.text ∧ addr = addr'
      · rcases hsame with ⟨rfl, rfl, rfl⟩
        simp
      · rw [if_neg hsame, if_neg]
        rintro ⟨hlist, heq, haddr⟩
        exact hsame ⟨hlist, congrArg KeyId.text heq, haddr⟩

theorem isMember_delMember {assetID : String}
    (hslug : slugRegexMatch assetID = true) (list list' : MemberList)
    (store : RwaStore) (addr : Address) (assetID' : String)
    (addr' : Address) :
    isMember list' (delMember list store assetID addr) assetID' addr' =
      if list = list' ∧ assetID = assetID' ∧ addr = addr' then false
      else isMember list' store assetID' addr' := by
  unfold isMember delMember
  rw [keyId?_of_slug hslug]
  cases hid : keyId? assetID' with
  | none => simp
  | some id =>
      have htext := keyId?_eq_some_iff.mp hid
      subst htext
      simp only [TypedStore.get_delete, RwaKey.member.injEq]
      by_cases hsame : list = list' ∧ assetID = id.text ∧ addr = addr'
      · rcases hsame with ⟨rfl, rfl, rfl⟩
        simp
      · rw [if_neg hsame, if_neg]
        rintro ⟨hlist, heq, haddr⟩
        exact hsame ⟨hlist, congrArg KeyId.text heq, haddr⟩

/-! ## Factory denominations -/

def buildDenom (assetID : String) : String := rwaDenomPrefix ++ assetID

/-- `strings.TrimPrefix` on a denomination with the factory prefix. -/
def trimRWAPrefix (denom : String) : String :=
  String.ofList (denom.toList.drop rwaDenomPrefix.toList.length)

def parseRWADenom (denom : String) : Option String :=
  if rwaDenomPrefix.toList.isPrefixOf denom.toList then
    if trimRWAPrefix denom = "" then none else some (trimRWAPrefix denom)
  else none

theorem buildDenom_injective : Function.Injective buildDenom := by
  intro left right heq
  have hbytes := congrArg strBytes heq
  simp only [buildDenom, strBytes_append, List.append_cancel_left_eq]
    at hbytes
  exact strBytes_injective hbytes

@[simp] theorem bondDenom_ne_buildDenom (assetID : String) :
    bondDenom ≠ buildDenom assetID := by
  intro heq
  have hlist := congrArg String.toList heq
  simp [buildDenom, bondDenom, rwaDenomPrefix] at hlist

@[simp] theorem buildDenom_ne_bondDenom (assetID : String) :
    buildDenom assetID ≠ bondDenom :=
  (bondDenom_ne_buildDenom assetID).symm

theorem parseRWADenom_buildDenom (id : String) :
    parseRWADenom (buildDenom id) = if id = "" then none else some id := by
  have hstarts :
      rwaDenomPrefix.toList.isPrefixOf (buildDenom id).toList = true := by
    rw [List.isPrefixOf_iff_prefix, buildDenom, String.toList_append]
    exact List.prefix_append _ _
  have hrest : trimRWAPrefix (buildDenom id) = id := by
    rw [trimRWAPrefix, buildDenom, String.toList_append, List.drop_left,
      String.ofList_toList]
  rw [parseRWADenom, if_pos hstarts, hrest]

theorem eq_buildDenom_of_parseRWADenom {denom id : String}
    (hparse : parseRWADenom denom = some id) : denom = buildDenom id := by
  unfold parseRWADenom at hparse
  split_ifs at hparse with hstarts hempty
  rw [List.isPrefixOf_iff_prefix] at hstarts
  rcases hstarts with ⟨rest, hrest⟩
  rw [trimRWAPrefix, ← hrest, List.drop_left, Option.some.injEq] at hparse
  apply String.toList_injective
  rw [buildDenom, String.toList_append, ← hrest, ← hparse,
    String.toList_ofList]

theorem parseRWADenom_eq_some_iff {denom id : String} :
    parseRWADenom denom = some id ↔ id ≠ "" ∧ denom = buildDenom id := by
  constructor
  · intro hparse
    have hdenom := eq_buildDenom_of_parseRWADenom hparse
    rw [hdenom, parseRWADenom_buildDenom] at hparse
    split_ifs at hparse with hempty
    exact ⟨hempty, hdenom⟩
  · rintro ⟨hid, rfl⟩
    rw [parseRWADenom_buildDenom, if_neg hid]

/-! ## The transfer policy -/

def moduleAddress (k : Keeper) : Address := k.sdk.newModuleAddress moduleName

def checkTransferAllowed (k : Keeper) (store : RwaStore) (assetID : String)
    (source target : Address) : Except SdkError Unit :=
  if source = moduleAddress k ∨ target = moduleAddress k then .ok ()
  else
    match getAsset store assetID with
    | none => .error (errAssetNotFound.wrap assetID)
    | some rec => do
        rejectIf
          (rec.allowAll = false ∧
            (isAllowlisted store assetID source = false ∨
              isAllowlisted store assetID target = false))
          (errTransferRestricted.wrap ("asset " ++ assetID ++
            " requires both parties allowlisted"))
        rejectIf
          (isDenylisted store assetID source = true ∨
            isDenylisted store assetID target = true)
          (errTransferRestricted.wrap ("asset " ++ assetID ++
            ": party is denylisted"))

/-- The restriction which the application registers with the bank. -/
def sendRestriction (k : Keeper) (store : RwaStore)
    (source target : Address) : CoinList String → Except SdkError Address
  | [] => .ok target
  | coin :: rest =>
      match parseRWADenom coin.1 with
      | none => sendRestriction k store source target rest
      | some assetID => do
          checkTransferAllowed k store assetID source target
          sendRestriction k store source target rest

/-- The policy of a registered asset lets an account hold its units. -/
def Eligible (store : RwaStore) (assetID : String) (addr : Address) : Prop :=
  ∃ rec, getAsset store assetID = some rec ∧
    (rec.allowAll = true ∨ isAllowlisted store assetID addr = true) ∧
    isDenylisted store assetID addr = false

theorem checkTransferAllowed_eq_ok_iff
    {k : Keeper} {store : RwaStore} {assetID : String}
    {source target : Address} {u : Unit} :
    checkTransferAllowed k store assetID source target = .ok u ↔
      source = moduleAddress k ∨ target = moduleAddress k ∨
        (Eligible store assetID source ∧ Eligible store assetID target) := by
  unfold checkTransferAllowed Eligible
  by_cases hmodule : source = moduleAddress k ∨ target = moduleAddress k
  · rw [if_pos hmodule]
    rcases hmodule with hsource | htarget
    · simp [hsource]
    · simp [htarget]
  · rw [if_neg hmodule]
    rw [not_or] at hmodule
    cases hget : getAsset store assetID with
    | none => simp [hmodule.1, hmodule.2]
    | some rec =>
        simp only [bind_eq_ok_iff, rejectIf_eq_ok_iff, exists_const,
          hmodule.1, hmodule.2, false_or, Option.some.injEq, exists_eq_left']
        cases rec.allowAll <;> cases isAllowlisted store assetID source <;>
          cases isAllowlisted store assetID target <;>
          cases isDenylisted store assetID source <;>
          cases isDenylisted store assetID target <;> simp

theorem sendRestriction_eq_ok_iff
    {k : Keeper} {store : RwaStore} {source target result : Address}
    {coins : CoinList String} :
    sendRestriction k store source target coins = .ok result ↔
      target = result ∧ ∀ coin ∈ coins, ∀ assetID,
        parseRWADenom coin.1 = some assetID →
          checkTransferAllowed k store assetID source target = .ok () := by
  induction coins with
  | nil => simp [sendRestriction]
  | cons coin rest ih =>
      cases hparse : parseRWADenom coin.1 with
      | none => simp [sendRestriction, hparse, ih]
      | some assetID =>
          simp only [sendRestriction, hparse, bind_eq_ok_iff, ih,
            List.forall_mem_cons, Option.some.injEq, forall_eq']
          constructor
          · rintro ⟨⟨⟩, hfirst, hresult, hrest⟩
            exact ⟨hresult, hfirst, hrest⟩
          · rintro ⟨hresult, hfirst, hrest⟩
            exact ⟨(), hfirst, hresult, hrest⟩

end Rwa
end Vertix
