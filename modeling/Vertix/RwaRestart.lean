import Vertix.RwaGenesis
import Vertix.RwaRestrictions
import Mathlib.Tactic

/-!
# Restarting from an exported rwa state

The records, the issuer index and the membership lists of a reachable store
belong together, and the exported genesis lists all of them.  Importing it
rebuilds the very same store, provided that validation lets it through.
Validation compares the recorded bonds with the minimum bond of export time,
which governance may have raised since; no other check can fail.
-/

namespace Vertix
namespace Rwa

open Transition

/-! ## The exported lists -/

/-- An entry which only marks presence is known once it is there. -/
theorem get_eq_presence_iff {store : RwaStore} {key : RwaKey}
    (hkey : ∀ value, key.Admits value → value = .presence) :
    store.get key = some .presence ↔ store.get key ≠ none := by
  cases hget : store.get key with
  | none => simp
  | some value =>
      rw [hkey value (TypedStore.admits_of_get hget)]
      simp

theorem get_congr_of_presence {store store' : RwaStore} {key : RwaKey}
    (hkey : ∀ value, key.Admits value → value = .presence)
    (hsame : store'.get key ≠ none ↔ store.get key ≠ none) :
    store'.get key = store.get key := by
  cases hget : store.get key with
  | none =>
      by_contra hpresent
      exact hsame.mp hpresent hget
  | some value =>
      rw [hkey value (TypedStore.admits_of_get hget)]
      apply (get_eq_presence_iff hkey).mpr
      apply hsame.mpr
      rw [hget]
      simp

theorem eq_presence_of_admits_member {list : MemberList} {id : KeyId} {addr : Address} :
    ∀ value, (RwaKey.member list id addr).Admits value → value = .presence := by
  intro value hadmits
  cases value with
  | presence => rfl
  | asset rec => exact hadmits.elim
  | params params => exact hadmits.elim

theorem eq_presence_of_admits_issuerIndex {issuer : Address} {assetID : String} :
    ∀ value, (RwaKey.issuerIndex issuer assetID).Admits value →
      value = .presence := by
  intro value hadmits
  cases value with
  | presence => rfl
  | asset rec => exact hadmits.elim
  | params params => exact hadmits.elim

theorem membershipKey_eq (list : MemberList) (id : KeyId)
    (addr : Address) :
    ∃ family, membershipKey list.keyPrefix id.text addr =
        family :: UInt8.ofNat (strBytes id.text).length ::
          (strBytes id.text ++ addr.bytes) := by
  cases list with
  | allow => exact ⟨0x03, rfl⟩
  | deny => exact ⟨0x04, rfl⟩

/-- The iteration over a membership prefix reads back the members, each
once. -/
theorem exists_iterateMembers (store : RwaStore) (list : MemberList)
    (id : KeyId) :
    ∃ addrs : List Address,
      iterateMembers store (membershipPrefix list.keyPrefix id.text) =
          addrs.map Address.bytes ∧
        addrs.Nodup ∧
        ∀ addr, addr ∈ addrs ↔ isMember list store id.text addr = true := by
  rcases TypedStore.exists_scanned (membershipPrefix list.keyPrefix id.text)
    (fun addr : Address => RwaKey.member list id addr)
    (fun _ => RwaValue.presence)
    (fun addr => (membershipPrefix_prefix_iff list id _).mpr ⟨addr, rfl⟩)
    (by
      intro key stored hstarts hadmits
      rcases (membershipPrefix_prefix_iff list id key).mp hstarts with
        ⟨addr, rfl⟩
      exact ⟨addr, rfl, (eq_presence_of_admits_member stored hadmits).symm⟩)
    (fun left right hkey _ => by simpa using hkey)
    store with ⟨addrs, hscan, hnodup, hmem⟩
  refine ⟨addrs, ?_, hnodup.of_map _, ?_⟩
  · unfold iterateMembers
    rw [hscan, List.filterMap_map, ← List.filterMap_eq_map]
    apply List.filterMap_congr
    intro addr _
    rcases membershipKey_eq list id addr with ⟨family, hkey⟩
    have hlength : (UInt8.ofNat (strBytes id.text).length).toNat =
        (strBytes id.text).length := by
      have hfits := id.fits
      simp only [UInt8.toNat_ofNat']
      omega
    simp [rwaCodec, RwaKey.encode, hkey, hlength]
  · intro addr
    rw [hmem, isMember_eq_get id rfl, Option.isSome_iff_ne_none]
    exact get_eq_presence_iff eq_presence_of_admits_member

theorem mem_exportAssets {store : RwaStore} {rec : AssetRecord} :
    rec ∈ exportAssets store ↔ getAsset store rec.assetId = some rec := by
  rw [← mem_iterateAssets]
  exact List.mem_insertionSort _

theorem exportAssets_nodup (store : RwaStore) :
    ((exportAssets store).map AssetRecord.assetId).Nodup := by
  have hperm : (exportAssets store).Perm (iterateAssets store) :=
    List.perm_insertionSort _ _
  rw [(hperm.map _).nodup_iff, List.Nodup, List.pairwise_map]
  apply (mem_iterateAssets_and_sorted store).2.imp
  intro a b hlt heq
  rw [heq] at hlt
  exact lt_irrefl _ hlt

def MemberList.isDeny : MemberList → Bool
  | .allow => false
  | .deny => true

theorem mem_exportMembers
    (sdk : Sdk) (store : RwaStore) (list : MemberList) {assetID : String}
    (hslug : slugRegexMatch assetID = true) (r : Restriction) :
    r ∈ exportMembers sdk store (membershipPrefix list.keyPrefix assetID)
        assetID list.isDeny ↔
      r.assetId = assetID ∧ r.list = list ∧
        ∃ addr, r.address = sdk.accAddressString addr.bytes ∧
          isMember list store assetID addr = true := by
  rcases exists_iterateMembers store list ⟨assetID, slug_length_le hslug⟩ with
    ⟨addrs, hmembers, -, hmem⟩
  have hlist : r.list = list ↔ r.isDeny = list.isDeny := by
    cases list <;> cases hdeny : r.isDeny <;>
      simp [Restriction.list, MemberList.isDeny, hdeny]
  simp only [exportMembers, hmembers, List.map_map, List.mem_map, hmem,
    Function.comp_apply, hlist]
  constructor
  · rintro ⟨addr, hmember, rfl⟩
    exact ⟨rfl, rfl, addr, rfl, hmember⟩
  · rintro ⟨hid, hflag, addr, haddr, hmember⟩
    refine ⟨addr, hmember, ?_⟩
    rw [← hid, ← hflag, ← haddr]

/-- The export lists the members of all records. -/
theorem mem_exportGenesis_restrictions
    {k : Keeper} {store : RwaStore} (hcanonical : Canonical store)
    {r : Restriction} :
    r ∈ (exportGenesis k store).restrictions ↔
      getAsset store r.assetId ≠ none ∧
        ∃ addr, r.address = k.sdk.accAddressString addr.bytes ∧
          isMember r.list store r.assetId addr = true := by
  have hexported : ∀ rec, getAsset store rec.assetId = some rec →
      (r ∈ exportMembers k.sdk store (allowlistPrefix rec.assetId)
            rec.assetId false ++
          exportMembers k.sdk store (denylistPrefix rec.assetId)
            rec.assetId true ↔
        r.assetId = rec.assetId ∧
          ∃ addr, r.address = k.sdk.accAddressString addr.bytes ∧
            isMember r.list store r.assetId addr = true) := by
    intro rec hget
    have hslug := (hcanonical rec.assetId rec hget).1
    have hallow := mem_exportMembers k.sdk store .allow hslug r
    have hdeny := mem_exportMembers k.sdk store .deny hslug r
    rw [List.mem_append, allowlistPrefix, denylistPrefix]
    simp only [MemberList.keyPrefix, MemberList.isDeny] at hallow hdeny
    rw [hallow, hdeny]
    constructor
    · rintro (⟨hid, hlist, hlisted⟩ | ⟨hid, hlist, hlisted⟩)
      · rw [hid, hlist]
        exact ⟨rfl, hlisted⟩
      · rw [hid, hlist]
        exact ⟨rfl, hlisted⟩
    · rintro ⟨hid, hlisted⟩
      rw [hid] at hlisted
      cases hlist : r.list with
      | allow =>
          rw [hlist] at hlisted
          exact Or.inl ⟨hid, rfl, hlisted⟩
      | deny =>
          rw [hlist] at hlisted
          exact Or.inr ⟨hid, rfl, hlisted⟩
  simp only [exportGenesis, List.mem_flatMap, mem_exportAssets]
  constructor
  · rintro ⟨rec, hget, hmem⟩
    rcases (hexported rec hget).mp hmem with ⟨hid, hlisted⟩
    refine ⟨?_, hlisted⟩
    rw [hid, hget]
    simp
  · rintro ⟨hfound, hlisted⟩
    rcases Option.ne_none_iff_exists'.mp hfound with ⟨rec, hget⟩
    have hid := getAsset_assetId hget
    rw [← hid] at hget
    exact ⟨rec, hget, (hexported rec hget).mpr ⟨hid.symm, hlisted⟩⟩

/-! ## Stores which hang together -/

/-- The parameters are stored and valid, the issuer index is exact, and the
lists belong to registered assets. -/
structure Registry (sdk : Sdk) (store : RwaStore) : Prop where
  params : ∃ params, store.get .params = some (.params params) ∧
    params.Valid sdk
  index : ∀ issuer assetID,
    store.get (.issuerIndex issuer assetID) ≠ none ↔
      ∃ rec, getAsset store assetID = some rec ∧
        sdk.accAddressFromBech32 rec.issuer = .ok issuer
  members : ∀ list assetID addr, isMember list store assetID addr = true →
    getAsset store assetID ≠ none

theorem Registry.params_valid {sdk : Sdk} {store : RwaStore}
    (hregistry : Registry sdk store) : (getParams store).Valid sdk := by
  rcases hregistry.params with ⟨params, hget, hvalid⟩
  have hparams : getParams store = params := by
    simp [getParams, hget]
  rw [hparams]
  exact hvalid

/-- A record may be replaced by one of the same issuer. -/
theorem Registry.writeAsset
    {sdk : Sdk} {store : RwaStore} (hregistry : Registry sdk store)
    {issuer : Address} {rec : AssetRecord}
    (hissuer : sdk.accAddressFromBech32 rec.issuer = .ok issuer)
    (hsame : ∀ old, getAsset store rec.assetId = some old →
      old.issuer = rec.issuer) :
    Registry sdk (Rwa.writeAsset store issuer rec) := by
  constructor
  · simpa [get_writeAsset] using hregistry.params
  · intro issuer' assetID
    have holder := hregistry.index issuer' assetID
    rw [getAsset_writeAsset]
    simp only [get_writeAsset, RwaKey.issuerIndex.injEq, reduceCtorEq,
      if_false]
    by_cases hid : rec.assetId = assetID
    · subst hid
      simp only [and_true, if_true, Option.some.injEq, exists_eq_left',
        hissuer, Except.ok.injEq]
      by_cases heq : issuer = issuer'
      · simp [heq]
      · rw [if_neg heq, holder]
        simp only [heq, iff_false, not_exists, not_and]
        intro old hold hdecoded
        rw [hsame old hold, hissuer, Except.ok.injEq] at hdecoded
        exact heq hdecoded
    · simpa [hid] using holder
  · intro list assetID addr hmember
    rw [isMember_writeAsset] at hmember
    rw [getAsset_writeAsset]
    split_ifs
    · simp
    · exact hregistry.members list assetID addr hmember

theorem Registry.applyChanges
    {sdk : Sdk} {store : RwaStore} (hregistry : Registry sdk store)
    (changes : MemberChanges) {assetID : String}
    (hslug : slugRegexMatch assetID = true)
    (hfound : getAsset store assetID ≠ none) :
    Registry sdk (changes.apply store assetID) := by
  constructor
  · rw [get_apply_of_ne changes store assetID (by simp)]
    exact hregistry.params
  · intro issuer assetID'
    rw [get_apply_of_ne changes store assetID (by simp), getAsset_apply]
    exact hregistry.index issuer assetID'
  · intro list assetID' addr hmember
    rw [getAsset_apply]
    by_cases hid : assetID = assetID'
    · rw [← hid]
      exact hfound
    · rw [isMember_apply list changes store hslug, if_neg hid] at hmember
      exact hregistry.members list assetID' addr hmember

theorem same_issuer_of_stored
    {store : RwaStore} {assetID : String} {rec rec' : AssetRecord}
    (hstored : getAsset store assetID = some rec)
    (hid : rec'.assetId = rec.assetId) (hissuer : rec'.issuer = rec.issuer) :
    ∀ old, getAsset store rec'.assetId = some old →
      old.issuer = rec'.issuer := by
  intro old hold
  rw [hid, getAsset_assetId hstored, hstored, Option.some.injEq] at hold
  rw [← hold, hissuer]

/-- Every transaction keeps the store together. -/
theorem Registry.accepted
    {k : Keeper} {env : Env} {s s' : RwaState} {tx : RwaTx}
    (hregistry : Registry k.sdk s.store)
    (haccepted : Accepted k env s tx s') : Registry k.sdk s'.store := by
  cases haccepted with
  | registered hvalid hissuer hfresh =>
      refine hregistry.writeAsset hissuer ?_
      intro old hold
      exact absurd (hfresh.symm.trans hold) (by simp)
  | attested howned =>
      exact hregistry.writeAsset howned.decoded (same_issuer_of_stored howned.stored rfl rfl)
  | minted howned =>
      exact hregistry.writeAsset howned.decoded (same_issuer_of_stored howned.stored rfl rfl)
  | transferred => exact hregistry
  | @restricted msg issuer rec changes howned hslug =>
      have hfound : getAsset s.store msg.assetId ≠ none := by
        simp [howned.stored]
      refine (hregistry.applyChanges changes hslug hfound).writeAsset
        howned.decoded ?_
      rw [getAsset_apply]
      exact same_issuer_of_stored howned.stored rfl rfl
  | settled howned =>
      exact hregistry.writeAsset howned.decoded (same_issuer_of_stored howned.stored rfl rfl)
  | slashed hauthority hstored hissuer =>
      exact hregistry.writeAsset hissuer
        (same_issuer_of_stored hstored rfl rfl)
  | reparametrized hauthority hvalid =>
      constructor
      · exact ⟨_, by simp [get_writeParams], hvalid⟩
      · intro issuer assetID
        simpa [get_writeParams] using hregistry.index issuer assetID
      · intro list assetID addr hmember
        rw [isMember_writeParams] at hmember
        rw [getAsset_writeParams]
        exact hregistry.members list assetID addr hmember
  | sent => exact hregistry
  | paid => exact hregistry

/-- A valid genesis is imported into a store which hangs together. -/
theorem registry_of_genesis {k : Keeper} {gs : GenesisState}
    {store : RwaStore}
    (hinit : initGenesis k TypedStore.empty gs = .ok store) :
    Registry k.sdk store := by
  rcases imported_of_initGenesis hinit with ⟨hvalid, himported⟩
  have hassets := himported.assets_iff hvalid.assets_nodup
  have hslugs : ∀ r ∈ gs.restrictions, slugRegexMatch r.assetId = true := by
    intro r hr
    obtain ⟨rec, hrec, hid⟩ := List.mem_map.mp (hvalid.restrictions r hr).1
    rw [← hid]
    exact (hvalid.assets rec hrec).slug
  constructor
  · exact ⟨_, himported.params_eq, hvalid.params⟩
  · intro issuer assetID
    rw [himported.index_iff]
    simp only [hassets, and_assoc]
  · intro list assetID addr hmember
    obtain ⟨r, hr, -, hid, -⟩ :=
      (himported.members_iff hslugs list assetID addr).mp hmember
    obtain ⟨rec, hrec, hsame⟩ := List.mem_map.mp (hvalid.restrictions r hr).1
    rw [(hassets assetID rec).mpr ⟨hrec, hsame.trans hid⟩]
    simp

theorem Registry.run
    {k : Keeper} {start s : RwaState} {history : History}
    (hregistry : Registry k.sdk start.store)
    (hrun : Run (rwaStep k) start history s) : Registry k.sdk s.store := by
  refine Run.invariant (I := fun s => Registry k.sdk s.store) hregistry ?_ hrun
  intro state label state' hstate hstep
  rcases rwaStep_cases hstep with ⟨-, -, hsame⟩ | ⟨-, -, haccepted⟩
  · rw [hsame]
    exact hstate
  · exact hstate.accepted haccepted

theorem getAsset_of_defaultGenesis {k : Keeper} {store : RwaStore}
    (hinit : initGenesis k TypedStore.empty defaultGenesis = .ok store)
    (assetID : String) : getAsset store assetID = none := by
  have himported := (imported_of_initGenesis hinit).2
  rw [Option.eq_none_iff_forall_ne_some]
  intro rec hget
  have hlisted := (himported.assets_iff List.nodup_nil assetID rec).mp hget
  simp [defaultGenesis] at hlisted

theorem registry_of_run
    {k : Keeper} {start s : RwaState} {history : History}
    (hinit : initGenesis k TypedStore.empty defaultGenesis = .ok start.store)
    (hrun : Run (rwaStep k) start history s) :
    RecordsSound k.sdk s.store ∧ Registry k.sdk s.store :=
  ⟨(recordsSound_of_empty (getAsset_of_defaultGenesis hinit)).run hrun,
    (registry_of_genesis hinit).run hrun⟩

/-! ## The round trip -/

/-- The bonds of attested and active assets reach the current minimum. -/
def BondsCovered (sdk : Sdk) (store : RwaStore) : Prop :=
  ∀ assetID rec, getAsset store assetID = some rec →
    rec.status = .attested ∨ rec.status = .active →
    BondCovered sdk (getParams store) rec

theorem exportGenesis_valid_iff
    {k : Keeper} {store : RwaStore} (hsound : RecordsSound k.sdk store)
    (hregistry : Registry k.sdk store) :
    (exportGenesis k store).Valid k.sdk ↔ BondsCovered k.sdk store := by
  rcases hregistry.params_valid.minIssuerBond_nonneg with
    ⟨minBond, hminBond, -⟩
  have hgetD : (k.sdk.newIntFromString
      (exportGenesis k store).params.minIssuerBond).getD SdkInt.zero =
        minBond := by
    rw [show (exportGenesis k store).params = getParams store from rfl,
      hminBond, Option.getD_some]
  constructor
  · intro hvalid assetID rec hget hbonded
    have hid := getAsset_assetId hget
    subst hid
    have hasset := hvalid.assets rec (mem_exportAssets.mpr hget)
    rw [hgetD] at hasset
    rcases hasset.bond with ⟨bond, hbond, hcovered⟩
    exact ⟨bond, minBond, hbond, hminBond, hcovered hbonded⟩
  · intro hcovered
    constructor
    · exact hregistry.params_valid
    · intro a ha
      have hget := mem_exportAssets.mp ha
      have hrecord := hsound a.assetId a hget
      rw [hgetD]
      refine ⟨hrecord.slug, hrecord.issuer_decodes, hrecord.specified,
        hrecord.pair, ?_, ?_⟩
      · rcases hrecord.bond_nonneg with ⟨bond, hbond, -⟩
        refine ⟨bond, hbond, ?_⟩
        intro hbonded
        rcases hcovered a.assetId a hget hbonded with
          ⟨bond', minBond', hbond', hminBond', hle⟩
        rw [hbond, Option.some.injEq] at hbond'
        rw [hminBond, Option.some.injEq] at hminBond'
        rw [hbond', hminBond']
        exact hle
      · rcases hrecord.notional_nonneg with ⟨notional, hnotional, -⟩
        exact ⟨notional, hnotional⟩
    · exact exportAssets_nodup store
    · intro r hr
      rcases (mem_exportGenesis_restrictions hsound.canonical).mp hr with
        ⟨hfound, addr, haddr, -⟩
      constructor
      · rcases Option.ne_none_iff_exists'.mp hfound with ⟨rec, hget⟩
        have hid := getAsset_assetId hget
        rw [← hid] at hget ⊢
        exact List.mem_map_of_mem (mem_exportAssets.mpr hget)
      · rw [haddr]
        exact ⟨addr, k.sdk.accAddress_roundTrip addr⟩

/-- A store with exactly the exported entries is the exported store. -/
theorem Imported.eq_exported
    {k : Keeper} {store store' : RwaStore}
    (hsound : RecordsSound k.sdk store) (hregistry : Registry k.sdk store)
    (himported : Imported k.sdk (getParams store) (exportAssets store)
      (exportGenesis k store).restrictions store') :
    store' = store := by
  have hassets : ∀ assetID, getAsset store' assetID = getAsset store assetID := by
    intro assetID
    apply Option.ext
    intro rec
    rw [himported.assets_iff (exportAssets_nodup store), mem_exportAssets]
    constructor
    · rintro ⟨hget, rfl⟩
      exact hget
    · intro hget
      have hid := getAsset_assetId hget
      rw [hid]
      exact ⟨hget, rfl⟩
  have hmembers : ∀ list assetID addr,
      isMember list store' assetID addr = isMember list store assetID addr := by
    intro list assetID addr
    rw [Bool.eq_iff_iff, himported.members_iff]
    · simp only [mem_exportGenesis_restrictions hsound.canonical]
      constructor
      · rintro ⟨r, ⟨hfound, addr', haddr', hmember⟩, rfl, rfl, hdecoded⟩
        rw [haddr', k.sdk.accAddress_roundTrip, Except.ok.injEq] at hdecoded
        rw [← hdecoded]
        exact hmember
      · intro hmember
        refine ⟨⟨assetID, k.sdk.accAddressString addr.bytes, list.isDeny⟩,
          ⟨hregistry.members list assetID addr hmember, addr, rfl, ?_⟩, ?_,
          rfl, k.sdk.accAddress_roundTrip addr⟩
        · cases list <;> exact hmember
        · cases list <;> rfl
    · intro r hr
      rcases (mem_exportGenesis_restrictions hsound.canonical).mp hr with
        ⟨hfound, -⟩
      rcases Option.ne_none_iff_exists'.mp hfound with ⟨rec, hget⟩
      exact (hsound.canonical r.assetId rec hget).1
  apply TypedStore.ext_get
  intro key
  cases key with
  | asset id => rw [get_asset, get_asset, hassets]
  | issuerIndex issuer id =>
      apply get_congr_of_presence eq_presence_of_admits_issuerIndex
      rw [himported.index_iff, hregistry.index]
      constructor
      · rintro ⟨rec, hrec, rfl, hdecoded⟩
        exact ⟨rec, mem_exportAssets.mp hrec, hdecoded⟩
      · rintro ⟨rec, hget, hdecoded⟩
        have hid := getAsset_assetId hget
        rw [← hid] at hget
        exact ⟨rec, mem_exportAssets.mpr hget, hid, hdecoded⟩
  | member list id addr =>
      apply get_congr_of_presence eq_presence_of_admits_member
      have hmember := hmembers list id.text addr
      rw [isMember_eq_get id rfl, isMember_eq_get id rfl, Bool.eq_iff_iff,
        Option.isSome_iff_ne_none, Option.isSome_iff_ne_none] at hmember
      exact hmember
  | params =>
      rcases hregistry.params with ⟨params, hget, -⟩
      rw [himported.params_eq, hget, getParams, hget]

/-- From every state reached from the default genesis, the export passes
validation and its import rebuilds the same store exactly when the bond of
every attested or active asset reaches the current minimum. -/
theorem exported_store_restarts_iff
    {k : Keeper} {start s : RwaState} {history : History}
    (hinit : initGenesis k TypedStore.empty defaultGenesis = .ok start.store)
    (hrun : Run (rwaStep k) start history s) :
    ((exportGenesis k s.store).validate k.sdk = .ok () ∧
        initGenesis k TypedStore.empty (exportGenesis k s.store) =
          .ok s.store) ↔
      ∀ assetID rec, getAsset s.store assetID = some rec →
        rec.status = .attested ∨ rec.status = .active →
        BondCovered k.sdk (getParams s.store) rec := by
  rcases registry_of_run hinit hrun with ⟨hsound, hregistry⟩
  rw [GenesisState.validate_eq_ok_iff,
    exportGenesis_valid_iff hsound hregistry]
  constructor
  · exact fun h => h.1
  · intro hcovered
    refine ⟨hcovered, ?_⟩
    have hvalid := (exportGenesis_valid_iff hsound hregistry).mpr hcovered
    rcases initGenesis_completes_iff.mpr hvalid with ⟨store', hstore'⟩
    rw [hstore', Imported.eq_exported hsound hregistry
      (imported_of_initGenesis hstore').2]

/-- Governance replaces the minimum bond. -/
def setMinBond (minBond : String) : RwaTx :=
  .updateParams ⟨referenceKeeper.authority,
    { defaultParams with minIssuerBond := minBond }⟩

/-- The default genesis, with base coins for the issuer, and the transactions
given. -/
def runDefault (txs : List RwaTx) : Option (RwaState × History × RwaState) :=
  (initGenesis referenceKeeper TypedStore.empty defaultGenesis).toOption.bind
    fun store =>
      (replay (rwaStep referenceKeeper) [] ⟨store, fundedState.bank⟩
        (txs.map fun tx => (openEnv, tx))).map
          fun run => (⟨store, fundedState.bank⟩, run)

theorem run_of_runDefault {txs : List RwaTx} {start s : RwaState}
    {history : History} (hrun : runDefault txs = some (start, history, s)) :
    initGenesis referenceKeeper TypedStore.empty defaultGenesis =
        .ok start.store ∧
      Run (rwaStep referenceKeeper) start history s := by
  simp only [runDefault, Option.bind_eq_some_iff, Option.map_eq_some_iff,
    toOption_eq_some_iff, Prod.mk.injEq] at hrun
  rcases hrun with ⟨store, hinit, run, hreplay, rfl, rfl, rfl⟩
  exact ⟨hinit, run_of_replay Run.start hreplay⟩

/-- An asset with an allowlist survives a lowered minimum bond. -/
theorem closed_land_restarts :
    ∃ start history s,
      initGenesis referenceKeeper TypedStore.empty defaultGenesis =
          .ok start.store ∧
        Run (rwaStep referenceKeeper) start history s ∧
        isAllowlisted s.store "land" (addressOf 2) = true ∧
        (getParams s.store).minIssuerBond = "5" ∧
        initGenesis referenceKeeper TypedStore.empty
          (exportGenesis referenceKeeper s.store) = .ok s.store := by
  have hfacts :
      (runDefault [registerLand, attestLand, closeLand [holderText],
        setMinBond "5"]).any (fun r =>
          isAllowlisted r.2.2.store "land" (addressOf 2) &&
            (getParams r.2.2.store).minIssuerBond == "5" &&
            (iterateAssets r.2.2.store).all
              (fun rec => rec.bond == "10000000000")) = true := by
    decide +kernel
  rcases exists_some_of_any hfacts with ⟨⟨start, history, s⟩, hrun, hchecked⟩
  simp only [Bool.and_eq_true, beq_iff_eq, List.all_eq_true] at hchecked
  rcases hchecked with ⟨⟨hlisted, hminBond⟩, hbonds⟩
  rcases run_of_runDefault hrun with ⟨hinit, hreached⟩
  refine ⟨start, history, s, hinit, hreached, hlisted, hminBond,
    ((exported_store_restarts_iff hinit hreached).mpr ?_).2⟩
  intro assetID rec hget _
  have hid := getAsset_assetId hget
  rw [← hid] at hget
  have hbond := hbonds rec (mem_iterateAssets.mpr hget)
  have hparsed :
      (referenceKeeper.sdk.newIntFromString "10000000000").any (fun bond =>
        (referenceKeeper.sdk.newIntFromString "5").any fun minBond =>
          decide (minBond.raw ≤ bond.raw)) = true := by
    decide +kernel
  rcases exists_some_of_any hparsed with ⟨bond, hbond', hrest⟩
  rcases exists_some_of_any hrest with ⟨minBond, hminBond', hle⟩
  rw [BondCovered, hbond, hminBond]
  exact ⟨bond, minBond, hbond', hminBond', of_decide_eq_true hle⟩

/-- After governance doubled the minimum bond, the export of a chain with an
attested asset is rejected. -/
theorem raised_bond_blocks_restart :
    ∃ start history s,
      initGenesis referenceKeeper TypedStore.empty defaultGenesis =
          .ok start.store ∧
        Run (rwaStep referenceKeeper) start history s ∧
        (exportGenesis referenceKeeper s.store).validate referenceKeeper.sdk =
          .error (SdkError.plain ("genesis asset[0]: bond 10000000000" ++
            " < min_issuer_bond 20000000000")) := by
  have hfacts :
      (runDefault [registerLand, attestLand, setMinBond "20000000000"]).any
        (fun r => decide ((exportGenesis referenceKeeper
          r.2.2.store).validate referenceKeeper.sdk =
            .error (SdkError.plain ("genesis asset[0]: bond 10000000000" ++
              " < min_issuer_bond 20000000000")))) = true := by
    decide +kernel
  rcases exists_some_of_any hfacts with ⟨⟨start, history, s⟩, hrun, hchecked⟩
  rcases run_of_runDefault hrun with ⟨hinit, hreached⟩
  exact ⟨start, history, s, hinit, hreached, of_decide_eq_true hchecked⟩

end Rwa
end Vertix
