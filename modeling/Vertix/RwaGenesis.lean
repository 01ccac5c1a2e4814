import Vertix.RwaRun
import Mathlib.Tactic

/-!
# Genesis of the rwa module

Import validates the genesis state and then writes parameters, records and
membership entries; it cannot fail after validation.  Export walks the records
and, for each of them, its two membership lists.  The lemmas describe the
imported store key by key and the exported lists element by element.
-/

namespace Vertix
namespace Rwa

/-! ## Import and export -/

def importRestriction (sdk : Sdk) (store : RwaStore) (r : Restriction) :
    Except SdkError RwaStore := do
  let addr ← plainError (sdk.accAddressFromBech32 r.address)
  return if r.isDeny then addDenylist store r.assetId addr
    else addAllowlist store r.assetId addr

/-- The error is the value with which `InitGenesis` panics. -/
def initGenesis (k : Keeper) (store : RwaStore) (gs : GenesisState) :
    Except SdkError RwaStore := do
  (gs.validate k.sdk).mapError fun error =>
    placedError error "invalid rwa genesis: "
  let store ← setParams k.sdk store gs.params
  let store ← gs.assets.foldlM (setAsset k.sdk) store
  gs.restrictions.foldlM (importRestriction k.sdk) store

def exportMembers (sdk : Sdk) (store : RwaStore) (pre : Bytes)
    (assetID : String) (isDeny : Bool) : List Restriction :=
  (iterateMembers store pre).map fun addr =>
    ⟨assetID, sdk.accAddressString addr, isDeny⟩

def exportAssets (store : RwaStore) : List AssetRecord :=
  (iterateAssets store).insertionSort fun a b => a.assetId ≤ b.assetId

def exportGenesis (k : Keeper) (store : RwaStore) : GenesisState where
  params := getParams store
  assets := exportAssets store
  restrictions := (exportAssets store).flatMap fun a =>
    exportMembers k.sdk store (allowlistPrefix a.assetId) a.assetId false ++
      exportMembers k.sdk store (denylistPrefix a.assetId) a.assetId true

/-! ## Validation -/

/-- The bond of a record reaches the minimum of the parameters. -/
def BondCovered (sdk : Sdk) (params : RWAParams) (rec : AssetRecord) : Prop :=
  ∃ bond minBond, sdk.newIntFromString rec.bond = some bond ∧
    sdk.newIntFromString params.minIssuerBond = some minBond ∧
    minBond.raw ≤ bond.raw

/-- What `GenesisState.Validate` demands of one record. -/
structure ImportableAsset (sdk : Sdk) (minBond : SdkInt) (a : AssetRecord) :
    Prop where
  slug : slugRegexMatch a.assetId = true
  issuer : ∃ issuer, sdk.accAddressFromBech32 a.issuer = .ok issuer
  specified : a.status ≠ .unspecified
  pair : pairRegexMatch a.oraclePair = true
  bond : IntWithin sdk a.bond fun raw =>
    a.status = .attested ∨ a.status = .active → minBond.raw ≤ raw
  notional : ∃ notional, sdk.newIntFromString a.notionalMinted = some notional

theorem validateGenesisAssets_eq_ok_iff
    {sdk : Sdk} {minBond : SdkInt} {i : ℕ} {seen : List String}
    {assets : List AssetRecord} {u : Unit} :
    validateGenesisAssets sdk minBond i seen assets = .ok u ↔
      (∀ a ∈ assets, ImportableAsset sdk minBond a) ∧
        (∀ a ∈ assets, a.assetId ∉ seen) ∧
        (assets.map AssetRecord.assetId).Nodup := by
  induction assets generalizing i seen with
  | nil => simp [validateGenesisAssets]
  | cons a rest ih =>
      cases hissuer : sdk.accAddressFromBech32 a.issuer with
      | error reason =>
          simp only [validateGenesisAssets, hissuer, bind_eq_ok_iff,
            reduceCtorEq, and_false, exists_const, false_iff]
          rintro ⟨hassets, -⟩
          rcases (hassets a (by simp)).issuer with ⟨issuer, hdecoded⟩
          rw [hissuer] at hdecoded
          cases hdecoded
      | ok issuer =>
          cases hbond : sdk.newIntFromString a.bond with
          | none =>
              simp only [validateGenesisAssets, hissuer, hbond,
                bind_eq_ok_iff, reduceCtorEq, and_false, exists_const,
                false_iff]
              rintro ⟨hassets, -⟩
              rcases (hassets a (by simp)).bond with ⟨bond, hparsed, -⟩
              rw [hbond] at hparsed
              cases hparsed
          | some bond =>
              rw [← unseen_cons_iff]
              simp only [validateGenesisAssets, hissuer, hbond,
                bind_eq_ok_iff, mapError_eq_ok_iff, validateAssetID_eq_ok_iff,
                rejectIf_eq_ok_iff, exists_const, ih, List.forall_mem_cons,
                not_not, not_and, not_lt, Option.isNone_iff_eq_none,
                ← Option.isSome_iff_ne_none]
              constructor
              · rintro ⟨hslug, hfresh, hstatus, hpair, hcovered, hnotional,
                  hrest, hseen⟩
                exact ⟨⟨⟨hslug, ⟨issuer, hissuer⟩, hstatus, hpair,
                  ⟨bond, hbond, hcovered⟩,
                  Option.isSome_iff_exists.mp hnotional⟩, hrest⟩, hfresh,
                  hseen⟩
              · rintro ⟨⟨ha, hrest⟩, hfresh, hseen⟩
                exact ⟨ha.slug, hfresh, ha.specified, ha.pair,
                  ha.bond.of_parsed hbond,
                  Option.isSome_iff_exists.mpr ha.notional, hrest, hseen⟩

theorem validateGenesisRestrictions_eq_ok_iff
    {sdk : Sdk} {seen : List String} {i : ℕ}
    {restrictions : List Restriction} {u : Unit} :
    validateGenesisRestrictions sdk seen i restrictions = .ok u ↔
      ∀ r ∈ restrictions, r.assetId ∈ seen ∧
        ∃ addr, sdk.accAddressFromBech32 r.address = .ok addr := by
  induction restrictions generalizing i with
  | nil => simp [validateGenesisRestrictions]
  | cons r rest ih =>
      cases haddr : sdk.accAddressFromBech32 r.address with
      | error reason => simp [validateGenesisRestrictions, haddr]
      | ok addr => simp [validateGenesisRestrictions, haddr, ih]

/-- Everything `GenesisState.Validate` guarantees. -/
structure GenesisState.Valid (sdk : Sdk) (gs : GenesisState) : Prop where
  params : gs.params.Valid sdk
  assets : ∀ a ∈ gs.assets, ImportableAsset sdk
    ((sdk.newIntFromString gs.params.minIssuerBond).getD SdkInt.zero) a
  assets_nodup : (gs.assets.map AssetRecord.assetId).Nodup
  restrictions : ∀ r ∈ gs.restrictions,
    r.assetId ∈ gs.assets.map AssetRecord.assetId ∧
      ∃ addr, sdk.accAddressFromBech32 r.address = .ok addr

theorem GenesisState.validate_eq_ok_iff
    {sdk : Sdk} {gs : GenesisState} {u : Unit} :
    gs.validate sdk = .ok u ↔ gs.Valid sdk := by
  simp only [GenesisState.validate, bind_eq_ok_iff, exists_const,
    RWAParams.validate_eq_ok_iff, validateGenesisAssets_eq_ok_iff,
    validateGenesisRestrictions_eq_ok_iff, List.not_mem_nil,
    not_false_eq_true, implies_true, true_and]
  constructor
  · rintro ⟨hparams, ⟨hassets, hnodup⟩, hrestrictions⟩
    exact ⟨hparams, hassets, hnodup, hrestrictions⟩
  · intro h
    exact ⟨h.params, ⟨h.assets, h.assets_nodup⟩, h.restrictions⟩

/-! ## The imported store -/

def Restriction.list (r : Restriction) : MemberList :=
  if r.isDeny then .deny else .allow

theorem importRestriction_eq_ok_iff
    {sdk : Sdk} {store store' : RwaStore} {r : Restriction} :
    importRestriction sdk store r = .ok store' ↔
      ∃ addr, sdk.accAddressFromBech32 r.address = .ok addr ∧
        addMember r.list store r.assetId addr = store' := by
  have hadd : ∀ addr, (if r.isDeny then addDenylist store r.assetId addr
      else addAllowlist store r.assetId addr) =
        addMember r.list store r.assetId addr := by
    intro addr
    cases hdeny : r.isDeny <;> simp [Restriction.list, hdeny, addDenylist,
      addAllowlist]
  simp only [importRestriction, bind_eq_ok_iff, plainError_eq_ok_iff,
    pure_eq_ok_iff, hadd]

theorem setAsset_completes_iff
    (sdk : Sdk) (store : RwaStore) (rec : AssetRecord) :
    (∃ store', setAsset sdk store rec = .ok store') ↔
      ∃ issuer, sdk.accAddressFromBech32 rec.issuer = .ok issuer := by
  simp only [setAsset_eq_ok_iff]
  constructor
  · rintro ⟨store', issuer, hissuer, hwritten⟩
    exact ⟨issuer, hissuer⟩
  · rintro ⟨issuer, hissuer⟩
    exact ⟨_, issuer, hissuer, rfl⟩

theorem importRestriction_completes_iff
    (sdk : Sdk) (store : RwaStore) (r : Restriction) :
    (∃ store', importRestriction sdk store r = .ok store') ↔
      ∃ addr, sdk.accAddressFromBech32 r.address = .ok addr := by
  simp only [importRestriction_eq_ok_iff]
  constructor
  · rintro ⟨store', addr, haddr, hwritten⟩
    exact ⟨addr, haddr⟩
  · rintro ⟨addr, haddr⟩
    exact ⟨_, addr, haddr, rfl⟩

/-- Validation is the only obstacle to an import. -/
theorem initGenesis_completes_iff
    {k : Keeper} {store : RwaStore} {gs : GenesisState} :
    (∃ store', initGenesis k store gs = .ok store') ↔ gs.Valid k.sdk := by
  simp only [initGenesis, bind_eq_ok_iff, mapError_eq_ok_iff, exists_const,
    GenesisState.validate_eq_ok_iff, setParams_eq_ok_iff]
  constructor
  · rintro ⟨store', hvalid, -⟩
    exact hvalid
  · intro hvalid
    have hassets : ∃ middle, gs.assets.foldlM (setAsset k.sdk)
        (writeParams store gs.params) = .ok middle :=
      (foldlM_completes_iff (I := fun _ => True)
        (fun _ _ _ _ _ => trivial)
        (fun rec _ state _ => setAsset_completes_iff k.sdk state rec)
        trivial).mpr fun a ha => (hvalid.assets a ha).issuer
    rcases hassets with ⟨middle, hmiddle⟩
    have hrestrictions : ∃ store', gs.restrictions.foldlM
        (importRestriction k.sdk) middle = .ok store' :=
      (foldlM_completes_iff (I := fun _ => True)
        (fun _ _ _ _ _ => trivial)
        (fun r _ state _ => importRestriction_completes_iff k.sdk state r)
        trivial).mpr fun r hr => (hvalid.restrictions r hr).2
    rcases hrestrictions with ⟨store', hstore'⟩
    exact ⟨store', hvalid, _, ⟨hvalid.params, rfl⟩, middle, hmiddle, hstore'⟩

/-- The entries of an imported store, family by family. -/
structure Imported (sdk : Sdk) (params : RWAParams)
    (assets : List AssetRecord) (restrictions : List Restriction)
    (store : RwaStore) : Prop where
  params_eq : store.get .params = some (.params params)
  assets_iff : (assets.map AssetRecord.assetId).Nodup → ∀ assetID rec,
    getAsset store assetID = some rec ↔ rec ∈ assets ∧ rec.assetId = assetID
  index_iff : ∀ issuer assetID,
    store.get (.issuerIndex issuer assetID) ≠ none ↔
      ∃ rec ∈ assets, rec.assetId = assetID ∧
        sdk.accAddressFromBech32 rec.issuer = .ok issuer
  members_iff : (∀ r ∈ restrictions, slugRegexMatch r.assetId = true) →
    ∀ list assetID addr, isMember list store assetID addr = true ↔
      ∃ r ∈ restrictions, r.list = list ∧ r.assetId = assetID ∧
        sdk.accAddressFromBech32 r.address = .ok addr

theorem imported_params (sdk : Sdk) (params : RWAParams) :
    Imported sdk params [] [] (writeParams TypedStore.empty params) := by
  constructor
  · simp [get_writeParams]
  · intro _ assetID rec
    simp
  · intro issuer assetID
    simp [get_writeParams]
  · intro _ list assetID addr
    simp

theorem Imported.asset
    {sdk : Sdk} {params : RWAParams} {assets : List AssetRecord}
    {restrictions : List Restriction} {store : RwaStore}
    (himported : Imported sdk params assets restrictions store)
    {rec : AssetRecord} {issuer : Address}
    (hissuer : sdk.accAddressFromBech32 rec.issuer = .ok issuer) :
    Imported sdk params (assets ++ [rec]) restrictions
      (writeAsset store issuer rec) := by
  constructor
  · simpa [get_writeAsset] using himported.params_eq
  · intro hnodup assetID rec'
    rw [List.map_append, List.nodup_append] at hnodup
    have hnew : ∀ other ∈ assets, other.assetId ≠ rec.assetId :=
      fun other hother => hnodup.2.2 _ (List.mem_map_of_mem hother) _ (by simp)
    have holder := himported.assets_iff hnodup.1 assetID rec'
    rw [getAsset_writeAsset, List.mem_append, List.mem_singleton]
    by_cases hid : rec.assetId = assetID
    · subst hid
      rw [if_pos rfl, Option.some.injEq]
      constructor
      · rintro rfl
        exact ⟨Or.inr rfl, rfl⟩
      · rintro ⟨hold | rfl, hsame⟩
        · exact absurd hsame (hnew rec' hold)
        · rfl
    · rw [if_neg hid, holder]
      constructor
      · exact fun h => ⟨Or.inl h.1, h.2⟩
      · rintro ⟨hold | rfl, hsame⟩
        · exact ⟨hold, hsame⟩
        · exact absurd hsame hid
  · intro issuer' assetID
    have holder := himported.index_iff issuer' assetID
    simp only [get_writeAsset, RwaKey.issuerIndex.injEq, reduceCtorEq,
      if_false, List.mem_append, List.mem_singleton]
    by_cases hsame : issuer = issuer' ∧ rec.assetId = assetID
    · rw [if_pos hsame]
      rcases hsame with ⟨rfl, hid⟩
      simp only [ne_eq, reduceCtorEq, not_false_eq_true, true_iff]
      exact ⟨rec, Or.inr rfl, hid, hissuer⟩
    · rw [if_neg hsame, holder]
      constructor
      · rintro ⟨other, hother, hentry⟩
        exact ⟨other, Or.inl hother, hentry⟩
      · rintro ⟨other, hother | rfl, hid, hdecoded⟩
        · exact ⟨other, hother, hid, hdecoded⟩
        · rw [hissuer, Except.ok.injEq] at hdecoded
          exact absurd ⟨hdecoded, hid⟩ hsame
  · intro hslug list assetID addr
    rw [isMember_writeAsset]
    exact himported.members_iff hslug list assetID addr

theorem Imported.restriction
    {sdk : Sdk} {params : RWAParams} {assets : List AssetRecord}
    {restrictions : List Restriction} {store : RwaStore}
    (himported : Imported sdk params assets restrictions store)
    {r : Restriction} {addr : Address}
    (haddr : sdk.accAddressFromBech32 r.address = .ok addr) :
    Imported sdk params assets (restrictions ++ [r])
      (addMember r.list store r.assetId addr) := by
  have hget : ∀ key : RwaKey, (∀ list id addr, key ≠ .member list id addr) →
      (addMember r.list store r.assetId addr).get key = store.get key :=
    fun key hkey => get_addMember_of_ne _ _ _ _ fun id => hkey _ id _
  constructor
  · rw [hget _ (by simp)]
    exact himported.params_eq
  · intro hnodup assetID rec
    rw [getAsset_congr (hget _ (by simp))]
    exact himported.assets_iff hnodup assetID rec
  · intro issuer assetID
    rw [hget _ (by simp)]
    exact himported.index_iff issuer assetID
  · intro hslug list assetID addr'
    have holder := himported.members_iff
      (fun other hother => hslug other (by simp [hother])) list assetID addr'
    rw [isMember_addMember (hslug r (by simp))]
    simp only [List.mem_append, List.mem_singleton]
    by_cases hsame : r.list = list ∧ r.assetId = assetID ∧ addr = addr'
    · rw [if_pos hsame]
      rcases hsame with ⟨hlist, hid, rfl⟩
      simp only [true_iff]
      exact ⟨r, Or.inr rfl, hlist, hid, haddr⟩
    · rw [if_neg hsame, holder]
      constructor
      · rintro ⟨other, hother, hentry⟩
        exact ⟨other, Or.inl hother, hentry⟩
      · rintro ⟨other, hother | rfl, hlist, hid, hdecoded⟩
        · exact ⟨other, hother, hlist, hid, hdecoded⟩
        · rw [haddr, Except.ok.injEq] at hdecoded
          exact absurd ⟨hlist, hid, hdecoded⟩ hsame

/-- An import into an empty store leaves exactly the listed entries. -/
theorem imported_of_initGenesis
    {k : Keeper} {gs : GenesisState} {store : RwaStore}
    (hinit : initGenesis k TypedStore.empty gs = .ok store) :
    gs.Valid k.sdk ∧
      Imported k.sdk gs.params gs.assets gs.restrictions store := by
  simp only [initGenesis, bind_eq_ok_iff, mapError_eq_ok_iff, exists_const,
    GenesisState.validate_eq_ok_iff, setParams_eq_ok_iff] at hinit
  rcases hinit with ⟨hvalid, _, ⟨-, rfl⟩, middle, hassets, hrestrictions⟩
  have hmiddle : Imported k.sdk gs.params gs.assets [] middle := by
    refine foldlM_induct
      (P := fun done state => Imported k.sdk gs.params done [] state) ?_
      (imported_params k.sdk gs.params) hassets
    intro done state a state' hdone hset
    rcases setAsset_eq_ok_iff.mp hset with ⟨issuer, hissuer, rfl⟩
    exact hdone.asset hissuer
  refine ⟨hvalid, foldlM_induct
    (P := fun done state => Imported k.sdk gs.params gs.assets done state) ?_
    hmiddle hrestrictions⟩
  intro done state r state' hdone himport
  rcases importRestriction_eq_ok_iff.mp himport with ⟨addr, haddr, rfl⟩
  exact hdone.restriction haddr

end Rwa
end Vertix
