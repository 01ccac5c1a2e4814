import Vertix.RwaGenesis
import Vertix.SdkReference
import Mathlib.Tactic

/-!
# Invariants of an imported registry

The registered invariants of `x/rwa` compare the records with each other and
with the bank.  Genesis validation reads the records one by one and looks at
no bank at all, so that an import is sound exactly if the genesis state itself
is consistent in everything which validation leaves open.
-/

namespace Vertix
namespace Rwa

/-! ## The registered invariants -/

/-- `sdk.FormatInvariant` -/
def formatInvariant (name text : String) : String :=
  moduleName ++ ": " ++ name ++ " invariant\n" ++ text ++ "\n"

/-- One record of the loop: the sum of the bonds and whether the invariant is
broken.  A text which is no integer leaves a nil pointer behind. -/
def addBond (sdk : Sdk) (acc : SdkInt × Bool) (rec : AssetRecord) :
    Exec (SdkInt × Bool) :=
  if rec.status = .settled then return acc
  else do
    let bond ← Exec.ofOption (sdk.newIntFromString rec.bond)
    let broken := acc.2 || (decide (rec.status = .active) &&
      decide (bond.raw ≤ 0))
    let sum ← Exec.ofOption (acc.1.add? bond)
    return (sum, broken)

/-- The message and whether the invariant is broken. -/
def bondInvariant (k : Keeper) (s : RwaState) : Exec (String × Bool) := do
  let (sum, broken) ←
    (iterateAssets s.store).foldlM (addBond k.sdk) (SdkInt.zero, false)
  let moduleBal : ℤ := s.bank.balance (moduleAddress k) bondDenom
  return (formatInvariant "bonds"
      ("module uvtx balance must be >= sum of non-settled bonds and every " ++
        "ACTIVE asset must be bonded"),
    broken || decide (moduleBal < sum.raw))

def denomInvariant (s : RwaState) : String × Bool :=
  (formatInvariant "denoms"
      "pre-mint assets must have zero factory-denom supply",
    (iterateAssets s.store).any fun rec =>
      (rec.status == .draft || rec.status == .attested) &&
        s.bank.supply rec.denom != 0)

/-! ## What they check -/

/-- What the bond of a record adds to the sum. -/
def openBond (sdk : Sdk) (rec : AssetRecord) : ℤ :=
  if rec.status = .settled then 0
  else match sdk.newIntFromString rec.bond with
    | some bond => bond.raw
    | none => 0

def openBonds (sdk : Sdk) (records : List AssetRecord) : ℤ :=
  (records.map (openBond sdk)).sum

theorem addBond_eq_ok {sdk : Sdk} {acc acc' : SdkInt × Bool}
    {rec : AssetRecord} (hadd : addBond sdk acc rec = .ok acc') :
    acc'.1.raw = acc.1.raw + openBond sdk rec ∧
      (acc'.2 = false ↔ acc.2 = false ∧
        (rec.status = .active → IntWithin sdk rec.bond fun raw => 0 < raw)) := by
  unfold addBond at hadd
  split_ifs at hadd with hsettled
  · rw [pure_eq_ok_iff] at hadd
    rw [← hadd]
    simp [openBond, hsettled]
  · simp only [bind_eq_ok_iff, Exec.ofOption_eq_ok_iff, pure_eq_ok_iff,
      FixedPoint.add?, FixedPoint.checked_eq_some_iff] at hadd
    obtain ⟨bond, hbond, sum, hsum, hresult⟩ := hadd
    have hwithin : (IntWithin sdk rec.bond fun raw => 0 < raw) ↔
        0 < bond.raw := by
      constructor
      · exact fun h => h.of_parsed hbond
      · exact fun h => ⟨bond, hbond, h⟩
    rw [← hresult, hwithin]
    constructor
    · simp only [openBond, if_neg hsettled, hbond, hsum]
    · simp only [Bool.or_eq_false_iff, Bool.and_eq_false_iff,
        decide_eq_false_iff_not, not_le]
      rw [imp_iff_not_or]

theorem addBonds_eq_ok {sdk : Sdk} {records : List AssetRecord}
    {acc acc' : SdkInt × Bool}
    (hloop : records.foldlM (addBond sdk) acc = .ok acc') :
    acc'.1.raw = acc.1.raw + openBonds sdk records ∧
      (acc'.2 = false ↔ acc.2 = false ∧ ∀ rec ∈ records,
        rec.status = .active →
          IntWithin sdk rec.bond fun raw => 0 < raw) := by
  refine foldlM_induct (P := fun done state =>
    state.1.raw = acc.1.raw + openBonds sdk done ∧
      (state.2 = false ↔ acc.2 = false ∧ ∀ rec ∈ done,
        rec.status = .active →
          IntWithin sdk rec.bond fun raw => 0 < raw)) ?_ ?_ hloop
  · rintro done state rec state' ⟨hsum, hbroken⟩ hadd
    obtain ⟨hsum', hbroken'⟩ := addBond_eq_ok hadd
    constructor
    · rw [hsum', hsum, openBonds, openBonds, List.map_append, List.sum_append]
      simp [add_assoc]
    · rw [hbroken', hbroken]
      simp only [List.mem_append, List.mem_singleton, or_imp, forall_and,
        forall_eq, and_assoc]
  · simp [openBonds]

/-- The first registered check, in terms of the records. -/
theorem bondInvariant_eq_ok_iff {k : Keeper} {s : RwaState}
    {message : String} {broken : Bool}
    (hcheck : bondInvariant k s = .ok (message, broken)) :
    broken = false ↔
      (∀ rec ∈ iterateAssets s.store, rec.status = .active →
        IntWithin k.sdk rec.bond fun raw => 0 < raw) ∧
      openBonds k.sdk (iterateAssets s.store) ≤
        s.bank.balance (moduleAddress k) bondDenom := by
  simp only [bondInvariant, bind_eq_ok_iff, pure_eq_ok_iff,
    Prod.mk.injEq] at hcheck
  obtain ⟨⟨sum, flag⟩, hloop, -, rfl⟩ := hcheck
  obtain ⟨hsum, hflag⟩ := addBonds_eq_ok hloop
  have hzero : SdkInt.zero.raw = 0 := rfl
  simp only [hzero, zero_add, true_and] at hsum hflag
  rw [Bool.or_eq_false_iff, hflag, decide_eq_false_iff_not, not_lt, hsum]

theorem denomInvariant_iff (s : RwaState) :
    (denomInvariant s).2 = false ↔
      ∀ rec ∈ iterateAssets s.store,
        rec.status = .draft ∨ rec.status = .attested →
          s.bank.supply rec.denom = 0 := by
  simp [denomInvariant]

/-! ## Sound states -/

/-- The denominations are derived and distinct, the amounts make sense, every
open bond is covered, and no unit exists before the first mint. -/
structure InvariantsHold (k : Keeper) (s : RwaState) : Prop where
  denoms : ∀ assetID rec, getAsset s.store assetID = some rec →
    rec.assetId = assetID ∧ rec.denom = buildDenom assetID
  denoms_distinct : ∀ assetID assetID' rec rec',
    getAsset s.store assetID = some rec →
    getAsset s.store assetID' = some rec' → rec.denom = rec'.denom →
      assetID = assetID'
  bonds_nonneg : ∀ assetID rec, getAsset s.store assetID = some rec →
    IntWithin k.sdk rec.bond fun raw => 0 ≤ raw
  notionals_nonneg : ∀ assetID rec, getAsset s.store assetID = some rec →
    IntWithin k.sdk rec.notionalMinted fun raw => 0 ≤ raw
  active_bonded : ∀ assetID rec, getAsset s.store assetID = some rec →
    rec.status = .active → IntWithin k.sdk rec.bond fun raw => 0 < raw
  bonds_covered : openBonds k.sdk (iterateAssets s.store) ≤
    s.bank.balance (moduleAddress k) bondDenom
  premint_unissued : ∀ assetID rec, getAsset s.store assetID = some rec →
    rec.status = .draft ∨ rec.status = .attested →
      s.bank.supply rec.denom = 0

/-- In a sound state the registered checks find nothing broken. -/
theorem InvariantsHold.not_broken {k : Keeper} {s : RwaState}
    (hsound : InvariantsHold k s) :
    (denomInvariant s).2 = false ∧
      ∀ message broken, bondInvariant k s = .ok (message, broken) →
        broken = false := by
  constructor
  · rw [denomInvariant_iff]
    intro rec hrec
    exact hsound.premint_unissued rec.assetId rec (mem_iterateAssets.mp hrec)
  · intro message broken hcheck
    rw [bondInvariant_eq_ok_iff hcheck]
    refine ⟨?_, hsound.bonds_covered⟩
    intro rec hrec
    exact hsound.active_bonded rec.assetId rec (mem_iterateAssets.mp hrec)

/-- Everything which genesis validation leaves open. -/
structure GenesisConsistent (k : Keeper) (gs : GenesisState) (bank : Bank) :
    Prop where
  denoms : ∀ a ∈ gs.assets, a.denom = buildDenom a.assetId
  bonds_nonneg : ∀ a ∈ gs.assets, a.status = .draft ∨ a.status = .settled →
    IntWithin k.sdk a.bond fun raw => 0 ≤ raw
  notionals_nonneg : ∀ a ∈ gs.assets,
    IntWithin k.sdk a.notionalMinted fun raw => 0 ≤ raw
  active_bonded : (IntWithin k.sdk gs.params.minIssuerBond fun raw =>
      raw = 0) →
    ∀ a ∈ gs.assets, a.status = .active →
      IntWithin k.sdk a.bond fun raw => raw ≠ 0
  bonds_covered : openBonds k.sdk gs.assets ≤
    bank.balance (moduleAddress k) bondDenom
  premint_unissued : ∀ a ∈ gs.assets,
    a.status = .draft ∨ a.status = .attested → bank.supply a.denom = 0

/-- The imported records are those of the genesis state. -/
theorem mem_assets_iff {k : Keeper} {gs : GenesisState} {store : RwaStore}
    (hinit : initGenesis k TypedStore.empty gs = .ok store)
    {assetID : String} {rec : AssetRecord} :
    getAsset store assetID = some rec ↔
      rec ∈ gs.assets ∧ rec.assetId = assetID := by
  obtain ⟨hvalid, himported⟩ := imported_of_initGenesis hinit
  exact himported.assets_iff hvalid.assets_nodup assetID rec

theorem openBonds_imported {k : Keeper} {gs : GenesisState} {store : RwaStore}
    (hinit : initGenesis k TypedStore.empty gs = .ok store) :
    openBonds k.sdk (iterateAssets store) = openBonds k.sdk gs.assets := by
  have hnodup : gs.assets.Nodup :=
    (imported_of_initGenesis hinit).1.assets_nodup.of_map _
  have hperm : (iterateAssets store).Perm gs.assets := by
    rw [List.perm_ext_iff_of_nodup (iterateAssets_nodup store) hnodup]
    intro rec
    rw [mem_iterateAssets, mem_assets_iff hinit]
    simp
  exact (hperm.map _).sum_eq

/-- Validation bounds the bonds of attested and active records from below. -/
theorem GenesisState.Valid.bond_ge {sdk : Sdk} {gs : GenesisState}
    (hvalid : gs.Valid sdk) {a : AssetRecord} (ha : a ∈ gs.assets)
    (hstatus : a.status = .attested ∨ a.status = .active) :
    ∃ bond minBond, sdk.newIntFromString a.bond = some bond ∧
      sdk.newIntFromString gs.params.minIssuerBond = some minBond ∧
      0 ≤ minBond.raw ∧ minBond.raw ≤ bond.raw := by
  obtain ⟨bond, hbond, hle⟩ := (hvalid.assets a ha).bond
  obtain ⟨minBond, hmin, hnonneg⟩ := hvalid.params.minIssuerBond_nonneg
  rw [hmin] at hle
  exact ⟨bond, minBond, hbond, hmin, hnonneg, hle hstatus⟩

theorem GenesisConsistent.bond_nonneg {k : Keeper} {gs : GenesisState}
    {bank : Bank} (hgenesis : GenesisConsistent k gs bank)
    (hvalid : gs.Valid k.sdk) {a : AssetRecord} (ha : a ∈ gs.assets) :
    IntWithin k.sdk a.bond fun raw => 0 ≤ raw := by
  by_cases hstatus : a.status = .attested ∨ a.status = .active
  · obtain ⟨bond, minBond, hbond, -, hnonneg, hle⟩ :=
      hvalid.bond_ge ha hstatus
    exact ⟨bond, hbond, hnonneg.trans hle⟩
  · apply hgenesis.bonds_nonneg a ha
    have hspecified := (hvalid.assets a ha).specified
    cases hcase : a.status <;> simp_all

/-- A positive minimum bounds the bond of an active record, and under a zero
minimum the genesis state itself has to. -/
theorem GenesisConsistent.bond_pos {k : Keeper} {gs : GenesisState}
    {bank : Bank} (hgenesis : GenesisConsistent k gs bank)
    (hvalid : gs.Valid k.sdk) {a : AssetRecord} (ha : a ∈ gs.assets)
    (hactive : a.status = .active) :
    IntWithin k.sdk a.bond fun raw => 0 < raw := by
  obtain ⟨bond, minBond, hbond, hmin, hnonneg, hle⟩ :=
    hvalid.bond_ge ha (Or.inr hactive)
  refine ⟨bond, hbond, ?_⟩
  by_cases hzero : minBond.raw = 0
  · have hne := (hgenesis.active_bonded ⟨minBond, hmin, hzero⟩ a ha
      hactive).of_parsed hbond
    omega
  · omega

/-- An accepted genesis state leads to a sound registry exactly if it is
consistent in what validation leaves open. -/
theorem imported_registry_sound_iff {k : Keeper} {gs : GenesisState}
    {bank : Bank} {store : RwaStore}
    (hinit : initGenesis k TypedStore.empty gs = .ok store) :
    InvariantsHold k ⟨store, bank⟩ ↔ GenesisConsistent k gs bank := by
  obtain ⟨hvalid, -⟩ := imported_of_initGenesis hinit
  have hmem : ∀ {a : AssetRecord}, a ∈ gs.assets →
      getAsset store a.assetId = some a :=
    fun ha => (mem_assets_iff hinit).mpr ⟨ha, rfl⟩
  constructor
  · intro hsound
    constructor
    · intro a ha
      exact (hsound.denoms a.assetId a (hmem ha)).2
    · intro a ha _
      exact hsound.bonds_nonneg a.assetId a (hmem ha)
    · intro a ha
      exact hsound.notionals_nonneg a.assetId a (hmem ha)
    · intro _ a ha hactive
      obtain ⟨bond, hbond, hpos⟩ :=
        hsound.active_bonded a.assetId a (hmem ha) hactive
      exact ⟨bond, hbond, hpos.ne'⟩
    · have hcovered := hsound.bonds_covered
      rw [openBonds_imported hinit] at hcovered
      exact hcovered
    · intro a ha
      exact hsound.premint_unissued a.assetId a (hmem ha)
  · intro hgenesis
    have hdenoms : ∀ assetID rec, getAsset store assetID = some rec →
        rec.denom = buildDenom assetID := by
      intro assetID rec hget
      obtain ⟨hrec, rfl⟩ := (mem_assets_iff hinit).mp hget
      exact hgenesis.denoms rec hrec
    constructor
    · intro assetID rec hget
      exact ⟨((mem_assets_iff hinit).mp hget).2, hdenoms assetID rec hget⟩
    · intro assetID assetID' rec rec' hget hget' hsame
      rw [hdenoms assetID rec hget, hdenoms assetID' rec' hget'] at hsame
      exact buildDenom_injective hsame
    · intro assetID rec hget
      exact hgenesis.bond_nonneg hvalid ((mem_assets_iff hinit).mp hget).1
    · intro assetID rec hget
      exact hgenesis.notionals_nonneg rec ((mem_assets_iff hinit).mp hget).1
    · intro assetID rec hget hactive
      exact hgenesis.bond_pos hvalid ((mem_assets_iff hinit).mp hget).1 hactive
    · have hcovered := hgenesis.bonds_covered
      rw [← openBonds_imported hinit] at hcovered
      exact hcovered
    · intro assetID rec hget
      exact hgenesis.premint_unissued rec ((mem_assets_iff hinit).mp hget).1

/-- A genesis state with one record. -/
def oneAssetGenesis (status : AssetStatus) (denom : String) : GenesisState :=
  ⟨defaultParams, [{
      assetId := "land"
      issuer := referenceSdk.accAddressString (addressOf 1).bytes
      name := "Land"
      description := ""
      status := status
      oraclePair := "LAND:USD"
      denom := denom
      bond := "10000000000"
      notionalMinted := "0"
      allowAll := true
      attestedPrice := ""
      attestedAt := 0
      createdAt := 0
      settledAt := 0 }], []⟩

/-- The module account holds the given base coins, and nobody holds
anything else. -/
def moduleBank (amount : ℕ) : Bank where
  balance account denom :=
    if account = moduleAddress referenceKeeper ∧ denom = bondDenom then amount
    else 0
  supply denom := if denom = bondDenom then amount else 0

/-- A draft with its own denomination and a bond in the module account. -/
theorem covered_draft_sound :
    ∃ store,
      initGenesis referenceKeeper TypedStore.empty
          (oneAssetGenesis .draft "rwa/land") = .ok store ∧
        InvariantsHold referenceKeeper
          ⟨store, moduleBank 10000000000⟩ := by
  have hcompletes : (initGenesis referenceKeeper TypedStore.empty
      (oneAssetGenesis .draft "rwa/land")).toOption.any (fun _ => true) =
        true := by
    decide +kernel
  obtain ⟨store, hinit, -⟩ := exists_ok_of_any hcompletes
  have hbond : (referenceSdk.newIntFromString "10000000000").any
      (fun bond => 0 ≤ bond.raw) = true := by
    decide +kernel
  have hnotional : (referenceSdk.newIntFromString "0").any
      (fun notional => 0 ≤ notional.raw) = true := by
    decide +kernel
  have hopen : openBonds referenceSdk
      (oneAssetGenesis .draft "rwa/land").assets = 10000000000 := by
    decide +kernel
  have hbondWithin : IntWithin referenceSdk "10000000000"
      fun raw => 0 ≤ raw := by
    obtain ⟨bond, hparsed, hnonneg⟩ := exists_some_of_any hbond
    exact ⟨bond, hparsed, of_decide_eq_true hnonneg⟩
  have hnotionalWithin : IntWithin referenceSdk "0" fun raw => 0 ≤ raw := by
    obtain ⟨notional, hparsed, hnonneg⟩ := exists_some_of_any hnotional
    exact ⟨notional, hparsed, of_decide_eq_true hnonneg⟩
  refine ⟨store, hinit, (imported_registry_sound_iff hinit).mpr ?_⟩
  constructor
  · intro a ha
    rw [oneAssetGenesis, List.mem_singleton] at ha
    rw [ha]
    decide
  · intro a ha _
    rw [oneAssetGenesis, List.mem_singleton] at ha
    rw [ha]
    exact hbondWithin
  · intro a ha
    rw [oneAssetGenesis, List.mem_singleton] at ha
    rw [ha]
    exact hnotionalWithin
  · intro _ a ha hactive
    rw [oneAssetGenesis, List.mem_singleton] at ha
    rw [ha] at hactive
    cases hactive
  · refine hopen.le.trans (le_of_eq ?_)
    simp [moduleBank]
  · intro a ha _
    rw [oneAssetGenesis, List.mem_singleton] at ha
    rw [ha]
    decide

/-- An attested record in the base denomination, of whose bond the module
account holds nothing, is imported, and the registered invariants are broken
from the first block on. -/
theorem foreign_denom_imported :
    ∃ store,
      initGenesis referenceKeeper TypedStore.empty
          (oneAssetGenesis .attested "uvtx") = .ok store ∧
        (∃ rec, getAsset store "land" = some rec ∧ rec.denom = "uvtx") ∧
        (bondInvariant referenceKeeper ⟨store, moduleBank 5⟩).toOption.any
          (fun result => result.2) = true ∧
        (denomInvariant ⟨store, moduleBank 5⟩).2 = true ∧
        ¬ InvariantsHold referenceKeeper ⟨store, moduleBank 5⟩ := by
  have hfacts : (initGenesis referenceKeeper TypedStore.empty
      (oneAssetGenesis .attested "uvtx")).toOption.any (fun store =>
        (getAsset store "land").any (fun rec => rec.denom == "uvtx") &&
        (bondInvariant referenceKeeper ⟨store, moduleBank 5⟩).toOption.any
          (fun result => result.2) &&
        (denomInvariant ⟨store, moduleBank 5⟩).2) = true := by
    decide +kernel
  obtain ⟨store, hinit, hchecked⟩ := exists_ok_of_any hfacts
  simp only [Bool.and_eq_true] at hchecked
  obtain ⟨⟨hrec, hbonds⟩, hdenoms⟩ := hchecked
  obtain ⟨rec, hget, hdenom⟩ := exists_some_of_any hrec
  have hforeign : rec.denom = "uvtx" := by simpa using hdenom
  refine ⟨store, hinit, ⟨rec, hget, hforeign⟩, hbonds, hdenoms, ?_⟩
  intro hsound
  have hderived := (hsound.denoms "land" rec hget).2
  rw [hforeign] at hderived
  revert hderived
  decide

end Rwa
end Vertix
