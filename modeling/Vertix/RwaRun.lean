import Vertix.RwaEffect
import Vertix.TransitionRun
import Mathlib.Tactic

/-!
# Runs of the rwa module

A run interleaves rwa messages, bank sends and fee payments.  A transaction
needs the signature of an account with a key, which the module accounts other
than governance do not have; a failing or panicking transaction is reverted.
The lemmas below say which record a transaction may touch and which of its
fields it may change.
-/

namespace Vertix
namespace Rwa

open Transition

/-- The module accounts without a key.  Governance signs the messages of its
accepted proposals. -/
def keylessAccounts (k : Keeper) : List Address :=
  (moduleAccountNames.filter (· ≠ "gov")).map k.sdk.newModuleAddress

def RwaTx.signer (sdk : Sdk) : RwaTx → Except String Address
  | .registerAsset msg => sdk.accAddressFromBech32 msg.issuer
  | .attestAsset msg => sdk.accAddressFromBech32 msg.issuer
  | .mintRWA msg => sdk.accAddressFromBech32 msg.issuer
  | .transferRWA msg => sdk.accAddressFromBech32 msg.sender
  | .updateRestrictions msg => sdk.accAddressFromBech32 msg.issuer
  | .settleRWA msg => sdk.accAddressFromBech32 msg.issuer
  | .slashBond msg => sdk.accAddressFromBech32 msg.authority
  | .updateParams msg => sdk.accAddressFromBech32 msg.authority
  | .bankSend source _ => .ok source
  | .payFee payer _ => .ok payer

def RwaTx.signable (k : Keeper) (tx : RwaTx) : Bool :=
  match tx.signer k.sdk with
  | .ok signer => !(keylessAccounts k).contains signer
  | .error _ => false

def deliver (k : Keeper) (env : Env) (s : RwaState) (tx : RwaTx) :
    Exec RwaState := do
  reject (tx.signable k = false)
    (errSdkUnauthorized.wrap "signature verification failed")
  handle k env s tx

/-- The state after a transaction, which keeps the old one on failure. -/
def commit (s : RwaState) : Exec RwaState → RwaState
  | .ok s' => s'
  | .error _ => s

abbrev Label := Env × RwaTx

def rwaStep (k : Keeper) (s : RwaState) (label : Label) : Option RwaState :=
  some (commit s (deliver k label.1 s label.2))

abbrev History := List (RwaState × Label)

theorem accepted_of_deliver {k : Keeper} {env : Env} {s s' : RwaState}
    {tx : RwaTx} (hdeliver : deliver k env s tx = .ok s') :
    tx.signable k = true ∧ Accepted k env s tx s' := by
  simp only [deliver, bind_eq_ok_iff, reject_eq_ok_iff, exists_const,
    Bool.not_eq_false] at hdeliver
  exact ⟨hdeliver.1, accepted_of_handle hdeliver.2⟩

/-- A transaction takes effect or leaves the state as it was. -/
theorem rwaStep_cases
    {k : Keeper} {s s' : RwaState} {label : Label}
    (hstep : rwaStep k s label = some s') :
    (∃ failure, deliver k label.1 s label.2 = .error failure ∧ s' = s) ∨
      (deliver k label.1 s label.2 = .ok s' ∧
        label.2.signable k = true ∧ Accepted k label.1 s label.2 s') := by
  simp only [rwaStep, Option.some.injEq] at hstep
  cases hdeliver : deliver k label.1 s label.2 with
  | error failure =>
      left
      rw [hdeliver] at hstep
      exact ⟨failure, rfl, hstep.symm⟩
  | ok result =>
      right
      rw [hdeliver] at hstep
      have hsame : result = s' := hstep
      subst hsame
      exact ⟨rfl, accepted_of_deliver hdeliver⟩

theorem signer_not_keyless
    {k : Keeper} {tx : RwaTx} {signer : Address}
    (hsignable : tx.signable k = true)
    (hsigner : tx.signer k.sdk = .ok signer) :
    signer ∉ keylessAccounts k := by
  unfold RwaTx.signable at hsignable
  rw [hsigner] at hsignable
  simpa using hsignable

theorem ne_signer_of_keyless
    {k : Keeper} {tx : RwaTx} {account signer : Address}
    (hkeyless : account ∈ keylessAccounts k)
    (hsignable : tx.signable k = true)
    (hsigner : tx.signer k.sdk = .ok signer) : account ≠ signer := by
  intro heq
  rw [heq] at hkeyless
  exact signer_not_keyless hsignable hsigner hkeyless

theorem moduleAddress_keyless (k : Keeper) :
    moduleAddress k ∈ keylessAccounts k :=
  List.mem_map_of_mem (by decide)

theorem feeCollector_keyless (k : Keeper) :
    feeCollector k ∈ keylessAccounts k :=
  List.mem_map_of_mem (by decide)

theorem feeCollector_ne_moduleAddress (k : Keeper) :
    feeCollector k ≠ moduleAddress k := by
  intro heq
  have hname := k.sdk.newModuleAddress_distinct feeCollectorName (by decide)
    moduleName (by decide) heq
  revert hname
  decide

theorem distributionAccount_ne_moduleAddress (k : Keeper) :
    distributionAccount k ≠ moduleAddress k := by
  intro heq
  have hname := k.sdk.newModuleAddress_distinct distributionName (by decide)
    moduleName (by decide) heq
  revert hname
  decide

/-! ## Transactions of the past -/

/-- The transaction of a history entry succeeded. -/
def delivered (k : Keeper) (entry : RwaState × Label) : Bool :=
  match deliver k entry.2.1 entry.1 entry.2.2 with
  | .ok _ => true
  | .error _ => false

theorem delivered_of_ok {k : Keeper} {s s' : RwaState} {label : Label}
    (hdeliver : deliver k label.1 s label.2 = .ok s') :
    delivered k (s, label) = true := by
  simp [delivered, hdeliver]

theorem delivered_of_error {k : Keeper} {s : RwaState} {label : Label}
    {failure : Failure} (hdeliver : deliver k label.1 s label.2 = .error failure) :
    delivered k (s, label) = false := by
  simp [delivered, hdeliver]

/-- Some transaction of the given kind succeeded. -/
def TookPlace (k : Keeper) (kind : RwaTx → Prop) (history : History) : Prop :=
  ∃ entry ∈ history, delivered k entry = true ∧ kind entry.2.2

theorem tookPlace_cons {k : Keeper} {kind : RwaTx → Prop}
    {entry : RwaState × Label} {history : History} :
    TookPlace k kind (entry :: history) ↔
      (delivered k entry = true ∧ kind entry.2.2) ∨
        TookPlace k kind history := by
  simp [TookPlace]

def SettlesAsset (assetID : String) (tx : RwaTx) : Prop :=
  ∃ msg, tx = .settleRWA msg ∧ msg.assetId = assetID

def SlashesAsset (assetID : String) (tx : RwaTx) : Prop :=
  ∃ msg, tx = .slashBond msg ∧ msg.assetId = assetID

/-! ## Which record a transaction touches -/

/-- The asset whose record a transaction writes. -/
def RwaTx.written : RwaTx → Option String
  | .registerAsset msg => some msg.assetId
  | .attestAsset msg => some msg.assetId
  | .mintRWA msg => some msg.assetId
  | .updateRestrictions msg => some msg.assetId
  | .settleRWA msg => some msg.assetId
  | .slashBond msg => some msg.assetId
  | _ => none

theorem Owned.assetId {k : Keeper} {store : RwaStore}
    {assetID caller : String} {issuer : Address} {rec : AssetRecord}
    (howned : Owned k store assetID caller issuer rec) :
    rec.assetId = assetID :=
  getAsset_assetId howned.stored

theorem getAsset_writeAsset_of_ne {store : RwaStore} {issuer : Address}
    {rec : AssetRecord} {assetID : String} (hne : rec.assetId ≠ assetID) :
    getAsset (writeAsset store issuer rec) assetID = getAsset store assetID := by
  rw [getAsset_writeAsset, if_neg hne]

/-- The records of all other assets are kept. -/
theorem Accepted.getAsset_of_ne
    {k : Keeper} {env : Env} {s s' : RwaState} {tx : RwaTx}
    (haccepted : Accepted k env s tx s') {assetID : String}
    (hne : tx.written ≠ some assetID) :
    getAsset s'.store assetID = getAsset s.store assetID := by
  have hother : ∀ {written : String}, tx.written = some written →
      written ≠ assetID := by
    rintro written hwritten rfl
    exact hne hwritten
  cases haccepted with
  | registered => exact getAsset_writeAsset_of_ne (hother rfl)
  | attested howned =>
      apply getAsset_writeAsset_of_ne
      exact fun heq => hother rfl (howned.assetId.symm.trans heq)
  | minted howned =>
      apply getAsset_writeAsset_of_ne
      exact fun heq => hother rfl (howned.assetId.symm.trans heq)
  | transferred => rfl
  | restricted howned =>
      rw [← getAsset_apply _ s.store _ assetID]
      apply getAsset_writeAsset_of_ne
      exact fun heq => hother rfl (howned.assetId.symm.trans heq)
  | settled howned =>
      apply getAsset_writeAsset_of_ne
      exact fun heq => hother rfl (howned.assetId.symm.trans heq)
  | slashed hauthority hstored =>
      apply getAsset_writeAsset_of_ne
      exact fun heq => hother rfl ((getAsset_assetId hstored).symm.trans heq)
  | reparametrized => exact getAsset_writeParams s.store _ assetID
  | sent => rfl
  | paid => rfl

/-! ## The life of a record -/

/-- The asset state machine: the record before, if any, and the record
after. -/
inductive RecordStep (sdk : Sdk) : Option AssetRecord → AssetRecord → Prop
  | register (ctx : Ctx) {msg : MsgRegisterAsset} {bond : SdkInt}
      (hvalid : msg.Valid sdk)
      (hbond : sdk.newIntFromString msg.bond = some bond) :
      RecordStep sdk none (draftRecord sdk ctx msg bond)
  | attest (ctx : Ctx) (price : LegacyDec) {rec : AssetRecord}
      (hstatus : rec.status = .draft) :
      RecordStep sdk (some rec) (attestedRecord sdk ctx rec price)
  | mint {rec : AssetRecord} {prev notional total : SdkInt}
      (hstatus : rec.status = .attested ∨ rec.status = .active)
      (hprev : sdk.newIntFromString rec.notionalMinted = some prev)
      (hpos : 0 < notional.raw)
      (htotal : total.raw = prev.raw + notional.raw) :
      RecordStep sdk (some rec) (mintedRecord sdk rec total)
  | restrict (allowAll : Bool) {rec : AssetRecord}
      (hstatus : rec.status ≠ .settled) :
      RecordStep sdk (some rec) (restrictedRecord rec allowAll)
  | settle (ctx : Ctx) {rec : AssetRecord} (hstatus : rec.status = .active) :
      RecordStep sdk (some rec) (settledRecord ctx rec)
  | slash (ctx : Ctx) {rec : AssetRecord} (hstatus : rec.status = .active) :
      RecordStep sdk (some rec) (slashedRecord sdk ctx rec)

theorem getAsset_writeAsset_self {store : RwaStore} {issuer : Address}
    {rec : AssetRecord} {assetID : String} (hid : rec.assetId = assetID) :
    getAsset (writeAsset store issuer rec) assetID = some rec := by
  rw [getAsset_writeAsset, if_pos hid]

/-- The code's handlers refine the asset state machine. -/
theorem Accepted.recordStep
    {k : Keeper} {env : Env} {s s' : RwaState} {tx : RwaTx}
    (haccepted : Accepted k env s tx s') {assetID : String}
    (hwritten : tx.written = some assetID) :
    ∃ rec, getAsset s'.store assetID = some rec ∧
      RecordStep k.sdk (getAsset s.store assetID) rec := by
  cases haccepted with
  | registered hvalid hissuer hfresh hbond =>
      cases hwritten
      refine ⟨_, getAsset_writeAsset_self rfl, ?_⟩
      rw [hfresh]
      exact .register env.ctx hvalid hbond
  | attested howned hstatus =>
      cases hwritten
      refine ⟨_, getAsset_writeAsset_self howned.assetId, ?_⟩
      rw [howned.stored]
      exact .attest env.ctx _ hstatus
  | minted howned hstatus hnotional hpos hfee hprev htotal =>
      cases hwritten
      refine ⟨_, getAsset_writeAsset_self howned.assetId, ?_⟩
      rw [howned.stored]
      exact .mint hstatus hprev hpos htotal
  | transferred => cases hwritten
  | restricted howned hslug hstatus =>
      cases hwritten
      refine ⟨_, getAsset_writeAsset_self howned.assetId, ?_⟩
      rw [howned.stored]
      exact .restrict _ hstatus
  | settled howned hstatus =>
      cases hwritten
      refine ⟨_, getAsset_writeAsset_self howned.assetId, ?_⟩
      rw [howned.stored]
      exact .settle env.ctx hstatus
  | slashed hauthority hstored hissuer hstatus =>
      cases hwritten
      have hid := getAsset_assetId hstored
      refine ⟨_, getAsset_writeAsset_self hid, ?_⟩
      rw [hstored]
      exact .slash env.ctx hstatus
  | reparametrized => cases hwritten
  | sent => cases hwritten
  | paid => cases hwritten

/-- What registration establishes and every later step of the asset state
machine keeps is true of all records after a transaction. -/
theorem Accepted.records_induct
    {k : Keeper} {env : Env} {s s' : RwaState} {tx : RwaTx}
    {P : String → AssetRecord → Prop} (haccepted : Accepted k env s tx s')
    (hregister : ∀ assetID rec, RecordStep k.sdk none rec →
      rec.assetId = assetID → P assetID rec)
    (hkeep : ∀ assetID old rec, P assetID old →
      RecordStep k.sdk (some old) rec → P assetID rec)
    (hrecords : ∀ assetID rec,
      getAsset s.store assetID = some rec → P assetID rec) :
    ∀ assetID rec, getAsset s'.store assetID = some rec → P assetID rec := by
  intro assetID rec' hget
  by_cases hwritten : tx.written = some assetID
  · rcases haccepted.recordStep hwritten with ⟨rec, hrec, hstep⟩
    rw [hget, Option.some.injEq] at hrec
    subst hrec
    cases hold : getAsset s.store assetID with
    | none =>
        rw [hold] at hstep
        exact hregister assetID rec' hstep (getAsset_assetId hget)
    | some old =>
        rw [hold] at hstep
        exact hkeep assetID old rec' (hrecords assetID old hold) hstep
  · rw [haccepted.getAsset_of_ne hwritten] at hget
    exact hrecords assetID rec' hget

theorem RecordStep.not_settled
    {sdk : Sdk} {rec rec' : AssetRecord}
    (hstep : RecordStep sdk (some rec) rec') : rec.status ≠ .settled := by
  cases hstep with
  | attest ctx price hstatus => simp [hstatus]
  | mint hstatus => rcases hstatus with h | h <;> simp [h]
  | restrict allowAll hstatus => exact hstatus
  | settle ctx hstatus => simp [hstatus]
  | slash ctx hstatus => simp [hstatus]

/-- A record keeps its identity through every transition. -/
theorem RecordStep.frozen
    {sdk : Sdk} {rec rec' : AssetRecord}
    (hstep : RecordStep sdk (some rec) rec') :
    rec'.issuer = rec.issuer ∧ rec'.denom = rec.denom ∧
      rec'.oraclePair = rec.oraclePair := by
  cases hstep <;> exact ⟨rfl, rfl, rfl⟩

/-- What holds of every record which the module wrote. -/
structure RecordSound (sdk : Sdk) (rec : AssetRecord) : Prop where
  slug : slugRegexMatch rec.assetId = true
  denom_eq : rec.denom = buildDenom rec.assetId
  issuer_decodes : ∃ issuer, sdk.accAddressFromBech32 rec.issuer = .ok issuer
  specified : rec.status ≠ .unspecified
  pair : pairRegexMatch rec.oraclePair = true
  bond_nonneg : IntWithin sdk rec.bond fun raw => 0 ≤ raw
  bond_pos : rec.status ≠ .settled → IntWithin sdk rec.bond fun raw => 0 < raw
  notional_nonneg : IntWithin sdk rec.notionalMinted fun raw => 0 ≤ raw
  notional_zero : rec.status = .draft ∨ rec.status = .attested →
    IntWithin sdk rec.notionalMinted fun raw => raw = 0

theorem intWithin_intString (sdk : Sdk) {value : SdkInt} {inside : ℤ → Prop}
    (hinside : inside value.raw) :
    IntWithin sdk (sdk.intString value) inside :=
  ⟨value, sdk.int_roundTrip value, hinside⟩

theorem IntWithin.of_parsed
    {sdk : Sdk} {text : String} {value : SdkInt} {inside : ℤ → Prop}
    (hwithin : IntWithin sdk text inside)
    (hparsed : sdk.newIntFromString text = some value) : inside value.raw := by
  rcases hwithin with ⟨other, hother, hinside⟩
  rw [hparsed] at hother
  cases hother
  exact hinside

theorem RecordSound.register
    {sdk : Sdk} (ctx : Ctx) {msg : MsgRegisterAsset} {bond : SdkInt}
    (hvalid : msg.Valid sdk)
    (hbond : sdk.newIntFromString msg.bond = some bond) :
    RecordSound sdk (draftRecord sdk ctx msg bond) := by
  have hpos : 0 < bond.raw := hvalid.bond_pos.of_parsed hbond
  constructor
  · exact hvalid.slug
  · rfl
  · exact hvalid.issuer
  · simp [draftRecord]
  · exact hvalid.pair
  · exact intWithin_intString sdk hpos.le
  · exact fun _ => intWithin_intString sdk hpos
  · exact intWithin_intString sdk le_rfl
  · exact fun _ => intWithin_intString sdk rfl

theorem RecordSound.step
    {sdk : Sdk} {rec rec' : AssetRecord} (hsound : RecordSound sdk rec)
    (hstep : RecordStep sdk (some rec) rec') : RecordSound sdk rec' := by
  cases hstep with
  | attest ctx price hstatus =>
      exact ⟨hsound.slug, hsound.denom_eq, hsound.issuer_decodes,
        by simp [attestedRecord], hsound.pair, hsound.bond_nonneg,
        fun _ => hsound.bond_pos (by simp [hstatus]), hsound.notional_nonneg,
        fun _ => hsound.notional_zero (Or.inl hstatus)⟩
  | @mint _ prev notional total hstatus hprev hpos htotal =>
      have hprev_nonneg : 0 ≤ prev.raw :=
        hsound.notional_nonneg.of_parsed hprev
      have hbonded : rec.status ≠ .settled := by
        rcases hstatus with h | h <;> simp [h]
      refine ⟨hsound.slug, hsound.denom_eq, hsound.issuer_decodes,
        by simp [mintedRecord], hsound.pair, hsound.bond_nonneg,
        fun _ => hsound.bond_pos hbonded,
        intWithin_intString sdk (by omega), ?_⟩
      simp [mintedRecord]
  | restrict allowAll hstatus =>
      exact ⟨hsound.slug, hsound.denom_eq, hsound.issuer_decodes,
        hsound.specified, hsound.pair, hsound.bond_nonneg, hsound.bond_pos,
        hsound.notional_nonneg, hsound.notional_zero⟩
  | settle ctx hstatus =>
      exact ⟨hsound.slug, hsound.denom_eq, hsound.issuer_decodes,
        by simp [settledRecord], hsound.pair, hsound.bond_nonneg,
        fun h => absurd rfl h, hsound.notional_nonneg,
        by simp [settledRecord]⟩
  | slash ctx hstatus =>
      exact ⟨hsound.slug, hsound.denom_eq, hsound.issuer_decodes,
        by simp [slashedRecord, settledRecord], hsound.pair,
        intWithin_intString sdk le_rfl, fun h => absurd rfl h,
        hsound.notional_nonneg, by simp [slashedRecord, settledRecord]⟩

def RecordsSound (sdk : Sdk) (store : RwaStore) : Prop :=
  ∀ assetID rec, getAsset store assetID = some rec → RecordSound sdk rec

theorem RecordsSound.accepted
    {k : Keeper} {env : Env} {s s' : RwaState} {tx : RwaTx}
    (hsound : RecordsSound k.sdk s.store)
    (haccepted : Accepted k env s tx s') : RecordsSound k.sdk s'.store := by
  apply haccepted.records_induct (P := fun _ rec => RecordSound k.sdk rec)
    _ _ hsound
  · intro assetID rec hstep hid
    cases hstep with
    | register ctx hvalid hbond => exact .register ctx hvalid hbond
  · intro assetID old rec hold hstep
    exact hold.step hstep

theorem RecordsSound.denom_eq {k : Keeper} {store : RwaStore}
    {assetID caller : String} {issuer : Address} {rec : AssetRecord}
    (hsound : RecordsSound k.sdk store)
    (howned : Owned k store assetID caller issuer rec) :
    rec.denom = buildDenom assetID := by
  rw [(hsound assetID rec howned.stored).denom_eq, howned.assetId]

theorem RecordsSound.step
    {k : Keeper} {s s' : RwaState} {label : Label}
    (hsound : RecordsSound k.sdk s.store)
    (hstep : rwaStep k s label = some s') : RecordsSound k.sdk s'.store := by
  rcases rwaStep_cases hstep with ⟨-, -, hsame⟩ | ⟨-, -, haccepted⟩
  · rw [hsame]
    exact hsound
  · exact hsound.accepted haccepted

theorem RecordsSound.run
    {k : Keeper} {start s : RwaState} {history : History}
    (hsound : RecordsSound k.sdk start.store)
    (hrun : Run (rwaStep k) start history s) : RecordsSound k.sdk s.store :=
  Run.invariant (I := fun s => RecordsSound k.sdk s.store) hsound
    (fun _ _ _ hstate hstep => hstate.step hstep) hrun

theorem recordsSound_of_empty {sdk : Sdk} {store : RwaStore}
    (hempty : ∀ assetID, getAsset store assetID = none) :
    RecordsSound sdk store := by
  intro assetID rec hget
  rw [hempty] at hget
  cases hget

end Rwa
end Vertix
