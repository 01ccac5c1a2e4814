import Vertix.RwaProgress
import Mathlib.Tactic

/-!
# Issuers do not get in each other's way

An issuer's message reads and writes the file of one asset: its record, its
index entry and its lists.  Its payments run between the issuer, the fee
collector and the module account, and the shared two only add up.  Messages of
different issuers about different assets can therefore change places: each is
accepted or rejected as before, and the final state is the same.
-/

namespace Vertix
namespace Rwa

open Transition

/-- The messages an issuer sends about their own asset. -/
def RwaTx.byIssuer : RwaTx → Bool
  | .registerAsset _ => true
  | .attestAsset _ => true
  | .mintRWA _ => true
  | .updateRestrictions _ => true
  | .settleRWA _ => true
  | _ => false

/-! ## The file of an asset -/

def OwnKey (assetID : String) : RwaKey → Prop
  | .asset id => id = assetID
  | .issuerIndex _ id => id = assetID
  | .member _ id _ => id.text = assetID
  | .params => False

theorem OwnKey.unique {key : RwaKey} {assetID assetID' : String}
    (hown : OwnKey assetID key) (hown' : OwnKey assetID' key) :
    assetID = assetID' := by
  cases key with
  | asset id => exact hown.symm.trans hown'
  | issuerIndex issuer id => exact hown.symm.trans hown'
  | member list id addr => exact hown.symm.trans hown'
  | params => exact hown.elim

theorem get_addMember_of_foreign {assetID : String} {key : RwaKey}
    (hforeign : ¬ OwnKey assetID key) (list : MemberList) (store : RwaStore)
    (addr : Address) :
    (addMember list store assetID addr).get key = store.get key := by
  unfold addMember
  cases hid : keyId? assetID with
  | none => rfl
  | some id =>
      refine TypedStore.get_set_of_ne store _ ?_
      rintro rfl
      exact hforeign (keyId?_eq_some_iff.mp hid)

theorem get_delMember_of_foreign {assetID : String} {key : RwaKey}
    (hforeign : ¬ OwnKey assetID key) (list : MemberList) (store : RwaStore)
    (addr : Address) :
    (delMember list store assetID addr).get key = store.get key := by
  unfold delMember
  cases hid : keyId? assetID with
  | none => rfl
  | some id =>
      rw [TypedStore.get_delete, if_neg]
      rintro rfl
      exact hforeign (keyId?_eq_some_iff.mp hid)

theorem get_apply_of_foreign {assetID : String} {key : RwaKey}
    (hforeign : ¬ OwnKey assetID key) (changes : MemberChanges)
    (store : RwaStore) :
    (changes.apply store assetID).get key = store.get key := by
  simp only [MemberChanges.apply, addAllowlist, delAllowlist, addDenylist,
    delDenylist]
  rw [get_foldl_of_frame (get_delMember_of_foreign hforeign .deny),
    get_foldl_of_frame (get_addMember_of_foreign hforeign .deny),
    get_foldl_of_frame (get_delMember_of_foreign hforeign .allow),
    get_foldl_of_frame (get_addMember_of_foreign hforeign .allow)]

theorem get_writeAsset_of_foreign {assetID : String} {key : RwaKey}
    (hforeign : ¬ OwnKey assetID key) {rec : AssetRecord}
    (hid : rec.assetId = assetID) (store : RwaStore) (issuer : Address) :
    (writeAsset store issuer rec).get key = store.get key := by
  subst hid
  rw [get_writeAsset, if_neg, if_neg]
  · rintro rfl
    exact hforeign rfl
  · rintro rfl
    exact hforeign rfl

/-- What a write leaves at a key depends only on what was there. -/
theorem get_foldl_congr {change : RwaStore → Address → RwaStore}
    {key : RwaKey}
    (hchange : ∀ store store' addr, store'.get key = store.get key →
      (change store' addr).get key = (change store addr).get key)
    (addrs : List Address) {store store' : RwaStore}
    (hget : store'.get key = store.get key) :
    (addrs.foldl change store').get key =
      (addrs.foldl change store).get key := by
  induction addrs generalizing store store' with
  | nil => exact hget
  | cons addr rest ih => exact ih (hchange store store' addr hget)

theorem get_addMember_congr {key : RwaKey} (list : MemberList)
    (assetID : String) (store store' : RwaStore) (addr : Address)
    (hget : store'.get key = store.get key) :
    (addMember list store' assetID addr).get key =
      (addMember list store assetID addr).get key := by
  unfold addMember
  cases keyId? assetID with
  | none => exact hget
  | some id => simp only [TypedStore.get_set, hget]

theorem get_delMember_congr {key : RwaKey} (list : MemberList)
    (assetID : String) (store store' : RwaStore) (addr : Address)
    (hget : store'.get key = store.get key) :
    (delMember list store' assetID addr).get key =
      (delMember list store assetID addr).get key := by
  unfold delMember
  cases keyId? assetID with
  | none => exact hget
  | some id => simp only [TypedStore.get_delete, hget]

theorem get_apply_congr {key : RwaKey} (changes : MemberChanges)
    (assetID : String) {store store' : RwaStore}
    (hget : store'.get key = store.get key) :
    (changes.apply store' assetID).get key =
      (changes.apply store assetID).get key :=
  get_foldl_congr (get_delMember_congr .deny assetID) changes.delDeny
    (get_foldl_congr (get_addMember_congr .deny assetID) changes.addDeny
      (get_foldl_congr (get_delMember_congr .allow assetID) changes.delAllow
        (get_foldl_congr (get_addMember_congr .allow assetID) changes.addAllow
          hget)))

theorem get_writeAsset_congr {key : RwaKey} {store store' : RwaStore}
    (issuer : Address) (rec : AssetRecord)
    (hget : store'.get key = store.get key) :
    (writeAsset store' issuer rec).get key =
      (writeAsset store issuer rec).get key := by
  simp only [get_writeAsset, hget]

/-! ## What an issuer's message touches -/

section Effect

variable {k : Keeper} {env : Env} {s s' : RwaState} {tx : RwaTx}
  {assetID : String}

/-- An issuer's message writes to the file of its asset only. -/
theorem Accepted.get_of_foreign (haccepted : Accepted k env s tx s')
    (hissuer : tx.byIssuer = true) (hwritten : tx.written = some assetID)
    {key : RwaKey} (hforeign : ¬ OwnKey assetID key) :
    s'.store.get key = s.store.get key := by
  cases haccepted with
  | registered =>
      refine get_writeAsset_of_foreign hforeign ?_ _ _
      exact Option.some.inj hwritten
  | attested howned =>
      refine get_writeAsset_of_foreign hforeign ?_ _ _
      exact howned.assetId.trans (Option.some.inj hwritten)
  | minted howned =>
      refine get_writeAsset_of_foreign hforeign ?_ _ _
      exact howned.assetId.trans (Option.some.inj hwritten)
  | @restricted msg issuer rec changes howned =>
      have hid : msg.assetId = assetID := Option.some.inj hwritten
      refine (get_writeAsset_of_foreign hforeign ?_ _ _).trans ?_
      · exact howned.assetId.trans hid
      · rw [hid]
        exact get_apply_of_foreign hforeign changes s.store
  | settled howned =>
      refine get_writeAsset_of_foreign hforeign ?_ _ _
      exact howned.assetId.trans (Option.some.inj hwritten)
  | transferred => cases hissuer
  | slashed => cases hissuer
  | reparametrized => cases hissuer
  | sent => cases hissuer
  | paid => cases hissuer

/-- Nobody else's coins move, the shared accounts apart. -/
theorem Accepted.balance_of_stranger (haccepted : Accepted k env s tx s')
    (hissuer : tx.byIssuer = true) {account : Address}
    (hsigner : tx.signer k.sdk ≠ .ok account)
    (hkeyless : account ∉ keylessAccounts k) (denom : String) :
    s'.bank.balance account denom = s.bank.balance account denom := by
  have hmodule : account ≠ moduleAddress k := by
    rintro rfl
    exact hkeyless (moduleAddress_keyless k)
  have hcollector : account ≠ feeCollector k := by
    rintro rfl
    exact hkeyless (feeCollector_keyless k)
  cases haccepted with
  | @registered msg issuer bond bank hvalid hdecoded hfresh hbond hmin hbank =>
      have hother : account ≠ issuer := by
        rintro rfl
        exact hsigner hdecoded
      simpa [LedgerOp.outflow, LedgerOp.inflow, received, hother, hmodule]
        using Ledger.execAll_balance hbank account denom
  | attested => rfl
  | @minted msg issuer rec notional fee prev total bank howned hstatus
      hnotional hpos hfee hprev htotal hbank =>
      have hother : account ≠ issuer := by
        rintro rfl
        exact hsigner howned.caller_decodes
      simpa [LedgerOp.outflow, LedgerOp.inflow, received, hother, hmodule,
        hcollector] using Ledger.execAll_balance hbank account denom
  | restricted => rfl
  | @settled msg issuer rec notional fee bond bank howned hstatus hnotional
      hfee hbond hbank =>
      have hother : account ≠ issuer := by
        rintro rfl
        exact hsigner howned.caller_decodes
      simpa [LedgerOp.outflow, LedgerOp.inflow, received, hother, hmodule,
        hcollector] using Ledger.execAll_balance hbank account denom
  | transferred => cases hissuer
  | slashed => cases hissuer
  | reparametrized => cases hissuer
  | sent => cases hissuer
  | paid => cases hissuer

end Effect

/-! ## The same message in two states -/

/-- Two states agree on the parameters and on the file of an asset. -/
structure SameFile (assetID : String) (store store' : RwaStore) : Prop where
  params : store'.get .params = store.get .params
  own : ∀ key, OwnKey assetID key → store'.get key = store.get key

theorem SameFile.symm {assetID : String} {store store' : RwaStore}
    (hsame : SameFile assetID store store') : SameFile assetID store' store :=
  ⟨hsame.params.symm, fun key hown => (hsame.own key hown).symm⟩

theorem SameFile.getAsset {assetID : String} {store store' : RwaStore}
    (hsame : SameFile assetID store store') :
    getAsset store' assetID = getAsset store assetID :=
  getAsset_congr (hsame.own (.asset assetID) rfl)

theorem SameFile.getParams {assetID : String} {store store' : RwaStore}
    (hsame : SameFile assetID store store') :
    getParams store' = getParams store :=
  getParams_congr hsame.params

section TwoStates

variable {k : Keeper} {env : Env} {s s' t t' : RwaState} {tx : RwaTx}
  {assetID : String}

theorem Owned.transport {caller : String} {issuer : Address}
    {rec : AssetRecord} (hsame : SameFile assetID s.store t.store)
    (howned : Owned k s.store assetID caller issuer rec) :
    Owned k t.store assetID caller issuer rec :=
  ⟨hsame.getAsset.trans howned.stored, howned.signed, howned.decoded⟩

/-- An issuer's message depends on the file of its asset, the parameters and
the issuer's own coins. -/
theorem Enabled.transport (henabled : Enabled k env s tx)
    (hissuer : tx.byIssuer = true) (hwritten : tx.written = some assetID)
    (hsame : SameFile assetID s.store t.store)
    (hcoins : ∀ signer, tx.signer k.sdk = .ok signer → ∀ denom,
      t.bank.balance signer denom = s.bank.balance signer denom) :
    Enabled k env t tx := by
  cases henabled with
  | @register msg issuer bond hvalid hdecoded hfresh hbond hmin hfunds =>
      cases hwritten
      rw [← hsame.getAsset] at hfresh
      rw [← hsame.getParams] at hmin
      rw [← hcoins issuer hdecoded] at hfunds
      exact .register hvalid hdecoded hfresh hbond hmin hfunds
  | attest howned hstatus hprice =>
      cases hwritten
      exact .attest (howned.transport hsame) hstatus hprice
  | mint howned hstatus hnotional hpos hfee hprev htotal hfunds =>
      cases hwritten
      rw [← hsame.getParams] at hfee
      rw [← hcoins _ howned.caller_decodes] at hfunds
      exact .mint (howned.transport hsame) hstatus hnotional hpos hfee hprev
        htotal hfunds
  | restrict hvalid howned hstatus =>
      cases hwritten
      exact .restrict hvalid (howned.transport hsame) hstatus
  | settle howned hstatus hnotional hfee hfunds hunits =>
      cases hwritten
      rw [← hsame.getParams] at hfee
      rw [← hcoins _ howned.caller_decodes] at hfunds hunits
      exact .settle (howned.transport hsame) hstatus hnotional hfee hfunds
        hunits
  | transfer => cases hissuer
  | slash => cases hissuer
  | reparametrize => cases hissuer
  | send => cases hissuer
  | pay => cases hissuer

theorem Owned.unique {caller : String} {issuer issuer' : Address}
    {rec rec' : AssetRecord} (hsame : SameFile assetID s.store t.store)
    (howned : Owned k s.store assetID caller issuer rec)
    (howned' : Owned k t.store assetID caller issuer' rec') :
    rec' = rec ∧ issuer' = issuer := by
  have htransported := howned.transport hsame
  have hrec := Option.some.inj
    (howned'.stored.symm.trans htransported.stored)
  have hissuer := Except.ok.inj
    (howned'.caller_decodes.symm.trans htransported.caller_decodes)
  exact ⟨hrec, hissuer⟩

theorem FeeOf.unique {sdk : Sdk} {rate : String} {notional fee fee' : SdkInt}
    (hfee : FeeOf sdk rate notional fee)
    (hfee' : FeeOf sdk rate notional fee') : fee' = fee := by
  obtain ⟨value, hvalue, hproduct⟩ := hfee
  obtain ⟨value', hvalue', hproduct'⟩ := hfee'
  cases Except.ok.inj (hvalue.symm.trans hvalue')
  exact Option.some.inj (hproduct'.symm.trans hproduct)

theorem DecodesTo.unique {sdk : Sdk} {entries : List String}
    {addrs addrs' : List Address} (hdecodes : DecodesTo sdk entries addrs)
    (hdecodes' : DecodesTo sdk entries addrs') : addrs' = addrs := by
  induction hdecodes generalizing addrs' with
  | nil => cases hdecodes'; rfl
  | cons hentry _ ih =>
      cases hdecodes' with
      | cons hentry' hrest' =>
          rw [ih hrest', Except.ok.inj (hentry'.symm.trans hentry)]

/-- In two states with the same file an accepted message writes the same
values and makes the same payments. -/
theorem Accepted.same_effect (hs : Accepted k env s tx s')
    (ht : Accepted k env t tx t') (hissuer : tx.byIssuer = true)
    (hwritten : tx.written = some assetID)
    (hsame : SameFile assetID s.store t.store) :
    (∀ key, t.store.get key = s.store.get key →
      t'.store.get key = s'.store.get key) ∧
      ∃ ops, s.bank.execAll ops = some s'.bank ∧
        t.bank.execAll ops = some t'.bank := by
  cases hs with
  | @registered msg issuer bond bank hvalid hdecoded hfresh hbond hmin hbank =>
      cases ht with
      | registered hvalid' hdecoded' hfresh' hbond' hmin' hbank' =>
          cases Except.ok.inj (hdecoded.symm.trans hdecoded')
          cases Option.some.inj (hbond.symm.trans hbond')
          exact ⟨fun key => get_writeAsset_congr _ _, _, hbank, hbank'⟩
  | attested howned hstatus hprice =>
      cases ht with
      | attested howned' hstatus' hprice' =>
          cases hwritten
          obtain ⟨rfl, rfl⟩ := Owned.unique hsame howned howned'
          cases Except.ok.inj (hprice.symm.trans hprice')
          exact ⟨fun key => get_writeAsset_congr _ _, [], rfl, rfl⟩
  | minted howned hstatus hnotional hpos hfee hprev htotal hbank =>
      cases ht with
      | minted howned' hstatus' hnotional' hpos' hfee' hprev' htotal' hbank' =>
          cases hwritten
          obtain ⟨rfl, rfl⟩ := Owned.unique hsame howned howned'
          cases Option.some.inj (hnotional.symm.trans hnotional')
          cases Option.some.inj (hprev.symm.trans hprev')
          rw [hsame.getParams] at hfee'
          cases FeeOf.unique hfee hfee'
          cases FixedPoint.ext_raw (htotal'.trans htotal.symm)
          exact ⟨fun key => get_writeAsset_congr _ _, _, hbank, hbank'⟩
  | @restricted msg issuer rec changes howned hslug hstatus haddAllow
      hdelAllow haddDeny hdelDeny =>
      cases ht with
      | @restricted _ issuer' rec' changes' howned' hslug' hstatus'
          haddAllow' hdelAllow' haddDeny' hdelDeny' =>
          cases hwritten
          obtain ⟨rfl, rfl⟩ := Owned.unique hsame howned howned'
          have hchanges : changes' = changes := by
            cases changes
            cases changes'
            simp only [MemberChanges.mk.injEq]
            exact ⟨haddAllow.unique haddAllow', hdelAllow.unique hdelAllow',
              haddDeny.unique haddDeny', hdelDeny.unique hdelDeny'⟩
          subst hchanges
          exact ⟨fun key hget => get_writeAsset_congr _ _
            (get_apply_congr _ _ hget), [], rfl, rfl⟩
  | settled howned hstatus hnotional hfee hbond hbank =>
      cases ht with
      | settled howned' hstatus' hnotional' hfee' hbond' hbank' =>
          cases hwritten
          obtain ⟨rfl, rfl⟩ := Owned.unique hsame howned howned'
          cases Option.some.inj (hnotional.symm.trans hnotional')
          cases Option.some.inj (hbond.symm.trans hbond')
          rw [hsame.getParams] at hfee'
          cases FeeOf.unique hfee hfee'
          exact ⟨fun key => get_writeAsset_congr _ _, _, hbank, hbank'⟩
  | transferred => cases hissuer
  | slashed => cases hissuer
  | reparametrized => cases hissuer
  | sent => cases hissuer
  | paid => cases hissuer

end TwoStates

/-! ## Independent transactions -/

/-- The state after a transaction was tried. -/
def transact (k : Keeper) (s : RwaState) (label : Label) : RwaState :=
  commit s (deliver k label.1 s label.2)

/-- Messages of different issuers about different assets. -/
structure Independent (k : Keeper) (label label' : Label) : Prop where
  opened : label.1.Open ∧ label'.1.Open
  issued : label.2.byIssuer = true ∧ label'.2.byIssuer = true
  assets : label.2.written ≠ label'.2.written
  signers : label.2.signer k.sdk ≠ label'.2.signer k.sdk

theorem Independent.symm {k : Keeper} {label label' : Label}
    (hapart : Independent k label label') : Independent k label' label :=
  ⟨hapart.opened.symm, hapart.issued.symm, hapart.assets.symm,
    hapart.signers.symm⟩

theorem exists_written {tx : RwaTx} (hissuer : tx.byIssuer = true) :
    ∃ assetID, tx.written = some assetID := by
  cases tx with
  | registerAsset msg => exact ⟨msg.assetId, rfl⟩
  | attestAsset msg => exact ⟨msg.assetId, rfl⟩
  | mintRWA msg => exact ⟨msg.assetId, rfl⟩
  | updateRestrictions msg => exact ⟨msg.assetId, rfl⟩
  | settleRWA msg => exact ⟨msg.assetId, rfl⟩
  | transferRWA msg => cases hissuer
  | slashBond msg => cases hissuer
  | updateParams msg => cases hissuer
  | bankSend source outputs => cases hissuer
  | payFee payer coins => cases hissuer

theorem transact_of_ok {k : Keeper} {s s' : RwaState} {label : Label}
    (hdeliver : deliver k label.1 s label.2 = .ok s') :
    transact k s label = s' := by
  rw [transact, hdeliver]
  rfl

theorem transact_of_failed {k : Keeper} {s : RwaState} {label : Label}
    (hfailed : ¬ ∃ s', deliver k label.1 s label.2 = .ok s') :
    transact k s label = s := by
  cases hdeliver : deliver k label.1 s label.2 with
  | ok s' => exact absurd ⟨s', hdeliver⟩ hfailed
  | error failure =>
      rw [transact, hdeliver]
      rfl

section Swap

variable {k : Keeper} {s : RwaState} {label label' : Label}

/-- A transaction leaves alone the file of another asset. -/
theorem sameFile_transact (hissuer : label.2.byIssuer = true)
    {assetID : String} (hother : label.2.written ≠ some assetID) :
    SameFile assetID s.store (transact k s label).store := by
  by_cases hsucceeds : ∃ s', deliver k label.1 s label.2 = .ok s'
  · obtain ⟨s', hdeliver⟩ := hsucceeds
    rw [transact_of_ok hdeliver]
    obtain ⟨-, haccepted⟩ := accepted_of_deliver hdeliver
    obtain ⟨own, hwritten⟩ := exists_written hissuer
    refine ⟨haccepted.get_of_foreign hissuer hwritten id, fun key hkey =>
      haccepted.get_of_foreign hissuer hwritten fun hown => ?_⟩
    exact hother (hwritten.trans (congrArg some (hown.unique hkey)))
  · rw [transact_of_failed hsucceeds]
    exact ⟨rfl, fun _ _ => rfl⟩

/-- A transaction leaves alone the coins of another signer. -/
theorem balance_transact (hissuer : label.2.byIssuer = true)
    {account : Address} (hsigner : label.2.signer k.sdk ≠ .ok account)
    (hkeyless : account ∉ keylessAccounts k) (denom : String) :
    (transact k s label).bank.balance account denom =
      s.bank.balance account denom := by
  by_cases hsucceeds : ∃ s', deliver k label.1 s label.2 = .ok s'
  · obtain ⟨s', hdeliver⟩ := hsucceeds
    rw [transact_of_ok hdeliver]
    exact (accepted_of_deliver hdeliver).2.balance_of_stranger hissuer hsigner
      hkeyless denom
  · rw [transact_of_failed hsucceeds]

/-- A transaction is accepted after an independent one exactly when it was
accepted before. -/
theorem succeeds_transact_iff (hapart : Independent k label label')
    (hreserved : Reserved k s) (hreserved' : Reserved k (transact k s label)) :
    (∃ s', deliver k label'.1 (transact k s label) label'.2 = .ok s') ↔
      ∃ s', deliver k label'.1 s label'.2 = .ok s' := by
  rw [hreserved.exists_deliver_iff hapart.opened.2,
    hreserved'.exists_deliver_iff hapart.opened.2]
  refine and_congr_right fun hsignable => ?_
  obtain ⟨assetID, hwritten⟩ := exists_written hapart.issued.2
  have hsame : SameFile assetID s.store (transact k s label).store :=
    sameFile_transact hapart.issued.1 (hwritten ▸ hapart.assets)
  have hcoins : ∀ signer, label'.2.signer k.sdk = .ok signer → ∀ denom,
      (transact k s label).bank.balance signer denom =
        s.bank.balance signer denom := fun signer hsigner denom =>
    balance_transact hapart.issued.1 (hsigner ▸ hapart.signers)
      (signer_not_keyless hsignable hsigner) denom
  constructor
  · intro henabled
    exact henabled.transport hapart.issued.2 hwritten hsame.symm
      fun signer hsigner denom => (hcoins signer hsigner denom).symm
  · intro henabled
    exact henabled.transport hapart.issued.2 hwritten hsame hcoins

/-- Two accepted independent messages lead to one state in both orders: a key
belongs to at most one of the two files, and the payments add up. -/
theorem eq_of_swapped {s₁ s₂ s₁₂ s₂₁ : RwaState}
    (hapart : Independent k label label')
    (hfirst : deliver k label.1 s label.2 = .ok s₁)
    (hsecond : deliver k label'.1 s label'.2 = .ok s₂)
    (hafter : deliver k label'.1 s₁ label'.2 = .ok s₁₂)
    (hbefore : deliver k label.1 s₂ label.2 = .ok s₂₁) :
    s₁₂ = s₂₁ := by
  obtain ⟨-, haccepted₁⟩ := accepted_of_deliver hfirst
  obtain ⟨-, haccepted₂⟩ := accepted_of_deliver hsecond
  obtain ⟨-, haccepted₁₂⟩ := accepted_of_deliver hafter
  obtain ⟨-, haccepted₂₁⟩ := accepted_of_deliver hbefore
  obtain ⟨assetID, hwritten⟩ := exists_written hapart.issued.1
  obtain ⟨assetID', hwritten'⟩ := exists_written hapart.issued.2
  have hsame' : SameFile assetID' s.store s₁.store :=
    transact_of_ok hfirst ▸
      sameFile_transact hapart.issued.1 (hwritten' ▸ hapart.assets)
  have hsame : SameFile assetID s.store s₂.store :=
    transact_of_ok hsecond ▸
      sameFile_transact hapart.issued.2 (hwritten ▸ hapart.assets.symm)
  obtain ⟨hstore, ops, hops, hops₂⟩ :=
    haccepted₁.same_effect haccepted₂₁ hapart.issued.1 hwritten hsame
  obtain ⟨hstore', ops', hops', hops₁⟩ :=
    haccepted₂.same_effect haccepted₁₂ hapart.issued.2 hwritten' hsame'
  have hstores : s₁₂.store = s₂₁.store := by
    apply TypedStore.ext_get
    intro key
    by_cases hown : OwnKey assetID key
    · have hforeign : ¬ OwnKey assetID' key := fun hown' =>
        hapart.assets (by rw [hwritten, hwritten', hown.unique hown'])
      rw [haccepted₁₂.get_of_foreign hapart.issued.2 hwritten' hforeign]
      exact (hstore key (haccepted₂.get_of_foreign hapart.issued.2 hwritten'
        hforeign)).symm
    · rw [haccepted₂₁.get_of_foreign hapart.issued.1 hwritten hown]
      exact hstore' key
        (haccepted₁.get_of_foreign hapart.issued.1 hwritten hown)
  have hbanks : s₁₂.bank = s₂₁.bank := by
    apply Ledger.ext_balance
    · intro account denom
      have h₁ := Ledger.execAll_balance hops account denom
      have h₂ := Ledger.execAll_balance hops' account denom
      have h₁₂ := Ledger.execAll_balance hops₁ account denom
      have h₂₁ := Ledger.execAll_balance hops₂ account denom
      omega
    · intro denom
      have h₁ := Ledger.execAll_supply hops denom
      have h₂ := Ledger.execAll_supply hops' denom
      have h₁₂ := Ledger.execAll_supply hops₁ denom
      have h₂₁ := Ledger.execAll_supply hops₂ denom
      omega
  cases s₁₂
  cases s₂₁
  cases hstores
  cases hbanks
  rfl

theorem transact_comm (hapart : Independent k label label')
    (hreserved : Reserved k s) (hreserved₁ : Reserved k (transact k s label))
    (hreserved₂ : Reserved k (transact k s label')) :
    transact k (transact k s label) label' =
      transact k (transact k s label') label := by
  have hafter := succeeds_transact_iff hapart hreserved hreserved₁
  have hbefore := succeeds_transact_iff hapart.symm hreserved hreserved₂
  by_cases hfirst : ∃ s', deliver k label.1 s label.2 = .ok s'
  · by_cases hsecond : ∃ s', deliver k label'.1 s label'.2 = .ok s'
    · obtain ⟨s₁₂, hdelivered₁₂⟩ := hafter.mpr hsecond
      obtain ⟨s₂₁, hdelivered₂₁⟩ := hbefore.mpr hfirst
      obtain ⟨s₁, hdelivered₁⟩ := hfirst
      obtain ⟨s₂, hdelivered₂⟩ := hsecond
      rw [transact_of_ok hdelivered₁₂, transact_of_ok hdelivered₂₁]
      rw [transact_of_ok hdelivered₁] at hdelivered₁₂
      rw [transact_of_ok hdelivered₂] at hdelivered₂₁
      exact eq_of_swapped hapart hdelivered₁ hdelivered₂ hdelivered₁₂
        hdelivered₂₁
    · rw [transact_of_failed (hafter.not.mpr hsecond),
        transact_of_failed hsecond]
  · rw [transact_of_failed (hbefore.not.mpr hfirst),
      transact_of_failed hfirst]

end Swap

/-- A block of messages of different issuers about different assets has the
same outcome in every order, whichever of them succeed. -/
theorem independent_block_in_any_order
    {k : Keeper} {start s : RwaState} {history : History}
    {block block' : List Label}
    (hempty : ∀ assetID, getAsset start.store assetID = none)
    (hnone : ∀ assetID, start.bank.supply (buildDenom assetID) = 0)
    (hrun : Run (rwaStep k) start history s)
    (hapart : block.Pairwise (Independent k)) (hperm : block.Perm block') :
    block.foldl (transact k) s = block'.foldl (transact k) s := by
  have hnext : ∀ {s label}, (∃ history, Run (rwaStep k) start history s) →
      ∃ history, Run (rwaStep k) start history (transact k s label) := by
    rintro s label ⟨history, hreached⟩
    exact ⟨(s, label) :: history, hreached.next rfl⟩
  have hreserved : ∀ {s}, (∃ history, Run (rwaStep k) start history s) →
      Reserved k s := fun ⟨_, hreached⟩ =>
    reserved_of_run hempty hnone hreached
  refine foldl_eq_of_perm
    (I := fun s => ∃ history, Run (rwaStep k) start history s)
    (R := Independent k) Independent.symm ?_ ?_ hperm hapart ⟨history, hrun⟩
  · intro s label hreached
    exact hnext hreached
  · intro s label label' hreached hrelated
    exact transact_comm hrelated (hreserved hreached)
      (hreserved (hnext hreached)) (hreserved (hnext hreached))

def registerBarn : RwaTx :=
  .registerAsset ⟨holderText, "barn", "Barn", "", "BARN:USD", "10000000000"⟩

theorem registrations_apart :
    Independent referenceKeeper (openEnv, registerLand)
      (openEnv, registerBarn) where
  opened := ⟨fun _ => rfl, fun _ => rfl⟩
  issued := ⟨rfl, rfl⟩
  assets := by decide
  signers := by decide +kernel

/-- Two funded issuers register in either order. -/
theorem registrations_swap :
    ∃ history s,
      Run (rwaStep referenceKeeper) fundedState history s ∧
        (delivered referenceKeeper (s, openEnv, registerLand) = true ∧
          delivered referenceKeeper (s, openEnv, registerBarn) = true) ∧
        [(openEnv, registerLand), (openEnv, registerBarn)].foldl
            (transact referenceKeeper) s =
          [(openEnv, registerBarn), (openEnv, registerLand)].foldl
            (transact referenceKeeper) s := by
  have hfacts : (runLand [.bankSend (addressOf 1)
      [(addressOf 2, [(bondDenom, 10000000000)])]]).any (fun r =>
        delivered referenceKeeper (r.2, openEnv, registerLand) &&
          delivered referenceKeeper (r.2, openEnv, registerBarn)) = true := by
    decide +kernel
  obtain ⟨⟨history, s⟩, hrun, hboth⟩ := exists_some_of_any hfacts
  have hreached := run_of_runLand hrun
  refine ⟨history, s, hreached, (Bool.and_eq_true _ _).mp hboth, ?_⟩
  refine independent_block_in_any_order fundedState_empty
    (fun assetID => by simp [fundedState]) hreached ?_ (List.Perm.swap _ _ _)
  simp [registrations_apart]

end Rwa
end Vertix
