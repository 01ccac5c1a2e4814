import Vertix.RwaIndependence
import Vertix.RwaListUpdate
import Vertix.RwaPayments
import Mathlib.Tactic

/-!
# Winding up an asset

The bond of an asset comes back only with a settlement, and a settlement burns
every unit of the asset out of the issuer's account.  As long as all units are
with accounts that can sign, the messages of the module are enough to get
there: the issuer opens the asset to everybody and takes the holders off the
denylist, each holder hands its units back, and the issuer, which has to have
the fee, settles.  Units in a module account cannot be handed back, and then
this way is closed.
-/

namespace Vertix
namespace Rwa

open Transition

/-! ## The messages -/

/-- The issuer lifts the allowlist and takes one account off the denylist. -/
def openTo (sdk : Sdk) (rec : AssetRecord) (account : Address) : RwaTx :=
  .updateRestrictions ⟨rec.issuer, rec.assetId, true, [], [], [],
    [sdk.accAddressString account.bytes]⟩

/-- A holder transfers its units to the issuer. -/
def handBack (sdk : Sdk) (rec : AssetRecord) (holding : Address × SdkInt) :
    RwaTx :=
  .transferRWA ⟨sdk.accAddressString holding.1.bytes, rec.issuer, rec.assetId,
    sdk.intString holding.2⟩

def settleTx (rec : AssetRecord) : RwaTx :=
  .settleRWA ⟨rec.issuer, rec.assetId⟩

/-- All messages of the winding up, in order. -/
def windUp (sdk : Sdk) (rec : AssetRecord) (issuer : Address)
    (holdings : List (Address × SdkInt)) : List RwaTx :=
  (issuer :: holdings.map Prod.fst).map (openTo sdk rec) ++
    holdings.map (handBack sdk rec) ++ [settleTx rec]

/-- The accounts other than the issuer that hold units, with their units. -/
structure Holdings (k : Keeper) (bank : Bank) (units : String)
    (issuer : Address) (holdings : List (Address × SdkInt)) : Prop where
  nodup : (holdings.map Prod.fst).Nodup
  apart : issuer ∉ holdings.map Prod.fst
  keyed : ∀ holding ∈ holdings, holding.1 ∉ keylessAccounts k
  positive : ∀ holding ∈ holdings, 0 < holding.2.raw
  exact : ∀ holding ∈ holdings,
    holding.2.raw = bank.balance holding.1 units
  complete : bank.balance issuer units +
    (holdings.map fun holding => holding.2.raw.toNat).sum = bank.supply units

theorem rwaStep_of_delivered {k : Keeper} {env : Env} {s s' : RwaState}
    {tx : RwaTx} (hdelivered : deliver k env s tx = .ok s') :
    rwaStep k s (env, tx) = some s' := by
  rw [rwaStep, hdelivered]
  rfl

theorem exists_run_of_delivered {k : Keeper} {env : Env}
    {start s s' : RwaState} {history : History}
    (hrun : Run (rwaStep k) start history s) {txs : List RwaTx}
    (hdelivered : txs.foldlM (deliver k env) s = .ok s') :
    ∃ history', Run (rwaStep k) start history' s' := by
  induction txs generalizing history s with
  | nil =>
      rw [List.foldlM_nil, pure_eq_ok_iff] at hdelivered
      exact ⟨history, hdelivered ▸ hrun⟩
  | cons tx rest ih =>
      rw [List.foldlM_cons, bind_eq_ok_iff] at hdelivered
      obtain ⟨t, hfirst, hrest⟩ := hdelivered
      exact ih (hrun.next (rwaStep_of_delivered hfirst)) hrest

section Stages

variable {k : Keeper} {s t : RwaState} {rec : AssetRecord} {issuer : Address}

/-! ## Opening the asset -/

/-- The asset is open to the listed accounts, and nothing else was touched. -/
structure Opened (s t : RwaState) (rec : AssetRecord)
    (accounts : List Address) : Prop where
  bank : t.bank = s.bank
  params : getParams t.store = getParams s.store
  record : getAsset t.store rec.assetId = some { rec with allowAll := true }
  cleared : ∀ account ∈ accounts,
    isDenylisted t.store rec.assetId account = false

theorem openTo_valid (hslug : slugRegexMatch rec.assetId = true)
    (hdecoded : k.sdk.accAddressFromBech32 rec.issuer = .ok issuer)
    (account : Address) :
    (MsgUpdateRestrictions.mk rec.issuer rec.assetId true [] [] []
      [k.sdk.accAddressString account.bytes]).validateBasic k.sdk = .ok () := by
  simp [MsgUpdateRestrictions.validateBasic, validateRestrictionGroup,
    validateRestrictionEntries, maxRestrictionBatch, hslug, hdecoded,
    k.sdk.accAddress_roundTrip, bind_eq_ok_iff]

/-- One message of the issuer, on a record that differs from the original at
most in its openness. -/
theorem exists_openTo (env : Env) {allowAll : Bool}
    (hslug : slugRegexMatch rec.assetId = true)
    (hdecoded : k.sdk.accAddressFromBech32 rec.issuer = .ok issuer)
    (hkeyed : issuer ∉ keylessAccounts k) (hstatus : rec.status ≠ .settled)
    (hstored : getAsset t.store rec.assetId =
      some { rec with allowAll := allowAll })
    (account : Address) :
    ∃ t', deliver k env t (openTo k.sdk rec account) = .ok t' ∧
      t'.bank = t.bank ∧ getParams t'.store = getParams t.store ∧
      getAsset t'.store rec.assetId = some { rec with allowAll := true } ∧
      ∀ other, isDenylisted t'.store rec.assetId other = true →
        isDenylisted t.store rec.assetId other = true ∧ other ≠ account := by
  obtain ⟨t', hupdate⟩ := updateRestrictions_succeeds
    (openTo_valid hslug hdecoded account)
    ⟨hstored, rfl, hdecoded⟩ hstatus
  have hsigner : (openTo k.sdk rec account).signer k.sdk = .ok issuer :=
    hdecoded
  have hdeliver : deliver k env t (openTo k.sdk rec account) = .ok t' :=
    (deliver_eq_ok_iff hsigner).mpr ⟨hkeyed, hupdate⟩
  have heffect := netEffect_of_updateRestrictions hupdate
  refine ⟨t', hdeliver, heffect.bank, heffect.params, ?_, ?_⟩
  · obtain ⟨old, hold, hnew⟩ := heffect.record
    obtain rfl := Option.some.inj (hstored.symm.trans hold)
    exact hnew
  · intro other hdenied
    obtain ⟨hnamed, hbefore⟩ := (heffect.denied other).mp hdenied
    constructor
    · simpa [names] using hbefore
    · rintro rfl
      simp [names, k.sdk.accAddress_roundTrip] at hnamed

theorem opened_all (env : Env) (hslug : slugRegexMatch rec.assetId = true)
    (hdecoded : k.sdk.accAddressFromBech32 rec.issuer = .ok issuer)
    (hkeyed : issuer ∉ keylessAccounts k) (hstatus : rec.status ≠ .settled)
    (accounts : List Address) {done : List Address}
    (hopened : Opened s t rec done) :
    ∃ t', (accounts.map (openTo k.sdk rec)).foldlM (deliver k env) t =
        .ok t' ∧ Opened s t' rec (accounts ++ done) := by
  induction accounts generalizing t done with
  | nil => exact ⟨t, rfl, hopened⟩
  | cons account rest ih =>
      obtain ⟨t', hdeliver, hbank, hparams, hrecord, hdenied⟩ :=
        exists_openTo env hslug hdecoded hkeyed hstatus hopened.record account
      have hnext : Opened s t' rec (account :: done) := by
        refine ⟨hbank.trans hopened.bank, hparams.trans hopened.params,
          hrecord, ?_⟩
        intro other hother
        by_contra hlisted
        rw [Bool.not_eq_false] at hlisted
        obtain ⟨hbefore, hne⟩ := hdenied other hlisted
        rw [hopened.cleared other
          ((List.mem_cons.mp hother).resolve_left hne)] at hbefore
        cases hbefore
      obtain ⟨t'', hrest, hall⟩ := ih hnext
      refine ⟨t'', ?_, hall.bank, hall.params, hall.record, ?_⟩
      · rw [List.map_cons, List.foldlM_cons, hdeliver]
        exact hrest
      intro other hother
      refine hall.cleared other ?_
      simp only [List.cons_append, List.mem_cons, List.mem_append] at hother ⊢
      tauto

/-! ## Handing the units back -/

/-- The units of the listed holders are with the issuer, and nothing else has
moved. -/
structure Returned (s t : RwaState) (issuer : Address) (units : String)
    (done : List (Address × SdkInt)) : Prop where
  store : t.store = s.store
  base : ∀ account,
    t.bank.balance account bondDenom = s.bank.balance account bondDenom
  supply : t.bank.supply units = s.bank.supply units
  received : t.bank.balance issuer units = s.bank.balance issuer units +
    (done.map fun holding => holding.2.raw.toNat).sum
  others : ∀ account, account ≠ issuer → account ∉ done.map Prod.fst →
    t.bank.balance account units = s.bank.balance account units

theorem exists_handBack {env : Env} (hopen : env.Open)
    (hcanonical : Canonical t.store)
    (hdecoded : k.sdk.accAddressFromBech32 rec.issuer = .ok issuer)
    (hstored : getAsset t.store rec.assetId = some rec)
    (hactive : rec.status = .active) (hallowed : rec.allowAll = true)
    {holding : Address × SdkInt} (hkeyed : holding.1 ∉ keylessAccounts k)
    (hpositive : 0 < holding.2.raw)
    (hholds : holding.2.raw =
      t.bank.balance holding.1 (buildDenom rec.assetId))
    (hcleared : isDenylisted t.store rec.assetId issuer = false ∧
      isDenylisted t.store rec.assetId holding.1 = false) :
    ∃ bank, deliver k env t (handBack k.sdk rec holding) =
        .ok ⟨t.store, bank⟩ ∧
      t.bank.exec (.send holding.1 [(issuer,
        coinsOf (buildDenom rec.assetId) holding.2.raw.toNat)]) =
          some bank := by
  have hchecked : checkTransferAllowed k t.store rec.assetId holding.1 issuer =
      .ok () :=
    checkTransferAllowed_eq_ok_iff.mpr (.inr (.inr
      ⟨⟨rec, hstored, .inl hallowed, hcleared.2⟩,
        ⟨rec, hstored, .inl hallowed, hcleared.1⟩⟩))
  obtain ⟨bank, hmove⟩ := (exists_unitsMove_iff (by omega)).mpr
    ⟨hkeyed, hchecked, hopen _, (by omega : holding.2.raw.toNat ≤ _)⟩
  have hdeliver : deliver k env t (handBack k.sdk rec holding) =
      .ok ⟨t.store, bank⟩ :=
    (deliver_transferRWA_eq_ok_iff hcanonical hstored hactive
      (k.sdk.accAddress_roundTrip holding.1) hdecoded
      (k.sdk.int_roundTrip holding.2) hpositive).mpr ⟨bank, hmove, rfl⟩
  exact ⟨bank, hdeliver, hmove.moved⟩

theorem Returned.next {units : String} {done : List (Address × SdkInt)}
    (hreturned : Returned s t issuer units done) (hunits : units ≠ bondDenom)
    {holding : Address × SdkInt} (hne : holding.1 ≠ issuer) {bank : Bank}
    (hsend : t.bank.exec (.send holding.1
      [(issuer, coinsOf units holding.2.raw.toNat)]) = some bank) :
    Returned s ⟨t.store, bank⟩ issuer units (holding :: done) := by
  have hbalance : ∀ account, bank.balance account units +
      (if account = holding.1 then holding.2.raw.toNat else 0) =
        t.bank.balance account units +
          if account = issuer then holding.2.raw.toNat else 0 := by
    intro account
    have hlaw := Ledger.exec_balance hsend account units
    simpa [LedgerOp.outflow, LedgerOp.inflow, received, outputCoins,
      amountOf_coinsOf, eq_comm] using hlaw
  refine ⟨hreturned.store, ?_, ?_, ?_, ?_⟩
  · intro account
    rw [← hreturned.base account]
    exact balance_of_send_of_ne hsend account hunits.symm
  · rw [← hreturned.supply]
    exact supply_of_send hsend units
  · have hissuer := hbalance issuer
    have hbefore := hreturned.received
    rw [if_neg hne.symm, if_pos rfl] at hissuer
    simp only [List.map_cons, List.sum_cons]
    omega
  · intro account haccount hlisted
    rw [List.map_cons, List.mem_cons, not_or] at hlisted
    have hother := hbalance account
    rw [if_neg hlisted.1, if_neg haccount] at hother
    rw [← hreturned.others account haccount hlisted.2]
    exact hother

theorem returned_all (rec : AssetRecord) {env : Env} (hopen : env.Open)
    (hcanonical : Canonical s.store)
    (hdecoded : k.sdk.accAddressFromBech32 rec.issuer = .ok issuer)
    (hstored : getAsset s.store rec.assetId = some rec)
    (hactive : rec.status = .active) (hallowed : rec.allowAll = true)
    (hunits : buildDenom rec.assetId ≠ bondDenom)
    (hissuer : isDenylisted s.store rec.assetId issuer = false)
    (holdings : List (Address × SdkInt))
    (hnodup : (holdings.map Prod.fst).Nodup)
    (hholdings : ∀ holding ∈ holdings, holding.1 ≠ issuer ∧
      holding.1 ∉ keylessAccounts k ∧ 0 < holding.2.raw ∧
      holding.2.raw = s.bank.balance holding.1 (buildDenom rec.assetId) ∧
      isDenylisted s.store rec.assetId holding.1 = false)
    {done : List (Address × SdkInt)}
    (hapart : ∀ holding ∈ holdings, holding.1 ∉ done.map Prod.fst)
    (hreturned : Returned s t issuer (buildDenom rec.assetId) done) :
    ∃ t', (holdings.map (handBack k.sdk rec)).foldlM (deliver k env) t =
        .ok t' ∧
      Returned s t' issuer (buildDenom rec.assetId) (holdings ++ done) := by
  induction holdings generalizing t done with
  | nil => exact ⟨t, rfl, hreturned⟩
  | cons holding rest ih =>
      rw [List.forall_mem_cons] at hholdings hapart
      rw [List.map_cons, List.nodup_cons] at hnodup
      obtain ⟨⟨hne, hkeyed, hpositive, hexact, hcleared⟩, hrest⟩ := hholdings
      have hstore := hreturned.store
      obtain ⟨bank, hdeliver, hsend⟩ := exists_handBack (t := t) hopen
        (by rw [hstore]; exact hcanonical) hdecoded
        (by rw [hstore]; exact hstored) hactive hallowed hkeyed hpositive
        (by rw [hreturned.others _ hne hapart.1]; exact hexact)
        (by rw [hstore]; exact ⟨hissuer, hcleared⟩)
      have hfresh : ∀ other ∈ rest,
          other.1 ∉ (holding :: done).map Prod.fst := by
        intro other hother
        rw [List.map_cons, List.mem_cons, not_or]
        refine ⟨?_, hapart.2 other hother⟩
        intro heq
        exact hnodup.1 (heq ▸ List.mem_map_of_mem hother)
      obtain ⟨t', hlater, hall⟩ := ih hnodup.2 hrest hfresh
        (hreturned.next hunits hne hsend)
      refine ⟨t', ?_, hall.store, hall.base, hall.supply, ?_, ?_⟩
      · rw [List.map_cons, List.foldlM_cons, hdeliver]
        exact hlater
      · rw [hall.received]
        simp only [List.map_append, List.map_cons, List.cons_append,
          List.sum_append, List.sum_cons]
        omega
      · intro account haccount hlisted
        refine hall.others account haccount ?_
        simp only [List.map_append, List.map_cons, List.cons_append,
          List.mem_append, List.mem_cons] at hlisted ⊢
        tauto

/-! ## Settling -/

theorem exists_settle (rec : AssetRecord) {env : Env} (hopen : env.Open)
    (hreserved : Reserved k t) (hparams : (getParams t.store).Valid k.sdk)
    (hdecoded : k.sdk.accAddressFromBech32 rec.issuer = .ok issuer)
    (hkeyed : issuer ∉ keylessAccounts k)
    (hstored : getAsset t.store rec.assetId = some rec)
    (hactive : rec.status = .active) {minted bond fee : SdkInt}
    (hminted : k.sdk.newIntFromString rec.notionalMinted = some minted)
    (hbond : k.sdk.newIntFromString rec.bond = some bond)
    (hfee : FeeOf k.sdk (getParams t.store).settleFeeRate minted fee)
    (hfunds : fee.raw ≤ t.bank.balance issuer bondDenom)
    (hunits : minted.raw ≤ t.bank.balance issuer (buildDenom rec.assetId)) :
    ∃ t', deliver k env t (settleTx rec) = .ok t' ∧
      getAsset t'.store rec.assetId = some (settledRecord env.ctx rec) ∧
      t'.bank.supply (buildDenom rec.assetId) = 0 ∧
      (t'.bank.balance issuer bondDenom : ℤ) =
        t.bank.balance issuer bondDenom - fee.raw + bond.raw := by
  have howned : Owned k t.store rec.assetId rec.issuer issuer rec :=
    ⟨hstored, rfl, hdecoded⟩
  have hrecord := hreserved.sound _ _ hstored
  have hnonneg := hrecord.notional_nonneg.of_parsed hminted
  have hsupply := (hreserved.supply _ _ hstored hactive).of_parsed hminted
  obtain ⟨-, -, hfeeNonneg, -⟩ :=
    hfee.eq_floor hparams.settleFeeRate_range hnonneg
  obtain ⟨t', hsettled⟩ : ∃ t', settleRWA k env t
      ⟨rec.issuer, rec.assetId⟩ = .ok t' :=
    settleRWA_succeeds hopen hreserved hkeyed howned hactive hminted hfee
      hfunds hunits
  have hsigner : (settleTx rec).signer k.sdk = .ok issuer := hdecoded
  have hdeliver : deliver k env t (settleTx rec) = .ok t' :=
    (deliver_eq_ok_iff hsigner).mpr ⟨hkeyed, hsettled⟩
  obtain ⟨hsignable, haccepted⟩ := accepted_of_deliver hdeliver
  refine ⟨t', hdeliver, ?_⟩
  cases haccepted with
  | @settled _ issuer' rec' minted' fee' bond' bank howned' _ hminted' hfee'
      hbond' hbank =>
      obtain rfl := Option.some.inj (hstored.symm.trans howned'.stored)
      obtain rfl := Except.ok.inj (hdecoded.symm.trans howned'.decoded)
      obtain rfl := Option.some.inj (hminted.symm.trans hminted')
      obtain rfl := Option.some.inj (hbond.symm.trans hbond')
      obtain rfl := hfee.unique hfee'
      rw [hrecord.denom_eq] at hbank
      have hpays := paysExactly_of_settle
        (ne_signer_of_keyless (feeCollector_keyless k) hsignable hsigner)
        (ne_signer_of_keyless (moduleAddress_keyless k) hsignable hsigner)
        (buildDenom_ne_bondDenom _) hfeeNonneg
        (hrecord.bond_nonneg.of_parsed hbond) hnonneg hbank
      have hburned := Ledger.execAll_supply hbank (buildDenom rec.assetId)
      refine ⟨getAsset_writeAsset_self rfl, ?_, hpays.paid⟩
      change bank.supply (buildDenom rec.assetId) = 0
      simp only [LedgerOp.burned, LedgerOp.minted, amountOf_coinsOf,
        List.map_cons, List.map_nil, List.sum_cons, List.sum_nil, if_true,
        Nat.zero_add, Nat.add_zero] at hburned
      omega

end Stages

/-! ## The whole sequence -/

section Sequence

variable {k : Keeper} {env : Env} {start s : RwaState} {history : History}
  {rec : AssetRecord} {issuer : Address}

/-- The issuer opens the asset to itself and to the given accounts. -/
theorem exists_opened (env : Env)
    (hrun : Run (rwaStep k) start history s)
    (hslug : slugRegexMatch rec.assetId = true)
    (hdecoded : k.sdk.accAddressFromBech32 rec.issuer = .ok issuer)
    (hkeyed : issuer ∉ keylessAccounts k) (hstatus : rec.status ≠ .settled)
    (hstored : getAsset s.store rec.assetId = some rec)
    (accounts : List Address) :
    ∃ t history', ((issuer :: accounts).map (openTo k.sdk rec)).foldlM
        (deliver k env) s = .ok t ∧
      Run (rwaStep k) start history' t ∧
      Opened s t rec (accounts ++ [issuer]) := by
  obtain ⟨t, hfirst, hbank, hparams, hrecord, hdenied⟩ :=
    exists_openTo env hslug hdecoded hkeyed hstatus hstored issuer
  have hself : Opened s t rec [issuer] := by
    refine ⟨hbank, hparams, hrecord, ?_⟩
    intro account haccount
    by_contra hlisted
    rw [Bool.not_eq_false] at hlisted
    exact (hdenied account hlisted).2 (List.mem_singleton.mp haccount)
  obtain ⟨t', hrest, hopened⟩ :=
    opened_all env hslug hdecoded hkeyed hstatus accounts hself
  have hall : ((issuer :: accounts).map (openTo k.sdk rec)).foldlM
      (deliver k env) s = .ok t' := by
    rw [List.map_cons, List.foldlM_cons, hfirst]
    exact hrest
  obtain ⟨history', hrun'⟩ := exists_run_of_delivered hrun hall
  exact ⟨t', history', hall, hrun', hopened⟩

/-- Every holder of an opened asset hands its units back. -/
theorem exists_returned {t : RwaState}
    {holdings : List (Address × SdkInt)} (hopen : env.Open)
    (hrun : Run (rwaStep k) start history t)
    (hcanonical : Canonical t.store)
    (hdecoded : k.sdk.accAddressFromBech32 rec.issuer = .ok issuer)
    (hactive : rec.status = .active)
    (hholdings : Holdings k s.bank (buildDenom rec.assetId) issuer holdings)
    (hopened : Opened s t rec (holdings.map Prod.fst ++ [issuer])) :
    ∃ t' history', (holdings.map (handBack k.sdk rec)).foldlM
        (deliver k env) t = .ok t' ∧
      Run (rwaStep k) start history' t' ∧
      Returned t t' issuer (buildDenom rec.assetId) holdings := by
  have hstart : Returned t t issuer (buildDenom rec.assetId) [] :=
    ⟨rfl, fun _ => rfl, rfl, by simp, fun _ _ _ => rfl⟩
  have hready : ∀ holding ∈ holdings, holding.1 ≠ issuer ∧
      holding.1 ∉ keylessAccounts k ∧ 0 < holding.2.raw ∧
      holding.2.raw = t.bank.balance holding.1 (buildDenom rec.assetId) ∧
      isDenylisted t.store rec.assetId holding.1 = false := by
    intro holding hmem
    have hlisted : holding.1 ∈ holdings.map Prod.fst :=
      List.mem_map_of_mem hmem
    refine ⟨?_, hholdings.keyed holding hmem, hholdings.positive holding hmem,
      ?_, hopened.cleared _ (List.mem_append_left _ hlisted)⟩
    · rintro rfl
      exact hholdings.apart hlisted
    · rw [hopened.bank]
      exact hholdings.exact holding hmem
  obtain ⟨t', hdelivered, hall⟩ := returned_all { rec with allowAll := true }
    hopen hcanonical hdecoded hopened.record hactive rfl
    (buildDenom_ne_bondDenom _) (hopened.cleared issuer (by simp)) holdings
    hholdings.nodup hready (by simp) hstart
  rw [List.append_nil] at hall
  obtain ⟨history', hrun'⟩ := exists_run_of_delivered hrun hdelivered
  exact ⟨t', history', hdelivered, hrun', hall⟩

end Sequence

/-- An active asset can be wound up.  When the issuer has the fee, the holders
can sign and cooperate, and the bank refuses nothing, every message of `windUp`
is delivered, whatever restrictions were in force, and they end with the asset
settled, no unit left in circulation and the bond back with the issuer. -/
theorem wind_up_returns_bond
    {k : Keeper} {env : Env} {start s : RwaState} {history : History}
    {rec : AssetRecord} {issuer : Address} {minted bond fee : SdkInt}
    {holdings : List (Address × SdkInt)}
    (hempty : ∀ assetID, getAsset start.store assetID = none)
    (hnone : ∀ assetID, start.bank.supply (buildDenom assetID) = 0)
    (hrun : Run (rwaStep k) start history s) (hopen : env.Open)
    (hparams : (getParams s.store).Valid k.sdk)
    (hstored : getAsset s.store rec.assetId = some rec)
    (hactive : rec.status = .active)
    (hdecoded : k.sdk.accAddressFromBech32 rec.issuer = .ok issuer)
    (hkeyed : issuer ∉ keylessAccounts k)
    (hminted : k.sdk.newIntFromString rec.notionalMinted = some minted)
    (hbond : k.sdk.newIntFromString rec.bond = some bond)
    (hfee : FeeOf k.sdk (getParams s.store).settleFeeRate minted fee)
    (hfunds : fee.raw ≤ s.bank.balance issuer bondDenom)
    (hholdings : Holdings k s.bank (buildDenom rec.assetId) issuer holdings) :
    ∃ s', (windUp k.sdk rec issuer holdings).foldlM (deliver k env) s =
        .ok s' ∧
      getAsset s'.store rec.assetId =
        some (settledRecord env.ctx { rec with allowAll := true }) ∧
      s'.bank.supply (buildDenom rec.assetId) = 0 ∧
      (s'.bank.balance issuer bondDenom : ℤ) =
        s.bank.balance issuer bondDenom - fee.raw + bond.raw := by
  have hreserved := reserved_of_run hempty hnone hrun
  obtain ⟨t, historyₜ, ht, hrunₜ, hopened⟩ := exists_opened env hrun
    (hreserved.sound _ _ hstored).slug hdecoded hkeyed (by simp [hactive])
    hstored (holdings.map Prod.fst)
  obtain ⟨u, historyᵤ, hu, hrunᵤ, hreturned⟩ := exists_returned hopen hrunₜ
    (reserved_of_run hempty hnone hrunₜ).sound.canonical hdecoded hactive
    hholdings hopened
  have hparamsᵤ : getParams u.store = getParams s.store := by
    rw [hreturned.store, hopened.params]
  have hbase : u.bank.balance issuer bondDenom =
      s.bank.balance issuer bondDenom := by
    rw [hreturned.base, hopened.bank]
  -- the issuer holds the whole supply, which is what was minted
  have hheld : minted.raw ≤
      u.bank.balance issuer (buildDenom rec.assetId) := by
    have hsupply :=
      (hreserved.supply _ _ hstored hactive).of_parsed hminted
    have hall := hreturned.received
    have hcomplete := hholdings.complete
    rw [hopened.bank] at hall
    omega
  obtain ⟨s', hsettle, hsettled, hburned, hpaid⟩ :=
    exists_settle { rec with allowAll := true } hopen
      (reserved_of_run hempty hnone hrunᵤ) (hparamsᵤ ▸ hparams) hdecoded
      hkeyed (hreturned.store ▸ hopened.record) hactive hminted hbond
      (hparamsᵤ ▸ hfee) (hbase ▸ hfunds) hheld
  rw [hbase] at hpaid
  refine ⟨s', ?_, hsettled, hburned, hpaid⟩
  have hlast : deliver k env u (settleTx rec) = .ok s' := hsettle
  rw [windUp, List.append_assoc, foldlM_append_of_ok ht,
    foldlM_append_of_ok hu, List.foldlM_cons, hlast]
  rfl

/-- A third of the units are with a holder whom the issuer has denied. -/
def dispersedLand : List RwaTx :=
  [registerLand, attestLand, mintLand "1500",
    .transferRWA ⟨issuerText, holderText, "land", "500"⟩,
    .updateRestrictions ⟨issuerText, "land", false, [], [], [holderText], []⟩]

theorem openEnv_open : openEnv.Open := fun _ => rfl

theorem parties_keyed : addressOf 1 ∉ keylessAccounts referenceKeeper ∧
    addressOf 2 ∉ keylessAccounts referenceKeeper := by
  decide +kernel

/-- The fee for the settlement of the units. -/
theorem exists_land_fee :
    ∃ minted fee, referenceSdk.newIntFromString "1500" = some minted ∧
      FeeOf referenceSdk defaultParams.settleFeeRate minted fee ∧
      fee.raw = 1 := by
  have hfacts : (referenceSdk.newIntFromString "1500").any (fun minted =>
      (referenceSdk.legacyNewDecFromStr
        defaultParams.settleFeeRate).toOption.any fun rate =>
          (truncatedProduct minted rate).any fun fee =>
            decide (fee.raw = 1)) = true := by
    decide +kernel
  obtain ⟨minted, hminted, hrest⟩ := exists_some_of_any hfacts
  obtain ⟨rate, hrate, hrest⟩ := exists_ok_of_any hrest
  obtain ⟨fee, hfee, hone⟩ := exists_some_of_any hrest
  exact ⟨minted, fee, hminted, ⟨rate, hrate, hfee⟩, of_decide_eq_true hone⟩

theorem exists_parsed {text : String} {value : ℤ}
    (hparses : (referenceSdk.newIntFromString text).any
      (fun parsed => decide (parsed.raw = value)) = true) :
    ∃ parsed, referenceSdk.newIntFromString text = some parsed ∧
      parsed.raw = value := by
  obtain ⟨parsed, hparsed, hvalue⟩ := exists_some_of_any hparses
  exact ⟨parsed, hparsed, of_decide_eq_true hvalue⟩

/-- The denied holder is let out, and the issuer gets its bond back less the
two fees of one coin. -/
theorem dispersed_land_wound_up :
    ∃ history s rec held s',
      Run (rwaStep referenceKeeper) fundedState history s ∧
        isDenylisted s.store "land" (addressOf 2) = true ∧
        getAsset s.store "land" = some rec ∧
        (windUp referenceSdk rec (addressOf 1) [(addressOf 2, held)]).foldlM
          (deliver referenceKeeper openEnv) s = .ok s' ∧
        s'.bank.supply "rwa/land" = 0 ∧
        (s'.bank.balance (addressOf 1) bondDenom : ℤ) = 19999999998 := by
  have hfacts : (runLand dispersedLand).any (fun r =>
      isDenylisted r.2.store "land" (addressOf 2) &&
      decide (getParams r.2.store = defaultParams) &&
      decide (r.2.bank.balance (addressOf 1) (buildDenom "land") = 1000) &&
      decide (r.2.bank.balance (addressOf 2) (buildDenom "land") = 500) &&
      decide (r.2.bank.supply (buildDenom "land") = 1500) &&
      decide (r.2.bank.balance (addressOf 1) bondDenom = 9999999999) &&
      (getAsset r.2.store "land").any fun rec =>
        decide (rec.assetId = "land") && decide (rec.issuer = issuerText) &&
        decide (rec.status = .active) &&
        decide (rec.notionalMinted = "1500") &&
        decide (rec.bond = "10000000000")) = true := by
    decide +kernel
  obtain ⟨⟨history, s⟩, hrun, hchecked⟩ := exists_some_of_any hfacts
  simp only [Bool.and_eq_true, decide_eq_true_eq] at hchecked
  obtain ⟨⟨⟨⟨⟨⟨hdenied, hparams⟩, hissuer⟩, hholder⟩, hsupply⟩, hbase⟩,
    hrecord⟩ := hchecked
  obtain ⟨rec, hget, hfields⟩ := exists_some_of_any hrecord
  simp only [Bool.and_eq_true, decide_eq_true_eq] at hfields
  obtain ⟨⟨⟨⟨hid, htext⟩, hactive⟩, hnotional⟩, hbondText⟩ := hfields
  obtain ⟨minted, fee, hminted, hfee, hone⟩ := exists_land_fee
  obtain ⟨bond, hbond, hbondRaw⟩ : ∃ bond,
      referenceSdk.newIntFromString "10000000000" = some bond ∧
        bond.raw = 10000000000 := exists_parsed (by decide +kernel)
  obtain ⟨held, -, hheld⟩ : ∃ held,
      referenceSdk.newIntFromString "500" = some held ∧ held.raw = 500 :=
    exists_parsed (by decide +kernel)
  have hholdings : Holdings referenceKeeper s.bank (buildDenom rec.assetId)
      (addressOf 1) [(addressOf 2, held)] := by
    have hne : addressOf 1 ≠ addressOf 2 := by decide
    refine ⟨by simp, by simpa using hne, ?_, ?_, ?_, ?_⟩
    · simpa using parties_keyed.2
    · simp [hheld]
    · simp [hheld, hid, hholder]
    · simp [hheld, hid, hissuer, hsupply]
  obtain ⟨s', hplan, -, hburned, hpaid⟩ := wind_up_returns_bond
    fundedState_empty (by simp [fundedState]) (run_of_runLand hrun)
    openEnv_open (hparams ▸ defaultParams_valid) (hid ▸ hget) hactive
    (htext ▸ issuerText_decoded) parties_keyed.1 (hnotional ▸ hminted)
    (hbondText ▸ hbond) (hparams ▸ hfee) (by rw [hone, hbase]; norm_num)
    hholdings
  rw [hbase, hone, hbondRaw] at hpaid
  rw [hid] at hburned
  exact ⟨history, s, rec, held, s', run_of_runLand hrun, hdenied, hget, hplan,
    hburned, hpaid⟩

/-! ## Assets that were never issued -/

theorem oneUnit_bounded : (1 : ℤ).natAbs < 2 ^ 256 := by decide

def oneUnit : SdkInt := ⟨1, oneUnit_bounded⟩

/-- The issuer attests the asset if need be, mints one unit and settles. -/
def callOff (sdk : Sdk) (rec : AssetRecord) : List RwaTx :=
  (if rec.status = .draft then [.attestAsset ⟨rec.issuer, rec.assetId⟩]
    else []) ++
    [.mintRWA ⟨rec.issuer, rec.assetId, sdk.intString oneUnit⟩, settleTx rec]

/-- Rates are below one, so a single unit is free. -/
theorem feeOf_oneUnit {sdk : Sdk} {rate : String}
    (hrate : ParsesWithin sdk rate
      fun raw => 0 ≤ raw ∧ raw < legacyOneDec.raw) :
    FeeOf sdk rate oneUnit SdkInt.zero := by
  obtain ⟨value, hparsed, hnonneg, hlt⟩ := hrate
  have hone : legacyOneDec.raw = 10 ^ 18 := rfl
  refine ⟨value, hparsed, truncatedProduct_eq_some_iff.mpr ⟨?_, ?_⟩⟩
  · change (1 * value.raw).natAbs < 2 ^ 256 * 10 ^ 18
    omega
  · change 0 = (1 * value.raw).tdiv (10 ^ 18)
    rw [one_mul, Int.tdiv_eq_zero_of_lt hnonneg (by omega)]

section Unissued

variable {k : Keeper} {env : Env} {start s : RwaState} {history : History}
  {rec : AssetRecord} {issuer : Address}

/-- The record is attested and otherwise as it was. -/
structure Ready (s t : RwaState) (rec rec' : AssetRecord) : Prop where
  bank : t.bank = s.bank
  params : getParams t.store = getParams s.store
  stored : getAsset t.store rec.assetId = some rec'
  attested : rec'.status = .attested
  same : rec'.assetId = rec.assetId ∧ rec'.issuer = rec.issuer ∧
    rec'.bond = rec.bond

theorem exists_ready {price : LegacyDec}
    (hsound : RecordsSound k.sdk s.store)
    (hstored : getAsset s.store rec.assetId = some rec)
    (hstatus : rec.status = .draft ∨ rec.status = .attested)
    (hdecoded : k.sdk.accAddressFromBech32 rec.issuer = .ok issuer)
    (hkeyed : issuer ∉ keylessAccounts k)
    (hprice : env.getPrice rec.oraclePair = .ok price) :
    ∃ t rec', (if rec.status = .draft then
        [RwaTx.attestAsset ⟨rec.issuer, rec.assetId⟩] else []).foldlM
          (deliver k env) s = .ok t ∧
      Ready s t rec rec' := by
  rcases hstatus with hdraft | hattested
  · obtain ⟨t, hattest⟩ : ∃ t, attestAsset k env s
        ⟨rec.issuer, rec.assetId⟩ = .ok t :=
      attestAsset_succeeds hsound ⟨hstored, rfl, hdecoded⟩ hdraft hprice
    have hsigner : (RwaTx.attestAsset ⟨rec.issuer, rec.assetId⟩).signer
        k.sdk = .ok issuer := hdecoded
    have hdeliver : deliver k env s (.attestAsset ⟨rec.issuer, rec.assetId⟩) =
        .ok t := (deliver_eq_ok_iff hsigner).mpr ⟨hkeyed, hattest⟩
    refine ⟨t, attestedRecord k.sdk env.ctx rec price, ?_, ?_⟩
    · rw [if_pos hdraft, List.foldlM_cons, hdeliver]
      rfl
    · cases (accepted_of_deliver hdeliver).2 with
      | attested howned' _ hprice' =>
          obtain rfl := Option.some.inj (hstored.symm.trans howned'.stored)
          obtain rfl := Except.ok.inj (hprice.symm.trans hprice')
          exact ⟨rfl, getParams_congr (by simp [get_writeAsset]),
            getAsset_writeAsset_self rfl, rfl, rfl, rfl, rfl⟩
  · refine ⟨s, rec, ?_, rfl, rfl, hstored, hattested, rfl, rfl, rfl⟩
    rw [if_neg (by simp [hattested])]
    rfl

/-- One unit of an attested asset is with the issuer. -/
structure Issued (t u : RwaState) (issuer : Address)
    (rec rec' : AssetRecord) : Prop where
  params : getParams u.store = getParams t.store
  stored : getAsset u.store rec.assetId = some rec'
  active : rec'.status = .active
  same : rec'.assetId = rec.assetId ∧ rec'.issuer = rec.issuer ∧
    rec'.bond = rec.bond
  base : (u.bank.balance issuer bondDenom : ℤ) =
    t.bank.balance issuer bondDenom
  held : 1 ≤ (u.bank.balance issuer (buildDenom rec.assetId) : ℤ)

theorem exists_issued {t : RwaState} (hopen : env.Open)
    (hsound : RecordsSound k.sdk t.store)
    (hparams : (getParams t.store).Valid k.sdk)
    (hstored : getAsset t.store rec.assetId = some rec)
    (hattested : rec.status = .attested)
    (hdecoded : k.sdk.accAddressFromBech32 rec.issuer = .ok issuer)
    (hkeyed : issuer ∉ keylessAccounts k) :
    ∃ u rec', deliver k env t (.mintRWA ⟨rec.issuer, rec.assetId,
        k.sdk.intString oneUnit⟩) = .ok u ∧ Issued t u issuer rec rec' ∧
      k.sdk.newIntFromString rec'.notionalMinted = some oneUnit := by
  have hfree := feeOf_oneUnit hparams.mintFeeRate_range
  have hrecord := hsound _ _ hstored
  obtain ⟨prev, hprev, hzero⟩ := hrecord.notional_zero (.inr hattested)
  have hsum : oneUnit.raw = prev.raw + oneUnit.raw := by rw [hzero, zero_add]
  obtain ⟨u, hmint⟩ : ∃ u, mintRWA k env t ⟨rec.issuer, rec.assetId,
      k.sdk.intString oneUnit⟩ = .ok u :=
    mintRWA_succeeds hopen hsound hkeyed ⟨hstored, rfl, hdecoded⟩
      (.inl hattested) (k.sdk.int_roundTrip oneUnit) one_pos hfree hprev hsum
      (Int.natCast_nonneg _)
  have hsigner : (RwaTx.mintRWA ⟨rec.issuer, rec.assetId,
      k.sdk.intString oneUnit⟩).signer k.sdk = .ok issuer := hdecoded
  have hdeliver : deliver k env t (.mintRWA ⟨rec.issuer, rec.assetId,
      k.sdk.intString oneUnit⟩) = .ok u :=
    (deliver_eq_ok_iff hsigner).mpr ⟨hkeyed, hmint⟩
  obtain ⟨hsignable, haccepted⟩ := accepted_of_deliver hdeliver
  cases haccepted with
  | @minted _ issuer' rec' notional fee prev' total bank howned' _ hnotional _
      hfee hprev' htotal hbank =>
      obtain rfl := Option.some.inj (hstored.symm.trans howned'.stored)
      obtain rfl := Except.ok.inj (hdecoded.symm.trans howned'.decoded)
      obtain rfl := Option.some.inj
        ((k.sdk.int_roundTrip oneUnit).symm.trans hnotional)
      obtain rfl := hfree.unique hfee
      obtain rfl := Option.some.inj (hprev.symm.trans hprev')
      obtain rfl : total = oneUnit :=
        FixedPoint.ext_raw (htotal.trans hsum.symm)
      rw [hrecord.denom_eq] at hbank
      have hpays := paysExactly_of_mint
        (ne_signer_of_keyless (feeCollector_keyless k) hsignable hsigner)
        (ne_signer_of_keyless (moduleAddress_keyless k) hsignable hsigner)
        (buildDenom_ne_bondDenom _) le_rfl zero_le_one hbank
      have hpaid := hpays.paid
      have hheld := hpays.held
      refine ⟨_, _, hdeliver,
        ⟨getParams_congr (by simp [get_writeAsset]),
          getAsset_writeAsset_self rfl, rfl, ⟨rfl, rfl, rfl⟩, ?_, ?_⟩,
        k.sdk.int_roundTrip oneUnit⟩
      · rw [hpaid, sub_zero, add_zero]
      · rw [hheld]
        omega

end Unissued

/-- The issuer of an asset that was never issued gets its bond back alone,
without a fee, as soon as the pair of the asset has a price and the bank
refuses nothing: every message of `callOff` is delivered. -/
theorem unissued_bond_recovered
    {k : Keeper} {env : Env} {start s : RwaState} {history : History}
    {rec : AssetRecord} {issuer : Address} {bond : SdkInt} {price : LegacyDec}
    (hempty : ∀ assetID, getAsset start.store assetID = none)
    (hnone : ∀ assetID, start.bank.supply (buildDenom assetID) = 0)
    (hrun : Run (rwaStep k) start history s) (hopen : env.Open)
    (hparams : (getParams s.store).Valid k.sdk)
    (hstored : getAsset s.store rec.assetId = some rec)
    (hstatus : rec.status = .draft ∨ rec.status = .attested)
    (hdecoded : k.sdk.accAddressFromBech32 rec.issuer = .ok issuer)
    (hkeyed : issuer ∉ keylessAccounts k)
    (hbond : k.sdk.newIntFromString rec.bond = some bond)
    (hprice : env.getPrice rec.oraclePair = .ok price) :
    ∃ s' settled, (callOff k.sdk rec).foldlM (deliver k env) s = .ok s' ∧
      getAsset s'.store rec.assetId = some settled ∧
      settled.status = .settled ∧
      s'.bank.supply (buildDenom rec.assetId) = 0 ∧
      (s'.bank.balance issuer bondDenom : ℤ) =
        s.bank.balance issuer bondDenom + bond.raw := by
  have hreserved := reserved_of_run hempty hnone hrun
  obtain ⟨t, ready, ht, hready⟩ := exists_ready hreserved.sound hstored hstatus
    hdecoded hkeyed hprice
  obtain ⟨historyₜ, hrunₜ⟩ := exists_run_of_delivered hrun ht
  obtain ⟨hid, hissuer, hsameBond⟩ := hready.same
  obtain ⟨u, active, hu, hissued, hminted⟩ := exists_issued hopen
    (reserved_of_run hempty hnone hrunₜ).sound (hready.params ▸ hparams)
    (hid ▸ hready.stored) hready.attested (hissuer ▸ hdecoded) hkeyed
  obtain ⟨hid', hissuer', hsameBond'⟩ := hissued.same
  have hparamsᵤ : getParams u.store = getParams s.store :=
    hissued.params.trans hready.params
  have hrunᵤ : Run (rwaStep k) start _ u :=
    hrunₜ.next (rwaStep_of_delivered hu)
  obtain ⟨s', hsettle, hsettled, hburned, hpaid⟩ :=
    exists_settle active hopen (reserved_of_run hempty hnone hrunᵤ)
      (hparamsᵤ ▸ hparams) (by rw [hissuer', hissuer]; exact hdecoded) hkeyed
      (hid' ▸ hissued.stored) hissued.active hminted
      (by rw [hsameBond', hsameBond]; exact hbond)
      (feeOf_oneUnit (hparamsᵤ ▸ hparams).settleFeeRate_range)
      (Int.natCast_nonneg _) (hid' ▸ hissued.held)
  rw [hissued.base, hready.bank] at hpaid
  rw [hid', hid] at hsettled hburned
  refine ⟨s', settledRecord env.ctx active, ?_, hsettled, rfl, hburned, ?_⟩
  · have hlast : settleTx active = settleTx rec := by
      rw [settleTx, settleTx, hissuer', hissuer, hid', hid]
    rw [hissuer, hid] at hu
    rw [callOff, foldlM_append_of_ok ht, List.foldlM_cons, hu, ← hlast]
    change [settleTx active].foldlM (deliver k env) u = .ok s'
    rw [List.foldlM_cons, hsettle]
    rfl
  · rw [hpaid]
    exact congrArg (· + bond.raw) (sub_zero _)

/-- A registered asset is called off. -/
theorem registered_land_called_off :
    ∃ history s rec s' settled,
      Run (rwaStep referenceKeeper) fundedState history s ∧
        getAsset s.store "land" = some rec ∧ rec.status = .draft ∧
        (callOff referenceSdk rec).foldlM (deliver referenceKeeper openEnv)
          s = .ok s' ∧
        getAsset s'.store "land" = some settled ∧
        settled.status = .settled ∧
        (s'.bank.balance (addressOf 1) bondDenom : ℤ) = 20000000000 := by
  have hfacts : (runLand [registerLand]).any (fun r =>
      decide (getParams r.2.store = defaultParams) &&
      decide (r.2.bank.balance (addressOf 1) bondDenom = 10000000000) &&
      (getAsset r.2.store "land").any fun rec =>
        decide (rec.assetId = "land") && decide (rec.issuer = issuerText) &&
        decide (rec.status = .draft) &&
        decide (rec.bond = "10000000000")) = true := by
    decide +kernel
  obtain ⟨⟨history, s⟩, hrun, hchecked⟩ := exists_some_of_any hfacts
  simp only [Bool.and_eq_true, decide_eq_true_eq] at hchecked
  obtain ⟨⟨hparams, hbase⟩, hrecord⟩ := hchecked
  obtain ⟨rec, hget, hfields⟩ := exists_some_of_any hrecord
  simp only [Bool.and_eq_true, decide_eq_true_eq] at hfields
  obtain ⟨⟨⟨hid, htext⟩, hdraft⟩, hbondText⟩ := hfields
  obtain ⟨bond, hbond, hbondRaw⟩ : ∃ bond,
      referenceSdk.newIntFromString "10000000000" = some bond ∧
        bond.raw = 10000000000 := exists_parsed (by decide +kernel)
  have hprice : openEnv.getPrice rec.oraclePair = .ok legacyOneDec := rfl
  obtain ⟨s', settled, hplan, hsettled, hstatus, -, hpaid⟩ :=
    unissued_bond_recovered fundedState_empty (by simp [fundedState])
      (run_of_runLand hrun) openEnv_open (hparams ▸ defaultParams_valid)
      (hid ▸ hget) (.inl hdraft) (htext ▸ issuerText_decoded) parties_keyed.1
      (hbondText ▸ hbond) hprice
  rw [hbase, hbondRaw] at hpaid
  exact ⟨history, s, rec, s', settled, run_of_runLand hrun, hget, hdraft,
    hplan, hid ▸ hsettled, hstatus, hpaid⟩

end Rwa
end Vertix
