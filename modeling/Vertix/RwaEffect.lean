import Vertix.RwaMsgServer
import Mathlib.Tactic

/-!
# What an accepted transaction did

`Accepted` has one constructor for each kind of transaction.  It records the
guards which the handler checked, the store it wrote, and the sequence of
ledger operations it performed; every invariant of the module is read off it.
-/

namespace Vertix
namespace Rwa

/-- The fee rate of the parameters applied to an amount. -/
def FeeOf (sdk : Sdk) (rate : String) (notional fee : SdkInt) : Prop :=
  ∃ value, sdk.legacyNewDecFromStr rate = .ok value ∧
    truncatedProduct notional value = some fee

inductive Accepted (k : Keeper) (env : Env) (s : RwaState) :
    RwaTx → RwaState → Prop
  | registered {msg : MsgRegisterAsset} {issuer : Address} {bond : SdkInt}
      {bank : Bank}
      (hvalid : msg.Valid k.sdk)
      (hissuer : k.sdk.accAddressFromBech32 msg.issuer = .ok issuer)
      (hfresh : getAsset s.store msg.assetId = none)
      (hbond : k.sdk.newIntFromString msg.bond = some bond)
      (hmin : IntWithin k.sdk (getParams s.store).minIssuerBond
        fun raw => raw ≤ bond.raw)
      (hbank : s.bank.execAll [.send issuer
        [(moduleAddress k, coinsOf bondDenom bond.raw.toNat)]] = some bank) :
      Accepted k env s (.registerAsset msg)
        ⟨writeAsset s.store issuer (draftRecord k.sdk env.ctx msg bond), bank⟩
  | attested {msg : MsgAttestAsset} {issuer : Address} {rec : AssetRecord}
      {price : LegacyDec}
      (howned : Owned k s.store msg.assetId msg.issuer issuer rec)
      (hstatus : rec.status = .draft)
      (hprice : env.getPrice rec.oraclePair = .ok price) :
      Accepted k env s (.attestAsset msg)
        ⟨writeAsset s.store issuer (attestedRecord k.sdk env.ctx rec price),
          s.bank⟩
  | minted {msg : MsgMintRWA} {issuer : Address} {rec : AssetRecord}
      {notional fee prev total : SdkInt} {bank : Bank}
      (howned : Owned k s.store msg.assetId msg.issuer issuer rec)
      (hstatus : rec.status = .attested ∨ rec.status = .active)
      (hnotional : k.sdk.newIntFromString msg.notional = some notional)
      (hpos : 0 < notional.raw)
      (hfee : FeeOf k.sdk (getParams s.store).mintFeeRate notional fee)
      (hprev : k.sdk.newIntFromString rec.notionalMinted = some prev)
      (htotal : total.raw = prev.raw + notional.raw)
      (hbank : s.bank.execAll
        [.send issuer [(feeCollector k, coinsOf bondDenom fee.raw.toNat)],
          .mint (moduleAddress k) (coinsOf rec.denom notional.raw.toNat),
          .send (moduleAddress k)
            [(issuer, coinsOf rec.denom notional.raw.toNat)]] = some bank) :
      Accepted k env s (.mintRWA msg)
        ⟨writeAsset s.store issuer (mintedRecord k.sdk rec total), bank⟩
  | transferred {msg : MsgTransferRWA} {sender recipient : Address}
      {rec : AssetRecord} {amount : SdkInt} {bank : Bank}
      (hstored : getAsset s.store msg.assetId = some rec)
      (hstatus : rec.status = .active)
      (hsender : k.sdk.accAddressFromBech32 msg.sender = .ok sender)
      (hrecipient : k.sdk.accAddressFromBech32 msg.recipient = .ok recipient)
      (hamount : k.sdk.newIntFromString msg.amount = some amount)
      (hpos : 0 < amount.raw)
      (hallowed : SendAllowed k s.store sender
        [(recipient, coinsOf rec.denom amount.raw.toNat)])
      (hbank : s.bank.execAll [.send sender
        [(recipient, coinsOf rec.denom amount.raw.toNat)]] = some bank) :
      Accepted k env s (.transferRWA msg) ⟨s.store, bank⟩
  | restricted {msg : MsgUpdateRestrictions} {issuer : Address}
      {rec : AssetRecord} {changes : MemberChanges}
      (howned : Owned k s.store msg.assetId msg.issuer issuer rec)
      (hslug : slugRegexMatch msg.assetId = true)
      (hstatus : rec.status ≠ .settled)
      (haddAllow : DecodesTo k.sdk msg.addAllow changes.addAllow)
      (hdelAllow : DecodesTo k.sdk msg.delAllow changes.delAllow)
      (haddDeny : DecodesTo k.sdk msg.addDeny changes.addDeny)
      (hdelDeny : DecodesTo k.sdk msg.delDeny changes.delDeny) :
      Accepted k env s (.updateRestrictions msg)
        ⟨writeAsset (changes.apply s.store msg.assetId) issuer
          (restrictedRecord rec msg.allowAll), s.bank⟩
  | settled {msg : MsgSettleRWA} {issuer : Address} {rec : AssetRecord}
      {notional fee bond : SdkInt} {bank : Bank}
      (howned : Owned k s.store msg.assetId msg.issuer issuer rec)
      (hstatus : rec.status = .active)
      (hnotional : k.sdk.newIntFromString rec.notionalMinted = some notional)
      (hfee : FeeOf k.sdk (getParams s.store).settleFeeRate notional fee)
      (hbond : k.sdk.newIntFromString rec.bond = some bond)
      (hbank : s.bank.execAll
        [.send issuer [(feeCollector k, coinsOf bondDenom fee.raw.toNat)],
          .send issuer
            [(moduleAddress k, coinsOf rec.denom notional.raw.toNat)],
          .burn (moduleAddress k) (coinsOf rec.denom notional.raw.toNat),
          .send (moduleAddress k)
            [(issuer, coinsOf bondDenom bond.raw.toNat)]] = some bank) :
      Accepted k env s (.settleRWA msg)
        ⟨writeAsset s.store issuer (settledRecord env.ctx rec), bank⟩
  | slashed {msg : MsgSlashBond} {issuer : Address} {rec : AssetRecord}
      {bond : SdkInt} {bank : Bank}
      (hauthority : k.authority = msg.authority)
      (hstored : getAsset s.store msg.assetId = some rec)
      (hissuer : k.sdk.accAddressFromBech32 rec.issuer = .ok issuer)
      (hstatus : rec.status = .active)
      (hbond : k.sdk.newIntFromString rec.bond = some bond)
      (hbank : s.bank.execAll [.send (moduleAddress k)
        [(distributionAccount k, coinsOf bondDenom bond.raw.toNat)]] =
          some bank) :
      Accepted k env s (.slashBond msg)
        ⟨writeAsset s.store issuer (slashedRecord k.sdk env.ctx rec), bank⟩
  | reparametrized {msg : MsgUpdateParams}
      (hauthority : k.authority = msg.authority)
      (hvalid : msg.params.Valid k.sdk) :
      Accepted k env s (.updateParams msg)
        ⟨writeParams s.store msg.params, s.bank⟩
  | sent {source : Address} {outputs : List (Address × CoinList String)}
      {bank : Bank}
      (hopen : ∀ output ∈ outputs, blockedAddr k output.1 = false)
      (hallowed : SendAllowed k s.store source outputs)
      (hbank : s.bank.execAll [.send source outputs] = some bank) :
      Accepted k env s (.bankSend source outputs) ⟨s.store, bank⟩
  | paid {payer : Address} {coins : CoinList String} {bank : Bank}
      (hallowed : SendAllowed k s.store payer [(feeCollector k, coins)])
      (hbank : s.bank.execAll [.send payer [(feeCollector k, coins)]] =
        some bank) :
      Accepted k env s (.payFee payer coins) ⟨s.store, bank⟩

/-! ## Inversion of the handlers -/

/-- The changes are the decoded entries of a message. -/
structure MemberChanges.DecodedFrom (changes : MemberChanges) (sdk : Sdk)
    (msg : MsgUpdateRestrictions) : Prop where
  addAllow : DecodesTo sdk msg.addAllow changes.addAllow
  delAllow : DecodesTo sdk msg.delAllow changes.delAllow
  addDeny : DecodesTo sdk msg.addDeny changes.addDeny
  delDeny : DecodesTo sdk msg.delDeny changes.delDeny

theorem slug_of_validateBasic {sdk : Sdk} {msg : MsgUpdateRestrictions}
    (hvalid : msg.validateBasic sdk = .ok ()) :
    slugRegexMatch msg.assetId = true := by
  simp only [MsgUpdateRestrictions.validateBasic, bind_eq_ok_iff,
    validateParty_eq_ok_iff] at hvalid
  obtain ⟨-, ⟨-, hslug⟩, -⟩ := hvalid
  exact hslug

theorem accepted_of_registerAsset
    {k : Keeper} {env : Env} {s s' : RwaState} {msg : MsgRegisterAsset}
    (hhandle : registerAsset k env s msg = .ok s') :
    Accepted k env s (.registerAsset msg) s' := by
  simp only [registerAsset, bind_eq_ok_iff, Exec.ofExcept_eq_ok_iff,
    Exec.ofOption_eq_ok_iff, reject_eq_ok_iff, exists_const,
    MsgRegisterAsset.validateBasic_eq_ok_iff, elim_eq_ok_iff,
    plainError_eq_ok_iff, pure_eq_ok_iff, setAsset_eq_ok_iff, ne_eq, not_not,
    not_lt] at hhandle
  rcases hhandle with ⟨hvalid, hfresh, bond, hbond, minBond, hmin, hcovered,
    issuer, hissuer, bank, hlock, store, ⟨issuer', hissuer', rfl⟩, rfl⟩
  have hsame : issuer' = issuer := by
    rw [show (draftRecord k.sdk env.ctx msg bond).issuer = msg.issuer from rfl,
      hissuer] at hissuer'
    exact (Except.ok.inj hissuer').symm
  subst hsame
  exact .registered hvalid hissuer hfresh hbond ⟨minBond, hmin, hcovered⟩
    (Ledger.execAll_one (lockBond_exec hlock))

theorem accepted_of_attestAsset
    {k : Keeper} {env : Env} {s s' : RwaState} {msg : MsgAttestAsset}
    (hhandle : attestAsset k env s msg = .ok s') :
    Accepted k env s (.attestAsset msg) s' := by
  simp only [attestAsset, bind_eq_ok_iff, Exec.ofExcept_eq_ok_iff,
    reject_eq_ok_iff, exists_const, requireIssuer_eq_ok_iff,
    mapError_eq_ok_iff, pure_eq_ok_iff, setAsset_eq_ok_iff, ne_eq, not_not]
    at hhandle
  rcases hhandle with ⟨-, -, rec, ⟨hstored, hsigned⟩, hstatus, price, hprice,
    store, ⟨issuer, hissuer, rfl⟩, rfl⟩
  exact .attested ⟨hstored, hsigned, hissuer⟩ hstatus hprice

theorem accepted_of_mintRWA
    {k : Keeper} {env : Env} {s s' : RwaState} {msg : MsgMintRWA}
    (hhandle : mintRWA k env s msg = .ok s') :
    Accepted k env s (.mintRWA msg) s' := by
  simp only [mintRWA, computeFee, mintCoins, bind_eq_ok_iff,
    Exec.ofExcept_eq_ok_iff, Exec.ofOption_eq_ok_iff, reject_eq_ok_iff,
    exists_const, requireIssuer_eq_ok_iff, positiveInt_eq_ok_iff,
    plainError_eq_ok_iff, newCoins_eq_ok_iff, execute_eq_ok_iff,
    sendCoinsFromModuleToAccount_eq_ok_iff, sendCoins_eq_ok_iff,
    pure_eq_ok_iff, setAsset_eq_ok_iff, FixedPoint.add?,
    FixedPoint.checked_eq_some_iff, ne_eq] at hhandle
  rcases hhandle with ⟨-, -, rec, ⟨hstored, hsigned⟩, hstatus, notional,
    ⟨hnotional, hpos⟩, rate, hrate, issuer, hissuer, fee, hfee, bank₁,
    hcollect, coins, ⟨-, rfl⟩, bank₂, ⟨-, hmint⟩, bank₃, ⟨-, -, -, hsend⟩,
    prev, hprev, total, htotal, store, ⟨issuer', hissuer', rfl⟩, rfl⟩
  have hdecoded : k.sdk.accAddressFromBech32 rec.issuer = .ok issuer := by
    rw [hsigned]
    exact hissuer
  have hsame : issuer' = issuer := by
    rw [show (mintedRecord k.sdk rec total).issuer = rec.issuer from rfl,
      hdecoded] at hissuer'
    exact (Except.ok.inj hissuer').symm
  subst hsame
  refine .minted ⟨hstored, hsigned, hdecoded⟩ ?_ hnotional hpos
    ⟨rate, hrate, hfee⟩ hprev htotal
    (Ledger.execAll_next (collectFee_exec hcollect)
      (Ledger.execAll_next hmint (Ledger.execAll_one hsend)))
  by_contra hneither
  rw [not_or] at hneither
  exact hstatus hneither

theorem accepted_of_transferRWA
    {k : Keeper} {env : Env} {s s' : RwaState} {msg : MsgTransferRWA}
    (hhandle : transferRWA k env s msg = .ok s') :
    Accepted k env s (.transferRWA msg) s' := by
  simp only [transferRWA, bind_eq_ok_iff, Exec.ofExcept_eq_ok_iff,
    reject_eq_ok_iff, exists_const, elim_eq_ok_iff, plainError_eq_ok_iff,
    positiveInt_eq_ok_iff, newCoins_eq_ok_iff, sendCoins_eq_ok_iff,
    pure_eq_ok_iff, ne_eq, not_not] at hhandle
  rcases hhandle with ⟨-, -, rec, hstored, hstatus, sender, hsender,
    recipient, hrecipient, -, -, amount, ⟨hamount, hpos⟩, coins, ⟨-, rfl⟩, bank,
    ⟨hallowed, -, hsend⟩, rfl⟩
  exact .transferred hstored hstatus hsender hrecipient hamount hpos hallowed
    (Ledger.execAll_one hsend)

theorem updateRestrictions_eq_ok_iff
    {k : Keeper} {s s' : RwaState} {msg : MsgUpdateRestrictions} :
    updateRestrictions k s msg = .ok s' ↔
      msg.validateBasic k.sdk = .ok () ∧ ∃ issuer rec, ∃ changes : MemberChanges,
        Owned k s.store msg.assetId msg.issuer issuer rec ∧
          rec.status ≠ .settled ∧ changes.DecodedFrom k.sdk msg ∧
          s' = ⟨writeAsset (changes.apply s.store msg.assetId) issuer
            (restrictedRecord rec msg.allowAll), s.bank⟩ := by
  simp only [updateRestrictions, bind_eq_ok_iff, Exec.ofExcept_eq_ok_iff,
    reject_eq_ok_iff, exists_const, requireIssuer_eq_ok_iff,
    applyMembers_eq_ok_iff, pure_eq_ok_iff, setAsset_eq_ok_iff]
  constructor
  · rintro ⟨⟨⟩, hvalid, rec, ⟨hstored, hsigned⟩, hstatus, -,
      ⟨addAllow, haddAllow, rfl⟩, -, ⟨delAllow, hdelAllow, rfl⟩, -,
      ⟨addDeny, haddDeny, rfl⟩, -, ⟨delDeny, hdelDeny, rfl⟩, store,
      ⟨issuer, hissuer, rfl⟩, rfl⟩
    exact ⟨hvalid, issuer, rec, ⟨addAllow, delAllow, addDeny, delDeny⟩,
      ⟨hstored, hsigned, hissuer⟩, hstatus,
      ⟨haddAllow, hdelAllow, haddDeny, hdelDeny⟩, rfl⟩
  · rintro ⟨hvalid, issuer, rec, changes, howned, hstatus, hdecoded, rfl⟩
    exact ⟨(), hvalid, rec, ⟨howned.stored, howned.signed⟩, hstatus, _,
      ⟨_, hdecoded.addAllow, rfl⟩, _, ⟨_, hdecoded.delAllow, rfl⟩, _,
      ⟨_, hdecoded.addDeny, rfl⟩, _, ⟨_, hdecoded.delDeny, rfl⟩, _,
      ⟨issuer, howned.decoded, rfl⟩, rfl⟩

theorem accepted_of_updateRestrictions
    {k : Keeper} {env : Env} {s s' : RwaState} {msg : MsgUpdateRestrictions}
    (hhandle : updateRestrictions k s msg = .ok s') :
    Accepted k env s (.updateRestrictions msg) s' := by
  rcases updateRestrictions_eq_ok_iff.mp hhandle with
    ⟨hvalid, issuer, rec, changes, howned, hstatus, hdecoded, rfl⟩
  exact .restricted howned (slug_of_validateBasic hvalid) hstatus
    hdecoded.addAllow hdecoded.delAllow hdecoded.addDeny hdecoded.delDeny

theorem accepted_of_settleRWA
    {k : Keeper} {env : Env} {s s' : RwaState} {msg : MsgSettleRWA}
    (hhandle : settleRWA k env s msg = .ok s') :
    Accepted k env s (.settleRWA msg) s' := by
  simp only [settleRWA, computeFee, bind_eq_ok_iff, Exec.ofExcept_eq_ok_iff,
    Exec.ofOption_eq_ok_iff, reject_eq_ok_iff, exists_const,
    requireIssuer_eq_ok_iff, plainError_eq_ok_iff, newCoins_eq_ok_iff,
    pure_eq_ok_iff, setAsset_eq_ok_iff, ne_eq, not_not] at hhandle
  rcases hhandle with ⟨-, -, rec, ⟨hstored, hsigned⟩, hstatus, issuer, hissuer,
    notional, hnotional, rate, hrate, fee, hfee, bank₁, hcollect, coins,
    ⟨-, rfl⟩, bank₂, hredeem, bond, hbond, bank₃, hreturn, store,
    ⟨issuer', hissuer', rfl⟩, rfl⟩
  have hdecoded : k.sdk.accAddressFromBech32 rec.issuer = .ok issuer := by
    rw [hsigned]
    exact hissuer
  have hsame : issuer' = issuer := by
    rw [show (settledRecord env.ctx rec).issuer = rec.issuer from rfl,
      hdecoded] at hissuer'
    exact (Except.ok.inj hissuer').symm
  subst hsame
  have hburned := redeem_exec hredeem
  simp only [Ledger.execAll, Option.bind_eq_some_iff] at hburned
  rcases hburned with ⟨middle, hsend, bank, hburn, hlast⟩
  cases hlast
  exact .settled ⟨hstored, hsigned, hdecoded⟩ hstatus hnotional
    ⟨rate, hrate, hfee⟩ hbond
    (Ledger.execAll_next (collectFee_exec hcollect) (Ledger.execAll_next hsend
      (Ledger.execAll_next hburn (Ledger.execAll_one (returnBond_exec hreturn)))))

theorem accepted_of_slashBond
    {k : Keeper} {env : Env} {s s' : RwaState} {msg : MsgSlashBond}
    (hhandle : slashBond k env s msg = .ok s') :
    Accepted k env s (.slashBond msg) s' := by
  simp only [slashBond, bind_eq_ok_iff, Exec.ofExcept_eq_ok_iff,
    Exec.ofOption_eq_ok_iff, reject_eq_ok_iff, exists_const, elim_eq_ok_iff,
    pure_eq_ok_iff, setAsset_eq_ok_iff, ne_eq, not_not] at hhandle
  rcases hhandle with ⟨hauthority, -, -, rec, hstored, hstatus, bond, hbond,
    bank, hforfeit, store, ⟨issuer, hissuer, rfl⟩, rfl⟩
  exact .slashed hauthority hstored hissuer hstatus hbond
    (Ledger.execAll_one (forfeitBond_exec hforfeit))

theorem accepted_of_handle
    {k : Keeper} {env : Env} {s s' : RwaState} {tx : RwaTx}
    (hhandle : handle k env s tx = .ok s') : Accepted k env s tx s' := by
  cases tx with
  | registerAsset msg => exact accepted_of_registerAsset hhandle
  | attestAsset msg => exact accepted_of_attestAsset hhandle
  | mintRWA msg => exact accepted_of_mintRWA hhandle
  | transferRWA msg => exact accepted_of_transferRWA hhandle
  | updateRestrictions msg => exact accepted_of_updateRestrictions hhandle
  | settleRWA msg => exact accepted_of_settleRWA hhandle
  | slashBond msg => exact accepted_of_slashBond hhandle
  | updateParams msg =>
      simp only [handle, updateParams, bind_eq_ok_iff,
        Exec.ofExcept_eq_ok_iff, reject_eq_ok_iff, exists_const,
        setParams_eq_ok_iff, pure_eq_ok_iff, ne_eq, not_not] at hhandle
      rcases hhandle with ⟨hauthority, -, -, store, ⟨hvalid, rfl⟩, rfl⟩
      exact .reparametrized hauthority hvalid
  | bankSend source outputs =>
      simp only [handle, bankSend, bind_eq_ok_iff, Exec.ofExcept_eq_ok_iff,
        reject_eq_ok_iff, exists_const, inputOutputCoins_eq_ok_iff,
        pure_eq_ok_iff, not_exists, not_and, Bool.not_eq_true] at hhandle
      rcases hhandle with ⟨hopen, bank, ⟨hallowed, -, hsend⟩, rfl⟩
      exact .sent hopen hallowed (Ledger.execAll_one hsend)
  | payFee payer coins =>
      simp only [handle, payFee, bind_eq_ok_iff, Exec.ofExcept_eq_ok_iff,
        sendCoinsFromAccountToModule, sendCoins_eq_ok_iff, pure_eq_ok_iff]
        at hhandle
      rcases hhandle with ⟨bank, ⟨hallowed, -, hsend⟩, rfl⟩
      exact .paid hallowed (Ledger.execAll_one hsend)

/-! ## Membership after a restriction update -/

/-- Removals are applied after additions. -/
def listedAfter (adds dels : List Address) (before : Bool) (addr : Address) :
    Bool :=
  if addr ∈ dels then false else if addr ∈ adds then true else before

/-- The entries of a message list name the address. -/
def names (sdk : Sdk) (entries : List String) (addr : Address) : Bool :=
  entries.any fun entry => decide (sdk.accAddressFromBech32 entry = .ok addr)

theorem names_eq {sdk : Sdk} {entries : List String} {addrs : List Address}
    (hdecodes : DecodesTo sdk entries addrs) (addr : Address) :
    names sdk entries addr = decide (addr ∈ addrs) := by
  unfold DecodesTo at hdecodes
  induction hdecodes with
  | nil => simp [names]
  | @cons entry first entries rest hfirst hrest ih =>
      simp only [names, List.any_cons] at ih ⊢
      rw [ih, hfirst]
      by_cases haddr : addr = first
      · simp [haddr]
      · simp [haddr, Ne.symm haddr]

/-- A loop over addresses which sets the membership of each of them to the
same value. -/
theorem isMember_foldl {change : RwaStore → Address → RwaStore}
    {value : Bool} {list : MemberList} {assetID : String}
    (hchange : ∀ list' store addr assetID' addr',
      isMember list' (change store addr) assetID' addr' =
        if list = list' ∧ assetID = assetID' ∧ addr = addr' then value
        else isMember list' store assetID' addr')
    (list' : MemberList) (addrs : List Address) (store : RwaStore)
    (assetID' : String) (addr : Address) :
    isMember list' (addrs.foldl change store) assetID' addr =
      if list = list' ∧ assetID = assetID' ∧ addr ∈ addrs then value
      else isMember list' store assetID' addr := by
  induction addrs generalizing store with
  | nil => simp
  | cons first rest ih =>
      rw [List.foldl_cons, ih, hchange]
      by_cases hlist : list = list' ∧ assetID = assetID'
      · by_cases hfirst : addr = first
        · simp [hlist, hfirst]
        · simp [hlist, hfirst, Ne.symm hfirst]
      · rw [if_neg (fun h => hlist ⟨h.1, h.2.1⟩),
          if_neg (fun h => hlist ⟨h.1, h.2.1⟩),
          if_neg (fun h => hlist ⟨h.1, h.2.1⟩)]

theorem isMember_foldl_addMember {assetID : String}
    (hslug : slugRegexMatch assetID = true) (list list' : MemberList)
    (addrs : List Address) (store : RwaStore) (assetID' : String)
    (addr : Address) :
    isMember list' (addrs.foldl (addMember list · assetID) store) assetID'
        addr =
      if list = list' ∧ assetID = assetID' ∧ addr ∈ addrs then true
      else isMember list' store assetID' addr :=
  isMember_foldl (fun list' => isMember_addMember hslug list list')
    list' addrs store assetID' addr

theorem isMember_foldl_delMember {assetID : String}
    (hslug : slugRegexMatch assetID = true) (list list' : MemberList)
    (addrs : List Address) (store : RwaStore) (assetID' : String)
    (addr : Address) :
    isMember list' (addrs.foldl (delMember list · assetID) store) assetID'
        addr =
      if list = list' ∧ assetID = assetID' ∧ addr ∈ addrs then false
      else isMember list' store assetID' addr :=
  isMember_foldl (fun list' => isMember_delMember hslug list list')
    list' addrs store assetID' addr

def MemberChanges.added (changes : MemberChanges) : MemberList → List Address
  | .allow => changes.addAllow
  | .deny => changes.addDeny

def MemberChanges.removed (changes : MemberChanges) :
    MemberList → List Address
  | .allow => changes.delAllow
  | .deny => changes.delDeny

theorem isMember_apply (list : MemberList) (changes : MemberChanges)
    (store : RwaStore) {assetID : String}
    (hslug : slugRegexMatch assetID = true) (assetID' : String)
    (addr : Address) :
    isMember list (changes.apply store assetID) assetID' addr =
      if assetID = assetID' then
        listedAfter (changes.added list) (changes.removed list)
          (isMember list store assetID addr) addr
      else isMember list store assetID' addr := by
  simp only [MemberChanges.apply, addAllowlist, delAllowlist,
    addDenylist, delDenylist, isMember_foldl_delMember hslug,
    isMember_foldl_addMember hslug, listedAfter]
  by_cases hid : assetID = assetID'
  · cases list <;> simp [hid, MemberChanges.added, MemberChanges.removed]
  · simp [hid]

theorem isAllowlisted_apply (changes : MemberChanges) (store : RwaStore)
    {assetID : String} (hslug : slugRegexMatch assetID = true)
    (assetID' : String) (addr : Address) :
    isAllowlisted (changes.apply store assetID) assetID' addr =
      if assetID = assetID' then
        listedAfter changes.addAllow changes.delAllow
          (isAllowlisted store assetID addr) addr
      else isAllowlisted store assetID' addr :=
  isMember_apply .allow changes store hslug assetID' addr

theorem isDenylisted_apply (changes : MemberChanges) (store : RwaStore)
    {assetID : String} (hslug : slugRegexMatch assetID = true)
    (assetID' : String) (addr : Address) :
    isDenylisted (changes.apply store assetID) assetID' addr =
      if assetID = assetID' then
        listedAfter changes.addDeny changes.delDeny
          (isDenylisted store assetID addr) addr
      else isDenylisted store assetID' addr :=
  isMember_apply .deny changes store hslug assetID' addr

theorem get_foldl_of_frame {change : RwaStore → Address → RwaStore}
    {key : RwaKey}
    (hframe : ∀ store addr, (change store addr).get key = store.get key)
    (addrs : List Address) (store : RwaStore) :
    (addrs.foldl change store).get key = store.get key := by
  induction addrs generalizing store with
  | nil => rfl
  | cons addr rest ih => rw [List.foldl_cons, ih, hframe]

/-- A restriction update touches membership keys only. -/
theorem get_apply_of_ne (changes : MemberChanges) (store : RwaStore)
    (assetID : String) {key : RwaKey}
    (hkey : ∀ list id addr, key ≠ .member list id addr) :
    (changes.apply store assetID).get key = store.get key := by
  have hadd : ∀ list store addr,
      (addMember list store assetID addr).get key = store.get key :=
    fun list store addr =>
      get_addMember_of_ne list store assetID addr fun id => hkey list id addr
  have hdel : ∀ list store addr,
      (delMember list store assetID addr).get key = store.get key :=
    fun list store addr =>
      get_delMember_of_ne list store assetID addr fun id => hkey list id addr
  simp only [MemberChanges.apply, addAllowlist, delAllowlist, addDenylist,
    delDenylist]
  rw [get_foldl_of_frame (hdel .deny), get_foldl_of_frame (hadd .deny),
    get_foldl_of_frame (hdel .allow), get_foldl_of_frame (hadd .allow)]

@[simp] theorem getAsset_apply (changes : MemberChanges) (store : RwaStore)
    (assetID assetID' : String) :
    getAsset (changes.apply store assetID) assetID' =
      getAsset store assetID' :=
  getAsset_congr (get_apply_of_ne changes store assetID (by simp))

@[simp] theorem getParams_apply (changes : MemberChanges) (store : RwaStore)
    (assetID : String) :
    getParams (changes.apply store assetID) = getParams store :=
  getParams_congr (get_apply_of_ne changes store assetID (by simp))

end Rwa
end Vertix
