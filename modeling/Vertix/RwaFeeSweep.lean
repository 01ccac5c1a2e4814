import Vertix.RwaRestrictions
import Mathlib.Tactic

/-!
# The fee sweep and transfer restrictions

At the start of a block the fee collector's whole balance is sent to the
distribution account, and a rejected send halts the chain.  The send
restriction applies to this send as well.  Units of a restricted asset can be
placed in the fee collector, by a transfer message or as a transaction fee,
and their issuer can then bar the two module accounts.  The sweep stays
possible exactly as long as no step does one of these two things.
-/

namespace Vertix
namespace Rwa

open Transition

/-! ## The sweep -/

/-- The coins listed are held by the account. -/
def Holds (bank : Bank) (account : Address) (coins : CoinList String) :
    Prop :=
  ∀ coin ∈ coins, 0 < coin.2 ∧ bank.balance account coin.1 = coin.2

/-- The coins listed are all coins of the account. -/
def HoldsExactly (bank : Bank) (account : Address)
    (coins : CoinList String) : Prop :=
  Holds bank account coins ∧
    ∀ denom, 0 < bank.balance account denom → denom ∈ coins.map Prod.fst

/-- The send restriction lets the fee collector send whatever coins it holds,
all of them in particular, to the distribution account. -/
def SweepAllowed (k : Keeper) (s : RwaState) : Prop :=
  ∀ coins, Holds s.bank (feeCollector k) coins →
    sendRestriction k s.store (feeCollector k) (distributionAccount k) coins =
      .ok (distributionAccount k)

/-- Both module accounts are eligible for every asset of which the fee
collector holds units. -/
def Sweepable (k : Keeper) (s : RwaState) : Prop :=
  ∀ assetID, assetID ≠ "" →
    0 < s.bank.balance (feeCollector k) (buildDenom assetID) →
    Eligible s.store assetID (feeCollector k) ∧
      Eligible s.store assetID (distributionAccount k)

theorem sweepAllowed_iff {k : Keeper} {s : RwaState} :
    SweepAllowed k s ↔ Sweepable k s := by
  constructor
  · intro hallowed assetID hid hheld
    have hsend := hallowed
      [(buildDenom assetID,
        s.bank.balance (feeCollector k) (buildDenom assetID))]
      (by
        intro coin hcoin
        rw [List.mem_singleton] at hcoin
        subst hcoin
        exact ⟨hheld, rfl⟩)
    have hcheck := (sendRestriction_eq_ok_iff.mp hsend).2 _
      (List.mem_singleton_self _) assetID
      (parseRWADenom_eq_some_iff.mpr ⟨hid, rfl⟩)
    rcases checkTransferAllowed_eq_ok_iff.mp hcheck with h | h | h
    · exact absurd h (feeCollector_ne_moduleAddress k)
    · exact absurd h (distributionAccount_ne_moduleAddress k)
    · exact h
  · intro hsweepable coins hheld
    apply sendRestriction_eq_ok_iff.mpr
    refine ⟨rfl, ?_⟩
    intro coin hcoin assetID hparse
    rcases parseRWADenom_eq_some_iff.mp hparse with ⟨hid, hdenom⟩
    have hcoins := hheld coin hcoin
    rw [hdenom] at hcoins
    apply checkTransferAllowed_eq_ok_iff.mpr
    exact Or.inr (Or.inr (hsweepable assetID hid (by omega)))

/-! ## Eligibility along a transaction -/

/-- Eligibility depends on one record and on two membership answers. -/
theorem Eligible.congr {store store' : RwaStore} {assetID : String}
    {addr : Address} (heligible : Eligible store assetID addr)
    (hrecord : getAsset store' assetID = getAsset store assetID)
    (hmember : ∀ list, isMember list store' assetID addr =
      isMember list store assetID addr) :
    Eligible store' assetID addr := by
  unfold Eligible isAllowlisted isDenylisted at heligible ⊢
  rw [hrecord, hmember, hmember]
  exact heligible

theorem Eligible.after_register {store : RwaStore} {issuer : Address}
    {rec : AssetRecord} {assetID : String} {addr : Address}
    (heligible : Eligible store assetID addr)
    (hfresh : getAsset store rec.assetId = none) :
    Eligible (writeAsset store issuer rec) assetID addr := by
  apply heligible.congr
  · apply getAsset_writeAsset_of_ne
    rintro rfl
    rcases heligible with ⟨found, hfound, -⟩
    exact absurd (hfresh.symm.trans hfound) (by simp)
  · intro list
    rw [isMember_writeAsset]

theorem Eligible.after_params {store : RwaStore} {params : RWAParams}
    {assetID : String} {addr : Address}
    (heligible : Eligible store assetID addr) :
    Eligible (writeParams store params) assetID addr :=
  heligible.congr (getAsset_writeParams store params assetID)
    fun list => isMember_writeParams list store params assetID addr

theorem Eligible.after_write {store : RwaStore} {issuer : Address}
    {rec rec' : AssetRecord} {written assetID : String} {addr : Address}
    (heligible : Eligible store assetID addr)
    (hstored : getAsset store written = some rec)
    (hwritten : rec'.assetId = rec.assetId)
    (hallow : rec'.allowAll = rec.allowAll) :
    Eligible (writeAsset store issuer rec') assetID addr := by
  have hid := getAsset_assetId hstored
  by_cases hsame : written = assetID
  · subst hsame
    rcases heligible with ⟨found, hfound, hopen, hdeny⟩
    rw [hstored, Option.some.injEq] at hfound
    subst hfound
    refine ⟨rec', getAsset_writeAsset_self (hwritten.trans hid), ?_, ?_⟩
    · simpa [isAllowlisted, hallow] using hopen
    · simpa [isDenylisted] using hdeny
  · apply heligible.congr
    · apply getAsset_writeAsset_of_ne
      exact fun heq => hsame (hid.symm.trans (hwritten.symm.trans heq))
    · intro list
      rw [isMember_writeAsset]

/-- Whether the policy which a restriction update leaves behind admits an
address, computed from the message and the lists before it. -/
def EligibleAfter (sdk : Sdk) (store : RwaStore) (msg : MsgUpdateRestrictions)
    (addr : Address) : Prop :=
  (msg.allowAll = true ∨
      (names sdk msg.delAllow addr = false ∧
        (names sdk msg.addAllow addr = true ∨
          isAllowlisted store msg.assetId addr = true))) ∧
    (names sdk msg.delDeny addr = true ∨
      (names sdk msg.addDeny addr = false ∧
        isDenylisted store msg.assetId addr = false))

theorem eligible_restricted_iff
    {k : Keeper} {store : RwaStore} {msg : MsgUpdateRestrictions}
    {issuer : Address} {rec : AssetRecord} {changes : MemberChanges}
    (howned : Owned k store msg.assetId msg.issuer issuer rec)
    (hslug : slugRegexMatch msg.assetId = true)
    (haddAllow : DecodesTo k.sdk msg.addAllow changes.addAllow)
    (hdelAllow : DecodesTo k.sdk msg.delAllow changes.delAllow)
    (haddDeny : DecodesTo k.sdk msg.addDeny changes.addDeny)
    (hdelDeny : DecodesTo k.sdk msg.delDeny changes.delDeny)
    (addr : Address) :
    Eligible (writeAsset (changes.apply store msg.assetId) issuer
        (restrictedRecord rec msg.allowAll)) msg.assetId addr ↔
      EligibleAfter k.sdk store msg addr := by
  have hrecord : getAsset (writeAsset (changes.apply store msg.assetId) issuer
      (restrictedRecord rec msg.allowAll)) msg.assetId =
        some (restrictedRecord rec msg.allowAll) :=
    getAsset_writeAsset_self howned.assetId
  have hallow := isAllowlisted_apply changes store hslug msg.assetId addr
  have hdeny := isDenylisted_apply changes store hslug msg.assetId addr
  rw [if_pos rfl] at hallow hdeny
  unfold isAllowlisted at hallow
  unfold isDenylisted at hdeny
  unfold Eligible EligibleAfter
  simp only [hrecord, Option.some.injEq, exists_eq_left', isAllowlisted,
    isDenylisted, isMember_writeAsset, hallow, hdeny, names_eq haddAllow,
    names_eq hdelAllow, names_eq haddDeny, names_eq hdelDeny, listedAfter]
  by_cases h1 : addr ∈ changes.delAllow <;>
    by_cases h2 : addr ∈ changes.addAllow <;>
    by_cases h3 : addr ∈ changes.delDeny <;>
    by_cases h4 : addr ∈ changes.addDeny <;>
    simp [h1, h2, h3, h4, restrictedRecord]

theorem Eligible.restricted_of_ne
    {store : RwaStore} {issuer : Address} {rec : AssetRecord}
    {changes : MemberChanges} {changed assetID : String} {allowAll : Bool}
    {addr : Address} (heligible : Eligible store assetID addr)
    (hslug : slugRegexMatch changed = true)
    (hstored : getAsset store changed = some rec)
    (hne : changed ≠ assetID) :
    Eligible (writeAsset (changes.apply store changed) issuer
      (restrictedRecord rec allowAll)) assetID addr := by
  have hrecord : getAsset (writeAsset (changes.apply store changed) issuer
      (restrictedRecord rec allowAll)) assetID = getAsset store assetID := by
    rw [getAsset_writeAsset_of_ne, getAsset_apply]
    exact fun heq => hne ((getAsset_assetId hstored).symm.trans heq)
  have hallow := isAllowlisted_apply changes store hslug assetID addr
  have hdeny := isDenylisted_apply changes store hslug assetID addr
  rw [if_neg hne] at hallow hdeny
  unfold isAllowlisted at hallow
  unfold isDenylisted at hdeny
  unfold Eligible at heligible ⊢
  simpa only [hrecord, isAllowlisted, isDenylisted, isMember_writeAsset,
    hallow, hdeny] using heligible

/-! ## One transaction -/

/-- What a transaction has to respect.  Units may be placed in the fee
collector only while the distribution account is eligible, and a restriction
update of an asset whose units lie there must leave both accounts eligible. -/
def KeepsSweep (k : Keeper) (s : RwaState) : RwaTx → Prop
  | .transferRWA msg =>
      k.sdk.accAddressFromBech32 msg.recipient = .ok (feeCollector k) →
        ∀ rec assetID, getAsset s.store msg.assetId = some rec →
          rec.denom = buildDenom assetID → assetID ≠ "" →
          Eligible s.store assetID (distributionAccount k)
  | .payFee _ coins =>
      ∀ assetID, assetID ≠ "" → 0 < amountOf coins (buildDenom assetID) →
        Eligible s.store assetID (distributionAccount k)
  | .updateRestrictions msg =>
      0 < s.bank.balance (feeCollector k) (buildDenom msg.assetId) →
        EligibleAfter k.sdk s.store msg (feeCollector k) ∧
          EligibleAfter k.sdk s.store msg (distributionAccount k)
  | _ => True

/-- The transactions which neither move units to the fee collector nor change
a policy. -/
def RwaTx.quiet : RwaTx → Bool
  | .transferRWA _ => false
  | .payFee _ _ => false
  | .updateRestrictions _ => false
  | _ => true

theorem keepsSweep_of_quiet {k : Keeper} {s : RwaState} {tx : RwaTx}
    (hquiet : tx.quiet = true) : KeepsSweep k s tx := by
  cases tx with
  | transferRWA => cases hquiet
  | payFee => cases hquiet
  | updateRestrictions => cases hquiet
  | _ => trivial

/-- Without new units in the fee collector, the sweep stays possible when no
account loses its eligibility. -/
theorem Sweepable.of_le
    {k : Keeper} {s s' : RwaState} (hsweepable : Sweepable k s)
    (hbalance : ∀ assetID,
      s'.bank.balance (feeCollector k) (buildDenom assetID) ≤
        s.bank.balance (feeCollector k) (buildDenom assetID))
    (heligible : ∀ assetID addr, Eligible s.store assetID addr →
      Eligible s'.store assetID addr) :
    Sweepable k s' := by
  intro assetID hid hheld
  have hboth := hsweepable assetID hid (hheld.trans_le (hbalance assetID))
  exact ⟨heligible _ _ hboth.1, heligible _ _ hboth.2⟩

/-- A send keeps the sweep possible exactly when the distribution account is
eligible for the units which the fee collector receives. -/
theorem sweepable_send_iff
    {k : Keeper} {s : RwaState} (hsweepable : Sweepable k s)
    {source : Address} {outputs : List (Address × CoinList String)}
    {bank : Bank} (hsource : source ∉ keylessAccounts k)
    (hallowed : SendAllowed k s.store source outputs)
    (hbank : s.bank.execAll [.send source outputs] = some bank) :
    Sweepable k ⟨s.store, bank⟩ ↔
      ∀ assetID, assetID ≠ "" →
        0 < received outputs (feeCollector k) (buildDenom assetID) →
        Eligible s.store assetID (distributionAccount k) := by
  have hother : feeCollector k ≠ source := by
    rintro rfl
    exact hsource (feeCollector_keyless k)
  have hmodule : source ≠ moduleAddress k := by
    rintro rfl
    exact hsource (moduleAddress_keyless k)
  have hbalance : ∀ assetID,
      bank.balance (feeCollector k) (buildDenom assetID) =
        s.bank.balance (feeCollector k) (buildDenom assetID) +
          received outputs (feeCollector k) (buildDenom assetID) := by
    intro assetID
    have hlaw := Ledger.execAll_balance hbank (feeCollector k)
      (buildDenom assetID)
    simpa [LedgerOp.inflow, LedgerOp.outflow, hother] using hlaw
  constructor
  · intro hafter assetID hid hreceived
    have hheld : 0 < bank.balance (feeCollector k) (buildDenom assetID) := by
      rw [hbalance]
      omega
    exact (hafter assetID hid hheld).2
  · intro hdistribution assetID hid hheld
    by_cases hreceived :
        received outputs (feeCollector k) (buildDenom assetID) = 0
    · apply hsweepable assetID hid
      have hheld' : 0 < bank.balance (feeCollector k) (buildDenom assetID) :=
        hheld
      rw [hbalance, hreceived] at hheld'
      exact hheld'
    · refine ⟨?_, hdistribution assetID hid (Nat.pos_of_ne_zero hreceived)⟩
      by_contra hbarred
      exact hreceived (hallowed.received_eq_zero hmodule hid
        (feeCollector_ne_moduleAddress k) hbarred)

theorem feeCollector_blocked (k : Keeper) :
    blockedAddr k (feeCollector k) = true := by
  simp [blockedAddr, blockAccAddrs, feeCollector]

/-- Operations which pay no units to the fee collector cannot block the
sweep, unless they change who is eligible. -/
theorem Sweepable.of_no_inflow
    {k : Keeper} {s : RwaState} (hsweepable : Sweepable k s)
    {ops : List BankOp} {bank : Bank} {store : RwaStore}
    (hbank : s.bank.execAll ops = some bank)
    (hnone : ∀ assetID, (ops.map fun op =>
      op.inflow (feeCollector k) (buildDenom assetID)).sum = 0)
    (heligible : ∀ assetID addr, Eligible s.store assetID addr →
      Eligible store assetID addr) :
    Sweepable k ⟨store, bank⟩ := by
  apply hsweepable.of_le _ heligible
  intro assetID
  have hle := Ledger.execAll_balance_le hbank (feeCollector k)
    (buildDenom assetID)
  rw [hnone assetID] at hle
  exact hle

theorem sweepable_transfer_iff
    {k : Keeper} {s : RwaState} (hsweepable : Sweepable k s)
    {msg : MsgTransferRWA} {sender recipient : Address} {rec : AssetRecord}
    {amount : SdkInt} {bank : Bank} (hsender : sender ∉ keylessAccounts k)
    (hstored : getAsset s.store msg.assetId = some rec)
    (hrecipient : k.sdk.accAddressFromBech32 msg.recipient = .ok recipient)
    (hpos : 0 < amount.raw)
    (hallowed : SendAllowed k s.store sender
      [(recipient, coinsOf rec.denom amount.raw.toNat)])
    (hbank : s.bank.execAll
      [.send sender [(recipient, coinsOf rec.denom amount.raw.toNat)]] =
        some bank) :
    Sweepable k ⟨s.store, bank⟩ ↔ KeepsSweep k s (.transferRWA msg) := by
  rw [sweepable_send_iff hsweepable hsender hallowed hbank]
  simp only [KeepsSweep, received_single, hrecipient, hstored,
    Except.ok.injEq, Option.some.injEq]
  constructor
  · rintro hplaced hcollector rec' assetID rfl hdenom hid
    apply hplaced assetID hid
    simp [hcollector, hdenom, hpos]
  · intro hkeeps assetID hid hreceived
    by_cases hcollector : feeCollector k = recipient
    · by_cases hdenom : rec.denom = buildDenom assetID
      · exact hkeeps hcollector.symm rec assetID rfl hdenom hid
      · simp [hdenom] at hreceived
    · simp [hcollector] at hreceived

theorem sweepable_restricted_iff
    {k : Keeper} {s : RwaState} (hsweepable : Sweepable k s)
    {msg : MsgUpdateRestrictions} {issuer : Address} {rec : AssetRecord}
    {changes : MemberChanges}
    (howned : Owned k s.store msg.assetId msg.issuer issuer rec)
    (hslug : slugRegexMatch msg.assetId = true)
    (haddAllow : DecodesTo k.sdk msg.addAllow changes.addAllow)
    (hdelAllow : DecodesTo k.sdk msg.delAllow changes.delAllow)
    (haddDeny : DecodesTo k.sdk msg.addDeny changes.addDeny)
    (hdelDeny : DecodesTo k.sdk msg.delDeny changes.delDeny) :
    Sweepable k ⟨writeAsset (changes.apply s.store msg.assetId) issuer
        (restrictedRecord rec msg.allowAll), s.bank⟩ ↔
      KeepsSweep k s (.updateRestrictions msg) := by
  have hid : msg.assetId ≠ "" := by
    intro hempty
    rw [hempty] at hslug
    exact absurd hslug (by decide)
  have hpolicy := eligible_restricted_iff howned hslug haddAllow hdelAllow
    haddDeny hdelDeny
  constructor
  · intro hafter hheld
    have hboth := hafter msg.assetId hid hheld
    exact ⟨(hpolicy _).mp hboth.1, (hpolicy _).mp hboth.2⟩
  · intro hkeeps assetID hid hheld
    by_cases hsame : msg.assetId = assetID
    · subst hsame
      have hboth := hkeeps hheld
      exact ⟨(hpolicy _).mpr hboth.1, (hpolicy _).mpr hboth.2⟩
    · have hboth := hsweepable assetID hid hheld
      exact ⟨hboth.1.restricted_of_ne hslug howned.stored hsame,
        hboth.2.restricted_of_ne hslug howned.stored hsame⟩

/-- A bank send cannot reach the fee collector, which is a blocked address. -/
theorem received_feeCollector_of_open
    {k : Keeper} {outputs : List (Address × CoinList String)}
    (hopen : ∀ output ∈ outputs, blockedAddr k output.1 = false)
    (denom : String) : received outputs (feeCollector k) denom = 0 := by
  apply Vertix.received_eq_zero
  intro output houtput htarget
  have hblocked := hopen output houtput
  rw [← htarget, feeCollector_blocked] at hblocked
  cases hblocked

/-- What one transaction preserves, and no more. -/
theorem Accepted.sweepable_iff
    {k : Keeper} {env : Env} {s s' : RwaState} {tx : RwaTx}
    (haccepted : Accepted k env s tx s')
    (hsignable : tx.signable k = true) (hsweepable : Sweepable k s) :
    Sweepable k s' ↔ KeepsSweep k s tx := by
  have hsigner : ∀ {signer : Address}, tx.signer k.sdk = .ok signer →
      signer ∉ keylessAccounts k :=
    fun hsigner => signer_not_keyless hsignable hsigner
  have hmodule := feeCollector_ne_moduleAddress k
  cases haccepted with
  | registered hvalid hissuer hfresh hbond hmin hbank =>
      refine iff_of_true (hsweepable.of_no_inflow hbank ?_ ?_) trivial
      · intro assetID
        simp [LedgerOp.inflow]
      · exact fun assetID addr heligible => heligible.after_register hfresh
  | attested howned =>
      refine iff_of_true (hsweepable.of_le (fun _ => le_rfl) ?_) trivial
      exact fun assetID addr heligible =>
        heligible.after_write howned.stored rfl rfl
  | @minted msg issuer rec notional fee prev total bank howned hstatus
      hnotional hpos hfee hprev htotal hbank =>
      have hissuer : feeCollector k ≠ issuer := by
        rintro rfl
        exact hsigner howned.caller_decodes (feeCollector_keyless k)
      refine iff_of_true (hsweepable.of_no_inflow hbank ?_ ?_) trivial
      · intro assetID
        simp [LedgerOp.inflow, hmodule, hissuer]
      · exact fun assetID addr heligible =>
          heligible.after_write howned.stored rfl rfl
  | transferred hstored hstatus hsender hrecipient hamount hpos hallowed
      hbank =>
      exact sweepable_transfer_iff hsweepable (hsigner hsender) hstored
        hrecipient hpos hallowed hbank
  | restricted howned hslug hstatus haddAllow hdelAllow haddDeny hdelDeny =>
      exact sweepable_restricted_iff hsweepable howned hslug haddAllow
        hdelAllow haddDeny hdelDeny
  | settled howned hstatus hnotional hfee hbond hbank =>
      refine iff_of_true (hsweepable.of_no_inflow hbank ?_ ?_) trivial
      · intro assetID
        simp [LedgerOp.inflow, hmodule]
      · exact fun assetID addr heligible =>
          heligible.after_write howned.stored rfl rfl
  | slashed hauthority hstored hissuer hstatus hbond hbank =>
      refine iff_of_true (hsweepable.of_no_inflow hbank ?_ ?_) trivial
      · intro assetID
        simp [LedgerOp.inflow]
      · exact fun assetID addr heligible =>
          heligible.after_write hstored rfl rfl
  | reparametrized =>
      refine iff_of_true (hsweepable.of_le (fun _ => le_rfl) ?_) trivial
      exact fun assetID addr heligible => heligible.after_params
  | sent hopen hallowed hbank =>
      rw [sweepable_send_iff hsweepable (hsigner rfl) hallowed hbank]
      refine iff_of_true ?_ trivial
      intro assetID hid hreceived
      rw [received_feeCollector_of_open hopen] at hreceived
      exact absurd hreceived (Nat.lt_irrefl 0)
  | paid hallowed hbank =>
      rw [sweepable_send_iff hsweepable (hsigner rfl) hallowed hbank]
      simp [KeepsSweep]

theorem rwaStep_sweepable_iff
    {k : Keeper} {s s' : RwaState} {label : Label}
    (hstep : rwaStep k s label = some s') (hsweepable : Sweepable k s) :
    Sweepable k s' ↔
      (delivered k (s, label) = true → KeepsSweep k s label.2) := by
  rcases rwaStep_cases hstep with ⟨failure, hfailed, hsame⟩ |
    ⟨hdelivered, hsignable, haccepted⟩
  · rw [hsame, delivered_of_error hfailed]
    simp [hsweepable]
  · rw [delivered_of_ok hdelivered, haccepted.sweepable_iff hsignable hsweepable]
    simp

/-! ## Denominations which a message moves -/

/-- The asset which a message is about. -/
def RwaTx.about : RwaTx → Option String
  | .transferRWA msg => some msg.assetId
  | tx => tx.written

theorem Accepted.balance_of_other_denom
    {k : Keeper} {env : Env} {s s' : RwaState} {tx : RwaTx}
    (haccepted : Accepted k env s tx s') (hcanonical : Canonical s.store)
    {assetID denom : String} (habout : tx.about = some assetID)
    (hbase : denom ≠ bondDenom) (hunits : denom ≠ buildDenom assetID)
    (account : Address) :
    s'.bank.balance account denom = s.bank.balance account denom := by
  have hother : ∀ {rec : AssetRecord}, getAsset s.store assetID = some rec →
      rec.denom ≠ denom := by
    intro rec hget heq
    exact hunits (heq.symm.trans (hcanonical assetID rec hget).2)
  cases haccepted with
  | registered hvalid hissuer hfresh hbond hmin hbank =>
      have hlaw := Ledger.execAll_balance hbank account denom
      simpa [LedgerOp.inflow, LedgerOp.outflow, hbase.symm] using hlaw
  | attested => rfl
  | minted howned hstatus hnotional hpos hfee hprev htotal hbank =>
      cases habout
      have hlaw := Ledger.execAll_balance hbank account denom
      simpa [LedgerOp.inflow, LedgerOp.outflow, hbase.symm,
        hother howned.stored] using hlaw
  | transferred hstored hstatus hsender hrecipient hamount hpos hallowed
      hbank =>
      cases habout
      have hlaw := Ledger.execAll_balance hbank account denom
      simpa [LedgerOp.inflow, LedgerOp.outflow, hother hstored] using hlaw
  | restricted => rfl
  | settled howned hstatus hnotional hfee hbond hbank =>
      cases habout
      have hlaw := Ledger.execAll_balance hbank account denom
      simpa [LedgerOp.inflow, LedgerOp.outflow, hbase.symm,
        hother howned.stored] using hlaw
  | slashed hauthority hstored hissuer hstatus hbond hbank =>
      have hlaw := Ledger.execAll_balance hbank account denom
      simpa [LedgerOp.inflow, LedgerOp.outflow, hbase.symm] using hlaw
  | reparametrized => rfl
  | sent => cases habout
  | paid => cases habout

theorem balance_of_other_denom_run
    {k : Keeper} {start s : RwaState} {history : History}
    (hstart : Canonical start.store)
    (hrun : Run (rwaStep k) start history s) {assetID denom : String}
    (habout : ∀ entry ∈ history, entry.2.2.about = some assetID)
    (hbase : denom ≠ bondDenom) (hunits : denom ≠ buildDenom assetID)
    (account : Address) :
    s.bank.balance account denom = start.bank.balance account denom := by
  have hkept := Run.invariant_of_conditions
    (I := fun s => Canonical s.store ∧
      s.bank.balance account denom = start.bank.balance account denom)
    (C := fun _ label => label.2.about = some assetID) ⟨hstart, rfl⟩ ?_ hrun
    habout
  · exact hkept.2
  · intro state label state' hstate htx hstep
    refine ⟨hstate.1.step hstep, ?_⟩
    rw [← hstate.2]
    rcases rwaStep_cases hstep with ⟨-, -, hsame⟩ | ⟨-, -, haccepted⟩
    · rw [hsame]
    · exact haccepted.balance_of_other_denom hstate.1 htx hbase hunits account

/-! ## All states of a run -/

/-- Along every run which starts with a possible sweep, the sweep is possible
in all states exactly when each successful transaction respects the
restriction of the units which lie, or which it places, in the fee
collector. -/
theorem fee_sweep_allowed_iff
    {k : Keeper} {start s : RwaState} {history : History}
    (hstart : SweepAllowed k start)
    (hrun : Run (rwaStep k) start history s) :
    ((∀ entry ∈ history, SweepAllowed k entry.1) ∧ SweepAllowed k s) ↔
      ∀ entry ∈ history, delivered k entry = true →
        KeepsSweep k entry.1 entry.2.2 := by
  apply Run.always_iff
    (C := fun state label => delivered k (state, label) = true →
      KeepsSweep k state label.2) hstart ?_ hrun
  intro state label state' hallowed hstep
  rw [sweepAllowed_iff] at hallowed ⊢
  exact rwaStep_sweepable_iff hstep hallowed

/-! ## A sweep which an issuer blocks -/

def collectorText : String := "vtx17xpfvakm2amg962yls6f84z3kell8c5ljgj86r"

def distributionText : String := "vtx1jv65s3grqf6v6jl3dp4t6c9t9rk99cd89w4mcp"

/-- The issuer hands units to the fee collector. -/
def placeLand (amount : String) : RwaTx :=
  .transferRWA ⟨issuerText, collectorText, "land", amount⟩

theorem fundedState_sweepAllowed : SweepAllowed referenceKeeper fundedState := by
  rw [sweepAllowed_iff]
  intro assetID hid hheld
  simp [fundedState] at hheld

/-- One more transaction of the asset. -/
def nextLand (s : RwaState) (tx : RwaTx) : RwaState :=
  commit s (deliver referenceKeeper openEnv s tx)

/-- The issuer closes the asset while units of it lie in the fee collector,
but allowlists the two module accounts. -/
theorem allowlisted_land_is_swept :
    ∃ history s,
      Run (rwaStep referenceKeeper) fundedState history s ∧
      s.bank.balance (feeCollector referenceKeeper) (buildDenom "land") = 5 ∧
      SweepAllowed referenceKeeper s := by
  have hfacts :
      (runLand [registerLand, attestLand, mintLand "1000"]).any (fun r =>
        decide (∀ entry ∈ r.1, entry.2.2.quiet = true) &&
          (getAsset r.2.store "land").any (fun rec =>
            rec.allowAll && rec.denom == buildDenom "land") &&
          !isDenylisted r.2.store "land"
            (distributionAccount referenceKeeper) &&
          !isDenylisted (nextLand r.2 (placeLand "5")).store "land"
            (feeCollector referenceKeeper) &&
          !isDenylisted (nextLand r.2 (placeLand "5")).store "land"
            (distributionAccount referenceKeeper) &&
          (nextLand (nextLand r.2 (placeLand "5"))
            (closeLand [collectorText, distributionText])).bank.balance
              (feeCollector referenceKeeper) (buildDenom "land") == 5) =
        true := by
    decide +kernel
  rcases exists_some_of_any hfacts with ⟨⟨history, s⟩, hrun, hchecked⟩
  simp only [Bool.and_eq_true, Bool.not_eq_true', beq_iff_eq,
    decide_eq_true_eq] at hchecked
  rcases hchecked with
    ⟨⟨⟨⟨⟨hquiet, hrecord⟩, hopen⟩, hcollector⟩, hdistribution⟩, hheld⟩
  rcases exists_some_of_any hrecord with ⟨rec, hget, hrec⟩
  simp only [Bool.and_eq_true, beq_iff_eq] at hrec
  have hfull : Run (rwaStep referenceKeeper) fundedState
      ((nextLand s (placeLand "5"), openEnv,
          closeLand [collectorText, distributionText]) ::
        (s, openEnv, placeLand "5") :: history)
      (nextLand (nextLand s (placeLand "5"))
        (closeLand [collectorText, distributionText])) :=
    Run.next (Run.next (run_of_runLand hrun) rfl) rfl
  refine ⟨_, _, hfull, hheld, ?_⟩
  refine ((fee_sweep_allowed_iff fundedState_sweepAllowed hfull).mpr ?_).2
  simp only [List.forall_mem_cons]
  refine ⟨?_, ?_, ?_⟩
  · intro _ _
    have hnamed : names referenceKeeper.sdk [collectorText, distributionText]
          (feeCollector referenceKeeper) = true ∧
        names referenceKeeper.sdk [collectorText, distributionText]
          (distributionAccount referenceKeeper) = true := by
      decide +kernel
    have hnone : ∀ addr, names referenceKeeper.sdk [] addr = false :=
      fun _ => rfl
    exact ⟨⟨Or.inr ⟨hnone _, Or.inl hnamed.1⟩, Or.inr ⟨hnone _, hcollector⟩⟩,
      ⟨Or.inr ⟨hnone _, Or.inl hnamed.2⟩,
        Or.inr ⟨hnone _, hdistribution⟩⟩⟩
  · intro _ _ rec' assetID hget' hdenom _
    rw [show getAsset s.store _ = some rec from hget, Option.some.injEq]
      at hget'
    subst hget'
    rw [hrec.2] at hdenom
    rw [← buildDenom_injective hdenom]
    exact ⟨rec, hget, Or.inl hrec.1, hopen⟩
  · exact fun entry hentry _ => keepsSweep_of_quiet (hquiet entry hentry)

/-- The minted units and the mint fee lie in the fee collector when the issuer
closes the asset; the restriction then rejects the sweep. -/
theorem closed_land_blocks_sweep :
    ∃ history s,
      Run (rwaStep referenceKeeper) fundedState history s ∧
      HoldsExactly s.bank (feeCollector referenceKeeper)
        [("rwa/land", 5), ("uvtx", 1)] ∧
      sendRestriction referenceKeeper s.store (feeCollector referenceKeeper)
          (distributionAccount referenceKeeper)
          [("rwa/land", 5), ("uvtx", 1)] =
        .error (errTransferRestricted.wrap
          "asset land requires both parties allowlisted") := by
  have hfacts :
      (runLand [registerLand, attestLand, mintLand "1000", placeLand "5",
        closeLand []]).any (fun r =>
          decide (∀ entry ∈ r.1, entry.2.2.about = some "land") &&
            r.2.bank.balance (feeCollector referenceKeeper) "rwa/land" == 5 &&
            r.2.bank.balance (feeCollector referenceKeeper) "uvtx" == 1 &&
            decide (sendRestriction referenceKeeper r.2.store
              (feeCollector referenceKeeper)
              (distributionAccount referenceKeeper)
              [("rwa/land", 5), ("uvtx", 1)] =
                .error (errTransferRestricted.wrap
                  "asset land requires both parties allowlisted"))) =
        true := by
    decide +kernel
  rcases exists_some_of_any hfacts with ⟨⟨history, s⟩, hrun, hchecked⟩
  simp only [Bool.and_eq_true, beq_iff_eq, decide_eq_true_eq] at hchecked
  rcases hchecked with ⟨⟨⟨habout, hland⟩, hbase⟩, hrejected⟩
  refine ⟨history, s, run_of_runLand hrun, ⟨?_, ?_⟩, hrejected⟩
  · intro coin hcoin
    simp only [List.mem_cons, List.not_mem_nil, or_false] at hcoin
    rcases hcoin with rfl | rfl
    · exact ⟨by decide, hland⟩
    · exact ⟨by decide, hbase⟩
  · intro denom hheld
    by_contra hother
    simp only [List.map_cons, List.map_nil, List.mem_cons, List.not_mem_nil,
      or_false, not_or] at hother
    have hkept := balance_of_other_denom_run fundedState_canonical
      (run_of_runLand hrun) habout hother.2
      (fun heq => hother.1 (heq.trans (by decide)))
      (feeCollector referenceKeeper)
    rw [hkept] at hheld
    simp [fundedState, bondDenom, hother.2] at hheld

end Rwa
end Vertix
