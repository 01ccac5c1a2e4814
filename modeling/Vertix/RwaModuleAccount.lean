import Vertix.RwaSupply
import Mathlib.Tactic

/-!
# Units in the module account

The send restriction exempts every leg which touches the module account, and
the module account is not a blocked recipient.  A holder can therefore pay
units into it, whatever the lists say, and nobody can take them out again.
This is the only way in which a denylisted holding shrinks, and the only way
in which units are stranded in the module account.
-/

namespace Vertix
namespace Rwa

open Transition

/-! ## Sends requested by users -/

/-- The send which a transaction asks of the bank, with the account which
pays. -/
def RwaTx.requestedSend (k : Keeper) (store : RwaStore) :
    RwaTx → Option (Address × List (Address × CoinList String))
  | .transferRWA msg => do
      let rec ← getAsset store msg.assetId
      let sender ← (k.sdk.accAddressFromBech32 msg.sender).toOption
      let recipient ← (k.sdk.accAddressFromBech32 msg.recipient).toOption
      let amount ← k.sdk.newIntFromString msg.amount
      return (sender, [(recipient, coinsOf rec.denom amount.raw.toNat)])
  | .bankSend source outputs => some (source, outputs)
  | .payFee payer coins => some (payer, [(feeCollector k, coins)])
  | _ => none

/-- The units of an asset which a requested send pays to an account. -/
def unitsPaid (k : Keeper) (store : RwaStore) (tx : RwaTx)
    (account : Address) (assetID : String) : ℕ :=
  match tx.requestedSend k store with
  | some (_, outputs) => received outputs account (buildDenom assetID)
  | none => 0

/-- What an accepted transaction did to the units of every account: it either
carried out the send it asked for, or it moved units of one asset between its
issuer and the supply. -/
inductive UnitFlow (k : Keeper) (s s' : RwaState) (tx : RwaTx) : Prop
  | sent (source : Address) (outputs : List (Address × CoinList String))
      (hrequested : tx.requestedSend k s.store = some (source, outputs))
      (hsigner : tx.signer k.sdk = .ok source)
      (hallowed : SendAllowed k s.store source outputs)
      (hbank : s.bank.execAll [.send source outputs] = some s'.bank)
  | issued (hrequested : tx.requestedSend k s.store = none)
      (hothers : ∀ account assetID,
        ¬ (tx.signer k.sdk = .ok account ∧
          isIssuer k s.store assetID account = true) →
        s'.bank.balance account (buildDenom assetID) =
          s.bank.balance account (buildDenom assetID))

theorem isIssuer_of_owned {k : Keeper} {store : RwaStore}
    {assetID caller : String} {issuer : Address} {rec : AssetRecord}
    (howned : Owned k store assetID caller issuer rec) :
    isIssuer k store assetID issuer = true := by
  simp [isIssuer, howned.stored, howned.decoded]

/-- Unless the account is the issuer of the asset, units of the denomination
of a record are not those of the asset or do not go to the account. -/
theorem Owned.not_own_units {k : Keeper} {store : RwaStore}
    {written caller assetID : String} {issuer account : Address}
    {rec : AssetRecord} (howned : Owned k store written caller issuer rec)
    (hcanonical : Canonical store)
    (hother : ¬ (k.sdk.accAddressFromBech32 caller = .ok account ∧
      isIssuer k store assetID account = true)) :
    account ≠ issuer ∨ rec.denom ≠ buildDenom assetID := by
  by_cases hdenom : rec.denom = buildDenom assetID
  · left
    intro hissuer
    have hcanonicalDenom := (hcanonical written rec howned.stored).2
    rw [hdenom] at hcanonicalDenom
    have hsame : assetID = written := buildDenom_injective hcanonicalDenom
    apply hother
    rw [hissuer, hsame]
    exact ⟨howned.caller_decodes, isIssuer_of_owned howned⟩
  · exact Or.inr hdenom

theorem Accepted.unitFlow
    {k : Keeper} {env : Env} {s s' : RwaState} {tx : RwaTx}
    (haccepted : Accepted k env s tx s') (hcanonical : Canonical s.store) :
    UnitFlow k s s' tx := by
  cases haccepted with
  | registered hvalid hissuer hfresh hbond hmin hbank =>
      apply UnitFlow.issued rfl
      intro account assetID _
      have hlaw := Ledger.execAll_balance hbank account (buildDenom assetID)
      simpa [LedgerOp.inflow, LedgerOp.outflow] using hlaw
  | attested => exact UnitFlow.issued rfl fun _ _ _ => rfl
  | minted howned hstatus hnotional hpos hfee hprev htotal hbank =>
      apply UnitFlow.issued rfl
      intro account assetID hother
      have hlaw := Ledger.execAll_balance hbank account (buildDenom assetID)
      rcases howned.not_own_units hcanonical hother with hne | hne
      · simpa [LedgerOp.inflow, LedgerOp.outflow, hne] using hlaw
      · simpa [LedgerOp.inflow, LedgerOp.outflow, hne] using hlaw
  | transferred hstored hstatus hsender hrecipient hamount hpos hallowed
      hbank =>
      refine UnitFlow.sent _ _ ?_ hsender hallowed hbank
      simp [RwaTx.requestedSend, hstored, hsender, hrecipient, hamount,
        Except.toOption]
  | restricted => exact UnitFlow.issued rfl fun _ _ _ => rfl
  | settled howned hstatus hnotional hfee hbond hbank =>
      apply UnitFlow.issued rfl
      intro account assetID hother
      have hlaw := Ledger.execAll_balance hbank account (buildDenom assetID)
      rcases howned.not_own_units hcanonical hother with hne | hne
      · simpa [LedgerOp.inflow, LedgerOp.outflow, hne] using hlaw
      · simpa [LedgerOp.inflow, LedgerOp.outflow, hne] using hlaw
  | slashed hauthority hstored hissuer hstatus hbond hbank =>
      apply UnitFlow.issued rfl
      intro account assetID _
      have hlaw := Ledger.execAll_balance hbank account (buildDenom assetID)
      simpa [LedgerOp.inflow, LedgerOp.outflow] using hlaw
  | reparametrized => exact UnitFlow.issued rfl fun _ _ _ => rfl
  | sent hopen hallowed hbank =>
      exact UnitFlow.sent _ _ rfl rfl hallowed hbank
  | paid hallowed hbank => exact UnitFlow.sent _ _ rfl rfl hallowed hbank

/-! ## Denylisted holdings -/

/-- The account is on the denylist of a registered asset and is not its
issuer. -/
def Frozen (k : Keeper) (store : RwaStore) (assetID : String)
    (account : Address) : Prop :=
  (∃ rec, getAsset store assetID = some rec) ∧
    isIssuer k store assetID account = false ∧
    isDenylisted store assetID account = true

theorem Frozen.not_eligible {k : Keeper} {store : RwaStore}
    {assetID : String} {account : Address}
    (hfrozen : Frozen k store assetID account) :
    ¬ Eligible store assetID account := by
  intro heligible
  rcases heligible with ⟨rec, hget, hallow, hdeny⟩
  rw [hfrozen.2.2] at hdeny
  cases hdeny

/-- All units which leave a barred account go to the module account. -/
theorem SendAllowed.units_to_module
    {k : Keeper} {store : RwaStore} {source : Address}
    {outputs : List (Address × CoinList String)} {assetID : String}
    (hallowed : SendAllowed k store source outputs)
    (hsource : source ≠ moduleAddress k) (hid : assetID ≠ "")
    (hbarred : ¬ Eligible store assetID source) :
    amountOf (outputCoins outputs) (buildDenom assetID) =
      received outputs (moduleAddress k) (buildDenom assetID) := by
  rw [amountOf_outputCoins]
  unfold received
  congr 1
  apply List.map_congr_left
  intro output houtput
  by_cases htarget : moduleAddress k = output.1
  · rw [if_pos htarget]
  · rw [if_neg htarget]
    by_contra hamount
    exact hbarred (hallowed.eligible hsource houtput hid
      (Nat.pos_of_ne_zero hamount) (Ne.symm htarget)).1

/-- A transaction leaves a frozen holding undiminished exactly when it is not
a payment of the account itself to the module account. -/
theorem Accepted.frozen_units_iff
    {k : Keeper} {env : Env} {s s' : RwaState} {tx : RwaTx}
    (haccepted : Accepted k env s tx s')
    (hsignable : tx.signable k = true) (hcanonical : Canonical s.store)
    {assetID : String} {account : Address}
    (hfrozen : Frozen k s.store assetID account) :
    s.bank.balance account (buildDenom assetID) ≤
        s'.bank.balance account (buildDenom assetID) ↔
      (tx.signer k.sdk = .ok account →
        unitsPaid k s.store tx (moduleAddress k) assetID = 0) := by
  rcases hfrozen.1 with ⟨rec, hget⟩
  have hid : assetID ≠ "" := hcanonical.id_ne_empty hget
  cases haccepted.unitFlow hcanonical with
  | issued hrequested hothers =>
      have hsame := hothers account assetID fun h => by
        rw [hfrozen.2.1] at h
        cases h.2
      simp [unitsPaid, hrequested, hsame]
  | sent source outputs hrequested hsigner hallowed hbank =>
      have hsource : source ≠ moduleAddress k :=
        (ne_signer_of_keyless (moduleAddress_keyless k) hsignable hsigner).symm
      have hlaw := Ledger.execAll_balance hbank account (buildDenom assetID)
      simp only [LedgerOp.inflow, LedgerOp.outflow, List.map_cons,
        List.map_nil, List.sum_cons, List.sum_nil, Nat.add_zero] at hlaw
      simp only [unitsPaid, hrequested, hsigner, Except.ok.injEq]
      by_cases haccount : account = source
      · subst haccount
        have hnone := hallowed.received_eq_zero hsource hid hsource
          hfrozen.not_eligible
        rw [if_pos rfl, hnone, hallowed.units_to_module hsource hid
          hfrozen.not_eligible] at hlaw
        constructor
        · intro hle _
          omega
        · intro hzero
          have hpaid := hzero rfl
          omega
      · rw [if_neg haccount] at hlaw
        constructor
        · intro _ hsame
          exact absurd hsame.symm haccount
        · intro _
          omega

/-- Along every run segment in which an account other than the issuer stays
on the denylist of an asset, no step takes units from it exactly when no
successful transaction of the account itself pays units of the asset into the
module account. -/
theorem denylisted_holding_kept_iff
    {k : Keeper} {start s t : RwaState} {past segment : History}
    (hstart : Canonical start.store)
    (hreached : Run (rwaStep k) start past s)
    (hsegment : Run (rwaStep k) s segment t)
    {assetID : String} {account : Address}
    (hfrozen : ∀ entry ∈ segment,
      Frozen k entry.1.store assetID account) :
    (∀ entry ∈ segment,
      entry.1.bank.balance account (buildDenom assetID) ≤
        (commit entry.1 (deliver k entry.2.1 entry.1 entry.2.2)).bank.balance
          account (buildDenom assetID)) ↔
      ∀ entry ∈ segment, delivered k entry = true →
        entry.2.2.signer k.sdk = .ok account →
          unitsPaid k entry.1.store entry.2.2 (moduleAddress k) assetID =
            0 := by
  have hcanonical : Canonical s.store := hstart.run hreached
  apply forall₂_congr
  intro entry hentry
  rcases hsegment.exists_run_before hentry with ⟨newer, older, -, hbefore⟩
  rcases rwaStep_cases (show rwaStep k entry.1 entry.2 = some _ from rfl) with
    ⟨failure, hfailed, hsame⟩ | ⟨hdelivered, hsignable, haccepted⟩
  · rw [hsame, delivered_of_error hfailed]
    simp
  · rw [delivered_of_ok hdelivered]
    simp only [forall_const]
    exact haccepted.frozen_units_iff hsignable (hcanonical.run hbefore)
      (hfrozen entry hentry)

/-- A transfer of units from the issuer. -/
def sendLand (recipient amount : String) : RwaTx :=
  .transferRWA ⟨issuerText, recipient, "land", amount⟩

def denyLand (denied : List String) : RwaTx :=
  .updateRestrictions ⟨issuerText, "land", true, [], [], denied, []⟩

/-- The holder got units and was then denylisted. -/
def deniedRun : Option (History × RwaState) :=
  runLand [registerLand, attestLand, mintLand "1000", sendLand holderText "5",
    denyLand [holderText]]

def frozenLand (s : RwaState) : Bool :=
  (getAsset s.store "land").isSome &&
    !isIssuer referenceKeeper s.store "land" (addressOf 2) &&
    isDenylisted s.store "land" (addressOf 2) &&
    s.bank.balance (addressOf 2) (buildDenom "land") == 5

theorem frozen_of_frozenLand {s : RwaState} (hland : frozenLand s = true) :
    Frozen referenceKeeper s.store "land" (addressOf 2) ∧
      s.bank.balance (addressOf 2) (buildDenom "land") = 5 := by
  simp only [frozenLand, Bool.and_eq_true, Bool.not_eq_true', beq_iff_eq,
    Option.isSome_iff_exists] at hland
  exact ⟨⟨hland.1.1.1, hland.1.1.2, hland.1.2⟩, hland.2⟩

theorem exists_denied :
    ∃ past s, Run (rwaStep referenceKeeper) fundedState past s ∧
      frozenLand s = true ∧
      (commit s (deliver referenceKeeper openEnv s
        (.bankSend (addressOf 2) [(moduleAddress referenceKeeper,
          [("rwa/land", 5)])]))).bank.balance (addressOf 2)
            (buildDenom "land") = 0 := by
  have hdenied : deniedRun.any (fun r => frozenLand r.2 &&
      (commit r.2 (deliver referenceKeeper openEnv r.2
        (.bankSend (addressOf 2) [(moduleAddress referenceKeeper,
          [("rwa/land", 5)])]))).bank.balance (addressOf 2)
            (buildDenom "land") == 0) = true := by
    decide +kernel
  rcases exists_some_of_any hdenied with ⟨⟨past, s⟩, hrun, hfacts⟩
  rw [Bool.and_eq_true, beq_iff_eq] at hfacts
  exact ⟨past, s, run_of_runLand hrun, hfacts⟩

/-- A denylisted holder tries to send its units back to the issuer and still
has them afterwards. -/
theorem denied_holder_keeps_land :
    ∃ past s t,
      Run (rwaStep referenceKeeper) fundedState past s ∧
      Run (rwaStep referenceKeeper) s
        [(s, openEnv, .bankSend (addressOf 2)
          [(addressOf 1, [("rwa/land", 5)])])] t ∧
      isDenylisted s.store "land" (addressOf 2) = true ∧
      5 ≤ t.bank.balance (addressOf 2) (buildDenom "land") := by
  rcases exists_denied with ⟨past, s, hrun, hland, -⟩
  have hfrozen := frozen_of_frozenLand hland
  have hsegment : Run (rwaStep referenceKeeper) s
      [(s, openEnv, .bankSend (addressOf 2)
        [(addressOf 1, [("rwa/land", 5)])])] _ := Run.next Run.start rfl
  have hissuer : moduleAddress referenceKeeper ≠ addressOf 1 := by
    decide +kernel
  have hkept := (denylisted_holding_kept_iff fundedState_canonical
    hrun hsegment
    (fun entry hentry => by
      rw [List.mem_singleton] at hentry
      rw [hentry]
      exact hfrozen.1)).mpr
    (fun entry hentry _ _ => by
      rw [List.mem_singleton] at hentry
      rw [hentry]
      simp [unitsPaid, RwaTx.requestedSend, hissuer])
  refine ⟨past, s, _, hrun, hsegment, hfrozen.1.2.2, ?_⟩
  calc
    5 = s.bank.balance (addressOf 2) (buildDenom "land") := hfrozen.2.symm
    _ ≤ _ := hkept _ (List.mem_singleton_self _)

/-- The denylisted holder pays its units into the module account. -/
theorem denied_holder_pays_module :
    ∃ past s t,
      Run (rwaStep referenceKeeper) fundedState past s ∧
      Frozen referenceKeeper s.store "land" (addressOf 2) ∧
      Run (rwaStep referenceKeeper) s
        [(s, openEnv, .bankSend (addressOf 2)
          [(moduleAddress referenceKeeper, [("rwa/land", 5)])])] t ∧
      s.bank.balance (addressOf 2) (buildDenom "land") = 5 ∧
      t.bank.balance (addressOf 2) (buildDenom "land") = 0 := by
  rcases exists_denied with ⟨past, s, hrun, hland, hspent⟩
  have hfrozen := frozen_of_frozenLand hland
  exact ⟨past, s, _, hrun, hfrozen.1, Run.next Run.start rfl, hfrozen.2,
    hspent⟩

/-! ## Units without a signer -/

/-- An account which signs nothing changes its units by what others pay to
it. -/
theorem Accepted.keyless_units
    {k : Keeper} {env : Env} {s s' : RwaState} {tx : RwaTx}
    (haccepted : Accepted k env s tx s')
    (hsignable : tx.signable k = true) (hcanonical : Canonical s.store)
    {account : Address} (hkeyless : account ∈ keylessAccounts k)
    (assetID : String) :
    s'.bank.balance account (buildDenom assetID) =
      s.bank.balance account (buildDenom assetID) +
        unitsPaid k s.store tx account assetID := by
  cases haccepted.unitFlow hcanonical with
  | issued hrequested hothers =>
      have hsame := hothers account assetID fun h =>
        signer_not_keyless hsignable h.1 hkeyless
      simp [unitsPaid, hrequested, hsame]
  | sent source outputs hrequested hsigner hallowed hbank =>
      have hsource := ne_signer_of_keyless hkeyless hsignable hsigner
      have hlaw := Ledger.execAll_balance hbank account (buildDenom assetID)
      simpa [unitsPaid, hrequested, LedgerOp.inflow, LedgerOp.outflow,
        hsource] using hlaw

/-- The account holds no units of any asset. -/
def HoldsNoUnits (s : RwaState) (account : Address) : Prop :=
  ∀ assetID, s.bank.balance account (buildDenom assetID) = 0

/-- The transaction, if it succeeds, pays no units to the account. -/
def PaysNoUnits (k : Keeper) (account : Address) (s : RwaState)
    (label : Label) : Prop :=
  delivered k (s, label) = true →
    ∀ assetID, unitsPaid k s.store label.2 account assetID = 0

theorem rwaStep_holdsNoUnits_iff
    {k : Keeper} {s s' : RwaState} {label : Label}
    (hcanonical : Canonical s.store) {account : Address}
    (hkeyless : account ∈ keylessAccounts k)
    (hnone : HoldsNoUnits s account)
    (hstep : rwaStep k s label = some s') :
    HoldsNoUnits s' account ↔ PaysNoUnits k account s label := by
  rcases rwaStep_cases hstep with ⟨failure, hfailed, hsame⟩ |
    ⟨hdelivered, hsignable, haccepted⟩
  · rw [hsame]
    simp [PaysNoUnits, delivered_of_error hfailed, hnone]
  · unfold HoldsNoUnits PaysNoUnits
    rw [delivered_of_ok hdelivered]
    simp only [forall_const]
    apply forall_congr'
    intro assetID
    rw [haccepted.keyless_units hsignable hcanonical hkeyless, hnone assetID,
      Nat.zero_add]

/-- A module account without a key holds no units along a run exactly when no
transaction of the run pays it any. -/
theorem holdsNoUnits_along_run_iff
    {k : Keeper} {start s : RwaState} {history : History}
    (hcanonical : Canonical start.store) {account : Address}
    (hkeyless : account ∈ keylessAccounts k)
    (hnone : HoldsNoUnits start account)
    (hrun : Run (rwaStep k) start history s) :
    ((∀ entry ∈ history, HoldsNoUnits entry.1 account) ∧
        HoldsNoUnits s account) ↔
      ∀ entry ∈ history, PaysNoUnits k account entry.1 entry.2 := by
  have hboth := Run.always_iff
    (I := fun s => Canonical s.store ∧ HoldsNoUnits s account)
    (C := PaysNoUnits k account) ⟨hcanonical, hnone⟩
    (fun state label state' hstate hstep => by
      rw [← rwaStep_holdsNoUnits_iff hstate.1 hkeyless hstate.2 hstep]
      exact and_iff_right (hstate.1.step hstep)) hrun
  rw [← hboth]
  have hcanonicals : ∀ entry ∈ history, Canonical entry.1.store := by
    intro entry hentry
    rcases hrun.exists_run_before hentry with ⟨newer, older, -, hbefore⟩
    exact hcanonical.run hbefore
  constructor
  · intro hall
    exact ⟨fun entry hentry => ⟨hcanonicals entry hentry, hall.1 entry hentry⟩,
      hcanonical.run hrun, hall.2⟩
  · intro hall
    exact ⟨fun entry hentry => (hall.1 entry hentry).2, hall.2.2⟩

/-! ## Who holds the units -/

theorem Accepted.exec_bank
    {k : Keeper} {env : Env} {s s' : RwaState} {tx : RwaTx}
    (haccepted : Accepted k env s tx s') :
    ∃ ops, s.bank.execAll ops = some s'.bank := by
  cases haccepted with
  | registered hvalid hissuer hfresh hbond hmin hbank => exact ⟨_, hbank⟩
  | attested => exact ⟨[], rfl⟩
  | minted howned hstatus hnotional hpos hfee hprev htotal hbank =>
      exact ⟨_, hbank⟩
  | transferred hstored hstatus hsender hrecipient hamount hpos hallowed
      hbank => exact ⟨_, hbank⟩
  | restricted => exact ⟨[], rfl⟩
  | settled howned hstatus hnotional hfee hbond hbank => exact ⟨_, hbank⟩
  | slashed hauthority hstored hissuer hstatus hbond hbank =>
      exact ⟨_, hbank⟩
  | reparametrized => exact ⟨[], rfl⟩
  | sent hopen hallowed hbank => exact ⟨_, hbank⟩
  | paid hallowed hbank => exact ⟨_, hbank⟩

/-- A finite set of accounts holds the supply of a denomination throughout a
run. -/
theorem exists_heldBy_of_run
    {k : Keeper} {start s : RwaState} {history : History} {denom : String}
    {holders : Finset Address} (hheld : start.bank.HeldBy denom holders)
    (hrun : Run (rwaStep k) start history s) :
    ∃ holders', s.bank.HeldBy denom holders' := by
  refine Run.invariant
    (I := fun s => ∃ holders, s.bank.HeldBy denom holders)
    ⟨holders, hheld⟩ ?_ hrun
  intro state label state' hstate hstep
  rcases hstate with ⟨before, hbefore⟩
  rcases rwaStep_cases hstep with ⟨-, -, hsame⟩ | ⟨-, -, haccepted⟩
  · rw [hsame]
    exact ⟨before, hbefore⟩
  · rcases haccepted.exec_bank with ⟨ops, hbank⟩
    exact Ledger.execAll_heldBy hbank hbefore

/-- The minted units of every active asset are held by accounts which can sign
for them. -/
def Returnable (k : Keeper) (s : RwaState) : Prop :=
  ∀ assetID rec notional, getAsset s.store assetID = some rec →
    rec.status = .active →
    k.sdk.newIntFromString rec.notionalMinted = some notional →
    ∃ holders : Finset Address,
      (∀ account ∈ holders, account ∉ keylessAccounts k) ∧
        ((∑ account ∈ holders,
          s.bank.balance account (buildDenom assetID) : ℕ) : ℤ) =
            notional.raw

theorem returnable_of_run
    {k : Keeper} {start s : RwaState} {history : History}
    (hempty : ∀ assetID, getAsset start.store assetID = none)
    (hnone : ∀ assetID, start.bank.supply (buildDenom assetID) = 0)
    (hunheld : ∀ account, HoldsNoUnits start account)
    (hrun : Run (rwaStep k) start history s)
    (hkeyless : ∀ account ∈ keylessAccounts k, HoldsNoUnits s account) :
    Returnable k s := by
  intro assetID rec notional hget hactive hnotional
  have hstart : start.bank.HeldBy (buildDenom assetID) ∅ := by
    constructor
    · exact fun account _ => hunheld account assetID
    · rw [Finset.sum_empty, hnone assetID]
  rcases exists_heldBy_of_run hstart hrun with ⟨holders, hheld⟩
  refine ⟨holders.filter (· ∉ keylessAccounts k), ?_, ?_⟩
  · intro account haccount
    exact (Finset.mem_filter.mp haccount).2
  · rw [hheld.sum_filter]
    · exact (((assetSupply_of_run hempty hnone hrun).2 assetID).active rec
        hget hactive).of_parsed hnotional
    · intro account haccount
      exact hkeyless account (not_not.mp haccount) assetID

/-- From an empty registry without units, the module account holds no units
in any state of a run exactly when no successful transaction of the run pays
units into it.  If none pays units to any account without a key, all minted
units can come back to the issuers. -/
theorem module_account_holds_no_units_iff
    {k : Keeper} {start s : RwaState} {history : History}
    (hempty : ∀ assetID, getAsset start.store assetID = none)
    (hnone : ∀ assetID, start.bank.supply (buildDenom assetID) = 0)
    (hunheld : ∀ account, HoldsNoUnits start account)
    (hrun : Run (rwaStep k) start history s) :
    (((∀ entry ∈ history, HoldsNoUnits entry.1 (moduleAddress k)) ∧
        HoldsNoUnits s (moduleAddress k)) ↔
      ∀ entry ∈ history, PaysNoUnits k (moduleAddress k) entry.1 entry.2) ∧
      ((∀ entry ∈ history, ∀ account ∈ keylessAccounts k,
        PaysNoUnits k account entry.1 entry.2) → Returnable k s) := by
  have hsound : RecordsSound k.sdk start.store := recordsSound_of_empty hempty
  have hcanonical : Canonical start.store := hsound.canonical
  constructor
  · exact holdsNoUnits_along_run_iff hcanonical (moduleAddress_keyless k)
      (hunheld _) hrun
  · intro hquiet
    apply returnable_of_run hempty hnone hunheld hrun
    intro account hkeyless
    exact ((holdsNoUnits_along_run_iff hcanonical hkeyless (hunheld account)
      hrun).mpr fun entry hentry => hquiet entry hentry account hkeyless).2

def moduleText : String := "vtx1du7cvpf9mg4e595aj3srwv08j2lq08v0xufm4w"

theorem fundedState_holdsNoUnits (account : Address) :
    HoldsNoUnits fundedState account := by
  intro assetID
  simp [fundedState]

/-- The account is a recipient of the send which the transaction asks for. -/
def namesRecipient (k : Keeper) (account : Address)
    (entry : RwaState × Label) : Bool :=
  (entry.2.2.requestedSend k entry.1.store).any fun send =>
    send.2.any fun output => decide (account = output.1)

theorem paysNoUnits_of_not_recipient
    {k : Keeper} {account : Address} {entry : RwaState × Label}
    (hother : namesRecipient k account entry = false) :
    PaysNoUnits k account entry.1 entry.2 := by
  intro _ assetID
  unfold unitsPaid
  cases hrequested : entry.2.2.requestedSend k entry.1.store with
  | none => rfl
  | some send =>
      simp only [namesRecipient, hrequested, Option.any_some,
        List.any_eq_false, decide_eq_true_eq] at hother
      apply Vertix.received_eq_zero
      intro output houtput htarget
      exact absurd htarget (hother output houtput)

/-- Units which went to an ordinary holder can all come back. -/
theorem held_land_is_returnable :
    ∃ history s,
      Run (rwaStep referenceKeeper) fundedState history s ∧
      s.bank.balance (addressOf 2) (buildDenom "land") = 5 ∧
      HoldsNoUnits s (moduleAddress referenceKeeper) ∧
      Returnable referenceKeeper s := by
  have hheld :
      (runLand [registerLand, attestLand, mintLand "1000",
        sendLand holderText "5"]).any (fun r =>
          r.2.bank.balance (addressOf 2) (buildDenom "land") == 5 &&
            r.1.all fun entry => (keylessAccounts referenceKeeper).all
              fun account => !namesRecipient referenceKeeper account entry) =
        true := by
    decide +kernel
  rcases exists_some_of_any hheld with ⟨⟨history, s⟩, hrun, hfacts⟩
  simp only [Bool.and_eq_true, beq_iff_eq, List.all_eq_true,
    Bool.not_eq_true'] at hfacts
  have hquiet : ∀ entry ∈ history,
      ∀ account ∈ keylessAccounts referenceKeeper,
        PaysNoUnits referenceKeeper account entry.1 entry.2 :=
    fun entry hentry account haccount =>
      paysNoUnits_of_not_recipient (hfacts.2 entry hentry account haccount)
  have hlaw := module_account_holds_no_units_iff fundedState_empty
    (fun assetID => by simp [fundedState]) fundedState_holdsNoUnits
    (run_of_runLand hrun)
  exact ⟨history, s, run_of_runLand hrun, hfacts.1,
    (hlaw.1.mpr fun entry hentry => hquiet entry hentry _
      (moduleAddress_keyless referenceKeeper)).2, hlaw.2 hquiet⟩

/-- The holder transfers its units to the module account; the issuer can no
longer settle. -/
theorem stranded_land_blocks_settlement :
    ∃ history s,
      Run (rwaStep referenceKeeper) fundedState history s ∧
      s.bank.balance (moduleAddress referenceKeeper) (buildDenom "land") =
        5 ∧
      delivered referenceKeeper (s, openEnv, settleLand) = false := by
  have hstranded :
      (runLand [registerLand, attestLand, mintLand "1000",
        sendLand holderText "5",
        .transferRWA ⟨holderText, moduleText, "land", "5"⟩]).any (fun r =>
          r.2.bank.balance (moduleAddress referenceKeeper)
              (buildDenom "land") == 5 &&
            !delivered referenceKeeper (r.2, openEnv, settleLand)) = true := by
    decide +kernel
  rcases exists_some_of_any hstranded with ⟨⟨history, s⟩, hrun, hfacts⟩
  rw [Bool.and_eq_true, beq_iff_eq, Bool.not_eq_true'] at hfacts
  exact ⟨history, s, run_of_runLand hrun, hfacts⟩

end Rwa
end Vertix
