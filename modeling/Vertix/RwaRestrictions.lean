import Vertix.RwaRun
import Vertix.SdkReference
import Mathlib.Tactic

/-!
# Restricted units stay with eligible accounts

While the policy of an asset bars an account, no sequence of transactions
increases the units which the account holds.  The exceptions are the module
account, which the policy exempts, and the payout of a mint to the issuer.
-/

namespace Vertix
namespace Rwa

open Transition

/-! ## Records carry their own denomination -/

/-- Every record sits under a slug and carries the denomination built from
it.  The module writes no other record; genesis import does not check the
denomination. -/
def Canonical (store : RwaStore) : Prop :=
  ∀ assetID rec, getAsset store assetID = some rec →
    slugRegexMatch assetID = true ∧ rec.denom = buildDenom assetID

theorem Canonical.id_ne_empty {store : RwaStore} (hcanonical : Canonical store)
    {assetID : String} {rec : AssetRecord}
    (hget : getAsset store assetID = some rec) : assetID ≠ "" := by
  rintro rfl
  exact absurd (hcanonical "" rec hget).1 (by decide)

theorem RecordsSound.canonical {sdk : Sdk} {store : RwaStore}
    (hsound : RecordsSound sdk store) : Canonical store := by
  intro assetID rec hget
  have hrecord := hsound assetID rec hget
  have hid := getAsset_assetId hget
  subst hid
  exact ⟨hrecord.slug, hrecord.denom_eq⟩

theorem Canonical.accepted
    {k : Keeper} {env : Env} {s s' : RwaState} {tx : RwaTx}
    (hcanonical : Canonical s.store) (haccepted : Accepted k env s tx s') :
    Canonical s'.store := by
  apply haccepted.records_induct (P := fun assetID rec =>
    slugRegexMatch assetID = true ∧ rec.denom = buildDenom assetID)
    _ _ hcanonical
  · intro assetID rec hstep hid
    cases hstep with
    | register ctx hvalid hbond =>
        subst hid
        exact ⟨hvalid.slug, rfl⟩
  · intro assetID old rec hold hstep
    rw [hstep.frozen.2.1]
    exact hold

theorem Canonical.step
    {k : Keeper} {s s' : RwaState} {label : Label}
    (hcanonical : Canonical s.store)
    (hstep : rwaStep k s label = some s') : Canonical s'.store := by
  rcases rwaStep_cases hstep with ⟨-, -, hsame⟩ | ⟨-, -, haccepted⟩
  · rw [hsame]
    exact hcanonical
  · exact hcanonical.accepted haccepted

theorem Canonical.run
    {k : Keeper} {start s : RwaState} {history : History}
    (hcanonical : Canonical start.store)
    (hrun : Run (rwaStep k) start history s) : Canonical s.store :=
  Run.invariant (I := fun s => Canonical s.store) hcanonical
    (fun _ _ _ hstate hstep => hstate.step hstep) hrun

/-! ## Barred accounts -/

/-- The restriction policy of an asset: the open flag and the two lists. -/
def Policy (store : RwaStore) (assetID : String) (allowAll : Bool)
    (allowed denied : Set Address) : Prop :=
  ∃ rec, getAsset store assetID = some rec ∧ rec.allowAll = allowAll ∧
    (∀ addr, isAllowlisted store assetID addr = true ↔ addr ∈ allowed) ∧
    ∀ addr, isDenylisted store assetID addr = true ↔ addr ∈ denied

theorem Policy.not_eligible
    {store : RwaStore} {assetID : String} {allowAll : Bool}
    {allowed denied : Set Address} {account : Address}
    (hpolicy : Policy store assetID allowAll allowed denied)
    (hbarred : (allowAll = false ∧ account ∉ allowed) ∨ account ∈ denied) :
    ¬ Eligible store assetID account := by
  rintro ⟨rec, hget, hallow, hdeny⟩
  rcases hpolicy with ⟨rec', hget', hopen, hallowed, hdenied⟩
  rw [hget, Option.some.injEq] at hget'
  subst hget'
  rcases hbarred with ⟨hclosed, hunlisted⟩ | hlisted
  · rcases hallow with hall | hmember
    · rw [hopen, hclosed] at hall
      cases hall
    · exact hunlisted ((hallowed account).mp hmember)
  · rw [(hdenied account).mpr hlisted] at hdeny
    cases hdeny

/-- An allowed send pays no units to a barred account. -/
theorem SendAllowed.received_eq_zero
    {k : Keeper} {store : RwaStore} {source account : Address}
    {outputs : List (Address × CoinList String)} {assetID : String}
    (hallowed : SendAllowed k store source outputs)
    (hsource : source ≠ moduleAddress k) (hid : assetID ≠ "")
    (haccount : account ≠ moduleAddress k)
    (hbarred : ¬ Eligible store assetID account) :
    received outputs account (buildDenom assetID) = 0 := by
  apply Vertix.received_eq_zero
  intro output houtput htarget
  by_contra hamount
  have htarget' : output.1 ≠ moduleAddress k := by
    rw [← htarget]
    exact haccount
  have hboth := hallowed.eligible hsource houtput hid
    (Nat.pos_of_ne_zero hamount) htarget'
  rw [← htarget] at hboth
  exact hbarred hboth.2

/-! ## Payouts of mints -/

def isIssuer (k : Keeper) (store : RwaStore) (assetID : String)
    (account : Address) : Bool :=
  (getAsset store assetID).any fun rec =>
    decide (k.sdk.accAddressFromBech32 rec.issuer = .ok account)

/-- The units which a successful mint of the asset paid to its issuer. -/
def mintPayout (k : Keeper) (assetID : String) (account : Address)
    (entry : RwaState × Label) : ℕ :=
  match entry.2.2 with
  | .mintRWA msg =>
      if msg.assetId = assetID ∧ isIssuer k entry.1.store assetID account ∧
          delivered k entry then
        ((k.sdk.newIntFromString msg.notional).map
          fun notional : SdkInt => notional.raw.toNat).getD 0
      else 0
  | _ => 0

def mintPayouts (k : Keeper) (assetID : String) (account : Address)
    (segment : History) : ℕ :=
  (segment.map (mintPayout k assetID account)).sum

theorem mintPayout_of_accepted
    {k : Keeper} {env : Env} {s s' : RwaState} {msg : MsgMintRWA}
    {issuer : Address} {rec : AssetRecord} {notional : SdkInt}
    (hdelivered : deliver k env s (.mintRWA msg) = .ok s')
    (howned : Owned k s.store msg.assetId msg.issuer issuer rec)
    (hnotional : k.sdk.newIntFromString msg.notional = some notional) :
    mintPayout k msg.assetId issuer (s, env, .mintRWA msg) =
      notional.raw.toNat := by
  simp [mintPayout, isIssuer, delivered, hdelivered, howned.stored,
    howned.decoded, hnotional]

/-- One transaction adds to a barred account at most a mint payout. -/
theorem Accepted.units_le
    {k : Keeper} {env : Env} {s s' : RwaState} {tx : RwaTx}
    (haccepted : Accepted k env s tx s')
    (hdelivered : deliver k env s tx = .ok s')
    (hsignable : tx.signable k = true) (hcanonical : Canonical s.store)
    {assetID : String} (hid : assetID ≠ "") {account : Address}
    (haccount : account ≠ moduleAddress k)
    (hbarred : ¬ Eligible s.store assetID account) :
    s'.bank.balance account (buildDenom assetID) ≤
      s.bank.balance account (buildDenom assetID) +
        mintPayout k assetID account (s, env, tx) := by
  -- what the operations of the transaction pay to the account
  have hpaid : ∀ {ops : List BankOp} {bank : Bank},
      s.bank.execAll ops = some bank →
      (ops.map fun op => op.inflow account (buildDenom assetID)).sum ≤
        mintPayout k assetID account (s, env, tx) →
      bank.balance account (buildDenom assetID) ≤
        s.bank.balance account (buildDenom assetID) +
          mintPayout k assetID account (s, env, tx) := by
    intro ops bank hbank hinflow
    have hle := Ledger.execAll_balance_le hbank account (buildDenom assetID)
    exact hle.trans (Nat.add_le_add_left hinflow _)
  -- an allowed send of the signer pays nothing to the account
  have hsent : ∀ {source : Address}
      {outputs : List (Address × CoinList String)} {bank : Bank},
      tx.signer k.sdk = .ok source → SendAllowed k s.store source outputs →
      s.bank.execAll [.send source outputs] = some bank →
      bank.balance account (buildDenom assetID) ≤
        s.bank.balance account (buildDenom assetID) +
          mintPayout k assetID account (s, env, tx) := by
    intro source outputs bank hsigner hallowed hbank
    have hsource :=
      ne_signer_of_keyless (moduleAddress_keyless k) hsignable hsigner
    have hnone := hallowed.received_eq_zero hsource.symm hid haccount hbarred
    apply hpaid hbank
    simp only [LedgerOp.inflow, List.map_cons, List.map_nil, List.sum_cons,
      List.sum_nil, hnone, Nat.add_zero, Nat.zero_le]
  cases haccepted with
  | registered hvalid hissuer hfresh hbond hmin hbank =>
      apply hpaid hbank
      simp [LedgerOp.inflow]
  | attested => exact Nat.le_add_right _ _
  | @minted msg issuer rec notional fee prev total bank howned hstatus
      hnotional hpos hfee hprev htotal hbank =>
      apply hpaid hbank
      have hdenom := (hcanonical msg.assetId rec howned.stored).2
      by_cases hpayee : account = issuer ∧ msg.assetId = assetID
      · rcases hpayee with ⟨rfl, rfl⟩
        rw [mintPayout_of_accepted hdelivered howned hnotional]
        simp [LedgerOp.inflow, haccount, hdenom]
      · have hnone : ¬ (account = issuer ∧ rec.denom = buildDenom assetID) := by
          rintro ⟨hissuer, heq⟩
          rw [hdenom] at heq
          exact hpayee ⟨hissuer, buildDenom_injective heq⟩
        by_cases hissuer : account = issuer
        · have hother : rec.denom ≠ buildDenom assetID :=
            fun heq => hnone ⟨hissuer, heq⟩
          simp [LedgerOp.inflow, haccount, hother]
        · simp [LedgerOp.inflow, haccount, hissuer]
  | transferred hstored hstatus hsender hrecipient hamount hpos hallowed
      hbank =>
      exact hsent hsender hallowed hbank
  | restricted => exact Nat.le_add_right _ _
  | settled howned hstatus hnotional hfee hbond hbank =>
      apply hpaid hbank
      simp [LedgerOp.inflow, haccount]
  | slashed hauthority hstored hissuer hstatus hbond hbank =>
      apply hpaid hbank
      simp [LedgerOp.inflow]
  | reparametrized => exact Nat.le_add_right _ _
  | sent hopen hallowed hbank => exact hsent rfl hallowed hbank
  | paid hallowed hbank => exact hsent rfl hallowed hbank

theorem rwaStep_units_le
    {k : Keeper} {s s' : RwaState} {label : Label}
    (hstep : rwaStep k s label = some s') (hcanonical : Canonical s.store)
    {assetID : String} (hid : assetID ≠ "") {account : Address}
    (haccount : account ≠ moduleAddress k)
    (hbarred : ¬ Eligible s.store assetID account) :
    s'.bank.balance account (buildDenom assetID) ≤
      s.bank.balance account (buildDenom assetID) +
        mintPayout k assetID account (s, label) := by
  rcases rwaStep_cases hstep with ⟨-, -, hsame⟩ |
    ⟨hdelivered, hsignable, haccepted⟩
  · rw [hsame]
    exact Nat.le_add_right _ _
  · exact haccepted.units_le hdelivered hsignable hcanonical hid haccount
      hbarred

/-- From every state reached by the module, and along every segment in which
the policy of an asset stays fixed, the units held by an account which the
policy bars grow by at most the mints of the asset paid to that account as its
issuer.  The segment is arbitrary, so the bound holds after each of its
steps. -/
theorem barred_account_gains_no_units
    {k : Keeper} {start s t : RwaState} {past segment : History}
    (hstart : Canonical start.store)
    (hreached : Run (rwaStep k) start past s)
    (hsegment : Run (rwaStep k) s segment t)
    {assetID : String} {allowAll : Bool} {allowed denied : Set Address}
    (hpolicy : ∀ entry ∈ segment,
      Policy entry.1.store assetID allowAll allowed denied)
    {account : Address} (haccount : account ≠ moduleAddress k)
    (hbarred : (allowAll = false ∧ account ∉ allowed) ∨ account ∈ denied) :
    t.bank.balance account (buildDenom assetID) ≤
      s.bank.balance account (buildDenom assetID) +
        mintPayouts k assetID account segment := by
  have hcanonical : Canonical s.store := hstart.run hreached
  have hbound : Canonical t.store ∧
      t.bank.balance account (buildDenom assetID) ≤
        s.bank.balance account (buildDenom assetID) +
          mintPayouts k assetID account segment := by
    refine Run.induct_conditional
      (P := fun segment t => Canonical t.store ∧
        t.bank.balance account (buildDenom assetID) ≤
          s.bank.balance account (buildDenom assetID) +
            mintPayouts k assetID account segment)
      (C := fun state _ =>
        Policy state.store assetID allowAll allowed denied)
      ⟨hcanonical, by simp [mintPayouts]⟩ ?_ hsegment hpolicy
    intro segment state label state' _ hstate hfixed hstep
    have hid : assetID ≠ "" := by
      rcases hfixed with ⟨rec, hget, -⟩
      exact hstate.1.id_ne_empty hget
    have hone := rwaStep_units_le hstep hstate.1 hid haccount
      (hfixed.not_eligible hbarred)
    have hmore := hstate.2
    refine ⟨hstate.1.step hstep, ?_⟩
    simp only [mintPayouts, List.map_cons, List.sum_cons] at hmore ⊢
    omega
  exact hbound.2

/-! ## One asset with a closed allowlist -/

theorem openEnv_timestamp : zeroTime < (1700000000000000000 : Time) ∧
    (1700000000000000000 : Time) < 253402300800 * 10 ^ 9 := by
  decide

def openEnv : Env where
  ctx := ⟨10, 1700000000000000000, openEnv_timestamp⟩
  getPrice := fun _ => .ok legacyOneDec
  accepts := fun _ => true

def issuerText : String := "vtx1qyqszqgpqyqszqgpqyqszqgpqyqszqgpszseuz"

theorem issuerText_decoded :
    referenceKeeper.sdk.accAddressFromBech32 issuerText =
      .ok (addressOf 1) := by
  decide +kernel

def holderText : String := "vtx1qgpqyqszqgpqyqszqgpqyqszqgpqyqszpxkuh5"

/-- Nothing is registered and the issuer holds all base coins. -/
def fundedState : RwaState where
  store := TypedStore.empty
  bank :=
    { balance := fun account denom =>
        if account = addressOf 1 ∧ denom = bondDenom then 20000000000 else 0
      supply := fun denom => if denom = bondDenom then 20000000000 else 0 }

theorem fundedState_empty (assetID : String) :
    getAsset fundedState.store assetID = none := by
  simp [fundedState, getAsset]

theorem fundedState_canonical : Canonical fundedState.store := by
  intro assetID rec hget
  rw [fundedState_empty] at hget
  cases hget

def registerLand : RwaTx :=
  .registerAsset ⟨issuerText, "land", "Land", "", "LAND:USD", "10000000000"⟩

def attestLand : RwaTx := .attestAsset ⟨issuerText, "land"⟩

def mintLand (notional : String) : RwaTx :=
  .mintRWA ⟨issuerText, "land", notional⟩

/-- Close the asset to all accounts but the given ones. -/
def closeLand (allowed : List String) : RwaTx :=
  .updateRestrictions ⟨issuerText, "land", false, allowed, [], [], []⟩

def runLand (txs : List RwaTx) : Option (History × RwaState) :=
  replay (rwaStep referenceKeeper) [] fundedState
    (txs.map fun tx => (openEnv, tx))

theorem run_of_runLand {txs : List RwaTx} {history : History} {s : RwaState}
    (hrun : runLand txs = some (history, s)) :
    Run (rwaStep referenceKeeper) fundedState history s :=
  run_of_replay Run.start hrun

/-- After the allowlist was closed, a send of minted units to a third account
leaves that account without units. -/
theorem outsider_gains_no_land :
    ∃ past s t,
      Run (rwaStep referenceKeeper) fundedState past s ∧
      Run (rwaStep referenceKeeper) s
        [(s, openEnv, .bankSend (addressOf 1)
          [(addressOf 3, [("rwa/land", 5)])])] t ∧
      s.bank.balance (addressOf 1) (buildDenom "land") = 1000 ∧
      t.bank.balance (addressOf 3) (buildDenom "land") = 0 := by
  have hclosed :
      (runLand [registerLand, attestLand, mintLand "1000",
        closeLand [issuerText, holderText]]).any (fun r =>
          (getAsset r.2.store "land").any (fun rec => !rec.allowAll) &&
            !isAllowlisted r.2.store "land" (addressOf 3) &&
            r.2.bank.balance (addressOf 1) (buildDenom "land") == 1000 &&
            r.2.bank.balance (addressOf 3) (buildDenom "land") == 0) =
        true := by
    decide +kernel
  rcases exists_some_of_any hclosed with ⟨⟨past, s⟩, hrun, hfacts⟩
  simp only [Bool.and_eq_true, Bool.not_eq_true', beq_iff_eq] at hfacts
  rcases hfacts with ⟨⟨⟨hrecord, hunlisted⟩, hissuer⟩, hzero⟩
  rcases exists_some_of_any hrecord with ⟨rec, hrec, hallow⟩
  rw [Bool.not_eq_true'] at hallow
  have hsegment : Run (rwaStep referenceKeeper) s
      [(s, openEnv, .bankSend (addressOf 1)
        [(addressOf 3, [("rwa/land", 5)])])] _ := Run.next Run.start rfl
  have hpolicy : ∀ entry ∈ [((s, openEnv, .bankSend (addressOf 1)
      [(addressOf 3, [("rwa/land", 5)])]) : RwaState × Label)],
      Policy entry.1.store "land" false
        { addr | isAllowlisted s.store "land" addr = true }
        { addr | isDenylisted s.store "land" addr = true } := by
    intro entry hentry
    rw [List.mem_singleton] at hentry
    subst hentry
    exact ⟨rec, hrec, hallow, fun addr => Iff.rfl, fun addr => Iff.rfl⟩
  have houtsider : addressOf 3 ≠ moduleAddress referenceKeeper := by
    decide +kernel
  have hbound := barred_account_gains_no_units fundedState_canonical
    (run_of_runLand hrun) hsegment hpolicy houtsider
    (Or.inl ⟨rfl, by simp [hunlisted]⟩)
  refine ⟨past, s, _, run_of_runLand hrun, hsegment, hissuer, ?_⟩
  simpa [mintPayouts, mintPayout, hzero] using hbound

end Rwa
end Vertix
