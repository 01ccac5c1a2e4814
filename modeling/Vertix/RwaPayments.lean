import Vertix.RwaSupply
import Mathlib.Tactic

/-!
# What minting and settlement pay

A mint and a settlement each move base coins and units of one asset in a few
steps, some of them through the module account.  Their balance is short: the
fee goes from the issuer to the fee collector, the units appear at the issuer
or disappear there, and at settlement the bond leaves the escrow.  The fee is
the floor of the exact product, since an integer times a decimal needs no
rounding before it is truncated.
-/

namespace Vertix
namespace Rwa

open Transition

/-- The difference between two states of the bank: a fee paid by the issuer, a
bond returned to the issuer from escrow, and a change of the issuer's units. -/
structure PaysExactly (k : Keeper) (bank bank' : Bank) (issuer : Address)
    (units : String) (fee bond change : ℤ) : Prop where
  collected :
    (bank'.balance (feeCollector k) bondDenom : ℤ) =
      bank.balance (feeCollector k) bondDenom + fee
  paid :
    (bank'.balance issuer bondDenom : ℤ) =
      bank.balance issuer bondDenom - fee + bond
  held :
    (bank'.balance issuer units : ℤ) = bank.balance issuer units + change
  escrow :
    (bank'.balance (moduleAddress k) bondDenom : ℤ) =
      bank.balance (moduleAddress k) bondDenom - bond
  others : ∀ account denom,
    ¬ (account = feeCollector k ∧ denom = bondDenom) →
    ¬ (account = issuer ∧ (denom = bondDenom ∨ denom = units)) →
    ¬ (account = moduleAddress k ∧ denom = bondDenom) →
    bank'.balance account denom = bank.balance account denom
  supply : bank'.supply bondDenom = bank.supply bondDenom

/-- The change of one balance. -/
def netChange (k : Keeper) (issuer : Address) (units : String)
    (fee bond change : ℤ) (account : Address) (denom : String) : ℤ :=
  if denom = bondDenom then
    if account = feeCollector k then fee
    else if account = issuer then bond - fee
    else if account = moduleAddress k then -bond
    else 0
  else if denom = units ∧ account = issuer then change
  else 0

section Payments

variable {k : Keeper} {bank bank' : Bank} {issuer : Address} {units : String}
  {fee bond notional : ℤ}

theorem paysExactly_of_netChange {change : ℤ}
    (hcollector : feeCollector k ≠ issuer) (hmodule : moduleAddress k ≠ issuer)
    (hunits : units ≠ bondDenom)
    (hnet : ∀ account denom, (bank'.balance account denom : ℤ) =
      bank.balance account denom +
        netChange k issuer units fee bond change account denom)
    (hsupply : bank'.supply bondDenom = bank.supply bondDenom) :
    PaysExactly k bank bank' issuer units fee bond change := by
  have hapart := feeCollector_ne_moduleAddress k
  constructor
  · rw [hnet]
    simp [netChange]
  · rw [hnet]
    simp only [netChange, if_true, hcollector.symm, if_false]
    ring
  · rw [hnet]
    simp [netChange, hunits]
  · rw [hnet]
    simp only [netChange, if_true, hapart.symm, hmodule, if_false]
    ring
  · intro account denom hnotCollector hnotIssuer hnotModule
    have hsame : netChange k issuer units fee bond change account denom = 0 := by
      unfold netChange
      split_ifs with hbase hfirst hsecond hthird hheld
      · exact absurd ⟨hfirst, hbase⟩ hnotCollector
      · exact absurd ⟨hsecond, Or.inl hbase⟩ hnotIssuer
      · exact absurd ⟨hthird, hbase⟩ hnotModule
      · rfl
      · exact absurd ⟨hheld.2, Or.inr hheld.1⟩ hnotIssuer
      · rfl
    have hchanged := hnet account denom
    rw [hsame] at hchanged
    omega
  · exact hsupply

/-- The bank operations of a mint, added up. -/
theorem paysExactly_of_mint
    (hcollector : feeCollector k ≠ issuer) (hmodule : moduleAddress k ≠ issuer)
    (hunits : units ≠ bondDenom) (hfee : 0 ≤ fee) (hnotional : 0 ≤ notional)
    (hbank : bank.execAll
      [.send issuer [(feeCollector k, coinsOf bondDenom fee.toNat)],
        .mint (moduleAddress k) (coinsOf units notional.toNat),
        .send (moduleAddress k) [(issuer, coinsOf units notional.toNat)]] =
          some bank') :
    PaysExactly k bank bank' issuer units fee 0 notional := by
  have hsupply := Ledger.execAll_supply hbank bondDenom
  simp [LedgerOp.minted, LedgerOp.burned, hunits] at hsupply
  refine paysExactly_of_netChange hcollector hmodule hunits ?_ hsupply
  intro account denom
  have hbalance := Ledger.execAll_balance hbank account denom
  simp only [LedgerOp.inflow, LedgerOp.outflow, outputCoins_single,
    received_single, amountOf_coinsOf, List.map_cons, List.map_nil,
    List.sum_cons, List.sum_nil] at hbalance
  have hapart := feeCollector_ne_moduleAddress k
  -- three distinct accounts and two distinct denominations, linear in each case
  unfold netChange
  grind

theorem paysExactly_of_settle
    (hcollector : feeCollector k ≠ issuer) (hmodule : moduleAddress k ≠ issuer)
    (hunits : units ≠ bondDenom) (hfee : 0 ≤ fee) (hbond : 0 ≤ bond)
    (hnotional : 0 ≤ notional)
    (hbank : bank.execAll
      [.send issuer [(feeCollector k, coinsOf bondDenom fee.toNat)],
        .send issuer [(moduleAddress k, coinsOf units notional.toNat)],
        .burn (moduleAddress k) (coinsOf units notional.toNat),
        .send (moduleAddress k) [(issuer, coinsOf bondDenom bond.toNat)]] =
          some bank') :
    PaysExactly k bank bank' issuer units fee bond (-notional) := by
  have hsupply := Ledger.execAll_supply hbank bondDenom
  simp [LedgerOp.minted, LedgerOp.burned, hunits] at hsupply
  refine paysExactly_of_netChange hcollector hmodule hunits ?_ hsupply
  intro account denom
  have hbalance := Ledger.execAll_balance hbank account denom
  simp only [LedgerOp.inflow, LedgerOp.outflow, outputCoins_single,
    received_single, amountOf_coinsOf, List.map_cons, List.map_nil,
    List.sum_cons, List.sum_nil] at hbalance
  have hapart := feeCollector_ne_moduleAddress k
  -- three distinct accounts and two distinct denominations, linear in each case
  unfold netChange
  grind

end Payments

/-! ## Fees -/

/-- Under valid parameters the fee is the floor of the exact product. -/
theorem FeeOf.eq_floor {sdk : Sdk} {rate : String} {notional fee : SdkInt}
    (hfee : FeeOf sdk rate notional fee)
    (hrate : ParsesWithin sdk rate fun raw => 0 ≤ raw ∧ raw < legacyOneDec.raw)
    (hnotional : 0 ≤ notional.raw) :
    ∃ value, sdk.legacyNewDecFromStr rate = .ok value ∧ 0 ≤ fee.raw ∧
      fee.raw = ⌊(notional.raw : ℚ) * value.toRat⌋ := by
  obtain ⟨value, hvalue, hproduct⟩ := hfee
  obtain ⟨parsed, hparsed, hrange⟩ := hrate
  rw [hvalue, Except.ok.injEq] at hparsed
  subst hparsed
  have hnonneg : 0 ≤ notional.raw * value.raw :=
    mul_nonneg hnotional hrange.1
  refine ⟨value, hvalue, ?_, floor_of_truncatedProduct hproduct hnonneg⟩
  rw [(truncatedProduct_eq_some_iff.mp hproduct).2]
  exact Int.tdiv_nonneg hnonneg (by norm_num)

/-! ## The messages -/

theorem mint_pays_exactly
    {k : Keeper} {env : Env} {s s' : RwaState} {msg : MsgMintRWA}
    (hsound : RecordsSound k.sdk s.store)
    (hparams : (getParams s.store).Valid k.sdk)
    (hdeliver : deliver k env s (.mintRWA msg) = .ok s') :
    ∃ issuer notional rate,
      k.sdk.accAddressFromBech32 msg.issuer = .ok issuer ∧
      k.sdk.newIntFromString msg.notional = some notional ∧
      k.sdk.legacyNewDecFromStr (getParams s.store).mintFeeRate = .ok rate ∧
      PaysExactly k s.bank s'.bank issuer (buildDenom msg.assetId)
        ⌊(notional.raw : ℚ) * rate.toRat⌋ 0 notional.raw := by
  obtain ⟨hsignable, haccepted⟩ := accepted_of_deliver hdeliver
  cases haccepted with
  | @minted _ issuer rec notional fee prev total bank howned hstatus hnotional
      hpos hfee hprev htotal hbank =>
      have hissuer := howned.caller_decodes
      obtain ⟨rate, hrate, hnonneg, hfloor⟩ :=
        hfee.eq_floor hparams.mintFeeRate_range hpos.le
      refine ⟨issuer, notional, rate, hissuer, hnotional, hrate, ?_⟩
      rw [hsound.denom_eq howned] at hbank
      rw [← hfloor]
      exact paysExactly_of_mint
        (ne_signer_of_keyless (feeCollector_keyless k) hsignable hissuer)
        (ne_signer_of_keyless (moduleAddress_keyless k) hsignable hissuer)
        (buildDenom_ne_bondDenom _) hnonneg hpos.le hbank

theorem settle_pays_exactly
    {k : Keeper} {env : Env} {s s' : RwaState} {msg : MsgSettleRWA}
    (hsound : RecordsSound k.sdk s.store)
    (hparams : (getParams s.store).Valid k.sdk)
    (hdeliver : deliver k env s (.settleRWA msg) = .ok s') :
    ∃ rec issuer notional bond rate,
      getAsset s.store msg.assetId = some rec ∧
      k.sdk.accAddressFromBech32 msg.issuer = .ok issuer ∧
      k.sdk.newIntFromString rec.notionalMinted = some notional ∧
      k.sdk.newIntFromString rec.bond = some bond ∧
      k.sdk.legacyNewDecFromStr (getParams s.store).settleFeeRate = .ok rate ∧
      PaysExactly k s.bank s'.bank issuer (buildDenom msg.assetId)
        ⌊(notional.raw : ℚ) * rate.toRat⌋ bond.raw (-notional.raw) := by
  obtain ⟨hsignable, haccepted⟩ := accepted_of_deliver hdeliver
  cases haccepted with
  | @settled _ issuer rec notional fee bond bank howned hstatus hnotional hfee
      hbond hbank =>
      have hissuer := howned.caller_decodes
      have hrecord := hsound _ _ howned.stored
      have hminted := hrecord.notional_nonneg.of_parsed hnotional
      obtain ⟨rate, hrate, hnonneg, hfloor⟩ :=
        hfee.eq_floor hparams.settleFeeRate_range hminted
      refine ⟨rec, issuer, notional, bond, rate, howned.stored, hissuer,
        hnotional, hbond, hrate, ?_⟩
      rw [hsound.denom_eq howned] at hbank
      rw [← hfloor]
      exact paysExactly_of_settle
        (ne_signer_of_keyless (feeCollector_keyless k) hsignable hissuer)
        (ne_signer_of_keyless (moduleAddress_keyless k) hsignable hissuer)
        (buildDenom_ne_bondDenom _) hnonneg
        (hrecord.bond_nonneg.of_parsed hbond) hminted hbank

/-- In every state reached from sound records, in particular from none, a
successful mint or settlement moves exactly the stated amounts. -/
theorem mint_and_settle_pay_exactly
    {k : Keeper} {start s s' : RwaState} {history : History} {env : Env}
    (hstart : RecordsSound k.sdk start.store)
    (hrun : Run (rwaStep k) start history s)
    (hparams : (getParams s.store).Valid k.sdk) :
    (∀ msg, deliver k env s (.mintRWA msg) = .ok s' →
      ∃ issuer notional rate,
        k.sdk.accAddressFromBech32 msg.issuer = .ok issuer ∧
        k.sdk.newIntFromString msg.notional = some notional ∧
        k.sdk.legacyNewDecFromStr (getParams s.store).mintFeeRate = .ok rate ∧
        PaysExactly k s.bank s'.bank issuer (buildDenom msg.assetId)
          ⌊(notional.raw : ℚ) * rate.toRat⌋ 0 notional.raw) ∧
    ∀ msg, deliver k env s (.settleRWA msg) = .ok s' →
      ∃ rec issuer notional bond rate,
        getAsset s.store msg.assetId = some rec ∧
        k.sdk.accAddressFromBech32 msg.issuer = .ok issuer ∧
        k.sdk.newIntFromString rec.notionalMinted = some notional ∧
        k.sdk.newIntFromString rec.bond = some bond ∧
        k.sdk.legacyNewDecFromStr (getParams s.store).settleFeeRate =
          .ok rate ∧
        PaysExactly k s.bank s'.bank issuer (buildDenom msg.assetId)
          ⌊(notional.raw : ℚ) * rate.toRat⌋ bond.raw (-notional.raw) := by
  have hsound := hstart.run hrun
  constructor
  · intro msg hdeliver
    exact mint_pays_exactly hsound hparams hdeliver
  · intro msg hdeliver
    exact settle_pays_exactly hsound hparams hdeliver

theorem defaultParams_valid : defaultParams.Valid referenceKeeper.sdk :=
  RWAParams.validate_eq_ok_iff.mp
    (by decide +kernel : defaultParams.validate referenceKeeper.sdk = .ok ())

/-- A tenth of a percent of 1500 units. -/
theorem land_fee {notional : SdkInt} {rate : LegacyDec}
    (hnotional : referenceKeeper.sdk.newIntFromString "1500" = some notional)
    (hrate : referenceKeeper.sdk.legacyNewDecFromStr
      defaultParams.mintFeeRate = .ok rate) :
    notional.raw = 1500 ∧ ⌊(notional.raw : ℚ) * rate.toRat⌋ = 1 := by
  have hunits : (referenceKeeper.sdk.newIntFromString "1500").any
      (fun value => value.raw == 1500) = true := by
    decide +kernel
  have hthousandth : (referenceKeeper.sdk.legacyNewDecFromStr
      defaultParams.mintFeeRate).toOption.any
        (fun value => value.raw == 10 ^ 15) = true := by
    decide +kernel
  rw [hnotional] at hunits
  rw [hrate] at hthousandth
  simp only [Option.any_some, Except.toOption, beq_iff_eq] at hunits hthousandth
  refine ⟨hunits, ?_⟩
  rw [hunits, FixedPoint.toRat, hthousandth]
  norm_num

theorem land_bond {bond : SdkInt}
    (hbond : referenceKeeper.sdk.newIntFromString "10000000000" = some bond) :
    bond.raw = 10000000000 := by
  have hparsed : (referenceKeeper.sdk.newIntFromString "10000000000").any
      (fun value => value.raw == 10000000000) = true := by
    decide +kernel
  rw [hbond] at hparsed
  simpa using hparsed

/-- A mint of 1500 units of land and their settlement. -/
theorem land_minted_and_settled :
    ∃ history s s' s'',
      Run (rwaStep referenceKeeper) fundedState history s ∧
        deliver referenceKeeper openEnv s (mintLand "1500") = .ok s' ∧
        PaysExactly referenceKeeper s.bank s'.bank (addressOf 1)
          (buildDenom "land") 1 0 1500 ∧
        deliver referenceKeeper openEnv s' settleLand = .ok s'' ∧
        PaysExactly referenceKeeper s'.bank s''.bank (addressOf 1)
          (buildDenom "land") 1 10000000000 (-1500) := by
  have hfacts : (runLand [registerLand, attestLand]).any (fun r =>
      (deliver referenceKeeper openEnv r.2 (mintLand "1500")).toOption.any
        fun s' =>
          (deliver referenceKeeper openEnv s' settleLand).toOption.any fun _ =>
            (decide (getParams r.2.store = defaultParams) &&
              decide (getParams s'.store = defaultParams)) &&
            (getAsset s'.store "land").any fun rec =>
              rec.notionalMinted == "1500" &&
                rec.bond == "10000000000") = true := by
    decide +kernel
  rcases exists_some_of_any hfacts with ⟨⟨history, s⟩, hrun, hminted⟩
  rcases exists_ok_of_any hminted with ⟨s', hmint, hsettled⟩
  rcases exists_ok_of_any hsettled with ⟨s'', hsettle, hchecked⟩
  simp only [Bool.and_eq_true, decide_eq_true_eq] at hchecked
  obtain ⟨⟨hbefore, hafter⟩, hrecord⟩ := hchecked
  obtain ⟨rec, hstored, hfields⟩ := exists_some_of_any hrecord
  simp only [Bool.and_eq_true, beq_iff_eq] at hfields
  have hreached := run_of_runLand hrun
  have hreached' : Run (rwaStep referenceKeeper) fundedState
      ((s, openEnv, mintLand "1500") :: history) s' :=
    Run.next hreached (by rw [rwaStep, hmint, commit])
  have hstart : RecordsSound referenceKeeper.sdk fundedState.store :=
    recordsSound_of_empty fundedState_empty
  obtain ⟨issuer, notional, rate, hissuer, hnotional, hrate, hpaid⟩ :=
    (mint_and_settle_pay_exactly hstart hreached
      (by rw [hbefore]; exact defaultParams_valid)).1 _ hmint
  obtain ⟨rec', issuer', notional', bond, rate', hstored', hissuer', hnotional',
    hbond, hrate', hreturned⟩ :=
    (mint_and_settle_pay_exactly hstart hreached'
      (by rw [hafter]; exact defaultParams_valid)).2 _ hsettle
  cases Except.ok.inj (issuerText_decoded.symm.trans hissuer)
  cases Except.ok.inj (issuerText_decoded.symm.trans hissuer')
  cases Option.some.inj (hstored.symm.trans hstored')
  rw [hbefore] at hrate
  rw [hafter] at hrate'
  rw [hfields.1] at hnotional'
  obtain ⟨hunits, hfee⟩ := land_fee hnotional hrate
  obtain ⟨hunits', hfee'⟩ := land_fee hnotional' hrate'
  rw [hfee, hunits] at hpaid
  rw [hfee', hunits', land_bond (hfields.2 ▸ hbond)] at hreturned
  exact ⟨history, s, s', s'', hreached, hmint, hpaid, hsettle, hreturned⟩

end Rwa
end Vertix
