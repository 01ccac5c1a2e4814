import Vertix.RwaFeeSweep
import Vertix.RwaModuleAccount
import Mathlib.Tactic

/-!
# Two ways to move the units of an asset

`MsgTransferRWA` and a plain bank send move the same coins.  The handler checks
the status of the asset and applies the restriction once more than the bank;
on an active asset both checks are implied by those of the bank.  The bank
message alone refuses the blocked module accounts.
-/

namespace Vertix
namespace Rwa

open Transition

/-- The bank message which moves units of an asset. -/
def sendUnits (sender recipient : Address) (assetID : String) (amount : ℕ) :
    RwaTx :=
  .bankSend sender [(recipient, coinsOf (buildDenom assetID) amount)]

/-- What both paths ask for before the units move, and the bank they leave. -/
structure UnitsMove (k : Keeper) (env : Env) (s : RwaState) (assetID : String)
    (sender recipient : Address) (amount : ℕ) (bank : Bank) : Prop where
  signed : sender ∉ keylessAccounts k
  allowed : checkTransferAllowed k s.store assetID sender recipient = .ok ()
  accepted : env.accepts
    (.send sender [(recipient, coinsOf (buildDenom assetID) amount)]) = true
  moved : s.bank.exec
    (.send sender [(recipient, coinsOf (buildDenom assetID) amount)]) =
      some bank

theorem sendAllowed_units_iff
    {k : Keeper} {store : RwaStore} {assetID : String}
    {sender recipient : Address} {amount : ℕ}
    (hid : assetID ≠ "") (hpos : 0 < amount) :
    SendAllowed k store sender
        [(recipient, coinsOf (buildDenom assetID) amount)] ↔
      checkTransferAllowed k store assetID sender recipient = .ok () := by
  simp only [SendAllowed, coinsOf, hpos.ne', if_false, List.mem_singleton,
    forall_eq, parseRWADenom_eq_some_iff]
  constructor
  · intro hallowed
    exact hallowed assetID ⟨hid, rfl⟩
  · rintro hallowed other ⟨-, hdenom⟩
    rw [← buildDenom_injective hdenom]
    exact hallowed

theorem deliver_eq_ok_iff
    {k : Keeper} {env : Env} {s s' : RwaState} {tx : RwaTx}
    {signer : Address} (hsigner : tx.signer k.sdk = .ok signer) :
    deliver k env s tx = .ok s' ↔
      signer ∉ keylessAccounts k ∧ handle k env s tx = .ok s' := by
  have hsignable : tx.signable k = true ↔ signer ∉ keylessAccounts k := by
    simp [RwaTx.signable, hsigner]
  simp only [deliver, bind_eq_ok_iff, reject_eq_ok_iff, exists_const,
    Bool.not_eq_false, hsignable]

section paths

variable {k : Keeper} {env : Env} {s s' : RwaState} {assetID : String}
  {sender recipient : Address} {amount : SdkInt}

theorem deliver_transferRWA_eq_ok_iff {msg : MsgTransferRWA}
    {rec : AssetRecord} (hcanonical : Canonical s.store)
    (hstored : getAsset s.store msg.assetId = some rec)
    (hactive : rec.status = .active)
    (hsender : k.sdk.accAddressFromBech32 msg.sender = .ok sender)
    (hrecipient : k.sdk.accAddressFromBech32 msg.recipient = .ok recipient)
    (hamount : k.sdk.newIntFromString msg.amount = some amount)
    (hpos : 0 < amount.raw) :
    deliver k env s (.transferRWA msg) = .ok s' ↔
      ∃ bank, UnitsMove k env s msg.assetId sender recipient
        amount.raw.toNat bank ∧ ⟨s.store, bank⟩ = s' := by
  have hid := hcanonical.id_ne_empty hstored
  have hslug := (hcanonical msg.assetId rec hstored).1
  have hdenom := (hcanonical msg.assetId rec hstored).2
  have hunits : 0 < amount.raw.toNat := by omega
  have hvalid : msg.validateBasic k.sdk = .ok () := by
    simp only [MsgTransferRWA.validateBasic, bind_eq_ok_iff,
      addressField_eq_ok_iff, validateAssetID_eq_ok_iff,
      validatePositiveInt_eq_ok_iff, exists_const]
    exact ⟨sender, hsender, recipient, hrecipient, hslug, amount, hamount,
      hpos⟩
  rw [deliver_eq_ok_iff (show RwaTx.signer k.sdk (.transferRWA msg) =
    .ok sender from hsender)]
  simp only [handle, transferRWA, bind_eq_ok_iff, Exec.ofExcept_eq_ok_iff,
    reject_eq_ok_iff, exists_const, elim_eq_ok_iff, plainError_eq_ok_iff,
    positiveInt_eq_ok_iff, newCoins_eq_ok_iff, sendCoins_eq_ok_iff,
    pure_eq_ok_iff, ne_eq, not_not, hvalid, hsender, hrecipient, hstored,
    hamount, true_and, Except.ok.injEq, Option.some.injEq,
    exists_eq_left', and_assoc]
  constructor
  · rintro ⟨hsigned, -, ⟨⟩, hallowed, -, coins, -, rfl, bank, -, haccepted,
      hmoved, hstate⟩
    rw [hdenom] at haccepted hmoved
    exact ⟨bank, ⟨hsigned, hallowed, haccepted, hmoved⟩, hstate⟩
  · rintro ⟨bank, hmove, hstate⟩
    rw [hdenom]
    exact ⟨hmove.signed, hactive, (), hmove.allowed, hpos, _, hpos.le, rfl,
      bank, (sendAllowed_units_iff hid hunits).mpr hmove.allowed,
      hmove.accepted, hmove.moved, hstate⟩

theorem deliver_sendUnits_eq_ok_iff {amount : ℕ} (hid : assetID ≠ "")
    (hpos : 0 < amount) :
    deliver k env s (sendUnits sender recipient assetID amount) = .ok s' ↔
      blockedAddr k recipient = false ∧
        ∃ bank, UnitsMove k env s assetID sender recipient amount bank ∧
          ⟨s.store, bank⟩ = s' := by
  rw [deliver_eq_ok_iff (show RwaTx.signer k.sdk
    (sendUnits sender recipient assetID amount) = .ok sender from rfl)]
  simp only [handle, sendUnits, bankSend, bind_eq_ok_iff,
    Exec.ofExcept_eq_ok_iff, reject_eq_ok_iff, exists_const,
    inputOutputCoins_eq_ok_iff, sendAllowed_units_iff hid hpos,
    pure_eq_ok_iff, List.mem_singleton, exists_eq_left, Bool.not_eq_true]
  constructor
  · rintro ⟨hsigned, hopen, bank, ⟨hallowed, haccepted, hmoved⟩, hstate⟩
    exact ⟨hopen, bank, ⟨hsigned, hallowed, haccepted, hmoved⟩, hstate⟩
  · rintro ⟨hopen, bank, hmove, hstate⟩
    exact ⟨hmove.signed, hopen, bank,
      ⟨hmove.allowed, hmove.accepted, hmove.moved⟩, hstate⟩

/-- Nothing but a blocked recipient tells the two paths apart. -/
theorem exists_unitsMove_iff {amount : ℕ} (hpos : 0 < amount) :
    (∃ bank, UnitsMove k env s assetID sender recipient amount bank) ↔
      sender ∉ keylessAccounts k ∧
        checkTransferAllowed k s.store assetID sender recipient = .ok () ∧
        env.accepts (.send sender
          [(recipient, coinsOf (buildDenom assetID) amount)]) = true ∧
        amount ≤ s.bank.balance sender (buildDenom assetID) := by
  have hcoins : coinsOf (buildDenom assetID) amount =
      [(buildDenom assetID, amount)] := if_neg hpos.ne'
  rw [← Ledger.exists_exec_send_iff, ← hcoins]
  constructor
  · rintro ⟨bank, hmove⟩
    exact ⟨hmove.signed, hmove.allowed, hmove.accepted, bank, hmove.moved⟩
  · rintro ⟨hsigned, hallowed, haccepted, bank, hmoved⟩
    exact ⟨bank, hsigned, hallowed, haccepted, hmoved⟩

end paths

/-- In every state reached by the module and for every active asset, the
handler and the bank message take the same transfers to the same state,
except where a blocked recipient would get units which the sender may move. -/
theorem transferRWA_agrees_with_bankSend_iff
    {k : Keeper} (env : Env) {start s : RwaState} {history : History}
    (hstart : Canonical start.store) (hrun : Run (rwaStep k) start history s)
    {msg : MsgTransferRWA} {rec : AssetRecord}
    (hstored : getAsset s.store msg.assetId = some rec)
    (hactive : rec.status = .active)
    {sender recipient : Address} {amount : SdkInt}
    (hsender : k.sdk.accAddressFromBech32 msg.sender = .ok sender)
    (hrecipient : k.sdk.accAddressFromBech32 msg.recipient = .ok recipient)
    (hamount : k.sdk.newIntFromString msg.amount = some amount)
    (hpos : 0 < amount.raw) :
    (∀ s', deliver k env s (.transferRWA msg) = .ok s' ↔
        deliver k env s (sendUnits sender recipient msg.assetId
          amount.raw.toNat) = .ok s') ↔
      (blockedAddr k recipient = true →
        sender ∈ keylessAccounts k ∨
          checkTransferAllowed k s.store msg.assetId sender recipient ≠
            .ok () ∨
          env.accepts (.send sender [(recipient,
            coinsOf (buildDenom msg.assetId) amount.raw.toNat)]) = false ∨
          s.bank.balance sender (buildDenom msg.assetId) <
            amount.raw.toNat) := by
  have hcanonical := hstart.run hrun
  have hid := hcanonical.id_ne_empty hstored
  have hunits : 0 < amount.raw.toNat := by omega
  have htransfer : ∀ s', deliver k env s (.transferRWA msg) = .ok s' ↔
      ∃ bank, UnitsMove k env s msg.assetId sender recipient
        amount.raw.toNat bank ∧ ⟨s.store, bank⟩ = s' := fun s' =>
    deliver_transferRWA_eq_ok_iff hcanonical hstored hactive hsender
      hrecipient hamount hpos
  constructor
  · intro hagree hblocked
    by_contra hrefused
    simp only [not_or, not_not, Bool.not_eq_false, not_lt] at hrefused
    rcases (exists_unitsMove_iff hunits).mpr hrefused with ⟨bank, hmove⟩
    have hsend := (hagree ⟨s.store, bank⟩).mp
      ((htransfer _).mpr ⟨bank, hmove, rfl⟩)
    rw [((deliver_sendUnits_eq_ok_iff hid hunits).mp hsend).1] at hblocked
    cases hblocked
  · intro hrefused s'
    rw [htransfer, deliver_sendUnits_eq_ok_iff hid hunits]
    refine ⟨fun hmoved => ⟨?_, hmoved⟩, fun hmoved => hmoved.2⟩
    rcases hmoved with ⟨bank, hmove, -⟩
    rw [← Bool.not_eq_true]
    intro hblocked
    have hall := (exists_unitsMove_iff hunits).mp ⟨bank, hmove⟩
    rcases hrefused hblocked with h | h | h | h
    · exact hall.1 h
    · exact h hall.2.1
    · rw [hall.2.2.1] at h
      cases h
    · exact absurd hall.2.2.2 (not_le.mpr h)

/-- An ordinary holder gets the same five units either way. -/
theorem holder_gets_land_either_way :
    ∃ history s,
      Run (rwaStep referenceKeeper) fundedState history s ∧
      ∀ s', deliver referenceKeeper openEnv s (sendLand holderText "5") =
          .ok s' ↔
        deliver referenceKeeper openEnv s
          (sendUnits (addressOf 1) (addressOf 2) "land" 5) = .ok s' := by
  have hminted :
      (runLand [registerLand, attestLand, mintLand "1000"]).any (fun r =>
          (getAsset r.2.store "land").any fun rec =>
            decide (rec.status = .active)) = true := by
    decide +kernel
  rcases exists_some_of_any hminted with ⟨⟨history, s⟩, hrun, hfacts⟩
  rcases exists_some_of_any hfacts with ⟨rec, hrec, hactive⟩
  have hrecipient : referenceKeeper.sdk.accAddressFromBech32 holderText =
      .ok (addressOf 2) := by decide +kernel
  have hamount : (referenceKeeper.sdk.newIntFromString "5").any
      (fun amount => amount.raw == 5) = true := by decide +kernel
  rcases exists_some_of_any hamount with ⟨amount, hamount, hfive⟩
  rw [beq_iff_eq] at hfive
  have hopen : blockedAddr referenceKeeper (addressOf 2) = false := by
    decide +kernel
  let msg : MsgTransferRWA := ⟨issuerText, holderText, "land", "5"⟩
  have hstored : getAsset s.store msg.assetId = some rec := hrec
  refine ⟨history, s, run_of_runLand hrun, ?_⟩
  have hagree := (transferRWA_agrees_with_bankSend_iff openEnv
    fundedState_canonical (run_of_runLand hrun) hstored
    (of_decide_eq_true hactive) issuerText_decoded hrecipient hamount
    (by omega)).mpr (by simp [hopen])
  rw [hfive] at hagree
  exact hagree

/-- The handler pays units into the fee collector, which the bank message
refuses. -/
theorem collector_gets_land_by_transfer_only :
    ∃ history s,
      Run (rwaStep referenceKeeper) fundedState history s ∧
      delivered referenceKeeper (s, openEnv, placeLand "5") = true ∧
      delivered referenceKeeper (s, openEnv, sendUnits (addressOf 1)
        (feeCollector referenceKeeper) "land" 5) = false := by
  have hminted :
      (runLand [registerLand, attestLand, mintLand "1000"]).any (fun r =>
          delivered referenceKeeper (r.2, openEnv, placeLand "5") &&
            !delivered referenceKeeper (r.2, openEnv, sendUnits (addressOf 1)
              (feeCollector referenceKeeper) "land" 5)) = true := by
    decide +kernel
  rcases exists_some_of_any hminted with ⟨⟨history, s⟩, hrun, hfacts⟩
  rw [Bool.and_eq_true, Bool.not_eq_true'] at hfacts
  exact ⟨history, s, run_of_runLand hrun, hfacts⟩

end Rwa
end Vertix
