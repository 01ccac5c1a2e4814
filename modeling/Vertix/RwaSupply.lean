import Vertix.RwaRestrictions
import Mathlib.Tactic

/-!
# Factory supply matches the registry

The supply of `rwa/{id}` follows the record of `id`: nothing before the first
mint, the minted total while the asset is active, nothing after settlement and
still the minted total after a slash.
-/

namespace Vertix
namespace Rwa

open Transition

/-- Only the asset whose record a transaction writes changes its supply. -/
theorem Accepted.supply_of_ne
    {k : Keeper} {env : Env} {s s' : RwaState} {tx : RwaTx}
    (haccepted : Accepted k env s tx s') (hcanonical : Canonical s.store)
    {assetID : String} (hne : tx.written ≠ some assetID) :
    s'.bank.supply (buildDenom assetID) =
      s.bank.supply (buildDenom assetID) := by
  have hother : ∀ {id : String} {rec : AssetRecord},
      getAsset s.store id = some rec → tx.written = some id →
      rec.denom ≠ buildDenom assetID := by
    intro id rec hget hwritten heq
    rw [(hcanonical id rec hget).2] at heq
    rw [buildDenom_injective heq] at hwritten
    exact hne hwritten
  cases haccepted with
  | registered hvalid hissuer hfresh hbond hmin hbank =>
      have hsupply := Ledger.execAll_supply hbank (buildDenom assetID)
      simpa [LedgerOp.minted, LedgerOp.burned] using hsupply
  | attested => rfl
  | minted howned hstatus hnotional hpos hfee hprev htotal hbank =>
      have hsupply := Ledger.execAll_supply hbank (buildDenom assetID)
      simpa [LedgerOp.minted, LedgerOp.burned, hother howned.stored rfl]
        using hsupply
  | transferred hstored hstatus hsender hrecipient hamount hpos hallowed
      hbank =>
      have hsupply := Ledger.execAll_supply hbank (buildDenom assetID)
      simpa [LedgerOp.minted, LedgerOp.burned] using hsupply
  | restricted => rfl
  | settled howned hstatus hnotional hfee hbond hbank =>
      have hsupply := Ledger.execAll_supply hbank (buildDenom assetID)
      simpa [LedgerOp.minted, LedgerOp.burned, hother howned.stored rfl]
        using hsupply
  | slashed hauthority hstored hissuer hstatus hbond hbank =>
      have hsupply := Ledger.execAll_supply hbank (buildDenom assetID)
      simpa [LedgerOp.minted, LedgerOp.burned] using hsupply
  | reparametrized => rfl
  | sent hopen hallowed hbank =>
      have hsupply := Ledger.execAll_supply hbank (buildDenom assetID)
      simpa [LedgerOp.minted, LedgerOp.burned] using hsupply
  | paid hallowed hbank =>
      have hsupply := Ledger.execAll_supply hbank (buildDenom assetID)
      simpa [LedgerOp.minted, LedgerOp.burned] using hsupply

/-- The supply of an asset in terms of its record and of the past. -/
structure AssetSupply (k : Keeper) (history : History) (s : RwaState)
    (assetID : String) : Prop where
  unregistered : getAsset s.store assetID = none →
    s.bank.supply (buildDenom assetID) = 0
  premint : ∀ rec, getAsset s.store assetID = some rec →
    rec.status = .draft ∨ rec.status = .attested →
    s.bank.supply (buildDenom assetID) = 0
  active : ∀ rec, getAsset s.store assetID = some rec →
    rec.status = .active →
    IntWithin k.sdk rec.notionalMinted fun raw =>
      (s.bank.supply (buildDenom assetID) : ℤ) = raw
  settled : TookPlace k (SettlesAsset assetID) history →
    ∃ rec, getAsset s.store assetID = some rec ∧ rec.status = .settled ∧
      s.bank.supply (buildDenom assetID) = 0
  slashed : TookPlace k (SlashesAsset assetID) history →
    ∃ rec, getAsset s.store assetID = some rec ∧ rec.status = .settled ∧
      IntWithin k.sdk rec.notionalMinted fun raw =>
        (s.bank.supply (buildDenom assetID) : ℤ) = raw

/-- A transaction which writes another record, or fails, keeps the supply
relation. -/
theorem AssetSupply.kept
    {k : Keeper} {history : History} {s s' : RwaState} {label : Label}
    {assetID : String} (hassets : AssetSupply k history s assetID)
    (hrecord : getAsset s'.store assetID = getAsset s.store assetID)
    (hsupply : s'.bank.supply (buildDenom assetID) =
      s.bank.supply (buildDenom assetID))
    (hother : delivered k (s, label) = true →
      label.2.written ≠ some assetID) :
    AssetSupply k ((s, label) :: history) s' assetID := by
  constructor
  · rw [hrecord, hsupply]
    exact hassets.unregistered
  · rw [hrecord, hsupply]
    exact hassets.premint
  · rw [hrecord, hsupply]
    exact hassets.active
  · rw [hrecord, hsupply, tookPlace_cons]
    rintro (⟨hdelivered, msg, htx, hid⟩ | hpast)
    · exact absurd (by rw [htx, ← hid]; rfl) (hother hdelivered)
    · exact hassets.settled hpast
  · rw [hrecord, hsupply, tookPlace_cons]
    rintro (⟨hdelivered, msg, htx, hid⟩ | hpast)
    · exact absurd (by rw [htx, ← hid]; rfl) (hother hdelivered)
    · exact hassets.slashed hpast

/-- Before a record is final neither a settlement nor a slash took place. -/
theorem AssetSupply.not_final
    {k : Keeper} {history : History} {s : RwaState} {assetID : String}
    (hassets : AssetSupply k history s assetID)
    (hopen : ∀ rec, getAsset s.store assetID = some rec →
      rec.status ≠ .settled) :
    ¬ TookPlace k (SettlesAsset assetID) history ∧
      ¬ TookPlace k (SlashesAsset assetID) history := by
  constructor
  · intro hpast
    rcases hassets.settled hpast with ⟨rec, hget, hstatus, -⟩
    exact hopen rec hget hstatus
  · intro hpast
    rcases hassets.slashed hpast with ⟨rec, hget, hstatus, -⟩
    exact hopen rec hget hstatus

/-- The relation for a record which is still open after a transaction. -/
theorem AssetSupply.opened
    {k : Keeper} {history : History} {s s' : RwaState} {label : Label}
    {assetID : String} {rec' : AssetRecord}
    (hassets : AssetSupply k history s assetID)
    (hopen : ∀ rec, getAsset s.store assetID = some rec →
      rec.status ≠ .settled)
    (hrecord : getAsset s'.store assetID = some rec')
    (hsettles : ¬ SettlesAsset assetID label.2)
    (hslashes : ¬ SlashesAsset assetID label.2)
    (hpremint : rec'.status = .draft ∨ rec'.status = .attested →
      s'.bank.supply (buildDenom assetID) = 0)
    (hactive : rec'.status = .active →
      IntWithin k.sdk rec'.notionalMinted fun raw =>
        (s'.bank.supply (buildDenom assetID) : ℤ) = raw) :
    AssetSupply k ((s, label) :: history) s' assetID := by
  have hpast := hassets.not_final hopen
  constructor
  · intro hnone
    rw [hrecord] at hnone
    cases hnone
  · intro rec hget
    rw [hrecord, Option.some.injEq] at hget
    subst hget
    exact hpremint
  · intro rec hget
    rw [hrecord, Option.some.injEq] at hget
    subst hget
    exact hactive
  · rw [tookPlace_cons]
    rintro (⟨-, hkind⟩ | hold)
    · exact absurd hkind hsettles
    · exact absurd hold hpast.1
  · rw [tookPlace_cons]
    rintro (⟨-, hkind⟩ | hold)
    · exact absurd hkind hslashes
    · exact absurd hold hpast.2

/-- The relation for a record which the transaction made final. -/
theorem AssetSupply.closed
    {k : Keeper} {history : History} {s s' : RwaState} {label : Label}
    {assetID : String} {rec' : AssetRecord}
    (hassets : AssetSupply k history s assetID)
    (hopen : ∀ rec, getAsset s.store assetID = some rec →
      rec.status ≠ .settled)
    (hrecord : getAsset s'.store assetID = some rec')
    (hfinal : rec'.status = .settled)
    (hsettles : SettlesAsset assetID label.2 →
      s'.bank.supply (buildDenom assetID) = 0)
    (hslashes : SlashesAsset assetID label.2 →
      IntWithin k.sdk rec'.notionalMinted fun raw =>
        (s'.bank.supply (buildDenom assetID) : ℤ) = raw) :
    AssetSupply k ((s, label) :: history) s' assetID := by
  have hpast := hassets.not_final hopen
  constructor
  · intro hnone
    rw [hrecord] at hnone
    cases hnone
  · intro rec hget hstatus
    rw [hrecord, Option.some.injEq] at hget
    subst hget
    rw [hfinal] at hstatus
    rcases hstatus with h | h <;> cases h
  · intro rec hget hstatus
    rw [hrecord, Option.some.injEq] at hget
    subst hget
    rw [hfinal] at hstatus
    cases hstatus
  · rw [tookPlace_cons]
    rintro (⟨-, hkind⟩ | hold)
    · exact ⟨rec', hrecord, hfinal, hsettles hkind⟩
    · exact absurd hold hpast.1
  · rw [tookPlace_cons]
    rintro (⟨-, hkind⟩ | hold)
    · exact ⟨rec', hrecord, hfinal, hslashes hkind⟩
    · exact absurd hold hpast.2

/-- While a record is active or about to become so, the supply is its
recorded total. -/
theorem AssetSupply.supply_eq_notional
    {k : Keeper} {history : History} {s : RwaState} {assetID : String}
    {rec : AssetRecord} {notional : SdkInt}
    (hassets : AssetSupply k history s assetID)
    (hsound : RecordSound k.sdk rec)
    (hget : getAsset s.store assetID = some rec)
    (hstatus : rec.status = .attested ∨ rec.status = .active)
    (hnotional : k.sdk.newIntFromString rec.notionalMinted = some notional) :
    (s.bank.supply (buildDenom assetID) : ℤ) = notional.raw := by
  rcases hstatus with hattested | hactive
  · have hzero := (hsound.notional_zero (Or.inr hattested)).of_parsed hnotional
    rw [hassets.premint rec hget (Or.inr hattested), hzero]
    rfl
  · exact (hassets.active rec hget hactive).of_parsed hnotional

theorem AssetSupply.written
    {k : Keeper} {history : History} {s s' : RwaState} {env : Env}
    {tx : RwaTx} {assetID : String}
    (hassets : AssetSupply k history s assetID)
    (hsound : RecordsSound k.sdk s.store)
    (haccepted : Accepted k env s tx s')
    (hwritten : tx.written = some assetID) :
    AssetSupply k ((s, env, tx) :: history) s' assetID := by
  rcases haccepted.recordStep hwritten with ⟨rec', hrecord, hstep⟩
  have hopen : ∀ rec, getAsset s.store assetID = some rec →
      rec.status ≠ .settled := by
    intro rec hget
    rw [hget] at hstep
    exact hstep.not_settled
  cases haccepted with
  | @registered msg issuer bond bank hvalid hissuer hfresh hbond hmin hbank =>
      cases hwritten
      have hsupply := Ledger.execAll_supply hbank (buildDenom msg.assetId)
      refine hassets.opened hopen (getAsset_writeAsset_self rfl)
        (by simp [SettlesAsset]) (by simp [SlashesAsset]) (fun _ => ?_)
        (by simp [draftRecord])
      simpa [LedgerOp.minted, LedgerOp.burned, hassets.unregistered hfresh]
        using hsupply
  | attested howned hstatus =>
      cases hwritten
      exact hassets.opened hopen (getAsset_writeAsset_self howned.assetId)
        (by simp [SettlesAsset]) (by simp [SlashesAsset])
        (fun _ => hassets.premint _ howned.stored (Or.inl hstatus))
        (by simp [attestedRecord])
  | @minted msg issuer rec notional fee prev total bank howned hstatus
      hnotional hpos hfee hprev htotal hbank =>
      cases hwritten
      have hsupply := Ledger.execAll_supply hbank (buildDenom msg.assetId)
      have hbefore := hassets.supply_eq_notional
        (hsound _ _ howned.stored) howned.stored hstatus hprev
      have hdenom := hsound.denom_eq howned
      simp [LedgerOp.minted, LedgerOp.burned, hdenom] at hsupply
      refine hassets.opened hopen (getAsset_writeAsset_self howned.assetId)
        (by simp [SettlesAsset]) (by simp [SlashesAsset])
        (by simp [mintedRecord]) (fun _ => ?_)
      apply intWithin_intString
      rw [hsupply, htotal]
      push_cast
      rw [hbefore, Int.toNat_of_nonneg hpos.le]
  | transferred => cases hwritten
  | @restricted msg issuer rec changes howned hslug hstatus =>
      cases hwritten
      have hpremint := hassets.premint rec howned.stored
      have hactive := hassets.active rec howned.stored
      exact hassets.opened hopen (getAsset_writeAsset_self howned.assetId)
        (by simp [SettlesAsset]) (by simp [SlashesAsset]) hpremint hactive
  | @settled msg issuer rec notional fee bond bank howned hstatus hnotional
      hfee hbond hbank =>
      cases hwritten
      have hsupply := Ledger.execAll_supply hbank (buildDenom msg.assetId)
      have hbefore := hassets.supply_eq_notional
        (hsound _ _ howned.stored) howned.stored (Or.inr hstatus) hnotional
      have hdenom := hsound.denom_eq howned
      simp [LedgerOp.minted, LedgerOp.burned, hdenom] at hsupply
      refine hassets.closed hopen (getAsset_writeAsset_self howned.assetId)
        rfl (fun _ => ?_) (by simp [SlashesAsset])
      show bank.supply (buildDenom msg.assetId) = 0
      omega
  | @slashed msg issuer rec bond bank hauthority hstored hissuer hstatus hbond
      hbank =>
      cases hwritten
      have hsupply := Ledger.execAll_supply hbank (buildDenom msg.assetId)
      simp [LedgerOp.minted, LedgerOp.burned] at hsupply
      have hid := getAsset_assetId hstored
      refine hassets.closed hopen (getAsset_writeAsset_self hid) rfl
        (by simp [SettlesAsset]) (fun _ => ?_)
      show IntWithin k.sdk rec.notionalMinted fun raw =>
        (bank.supply (buildDenom msg.assetId) : ℤ) = raw
      rw [hsupply]
      exact hassets.active rec hstored hstatus
  | reparametrized => cases hwritten
  | sent => cases hwritten
  | paid => cases hwritten

theorem AssetSupply.step
    {k : Keeper} {history : History} {s s' : RwaState} {label : Label}
    {assetID : String} (hassets : AssetSupply k history s assetID)
    (hsound : RecordsSound k.sdk s.store)
    (hstep : rwaStep k s label = some s') :
    AssetSupply k ((s, label) :: history) s' assetID := by
  rcases rwaStep_cases hstep with ⟨failure, hfailed, hsame⟩ |
    ⟨-, -, haccepted⟩
  · subst hsame
    apply hassets.kept rfl rfl
    intro hdelivered
    rw [delivered_of_error hfailed] at hdelivered
    cases hdelivered
  · by_cases hwritten : label.2.written = some assetID
    · exact hassets.written hsound haccepted hwritten
    · exact hassets.kept (haccepted.getAsset_of_ne hwritten)
        (haccepted.supply_of_ne hsound.canonical hwritten)
        (fun _ => hwritten)

theorem assetSupply_of_run
    {k : Keeper} {start s : RwaState} {history : History}
    (hempty : ∀ assetID, getAsset start.store assetID = none)
    (hnone : ∀ assetID, start.bank.supply (buildDenom assetID) = 0)
    (hrun : Run (rwaStep k) start history s) :
    RecordsSound k.sdk s.store ∧
      ∀ assetID, AssetSupply k history s assetID := by
  refine Run.induct_conditional
    (P := fun history s => RecordsSound k.sdk s.store ∧
      ∀ assetID, AssetSupply k history s assetID)
    (C := fun _ _ => True) ⟨recordsSound_of_empty hempty, ?_⟩ ?_ hrun
    (fun _ _ => trivial)
  · intro assetID
    constructor
    · intro _
      exact hnone assetID
    · simp [hempty]
    · simp [hempty]
    · simp [TookPlace]
    · simp [TookPlace]
  · intro history state label state' _ hstate _ hstep
    exact ⟨hstate.1.step hstep,
      fun assetID => (hstate.2 assetID).step hstate.1 hstep⟩

/-- Along every run from an empty registry, with no factory coins in the bank,
a factory denomination with supply belongs to an active or settled asset, and
the supply of each asset is the one its record and its past call for. -/
theorem supply_matches_registry
    {k : Keeper} {start s : RwaState} {history : History}
    (hempty : ∀ assetID, getAsset start.store assetID = none)
    (hnone : ∀ assetID, start.bank.supply (buildDenom assetID) = 0)
    (hrun : Run (rwaStep k) start history s) :
    (∀ assetID, s.bank.supply (buildDenom assetID) ≠ 0 →
      ∃ rec, getAsset s.store assetID = some rec ∧
        (rec.status = .active ∨ rec.status = .settled)) ∧
      ∀ assetID, AssetSupply k history s assetID := by
  have hinvariant := assetSupply_of_run hempty hnone hrun
  refine ⟨?_, hinvariant.2⟩
  intro assetID hsupply
  have hasset := hinvariant.2 assetID
  cases hget : getAsset s.store assetID with
  | none => exact absurd (hasset.unregistered hget) hsupply
  | some rec =>
      refine ⟨rec, rfl, ?_⟩
      have hspecified := (hinvariant.1 assetID rec hget).specified
      have hpremint := hasset.premint rec hget
      cases hstatus : rec.status with
      | unspecified => exact absurd hstatus hspecified
      | draft => exact absurd (hpremint (Or.inl hstatus)) hsupply
      | attested => exact absurd (hpremint (Or.inr hstatus)) hsupply
      | active => exact Or.inl rfl
      | settled => exact Or.inr rfl

def settleLand : RwaTx := .settleRWA ⟨issuerText, "land"⟩

/-- An asset is minted twice and settled: its whole supply is gone. -/
theorem land_supply_gone_after_settlement :
    ∃ history s,
      Run (rwaStep referenceKeeper) fundedState history s ∧
      TookPlace referenceKeeper (SettlesAsset "land") history ∧
      s.bank.supply (buildDenom "land") = 0 := by
  have hsettles :
      (runLand [registerLand, attestLand, mintLand "1000",
        mintLand "500"]).any (fun r =>
          r.2.bank.supply (buildDenom "land") == 1500 &&
            delivered referenceKeeper (r.2, openEnv, settleLand)) = true := by
    decide +kernel
  rcases exists_some_of_any hsettles with ⟨⟨past, s⟩, hrun, hfacts⟩
  rw [Bool.and_eq_true] at hfacts
  have hrun' : Run (rwaStep referenceKeeper) fundedState
      ((s, openEnv, settleLand) :: past) _ :=
    Run.next (run_of_runLand hrun) rfl
  have htook : TookPlace referenceKeeper (SettlesAsset "land")
      ((s, openEnv, settleLand) :: past) :=
    ⟨_, List.mem_cons_self, hfacts.2, ⟨_, rfl, rfl⟩⟩
  have hmatches := supply_matches_registry fundedState_empty
    (fun assetID => by simp [fundedState]) hrun'
  rcases (hmatches.2 "land").settled htook with ⟨rec, -, -, hzero⟩
  exact ⟨_, _, hrun', htook, hzero⟩

end Rwa
end Vertix
