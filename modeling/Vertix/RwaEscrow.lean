import Vertix.RwaRestrictions
import Mathlib.Tactic

/-!
# Issuer bonds in escrow

Every accepted transaction moves base coins along a list of moves which is
computed from the transaction and the state before it.  Added up over a run,
the module account holds what it held at the start, the bonds of all assets
which are not settled, and what was sent to it directly.  Each bond enters the
account once and leaves it at most once, in full.
-/

namespace Vertix
namespace Rwa

open Transition

/-! ## Moves of base coins -/

structure Move where
  source : Address
  target : Address
  amount : ℕ
  deriving DecidableEq

def outgoing (moves : List Move) (account : Address) : ℕ :=
  (moves.map fun m => if account = m.source then m.amount else 0).sum

def incoming (moves : List Move) (account : Address) : ℕ :=
  (moves.map fun m => if account = m.target then m.amount else 0).sum

/-- The amount written in an integer field of a record or message. -/
def amountIn (sdk : Sdk) (text : String) : ℕ :=
  ((sdk.newIntFromString text).map
    fun value : SdkInt => value.raw.toNat).getD 0

theorem amountIn_eq {sdk : Sdk} {text : String} {value : SdkInt}
    (hparsed : sdk.newIntFromString text = some value) :
    amountIn sdk text = value.raw.toNat := by
  simp [amountIn, hparsed]

@[simp] theorem amountIn_intString (sdk : Sdk) (value : SdkInt) :
    amountIn sdk (sdk.intString value) = value.raw.toNat :=
  amountIn_eq (sdk.int_roundTrip value)

def feeIn (sdk : Sdk) (rate notional : String) : ℕ :=
  ((sdk.legacyNewDecFromStr rate).toOption.bind fun value =>
    (sdk.newIntFromString notional).bind fun amount =>
      (truncatedProduct amount value).map
        fun fee : SdkInt => fee.raw.toNat).getD 0

theorem feeIn_eq {sdk : Sdk} {rate text : String} {notional fee : SdkInt}
    (hfee : FeeOf sdk rate notional fee)
    (hparsed : sdk.newIntFromString text = some notional) :
    feeIn sdk rate text = fee.raw.toNat := by
  rcases hfee with ⟨value, hrate, hproduct⟩
  simp [feeIn, hrate, hparsed, hproduct, Except.toOption]

/-- The move of an issuer bond: into escrow at registration, back to the
issuer at settlement, to the community pool at a slash. -/
def bondMove (k : Keeper) (s : RwaState) : RwaTx → Option Move
  | .registerAsset msg =>
      (k.sdk.accAddressFromBech32 msg.issuer).toOption.map fun issuer =>
        ⟨issuer, moduleAddress k, amountIn k.sdk msg.bond⟩
  | .settleRWA msg =>
      (getAsset s.store msg.assetId).bind fun rec =>
        (k.sdk.accAddressFromBech32 rec.issuer).toOption.map fun issuer =>
          ⟨moduleAddress k, issuer, amountIn k.sdk rec.bond⟩
  | .slashBond msg =>
      (getAsset s.store msg.assetId).map fun rec =>
        ⟨moduleAddress k, distributionAccount k, amountIn k.sdk rec.bond⟩
  | _ => none

/-- The moves of base coins other than bonds: module fees, transaction fees
and sends. -/
def otherMoves (k : Keeper) (s : RwaState) : RwaTx → List Move
  | .mintRWA msg =>
      ((k.sdk.accAddressFromBech32 msg.issuer).toOption.map fun issuer =>
        Move.mk issuer (feeCollector k)
          (feeIn k.sdk (getParams s.store).mintFeeRate msg.notional)).toList
  | .settleRWA msg =>
      ((getAsset s.store msg.assetId).bind fun rec =>
        (k.sdk.accAddressFromBech32 rec.issuer).toOption.map fun issuer =>
          Move.mk issuer (feeCollector k)
            (feeIn k.sdk (getParams s.store).settleFeeRate
              rec.notionalMinted)).toList
  | .bankSend source outputs =>
      outputs.map fun output =>
        ⟨source, output.1, amountOf output.2 bondDenom⟩
  | .payFee payer coins =>
      [⟨payer, feeCollector k, amountOf coins bondDenom⟩]
  | _ => []

def baseMoves (k : Keeper) (s : RwaState) (tx : RwaTx) : List Move :=
  (bondMove k s tx).toList ++ otherMoves k s tx

/-- The base coins of every account changed exactly by the given moves. -/
def MovedBy (bank bank' : Bank) (moves : List Move) : Prop :=
  ∀ account,
    bank'.balance account bondDenom + outgoing moves account =
      bank.balance account bondDenom + incoming moves account

theorem outgoing_append (left right : List Move) (account : Address) :
    outgoing (left ++ right) account =
      outgoing left account + outgoing right account := by
  simp [outgoing]

theorem incoming_append (left right : List Move) (account : Address) :
    incoming (left ++ right) account =
      incoming left account + incoming right account := by
  simp [incoming]

theorem outgoing_outputs (source account : Address)
    (outputs : List (Address × CoinList String)) :
    outgoing (outputs.map fun output =>
        ⟨source, output.1, amountOf output.2 bondDenom⟩) account =
      if account = source then amountOf (outputCoins outputs) bondDenom
      else 0 := by
  rw [amountOf_outputCoins]
  by_cases haccount : account = source
  · simp [outgoing, haccount, Function.comp_def]
  · simp [outgoing, haccount, Function.comp_def]

theorem incoming_outputs (source account : Address)
    (outputs : List (Address × CoinList String)) :
    incoming (outputs.map fun output =>
        ⟨source, output.1, amountOf output.2 bondDenom⟩) account =
      received outputs account bondDenom := by
  simp [incoming, received, Function.comp_def]

theorem Accepted.movedBy
    {k : Keeper} {env : Env} {s s' : RwaState} {tx : RwaTx}
    (haccepted : Accepted k env s tx s') (hcanonical : Canonical s.store) :
    MovedBy s.bank s'.bank (baseMoves k s tx) := by
  have hunits : ∀ {id : String} {rec : AssetRecord},
      getAsset s.store id = some rec → rec.denom ≠ bondDenom := by
    intro id rec hget
    rw [(hcanonical id rec hget).2]
    exact buildDenom_ne_bondDenom id
  intro account
  cases haccepted with
  | registered hvalid hissuer hfresh hbond hmin hbank =>
      have hledger := Ledger.execAll_balance hbank account bondDenom
      simp [LedgerOp.inflow, LedgerOp.outflow] at hledger
      simp [baseMoves, bondMove, otherMoves, outgoing, incoming, hissuer,
        Except.toOption, amountIn_eq hbond]
      exact hledger
  | attested => simp [baseMoves, bondMove, otherMoves, outgoing, incoming]
  | minted howned hstatus hnotional hpos hfee hprev htotal hbank =>
      have hledger := Ledger.execAll_balance hbank account bondDenom
      have hissuer := howned.caller_decodes
      simp [LedgerOp.inflow, LedgerOp.outflow, hunits howned.stored]
        at hledger
      simp [baseMoves, bondMove, otherMoves, outgoing, incoming, hissuer,
        Except.toOption, feeIn_eq hfee hnotional]
      exact hledger
  | transferred hstored hstatus hsender hrecipient hamount hpos hallowed
      hbank =>
      have hledger := Ledger.execAll_balance hbank account bondDenom
      simp [LedgerOp.inflow, LedgerOp.outflow, hunits hstored] at hledger
      simp [baseMoves, bondMove, otherMoves, outgoing, incoming]
      exact hledger
  | restricted => simp [baseMoves, bondMove, otherMoves, outgoing, incoming]
  | settled howned hstatus hnotional hfee hbond hbank =>
      have hledger := Ledger.execAll_balance hbank account bondDenom
      simp [LedgerOp.inflow, LedgerOp.outflow, hunits howned.stored]
        at hledger
      simp [baseMoves, bondMove, otherMoves, outgoing, incoming,
        howned.stored, howned.decoded, Except.toOption,
        feeIn_eq hfee hnotional, amountIn_eq hbond]
      omega
  | slashed hauthority hstored hissuer hstatus hbond hbank =>
      have hledger := Ledger.execAll_balance hbank account bondDenom
      simp [LedgerOp.inflow, LedgerOp.outflow] at hledger
      simp [baseMoves, bondMove, otherMoves, outgoing, incoming, hstored,
        amountIn_eq hbond]
      exact hledger
  | reparametrized =>
      simp [baseMoves, bondMove, otherMoves, outgoing, incoming]
  | sent hopen hallowed hbank =>
      have hledger := Ledger.execAll_balance hbank account bondDenom
      simp [LedgerOp.inflow, LedgerOp.outflow] at hledger
      simp only [baseMoves, bondMove, otherMoves, Option.toList_none,
        List.nil_append, outgoing_outputs, incoming_outputs]
      exact hledger
  | paid hallowed hbank =>
      have hledger := Ledger.execAll_balance hbank account bondDenom
      simp [LedgerOp.inflow, LedgerOp.outflow] at hledger
      simp [baseMoves, bondMove, otherMoves, outgoing, incoming]
      exact hledger

/-! ## The life of a bond -/

/-- The moves of the bond of one asset in a history, oldest first. -/
def bondMoves (k : Keeper) (assetID : String) : History → List Move
  | [] => []
  | entry :: older =>
      bondMoves k assetID older ++
        if delivered k entry ∧ entry.2.2.written = some assetID then
          (bondMove k entry.1 entry.2.2).toList
        else []

/-- A bond enters escrow with the record and leaves it at most once: in full
to the issuer or in full to the community pool. -/
inductive BondLife (k : Keeper) : Option AssetRecord → List Move → Prop
  | unregistered : BondLife k none []
  | escrowed {rec : AssetRecord} {issuer : Address}
      (hstatus : rec.status ≠ .settled)
      (hissuer : k.sdk.accAddressFromBech32 rec.issuer = .ok issuer)
      (hpos : 0 < amountIn k.sdk rec.bond) :
      BondLife k (some rec)
        [⟨issuer, moduleAddress k, amountIn k.sdk rec.bond⟩]
  | returned {rec : AssetRecord} {issuer : Address} {bond : ℕ}
      (hstatus : rec.status = .settled)
      (hissuer : k.sdk.accAddressFromBech32 rec.issuer = .ok issuer)
      (hpos : 0 < bond) :
      BondLife k (some rec)
        [⟨issuer, moduleAddress k, bond⟩, ⟨moduleAddress k, issuer, bond⟩]
  | forfeited {rec : AssetRecord} {issuer : Address} {bond : ℕ}
      (hstatus : rec.status = .settled)
      (hissuer : k.sdk.accAddressFromBech32 rec.issuer = .ok issuer)
      (hpos : 0 < bond) :
      BondLife k (some rec)
        [⟨issuer, moduleAddress k, bond⟩,
          ⟨moduleAddress k, distributionAccount k, bond⟩]

theorem BondLife.moves_of_none {k : Keeper} {moves : List Move}
    (hlife : BondLife k none moves) : moves = [] := by
  cases hlife
  rfl

theorem BondLife.moves_of_open {k : Keeper} {rec : AssetRecord}
    {issuer : Address} {moves : List Move}
    (hlife : BondLife k (some rec) moves) (hstatus : rec.status ≠ .settled)
    (hissuer : k.sdk.accAddressFromBech32 rec.issuer = .ok issuer) :
    moves = [⟨issuer, moduleAddress k, amountIn k.sdk rec.bond⟩] ∧
      0 < amountIn k.sdk rec.bond := by
  cases hlife with
  | escrowed hstatus' hissuer' hpos =>
      rw [hissuer, Except.ok.injEq] at hissuer'
      subst hissuer'
      exact ⟨rfl, hpos⟩
  | returned hfinal => exact absurd hfinal hstatus
  | forfeited hfinal => exact absurd hfinal hstatus

/-- A transition which neither settles nor slashes keeps the bond in
escrow. -/
theorem BondLife.stays {k : Keeper} {rec rec' : AssetRecord}
    {issuer : Address} {moves : List Move}
    (hlife : BondLife k (some rec) moves)
    (hissuer : k.sdk.accAddressFromBech32 rec.issuer = .ok issuer)
    (hstatus : rec.status ≠ .settled) (hstatus' : rec'.status ≠ .settled)
    (hsame : rec'.issuer = rec.issuer) (hbond : rec'.bond = rec.bond) :
    BondLife k (some rec') (moves ++ []) := by
  rcases hlife.moves_of_open hstatus hissuer with ⟨hmoves, hpos⟩
  rw [List.append_nil, hmoves, ← hbond]
  apply BondLife.escrowed hstatus'
  · rw [hsame]
    exact hissuer
  · rw [hbond]
    exact hpos

theorem BondLife.of_eq {k : Keeper} {record record' : Option AssetRecord}
    {moves moves' : List Move} (hrecord : record = record')
    (hmoves : moves = moves') (hlife : BondLife k record' moves') :
    BondLife k record moves := by
  rw [hrecord, hmoves]
  exact hlife

theorem BondLife.accepted
    {k : Keeper} {env : Env} {s s' : RwaState} {tx : RwaTx}
    {assetID : String} {moves : List Move}
    (hlife : BondLife k (getAsset s.store assetID) moves)
    (haccepted : Accepted k env s tx s')
    (hwritten : tx.written = some assetID) :
    BondLife k (getAsset s'.store assetID)
      (moves ++ (bondMove k s tx).toList) := by
  cases haccepted with
  | @registered msg issuer bond bank hvalid hissuer hfresh hbond hmin hbank =>
      cases hwritten
      rw [hfresh] at hlife
      have hpos : 0 < bond.raw := hvalid.bond_pos.of_parsed hbond
      have hamount : amountIn k.sdk (draftRecord k.sdk env.ctx msg bond).bond =
          bond.raw.toNat := amountIn_intString k.sdk bond
      refine BondLife.of_eq (getAsset_writeAsset_self rfl) ?_
        (BondLife.escrowed ?_ hissuer ?_)
      · rw [hamount, hlife.moves_of_none]
        simp [bondMove, hissuer, Except.toOption, amountIn_eq hbond]
      · simp [draftRecord]
      · rw [hamount]
        omega
  | attested howned hstatus =>
      cases hwritten
      rw [howned.stored] at hlife
      exact BondLife.of_eq (getAsset_writeAsset_self howned.assetId) rfl
        (hlife.stays howned.decoded (by simp [hstatus])
          (by simp [attestedRecord]) rfl rfl)
  | minted howned hstatus =>
      cases hwritten
      rw [howned.stored] at hlife
      refine BondLife.of_eq (getAsset_writeAsset_self howned.assetId) rfl
        (hlife.stays howned.decoded ?_ ?_ rfl rfl)
      · rcases hstatus with h | h <;> simp [h]
      · simp [mintedRecord]
  | transferred => cases hwritten
  | restricted howned hslug hstatus =>
      cases hwritten
      rw [howned.stored] at hlife
      exact BondLife.of_eq (getAsset_writeAsset_self howned.assetId) rfl
        (hlife.stays howned.decoded hstatus hstatus rfl rfl)
  | settled howned hstatus hnotional hfee hbond hbank =>
      cases hwritten
      rw [howned.stored] at hlife
      rcases hlife.moves_of_open (by simp [hstatus]) howned.decoded with
        ⟨hmoves, hpos⟩
      refine BondLife.of_eq (getAsset_writeAsset_self howned.assetId) ?_
        (BondLife.returned rfl howned.decoded hpos)
      simp [hmoves, bondMove, howned.stored, howned.decoded, Except.toOption]
  | slashed hauthority hstored hissuer hstatus hbond hbank =>
      cases hwritten
      rw [hstored] at hlife
      rcases hlife.moves_of_open (by simp [hstatus]) hissuer with
        ⟨hmoves, hpos⟩
      have hid := getAsset_assetId hstored
      refine BondLife.of_eq (getAsset_writeAsset_self hid) ?_
        (BondLife.forfeited rfl hissuer hpos)
      simp [hmoves, bondMove, hstored]
  | reparametrized => cases hwritten
  | sent => cases hwritten
  | paid => cases hwritten

theorem BondLife.step
    {k : Keeper} {s s' : RwaState} {label : Label} {history : History}
    {assetID : String}
    (hlife : BondLife k (getAsset s.store assetID)
      (bondMoves k assetID history))
    (hstep : rwaStep k s label = some s') :
    BondLife k (getAsset s'.store assetID)
      (bondMoves k assetID ((s, label) :: history)) := by
  rcases rwaStep_cases hstep with ⟨failure, hfailed, hsame⟩ |
    ⟨hdelivered, -, haccepted⟩
  · rw [hsame, bondMoves, delivered_of_error hfailed]
    simpa using hlife
  · rw [bondMoves, delivered_of_ok hdelivered]
    by_cases hwritten : label.2.written = some assetID
    · rw [if_pos ⟨rfl, hwritten⟩]
      exact hlife.accepted haccepted hwritten
    · rw [if_neg (fun h => hwritten h.2), List.append_nil,
        haccepted.getAsset_of_ne hwritten]
      exact hlife

/-! ## The balance of the module account -/

/-- What the bond of a record contributes to the escrow. -/
def escrowOf (sdk : Sdk) (rec : AssetRecord) : ℕ :=
  if rec.status = .settled then 0 else amountIn sdk rec.bond

/-- The bonds of all assets which are not settled. -/
def escrowed (sdk : Sdk) (store : RwaStore) : ℕ :=
  ((iterateAssets store).map (escrowOf sdk)).sum

/-- The base coins which a successful bank send paid to the module
account. -/
def donation (k : Keeper) (entry : RwaState × Label) : ℕ :=
  match entry.2.2 with
  | .bankSend _ outputs =>
      if delivered k entry then
        received outputs (moduleAddress k) bondDenom
      else 0
  | _ => 0

def donated (k : Keeper) (history : History) : ℕ :=
  (history.map (donation k)).sum

section

variable (sdk : Sdk) (store : RwaStore) (issuer : Address)

theorem escrowed_writeAsset_fresh (rec' : AssetRecord)
    (hfresh : getAsset store rec'.assetId = none) :
    escrowed sdk (writeAsset store issuer rec') =
      escrowed sdk store + escrowOf sdk rec' := by
  have hsum := sum_writeAsset (escrowOf sdk) store issuer rec'
  rw [hfresh, Option.map_none, Option.getD_none] at hsum
  exact hsum

variable {rec : AssetRecord}

/-- A transition between open records keeps the escrow. -/
theorem escrowed_writeAsset_open (rec' : AssetRecord)
    (hstored : getAsset store rec'.assetId = some rec)
    (hstatus : rec.status ≠ .settled) (hstatus' : rec'.status ≠ .settled)
    (hbond : rec'.bond = rec.bond) :
    escrowed sdk (writeAsset store issuer rec') = escrowed sdk store := by
  have hsum := sum_writeAsset (escrowOf sdk) store issuer rec'
  rw [hstored, Option.map_some, Option.getD_some, escrowOf, escrowOf,
    if_neg hstatus, if_neg hstatus', hbond] at hsum
  exact Nat.add_right_cancel hsum

/-- A transition to a settled record takes its bond out of the escrow. -/
theorem escrowed_writeAsset_final (rec' : AssetRecord)
    (hstored : getAsset store rec'.assetId = some rec)
    (hstatus : rec.status ≠ .settled) (hstatus' : rec'.status = .settled) :
    escrowed sdk (writeAsset store issuer rec') + amountIn sdk rec.bond =
      escrowed sdk store := by
  have hsum := sum_writeAsset (escrowOf sdk) store issuer rec'
  rw [hstored, Option.map_some, Option.getD_some, escrowOf, escrowOf,
    if_neg hstatus, if_pos hstatus'] at hsum
  exact hsum

end

theorem escrowed_congr {sdk : Sdk} {store store' : RwaStore}
    (hget : ∀ assetID, store'.get (.asset assetID) =
      store.get (.asset assetID)) :
    escrowed sdk store' = escrowed sdk store := by
  unfold escrowed
  rw [iterateAssets_congr hget]

theorem Owned.stored_self {k : Keeper} {store : RwaStore}
    {assetID caller : String} {issuer : Address} {rec : AssetRecord}
    (howned : Owned k store assetID caller issuer rec) :
    getAsset store rec.assetId = some rec := by
  rw [howned.assetId]
  exact howned.stored

/-- The escrow follows the moves of bonds through the module account. -/
theorem Accepted.escrowed_bondMove
    {k : Keeper} {env : Env} {s s' : RwaState} {tx : RwaTx}
    (haccepted : Accepted k env s tx s') (hsignable : tx.signable k = true) :
    escrowed k.sdk s'.store +
        outgoing (bondMove k s tx).toList (moduleAddress k) =
      escrowed k.sdk s.store +
        incoming (bondMove k s tx).toList (moduleAddress k) := by
  have hsource : ∀ {signer : Address}, tx.signer k.sdk = .ok signer →
      moduleAddress k ≠ signer :=
    ne_signer_of_keyless (moduleAddress_keyless k) hsignable
  have hpool := (distributionAccount_ne_moduleAddress k).symm
  cases haccepted with
  | @registered msg issuer bond bank hvalid hissuer hfresh hbond hmin hbank =>
      have hescrow := escrowed_writeAsset_fresh k.sdk s.store issuer
        (draftRecord k.sdk env.ctx msg bond) hfresh
      have hamount : escrowOf k.sdk (draftRecord k.sdk env.ctx msg bond) =
          bond.raw.toNat := by
        simp [escrowOf, draftRecord]
      simp [bondMove, outgoing, incoming, hissuer, Except.toOption,
        amountIn_eq hbond, hsource hissuer, hescrow, hamount]
  | @attested msg issuer rec price howned hstatus hprice =>
      have hescrow := escrowed_writeAsset_open k.sdk s.store issuer
        (attestedRecord k.sdk env.ctx rec price) howned.stored_self
        (by simp [hstatus]) (by simp [attestedRecord]) rfl
      exact congrArg (· + 0) hescrow
  | @minted msg issuer rec notional fee prev total bank howned hstatus
      hnotional hpos hfee hprev htotal hbank =>
      have hescrow := escrowed_writeAsset_open k.sdk s.store issuer
        (mintedRecord k.sdk rec total) howned.stored_self
        (by rcases hstatus with h | h <;> simp [h]) (by simp [mintedRecord])
        rfl
      exact congrArg (· + 0) hescrow
  | transferred => rfl
  | @restricted msg issuer rec changes howned hslug hstatus =>
      have hself : getAsset (changes.apply s.store msg.assetId) rec.assetId =
          some rec := by
        rw [getAsset_apply]
        exact howned.stored_self
      have hescrow := escrowed_writeAsset_open k.sdk
        (changes.apply s.store msg.assetId) issuer
        (restrictedRecord rec msg.allowAll) hself hstatus hstatus rfl
      have hlists : escrowed k.sdk (changes.apply s.store msg.assetId) =
          escrowed k.sdk s.store :=
        escrowed_congr fun assetID =>
          get_apply_of_ne changes s.store msg.assetId (by simp)
      exact congrArg (· + 0) (hescrow.trans hlists)
  | @settled msg issuer rec notional fee bond bank howned hstatus hnotional
      hfee hbond hbank =>
      have hescrow := escrowed_writeAsset_final k.sdk s.store issuer
        (settledRecord env.ctx rec) howned.stored_self (by simp [hstatus]) rfl
      simpa [bondMove, outgoing, incoming, howned.stored, howned.decoded,
        Except.toOption, hsource howned.caller_decodes] using hescrow
  | @slashed msg issuer rec bond bank hauthority hstored hissuer hstatus hbond
      hbank =>
      have hself : getAsset s.store rec.assetId = some rec := by
        rw [getAsset_assetId hstored]
        exact hstored
      have hescrow := escrowed_writeAsset_final k.sdk s.store issuer
        (slashedRecord k.sdk env.ctx rec) hself (by simp [hstatus]) rfl
      simpa [bondMove, outgoing, incoming, hstored, hpool] using hescrow
  | @reparametrized msg hauthority hvalid =>
      have hescrow : escrowed k.sdk (writeParams s.store msg.params) =
          escrowed k.sdk s.store :=
        escrowed_congr fun assetID => by simp [get_writeParams]
      exact congrArg (· + 0) hescrow
  | sent => rfl
  | paid => rfl

/-- Of the other base coins only those sent to it directly come into the
module account, and none goes out. -/
theorem Accepted.otherMoves_at_module
    {k : Keeper} {env : Env} {s s' : RwaState} {tx : RwaTx}
    (haccepted : Accepted k env s tx s')
    (hdelivered : deliver k env s tx = .ok s')
    (hsignable : tx.signable k = true) :
    outgoing (otherMoves k s tx) (moduleAddress k) = 0 ∧
      incoming (otherMoves k s tx) (moduleAddress k) =
        donation k (s, env, tx) := by
  have hsource : ∀ {signer : Address}, tx.signer k.sdk = .ok signer →
      moduleAddress k ≠ signer :=
    ne_signer_of_keyless (moduleAddress_keyless k) hsignable
  have hcollector := (feeCollector_ne_moduleAddress k).symm
  cases haccepted with
  | registered => exact ⟨rfl, rfl⟩
  | attested => exact ⟨rfl, rfl⟩
  | minted howned =>
      have hissuer := howned.caller_decodes
      simp [otherMoves, outgoing, incoming, donation, hissuer,
        Except.toOption, hsource hissuer, hcollector]
  | transferred => exact ⟨rfl, rfl⟩
  | restricted => exact ⟨rfl, rfl⟩
  | settled howned =>
      simp [otherMoves, outgoing, incoming, donation, howned.stored,
        howned.decoded, Except.toOption, hsource howned.caller_decodes,
        hcollector]
  | slashed => exact ⟨rfl, rfl⟩
  | reparametrized => exact ⟨rfl, rfl⟩
  | sent =>
      simp only [otherMoves, outgoing_outputs, incoming_outputs,
        if_neg (hsource rfl), donation, delivered, hdelivered, if_true]
      exact ⟨trivial, trivial⟩
  | paid =>
      simp [otherMoves, outgoing, incoming, donation, hsource rfl, hcollector]

/-- The module account gains what enters the escrow and what is sent to it
directly, and nothing else. -/
theorem Accepted.escrow
    {k : Keeper} {env : Env} {s s' : RwaState} {tx : RwaTx}
    (haccepted : Accepted k env s tx s')
    (hdelivered : deliver k env s tx = .ok s')
    (hsignable : tx.signable k = true) (hcanonical : Canonical s.store) :
    s'.bank.balance (moduleAddress k) bondDenom + escrowed k.sdk s.store =
      s.bank.balance (moduleAddress k) bondDenom + escrowed k.sdk s'.store +
        donation k (s, env, tx) := by
  have hmoved := haccepted.movedBy hcanonical (moduleAddress k)
  have hbonds := haccepted.escrowed_bondMove hsignable
  obtain ⟨hout, hin⟩ := haccepted.otherMoves_at_module hdelivered hsignable
  rw [baseMoves, outgoing_append, incoming_append, hout, hin] at hmoved
  omega

theorem rwaStep_escrow
    {k : Keeper} {s s' : RwaState} {label : Label}
    (hstep : rwaStep k s label = some s') (hcanonical : Canonical s.store) :
    s'.bank.balance (moduleAddress k) bondDenom + escrowed k.sdk s.store =
      s.bank.balance (moduleAddress k) bondDenom + escrowed k.sdk s'.store +
        donation k (s, label) := by
  rcases rwaStep_cases hstep with ⟨failure, hfailed, hsame⟩ |
    ⟨hdelivered, hsignable, haccepted⟩
  · have hnone : donation k (s, label) = 0 := by
      unfold donation
      rw [delivered_of_error hfailed]
      split <;> simp
    rw [hsame, hnone, Nat.add_zero]
  · exact haccepted.escrow hdelivered hsignable hcanonical

theorem escrowed_of_empty {sdk : Sdk} {store : RwaStore}
    (hempty : ∀ assetID, getAsset store assetID = none) :
    escrowed sdk store = 0 := by
  have hnil : iterateAssets store = [] := by
    apply List.eq_nil_iff_forall_not_mem.mpr
    intro rec hrec
    rw [mem_iterateAssets, hempty] at hrec
    cases hrec
  simp [escrowed, hnil]

/-- Along every run from an empty registry: the module account holds what it
held at the start, the bonds of all unsettled assets and the direct sends;
every bond enters escrow with its record and leaves it at most once, in full;
every successful transaction moves base coins exactly along its moves; and
active assets are bonded. -/
theorem escrow_is_exact
    {k : Keeper} {start s : RwaState} {history : History}
    (hempty : ∀ assetID, getAsset start.store assetID = none)
    (hrun : Run (rwaStep k) start history s) :
    s.bank.balance (moduleAddress k) bondDenom =
        start.bank.balance (moduleAddress k) bondDenom +
          escrowed k.sdk s.store + donated k history ∧
      (∀ assetID,
        BondLife k (getAsset s.store assetID) (bondMoves k assetID history)) ∧
      (∀ entry ∈ history, delivered k entry = true →
        MovedBy entry.1.bank
          (commit entry.1 (deliver k entry.2.1 entry.1 entry.2.2)).bank
          (baseMoves k entry.1 entry.2.2)) ∧
      ∀ assetID rec, getAsset s.store assetID = some rec →
        rec.status = .active → IntWithin k.sdk rec.bond fun raw => 0 < raw := by
  have hsound : ∀ {history : History} {s : RwaState},
      Run (rwaStep k) start history s → RecordsSound k.sdk s.store :=
    fun hrun => (recordsSound_of_empty hempty).run hrun
  have hinvariant :
      s.bank.balance (moduleAddress k) bondDenom =
          start.bank.balance (moduleAddress k) bondDenom +
            escrowed k.sdk s.store + donated k history ∧
        ∀ assetID, BondLife k (getAsset s.store assetID)
          (bondMoves k assetID history) := by
    refine Run.induct_conditional
      (P := fun history s =>
        s.bank.balance (moduleAddress k) bondDenom =
            start.bank.balance (moduleAddress k) bondDenom +
              escrowed k.sdk s.store + donated k history ∧
          ∀ assetID, BondLife k (getAsset s.store assetID)
            (bondMoves k assetID history))
      (C := fun _ _ => True) ⟨?_, ?_⟩ ?_ hrun (fun _ _ => trivial)
    · rw [escrowed_of_empty hempty]
      simp [donated]
    · intro assetID
      rw [hempty]
      exact .unregistered
    · intro history state label state' hbefore hstate _ hstep
      have hescrow := rwaStep_escrow hstep (hsound hbefore).canonical
      have hbalance := hstate.1
      refine ⟨?_, fun assetID => (hstate.2 assetID).step hstep⟩
      simp only [donated, List.map_cons, List.sum_cons] at hbalance ⊢
      omega
  refine ⟨hinvariant.1, hinvariant.2, ?_, ?_⟩
  · intro entry hentry hdelivered
    rcases Run.exists_run_before hrun hentry with ⟨-, older, -, hbefore⟩
    have hstep : rwaStep k entry.1 entry.2 =
        some (commit entry.1 (deliver k entry.2.1 entry.1 entry.2.2)) := rfl
    rcases rwaStep_cases hstep with ⟨failure, hfailed, -⟩ | ⟨-, -, haccepted⟩
    · rw [delivered_of_error hfailed] at hdelivered
      cases hdelivered
    · exact haccepted.movedBy (hsound hbefore).canonical
  · intro assetID rec hget hactive
    exact (hsound hrun assetID rec hget).bond_pos (by simp [hactive])

/-- A bond and a direct send of seven coins make up the module balance. -/
theorem land_bond_in_escrow :
    ∃ history s,
      Run (rwaStep referenceKeeper) fundedState history s ∧
      escrowed referenceKeeper.sdk s.store = 10000000000 ∧
      donated referenceKeeper history = 7 ∧
      s.bank.balance (moduleAddress referenceKeeper) bondDenom =
        10000000007 := by
  have hfacts :
      (runLand [registerLand, .bankSend (addressOf 1)
        [(moduleAddress referenceKeeper, [("uvtx", 7)])], attestLand,
        mintLand "1000"]).any (fun r =>
          escrowed referenceKeeper.sdk r.2.store == 10000000000 &&
            donated referenceKeeper r.1 == 7) = true := by
    decide +kernel
  rcases exists_some_of_any hfacts with ⟨⟨history, s⟩, hrun, hnumbers⟩
  simp only [Bool.and_eq_true, beq_iff_eq] at hnumbers
  have hexact := (escrow_is_exact fundedState_empty (run_of_runLand hrun)).1
  have hstart : fundedState.bank.balance (moduleAddress referenceKeeper)
      bondDenom = 0 := by
    decide +kernel
  refine ⟨history, s, run_of_runLand hrun, hnumbers.1, hnumbers.2, ?_⟩
  rw [hexact, hstart, hnumbers.1, hnumbers.2]

end Rwa
end Vertix
