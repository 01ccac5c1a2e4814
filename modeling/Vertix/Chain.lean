import Vertix.FeesKeeper
import Vertix.OracleRun
import Vertix.RwaGenesis
import Mathlib.Tactic

/-!
# The composed chain

The oracle, rwa and fees modules over one bank.  Transactions of the three
modules, bank sends and fee payments come in any order; at the end of a block
the oracle's EndBlocker runs, its slashes are executed by the staking module,
and the fees EndBlocker runs last.  The rwa module reads its prices from the
oracle store.
-/

namespace Vertix
namespace Chain

open Transition
open Rwa (Bank BankOp RwaStore RwaTx bondDenom coinsOf)
open Oracle (OracleStore SlashCall MsgSetFeeder MsgSubmitFeed)

structure ChainState where
  oracle : OracleStore
  rwa : RwaStore
  fees : Fees.FeesStore
  bank : Bank

/-! ## Slashes -/

/-- The coins which the staking module burns for a slash, after the slashes
before it in the same block.  A zero fraction burns nothing. -/
structure Slashing where
  burned : List SlashCall → SlashCall → ℕ
  burned_zero_rate : ∀ earlier call, call.rate.raw = 0 →
    burned earlier call = 0

def bondedPool (k : Keeper) : Address :=
  k.sdk.newModuleAddress "bonded_tokens_pool"

/-- A failing slash leaves the bank as it was; the oracle ignores the
error. -/
def executeSlash (k : Keeper) (slashing : Slashing)
    (earlier : List SlashCall) (bank : Bank) (call : SlashCall) : Bank :=
  (bank.exec (.burn (bondedPool k)
    (coinsOf bondDenom (slashing.burned earlier call)))).getD bank

def executeSlashes (k : Keeper) (slashing : Slashing) :
    List SlashCall → Bank → List SlashCall → Bank
  | _, bank, [] => bank
  | earlier, bank, call :: rest =>
      executeSlashes k slashing (earlier ++ [call])
        (executeSlash k slashing earlier bank call) rest

/-! ## Steps -/

inductive ChainStep (k : Keeper) where
  | rwa (ctx : Ctx) (accepts : BankOp → Bool) (tx : RwaTx)
  | setFeeder (staking : StakingView k.sdk) (msg : MsgSetFeeder)
  | submitFeed (ctx : Ctx) (staking : StakingView k.sdk) (msg : MsgSubmitFeed)
  | updateOracleParams (msg : Oracle.MsgUpdateParams)
  | updateFeesParams (msg : Fees.MsgUpdateParams)
  | endBlock (ctx : Ctx) (staking : StakingView k.sdk) (slashing : Slashing)
      (accepts : BankOp → Bool)

/-- The surroundings of a call: its block, the oracle's prices and the bank's
further conditions. -/
def envAt (k : Keeper) (s : ChainState) (ctx : Ctx)
    (accepts : BankOp → Bool) : Rwa.Env where
  ctx := ctx
  getPrice := Oracle.getPrice k.sdk ctx s.oracle
  accepts := accepts

def rwaStateOf (s : ChainState) : Rwa.RwaState := ⟨s.rwa, s.bank⟩

def feesStateOf (s : ChainState) : Fees.FeesState := ⟨s.fees, s.bank⟩

/-- The EndBlockers of a block in their order; a failure halts the chain. -/
def endBlock (k : Keeper) (ctx : Ctx) (staking : StakingView k.sdk)
    (slashing : Slashing) (accepts : BankOp → Bool) (s : ChainState) :
    Exec ChainState := do
  let (oracle, slashes) ← Oracle.endBlocker k ctx staking s.oracle
  let bank := executeSlashes k slashing [] s.bank slashes
  let fees ← Fees.endBlocker k (envAt k s ctx accepts) s.rwa ⟨s.fees, bank⟩
  return ⟨oracle, s.rwa, fees.store, fees.bank⟩

def commitFees (store : Fees.FeesStore) :
    Except SdkError Fees.FeesStore → Fees.FeesStore
  | .ok store' => store'
  | .error _ => store

def chainStep (k : Keeper) (s : ChainState) : ChainStep k → Option ChainState
  | .rwa ctx accepts tx =>
      let after := Rwa.commit (rwaStateOf s)
        (Rwa.deliver k (envAt k s ctx accepts) (rwaStateOf s) tx)
      some { s with rwa := after.store, bank := after.bank }
  | .setFeeder staking msg =>
      let oracle := Oracle.commit s.oracle
        (Oracle.setFeeder k staking s.oracle msg)
      some { s with oracle := oracle }
  | .submitFeed ctx staking msg =>
      let oracle := Oracle.commit s.oracle
        (Oracle.submitFeed k ctx staking s.oracle msg)
      some { s with oracle := oracle }
  | .updateOracleParams msg =>
      let oracle := Oracle.commit s.oracle
        (Oracle.updateParams k s.oracle msg)
      some { s with oracle := oracle }
  | .updateFeesParams msg =>
      let fees := commitFees s.fees (Fees.updateParams k s.fees msg)
      some { s with fees := fees }
  | .endBlock ctx staking slashing accepts =>
      (endBlock k ctx staking slashing accepts s).toOption

abbrev ChainHistory (k : Keeper) := List (ChainState × ChainStep k)

/-! ## Genesis -/

structure ChainGenesis where
  oracle : Oracle.GenesisState
  rwa : Rwa.GenesisState
  fees : Fees.GenesisState
  bank : Bank

/-- The bank comes first and the fees module last, so that the snapshot sees
the whole supply. -/
def initChain (k : Keeper) (ctx : Ctx) (staking : StakingView k.sdk)
    (gs : ChainGenesis) : Exec ChainState := do
  let oracle ← Exec.ofExcept
    (Oracle.initGenesis k ctx staking TypedStore.empty gs.oracle)
  let rwa ← Exec.ofExcept (Rwa.initGenesis k TypedStore.empty gs.rwa)
  let fees ← Fees.initGenesis k Fees.FeesStore.empty gs.bank gs.fees
  return ⟨oracle, rwa, fees, gs.bank⟩

end Chain
end Vertix
