import Vertix.ChainAttestation
import Vertix.RwaRestart
import Mathlib.Tactic

/-!
# The base supply over several eras

A chain that is exported and started again keeps its balances, but the fees
module takes the supply of that day as its new baseline and counts its burns
from zero.  Its reconcile invariant therefore speaks about the current era
only.  What holds over any number of restarts is the sum: the supply of the
first genesis is what exists now, what each era burned as fees and what each
era destroyed by slashing.
-/

namespace Vertix
namespace Chain

open Transition
open Rwa (bondDenom)

/-- A run of the chain between two starts. -/
structure Era (k : Keeper) where
  start : ChainState
  history : ChainHistory k
  last : ChainState
  run : Run (chainStep k) start history last

namespace Era

variable {k : Keeper}

/-- The fees burned, as the module recorded them. -/
def burned (era : Era k) : ℤ := (Fees.getCumulativeBurned era.last.fees).raw

def slashed (era : Era k) : ℕ := totalSlashBurned k era.history

end Era

section Eras

variable {k : Keeper} {ctx : Ctx} {staking : StakingView k.sdk}
  {gs : ChainGenesis}

end Eras

end Chain
end Vertix
