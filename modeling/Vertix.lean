import Vertix.OrderedStore
import Vertix.ExceptLoop
import Vertix.TransitionRun
import Vertix.FixedPointDecimal
import Vertix.TypedStore
import Vertix.CoinLedger
import Vertix.DecimalText
import Vertix.Bech32
import Vertix.OrderStatistics
import Vertix.SdkInterface
import Vertix.SdkReference
import Vertix.OracleTypes
import Vertix.OracleKeys
import Vertix.OracleKeeper
import Vertix.OracleAggregate
import Vertix.OracleEndBlock
import Vertix.OracleMsgServer
import Vertix.OracleGenesis
import Vertix.OracleRun
import Vertix.OraclePanicSafety
import Vertix.OraclePriceInvariant
import Vertix.OracleRestart
import Vertix.OracleWindow
import Vertix.RwaTypes
import Vertix.RwaKeys
import Vertix.RwaKeeper
import Vertix.RwaBank
import Vertix.RwaMsgServer
import Vertix.RwaEffect
import Vertix.RwaRun
import Vertix.RwaRestrictions
import Vertix.RwaSupply
import Vertix.RwaEscrow
import Vertix.RwaFeeSweep
import Vertix.RwaGenesis
import Vertix.RwaRestart
import Vertix.FeesKeeper
import Vertix.OracleSlashing
import Vertix.Chain
import Vertix.ChainSupply
import Vertix.RwaModuleAccount
import Vertix.RwaTransferPaths
import Vertix.RwaLifecycle
import Vertix.ChainAttestation
import Vertix.OracleParticipation
import Vertix.OracleOrder
import Vertix.TwoWayTable
import Vertix.OracleDelegations
import Vertix.OracleAuthority
import Vertix.OracleMajority
import Vertix.OracleSlashTotals
import Vertix.StepFunction
import Vertix.OracleTwap
import Vertix.OracleTwapAverage
import Vertix.ChainFeesAccount
import Vertix.FeesSplit
import Vertix.RwaInvariants
import Vertix.FeederTypes
import Vertix.LastKeyGate
import Vertix.FeederSubmitLoop
import Vertix.FeederVoteWindow
import Vertix.FeederAggregate
import Vertix.FeederPriceLoop
import Vertix.FeesBurnOutcome
import Vertix.OracleKeySpace
import Vertix.OracleTwapHistory
import Vertix.OracleTwapRange
import Vertix.OracleQuery
import Vertix.FeederMajority
import Vertix.RwaListUpdate
import Vertix.RwaPayments
import Vertix.RwaScans
import Vertix.FeederBroadcaster
import Vertix.FeederDelivery
import Vertix.FeederLanding
import Vertix.FeederProvenance
import Vertix.PublishedPrice
import Vertix.AttestedPrice
import Vertix.ChainProgress
import Vertix.OracleMonotone
import Vertix.OracleSlashBounds
import Vertix.RwaIndependence
import Vertix.RwaWindUp
import Vertix.ChainCustody
import Vertix.ChainRestart
import Vertix.KeyPaging
import Vertix.RwaPaging
import Vertix.TwapResistance
