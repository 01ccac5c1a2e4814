import Vertix.OracleMsgServer
import Vertix.SdkReference
import Mathlib.Tactic

/-!
# The feeder's configuration, cache and messages

The feeder is a program beside the validator node.  One loop asks price
providers and writes the median for every configured pair into a cache; a
second loop reads the cache and submits a batch of prices once per vote
window.  Maps of the configuration are association lists, durations are
nanoseconds, and `gasAdjustment` is compared with one only.
-/

namespace Vertix.Feeder

structure PairConfig where
  pair : String
  symbols : List (String × String)
  deriving DecidableEq

structure QualityConfig where
  minProviders : Int64
  maxDeviation : String
  maxQuoteAge : Int64

structure Config where
  chainID : String
  nodeGRPC : String
  validator : String
  keyName : String
  fees : String
  gas : String
  gasAdjustment : ℚ
  feedInterval : Int64
  submitPoll : Int64
  voteWindow : Int64
  broadcastRetry : Int64
  quality : QualityConfig
  providers : List String
  staticPrices : List (String × String)
  pairs : List PairConfig

namespace Config

def providerEnabled (cfg : Config) (name : String) : Bool :=
  cfg.providers.contains name

/-- A decimal that has to parse and lie in a range, with one text for both
failures. -/
def decimalField (sdk : Sdk) (text : String) (inside : ℤ → Prop)
    [DecidablePred inside] (problem : String) : Except SdkError Unit :=
  match sdk.legacyNewDecFromStr text with
  | .error _ => .error (SdkError.plain problem)
  | .ok value => rejectIf (¬ inside value.raw) (SdkError.plain problem)

/-- The verdict of a parser, its reason reported after `problem`. -/
def parsedField {α : Type} (problem : String) (parsed : Except String α) :
    Except SdkError Unit :=
  match parsed with
  | .error reason => .error (SdkError.plain (problem ++ ": " ++ reason))
  | .ok _ => .ok ()

/-- The checks of the static provider's entry for a pair that has one. -/
def validateStatic (sdk : Sdk) (cfg : Config) (pc : PairConfig) :
    Except SdkError Unit :=
  match pc.symbols.lookup "static" with
  | none => .ok ()
  | some symbol =>
      if cfg.providerEnabled "static" then
        match cfg.staticPrices.lookup symbol with
        | none =>
            .error (SdkError.plain ("static provider enabled for " ++
              pc.pair.quote ++ " but no static_prices entry"))
        | some text =>
            decimalField sdk text (fun raw => 0 < raw)
              ("static_prices[" ++ symbol.quote ++
                "] must be a positive decimal")
      else .ok ()

def validatePair (sdk : Sdk) (cfg : Config) (pc : PairConfig) :
    Except SdkError Unit := do
  rejectIf (¬ pairRegexMatch pc.pair)
    (SdkError.plain ("pair " ++ pc.pair.quote ++
      " must be BASE:QUOTE uppercase"))
  rejectIf (¬ pc.symbols.any fun entry => cfg.providerEnabled entry.1)
    (SdkError.plain ("pair " ++ pc.pair.quote ++
      " has no symbol for an enabled provider"))
  cfg.validateStatic sdk pc

def validateGas (sdk : Sdk) (cfg : Config) : Except SdkError Unit :=
  if cfg.gas ≠ "auto" then
    match sdk.newIntFromString cfg.gas with
    | none =>
        .error (SdkError.plain "gas must be \"auto\" or a positive integer")
    | some gas =>
        rejectIf (gas.raw ≤ 0)
          (SdkError.plain "gas must be \"auto\" or a positive integer")
  else
    rejectIf (cfg.gasAdjustment ≤ 1)
      (SdkError.plain "gas_adjustment must be > 1 when gas is auto")

/-- The coin parser is the SDK's; only its verdict matters here. -/
def validate (sdk : Sdk)
    (parseCoinsNormalized : String → Except String (List (String × SdkInt)))
    (cfg : Config) : Except SdkError Unit := do
  rejectIf (cfg.chainID = "" ∨ cfg.nodeGRPC = "" ∨ cfg.keyName = "")
    (SdkError.plain "chain_id, node_grpc, and key_name are required")
  parsedField "validator must be a vtxvaloper address"
    (sdk.valAddressFromBech32 cfg.validator)
  rejectIf
    (cfg.feedInterval ≤ 0 ∨ cfg.submitPoll ≤ 0 ∨ cfg.quality.maxQuoteAge ≤ 0)
    (SdkError.plain ("feed_interval, submit_poll_interval, and " ++
      "quality.max_quote_age must be positive"))
  rejectIf (cfg.quality.minProviders < 1)
    (SdkError.plain "quality.min_providers must be >= 1")
  decimalField sdk cfg.quality.maxDeviation
    (fun raw => 0 < raw ∧ raw ≤ legacyOneDec.raw)
    "quality.max_deviation must be a decimal in (0, 1]"
  parsedField "fees must be valid coins" (parseCoinsNormalized cfg.fees)
  cfg.validateGas sdk
  rejectIf (cfg.pairs = []) (SdkError.plain "at least one pair is required")
  forM cfg.pairs (cfg.validatePair sdk)

@[simp] theorem decimalField_eq_ok_iff
    {sdk : Sdk} {text problem : String} {inside : ℤ → Prop}
    [DecidablePred inside] {u : Unit} :
    decimalField sdk text inside problem = .ok u ↔
      ParsesWithin sdk text inside := by
  unfold decimalField ParsesWithin
  cases sdk.legacyNewDecFromStr text <;> simp

@[simp] theorem parsedField_eq_ok_iff
    {α : Type} {problem : String} {parsed : Except String α} {u : Unit} :
    parsedField problem parsed = .ok u ↔ ∃ value, parsed = .ok value := by
  cases parsed <;> simp [parsedField]

theorem validateStatic_eq_ok_iff
    {sdk : Sdk} {cfg : Config} {pc : PairConfig} {u : Unit} :
    cfg.validateStatic sdk pc = .ok u ↔
      ∀ symbol, pc.symbols.lookup "static" = some symbol →
        cfg.providerEnabled "static" = true →
          ∃ text, cfg.staticPrices.lookup symbol = some text ∧
            ParsesWithin sdk text fun raw => 0 < raw := by
  unfold validateStatic
  cases pc.symbols.lookup "static" with
  | none => simp
  | some symbol =>
      by_cases henabled : cfg.providerEnabled "static" = true
      · cases hprice : cfg.staticPrices.lookup symbol <;>
          simp [henabled, hprice]
      · simp [henabled]

/-- What the feeder's start relies on in a configuration. -/
structure Accepted (sdk : Sdk) (cfg : Config) : Prop where
  validator : ∃ val, sdk.valAddressFromBech32 cfg.validator = .ok val
  minProviders : 1 ≤ cfg.quality.minProviders
  maxDeviation :
    ParsesWithin sdk cfg.quality.maxDeviation
      fun raw => 0 < raw ∧ raw ≤ legacyOneDec.raw
  pairs : cfg.pairs ≠ []
  pairFormat : ∀ pc ∈ cfg.pairs, pairRegexMatch pc.pair = true
  staticPrice :
    ∀ pc ∈ cfg.pairs, ∀ symbol, pc.symbols.lookup "static" = some symbol →
      cfg.providerEnabled "static" = true →
        ∃ text, cfg.staticPrices.lookup symbol = some text ∧
          ParsesWithin sdk text fun raw => 0 < raw

theorem accepted_of_validate
    {sdk : Sdk}
    {parseCoinsNormalized : String → Except String (List (String × SdkInt))}
    {cfg : Config} {u : Unit}
    (hvalid : cfg.validate sdk parseCoinsNormalized = .ok u) :
    cfg.Accepted sdk := by
  simp only [validate, bind_eq_ok_iff, rejectIf_eq_ok_iff,
    parsedField_eq_ok_iff, decimalField_eq_ok_iff, forM_eq_ok_iff] at hvalid
  obtain ⟨-, -, -, hvalidator, -, -, -, hmin, -, hdev, -, -, -, -, -, hpairs,
    hpair⟩ := hvalid
  simp only [validatePair, bind_eq_ok_iff, rejectIf_eq_ok_iff,
    validateStatic_eq_ok_iff] at hpair
  constructor
  · exact hvalidator
  · exact Int64.not_lt.mp hmin
  · exact hdev
  · exact hpairs
  · intro pc hpc
    obtain ⟨-, hformat, -⟩ := hpair pc hpc
    simpa using hformat
  · intro pc hpc
    obtain ⟨-, -, -, -, hstatic⟩ := hpair pc hpc
    exact hstatic

end Config

def sampleConfig : Config where
  chainID := "vertix-1"
  nodeGRPC := "localhost:9090"
  validator := "vtxvaloper1qyqszqgpqyqszqgpqyqszqgpqyqszqgpk7xzwh"
  keyName := "feeder"
  fees := "500uvtx"
  gas := "auto"
  gasAdjustment := 3 / 2
  feedInterval := 5000000000
  submitPoll := 1000000000
  voteWindow := 0
  broadcastRetry := 3
  quality := ⟨1, "0.10", 60000000000⟩
  providers := ["static"]
  staticPrices := [("VTX", "1")]
  pairs := [⟨"VTX:USD", [("static", "VTX")]⟩]

theorem sampleConfig_valid :
    sampleConfig.validate referenceSdk (fun _ => .ok []) = .ok () := by
  decide +kernel

/-! ## The cache -/

structure CacheEntry where
  price : LegacyDec
  setAt : Time
  healthy : Bool
  deriving DecidableEq

/-- The latest median for each pair. -/
abbrev Cache := String → Option CacheEntry

namespace Cache

def empty : Cache := fun _ => none

def set (cache : Cache) (pair : String) (price : LegacyDec) (t : Time) :
    Cache :=
  Function.update cache pair (some ⟨price, t, true⟩)

/-- A pair without an entry gets the zero entry, which is never read. -/
def markUnhealthy (cache : Cache) (pair : String) : Cache :=
  Function.update cache pair
    (some { (cache pair).getD ⟨legacyZeroDec, zeroTime, false⟩ with
      healthy := false })

def fresh (cache : Cache) (pair : String) (maxAge : Int64) (now : Time) :
    Option LegacyDec :=
  match cache pair with
  | none => none
  | some entry =>
      if entry.healthy = false then none
      else if maxAge.toInt < Oracle.timeSub now entry.setAt then none
      else some entry.price

end Cache

/-! ## The batch -/

structure FeedSubmission where
  pair : String
  price : LegacyDec
  deriving DecidableEq

/-- One message; a message that does not validate fails the whole batch. -/
def buildMsg (sdk : Sdk) (feeder validator : String) (feed : FeedSubmission) :
    Except SdkError Oracle.MsgSubmitFeed := do
  let msg : Oracle.MsgSubmitFeed :=
    ⟨feeder, validator, feed.pair, sdk.legacyDecString feed.price⟩
  (msg.validateBasic sdk).mapError
    (SdkError.wrap · ("invalid MsgSubmitFeed for " ++ feed.pair.quote))
  return msg

def buildMsgs (sdk : Sdk) (feeder validator : String)
    (feeds : List FeedSubmission) :
    Except SdkError (List Oracle.MsgSubmitFeed) :=
  feeds.mapM (buildMsg sdk feeder validator)

end Vertix.Feeder
