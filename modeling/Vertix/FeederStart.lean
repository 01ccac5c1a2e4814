import Vertix.FeederBroadcaster
import Mathlib.Tactic

/-!
# Starting the feeder

A feeder starts once its providers are constructed, its key is found, its
account is primed and the vote window is known.  `Validate` does not look at
everything that this needs: a provider name may be unknown, a static price
which no pair uses may not parse, and a gas limit may not fit 64 bits.  The
first two stop the start; the third is only noticed by the first batch, which
then panics.
-/

namespace Vertix.Feeder

/-- What a start reads from outside. -/
structure Startup where
  keyring : Except String Unit
  key : Except String Unit
  address : Except String String
  dial : Except String Unit
  account : Except String Account
  /-- The vote window in the oracle parameters of the chain. -/
  voteWindow : Except String Int64

def wrapError {α : Type} (context : String) :
    Except String α → Except String α :=
  Except.mapError fun err => context ++ ": " ++ err

def newGRPCBroadcaster (cfg : Config) (start : Startup) :
    Except String GRPCBroadcaster := do
  wrapError "open keyring" start.keyring
  wrapError ("key " ++ cfg.keyName.quote ++ " not found") start.key
  let addr ← start.address
  wrapError "dial node" start.dial
  wrapError "prime account"
    (GRPCBroadcaster.refreshAccount ⟨cfg, addr, 0, 0⟩ start.account)

set_option linter.dupNamespace false in
structure Feeder where
  priceLoop : PriceLoop
  submit : SubmitLoop
  broadcaster : GRPCBroadcaster

/-- The chain is asked for the vote window only if the configuration leaves it
open. -/
def resolveVoteWindow (cfg : Config) (start : Startup) :
    Except String Int64 :=
  if cfg.voteWindow ≤ 0 then start.voteWindow else .ok cfg.voteWindow

/-- `New`. -/
def newFeeder (sdk : Sdk) (cfg : Config) (start : Startup) :
    Except String Feeder := do
  let providers ← Provider.build sdk cfg.providers cfg.staticPrices
  let bc ← newGRPCBroadcaster cfg start
  let voteWindow ← resolveVoteWindow cfg start
  return ⟨priceLoopOf sdk cfg providers, newFeederLoop cfg voteWindow, bc⟩

theorem wrapError_eq_ok_iff {α : Type} {context : String}
    {first : Except String α} {value : α} :
    wrapError context first = .ok value ↔ first = .ok value := by
  cases first with
  | error err => simp [wrapError, Except.mapError]
  | ok other => simp [wrapError, Except.mapError]

theorem newGRPCBroadcaster_eq_ok_iff {cfg : Config} {start : Startup}
    {bc : GRPCBroadcaster} :
    newGRPCBroadcaster cfg start = .ok bc ↔
      start.keyring = .ok () ∧ start.key = .ok () ∧ start.dial = .ok () ∧
        ∃ addr account, start.address = .ok addr ∧
          start.account = .ok account ∧
          bc = ⟨cfg, addr, account.number, account.sequence⟩ := by
  simp only [newGRPCBroadcaster, GRPCBroadcaster.refreshAccount,
    bind_eq_ok_iff, wrapError_eq_ok_iff, pure_eq_ok_iff]
  constructor
  · rintro ⟨⟨⟩, hkeyring, ⟨⟩, hkey, addr, haddr, ⟨⟩, hdial, account, haccount,
      rfl⟩
    exact ⟨hkeyring, hkey, hdial, addr, account, haddr, haccount, rfl⟩
  · rintro ⟨hkeyring, hkey, hdial, addr, account, haddr, haccount, rfl⟩
    exact ⟨⟨⟩, hkeyring, ⟨⟩, hkey, addr, haddr, ⟨⟩, hdial, account, haccount,
      rfl⟩

theorem newFeeder_eq_ok_iff {sdk : Sdk} {cfg : Config} {start : Startup}
    {feeder : Feeder} :
    newFeeder sdk cfg start = .ok feeder ↔
      ∃ providers bc voteWindow,
        Provider.build sdk cfg.providers cfg.staticPrices = .ok providers ∧
        newGRPCBroadcaster cfg start = .ok bc ∧
        resolveVoteWindow cfg start = .ok voteWindow ∧
        feeder = ⟨priceLoopOf sdk cfg providers,
          newFeederLoop cfg voteWindow, bc⟩ := by
  simp only [newFeeder, bind_eq_ok_iff, pure_eq_ok_iff]
  grind

/-- Everything outside the configuration answers. -/
structure Startup.Answers (start : Startup) (cfg : Config) : Prop where
  keyring : start.keyring = .ok ()
  key : start.key = .ok ()
  address : ∃ addr, start.address = .ok addr
  dial : start.dial = .ok ()
  account : ∃ account, start.account = .ok account
  voteWindow : ∃ voteWindow, resolveVoteWindow cfg start = .ok voteWindow

namespace Provider

variable {sdk : Sdk} {names : List String}
  {staticPrices : List (String × String)}

def registered : List String := ["binance", "coingecko", "static"]

def StaticPricesParse (sdk : Sdk) (staticPrices : List (String × String)) :
    Prop :=
  ∀ entry ∈ staticPrices, ∃ price, sdk.legacyNewDecFromStr entry.2 = .ok price

theorem exists_parseStaticPrices_iff :
    (∃ prices, staticPrices.mapM (parseStaticPrice sdk) = .ok prices) ↔
      StaticPricesParse sdk staticPrices := by
  have hone : ∀ entry : String × String,
      (∃ priced, parseStaticPrice sdk entry = .ok priced) ↔
        ∃ price, sdk.legacyNewDecFromStr entry.2 = .ok price := by
    intro entry
    simp only [parseStaticPrice, bind_eq_ok_iff, mapError_eq_ok_iff,
      pure_eq_ok_iff]
    constructor
    · rintro ⟨priced, price, hprice, -⟩
      exact ⟨price, hprice⟩
    · rintro ⟨price, hprice⟩
      exact ⟨_, price, hprice, rfl⟩
  rw [exists_mapM_eq_ok_iff]
  exact forall₂_congr fun entry _ => hone entry

theorem exists_construct_iff {name : String} :
    (∃ provider, construct sdk staticPrices name = .ok provider) ↔
      name ∈ registered ∧
        (name = "static" → StaticPricesParse sdk staticPrices) := by
  unfold construct
  by_cases hbinance : name = "binance"
  · simp [hbinance, registered]
  by_cases hgecko : name = "coingecko"
  · simp [hgecko, registered]
  by_cases hstatic : name = "static"
  · rw [if_neg hbinance, if_neg hgecko, if_pos hstatic]
    simp only [bind_eq_ok_iff, mapError_eq_ok_iff, pure_eq_ok_iff,
      ← exists_parseStaticPrices_iff, hstatic, registered]
    simp
  · simp [hbinance, hgecko, hstatic, registered]

/-- The providers are constructed exactly if all their names are registered
and, where the static one is among them, every static price parses. -/
theorem exists_build_iff :
    (∃ providers, build sdk names staticPrices = .ok providers) ↔
      (∀ name ∈ names, name ∈ registered) ∧
        ("static" ∈ names → StaticPricesParse sdk staticPrices) := by
  rw [build, exists_mapM_eq_ok_iff]
  simp only [exists_construct_iff]
  constructor
  · intro hall
    exact ⟨fun name hname => (hall name hname).1,
      fun hstatic => (hall "static" hstatic).2 rfl⟩
  · rintro ⟨hnames, hprices⟩ name hname
    exact ⟨hnames name hname, fun hstatic => hprices (hstatic ▸ hname)⟩

end Provider

theorem exists_newFeeder_iff {sdk : Sdk} {cfg : Config} {start : Startup}
    (hstart : start.Answers cfg) :
    (∃ feeder, newFeeder sdk cfg start = .ok feeder) ↔
      ∃ providers,
        Provider.build sdk cfg.providers cfg.staticPrices = .ok providers := by
  simp only [newFeeder_eq_ok_iff]
  constructor
  · rintro ⟨feeder, providers, bc, voteWindow, hbuild, -⟩
    exact ⟨providers, hbuild⟩
  · rintro ⟨providers, hbuild⟩
    obtain ⟨addr, haddr⟩ := hstart.address
    obtain ⟨account, haccount⟩ := hstart.account
    obtain ⟨voteWindow, hwindow⟩ := hstart.voteWindow
    exact ⟨_, providers, _, voteWindow, hbuild,
      newGRPCBroadcaster_eq_ok_iff.mpr ⟨hstart.keyring, hstart.key,
        hstart.dial, addr, account, haddr, haccount, rfl⟩, hwindow, rfl⟩

theorem Config.gas_of_validate {sdk : Sdk}
    {parseCoinsNormalized : CoinParser} {cfg : Config} {u : Unit}
    (hvalid : cfg.validate sdk parseCoinsNormalized = .ok u)
    (hgas : cfg.gas ≠ "auto") :
    ∃ gas, sdk.newIntFromString cfg.gas = some gas ∧ 0 < gas.raw := by
  simp only [validate, bind_eq_ok_iff] at hvalid
  obtain ⟨-, -, -, -, -, -, -, -, -, -, -, -, ⟨⟩, hchecked, -⟩ := hvalid
  rw [validateGas, if_pos hgas] at hchecked
  cases hparsed : sdk.newIntFromString cfg.gas with
  | none => simp [hparsed] at hchecked
  | some gas =>
      simp only [hparsed, rejectIf_eq_ok_iff, not_le] at hchecked
      exact ⟨gas, rfl, hchecked⟩

/-- The gas limit does not fit 64 bits. -/
def Config.GasTooLarge (sdk : Sdk) (cfg : Config) : Prop :=
  cfg.gas ≠ "auto" ∧
    ∃ gas, sdk.newIntFromString cfg.gas = some gas ∧ 2 ^ 64 ≤ gas.raw

theorem gasLimit_panics_iff {sdk : Sdk} {parseCoinsNormalized : CoinParser}
    {cfg : Config} {u : Unit}
    (hvalid : cfg.validate sdk parseCoinsNormalized = .ok u) :
    (∃ gas, gasLimit sdk cfg = .ok gas) ∧ ¬ cfg.GasTooLarge sdk ∨
      gasLimit sdk cfg = Exec.panicked ∧ cfg.GasTooLarge sdk := by
  unfold gasLimit
  by_cases hauto : cfg.gas = "auto"
  · rw [if_pos hauto]
    exact Or.inl ⟨⟨0, rfl⟩, fun hlarge => hlarge.1 hauto⟩
  · obtain ⟨gas, hparsed, hpos⟩ := Config.gas_of_validate hvalid hauto
    have hlarge : cfg.GasTooLarge sdk ↔ 2 ^ 64 ≤ gas.raw := by
      simp [Config.GasTooLarge, hauto, hparsed]
    rw [if_neg hauto, hparsed, hlarge]
    by_cases hfits : gas.raw < 2 ^ 64
    · left
      refine ⟨⟨UInt64.ofNat gas.raw.toNat, ?_⟩, not_le.mpr hfits⟩
      exact if_pos ⟨hpos.le, hfits⟩
    · right
      refine ⟨?_, not_lt.mp hfits⟩
      exact if_neg fun hrange => hfits hrange.2

theorem GRPCBroadcaster.submitFeeds_panics_iff {sdk : Sdk}
    {parseCoinsNormalized : CoinParser} {b : GRPCBroadcaster}
    {answers : SignedTx → Answers} {feeds : List FeedSubmission} :
    b.submitFeeds sdk parseCoinsNormalized answers feeds = Exec.panicked ↔
      b.builds sdk feeds = true ∧ gasLimit sdk b.cfg = Exec.panicked := by
  unfold submitFeeds prepare builds
  cases buildMsgs sdk b.feederAddr b.cfg.validator feeds with
  | error err => simp [Exec.ofExcept, Exec.fail, Exec.panicked, bind,
      Except.bind, Except.isOk, Except.toBool]
  | ok msgs =>
      cases gasLimit sdk b.cfg with
      | ok gas => simp [Exec.ofExcept, Exec.panicked, bind, Except.bind, pure,
          Except.pure]
      | error failure =>
          cases failure <;> simp [Exec.ofExcept, Exec.panicked, bind,
            Except.bind, Except.isOk, Except.toBool]

/-- A configuration which `Validate` accepts starts exactly if its provider
names are registered and its static prices parse.  The started feeder panics
at a batch exactly if the batch builds and the gas limit does not fit. -/
theorem accepted_config_runs_iff
    {sdk : Sdk} {parseCoinsNormalized : CoinParser} {cfg : Config}
    {start : Startup}
    (hvalid : cfg.validate sdk parseCoinsNormalized = .ok ())
    (hstart : start.Answers cfg) :
    ((∃ feeder, newFeeder sdk cfg start = .ok feeder) ↔
      (∀ name ∈ cfg.providers, name ∈ Provider.registered) ∧
        ("static" ∈ cfg.providers →
          Provider.StaticPricesParse sdk cfg.staticPrices)) ∧
    ∀ feeder, newFeeder sdk cfg start = .ok feeder →
      ∀ answers feeds,
        (feeder.broadcaster.submitFeeds sdk parseCoinsNormalized answers
            feeds = Exec.panicked ↔
          feeder.broadcaster.builds sdk feeds = true ∧
            cfg.GasTooLarge sdk) := by
  refine ⟨(exists_newFeeder_iff hstart).trans Provider.exists_build_iff, ?_⟩
  intro feeder hnew answers feeds
  obtain ⟨providers, bc, voteWindow, -, hbc, -, rfl⟩ :=
    newFeeder_eq_ok_iff.mp hnew
  obtain ⟨-, -, -, addr, account, -, -, rfl⟩ :=
    newGRPCBroadcaster_eq_ok_iff.mp hbc
  rw [GRPCBroadcaster.submitFeeds_panics_iff]
  refine and_congr_right fun _ => ?_
  rcases gasLimit_panics_iff hvalid with ⟨⟨gas, hgas⟩, hsmall⟩ | ⟨hpanics, hlarge⟩
  · refine ⟨fun hpanics => ?_, fun hlarge => absurd hlarge hsmall⟩
    rw [hgas] at hpanics
    cases hpanics
  · exact ⟨fun _ => hlarge, fun _ => hpanics⟩

def sampleStart : Startup where
  keyring := .ok ()
  key := .ok ()
  address := .ok (referenceSdk.accAddressString (addressOf 1).bytes)
  dial := .ok ()
  account := .ok ⟨7, 4⟩
  voteWindow := .ok 10

def fixedGasConfig (gas : String) : Config := { sampleConfig with gas := gas }

/-- A gas limit of `2 ^ 64` passes `Validate`; the feeder starts, and panics
at its first batch. -/
theorem oversized_gas_panics :
    (fixedGasConfig "18446744073709551616").validate referenceSdk
        (fun _ => .ok []) = .ok () ∧
    ∃ feeder,
      newFeeder referenceSdk (fixedGasConfig "18446744073709551616")
        sampleStart = .ok feeder ∧
      ∀ answers,
        feeder.broadcaster.submitFeeds referenceSdk (fun _ => .ok []) answers
          [⟨"VTX:USD", legacyOneDec⟩] = Exec.panicked := by
  have hvalid : (fixedGasConfig "18446744073709551616").validate referenceSdk
      (fun _ => .ok []) = .ok () := by
    decide +kernel
  have hstart : sampleStart.Answers
      (fixedGasConfig "18446744073709551616") :=
    ⟨rfl, rfl, ⟨_, rfl⟩, rfl, ⟨_, rfl⟩, ⟨10, rfl⟩⟩
  have hparse : Provider.StaticPricesParse referenceSdk [("VTX", "1")] := by
    have hone : (referenceSdk.legacyNewDecFromStr "1").toOption.any
        (fun _ => true) = true := by
      decide +kernel
    obtain ⟨price, hprice, -⟩ := exists_ok_of_any hone
    intro entry hentry
    rw [List.mem_singleton.mp hentry]
    exact ⟨price, hprice⟩
  have hruns := accepted_config_runs_iff hvalid hstart
  obtain ⟨feeder, hnew⟩ := hruns.1.mpr ⟨by decide, fun _ => hparse⟩
  refine ⟨hvalid, feeder, hnew, fun answers => ?_⟩
  refine (hruns.2 feeder hnew answers _).mpr ⟨?_, by decide, ?_⟩
  · obtain ⟨providers, bc, voteWindow, -, hbc, -, rfl⟩ :=
      newFeeder_eq_ok_iff.mp hnew
    obtain ⟨-, -, -, addr, account, haddr, -, rfl⟩ :=
      newGRPCBroadcaster_eq_ok_iff.mp hbc
    simp only [sampleStart, Except.ok.injEq] at haddr
    subst haddr
    have hbuilt : (buildMsgs referenceSdk
        (referenceSdk.accAddressString (addressOf 1).bytes)
        sampleConfig.validator [⟨"VTX:USD", legacyOneDec⟩]).isOk = true := by
      decide +kernel
    exact hbuilt
  · have hgas : (referenceSdk.newIntFromString
        "18446744073709551616").any (fun gas => decide (2 ^ 64 ≤ gas.raw)) =
          true := by
      decide +kernel
    obtain ⟨gas, hparsed, hlarge⟩ := exists_some_of_any hgas
    exact ⟨gas, hparsed, of_decide_eq_true hlarge⟩

end Vertix.Feeder
