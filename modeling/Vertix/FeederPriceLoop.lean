import Vertix.FeederAggregate
import Vertix.FeederSubmitLoop
import Vertix.SdkReference
import Mathlib.Tactic

/-!
# The price loop and the batches made from its cache

On every tick the price loop asks the providers for each configured pair and
writes the median into the cache, or marks the pair unhealthy.  The submit
loop reads the cache pair by pair while the price loop goes on, so each of its
reads sees the cache after some number of writes.  Of the adapters only
Binance passes a price on without looking at its sign.  A batch with a price
that is not positive cannot be built at all; if Binance answers with positive
prices only, every batch can be.
-/

namespace Vertix.Feeder

/-! ## Providers -/

inductive Provider where
  | binance
  | coinGecko
  | static (prices : List (String × LegacyDec))

namespace Provider

def name : Provider → String
  | binance => "binance"
  | coinGecko => "coingecko"
  | static _ => "static"

/-- `answer` is what came back over the network: the text of the price in a
well-formed response, or the error of the request. -/
def fetch (sdk : Sdk) (provider : Provider) (symbol : String)
    (answer : Except String String) : Except String LegacyDec :=
  match provider with
  | binance => do
      let text ← answer
      rejectIf (text = "") ("binance: empty price for " ++ symbol.quote)
      sdk.legacyNewDecFromStr text
  | coinGecko => do
      let text ← answer
      let price ← (sdk.legacyNewDecFromStr text).mapError
        ("coingecko: parse price for " ++ symbol.quote ++ ": " ++ ·)
      rejectIf (price.raw ≤ 0)
        ("coingecko: non-positive usd price for " ++ symbol.quote)
      return price
  | static prices =>
      match prices.lookup symbol with
      | none => .error ("static: no price for symbol " ++ symbol.quote)
      | some price => .ok price

def parseStaticPrice (sdk : Sdk) (entry : String × String) :
    Except String (String × LegacyDec) := do
  let price ← (sdk.legacyNewDecFromStr entry.2).mapError
    ("static price " ++ entry.1.quote ++ ": " ++ ·)
  return (entry.1, price)

/-- The constructor registered under a name. -/
def construct (sdk : Sdk) (staticPrices : List (String × String))
    (name : String) : Except String Provider :=
  if name = "binance" then .ok binance
  else if name = "coingecko" then .ok coinGecko
  else if name = "static" then do
    let prices ← (staticPrices.mapM (parseStaticPrice sdk)).mapError
      ("init provider " ++ name.quote ++ ": " ++ ·)
    return static prices
  else .error ("unknown provider " ++ name.quote)

def build (sdk : Sdk) (names : List String)
    (staticPrices : List (String × String)) : Except String (List Provider) :=
  names.mapM (construct sdk staticPrices)

/-- A parsed table answers with the parsed text. -/
theorem exists_text_of_lookup
    {sdk : Sdk} {staticPrices : List (String × String)}
    {prices : List (String × LegacyDec)}
    (hparsed : staticPrices.mapM (parseStaticPrice sdk) = .ok prices)
    {symbol : String} {price : LegacyDec}
    (hlookup : prices.lookup symbol = some price) :
    ∃ text, staticPrices.lookup symbol = some text ∧
      sdk.legacyNewDecFromStr text = .ok price := by
  have hall := mapM_eq_ok_iff.mp hparsed
  clear hparsed
  induction hall with
  | nil => simp at hlookup
  | @cons entry parsed staticPrices prices hentry hrest ih =>
      simp only [parseStaticPrice, bind_eq_ok_iff, mapError_eq_ok_iff,
        pure_eq_ok_iff] at hentry
      obtain ⟨value, hvalue, rfl⟩ := hentry
      rw [List.lookup_cons] at hlookup ⊢
      cases hsymbol : symbol == entry.1 with
      | true =>
          simp only [hsymbol, Option.some.injEq] at hlookup
          subst hlookup
          exact ⟨entry.2, rfl, hvalue⟩
      | false =>
          simp only [hsymbol] at hlookup
          exact ih hlookup

theorem of_static_mem_build
    {sdk : Sdk} {names : List String} {staticPrices : List (String × String)}
    {providers : List Provider} {prices : List (String × LegacyDec)}
    (hbuild : build sdk names staticPrices = .ok providers)
    (hmem : static prices ∈ providers) :
    "static" ∈ names ∧
      staticPrices.mapM (parseStaticPrice sdk) = .ok prices := by
  obtain ⟨name, hname, hconstruct⟩ := exists_of_mem_mapM hbuild hmem
  unfold construct at hconstruct
  split_ifs at hconstruct with hbinance hgecko hstatic
  · simp at hconstruct
  · simp at hconstruct
  · simp only [bind_eq_ok_iff, mapError_eq_ok_iff, pure_eq_ok_iff,
      static.injEq] at hconstruct
    obtain ⟨parsed, hparsed, rfl⟩ := hconstruct
    exact ⟨hstatic ▸ hname, hparsed⟩

/-- CoinGecko's adapter rejects a price that is not positive, and the
configuration holds a positive one for every static symbol, so only Binance
can answer with another. -/
theorem fetch_pos
    {sdk : Sdk} {cfg : Config} (haccepted : cfg.Accepted sdk)
    {providers : List Provider}
    (hbuild : build sdk cfg.providers cfg.staticPrices = .ok providers)
    {pc : PairConfig} (hpc : pc ∈ cfg.pairs)
    {provider : Provider} (hprovider : provider ∈ providers)
    {symbol : String} (hsymbol : pc.symbols.lookup provider.name = some symbol)
    {answer : Except String String}
    (hbinance : provider = binance → ∀ text price, answer = .ok text →
      sdk.legacyNewDecFromStr text = .ok price → 0 < price.raw)
    {price : LegacyDec} (hfetch : provider.fetch sdk symbol answer = .ok price) :
    0 < price.raw := by
  cases provider with
  | binance =>
      simp only [fetch, bind_eq_ok_iff] at hfetch
      obtain ⟨text, htext, -, -, hprice⟩ := hfetch
      exact hbinance rfl text price htext hprice
  | coinGecko =>
      simp only [fetch, bind_eq_ok_iff, rejectIf_eq_ok_iff,
        pure_eq_ok_iff] at hfetch
      obtain ⟨text, -, value, -, -, hpos, rfl⟩ := hfetch
      exact not_le.mp hpos
  | static prices =>
      obtain ⟨hname, hparsed⟩ := of_static_mem_build hbuild hprovider
      have hlookup : prices.lookup symbol = some price := by
        unfold fetch at hfetch
        cases hentry : prices.lookup symbol with
        | none => simp [hentry] at hfetch
        | some value => simpa [hentry] using hfetch
      obtain ⟨text, htext, hprice⟩ := exists_text_of_lookup hparsed hlookup
      have henabled : cfg.providerEnabled "static" = true := by
        simpa [Config.providerEnabled] using hname
      obtain ⟨text', htext', value, hvalue, hpos⟩ :=
        haccepted.staticPrice pc hpc symbol hsymbol henabled
      rw [htext, Option.some.injEq] at htext'
      subst htext'
      rw [hprice, Except.ok.injEq] at hvalue
      rw [hvalue]
      exact hpos

end Provider

/-! ## Ticks -/

/-- A tick: its time and the answer for each position of the list of pairs and
each position of the list of providers. -/
structure Tick where
  now : Time
  answer : ℕ → ℕ → Except String String

structure PriceLoop where
  pairs : List PairConfig
  providers : List Provider
  minProviders : Int64
  maxDev : LegacyDec

/-- `LegacyNewDecWithPrec(10, 2)`. -/
def fallbackDeviation : LegacyDec := ⟨10 ^ 17, by decide⟩

def newPriceLoop (sdk : Sdk) (pairs : List PairConfig)
    (providers : List Provider) (quality : QualityConfig) : PriceLoop where
  pairs := pairs
  providers := providers
  minProviders := quality.minProviders
  maxDev :=
    match sdk.legacyNewDecFromStr quality.maxDeviation with
    | .ok dev => dev
    | .error _ => fallbackDeviation

namespace PriceLoop

/-- The quotes for the pair at position `i`, in the order of the providers; a
failed request gives none. -/
def quotes (sdk : Sdk) (pl : PriceLoop) (t : Tick) (i : ℕ) (pc : PairConfig) :
    List LegacyDec :=
  pl.providers.zipIdx.filterMap fun entry =>
    (pc.symbols.lookup entry.1.name).bind fun symbol =>
      (entry.1.fetch sdk symbol (t.answer i entry.2)).toOption

/-- One iteration of the loop in `tick`; a panic ends the process. -/
def refresh (sdk : Sdk) (pl : PriceLoop) (t : Tick) (i : ℕ) (pc : PairConfig)
    (cache : Cache) : Option Cache :=
  match crossSourceMedian (pl.quotes sdk t i pc) pl.maxDev pl.minProviders with
  | .ok median => some (cache.set pc.pair median t.now)
  | .error (.error _) => some (cache.markUnhealthy pc.pair)
  | .error .panicked => none

def tickFrom (sdk : Sdk) (pl : PriceLoop) (t : Tick) :
    ℕ → List PairConfig → Cache → Option Cache
  | _, [], cache => some cache
  | i, pc :: rest, cache =>
      (pl.refresh sdk t i pc cache).bind (pl.tickFrom sdk t (i + 1) rest)

def tick (sdk : Sdk) (pl : PriceLoop) (t : Tick) (cache : Cache) :
    Option Cache :=
  pl.tickFrom sdk t 0 pl.pairs cache

/-- The cache after the first `n` writes of the loop, which go through the
pairs tick by tick. -/
def cacheAfter (sdk : Sdk) (pl : PriceLoop) (ticks : ℕ → Tick) :
    ℕ → Option Cache
  | 0 => some Cache.empty
  | n + 1 =>
      (pl.cacheAfter sdk ticks n).bind fun cache =>
        match pl.pairs[n % pl.pairs.length]? with
        | none => some cache
        | some pc =>
            pl.refresh sdk (ticks (n / pl.pairs.length))
              (n % pl.pairs.length) pc cache

/-- Whole ticks take the cache from one multiple of the number of pairs to the
next. -/
theorem cacheAfter_tick {sdk : Sdk} {pl : PriceLoop} {ticks : ℕ → Tick}
    (j : ℕ) :
    pl.cacheAfter sdk ticks ((j + 1) * pl.pairs.length) =
      (pl.cacheAfter sdk ticks (j * pl.pairs.length)).bind
        (pl.tick sdk (ticks j)) := by
  -- the writes of the tick that are still to come, from any position in it
  have hrest : ∀ left i, i + left = pl.pairs.length →
      (pl.cacheAfter sdk ticks (j * pl.pairs.length + i)).bind
          (pl.tickFrom sdk (ticks j) i (pl.pairs.drop i)) =
        pl.cacheAfter sdk ticks (j * pl.pairs.length + pl.pairs.length) := by
    intro left
    induction left with
    | zero =>
        intro i hi
        rw [show i = pl.pairs.length by omega, List.drop_length]
        exact Option.bind_fun_some _
    | succ left ih =>
        intro i hi
        have hlt : i < pl.pairs.length := by omega
        have hmod : (j * pl.pairs.length + i) % pl.pairs.length = i := by
          rw [Nat.mul_add_mod_self_right, Nat.mod_eq_of_lt hlt]
        have hdiv : (j * pl.pairs.length + i) / pl.pairs.length = j := by
          rw [Nat.mul_comm, Nat.mul_add_div (by omega), Nat.div_eq_of_lt hlt,
            Nat.add_zero]
        rw [← ih (i + 1) (by omega), ← Nat.add_assoc, cacheAfter, hmod, hdiv,
          List.getElem?_eq_getElem hlt, List.drop_eq_getElem_cons hlt,
          Option.bind_assoc]
        rfl
  have htick := hrest pl.pairs.length 0 (Nat.zero_add _)
  rw [Nat.add_mul, Nat.one_mul, ← htick]
  rfl

end PriceLoop

/-- Each read of the poll sees the cache after some number of writes, later
reads after no fewer. -/
def Interleaved (sdk : Sdk) (pl : PriceLoop) (ticks : ℕ → Tick)
    (poll : Poll) : Prop :=
  ∃ times : ℕ → ℕ, Monotone times ∧
    ∀ i, pl.cacheAfter sdk ticks (times i) = some (poll.reads i)

/-! ## Positive prices in the cache -/

/-- Every healthy entry has a positive price. -/
def Cache.Positive (cache : Cache) : Prop :=
  ∀ pair entry, cache pair = some entry → entry.healthy = true →
    0 < entry.price.raw

theorem Cache.Positive.set {cache : Cache} (hcache : cache.Positive)
    {pair : String} {price : LegacyDec} {t : Time} (hprice : 0 < price.raw) :
    (cache.set pair price t).Positive := by
  intro other entry hentry hhealthy
  by_cases hpair : other = pair
  · subst hpair
    simp only [Cache.set, Function.update_self, Option.some.injEq] at hentry
    rw [← hentry]
    exact hprice
  · rw [Cache.set, Function.update_of_ne hpair] at hentry
    exact hcache other entry hentry hhealthy

theorem Cache.Positive.markUnhealthy {cache : Cache}
    (hcache : cache.Positive) (pair : String) :
    (cache.markUnhealthy pair).Positive := by
  intro other entry hentry hhealthy
  by_cases hpair : other = pair
  · subst hpair
    simp only [Cache.markUnhealthy, Function.update_self,
      Option.some.injEq] at hentry
    rw [← hentry] at hhealthy
    simp at hhealthy
  · rw [Cache.markUnhealthy, Function.update_of_ne hpair] at hentry
    exact hcache other entry hentry hhealthy

theorem Cache.Positive.fresh {cache : Cache} (hcache : cache.Positive)
    {pair : String} {maxAge : Int64} {now : Time} {price : LegacyDec}
    (hfresh : cache.fresh pair maxAge now = some price) : 0 < price.raw := by
  unfold Cache.fresh at hfresh
  cases hentry : cache pair with
  | none => simp [hentry] at hfresh
  | some entry =>
      simp only [hentry] at hfresh
      split_ifs at hfresh with hunhealthy hold
      simp only [Option.some.injEq] at hfresh
      rw [← hfresh]
      exact hcache pair entry hentry (by simpa using hunhealthy)

section Run

variable {sdk : Sdk} {cfg : Config} {providers : List Provider}

/-- The price loop of a configuration. -/
def priceLoopOf (sdk : Sdk) (cfg : Config) (providers : List Provider) :
    PriceLoop :=
  newPriceLoop sdk cfg.pairs providers cfg.quality

/-- Every price in an answer of Binance is positive. -/
def BinancePositive (sdk : Sdk) (providers : List Provider)
    (ticks : ℕ → Tick) : Prop :=
  ∀ j i position text price,
    providers[position]? = some Provider.binance →
    (ticks j).answer i position = .ok text →
    sdk.legacyNewDecFromStr text = .ok price → 0 < price.raw

/-- No quote reaches half of the bound of decimals. -/
def QuotesModerate (sdk : Sdk) (pl : PriceLoop) (ticks : ℕ → Tick) : Prop :=
  ∀ j i, ∀ pc ∈ pl.pairs, ∀ q ∈ pl.quotes sdk (ticks j) i pc,
    2 * q.raw < 2 ^ 256 * 10 ^ 18

variable {ticks : ℕ → Tick}

theorem quotes_pos (haccepted : cfg.Accepted sdk)
    (hbuild : Provider.build sdk cfg.providers cfg.staticPrices =
      .ok providers)
    (hbinance : BinancePositive sdk providers ticks)
    (j i : ℕ) {pc : PairConfig} (hpc : pc ∈ cfg.pairs) {q : LegacyDec}
    (hq : q ∈ (priceLoopOf sdk cfg providers).quotes sdk (ticks j) i pc) :
    0 < q.raw := by
  rw [PriceLoop.quotes, List.mem_filterMap] at hq
  obtain ⟨entry, hentry, hq⟩ := hq
  rw [Option.bind_eq_some_iff] at hq
  obtain ⟨symbol, hsymbol, hfetch⟩ := hq
  have hposition := List.mem_zipIdx_iff_getElem?.mp hentry
  apply Provider.fetch_pos haccepted hbuild hpc
    (List.mem_of_getElem? hposition) hsymbol _
    (toOption_eq_some_iff.mp hfetch)
  intro hprovider text price htext hprice
  exact hbinance j i entry.2 text price (hprovider ▸ hposition) htext hprice

theorem refresh_positive (haccepted : cfg.Accepted sdk)
    (hbuild : Provider.build sdk cfg.providers cfg.staticPrices =
      .ok providers)
    (hbinance : BinancePositive sdk providers ticks)
    {j i : ℕ} {pc : PairConfig} (hpc : pc ∈ cfg.pairs)
    {cache cache' : Cache} (hcache : cache.Positive)
    (hrefresh : (priceLoopOf sdk cfg providers).refresh sdk (ticks j) i pc
      cache = some cache') : cache'.Positive := by
  unfold PriceLoop.refresh at hrefresh
  split at hrefresh
  next median hmedian =>
    simp only [Option.some.injEq] at hrefresh
    subst hrefresh
    exact hcache.set (crossSourceMedian_pos
      (fun q hq => quotes_pos haccepted hbuild hbinance j i hpc hq) hmedian)
  next =>
    simp only [Option.some.injEq] at hrefresh
    subst hrefresh
    exact hcache.markUnhealthy pc.pair
  next => cases hrefresh

/-- The price loop keeps every healthy entry positive. -/
theorem cacheAfter_positive (haccepted : cfg.Accepted sdk)
    (hbuild : Provider.build sdk cfg.providers cfg.staticPrices =
      .ok providers)
    (hbinance : BinancePositive sdk providers ticks)
    {n : ℕ} {cache : Cache}
    (hcache : (priceLoopOf sdk cfg providers).cacheAfter sdk ticks n =
      some cache) : cache.Positive := by
  induction n generalizing cache with
  | zero =>
      simp only [PriceLoop.cacheAfter, Option.some.injEq] at hcache
      subst hcache
      intro pair entry hentry
      cases hentry
  | succ n ih =>
      rw [PriceLoop.cacheAfter, Option.bind_eq_some_iff] at hcache
      obtain ⟨before, hbefore, hcache⟩ := hcache
      split at hcache
      next =>
        simp only [Option.some.injEq] at hcache
        subst hcache
        exact ih hbefore
      next pc hpc =>
        exact refresh_positive haccepted hbuild hbinance
          (List.mem_of_getElem? hpc) (ih hbefore) hcache

theorem maxDev_range (providers : List Provider)
    (haccepted : cfg.Accepted sdk) :
    0 ≤ (priceLoopOf sdk cfg providers).maxDev.raw ∧
      (priceLoopOf sdk cfg providers).maxDev.raw ≤ 10 ^ 18 := by
  obtain ⟨dev, hdev, hpos, hone⟩ := haccepted.maxDeviation
  have hmaxDev : (priceLoopOf sdk cfg providers).maxDev = dev := by
    simp [priceLoopOf, newPriceLoop, hdev]
  rw [hmaxDev]
  exact ⟨hpos.le, hone⟩

theorem exists_refresh (haccepted : cfg.Accepted sdk)
    (hbuild : Provider.build sdk cfg.providers cfg.staticPrices =
      .ok providers)
    (hbinance : BinancePositive sdk providers ticks)
    (hmoderate : QuotesModerate sdk (priceLoopOf sdk cfg providers) ticks)
    (j i : ℕ) {pc : PairConfig} (hpc : pc ∈ cfg.pairs) (cache : Cache) :
    ∃ cache', (priceLoopOf sdk cfg providers).refresh sdk (ticks j) i pc
      cache = some cache' := by
  have hmin : 1 ≤ (priceLoopOf sdk cfg providers).minProviders.toInt :=
    Int64.le_iff_toInt_le.mp haccepted.minProviders
  obtain ⟨hdev, hone⟩ := maxDev_range providers haccepted
  have hquotes : ∀ q ∈ (priceLoopOf sdk cfg providers).quotes sdk (ticks j) i
      pc, Moderate q := by
    intro q hq
    have hpos := quotes_pos haccepted hbuild hbinance j i hpc hq
    have hsmall := hmoderate j i pc hpc q hq
    unfold Moderate
    omega
  have hsafe := crossSourceMedian_ne_panicked hmin hquotes hdev hone
  unfold PriceLoop.refresh
  split
  next => exact ⟨_, rfl⟩
  next => exact ⟨_, rfl⟩
  next hpanic => exact absurd hpanic hsafe

/-- The price loop goes on for ever. -/
theorem exists_cacheAfter (haccepted : cfg.Accepted sdk)
    (hbuild : Provider.build sdk cfg.providers cfg.staticPrices =
      .ok providers)
    (hbinance : BinancePositive sdk providers ticks)
    (hmoderate : QuotesModerate sdk (priceLoopOf sdk cfg providers) ticks)
    (n : ℕ) :
    ∃ cache, (priceLoopOf sdk cfg providers).cacheAfter sdk ticks n =
      some cache := by
  induction n with
  | zero => exact ⟨Cache.empty, rfl⟩
  | succ n ih =>
      obtain ⟨before, hbefore⟩ := ih
      rw [PriceLoop.cacheAfter, hbefore, Option.bind_some]
      split
      next => exact ⟨before, rfl⟩
      next pc hpc =>
        exact exists_refresh haccepted hbuild hbinance hmoderate _ _
          (List.mem_of_getElem? hpc) before

/-! ## Batches -/

theorem ne_empty_of_pairRegexMatch {pair : String}
    (hformat : pairRegexMatch pair = true) : pair ≠ "" := by
  rintro rfl
  exact absurd hformat (by decide)

/-- A batch of positive prices for well-formed pairs gives one message for
each feed. -/
theorem buildMsgs_eq_ok {feeder validator : String}
    (hfeeder : ∃ address, sdk.accAddressFromBech32 feeder = .ok address)
    (hvalidator : ∃ val, sdk.valAddressFromBech32 validator = .ok val)
    {feeds : List FeedSubmission}
    (hfeeds : ∀ feed ∈ feeds, 0 < feed.price.raw ∧ feed.pair ≠ "") :
    buildMsgs sdk feeder validator feeds =
      .ok (feeds.map fun feed => ⟨feeder, validator, feed.pair,
        sdk.legacyDecString feed.price⟩) := by
  rw [buildMsgs, mapM_eq_ok_iff, List.forall₂_map_right_iff,
    List.forall₂_same]
  intro feed hfeed
  obtain ⟨hpos, hpair⟩ := hfeeds feed hfeed
  simp only [buildMsg, bind_eq_ok_iff, mapError_eq_ok_iff, pure_eq_ok_iff,
    Oracle.MsgSubmitFeed.validateBasic_eq_ok_iff]
  exact ⟨(), ⟨hfeeder, hvalidator, hpair, feed.price,
    sdk.legacyDec_roundTrip feed.price, hpos⟩, trivial⟩

/-- A batch that reads caches with positive prices has positive prices, of
configured pairs. -/
theorem freshFeeds_good {chainWindow : Int64} {poll : Poll}
    (hreads : ∀ i, (poll.reads i).Positive) {feed : FeedSubmission}
    (hfeed : feed ∈ (newFeederLoop cfg chainWindow).freshFeeds poll) :
    0 < feed.price.raw ∧ ∃ pc ∈ cfg.pairs, pc.pair = feed.pair := by
  obtain ⟨i, pc, hpc, hpair, hfresh⟩ :=
    SubmitLoop.mem_freshFeeds_iff.mp hfeed
  exact ⟨(hreads i).fresh hfresh, pc, List.mem_of_getElem? hpc, hpair.symm⟩

end Run

/-- For every accepted configuration whose providers can be built, all
answers among which Binance gives positive prices only, and all interleavings
of polls with the writes of the price loop: every batch handed to the
broadcaster is the batch of all pairs that were fresh when they were read, has
positive prices for configured pairs only, and its messages can be built.
Unless a quote reaches half of the bound of decimals, the price loop never
stops. -/
theorem every_batch_builds
    {sdk : Sdk}
    {parseCoinsNormalized : String → Except String (List (String × SdkInt))}
    {cfg : Config} {providers : List Provider} {ticks : ℕ → Tick}
    (hvalid : cfg.validate sdk parseCoinsNormalized = .ok ())
    (hbuild : Provider.build sdk cfg.providers cfg.staticPrices =
      .ok providers)
    (hbinance : BinancePositive sdk providers ticks)
    (feeder : Address) (chainWindow : Int64) {polls : List Poll}
    (hpolls : ∀ poll ∈ polls,
      Interleaved sdk (priceLoopOf sdk cfg providers) ticks poll) :
    (∀ call ∈ ((newFeederLoop cfg chainWindow).run polls).2,
      (∃ poll ∈ polls,
        call.feeds = (newFeederLoop cfg chainWindow).freshFeeds poll) ∧
      (∀ feed ∈ call.feeds, 0 < feed.price.raw ∧
        ∃ pc ∈ cfg.pairs, pc.pair = feed.pair) ∧
      ∃ msgs, buildMsgs sdk (sdk.accAddressString feeder.bytes) cfg.validator
        call.feeds = .ok msgs) ∧
    (QuotesModerate sdk (priceLoopOf sdk cfg providers) ticks →
      ∀ n, ∃ cache,
        (priceLoopOf sdk cfg providers).cacheAfter sdk ticks n =
          some cache) := by
  have haccepted := Config.accepted_of_validate hvalid
  constructor
  · intro call hcall
    obtain ⟨poll, hpoll, -, hfeeds⟩ :=
      SubmitLoop.exists_poll_of_mem_run hcall
    obtain ⟨times, -, hreads⟩ := hpolls poll hpoll
    have hgood : ∀ feed ∈ call.feeds, 0 < feed.price.raw ∧
        ∃ pc ∈ cfg.pairs, pc.pair = feed.pair := by
      intro feed hfeed
      rw [hfeeds] at hfeed
      exact freshFeeds_good
        (fun i => cacheAfter_positive haccepted hbuild hbinance (hreads i))
        hfeed
    refine ⟨⟨poll, hpoll, hfeeds⟩, hgood, _, buildMsgs_eq_ok
      ⟨feeder, sdk.accAddress_roundTrip feeder⟩ haccepted.validator ?_⟩
    intro feed hfeed
    obtain ⟨hpos, pc, hpc, hpair⟩ := hgood feed hfeed
    exact ⟨hpos, hpair ▸ ne_empty_of_pairRegexMatch
      (haccepted.pairFormat pc hpc)⟩
  · intro hmoderate n
    exact exists_cacheAfter haccepted hbuild hbinance hmoderate n

/-! ## Two pairs quoted by Binance -/

def twoPairConfig : Config :=
  { sampleConfig with
    providers := ["binance"]
    staticPrices := []
    pairs := [⟨"VTX:USD", [("binance", "VTXUSDT")]⟩,
      ⟨"BTC:USD", [("binance", "BTCUSDT")]⟩] }

/-- Every tick finds `1.5` for the first pair and `second` for the other. -/
def twoQuotes (second : String) (_ : ℕ) : Tick :=
  ⟨0, fun i _ => .ok (if i = 0 then "1.5" else second)⟩

def twoPairLoop : PriceLoop :=
  priceLoopOf referenceSdk twoPairConfig [.binance]

/-- A poll that finds `cache` at all its reads and whose broadcasts fail. -/
def failingPoll (cache : Cache) : Poll :=
  ⟨1, 0, fun _ => cache, fun _ => .error "broadcast failed"⟩

theorem twoPairConfig_valid :
    twoPairConfig.validate referenceSdk (fun _ => .ok []) = .ok () := by
  decide +kernel

theorem build_twoPairConfig :
    Provider.build referenceSdk twoPairConfig.providers
      twoPairConfig.staticPrices = .ok [.binance] :=
  rfl

theorem interleaved_failingPoll {second : String} {cache : Cache}
    (hcache : twoPairLoop.cacheAfter referenceSdk (twoQuotes second) 2 =
      some cache) :
    Interleaved referenceSdk twoPairLoop (twoQuotes second)
      (failingPoll cache) :=
  ⟨fun _ => 2, monotone_const, fun _ => hcache⟩

theorem binancePositive_twoQuotes :
    BinancePositive referenceSdk [.binance] (twoQuotes "65000.1") := by
  intro j i position text price _ htext hprice
  have hquotes : ∀ quote ∈ ["1.5", "65000.1"],
      (referenceSdk.legacyNewDecFromStr quote).toOption.any
        (fun price => decide (0 < price.raw)) = true := by
    decide +kernel
  have hmem : text ∈ ["1.5", "65000.1"] := by
    simp only [twoQuotes, Except.ok.injEq] at htext
    split_ifs at htext <;> simp [← htext]
  simpa [hprice, Except.toOption] using hquotes text hmem

/-- Two positive quotes make a batch of two messages. -/
theorem positive_quotes_build :
    ∃ poll call,
      Interleaved referenceSdk twoPairLoop (twoQuotes "65000.1") poll ∧
      call ∈ ((newFeederLoop twoPairConfig 10).run [poll]).2 ∧
      call.feeds.length = 2 ∧
      ∃ msgs, buildMsgs referenceSdk
        (referenceSdk.accAddressString (addressOf 1).bytes)
        twoPairConfig.validator call.feeds = .ok msgs := by
  have hcheck : (twoPairLoop.cacheAfter referenceSdk
      (twoQuotes "65000.1") 2).any (fun cache =>
        (((newFeederLoop twoPairConfig 10).run
          [failingPoll cache]).2.head?).any fun call =>
            decide (call.feeds.length = 2)) = true := by
    decide +kernel
  obtain ⟨cache, hcache, hcalls⟩ := exists_some_of_any hcheck
  obtain ⟨call, hcall, hlength⟩ := exists_some_of_any hcalls
  have hpoll := interleaved_failingPoll hcache
  have hmem := List.mem_of_head? hcall
  have hpolls : ∀ poll ∈ [failingPoll cache],
      Interleaved referenceSdk twoPairLoop (twoQuotes "65000.1") poll := by
    intro poll hmem
    rw [List.mem_singleton.mp hmem]
    exact hpoll
  have hbatches := every_batch_builds twoPairConfig_valid build_twoPairConfig
    binancePositive_twoQuotes (addressOf 1) 10 hpolls
  exact ⟨failingPoll cache, call, hpoll, hmem, by simpa using hlength,
    (hbatches.1 call hmem).2.2⟩

/-- The second quote is zero: both pairs are in the batch, and no message of
it can be built. -/
theorem zero_quote_voids_batch :
    twoPairConfig.validate referenceSdk (fun _ => .ok []) = .ok () ∧
    Provider.build referenceSdk twoPairConfig.providers
      twoPairConfig.staticPrices = .ok [.binance] ∧
    ∃ poll call,
      Interleaved referenceSdk twoPairLoop (twoQuotes "0") poll ∧
      call ∈ ((newFeederLoop twoPairConfig 10).run [poll]).2 ∧
      call.feeds.map FeedSubmission.pair = ["VTX:USD", "BTC:USD"] ∧
      call.feeds.map (fun feed => feed.price.raw) = [15 * 10 ^ 17, 0] ∧
      ¬ ∃ msgs, buildMsgs referenceSdk
        (referenceSdk.accAddressString (addressOf 1).bytes)
        twoPairConfig.validator call.feeds = .ok msgs := by
  have hcheck : (twoPairLoop.cacheAfter referenceSdk (twoQuotes "0") 2).any
      (fun cache =>
        (((newFeederLoop twoPairConfig 10).run
          [failingPoll cache]).2.head?).any fun call =>
            decide (call.feeds.map FeedSubmission.pair =
              ["VTX:USD", "BTC:USD"]) &&
            decide (call.feeds.map (fun feed => feed.price.raw) =
              [15 * 10 ^ 17, 0]) &&
            !(buildMsgs referenceSdk
              (referenceSdk.accAddressString (addressOf 1).bytes)
              twoPairConfig.validator call.feeds).isOk) = true := by
    decide +kernel
  obtain ⟨cache, hcache, hcalls⟩ := exists_some_of_any hcheck
  obtain ⟨call, hcall, hfacts⟩ := exists_some_of_any hcalls
  simp only [Bool.and_eq_true, decide_eq_true_eq, Bool.not_eq_true'] at hfacts
  obtain ⟨⟨hpairs, hprices⟩, hfails⟩ := hfacts
  refine ⟨twoPairConfig_valid, build_twoPairConfig, failingPoll cache, call,
    interleaved_failingPoll hcache, List.mem_of_head? hcall, hpairs, hprices, ?_⟩
  rintro ⟨msgs, hmsgs⟩
  rw [hmsgs] at hfails
  cases hfails

end Vertix.Feeder
