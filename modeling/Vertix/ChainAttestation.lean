import Vertix.ChainSupply
import Vertix.RwaLifecycle
import Mathlib.Tactic

/-!
# Attested prices are fresh consensus prices

The rwa module copies the oracle's price into a record when an issuer attests
it.  Along every run of the composed chain with non-decreasing block times the
copy is positive, was published by the oracle's EndBlocker for the pair of the
asset, and was at most `max_price_age` seconds old.
-/

namespace Vertix
namespace Chain

open Transition
open Rwa (AssetRecord RwaTx)
open Oracle (OracleStep)

/-! ## The parts of a step -/

/-- What a chain step does to the oracle. -/
def ChainStep.oraclePart {k : Keeper} : ChainStep k → Option (OracleStep k)
  | .setFeeder staking msg => some (.setFeeder staking msg)
  | .submitFeed ctx staking msg => some (.submitFeed ctx staking msg)
  | .updateOracleParams msg => some (.updateParams msg)
  | .endBlock ctx staking _ _ => some (.endBlock ctx staking)
  | _ => none

theorem chainStep_cases
    {k : Keeper} {s s' : ChainState} {step : ChainStep k}
    (hstep : chainStep k s step = some s') :
    (∃ ctx accepts tx, step = .rwa ctx accepts tx ∧ s'.oracle = s.oracle ∧
        Rwa.rwaStep k (rwaStateOf s) (envAt k s ctx accepts, tx) =
          some (rwaStateOf s')) ∨
      (∃ part, step.oraclePart = some part ∧ s'.rwa = s.rwa ∧
        Oracle.oracleStep k s.oracle part = some s'.oracle) ∨
      (s'.oracle = s.oracle ∧ s'.rwa = s.rwa) := by
  cases step with
  | rwa ctx accepts tx =>
      left
      simp only [chainStep, Option.some.injEq] at hstep
      subst hstep
      exact ⟨ctx, accepts, tx, rfl, rfl, rfl⟩
  | setFeeder staking msg =>
      right
      left
      simp only [chainStep, Option.some.injEq] at hstep
      subst hstep
      exact ⟨_, rfl, rfl, rfl⟩
  | submitFeed ctx staking msg =>
      right
      left
      simp only [chainStep, Option.some.injEq] at hstep
      subst hstep
      exact ⟨_, rfl, rfl, rfl⟩
  | updateOracleParams msg =>
      right
      left
      simp only [chainStep, Option.some.injEq] at hstep
      subst hstep
      exact ⟨_, rfl, rfl, rfl⟩
  | updateFeesParams msg =>
      right
      right
      simp only [chainStep, Option.some.injEq] at hstep
      subst hstep
      exact ⟨rfl, rfl⟩
  | endBlock ctx staking slashing accepts =>
      right
      left
      simp only [chainStep, toOption_eq_some_iff, endBlock, bind_eq_ok_iff,
        pure_eq_ok_iff] at hstep
      rcases hstep with ⟨result, hresult, fees, -, rfl⟩
      refine ⟨_, rfl, rfl, ?_⟩
      simp only [Oracle.oracleStep, hresult]

/-! ## Publications -/

/-- The entry is a call of the EndBlocker which published a price for the
pair: the weighted median of a window which reached quorum. -/
structure Published (k : Keeper) (entry : ChainState × ChainStep k)
    (pair : String) (price : LegacyDec) (time : Time) : Prop where
  closed : ∃ ctx staking slashing accepts w,
    entry.2 = .endBlock ctx staking slashing accepts ∧
      ctx.blockHeight % (Oracle.getParams entry.1.oracle).voteWindow = 0 ∧
      Oracle.openWindow k.sdk ctx staking
        (Oracle.getParams entry.1.oracle) = .ok w ∧
      w.Qualifies entry.1.oracle pair ∧
      price = Oracle.weightedMedian (w.countedFeeds entry.1.oracle pair) ∧
      time = ctx.blockTime
  accepted : pair ∈ (Oracle.getParams entry.1.oracle).acceptList
  written : ∃ s', chainStep k entry.1 entry.2 = some s' ∧
    ∃ height, Oracle.storedPrice s'.oracle pair =
      some ⟨pair, k.sdk.legacyDecString price, height, time⟩

/-- Every stored price was published. -/
def PricesPublished (k : Keeper) (history : ChainHistory k) (s : ChainState) :
    Prop :=
  ∀ pair ap, Oracle.storedPrice s.oracle pair = some ap →
    ∃ entry ∈ history, ∃ price, Published k entry pair price ap.blockTime ∧
      ap.price = k.sdk.legacyDecString price ∧ 0 < price.raw

theorem PricesPublished.of_same_oracle
    {k : Keeper} {history : ChainHistory k} {s s' : ChainState}
    (hpublished : PricesPublished k history s)
    (hsame : s'.oracle = s.oracle) (entry : ChainState × ChainStep k) :
    PricesPublished k (entry :: history) s' := by
  intro pair ap hstored
  rw [hsame] at hstored
  rcases hpublished pair ap hstored with ⟨older, holder, hprice⟩
  exact ⟨older, List.mem_cons_of_mem _ holder, hprice⟩

theorem exists_endBlock_of_oraclePart
    {k : Keeper} {step : ChainStep k} {ctx : Ctx}
    {staking : StakingView k.sdk}
    (hpart : step.oraclePart = some (.endBlock ctx staking)) :
    ∃ slashing accepts, step = .endBlock ctx staking slashing accepts := by
  cases step with
  | endBlock ctx' staking' slashing accepts =>
      cases hpart
      exact ⟨slashing, accepts, rfl⟩
  | rwa => cases hpart
  | setFeeder => cases hpart
  | submitFeed => cases hpart
  | updateOracleParams => cases hpart
  | updateFeesParams => cases hpart

/-- A boundary call which writes a price publishes it. -/
theorem published_of_boundary
    {k : Keeper} {s s' : ChainState} {step : ChainStep k} {ctx : Ctx}
    {staking : StakingView k.sdk} {w : Oracle.Window k.sdk} {pair : String}
    (hstep : chainStep k s step = some s')
    (hpart : step.oraclePart = some (.endBlock ctx staking))
    (hboundary : ctx.blockHeight % (Oracle.getParams s.oracle).voteWindow = 0)
    (hopen : Oracle.openWindow k.sdk ctx staking (Oracle.getParams s.oracle) =
      .ok w)
    (haccepted : pair ∈ w.params.acceptList)
    (hqualifies : w.Qualifies s.oracle pair)
    (hnew : Oracle.storedPrice s'.oracle pair =
      some (w.publishedPrice pair (w.countedFeeds s.oracle pair))) :
    ∃ price, Published k (s, step) pair price
        (w.publishedPrice pair (w.countedFeeds s.oracle pair)).blockTime ∧
      (w.publishedPrice pair (w.countedFeeds s.oracle pair)).price =
        k.sdk.legacyDecString price ∧ 0 < price.raw := by
  rcases exists_endBlock_of_oraclePart hpart with ⟨slashing, accepts, rfl⟩
  rcases Oracle.openWindow_eq_ok_iff.mp hopen with ⟨hctx, -, hparams, -⟩
  rw [hparams] at haccepted
  refine ⟨Oracle.weightedMedian (w.countedFeeds s.oracle pair),
    ⟨⟨ctx, staking, slashing, accepts, w, rfl, hboundary, hopen, hqualifies,
      rfl, congrArg Ctx.blockTime hctx⟩, haccepted, s', hstep,
      w.ctx.blockHeight, hnew⟩, rfl, ?_⟩
  rcases hqualifies.median_mem with ⟨e, hmem, hmedian⟩
  rw [hmedian]
  exact Oracle.Window.countedFeeds_price_pos hmem

theorem PricesPublished.step
    {k : Keeper} {history : ChainHistory k} {s s' : ChainState}
    {step : ChainStep k} (hpublished : PricesPublished k history s)
    (hstep : chainStep k s step = some s') :
    PricesPublished k ((s, step) :: history) s' := by
  rcases chainStep_cases hstep with ⟨ctx, accepts, tx, -, hsame, -⟩ |
    ⟨part, hpart, -, horacle⟩ | ⟨hsame, -⟩
  · exact hpublished.of_same_oracle hsame _
  · intro pair ap hstored
    rcases (Oracle.effect_of_step horacle).storedPrice_cases pair with hkept |
      ⟨ctx, staking, w, hblock, hboundary, hopen, haccepted, hqualifies, hnew⟩
    · rw [hkept] at hstored
      rcases hpublished pair ap hstored with ⟨older, holder, hprice⟩
      exact ⟨older, List.mem_cons_of_mem _ holder, hprice⟩
    · rw [hnew, Option.some.injEq] at hstored
      subst hstored
      exact ⟨(s, step), List.mem_cons_self, published_of_boundary hstep
        (hpart.trans (congrArg some hblock)) hboundary hopen haccepted
        hqualifies hnew⟩
  · exact hpublished.of_same_oracle hsame _

/-! ## Attestations -/

/-- The block time of a step which runs in a block. -/
def ChainStep.time {k : Keeper} : ChainStep k → Option Time
  | .rwa ctx _ _ => some ctx.blockTime
  | .submitFeed ctx _ _ => some ctx.blockTime
  | .endBlock ctx _ _ _ => some ctx.blockTime
  | _ => none

/-- Block times never decrease. -/
def TimesOrdered {k : Keeper} (history : ChainHistory k) : Prop :=
  (history.filterMap fun entry => entry.2.time).Pairwise
    fun newer older => older ≤ newer

instance TimesOrdered.decidable {k : Keeper} (history : ChainHistory k) :
    Decidable (TimesOrdered history) :=
  inferInstanceAs (Decidable (List.Pairwise _ _))

/-- The attestation of a record was made by an entry of the history, which
found a price of an accepted pair, published no more than the maximal age
before. -/
def Backed (k : Keeper) (history : ChainHistory k) (rec : AssetRecord) :
    Prop :=
  ∃ newer s ctx accepts msg past,
    history = newer ++ (s, .rwa ctx accepts (.attestAsset msg)) :: past ∧
      msg.assetId = rec.assetId ∧ rec.attestedAt = ctx.blockTime ∧
      rec.oraclePair ∈ (Oracle.getParams s.oracle).acceptList ∧
      ∃ entry ∈ past, ∃ price time,
        Published k entry rec.oraclePair price time ∧
          rec.attestedPrice = k.sdk.legacyDecString price ∧
          0 < price.raw ∧ time ≤ rec.attestedAt ∧
          rec.attestedAt - time ≤
            (Oracle.getParams s.oracle).maxPriceAge.toInt * 10 ^ 9

theorem Backed.later
    {k : Keeper} {history : ChainHistory k} {rec rec' : AssetRecord}
    (hbacked : Backed k history rec) (entry : ChainState × ChainStep k)
    (hid : rec'.assetId = rec.assetId)
    (hpair : rec'.oraclePair = rec.oraclePair)
    (hprice : rec'.attestedPrice = rec.attestedPrice)
    (htime : rec'.attestedAt = rec.attestedAt) :
    Backed k (entry :: history) rec' := by
  rcases hbacked with ⟨newer, s, ctx, accepts, msg, past, rfl, hrest⟩
  refine ⟨entry :: newer, s, ctx, accepts, msg, past, rfl, ?_⟩
  rw [hid, hpair, hprice, htime]
  exact hrest

theorem Published.time_mem
    {k : Keeper} {history : ChainHistory k}
    {entry : ChainState × ChainStep k} {pair : String} {price : LegacyDec}
    {time : Time} (hpublished : Published k entry pair price time)
    (hentry : entry ∈ history) :
    time ∈ history.filterMap fun entry => entry.2.time := by
  rcases hpublished.closed with
    ⟨ctx, staking, slashing, accepts, w, hblock, -, -, -, -, rfl⟩
  exact List.mem_filterMap.mpr ⟨entry, hentry, by rw [hblock]; rfl⟩

/-- A price which the oracle serves was published, recently enough. -/
theorem exists_published_of_getPrice
    {k : Keeper} {history : ChainHistory k} {s : ChainState} {ctx : Ctx}
    {pair : String} {price : LegacyDec}
    (hpublished : PricesPublished k history s)
    (hparams : (Oracle.getParams s.oracle).Valid k.sdk)
    (htimes : ∀ time ∈ history.filterMap fun entry => entry.2.time,
      time ≤ ctx.blockTime)
    (hprice : Oracle.getPrice k.sdk ctx s.oracle pair = .ok price) :
    pair ∈ (Oracle.getParams s.oracle).acceptList ∧
      ∃ entry ∈ history, ∃ time, Published k entry pair price time ∧
        0 < price.raw ∧ time ≤ ctx.blockTime ∧
        ctx.blockTime - time ≤
          (Oracle.getParams s.oracle).maxPriceAge.toInt * 10 ^ 9 := by
  rcases Oracle.getPrice_eq_ok_iff.mp hprice with
    ⟨haccepted, ap, hstored, hfresh, hparsed⟩
  rcases hpublished pair ap hstored with
    ⟨entry, hentry, median, hentry_published, htext, hpos⟩
  have hsame : median = price := by
    rw [htext, k.sdk.legacyDec_roundTrip, Except.ok.injEq] at hparsed
    exact hparsed
  subst hsame
  have horder := htimes _ (hentry_published.time_mem hentry)
  exact ⟨haccepted, entry, hentry, ap.blockTime, hentry_published, hpos,
    horder, Oracle.age_le_of_not_stale hparams.maxPriceAge_pos horder hfresh⟩

/-- What holds of every state of the chain. -/
structure Attested (k : Keeper) (history : ChainHistory k) (s : ChainState) :
    Prop where
  oracle_sound : Oracle.Sound k.sdk s.oracle
  records_sound : Rwa.RecordsSound k.sdk s.rwa
  published : PricesPublished k history s
  backed : ∀ assetID rec, Rwa.getAsset s.rwa assetID = some rec →
    rec.status ≠ .draft → Backed k history rec

theorem attested_of_initChain
    {k : Keeper} {ctx : Ctx} {staking : StakingView k.sdk}
    {gs : ChainGenesis} {start : ChainState}
    (hinit : initChain k ctx staking gs = .ok start)
    (hprices : gs.oracle.prices = []) (hassets : gs.rwa.assets = []) :
    Attested k [] start := by
  simp only [initChain, bind_eq_ok_iff, Exec.ofExcept_eq_ok_iff,
    pure_eq_ok_iff] at hinit
  rcases hinit with ⟨oracle, horacle, rwa, hrwa, fees, -, rfl⟩
  have hempty : ∀ assetID, Rwa.getAsset rwa assetID = none := by
    intro assetID
    rcases Rwa.imported_of_initGenesis hrwa with ⟨hvalid, himported⟩
    rw [Option.eq_none_iff_forall_ne_some]
    intro rec hget
    have hlisted := (himported.assets_iff hvalid.assets_nodup assetID rec).mp
      hget
    simp [hassets] at hlisted
  refine ⟨Oracle.sound_of_initGenesis horacle,
    Rwa.recordsSound_of_empty hempty, ?_, ?_⟩
  · intro pair ap hstored
    have hlisted :=
      ((Oracle.imported_of_initGenesis horacle).prices pair ap).mp hstored
    simp [hprices] at hlisted
  · intro assetID rec hget
    rw [hempty] at hget
    cases hget

/-- An rwa transaction backs the records which it attests and keeps the
backing of all others. -/
theorem Attested.backed_rwa
    {k : Keeper} {history : ChainHistory k} {s s' : ChainState} {ctx : Ctx}
    {accepts : Rwa.BankOp → Bool} {tx : RwaTx}
    (hattested : Attested k history s)
    (htimes : ∀ time ∈ history.filterMap fun entry => entry.2.time,
      time ≤ ctx.blockTime)
    (hstep : Rwa.rwaStep k (rwaStateOf s) (envAt k s ctx accepts, tx) =
      some (rwaStateOf s'))
    {assetID : String} {rec : AssetRecord}
    (hget : Rwa.getAsset s'.rwa assetID = some rec)
    (hstatus : rec.status ≠ .draft) :
    Backed k ((s, .rwa ctx accepts tx) :: history) rec := by
  have hlaw := Rwa.lawfulStep_of_step hstep assetID
  cases hold : Rwa.getAsset s.rwa assetID with
  | none => exact absurd (hlaw.registered hold rec hget) hstatus
  | some old =>
      rcases hlaw.moved old hold with ⟨new, hnew, harrow, honce⟩
      rcases Rwa.evolved_of_run hattested.records_sound
        (Run.next Run.start hstep) hold with ⟨new', hnew', hevolved⟩
      have hsame : new = rec := Option.some.inj (hnew.symm.trans hget)
      have hsame' : new' = rec := Option.some.inj (hnew'.symm.trans hget)
      subst hsame hsame'
      by_cases hdraft : old.status = .draft
      · have hmoved := Rwa.attested_of_arrow harrow hdraft hstatus
        rcases honce.written hdraft hmoved with
          ⟨msg, price, rfl, hprice, htext, htime⟩
        rcases exists_published_of_getPrice hattested.published
          hattested.oracle_sound.params_valid htimes hprice with
          ⟨haccepted, entry, hentry, time, hpublished, hpos, horder, hage⟩
        have hchanged : Rwa.assetView s'.rwa assetID ≠
            Rwa.assetView s.rwa assetID := by
          intro hview
          have hrecord := congrArg Rwa.AssetView.record hview
          simp only [Rwa.assetView, hget, hold, Option.some.injEq] at hrecord
          rw [hrecord] at hstatus
          exact hstatus hdraft
        rcases hlaw.caused hchanged with ⟨-, -, -, hwritten, -⟩
        have hid : msg.assetId = new'.assetId :=
          (Option.some.inj hwritten).trans (Rwa.getAsset_assetId hget).symm
        refine ⟨[], s, ctx, accepts, msg, history, rfl, hid, htime, ?_⟩
        rw [hevolved.oraclePair, htime]
        exact ⟨haccepted, entry, hentry, price, time, hpublished, htext, hpos,
          horder, hage⟩
      · have hkept := hevolved.attestation hdraft
        exact (hattested.backed assetID old hold hdraft).later _
          hevolved.assetId hevolved.oraclePair hkept.1 hkept.2

theorem Attested.step
    {k : Keeper} {history : ChainHistory k} {s s' : ChainState}
    {step : ChainStep k} (hattested : Attested k history s)
    (htimes : TimesOrdered ((s, step) :: history))
    (hstep : chainStep k s step = some s') :
    Attested k ((s, step) :: history) s' := by
  have hpublished := hattested.published.step hstep
  have hkept : s'.rwa = s.rwa → ∀ assetID rec,
      Rwa.getAsset s'.rwa assetID = some rec → rec.status ≠ .draft →
      Backed k ((s, step) :: history) rec := by
    intro hsame assetID rec hget hstatus
    rw [hsame] at hget
    exact (hattested.backed assetID rec hget hstatus).later _ rfl rfl rfl rfl
  rcases chainStep_cases hstep with ⟨ctx, accepts, tx, rfl, hsame, hrwa⟩ |
    ⟨part, -, hsame, horacle⟩ | ⟨hsame, hsame'⟩
  · refine ⟨by rw [hsame]; exact hattested.oracle_sound,
      hattested.records_sound.step hrwa, hpublished, ?_⟩
    intro assetID rec hget hstatus
    exact hattested.backed_rwa (List.pairwise_cons.mp htimes).1 hrwa hget
      hstatus
  · refine ⟨hattested.oracle_sound.effect (Oracle.effect_of_step horacle),
      by rw [hsame]; exact hattested.records_sound, hpublished, hkept hsame⟩
  · exact ⟨by rw [hsame]; exact hattested.oracle_sound,
      by rw [hsame']; exact hattested.records_sound, hpublished, hkept hsame'⟩

theorem TimesOrdered.older
    {k : Keeper} {history : ChainHistory k}
    {entry : ChainState × ChainStep k}
    (htimes : TimesOrdered (entry :: history)) : TimesOrdered history := by
  unfold TimesOrdered at htimes ⊢
  exact htimes.sublist ((List.sublist_cons_self entry history).filterMap _)

/-- From every genesis without prices and assets, along every run of the chain
with non-decreasing block times: a record which left the draft status carries
a positive price of its pair which the oracle's EndBlocker published no later
than the attestation and at most the maximal age before it, while the pair was
accepted. -/
theorem attestation_backed_by_fresh_price
    {k : Keeper} {ctx : Ctx} {staking : StakingView k.sdk}
    {gs : ChainGenesis} {start s : ChainState} {history : ChainHistory k}
    (hinit : initChain k ctx staking gs = .ok start)
    (hprices : gs.oracle.prices = []) (hassets : gs.rwa.assets = [])
    (hrun : Run (chainStep k) start history s)
    (htimes : TimesOrdered history)
    {assetID : String} {rec : AssetRecord}
    (hget : Rwa.getAsset s.rwa assetID = some rec)
    (hstatus : rec.status ≠ .draft) : Backed k history rec := by
  have hall : Attested k history s := by
    refine Run.induct_conditional
      (P := fun history s => TimesOrdered history → Attested k history s)
      (C := fun _ _ => True)
      (fun _ => attested_of_initChain hinit hprices hassets) ?_ hrun
      (fun _ _ => trivial) htimes
    intro history state label state' _ hstate _ hstep hordered
    exact (hstate hordered.older).step hordered hstep
  exact hall.backed assetID rec hget hstatus

/-! ## A price from feed to attestation -/

/-- No prices, no assets, and base coins for one issuer. -/
def issuerGenesis : ChainGenesis :=
  ⟨Oracle.singlePairGenesis, Rwa.defaultGenesis, Fees.defaultGenesis,
    Rwa.fundedState.bank⟩

def rwaTx (tx : RwaTx) : ChainStep referenceKeeper :=
  .rwa Oracle.boundaryCtx (fun _ => true) tx

/-- The issuer registers an asset on the pair of the two feeds and attests it
after the window was closed. -/
def attestSteps : List (ChainStep referenceKeeper) :=
  [rwaTx (.registerAsset ⟨Rwa.issuerText, "land", "Land", "", "VTX:USD",
      "10000000000"⟩),
    .submitFeed Oracle.boundaryCtx twoValidators (Oracle.firstFeed "1.5"),
    .submitFeed Oracle.boundaryCtx twoValidators (Oracle.secondFeed "1.5"),
    closeWindow, rwaTx Rwa.attestLand]

theorem attested_land_is_backed :
    ∃ start history s rec,
      initChain referenceKeeper Oracle.boundaryCtx twoValidators
          issuerGenesis = .ok start ∧
        Run (chainStep referenceKeeper) start history s ∧
        Rwa.getAsset s.rwa "land" = some rec ∧
        rec.attestedPrice = "1.500000000000000000" ∧
        Backed referenceKeeper history rec := by
  have hfacts : ((initChain referenceKeeper Oracle.boundaryCtx twoValidators
      issuerGenesis).toOption.any fun start =>
        (replay (chainStep referenceKeeper) [] start attestSteps).any fun r =>
          decide (TimesOrdered r.1) &&
            (Rwa.getAsset r.2.rwa "land").any fun rec =>
              decide (rec.status ≠ .draft) &&
                rec.attestedPrice == "1.500000000000000000") = true := by
    decide +kernel
  rcases exists_ok_of_any hfacts with ⟨start, hinit, hreplayed⟩
  rcases exists_some_of_any hreplayed with ⟨⟨history, s⟩, hreplay, hchecked⟩
  rw [Bool.and_eq_true, decide_eq_true_eq] at hchecked
  rcases exists_some_of_any hchecked.2 with ⟨rec, hget, hrecord⟩
  simp only [Bool.and_eq_true, decide_eq_true_eq, beq_iff_eq] at hrecord
  have hrun := run_of_replay Run.start hreplay
  exact ⟨start, history, s, rec, hinit, hrun, hget, hrecord.2,
    attestation_backed_by_fresh_price hinit rfl rfl hrun hchecked.1 hget
      hrecord.1⟩

end Chain
end Vertix
