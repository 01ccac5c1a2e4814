import Vertix.ChainAttestation
import Vertix.PublishedPrice
import Mathlib.Tactic

/-!
# From the price sources to the attested asset

The composed chain runs the oracle next to the asset registry, and a run of
the chain is a run of the oracle with the other steps left out.  A price that
the feeders of an honest power majority took from their sources is therefore
published inside the band of those sources, and a price that an asset record
carries as its attestation was published before.  Together they bound every
attested price by what the honest sources quoted in the window which published
it.
-/

namespace Vertix
namespace Chain

open Transition
open Feeder (HonestMajority HonestPublications Publication agreedPrice
  firstIsHonest firstLeads honestFeeders_of_rivals)
open Oracle (OracleStep priceValue)
open Rwa (AssetRecord)

/-! ## The oracle inside the chain -/

/-- The oracle steps of a history of the chain. -/
def oracleHistory {k : Keeper} (history : ChainHistory k) :
    Oracle.OracleHistory k :=
  history.filterMap fun entry =>
    entry.2.oraclePart.map fun part => (entry.1.oracle, part)

theorem chainStep_oracle
    {k : Keeper} {s s' : ChainState} {step : ChainStep k}
    (hstep : chainStep k s step = some s') :
    (step.oraclePart = none ∧ s'.oracle = s.oracle) ∨
      ∃ part, step.oraclePart = some part ∧
        Oracle.oracleStep k s.oracle part = some s'.oracle := by
  rcases chainStep_cases hstep with ⟨ctx, accepts, tx, rfl, hsame, -⟩ |
    ⟨part, hpart, -, hmoved⟩ | ⟨hsame, -⟩
  · exact .inl ⟨rfl, hsame⟩
  · exact .inr ⟨part, hpart, hmoved⟩
  · cases step with
    | rwa ctx accepts tx => exact .inl ⟨rfl, hsame⟩
    | updateFeesParams msg => exact .inl ⟨rfl, hsame⟩
    | setFeeder staking msg =>
        cases hstep
        exact .inr ⟨_, rfl, rfl⟩
    | submitFeed ctx staking msg =>
        cases hstep
        exact .inr ⟨_, rfl, rfl⟩
    | updateOracleParams msg =>
        cases hstep
        exact .inr ⟨_, rfl, rfl⟩
    | endBlock ctx staking slashing accepts =>
        refine .inr ⟨_, rfl, ?_⟩
        rw [chainStep, toOption_eq_some_iff] at hstep
        simp only [endBlock, bind_eq_ok_iff, pure_eq_ok_iff] at hstep
        obtain ⟨result, hresult, fees, -, rfl⟩ := hstep
        simp [Oracle.oracleStep, hresult]

theorem oracle_run
    {k : Keeper} {start s : ChainState} {history : ChainHistory k}
    (hrun : Run (chainStep k) start history s) :
    Run (Oracle.oracleStep k) start.oracle (oracleHistory history)
      s.oracle := by
  induction hrun with
  | start => exact Run.start
  | @next history before after step hbefore hstep ih =>
      rcases chainStep_oracle hstep with ⟨hnone, hsame⟩ |
        ⟨part, hpart, hmoved⟩
      · have hskip : oracleHistory ((before, step) :: history) =
            oracleHistory history := by
          simp [oracleHistory, hnone]
        rw [hskip, hsame]
        exact ih
      · have hkeep : oracleHistory ((before, step) :: history) =
            (before.oracle, part) :: oracleHistory history := by
          simp [oracleHistory, hpart]
        rw [hkeep]
        exact ih.next hmoved

theorem oracle_reached
    {k : Keeper} {ctx : Ctx} {staking : StakingView k.sdk}
    {gs : ChainGenesis} {start s : ChainState} {history : ChainHistory k}
    (hinit : initChain k ctx staking gs = .ok start)
    (hrun : Run (chainStep k) start history s) :
    Oracle.Reached k (oracleHistory history) s.oracle := by
  simp only [initChain, bind_eq_ok_iff, Exec.ofExcept_eq_ok_iff,
    pure_eq_ok_iff] at hinit
  obtain ⟨oracle, horacle, rwa, -, fees, -, rfl⟩ := hinit
  exact ⟨ctx, staking, gs.oracle, oracle, horacle, oracle_run hrun⟩

/-! ## Honest sources -/

section Published

variable {k : Keeper} {ctx : Ctx} {staking : StakingView k.sdk}
  {gs : ChainGenesis} {start s : ChainState} {history : ChainHistory k}
  {honest : Address → Bool} {pair : String}

/-- What the chain publishes is a publication of its oracle. -/
theorem exists_publication
    {entry : ChainState × ChainStep k} (hentry : entry ∈ history)
    {price : LegacyDec} {time : Time}
    (hpublished : Published k entry pair price time) :
    ∃ older w, Publication k (oracleHistory history) pair older
        entry.1.oracle w ∧ w.ctx.blockTime = time ∧
      price = Oracle.weightedMedian (w.countedFeeds entry.1.oracle pair) := by
  obtain ⟨ctx, staking, slashing, accepts, w, hstep, hboundary, hopen,
    hqualifies, hprice, rfl⟩ := hpublished.closed
  obtain ⟨hctx, -, hparams, -⟩ := Oracle.openWindow_eq_ok_iff.mp hopen
  subst hctx
  obtain ⟨newer, older, rfl⟩ := List.append_of_mem hentry
  refine ⟨oracleHistory older, w,
    ⟨⟨oracleHistory newer, staking, ?_, hopen⟩, hboundary, ?_, hqualifies⟩,
    rfl, hprice⟩
  · simp [oracleHistory, hstep, ChainStep.oraclePart]
  · rw [hparams]
    exact hpublished.accepted

/-- A price the chain publishes lies in the band of its block. -/
theorem published_within
    (hinit : initChain k ctx staking gs = .ok start)
    (hrun : Run (chainStep k) start history s)
    {times : Time → Prop} {band : Time → ℚ × ℚ}
    (hhonest : HonestPublications k honest pair times band
      (oracleHistory history))
    {entry : ChainState × ChainStep k} (hentry : entry ∈ history)
    {price : LegacyDec} {time : Time}
    (hpublished : Published k entry pair price time) (htime : times time) :
    (band time).1 ≤ priceValue price ∧ priceValue price ≤ (band time).2 := by
  obtain ⟨older, w, hpublication, rfl, rfl⟩ :=
    exists_publication hentry hpublished
  exact hpublication.median_within (oracle_reached hinit hrun) hhonest htime

theorem attested_of_run
    (hinit : initChain k ctx staking gs = .ok start)
    (hprices : gs.oracle.prices = []) (hassets : gs.rwa.assets = [])
    (hrun : Run (chainStep k) start history s)
    (htimes : TimesOrdered history) : Attested k history s := by
  induction hrun with
  | start => exact attested_of_initChain hinit hprices hassets
  | next hbefore hstep ih => exact (ih htimes.older).step htimes hstep

end Published

/-- Take a run of the chain from a genesis without prices and assets, with
block times that never decrease, and an asset that has been attested.  If
honest validators held the power at the boundaries that published its pair up
to then, with sources in the band of each boundary, the attested price lies in
the band of the boundary that published it, which is at most the maximal price
age before the attestation. -/
theorem attested_price_within_sources
    {k : Keeper} {ctx : Ctx} {staking : StakingView k.sdk}
    {gs : ChainGenesis} {start s : ChainState} {history : ChainHistory k}
    {honest : Address → Bool} {band : Time → ℚ × ℚ}
    (hinit : initChain k ctx staking gs = .ok start)
    (hprices : gs.oracle.prices = []) (hassets : gs.rwa.assets = [])
    (hrun : Run (chainStep k) start history s)
    (htimes : TimesOrdered history)
    {assetID : String} {rec : AssetRecord}
    (hget : Rwa.getAsset s.rwa assetID = some rec)
    (hstatus : rec.status ≠ .draft)
    (hhonest : HonestPublications k honest rec.oraclePair
      (fun time => time ≤ rec.attestedAt) band (oracleHistory history)) :
    ∃ before ctx' accepts msg price time,
      (before, .rwa ctx' accepts (.attestAsset msg)) ∈ history ∧
      msg.assetId = rec.assetId ∧ ctx'.blockTime = rec.attestedAt ∧
      rec.attestedPrice = k.sdk.legacyDecString price ∧
      (∃ entry ∈ history, Published k entry rec.oraclePair price time) ∧
      time ≤ rec.attestedAt ∧
      rec.attestedAt - time ≤
        (Oracle.getParams before.oracle).maxPriceAge.toInt * 10 ^ 9 ∧
      (band time).1 ≤ priceValue price ∧
      priceValue price ≤ (band time).2 := by
  obtain ⟨newer, before, ctx', accepts, msg, past, rfl, hid, hat, -, entry,
    hentry, price, time, hpublished, htext, -, horder, hage⟩ :=
    (attested_of_run hinit hprices hassets hrun htimes).backed assetID rec
      hget hstatus
  have hmem : entry ∈ newer ++
      (before, .rwa ctx' accepts (.attestAsset msg)) :: past :=
    List.mem_append_right newer (List.mem_cons_of_mem _ hentry)
  exact ⟨before, ctx', accepts, msg, price, time,
    List.mem_append_right newer List.mem_cons_self, hid, hat.symm, htext,
    ⟨entry, hmem, hpublished⟩, horder, hage,
    published_within hinit hrun hhonest hmem hpublished horder⟩

/-! ## An asset on an honest pair -/

/-- An honest and a dishonest validator report before the asset is attested. -/
def rivalAttestSteps : List (ChainStep referenceKeeper) :=
  [rwaTx (.registerAsset ⟨Rwa.issuerText, "land", "Land", "", "VTX:USD",
      "10000000000"⟩),
    .submitFeed Oracle.boundaryCtx firstLeads (Oracle.firstFeed agreedPrice),
    .submitFeed Oracle.boundaryCtx firstLeads (Oracle.secondFeed "5.0"),
    .endBlock Oracle.boundaryCtx firstLeads fractionSlashing fun _ => true,
    rwaTx Rwa.attestLand]

/-- The oracle steps of a replayed run are those among its labels. -/
theorem oraclePart_mem_of_replay
    {k : Keeper} {steps : List (ChainStep k)} {start s : ChainState}
    {history : ChainHistory k}
    (hreplay : replay (chainStep k) [] start steps = some (history, s))
    {entry : Oracle.OracleStore × OracleStep k}
    (hmem : entry ∈ oracleHistory history) :
    entry.2 ∈ steps.filterMap ChainStep.oraclePart := by
  obtain ⟨chainEntry, hentry, hpart⟩ := List.mem_filterMap.mp hmem
  rw [Option.map_eq_some_iff] at hpart
  obtain ⟨part, hpart, rfl⟩ := hpart
  exact List.mem_filterMap.mpr
    ⟨chainEntry.2, label_mem_of_replay hreplay hentry, hpart⟩

theorem rivalAttestSteps_oracle :
    rivalAttestSteps.filterMap ChainStep.oraclePart =
      [.submitFeed Oracle.boundaryCtx firstLeads
          (Oracle.firstFeed agreedPrice),
        .submitFeed Oracle.boundaryCtx firstLeads (Oracle.secondFeed "5.0"),
        .endBlock Oracle.boundaryCtx firstLeads] :=
  rfl

theorem rivalAttestSteps_message {history : ChainHistory referenceKeeper}
    {start s : ChainState}
    (hreplay : replay (chainStep referenceKeeper) [] start rivalAttestSteps =
      some (history, s))
    {before : Oracle.OracleStore} {ctx : Ctx}
    {staking : StakingView referenceSdk} {msg : Oracle.MsgSubmitFeed}
    (hmem : (before, OracleStep.submitFeed ctx staking msg) ∈
      oracleHistory history) :
    Feeder.IsRivalFeed msg := by
  have hlabel := oraclePart_mem_of_replay hreplay hmem
  simp only [rivalAttestSteps_oracle, List.mem_cons, reduceCtorEq,
    List.not_mem_nil, or_false] at hlabel
  rcases hlabel with hlabel | hlabel <;> cases hlabel
  · exact .inl rfl
  · exact .inr rfl

theorem land_attested_in_band :
    ∃ start history s rec price time,
      initChain referenceKeeper Oracle.boundaryCtx firstLeads
          issuerGenesis = .ok start ∧
        Run (chainStep referenceKeeper) start history s ∧
        history.map Prod.snd = rivalAttestSteps.reverse ∧
        Rwa.getAsset s.rwa "land" = some rec ∧
        rec.attestedPrice = referenceSdk.legacyDecString price ∧
        time ≤ rec.attestedAt ∧
        1 ≤ priceValue price ∧ priceValue price ≤ 51 / 50 := by
  have hfacts : ((initChain referenceKeeper Oracle.boundaryCtx firstLeads
      issuerGenesis).toOption.any fun start =>
        (replay (chainStep referenceKeeper) [] start rivalAttestSteps).any
          fun r => decide (TimesOrdered r.1) &&
            ((oracleHistory r.1).all fun entry =>
              (Oracle.openWindow referenceKeeper.sdk Oracle.boundaryCtx
                firstLeads (Oracle.getParams entry.1)).toOption.all fun w =>
                decide (w.Qualifies entry.1 "VTX:USD" →
                  HonestMajority referenceKeeper firstIsHonest
                    (w.countedFeeds entry.1 "VTX:USD"))) &&
            (Rwa.getAsset r.2.rwa "land").any fun rec =>
              decide (rec.status ≠ .draft) &&
                rec.oraclePair == "VTX:USD") = true := by
    decide +kernel
  obtain ⟨start, hinit, hreplayed⟩ := exists_ok_of_any hfacts
  obtain ⟨⟨history, s⟩, hreplay, hchecked⟩ := exists_some_of_any hreplayed
  simp only [Bool.and_eq_true, decide_eq_true_eq, List.all_eq_true,
    Option.all_eq_true, toOption_eq_some_iff] at hchecked
  obtain ⟨⟨htimes, hmajority⟩, hland⟩ := hchecked
  obtain ⟨rec, hget, hrecord⟩ := exists_some_of_any hland
  simp only [Bool.and_eq_true, decide_eq_true_eq, beq_iff_eq] at hrecord
  have hrun := run_of_replay Run.start hreplay
  have hlabels : history.map Prod.snd = rivalAttestSteps.reverse :=
    labels_of_replay hreplay
  have hhonest : HonestPublications referenceKeeper firstIsHonest "VTX:USD"
      (fun time => time ≤ rec.attestedAt) (fun _ => (1, 51 / 50))
      (oracleHistory history) := by
    intro older before w hpublication _
    obtain ⟨newer, staking, hsplit, hopen⟩ := hpublication.closed
    have hpast : ∀ entry ∈ (before, OracleStep.endBlock w.ctx staking) ::
        older, entry ∈ oracleHistory history := by
      intro entry hentry
      rw [hsplit]
      exact List.mem_append_right newer hentry
    refine ⟨honestFeeders_of_rivals fun _ _ _ _ hmem =>
      rivalAttestSteps_message hreplay
        (hpast _ (List.mem_cons_of_mem _ hmem)), ?_⟩
    have hmem := hpast _ List.mem_cons_self
    have hlabel := oraclePart_mem_of_replay hreplay hmem
    simp only [rivalAttestSteps_oracle, List.mem_cons, reduceCtorEq,
      List.not_mem_nil, false_or, or_false] at hlabel
    obtain ⟨hctx, rfl⟩ := OracleStep.endBlock.inj hlabel
    rw [hctx] at hopen
    exact hmajority _ hmem w hopen hpublication.qualifies
  obtain ⟨before, ctx, accepts, msg, price, time, -, -, -, htext, -, horder, -,
    hband⟩ := attested_price_within_sources hinit rfl rfl hrun htimes hget
      hrecord.1 (hrecord.2.symm ▸ hhonest)
  exact ⟨start, history, s, rec, price, time, hinit, hrun, hlabels, hget,
    htext, horder, hband⟩

end Chain
end Vertix
