import Vertix.OracleMajority
import Vertix.OracleWindow
import Mathlib.Tactic

/-!
# Raised prices never lower the published price

The published price is a weighted quantile: it is at most a level exactly when
the submissions up to that level carry half of the submitted power, rounded
down, and at least one submission.  Raising submissions takes power away from
below every level, so the quantile can only rise.  A validator can thus move
the published price only towards its own submission.
-/

namespace Vertix
namespace Oracle

open OrderStatistics Transition

/-! ## The quantile -/

theorem weightedMedian_le_iff
    {entries : List WeightedPrice} (hne : entries ≠ [])
    (hweight : ∀ e ∈ entries, 0 < e.weightInt)
    (hfits : totalPower entries < 2 ^ 63) (level : ℚ) :
    priceValue (weightedMedian entries) ≤ level ↔
      max (totalPower entries / 2) 1 ≤ powerUpTo entries level := by
  obtain ⟨e, hselect, hmedian⟩ := exists_select_weightedMedian hne
    (fun e he => (hweight e he).le) hfits
  have hsortedWeight : ∀ e ∈ entries.insertionSort WeightedPrice.before,
      0 < e.weightInt := fun e he =>
    hweight e ((List.perm_insertionSort _ entries).mem_iff.mp he)
  have hquantile := key_select_le_iff hsortedWeight
    (pairwise_value_le entries) hselect level
  have hpower : powerUpTo (entries.insertionSort WeightedPrice.before) level =
      powerUpTo entries level := totalPower_filter_sorted entries _
  rw [hmedian, ← hpower]
  exact hquantile

/-- One list of submissions is another one with some prices raised. -/
abbrev Raises : List WeightedPrice → List WeightedPrice → Prop :=
  List.Forall₂ fun e e' => e.weightInt = e'.weightInt ∧ e.value ≤ e'.value

theorem weightedMedian_mono
    {entries entries' : List WeightedPrice} (hraises : Raises entries entries')
    (hne : entries ≠ []) (hweight : ∀ e ∈ entries, 0 < e.weightInt)
    (hweight' : ∀ e ∈ entries', 0 < e.weightInt)
    (hfits : totalPower entries < 2 ^ 63) :
    priceValue (weightedMedian entries) ≤
      priceValue (weightedMedian entries') := by
  have htotal : totalPower entries = totalPower entries' :=
    totalWeight_eq_of_forall₂ hraises
  have hne' : entries' ≠ [] := by
    rintro rfl
    cases hraises
    exact hne rfl
  rw [weightedMedian_le_iff hne hweight hfits, htotal]
  calc max (totalPower entries' / 2) 1
      ≤ powerUpTo entries' (priceValue (weightedMedian entries')) :=
        (weightedMedian_le_iff hne' hweight' (htotal ▸ hfits) _).mp le_rfl
    _ ≤ powerUpTo entries (priceValue (weightedMedian entries')) :=
        weightUpTo_anti_of_forall₂ hraises
          (fun e he => (hweight e he).le) _

/-! ## Two windows -/

/-- Both windows hold submissions of the same validators for the pair, and
those of the second are nowhere lower. -/
structure FeedsRaised (k : Keeper) (pair : String)
    (history history' : List (OracleStore × OracleStep k)) : Prop where
  same : ∀ val, (latestPrice k val pair history).isSome =
    (latestPrice k val pair history').isSome
  raised : ∀ val text text', latestPrice k val pair history = some text →
    latestPrice k val pair history' = some text' →
    ∃ price price', k.sdk.legacyNewDecFromStr text = .ok price ∧
      k.sdk.legacyNewDecFromStr text' = .ok price' ∧ price.raw ≤ price'.raw

section Windows

variable {k : Keeper} {history history' : List (OracleStore × OracleStep k)}
  {pair : String} {staking : StakingView k.sdk}

/-- A submission keeps its validator and its weight when only the reported
texts differ. -/
theorem exists_windowSubmission_of_latest {R : LegacyDec → LegacyDec → Prop}
    (hlatest : ∀ val text price, latestPrice k val pair history = some text →
      k.sdk.legacyNewDecFromStr text = .ok price →
      ∃ text' price', latestPrice k val pair history' = some text' ∧
        k.sdk.legacyNewDecFromStr text' = .ok price' ∧ R price price')
    {v : Validator} {e : WeightedPrice}
    (hcounted : windowSubmission k staking history pair v = some e) :
    ∃ e', windowSubmission k staking history' pair v = some e' ∧
      e'.weight = e.weight ∧ R e.price e'.price := by
  obtain ⟨hbonded, hoper, val, text, hval, htext, hprice, hpower, hnonzero⟩ :=
    windowSubmission_eq_some_iff.mp hcounted
  obtain ⟨text', price', htext', hprice', hrelated⟩ :=
    hlatest val text e.price htext hprice
  refine ⟨⟨price', e.weight, e.valoper⟩, ?_, rfl, hrelated⟩
  exact windowSubmission_eq_some_iff.mpr
    ⟨hbonded, hoper, val, text', hval, htext', hprice', hpower, hnonzero⟩

theorem windowSubmission_raised (hraised : FeedsRaised k pair history history')
    (v : Validator) :
    Option.Rel (fun e e' : WeightedPrice =>
        e.weightInt = e'.weightInt ∧ e.value ≤ e'.value)
      (windowSubmission k staking history pair v)
      (windowSubmission k staking history' pair v) := by
  cases hcounted : windowSubmission k staking history pair v with
  | some e =>
      obtain ⟨e', hcounted', hweight, hle⟩ :=
        exists_windowSubmission_of_latest
          (R := fun price price' => price.raw ≤ price'.raw)
          (fun val text price htext hprice => by
            obtain ⟨text', htext'⟩ := Option.isSome_iff_exists.mp
              ((hraised.same val).symm.trans (by rw [htext]; rfl))
            obtain ⟨p, p', hp, hp', hle⟩ :=
              hraised.raised val text text' htext htext'
            cases Except.ok.inj (hprice.symm.trans hp)
            exact ⟨text', p', htext', hp', hle⟩) hcounted
      rw [hcounted']
      exact .some ⟨congrArg Int64.toInt hweight.symm,
        priceValue_le_iff.mpr hle⟩
  | none =>
      cases hcounted' : windowSubmission k staking history' pair v with
      | none => exact .none
      | some e' =>
          obtain ⟨e, hsome, -⟩ := exists_windowSubmission_of_latest
            (R := fun _ _ => True)
            (fun val text' price' htext' hprice' => by
              obtain ⟨text, htext⟩ := Option.isSome_iff_exists.mp
                ((hraised.same val).trans (by rw [htext']; rfl))
              obtain ⟨p, p', hp, -⟩ :=
                hraised.raised val text text' htext htext'
              exact ⟨text, p, htext, hp, trivial⟩) hcounted'
          rw [hcounted] at hsome
          cases hsome

theorem windowSubmissions_raised
    (hraised : FeedsRaised k pair history history') (vals : List Validator) :
    Raises (windowSubmissions k staking history vals pair)
      (windowSubmissions k staking history' vals pair) :=
  List.rel_filterMap (fun {v v'} (hsame : v = v') =>
    hsame ▸ windowSubmission_raised hraised v)
    (List.forall₂_same.mpr fun _ _ => rfl)

theorem windowSubmissions_weight_pos (vals : List Validator) :
    ∀ e ∈ windowSubmissions k staking history vals pair, 0 < e.weightInt := by
  intro e he
  obtain ⟨v, -, hcounted⟩ := List.mem_filterMap.mp he
  obtain ⟨-, -, val, text, -, -, -, hpower, hnonzero⟩ :=
    windowSubmission_eq_some_iff.mp hcounted
  refine lt_of_le_of_ne (staking.power_nonneg _ _ hpower) fun hzero => ?_
  exact hnonzero (Int64.toInt_inj.mp hzero.symm)

variable {store store' : OracleStore} {ctx : Ctx} {w : Window k.sdk}
  {result result' : OracleStore × List SlashCall}

/-- What a boundary stores for a pair with a quorum. -/
theorem storedPrice_of_endBlocker (hreached : Reached k history store)
    (hboundary : ctx.blockHeight % (getParams store).voteWindow = 0)
    (hcall : endBlocker k ctx staking store = .ok result)
    (hopen : openWindow k.sdk ctx staking (getParams store) = .ok w)
    (hpair : pair ∈ w.params.acceptList)
    (hquorum : WindowQuorum w history pair) :
    storedPrice result.1 pair = some ⟨pair,
      k.sdk.legacyDecString (weightedMedian
        (windowSubmissions k staking history w.vals pair)),
      ctx.blockHeight, ctx.blockTime⟩ := by
  rcases endBlocker_cases hcall with ⟨hinside, -⟩ | ⟨-, w', hopen', hclose⟩
  · exact absurd hboundary hinside
  rw [hopen, Except.ok.injEq] at hopen'
  subst hopen'
  obtain ⟨hctx, -⟩ := openWindow_eq_ok_iff.mp hopen
  have hqualifies :=
    (windowQuorum_iff_qualifies hreached hopen pair).mp hquorum
  rw [storedPrice_eq_some_iff,
    (Window.closed_of_close hclose).published pair hpair hqualifies,
    Window.publishedPrice, hctx,
    weightedMedian_perm (countedFeeds_perm_windowSubmissions hreached hopen pair)
      (w.countedFeeds_valoper_nodup store pair)]

theorem windowQuorum_raised (hstaking : w.staking = staking)
    (hraised : FeedsRaised k pair history history') :
    WindowQuorum w history pair ↔ WindowQuorum w history' pair := by
  have hraises : Raises (windowSubmissions k staking history w.vals pair)
      (windowSubmissions k staking history' w.vals pair) :=
    windowSubmissions_raised hraised w.vals
  have hpower : Window.submittedPower
        (windowSubmissions k staking history w.vals pair) =
      Window.submittedPower
        (windowSubmissions k staking history' w.vals pair) :=
    totalWeight_eq_of_forall₂ hraises
  rw [WindowQuorum, WindowQuorum, hstaking, hpower, ← List.length_pos_iff,
    ← List.length_pos_iff, hraises.length_eq]

/-- If the submissions for a pair are raised and nothing else changes, the
pair is published as before and its price is nowhere lower. -/
theorem raised_feeds_never_lower_price
    (hreached : Reached k history store)
    (hreached' : Reached k history' store')
    (hparams : getParams store' = getParams store)
    (hboundary : ctx.blockHeight % (getParams store).voteWindow = 0)
    (hcall : endBlocker k ctx staking store = .ok result)
    (hcall' : endBlocker k ctx staking store' = .ok result')
    (hopen : openWindow k.sdk ctx staking (getParams store) = .ok w)
    (hpair : pair ∈ w.params.acceptList)
    (hraised : FeedsRaised k pair history history') :
    (WindowQuorum w history pair ↔ WindowQuorum w history' pair) ∧
      (WindowQuorum w history pair → ∃ median median',
        storedPrice result.1 pair = some ⟨pair,
          k.sdk.legacyDecString median, ctx.blockHeight, ctx.blockTime⟩ ∧
        storedPrice result'.1 pair = some ⟨pair,
          k.sdk.legacyDecString median', ctx.blockHeight, ctx.blockTime⟩ ∧
        median.raw ≤ median'.raw) := by
  obtain ⟨-, hstaking, -⟩ := openWindow_eq_ok_iff.mp hopen
  have hiff := windowQuorum_raised hstaking hraised
  refine ⟨hiff, fun hquorum => ?_⟩
  have hraises : Raises (windowSubmissions k staking history w.vals pair)
      (windowSubmissions k staking history' w.vals pair) :=
    windowSubmissions_raised hraised w.vals
  have hfits := submittedPower_lt_of_quorumMet hquorum.2
  have hne := hquorum.1
  rw [hstaking] at hfits hne
  refine ⟨_, _,
    storedPrice_of_endBlocker hreached hboundary hcall hopen hpair hquorum,
    storedPrice_of_endBlocker hreached' (hparams ▸ hboundary) hcall'
      (hparams ▸ hopen) hpair (hiff.mp hquorum), ?_⟩
  exact priceValue_le_iff.mp (weightedMedian_mono hraises hne
    (windowSubmissions_weight_pos w.vals)
    (windowSubmissions_weight_pos w.vals) hfits)

end Windows

/-! ## Two submissions, the lower one raised -/

def twoFeeds (start middle : OracleStore) (first second : String) :
    List (OracleStore × OracleStep referenceKeeper) :=
  [(middle, .submitFeed boundaryCtx twoValidators (secondFeed second)),
    (start, .submitFeed boundaryCtx twoValidators (firstFeed first))]

theorem reached_twoFeeds {start middle store : OracleStore}
    {first second : String}
    (hinit : initGenesis referenceKeeper boundaryCtx twoValidators
      TypedStore.empty singlePairGenesis = .ok start)
    (hfirst : submitFeed referenceKeeper boundaryCtx twoValidators start
      (firstFeed first) = .ok middle)
    (hsecond : submitFeed referenceKeeper boundaryCtx twoValidators middle
      (secondFeed second) = .ok store) :
    Reached referenceKeeper (twoFeeds start middle first second) store := by
  have hstep₁ : oracleStep referenceKeeper start (.submitFeed boundaryCtx
      twoValidators (firstFeed first)) = some middle := by
    simp [oracleStep, hfirst, commit]
  have hstep₂ : oracleStep referenceKeeper middle (.submitFeed boundaryCtx
      twoValidators (secondFeed second)) = some store := by
    simp [oracleStep, hsecond, commit]
  exact ⟨_, _, _, _, hinit, Run.next (Run.next Run.start hstep₁) hstep₂⟩

theorem operators_decoded (first second : String) :
    referenceKeeper.sdk.valAddressFromBech32 (firstFeed first).validator =
        .ok (addressOf 1) ∧
      referenceKeeper.sdk.valAddressFromBech32 (secondFeed second).validator =
        .ok (addressOf 2) := by
  constructor <;> simp only [firstFeed, secondFeed] <;> decide +kernel

theorem latestPrice_twoFeeds {start middle store : OracleStore}
    {first second : String}
    (hfirst : submitFeed referenceKeeper boundaryCtx twoValidators start
      (firstFeed first) = .ok middle)
    (hsecond : submitFeed referenceKeeper boundaryCtx twoValidators middle
      (secondFeed second) = .ok store) (val : Address) :
    latestPrice referenceKeeper val "VTX:USD"
        (twoFeeds start middle first second) =
      if addressOf 2 = val then some second
      else if addressOf 1 = val then some first else none := by
  obtain ⟨hone, htwo⟩ := operators_decoded first second
  simp only [twoFeeds, latestPrice, hfirst, hsecond, hone, htwo,
    Except.ok.injEq]
  simp [Except.isOk, Except.toBool, firstFeed, secondFeed]

theorem feedsRaised_twoFeeds {start middle middle' store store' : OracleStore}
    (hfirst : submitFeed referenceKeeper boundaryCtx twoValidators start
      (firstFeed "1.0") = .ok middle)
    (hsecond : submitFeed referenceKeeper boundaryCtx twoValidators middle
      (secondFeed "1.2") = .ok store)
    (hfirst' : submitFeed referenceKeeper boundaryCtx twoValidators start
      (firstFeed "1.1") = .ok middle')
    (hsecond' : submitFeed referenceKeeper boundaryCtx twoValidators middle'
      (secondFeed "1.2") = .ok store') :
    FeedsRaised referenceKeeper "VTX:USD" (twoFeeds start middle "1.0" "1.2")
      (twoFeeds start middle' "1.1" "1.2") := by
  have hvalues : ∃ low mid high,
      referenceKeeper.sdk.legacyNewDecFromStr "1.0" = .ok low ∧
        referenceKeeper.sdk.legacyNewDecFromStr "1.1" = .ok mid ∧
        referenceKeeper.sdk.legacyNewDecFromStr "1.2" = .ok high ∧
        low.raw ≤ mid.raw := by
    have hfacts : (referenceKeeper.sdk.legacyNewDecFromStr
        "1.0").toOption.any (fun low =>
          (referenceKeeper.sdk.legacyNewDecFromStr "1.1").toOption.any
            fun mid =>
              (referenceKeeper.sdk.legacyNewDecFromStr "1.2").toOption.any
                fun _ => decide (low.raw ≤ mid.raw)) = true := by
      decide +kernel
    obtain ⟨low, hlow, hmore⟩ := exists_ok_of_any hfacts
    obtain ⟨mid, hmid, hrest⟩ := exists_ok_of_any hmore
    obtain ⟨high, hhigh, hle⟩ := exists_ok_of_any hrest
    exact ⟨low, mid, high, hlow, hmid, hhigh, of_decide_eq_true hle⟩
  obtain ⟨low, mid, high, hlow, hmid, hhigh, hle⟩ := hvalues
  constructor
  · intro val
    rw [latestPrice_twoFeeds hfirst hsecond,
      latestPrice_twoFeeds hfirst' hsecond']
    split_ifs <;> rfl
  · intro val text text' htext htext'
    rw [latestPrice_twoFeeds hfirst hsecond] at htext
    rw [latestPrice_twoFeeds hfirst' hsecond'] at htext'
    split_ifs at htext htext' with htwo hone
    · cases htext
      cases htext'
      exact ⟨high, high, hhigh, hhigh, le_rfl⟩
    · cases htext
      cases htext'
      exact ⟨low, mid, hlow, hmid, hle⟩

/-- The first validator reports `1.1` in place of `1.0`. -/
theorem raised_report_published :
    ∃ store store' result result' median median',
      endBlocker referenceKeeper boundaryCtx twoValidators store =
          .ok result ∧
        endBlocker referenceKeeper boundaryCtx twoValidators store' =
          .ok result' ∧
        storedPrice result.1 "VTX:USD" = some ⟨"VTX:USD",
          referenceKeeper.sdk.legacyDecString median, 10,
          1700000000000000000⟩ ∧
        storedPrice result'.1 "VTX:USD" = some ⟨"VTX:USD",
          referenceKeeper.sdk.legacyDecString median', 10,
          1700000000000000000⟩ ∧
        median.raw ≤ median'.raw := by
  have hrun : (initGenesis referenceKeeper boundaryCtx twoValidators
      TypedStore.empty singlePairGenesis).toOption.any (fun start =>
        (submitFeed referenceKeeper boundaryCtx twoValidators start
          (firstFeed "1.0")).toOption.any fun middle =>
        (submitFeed referenceKeeper boundaryCtx twoValidators middle
          (secondFeed "1.2")).toOption.any fun store =>
        (submitFeed referenceKeeper boundaryCtx twoValidators start
          (firstFeed "1.1")).toOption.any fun middle' =>
        (submitFeed referenceKeeper boundaryCtx twoValidators middle'
          (secondFeed "1.2")).toOption.any fun store' =>
        (endBlocker referenceKeeper boundaryCtx twoValidators
          store).toOption.any fun _ =>
        (endBlocker referenceKeeper boundaryCtx twoValidators
          store').toOption.any fun _ =>
        (openWindow referenceKeeper.sdk boundaryCtx twoValidators
          (getParams store)).toOption.any fun w =>
            decide (boundaryCtx.blockHeight %
              (getParams store).voteWindow = 0) &&
            decide (getParams store' = getParams store) &&
            w.params.acceptList.contains "VTX:USD" &&
            decide (w.Qualifies store "VTX:USD")) = true := by
    decide +kernel
  obtain ⟨start, hinit, hrun⟩ := exists_ok_of_any hrun
  obtain ⟨middle, hfirst, hrun⟩ := exists_ok_of_any hrun
  obtain ⟨store, hsecond, hrun⟩ := exists_ok_of_any hrun
  obtain ⟨middle', hfirst', hrun⟩ := exists_ok_of_any hrun
  obtain ⟨store', hsecond', hrun⟩ := exists_ok_of_any hrun
  obtain ⟨result, hresult, hrun⟩ := exists_ok_of_any hrun
  obtain ⟨result', hresult', hrun⟩ := exists_ok_of_any hrun
  obtain ⟨w, hopen, hfacts⟩ := exists_ok_of_any hrun
  simp only [Bool.and_eq_true, decide_eq_true_eq, List.contains_iff_mem]
    at hfacts
  obtain ⟨⟨⟨hboundary, hparams⟩, hpair⟩, hqualifies⟩ := hfacts
  have hreached := reached_twoFeeds hinit hfirst hsecond
  have hquorum := (windowQuorum_iff_qualifies hreached hopen _).mpr hqualifies
  obtain ⟨median, median', hprice, hprice', hle⟩ :=
    (raised_feeds_never_lower_price hreached
      (reached_twoFeeds hinit hfirst' hsecond') hparams hboundary hresult
      hresult' hopen hpair
      (feedsRaised_twoFeeds hfirst hsecond hfirst' hsecond')).2 hquorum
  exact ⟨store, store', result, result', median, median', hresult, hresult',
    hprice, hprice', hle⟩

end Oracle
end Vertix
