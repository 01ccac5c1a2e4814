import Vertix.RwaRestart
import Vertix.RwaSupply
import Mathlib.Logic.Relation
import Mathlib.Tactic

/-!
# The lifecycle of an asset

A record moves from draft to attested, active and settled, one arrow at a time,
and keeps its identity on the way.  Its attestation is written with the first
arrow, and nothing about an asset changes after the last one.  Only the issuer
moves an asset, apart from a bond slash by the authority.
-/

namespace Vertix
namespace Rwa

open Transition

/-- The arrows of the state diagram. -/
inductive AssetStatus.Next : AssetStatus → AssetStatus → Prop
  | attest : Next .draft .attested
  | mint : Next .attested .active
  | settle : Next .active .settled

/-- What a later record of the same asset has in common with an earlier
one. -/
structure Evolved (sdk : Sdk) (old new : AssetRecord) : Prop where
  status : Relation.ReflTransGen AssetStatus.Next old.status new.status
  assetId : new.assetId = old.assetId
  issuer : new.issuer = old.issuer
  name : new.name = old.name
  description : new.description = old.description
  oraclePair : new.oraclePair = old.oraclePair
  denom : new.denom = old.denom
  createdAt : new.createdAt = old.createdAt
  attestation : old.status ≠ .draft →
    new.attestedPrice = old.attestedPrice ∧ new.attestedAt = old.attestedAt
  notional : ∃ before after,
    sdk.newIntFromString old.notionalMinted = some before ∧
      sdk.newIntFromString new.notionalMinted = some after ∧
      before.raw ≤ after.raw

theorem Evolved.refl {sdk : Sdk} {rec : AssetRecord}
    (hsound : RecordSound sdk rec) : Evolved sdk rec rec := by
  rcases hsound.notional_nonneg with ⟨minted, hminted, -⟩
  exact ⟨.refl, rfl, rfl, rfl, rfl, rfl, rfl, rfl, fun _ => ⟨rfl, rfl⟩,
    minted, minted, hminted, hminted, le_rfl⟩

theorem AssetStatus.Next.ne_draft {status status' : AssetStatus}
    (hnext : Next status status') : status' ≠ .draft := by
  cases hnext <;> decide

/-- A draft is left by the attestation only. -/
theorem attested_of_arrow {old new : AssetStatus}
    (harrow : Relation.ReflGen AssetStatus.Next old new)
    (hdraft : old = .draft) (hleft : new ≠ .draft) : new = .attested := by
  subst hdraft
  cases harrow with
  | refl => exact absurd rfl hleft
  | single hnext =>
      cases hnext
      rfl

theorem ne_draft_of_later {status status' : AssetStatus}
    (hlater : Relation.ReflTransGen AssetStatus.Next status status')
    (hstatus : status ≠ .draft) : status' ≠ .draft := by
  cases hlater with
  | refl => exact hstatus
  | tail _ hlast => exact hlast.ne_draft

theorem Evolved.trans {sdk : Sdk} {old middle new : AssetRecord}
    (hfirst : Evolved sdk old middle) (hsecond : Evolved sdk middle new) :
    Evolved sdk old new := by
  rcases hfirst.notional with ⟨before, between, hbefore, hbetween, hle⟩
  rcases hsecond.notional with ⟨between', after, hbetween', hafter, hle'⟩
  rw [hbetween, Option.some.injEq] at hbetween'
  subst hbetween'
  refine ⟨hfirst.status.trans hsecond.status,
    hsecond.assetId.trans hfirst.assetId, hsecond.issuer.trans hfirst.issuer,
    hsecond.name.trans hfirst.name,
    hsecond.description.trans hfirst.description,
    hsecond.oraclePair.trans hfirst.oraclePair,
    hsecond.denom.trans hfirst.denom,
    hsecond.createdAt.trans hfirst.createdAt, ?_,
    before, after, hbefore, hafter, hle.trans hle'⟩
  intro hstatus
  have hprice := hfirst.attestation hstatus
  have hprice' := hsecond.attestation
    (ne_draft_of_later hfirst.status hstatus)
  exact ⟨hprice'.1.trans hprice.1, hprice'.2.trans hprice.2⟩

/-! ## One step -/

/-- A step of the asset state machine follows at most one arrow. -/
theorem RecordStep.follows_arrow {sdk : Sdk} {rec rec' : AssetRecord}
    (hstep : RecordStep sdk (some rec) rec') :
    Relation.ReflGen AssetStatus.Next rec.status rec'.status := by
  cases hstep with
  | attest ctx price hstatus =>
      rw [hstatus]
      exact .single .attest
  | mint hstatus =>
      rcases hstatus with hstatus | hstatus
      · rw [hstatus]
        exact .single .mint
      · rw [hstatus]
        exact .refl
  | restrict => exact .refl
  | settle ctx hstatus =>
      rw [hstatus]
      exact .single .settle
  | slash ctx hstatus =>
      rw [hstatus]
      exact .single .settle

theorem RecordStep.evolved {sdk : Sdk} {rec rec' : AssetRecord}
    (hsound : RecordSound sdk rec)
    (hstep : RecordStep sdk (some rec) rec') : Evolved sdk rec rec' := by
  have hstatus := hstep.follows_arrow.to_reflTransGen
  have hkept := (Evolved.refl hsound).notional
  cases hstep with
  | attest ctx price hdraft =>
      exact ⟨hstatus, rfl, rfl, rfl, rfl, rfl, rfl, rfl,
        fun hother => absurd hdraft hother, hkept⟩
  | @mint _ prev notional total hmintable hprev hpos htotal =>
      exact ⟨hstatus, rfl, rfl, rfl, rfl, rfl, rfl, rfl,
        fun _ => ⟨rfl, rfl⟩, prev, total, hprev, sdk.int_roundTrip total,
        by omega⟩
  | restrict =>
      exact ⟨hstatus, rfl, rfl, rfl, rfl, rfl, rfl, rfl,
        fun _ => ⟨rfl, rfl⟩, hkept⟩
  | settle =>
      exact ⟨hstatus, rfl, rfl, rfl, rfl, rfl, rfl, rfl,
        fun _ => ⟨rfl, rfl⟩, hkept⟩
  | slash =>
      exact ⟨hstatus, rfl, rfl, rfl, rfl, rfl, rfl, rfl,
        fun _ => ⟨rfl, rfl⟩, hkept⟩

/-- Everything the store holds about one asset. -/
structure AssetView where
  record : Option AssetRecord
  allowed : Address → Bool
  denied : Address → Bool

def assetView (store : RwaStore) (assetID : String) : AssetView :=
  ⟨getAsset store assetID, isAllowlisted store assetID,
    isDenylisted store assetID⟩

/-- The lists of all other assets are kept. -/
theorem Accepted.isMember_of_ne
    {k : Keeper} {env : Env} {s s' : RwaState} {tx : RwaTx}
    (haccepted : Accepted k env s tx s') {assetID : String}
    (hne : tx.written ≠ some assetID) (list : MemberList) (addr : Address) :
    isMember list s'.store assetID addr =
      isMember list s.store assetID addr := by
  cases haccepted with
  | @restricted msg issuer rec changes howned hslug =>
      have hother : msg.assetId ≠ assetID := fun heq => hne (congrArg some heq)
      rw [isMember_writeAsset, isMember_apply list changes s.store hslug,
        if_neg hother]
  | registered => exact isMember_writeAsset list _ _ _ assetID addr
  | attested => exact isMember_writeAsset list _ _ _ assetID addr
  | minted => exact isMember_writeAsset list _ _ _ assetID addr
  | settled => exact isMember_writeAsset list _ _ _ assetID addr
  | slashed => exact isMember_writeAsset list _ _ _ assetID addr
  | reparametrized => exact isMember_writeParams list _ _ assetID addr
  | transferred => rfl
  | sent => rfl
  | paid => rfl

theorem Accepted.assetView_of_ne
    {k : Keeper} {env : Env} {s s' : RwaState} {tx : RwaTx}
    (haccepted : Accepted k env s tx s') {assetID : String}
    (hne : tx.written ≠ some assetID) :
    assetView s'.store assetID = assetView s.store assetID := by
  have hallowed : isAllowlisted s'.store assetID =
      isAllowlisted s.store assetID :=
    funext (haccepted.isMember_of_ne hne .allow)
  have hdenied : isDenylisted s'.store assetID =
      isDenylisted s.store assetID :=
    funext (haccepted.isMember_of_ne hne .deny)
  rw [assetView, assetView, haccepted.getAsset_of_ne hne, hallowed, hdenied]

/-- No transaction reaches a settled asset. -/
theorem Accepted.assetView_of_settled
    {k : Keeper} {env : Env} {s s' : RwaState} {tx : RwaTx}
    (haccepted : Accepted k env s tx s') {assetID : String}
    {rec : AssetRecord} (hget : getAsset s.store assetID = some rec)
    (hsettled : rec.status = .settled) :
    assetView s'.store assetID = assetView s.store assetID := by
  apply haccepted.assetView_of_ne
  intro hwritten
  rcases haccepted.recordStep hwritten with ⟨rec', -, hstep⟩
  rw [hget] at hstep
  exact hstep.not_settled hsettled

/-- The transaction is one which may change the given asset: it names the
asset and its signer is the issuer, or it is a bond slash by the authority. -/
def MayChange (k : Keeper) (assetID owner : String) (tx : RwaTx) : Prop :=
  tx.written = some assetID ∧
    ((∃ issuer, k.sdk.accAddressFromBech32 owner = .ok issuer ∧
        tx.signer k.sdk = .ok issuer) ∨
      ∃ msg, tx = .slashBond msg ∧ msg.authority = k.authority)

theorem Accepted.mayChange
    {k : Keeper} {env : Env} {s s' : RwaState} {tx : RwaTx}
    (haccepted : Accepted k env s tx s') {assetID : String}
    (hwritten : tx.written = some assetID) :
    ∃ rec, getAsset s'.store assetID = some rec ∧
      MayChange k assetID rec.issuer tx := by
  cases haccepted with
  | registered hvalid hissuer =>
      cases hwritten
      exact ⟨_, getAsset_writeAsset_self rfl, rfl,
        Or.inl ⟨_, hissuer, hissuer⟩⟩
  | attested howned =>
      cases hwritten
      exact ⟨_, getAsset_writeAsset_self howned.assetId, rfl,
        Or.inl ⟨_, howned.decoded, howned.caller_decodes⟩⟩
  | minted howned =>
      cases hwritten
      exact ⟨_, getAsset_writeAsset_self howned.assetId, rfl,
        Or.inl ⟨_, howned.decoded, howned.caller_decodes⟩⟩
  | restricted howned =>
      cases hwritten
      exact ⟨_, getAsset_writeAsset_self howned.assetId, rfl,
        Or.inl ⟨_, howned.decoded, howned.caller_decodes⟩⟩
  | settled howned =>
      cases hwritten
      exact ⟨_, getAsset_writeAsset_self howned.assetId, rfl,
        Or.inl ⟨_, howned.decoded, howned.caller_decodes⟩⟩
  | slashed hauthority hstored =>
      cases hwritten
      have hid := getAsset_assetId hstored
      exact ⟨_, getAsset_writeAsset_self hid, rfl,
        Or.inr ⟨_, rfl, hauthority.symm⟩⟩
  | transferred => cases hwritten
  | reparametrized => cases hwritten
  | sent => cases hwritten
  | paid => cases hwritten

/-- The attestation is written by the step from draft to attested, with the
oracle price and the block time, and by no other. -/
structure AttestedOnce (sdk : Sdk) (env : Env) (tx : RwaTx)
    (old new : AssetRecord) : Prop where
  written : old.status = .draft → new.status = .attested →
    ∃ msg price, tx = .attestAsset msg ∧
      env.getPrice old.oraclePair = .ok price ∧
      new.attestedPrice = sdk.legacyDecString price ∧
      new.attestedAt = env.ctx.blockTime
  kept : ¬ (old.status = .draft ∧ new.status = .attested) →
    new.attestedPrice = old.attestedPrice ∧ new.attestedAt = old.attestedAt

theorem AttestedOnce.of_kept {sdk : Sdk} {env : Env} {tx : RwaTx}
    {old new : AssetRecord}
    (hstatus : ¬ (old.status = .draft ∧ new.status = .attested))
    (hprice : new.attestedPrice = old.attestedPrice)
    (htime : new.attestedAt = old.attestedAt) :
    AttestedOnce sdk env tx old new :=
  ⟨fun hdraft hattested => absurd ⟨hdraft, hattested⟩ hstatus,
    fun _ => ⟨hprice, htime⟩⟩

theorem not_attested_of_same {old new : AssetRecord}
    (hsame : new.status = old.status) :
    ¬ (old.status = .draft ∧ new.status = .attested) := by
  rintro ⟨hdraft, hattested⟩
  rw [hsame, hdraft] at hattested
  cases hattested

theorem AttestedOnce.refl {sdk : Sdk} {env : Env} {tx : RwaTx}
    (rec : AssetRecord) : AttestedOnce sdk env tx rec rec :=
  .of_kept (not_attested_of_same rfl) rfl rfl

theorem Accepted.attestedOnce
    {k : Keeper} {env : Env} {s s' : RwaState} {tx : RwaTx}
    (haccepted : Accepted k env s tx s') {assetID : String}
    {old new : AssetRecord} (hold : getAsset s.store assetID = some old)
    (hnew : getAsset s'.store assetID = some new) :
    AttestedOnce k.sdk env tx old new := by
  by_cases hwritten : tx.written = some assetID
  · -- the record which the transaction wrote, and the one it found
    have hstored : ∀ {store : RwaStore} {issuer : Address} {rec : AssetRecord},
        getAsset (writeAsset store issuer rec) assetID = some new →
        rec.assetId = assetID → rec = new := by
      intro store issuer rec hget hid
      rw [getAsset_writeAsset_self hid, Option.some.injEq] at hget
      exact hget
    have hfound : ∀ {rec : AssetRecord},
        getAsset s.store assetID = some rec → rec = old := by
      intro rec hget
      rw [hold, Option.some.injEq] at hget
      exact hget.symm
    cases haccepted with
    | registered hvalid hissuer hfresh =>
        cases hwritten
        rw [hfresh] at hold
        cases hold
    | attested howned hstatus hprice =>
        cases hwritten
        cases hstored hnew howned.assetId
        cases hfound howned.stored
        exact ⟨fun _ _ => ⟨_, _, rfl, hprice, rfl, rfl⟩,
          fun hother => absurd ⟨hstatus, rfl⟩ hother⟩
    | minted howned =>
        cases hwritten
        cases hstored hnew howned.assetId
        cases hfound howned.stored
        exact .of_kept (by simp [mintedRecord]) rfl rfl
    | restricted howned =>
        cases hwritten
        cases hstored hnew howned.assetId
        cases hfound howned.stored
        exact .of_kept (not_attested_of_same rfl) rfl rfl
    | settled howned =>
        cases hwritten
        cases hstored hnew howned.assetId
        cases hfound howned.stored
        exact .of_kept (by simp [settledRecord]) rfl rfl
    | slashed hauthority hget =>
        cases hwritten
        have hid := getAsset_assetId hget
        cases hstored hnew hid
        cases hfound hget
        exact .of_kept (by simp [slashedRecord, settledRecord]) rfl rfl
    | transferred => cases hwritten
    | reparametrized => cases hwritten
    | sent => cases hwritten
    | paid => cases hwritten
  · rw [haccepted.getAsset_of_ne hwritten, hold, Option.some.injEq] at hnew
    rw [hnew]
    exact AttestedOnce.refl new

/-! ## Runs -/

/-- What one transaction may do to one asset. -/
structure LawfulStep (k : Keeper) (s : RwaState) (label : Label)
    (s' : RwaState) (assetID : String) : Prop where
  registered : getAsset s.store assetID = none →
    ∀ rec, getAsset s'.store assetID = some rec → rec.status = .draft
  moved : ∀ old, getAsset s.store assetID = some old →
    ∃ new, getAsset s'.store assetID = some new ∧
      Relation.ReflGen AssetStatus.Next old.status new.status ∧
      AttestedOnce k.sdk label.1 label.2 old new
  caused : assetView s'.store assetID ≠ assetView s.store assetID →
    delivered k (s, label) = true ∧
      ∃ rec, getAsset s'.store assetID = some rec ∧
        MayChange k assetID rec.issuer label.2

theorem LawfulStep.of_unchanged
    {k : Keeper} {s : RwaState} {label : Label} {assetID : String} :
    LawfulStep k s label s assetID := by
  constructor
  · intro hnone rec hget
    rw [hnone] at hget
    cases hget
  · intro old hold
    exact ⟨old, hold, .refl, .refl old⟩
  · intro hchanged
    exact absurd rfl hchanged

theorem lawfulStep_of_step
    {k : Keeper} {s s' : RwaState} {label : Label}
    (hstep : rwaStep k s label = some s') (assetID : String) :
    LawfulStep k s label s' assetID := by
  rcases rwaStep_cases hstep with ⟨-, -, hsame⟩ | ⟨hdeliver, -, haccepted⟩
  · rw [hsame]
    exact .of_unchanged
  · by_cases hwritten : label.2.written = some assetID
    · rcases haccepted.recordStep hwritten with ⟨new, hnew, hrecord⟩
      constructor
      · intro hnone rec hget
        rw [hnone] at hrecord
        rw [hnew, Option.some.injEq] at hget
        subst hget
        cases hrecord with
        | register => rfl
      · intro old hold
        rw [hold] at hrecord
        exact ⟨new, hnew, hrecord.follows_arrow,
          haccepted.attestedOnce hold hnew⟩
      · intro _
        exact ⟨delivered_of_ok hdeliver, haccepted.mayChange hwritten⟩
    · have hview := haccepted.assetView_of_ne hwritten
      have hrecord : getAsset s'.store assetID = getAsset s.store assetID :=
        congrArg AssetView.record hview
      constructor
      · intro hnone rec hget
        rw [hrecord, hnone] at hget
        cases hget
      · intro old hold
        exact ⟨old, hrecord.trans hold, .refl, .refl old⟩
      · intro hchanged
        exact absurd hview hchanged

/-- A later state of the same asset. -/
theorem evolved_of_run
    {k : Keeper} {s t : RwaState} {segment : History}
    (hsound : RecordsSound k.sdk s.store)
    (hsegment : Run (rwaStep k) s segment t) {assetID : String}
    {rec : AssetRecord} (hget : getAsset s.store assetID = some rec) :
    ∃ rec', getAsset t.store assetID = some rec' ∧ Evolved k.sdk rec rec' := by
  have hall : RecordsSound k.sdk t.store ∧ ∃ rec',
      getAsset t.store assetID = some rec' ∧ Evolved k.sdk rec rec' := by
    refine Run.invariant (I := fun t => RecordsSound k.sdk t.store ∧ ∃ rec',
      getAsset t.store assetID = some rec' ∧ Evolved k.sdk rec rec')
      ⟨hsound, rec, hget, .refl (hsound assetID rec hget)⟩ ?_ hsegment
    rintro state label state' ⟨hstate, old, hold, hevolved⟩ hstep
    refine ⟨hstate.step hstep, ?_⟩
    rcases rwaStep_cases hstep with ⟨-, -, hsame⟩ | ⟨-, -, haccepted⟩
    · rw [hsame]
      exact ⟨old, hold, hevolved⟩
    · by_cases hwritten : label.2.written = some assetID
      · rcases haccepted.recordStep hwritten with ⟨new, hnew, hrecord⟩
        rw [hold] at hrecord
        exact ⟨new, hnew,
          hevolved.trans (hrecord.evolved (hstate assetID old hold))⟩
      · exact ⟨old, (haccepted.getAsset_of_ne hwritten).trans hold, hevolved⟩
  exact hall.2

/-- Nothing about a settled asset ever changes. -/
theorem assetView_of_settled_run
    {k : Keeper} {s t : RwaState} {segment : History}
    (hsegment : Run (rwaStep k) s segment t) {assetID : String}
    {rec : AssetRecord} (hget : getAsset s.store assetID = some rec)
    (hsettled : rec.status = .settled) :
    assetView t.store assetID = assetView s.store assetID := by
  refine Run.invariant
    (I := fun t => assetView t.store assetID = assetView s.store assetID)
    rfl ?_ hsegment
  intro state label state' hstate hstep
  rcases rwaStep_cases hstep with ⟨-, -, hsame⟩ | ⟨-, -, haccepted⟩
  · rw [hsame]
    exact hstate
  · have hrecord : getAsset state.store assetID = some rec :=
      (congrArg AssetView.record hstate).trans hget
    exact (haccepted.assetView_of_settled hrecord hsettled).trans hstate

/-- A draft has not been attested yet. -/
def Unattested (rec : AssetRecord) : Prop :=
  rec.status = .draft → rec.attestedPrice = "" ∧ rec.attestedAt = zeroTime

theorem unattested_of_run
    {k : Keeper} {start s : RwaState} {history : History}
    (hstart : ∀ assetID rec,
      getAsset start.store assetID = some rec → Unattested rec)
    (hrun : Run (rwaStep k) start history s) :
    ∀ assetID rec, getAsset s.store assetID = some rec → Unattested rec := by
  refine Run.invariant (I := fun s => ∀ assetID rec,
    getAsset s.store assetID = some rec → Unattested rec) hstart ?_ hrun
  intro state label state' hstate hstep
  rcases rwaStep_cases hstep with ⟨-, -, hsame⟩ | ⟨-, -, haccepted⟩
  · rw [hsame]
    exact hstate
  · apply haccepted.records_induct (P := fun _ rec => Unattested rec) _ _
      hstate
    · intro assetID rec hrecord _
      cases hrecord with
      | register => exact fun _ => ⟨rfl, rfl⟩
    · intro assetID old rec hold hrecord hdraft
      cases hrecord with
      | restrict => exact hold hdraft
      | attest => cases hdraft
      | mint => cases hdraft
      | settle => cases hdraft
      | slash => cases hdraft

/-- From every state reached from the default genesis: each asset carries its
own denomination, a draft has no attestation yet, and after any further
transactions the record has moved forward only, with its identity kept and
its attestation unchanged once written; a settled asset is final.  Every
single transaction follows at most one arrow of the diagram, and changes an
asset only if it names it and comes from its issuer, or is a bond slash by the
authority. -/
theorem asset_lifecycle_is_one_way
    {k : Keeper} {start s t : RwaState} {past segment : History}
    (hinit : initGenesis k TypedStore.empty defaultGenesis = .ok start.store)
    (hreached : Run (rwaStep k) start past s)
    (hsegment : Run (rwaStep k) s segment t) (assetID : String) :
    (∀ rec, getAsset s.store assetID = some rec →
      rec.assetId = assetID ∧ rec.denom = buildDenom assetID ∧
        Unattested rec ∧
        (∃ rec', getAsset t.store assetID = some rec' ∧
          Evolved k.sdk rec rec') ∧
        (rec.status = .settled →
          assetView t.store assetID = assetView s.store assetID)) ∧
      ∀ label s', rwaStep k s label = some s' →
        LawfulStep k s label s' assetID := by
  have hsound := (registry_of_run hinit hreached).1
  have hdraft := unattested_of_run (fun id rec hget => by
    rw [getAsset_of_defaultGenesis hinit] at hget
    cases hget) hreached
  refine ⟨?_, fun label s' hstep => lawfulStep_of_step hstep assetID⟩
  intro rec hget
  exact ⟨getAsset_assetId hget, (hsound.canonical assetID rec hget).2,
    hdraft assetID rec hget, evolved_of_run hsound hsegment hget,
    assetView_of_settled_run hsegment hget⟩

/-- The settled land keeps the attestation with which it was minted. -/
theorem land_keeps_attestation :
    ∃ start past s t rec rec',
      initGenesis referenceKeeper TypedStore.empty defaultGenesis =
          .ok start.store ∧
        Run (rwaStep referenceKeeper) start past s ∧
        Run (rwaStep referenceKeeper) s [(s, openEnv, settleLand)] t ∧
        getAsset s.store "land" = some rec ∧ rec.status = .active ∧
        getAsset t.store "land" = some rec' ∧
        rec'.attestedPrice = rec.attestedPrice := by
  have hfacts :
      (runDefault [registerLand, attestLand, mintLand "1000"]).any (fun r =>
        (getAsset r.2.2.store "land").any fun rec =>
          decide (rec.status = .active)) = true := by
    decide +kernel
  rcases exists_some_of_any hfacts with ⟨⟨start, past, s⟩, hrun, hchecked⟩
  rcases exists_some_of_any hchecked with ⟨rec, hget, hstatus⟩
  have hactive : rec.status = .active := of_decide_eq_true hstatus
  rcases run_of_runDefault hrun with ⟨hinit, hreached⟩
  have hsegment : Run (rwaStep referenceKeeper) s
      [(s, openEnv, settleLand)] _ := Run.next Run.start rfl
  have hlaw := (asset_lifecycle_is_one_way hinit hreached hsegment
    "land").1 rec hget
  rcases hlaw.2.2.2.1 with ⟨rec', hget', hevolved⟩
  have hattested : rec.status ≠ .draft := by simp [hactive]
  exact ⟨start, past, s, _, rec, rec', hinit, hreached, hsegment, hget,
    hactive, hget', (hevolved.attestation hattested).1⟩

end Rwa
end Vertix
