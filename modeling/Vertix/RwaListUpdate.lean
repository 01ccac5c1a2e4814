import Vertix.RwaRestart
import Mathlib.Tactic

/-!
# The net effect of a restriction update

An update walks through four lists of entries and adds or removes one address
at a time.  Removals come after additions, so that an address which is in both
ends up removed, and how often an entry is repeated does not matter.  What a
successful update leaves behind is therefore a function of the lists before it
and of the message, and a second run of the same message finds everything as
it wants it.
-/

namespace Vertix
namespace Rwa

open Transition

/-! ## Membership after the four loops -/

theorem listedAfter_eq_true_iff {adds dels : List Address} {before : Bool}
    {addr : Address} :
    listedAfter adds dels before addr = true ↔
      addr ∉ dels ∧ (before = true ∨ addr ∈ adds) := by
  unfold listedAfter
  by_cases hdel : addr ∈ dels
  · simp [hdel]
  · by_cases hadd : addr ∈ adds <;> simp [hdel, hadd]

theorem listedAfter_twice (adds dels : List Address) (before : Bool)
    (addr : Address) :
    listedAfter adds dels (listedAfter adds dels before addr) addr =
      listedAfter adds dels before addr := by
  unfold listedAfter
  split_ifs <;> rfl

theorem names_eq_true_iff {sdk : Sdk} {entries : List String}
    {addrs : List Address} (hdecodes : DecodesTo sdk entries addrs)
    {addr : Address} : names sdk entries addr = true ↔ addr ∈ addrs := by
  rw [names_eq hdecodes, decide_eq_true_eq]

/-- Updating the lists and writing the record a second time changes
nothing. -/
theorem writeAsset_apply_twice (changes : MemberChanges) (store : RwaStore)
    (issuer : Address) (rec : AssetRecord)
    (hslug : slugRegexMatch rec.assetId = true) :
    writeAsset
        (changes.apply
          (writeAsset (changes.apply store rec.assetId) issuer rec)
          rec.assetId) issuer rec =
      writeAsset (changes.apply store rec.assetId) issuer rec := by
  apply TypedStore.ext_get
  intro key
  by_cases hkey : ∃ list id addr, key = .member list id addr
  · obtain ⟨list, id, addr, rfl⟩ := hkey
    apply get_congr_of_presence eq_presence_of_admits_member
    rw [← Option.isSome_iff_ne_none, ← Option.isSome_iff_ne_none,
      ← isMember_eq_get id rfl, ← isMember_eq_get id rfl]
    simp only [isMember_writeAsset, isMember_apply list changes _ hslug]
    split_ifs with hid
    · rw [listedAfter_twice]
    · rfl
  · have hother : ∀ list id addr, key ≠ .member list id addr :=
      fun list id addr heq => hkey ⟨list, id, addr, heq⟩
    simp only [get_writeAsset, get_apply_of_ne changes _ rec.assetId hother]
    split_ifs <;> rfl

/-! ## The update -/

/-- What a restriction update did to the state. -/
structure NetEffect (k : Keeper) (s : RwaState) (msg : MsgUpdateRestrictions)
    (s' : RwaState) : Prop where
  allowed : ∀ addr,
    isAllowlisted s'.store msg.assetId addr = true ↔
      names k.sdk msg.delAllow addr = false ∧
        (isAllowlisted s.store msg.assetId addr = true ∨
          names k.sdk msg.addAllow addr = true)
  denied : ∀ addr,
    isDenylisted s'.store msg.assetId addr = true ↔
      names k.sdk msg.delDeny addr = false ∧
        (isDenylisted s.store msg.assetId addr = true ∨
          names k.sdk msg.addDeny addr = true)
  record : ∃ rec, getAsset s.store msg.assetId = some rec ∧
    getAsset s'.store msg.assetId = some { rec with allowAll := msg.allowAll }
  otherLists : ∀ list assetID addr, assetID ≠ msg.assetId →
    isMember list s'.store assetID addr = isMember list s.store assetID addr
  otherRecords : ∀ assetID, assetID ≠ msg.assetId →
    getAsset s'.store assetID = getAsset s.store assetID
  bank : s'.bank = s.bank
  params : getParams s'.store = getParams s.store

theorem netEffect_of_updateRestrictions
    {k : Keeper} {s s' : RwaState} {msg : MsgUpdateRestrictions}
    (hupdate : updateRestrictions k s msg = .ok s') :
    NetEffect k s msg s' := by
  rcases updateRestrictions_eq_ok_iff.mp hupdate with
    ⟨hvalid, issuer, rec, changes, howned, hstatus, hdecoded, rfl⟩
  have hslug := slug_of_validateBasic hvalid
  have hmember : ∀ list adds dels addr,
      DecodesTo k.sdk adds (changes.added list) →
      DecodesTo k.sdk dels (changes.removed list) →
      (isMember list (writeAsset (changes.apply s.store msg.assetId) issuer
          (restrictedRecord rec msg.allowAll)) msg.assetId addr = true ↔
        names k.sdk dels addr = false ∧
          (isMember list s.store msg.assetId addr = true ∨
            names k.sdk adds addr = true)) := by
    intro list adds dels addr hadds hdels
    rw [isMember_writeAsset, isMember_apply list changes s.store hslug,
      if_pos rfl, listedAfter_eq_true_iff, ← Bool.not_eq_true,
      names_eq_true_iff hadds, names_eq_true_iff hdels]
  constructor
  · intro addr
    exact hmember .allow _ _ addr hdecoded.addAllow hdecoded.delAllow
  · intro addr
    exact hmember .deny _ _ addr hdecoded.addDeny hdecoded.delDeny
  · exact ⟨rec, howned.stored, getAsset_writeAsset_self howned.assetId⟩
  · intro list assetID addr hne
    rw [isMember_writeAsset, isMember_apply list changes s.store hslug,
      if_neg hne.symm]
  · intro assetID hne
    rw [getAsset_writeAsset_of_ne, getAsset_apply]
    exact fun heq => hne (heq.symm.trans howned.assetId)
  · rfl
  · rw [getParams_writeAsset, getParams_apply]

theorem updateRestrictions_again
    {k : Keeper} {s s' : RwaState} {msg : MsgUpdateRestrictions}
    (hupdate : updateRestrictions k s msg = .ok s') :
    updateRestrictions k s' msg = .ok s' := by
  rcases updateRestrictions_eq_ok_iff.mp hupdate with
    ⟨hvalid, issuer, rec, changes, howned, hstatus, hdecoded, rfl⟩
  have hslug := slug_of_validateBasic hvalid
  have hstored : getAsset
      (writeAsset (changes.apply s.store msg.assetId) issuer
        (restrictedRecord rec msg.allowAll)) msg.assetId =
      some (restrictedRecord rec msg.allowAll) :=
    getAsset_writeAsset_self howned.assetId
  refine updateRestrictions_eq_ok_iff.mpr ⟨hvalid, issuer,
    restrictedRecord rec msg.allowAll, changes,
    ⟨hstored, howned.signed, howned.decoded⟩, hstatus, hdecoded, ?_⟩
  have htwice := writeAsset_apply_twice changes s.store issuer
    (restrictedRecord rec msg.allowAll) (by rwa [← howned.assetId] at hslug)
  rw [show (restrictedRecord rec msg.allowAll).assetId = msg.assetId from
    howned.assetId] at htwice
  exact congrArg (fun store => RwaState.mk store s.bank) htwice.symm

/-- A successful update has exactly its net effect, whatever its lists repeat,
and applied again it changes nothing. -/
theorem updateRestrictions_net_effect
    {k : Keeper} {s s' : RwaState} {msg : MsgUpdateRestrictions}
    (hupdate : updateRestrictions k s msg = .ok s') :
    NetEffect k s msg s' ∧ updateRestrictions k s' msg = .ok s' :=
  ⟨netEffect_of_updateRestrictions hupdate, updateRestrictions_again hupdate⟩

/-- An update which adds the issuer twice, and adds and removes the holder. -/
def overlappingUpdate : MsgUpdateRestrictions :=
  ⟨issuerText, "land", false, [issuerText, holderText, issuerText],
    [holderText], [], []⟩

theorem overlapping_update_on_land :
    ∃ history s s',
      Run (rwaStep referenceKeeper) fundedState history s ∧
        updateRestrictions referenceKeeper s overlappingUpdate = .ok s' ∧
        NetEffect referenceKeeper s overlappingUpdate s' ∧
        isAllowlisted s'.store "land" (addressOf 1) = true ∧
        isAllowlisted s'.store "land" (addressOf 2) = false ∧
        updateRestrictions referenceKeeper s' overlappingUpdate = .ok s' := by
  have hfacts : (runLand [registerLand]).any (fun r =>
      (updateRestrictions referenceKeeper r.2
        overlappingUpdate).toOption.any fun s' =>
          isAllowlisted s'.store "land" (addressOf 1) &&
            !isAllowlisted s'.store "land" (addressOf 2)) = true := by
    decide +kernel
  rcases exists_some_of_any hfacts with ⟨⟨history, s⟩, hrun, hupdated⟩
  rcases exists_ok_of_any hupdated with ⟨s', hupdate, hchecked⟩
  simp only [Bool.and_eq_true, Bool.not_eq_true'] at hchecked
  rcases updateRestrictions_net_effect hupdate with ⟨heffect, hagain⟩
  exact ⟨history, s, s', run_of_runLand hrun, hupdate, heffect, hchecked.1,
    hchecked.2, hagain⟩

end Rwa
end Vertix
