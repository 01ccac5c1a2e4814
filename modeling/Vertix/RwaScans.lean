import Vertix.RwaRestart
import Mathlib.Tactic

/-!
# Scans and lookups of the rwa store

The assets of an issuer and the members of a list are found by scanning a
prefix, while the handlers look up single keys.  Both views agree.  The issuer
index holds an entry for every record and no other, from any valid genesis on,
and a membership prefix carries the length of the asset id, so that it selects
the members of this asset even if its id is a prefix of another id.
-/

namespace Vertix
namespace Rwa

open Transition

/-! ## Queries -/

/-- `GetAsset` on the bytes of an id. -/
def getAssetBytes (store : RwaStore) (assetID : Bytes) : Option AssetRecord :=
  match store.bytes.get (keyPrefixAsset ++ assetID) with
  | some (.asset rec) => some rec
  | _ => none

/-- The keys of the prefix store over the index of an issuer, which are cut
off at the prefix. -/
def indexKeys (store : RwaStore) (issuer : Address) : List Bytes :=
  (store.prefixScan (issuerIndexPrefix issuer)).map fun entry =>
    entry.1.drop (issuerIndexPrefix issuer).length

/-- The asset id in a key of the prefix store. -/
def indexedID (key : Bytes) : Bytes :=
  if key.head? = some slash then key.tail else key

/-- What the callback collects over the keys of a page. -/
def assetsOfKeys (store : RwaStore) (keys : List Bytes) : List AssetRecord :=
  keys.filterMap fun key => getAssetBytes store (indexedID key)

structure QueryAssetsByIssuerRequest (Page : Type) where
  issuer : String
  pagination : Page

/-- The paginator picks the keys of a page from all keys of the store, or
rejects the page. -/
def assetsByIssuer {Page : Type} (sdk : Sdk)
    (paginate : Page → List Bytes → Except String (List Bytes))
    (store : RwaStore) (req : Option (QueryAssetsByIssuerRequest Page)) :
    Except QueryFailure (List AssetRecord) :=
  match req with
  | none => .error invalidRequest
  | some req =>
      if req.issuer = "" then .error invalidRequest
      else
        match sdk.accAddressFromBech32 req.issuer with
        | .error reason => .error (.status .invalidArgument reason)
        | .ok issuer =>
            match paginate req.pagination (indexKeys store issuer) with
            | .error reason => .error (.status .internal reason)
            | .ok keys => .ok (assetsOfKeys store keys)

structure QueryRestrictionsRequest where
  assetId : String

structure QueryRestrictionsResponse where
  allowAll : Bool
  allowlist : List String
  denylist : List String
  deriving DecidableEq

def restrictions (sdk : Sdk) (store : RwaStore)
    (req : Option QueryRestrictionsRequest) :
    Except QueryFailure QueryRestrictionsResponse :=
  match req with
  | none => .error invalidRequest
  | some req =>
      if req.assetId = "" then .error invalidRequest
      else
        match getAsset store req.assetId with
        | none => .error (.status .notFound errAssetNotFound.text)
        | some rec =>
            .ok ⟨rec.allowAll,
              (iterateMembers store (allowlistPrefix req.assetId)).map
                sdk.accAddressString,
              (iterateMembers store (denylistPrefix req.assetId)).map
                sdk.accAddressString⟩

/-! ## The index of an issuer -/

theorem exists_indexKeys (store : RwaStore) (issuer : Address) :
    ∃ ids : List String,
      indexKeys store issuer = ids.map (fun id => slash :: strBytes id) ∧
        ids.Nodup ∧
        ∀ id, id ∈ ids ↔ store.get (.issuerIndex issuer id) ≠ none := by
  rcases TypedStore.exists_scanned (issuerIndexPrefix issuer)
    (fun id : String => RwaKey.issuerIndex issuer id)
    (fun _ => RwaValue.presence)
    (fun id => (issuerIndexPrefix_prefix_iff issuer _).mpr ⟨id, rfl⟩)
    (by
      intro key stored hstarts hadmits
      rcases (issuerIndexPrefix_prefix_iff issuer key).mp hstarts with
        ⟨id, rfl⟩
      exact ⟨id, rfl, (eq_presence_of_admits_issuerIndex stored hadmits).symm⟩)
    (fun left right hkey _ => by simpa using hkey)
    store with ⟨ids, hscan, hnodup, hmem⟩
  refine ⟨ids, ?_, hnodup.of_map _, ?_⟩
  · rw [indexKeys, hscan, List.map_map]
    apply List.map_congr_left
    intro id _
    exact List.drop_left
  · intro id
    rw [hmem]
    exact get_eq_presence_iff eq_presence_of_admits_issuerIndex

/-- The keys below the index prefix of an issuer name the assets of this
issuer, each once. -/
def IndexExact (sdk : Sdk) (store : RwaStore) (issuer : Address) : Prop :=
  ∃ ids : List String,
    (indexKeys store issuer).map indexedID = ids.map strBytes ∧ ids.Nodup ∧
      ∀ id, id ∈ ids ↔ ∃ rec, getAsset store id = some rec ∧
        sdk.accAddressFromBech32 rec.issuer = .ok issuer

theorem Registry.indexExact {sdk : Sdk} {store : RwaStore}
    (hregistry : Registry sdk store) (issuer : Address) :
    IndexExact sdk store issuer := by
  obtain ⟨ids, hkeys, hnodup, hmem⟩ := exists_indexKeys store issuer
  refine ⟨ids, ?_, hnodup, ?_⟩
  · rw [hkeys, List.map_map]
    rfl
  · intro id
    rw [hmem, hregistry.index]

/-! ## Pages -/

/-- Over the given pages the paginator visits every key once. -/
def VisitsOnce {Page : Type}
    (paginate : Page → List Bytes → Except String (List Bytes))
    (keys : List Bytes) (pages : List Page) : Prop :=
  ∃ visited : List (List Bytes),
    List.Forall₂ (fun page some => paginate page keys = .ok some) pages
        visited ∧
      visited.flatten.Perm keys

/-- Each page is answered with the records of its keys. -/
theorem exists_answers {Page : Type} {sdk : Sdk}
    {paginate : Page → List Bytes → Except String (List Bytes)}
    {store : RwaStore} {text : String} {issuer : Address}
    (hissuer : sdk.accAddressFromBech32 text = .ok issuer) (htext : text ≠ "")
    {pages : List Page} {visited : List (List Bytes)}
    (hvisited : List.Forall₂ (fun page keys =>
      paginate page (indexKeys store issuer) = .ok keys) pages visited) :
    List.Forall₂ (fun page answer =>
        assetsByIssuer sdk paginate store (some ⟨text, page⟩) = .ok answer)
      pages (visited.map (assetsOfKeys store)) := by
  rw [List.forall₂_map_right_iff]
  apply hvisited.imp
  intro page keys hkeys
  simp only [assetsByIssuer, htext, if_false, hissuer, hkeys]

theorem flatten_assetsOfKeys (store : RwaStore) (visited : List (List Bytes)) :
    (visited.map (assetsOfKeys store)).flatten =
      assetsOfKeys store visited.flatten := by
  induction visited with
  | nil => rfl
  | cons keys rest ih =>
      rw [List.map_cons, List.flatten_cons, List.flatten_cons, ih,
        assetsOfKeys, assetsOfKeys, assetsOfKeys, List.filterMap_append]

/-- The keys of an issuer lead to the records of the issuer, each once. -/
theorem IndexExact.assetsOfKeys {sdk : Sdk} {store : RwaStore}
    {issuer : Address} (hindex : IndexExact sdk store issuer) :
    (Rwa.assetsOfKeys store (indexKeys store issuer)).Nodup ∧
      ∀ rec, rec ∈ Rwa.assetsOfKeys store (indexKeys store issuer) ↔
        getAsset store rec.assetId = some rec ∧
          sdk.accAddressFromBech32 rec.issuer = .ok issuer := by
  obtain ⟨ids, hkeys, hnodup, hmem⟩ := hindex
  have hrecords : Rwa.assetsOfKeys store (indexKeys store issuer) =
      ids.filterMap (getAsset store) := by
    have hcompose := congrArg (List.filterMap (getAssetBytes store)) hkeys
    rw [List.filterMap_map, List.filterMap_map] at hcompose
    exact hcompose
  rw [hrecords]
  constructor
  · apply hnodup.filterMap
    intro id id' rec hget hget'
    exact (getAsset_assetId hget).symm.trans (getAsset_assetId hget')
  · intro rec
    simp only [List.mem_filterMap, hmem]
    constructor
    · rintro ⟨id, ⟨rec', hget', hissuer⟩, hget⟩
      rw [hget, Option.some.injEq] at hget'
      subst hget'
      exact ⟨getAsset_assetId hget ▸ hget, hissuer⟩
    · rintro ⟨hget, hissuer⟩
      exact ⟨rec.assetId, ⟨rec, hget, hissuer⟩, hget⟩

/-! ## Members -/

/-- The iteration over a prefix yields the listed addresses, each once. -/
def ReadsBack (store : RwaStore) (pre : Bytes) (listed : Address → Bool) :
    Prop :=
  ∃ addrs : List Address,
    iterateMembers store pre = addrs.map Address.bytes ∧ addrs.Nodup ∧
      ∀ addr, addr ∈ addrs ↔ listed addr = true

theorem long_of_keyId?_eq_none {assetID : String}
    (hid : keyId? assetID = none) : 255 < (strBytes assetID).length := by
  unfold keyId? at hid
  split_ifs at hid with hfits
  omega

/-- Membership is the presence of the key's bytes, also for an id whose length
byte has wrapped. -/
theorem isMember_eq_hasKey (list : MemberList) (store : RwaStore)
    (assetID : String) (addr : Address) :
    isMember list store assetID addr =
      (store.bytes.get (membershipKey list.keyPrefix assetID addr)).isSome := by
  cases hid : keyId? assetID with
  | some id =>
      rw [← keyId?_eq_some_iff.mp hid, isMember_eq_get id rfl]
      rfl
  | none =>
      rw [isMember, hid]
      cases hget : store.bytes.get
          (membershipKey list.keyPrefix assetID addr) with
      | none => rfl
      | some value =>
          obtain ⟨key, hencode, -⟩ := store.typed _ value hget
          have hstarts : membershipPrefix list.keyPrefix assetID <+:
              key.encode := by
            rw [show key.encode = _ from hencode]
            exact List.prefix_append _ _
          exact absurd hstarts (membershipPrefix_not_prefix_of_long list
            (long_of_keyId?_eq_none hid) key)

theorem readsBack_members (store : RwaStore) (list : MemberList)
    (assetID : String) :
    ReadsBack store (membershipPrefix list.keyPrefix assetID)
      (isMember list store assetID) := by
  cases hid : keyId? assetID with
  | some id =>
      rw [← keyId?_eq_some_iff.mp hid]
      exact exists_iterateMembers store list id
  | none =>
      have hlong := long_of_keyId?_eq_none hid
      have hscan : store.prefixScan (membershipPrefix list.keyPrefix assetID) =
          [] := by
        rw [List.eq_nil_iff_forall_not_mem]
        rintro ⟨raw, value⟩ hentry
        obtain ⟨key, hencode, -, hstarts⟩ :=
          TypedStore.mem_prefixScan_iff.mp hentry
        rw [← hencode] at hstarts
        exact membershipPrefix_not_prefix_of_long list hlong key hstarts
      refine ⟨[], ?_, List.nodup_nil, ?_⟩
      · rw [iterateMembers, hscan]
        rfl
      · intro addr
        simp [isMember, hid]

theorem ReadsBack.mem_map_iff {store : RwaStore} {pre : Bytes}
    {listed : Address → Bool} (hreads : ReadsBack store pre listed)
    (view : Bytes → String) (text : String) :
    text ∈ (iterateMembers store pre).map view ↔
      ∃ addr, listed addr = true ∧ view addr.bytes = text := by
  obtain ⟨addrs, hscan, -, hmem⟩ := hreads
  simp only [hscan, List.map_map, List.mem_map, Function.comp_apply, hmem]

/-- The restrictions query lists the addresses which the lookups admit. -/
theorem restrictions_eq_ok {sdk : Sdk} {store : RwaStore} {assetID : String}
    {response : QueryRestrictionsResponse}
    (hquery : restrictions sdk store (some ⟨assetID⟩) = .ok response) :
    (∀ text, text ∈ response.allowlist ↔
        ∃ addr, isAllowlisted store assetID addr = true ∧
          sdk.accAddressString addr.bytes = text) ∧
      ∀ text, text ∈ response.denylist ↔
        ∃ addr, isDenylisted store assetID addr = true ∧
          sdk.accAddressString addr.bytes = text := by
  simp only [restrictions] at hquery
  split_ifs at hquery with hempty
  cases hget : getAsset store assetID with
  | none =>
      rw [hget] at hquery
      cases hquery
  | some rec =>
      rw [hget] at hquery
      cases hquery
      exact ⟨(readsBack_members store .allow assetID).mem_map_iff _,
        (readsBack_members store .deny assetID).mem_map_iff _⟩

/-! ## Reachable states -/

/-- In every state reached from a valid genesis, the index of an issuer and
the queries over it find exactly the records of the issuer, and the iterations
over both lists of an asset find exactly the listed addresses. -/
theorem scans_agree_with_lookups
    {k : Keeper} {gs : GenesisState} {start s : RwaState} {history : History}
    (hinit : initGenesis k TypedStore.empty gs = .ok start.store)
    (hrun : Run (rwaStep k) start history s) :
    (∀ issuer, IndexExact k.sdk s.store issuer) ∧
    (∀ (Page : Type)
      (paginate : Page → List Bytes → Except String (List Bytes))
      (text : String) (issuer : Address) (pages : List Page),
      k.sdk.accAddressFromBech32 text = .ok issuer → text ≠ "" →
      VisitsOnce paginate (indexKeys s.store issuer) pages →
      ∃ answers,
        List.Forall₂ (fun page answer =>
          assetsByIssuer k.sdk paginate s.store (some ⟨text, page⟩) =
            .ok answer) pages answers ∧
        answers.flatten.Nodup ∧
        ∀ rec, rec ∈ answers.flatten ↔
          getAsset s.store rec.assetId = some rec ∧
            k.sdk.accAddressFromBech32 rec.issuer = .ok issuer) ∧
    (∀ assetID, ReadsBack s.store (allowlistPrefix assetID)
      (isAllowlisted s.store assetID)) ∧
    ∀ assetID, ReadsBack s.store (denylistPrefix assetID)
      (isDenylisted s.store assetID) := by
  have hregistry := (registry_of_genesis hinit).run hrun
  refine ⟨hregistry.indexExact, ?_, readsBack_members s.store .allow,
    readsBack_members s.store .deny⟩
  intro Page paginate text issuer pages hissuer htext hvisits
  obtain ⟨visited, hvisited, hperm⟩ := hvisits
  have hrecords := (hregistry.indexExact issuer).assetsOfKeys
  have hsame : (assetsOfKeys s.store visited.flatten).Perm
      (assetsOfKeys s.store (indexKeys s.store issuer)) :=
    hperm.filterMap _
  refine ⟨_, exists_answers hissuer htext hvisited, ?_, ?_⟩
  · rw [flatten_assetsOfKeys, hsame.nodup_iff]
    exact hrecords.1
  · intro rec
    rw [flatten_assetsOfKeys, hsame.mem_iff]
    exact hrecords.2 rec

def registerNamed (assetID : String) : RwaTx :=
  .registerAsset ⟨issuerText, assetID, "Plot", "", "LAND:USD", "5000000000"⟩

/-- The slug of the first asset begins that of the second.  The holder is on
the allowlist of the first and on the denylist of the second. -/
def nestedSlugs : List RwaTx :=
  [setMinBond "5000000000", registerNamed "land", registerNamed "landing",
    .updateRestrictions ⟨issuerText, "land", false, [holderText], [], [], []⟩,
    .updateRestrictions ⟨issuerText, "landing", false, [], [],
      [holderText], []⟩]

/-- Neither the index nor the lists mix up the two. -/
theorem nested_slugs_told_apart :
    ∃ start history s,
      initGenesis referenceKeeper TypedStore.empty defaultGenesis =
          .ok start.store ∧
        Run (rwaStep referenceKeeper) start history s ∧
        (indexKeys s.store (addressOf 1)).length = 2 ∧
        IndexExact referenceKeeper.sdk s.store (addressOf 1) ∧
        iterateMembers s.store (allowlistPrefix "land") =
          [(addressOf 2).bytes] ∧
        iterateMembers s.store (allowlistPrefix "landing") = [] ∧
        iterateMembers s.store (denylistPrefix "land") = [] ∧
        iterateMembers s.store (denylistPrefix "landing") =
          [(addressOf 2).bytes] ∧
        ReadsBack s.store (allowlistPrefix "land")
          (isAllowlisted s.store "land") ∧
        ReadsBack s.store (denylistPrefix "landing")
          (isDenylisted s.store "landing") := by
  have hfacts : (runDefault nestedSlugs).any (fun r =>
      decide ((indexKeys r.2.2.store (addressOf 1)).length = 2 ∧
        iterateMembers r.2.2.store (allowlistPrefix "land") =
          [(addressOf 2).bytes] ∧
        iterateMembers r.2.2.store (allowlistPrefix "landing") = [] ∧
        iterateMembers r.2.2.store (denylistPrefix "land") = [] ∧
        iterateMembers r.2.2.store (denylistPrefix "landing") =
          [(addressOf 2).bytes])) = true := by
    decide +kernel
  obtain ⟨⟨start, history, s⟩, hrun, hchecked⟩ := exists_some_of_any hfacts
  obtain ⟨hindex, hallow, hallow', hdeny, hdeny'⟩ := of_decide_eq_true hchecked
  obtain ⟨hinit, hreached⟩ := run_of_runDefault hrun
  have hscans := scans_agree_with_lookups hinit hreached
  exact ⟨start, history, s, hinit, hreached, hindex, hscans.1 _, hallow,
    hallow', hdeny, hdeny', hscans.2.2.1 "land", hscans.2.2.2 "landing"⟩

end Rwa
end Vertix
