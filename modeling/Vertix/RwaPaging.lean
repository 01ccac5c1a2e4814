import Vertix.KeyPaging
import Vertix.RwaScans
import Mathlib.Tactic

/-!
# Reading the assets of an issuer page by page

A client reads a long list of assets by following the keys that the pages name,
while the chain goes on: assets are registered, attested and settled between
two pages.  Index entries are never removed and an asset keeps its issuer, so
the client sees every asset that existed when it began, none of them twice,
and each as it was stored when its page was read.  How the paginator walks over
the index is its own affair; what the client relies on is in `Lawful`.
-/

namespace Vertix
namespace Rwa

open Transition
open Paging (PageRequest PageResponse Paginator IsPage Tour isPage_take)

/-! ## The query with its page -/

/-- The answer together with the page response. -/
def assetsByIssuerPage (sdk : Sdk) (paginator : Paginator Bytes)
    (store : RwaStore)
    (req : Option (QueryAssetsByIssuerRequest (PageRequest Bytes))) :
    Except QueryFailure (List AssetRecord × PageResponse Bytes) :=
  match req with
  | none => .error invalidRequest
  | some req =>
      if req.issuer = "" then .error invalidRequest
      else
        match sdk.accAddressFromBech32 req.issuer with
        | .error reason => .error (.status .invalidArgument reason)
        | .ok issuer =>
            match paginator req.pagination (indexKeys store issuer) with
            | .error reason => .error (.status .internal reason)
            | .ok (keys, response) => .ok (assetsOfKeys store keys, response)

/-- The records of the answer are those of the query. -/
theorem assetsByIssuer_eq_page (sdk : Sdk) (paginator : Paginator Bytes)
    (store : RwaStore)
    (req : Option (QueryAssetsByIssuerRequest (PageRequest Bytes))) :
    assetsByIssuer sdk (fun page keys => (paginator page keys).map Prod.fst)
        store req =
      (assetsByIssuerPage sdk paginator store req).map Prod.fst := by
  unfold assetsByIssuer assetsByIssuerPage
  cases req with
  | none => rfl
  | some req =>
      dsimp only
      split_ifs with hempty
      · rfl
      · cases sdk.accAddressFromBech32 req.issuer with
        | error reason => rfl
        | ok issuer =>
            dsimp only
            cases paginator req.pagination (indexKeys store issuer) with
            | error reason => rfl
            | ok page => rfl

/-! ## One page -/

/-- The key of a record in the index of its issuer. -/
def indexKeyOf (rec : AssetRecord) : Bytes := slash :: strBytes rec.assetId

theorem indexKeys_ascending (store : RwaStore) (issuer : Address) :
    (indexKeys store issuer).Pairwise (· < ·) := by
  rw [indexKeys, List.pairwise_map]
  refine (store.prefixScan_sorted (issuerIndexPrefix issuer)).imp_of_mem ?_
  intro entry entry' hmem hmem' hlt
  have hsplit : ∀ e ∈ store.prefixScan (issuerIndexPrefix issuer),
      issuerIndexPrefix issuer ++
        e.1.drop (issuerIndexPrefix issuer).length = e.1 := by
    rintro ⟨raw, value⟩ he
    obtain ⟨-, -, -, rest, rfl⟩ := TypedStore.mem_prefixScan_iff.mp he
    rw [List.drop_left]
  have happend : StrictMono fun bytes : Bytes =>
      issuerIndexPrefix issuer ++ bytes :=
    fun _ _ hbytes => List.append_left_lt hbytes
  rw [← hsplit entry hmem, ← hsplit entry' hmem'] at hlt
  exact happend.lt_iff_lt.mp hlt

theorem mem_indexKeys_iff {sdk : Sdk} {store : RwaStore} {issuer : Address}
    (hregistry : Registry sdk store) {key : Bytes} :
    key ∈ indexKeys store issuer ↔
      ∃ rec, indexKeyOf rec = key ∧
        getAsset store rec.assetId = some rec ∧
        sdk.accAddressFromBech32 rec.issuer = .ok issuer := by
  obtain ⟨ids, hkeys, -, hmem⟩ := exists_indexKeys store issuer
  rw [hkeys, List.mem_map]
  simp only [hmem, hregistry.index]
  constructor
  · rintro ⟨id, ⟨rec, hget, hissuer⟩, rfl⟩
    obtain rfl := getAsset_assetId hget
    exact ⟨rec, rfl, hget, hissuer⟩
  · rintro ⟨rec, rfl, hget, hissuer⟩
    exact ⟨rec.assetId, ⟨rec, hget, hissuer⟩, rfl⟩

theorem getAssetBytes_indexKeyOf (store : RwaStore) (rec : AssetRecord) :
    getAssetBytes store (indexedID (indexKeyOf rec)) =
      getAsset store rec.assetId :=
  rfl

/-- Keys of the index lead to the records they name. -/
theorem assetsOfKeys_spec {sdk : Sdk} {store : RwaStore} {issuer : Address}
    (hregistry : Registry sdk store) {keys : List Bytes}
    (hkeys : ∀ key ∈ keys, key ∈ indexKeys store issuer) :
    (assetsOfKeys store keys).map indexKeyOf = keys ∧
      ∀ rec ∈ assetsOfKeys store keys,
        getAsset store rec.assetId = some rec ∧
          sdk.accAddressFromBech32 rec.issuer = .ok issuer := by
  induction keys with
  | nil => simp [assetsOfKeys]
  | cons key rest ih =>
      obtain ⟨hnames, hrecords⟩ := ih fun key hkey => hkeys key (by simp [hkey])
      obtain ⟨rec, rfl, hget, hissuer⟩ :=
        (mem_indexKeys_iff hregistry).mp (hkeys key (by simp))
      have hcons : assetsOfKeys store (indexKeyOf rec :: rest) =
          rec :: assetsOfKeys store rest := by
        rw [assetsOfKeys, List.filterMap_cons, getAssetBytes_indexKeyOf, hget]
        rfl
      rw [hcons, List.map_cons, hnames]
      exact ⟨rfl, List.forall_mem_cons.mpr ⟨⟨hget, hissuer⟩, hrecords⟩⟩

/-- A request for a page of an issuer without an offset. -/
def pageFrom (text : String) (limit : UInt64) (countTotal : Bool)
    (start : Option Bytes) :
    Option (QueryAssetsByIssuerRequest (PageRequest Bytes)) :=
  some ⟨text, ⟨start, 0, limit, countTotal⟩⟩

/-- Index keys are not empty, and an empty key in a request is no key. -/
def LawfulOnIndex (paginator : Paginator Bytes) : Prop :=
  paginator.Lawful fun key => key ≠ []

section Issuer

variable {k : Keeper} {paginator : Paginator Bytes} {text : String}
  {issuer : Address} {limit : UInt64} {countTotal : Bool}

/-- The query is answered with a page of the index. -/
theorem exists_answer {store : RwaStore} (hlawful : LawfulOnIndex paginator)
    (hregistry : Registry k.sdk store)
    (hissuer : k.sdk.accAddressFromBech32 text = .ok issuer)
    (htext : text ≠ "") (hlimit : limit ≠ 0) (countTotal : Bool)
    {start : Option Bytes} (hstart : ∀ first ∈ start, first ≠ []) :
    ∃ records response,
      assetsByIssuerPage k.sdk paginator store
          (pageFrom text limit countTotal start) = .ok (records, response) ∧
        IsPage limit.toNat start (indexKeys store issuer)
          (records.map indexKeyOf) response.nextKey ∧
        ∀ rec ∈ records, getAsset store rec.assetId = some rec ∧
          k.sdk.accAddressFromBech32 rec.issuer = .ok issuer := by
  obtain ⟨visited, response, hpaginate, hpage⟩ := hlawful.answers
    (indexKeys_ascending store issuer) hstart hlimit countTotal
  obtain ⟨hnames, hrecords⟩ := assetsOfKeys_spec hregistry
    fun key hvisited => ((hpage.visits key).mp hvisited).1
  refine ⟨assetsOfKeys store visited, response, ?_, ?_, hrecords⟩
  · simp only [assetsByIssuerPage, pageFrom, htext, if_false, hissuer,
      hpaginate]
  · rw [hnames]
    exact hpage

/-! ## Following the pages while the chain goes on -/

/-- An asset stays in the index of its issuer. -/
theorem indexKeys_of_run {s t : RwaState} {segment : History}
    (hregistry : Registry k.sdk s.store)
    (hsegment : Run (rwaStep k) s segment t) {key : Bytes}
    (hkey : key ∈ indexKeys s.store issuer) :
    key ∈ indexKeys t.store issuer := by
  have hall : Registry k.sdk t.store ∧ key ∈ indexKeys t.store issuer := by
    refine Run.invariant (I := fun t => Registry k.sdk t.store ∧
      key ∈ indexKeys t.store issuer) ⟨hregistry, hkey⟩ ?_ hsegment
    rintro state label state' ⟨hstate, hindexed⟩ hstep
    rcases rwaStep_cases hstep with ⟨-, -, hsame⟩ | ⟨-, -, haccepted⟩
    · rw [hsame]
      exact ⟨hstate, hindexed⟩
    · refine ⟨hstate.accepted haccepted, ?_⟩
      rw [mem_indexKeys_iff hstate] at hindexed
      rw [mem_indexKeys_iff (hstate.accepted haccepted)]
      obtain ⟨old, rfl, hold, howner⟩ := hindexed
      by_cases hwritten : label.2.written = some old.assetId
      · obtain ⟨new, hnew, hrecord⟩ := haccepted.recordStep hwritten
        rw [hold] at hrecord
        have hid := getAsset_assetId hnew
        refine ⟨new, congrArg (fun id => slash :: strBytes id) hid, ?_, ?_⟩
        · rw [hid]
          exact hnew
        · rw [hrecord.frozen.1]
          exact howner
      · exact ⟨old, rfl,
          (haccepted.getAsset_of_ne hwritten).trans hold, howner⟩
  exact hall.2

variable (k paginator text limit countTotal)

/-- A client reads from a key on, page by page, until a page names no next
key.  Any transactions may happen between two pages.  The list holds the state
in which each page was read. -/
inductive Walk : RwaState → Option Bytes →
    List (RwaState × List AssetRecord) → Prop
  | last {s : RwaState} {start : Option Bytes} {records : List AssetRecord}
      {response : PageResponse Bytes}
      (hanswer : assetsByIssuerPage k.sdk paginator s.store
        (pageFrom text limit countTotal start) = .ok (records, response))
      (hnext : response.nextKey = none) :
      Walk s start [(s, records)]
  | more {s t : RwaState} {start : Option Bytes} {records : List AssetRecord}
      {response : PageResponse Bytes} {next : Bytes} {between : History}
      {rest : List (RwaState × List AssetRecord)}
      (hanswer : assetsByIssuerPage k.sdk paginator s.store
        (pageFrom text limit countTotal start) = .ok (records, response))
      (hnext : response.nextKey = some next)
      (hbetween : Run (rwaStep k) s between t)
      (hrest : Walk t (some next) rest) :
      Walk s start ((s, records) :: rest)

variable {k paginator text limit countTotal}

/-- What is known of an answer. -/
theorem answer_spec {store : RwaStore} (hlawful : LawfulOnIndex paginator)
    (hregistry : Registry k.sdk store)
    (hissuer : k.sdk.accAddressFromBech32 text = .ok issuer)
    (htext : text ≠ "") (hlimit : limit ≠ 0) {start : Option Bytes}
    (hstart : ∀ first ∈ start, first ≠ []) {records : List AssetRecord}
    {response : PageResponse Bytes}
    (hanswer : assetsByIssuerPage k.sdk paginator store
      (pageFrom text limit countTotal start) = .ok (records, response)) :
    IsPage limit.toNat start (indexKeys store issuer)
        (records.map indexKeyOf) response.nextKey ∧
      ∀ rec ∈ records, getAsset store rec.assetId = some rec ∧
        k.sdk.accAddressFromBech32 rec.issuer = .ok issuer := by
  obtain ⟨records', response', hanswer', hspec⟩ :=
    exists_answer hlawful hregistry hissuer htext hlimit countTotal hstart
  rw [hanswer] at hanswer'
  cases hanswer'
  exact hspec

/-- A page that goes on has visited a key before the next one. -/
theorem next_ne_nil {start : Option Bytes} {keys visited : List Bytes}
    {next : Bytes} (hlimit : limit ≠ 0)
    (hpage : IsPage limit.toNat start keys visited (some next)) :
    next ≠ [] := by
  rintro rfl
  have hlength := (hpage.continues _ rfl).1
  have hpositive : limit.toNat ≠ 0 := fun hzero =>
    hlimit (UInt64.toNat_inj.mp hzero)
  obtain ⟨key, hkey⟩ := List.exists_mem_of_ne_nil visited (by
    rintro rfl
    exact hpositive hlength.symm)
  exact List.not_lt_nil key (((hpage.visits key).mp hkey).2.2 _ rfl)

theorem Walk.spec {s : RwaState} {start : Option Bytes}
    {pages : List (RwaState × List AssetRecord)}
    (hwalk : Walk k paginator text limit countTotal s start pages)
    (hlawful : LawfulOnIndex paginator) (hregistry : Registry k.sdk s.store)
    (hissuer : k.sdk.accAddressFromBech32 text = .ok issuer)
    (htext : text ≠ "") (hlimit : limit ≠ 0)
    (hstart : ∀ first ∈ start, first ≠ []) :
    Tour limit.toNat start (pages.map fun page =>
        (indexKeys page.1.store issuer, page.2.map indexKeyOf)) ∧
      (∀ page ∈ pages, ∀ key ∈ indexKeys s.store issuer,
        key ∈ indexKeys page.1.store issuer) ∧
      ∀ page ∈ pages, ∀ rec ∈ page.2,
        getAsset page.1.store rec.assetId = some rec ∧
          k.sdk.accAddressFromBech32 rec.issuer = .ok issuer := by
  induction hwalk with
  | last hanswer hnext =>
      obtain ⟨hpage, hrecords⟩ :=
        answer_spec hlawful hregistry hissuer htext hlimit hstart hanswer
      rw [hnext] at hpage
      refine ⟨.last hpage, ?_, ?_⟩
      · simp
      · simpa using hrecords
  | more hanswer hnext hbetween _ ih =>
      obtain ⟨hpage, hrecords⟩ :=
        answer_spec hlawful hregistry hissuer htext hlimit hstart hanswer
      rw [hnext] at hpage
      obtain ⟨htour, hgrown, hlater⟩ :=
        ih (hregistry.run hbetween) (by simpa using next_ne_nil hlimit hpage)
      refine ⟨.more hpage htour, ?_, ?_⟩
      · refine List.forall_mem_cons.mpr ⟨fun _ hkey => hkey, ?_⟩
        intro page hmem key hkey
        exact hgrown page hmem key (indexKeys_of_run hregistry hbetween hkey)
      · exact List.forall_mem_cons.mpr ⟨hrecords, hlater⟩

end Issuer

/-- A client reads the assets of an issuer page by page, over a lawful
paginator and while any transactions happen in between.  It is answered each
time and gets the assets in the order of their ids, none of them twice, each as
it was stored when its page was read, and every asset that the issuer had when
the client began.  All pages but the last are full. -/
theorem paging_survives_registrations
    {k : Keeper} {gs : GenesisState} {genesis s : RwaState} {history : History}
    {paginator : Paginator Bytes} (hlawful : LawfulOnIndex paginator)
    (hinit : initGenesis k TypedStore.empty gs = .ok genesis.store)
    (hrun : Run (rwaStep k) genesis history s) {text : String}
    {issuer : Address} (hissuer : k.sdk.accAddressFromBech32 text = .ok issuer)
    (htext : text ≠ "") {limit : UInt64} (hlimit : limit ≠ 0)
    (countTotal : Bool) :
    (∀ start, (∀ first ∈ start, first ≠ []) →
      ∃ answer, assetsByIssuerPage k.sdk paginator s.store
        (pageFrom text limit countTotal start) = .ok answer) ∧
    ∀ pages, Walk k paginator text limit countTotal s none pages →
      (pages.flatMap Prod.snd).Pairwise
          (fun rec later => strBytes rec.assetId < strBytes later.assetId) ∧
        (∀ page ∈ pages, ∀ rec ∈ page.2,
          getAsset page.1.store rec.assetId = some rec ∧
            k.sdk.accAddressFromBech32 rec.issuer = .ok issuer) ∧
        (∀ assetID rec, getAsset s.store assetID = some rec →
          k.sdk.accAddressFromBech32 rec.issuer = .ok issuer →
          assetID ∈ (pages.flatMap Prod.snd).map AssetRecord.assetId) ∧
        ∀ page ∈ pages.dropLast, page.2.length = limit.toNat := by
  have hregistry := (registry_of_genesis hinit).run hrun
  refine ⟨?_, ?_⟩
  · intro start hstart
    obtain ⟨records, response, hanswer, -⟩ :=
      exists_answer hlawful hregistry hissuer htext hlimit countTotal hstart
    exact ⟨_, hanswer⟩
  · intro pages hwalk
    obtain ⟨htour, hgrown, hrecords⟩ :=
      hwalk.spec hlawful hregistry hissuer htext hlimit (by simp)
    have hvisited : (pages.map fun page =>
        (indexKeys page.1.store issuer, page.2.map indexKeyOf)).flatMap
          Prod.snd = (pages.flatMap Prod.snd).map indexKeyOf := by
      rw [List.flatMap_map, List.map_flatMap]
    refine ⟨?_, hrecords, ?_, ?_⟩
    · have hascending := htour.ascending
      rw [hvisited, List.pairwise_map] at hascending
      refine hascending.imp fun hlt => ?_
      rw [indexKeyOf, indexKeyOf, List.cons_lt_cons_iff] at hlt
      simpa using hlt
    · intro assetID rec hget howner
      obtain rfl := getAsset_assetId hget
      have hindexed : indexKeyOf rec ∈ indexKeys s.store issuer :=
        (mem_indexKeys_iff hregistry).mpr ⟨rec, rfl, hget, howner⟩
      have hfound := htour.visits (indexKeyOf rec) (by simp) (by
        rw [List.forall_mem_map]
        exact fun page hpage => hgrown page hpage _ hindexed)
      rw [hvisited, List.mem_map] at hfound
      obtain ⟨found, hmem, hkey⟩ := hfound
      rw [indexKeyOf, indexKeyOf, List.cons.injEq] at hkey
      exact List.mem_map.mpr ⟨found, hmem, strBytes_injective hkey.2⟩
    · have hfull := htour.full
      rw [← List.map_dropLast, List.forall_mem_map] at hfull
      intro page hpage
      rw [← hfull page hpage, List.length_map]

/-- A paginator which cuts its page out of the list. -/
def referencePaginator : Paginator Bytes := fun req keys =>
  let left := keys.filter fun key => ∀ first ∈ req.key, first ≤ key
  .ok (left.take req.limit.toNat, ⟨left[req.limit.toNat]?, 0⟩)

theorem referencePaginator_lawful : LawfulOnIndex referencePaginator :=
  ⟨fun hascending _ _ limit _ _ =>
    ⟨_, _, rfl, isPage_take hascending limit.toNat _⟩⟩

/-- The answer holds one asset and names the next key. -/
def onePage (store : RwaStore) (start : Option Bytes) (assetID : String)
    (next : Option Bytes) : Bool :=
  (assetsByIssuerPage referenceKeeper.sdk referencePaginator store
      (pageFrom issuerText 1 false start)).toOption.any fun answer =>
    answer.1.map AssetRecord.assetId == [assetID] && answer.2.nextKey == next

theorem exists_of_onePage {store : RwaStore} {start next : Option Bytes}
    {assetID : String} (hpage : onePage store start assetID next = true) :
    ∃ records response,
      assetsByIssuerPage referenceKeeper.sdk referencePaginator store
          (pageFrom issuerText 1 false start) = .ok (records, response) ∧
        records.map AssetRecord.assetId = [assetID] ∧
        response.nextKey = next := by
  obtain ⟨⟨records, response⟩, hanswer, hchecked⟩ := exists_ok_of_any hpage
  simp only [Bool.and_eq_true, beq_iff_eq] at hchecked
  exact ⟨records, response, hanswer, hchecked⟩

def keyOf (assetID : String) : Bytes := slash :: strBytes assetID

/-- Between the first two pages one asset is registered on each side of the
next key.  The later one is found. -/
theorem later_plot_found :
    ∃ genesis history s pages,
      initGenesis referenceKeeper TypedStore.empty defaultGenesis =
          .ok genesis.store ∧
        Run (rwaStep referenceKeeper) genesis history s ∧
        Walk referenceKeeper referencePaginator issuerText 1 false s none
          pages ∧
        (pages.flatMap Prod.snd).map AssetRecord.assetId =
          ["land", "mine", "zinc"] ∧
        (pages.flatMap Prod.snd).Pairwise
          (fun rec later => strBytes rec.assetId < strBytes later.assetId) ∧
        ∀ page ∈ pages.dropLast, page.2.length = 1 := by
  have hfacts : (runDefault [setMinBond "5000000000", registerNamed "land",
      registerNamed "mine"]).any
      (fun r =>
        (replay (rwaStep referenceKeeper) [] r.2.2
          [(openEnv, registerNamed "acre"),
            (openEnv, registerNamed "zinc")]).any fun later =>
          onePage r.2.2.store none "land" (some (keyOf "mine")) &&
            (onePage later.2.store (some (keyOf "mine")) "mine"
                (some (keyOf "zinc")) &&
              onePage later.2.store (some (keyOf "zinc")) "zinc" none)) =
      true := by
    decide +kernel
  obtain ⟨⟨genesis, history, s⟩, hrun, hlater⟩ := exists_some_of_any hfacts
  obtain ⟨⟨between, t⟩, hreplay, hchecked⟩ := exists_some_of_any hlater
  simp only [Bool.and_eq_true] at hchecked
  obtain ⟨first, response, hfirst, hland, hnext⟩ :=
    exists_of_onePage hchecked.1
  obtain ⟨second, response', hsecond, hmine, hnext'⟩ :=
    exists_of_onePage hchecked.2.1
  obtain ⟨third, response'', hthird, hzinc, hnext''⟩ :=
    exists_of_onePage hchecked.2.2
  obtain ⟨hinit, hreached⟩ := run_of_runDefault hrun
  have hwalk : Walk referenceKeeper referencePaginator issuerText 1 false s none
      [(s, first), (t, second), (t, third)] :=
    .more hfirst hnext (run_of_replay .start hreplay)
      (.more hsecond hnext' .start (.last hthird hnext''))
  obtain ⟨hordered, -, -, hfull⟩ :=
    (paging_survives_registrations referencePaginator_lawful hinit hreached
      issuerText_decoded (by decide) (by decide) false).2 _ hwalk
  refine ⟨genesis, history, s, _, hinit, hreached, hwalk, ?_, hordered, hfull⟩
  simp [hland, hmine, hzinc]

end Rwa
end Vertix
