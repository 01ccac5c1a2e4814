import Vertix.OrderedStore
import Mathlib.Tactic

/-!
# Typed records in a byte-keyed store

Several record families usually share one byte-keyed store.  A key codec
encodes structured keys injectively, and a typed store carries the fact that
every stored entry sits under an encoded key which admits its value.  Point
reads and writes then behave as on a map from structured keys, and a prefix
scan visits exactly the structured keys whose encodings extend the prefix.
-/

namespace Vertix

/-- A list inside the range of a function is the image of a list. -/
theorem exists_map_eq_of_forall_mem {α β : Type} (f : α → β)
    (items : List β) (hitems : ∀ item ∈ items, ∃ source, f source = item) :
    ∃ sources : List α, sources.map f = items := by
  induction items with
  | nil => exact ⟨[], rfl⟩
  | cons item rest ih =>
      rcases hitems item (by simp) with ⟨source, hsource⟩
      rcases ih fun other hother => hitems other (by simp [hother]) with
        ⟨sources, hsources⟩
      exact ⟨source :: sources, by simp [hsource, hsources]⟩

structure KeyCodec (Key : Type) where
  encode : Key → Bytes
  injective : Function.Injective encode

structure TypedStore {Key V : Type} (codec : KeyCodec Key)
    (admits : Key → V → Prop) where
  bytes : OrderedStore Bytes V
  typed :
    ∀ raw value, bytes.get raw = some value →
      ∃ key, codec.encode key = raw ∧ admits key value

namespace TypedStore

variable {Key V : Type} {codec : KeyCodec Key} {admits : Key → V → Prop}

def empty : TypedStore codec admits :=
  ⟨OrderedStore.empty, by simp⟩

def get (store : TypedStore codec admits) (key : Key) : Option V :=
  store.bytes.get (codec.encode key)

def set (store : TypedStore codec admits) (key : Key) (value : V)
    (hadmits : admits key value) : TypedStore codec admits where
  bytes := store.bytes.set (codec.encode key) value
  typed := by
    intro raw stored hget
    rw [OrderedStore.get_set] at hget
    split_ifs at hget with hraw
    · cases hget
      exact ⟨key, hraw, hadmits⟩
    · exact store.typed raw stored hget

def deleteAll (store : TypedStore codec admits) (raws : List Bytes) :
    TypedStore codec admits where
  bytes := store.bytes.deleteAll raws
  typed := by
    intro raw stored hget
    rw [OrderedStore.get_deleteAll] at hget
    split_ifs at hget with hraw
    exact store.typed raw stored hget

def delete (store : TypedStore codec admits) (key : Key) :
    TypedStore codec admits :=
  store.deleteAll [codec.encode key]

def prefixScan (store : TypedStore codec admits) (pre : Bytes) :
    List (Bytes × V) :=
  store.bytes.prefixScan pre

def deletePrefix (store : TypedStore codec admits) (pre : Bytes) :
    TypedStore codec admits :=
  store.deleteAll ((store.prefixScan pre).map Prod.fst)

@[simp] theorem get_empty (key : Key) :
    (empty : TypedStore codec admits).get key = none := rfl

theorem admits_of_get
    {store : TypedStore codec admits} {key : Key} {value : V}
    (hget : store.get key = some value) : admits key value := by
  rcases store.typed _ value hget with ⟨key', hencode, hadmits⟩
  rw [codec.injective hencode] at hadmits
  exact hadmits

theorem get_set [DecidableEq Key]
    (store : TypedStore codec admits) (key other : Key) (value : V)
    (hadmits : admits key value) :
    (store.set key value hadmits).get other =
      if key = other then some value else store.get other := by
  unfold get set
  rw [OrderedStore.get_set]
  by_cases hkey : key = other
  · simp [hkey]
  · have hencode : codec.encode key ≠ codec.encode other :=
      fun h => hkey (codec.injective h)
    simp [hkey, hencode]

@[simp] theorem get_set_self
    (store : TypedStore codec admits) (key : Key) (value : V)
    (hadmits : admits key value) :
    (store.set key value hadmits).get key = some value := by
  classical
  rw [get_set, if_pos rfl]

theorem get_set_of_ne
    (store : TypedStore codec admits) {key other : Key} {value : V}
    (hadmits : admits key value) (hne : key ≠ other) :
    (store.set key value hadmits).get other = store.get other := by
  classical
  rw [get_set, if_neg hne]

theorem get_deleteAll
    (store : TypedStore codec admits) (raws : List Bytes) (key : Key) :
    (store.deleteAll raws).get key =
      if codec.encode key ∈ raws then none else store.get key := by
  unfold get deleteAll
  rw [OrderedStore.get_deleteAll]
  split_ifs <;> rfl

theorem get_delete [DecidableEq Key]
    (store : TypedStore codec admits) (key other : Key) :
    (store.delete key).get other =
      if key = other then none else store.get other := by
  rw [delete, get_deleteAll]
  by_cases hkey : key = other
  · simp [hkey]
  · have hencode : codec.encode other ≠ codec.encode key :=
      fun h => hkey (codec.injective h).symm
    simp [hkey, hencode]

theorem get_deletePrefix
    (store : TypedStore codec admits) (pre : Bytes) (key : Key) :
    (store.deletePrefix pre).get key =
      if pre <+: codec.encode key then none else store.get key := by
  have hbytes :=
    OrderedStore.get_deletePrefix store.bytes pre (codec.encode key)
  exact hbytes

theorem mem_prefixScan_iff
    {store : TypedStore codec admits} {pre raw : Bytes} {value : V} :
    (raw, value) ∈ store.prefixScan pre ↔
      ∃ key, codec.encode key = raw ∧ store.get key = some value ∧
        pre <+: raw := by
  rw [prefixScan, OrderedStore.mem_prefixScan_iff]
  constructor
  · intro h
    rcases store.typed raw value h.1 with ⟨key, hencode, -⟩
    refine ⟨key, hencode, ?_, h.2⟩
    rw [get, hencode]
    exact h.1
  · intro h
    rcases h with ⟨key, hencode, hget, hstarts⟩
    rw [get, hencode] at hget
    exact ⟨hget, hstarts⟩

theorem prefixScan_sorted
    (store : TypedStore codec admits) (pre : Bytes) :
    (store.prefixScan pre).Pairwise fun a b => a.1 < b.1 :=
  store.bytes.scan_sorted _

theorem prefixScan_keys_nodup
    (store : TypedStore codec admits) (pre : Bytes) :
    ((store.prefixScan pre).map Prod.fst).Nodup :=
  store.bytes.scan_keys_nodup _

/-- A prefix which selects one family of keys scans the stored records of that
family, each once. -/
theorem exists_scanned {R : Type} (pre : Bytes)
    (key : R → Key) (value : R → V)
    (hstarts : ∀ record, pre <+: codec.encode (key record))
    (hcover : ∀ other stored, pre <+: codec.encode other →
      admits other stored → ∃ record, key record = other ∧
        value record = stored)
    (hinjective : ∀ left right, key left = key right →
      value left = value right → left = right)
    (store : TypedStore codec admits) :
    ∃ records : List R,
      store.prefixScan pre =
          records.map (fun record => (codec.encode (key record), value record)) ∧
        (records.map key).Nodup ∧
        ∀ record, record ∈ records ↔
          store.get (key record) = some (value record) := by
  let place : R → Bytes × V :=
    fun record => (codec.encode (key record), value record)
  have hplace : Function.Injective place := by
    intro left right heq
    simp only [place, Prod.mk.injEq] at heq
    exact hinjective left right (codec.injective heq.1) heq.2
  have hdecode : ∀ item ∈ store.prefixScan pre, ∃ record,
      place record = item := by
    intro item hitem
    obtain ⟨other, hencode, hget, hpre⟩ := mem_prefixScan_iff.mp
      (show (item.1, item.2) ∈ store.prefixScan pre from hitem)
    rw [← hencode] at hpre
    obtain ⟨record, hkey, hvalue⟩ :=
      hcover other item.2 hpre (admits_of_get hget)
    refine ⟨record, Prod.ext ?_ hvalue⟩
    rw [← hencode, ← hkey]
  obtain ⟨records, hrecords⟩ := exists_map_eq_of_forall_mem place _ hdecode
  refine ⟨records, hrecords.symm, ?_, ?_⟩
  · have hnodup := store.prefixScan_keys_nodup pre
    rw [← hrecords, List.map_map] at hnodup
    have hcompose : Prod.fst ∘ place = codec.encode ∘ key := rfl
    rw [hcompose, ← List.map_map] at hnodup
    exact hnodup.of_map _
  · intro record
    have hmem : record ∈ records ↔ place record ∈ store.prefixScan pre := by
      rw [← hrecords, List.mem_map_of_injective hplace]
    rw [hmem, mem_prefixScan_iff]
    constructor
    · intro h
      obtain ⟨other, hencode, hget, -⟩ := h
      rwa [codec.injective hencode] at hget
    · intro hget
      exact ⟨key record, rfl, hget, hstarts record⟩

/-- Lookups by byte key follow from lookups by structured key. -/
theorem bytes_get_congr
    {left right : TypedStore codec admits} {raw : Bytes}
    (hget : ∀ key, codec.encode key = raw → left.get key = right.get key) :
    left.bytes.get raw = right.bytes.get raw := by
  apply Option.ext
  intro value
  constructor
  · intro hleft
    rcases left.typed raw value hleft with ⟨key, hencode, -⟩
    have hkey := hget key hencode
    rw [get, get, hencode] at hkey
    exact hkey.symm.trans hleft
  · intro hright
    rcases right.typed raw value hright with ⟨key, hencode, -⟩
    have hkey := hget key hencode
    rw [get, get, hencode] at hkey
    exact hkey.trans hright

theorem prefixScan_congr
    {left right : TypedStore codec admits} {pre : Bytes}
    (hget : ∀ key, pre <+: codec.encode key → left.get key = right.get key) :
    left.prefixScan pre = right.prefixScan pre := by
  apply OrderedStore.prefixScan_congr
  intro raw hstarts
  apply bytes_get_congr
  intro key hencode
  apply hget
  rw [hencode]
  exact hstarts

/-- A view of the scanned values depends only on the view of the lookups. -/
theorem prefixScan_map_congr {W : Type} (view : V → W)
    {left right : TypedStore codec admits} {pre : Bytes}
    (hget : ∀ key, pre <+: codec.encode key →
      (left.get key).map view = (right.get key).map view) :
    (left.prefixScan pre).map (Prod.map id view) =
      (right.prefixScan pre).map (Prod.map id view) := by
  apply OrderedStore.scan_map_congr
  intro raw hinside
  have hstarts := (inRange_prefixEndBytes_iff pre raw).mp hinside
  -- a raw key which either store holds encodes a structured key
  have hraw : ∀ store : TypedStore codec admits, store.bytes.get raw = none ∨
      ∃ key, codec.encode key = raw := by
    intro store
    cases hvalue : store.bytes.get raw with
    | none => exact Or.inl rfl
    | some value =>
        rcases store.typed raw value hvalue with ⟨key, hencode, -⟩
        exact Or.inr ⟨key, hencode⟩
  have hkeyed : (∃ key, codec.encode key = raw) →
      (left.bytes.get raw).map view = (right.bytes.get raw).map view := by
    rintro ⟨key, rfl⟩
    exact hget key hstarts
  rcases hraw left with hleft | hkey
  · rcases hraw right with hright | hkey
    · rw [hleft, hright]
    · exact hkeyed hkey
  · exact hkeyed hkey

theorem ext_get
    {left right : TypedStore codec admits}
    (hget : ∀ key, left.get key = right.get key) : left = right := by
  have hbytes : left.bytes = right.bytes := by
    apply OrderedStore.ext_get
    intro raw
    exact bytes_get_congr fun key _ => hget key
  cases left
  cases right
  simp_all

end TypedStore

end Vertix
