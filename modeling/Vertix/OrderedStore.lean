import Mathlib.Data.List.Lex
import Mathlib.Data.List.Sort
import Mathlib.Tactic

/-!
# Ordered key-value stores

A store is a finite map whose entries are kept strictly sorted by key, so an
iteration visits each key once and in order.  Point lookups determine a store
completely.  The second half specializes keys to byte strings and shows that
the half-open range between a prefix and its prefix end contains exactly the
keys which start with the prefix.
-/

namespace Vertix

/-- A finite map with its entries in strictly increasing key order. -/
structure OrderedStore (K V : Type) [LinearOrder K] where
  entries : List (K × V)
  sorted : entries.Pairwise fun a b => a.1 < b.1

namespace OrderedStore

variable {K V : Type} [LinearOrder K]

def lookupEntry (key : K) : List (K × V) → Option V
  | [] => none
  | entry :: rest =>
      if entry.1 = key then some entry.2 else lookupEntry key rest

def insertEntry (key : K) (value : V) : List (K × V) → List (K × V)
  | [] => [(key, value)]
  | entry :: rest =>
      if key < entry.1 then (key, value) :: entry :: rest
      else if key = entry.1 then (key, value) :: rest
      else entry :: insertEntry key value rest

theorem mem_insertEntry
    {key : K} {value : V} {entry : K × V} {entries : List (K × V)}
    (hmem : entry ∈ insertEntry key value entries) :
    entry = (key, value) ∨ entry ∈ entries := by
  induction entries with
  | nil => simpa [insertEntry] using hmem
  | cons first rest ih =>
      simp only [insertEntry] at hmem
      split_ifs at hmem with hlt heq
      · simpa using hmem
      · rcases List.mem_cons.mp hmem with hnew | hold
        · exact Or.inl hnew
        · exact Or.inr (List.mem_cons_of_mem first hold)
      · rcases List.mem_cons.mp hmem with hfirst | hrest
        · exact Or.inr (by simp [hfirst])
        · exact (ih hrest).imp_right (List.mem_cons_of_mem first)

theorem insertEntry_sorted
    (key : K) (value : V) {entries : List (K × V)}
    (hsorted : entries.Pairwise fun a b => a.1 < b.1) :
    (insertEntry key value entries).Pairwise fun a b => a.1 < b.1 := by
  induction entries with
  | nil => simp [insertEntry]
  | cons first rest ih =>
      obtain ⟨hfirst, hrest⟩ := List.pairwise_cons.mp hsorted
      simp only [insertEntry]
      split_ifs with hlt heq
      · refine List.pairwise_cons.mpr ⟨?_, hsorted⟩
        intro entry hmem
        rcases List.mem_cons.mp hmem with rfl | htail
        · exact hlt
        · exact hlt.trans (hfirst entry htail)
      · subst heq
        exact List.pairwise_cons.mpr ⟨hfirst, hrest⟩
      · refine List.pairwise_cons.mpr ⟨?_, ih hrest⟩
        intro entry hmem
        rcases mem_insertEntry hmem with rfl | htail
        · exact lt_of_le_of_ne (not_lt.mp hlt) (Ne.symm heq)
        · exact hfirst entry htail

theorem lookupEntry_insertEntry
    (key other : K) (value : V) (entries : List (K × V)) :
    lookupEntry other (insertEntry key value entries) =
      if key = other then some value else lookupEntry other entries := by
  induction entries with
  | nil => simp [insertEntry, lookupEntry]
  | cons first rest ih =>
      simp only [insertEntry]
      by_cases hlt : key < first.1
      · simp [hlt, lookupEntry]
      · by_cases heq : key = first.1
        · subst heq
          by_cases hother : first.1 = other <;> simp [lookupEntry, hother]
        · rw [if_neg hlt, if_neg heq, lookupEntry, lookupEntry, ih]
          by_cases hother : key = other
          · have hne : first.1 ≠ other := fun h => heq (hother.trans h.symm)
            simp [hother, hne]
          · simp [hother]

theorem lookupEntry_eq_some_iff
    {key : K} {value : V} {entries : List (K × V)}
    (hsorted : entries.Pairwise fun a b => a.1 < b.1) :
    lookupEntry key entries = some value ↔ (key, value) ∈ entries := by
  induction entries with
  | nil => simp [lookupEntry]
  | cons first rest ih =>
      obtain ⟨hfirst, hrest⟩ := List.pairwise_cons.mp hsorted
      rw [lookupEntry, List.mem_cons, ← ih hrest]
      split_ifs with heq
      · subst heq
        have habsent : ¬ lookupEntry first.1 rest = some value := by
          intro hfound
          exact lt_irrefl _ (hfirst (first.1, value) ((ih hrest).mp hfound))
        constructor
        · intro hvalue
          left
          exact Prod.ext rfl (Option.some.inj hvalue).symm
        · rintro (hpair | hfound)
          · rw [← hpair]
          · exact absurd hfound habsent
      · have hne : (key, value) ≠ first := by
          rintro rfl
          exact heq rfl
        simp [hne]

def empty : OrderedStore K V := ⟨[], List.Pairwise.nil⟩

def get (store : OrderedStore K V) (key : K) : Option V :=
  lookupEntry key store.entries

def has (store : OrderedStore K V) (key : K) : Bool :=
  (store.get key).isSome

def set (store : OrderedStore K V) (key : K) (value : V) : OrderedStore K V :=
  ⟨insertEntry key value store.entries,
    insertEntry_sorted key value store.sorted⟩

def delete (store : OrderedStore K V) (key : K) : OrderedStore K V :=
  ⟨store.entries.filter fun entry => entry.1 ≠ key,
    store.sorted.filter _⟩

def deleteAll (store : OrderedStore K V) (keys : List K) : OrderedStore K V :=
  keys.foldl delete store

/-- The entries an iterator visits when it is bounded to the keys satisfying
a test, in key order. -/
def scan (store : OrderedStore K V) (inside : K → Bool) : List (K × V) :=
  store.entries.filter fun entry => inside entry.1

theorem get_eq_some_iff
    {store : OrderedStore K V} {key : K} {value : V} :
    store.get key = some value ↔ (key, value) ∈ store.entries :=
  lookupEntry_eq_some_iff store.sorted

@[simp] theorem get_empty (key : K) :
    (empty : OrderedStore K V).get key = none := rfl

theorem get_set (store : OrderedStore K V) (key other : K) (value : V) :
    (store.set key value).get other =
      if key = other then some value else store.get other :=
  lookupEntry_insertEntry key other value store.entries

@[simp] theorem get_set_self
    (store : OrderedStore K V) (key : K) (value : V) :
    (store.set key value).get key = some value := by
  rw [get_set, if_pos rfl]

theorem get_set_of_ne
    (store : OrderedStore K V) {key other : K} (value : V)
    (hne : key ≠ other) :
    (store.set key value).get other = store.get other := by
  rw [get_set, if_neg hne]

theorem get_delete (store : OrderedStore K V) (key other : K) :
    (store.delete key).get other =
      if key = other then none else store.get other := by
  apply Option.ext
  intro value
  have hdeleted :
      (store.delete key).get other = some value ↔
        (other, value) ∈ store.entries ∧ other ≠ key := by
    rw [get_eq_some_iff]
    simp [delete]
  rw [hdeleted]
  split_ifs with heq
  · simp [heq]
  · rw [get_eq_some_iff]
    simp [Ne.symm heq]

theorem get_deleteAll
    (store : OrderedStore K V) (keys : List K) (other : K) :
    (store.deleteAll keys).get other =
      if other ∈ keys then none else store.get other := by
  induction keys generalizing store with
  | nil => simp [deleteAll]
  | cons key rest ih =>
      have hfold :
          store.deleteAll (key :: rest) =
            (store.delete key).deleteAll rest := rfl
      rw [hfold, ih, get_delete]
      by_cases hrest : other ∈ rest
      · simp [hrest]
      · by_cases hkey : key = other
        · simp [hkey]
        · simp [hrest, hkey, Ne.symm hkey]

theorem mem_scan_iff
    {store : OrderedStore K V} {inside : K → Bool} {key : K} {value : V} :
    (key, value) ∈ store.scan inside ↔
      store.get key = some value ∧ inside key = true := by
  rw [get_eq_some_iff]
  simp [scan]

theorem scan_sorted (store : OrderedStore K V) (inside : K → Bool) :
    (store.scan inside).Pairwise fun a b => a.1 < b.1 :=
  store.sorted.filter _

theorem scan_keys_nodup (store : OrderedStore K V) (inside : K → Bool) :
    ((store.scan inside).map Prod.fst).Nodup := by
  rw [List.Nodup, List.pairwise_map]
  exact (store.scan_sorted inside).imp fun hlt => hlt.ne

/-- Deleting every key a scan visits clears the scanned range and nothing
else. -/
theorem get_deleteAll_scan
    (store : OrderedStore K V) (inside : K → Bool) (key : K) :
    (store.deleteAll ((store.scan inside).map Prod.fst)).get key =
      if inside key then none else store.get key := by
  rw [get_deleteAll]
  by_cases hinside : inside key = true
  · rw [if_pos hinside]
    split_ifs with hmem
    · rfl
    · cases hget : store.get key with
      | none => rfl
      | some value =>
          have hscan : (key, value) ∈ store.scan inside :=
            mem_scan_iff.mpr ⟨hget, hinside⟩
          exact absurd (List.mem_map.mpr ⟨_, hscan, rfl⟩) hmem
  · rw [if_neg hinside, if_neg]
    intro hmem
    obtain ⟨entry, hentry, hkey⟩ := List.mem_map.mp hmem
    have hboth := mem_scan_iff.mp (show (entry.1, entry.2) ∈ _ from hentry)
    rw [hkey] at hboth
    exact hinside hboth.2

/-- Strictly sorted entry lists with the same members are equal. -/
theorem entries_ext
    {left right : List (K × V)}
    (hleft : left.Pairwise fun a b => a.1 < b.1)
    (hright : right.Pairwise fun a b => a.1 < b.1)
    (hmem : ∀ entry, entry ∈ left ↔ entry ∈ right) : left = right := by
  have hnodup : ∀ entries : List (K × V),
      (entries.Pairwise fun a b => a.1 < b.1) → entries.Nodup := by
    intro entries hsorted
    exact hsorted.imp fun hlt heq => hlt.ne (congrArg Prod.fst heq)
  have hperm : left.Perm right :=
    (List.perm_ext_iff_of_nodup (hnodup left hleft) (hnodup right hright)).mpr
      hmem
  exact hperm.eq_of_pairwise
    (fun a b _ _ hab hba => absurd hab (not_lt.mpr hba.le)) hleft hright

/-- A scan depends only on the lookups inside its range. -/
theorem scan_congr
    {left right : OrderedStore K V} {inside : K → Bool}
    (hget : ∀ key, inside key = true → left.get key = right.get key) :
    left.scan inside = right.scan inside := by
  apply entries_ext (left.scan_sorted inside) (right.scan_sorted inside)
  intro entry
  have hentry :
      ∀ store : OrderedStore K V,
        entry ∈ store.scan inside ↔
          store.get entry.1 = some entry.2 ∧ inside entry.1 = true :=
    fun store => mem_scan_iff
  rw [hentry left, hentry right]
  constructor
  · intro h
    exact ⟨(hget entry.1 h.2).symm.trans h.1, h.2⟩
  · intro h
    exact ⟨(hget entry.1 h.2).trans h.1, h.2⟩

/-- A view of the scanned values depends only on the view of the lookups. -/
theorem scan_map_congr {W : Type} (view : V → W)
    {left right : OrderedStore K V} {inside : K → Bool}
    (hget : ∀ key, inside key = true →
      (left.get key).map view = (right.get key).map view) :
    (left.scan inside).map (Prod.map id view) =
      (right.scan inside).map (Prod.map id view) := by
  have hsorted : ∀ store : OrderedStore K V,
      ((store.scan inside).map (Prod.map id view)).Pairwise
        fun a b => a.1 < b.1 := by
    intro store
    rw [List.pairwise_map]
    exact store.scan_sorted inside
  have hmem : ∀ (store : OrderedStore K V) (entry : K × W),
      entry ∈ (store.scan inside).map (Prod.map id view) ↔
        (store.get entry.1).map view = some entry.2 ∧
          inside entry.1 = true := by
    intro store entry
    simp only [List.mem_map, Option.map_eq_some_iff]
    constructor
    · rintro ⟨⟨key, value⟩, hscan, rfl⟩
      have hboth := mem_scan_iff.mp hscan
      exact ⟨⟨value, hboth.1, rfl⟩, hboth.2⟩
    · rintro ⟨⟨value, hvalue, hview⟩, hinside⟩
      exact ⟨(entry.1, value), mem_scan_iff.mpr ⟨hvalue, hinside⟩,
        Prod.ext rfl hview⟩
  apply entries_ext (hsorted left) (hsorted right)
  intro entry
  rw [hmem left, hmem right]
  constructor
  · rintro ⟨hvalue, hinside⟩
    exact ⟨(hget entry.1 hinside).symm.trans hvalue, hinside⟩
  · rintro ⟨hvalue, hinside⟩
    exact ⟨(hget entry.1 hinside).trans hvalue, hinside⟩

/-- Two stores with the same lookups are the same store. -/
@[ext] theorem ext_get
    {left right : OrderedStore K V}
    (hget : ∀ key, left.get key = right.get key) : left = right := by
  have hmem : ∀ entry, entry ∈ left.entries ↔ entry ∈ right.entries := by
    intro entry
    have hlookup : ∀ store : OrderedStore K V,
        entry ∈ store.entries ↔ store.get entry.1 = some entry.2 :=
      fun store => get_eq_some_iff.symm
    rw [hlookup left, hlookup right, hget entry.1]
  have hentries : left.entries = right.entries :=
    entries_ext left.sorted right.sorted hmem
  cases left
  cases right
  simp_all

end OrderedStore

/-! ## Byte keys -/

abbrev Bytes := List UInt8

instance byteLinearOrder : LinearOrder UInt8 where
  le_refl byte := UInt8.le_refl byte
  le_trans _ _ _ := UInt8.le_trans
  le_antisymm _ _ := UInt8.le_antisymm
  le_total := UInt8.le_total
  lt_iff_le_not_ge a b := by
    rw [UInt8.lt_iff_toNat_lt, UInt8.le_iff_toNat_le, UInt8.le_iff_toNat_le]
    omega
  toDecidableLE := inferInstance

/-- The `width` low-order bytes of a number, most significant first. -/
def bigEndian : ℕ → ℕ → Bytes
  | 0, _ => []
  | width + 1, n => UInt8.ofNat (n / 256 ^ width) :: bigEndian width n

@[simp] theorem bigEndian_length (width n : ℕ) :
    (bigEndian width n).length = width := by
  induction width with
  | zero => rfl
  | succ width ih => simp [bigEndian, ih]

theorem mod_eq_of_bigEndian_eq {width n m : ℕ}
    (hbytes : bigEndian width n = bigEndian width m) :
    n % 256 ^ width = m % 256 ^ width := by
  induction width with
  | zero => simp [Nat.mod_one]
  | succ width ih =>
      simp only [bigEndian, List.cons.injEq] at hbytes
      have hhead : n / 256 ^ width % 256 = m / 256 ^ width % 256 := by
        simpa using congrArg UInt8.toNat hbytes.1
      rw [pow_succ, Nat.mod_mul, Nat.mod_mul, hhead, ih hbytes.2]

/-- Fixed-width numbers are ordered as their encodings are. -/
theorem bigEndian_lt_iff (width n m : ℕ) :
    bigEndian width n < bigEndian width m ↔
      n % 256 ^ width < m % 256 ^ width := by
  induction width with
  | zero => simp [bigEndian, Nat.mod_one]
  | succ width ih =>
      have hn := Nat.mod_lt n (show 0 < 256 ^ width by positivity)
      have hm := Nat.mod_lt m (show 0 < 256 ^ width by positivity)
      -- the leading digit decides unless it is the same in both numbers
      have hdigits : ∀ x y a b P : ℕ, x < P → y < P →
          (x + P * a < y + P * b ↔ a < b ∨ a = b ∧ x < y) := by
        intro x y a b P hx hy
        rcases lt_trichotomy a b with hlt | rfl | hgt
        · have hstep := Nat.mul_le_mul_left P (Nat.succ_le_of_lt hlt)
          rw [Nat.mul_succ] at hstep
          simp only [hlt, true_or, iff_true]
          omega
        · simp
        · have hstep := Nat.mul_le_mul_left P (Nat.succ_le_of_lt hgt)
          rw [Nat.mul_succ] at hstep
          simp only [hgt.not_gt, hgt.ne', false_and, or_false, iff_false]
          omega
      rw [bigEndian, bigEndian, List.cons_lt_cons_iff, ih, pow_succ,
        Nat.mod_mul, Nat.mod_mul, hdigits _ _ _ _ _ hn hm,
        UInt8.lt_iff_toNat_lt, ← UInt8.toNat_inj, UInt8.toNat_ofNat',
        UInt8.toNat_ofNat']

/-- The least byte string above every extension of `pre`: the last byte which
is not `255` is incremented and everything after it is dropped.  There is no
such string when every byte is `255`. -/
def prefixEndBytes : Bytes → Option Bytes
  | [] => none
  | byte :: rest =>
      match prefixEndBytes rest with
      | some stop => some (byte :: stop)
      | none => if byte = 255 then none else some [byte + 1]

def inRange (start : Bytes) (stop : Option Bytes) (key : Bytes) : Bool :=
  decide (¬ key < start) && stop.all fun bound => decide (key < bound)

theorem byte_le_max (byte : UInt8) : byte ≤ 255 := by
  have hlt := byte.toNat_lt
  rw [UInt8.le_iff_toNat_le]
  simp only [UInt8.reduceToNat]
  omega

theorem byte_lt_add_one_iff {byte other : UInt8} (hmax : byte ≠ 255) :
    other < byte + 1 ↔ other ≤ byte := by
  have hlt : byte.toNat < 255 := by
    have hle := byte.toNat_lt
    have hne : byte.toNat ≠ 255 := fun h => hmax (UInt8.toNat_inj.mp h)
    omega
  rw [UInt8.lt_iff_toNat_lt, UInt8.le_iff_toNat_le, UInt8.toNat_add]
  simp only [UInt8.toNat_one]
  omega

/-- A scan from a prefix to its prefix end visits exactly the keys which start
with the prefix. -/
theorem inRange_prefixEndBytes_iff (pre key : Bytes) :
    inRange pre (prefixEndBytes pre) key = true ↔ pre <+: key := by
  induction pre generalizing key with
  | nil => simp [inRange, prefixEndBytes]
  | cons byte rest ih =>
      cases key with
      | nil => simp [inRange]
      | cons head tail =>
          have htail := ih tail
          simp only [inRange, Bool.and_eq_true, decide_eq_true_eq] at htail ⊢
          rw [List.cons_prefix_cons, ← htail, prefixEndBytes,
            List.cons_lt_cons_iff, not_or, not_and]
          cases hstop : prefixEndBytes rest with
          | some stop =>
              simp only [Option.all_some, decide_eq_true_eq,
                List.cons_lt_cons_iff]
              constructor
              · rintro ⟨⟨hge, hrest⟩, hhead | ⟨rfl, hlt⟩⟩
                · exact absurd hhead hge
                · exact ⟨rfl, hrest rfl, hlt⟩
              · rintro ⟨rfl, hrest, hlt⟩
                exact ⟨⟨lt_irrefl _, fun _ => hrest⟩, Or.inr ⟨rfl, hlt⟩⟩
          | none =>
              split_ifs with hmax
              · subst hmax
                simp only [Option.all_none, and_true]
                constructor
                · rintro ⟨hge, hrest⟩
                  have heq : head = 255 :=
                    le_antisymm (byte_le_max head) (not_lt.mp hge)
                  exact ⟨heq.symm, hrest heq⟩
                · rintro ⟨rfl, hrest⟩
                  exact ⟨lt_irrefl _, fun _ => hrest⟩
              · simp only [Option.all_some, decide_eq_true_eq, Option.all_none,
                  and_true, List.cons_lt_cons_iff, List.not_lt_nil, and_false,
                  or_false]
                rw [byte_lt_add_one_iff hmax]
                constructor
                · rintro ⟨⟨hge, hrest⟩, hle⟩
                  have heq : head = byte := le_antisymm hle (not_lt.mp hge)
                  exact ⟨heq.symm, hrest heq⟩
                · rintro ⟨rfl, hrest⟩
                  exact ⟨⟨lt_irrefl _, fun _ => hrest⟩, le_refl _⟩

/-- The entries visited by an iterator over one key prefix. -/
def OrderedStore.prefixScan {V : Type}
    (store : OrderedStore Bytes V) (pre : Bytes) : List (Bytes × V) :=
  store.scan (inRange pre (prefixEndBytes pre))

theorem OrderedStore.mem_prefixScan_iff {V : Type}
    {store : OrderedStore Bytes V} {pre key : Bytes} {value : V} :
    (key, value) ∈ store.prefixScan pre ↔
      store.get key = some value ∧ pre <+: key := by
  rw [prefixScan, mem_scan_iff, inRange_prefixEndBytes_iff]

theorem OrderedStore.prefixScan_congr {V : Type}
    {left right : OrderedStore Bytes V} {pre : Bytes}
    (hget : ∀ key, pre <+: key → left.get key = right.get key) :
    left.prefixScan pre = right.prefixScan pre :=
  scan_congr fun key hkey =>
    hget key ((inRange_prefixEndBytes_iff pre key).mp hkey)

/-- Delete every key under a prefix, as collected by one iteration. -/
def OrderedStore.deletePrefix {V : Type}
    (store : OrderedStore Bytes V) (pre : Bytes) : OrderedStore Bytes V :=
  store.deleteAll ((store.prefixScan pre).map Prod.fst)

theorem OrderedStore.get_deletePrefix {V : Type}
    (store : OrderedStore Bytes V) (pre key : Bytes) :
    (store.deletePrefix pre).get key =
      if pre <+: key then none else store.get key := by
  rw [deletePrefix, prefixScan, get_deleteAll_scan]
  by_cases hstarts : pre <+: key
  · rw [if_pos hstarts,
      if_pos ((inRange_prefixEndBytes_iff pre key).mpr hstarts)]
  · rw [if_neg hstarts, if_neg]
    exact fun h => hstarts ((inRange_prefixEndBytes_iff pre key).mp h)

end Vertix
