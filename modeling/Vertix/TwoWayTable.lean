import Mathlib.Data.List.Basic
import Mathlib.Tactic

/-!
# Two-way tables

A relation between keys and values is kept in two tables, one for each
direction.  A write overwrites the key's entry and the value's entry, and it
leaves the entry of the value which the key had before.  The forward table is
then the latest binding of each key, and the backward table is every binding
ever made, so the two describe one relation only as long as no key was given a
second value.
-/

namespace Vertix
namespace TwoWay

variable {K V : Type}

structure Table (K V : Type) where
  forward : K → Option V
  backward : V → Option K

namespace Table

/-- The value is not bound to another key. -/
def Free (t : Table K V) (key : K) (value : V) : Prop :=
  ∀ existing, t.backward value = some existing → existing = key

def Inverse (t : Table K V) : Prop :=
  ∀ key value, t.backward value = some key ↔ t.forward key = some value

/-- Two tables with the same relation in both directions are one. -/
theorem Inverse.eq {left right : Table K V} (hleft : left.Inverse)
    (hright : right.Inverse) (hforward : left.forward = right.forward) :
    left = right := by
  have hbackward : left.backward = right.backward := by
    funext value
    apply Option.ext
    intro key
    rw [hleft key value, hright key value, hforward]
  cases left
  cases right
  congr

def write [DecidableEq K] [DecidableEq V] (t : Table K V) (key : K)
    (value : V) : Table K V where
  forward other := if key = other then some value else t.forward other
  backward other := if value = other then some key else t.backward other

end Table

/-! ## The log of all bindings

A log has the newest binding first, so a lookup finds the value which a key was
given last.
-/

/-- No key was given two values. -/
def SingleValued (log : List (K × V)) : Prop :=
  ∀ key first second, (key, first) ∈ log → (key, second) ∈ log →
    first = second

variable [DecidableEq K] {log : List (K × V)}

theorem mem_of_lookup {key : K} {value : V}
    (hlookup : log.lookup key = some value) : (key, value) ∈ log := by
  obtain ⟨newer, older, hlog, -⟩ := List.lookup_eq_some_iff.mp hlookup
  rw [hlog]
  simp

theorem lookup_eq_some_iff_mem (hsingle : SingleValued log) (key : K)
    (value : V) : log.lookup key = some value ↔ (key, value) ∈ log := by
  constructor
  · exact mem_of_lookup
  · intro hmem
    have hsome : (log.lookup key).isSome = true :=
      List.lookup_isSome_iff.mpr ⟨(key, value), hmem, by simp⟩
    obtain ⟨last, hlast⟩ := Option.isSome_iff_exists.mp hsome
    rw [hlast, hsingle key last value (mem_of_lookup hlast) hmem]

/-- A key does not come back to a value unless a newer binding names it
again. -/
theorem getD_lookup_append_ne {key : K} {value default : V}
    {newer older : List (K × V)} (hnewer : (key, value) ∉ newer)
    (holder : (older.lookup key).getD default ≠ value) :
    ((newer ++ older).lookup key).getD default ≠ value := by
  rw [List.lookup_append]
  cases hlast : newer.lookup key with
  | none => exact holder
  | some last =>
      rw [Option.some_or, Option.getD_some]
      intro hvalue
      rw [hvalue] at hlast
      exact hnewer (mem_of_lookup hlast)

/-- The table is what the writes of the log leave. -/
structure Recorded (t : Table K V) (log : List (K × V)) : Prop where
  forward : ∀ key, t.forward key = log.lookup key
  backward : ∀ key value, t.backward value = some key ↔ (key, value) ∈ log

namespace Recorded

variable {t : Table K V}

theorem write [DecidableEq V] (hrecorded : Recorded t log) {key : K}
    {value : V} (hfree : t.Free key value) :
    Recorded (t.write key value) ((key, value) :: log) := by
  constructor
  · intro other
    simp only [List.lookup_cons, Table.write, hrecorded.forward]
    by_cases hkey : key = other
    · simp [hkey]
    · rw [if_neg hkey, beq_eq_false_iff_ne.mpr (Ne.symm hkey)]
  · intro other bound
    simp only [Table.write, List.mem_cons, Prod.mk.injEq]
    by_cases hvalue : value = bound
    · subst hvalue
      rw [if_pos rfl, Option.some.injEq, ← hrecorded.backward]
      constructor
      · intro hkey
        exact Or.inl ⟨hkey.symm, rfl⟩
      · intro h
        rcases h with hnew | hold
        · exact hnew.1.symm
        · exact (hfree other hold).symm
    · rw [if_neg hvalue, hrecorded.backward]
      simp [Ne.symm hvalue]

/-- The two directions are inverse as long as no key was rebound. -/
theorem inverse_iff (hrecorded : Recorded t log) :
    t.Inverse ↔ SingleValued log := by
  constructor
  · intro hinverse key first second hfirst hsecond
    rw [← hrecorded.backward, hinverse] at hfirst hsecond
    rw [hfirst, Option.some.injEq] at hsecond
    exact hsecond
  · intro hsingle key value
    rw [hrecorded.backward, hrecorded.forward,
      lookup_eq_some_iff_mem hsingle]

theorem backward_of_forward (hrecorded : Recorded t log) {key : K}
    {value : V} (hkey : t.forward key = some value) :
    t.backward value = some key := by
  rw [hrecorded.forward] at hkey
  exact (hrecorded.backward key value).mpr (mem_of_lookup hkey)

theorem forward_injective (hrecorded : Recorded t log) {key other : K}
    {value : V} (hkey : t.forward key = some value)
    (hother : t.forward other = some value) : key = other := by
  have hback := hrecorded.backward_of_forward hkey
  rw [hrecorded.backward_of_forward hother, Option.some.injEq] at hback
  exact hback.symm

/-- A table rebuilt from the forward entries of another has the same forward
table, and its two directions are inverse. -/
theorem rebuilt {base : Table K V} (hrecorded : Recorded t log)
    (hlog : ∀ key value,
      (key, value) ∈ log ↔ base.forward key = some value) :
    t.forward = base.forward ∧ t.Inverse := by
  have hsingle : SingleValued log := by
    intro key first second hfirst hsecond
    rw [hlog] at hfirst hsecond
    rw [hfirst, Option.some.injEq] at hsecond
    exact hsecond
  constructor
  · funext key
    apply Option.ext
    intro value
    rw [hrecorded.forward, lookup_eq_some_iff_mem hsingle, hlog]
  · exact hrecorded.inverse_iff.mpr hsingle

end Recorded

/-! ## Keys which stand for themselves -/

/-- A key without a binding is its own value. -/
def Table.resolve (t : Table K K) (key : K) : K :=
  (t.forward key).getD key

namespace Recorded

variable {t : Table K K} {log : List (K × K)}

/-- Two keys share a value exactly when one is bound to the other, which is not
bound itself. -/
theorem injOn_resolve_iff (hrecorded : Recorded t log) (keys : Set K) :
    Set.InjOn t.resolve keys ↔
      ∀ key ∈ keys, ∀ other ∈ keys, t.forward key = some other →
        other = key ∨ t.forward other ≠ none := by
  constructor
  · intro hinj key hkey other hother hbound
    by_cases hfree : t.forward other = none
    · left
      apply hinj hother hkey
      simp [Table.resolve, hbound, hfree]
    · exact Or.inr hfree
  · intro hshadow
    have hmixed : ∀ key ∈ keys, ∀ other ∈ keys, t.forward key = some other →
        t.forward other = none → key = other := by
      intro key hkey other hother hbound hunbound
      rcases hshadow key hkey other hother hbound with heq | hsome
      · exact heq.symm
      · exact absurd hunbound hsome
    intro key hkey other hother hsame
    unfold Table.resolve at hsame
    cases hfirst : t.forward key with
    | none =>
        cases hsecond : t.forward other with
        | none => simpa [hfirst, hsecond] using hsame
        | some value =>
            have hvalue : key = value := by simpa [hfirst, hsecond] using hsame
            rw [← hvalue] at hsecond
            exact (hmixed other hother key hkey hsecond hfirst).symm
    | some value =>
        cases hsecond : t.forward other with
        | none =>
            have hvalue : value = other := by
              simpa [hfirst, hsecond] using hsame
            rw [hvalue] at hfirst
            exact hmixed key hkey other hother hfirst hsecond
        | some value' =>
            have hvalue : value = value' := by
              simpa [hfirst, hsecond] using hsame
            rw [hvalue] at hfirst
            exact hrecorded.forward_injective hfirst hsecond

theorem injOn_resolve_write_iff (hrecorded : Recorded t log) {keys : Set K}
    (hinj : Set.InjOn t.resolve keys) {key value : K}
    (hfree : t.Free key value) :
    Set.InjOn (t.write key value).resolve keys ↔
      (key ∈ keys → value ∈ keys → value = key ∨ t.forward value ≠ none) := by
  rw [(hrecorded.write hfree).injOn_resolve_iff]
  rw [hrecorded.injOn_resolve_iff] at hinj
  simp only [Table.write]
  constructor
  · intro h hkey hvalue
    rcases h key hkey value hvalue (if_pos rfl) with heq | hbound
    · exact Or.inl heq
    · by_cases heq : key = value
      · exact Or.inl heq.symm
      · rw [if_neg heq] at hbound
        exact Or.inr hbound
  · intro h first hfirst second hsecond hbound
    by_cases hnew : key = second
    · right
      simp [hnew]
    · rw [if_neg hnew]
      split_ifs at hbound with hkey
      · rw [Option.some.injEq] at hbound
        rw [hkey, hbound] at h
        exact h hfirst hsecond
      · exact hinj first hfirst second hsecond hbound

end Recorded
end TwoWay
end Vertix
