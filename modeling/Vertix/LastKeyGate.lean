import Mathlib.Data.List.Pairwise
import Mathlib.Order.Basic
import Mathlib.Tactic

/-!
# Acting at most once for each key

A loop is polled again and again.  Every poll carries a key, and the loop acts
on a poll whose key differs from the last key it acted on, provided the poll
is ready for the action; it then remembers the new key.  Remembering one key
is enough when the keys never go backwards: the loop acts at most once for
each key, and once for every key that some ready poll carries.
-/

namespace Vertix.LastKeyGate

variable {P K : Type} [DecidableEq K] (key : P → K) (ready : P → Bool)

/-- The polls on which the loop acts. -/
def acted (last : K) : List P → List P
  | [] => []
  | p :: polls =>
      if key p ≠ last ∧ ready p = true then p :: acted (key p) polls
      else acted last polls

variable {key ready}

theorem acted_sublist (last : K) (polls : List P) :
    (acted key ready last polls).Sublist polls := by
  induction polls generalizing last with
  | nil => exact List.Sublist.refl []
  | cons p polls ih =>
      unfold acted
      split_ifs with h
      · exact (ih (key p)).cons_cons p
      · exact (ih last).cons p

theorem mem_of_mem_acted {last : K} {polls : List P} {p : P}
    (hp : p ∈ acted key ready last polls) : p ∈ polls :=
  (acted_sublist last polls).subset hp

/-- For every key other than the one remembered at the start, a ready poll
has the loop act on it or on an earlier poll with its key. -/
theorem exists_acted_of_ready {last : K} {polls : List P} {p : P}
    (hp : p ∈ polls) (hready : ready p = true) (hlast : key p ≠ last) :
    ∃ q ∈ acted key ready last polls, key q = key p := by
  induction polls generalizing last with
  | nil => exact absurd hp List.not_mem_nil
  | cons first polls ih =>
      unfold acted
      split_ifs with h
      · by_cases hkey : key first = key p
        · exact ⟨first, List.mem_cons_self, hkey⟩
        · rcases List.mem_cons.mp hp with rfl | hp
          · exact absurd rfl hkey
          · obtain ⟨q, hq, hqp⟩ := ih hp (Ne.symm hkey)
            exact ⟨q, List.mem_cons_of_mem first hq, hqp⟩
      · rcases List.mem_cons.mp hp with rfl | hp
        · exact absurd ⟨hlast, hready⟩ h
        · exact ih hp hlast

/-- The positions of the items are `first`, `first + 1`, and so on. -/
def Consecutive {P : Type} (position : P → ℤ) : ℤ → List P → Prop
  | _, [] => True
  | first, p :: rest =>
      position p = first ∧ Consecutive position (first + 1) rest

omit [DecidableEq K] in
theorem Consecutive.bounds {position : P → ℤ} {first : ℤ} {items : List P}
    (hitems : Consecutive position first items) {p : P} (hp : p ∈ items) :
    first ≤ position p ∧ position p < first + items.length := by
  induction items generalizing first with
  | nil => exact absurd hp List.not_mem_nil
  | cons item items ih =>
      obtain ⟨rfl, hrest⟩ := hitems
      rw [List.length_cons, Nat.cast_add, Nat.cast_one]
      rcases List.mem_cons.mp hp with rfl | hp
      · omega
      · have hbounds := ih hrest hp
        omega

/-- When all polls are ready and come at consecutive positions, the loop acts
exactly where the key changes. -/
theorem mem_acted_of_consecutive
    (key : ℤ → K) {position : P → ℤ} {first n : ℤ} {polls : List P}
    {remembered : K}
    (hpolls : Consecutive position first polls)
    (hready : ∀ p ∈ polls, ready p = true) :
    n ∈ (acted (fun p => key (position p)) ready remembered polls).map
        position ↔
      first ≤ n ∧ n < first + polls.length ∧
        key n ≠ if n = first then remembered else key (n - 1) := by
  induction polls generalizing first remembered with
  | nil =>
      simp only [acted, List.map_nil, List.not_mem_nil, List.length_nil,
        false_iff]
      rintro ⟨hle, hlt, -⟩
      simp only [Nat.cast_zero, add_zero] at hlt
      omega
  | cons p polls ih =>
      obtain ⟨rfl, hrest⟩ := hpolls
      rw [List.forall_mem_cons] at hready
      -- the key of this poll is remembered afterwards in either case
      have hsplit :
          acted (fun p => key (position p)) ready remembered (p :: polls) =
            (if key (position p) ≠ remembered then [p] else []) ++
              acted (fun p => key (position p)) ready (key (position p))
                polls := by
        rw [acted]
        by_cases hkey : key (position p) = remembered
        · simp [hkey]
        · simp [hkey, hready.1]
      rw [hsplit, List.map_append, List.mem_append, ih hrest hready.2,
        List.length_cons, Nat.cast_add, Nat.cast_one]
      have hprevious :
          (if n = position p + 1 then key (position p) else key (n - 1)) =
            key (n - 1) := by
        split_ifs with hnext
        · rw [hnext, add_sub_cancel_right]
        · rfl
      rw [hprevious]
      by_cases hn : n = position p
      · subst hn
        by_cases hkey : key (position p) = remembered <;> simp [hkey]
      · rw [if_neg hn]
        have hhead : n ∉ (if key (position p) ≠ remembered then [p]
            else []).map position := by
          split_ifs <;> simp [hn]
        constructor
        · rintro (h | ⟨hle, hlt, hkey⟩)
          · exact absurd h hhead
          · exact ⟨by omega, by omega, hkey⟩
        · rintro ⟨hle, hlt, hkey⟩
          exact Or.inr ⟨by omega, by omega, hkey⟩

section Order

variable {P K : Type} [LinearOrder K] {key : P → K} {ready : P → Bool}

theorem lt_key_of_mem_acted {last : K} {polls : List P} {p : P}
    (hmono : polls.Pairwise fun p q => key p ≤ key q)
    (hlast : ∀ q ∈ polls, last ≤ key q)
    (hp : p ∈ acted key ready last polls) : last < key p := by
  induction polls generalizing last with
  | nil => exact absurd hp List.not_mem_nil
  | cons first polls ih =>
      obtain ⟨hfirst, hrest⟩ := List.pairwise_cons.mp hmono
      unfold acted at hp
      split_ifs at hp with h
      · have hlt : last < key first :=
          lt_of_le_of_ne (hlast first List.mem_cons_self) (Ne.symm h.1)
        rcases List.mem_cons.mp hp with rfl | hp
        · exact hlt
        · exact hlt.trans (ih hrest hfirst hp)
      · exact ih hrest
          (fun q hq => hlast q (List.mem_cons_of_mem first hq)) hp

/-- Keys that never go backwards are acted on in strictly increasing order,
whatever is remembered at the start. -/
theorem acted_pairwise_lt {last : K} {polls : List P}
    (hmono : polls.Pairwise fun p q => key p ≤ key q) :
    (acted key ready last polls).Pairwise fun p q => key p < key q := by
  induction polls generalizing last with
  | nil => exact List.Pairwise.nil
  | cons first polls ih =>
      obtain ⟨hfirst, hrest⟩ := List.pairwise_cons.mp hmono
      unfold acted
      split_ifs with h
      · exact List.pairwise_cons.mpr
          ⟨fun q hq => lt_key_of_mem_acted hrest hfirst hq, ih hrest⟩
      · exact ih hrest

/-- Among polls with pairwise different keys at most one has a given key. -/
theorem filter_key_length_le_one {acts : List P}
    (hlt : acts.Pairwise fun p q => key p < key q) (k : K) :
    (acts.filter fun p => key p = k).length ≤ 1 := by
  induction acts with
  | nil => simp
  | cons p acts ih =>
      obtain ⟨hp, hacts⟩ := List.pairwise_cons.mp hlt
      by_cases hkey : key p = k
      · have hnone : acts.filter (fun q => key q = k) = [] := by
          rw [List.filter_eq_nil_iff]
          intro q hq
          simpa [← hkey] using (hp q hq).ne'
        simp [hkey, hnone]
      · simpa [List.filter_cons, hkey] using ih hacts

end Order

end Vertix.LastKeyGate
