import Mathlib.Data.List.Sort
import Mathlib.Tactic

/-!
# Order statistics of finite lists

Two selections from a sorted list: the first item whose cumulative weight
reaches a threshold, and the lower middle item.  Sorting by a relation which
is antisymmetric on the list makes both independent of the input order.
-/

namespace Vertix
namespace OrderStatistics

variable {α : Type}

/-- Sorting forgets the order of its input as soon as no two distinct items
are tied. -/
theorem insertionSort_eq_of_perm
    (r : α → α → Prop) [DecidableRel r] [Std.Total r] [IsTrans α r]
    {left right : List α} (hperm : left.Perm right)
    (hantisymm : ∀ a ∈ left, ∀ b ∈ left, r a b → r b a → a = b) :
    left.insertionSort r = right.insertionSort r := by
  have hsorted :
      (left.insertionSort r).Perm (right.insertionSort r) :=
    (List.perm_insertionSort r left).trans
      (hperm.trans (List.perm_insertionSort r right).symm)
  apply hsorted.eq_of_pairwise
  · intro a b ha hb hab hba
    apply hantisymm a ((List.mem_insertionSort r).mp ha) b _ hab hba
    exact hperm.mem_iff.mpr ((List.mem_insertionSort r).mp hb)
  · exact List.pairwise_insertionSort r left
  · exact List.pairwise_insertionSort r right

/-! ## Weighted selection -/

def totalWeight (weight : α → ℤ) (items : List α) : ℤ :=
  (items.map weight).sum

@[simp] theorem totalWeight_nil (weight : α → ℤ) :
    totalWeight weight [] = 0 := rfl

@[simp] theorem totalWeight_cons
    (weight : α → ℤ) (item : α) (rest : List α) :
    totalWeight weight (item :: rest) =
      weight item + totalWeight weight rest := by
  simp [totalWeight]

theorem totalWeight_perm
    (weight : α → ℤ) {left right : List α} (hperm : left.Perm right) :
    totalWeight weight left = totalWeight weight right :=
  (hperm.map weight).sum_eq

theorem totalWeight_nonneg
    {weight : α → ℤ} {items : List α}
    (hweight : ∀ item ∈ items, 0 ≤ weight item) :
    0 ≤ totalWeight weight items := by
  apply List.sum_nonneg
  intro value hvalue
  rcases List.mem_map.mp hvalue with ⟨item, hitem, heq⟩
  rw [← heq]
  exact hweight item hitem

theorem totalWeight_append
    (weight : α → ℤ) (left right : List α) :
    totalWeight weight (left ++ right) =
      totalWeight weight left + totalWeight weight right := by
  simp [totalWeight]

theorem totalWeight_filter_le
    {weight : α → ℤ} {items : List α}
    (hweight : ∀ item ∈ items, 0 ≤ weight item) (keep : α → Bool) :
    totalWeight weight (items.filter keep) ≤ totalWeight weight items := by
  induction items with
  | nil => simp
  | cons item rest ih =>
      have hhead : 0 ≤ weight item := hweight item (by simp)
      have hrest := ih fun other hother => hweight other (by simp [hother])
      rw [List.filter_cons, totalWeight_cons]
      split_ifs with hkeep
      · rw [totalWeight_cons]
        omega
      · omega

/-- A weaker condition keeps at least as much weight. -/
theorem totalWeight_filter_mono
    {weight : α → ℤ} {items : List α} {narrow wide : α → Bool}
    (hweight : ∀ item ∈ items, 0 ≤ weight item)
    (hwider : ∀ item ∈ items, narrow item = true → wide item = true) :
    totalWeight weight (items.filter narrow) ≤
      totalWeight weight (items.filter wide) := by
  have hnested : (items.filter wide).filter narrow = items.filter narrow := by
    rw [List.filter_filter]
    apply List.filter_congr
    intro item hitem
    cases hnarrow : narrow item with
    | false => simp
    | true => simp [hwider item hitem hnarrow]
  rw [← hnested]
  apply totalWeight_filter_le
  intro item hitem
  exact hweight item (List.mem_of_mem_filter hitem)

theorem totalWeight_filter_not
    (weight : α → ℤ) (items : List α) (keep : α → Bool) :
    totalWeight weight (items.filter keep) +
        totalWeight weight (items.filter fun item => !keep item) =
      totalWeight weight items := by
  rw [← totalWeight_append]
  exact totalWeight_perm weight (List.filter_append_perm keep items)

/-- The first item at which the running weight, started from `cum`, reaches
the threshold. -/
def select (weight : α → ℤ) (threshold : ℤ) : ℤ → List α → Option α
  | _, [] => none
  | cum, item :: rest =>
      if threshold ≤ cum + weight item then some item
      else select weight threshold (cum + weight item) rest

theorem select_mem
    {weight : α → ℤ} {threshold cum : ℤ} {items : List α} {item : α}
    (hselect : select weight threshold cum items = some item) :
    item ∈ items := by
  induction items generalizing cum with
  | nil => simp [select] at hselect
  | cons first rest ih =>
      rw [select] at hselect
      split_ifs at hselect with hreached
      · simp only [Option.some.injEq] at hselect
        simp [hselect]
      · exact List.mem_cons_of_mem first (ih hselect)

theorem select_isSome
    {weight : α → ℤ} {threshold cum : ℤ} {items : List α}
    (hne : items ≠ [])
    (hthreshold : threshold ≤ cum + totalWeight weight items) :
    ∃ item, select weight threshold cum items = some item := by
  induction items generalizing cum with
  | nil => exact absurd rfl hne
  | cons first rest ih =>
      rw [select]
      split_ifs with hreached
      · exact ⟨first, rfl⟩
      · rw [totalWeight_cons] at hthreshold
        apply ih
        · intro hnil
          subst hnil
          simp only [totalWeight_nil] at hthreshold
          omega
        · omega

/-- The selected item is the one whose weight carries the running sum over the
threshold. -/
theorem select_split
    {weight : α → ℤ} {threshold cum : ℤ} {items : List α} {item : α}
    (hselect : select weight threshold cum items = some item) :
    ∃ before after, items = before ++ item :: after ∧
      threshold ≤ cum + totalWeight weight before + weight item ∧
      (before ≠ [] → cum + totalWeight weight before < threshold) := by
  induction items generalizing cum with
  | nil => simp [select] at hselect
  | cons first rest ih =>
      rw [select] at hselect
      split_ifs at hselect with hreached
      · simp only [Option.some.injEq] at hselect
        subst hselect
        exact ⟨[], rest, rfl, by simpa using hreached, by simp⟩
      · rcases ih hselect with ⟨before, after, hitems, hover, hunder⟩
        refine ⟨first :: before, after, by simp [hitems], ?_, ?_⟩
        · rw [totalWeight_cons]
          omega
        · intro _
          rw [totalWeight_cons]
          cases before with
          | nil =>
              rw [totalWeight_nil]
              omega
          | cons second more =>
              have hmore := hunder (by simp)
              omega

/-! ## What a majority decides -/

section Majority

variable {β : Type} [LinearOrder β] (key : α → β) (weight : α → ℤ)

def weightBelow (items : List α) (level : β) : ℤ :=
  totalWeight weight (items.filter fun item => key item < level)

def weightAbove (items : List α) (level : β) : ℤ :=
  totalWeight weight (items.filter fun item => level < key item)

def weightWithin (items : List α) (low high : β) : ℤ :=
  totalWeight weight
    (items.filter fun item => low ≤ key item ∧ key item ≤ high)

def weightUpTo (items : List α) (level : β) : ℤ :=
  totalWeight weight (items.filter fun item => key item ≤ level)

theorem weightUpTo_add_weightAbove (items : List α) (level : β) :
    weightUpTo key weight items level + weightAbove key weight items level =
      totalWeight weight items := by
  rw [← totalWeight_filter_not weight items fun item => key item ≤ level]
  simp only [weightUpTo, weightAbove, ← decide_not, not_le]

/-- The keys of the items which carry a positive weight span an interval. -/
theorem exists_key_of_totalWeight_pos
    (items : List α) (keep : α → Bool)
    (hpos : 0 < totalWeight weight (items.filter keep)) :
    ∃ low high, (∃ item ∈ items, keep item = true ∧ key item = low) ∧
      (∃ item ∈ items, keep item = true ∧ key item = high) ∧
      ∀ item ∈ items, keep item = true → low ≤ key item ∧ key item ≤ high := by
  let keys := ((items.filter keep).map key).toFinset
  have hmem : ∀ level, level ∈ keys ↔
      ∃ item ∈ items, keep item = true ∧ key item = level := by
    intro level
    simp [keys, and_assoc]
  have hne : keys.Nonempty := by
    rw [Finset.nonempty_iff_ne_empty]
    intro hempty
    have hnil : items.filter keep = [] := by simpa [keys] using hempty
    rw [hnil, totalWeight_nil] at hpos
    exact lt_irrefl 0 hpos
  refine ⟨keys.min' hne, keys.max' hne, (hmem _).mp (keys.min'_mem hne),
    (hmem _).mp (keys.max'_mem hne), ?_⟩
  intro item hitem hkeep
  have hkey := (hmem (key item)).mpr ⟨item, hitem, hkeep, rfl⟩
  exact ⟨keys.min'_le _ hkey, keys.le_max' _ hkey⟩

/-- Neither side of the level outweighs the rest. -/
def BalancedAt (items : List α) (level : β) : Prop :=
  2 * weightBelow key weight items level ≤ totalWeight weight items ∧
    2 * weightAbove key weight items level ≤ totalWeight weight items

variable {key weight}

/-- A level is balanced exactly when every interval which carries more than
half of the weight contains it. -/
theorem balancedAt_iff_majorities_contain
    {items : List α} {level : β}
    (hweight : ∀ item ∈ items, 0 ≤ weight item) :
    BalancedAt key weight items level ↔
      ∀ low high, totalWeight weight items <
          2 * weightWithin key weight items low high →
        low ≤ level ∧ level ≤ high := by
  have htotal := totalWeight_nonneg hweight
  constructor
  · intro hbalanced low high hmajority
    constructor
    · by_contra hlow
      have hle : weightWithin key weight items low high ≤
          weightAbove key weight items level := by
        apply totalWeight_filter_mono hweight
        simp only [decide_eq_true_eq]
        intro item _ hinside
        exact lt_of_lt_of_le (not_le.mp hlow) hinside.1
      have habove := hbalanced.2
      omega
    · by_contra hhigh
      have hle : weightWithin key weight items low high ≤
          weightBelow key weight items level := by
        apply totalWeight_filter_mono hweight
        simp only [decide_eq_true_eq]
        intro item _ hinside
        exact lt_of_le_of_lt hinside.2 (not_le.mp hhigh)
      have hbelow := hbalanced.1
      omega
  · intro hcontains
    -- the keys on the heavy side span an interval which misses the level
    constructor
    · by_contra hheavy
      have hpos : 0 < weightBelow key weight items level := by omega
      rcases exists_key_of_totalWeight_pos key weight items
        (fun item => key item < level) hpos with
        ⟨low, high, -, ⟨item, -, hbelow, hkey⟩, hspan⟩
      have hle : weightBelow key weight items level ≤
          weightWithin key weight items low high := by
        apply totalWeight_filter_mono hweight
        intro other hother hkeep
        exact decide_eq_true (hspan other hother hkeep)
      have hmissed := (hcontains low high (by omega)).2
      rw [decide_eq_true_eq, hkey] at hbelow
      exact absurd hmissed (not_le.mpr hbelow)
    · by_contra hheavy
      have hpos : 0 < weightAbove key weight items level := by omega
      rcases exists_key_of_totalWeight_pos key weight items
        (fun item => level < key item) hpos with
        ⟨low, high, ⟨item, -, habove, hkey⟩, -, hspan⟩
      have hle : weightAbove key weight items level ≤
          weightWithin key weight items low high := by
        apply totalWeight_filter_mono hweight
        intro other hother hkeep
        exact decide_eq_true (hspan other hother hkeep)
      have hmissed := (hcontains low high (by omega)).1
      rw [decide_eq_true_eq, hkey] at habove
      exact absurd hmissed (not_le.mpr habove)

theorem weightBelow_split_le
    {before after : List α} {item : α}
    (hweight : ∀ other ∈ before, 0 ≤ weight other)
    (hsorted : (before ++ item :: after).Pairwise
      fun a b => key a ≤ key b) :
    weightBelow key weight (before ++ item :: after) (key item) ≤
      totalWeight weight before := by
  have hafter : (item :: after).filter (fun other => key other < key item) =
      [] := by
    rw [List.filter_eq_nil_iff]
    intro other hother
    rw [decide_eq_true_eq, not_lt]
    rcases List.mem_cons.mp hother with rfl | hlater
    · exact le_rfl
    · have htail := (List.pairwise_append.mp hsorted).2.1
      exact (List.pairwise_cons.mp htail).1 other hlater
  rw [weightBelow, List.filter_append, hafter, List.append_nil]
  exact totalWeight_filter_le hweight _

theorem weightAbove_split_le
    {before after : List α} {item : α}
    (hweight : ∀ other ∈ after, 0 ≤ weight other)
    (hsorted : (before ++ item :: after).Pairwise
      fun a b => key a ≤ key b) :
    weightAbove key weight (before ++ item :: after) (key item) ≤
      totalWeight weight after := by
  have hbefore : before.filter (fun other => key item < key other) = [] := by
    rw [List.filter_eq_nil_iff]
    intro other hother
    rw [decide_eq_true_eq, not_lt]
    exact (List.pairwise_append.mp hsorted).2.2 other hother item (by simp)
  rw [weightAbove, List.filter_append, hbefore, List.nil_append,
    List.filter_cons_of_neg (by simp)]
  exact totalWeight_filter_le hweight _

/-- Selection from a sorted list leaves less than the threshold below the
selected item and at most the rest above it. -/
theorem select_sides
    {threshold : ℤ} {items : List α} {item : α}
    (hweight : ∀ other ∈ items, 0 ≤ weight other)
    (hsorted : items.Pairwise fun a b => key a ≤ key b)
    (hselect : select weight threshold 0 items = some item) :
    (0 < weightBelow key weight items (key item) →
        weightBelow key weight items (key item) < threshold) ∧
      weightAbove key weight items (key item) ≤
        totalWeight weight items - threshold := by
  rcases select_split hselect with ⟨before, after, rfl, hover, hunder⟩
  have hbefore : ∀ other ∈ before, 0 ≤ weight other :=
    fun other hother => hweight other (by simp [hother])
  have hafter : ∀ other ∈ after, 0 ≤ weight other :=
    fun other hother => hweight other (by simp [hother])
  have hbelow := weightBelow_split_le hbefore hsorted
  have habove := weightAbove_split_le hafter hsorted
  constructor
  · intro hpos
    have hne : before ≠ [] := by
      rintro rfl
      rw [totalWeight_nil] at hbelow
      omega
    have hlt := hunder hne
    omega
  · rw [totalWeight_append, totalWeight_cons]
    omega

/-- The selected item is a weighted quantile: its key is at most a level
exactly when the items up to that level carry the threshold. -/
theorem key_select_le_iff
    {threshold : ℤ} {items : List α} {item : α}
    (hweight : ∀ other ∈ items, 0 < weight other)
    (hsorted : items.Pairwise fun a b => key a ≤ key b)
    (hselect : select weight threshold 0 items = some item) (level : β) :
    key item ≤ level ↔
      max threshold 1 ≤ weightUpTo key weight items level := by
  obtain ⟨before, after, rfl, hreached, hshort⟩ := select_split hselect
  obtain ⟨-, hafter, hcross⟩ := List.pairwise_append.mp hsorted
  have hnonneg : ∀ other ∈ after.filter fun a => key a ≤ level,
      0 ≤ weight other := fun other hother =>
    (hweight other (by simp [(List.mem_filter.mp hother).1])).le
  have hitem : 0 < weight item := hweight item (by simp)
  have hbefore : 0 ≤ totalWeight weight before :=
    totalWeight_nonneg fun other hother => (hweight other (by simp [hother])).le
  constructor
  · intro hle
    have hall : before.filter (fun a => key a ≤ level) = before := by
      rw [List.filter_eq_self]
      intro other hother
      exact decide_eq_true
        ((hcross other hother item List.mem_cons_self).trans hle)
    have hrest := totalWeight_nonneg hnonneg
    rw [weightUpTo, List.filter_append, List.filter_cons_of_pos (by simpa),
      totalWeight_append, hall, totalWeight, totalWeight, List.map_cons,
      List.sum_cons]
    rw [totalWeight] at hrest hreached hbefore
    rw [zero_add] at hreached
    exact max_le (by omega) (by omega)
  · intro hup
    by_contra hgt
    have hnone : (item :: after).filter (fun a => key a ≤ level) = [] := by
      rw [List.filter_eq_nil_iff]
      intro other hother
      rw [decide_eq_true_eq]
      rcases List.mem_cons.mp hother with rfl | hlater
      · exact hgt
      · exact fun hle => hgt
          (((List.pairwise_cons.mp hafter).1 other hlater).trans hle)
    rw [weightUpTo, List.filter_append, hnone, List.append_nil] at hup
    have hle : totalWeight weight
        (before.filter fun a => decide (key a ≤ level)) ≤
          totalWeight weight before :=
      totalWeight_filter_le
        (fun other hother => (hweight other (by simp [hother])).le) _
    have hone := (max_le_iff.mp hup).2
    have hne : before ≠ [] := by
      rintro rfl
      simp [totalWeight] at hone
    have hlt := hshort hne
    have hmax := (max_le_iff.mp hup).1
    omega

/-- Raising keys moves weight up: less of it stays below any level. -/
theorem weightUpTo_anti_of_forall₂ {items items' : List α}
    (hraised : List.Forall₂
      (fun a b => weight a = weight b ∧ key a ≤ key b) items items')
    (hweight : ∀ other ∈ items, 0 ≤ weight other) (level : β) :
    weightUpTo key weight items' level ≤ weightUpTo key weight items level := by
  induction hraised with
  | nil => exact le_refl _
  | @cons a b rest rest' hhead _ ih =>
      have hrest := ih fun other hother =>
        hweight other (List.mem_cons_of_mem a hother)
      have ha := hweight a List.mem_cons_self
      simp only [weightUpTo, totalWeight] at hrest ⊢
      by_cases hb : key b ≤ level
      · have hle : key a ≤ level := hhead.2.trans hb
        simp only [List.filter_cons, hb, hle, decide_true, if_true,
          List.map_cons, List.sum_cons, hhead.1]
        omega
      · by_cases hle : key a ≤ level
        · simp only [List.filter_cons, hb, hle, decide_true, decide_false,
            if_true, List.map_cons, List.sum_cons, Bool.false_eq_true,
            if_false]
          omega
        · simpa only [List.filter_cons, hb, hle, decide_false,
            Bool.false_eq_true, if_false] using hrest

theorem totalWeight_eq_of_forall₂ {items items' : List α}
    (hraised : List.Forall₂
      (fun a b => weight a = weight b ∧ key a ≤ key b) items items') :
    totalWeight weight items = totalWeight weight items' := by
  induction hraised with
  | nil => rfl
  | cons hhead _ ih =>
      simp only [totalWeight, List.map_cons, List.sum_cons] at ih ⊢
      rw [hhead.1, ih]

end Majority

/-! ## The lower middle item -/

def lowerMiddle? (items : List α) : Option α :=
  items[(items.length - 1) / 2]?

theorem select_unit_weights (threshold cum : ℤ) (items : List α) :
    select (fun _ => 1) threshold cum items =
      items[(threshold - cum - 1).toNat]? := by
  induction items generalizing cum with
  | nil => rfl
  | cons item rest ih =>
      rw [select]
      split_ifs with hreached
      · rw [show (threshold - cum - 1).toNat = 0 by omega]
        rfl
      · rw [ih, show (threshold - cum - 1).toNat =
          (threshold - (cum + 1) - 1).toNat + 1 by omega,
          List.getElem?_cons_succ]

/-- The lower middle is the selection at half of the number of items, rounded
up. -/
theorem lowerMiddle?_eq_select {items : List α} (hne : items ≠ []) :
    lowerMiddle? items =
      select (fun _ => 1) (((items.length : ℤ) + 1) / 2) 0 items := by
  have hpos : 0 < items.length := List.length_pos_iff.mpr hne
  rw [select_unit_weights, lowerMiddle?]
  congr 1
  omega

theorem lowerMiddle?_mem {items : List α} (hne : items ≠ []) :
    ∃ item, lowerMiddle? items = some item ∧ item ∈ items := by
  have hpos : 0 < items.length := List.length_pos_iff.mpr hne
  have hindex : (items.length - 1) / 2 < items.length := by omega
  refine ⟨items[(items.length - 1) / 2], ?_, List.getElem_mem hindex⟩
  exact List.getElem?_eq_getElem hindex

/-! ## Around the middle of a sorted list -/

section Middle

variable {β : Type} [LinearOrder β] {key : α → β} {items : List α}

theorem key_getElem_mono
    (hsorted : items.Pairwise fun a b => key a ≤ key b) {i j : ℕ}
    (hij : i ≤ j) (hj : j < items.length) :
    key (items[i]) ≤ key items[j] := by
  rcases Nat.eq_or_lt_of_le hij with rfl | hlt
  · exact le_rfl
  · exact List.pairwise_iff_getElem.mp hsorted i j _ hj hlt

theorem countP_eq_take_add_drop (keep : α → Bool) (i : ℕ) :
    items.countP keep =
      (items.take i).countP keep + (items.drop i).countP keep := by
  rw [← List.countP_append, List.take_append_drop]

/-- If more than half of the items are at least `low`, then so is the lower
middle, and everything after it. -/
theorem le_key_getElem_of_majority
    (hsorted : items.Pairwise fun a b => key a ≤ key b) {i : ℕ}
    (hi : i < items.length) (hmiddle : items.length ≤ 2 * i + 2) {low : β}
    (hmajority :
      items.length < 2 * items.countP fun a => low ≤ key a) :
    low ≤ key items[i] := by
  by_contra hbelow
  have hnone : (items.take (i + 1)).countP (fun a => low ≤ key a) = 0 := by
    rw [List.countP_eq_zero]
    intro a ha hlow
    rcases List.mem_take_iff_getElem.mp ha with ⟨j, hj, rfl⟩
    have hle := key_getElem_mono hsorted (i := j) (j := i) (by omega) hi
    exact hbelow (le_trans (by simpa using hlow) hle)
  have hrest : (items.drop (i + 1)).countP (fun a => low ≤ key a) ≤
      (items.drop (i + 1)).length := List.countP_le_length
  rw [countP_eq_take_add_drop _ (i + 1), hnone] at hmajority
  rw [List.length_drop] at hrest
  omega

/-- If more than half of the items are at most `high`, then so is the upper
middle, and everything before it. -/
theorem key_getElem_le_of_majority
    (hsorted : items.Pairwise fun a b => key a ≤ key b) {i : ℕ}
    (hi : i < items.length) (hmiddle : 2 * i ≤ items.length) {high : β}
    (hmajority :
      items.length < 2 * items.countP fun a => key a ≤ high) :
    key items[i] ≤ high := by
  by_contra habove
  have hnone : (items.drop i).countP (fun a => key a ≤ high) = 0 := by
    rw [List.countP_eq_zero]
    intro a ha hhigh
    rcases List.mem_drop_iff_getElem.mp ha with ⟨j, hj, rfl⟩
    have hle := key_getElem_mono hsorted (i := i) (j := i + j) (by omega)
      (by omega)
    exact habove (le_trans hle (by simpa using hhigh))
  have hrest : (items.take i).countP (fun a => key a ≤ high) ≤
      (items.take i).length := List.countP_le_length
  rw [countP_eq_take_add_drop _ i, hnone] at hmajority
  rw [List.length_take] at hrest
  omega

end Middle

end OrderStatistics
end Vertix
