import Mathlib.Data.List.Basic
import Mathlib.Data.List.Forall2
import Mathlib.Tactic

/-!
# Early-return code as `Except` programs

Inversion of sequencing, guards and loops that stop at their first failure.
The loop rules speak about the items still to come or already done, so a
result about a whole loop follows from one fact about its body.
-/

namespace Vertix

variable {ε α β σ : Type}

@[simp] theorem bind_eq_ok_iff
    {first : Except ε α} {next : α → Except ε β} {result : β} :
    (first >>= next) = Except.ok result ↔
      ∃ value, first = Except.ok value ∧ next value = Except.ok result := by
  cases first <;> simp [bind, Except.bind]

theorem bind_eq_error_iff
    {first : Except ε α} {next : α → Except ε β} {error : ε} :
    first >>= next = .error error ↔
      first = .error error ∨
        ∃ value, first = .ok value ∧ next value = .error error := by
  cases first <;> simp [bind, Except.bind]

@[simp] theorem pure_eq_ok_iff {value result : α} :
    (pure value : Except ε α) = Except.ok result ↔ value = result := by
  simp [pure, Except.pure]

theorem toOption_eq_some_iff {first : Except ε α} {value : α} :
    first.toOption = some value ↔ first = Except.ok value := by
  cases first <;> simp [Except.toOption]

theorem exists_some_of_any {first : Option α} {test : α → Bool}
    (hany : first.any test = true) :
    ∃ value, first = some value ∧ test value = true := by
  cases first with
  | none => simp at hany
  | some value => exact ⟨value, rfl, by simpa using hany⟩

theorem exists_ok_of_any {first : Except ε α} {test : α → Bool}
    (hany : first.toOption.any test = true) :
    ∃ value, first = .ok value ∧ test value = true := by
  cases first with
  | error error => simp [Except.toOption] at hany
  | ok value => exact ⟨value, rfl, by simpa [Except.toOption] using hany⟩

def rejectIf (bad : Prop) [Decidable bad] (error : ε) : Except ε Unit :=
  if bad then .error error else .ok ()

@[simp] theorem rejectIf_eq_ok_iff
    {bad : Prop} [Decidable bad] {error : ε} {u : Unit} :
    rejectIf bad error = Except.ok u ↔ ¬ bad := by
  unfold rejectIf
  split_ifs with hbad <;> simp [hbad]

/-! ## Loops -/

/-- A property of the items done so far and the loop state which each
iteration carries forward holds at the end for all items. -/
theorem foldlM_append_of_ok {step : σ → α → Except ε σ}
    {first : List α} {state middle : σ}
    (hfirst : first.foldlM step state = .ok middle) (second : List α) :
    (first ++ second).foldlM step state = second.foldlM step middle := by
  rw [List.foldlM_append, hfirst]
  rfl

theorem foldlM_induct_from
    {step : σ → α → Except ε σ} {P : List α → σ → Prop}
    (hstep : ∀ done state item state',
      P done state → step state item = .ok state' →
        P (done ++ [item]) state')
    {done items : List α} {state result : σ}
    (hstart : P done state)
    (hloop : items.foldlM step state = .ok result) :
    P (done ++ items) result := by
  induction items generalizing done state with
  | nil =>
      simp only [List.foldlM_nil, pure_eq_ok_iff] at hloop
      simpa [hloop] using hstart
  | cons item rest ih =>
      simp only [List.foldlM_cons, bind_eq_ok_iff] at hloop
      rcases hloop with ⟨middle, hitem, hrest⟩
      have hdone := ih (hstep done state item middle hstart hitem) hrest
      simpa using hdone

theorem foldlM_induct
    {step : σ → α → Except ε σ} {P : List α → σ → Prop}
    (hstep : ∀ done state item state',
      P done state → step state item = .ok state' →
        P (done ++ [item]) state')
    {items : List α} {state result : σ}
    (hstart : P [] state)
    (hloop : items.foldlM step state = .ok result) :
    P items result :=
  foldlM_induct_from hstep hstart hloop

theorem foldlM_invariant
    {step : σ → α → Except ε σ} {I : σ → Prop}
    (hstep : ∀ state item state',
      I state → step state item = .ok state' → I state')
    {items : List α} {state result : σ}
    (hstart : I state)
    (hloop : items.foldlM step state = .ok result) :
    I result :=
  foldlM_induct (P := fun _ state => I state)
    (fun _ state item state' hI hnext => hstep state item state' hI hnext)
    hstart hloop

theorem forM_eq_ok_iff
    {check : α → Except ε Unit} {items : List α} {u : Unit} :
    forM items check = .ok u ↔ ∀ item ∈ items, check item = .ok () := by
  induction items with
  | nil => simp
  | cons item rest ih =>
      rw [List.forM_cons, bind_eq_ok_iff, List.forall_mem_cons, ← ih]
      constructor
      · rintro ⟨⟨⟩, hitem, hrest⟩
        exact ⟨hitem, hrest⟩
      · rintro ⟨hitem, hrest⟩
        exact ⟨(), hitem, hrest⟩

theorem mapM_eq_ok_iff
    {convert : α → Except ε β} {items : List α} {results : List β} :
    items.mapM convert = .ok results ↔
      List.Forall₂ (fun item result => convert item = .ok result)
        items results := by
  induction items generalizing results with
  | nil =>
      rw [List.mapM_nil, pure_eq_ok_iff, List.forall₂_nil_left_iff, eq_comm]
  | cons item rest ih =>
      simp only [List.mapM_cons, bind_eq_ok_iff, pure_eq_ok_iff, ih,
        List.forall₂_cons_left_iff]
      constructor
      · rintro ⟨result, hresult, others, hothers, rfl⟩
        exact ⟨result, others, hresult, hothers, rfl⟩
      · rintro ⟨result, others, hresult, hothers, rfl⟩
        exact ⟨result, hresult, others, hothers, rfl⟩

theorem exists_mapM_eq_ok_iff
    {convert : α → Except ε β} {items : List α} :
    (∃ results, items.mapM convert = .ok results) ↔
      ∀ item ∈ items, ∃ result, convert item = .ok result := by
  simp only [mapM_eq_ok_iff]
  induction items with
  | nil => simp
  | cons item items ih =>
      rw [List.forall_mem_cons, ← ih]
      constructor
      · rintro ⟨results, hresults⟩
        cases hresults with
        | cons hfirst hrest => exact ⟨⟨_, hfirst⟩, _, hrest⟩
      · rintro ⟨⟨result, hfirst⟩, results, hrest⟩
        exact ⟨result :: results, .cons hfirst hrest⟩

theorem exists_of_mem_mapM
    {convert : α → Except ε β} {items : List α} {results : List β}
    (hloop : items.mapM convert = .ok results) {result : β}
    (hresult : result ∈ results) :
    ∃ item ∈ items, convert item = .ok result := by
  have hall := mapM_eq_ok_iff.mp hloop
  clear hloop
  induction hall with
  | nil => exact absurd hresult List.not_mem_nil
  | @cons item value items values hitem hrest ih =>
      rcases List.mem_cons.mp hresult with rfl | hresult
      · exact ⟨item, List.mem_cons_self, hitem⟩
      · obtain ⟨other, hother, hconvert⟩ := ih hresult
        exact ⟨other, List.mem_cons_of_mem item hother, hconvert⟩

/-- If whether the body completes depends on the item alone, as long as an
invariant holds, then the loop completes exactly when the body does for each
item. -/
theorem foldlM_completes_iff
    {step : σ → α → Except ε σ} {I : σ → Prop} {completes : α → Prop}
    {items : List α}
    (hstep : ∀ state item state',
      I state → step state item = .ok state' → I state')
    (hcompletes : ∀ item ∈ items, ∀ state, I state →
      ((∃ state', step state item = .ok state') ↔ completes item))
    {state : σ} (hstart : I state) :
    (∃ result, items.foldlM step state = .ok result) ↔
      ∀ item ∈ items, completes item := by
  induction items generalizing state with
  | nil => simp [pure, Except.pure]
  | cons item rest ih =>
      have hitem := hcompletes item (by simp) state hstart
      have htail : ∀ middle, I middle →
          ((∃ result, rest.foldlM step middle = .ok result) ↔
            ∀ other ∈ rest, completes other) :=
        fun middle hmiddle =>
          ih (fun other hother => hcompletes other (by simp [hother])) hmiddle
      simp only [List.foldlM_cons, bind_eq_ok_iff, List.forall_mem_cons]
      rw [← hitem]
      constructor
      · intro hloop
        obtain ⟨result, middle, hfirst, hrest⟩ := hloop
        have hmiddle := hstep state item middle hstart hfirst
        exact ⟨⟨middle, hfirst⟩, (htail middle hmiddle).mp ⟨result, hrest⟩⟩
      · intro hall
        obtain ⟨⟨middle, hfirst⟩, hothers⟩ := hall
        have hmiddle := hstep state item middle hstart hfirst
        obtain ⟨result, hrest⟩ := (htail middle hmiddle).mpr hothers
        exact ⟨result, middle, hfirst, hrest⟩

/-! ## Two programs at once -/

/-- Both programs stop with the same error, or return related results. -/
inductive Agree (R : α → β → Prop) : Except ε α → Except ε β → Prop
  | error (error : ε) : Agree R (.error error) (.error error)
  | ok {left : α} {right : β} (hrelated : R left right) :
      Agree R (.ok left) (.ok right)

theorem Agree.bind {α' β' : Type} {R : α → α' → Prop} {Q : β → β' → Prop}
    {left : Except ε α} {right : Except ε α'}
    {next : α → Except ε β} {next' : α' → Except ε β'}
    (hfirst : Agree R left right)
    (hnext : ∀ value value', R value value' →
      Agree Q (next value) (next' value')) :
    Agree Q (left >>= next) (right >>= next') := by
  cases hfirst with
  | error error => exact .error error
  | ok hrelated => exact hnext _ _ hrelated

/-- Run the same program first. -/
theorem Agree.bind_same {Q : β → σ → Prop} {first : Except ε α}
    {next : α → Except ε β} {next' : α → Except ε σ}
    (hnext : ∀ value, Agree Q (next value) (next' value)) :
    Agree Q (first >>= next) (first >>= next') := by
  cases first with
  | error error => exact .error error
  | ok value => exact hnext value

theorem Agree.eq {left right : Except ε α} (hagree : Agree Eq left right) :
    left = right := by
  cases hagree with
  | error error => rfl
  | ok hrelated => rw [hrelated]

/-- A relation which each iteration carries forward relates two loops over the
same items. -/
theorem foldlM_agree {τ : Type} {R : σ → τ → Prop}
    {step : σ → α → Except ε σ} {step' : τ → α → Except ε τ}
    (hstep : ∀ state state' item, R state state' →
      Agree R (step state item) (step' state' item))
    {items : List α} {state : σ} {state' : τ} (hstart : R state state') :
    Agree R (items.foldlM step state) (items.foldlM step' state') := by
  induction items generalizing state state' with
  | nil => exact .ok hstart
  | cons item rest ih =>
      simp only [List.foldlM_cons]
      exact (hstep state state' item hstart).bind fun _ _ hnext => ih hnext

/-- One round of a loop which rejects items whose name was seen before. -/
theorem unseen_cons_iff {name : α → β} {item : α} {rest : List α}
    {seen : List β} :
    (name item ∉ seen ∧ (∀ other ∈ rest, name other ∉ name item :: seen) ∧
        (rest.map name).Nodup) ↔
      (∀ other ∈ item :: rest, name other ∉ seen) ∧
        ((item :: rest).map name).Nodup := by
  rw [List.forall_mem_cons]
  simp only [List.map_cons, List.nodup_cons, List.mem_cons, not_or,
    List.mem_map, not_exists, not_and]
  constructor
  · rintro ⟨hitem, hrest, hnodup⟩
    exact ⟨⟨hitem, fun other hother => (hrest other hother).2⟩,
      fun other hother => (hrest other hother).1, hnodup⟩
  · rintro ⟨⟨hitem, hrest⟩, hnew, hnodup⟩
    exact ⟨hitem, fun other hother => ⟨hnew other hother, hrest other hother⟩,
      hnodup⟩

end Vertix
