import Mathlib.Data.List.Sort
import Mathlib.Tactic

/-!
# Reading ordered keys page by page

A reader asks for a limited number of keys from a key on, and is told the key
at which the next page starts.  A page covers an interval of the key space,
from its start up to the start of the next one, and a reader who follows these
keys covers everything from the first start on without a gap or an overlap,
also if the set of keys changes in between.
-/

namespace Vertix
namespace Paging

variable {K : Type}

structure PageRequest (K : Type) where
  key : Option K
  offset : UInt64
  limit : UInt64
  countTotal : Bool

structure PageResponse (K : Type) where
  nextKey : Option K
  total : ℕ
  deriving DecidableEq

/-- Which of the keys a request visits. -/
abbrev Paginator (K : Type) :=
  PageRequest K → List K → Except String (List K × PageResponse K)

variable [LinearOrder K]

/-! ## What a page visits -/

/-- The key lies in the interval which a page covers. -/
def Covers (start next : Option K) (key : K) : Prop :=
  (∀ first ∈ start, first ≤ key) ∧ ∀ after ∈ next, key < after

/-- What a reader can rely on in a page. -/
structure IsPage (limit : ℕ) (start : Option K) (keys visited : List K)
    (next : Option K) : Prop where
  ascending : visited.Pairwise (· < ·)
  visits : ∀ key, key ∈ visited ↔ key ∈ keys ∧ Covers start next key
  continues : ∀ after ∈ next, visited.length = limit ∧
    ∀ first ∈ start, first ≤ after

theorem take_mem_iff {keys : List K} (hascending : keys.Pairwise (· < ·))
    (limit : ℕ) (key : K) :
    key ∈ keys.take limit ↔
      key ∈ keys ∧ ∀ after ∈ keys[limit]?, key < after := by
  induction keys generalizing limit with
  | nil => simp
  | cons first rest ih =>
      obtain ⟨hfirst, hrest⟩ := List.pairwise_cons.mp hascending
      cases limit with
      | zero =>
          simp only [List.take_zero, List.not_mem_nil, List.getElem?_cons_zero,
            Option.mem_some_iff, forall_eq', false_iff, not_and, not_lt]
          intro hmem
          rcases List.mem_cons.mp hmem with rfl | hmem
          · exact le_rfl
          · exact (hfirst key hmem).le
      | succ limit =>
          simp only [List.take_succ_cons, List.mem_cons,
            List.getElem?_cons_succ, ih hrest limit]
          constructor
          · rintro (rfl | ⟨hmem, hbefore⟩)
            · exact ⟨.inl rfl, fun after hafter =>
                hfirst after (List.mem_of_getElem? hafter)⟩
            · exact ⟨.inr hmem, hbefore⟩
          · rintro ⟨rfl | hmem, hbefore⟩
            · exact .inl rfl
            · exact .inr ⟨hmem, hbefore⟩

theorem isPage_take {keys : List K} (hascending : keys.Pairwise (· < ·))
    (limit : ℕ) (start : Option K) :
    IsPage limit start keys
      ((keys.filter fun key => ∀ first ∈ start, first ≤ key).take limit)
      (keys.filter fun key => ∀ first ∈ start, first ≤ key)[limit]? := by
  have hfiltered : (keys.filter fun key =>
      ∀ first ∈ start, first ≤ key).Pairwise (· < ·) := hascending.filter _
  refine ⟨hfiltered.sublist (List.take_sublist _ _), ?_, ?_⟩
  · intro key
    rw [take_mem_iff hfiltered, List.mem_filter, decide_eq_true_eq, and_assoc]
    rfl
  · intro after hafter
    obtain ⟨hlength, rfl⟩ := List.getElem?_eq_some_iff.mp hafter
    refine ⟨by rw [List.length_take]; omega, ?_⟩
    have hmem := List.getElem_mem hlength
    rw [List.mem_filter, decide_eq_true_eq] at hmem
    exact hmem.2

/-- A request with a limit and without an offset, which starts at a usable key
or at the front, is answered with a page of the ascending keys. -/
structure Paginator.Lawful (paginator : Paginator K) (usable : K → Prop) :
    Prop where
  answers : ∀ {keys : List K}, keys.Pairwise (· < ·) →
    ∀ {start : Option K}, (∀ first ∈ start, usable first) →
    ∀ {limit : UInt64}, limit ≠ 0 → ∀ countTotal,
    ∃ visited response,
      paginator ⟨start, 0, limit, countTotal⟩ keys = .ok (visited, response) ∧
        IsPage limit.toNat start keys visited response.nextKey

/-! ## Following the pages -/

/-- The keys that were there when each page was read, and the page: every page
starts at the key which the one before has named. -/
inductive Tour (limit : ℕ) : Option K → List (List K × List K) → Prop
  | last {start : Option K} {keys visited : List K}
      (hpage : IsPage limit start keys visited none) :
      Tour limit start [(keys, visited)]
  | more {start : Option K} {keys visited : List K} {next : K}
      {rest : List (List K × List K)}
      (hpage : IsPage limit start keys visited (some next))
      (hrest : Tour limit (some next) rest) :
      Tour limit start ((keys, visited) :: rest)

theorem Tour.start_le {limit : ℕ} {start : Option K}
    {pages : List (List K × List K)} (htour : Tour limit start pages) :
    ∀ key ∈ pages.flatMap Prod.snd, ∀ first ∈ start, first ≤ key := by
  induction htour with
  | last hpage =>
      intro key hkey first hfirst
      rw [List.flatMap_singleton] at hkey
      exact ((hpage.visits key).mp hkey).2.1 first hfirst
  | more hpage _ ih =>
      intro key hkey first hfirst
      rw [List.flatMap_cons, List.mem_append] at hkey
      rcases hkey with hkey | hkey
      · exact ((hpage.visits key).mp hkey).2.1 first hfirst
      · exact ((hpage.continues _ rfl).2 first hfirst).trans (ih key hkey _ rfl)

/-- No key is visited twice, on one page or on two. -/
theorem Tour.ascending {limit : ℕ} {start : Option K}
    {pages : List (List K × List K)} (htour : Tour limit start pages) :
    (pages.flatMap Prod.snd).Pairwise (· < ·) := by
  induction htour with
  | last hpage =>
      rw [List.flatMap_singleton]
      exact hpage.ascending
  | more hpage hrest ih =>
      rw [List.flatMap_cons, List.pairwise_append]
      refine ⟨hpage.ascending, ih, ?_⟩
      intro key hkey later hlater
      exact (((hpage.visits key).mp hkey).2.2 _ rfl).trans_le
        (hrest.start_le later hlater _ rfl)

/-- A key which is there all the time is visited. -/
theorem Tour.visits {limit : ℕ} {start : Option K}
    {pages : List (List K × List K)} (htour : Tour limit start pages) (key : K)
    (hstart : ∀ first ∈ start, first ≤ key)
    (hthere : ∀ page ∈ pages, key ∈ page.1) :
    key ∈ pages.flatMap Prod.snd := by
  induction htour with
  | last hpage =>
      rw [List.flatMap_singleton]
      exact (hpage.visits key).mpr
        ⟨hthere _ List.mem_cons_self, hstart, by simp⟩
  | @more _ _ _ next _ hpage _ ih =>
      rw [List.flatMap_cons, List.mem_append]
      rcases lt_or_ge key next with hbefore | hafter
      · refine .inl ((hpage.visits key).mpr
          ⟨hthere _ List.mem_cons_self, hstart, ?_⟩)
        simpa using hbefore
      · exact .inr (ih (by simpa using hafter)
          fun page hpage => hthere page (List.mem_cons_of_mem _ hpage))

theorem Tour.ne_nil {limit : ℕ} {start : Option K}
    {pages : List (List K × List K)} (htour : Tour limit start pages) :
    pages ≠ [] := by
  cases htour with
  | last => simp
  | more => simp

/-- Only the last page may be shorter than the limit. -/
theorem Tour.full {limit : ℕ} {start : Option K}
    {pages : List (List K × List K)} (htour : Tour limit start pages) :
    ∀ page ∈ pages.dropLast, page.2.length = limit := by
  induction htour with
  | last hpage => simp
  | more hpage hrest ih =>
      rw [List.dropLast_cons_of_ne_nil hrest.ne_nil]
      exact List.forall_mem_cons.mpr ⟨(hpage.continues _ rfl).1, ih⟩

end Paging
end Vertix
