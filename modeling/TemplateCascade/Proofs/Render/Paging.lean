import Mathlib
import TemplateCascade.Render.Host

namespace TemplateCascade
namespace Render

/-!
# Page navigation

Page navigation lists the first page, the last page and the pages near the current one.  In a list of pages in
ascending order a gap stands wherever pages are left out between two of them, and only there.  Nothing that is
reckoned on the way is too large for a word, whatever the request asks for.
-/

open Number (wordLimit sum?_eq_some min_saturatingSum)
open Text (Escaping)

/-! ## The number of pages -/

namespace PageRequest

/-- The numbers of a request are words. -/
structure Fits (request : PageRequest) : Prop where
  page : request.page < wordLimit
  perPage : request.perPage < wordLimit
  total : request.total < wordLimit

/-- How many pages it takes to show everything.  Nothing divided by nothing takes one page as well. -/
def neededPages (request : PageRequest) : Nat :=
  max 1 ⌈(request.total / request.perPage : ℚ)⌉₊

/-- The page that is shown: the one that is asked for, or the nearest there is. -/
def shownPage (request : PageRequest) : Nat :=
  max 1 (min request.page request.neededPages)

end PageRequest

/-- A quotient is rounded up by adding one to what division gives, unless there is no remainder. -/
theorem ceil_quotient (total : Nat) {size : Nat} (positive : 0 < size) :
    ⌈(total / size : ℚ)⌉₊ = if total % size = 0 then total / size else total / size + 1 := by
  refine eq_of_forall_ge_iff fun bound => ?_
  have enough : ⌈(total / size : ℚ)⌉₊ ≤ bound ↔ total ≤ bound * size := by
    rw [Nat.ceil_le, div_le_iff₀ (by exact_mod_cast positive)]
    norm_cast
  rw [enough]
  split
  · next exact =>
      conv_lhs => rw [← Nat.div_mul_cancel (Nat.dvd_of_mod_eq_zero exact)]
      exact Nat.mul_le_mul_right_iff positive
  · next rest =>
      have notWhole : total ≠ bound * size := by
        rintro rfl
        exact rest (Nat.mul_mod_left bound size)
      rw [Nat.add_one_le_iff, Nat.div_lt_iff_lt_mul positive]
      omega

namespace PageRequest

theorem pageCount?_eq_some {request : PageRequest} (fits : request.Fits) :
    request.pageCount? = some request.neededPages := by
  unfold pageCount? neededPages
  by_cases sizeless : request.perPage = 0
  · simp [sizeless]
  · have positive := Nat.pos_of_ne_zero sizeless
    rw [if_neg sizeless, ceil_quotient request.total positive]
    split
    · rfl
    · next rest =>
        -- A quotient with a remainder is smaller than what is divided.
        have smaller : request.total / request.perPage + 1 < wordLimit := by
          have parts := Nat.div_add_mod request.total request.perPage
          have least := Nat.le_mul_of_pos_left (request.total / request.perPage) positive
          have fitting := fits.total
          omega
        dsimp only
        rw [sum?_eq_some smaller]
        rfl

theorem neededPages_lt {request : PageRequest} (fits : request.Fits) : request.neededPages < wordLimit := by
  have fitting := fits.total
  have atMost : ⌈(request.total / request.perPage : ℚ)⌉₊ ≤ request.total := by
    rw [Nat.ceil_le]
    rcases Nat.eq_zero_or_pos request.perPage with sizeless | positive
    · simp [sizeless]
    · exact div_le_self (Nat.cast_nonneg _) (by exact_mod_cast positive)
  have one : 1 < wordLimit := by decide
  unfold neededPages
  omega

end PageRequest

/-! ## Marked pages -/

/-- What is shown for a page that is not left out. -/
def entryFor (current number : Nat) : PageEntry :=
  if number = current then .current number else .page number

/-- A gap between two pages, unless the second comes next. -/
def gapBetween (first second : Nat) : List PageEntry :=
  if first + 1 < second then [.gap] else []

/-- The entries for some pages: one for each of them, the current one marked, and the gaps between them. -/
def marked (current : Nat) : List Nat → List PageEntry
  | [] => []
  | [number] => [entryFor current number]
  | number :: next :: rest => entryFor current number :: gapBetween number next ++ marked current (next :: rest)

theorem marked_append (current : Nat) (front : List Nat) (last first : Nat) (back : List Nat) :
    marked current (front ++ last :: first :: back) =
      marked current (front ++ [last]) ++ gapBetween last first ++ marked current (first :: back) := by
  induction front with
  | nil => rfl
  | cons head front inductionHypothesis =>
      cases front with
      | nil => simp [marked]
      | cons next front =>
          simp only [List.cons_append, marked] at inductionHypothesis ⊢
          rw [inductionHypothesis]
          simp

theorem marked_ne_nil (current : Nat) {numbers : List Nat} (nonempty : numbers ≠ []) :
    marked current numbers ≠ [] := by
  rcases numbers with _ | ⟨first, _ | ⟨second, rest⟩⟩
  · exact absurd rfl nonempty
  · exact List.cons_ne_nil _ _
  · exact List.cons_ne_nil _ _

/-- Pages that follow one another have no gaps. -/
theorem marked_range' (current first count : Nat) :
    marked current (List.range' first count) = pageRun current first count := by
  induction count generalizing first with
  | zero => rfl
  | succ count inductionHypothesis =>
      cases count with
      | zero => rfl
      | succ count =>
          have noGap : gapBetween first (first + 1) = [] := if_neg (Nat.lt_irrefl _)
          rw [List.range'_succ, List.range'_succ, marked, noGap, ← List.range'_succ, inductionHypothesis]
          rfl

/-! ## The window -/

/-- The pages that page navigation lists: the first, the last, and those next to the current one. -/
structure IsWindow (pages current : Nat) (numbers : List Nat) : Prop where
  ascending : numbers.Pairwise (· < ·)
  mem_iff : ∀ number, number ∈ numbers ↔
    number = 1 ∨ number = pages ∨ (max 1 (current - 2) ≤ number ∧ number ≤ min pages (current + 2))
  few : numbers.length ≤ 7

/-- The pages from one number to another, with the first and the last page of all around them. -/
def surrounded (pages low high : Nat) : List Nat :=
  (if 1 < low then [1] else []) ++ List.range' low (high + 1 - low) ++ (if high < pages then [pages] else [])

theorem isWindow_surrounded {pages current : Nat} (positive : 1 ≤ current) (known : current ≤ pages) :
    IsWindow pages current (surrounded pages (max 1 (current - 2)) (min pages (current + 2))) where
  ascending := by
    unfold surrounded
    rw [List.pairwise_append, List.pairwise_append]
    refine ⟨⟨by split <;> simp, List.pairwise_lt_range', ?_⟩, by split <;> simp, ?_⟩ <;>
      · intro first isFirst second isSecond
        simp only [List.mem_append, List.mem_ite_nil_right, List.mem_singleton, List.mem_range'_1]
          at isFirst isSecond
        omega
  mem_iff := by
    intro number
    unfold surrounded
    simp only [List.mem_append, List.mem_ite_nil_right, List.mem_singleton, List.mem_range'_1]
    omega
  few := by
    unfold surrounded
    simp only [List.length_append, List.length_range']
    split <;> split <;> simp <;> omega

theorem marked_surrounded {pages current low high : Nat} (isLow : low ≤ current) (isHigh : current ≤ high) :
    marked current (surrounded pages low high) =
      (if 1 < low then .page 1 :: gapBetween 1 low else []) ++ pageRun current low (high + 1 - low) ++
        (if high < pages then gapBetween high pages ++ [.page pages] else []) := by
  rcases Nat.exists_eq_add_of_le (isLow.trans isHigh) with ⟨count, rfl⟩
  have isCount : low + count + 1 - low = count + 1 := by omega
  have withLast : marked current (List.range' low (count + 1) ++ if low + count < pages then [pages] else []) =
      pageRun current low (count + 1) ++
        (if low + count < pages then gapBetween (low + count) pages ++ [.page pages] else []) := by
    split
    · next later =>
        have other : entryFor current pages = .page pages := if_neg (by omega)
        rw [List.range'_1_concat, List.append_assoc, List.singleton_append, marked_append,
          ← List.range'_1_concat, marked_range', marked, other, List.append_assoc]
    · rw [List.append_nil, List.append_nil, marked_range']
  rw [surrounded, isCount, List.append_assoc, List.append_assoc, ← withLast]
  split
  · next later =>
      have other : entryFor current 1 = .page 1 := if_neg (by omega)
      rw [List.range'_succ, List.cons_append, List.cons_append, List.nil_append, marked, other]
  · rfl

/-! ## The entries -/

theorem count_gap_marked_surrounded_le {pages current low high : Nat} (isLow : low ≤ current)
    (isHigh : current ≤ high) : (marked current (surrounded pages low high)).count .gap ≤ 2 := by
  have noGap : PageEntry.gap ∉ pageRun current low (high + 1 - low) := by
    intro member
    rcases List.mem_map.mp member with ⟨number, _, isGap⟩
    split at isGap <;> cases isGap
  rw [marked_surrounded isLow isHigh, List.count_append, List.count_append, List.count_eq_zero.mpr noGap]
  have atMostOne (first second : Nat) : (gapBetween first second).count .gap ≤ 1 := by
    unfold gapBetween
    split <;> simp
  have front : (if 1 < low then .page 1 :: gapBetween 1 low else []).count .gap ≤ 1 := by
    split
    · exact (List.count_cons_of_ne (by decide)).trans_le (atMostOne 1 low)
    · exact Nat.zero_le 1
  have back : (if high < pages then gapBetween high pages ++ [.page pages] else []).count .gap ≤ 1 := by
    split
    · rw [List.count_append]
      exact atMostOne high pages
    · exact Nat.zero_le 1
  omega

/-- The entries are those of the window, and no sum on the way is too large. -/
theorem pageEntries?_eq_some {page pages : Nat} (several : 1 < pages) (fits : pages < wordLimit) :
    pageEntries? page pages = some (marked (max 1 (min page pages))
      (surrounded pages (max 1 (max 1 (min page pages) - 2)) (min pages (max 1 (min page pages) + 2)))) := by
  rw [marked_surrounded (by omega) (by omega), pageEntries?, if_neg (Nat.not_le.mpr several)]
  simp only [min_saturatingSum fits, pageRadius]
  split
  · next later =>
      have next : min pages (max 1 (min page pages) + 2) + 1 < wordLimit := by omega
      rw [sum?_eq_some next]
      rfl
  · rfl

/-- What a request lists: nothing if one page is enough, and the marked pages of a window otherwise. -/
theorem entries?_eq_some {request : PageRequest} (fits : request.Fits) :
    request.neededPages = 1 ∧ request.entries? = some [] ∨
      1 < request.neededPages ∧ ∃ numbers, IsWindow request.neededPages request.shownPage numbers ∧
        request.entries? = some (marked request.shownPage numbers) ∧
        (marked request.shownPage numbers).count .gap ≤ 2 := by
  have counted : request.entries? = pageEntries? request.page request.neededPages := by
    rw [PageRequest.entries?, PageRequest.pageCount?_eq_some fits]
    rfl
  rw [counted]
  have least : 1 ≤ request.neededPages := Nat.le_max_left 1 _
  rcases Nat.eq_or_lt_of_le least with single | several
  · refine .inl ⟨single.symm, ?_⟩
    rw [← single]
    rfl
  · have positive : 1 ≤ request.shownPage := Nat.le_max_left 1 _
    have known : request.shownPage ≤ request.neededPages := max_le least (min_le_right request.page _)
    refine .inr ⟨several, _, isWindow_surrounded positive known,
      pageEntries?_eq_some several (PageRequest.neededPages_lt fits), ?_⟩
    exact count_gap_marked_surrounded_le (by omega) (by omega)

/-! ## The markup -/

/-- Page navigation is empty only without entries. -/
theorem pageNavigation_of_entries? (host : StandardHost) {request : PageRequest} {entries : List PageEntry}
    (listed : request.entries? = some entries) :
    (host.pageNavigation request = "" ↔ entries = []) ∧
      (entries ≠ [] → host.pageNavigation request =
        "<nav class=\"pagenav\">" ++ String.join (entries.map (host.pageEntryText request)) ++ "</nav>") := by
  rw [StandardHost.pageNavigation, listed]
  cases entries with
  | nil => simp
  | cons first rest => simp [String.append_eq_empty_iff]

/-- A page is linked by its number, but for the first, whose link has only the parameters of the request. -/
theorem pageEntryText_page (host : StandardHost) (request : PageRequest) (number : Nat) :
    host.pageEntryText request (.page number) =
      "<a href=\"" ++ Escaping.html.apply (host.link request.link request.data
        (request.parameters ++ if 1 < number then [("page", toString number)] else [])) ++ "\">" ++
          toString number ++ "</a>" := by
  have isParameters : request.parameters ++ (if 1 < number then [("page", toString number)] else []) =
      if 1 < number then request.parameters ++ [("page", toString number)] else request.parameters := by
    split
    · rfl
    · exact List.append_nil request.parameters
  rw [isParameters]
  rfl

/-- Page navigation shows nothing for a single page.  For several it shows the entries of the window around the
page that is shown, and every page of it is a link with its own number, unless it is the first, or the page that
is shown. -/
theorem pageNavigation_windowed (host : StandardHost) {request : PageRequest} (fits : request.Fits) :
    ∃ entries, request.pageCount? = some request.neededPages ∧ request.entries? = some entries ∧
      (host.pageNavigation request = "" ↔ request.neededPages = 1) ∧
      (request.neededPages ≠ 1 →
        host.pageNavigation request =
            "<nav class=\"pagenav\">" ++ String.join (entries.map (host.pageEntryText request)) ++ "</nav>" ∧
          entries.count .gap ≤ 2 ∧
          ∃ numbers, IsWindow request.neededPages request.shownPage numbers ∧
            entries = marked request.shownPage numbers) ∧
      ∀ number, host.pageEntryText request (.page number) =
        "<a href=\"" ++ Escaping.html.apply (host.link request.link request.data
          (request.parameters ++ if 1 < number then [("page", toString number)] else [])) ++ "\">" ++
            toString number ++ "</a>" := by
  have counted := PageRequest.pageCount?_eq_some fits
  rcases entries?_eq_some fits with ⟨single, listed⟩ | ⟨several, numbers, window, listed, fewGaps⟩
  · have isEmpty := (pageNavigation_of_entries? host listed).1
    refine ⟨[], counted, listed, ?_, fun notSingle => absurd single notSingle,
      pageEntryText_page host request⟩
    exact ⟨fun _ => single, fun _ => isEmpty.mpr rfl⟩
  · have nonempty : marked request.shownPage numbers ≠ [] :=
      marked_ne_nil request.shownPage (List.ne_nil_of_mem ((window.mem_iff 1).mpr (.inl rfl)))
    rcases pageNavigation_of_entries? host listed with ⟨isEmpty, isText⟩
    refine ⟨_, counted, listed, ?_, fun _ => ⟨isText nonempty, fewGaps, numbers, window, rfl⟩,
      pageEntryText_page host request⟩
    exact ⟨fun nothing => absurd (isEmpty.mp nothing) nonempty, fun single => absurd single several.ne'⟩

/-- A listing of many pages, of which one in the middle is shown. -/
def crowdedListing : PageRequest where
  link := "forums"
  data := .null
  page := 1000
  perPage := 1
  total := 200000
  parameters := []

theorem pageNavigation_crowdedListing : crowdedListing.Fits ∧ ∀ host : StandardHost,
    host.pageNavigation crowdedListing ≠ "" ∧
    ∃ numbers, IsWindow 200000 1000 numbers ∧
      [.page 1, .gap, .page 998, .page 999, .current 1000, .page 1001, .page 1002, .gap, .page 200000] =
        marked 1000 numbers := by
  have fits : crowdedListing.Fits := ⟨by decide, by decide, by decide⟩
  have needed : crowdedListing.neededPages = 200000 := by
    norm_num [PageRequest.neededPages, crowdedListing]
  have shown : crowdedListing.shownPage = 1000 := by
    rw [PageRequest.shownPage, needed]
    rfl
  refine ⟨fits, fun host => ?_⟩
  rcases pageNavigation_windowed host fits with ⟨entries, _, listed, isEmpty, isShown, _⟩
  rw [needed] at isEmpty isShown
  rcases isShown (by decide) with ⟨_, _, numbers, window, areMarked⟩
  rw [shown] at window areMarked
  refine ⟨fun nothing => absurd (isEmpty.mp nothing) (by decide), numbers, window, ?_⟩
  have computed : crowdedListing.entries? = some [.page 1, .gap, .page 998, .page 999, .current 1000, .page 1001,
      .page 1002, .gap, .page 200000] := by
    decide
  rw [← areMarked]
  exact Option.some.inj (computed.symm.trans listed)

end Render
end TemplateCascade
