import TemplateCascade.Number.Word
import TemplateCascade.Render.Locale

namespace TemplateCascade
namespace Render

/-!
# Hosts

What depends on the installation is asked of a host: formats, addresses, page navigation and helper
functions.  The standard host has a locale, a base address and a table of helpers.  Its page
navigation shows the first page, the last page and the pages near the current one, with a mark where
pages are left out.
-/

open Text (Escaping)

/-- A listing of which one page is shown. -/
structure PageRequest where
  /-- The kind of address that the pages have. -/
  link : String
  data : Value
  page : Nat
  perPage : Nat
  total : Nat
  parameters : List (String × String)

/--
The number of pages, `none` if it is no word.  There is always one page, also where none has a size.
-/
def PageRequest.pageCount? (request : PageRequest) : Option Nat :=
  if request.perPage = 0 then some 1
  else do
    let full := request.total / request.perPage
    let pages ← if request.total % request.perPage = 0 then some full else Number.sum? full 1
    some (max 1 pages)

/-- The number of pages. -/
def PageRequest.pageCount (request : PageRequest) : Nat :=
  request.pageCount?.getD 1

/-- The services that generated code uses while it is rendered. -/
structure Host where
  /-- A number with so many decimals. -/
  formatNumber : Float → Nat → String
  /-- A timestamp in a format, or in the locale's own for the kind. -/
  formatDate : FormatKind → Int → Option String → Except RenderError String
  /-- The address of a kind of thing, with its data and parameters. -/
  link : String → Value → List (String × String) → String
  /-- Markup to go from page to page. -/
  pageNavigation : PageRequest → String
  /-- The result of a helper function. -/
  helper : String → List Value → String

/-! ## Page navigation -/

/-- What page navigation shows in one place. -/
inductive PageEntry where
  | page (number : Nat)
  | current (number : Nat)
  /-- Pages that are left out. -/
  | gap
deriving DecidableEq, Repr

/-- How many pages are shown on either side of the current one. -/
def pageRadius : Nat := 2

/-- The pages from one number to another, with the current one marked. -/
def pageRun (current first count : Nat) : List PageEntry :=
  (List.range' first count).map fun number =>
    if number = current then .current number else .page number

/--
The entries of page navigation, `none` if a number on the way is no word.  There are no entries for a
single page.
-/
def pageEntries? (page pages : Nat) : Option (List PageEntry) :=
  if pages ≤ 1 then some []
  else do
    let current := max 1 (min page pages)
    let low := max 1 (current - pageRadius)
    let high := min pages (Number.saturatingSum current pageRadius)
    let front := if 1 < low then .page 1 :: (if 2 < low then [.gap] else []) else []
    let back ←
      if high < pages then do
        let next ← Number.sum? high 1
        some ((if next < pages then [.gap] else []) ++ [.page pages])
      else some []
    some (front ++ pageRun current low (high + 1 - low) ++ back)

/-- The entries of page navigation for a request. -/
def PageRequest.entries? (request : PageRequest) : Option (List PageEntry) := do
  let pages ← request.pageCount?
  pageEntries? request.page pages

/-! ## The standard host -/

/-- A host with a fixed locale. -/
structure StandardHost where
  locale : Locale
  /-- The address in front of every link, without a slash at its end. -/
  baseAddress : String
  helpers : List (String × (List Value → String))

namespace StandardHost

/-- Drop the slashes at the end of a text. -/
def dropTrailingSlashes (text : List Char) : List Char :=
  (text.reverse.dropWhile (· == '/')).reverse

/-- A host with a base address, whose slashes at the end do not count. -/
def create (locale : Locale) (baseAddress : String)
    (helpers : List (String × (List Value → String))) : StandardHost :=
  ⟨locale, String.ofList (dropTrailingSlashes baseAddress.toList), helpers⟩

/-- The text that names a thing in an address: its own, or that of its `id` field. -/
def identifierText : Value → String
  | .map entries => ((entryNamed? entries "id").getD .null).text
  | .list _ => ""
  | value => value.text

/-- Parameters behind an address. -/
def queryText : List (String × String) → String
  | [] => ""
  | first :: rest => "?" ++ pair first ++ String.join (rest.map fun entry => "&" ++ pair entry)
where
  /-- One parameter. -/
  pair : String × String → String
    | (name, value) => Escaping.url.apply name ++ "=" ++ Escaping.url.apply value

/-- The address of a kind of thing. -/
def link (host : StandardHost) (kind : String) (data : Value)
    (parameters : List (String × String)) : String :=
  let kindText := String.ofList (dropTrailingSlashes (kind.toList.dropWhile (· == '/')))
  let identifier := identifierText data
  let segment := if identifier = "" then "" else "/" ++ Escaping.url.apply identifier
  host.baseAddress ++ "/" ++ kindText ++ segment ++ queryText parameters

/-- The link to a page of a listing; the first page needs no parameter. -/
def pageLink (host : StandardHost) (request : PageRequest) (number : Nat) : String :=
  let parameters :=
    if 1 < number then request.parameters ++ [("page", toString number)] else request.parameters
  "<a href=\"" ++ Escaping.html.apply (host.link request.link request.data parameters) ++ "\">" ++
    toString number ++ "</a>"

/-- The markup of one entry of page navigation. -/
def pageEntryText (host : StandardHost) (request : PageRequest) : PageEntry → String
  | .page number => host.pageLink request number
  | .current number => "<span class=\"current\">" ++ toString number ++ "</span>"
  | .gap => "<span class=\"gap\">&hellip;</span>"

/-- Markup to go from page to page, empty for a single page. -/
def pageNavigation (host : StandardHost) (request : PageRequest) : String :=
  match request.entries? with
  | none | some [] => ""
  | some (first :: rest) =>
      "<nav class=\"pagenav\">" ++ String.join ((first :: rest).map (host.pageEntryText request)) ++
        "</nav>"

/-- The result of a helper; an unknown one has none. -/
def helper (host : StandardHost) (name : String) (arguments : List Value) : String :=
  match entryNamed? host.helpers name with
  | some function => function arguments
  | none => ""

/-- The services of a standard host. -/
def services (host : StandardHost) : Host where
  formatNumber := host.locale.formatNumber
  formatDate := host.locale.formatDate
  link := host.link
  pageNavigation := host.pageNavigation
  helper := host.helper

end StandardHost

end Render
end TemplateCascade
