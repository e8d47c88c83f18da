import Mathlib
import TemplateCascade.Proofs.Render.Paging
import TemplateCascade.Proofs.Text.PercentEncoding
import TemplateCascade.Proofs.Text.Trimming

namespace TemplateCascade
namespace Render

/-!
# Links

The address of a thing can be taken apart again: what names the thing and what the parameters are is read off it
as a server reads it, whatever characters they have.  Page navigation has an attribute for the address of every
page that it links, and no character of the address can end it.
-/

open Text (Escaping IsTrimmed IsTrimmedEnd IsUrlComponent IsUnreservedCharacter IsHtmlFor IsUrlFor
  decodeComponent?)

/-! ## Reading a query -/

/-- The name and the value of a parameter. -/
def parameter? (piece : List Char) : Option (String × String) :=
  match piece.splitOn '=' with
  | [name, value] => do
      let name ← decodeComponent? name
      let value ← decodeComponent? value
      some (name, value)
  | _ => none

/-- The parameters of a query, each with its name and its value. -/
def queryParameters? (query : List Char) : Option (List (String × String)) :=
  (query.splitOn '&').mapM parameter?

/-- No component of a URL has one of the characters that part the components of a query. -/
theorem not_mem_component {component : List Char} (isComponent : IsUrlComponent component) {separator : Char}
    (parts : separator ∈ ['&', '=']) : separator ∉ component := by
  intro member
  have plain := isComponent.isUnreservedCharacter separator member
  revert parts separator
  simp only [List.mem_cons, List.not_mem_nil, or_false]
  rintro separator (rfl | rfl) _ <;> decide

open StandardHost (queryText)
open StandardHost.queryText (pair)

theorem toList_pair (name value : String) :
    (pair (name, value)).toList =
      ['='].intercalate [(Escaping.url.apply name).toList, (Escaping.url.apply value).toList] := by
  rw [pair, String.toList_append, String.toList_append]
  simp [List.intercalate]

theorem isUrlFor_url (text : String) : IsUrlFor text.toList (Escaping.url.apply text).toList := by
  rw [Escaping.toList_apply]
  exact Text.isUrlFor_applyTo text.toList

theorem parameter?_pair (entry : String × String) : parameter? (pair entry).toList = some entry := by
  obtain ⟨name, value⟩ := entry
  have isName := isUrlFor_url name
  have isValue := isUrlFor_url value
  have unparted : ∀ component ∈ [(Escaping.url.apply name).toList, (Escaping.url.apply value).toList],
      '=' ∉ component := by
    simp only [List.forall_mem_cons]
    exact ⟨not_mem_component isName.component (by decide), not_mem_component isValue.component (by decide),
      nofun⟩
  rw [parameter?, toList_pair, List.splitOn_intercalate '=' unparted (List.cons_ne_nil _ _)]
  simp only [isName.decodeComponent?_eq, isValue.decodeComponent?_eq]
  rfl

theorem not_mem_pair (entry : String × String) : '&' ∉ (pair entry).toList := by
  obtain ⟨name, value⟩ := entry
  rw [pair, String.toList_append, String.toList_append, List.mem_append, List.mem_append, not_or, not_or]
  exact ⟨⟨not_mem_component (isUrlFor_url name).component (by decide), by decide⟩,
    not_mem_component (isUrlFor_url value).component (by decide)⟩

theorem intercalate_cons (separator : Char) (first : List Char) (rest : List (List Char)) :
    [separator].intercalate (first :: rest) = first ++ rest.flatMap (separator :: ·) := by
  induction rest generalizing first with
  | nil => rw [List.intercalate_singleton, List.flatMap_nil, List.append_nil]
  | cons next rest inductionHypothesis =>
      rw [List.intercalate_cons_cons, inductionHypothesis, List.flatMap_cons, List.append_assoc]
      rfl

/-- The parameters of a query are parted by ampersands. -/
theorem toList_queryText_cons (first : String × String) (rest : List (String × String)) :
    (queryText (first :: rest)).toList =
      '?' :: ['&'].intercalate ((first :: rest).map fun entry => (pair entry).toList) := by
  have behind (entry : String × String) : ("&" ++ pair entry).toList = '&' :: (pair entry).toList := by
    rw [String.toList_append]
    rfl
  rw [queryText, String.toList_append, String.toList_append, String.toList_join, List.flatMap_map,
    List.map_cons, intercalate_cons, List.flatMap_map]
  simp only [behind]
  rfl

/-- A query is read as the parameters that it was written for, in their order and as often as they are there. -/
theorem queryParameters?_intercalate {parameters : List (String × String)} (some_ : parameters ≠ []) :
    queryParameters? (['&'].intercalate (parameters.map fun entry => (pair entry).toList)) =
      some parameters := by
  have unparted : ∀ piece ∈ parameters.map fun entry => (pair entry).toList, '&' ∉ piece := by
    intro piece member
    obtain ⟨entry, _, rfl⟩ := List.mem_map.mp member
    exact not_mem_pair entry
  rw [queryParameters?, List.splitOn_intercalate '&' unparted (List.map_eq_nil_iff.not.mpr some_)]
  clear some_ unparted
  induction parameters with
  | nil => rfl
  | cons first rest inductionHypothesis =>
      rw [List.map_cons, List.mapM_cons, parameter?_pair, inductionHypothesis]
      rfl

/-! ## The parts of an address -/

/-- What an address has behind the kind of a thing for its name: nothing, if it has none, and otherwise a component
that is read as the name. -/
inductive IsSegment (identifier : String) : List Char → Prop where
  | unnamed (nameless : identifier = "") : IsSegment identifier []
  | named {component : List Char} (some_ : identifier ≠ "") (isComponent : IsUrlComponent component)
      (isRead : decodeComponent? component = some identifier) : IsSegment identifier ('/' :: component)

/-- What an address has at its end for some parameters: nothing, if there are none, and otherwise a query that is
read as the parameters. -/
inductive IsQuery (parameters : List (String × String)) : List Char → Prop where
  | none (nothing : parameters = []) : IsQuery parameters []
  | some {query : List Char} (some_ : parameters ≠ [])
      (isRead : queryParameters? query = some parameters) : IsQuery parameters ('?' :: query)

/-- The address of a thing of some kind: the base and the kind, with one slash between them however many they have
at their ends, and then the name of the thing and the parameters, if there are any. -/
inductive IsAddress (base kind identifier : String) (parameters : List (String × String)) :
    List Char → Prop where
  | parts {front path segment query : List Char} (isBase : IsTrimmedEnd '/' base.toList front)
      (isKind : IsTrimmed '/' kind.toList path) (isSegment : IsSegment identifier segment)
      (isQuery : IsQuery parameters query) :
      IsAddress base kind identifier parameters (front ++ '/' :: path ++ segment ++ query)

theorem isQuery_queryText (parameters : List (String × String)) :
    IsQuery parameters (queryText parameters).toList := by
  cases parameters with
  | nil => exact .none rfl
  | cons first rest =>
      rw [toList_queryText_cons]
      exact .some (List.cons_ne_nil first rest) (queryParameters?_intercalate (List.cons_ne_nil first rest))

theorem isSegment_url (identifier : String) :
    IsSegment identifier
      (if identifier = "" then "" else "/" ++ Escaping.url.apply identifier).toList := by
  split
  · next nameless => exact .unnamed nameless
  · next some_ =>
      have isName := isUrlFor_url identifier
      rw [String.toList_append]
      exact .named some_ isName.component isName.decodeComponent?_eq

theorem isAddress_link (locale : Locale) (base : String) (helpers : List (String × (List Value → String)))
    (kind : String) (data : Value) (parameters : List (String × String)) :
    IsAddress base kind (StandardHost.identifierText data) parameters
      ((StandardHost.create locale base helpers).link kind data parameters).toList := by
  have whole : ((StandardHost.create locale base helpers).link kind data parameters).toList =
      base.toList.rdropWhile (· == '/') ++
        '/' :: (kind.toList.dropWhile (· == '/')).rdropWhile (· == '/') ++
        (if StandardHost.identifierText data = "" then ""
          else "/" ++ Escaping.url.apply (StandardHost.identifierText data)).toList ++
        (queryText parameters).toList := by
    rw [StandardHost.link, String.toList_append, String.toList_append, String.toList_append,
      String.toList_append, StandardHost.create, String.toList_ofList, String.toList_ofList,
      String.toList_ofList, List.append_assoc _ ['/'], List.singleton_append]
    rfl
  rw [whole]
  exact .parts (Text.isTrimmedEnd_rdropWhile '/' base.toList)
    (Text.isTrimmed_rdropWhile_dropWhile '/' kind.toList) (isSegment_url _) (isQuery_queryText parameters)

/-! ## Reading attributes -/

/-- Where a reader of markup is: in text, in a tag behind a part of a word, or in the value of an attribute. -/
inductive ReadingPlace where
  | text
  | tag (word : List Char)
  | value (name seen : List Char)

/-- The attributes of the tags of markup from some place on, each with its name and its value between quotes. -/
def attributesFrom : ReadingPlace → List Char → List (List Char × List Char)
  | _, [] => []
  | .text, character :: rest => attributesFrom (if character = '<' then .tag [] else .text) rest
  | .tag word, character :: rest =>
      attributesFrom
        (if character = '>' then .text
        else if character = '"' then .value word []
        else if character = ' ' then .tag []
        else if character = '=' then .tag word
        else .tag (word ++ [character])) rest
  | .value name seen, character :: rest =>
      if character = '"' then (name, seen) :: attributesFrom (.tag []) rest
      else attributesFrom (.value name (seen ++ [character])) rest

/-- The value of an attribute that has an address. -/
def addressValue? (entry : List Char × List Char) : Option (List Char) :=
  if entry.1 = "href".toList then some entry.2 else none

/-- The values of the attributes with addresses in markup. -/
def addressValues (markup : List Char) : List (List Char) :=
  (attributesFrom .text markup).filterMap addressValue?

example : addressValues "<p class=\"links\"><a href=\"/a?b=c&amp;d\">1</a></p>".toList =
    ["/a?b=c&amp;d".toList] := by
  decide

variable {text value rest : List Char}

theorem attributesFrom_text (plain : '<' ∉ text) :
    attributesFrom .text (text ++ rest) = attributesFrom .text rest := by
  induction text with
  | nil => rfl
  | cons character text inductionHypothesis =>
      rw [List.mem_cons, not_or] at plain
      rw [List.cons_append, attributesFrom, if_neg (Ne.symm plain.1), inductionHypothesis plain.2]

theorem attributesFrom_value (name seen : List Char) (plain : '"' ∉ value) :
    attributesFrom (.value name seen) (value ++ '"' :: rest) =
      (name, seen ++ value) :: attributesFrom (.tag []) rest := by
  induction value generalizing seen with
  | nil => rw [List.nil_append, attributesFrom, if_pos rfl, List.append_nil]
  | cons character value inductionHypothesis =>
      rw [List.mem_cons, not_or] at plain
      rw [List.cons_append, attributesFrom, if_neg (Ne.symm plain.1), inductionHypothesis _ plain.2,
        List.append_assoc, List.singleton_append]

/-! ## Page navigation -/

/-- The page that an entry of page navigation links. -/
def PageEntry.linked? : PageEntry → Option Nat
  | .page number => some number
  | _ => none

/-- The pages that page navigation links, in their order. -/
def PageRequest.linkedPages (request : PageRequest) : List Nat :=
  (request.entries?.getD []).filterMap PageEntry.linked?

variable (host : StandardHost) (request : PageRequest)

/-- The address of a page of a listing; that of the first needs no parameter. -/
def StandardHost.pageAddress (number : Nat) : String :=
  host.link request.link request.data
    (request.parameters ++ if 1 < number then [("page", toString number)] else [])

/-- The attributes of an entry of page navigation. -/
def entryAttributes : PageEntry → List (List Char × List Char)
  | .page number => [("href".toList, (Escaping.html.apply (host.pageAddress request number)).toList)]
  | .current _ => [("class".toList, "current".toList)]
  | .gap => [("class".toList, "gap".toList)]

theorem not_mem_toString (number : Nat) : '<' ∉ (toString number).toList := by
  rw [Nat.toString_eq_ofList_toDigits, String.toList_ofList]
  intro member
  have isDigit := Nat.isDigit_of_mem_toDigits (by decide) (by decide) member
  revert isDigit
  decide

theorem isHtmlFor_html (text : String) : IsHtmlFor text.toList (Escaping.html.apply text).toList := by
  rw [Escaping.toList_apply]
  exact Text.isHtmlFor_applyTo text.toList

theorem attributesFrom_gap :
    attributesFrom .text ((host.pageEntryText request .gap).toList ++ rest) =
      entryAttributes host request .gap ++ attributesFrom .text rest := by
  have isText : host.pageEntryText request .gap = "<span class=\"gap\">&hellip;</span>" := rfl
  rw [isText]
  simp [entryAttributes, attributesFrom]

theorem attributesFrom_current (number : Nat) :
    attributesFrom .text ((host.pageEntryText request (.current number)).toList ++ rest) =
      entryAttributes host request (.current number) ++ attributesFrom .text rest := by
  have isText : host.pageEntryText request (.current number) =
      "<span class=\"current\">" ++ toString number ++ "</span>" := rfl
  have opened (rest : List Char) : attributesFrom .text ("<span class=\"current\">".toList ++ rest) =
      ("class".toList, "current".toList) :: attributesFrom .text rest := by
    simp [attributesFrom]
  have closed : attributesFrom .text ("</span>".toList ++ rest) = attributesFrom .text rest := by
    simp [attributesFrom]
  rw [isText, String.toList_append, String.toList_append, List.append_assoc, List.append_assoc, opened,
    attributesFrom_text (not_mem_toString number), closed]
  simp only [entryAttributes, List.singleton_append]

theorem attributesFrom_page (number : Nat) :
    attributesFrom .text ((host.pageEntryText request (.page number)).toList ++ rest) =
      entryAttributes host request (.page number) ++ attributesFrom .text rest := by
  have opened (rest : List Char) : attributesFrom .text ("<a href=\"".toList ++ rest) =
      attributesFrom (.value "href".toList []) rest := by
    simp [attributesFrom]
  have behind (rest : List Char) : "\">".toList ++ rest = '"' :: '>' :: rest := by simp
  have closed : attributesFrom .text ("</a>".toList ++ rest) = attributesFrom .text rest := by
    simp [attributesFrom]
  have unquoted : '"' ∉ (Escaping.html.apply (host.pageAddress request number)).toList := fun member =>
    ((isHtmlFor_html _).unmarked '"' member).2.2.1 rfl
  rw [pageEntryText_page, ← StandardHost.pageAddress]
  simp only [String.toList_append, List.append_assoc]
  rw [opened, behind, attributesFrom_value _ _ unquoted, attributesFrom, if_pos rfl,
    attributesFrom_text (not_mem_toString number), closed]
  simp only [entryAttributes, List.singleton_append, List.nil_append]

theorem attributesFrom_entries (entries : List PageEntry) :
    attributesFrom .text ((String.join (entries.map (host.pageEntryText request))).toList ++ rest) =
      entries.flatMap (entryAttributes host request) ++ attributesFrom .text rest := by
  induction entries with
  | nil => rfl
  | cons entry entries inductionHypothesis =>
      rw [List.map_cons, String.join_cons, String.toList_append, List.append_assoc, List.flatMap_cons,
        List.append_assoc, ← inductionHypothesis]
      cases entry with
      | page number => exact attributesFrom_page host request number
      | current number => exact attributesFrom_current host request number
      | gap => exact attributesFrom_gap host request

theorem addressValue?_class (value : List Char) : addressValue? ("class".toList, value) = none := by
  have other : "class".toList ≠ "href".toList := by decide
  exact if_neg other

/-- Every linked page has one attribute with its address, and nothing else has one. -/
theorem forall₂_addressValue? (entries : List PageEntry) :
    List.Forall₂ (fun number value => IsHtmlFor (host.pageAddress request number).toList value)
      (entries.filterMap PageEntry.linked?)
      ((entries.flatMap (entryAttributes host request)).filterMap addressValue?) := by
  have isAddress (value : List Char) : addressValue? ("href".toList, value) = some value := if_pos rfl
  induction entries with
  | nil => exact .nil
  | cons entry entries inductionHypothesis =>
      rw [List.flatMap_cons, List.filterMap_append]
      cases entry with
      | page number =>
          rw [entryAttributes, List.filterMap_cons_some (isAddress _), List.filterMap_nil]
          exact List.Forall₂.cons (isHtmlFor_html (host.pageAddress request number)) inductionHypothesis
      | current number =>
          rw [entryAttributes, List.filterMap_cons_none (addressValue?_class _)]
          exact inductionHypothesis
      | gap =>
          rw [entryAttributes, List.filterMap_cons_none (addressValue?_class _)]
          exact inductionHypothesis

theorem addressValues_pageNavigation :
    List.Forall₂ (fun number value => IsHtmlFor (host.pageAddress request number).toList value)
      request.linkedPages (addressValues (host.pageNavigation request).toList) := by
  have opened (rest : List Char) : attributesFrom .text ("<nav class=\"pagenav\">".toList ++ rest) =
      ("class".toList, "pagenav".toList) :: attributesFrom .text rest := by
    simp [attributesFrom]
  have closed : attributesFrom .text "</nav>".toList = [] := by simp [attributesFrom]
  rw [StandardHost.pageNavigation, PageRequest.linkedPages]
  split
  · next missing =>
      rw [missing]
      exact .nil
  · next nothing =>
      rw [nothing]
      exact .nil
  · next first rest listed =>
      rw [listed, addressValues, String.toList_append, String.toList_append, List.append_assoc, opened,
        attributesFrom_entries, closed, List.append_nil, List.filterMap_cons_none (addressValue?_class _)]
      exact forall₂_addressValue? host request (first :: rest)

/-- Links carry what they are made of, and the links of page navigation stay within their attributes. -/
theorem links_faithful (locale : Locale) (base : String) (helpers : List (String × (List Value → String))) :
    (∀ kind data parameters,
      IsAddress base kind (StandardHost.identifierText data) parameters
        ((StandardHost.create locale base helpers).link kind data parameters).toList) ∧
    ∀ request : PageRequest,
      List.Forall₂
        (fun number value =>
          IsHtmlFor ((StandardHost.create locale base helpers).link request.link request.data
            (request.parameters ++ if 1 < number then [("page", toString number)] else [])).toList value)
        request.linkedPages
        (addressValues ((StandardHost.create locale base helpers).pageNavigation request).toList) :=
  ⟨isAddress_link locale base helpers, addressValues_pageNavigation (StandardHost.create locale base helpers)⟩

/-- A kind with slashes around it is not joined to the base as it stands. -/
theorem link_surrounded_kind :
    (StandardHost.create {} "https://forum.test" []).link "/news/" .null [] = "https://forum.test/news" ∧
      "https://forum.test/news" ≠ "https://forum.test" ++ "/" ++ "/news/" := by
  decide +kernel

end Render
end TemplateCascade
