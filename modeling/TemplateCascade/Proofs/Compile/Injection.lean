import Mathlib
import TemplateCascade.Proofs.Compile.Lawful
import TemplateCascade.Proofs.Outcomes
import TemplateCascade.Proofs.Render.Writing
import TemplateCascade.Proofs.Text.MarkupFree

namespace TemplateCascade
namespace Compile

/-!
# No tags from data

The text of a page is escaped for HTML where it is written.  So if neither the templates nor the phrases
behind a page hold an angle bracket, and no function is called that writes markup of its own, no data and
no host can bring a tag into the output.

Quiet code never writes an angle bracket.  It is not enough to look at code that is compiled as it stands:
many functions compile their arguments without any escaping and escape what comes out.  So nothing is asked
of raw code, and all other code has to be quiet, whatever its escaping.
-/

open Markup (ArgumentOf Extent Segment Template Throughout nestedAll)
open Render (Host RenderError Scope render write writeAll writeEach)
open Text (Escaping IsHarmless MarkupFree)

/-! ## Quiet code -/

/-- Whatever is written has no angle bracket, in every scope and under every host. -/
def Quiet (code : Code) : Prop :=
  ∀ (host : Host) (scope : Scope) (text : String), write host scope code = .ok text → MarkupFree text

namespace Quiet

theorem text {content : String} (free : MarkupFree content) : Quiet (.text content) := by
  intro host scope written found
  rw [Render.write_text, Except.ok.injEq] at found
  exact found ▸ free

/-- Escaping makes any code quiet. -/
theorem escaped {mode : Escaping} (escapes : mode ≠ .raw) (code : Code) :
    Quiet (.escaped mode code) := by
  intro host scope written found
  rw [Render.write_escaped] at found
  rcases exists_of_map_eq_ok found with ⟨plain, _, rfl⟩
  exact Text.markupFree_apply escapes plain

theorem number (amount : Float) : Quiet (.constant (.number amount)) := by
  intro host scope written found
  rw [Render.write_number, Except.ok.injEq] at found
  exact found ▸ Number.markupFree_numberText amount

theorem arithmetic (calculation : Arithmetic) : Quiet (.arithmetic calculation) := by
  intro host scope written found
  rw [Render.write_arithmetic] at found
  rcases exists_of_map_eq_ok found with ⟨amount, _, rfl⟩
  exact Number.markupFree_numberText amount

/-- An inclusion that was not expanded writes nothing at all. -/
theorem inclusion (name : String) : Quiet (.inclusion name) := by
  intro host scope written found
  rw [Render.write_inclusion] at found
  cases found

theorem conditional (test : Test) {body otherwise : Code} (first : Quiet body)
    (second : Quiet otherwise) : Quiet (.conditional test body otherwise) := by
  intro host scope written found
  rw [Render.write_conditional] at found
  rcases exists_of_bind_eq_ok found with ⟨holds, _, found⟩
  cases holds with
  | true => exact first host scope written found
  | false => exact second host scope written found

theorem writeEach_free {write : Value × Value → Except RenderError String} {items : List (Value × Value)}
    (free : ∀ item text, write item = .ok text → MarkupFree text) {written : String}
    (found : writeEach write items = .ok written) : MarkupFree written := by
  induction items generalizing written with
  | nil =>
      rw [writeEach, Except.ok.injEq] at found
      exact found ▸ MarkupFree.empty
  | cons item rest inductionHypothesis =>
      rw [writeEach] at found
      rcases exists_of_bind_eq_ok found with ⟨text, first, found⟩
      rcases exists_of_bind_eq_ok found with ⟨more, others, found⟩
      rw [← Except.ok.inj found]
      exact (free item text first).append (inductionHypothesis others)

/-- A body that is quiet in every scope is quiet for every item. -/
theorem each (source : Code) (key : Option String) (value : String) {body : Code}
    (inside : Quiet body) : Quiet (.each source key value body) := by
  intro host scope written found
  rw [Render.write_each] at found
  rcases exists_of_bind_eq_ok found with ⟨collection, _, found⟩
  exact writeEach_free (fun item text written => inside host _ text written) found

theorem concatenate {codes : List Code} (all : ∀ code ∈ codes, Quiet code) :
    Quiet (Code.concatenate codes) := by
  intro host scope written found
  rw [Render.write_concatenate] at found
  induction codes generalizing written with
  | nil =>
      rw [Render.writeAll_nil, Except.ok.injEq] at found
      exact found ▸ MarkupFree.empty
  | cons code rest inductionHypothesis =>
      rw [List.forall_mem_cons] at all
      rw [Render.writeAll_cons] at found
      rcases exists_of_bind_eq_ok found with ⟨text, first, found⟩
      rcases exists_of_bind_eq_ok found with ⟨more, others, found⟩
      rw [← Except.ok.inj found]
      exact (all.1 host scope text first).append (inductionHypothesis all.2 more others)

end Quiet

/-- Code that is not raw is quiet, and no call brings in raw text or markup. -/
def quietLaw : CodeLaw where
  allows := IsHarmless
  holds escaping code := escaping ≠ .raw → Quiet code
  admits mode := mode ≠ .raw
  markup := False

theorem quietLaw_kept : quietLaw.Kept where
  text _ _ plain _ := Quiet.text plain
  concatenate _ _ all escapes := Quiet.concatenate fun code member => all code member escapes
  conditional _ test _ _ first second escapes := Quiet.conditional test (first escapes) (second escapes)
  each _ source key value _ inside escapes := Quiet.each source key value (inside escapes)
  reference _ raw := absurd rfl raw
  format _ _ _ raw := absurd rfl raw
  link _ _ _ raw := absurd rfl raw
  escaped _ code _ escapes := Quiet.escaped escapes code
  forced _ _ code admitted _ _ := Quiet.escaped admitted code
  admitted _ escapes := escapes
  number _ amount _ := Quiet.number amount
  arithmetic _ calculation _ := Quiet.arithmetic calculation
  checked := by simp [CodeLaw.Plain, quietLaw, IsHarmless]
  selected := by simp [CodeLaw.Plain, quietLaw, IsHarmless]
  pageNavigation := nofun
  helper := nofun
  inclusion _ name _ := Quiet.inclusion name

/-! ## Guarded templates -/

/--
The calls that write text as it is: what is forced to be raw, what a helper returns, and the links from
page to page.
-/
def WritesMarkup (function : String) (arguments : List (ArgumentOf Segment)) : Prop :=
  function = "raw" ∨ function = "helper" ∨ function = "pagenav" ∨
    function = "escape" ∧
      (arguments[1]?.bind ArgumentOf.literalText?).bind Escaping.ofName? = some .raw

/-- A segment with no angle bracket in its text, and without a call that writes markup. -/
def Guarded : Segment → Prop
  | .literal text _ => MarkupFree text
  | .call function arguments _ _ => ¬ WritesMarkup function arguments
  | _ => True

theorem Guarded.obeys {segment : Segment} (guarded : Guarded segment) : SegmentObeys quietLaw segment := by
  cases segment with
  | literal text span => exact guarded
  | call function arguments named span =>
      refine ⟨fun isRaw => absurd (Or.inl isRaw) guarded, ?_, ?_⟩
      · rintro (isNavigation | isHelper)
        · exact guarded (Or.inr (Or.inr (Or.inl isNavigation)))
        · exact guarded (Or.inr (Or.inl isHelper))
      · rintro isEscape mode named rfl
        exact guarded (Or.inr (Or.inr (Or.inr ⟨isEscape, named⟩)))
  | _ => trivial

/-- All text and all calls of a template that can be written are guarded. -/
def GuardedTemplate (template : Template) : Prop :=
  Throughout Guarded (nestedAll .written template.segments)

/-! ## What was not asked for -/

namespace Environment

/-- An environment that answers only for the names that were noted. -/
def restricted (environment : Environment) (uses : Uses) : Environment where
  template name style := if name ∈ uses.includes then environment.template name style else .ok none
  phrase name language := if name ∈ uses.phrases then environment.phrase name language else none
  names := environment.names
  mem_names := by
    intro name style present
    split at present
    · exact environment.mem_names name style present
    · exact absurd rfl present

/-- If what was asked for is guarded, then so is everything in the restricted environment. -/
theorem restricted_obeys (environment : Environment) {context : Context} {uses : Uses}
    (included : ∀ other ∈ uses.includes, ∀ found,
      environment.template other context.style = .ok (some found) → GuardedTemplate found)
    (phrases : ∀ phrase ∈ uses.phrases, ∀ text,
      environment.phrase phrase context.language = some text → MarkupFree text) :
    EnvironmentObeys quietLaw (environment.restricted uses) context := by
  constructor
  · intro other found answer segment member
    change (if other ∈ uses.includes then _ else _) = _ at answer
    split at answer
    · next asked => exact (included other asked found answer segment member).obeys
    · cases answer
  · intro phrase text answer
    change (if phrase ∈ uses.phrases then _ else _) = _ at answer
    split at answer
    · next asked => exact phrases phrase asked text answer
    · cases answer

end Environment

/-- A compilation does without whatever it did not ask for. -/
theorem compileTemplate_restricted (environment : Environment) (context : Context) (name : String)
    (template : Template) :
    compileTemplate (environment.restricted
        (usesOf (compileTemplate environment Registry.builtIn context name template)))
        Registry.builtIn context name template =
      compileTemplate environment Registry.builtIn context name template := by
  refine outcome_eq_of_after_eq
    ((template_follows environment _ context name template).same Uses.none ?_)
  rw [← usesOf_outcome]
  exact ⟨fun _ member => (if_pos member).symm, fun _ member => (if_pos member).symm⟩

/-- The code of a compilation that succeeds is what its segments yield. -/
theorem holds_of_outcome {compilation : CompileM Code} {holds : Code → Prop}
    (yields : Yields holds compilation) {compiled : Compiled}
    (succeeded : compilation.outcome = .ok compiled) : holds compiled.code := by
  have ended := CompileM.after_none compilation
  rw [succeeded] at ended
  exact yields Uses.none compiled.code compiled.uses ended

/--
No markup gets into a page through its data.  The template, the templates it includes and the phrases it
inlines hold no angle bracket and call nothing that writes markup of its own; then neither does the output,
whatever the data are and whatever the host returns.
-/
theorem markupFree_render (environment : Environment) (context : Context) (name : String)
    (template : Template) {compiled : Compiled}
    (succeeded : compileTemplate environment Registry.builtIn context name template = .ok compiled)
    (own : GuardedTemplate template)
    (included : ∀ other ∈ compiled.uses.includes, ∀ found,
      environment.template other context.style = .ok (some found) → GuardedTemplate found)
    (phrases : ∀ phrase ∈ compiled.uses.phrases, ∀ text,
      environment.phrase phrase context.language = some text → MarkupFree text)
    (host : Host) (data : Value) (output : String)
    (rendered : render host data compiled.code = .ok output) :
    '<' ∉ output.toList ∧ '>' ∉ output.toList := by
  have noted : compiled.uses = usesOf (compileTemplate environment Registry.builtIn context name template) := by
    rw [succeeded]
    rfl
  have obey := environment.restricted_obeys included phrases
  have yields := compileSegments_yields quietLaw_kept obey.phrases
    (includeTemplate_keeps quietLaw_kept obey [name])
    (fun segment member => (own segment member).obeys) .html
  have again := compileTemplate_restricted environment context name template
  rw [← noted, succeeded] at again
  have quiet : Quiet compiled.code := holds_of_outcome yields again nofun
  rw [Render.render_eq_write] at rendered
  have free := quiet host _ output rendered
  exact ⟨fun isOpen => (free _ isOpen).1 rfl, fun isClose => (free _ isClose).2 rfl⟩

/-! ## A page with tags in its data -/

/-- A greeting among the phrases, and a header that shows a number as the host formats it. -/
def greetingSite : Environment where
  template name _ :=
    .ok (if name = "header" then
      some ⟨[.call "number" [⟨[.reference ["visits"] default], default, false⟩] [] default,
        .literal ": " default]⟩
    else none)
  phrase name _ := if name = "greeting" then some "Dear \x7b1\x7d" else none
  names := ["header"]
  mem_names := by
    intro name _ present
    by_cases isHeader : name = "header"
    · simp [isHeader]
    · simp [isHeader] at present

/-- The header, and the greeting with a name from the data. -/
def greetingPage : Template :=
  ⟨[.inclusion "header" default,
    .call "phrase" [⟨[.literal "greeting" default], default, false⟩,
      ⟨[.reference ["name"] default], default, false⟩] [] default]⟩

def greetingCode : Code :=
  .concat [.escape .html (.format .number (.reference ["visits"]) none), .text ": Dear ",
    .escape .html (.reference ["name"])]

/-- A host that puts tags around whatever it is asked for. -/
def taggingHost : Host where
  formatNumber _ _ := "<b>7</b>"
  formatDate _ _ _ := .ok "<b>today</b>"
  link _ _ _ := "<a>"
  pageNavigation _ := "<nav>"
  helper _ _ := "<b>"

/-- The call of the page, with its arguments still to be compiled. -/
def greetingCall : Call :=
  ⟨"phrase",
    pendingArguments Registry.builtIn (fun phrase => greetingSite.phrase phrase 0)
      (includeTemplate greetingSite Registry.builtIn ⟨0, 0, true⟩ ["page"])
      [⟨[.literal "greeting" default], default, false⟩,
        ⟨[.reference ["name"] default], default, false⟩],
    [], default⟩

theorem includeTemplate_header :
    includeTemplate greetingSite Registry.builtIn ⟨0, 0, true⟩ ["page"] "header" default .html = (do
      noteInclude "header"
      pure (.concat [.escape .html (.format .number (.reference ["visits"]) none), .text ": "])) := by
  rw [includeTemplate_eq]
  rfl

theorem compileCall_greeting :
    compileCall Registry.builtIn (fun phrase => greetingSite.phrase phrase 0) greetingCall .html = (do
      notePhrase "greeting"
      pure (.concat [.text "Dear ", .escape .html (.reference ["name"])])) := by
  have unfolded :
      compileCall Registry.builtIn (fun phrase => greetingSite.phrase phrase 0) greetingCall .html = (do
        notePhrase "greeting"
        let codes ← BuiltIn.compilePieces greetingCall .html (pieces "Dear \x7b1\x7d".toList)
        pure (Code.concatenate codes)) := rfl
  have pieces_greeting : pieces "Dear \x7b1\x7d".toList = [.text "Dear ".toList, .placeholder ['1']] := by
    cbv
  rw [unfolded, pieces_greeting]
  rfl

theorem compileTemplate_greetingPage :
    compileTemplate greetingSite Registry.builtIn ⟨0, 0, true⟩ "page" greetingPage =
      .ok ⟨greetingCode, ⟨(∅ : Std.ExtTreeSet String).insert "header",
        (∅ : Std.ExtTreeSet String).insert "greeting"⟩⟩ := by
  have unfolded : compileTemplate greetingSite Registry.builtIn ⟨0, 0, true⟩ "page" greetingPage =
      CompileM.outcome (do
        let codes ← (do
          let header ←
            includeTemplate greetingSite Registry.builtIn ⟨0, 0, true⟩ ["page"] "header" default .html
          let rest ← (do
            let phrase ←
              compileCall Registry.builtIn (fun phrase => greetingSite.phrase phrase 0) greetingCall .html
            pure [phrase])
          pure (header :: rest))
        pure (Code.concatenate codes)) := rfl
  rw [unfolded, includeTemplate_header, compileCall_greeting]
  rfl

theorem guarded_greetingPage : GuardedTemplate greetingPage := by
  simp [GuardedTemplate, Throughout, greetingPage, nestedAll, Markup.nested, Markup.nestedArguments,
    Markup.nestedArgument, Markup.nestedNamed, Extent.entersCalls, Guarded, WritesMarkup, MarkupFree,
    IsHarmless]

theorem guarded_header :
    GuardedTemplate ⟨[.call "number" [⟨[.reference ["visits"] default], default, false⟩] [] default,
      .literal ": " default]⟩ := by
  simp [GuardedTemplate, Throughout, nestedAll, Markup.nested, Markup.nestedArguments,
    Markup.nestedArgument, Markup.nestedNamed, Extent.entersCalls, Guarded, WritesMarkup, MarkupFree,
    IsHarmless]

/-- The tags of the host and of the data are shown as text. -/
theorem markupFree_greetingPage :
    render taggingHost (.map [("visits", .number 7), ("name", .string "<script>")]) greetingCode =
      .ok "&lt;b&gt;7&lt;/b&gt;: Dear &lt;script&gt;" ∧
    '<' ∉ "&lt;b&gt;7&lt;/b&gt;: Dear &lt;script&gt;".toList ∧
    '>' ∉ "&lt;b&gt;7&lt;/b&gt;: Dear &lt;script&gt;".toList := by
  have rendered : render taggingHost (.map [("visits", .number 7), ("name", .string "<script>")])
      greetingCode = .ok "&lt;b&gt;7&lt;/b&gt;: Dear &lt;script&gt;" := by
    rfl
  refine ⟨rendered, markupFree_render greetingSite ⟨0, 0, true⟩ "page" greetingPage
    compileTemplate_greetingPage guarded_greetingPage ?_ ?_ taggingHost _ _ rendered⟩
  · intro other member found answer
    simp only [Std.ExtTreeSet.mem_insert, Std.compare_eq_iff_eq, Std.ExtTreeSet.not_mem_empty,
      or_false] at member
    subst member
    rw [← Option.some.inj (Except.ok.inj answer)]
    exact guarded_header
  · intro phrase member text answer
    simp only [Std.ExtTreeSet.mem_insert, Std.compare_eq_iff_eq, Std.ExtTreeSet.not_mem_empty,
      or_false] at member
    subst member
    rw [← Option.some.inj answer]
    simp [MarkupFree, IsHarmless]

end Compile
end TemplateCascade
