import Mathlib
import TemplateCascade.Proofs.Compile.Phrases
import TemplateCascade.Proofs.Markup.Naming

namespace TemplateCascade
namespace Compile

/-!
# Phrases inside templates and by themselves

A call whose placeholders are all filled with variables takes from its data what the phrase by itself takes from a
map with the placeholders as keys.  So it makes no difference whether the placeholders are filled before the code
is rendered or when it is.
-/

open Markup (Argument ArgumentOf Segment Template)
open Render (Host Scope render)
open Text (Escaping Span)

/-! ## Single variables -/

/-- The path of an argument that is a single variable. -/
def variablePath? (argument : Argument) : Option (List String) :=
  match argument.parts with
  | [.reference path _] => some path
  | _ => none

theorem variablePath?_eq_some_iff {argument : Argument} {path : List String} :
    variablePath? argument = some path ↔ ∃ span, argument.parts = [.reference path span] := by
  unfold variablePath?
  split
  · next found span isParts =>
      rw [isParts]
      simp
  · next isOther =>
      refine ⟨nofun, ?_⟩
      rintro ⟨span, isParts⟩
      exact absurd isParts (isOther path span)

/-- A single variable is compiled to its value, escaped for its place. -/
theorem compile_variable {phrases : Phrases} {inclusion : Inclusion} {argument : Argument} {path : List String}
    (isVariable : variablePath? argument = some path) :
    (pendingArgument Registry.builtIn phrases inclusion argument).compile .html =
      pure (.escape .html (.reference path)) := by
  rcases variablePath?_eq_some_iff.mp isVariable with ⟨span, isParts⟩
  rcases argument with ⟨parts, whole, quoted⟩
  dsimp only at isParts
  subst isParts
  rw [pendingArgument, pendingAll, pendingAll, pending]
  rfl

/-! ## Data for a phrase -/

/-- A map holds for every placeholder what its variable is in the data, and nothing where that is missing. -/
def Supplies (text : String) (pathOf : List Char → List String) (data : Value)
    (entries : List (String × Value)) : Prop :=
  ∀ name, .placeholder name ∈ pieces text.toList →
    entryNamed? entries (String.ofList name) = Scope.lookup? ⟨data, []⟩ (pathOf name)

theorem entryNamed?_filterMap (valueOf : List Char → Option Value) (names : List (List Char))
    (name : List Char) :
    entryNamed? (names.filterMap fun name => (valueOf name).map fun value => (String.ofList name, value))
      (String.ofList name) = if name ∈ names then valueOf name else none := by
  induction names with
  | nil => rfl
  | cons first rest inductionHypothesis =>
      by_cases same : name = first
      · subst same
        rw [if_pos List.mem_cons_self]
        cases found : valueOf name with
        | none =>
            rw [List.filterMap_cons_none (by rw [found]; rfl), inductionHypothesis, found, ite_self]
        | some value =>
            rw [List.filterMap_cons_some (by rw [found]; rfl), entryNamed?, List.lookup_cons_self]
      · have member : name ∈ first :: rest ↔ name ∈ rest := by
          rw [List.mem_cons, or_iff_right same]
        rw [if_congr member rfl rfl, ← inductionHypothesis]
        cases found : valueOf first with
        | none => rw [List.filterMap_cons_none (by rw [found]; rfl)]
        | some value =>
            have different : (String.ofList name == String.ofList first) = false :=
              beq_eq_false_iff_ne.mpr fun same' => same (String.ofList_inj.mp same')
            rw [List.filterMap_cons_some (by rw [found]; rfl), entryNamed?, List.lookup_cons, different]
            rfl

/-- There is a map for any data. -/
theorem exists_supplies (text : String) (pathOf : List Char → List String) (data : Value) :
    ∃ entries, (entries.map Prod.fst).Nodup ∧ Supplies text pathOf data entries := by
  refine ⟨(placeholders (some text)).dedup.filterMap fun name =>
    (Scope.lookup? ⟨data, []⟩ (pathOf name)).map fun value => (String.ofList name, value), ?_, ?_⟩
  · rw [List.map_filterMap]
    refine (List.nodup_dedup _).filterMap ?_
    intro first second key isFirst isSecond
    rw [Option.map_map, Option.mem_def, Option.map_eq_some_iff] at isFirst isSecond
    rcases isFirst with ⟨_, _, rfl⟩
    rcases isSecond with ⟨_, _, same⟩
    exact (String.ofList_inj.mp same).symm
  · intro name member
    rw [entryNamed?_filterMap fun name => Scope.lookup? ⟨data, []⟩ (pathOf name),
      if_pos (List.mem_dedup.mpr (BuiltIn.mem_placeholders.mpr member))]

theorem render_of_supplies {text : String} {pathOf : List Char → List String} {data : Value}
    {entries : List (String × Value)} (supplies : Supplies text pathOf data entries) (host : Host) :
    render host (.map entries) (phraseCode text) =
      .ok (String.join ((pieces text.toList).map
        (Piece.output fun name => Scope.lookup? ⟨data, []⟩ (pathOf name)))) := by
  rw [render_phraseCode]
  congr 2
  refine List.map_congr_left fun piece member => ?_
  cases piece with
  | text content => rfl
  | placeholder name =>
      have isSame : Scope.lookup? ⟨.map entries, []⟩ [String.ofList name] =
          entryNamed? entries (String.ofList name) :=
        Option.bind_fun_some (entryNamed? entries (String.ofList name))
      rw [Piece.output, Piece.output, isSame, supplies name member]

/-! ## Calls -/

section Calls

variable {phrases : Phrases} {inclusion : Inclusion} {arguments : List Argument}
  {named : List (String × Argument)} {span : Span} {text : String} {pathOf : List Char → List String}

/-- Every placeholder of a text is filled with a single variable. -/
def FilledWithVariables (arguments : List Argument) (named : List (String × Argument)) (text : String)
    (pathOf : List Char → List String) : Prop :=
  ∀ name, .placeholder name ∈ pieces text.toList →
    ∃ argument, Fills arguments named name argument ∧ variablePath? argument = some (pathOf name)

/-- A call that fills every placeholder with a variable is compiled to these variables. -/
theorem compile_filled (resolves : Resolves phrases arguments text)
    (identifiers : ∀ entry ∈ named, Text.isIdentifier entry.1.toList = true)
    (filled : FilledWithVariables arguments named text pathOf) (uses : Uses) :
    ∃ noted, ((pending Registry.builtIn phrases inclusion (.call "phrase" arguments named span)).compile
        .html).after uses =
      (.ok (Code.concatenate ((pieces text.toList).map
        (Piece.filled fun name => .escape .html (.reference (pathOf name))))), noted) := by
  refine compile_phraseCall resolves (fun name member => ?_) uses
  rcases filled name member with ⟨argument, fills, isVariable⟩
  have pendingIdentifiers : ∀ entry ∈ (phraseCall phrases inclusion arguments named span).named,
      Text.isIdentifier entry.1.toList = true := by
    rw [phraseCall, pendingNamed_eq_map, List.forall_mem_map]
    exact identifiers
  have found := fillerOf?_of_fills (fills_phraseCall_iff.mpr ⟨argument, fills, rfl⟩) pendingIdentifiers
  rw [BuiltIn.compileFiller, found]
  exact compile_variable isVariable

theorem render_filled (host : Host) (data : Value) (text : String) (pathOf : List Char → List String) :
    render host data (Code.concatenate ((pieces text.toList).map
        (Piece.filled fun name => .escape .html (.reference (pathOf name))))) =
      .ok (String.join ((pieces text.toList).map
        (Piece.output fun name => Scope.lookup? ⟨data, []⟩ (pathOf name)))) := by
  rw [Render.render_eq_write, Render.write_concatenate]
  refine writeAll_map fun piece _ => ?_
  cases piece with
  | text content => rfl
  | placeholder name =>
      rw [Piece.filled, Render.write_escape, Render.write_reference]
      rfl

end Calls

/-- A call in a template whose placeholders are all filled with variables is compiled, and its code writes for any
data what the phrase by itself writes for a map with the values of the variables under the placeholders. -/
theorem inlined_phrase_agrees {source : String} {template : Template}
    (parsed : Markup.parse source = .ok template) {setting : Markup.Setting} {arguments : List Argument}
    {named : List (String × Argument)} {span : Span}
    (isNode : template.HasNode (.segment setting (.call "phrase" arguments named span))) {phrases : Phrases}
    {text : String} (resolves : Resolves phrases arguments text) {pathOf : List Char → List String}
    (filled : FilledWithVariables arguments named text pathOf) (inclusion : Inclusion) (uses : Uses) :
    ∃ code noted,
      ((pending Registry.builtIn phrases inclusion (.call "phrase" arguments named span)).compile
        .html).after uses = (.ok code, noted) ∧
      ∀ host data,
        (∃ entries, (entries.map Prod.fst).Nodup ∧ Supplies text pathOf data entries) ∧
        ∃ output, render host data code = .ok output ∧
          ∀ entries, Supplies text pathOf data entries →
            render host (.map entries) (phraseCode text) = .ok output := by
  rcases compile_filled resolves (isNode.isIdentifier_of_named parsed) filled uses with ⟨noted, compiled⟩
  exact ⟨_, noted, compiled, fun host data => ⟨exists_supplies text pathOf data, _,
    render_filled host data text pathOf, fun entries supplies => render_of_supplies supplies host⟩⟩

/-! ### A greeting with a name and a count -/

def welcomeSource : String :=
  "<p>\x7bphrase(\"welcome\", \x7b$user.name\x7d, visits=\"\x7b$count\x7d\")\x7d</p>"

def welcomeTemplate : Template :=
  (Markup.parse welcomeSource).toOption.get (by decide +kernel)

def welcomePhrase : String :=
  "Hi \x7b01\x7d, visit \x7bvisits\x7d"

theorem eq_of_placeholder_welcomePhrase {name : List Char}
    (member : .placeholder name ∈ pieces welcomePhrase.toList) :
    name = ['0', '1'] ∨ name = ['v', 'i', 's', 'i', 't', 's'] := by
  have isSplit : pieces welcomePhrase.toList = [.text "Hi ".toList, .placeholder ['0', '1'],
      .text ", visit ".toList, .placeholder ['v', 'i', 's', 'i', 't', 's']] := by
    cbv
  simpa [isSplit] using member

/-- The arguments of a call that stands behind a text. -/
def callBehindText? (template : Template) :
    Option (String × List Argument × List (String × Argument) × Span) :=
  match template.segments with
  | .literal _ _ :: .call name arguments named span :: _ => some (name, arguments, named, span)
  | _ => none

theorem hasNode_of_callBehindText? {template : Template} {name : String} {arguments : List Argument}
    {named : List (String × Argument)} {span : Span}
    (found : callBehindText? template = some (name, arguments, named, span)) :
    template.HasNode (.segment .body (.call name arguments named span)) := by
  unfold callBehindText? at found
  split at found
  · next isFirst =>
      cases found
      refine .top ?_
      rw [isFirst]
      exact List.mem_cons_of_mem _ List.mem_cons_self
  · cases found

theorem welcome_agrees : ∃ arguments named span,
    welcomeTemplate.HasNode (.segment .body (.call "phrase" arguments named span)) ∧
    ∀ inclusion uses, ∃ code noted,
      ((pending Registry.builtIn (fun _ => some welcomePhrase) inclusion
        (.call "phrase" arguments named span)).compile .html).after uses = (.ok code, noted) ∧
      ∀ host, ∃ output,
        render host (.map [("user", .map [("name", .string "<Ada>")])]) code = .ok output ∧
        render host (.map [("01", .string "<Ada>")]) (phraseCode welcomePhrase) = .ok output := by
  have parsed : Markup.parse welcomeSource = .ok welcomeTemplate := eq_ok_get (by decide +kernel)
  have isSummary : (callBehindText? welcomeTemplate).any (fun call => call.1 = "phrase" ∧
      call.2.1.map (fun argument => (argument.literalText?, variablePath? argument)) =
        [(some "welcome", none), (none, some ["user", "name"])] ∧
      call.2.2.1.map (fun entry => (entry.1, variablePath? entry.2)) = [("visits", some ["count"])]) = true := by
    decide +kernel
  rw [Option.any_eq_true] at isSummary
  rcases isSummary with ⟨⟨name, arguments, named, span⟩, found, isCall⟩
  rcases of_decide_eq_true isCall with ⟨isName, isArguments, isNamed⟩
  dsimp only at isName isArguments isNamed
  subst isName
  rcases List.map_eq_cons_iff.mp isArguments with ⟨nameArgument, others, rfl, isPhrase, isOthers⟩
  rcases List.map_eq_cons_iff.mp isOthers with ⟨user, more, rfl, isUser, _⟩
  rcases List.map_eq_cons_iff.mp isNamed with ⟨⟨key, visits⟩, rest, rfl, isVisits, _⟩
  rw [Prod.mk.injEq] at isPhrase isUser isVisits
  obtain rfl : key = "visits" := isVisits.1
  have isNode := hasNode_of_callBehindText? found
  have resolves : Resolves (fun _ => some welcomePhrase) (nameArgument :: user :: more) welcomePhrase := by
    refine ⟨"welcome", isPhrase.1, ?_, rfl⟩
    decide +kernel
  have filled : FilledWithVariables (nameArgument :: user :: more) (("visits", visits) :: rest)
      welcomePhrase fun name => if name = ['0', '1'] then ["user", "name"] else ["count"] := by
    intro name member
    rcases eq_of_placeholder_welcomePhrase member with rfl | rfl
    · have one : IsNumeral ['0', '1'] 1 := ⟨by decide, by simp, by decide⟩
      exact ⟨user, .position one le_rfl (by decide) rfl, isUser.2⟩
    · refine ⟨visits, .name (fun number isNumeral => ?_) ?_, isVisits.2⟩
      · exact absurd (isNumeral.digits 'v' List.mem_cons_self) (by decide)
      · rfl
  refine ⟨_, _, _, isNode, fun inclusion uses => ?_⟩
  rcases inlined_phrase_agrees parsed isNode resolves filled inclusion uses with
    ⟨code, noted, compiled, agrees⟩
  refine ⟨code, noted, compiled, fun host => ?_⟩
  rcases agrees host (.map [("user", .map [("name", .string "<Ada>")])]) with ⟨_, output, rendered, same⟩
  refine ⟨output, rendered, same _ fun name member => ?_⟩
  rcases eq_of_placeholder_welcomePhrase member with rfl | rfl <;> rfl

end Compile
end TemplateCascade
