import Mathlib
import TemplateCascade.Proofs.Compile.Injection
import TemplateCascade.Proofs.Expression.Values

namespace TemplateCascade
namespace Compile

/-!
# Generated code is in normal form

The generator never puts a concatenation together but by `Code.concatenate`, nor an escape but by
`Code.escaped`, and a compilation that expands inclusions leaves none.  So a template compiles to code in
normal form if its parts do, and this goes through every function, every segment and every inclusion.

Conditions and calculations are read from tokens with code in them, so that the code of an argument has to be
followed through the grammar of expressions too.
-/

open Code (InNormalForm Proper ThroughoutAll ThroughoutNamed)
open Expression (Token ValuesHave)
open Markup (ArgumentOf BranchOf Segment Template)
open Text (Escaping Span)

/-! ## Parts and arguments -/

/-- Whatever a part compiles to is in normal form. -/
def PartIsNormal (part : Pending) : Prop :=
  ∀ escaping, Yields InNormalForm (part.compile escaping)

/-- Whatever any of some parts compiles to is in normal form. -/
abbrev PartsAreNormal (parts : List Pending) : Prop :=
  ∀ part ∈ parts, PartIsNormal part

/-- Whatever any part of an argument compiles to is in normal form. -/
def ArgumentIsNormal (argument : PendingArgument) : Prop :=
  PartsAreNormal argument.parts

/-- The arguments of a call compile to code in normal form. -/
structure CallIsNormal (call : Call) : Prop where
  arguments : ∀ argument ∈ call.arguments, ArgumentIsNormal argument
  named : ∀ entry ∈ call.named, ArgumentIsNormal entry.2

/-- Calls of a function compile to code in normal form if their arguments do. -/
def FunctionIsNormal (function : Function) : Prop :=
  ∀ (phrases : Phrases) (call : Call), CallIsNormal call →
    ∀ escaping, Yields InNormalForm (function phrases call escaping)

theorem partIsNormal_literal (text : String) (span : Span) : PartIsNormal (.literal text span) :=
  fun _ => Yields.pure (Code.inNormalForm_text text)

theorem compileEach_normal {parts : List Pending} (normal : PartsAreNormal parts) (escaping : Escaping) :
    Yields (fun codes => ∀ code ∈ codes, code.InNormalForm) (compileEach escaping parts) := by
  induction parts with
  | nil => exact Yields.pure nofun
  | cons part rest inductionHypothesis =>
      rw [PartsAreNormal, List.forall_mem_cons] at normal
      refine (normal.1 escaping).bind fun code first => ?_
      refine (inductionHypothesis normal.2).bind fun codes others => Yields.pure ?_
      exact List.forall_mem_cons.mpr ⟨first, others⟩

theorem compileParts_normal {parts : List Pending} (normal : PartsAreNormal parts) (escaping : Escaping) :
    Yields InNormalForm (compileParts escaping parts) :=
  (compileEach_normal normal escaping).bind fun _ all => Yields.pure (Code.inNormalForm_concatenate all)

theorem ArgumentIsNormal.compile {argument : PendingArgument} (normal : ArgumentIsNormal argument)
    (escaping : Escaping) : Yields InNormalForm (argument.compile escaping) :=
  compileParts_normal normal escaping

theorem compileNamed_normal {named : List (String × PendingArgument)}
    (normal : ∀ entry ∈ named, ArgumentIsNormal entry.2) :
    Yields (ThroughoutNamed Proper) (compileNamed named) := by
  induction named with
  | nil => exact Yields.pure trivial
  | cons entry rest inductionHypothesis =>
      have normal := List.forall_mem_cons.mp normal
      refine (normal.1.compile .raw).bind fun code first => ?_
      exact (inductionHypothesis normal.2).bind fun more others => Yields.pure ⟨first, others⟩

theorem compileArguments_normal {arguments : List PendingArgument}
    (normal : ∀ argument ∈ arguments, ArgumentIsNormal argument) :
    Yields (ThroughoutAll Proper) (compileArguments arguments) := by
  induction arguments with
  | nil => exact Yields.pure trivial
  | cons argument rest inductionHypothesis =>
      have normal := List.forall_mem_cons.mp normal
      refine (normal.1.compile .raw).bind fun code first => ?_
      exact (inductionHypothesis normal.2).bind fun more others => Yields.pure ⟨first, others⟩

/-! ## Expressions -/

theorem failMalformed_yields {Result : Type} {holds : Result → Prop}
    {outcome : Except Expression.Malformed Result} (all : ∀ result, outcome = .ok result → holds result) :
    Yields holds (failMalformed outcome) := by
  cases outcome with
  | ok result => exact Yields.pure (all result rfl)
  | error malformed => exact Yields.failAt _ _

/-- Literals are scanned to tokens without code, and other parts compile to code in normal form. -/
theorem expressionTokens_normal {parts : List Pending} (normal : PartsAreNormal parts) :
    Yields (ValuesHave Proper) (expressionTokens parts) := by
  induction parts with
  | nil => exact Yields.pure nofun
  | cons part rest inductionHypothesis =>
      rw [PartsAreNormal, List.forall_mem_cons] at normal
      have others := inductionHypothesis normal.2
      cases part with
      | literal text span =>
          have scanned : Yields (ValuesHave Proper) (failMalformed
              (Expression.tokensFrom ⟨span.offset, span.line, span.column⟩ text.toList)) :=
            failMalformed_yields fun _ => Expression.valuesHave_of_tokensFrom
          refine scanned.bind fun tokens first => others.bind fun more behind => Yields.pure ?_
          exact List.forall_mem_append.mpr ⟨first, behind⟩
      | deferred span compile =>
          refine (normal.1 .raw).bind fun code first => others.bind fun more behind => Yields.pure ?_
          refine List.forall_mem_cons.mpr ⟨?_, behind⟩
          rintro _ ⟨⟩
          exact first

namespace ArgumentIsNormal

variable {argument : PendingArgument}

theorem calculation (normal : ArgumentIsNormal argument) :
    Yields (Arithmetic.Throughout Proper) argument.calculation := by
  refine (expressionTokens_normal normal).bind fun tokens values => ?_
  exact failMalformed_yields fun calculation read => Expression.throughout_of_parseCalculation values read

theorem condition (normal : ArgumentIsNormal argument) :
    Yields (Test.Throughout Proper) argument.condition := by
  have constants : Expression.ConstantsHave Proper := Code.inNormalForm_constant
  refine (expressionTokens_normal normal).bind fun tokens values => ?_
  exact failMalformed_yields fun test read => Expression.throughout_of_parseCondition constants values read

end ArgumentIsNormal

/-- The conditions and bodies of some branches compile to code in normal form. -/
def BranchesAreNormal (branches : List (BranchOf Pending)) : Prop :=
  ∀ branch ∈ branches, ArgumentIsNormal branch.condition ∧ PartsAreNormal branch.body

theorem compileChoice_normal {branches : List (BranchOf Pending)} {otherwise : Option (List Pending)}
    (normal : BranchesAreNormal branches) (last : ∀ body, otherwise = some body → PartsAreNormal body)
    (escaping : Escaping) : Yields InNormalForm (compileChoice escaping otherwise branches) := by
  induction branches with
  | nil =>
      cases otherwise with
      | none => exact Yields.pure (Code.inNormalForm_text "")
      | some body => exact compileParts_normal (last body rfl) escaping
  | cons branch rest inductionHypothesis =>
      rw [BranchesAreNormal, List.forall_mem_cons] at normal
      refine normal.1.1.condition.bind fun test isTest => ?_
      refine (compileParts_normal normal.1.2 escaping).bind fun body isBody => ?_
      refine (inductionHypothesis normal.2).bind fun remaining others => Yields.pure ?_
      exact ⟨⟨nofun, nofun⟩, isTest, isBody, others⟩

/-! ## Functions -/

namespace BuiltIn

theorem choose_normal : FunctionIsNormal choose := by
  intro phrases call normal escaping
  rcases call with ⟨name, _ | ⟨condition, _ | ⟨body, _ | ⟨otherwise, _ | _⟩⟩⟩, named, span⟩
  · exact Yields.failAt _ _
  · exact Yields.failAt _ _
  · refine (normal.arguments condition (by simp)).condition.bind fun test isTest => ?_
    refine ((normal.arguments body (by simp)).compile escaping).bind fun code isCode => Yields.pure ?_
    exact ⟨⟨nofun, nofun⟩, isTest, isCode, Code.inNormalForm_text ""⟩
  · refine (normal.arguments condition (by simp)).condition.bind fun test isTest => ?_
    refine ((normal.arguments body (by simp)).compile escaping).bind fun code isCode => ?_
    refine ((normal.arguments otherwise (by simp)).compile escaping).bind fun last isLast => Yields.pure ?_
    exact ⟨⟨nofun, nofun⟩, isTest, isCode, isLast⟩
  · exact Yields.failAt _ _

theorem flag_normal (markup : String) : FunctionIsNormal (flag markup) := by
  intro phrases call normal escaping
  rcases call with ⟨name, _ | ⟨condition, _ | _⟩, named, span⟩
  · exact Yields.failAt _ _
  · refine (normal.arguments condition (by simp)).condition.bind fun test isTest => Yields.pure ?_
    exact ⟨⟨nofun, nofun⟩, isTest, Code.inNormalForm_text markup, Code.inNormalForm_text ""⟩
  · exact Yields.failAt _ _

theorem calculate_normal : FunctionIsNormal calculate := by
  intro phrases call normal escaping
  rcases call with ⟨name, _ | ⟨argument, _ | _⟩, named, span⟩
  · exact Yields.failAt _ _
  · refine (normal.arguments argument (by simp)).calculation.bind fun calculation isCalculation => ?_
    cases calculation.fold? with
    | some amount => exact Yields.pure (Code.inNormalForm_constant _)
    | none => exact Yields.pure ⟨⟨nofun, nofun⟩, isCalculation⟩
  · exact Yields.failAt _ _

theorem forced_normal (mode : Escaping) : FunctionIsNormal (forced mode) := by
  intro phrases call normal escaping
  rcases call with ⟨name, _ | ⟨value, _ | _⟩, named, span⟩
  · exact Yields.failAt _ _
  · exact ((normal.arguments value (by simp)).compile .raw).bind fun code isCode =>
      Yields.pure (Code.inNormalForm_escaped isCode mode)
  · exact Yields.failAt _ _

theorem escape_normal : FunctionIsNormal escape := by
  intro phrases call normal escaping
  rcases call with ⟨name, _ | ⟨value, _ | ⟨modeName, _ | _⟩⟩, named, span⟩
  · exact Yields.failAt _ _
  · exact ((normal.arguments value (by simp)).compile .raw).bind fun code isCode =>
      Yields.pure (Code.inNormalForm_escaped isCode .html)
  · refine Yields.bind_any fun mode => ?_
    exact ((normal.arguments value (by simp)).compile .raw).bind fun code isCode =>
      Yields.pure (Code.inNormalForm_escaped isCode mode)
  · exact Yields.failAt _ _

theorem format_normal (kind : FormatKind) : FunctionIsNormal (format kind) := by
  intro phrases call normal escaping
  rcases call with ⟨name, _ | ⟨value, _ | ⟨option, _ | _⟩⟩, named, span⟩
  · exact Yields.failAt _ _
  · refine ((normal.arguments value (by simp)).compile .raw).bind fun code isCode => Yields.pure ?_
    have formatted : (Code.format kind code none).InNormalForm := ⟨⟨nofun, nofun⟩, isCode, trivial⟩
    exact Code.inNormalForm_escaped formatted escaping
  · refine ((normal.arguments value (by simp)).compile .raw).bind fun code isCode => ?_
    refine ((normal.arguments option (by simp)).compile .raw).bind fun chosen isChosen => Yields.pure ?_
    have formatted : (Code.format kind code (some chosen)).InNormalForm :=
      ⟨⟨nofun, nofun⟩, isCode, isChosen⟩
    exact Code.inNormalForm_escaped formatted escaping
  · exact Yields.failAt _ _

theorem link_normal : FunctionIsNormal link := by
  intro phrases call normal escaping
  rcases call with ⟨name, _ | ⟨kind, _ | ⟨data, _ | _⟩⟩, named, span⟩
  · exact Yields.failAt _ _
  · refine ((normal.arguments kind (by simp)).compile .raw).bind fun kindCode isKind => ?_
    refine (compileNamed_normal normal.named).bind fun parameters areParameters => Yields.pure ?_
    have linked : (Code.link kindCode none parameters).InNormalForm :=
      ⟨⟨nofun, nofun⟩, isKind, trivial, areParameters⟩
    exact Code.inNormalForm_escaped linked escaping
  · refine ((normal.arguments kind (by simp)).compile .raw).bind fun kindCode isKind => ?_
    refine ((normal.arguments data (by simp)).compile .raw).bind fun dataCode isData => ?_
    refine (compileNamed_normal normal.named).bind fun parameters areParameters => Yields.pure ?_
    have linked : (Code.link kindCode (some dataCode) parameters).InNormalForm :=
      ⟨⟨nofun, nofun⟩, isKind, isData, areParameters⟩
    exact Code.inNormalForm_escaped linked escaping
  · exact Yields.failAt _ _

theorem required_normal {call : Call} (normal : CallIsNormal call) (name : String) :
    Yields InNormalForm (required call name) := by
  unfold required
  cases found : entryNamed? call.named name with
  | none => exact Yields.failAt _ _
  | some argument => exact (normal.named _ (mem_of_entryNamed? found)).compile .raw

theorem pageNavigation_normal : FunctionIsNormal pageNavigation := by
  intro phrases call normal escaping
  have entry := required_normal normal
  rcases call with ⟨name, _ | ⟨link, _ | ⟨data, _ | _⟩⟩, named, span⟩
  · exact Yields.failAt _ _
  · exact Yields.failAt _ _
  · have others : ∀ entry ∈ named.filter fun entry => !isPageArgument entry.1, ArgumentIsNormal entry.2 :=
      fun entry member => normal.named entry (List.mem_of_mem_filter member)
    refine ((normal.arguments link (by simp)).compile .raw).bind fun linkCode isLink => ?_
    refine ((normal.arguments data (by simp)).compile .raw).bind fun dataCode isData => ?_
    refine (entry "page").bind fun page isPage => ?_
    refine (entry "per_page").bind fun perPage isPerPage => ?_
    refine (entry "total").bind fun total isTotal => ?_
    refine (compileNamed_normal others).bind fun parameters areParameters => Yields.pure ?_
    exact ⟨⟨nofun, nofun⟩, isLink, isData, isPage, isPerPage, isTotal, areParameters⟩
  · exact Yields.failAt _ _

theorem helper_normal : FunctionIsNormal helper := by
  intro phrases call normal escaping
  rcases call with ⟨name, _ | ⟨helperName, arguments⟩, named, span⟩
  · exact Yields.failAt _ _
  · have all := List.forall_mem_cons.mp normal.arguments
    refine (all.1.compile .raw).bind fun nameCode isName => ?_
    refine (compileArguments_normal all.2).bind fun codes areCodes => Yields.pure ?_
    exact ⟨⟨nofun, nofun⟩, isName, areCodes⟩

theorem normal_of_fillerOf? {call : Call} (normal : CallIsNormal call) {placeholder : List Char}
    {argument : PendingArgument} (found : fillerOf? call placeholder = some argument) :
    ArgumentIsNormal argument := by
  rcases mem_of_fillerOf? found with positional | ⟨_, named⟩
  · exact normal.arguments argument positional
  · exact normal.named _ named

theorem compilePieces_normal {call : Call} (normal : CallIsNormal call) (escaping : Escaping)
    (pieces : List Piece) :
    Yields (fun codes => ∀ code ∈ codes, code.InNormalForm) (compilePieces call escaping pieces) := by
  induction pieces with
  | nil => exact Yields.pure nofun
  | cons piece rest inductionHypothesis =>
      cases piece with
      | text content =>
          refine inductionHypothesis.bind fun codes others => Yields.pure ?_
          exact List.forall_mem_cons.mpr ⟨Code.inNormalForm_text _, others⟩
      | placeholder name =>
          rw [compilePieces]
          cases found : fillerOf? call name with
          | none =>
              refine (Yields.pure (Code.inNormalForm_text _)).bind fun code first => ?_
              refine inductionHypothesis.bind fun codes others => Yields.pure ?_
              exact List.forall_mem_cons.mpr ⟨first, others⟩
          | some argument =>
              refine ((normal_of_fillerOf? normal found).compile escaping).bind fun code first => ?_
              refine inductionHypothesis.bind fun codes others => Yields.pure ?_
              exact List.forall_mem_cons.mpr ⟨first, others⟩

theorem phrase_normal : FunctionIsNormal phrase := by
  intro phrases call normal escaping
  unfold phrase
  split
  · exact Yields.failAt _ _
  · split
    · exact Yields.failAt _ _
    · dsimp only
      split
      · exact Yields.failAt _ _
      · refine Yields.bind_any fun _ => ?_
        split
        · exact Yields.pure (Code.inNormalForm_text _)
        · exact (compilePieces_normal normal escaping _).bind fun codes all =>
            Yields.pure (Code.inNormalForm_concatenate all)

end BuiltIn

theorem builtIn_normal {name : String} {function : Function}
    (found : Registry.builtIn.function? name = some function) : FunctionIsNormal function := by
  refine function_builtIn_of_forall FunctionIsNormal ?_ found
  intro entry member
  simp only [Registry.builtInFunctions, List.mem_cons, List.not_mem_nil, or_false] at member
  rcases member with rfl | rfl | rfl | rfl | rfl | rfl | rfl | rfl | rfl | rfl | rfl | rfl | rfl |
    rfl | rfl | rfl | rfl
  · exact BuiltIn.choose_normal
  · exact BuiltIn.flag_normal _
  · exact BuiltIn.flag_normal _
  · exact BuiltIn.calculate_normal
  · exact BuiltIn.escape_normal
  · exact BuiltIn.forced_normal _
  · exact BuiltIn.forced_normal _
  · exact BuiltIn.forced_normal _
  · exact BuiltIn.format_normal _
  · exact BuiltIn.format_normal _
  · exact BuiltIn.format_normal _
  · exact BuiltIn.format_normal _
  · exact BuiltIn.format_normal _
  · exact BuiltIn.link_normal
  · exact BuiltIn.pageNavigation_normal
  · exact BuiltIn.helper_normal
  · exact BuiltIn.phrase_normal

/-! ## Segments -/

/-- What an inclusion compiles to is in normal form. -/
def InclusionIsNormal (inclusion : Inclusion) : Prop :=
  ∀ name span escaping, Yields InNormalForm (inclusion name span escaping)

section Segments

variable {phrases : Phrases} {inclusion : Inclusion}

theorem compileCall_normal {call : Call} (normal : CallIsNormal call) (escaping : Escaping) :
    Yields InNormalForm (compileCall Registry.builtIn phrases call escaping) := by
  unfold compileCall
  cases found : Registry.builtIn.function? call.name with
  | none => exact Yields.failAt _ _
  | some function => exact builtIn_normal found phrases call normal escaping

mutual

theorem pending_normal (included : InclusionIsNormal inclusion) : ∀ segment : Segment,
    PartIsNormal (pending Registry.builtIn phrases inclusion segment)
  | .literal text span => partIsNormal_literal text span
  | .reference path _ => fun escaping =>
      Yields.pure (Code.inNormalForm_escaped (Code.inNormalForm_reference path) escaping)
  | .call _ arguments named _ =>
      compileCall_normal ⟨pendingArguments_normal included arguments, pendingNamed_normal included named⟩
  | .choice branches otherwise _ =>
      compileChoice_normal (pendingBranches_normal included branches)
        (pendingOtherwise_normal included otherwise)
  | .loop source _ _ body _ => fun escaping =>
      ((pendingArgument_normal included source).compile .raw).bind fun _ isSource =>
        (compileParts_normal (pendingAll_normal included body) escaping).bind fun _ isBody =>
          Yields.pure ⟨⟨nofun, nofun⟩, isSource, isBody⟩
  | .inclusion name span => included name span

theorem pendingAll_normal (included : InclusionIsNormal inclusion) : ∀ segments : List Segment,
    PartsAreNormal (pendingAll Registry.builtIn phrases inclusion segments)
  | [] => nofun
  | segment :: rest =>
      List.forall_mem_cons.mpr ⟨pending_normal included segment, pendingAll_normal included rest⟩

theorem pendingArgument_normal (included : InclusionIsNormal inclusion) :
    ∀ argument : ArgumentOf Segment,
      ArgumentIsNormal (pendingArgument Registry.builtIn phrases inclusion argument)
  | ⟨parts, _, _⟩ => pendingAll_normal included parts

theorem pendingArguments_normal (included : InclusionIsNormal inclusion) :
    ∀ arguments : List (ArgumentOf Segment),
      ∀ argument ∈ pendingArguments Registry.builtIn phrases inclusion arguments, ArgumentIsNormal argument
  | [] => nofun
  | argument :: rest =>
      List.forall_mem_cons.mpr ⟨pendingArgument_normal included argument,
        pendingArguments_normal included rest⟩

theorem pendingNamed_normal (included : InclusionIsNormal inclusion) :
    ∀ named : List (String × ArgumentOf Segment),
      ∀ entry ∈ pendingNamed Registry.builtIn phrases inclusion named, ArgumentIsNormal entry.2
  | [] => nofun
  | (_, argument) :: rest =>
      List.forall_mem_cons.mpr ⟨pendingArgument_normal included argument, pendingNamed_normal included rest⟩

theorem pendingBranches_normal (included : InclusionIsNormal inclusion) :
    ∀ branches : List (BranchOf Segment),
      BranchesAreNormal (pendingBranches Registry.builtIn phrases inclusion branches)
  | [] => nofun
  | ⟨condition, body, _⟩ :: rest =>
      List.forall_mem_cons.mpr ⟨⟨pendingArgument_normal included condition,
        pendingAll_normal included body⟩, pendingBranches_normal included rest⟩

theorem pendingOtherwise_normal (included : InclusionIsNormal inclusion) :
    ∀ otherwise : Option (List Segment), ∀ body,
      pendingOtherwise Registry.builtIn phrases inclusion otherwise = some body → PartsAreNormal body
  | none => nofun
  | some segments => by
      rintro body ⟨⟩
      exact pendingAll_normal included segments

end

theorem compileSegments_normal (included : InclusionIsNormal inclusion) (escaping : Escaping)
    (segments : List Segment) :
    Yields InNormalForm (compileSegments Registry.builtIn phrases inclusion escaping segments) :=
  compileParts_normal (pendingAll_normal included segments) escaping

end Segments

/-! ## Templates and phrases -/

section Templates

variable {environment : Environment} {context : Context}

/-- No inclusion is left where inclusions are expanded. -/
theorem includeTemplate_normal (expands : context.expandsIncludes = true) (stack : List String) :
    InclusionIsNormal (includeTemplate environment Registry.builtIn context stack) := by
  induction stack using stack_induction environment context.style with
  | step stack inductionHypothesis =>
      intro name span escaping
      refine includeTemplate_yields (fun stays => ?_) fun template found fresh => ?_
      · rw [expands] at stays
        cases stays
      · exact compileSegments_normal (inductionHypothesis name template found fresh) escaping template.segments

/-- A template that is compiled with all it includes has code in normal form. -/
theorem inNormalForm_of_compileTemplate (expands : context.expandsIncludes = true) {name : String}
    {template : Template} {compiled : Compiled}
    (succeeded : compileTemplate environment Registry.builtIn context name template = .ok compiled) :
    compiled.code.InNormalForm :=
  holds_of_outcome (compileSegments_normal (includeTemplate_normal expands [name]) .html template.segments)
    succeeded

end Templates

/-- So has a phrase by itself. -/
theorem inNormalForm_phraseCode (text : String) : (phraseCode text).InNormalForm := by
  apply Code.inNormalForm_concatenate
  intro code member
  rcases List.mem_map.mp member with ⟨piece, _, rfl⟩
  cases piece with
  | text content => exact Code.inNormalForm_text _
  | placeholder name => exact Code.inNormalForm_escaped (Code.inNormalForm_reference _) .html

end Compile
end TemplateCascade
