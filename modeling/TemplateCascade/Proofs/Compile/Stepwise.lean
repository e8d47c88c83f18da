import TemplateCascade.Proofs.Compile.Lawful

namespace TemplateCascade
namespace Compile

/-!
# Properties that sequencing keeps

A property of compilations that the generator's own steps have, and that is kept when one compilation is
run behind another, holds of whatever templates compile to if it holds of their inclusions.  Every built-in
function is gone through once for all such properties, and also for those that what is done with an argument
has only where the argument is fit for it.

Nothing has to be known of a template for that but which inclusions are in it: an inclusion that is nowhere
in the tree is never compiled.
-/

open Markup (ArgumentOf BranchOf Segment Throughout nested nestedAll nestedArgument nestedArguments
  nestedBranches nestedNamed nestedOtherwise)
open Text (Escaping Span)

/-- Sequencing keeps a property. -/
structure Sequenced (holds : (Result : Type) → CompileM Result → Prop) : Prop where
  pure : ∀ {Result : Type} (result : Result), holds Result (Pure.pure result)
  bind : ∀ {Result Other : Type} {compilation : CompileM Result} {next : Result → CompileM Other},
    holds Result compilation → (∀ result, holds Other (next result)) → holds Other (compilation >>= next)

/-- Sequencing keeps a property, and the generator's own steps have it. -/
structure Stepwise (holds : (Result : Type) → CompileM Result → Prop) : Prop extends Sequenced holds where
  /-- Only inclusions fail for being circular. -/
  failAt : ∀ {Result : Type} (cause : Cause) (span : Span),
    (∀ name chain, cause ≠ .circularInclude name chain) → holds Result (Compile.failAt cause span)
  notePhrase : ∀ name, holds Unit (Compile.notePhrase name)

/-- Sequencing keeps a property, and whatever is done with an argument that is fit for it has it. -/
structure Composed (holds : (Result : Type) → CompileM Result → Prop) (fits : PendingArgument → Prop) :
    Prop extends Sequenced holds where
  /-- Only inclusions fail for being circular, and only arguments for being malformed. -/
  failAt : ∀ {Result : Type} (cause : Cause) (span : Span),
    (∀ name chain, cause ≠ .circularInclude name chain) → (∀ fault, cause ≠ .malformedExpression fault) →
      holds Result (Compile.failAt cause span)
  notePhrase : ∀ name, holds Unit (Compile.notePhrase name)
  compileArgument : ∀ {argument : PendingArgument}, fits argument →
    ∀ escaping, holds Code (argument.compile escaping)
  calculation : ∀ {argument : PendingArgument}, fits argument → holds Arithmetic argument.calculation
  condition : ∀ {argument : PendingArgument}, fits argument → holds Test argument.condition

section Parts

variable (holds : (Result : Type) → CompileM Result → Prop) (fits : PendingArgument → Prop)

/-- A part is text, or whatever it compiles to has a property. -/
inductive PartHas : Pending → Prop where
  | literal (text : String) (span : Span) : PartHas (.literal text span)
  | deferred (span : Span) {compile : Escaping → CompileM Code}
      (all : ∀ escaping, holds Code (compile escaping)) : PartHas (.deferred span compile)

/-- All parts of an argument have a property. -/
def ArgumentHas (argument : PendingArgument) : Prop :=
  ∀ part ∈ argument.parts, PartHas holds part

/-- All arguments of a call are fit. -/
structure CallFits (call : Call) : Prop where
  arguments : ∀ argument ∈ call.arguments, fits argument
  named : ∀ entry ∈ call.named, fits entry.2

/-- Whatever a function compiles to has a property if its arguments are fit for it. -/
def FunctionHas (function : Function) : Prop :=
  ∀ (phrases : Phrases) (call : Call), CallFits fits call →
    ∀ escaping, holds Code (function phrases call escaping)

/-- The conditions of some branches are fit, and all parts of their bodies have a property. -/
def BranchesHave (branches : List (BranchOf Pending)) : Prop :=
  ∀ branch ∈ branches, fits branch.condition ∧ ∀ part ∈ branch.body, PartHas holds part

end Parts

variable {holds : (Result : Type) → CompileM Result → Prop} {fits : PendingArgument → Prop}

/-! ## Parts and arguments -/

namespace Sequenced

variable (sequenced : Sequenced holds)

include sequenced

theorem compilePart {part : Pending} (has : PartHas holds part) (escaping : Escaping) :
    holds Code (part.compile escaping) := by
  cases has with
  | literal text span => exact sequenced.pure _
  | deferred span all => exact all escaping

theorem compileEach {parts : List Pending} (all : ∀ part ∈ parts, PartHas holds part)
    (escaping : Escaping) : holds (List Code) (Compile.compileEach escaping parts) := by
  induction parts with
  | nil => exact sequenced.pure []
  | cons part rest inductionHypothesis =>
      have all := List.forall_mem_cons.mp all
      refine sequenced.bind (sequenced.compilePart all.1 escaping) fun code => ?_
      exact sequenced.bind (inductionHypothesis all.2) fun codes => sequenced.pure _

theorem compileParts {parts : List Pending} (all : ∀ part ∈ parts, PartHas holds part)
    (escaping : Escaping) : holds Code (Compile.compileParts escaping parts) :=
  sequenced.bind (sequenced.compileEach all escaping) fun _ => sequenced.pure _

end Sequenced

namespace Composed

variable (composed : Composed holds fits)

include composed

theorem compileNamed {named : List (String × PendingArgument)} (all : ∀ entry ∈ named, fits entry.2) :
    holds (List (String × Code)) (Compile.compileNamed named) := by
  induction named with
  | nil => exact composed.pure []
  | cons entry rest inductionHypothesis =>
      have all := List.forall_mem_cons.mp all
      refine composed.bind (composed.compileArgument all.1 .raw) fun code => ?_
      exact composed.bind (inductionHypothesis all.2) fun more => composed.pure _

theorem compileArguments {arguments : List PendingArgument} (all : ∀ argument ∈ arguments, fits argument) :
    holds (List Code) (Compile.compileArguments arguments) := by
  induction arguments with
  | nil => exact composed.pure []
  | cons argument rest inductionHypothesis =>
      have all := List.forall_mem_cons.mp all
      refine composed.bind (composed.compileArgument all.1 .raw) fun code => ?_
      exact composed.bind (inductionHypothesis all.2) fun more => composed.pure _

theorem compileChoice {branches : List (BranchOf Pending)} {otherwise : Option (List Pending)}
    (all : BranchesHave holds fits branches)
    (last : ∀ body, otherwise = some body → ∀ part ∈ body, PartHas holds part) (escaping : Escaping) :
    holds Code (Compile.compileChoice escaping otherwise branches) := by
  induction branches with
  | nil =>
      cases otherwise with
      | none => exact composed.pure _
      | some body => exact composed.compileParts (last body rfl) escaping
  | cons branch rest inductionHypothesis =>
      have all := List.forall_mem_cons.mp all
      refine composed.bind (composed.condition all.1.1) fun test => ?_
      refine composed.bind (composed.compileParts all.1.2 escaping) fun body => ?_
      exact composed.bind (inductionHypothesis all.2) fun remaining => composed.pure _

/-! ## Functions -/

theorem refuseCount (call : Call) (expected : ArgumentRange) :
    holds Code (call.refuseCount expected) :=
  composed.failAt _ _ nofun nofun

theorem choose : FunctionHas holds fits BuiltIn.choose := by
  intro phrases call has escaping
  have refuse := composed.refuseCount call ⟨2, some 3⟩
  rcases call with ⟨name, _ | ⟨condition, _ | ⟨body, _ | ⟨otherwise, _ | _⟩⟩⟩, named, span⟩
  · exact refuse
  · exact refuse
  · refine composed.bind (composed.condition (has.arguments condition (by simp))) fun test => ?_
    exact composed.bind (composed.compileArgument (has.arguments body (by simp)) escaping) fun code => composed.pure _
  · refine composed.bind (composed.condition (has.arguments condition (by simp))) fun test => ?_
    refine composed.bind (composed.compileArgument (has.arguments body (by simp)) escaping) fun code => ?_
    exact composed.bind (composed.compileArgument (has.arguments otherwise (by simp)) escaping) fun alternative =>
      composed.pure _
  · exact refuse

theorem flag (markup : String) : FunctionHas holds fits (BuiltIn.flag markup) := by
  intro phrases call has escaping
  have refuse := composed.refuseCount call ⟨1, some 1⟩
  rcases call with ⟨name, _ | ⟨condition, _ | _⟩, named, span⟩
  · exact refuse
  · exact composed.bind (composed.condition (has.arguments condition (by simp))) fun test => composed.pure _
  · exact refuse

theorem calculate : FunctionHas holds fits BuiltIn.calculate := by
  intro phrases call has escaping
  have refuse := composed.refuseCount call ⟨1, some 1⟩
  rcases call with ⟨name, _ | ⟨argument, _ | _⟩, named, span⟩
  · exact refuse
  · refine composed.bind (composed.calculation (has.arguments argument (by simp))) fun calculation => ?_
    cases calculation.fold? with
    | some amount => exact composed.pure _
    | none => exact composed.pure _
  · exact refuse

theorem forced (mode : Escaping) : FunctionHas holds fits (BuiltIn.forced mode) := by
  intro phrases call has escaping
  have refuse := composed.refuseCount call ⟨1, some 1⟩
  rcases call with ⟨name, _ | ⟨value, _ | _⟩, named, span⟩
  · exact refuse
  · exact composed.bind (composed.compileArgument (has.arguments value (by simp)) .raw) fun code => composed.pure _
  · exact refuse

theorem modeOf (call : Call) (argument : PendingArgument) :
    holds Escaping (BuiltIn.modeOf call argument) := by
  unfold BuiltIn.modeOf
  cases argument.literalText? with
  | none => exact composed.failAt _ _ nofun nofun
  | some written =>
      dsimp only
      cases Escaping.ofName? written with
      | none => exact composed.failAt _ _ nofun nofun
      | some mode => exact composed.pure mode

theorem escape : FunctionHas holds fits BuiltIn.escape := by
  intro phrases call has escaping
  have refuse := composed.refuseCount call ⟨1, some 2⟩
  rcases call with ⟨name, _ | ⟨value, _ | ⟨modeName, _ | _⟩⟩, named, span⟩
  · exact refuse
  · exact composed.bind (composed.compileArgument (has.arguments value (by simp)) .raw) fun code => composed.pure _
  · refine composed.bind (composed.modeOf _ modeName) fun mode => ?_
    exact composed.bind (composed.compileArgument (has.arguments value (by simp)) .raw) fun code => composed.pure _
  · exact refuse

theorem format (kind : FormatKind) : FunctionHas holds fits (BuiltIn.format kind) := by
  intro phrases call has escaping
  have refuse := composed.refuseCount call ⟨1, some 2⟩
  rcases call with ⟨name, _ | ⟨value, _ | ⟨option, _ | _⟩⟩, named, span⟩
  · exact refuse
  · exact composed.bind (composed.compileArgument (has.arguments value (by simp)) .raw) fun code => composed.pure _
  · refine composed.bind (composed.compileArgument (has.arguments value (by simp)) .raw) fun code => ?_
    exact composed.bind (composed.compileArgument (has.arguments option (by simp)) .raw) fun optionCode =>
      composed.pure _
  · exact refuse

theorem link : FunctionHas holds fits BuiltIn.link := by
  intro phrases call has escaping
  have refuse := composed.refuseCount call ⟨1, some 2⟩
  rcases call with ⟨name, _ | ⟨kind, _ | ⟨data, _ | _⟩⟩, named, span⟩
  · exact refuse
  · refine composed.bind (composed.compileArgument (has.arguments kind (by simp)) .raw) fun kindCode => ?_
    exact composed.bind (composed.compileNamed has.named) fun parameters => composed.pure _
  · refine composed.bind (composed.compileArgument (has.arguments kind (by simp)) .raw) fun kindCode => ?_
    refine composed.bind (composed.compileArgument (has.arguments data (by simp)) .raw) fun dataCode => ?_
    exact composed.bind (composed.compileNamed has.named) fun parameters => composed.pure _
  · exact refuse

theorem required {call : Call} (has : CallFits fits call) (name : String) :
    holds Code (BuiltIn.required call name) := by
  unfold BuiltIn.required
  cases found : entryNamed? call.named name with
  | none => exact composed.failAt _ _ nofun nofun
  | some argument =>
      exact composed.compileArgument (has.named _ (mem_of_entryNamed? found)) .raw

theorem pageNavigation : FunctionHas holds fits BuiltIn.pageNavigation := by
  intro phrases call has escaping
  have refuse := composed.refuseCount call ⟨2, some 2⟩
  have entry := composed.required has
  rcases call with ⟨name, _ | ⟨link, _ | ⟨data, _ | _⟩⟩, named, span⟩
  · exact refuse
  · exact refuse
  · refine composed.bind (composed.compileArgument (has.arguments link (by simp)) .raw) fun linkCode => ?_
    refine composed.bind (composed.compileArgument (has.arguments data (by simp)) .raw) fun dataCode => ?_
    refine composed.bind (entry "page") fun page => ?_
    refine composed.bind (entry "per_page") fun perPage => ?_
    refine composed.bind (entry "total") fun total => ?_
    refine composed.bind (composed.compileNamed fun entry member => ?_) fun parameters => composed.pure _
    exact has.named entry (List.mem_of_mem_filter member)
  · exact refuse

theorem helper : FunctionHas holds fits BuiltIn.helper := by
  intro phrases call has escaping
  have refuse := composed.refuseCount call ⟨1, none⟩
  rcases call with ⟨name, _ | ⟨helperName, arguments⟩, named, span⟩
  · exact refuse
  · have all := List.forall_mem_cons.mp has.arguments
    refine composed.bind (composed.compileArgument all.1 .raw) fun nameCode => ?_
    exact composed.bind (composed.compileArguments all.2) fun codes => composed.pure _

omit composed in
theorem fits_of_fillerOf? {call : Call} (has : CallFits fits call) {placeholder : List Char}
    {argument : PendingArgument} (found : BuiltIn.fillerOf? call placeholder = some argument) :
    fits argument := by
  rcases BuiltIn.mem_of_fillerOf? found with positional | ⟨_, named⟩
  · exact has.arguments argument positional
  · exact has.named _ named

theorem compilePieces {call : Call} (has : CallFits fits call) (escaping : Escaping)
    (pieces : List Piece) : holds (List Code) (BuiltIn.compilePieces call escaping pieces) := by
  induction pieces with
  | nil => exact composed.pure []
  | cons piece rest inductionHypothesis =>
      cases piece with
      | text content => exact composed.bind inductionHypothesis fun more => composed.pure _
      | placeholder name =>
          rw [BuiltIn.compilePieces]
          cases found : BuiltIn.fillerOf? call name with
          | none =>
              refine composed.bind (composed.pure _) fun code => ?_
              exact composed.bind inductionHypothesis fun more => composed.pure _
          | some argument =>
              have filler := composed.compileArgument (fits_of_fillerOf? has found) escaping
              refine composed.bind filler fun code => ?_
              exact composed.bind inductionHypothesis fun more => composed.pure _

theorem phrase : FunctionHas holds fits BuiltIn.phrase := by
  intro phrases call has escaping
  unfold BuiltIn.phrase
  split
  · exact composed.refuseCount call _
  · split
    · exact composed.failAt _ _ (by simp) (by simp)
    · dsimp only
      split
      · exact composed.failAt _ _ (by simp) (by simp)
      · refine composed.bind (composed.notePhrase _) fun _ => ?_
        split
        · exact composed.pure _
        · exact composed.bind (composed.compilePieces has escaping _) fun codes => composed.pure _

theorem builtIn {name : String} {function : Function}
    (found : Registry.builtIn.function? name = some function) : FunctionHas holds fits function := by
  refine function_builtIn_of_forall (FunctionHas holds fits) ?_ found
  intro entry member
  simp only [Registry.builtInFunctions, List.mem_cons, List.not_mem_nil, or_false] at member
  rcases member with rfl | rfl | rfl | rfl | rfl | rfl | rfl | rfl | rfl | rfl | rfl | rfl | rfl |
    rfl | rfl | rfl | rfl
  · exact composed.choose
  · exact composed.flag _
  · exact composed.flag _
  · exact composed.calculate
  · exact composed.escape
  · exact composed.forced _
  · exact composed.forced _
  · exact composed.forced _
  · exact composed.format _
  · exact composed.format _
  · exact composed.format _
  · exact composed.format _
  · exact composed.format _
  · exact composed.link
  · exact composed.pageNavigation
  · exact composed.helper
  · exact composed.phrase

theorem compileCall (phrases : Phrases) {call : Call} (has : CallFits fits call) (escaping : Escaping) :
    holds Code (Compile.compileCall Registry.builtIn phrases call escaping) := by
  unfold Compile.compileCall
  cases found : Registry.builtIn.function? call.name with
  | none => exact composed.failAt _ _ nofun nofun
  | some function => exact composed.builtIn found phrases call has escaping

end Composed

/-! ## Generator steps -/

namespace Stepwise

variable (steps : Stepwise holds)

include steps

theorem failMalformed {Result : Type} (outcome : Except Expression.Malformed Result) :
    holds Result (Compile.failMalformed outcome) := by
  cases outcome with
  | ok result => exact steps.pure result
  | error malformed => exact steps.failAt _ _ nofun

theorem expressionTokens {parts : List Pending} (all : ∀ part ∈ parts, PartHas holds part) :
    holds (List Expression.Token) (Compile.expressionTokens parts) := by
  induction parts with
  | nil => exact steps.pure []
  | cons part rest inductionHypothesis =>
      have all := List.forall_mem_cons.mp all
      have others := inductionHypothesis all.2
      cases all.1 with
      | literal text span =>
          refine steps.bind (steps.failMalformed _) fun tokens => ?_
          exact steps.bind others fun more => steps.pure _
      | deferred span each =>
          refine steps.bind (each .raw) fun code => ?_
          exact steps.bind others fun more => steps.pure _

/-- An argument is fit if all its parts have the property. -/
theorem composed : Composed holds (ArgumentHas holds) where
  toSequenced := steps.toSequenced
  failAt := fun cause span notCircular _ => steps.failAt cause span notCircular
  notePhrase := steps.notePhrase
  compileArgument := fun has escaping => steps.compileParts has escaping
  calculation := fun has => steps.bind (steps.expressionTokens has) fun _ => steps.failMalformed _
  condition := fun has => steps.bind (steps.expressionTokens has) fun _ => steps.failMalformed _

end Stepwise

/-! ## Segments -/

section Segments

variable {phrases : Phrases} {inclusion : Inclusion}

/-- What the inclusions among some segments compile to has a property. -/
abbrev InclusionsHave (holds : (Result : Type) → CompileM Result → Prop) (inclusion : Inclusion) :
    List Segment → Prop :=
  Throughout fun segment => ∀ name span, segment = .inclusion name span →
    ∀ escaping, holds Code (inclusion name span escaping)

mutual

theorem pending_has (steps : Stepwise holds) : ∀ segment : Segment,
    InclusionsHave holds inclusion (nested .whole segment) →
      PartHas holds (pending Registry.builtIn phrases inclusion segment)
  | .literal text span, _ => .literal text span
  | .reference _ span, _ => .deferred span fun _ => steps.pure _
  | .call _ arguments named span, all =>
      .deferred span (steps.composed.compileCall phrases
        ⟨pendingArguments_have steps arguments all.tail.left, pendingNamed_have steps named all.tail.right⟩)
  | .choice branches otherwise span, all =>
      .deferred span (steps.composed.compileChoice (pendingBranches_have steps branches all.tail.left)
        (pendingOtherwise_has steps otherwise all.tail.right))
  | .loop source _ _ body span, all =>
      .deferred span fun escaping =>
        steps.bind (steps.composed.compileArgument (pendingArgument_has steps source all.tail.left) .raw) fun _ =>
          steps.bind (steps.compileParts (pendingAll_have steps body all.tail.right) escaping) fun _ =>
            steps.pure _
  | .inclusion name span, all => .deferred span (all.head name span rfl)

theorem pendingAll_have (steps : Stepwise holds) : ∀ segments : List Segment,
    InclusionsHave holds inclusion (nestedAll .whole segments) →
      ∀ part ∈ pendingAll Registry.builtIn phrases inclusion segments, PartHas holds part
  | [], _ => nofun
  | segment :: rest, all =>
      List.forall_mem_cons.mpr ⟨pending_has steps segment all.left, pendingAll_have steps rest all.right⟩

theorem pendingArgument_has (steps : Stepwise holds) : ∀ argument : ArgumentOf Segment,
    InclusionsHave holds inclusion (nestedArgument .whole argument) →
      ArgumentHas holds (pendingArgument Registry.builtIn phrases inclusion argument)
  | ⟨parts, _, _⟩, all => pendingAll_have steps parts all

theorem pendingArguments_have (steps : Stepwise holds) : ∀ arguments : List (ArgumentOf Segment),
    InclusionsHave holds inclusion (nestedArguments .whole arguments) →
      ∀ argument ∈ pendingArguments Registry.builtIn phrases inclusion arguments, ArgumentHas holds argument
  | [], _ => nofun
  | argument :: rest, all =>
      List.forall_mem_cons.mpr ⟨pendingArgument_has steps argument all.left,
        pendingArguments_have steps rest all.right⟩

theorem pendingNamed_have (steps : Stepwise holds) : ∀ named : List (String × ArgumentOf Segment),
    InclusionsHave holds inclusion (nestedNamed .whole named) →
      ∀ entry ∈ pendingNamed Registry.builtIn phrases inclusion named, ArgumentHas holds entry.2
  | [], _ => nofun
  | (_, argument) :: rest, all =>
      List.forall_mem_cons.mpr ⟨pendingArgument_has steps argument all.left,
        pendingNamed_have steps rest all.right⟩

theorem pendingBranches_have (steps : Stepwise holds) : ∀ branches : List (BranchOf Segment),
    InclusionsHave holds inclusion (nestedBranches .whole branches) →
      BranchesHave holds (ArgumentHas holds) (pendingBranches Registry.builtIn phrases inclusion branches)
  | [], _ => nofun
  | ⟨condition, body, _⟩ :: rest, all =>
      List.forall_mem_cons.mpr ⟨⟨pendingArgument_has steps condition all.left,
        pendingAll_have steps body all.right.left⟩, pendingBranches_have steps rest all.right.right⟩

theorem pendingOtherwise_has (steps : Stepwise holds) : ∀ otherwise : Option (List Segment),
    InclusionsHave holds inclusion (nestedOtherwise .whole otherwise) →
      ∀ body, pendingOtherwise Registry.builtIn phrases inclusion otherwise = some body →
        ∀ part ∈ body, PartHas holds part
  | none, _ => nofun
  | some segments, all => by
      rintro body ⟨⟩
      exact pendingAll_have steps segments all

end

theorem compileSegments_has (steps : Stepwise holds) {segments : List Segment}
    (all : InclusionsHave holds inclusion (nestedAll .whole segments)) (escaping : Escaping) :
    holds Code (compileSegments Registry.builtIn phrases inclusion escaping segments) :=
  steps.compileParts (pendingAll_have steps segments all) escaping

end Segments

end Compile
end TemplateCascade
