import TemplateCascade.Proofs.Compile.Arguments
import TemplateCascade.Proofs.Compile.Following

namespace TemplateCascade
namespace Compile

/-!
# What a compilation notes is all that it depends on

If two environments answer alike for the names that a compilation notes under one of them, the
compilation has the same result and notes the same names under the other.  This holds of failures too: a
failure is repeated until one of the names that it noted means something else.

Every built-in function relates calls whose arguments follow each other, and so does the step from a
segment to the part that is still to be compiled.  Two places ask the environment, and both note the
name before they look at the answer: the function for phrases, and inclusions.
-/

open Markup (ArgumentOf BranchOf ParseErrors Segment Template)
open Text (Escaping Span)

/-! ## Functions -/

/-- A function does alike in calls that follow each other. -/
def FunctionFollows (comparison : Comparison) (function : Function) : Prop :=
  ∀ {first second : Call}, CallFollows comparison first second → ∀ escaping,
    Follows comparison (function comparison.firstPhrases first escaping)
      (function comparison.secondPhrases second escaping)

namespace BuiltIn

variable {comparison : Comparison}

theorem refuseCount_follows {first second : Call} (follows : CallFollows comparison first second)
    (expected : ArgumentRange) :
    Follows comparison (first.refuseCount expected : CompileM Code) (second.refuseCount expected) := by
  unfold Call.refuseCount
  rw [follows.name, follows.span, follows.arguments.length_eq]
  exact Follows.failAt _ _

theorem choose_follows : FunctionFollows comparison choose := by
  intro first second follows escaping
  rcases first with ⟨name, firstArguments, firstNamed, span⟩
  rcases second with ⟨secondName, secondArguments, secondNamed, secondSpan⟩
  have refuse := refuseCount_follows follows ⟨2, some 3⟩
  rcases follows.arguments with _ | ⟨condition, _ | ⟨body, _ | ⟨otherwise, _ | _⟩⟩⟩
  · exact refuse
  · exact refuse
  · exact condition.condition.bind fun _ => (body.compile escaping).bind fun _ => Follows.pure _
  · exact condition.condition.bind fun _ => (body.compile escaping).bind fun _ =>
      (otherwise.compile escaping).bind fun _ => Follows.pure _
  · exact refuse

theorem flag_follows (markup : String) : FunctionFollows comparison (flag markup) := by
  intro first second follows escaping
  rcases first with ⟨name, firstArguments, firstNamed, span⟩
  rcases second with ⟨secondName, secondArguments, secondNamed, secondSpan⟩
  have refuse := refuseCount_follows follows ⟨1, some 1⟩
  rcases follows.arguments with _ | ⟨condition, _ | _⟩
  · exact refuse
  · exact condition.condition.bind fun _ => Follows.pure _
  · exact refuse

theorem calculate_follows : FunctionFollows comparison calculate := by
  intro first second follows escaping
  rcases first with ⟨name, firstArguments, firstNamed, span⟩
  rcases second with ⟨secondName, secondArguments, secondNamed, secondSpan⟩
  have refuse := refuseCount_follows follows ⟨1, some 1⟩
  rcases follows.arguments with _ | ⟨argument, _ | _⟩
  · exact refuse
  · refine argument.calculation.bind fun calculation => ?_
    cases calculation.fold? with
    | some amount => exact Follows.pure _
    | none => exact Follows.pure _
  · exact refuse

theorem forced_follows (mode : Escaping) : FunctionFollows comparison (forced mode) := by
  intro first second follows escaping
  rcases first with ⟨name, firstArguments, firstNamed, span⟩
  rcases second with ⟨secondName, secondArguments, secondNamed, secondSpan⟩
  have refuse := refuseCount_follows follows ⟨1, some 1⟩
  rcases follows.arguments with _ | ⟨value, _ | _⟩
  · exact refuse
  · exact (value.compile .raw).bind fun _ => Follows.pure _
  · exact refuse

theorem modeOf_follows {first second : Call} (follows : CallFollows comparison first second)
    {firstArgument secondArgument : PendingArgument}
    (argument : ArgumentFollows comparison firstArgument secondArgument) :
    Follows comparison (modeOf first firstArgument) (modeOf second secondArgument) := by
  unfold modeOf
  rw [argument.literalText, argument.span, follows.name]
  cases secondArgument.literalText? with
  | none => exact Follows.failAt _ _
  | some written =>
      dsimp only
      cases Escaping.ofName? written with
      | none => exact Follows.failAt _ _
      | some mode => exact Follows.pure _

theorem escape_follows : FunctionFollows comparison escape := by
  intro first second follows escaping
  rcases first with ⟨name, firstArguments, firstNamed, span⟩
  rcases second with ⟨secondName, secondArguments, secondNamed, secondSpan⟩
  have refuse := refuseCount_follows follows ⟨1, some 2⟩
  rcases follows.arguments with _ | ⟨value, _ | ⟨modeName, _ | _⟩⟩
  · exact refuse
  · exact (value.compile .raw).bind fun _ => Follows.pure _
  · exact (modeOf_follows follows modeName).bind fun _ =>
      (value.compile .raw).bind fun _ => Follows.pure _
  · exact refuse

theorem format_follows (kind : FormatKind) : FunctionFollows comparison (format kind) := by
  intro first second follows escaping
  rcases first with ⟨name, firstArguments, firstNamed, span⟩
  rcases second with ⟨secondName, secondArguments, secondNamed, secondSpan⟩
  have refuse := refuseCount_follows follows ⟨1, some 2⟩
  rcases follows.arguments with _ | ⟨value, _ | ⟨option, _ | _⟩⟩
  · exact refuse
  · exact (value.compile .raw).bind fun _ => Follows.pure _
  · exact (value.compile .raw).bind fun _ => (option.compile .raw).bind fun _ => Follows.pure _
  · exact refuse

theorem link_follows : FunctionFollows comparison link := by
  intro first second follows escaping
  rcases first with ⟨name, firstArguments, firstNamed, span⟩
  rcases second with ⟨secondName, secondArguments, secondNamed, secondSpan⟩
  have refuse := refuseCount_follows follows ⟨1, some 2⟩
  have parameters := compileNamed_follows follows.named
  rcases follows.arguments with _ | ⟨kind, _ | ⟨data, _ | _⟩⟩
  · exact refuse
  · exact (kind.compile .raw).bind fun _ => parameters.bind fun _ => Follows.pure _
  · exact (kind.compile .raw).bind fun _ => (data.compile .raw).bind fun _ =>
      parameters.bind fun _ => Follows.pure _
  · exact refuse

theorem entryNamed_follows {first second : List (String × PendingArgument)}
    (follows : List.Forall₂ (NamedFollows comparison) first second) (name : String) :
    Option.Rel (ArgumentFollows comparison) (entryNamed? first name) (entryNamed? second name) :=
  entryNamed_related (fun entry => entry.related) follows name

theorem required_follows {first second : Call} (follows : CallFollows comparison first second)
    (name : String) : Follows comparison (required first name) (required second name) := by
  have entries := entryNamed_follows follows.named name
  unfold required
  rw [follows.name, follows.span]
  generalize entryNamed? first.named name = firstEntry at entries ⊢
  generalize entryNamed? second.named name = secondEntry at entries ⊢
  cases entries with
  | none => exact Follows.failAt _ _
  | some argument => exact argument.compile .raw

theorem pageNavigation_follows : FunctionFollows comparison pageNavigation := by
  intro first second follows escaping
  rcases first with ⟨name, firstArguments, firstNamed, span⟩
  rcases second with ⟨secondName, secondArguments, secondNamed, secondSpan⟩
  have refuse := refuseCount_follows follows ⟨2, some 2⟩
  have parameters := compileNamed_follows
    (filter_related (fun entry => entry.related) follows.named fun name => !isPageArgument name)
  rcases follows.arguments with _ | ⟨link, _ | ⟨data, _ | _⟩⟩
  · exact refuse
  · exact refuse
  · exact (link.compile .raw).bind fun _ => (data.compile .raw).bind fun _ =>
      (required_follows follows "page").bind fun _ =>
        (required_follows follows "per_page").bind fun _ =>
          (required_follows follows "total").bind fun _ =>
            parameters.bind fun _ => Follows.pure _
  · exact refuse

theorem helper_follows : FunctionFollows comparison helper := by
  intro first second follows escaping
  rcases first with ⟨name, firstArguments, firstNamed, span⟩
  rcases second with ⟨secondName, secondArguments, secondNamed, secondSpan⟩
  have refuse := refuseCount_follows follows ⟨1, none⟩
  rcases follows.arguments with _ | ⟨helperName, arguments⟩
  · exact refuse
  · exact (helperName.compile .raw).bind fun _ =>
      (compileArguments_follows arguments).bind fun _ => Follows.pure _

theorem fillerOf_follows {first second : Call} (follows : CallFollows comparison first second)
    (placeholder : List Char) :
    Option.Rel (ArgumentFollows comparison) (fillerOf? first placeholder)
      (fillerOf? second placeholder) :=
  fillerOf_related (fun entry => entry.related) follows.arguments follows.named placeholder

theorem compilePieces_follows {first second : Call} (follows : CallFollows comparison first second)
    (escaping : Escaping) (pieces : List Piece) :
    Follows comparison (compilePieces first escaping pieces) (compilePieces second escaping pieces) := by
  induction pieces with
  | nil => exact Follows.pure _
  | cons piece rest inductionHypothesis =>
      cases piece with
      | text content => exact inductionHypothesis.bind fun _ => Follows.pure _
      | placeholder name =>
          unfold compilePieces
          have fillers := fillerOf_follows follows name
          generalize fillerOf? first name = firstFiller at fillers ⊢
          generalize fillerOf? second name = secondFiller at fillers ⊢
          cases fillers with
          | none => exact (Follows.pure _).bind fun _ => inductionHypothesis.bind fun _ => Follows.pure _
          | some argument =>
              exact (argument.compile escaping).bind fun _ =>
                inductionHypothesis.bind fun _ => Follows.pure _

/-- The one function that asks the environment: it notes the name before it looks at the text. -/
theorem phrase_follows : FunctionFollows comparison phrase := by
  intro first second follows escaping
  rcases first with ⟨name, firstArguments, firstNamed, span⟩
  rcases second with ⟨secondName, secondArguments, secondNamed, secondSpan⟩
  have refuse := refuseCount_follows follows ⟨1, none⟩
  have sameName : name = secondName := follows.name
  subst sameName
  have filled : ∀ text : String, Follows comparison
      (compilePieces ⟨name, firstArguments, firstNamed, span⟩ escaping (pieces text.toList) >>=
        fun codes => pure (Code.concatenate codes))
      (compilePieces ⟨name, secondArguments, secondNamed, secondSpan⟩ escaping
        (pieces text.toList) >>= fun codes => pure (Code.concatenate codes)) := fun text =>
    (compilePieces_follows follows escaping _).bind fun _ => Follows.pure _
  have arguments : List.Forall₂ (ArgumentFollows comparison) firstArguments secondArguments :=
    follows.arguments
  cases arguments with
  | nil => exact refuse
  | cons nameArgument rest =>
      simp only [phrase]
      rw [nameArgument.literalText, nameArgument.span]
      split
      · exact Follows.failAt _ _
      · next written _ =>
          split
          · exact Follows.failAt _ _
          · refine Follows.notePhrase ?_ ?_
            · cases comparison.firstPhrases (Text.trim written) with
              | none => exact Adds.pure _
              | some text => exact (filled text).adds
            · intro sameText
              rw [← sameText]
              cases comparison.firstPhrases (Text.trim written) with
              | none => exact Follows.pure _
              | some text => exact filled text

end BuiltIn

/-- What the built-in registry gives for a name is listed under the name. -/
theorem mem_builtInFunctions {name : String} {function : Function}
    (found : Registry.builtIn.function? name = some function) :
    (name, function) ∈ Registry.builtInFunctions := by
  have registered : ∀ (entries : List (String × Function)) (registry : Registry),
      (entries.foldl (fun registry entry => registry.register entry.1 entry.2)
        registry).function? name = some function →
      (name, function) ∈ entries ∨ registry.function? name = some function := by
    intro entries
    induction entries with
    | nil => exact fun registry found => Or.inr found
    | cons entry rest inductionHypothesis =>
        rcases entry with ⟨registered, latest⟩
        intro registry found
        rcases inductionHypothesis _ found with later | here
        · exact Or.inl (List.mem_cons_of_mem _ later)
        · simp only [Registry.function?, Registry.register, Std.ExtTreeMap.getElem?_insert] at here
          split at here
          · next same =>
              rw [Std.compare_eq_iff_eq] at same
              rw [same, Option.some.inj here]
              exact Or.inl List.mem_cons_self
          · exact Or.inr here
  rcases registered Registry.builtInFunctions Registry.empty found with listed | known
  · exact listed
  · simp [Registry.function?, Registry.empty] at known

/-- A property of functions that all built-in ones have holds of whatever the built-in registry gives. -/
theorem function_builtIn_of_forall (property : Function → Prop)
    (holds : ∀ entry ∈ Registry.builtInFunctions, property entry.2) {name : String}
    {function : Function} (found : Registry.builtIn.function? name = some function) :
    property function :=
  holds (name, function) (mem_builtInFunctions found)

theorem builtIn_follows {comparison : Comparison} {name : String} {function : Function}
    (found : Registry.builtIn.function? name = some function) :
    FunctionFollows comparison function := by
  refine function_builtIn_of_forall (FunctionFollows comparison) ?_ found
  intro entry member
  simp only [Registry.builtInFunctions, List.mem_cons, List.not_mem_nil, or_false] at member
  rcases member with rfl | rfl | rfl | rfl | rfl | rfl | rfl | rfl | rfl | rfl | rfl | rfl | rfl |
    rfl | rfl | rfl | rfl
  · exact BuiltIn.choose_follows
  · exact BuiltIn.flag_follows _
  · exact BuiltIn.flag_follows _
  · exact BuiltIn.calculate_follows
  · exact BuiltIn.escape_follows
  · exact BuiltIn.forced_follows _
  · exact BuiltIn.forced_follows _
  · exact BuiltIn.forced_follows _
  · exact BuiltIn.format_follows _
  · exact BuiltIn.format_follows _
  · exact BuiltIn.format_follows _
  · exact BuiltIn.format_follows _
  · exact BuiltIn.format_follows _
  · exact BuiltIn.link_follows
  · exact BuiltIn.pageNavigation_follows
  · exact BuiltIn.helper_follows
  · exact BuiltIn.phrase_follows

/-! ## Segments -/

/-- What an inclusion compiles to on both sides. -/
def InclusionFollows (comparison : Comparison) (first second : Inclusion) : Prop :=
  ∀ name span escaping, Follows comparison (first name span escaping) (second name span escaping)

section Segments

variable {comparison : Comparison} {first second : Inclusion}

theorem compileCall_follows {firstCall secondCall : Call}
    (follows : CallFollows comparison firstCall secondCall) (escaping : Escaping) :
    Follows comparison
      (compileCall Registry.builtIn comparison.firstPhrases firstCall escaping)
      (compileCall Registry.builtIn comparison.secondPhrases secondCall escaping) := by
  unfold compileCall
  rw [follows.name, follows.span]
  cases found : Registry.builtIn.function? secondCall.name with
  | none => exact Follows.failAt _ _
  | some function => exact builtIn_follows found follows escaping

mutual

theorem pending_follows (follows : InclusionFollows comparison first second) :
    ∀ segment : Segment, PendingFollows comparison
      (pending Registry.builtIn comparison.firstPhrases first segment)
      (pending Registry.builtIn comparison.secondPhrases second segment)
  | .literal text span => PendingFollows.literal text span
  | .reference _ span => PendingFollows.deferred span fun _ => Follows.pure _
  | .call _ arguments named span =>
      PendingFollows.deferred span (compileCall_follows
        ⟨rfl, pendingArguments_follow follows arguments, pendingNamed_follow follows named, rfl⟩)
  | .choice branches otherwise span =>
      PendingFollows.deferred span fun escaping =>
        compileChoice_follows (pendingBranches_follow follows branches)
          (pendingOtherwise_follow follows otherwise) escaping
  | .loop source _ _ body span =>
      PendingFollows.deferred span fun escaping =>
        ((pendingArgument_follows follows source).compile .raw).bind fun _ =>
          ((pendingAll_follow follows body).compileParts escaping).bind fun _ => Follows.pure _
  | .inclusion name span => PendingFollows.deferred span fun escaping => follows name span escaping

theorem pendingAll_follow (follows : InclusionFollows comparison first second) :
    ∀ segments : List Segment, PartsFollow comparison
      (pendingAll Registry.builtIn comparison.firstPhrases first segments)
      (pendingAll Registry.builtIn comparison.secondPhrases second segments)
  | [] => List.Forall₂.nil
  | segment :: rest =>
      List.Forall₂.cons (pending_follows follows segment) (pendingAll_follow follows rest)

theorem pendingArgument_follows (follows : InclusionFollows comparison first second) :
    ∀ argument : ArgumentOf Segment, ArgumentFollows comparison
      (pendingArgument Registry.builtIn comparison.firstPhrases first argument)
      (pendingArgument Registry.builtIn comparison.secondPhrases second argument)
  | ⟨parts, _, _⟩ => ⟨pendingAll_follow follows parts, rfl⟩

theorem pendingArguments_follow (follows : InclusionFollows comparison first second) :
    ∀ arguments : List (ArgumentOf Segment), List.Forall₂ (ArgumentFollows comparison)
      (pendingArguments Registry.builtIn comparison.firstPhrases first arguments)
      (pendingArguments Registry.builtIn comparison.secondPhrases second arguments)
  | [] => List.Forall₂.nil
  | argument :: rest =>
      List.Forall₂.cons (pendingArgument_follows follows argument)
        (pendingArguments_follow follows rest)

theorem pendingNamed_follow (follows : InclusionFollows comparison first second) :
    ∀ named : List (String × ArgumentOf Segment), List.Forall₂ (NamedFollows comparison)
      (pendingNamed Registry.builtIn comparison.firstPhrases first named)
      (pendingNamed Registry.builtIn comparison.secondPhrases second named)
  | [] => List.Forall₂.nil
  | (name, argument) :: rest =>
      List.Forall₂.cons ⟨name, pendingArgument_follows follows argument⟩
        (pendingNamed_follow follows rest)

theorem pendingBranches_follow (follows : InclusionFollows comparison first second) :
    ∀ branches : List (BranchOf Segment), List.Forall₂ (BranchFollows comparison)
      (pendingBranches Registry.builtIn comparison.firstPhrases first branches)
      (pendingBranches Registry.builtIn comparison.secondPhrases second branches)
  | [] => List.Forall₂.nil
  | ⟨condition, body, _⟩ :: rest =>
      List.Forall₂.cons ⟨pendingArgument_follows follows condition, pendingAll_follow follows body⟩
        (pendingBranches_follow follows rest)

theorem pendingOtherwise_follow (follows : InclusionFollows comparison first second) :
    ∀ otherwise : Option (List Segment), Option.Rel (PartsFollow comparison)
      (pendingOtherwise Registry.builtIn comparison.firstPhrases first otherwise)
      (pendingOtherwise Registry.builtIn comparison.secondPhrases second otherwise)
  | none => Option.Rel.none
  | some body => Option.Rel.some (pendingAll_follow follows body)

end

theorem compileSegments_follows (follows : InclusionFollows comparison first second)
    (escaping : Escaping) (segments : List Segment) :
    Follows comparison
      (compileSegments Registry.builtIn comparison.firstPhrases first escaping segments)
      (compileSegments Registry.builtIn comparison.secondPhrases second escaping segments) :=
  (pendingAll_follow follows segments).compileParts escaping

end Segments

/-! ## Inclusions -/

/-- What an inclusion compiles to once the environment has answered for its name. -/
def includeFound (environment : Environment) (registry : Registry) (context : Context)
    (stack : List String) (name : String) (span : Span) (escaping : Escaping) :
    Except ParseErrors (Option Template) → CompileM Code
  | .ok none => failAt (.unresolvedInclude name context.style) span
  | .error errors =>
      if context.expandsIncludes then throw (.included name (.ofParseErrors errors))
      else pure (.inclusion name)
  | .ok (some template) =>
      if context.expandsIncludes then
        ExceptT.adapt (.included name)
          (compileSegments registry (fun phrase => environment.phrase phrase context.language)
            (includeTemplate environment registry context (stack ++ [name])) escaping
            template.segments)
      else pure (.inclusion name)

/-- The name is noted before anything depends on the environment's answer for it. -/
theorem includeTemplate_eq (environment : Environment) (registry : Registry) (context : Context)
    (stack : List String) (name : String) (span : Span) (escaping : Escaping) :
    includeTemplate environment registry context stack name span escaping =
      if stack.contains name then failAt (.circularInclude name (stack ++ [name])) span
      else (do
        noteInclude name
        includeFound environment registry context stack name span escaping
          (environment.template name context.style)) := by
  rw [includeTemplate]
  split
  · rfl
  · refine congrArg (fun next => noteInclude name >>= fun _ => next) ?_
    split
    · next found => rw [found]; rfl
    · next errors found => rw [found]; rfl
    · next template found =>
        exact congrArg (includeFound environment registry context stack name span escaping) found.symm

/-- Induction on the names that may still be included: what holds while some templates are being compiled, as
soon as it holds with one more of those that are there, holds at all times. -/
theorem stack_induction (environment : Environment) (style : Position) {motive : List String → Prop}
    (step : ∀ stack, (∀ name template, environment.template name style = .ok (some template) →
      stack.contains name = false → motive (stack ++ [name])) → motive stack)
    (stack : List String) : motive stack := by
  generalize bound : (unvisited environment.names stack).length = count
  induction count using Nat.strong_induction_on generalizing stack with
  | _ count inductionHypothesis =>
      refine step stack fun name template found fresh => ?_
      have known : name ∈ environment.names := environment.mem_names name style (by simp [found])
      exact inductionHypothesis _ (bound ▸ length_unvisited_lt known fresh) (stack ++ [name]) rfl

/--
An inclusion on both sides.  The induction is on the names that may still be included under the first
environment.  It holds for every second one, also for the first one itself, so the notes of what is
included are kept even where the two environments differ.
-/
theorem includeTemplate_follows (first : Environment) (context : Context) (stack : List String) :
    ∀ second : Environment, InclusionFollows ⟨first, second, context.style, context.language⟩
      (includeTemplate first Registry.builtIn context stack)
      (includeTemplate second Registry.builtIn context stack) := by
  induction stack using stack_induction first context.style with
  | step stack inductionHypothesis =>
      intro second name span escaping
      rw [includeTemplate_eq, includeTemplate_eq]
      split
      · exact Follows.failAt _ _
      · next visited =>
          have found : ∀ other : Environment,
              Follows ⟨first, other, context.style, context.language⟩
                (includeFound first Registry.builtIn context stack name span escaping
                  (first.template name context.style))
                (includeFound other Registry.builtIn context stack name span escaping
                  (first.template name context.style)) := by
            intro other
            cases answer : first.template name context.style with
            | error errors =>
                simp only [includeFound]
                split
                · exact Follows.throw _
                · exact Follows.pure _
            | ok present =>
                cases present with
                | none => exact Follows.failAt _ _
                | some template =>
                    simp only [includeFound]
                    split
                    · have inner :=
                        inductionHypothesis name template answer (Bool.eq_false_iff.mpr visited) other
                      exact (compileSegments_follows inner escaping template.segments).adapt _
                    · exact Follows.pure _
          refine Follows.noteInclude (found first).adds fun sameTemplate => ?_
          rw [← sameTemplate]
          exact found second

/-- The whole compilation under both environments. -/
theorem template_follows (first second : Environment) (context : Context) (name : String)
    (template : Template) :
    Follows ⟨first, second, context.style, context.language⟩
      (compileSegments Registry.builtIn (fun phrase => first.phrase phrase context.language)
        (includeTemplate first Registry.builtIn context [name]) .html template.segments)
      (compileSegments Registry.builtIn (fun phrase => second.phrase phrase context.language)
        (includeTemplate second Registry.builtIn context [name]) .html template.segments) :=
  compileSegments_follows (includeTemplate_follows first context [name] second) .html
    template.segments

/-- What a compilation comes to from the start is its outcome. -/
theorem CompileM.after_none (compilation : CompileM Code) :
    compilation.after Uses.none =
      match compilation.outcome with
      | .ok compiled => (.ok compiled.code, compiled.uses)
      | .error failure => (.error failure.error, failure.uses) := by
  unfold CompileM.outcome CompileM.after
  rcases compilation.run.run Uses.none with ⟨error | code, uses⟩ <;> rfl

theorem usesOf_outcome (compilation : CompileM Code) :
    usesOf compilation.outcome = (compilation.after Uses.none).2 := by
  rw [CompileM.after_none]
  cases compilation.outcome <;> rfl

theorem outcome_eq_of_after_eq {first second : CompileM Code}
    (same : first.after Uses.none = second.after Uses.none) : first.outcome = second.outcome := by
  unfold CompileM.after at same
  unfold CompileM.outcome
  rw [same]

/--
Compilation depends on the environment only through the names that it notes.  When a second environment
answers alike for all names noted under the first one, whether compilation succeeded there or failed, the
code or the error is the same under both, and so are the names noted.
-/
theorem compileTemplate_eq_of_agree (first second : Environment) (context : Context) (name : String)
    (template : Template)
    (templates : ∀ noted ∈
      (usesOf (compileTemplate first Registry.builtIn context name template)).includes,
      first.template noted context.style = second.template noted context.style)
    (phrases : ∀ noted ∈
      (usesOf (compileTemplate first Registry.builtIn context name template)).phrases,
      first.phrase noted context.language = second.phrase noted context.language) :
    compileTemplate second Registry.builtIn context name template =
      compileTemplate first Registry.builtIn context name template := by
  refine outcome_eq_of_after_eq
    ((template_follows first second context name template).same Uses.none ?_)
  rw [← usesOf_outcome]
  exact ⟨templates, phrases⟩

/-- A header, and a footer if there is one. -/
def headerSite (footer : Option Template) : Environment where
  template name _ :=
    .ok (if name = "header" then some ⟨[.literal "Top" default]⟩
      else if name = "footer" then footer else none)
  phrase _ _ := none
  names := ["header", "footer"]
  mem_names := by
    intro name _ present
    by_cases isHeader : name = "header"
    · simp [isHeader]
    · by_cases isFooter : name = "footer"
      · simp [isFooter]
      · simp [isHeader, isFooter] at present

/-- A page with a header and a template that does not exist. -/
def brokenPage : Template :=
  ⟨[.inclusion "header" default, .inclusion "missing" default]⟩

/-- What the page asks for while there is no footer. -/
theorem usesOf_brokenPage :
    usesOf (compileTemplate (headerSite none) Registry.builtIn ⟨0, 0, true⟩ "page" brokenPage) =
      ⟨((∅ : Std.ExtTreeSet String).insert "header").insert "missing", ∅⟩ := by
  simp only [compileTemplate, CompileM.outcome, compileSegments, brokenPage, pendingAll, pending,
    compileParts, compileEach, Pending.compile, includeTemplate_eq, includeFound, headerSite]
  simp
  rfl

/-- A page that does not compile fails in the same way when a template that it never asked for appears. -/
theorem compileTemplate_brokenPage :
    compileTemplate (headerSite (some ⟨[]⟩)) Registry.builtIn ⟨0, 0, true⟩ "page" brokenPage =
      compileTemplate (headerSite none) Registry.builtIn ⟨0, 0, true⟩ "page" brokenPage := by
  refine compileTemplate_eq_of_agree (headerSite none) (headerSite (some ⟨[]⟩)) ⟨0, 0, true⟩ "page"
    brokenPage ?_ (fun _ _ => rfl)
  intro name member
  rw [usesOf_brokenPage] at member
  simp only [Std.ExtTreeSet.mem_insert, Std.compare_eq_iff_eq, Std.ExtTreeSet.not_mem_empty,
    or_false] at member
  rcases member with rfl | rfl
  · rfl
  · rfl

end Compile
end TemplateCascade
