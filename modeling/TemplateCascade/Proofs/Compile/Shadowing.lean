import Mathlib
import TemplateCascade.Proofs.Compile.Noninterference
import TemplateCascade.Proofs.Expression.Shapes

namespace TemplateCascade
namespace Compile

/-!
# Validation beside full compilation

A validation walks through a template as the full compilation does, and only looks whether included
templates are there.  The two are compared step by step: as long as the full compilation is not in an
included template, both go on or both fail, and fail alike.

The comparison is made for two sites, because a source is validated at one style and one language and then
compiled for many.  A lenient comparison lets the validation fail where the full compilation does not, and in
return it may have more to fill in; what remains is that a template which has been validated does not fail by
itself.
-/

open Expression (Agree TokenAlike TokensAlike Whatever)
open Markup (ArgumentOf BranchOf ParseErrors Segment Template)
open Text (Escaping Span)

/-! ## Errors -/

/-- A cause without the codes of the values that it speaks of. -/
def Cause.bare : Cause → Cause
  | .malformedExpression fault => .malformedExpression fault.bare
  | cause => cause

/-- An error as it is told: without the codes of the values that it speaks of. -/
def CompileError.bare : CompileError → CompileError
  | .here cause span => .here cause.bare span
  | .included template error => .included template error.bare

/-- Two errors that are told alike.  Of a value in an expression an error only tells that it is one. -/
def CompileError.Same (first second : CompileError) : Prop :=
  first.bare = second.bare

theorem Cause.message_bare (cause : Cause) : cause.bare.message = cause.message := by
  cases cause with
  | malformedExpression fault =>
      exact congrArg ("malformed expression: " ++ ·) fault.message_bare
  | _ => rfl

namespace CompileError

theorem innermost_bare (error : CompileError) :
    error.bare.innermost = (error.innermost.1.bare, error.innermost.2) := by
  induction error with
  | here cause span => rfl
  | included template error inductionHypothesis => exact inductionHypothesis

theorem location_bare (error : CompileError) (template : String) :
    error.bare.location template = error.location template := by
  induction error generalizing template with
  | here cause span => rfl
  | included inner error inductionHypothesis => exact inductionHypothesis inner

theorem diagnostic_bare (error : CompileError) (template : String) :
    error.bare.diagnostic template = error.diagnostic template := by
  simp only [diagnostic, innermost_bare, Cause.message_bare, location_bare]

theorem text_bare (error : CompileError) : error.bare.text = error.text := by
  induction error with
  | here cause span =>
      cases cause with
      | malformedExpression fault =>
          exact congrArg ("at " ++ span.text ++ ": " ++ ·) (Cause.message_bare (.malformedExpression fault))
      | _ => rfl
  | included template error inductionHypothesis =>
      exact congrArg ("in included template '" ++ template ++ "': " ++ ·) inductionHypothesis

/-- Whether an error is in a template that the compiled one includes. -/
def IsIncluded : CompileError → Prop
  | here _ _ => False
  | included _ _ => True

end CompileError

/-! ## Two compilations side by side -/

/-- What a comparison allows for. -/
structure Allowance where
  /-- Whether the validation may fail where the full compilation does not. -/
  lenient : Prop
  /-- What errors in an included template are like, and the names that have been noted then. -/
  inside : String → CompileError → Uses → Prop

/--
How a full compilation and a validation end: both with results that agree, or both with the same error; but
once the full one fails in an included template nothing is known of the other.  If the comparison is lenient,
the validation may fail in any case.
-/
inductive Ended {Left Right : Type} (allowance : Allowance) (agree : Left → Right → Prop) :
    Except CompileError Left × Uses → Except CompileError Right × Uses → Prop where
  | ok {left : Left} {right : Right} {more fewer : Uses} (same : agree left right)
      (within : ¬ allowance.lenient → fewer.Within more) :
      Ended allowance agree (.ok left, more) (.ok right, fewer)
  | here {cause other : Cause} (span : Span) {more fewer : Uses} (same : cause.bare = other.bare) :
      Ended allowance agree (.error (.here cause span), more) (.error (.here other span), fewer)
  | included {template : String} {error : CompileError} {more : Uses}
      (inside : allowance.inside template error more) (ended : Except CompileError Right × Uses) :
      Ended allowance agree (.error (.included template error), more) ended
  | refused (permitted : allowance.lenient) (ended : Except CompileError Left × Uses) (error : CompileError)
      (fewer : Uses) : Ended allowance agree ended (.error error, fewer)

/-- A validation keeps step with a full compilation. -/
def Shadows {Left Right : Type} (allowance : Allowance) (agree : Left → Right → Prop) (full : CompileM Left)
    (quick : CompileM Right) : Prop :=
  ∀ more fewer : Uses, (¬ allowance.lenient → fewer.Within more) →
    Ended allowance agree (full.after more) (quick.after fewer)

namespace Shadows

variable {allowance : Allowance} {Left Right Left' Right' : Type} {agree : Left → Right → Prop}
  {agree' : Left' → Right' → Prop}

theorem pure {left : Left} {right : Right} (same : agree left right) :
    Shadows allowance agree (Pure.pure left) (Pure.pure right) :=
  fun _ _ within => .ok same within

theorem failAt {cause other : Cause} (span : Span) (same : cause.bare = other.bare) :
    Shadows allowance agree (Compile.failAt cause span) (Compile.failAt other span) :=
  fun _ _ _ => .here span same

theorem bind {full : CompileM Left} {quick : CompileM Right} {next : Left → CompileM Left'}
    {quickNext : Right → CompileM Right'} (start : Shadows allowance agree full quick)
    (rest : ∀ left right, agree left right → Shadows allowance agree' (next left) (quickNext right)) :
    Shadows allowance agree' (full >>= next) (quick >>= quickNext) := by
  intro more fewer within
  rw [CompileM.after_bind, CompileM.after_bind]
  have ended := start more fewer within
  generalize full.after more = fullEnd at ended ⊢
  generalize quick.after fewer = quickEnd at ended ⊢
  cases ended with
  | ok same within => exact rest _ _ same _ _ within
  | here span same => exact .here span same
  | included inside ended => exact .included inside _
  | refused permitted ended error fewer => exact .refused permitted _ error fewer

theorem failMalformed {first : Except Expression.Malformed Left}
    {second : Except Expression.Malformed Right} (alike : Agree agree first second) :
    Shadows allowance agree (Compile.failMalformed first) (Compile.failMalformed second) := by
  cases alike with
  | ok same => exact pure same
  | error span same => exact failAt span (congrArg Cause.malformedExpression same)

/-- Both note the same name. -/
theorem noteInclude (name : String) :
    Shadows allowance Whatever (Compile.noteInclude name) (Compile.noteInclude name) := by
  intro more fewer within
  refine .ok trivial fun strict => ⟨fun other member => ?_, (within strict).2⟩
  change other ∈ more.includes.insert name
  change other ∈ fewer.includes.insert name at member
  rw [Std.ExtTreeSet.mem_insert] at member ⊢
  exact member.imp_right ((within strict).1 other)

theorem notePhrase (name : String) :
    Shadows allowance Whatever (Compile.notePhrase name) (Compile.notePhrase name) := by
  intro more fewer within
  refine .ok trivial fun strict => ⟨(within strict).1, fun other member => ?_⟩
  change other ∈ more.phrases.insert name
  change other ∈ fewer.phrases.insert name at member
  rw [Std.ExtTreeSet.mem_insert] at member ⊢
  exact member.imp_right ((within strict).2 other)

/-- An included template only adds notes, and nothing is compared when it fails. -/
theorem included {full : CompileM Left} (adds : Adds full) (name : String)
    (inside : ∀ error uses, allowance.inside name error uses) (result : Right) :
    Shadows allowance Whatever (ExceptT.adapt (.included name) full) (Pure.pure result) := by
  intro more fewer within
  have grows := adds.grows more
  rw [CompileM.after_adapt]
  rcases ended : full.after more with ⟨error | left, noted⟩
  · -- Nothing is asked of the validation, which has not looked inside.
    exact .included (inside error noted) _
  · rw [ended] at grows
    exact .ok trivial fun strict => (within strict).trans grows

end Shadows

/-! ## Compilations that do not fail by themselves -/

/-- A compilation succeeds or fails in an included template. -/
def Passes {Result : Type} (allowance : Allowance) (compilation : CompileM Result) : Prop :=
  ∀ (uses noted : Uses) (error : CompileError), compilation.after uses = (.error error, noted) →
    ∃ template inner, error = .included template inner ∧ allowance.inside template inner noted

namespace Passes

variable {allowance : Allowance} {Result Other : Type}

theorem pure (result : Result) : Passes allowance (Pure.pure result : CompileM Result) := by
  intro uses noted error failed
  cases failed

theorem bind {compilation : CompileM Result} {next : Result → CompileM Other}
    (first : Passes allowance compilation) (rest : ∀ result, Passes allowance (next result)) :
    Passes allowance (compilation >>= next) := by
  intro uses noted error failed
  rw [CompileM.after_bind] at failed
  cases ended : compilation.after uses with
  | mk outcome between =>
      rw [ended] at failed
      cases outcome with
      | ok result => exact rest result between noted error failed
      | error early =>
          dsimp only at failed
          rw [Prod.mk.injEq, Except.error.injEq] at failed
          rcases failed with ⟨rfl, rfl⟩
          exact first uses between early ended

end Passes

/-- In a lenient comparison that is all that matters of the full compilation. -/
theorem Ended.of_passes {allowance : Allowance} {Left Right : Type} (permitted : allowance.lenient)
    {full : CompileM Left} (passes : Passes allowance full) (uses : Uses)
    (quick : Except CompileError Right × Uses) : Ended allowance Whatever (full.after uses) quick := by
  rcases ended : full.after uses with ⟨error | result, noted⟩
  · rcases passes uses noted error ended with ⟨template, inner, rfl, inside⟩
    exact .included inside quick
  · rcases quick with ⟨error | other, fewer⟩
    · exact .refused permitted _ error fewer
    · exact .ok trivial (absurd permitted)

/-- Where the validation has succeeded, the full compilation does not fail by itself. -/
theorem Shadows.passes {allowance : Allowance} {Left Right : Type} {agree : Left → Right → Prop}
    {full : CompileM Left} {quick : CompileM Right} (shadows : Shadows allowance agree full quick)
    (permitted : allowance.lenient) {before after : Uses} {result : Right}
    (succeeded : quick.after before = (.ok result, after)) : Passes allowance full := by
  intro uses noted error failed
  have ended := shadows uses before (absurd permitted)
  rw [failed, succeeded] at ended
  cases ended with
  | included inside ended => exact ⟨_, _, rfl, inside⟩

/-! ## Parts and arguments -/

/-- Two parts that are the same text, or compilations that keep step under every escaping. -/
inductive PendingShadows (allowance : Allowance) : Pending → Pending → Prop where
  | literal (text : String) (span : Span) :
      PendingShadows allowance (.literal text span) (.literal text span)
  | deferred (span : Span) {full quick : Escaping → CompileM Code}
      (shadows : ∀ escaping, Shadows allowance Whatever (full escaping) (quick escaping)) :
      PendingShadows allowance (.deferred span full) (.deferred span quick)

/-- The parts of two lists keep step one by one. -/
abbrev PartsShadow (allowance : Allowance) : List Pending → List Pending → Prop :=
  List.Forall₂ (PendingShadows allowance)

/-- Two arguments at one place whose parts keep step. -/
structure ArgumentShadows (allowance : Allowance) (full quick : PendingArgument) : Prop where
  parts : PartsShadow allowance full.parts quick.parts
  span : full.span = quick.span

/-- Two named arguments of one name. -/
inductive NamedShadows (allowance : Allowance) :
    String × PendingArgument → String × PendingArgument → Prop where
  | mk (name : String) {full quick : PendingArgument} (argument : ArgumentShadows allowance full quick) :
      NamedShadows allowance (name, full) (name, quick)

theorem NamedShadows.related {allowance : Allowance} {full quick : String × PendingArgument}
    (entry : NamedShadows allowance full quick) :
    full.1 = quick.1 ∧ ArgumentShadows allowance full.2 quick.2 := by
  cases entry with
  | mk name argument => exact ⟨rfl, argument⟩

/-- Two branches whose conditions and bodies keep step. -/
structure BranchShadows (allowance : Allowance) (full quick : BranchOf Pending) : Prop where
  condition : ArgumentShadows allowance full.condition quick.condition
  body : PartsShadow allowance full.body quick.body

/-- Two calls of one function whose arguments keep step. -/
inductive CallShadows (allowance : Allowance) : Call → Call → Prop where
  | mk (name : String) {full quick : List PendingArgument}
      (arguments : List.Forall₂ (ArgumentShadows allowance) full quick)
      {fullNamed quickNamed : List (String × PendingArgument)}
      (named : List.Forall₂ (NamedShadows allowance) fullNamed quickNamed) (span : Span) :
      CallShadows allowance ⟨name, full, fullNamed, span⟩ ⟨name, quick, quickNamed, span⟩

section Parts

variable {allowance : Allowance}

theorem PendingShadows.compile {full quick : Pending} (shadows : PendingShadows allowance full quick)
    (escaping : Escaping) :
    Shadows allowance Whatever (full.compile escaping) (quick.compile escaping) := by
  cases shadows with
  | literal text span => exact Shadows.pure trivial
  | deferred span shadows => exact shadows escaping

theorem PartsShadow.compileEach {full quick : List Pending} (shadows : PartsShadow allowance full quick)
    (escaping : Escaping) :
    Shadows allowance Whatever (Compile.compileEach escaping full) (Compile.compileEach escaping quick) := by
  induction shadows with
  | nil => exact Shadows.pure trivial
  | cons part _ rest =>
      exact (part.compile escaping).bind fun _ _ _ => rest.bind fun _ _ _ => Shadows.pure trivial

theorem PartsShadow.compileParts {full quick : List Pending} (shadows : PartsShadow allowance full quick)
    (escaping : Escaping) :
    Shadows allowance Whatever (Compile.compileParts escaping full)
      (Compile.compileParts escaping quick) :=
  (shadows.compileEach escaping).bind fun _ _ _ => Shadows.pure trivial

theorem PartsShadow.literals {full quick : List Pending} (shadows : PartsShadow allowance full quick) :
    full.mapM Pending.literal? = quick.mapM Pending.literal? := by
  induction shadows with
  | nil => rfl
  | cons part _ rest =>
      cases part with
      | literal text span => simp only [List.mapM_cons, Pending.literal?, rest]
      | deferred span shadows => simp only [List.mapM_cons, Pending.literal?, rest]

/-- The tokens differ in the codes of values at most. -/
theorem PartsShadow.expressionTokens {full quick : List Pending}
    (shadows : PartsShadow allowance full quick) :
    Shadows allowance TokensAlike (Compile.expressionTokens full) (Compile.expressionTokens quick) := by
  induction shadows with
  | nil => exact Shadows.pure .nil
  | cons part _ rest =>
      cases part with
      | literal text span =>
          have scanned := Agree.refl (Expression.tokensFrom ⟨span.offset, span.line, span.column⟩ text.toList)
          refine (Shadows.failMalformed scanned).bind ?_
          rintro tokens _ rfl
          exact rest.bind fun _ _ alike =>
            Shadows.pure (List.rel_append (List.forall₂_same.mpr fun token _ => .same token) alike)
      | deferred span shadows =>
          exact (shadows .raw).bind fun code other _ => rest.bind fun _ _ alike =>
            Shadows.pure (.cons (.value code other span) alike)

namespace ArgumentShadows

variable {full quick : PendingArgument} (shadows : ArgumentShadows allowance full quick)

include shadows

theorem compile (escaping : Escaping) :
    Shadows allowance Whatever (full.compile escaping) (quick.compile escaping) :=
  shadows.parts.compileParts escaping

theorem literalText : full.literalText? = quick.literalText? :=
  congrArg (Option.map String.join) shadows.parts.literals

theorem calculation : Shadows allowance Whatever full.calculation quick.calculation := by
  unfold PendingArgument.calculation
  rw [shadows.span]
  exact shadows.parts.expressionTokens.bind fun _ _ alike =>
    Shadows.failMalformed (Expression.parseCalculation_alike _ alike)

theorem condition : Shadows allowance Whatever full.condition quick.condition := by
  unfold PendingArgument.condition
  rw [shadows.span]
  exact shadows.parts.expressionTokens.bind fun _ _ alike =>
    Shadows.failMalformed (Expression.parseCondition_alike _ alike)

end ArgumentShadows

theorem compileNamed_shadows {full quick : List (String × PendingArgument)}
    (shadows : List.Forall₂ (NamedShadows allowance) full quick) :
    Shadows allowance Whatever (compileNamed full) (compileNamed quick) := by
  induction shadows with
  | nil => exact Shadows.pure trivial
  | cons entry _ rest =>
      rcases entry with ⟨name, argument⟩
      exact (argument.compile .raw).bind fun _ _ _ => rest.bind fun _ _ _ => Shadows.pure trivial

theorem compileArguments_shadows {full quick : List PendingArgument}
    (shadows : List.Forall₂ (ArgumentShadows allowance) full quick) :
    Shadows allowance Whatever (compileArguments full) (compileArguments quick) := by
  induction shadows with
  | nil => exact Shadows.pure trivial
  | cons argument _ rest =>
      exact (argument.compile .raw).bind fun _ _ _ => rest.bind fun _ _ _ => Shadows.pure trivial

theorem compileChoice_shadows {full quick : List (BranchOf Pending)}
    (shadows : List.Forall₂ (BranchShadows allowance) full quick)
    {fullOtherwise quickOtherwise : Option (List Pending)}
    (otherwise : Option.Rel (PartsShadow allowance) fullOtherwise quickOtherwise) (escaping : Escaping) :
    Shadows allowance Whatever (compileChoice escaping fullOtherwise full)
      (compileChoice escaping quickOtherwise quick) := by
  induction shadows with
  | nil =>
      cases otherwise with
      | none => exact Shadows.pure trivial
      | some body => exact body.compileParts escaping
  | cons branch _ rest =>
      exact branch.condition.condition.bind fun _ _ _ =>
        (branch.body.compileParts escaping).bind fun _ _ _ =>
          rest.bind fun _ _ _ => Shadows.pure trivial

end Parts

end Compile
end TemplateCascade
