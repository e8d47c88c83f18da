import Mathlib
import TemplateCascade.Compile.Template

namespace TemplateCascade
namespace Compile

/-!
# Compilations that follow each other

Two environments are compared through the names that a compilation notes.  `Follows` relates a
compilation under the first environment to one under the second: as long as the environments agree on
what the first one has noted by its end, the second one has the same result and the same notes.

The relation is kept by sequencing, because notes are never taken back: what is noted early is still
among the notes at the end.  It is carried over from the parts of an argument to the argument, and from
conditions and bodies to a choice.
-/

open Markup (ArgumentOf BranchOf ParseErrors Segment Template)
open Text (Escaping Span)

namespace Uses

/-- Whether all names of one record are in another. -/
def Within (fewer more : Uses) : Prop :=
  (∀ name ∈ fewer.includes, name ∈ more.includes) ∧ ∀ name ∈ fewer.phrases, name ∈ more.phrases

theorem Within.refl (uses : Uses) : uses.Within uses :=
  ⟨fun _ member => member, fun _ member => member⟩

theorem Within.trans {first second third : Uses} (left : first.Within second)
    (right : second.Within third) : first.Within third :=
  ⟨fun name member => right.1 name (left.1 name member),
    fun name member => right.2 name (left.2 name member)⟩

end Uses

/-- The names that a finished compilation has noted, whether it failed or not. -/
def usesOf : Except CompileFailure Compiled → Uses
  | .ok compiled => compiled.uses
  | .error failure => failure.uses

/-- Two environments, and the style and the language that they are asked for. -/
structure Comparison where
  first : Environment
  second : Environment
  style : Position
  language : Position

namespace Comparison

/-- Both environments answer alike for every name of a record. -/
def Agree (comparison : Comparison) (uses : Uses) : Prop :=
  (∀ name ∈ uses.includes, comparison.first.template name comparison.style =
    comparison.second.template name comparison.style) ∧
  ∀ name ∈ uses.phrases, comparison.first.phrase name comparison.language =
    comparison.second.phrase name comparison.language

theorem Agree.of_within {comparison : Comparison} {fewer more : Uses}
    (agree : comparison.Agree more) (within : fewer.Within more) : comparison.Agree fewer :=
  ⟨fun name member => agree.1 name (within.1 name member),
    fun name member => agree.2 name (within.2 name member)⟩

/-- The phrases of the first environment at the language. -/
def firstPhrases (comparison : Comparison) : Phrases :=
  fun name => comparison.first.phrase name comparison.language

/-- The phrases of the second environment at the language. -/
def secondPhrases (comparison : Comparison) : Phrases :=
  fun name => comparison.second.phrase name comparison.language

end Comparison

/-- What comes of a compilation that starts with some names noted, and the names noted at its end. -/
def CompileM.after {Result : Type} (compilation : CompileM Result) (uses : Uses) :
    Except CompileError Result × Uses :=
  compilation.run.run uses

/-- Sequencing hands the notes of a compilation on to the next one, unless it fails. -/
theorem CompileM.after_bind {Result Other : Type} (compilation : CompileM Result)
    (next : Result → CompileM Other) (uses : Uses) :
    CompileM.after (compilation >>= next) uses =
      match compilation.after uses with
      | (.ok result, noted) => (next result).after noted
      | (.error error, noted) => (.error error, noted) := by
  unfold CompileM.after ExceptT.run StateT.run
  simp only [bind, ExceptT.bind, ExceptT.mk, StateT.bind]
  cases compilation uses with
  | mk outcome noted => cases outcome <;> rfl

/-- A sequence that succeeds has two parts that succeed. -/
theorem CompileM.exists_of_after_bind {Result Other : Type} {compilation : CompileM Result}
    {next : Result → CompileM Other} {uses noted : Uses} {result : Other}
    (succeeded : CompileM.after (compilation >>= next) uses = (.ok result, noted)) :
    ∃ first between, compilation.after uses = (.ok first, between) ∧
      (next first).after between = (.ok result, noted) := by
  rw [CompileM.after_bind] at succeeded
  rcases ran : compilation.after uses with ⟨error | first, between⟩
  · rw [ran] at succeeded
    cases succeeded
  · rw [ran] at succeeded
    exact ⟨first, between, rfl, succeeded⟩

/-- An adapted error is all that is different. -/
theorem CompileM.after_adapt {Result : Type} (wrap : CompileError → CompileError)
    (compilation : CompileM Result) (uses : Uses) :
    CompileM.after (ExceptT.adapt wrap compilation) uses =
      ((compilation.after uses).1.mapError wrap, (compilation.after uses).2) := rfl

/-! ## Compilations that only add notes -/

namespace Uses

theorem ext_mem {first second : Uses}
    (includes : ∀ name, name ∈ first.includes ↔ name ∈ second.includes)
    (phrases : ∀ name, name ∈ first.phrases ↔ name ∈ second.phrases) : first = second := by
  cases first
  cases second
  simp only [mk.injEq]
  exact ⟨Std.ExtTreeSet.ext_mem fun name => includes name,
    Std.ExtTreeSet.ext_mem fun name => phrases name⟩

@[simp]
theorem mem_includes_union {name : String} {left right : Uses} :
    name ∈ (left.union right).includes ↔ name ∈ left.includes ∨ name ∈ right.includes :=
  Std.ExtTreeSet.mem_union_iff

@[simp]
theorem mem_phrases_union {name : String} {left right : Uses} :
    name ∈ (left.union right).phrases ↔ name ∈ left.phrases ∨ name ∈ right.phrases :=
  Std.ExtTreeSet.mem_union_iff

theorem union_assoc (first second third : Uses) :
    (first.union second).union third = first.union (second.union third) := by
  apply ext_mem
  · intro name
    simp only [mem_includes_union, or_assoc]
  · intro name
    simp only [mem_phrases_union, or_assoc]

theorem not_mem_includes_none {name : String} : name ∉ none.includes :=
  Std.ExtTreeSet.not_mem_empty

theorem not_mem_phrases_none {name : String} : name ∉ none.phrases :=
  Std.ExtTreeSet.not_mem_empty

@[simp]
theorem union_none (uses : Uses) : uses.union none = uses := by
  apply ext_mem
  · intro name
    rw [mem_includes_union, or_iff_left not_mem_includes_none]
  · intro name
    rw [mem_phrases_union, or_iff_left not_mem_phrases_none]

theorem within_union (left right : Uses) : left.Within (left.union right) :=
  ⟨fun _ member => mem_includes_union.mpr (Or.inl member),
    fun _ member => mem_phrases_union.mpr (Or.inl member)⟩

end Uses

/-- What comes of a compilation does not depend on what is noted before, and what it notes is added. -/
def Adds {Result : Type} (compilation : CompileM Result) : Prop :=
  ∀ uses : Uses, compilation.after uses =
    ((compilation.after Uses.none).1, uses.union (compilation.after Uses.none).2)

namespace Adds

variable {Result Other : Type}

theorem pure (result : Result) : Adds (Pure.pure result : CompileM Result) := by
  intro uses
  change (Except.ok result, uses) = (Except.ok result, uses.union Uses.none)
  rw [Uses.union_none]

theorem throw (error : CompileError) : Adds (MonadExcept.throw error : CompileM Result) := by
  intro uses
  change (Except.error error, uses) = (Except.error error, uses.union Uses.none)
  rw [Uses.union_none]

theorem bind {compilation : CompileM Result} {next : Result → CompileM Other}
    (first : Adds compilation) (second : ∀ result, Adds (next result)) : Adds (compilation >>= next) := by
  intro uses
  rw [CompileM.after_bind, CompileM.after_bind, first uses]
  cases ran : compilation.after Uses.none with
  | mk outcome noted =>
      cases outcome with
      | error error => rfl
      | ok result =>
          dsimp only
          rw [second result (uses.union noted), second result noted, Uses.union_assoc]

theorem adapt {compilation : CompileM Result} (adds : Adds compilation)
    (wrap : CompileError → CompileError) : Adds (ExceptT.adapt wrap compilation) := by
  intro uses
  rw [CompileM.after_adapt, CompileM.after_adapt, adds uses]

theorem noteInclude (name : String) : Adds (Compile.noteInclude name) := by
  intro uses
  refine Prod.ext rfl (Uses.ext_mem (fun other => ?_) fun other => ?_)
  · change other ∈ uses.includes.insert name ↔ _
    rw [Uses.mem_includes_union, Std.ExtTreeSet.mem_insert, or_comm]
    change _ ↔ _ ∨ other ∈ (∅ : Std.ExtTreeSet String).insert name
    rw [Std.ExtTreeSet.mem_insert, or_iff_left Std.ExtTreeSet.not_mem_empty]
  · change other ∈ uses.phrases ↔ other ∈ (uses.union Uses.none).phrases
    rw [Uses.union_none]

theorem notePhrase (name : String) : Adds (Compile.notePhrase name) := by
  intro uses
  refine Prod.ext rfl (Uses.ext_mem (fun other => ?_) fun other => ?_)
  · change other ∈ uses.includes ↔ other ∈ (uses.union Uses.none).includes
    rw [Uses.union_none]
  · change other ∈ uses.phrases.insert name ↔ _
    rw [Uses.mem_phrases_union, Std.ExtTreeSet.mem_insert, or_comm]
    change _ ↔ _ ∨ other ∈ (∅ : Std.ExtTreeSet String).insert name
    rw [Std.ExtTreeSet.mem_insert, or_iff_left Std.ExtTreeSet.not_mem_empty]

/-- No note is taken back. -/
theorem grows {compilation : CompileM Result} (adds : Adds compilation) (uses : Uses) :
    uses.Within (compilation.after uses).2 := by
  rw [adds uses]
  exact Uses.within_union uses _

end Adds

/-! ## Following -/

/--
The second compilation does what the first one does, as long as the environments agree on what the first
one has noted by its end.  The first one takes no note back.
-/
structure Follows (comparison : Comparison) {Result : Type} (first second : CompileM Result) :
    Prop where
  adds : Adds first
  same : ∀ uses : Uses, comparison.Agree (first.after uses).2 →
    second.after uses = first.after uses

namespace Follows

variable {comparison : Comparison} {Result Other : Type}

theorem grows {first second : CompileM Result} (follows : Follows comparison first second)
    (uses : Uses) : uses.Within (first.after uses).2 :=
  follows.adds.grows uses

/-- A compilation that asks the environments for nothing follows itself. -/
theorem of_adds {compilation : CompileM Result} (adds : Adds compilation) :
    Follows comparison compilation compilation :=
  ⟨adds, fun _ _ => rfl⟩

theorem pure (result : Result) :
    Follows comparison (Pure.pure result : CompileM Result) (Pure.pure result) :=
  of_adds (Adds.pure result)

theorem throw (error : CompileError) :
    Follows comparison (MonadExcept.throw error : CompileM Result) (MonadExcept.throw error) :=
  of_adds (Adds.throw error)

theorem failAt (cause : Cause) (span : Span) :
    Follows comparison (Compile.failAt cause span : CompileM Result) (Compile.failAt cause span) :=
  throw _

theorem failMalformed (result : Except Expression.Malformed Result) :
    Follows comparison (Compile.failMalformed result) (Compile.failMalformed result) := by
  cases result with
  | ok result => exact pure result
  | error malformed => exact failAt _ _

/-- What is noted before the last step is among the notes at the end, so the second compilation has gone
the same way up to there. -/
theorem bind {first second : CompileM Result} {firstNext secondNext : Result → CompileM Other}
    (start : Follows comparison first second)
    (next : ∀ result, Follows comparison (firstNext result) (secondNext result)) :
    Follows comparison (first >>= firstNext) (second >>= secondNext) := by
  refine ⟨start.adds.bind fun result => (next result).adds, fun uses agree => ?_⟩
  rw [CompileM.after_bind] at agree ⊢
  rw [CompileM.after_bind]
  have same := start.same uses
  cases ran : first.after uses with
  | mk outcome noted =>
      rw [ran] at agree same
      cases outcome with
      | ok result =>
          rw [same (agree.of_within ((next result).grows noted))]
          exact (next result).same noted agree
      | error error => rw [same agree]

/-- An included template's errors are wrapped alike on both sides. -/
theorem adapt {first second : CompileM Result} (start : Follows comparison first second)
    (wrap : CompileError → CompileError) :
    Follows comparison (ExceptT.adapt wrap first) (ExceptT.adapt wrap second) := by
  refine ⟨start.adds.adapt wrap, fun uses agree => ?_⟩
  rw [CompileM.after_adapt] at agree ⊢
  rw [CompileM.after_adapt, start.same uses agree]

/-- Once the name of a template is noted, both environments have the same template under it. -/
theorem noteInclude {name : String} {first second : CompileM Result} (adds : Adds first)
    (next : comparison.first.template name comparison.style =
      comparison.second.template name comparison.style → Follows comparison first second) :
    Follows comparison (do Compile.noteInclude name; first) (do Compile.noteInclude name; second) := by
  have noted : ∀ uses : Uses, CompileM.after (Compile.noteInclude name) uses =
      (.ok (), { uses with includes := uses.includes.insert name }) := fun _ => rfl
  refine ⟨(Adds.noteInclude name).bind fun _ => adds, fun uses agree => ?_⟩
  rw [CompileM.after_bind, noted] at agree ⊢
  rw [CompileM.after_bind, noted]
  have listed : name ∈ (first.after { uses with includes := uses.includes.insert name }).2.includes :=
    (adds.grows _).1 name Std.ExtTreeSet.mem_insert_self
  exact (next (agree.1 name listed)).same _ agree

/-- Once the name of a phrase is noted, both environments have the same text under it. -/
theorem notePhrase {name : String} {first second : CompileM Result} (adds : Adds first)
    (next : comparison.firstPhrases name = comparison.secondPhrases name →
      Follows comparison first second) :
    Follows comparison (do Compile.notePhrase name; first) (do Compile.notePhrase name; second) := by
  have noted : ∀ uses : Uses, CompileM.after (Compile.notePhrase name) uses =
      (.ok (), { uses with phrases := uses.phrases.insert name }) := fun _ => rfl
  refine ⟨(Adds.notePhrase name).bind fun _ => adds, fun uses agree => ?_⟩
  rw [CompileM.after_bind, noted] at agree ⊢
  rw [CompileM.after_bind, noted]
  have listed : name ∈ (first.after { uses with phrases := uses.phrases.insert name }).2.phrases :=
    (adds.grows _).2 name Std.ExtTreeSet.mem_insert_self
  exact (next (agree.2 name listed)).same _ agree

end Follows

/-! ## Parts and arguments -/

/-- Two parts that are the same text, or compilations that follow each other under every escaping. -/
inductive PendingFollows (comparison : Comparison) : Pending → Pending → Prop where
  | literal (text : String) (span : Span) :
      PendingFollows comparison (.literal text span) (.literal text span)
  | deferred (span : Span) {first second : Escaping → CompileM Code}
      (follows : ∀ escaping, Follows comparison (first escaping) (second escaping)) :
      PendingFollows comparison (.deferred span first) (.deferred span second)

/-- The parts of two lists follow each other one by one. -/
abbrev PartsFollow (comparison : Comparison) : List Pending → List Pending → Prop :=
  List.Forall₂ (PendingFollows comparison)

/-- Two arguments at one place whose parts follow each other. -/
structure ArgumentFollows (comparison : Comparison) (first second : PendingArgument) : Prop where
  parts : PartsFollow comparison first.parts second.parts
  span : first.span = second.span

/-- Two named arguments of one name. -/
inductive NamedFollows (comparison : Comparison) :
    String × PendingArgument → String × PendingArgument → Prop where
  | mk (name : String) {first second : PendingArgument}
      (argument : ArgumentFollows comparison first second) :
      NamedFollows comparison (name, first) (name, second)

theorem NamedFollows.related {comparison : Comparison} {one other : String × PendingArgument}
    (entry : NamedFollows comparison one other) :
    one.1 = other.1 ∧ ArgumentFollows comparison one.2 other.2 := by
  cases entry with
  | mk name argument => exact ⟨rfl, argument⟩

/-- Two branches whose conditions and bodies follow each other. -/
structure BranchFollows (comparison : Comparison) (first second : BranchOf Pending) : Prop where
  condition : ArgumentFollows comparison first.condition second.condition
  body : PartsFollow comparison first.body second.body

/-- Two calls of one function with arguments that follow each other. -/
structure CallFollows (comparison : Comparison) (first second : Call) : Prop where
  name : first.name = second.name
  arguments : List.Forall₂ (ArgumentFollows comparison) first.arguments second.arguments
  named : List.Forall₂ (NamedFollows comparison) first.named second.named
  span : first.span = second.span

section Parts

variable {comparison : Comparison}

theorem PendingFollows.compile {first second : Pending}
    (follows : PendingFollows comparison first second) (escaping : Escaping) :
    Follows comparison (first.compile escaping) (second.compile escaping) := by
  cases follows with
  | literal text span => exact Follows.pure _
  | deferred span follows => exact follows escaping

theorem PartsFollow.compileEach {first second : List Pending}
    (follows : PartsFollow comparison first second) (escaping : Escaping) :
    Follows comparison (Compile.compileEach escaping first) (Compile.compileEach escaping second) := by
  induction follows with
  | nil => exact Follows.pure _
  | cons part _ rest =>
      exact (part.compile escaping).bind fun _ => rest.bind fun _ => Follows.pure _

theorem PartsFollow.compileParts {first second : List Pending}
    (follows : PartsFollow comparison first second) (escaping : Escaping) :
    Follows comparison (Compile.compileParts escaping first) (Compile.compileParts escaping second) :=
  (follows.compileEach escaping).bind fun _ => Follows.pure _

/-- Related parts are literal text at the same places, with the same text. -/
theorem PartsFollow.literals {first second : List Pending}
    (follows : PartsFollow comparison first second) :
    first.mapM Pending.literal? = second.mapM Pending.literal? := by
  induction follows with
  | nil => rfl
  | cons part _ rest =>
      cases part with
      | literal text span => simp only [List.mapM_cons, Pending.literal?, rest]
      | deferred span follows => simp only [List.mapM_cons, Pending.literal?, rest]

theorem PartsFollow.expressionTokens {first second : List Pending}
    (follows : PartsFollow comparison first second) :
    Follows comparison (Compile.expressionTokens first) (Compile.expressionTokens second) := by
  induction follows with
  | nil => exact Follows.pure _
  | cons part _ rest =>
      cases part with
      | literal text span =>
          exact (Follows.failMalformed _).bind fun _ => rest.bind fun _ => Follows.pure _
      | deferred span follows =>
          exact (follows .raw).bind fun _ => rest.bind fun _ => Follows.pure _

namespace ArgumentFollows

theorem compile {first second : PendingArgument}
    (follows : ArgumentFollows comparison first second) (escaping : Escaping) :
    Follows comparison (first.compile escaping) (second.compile escaping) :=
  follows.parts.compileParts escaping

theorem literalText {first second : PendingArgument}
    (follows : ArgumentFollows comparison first second) :
    first.literalText? = second.literalText? :=
  congrArg (Option.map String.join) follows.parts.literals

theorem calculation {first second : PendingArgument}
    (follows : ArgumentFollows comparison first second) :
    Follows comparison first.calculation second.calculation := by
  unfold PendingArgument.calculation
  rw [follows.span]
  exact follows.parts.expressionTokens.bind fun _ => Follows.failMalformed _

theorem condition {first second : PendingArgument}
    (follows : ArgumentFollows comparison first second) :
    Follows comparison first.condition second.condition := by
  unfold PendingArgument.condition
  rw [follows.span]
  exact follows.parts.expressionTokens.bind fun _ => Follows.failMalformed _

end ArgumentFollows

theorem compileNamed_follows {first second : List (String × PendingArgument)}
    (follows : List.Forall₂ (NamedFollows comparison) first second) :
    Follows comparison (compileNamed first) (compileNamed second) := by
  induction follows with
  | nil => exact Follows.pure _
  | cons entry _ rest =>
      rcases entry with ⟨name, argument⟩
      exact (argument.compile .raw).bind fun _ => rest.bind fun _ => Follows.pure _

theorem compileArguments_follows {first second : List PendingArgument}
    (follows : List.Forall₂ (ArgumentFollows comparison) first second) :
    Follows comparison (compileArguments first) (compileArguments second) := by
  induction follows with
  | nil => exact Follows.pure _
  | cons argument _ rest =>
      exact (argument.compile .raw).bind fun _ => rest.bind fun _ => Follows.pure _

/-- Both sides of a choice test the conditions in the same order. -/
theorem compileChoice_follows {first second : List (BranchOf Pending)}
    (follows : List.Forall₂ (BranchFollows comparison) first second)
    {firstOtherwise secondOtherwise : Option (List Pending)}
    (otherwise : Option.Rel (PartsFollow comparison) firstOtherwise secondOtherwise)
    (escaping : Escaping) :
    Follows comparison (compileChoice escaping firstOtherwise first)
      (compileChoice escaping secondOtherwise second) := by
  induction follows with
  | nil =>
      cases otherwise with
      | none => exact Follows.pure _
      | some body => exact body.compileParts escaping
  | cons branch _ rest =>
      exact branch.condition.condition.bind fun _ =>
        (branch.body.compileParts escaping).bind fun _ =>
          rest.bind fun _ => Follows.pure _

end Parts

end Compile
end TemplateCascade
