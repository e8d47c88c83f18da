import TemplateCascade.Proofs.Compile.Validation

namespace TemplateCascade
namespace Compile

/-!
# Where errors are

An error inside an included template is wrapped once for every template on the way to it, and its diagnostic
names the innermost of these.  None of them is being compiled at that point, because inclusions do not go in
circles, and all of them have been noted.  So a diagnostic tells whether an error is in the compiled template
itself.
-/

open Expression (Whatever)
open Markup (ParseErrors Segment Template)
open Text (Escaping Span)

/-- An error is in the compiled template itself, or else in one that has been noted and is not among those of
a stack. -/
def LocatedOutside (stack : List String) (noted : Uses) : CompileError → Prop
  | .here _ _ => True
  | .included template error =>
      error.location template ∉ stack ∧ error.location template ∈ noted.includes

/-- A strict comparison that looks at where errors are. -/
def locating (stack : List String) : Allowance :=
  ⟨False, fun template error noted => LocatedOutside stack noted (.included template error)⟩

theorem Uses.Within.union {fewer more : Uses} (within : fewer.Within more) (added : Uses) :
    (fewer.union added).Within (more.union added) := by
  constructor
  · intro name member
    rw [mem_includes_union] at member ⊢
    exact member.imp_left (within.1 name)
  · intro name member
    rw [mem_phrases_union] at member ⊢
    exact member.imp_left (within.2 name)

/-- A compilation compared with itself. -/
theorem Shadows.itself {Result : Type} {stack : List String} {compilation : CompileM Result}
    (adds : Adds compilation)
    (located : ∀ uses noted error, compilation.after uses = (.error error, noted) →
      LocatedOutside stack noted error) :
    Shadows (locating stack) Whatever compilation compilation := by
  intro more fewer within
  have ended := located more
  rw [adds more] at ended ⊢
  rw [adds fewer]
  generalize (compilation.after Uses.none).1 = outcome at ended ⊢
  rcases outcome with (⟨cause, span⟩ | ⟨template, error⟩) | result
  · exact .here span rfl
  · exact .included (ended _ _ rfl) _
  · exact .ok trivial fun strict => (within strict).union _

section Inclusions

variable {environment : Environment} {context : Context} {stack : List String} {uses noted : Uses}
  {error : CompileError}

theorem located_of_compileSegments
    (located : ∀ name span escaping uses noted error,
      (includeTemplate environment Registry.builtIn context stack name span escaping).after uses =
        (.error error, noted) → LocatedOutside stack noted error)
    (escaping : Escaping) (segments : List Segment)
    (failed : (compileSegments Registry.builtIn (fun name => environment.phrase name context.language)
      (includeTemplate environment Registry.builtIn context stack) escaping segments).after uses =
        (.error error, noted)) : LocatedOutside stack noted error := by
  have includes : InclusionShadows (locating stack)
      (includeTemplate environment Registry.builtIn context stack)
      (includeTemplate environment Registry.builtIn context stack) := fun name span inner =>
    Shadows.itself (includeTemplate_follows environment context stack environment name span inner).adds
      (located name span inner)
  have phrases : PhrasesShadow (locating stack) (fun name => environment.phrase name context.language)
      fun name => environment.phrase name context.language :=
    ⟨fun _ => rfl, fun _ _ member => member⟩
  -- Beside itself a compilation can only end alike, so the comparison just carries the location along.
  have ended := (pendingAll_shadow phrases includes segments).compileParts escaping uses uses
    fun _ => Uses.Within.refl uses
  unfold compileSegments at failed
  rw [failed] at ended
  cases ended with
  | here span same => trivial
  | included inside ended => exact inside
  | refused permitted ended other fewer => exact permitted.elim

/-- A wrapper names a template that is not being compiled, and so does everything inside it. -/
theorem LocatedOutside.included {name : String} (located : LocatedOutside (stack ++ [name]) noted error)
    (visited : stack.contains name = false) (isNoted : name ∈ noted.includes) :
    LocatedOutside stack noted (.included name error) := by
  have absent : name ∉ stack := by simpa using visited
  cases error with
  | here cause span => exact ⟨absent, isNoted⟩
  | included template inner =>
      exact ⟨fun member => located.1 (List.mem_append_left _ member), located.2⟩

/-- An inclusion whose name has been noted fails in the template that is found, or over finding none. -/
theorem located_of_includeFound {name : String} {span : Span} {escaping : Escaping}
    {answer : Except ParseErrors (Option Template)} (visited : stack.contains name = false)
    (isNoted : name ∈ uses.includes)
    (inside : ∀ template, answer = .ok (some template) → ∀ noted error,
      (compileSegments Registry.builtIn (fun phrase => environment.phrase phrase context.language)
        (includeTemplate environment Registry.builtIn context (stack ++ [name])) escaping
        template.segments).after uses = (.error error, noted) →
      LocatedOutside (stack ++ [name]) noted error)
    (failed : (includeFound environment Registry.builtIn context stack name span escaping answer).after uses =
      (.error error, noted)) : LocatedOutside stack noted error := by
  rcases answer with errors | (_ | template)
  · rw [includeFound] at failed
    split at failed
    · cases failed
      exact LocatedOutside.included trivial visited isNoted
    · cases failed
  · cases failed
    trivial
  · rw [includeFound] at failed
    split at failed
    · have grows : uses.Within ((compileSegments Registry.builtIn
          (fun phrase => environment.phrase phrase context.language)
          (includeTemplate environment Registry.builtIn context (stack ++ [name])) escaping
          template.segments).after uses).2 :=
        (compileSegments_follows (includeTemplate_follows environment context (stack ++ [name])
          environment) escaping template.segments).grows uses
      have inner := inside template rfl
      rw [CompileM.after_adapt] at failed
      generalize CompileM.after (compileSegments _ _ _ _ _) uses = ended at failed inner grows
      rcases ended with ⟨innerError | code, last⟩
      · cases failed
        exact (inner _ _ rfl).included visited (grows.1 name isNoted)
      · cases failed
    · cases failed

theorem located_of_includeTemplate (environment : Environment) (context : Context) (stack : List String) :
    ∀ name span escaping uses noted error,
      (includeTemplate environment Registry.builtIn context stack name span escaping).after uses =
        (.error error, noted) → LocatedOutside stack noted error := by
  induction stack using stack_induction environment context.style with
  | step stack inductionHypothesis =>
      intro name span escaping uses noted error failed
      rw [includeTemplate_eq] at failed
      split at failed
      · cases failed
        trivial
      · next visited =>
          rw [Bool.not_eq_true] at visited
          have entered : CompileM.after (noteInclude name) uses =
              (.ok (), { uses with includes := uses.includes.insert name }) := rfl
          rw [CompileM.after_bind, entered] at failed
          refine located_of_includeFound visited Std.ExtTreeSet.mem_insert_self ?_ failed
          intro template answer last inner ended
          exact located_of_compileSegments (inductionHypothesis name template answer visited) escaping
            template.segments ended

end Inclusions

/-- The diagnostic of an error names the compiled template if the error is not wrapped, and otherwise one of
the other templates that were asked for. -/
theorem template_diagnostic {environment : Environment} {context : Context} {name : String}
    {template : Template} {failure : CompileFailure}
    (failed : compileTemplate environment Registry.builtIn context name template = .error failure) :
    ((failure.error.diagnostic name).template = name ∧ ¬ failure.error.IsIncluded) ∨
      ((failure.error.diagnostic name).template ≠ name ∧
        (failure.error.diagnostic name).template ∈ failure.uses.includes) := by
  have located := located_of_compileSegments (located_of_includeTemplate environment context [name]) .html
    template.segments (after_of_failed failed)
  rcases failure with ⟨⟨cause, span⟩ | ⟨inner, error⟩, uses⟩
  · exact .inl ⟨rfl, id⟩
  · exact .inr ⟨fun same => located.1 (List.mem_singleton.mpr same), located.2⟩

end Compile
end TemplateCascade
