import Mathlib
import TemplateCascade.Proofs.Compile.Noninterference
import TemplateCascade.Proofs.Markup.Nesting

namespace TemplateCascade
namespace Compile

/-!
# The graph of inclusions

The templates that can be reached from some segments are those they mention at whatever place, and those
that can be reached from these.  Where all of them are there and none leads back to itself or to a
template that is being compiled, no inclusion is refused, so what an inclusion compiles to does not depend
on the templates around it.
-/

open Markup (ArgumentOf BranchOf Segment Template Throughout nested nestedAll nestedArgument
  nestedArguments nestedBranches nestedNamed nestedOtherwise)
open Text (Escaping Span)

/-- Some segments mention a template. -/
def Mentions (segments : List Segment) (name : String) : Prop :=
  ∃ span, Segment.inclusion name span ∈ nestedAll .whole segments

/-- A template can be reached from some segments at a style. -/
inductive Reaches (environment : Environment) (style : Position) : List Segment → String → Prop where
  | mentioned {segments : List Segment} {name : String} (mentions : Mentions segments name) :
      Reaches environment style segments name
  | included {segments : List Segment} {name other : String} {template : Template}
      (mentions : Mentions segments name)
      (found : environment.template name style = .ok (some template))
      (reaches : Reaches environment style template.segments other) :
      Reaches environment style segments other

/--
Every template that can be reached is there and parses, none leads back to itself, and none is among those
that are being compiled.
-/
structure Grounded (environment : Environment) (style : Position) (stack : List String)
    (segments : List Segment) : Prop where
  resolves : ∀ name, Reaches environment style segments name →
    ∃ template, environment.template name style = .ok (some template)
  acyclic : ∀ name template, Reaches environment style segments name →
    environment.template name style = .ok (some template) →
      ¬ Reaches environment style template.segments name
  fresh : ∀ name ∈ stack, ¬ Reaches environment style segments name

section Graph

variable {environment : Environment} {style : Position} {stack : List String}
  {segments : List Segment}

theorem Reaches.of_mentions {inner : List Segment} {name : String}
    (reaches : Reaches environment style inner name)
    (sub : ∀ other, Mentions inner other → Mentions segments other) :
    Reaches environment style segments name := by
  cases reaches with
  | mentioned mentions => exact .mentioned (sub name mentions)
  | included mentions found reaches => exact .included (sub _ mentions) found reaches

namespace Grounded

/-- What is grounded has grounded parts. -/
theorem of_mentions (grounded : Grounded environment style stack segments) {inner : List Segment}
    (sub : ∀ other, Mentions inner other → Mentions segments other) :
    Grounded environment style stack inner where
  resolves := fun name reaches => grounded.resolves name (reaches.of_mentions sub)
  acyclic := fun name template reaches => grounded.acyclic name template (reaches.of_mentions sub)
  fresh := fun name member reaches => grounded.fresh name member (reaches.of_mentions sub)

/-- A template that is mentioned is there, is not being compiled, and is grounded itself. -/
theorem included (grounded : Grounded environment style stack segments) {name : String}
    (mentions : Mentions segments name) :
    ∃ template, environment.template name style = .ok (some template) ∧
      stack.contains name = false ∧
      Grounded environment style (stack ++ [name]) template.segments := by
  rcases grounded.resolves name (.mentioned mentions) with ⟨template, found⟩
  have through : ∀ other, Reaches environment style template.segments other →
      Reaches environment style segments other := fun other => Reaches.included mentions found
  refine ⟨template, found, ?_, ?_, ?_, ?_⟩
  · rw [← Bool.not_eq_true, List.contains_iff_mem]
    exact fun member => grounded.fresh name member (.mentioned mentions)
  · exact fun other reaches => grounded.resolves other (through other reaches)
  · exact fun other inner reaches => grounded.acyclic other inner (through other reaches)
  · intro other member reaches
    rcases List.mem_append.mp member with inStack | isName
    · exact grounded.fresh other inStack (through other reaches)
    · rw [List.mem_singleton] at isName
      subst isName
      exact grounded.acyclic other template (.mentioned mentions) found reaches

theorem of_append {front behind : List String}
    (grounded : Grounded environment style (front ++ behind) segments) :
    Grounded environment style front segments :=
  ⟨grounded.resolves, grounded.acyclic,
    fun name member => grounded.fresh name (List.mem_append_left behind member)⟩

end Grounded

end Graph

/-! ## What an inclusion compiles to -/

section Congruence

variable {registry : Registry} {phrases : Phrases} {first second : Inclusion}

/-- Two inclusions are the same for every template that some segments mention. -/
abbrev SameFor (first second : Inclusion) : List Segment → Prop :=
  Throughout fun segment => ∀ name span, segment = .inclusion name span → first name = second name

mutual

/-- Only the templates that a segment mentions count for what it compiles to. -/
theorem pending_congr : ∀ segment : Segment, SameFor first second (nested .whole segment) →
    pending registry phrases first segment = pending registry phrases second segment
  | .literal _ _, _ => rfl
  | .reference _ _, _ => rfl
  | .call name arguments named span, same => by
      simp only [pending, pendingArguments_congr arguments same.tail.left,
        pendingNamed_congr named same.tail.right]
  | .choice branches otherwise span, same => by
      simp only [pending, pendingBranches_congr branches same.tail.left,
        pendingOtherwise_congr otherwise same.tail.right]
  | .loop source value key body span, same => by
      simp only [pending, pendingArgument_congr source same.tail.left,
        pendingAll_congr body same.tail.right]
  | .inclusion name span, same => by
      rw [pending, pending, same.head name span rfl]

theorem pendingAll_congr : ∀ segments : List Segment, SameFor first second (nestedAll .whole segments) →
    pendingAll registry phrases first segments = pendingAll registry phrases second segments
  | [], _ => rfl
  | segment :: rest, same => by
      rw [pendingAll, pendingAll, pending_congr segment same.left, pendingAll_congr rest same.right]

theorem pendingArgument_congr : ∀ argument : ArgumentOf Segment,
    SameFor first second (nestedArgument .whole argument) →
      pendingArgument registry phrases first argument = pendingArgument registry phrases second argument
  | ⟨parts, _, _⟩, same => by
      rw [pendingArgument, pendingArgument, pendingAll_congr parts same]

theorem pendingArguments_congr : ∀ arguments : List (ArgumentOf Segment),
    SameFor first second (nestedArguments .whole arguments) →
      pendingArguments registry phrases first arguments =
        pendingArguments registry phrases second arguments
  | [], _ => rfl
  | argument :: rest, same => by
      rw [pendingArguments, pendingArguments, pendingArgument_congr argument same.left,
        pendingArguments_congr rest same.right]

theorem pendingNamed_congr : ∀ named : List (String × ArgumentOf Segment),
    SameFor first second (nestedNamed .whole named) →
      pendingNamed registry phrases first named = pendingNamed registry phrases second named
  | [], _ => rfl
  | (_, argument) :: rest, same => by
      rw [pendingNamed, pendingNamed, pendingArgument_congr argument same.left,
        pendingNamed_congr rest same.right]

theorem pendingBranches_congr : ∀ branches : List (BranchOf Segment),
    SameFor first second (nestedBranches .whole branches) →
      pendingBranches registry phrases first branches = pendingBranches registry phrases second branches
  | [], _ => rfl
  | ⟨condition, body, _⟩ :: rest, same => by
      rw [pendingBranches, pendingBranches, pendingArgument_congr condition same.left,
        pendingAll_congr body same.right.left, pendingBranches_congr rest same.right.right]

theorem pendingOtherwise_congr : ∀ otherwise : Option (List Segment),
    SameFor first second (nestedOtherwise .whole otherwise) →
      pendingOtherwise registry phrases first otherwise =
        pendingOtherwise registry phrases second otherwise
  | none, _ => rfl
  | some body, same => by
      rw [pendingOtherwise, pendingOtherwise, pendingAll_congr body same]

end

end Congruence

/-- What an inclusion compiles to does not depend on what is being compiled around it. -/
theorem includeTemplate_congr (environment : Environment) (registry : Registry) (context : Context)
    {stack other : List String} {segments : List Segment} {name : String}
    (first : Grounded environment context.style stack segments)
    (second : Grounded environment context.style other segments) (mentions : Mentions segments name) :
    includeTemplate environment registry context stack name =
      includeTemplate environment registry context other name := by
  induction stack using stack_induction environment context.style generalizing other segments name with
  | step stack inductionHypothesis =>
      rcases first.included mentions with ⟨template, found, freshFirst, innerFirst⟩
      rcases second.included mentions with ⟨_, again, freshSecond, innerSecond⟩
      rw [found, Except.ok.injEq, Option.some.injEq] at again
      subst again
      funext span escaping
      rw [includeTemplate_eq, includeTemplate_eq, freshFirst, freshSecond, found]
      have sameInside : SameFor (includeTemplate environment registry context (stack ++ [name]))
          (includeTemplate environment registry context (other ++ [name]))
          (nestedAll .whole template.segments) := by
        rintro segment member inner innerSpan rfl
        exact inductionHypothesis name template found freshFirst innerFirst innerSecond ⟨innerSpan, member⟩
      simp only [Bool.false_eq_true, if_false, includeFound, compileSegments,
        pendingAll_congr template.segments sameInside]

end Compile
end TemplateCascade
