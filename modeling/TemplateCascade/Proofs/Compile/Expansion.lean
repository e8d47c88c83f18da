import Mathlib
import TemplateCascade.Compile.Template

namespace TemplateCascade
namespace Compile

/-!
# Expanded trees

The expanded tree of a template has, in place of every inclusion in its bodies, the segments of the
included template, expanded themselves.  No inclusion is left in its bodies.

Templates nest as they do in a compilation: one that is being expanded already is not entered again, so
the expansion ends.
-/

open Markup (BranchOf Segment Template bodyInclusions branchInclusions otherwiseInclusions)

mutual

/-- A segment with every inclusion in its bodies replaced. -/
def expandSegment (expansion : String → List Segment) : Segment → List Segment
  | .literal text span => [.literal text span]
  | .reference path span => [.reference path span]
  | .call name arguments named span => [.call name arguments named span]
  | .choice branches otherwise span =>
      [.choice (expandBranches expansion branches) (expandOtherwise expansion otherwise) span]
  | .loop source value key body span => [.loop source value key (expandAll expansion body) span]
  | .inclusion name _ => expansion name

def expandAll (expansion : String → List Segment) : List Segment → List Segment
  | [] => []
  | segment :: rest => expandSegment expansion segment ++ expandAll expansion rest

def expandBranches (expansion : String → List Segment) : List (BranchOf Segment) → List (BranchOf Segment)
  | [] => []
  | ⟨condition, body, span⟩ :: rest =>
      ⟨condition, expandAll expansion body, span⟩ :: expandBranches expansion rest

def expandOtherwise (expansion : String → List Segment) : Option (List Segment) → Option (List Segment)
  | none => none
  | some body => some (expandAll expansion body)

end

/--
The segments that an inclusion stands for while the templates of `stack` are being expanded: those of the
included template, expanded.  A template that cannot be included stands for nothing.
-/
def expansionOf (environment : Environment) (style : Position) (stack : List String) (name : String) :
    List Segment :=
  if visited : stack.contains name then []
  else
    match found : environment.template name style with
    | .ok (some template) =>
        have known : name ∈ environment.names :=
          environment.mem_names name style (by simp [found])
        have := length_unvisited_lt known (Bool.eq_false_iff.mpr visited)
        expandAll (expansionOf environment style (stack ++ [name])) template.segments
    | _ => []
termination_by (unvisited environment.names stack).length

/-- The expanded tree of a template. -/
def expanded (environment : Environment) (style : Position) (name : String) (template : Template) :
    Template :=
  ⟨expandAll (expansionOf environment style [name]) template.segments⟩

theorem expansionOf_eq {environment : Environment} {style : Position} {stack : List String}
    {name : String} {template : Template} (fresh : stack.contains name = false)
    (found : environment.template name style = .ok (some template)) :
    expansionOf environment style stack name =
      expandAll (expansionOf environment style (stack ++ [name])) template.segments := by
  rw [expansionOf, dif_neg (Bool.eq_false_iff.mp fresh)]
  split
  · next other again =>
      rw [found, Except.ok.injEq, Option.some.injEq] at again
      rw [again]
  · next missing => exact absurd found (missing template)

/-! ## No inclusion is left -/

theorem bodyInclusions_append (front behind : List Segment) :
    bodyInclusions (front ++ behind) = bodyInclusions front ++ bodyInclusions behind := by
  induction front with
  | nil => rfl
  | cons segment rest inductionHypothesis =>
      rw [List.cons_append, bodyInclusions, bodyInclusions, inductionHypothesis, List.append_assoc]

mutual

theorem bodyInclusions_expandSegment {expansion : String → List Segment}
    (noneLeft : ∀ name, bodyInclusions (expansion name) = []) :
    ∀ segment : Segment, bodyInclusions (expandSegment expansion segment) = []
  | .literal _ _ => rfl
  | .reference _ _ => rfl
  | .call _ _ _ _ => rfl
  | .choice branches otherwise span => by
      simp only [expandSegment, bodyInclusions, Segment.inclusions,
        branchInclusions_expandBranches noneLeft branches,
        otherwiseInclusions_expandOtherwise noneLeft otherwise, List.append_nil]
  | .loop source value key body span => by
      simp only [expandSegment, bodyInclusions, Segment.inclusions,
        bodyInclusions_expandAll noneLeft body, List.append_nil]
  | .inclusion name _ => noneLeft name

theorem bodyInclusions_expandAll {expansion : String → List Segment}
    (noneLeft : ∀ name, bodyInclusions (expansion name) = []) :
    ∀ segments : List Segment, bodyInclusions (expandAll expansion segments) = []
  | [] => rfl
  | segment :: rest => by
      rw [expandAll, bodyInclusions_append, bodyInclusions_expandSegment noneLeft segment,
        bodyInclusions_expandAll noneLeft rest, List.append_nil]

theorem branchInclusions_expandBranches {expansion : String → List Segment}
    (noneLeft : ∀ name, bodyInclusions (expansion name) = []) :
    ∀ branches : List (BranchOf Segment), branchInclusions (expandBranches expansion branches) = []
  | [] => rfl
  | ⟨_, body, _⟩ :: rest => by
      rw [expandBranches, branchInclusions, bodyInclusions_expandAll noneLeft body,
        branchInclusions_expandBranches noneLeft rest, List.append_nil]

theorem otherwiseInclusions_expandOtherwise {expansion : String → List Segment}
    (noneLeft : ∀ name, bodyInclusions (expansion name) = []) :
    ∀ otherwise : Option (List Segment),
      otherwiseInclusions (expandOtherwise expansion otherwise) = []
  | none => rfl
  | some body => by
      rw [expandOtherwise, otherwiseInclusions, bodyInclusions_expandAll noneLeft body]

end

theorem bodyInclusions_expansionOf (environment : Environment) (style : Position)
    (stack : List String) (name : String) :
    bodyInclusions (expansionOf environment style stack name) = [] := by
  induction stack, name using expansionOf.induct environment style with
  | case1 stack name visited =>
      rw [expansionOf, dif_pos visited]
      rfl
  | case2 stack name visited template found _ _ inductionHypothesis =>
      rw [expansionOf_eq (Bool.eq_false_iff.mpr visited) found]
      exact bodyInclusions_expandAll inductionHypothesis template.segments
  | case3 stack name visited missing =>
      rw [expansionOf, dif_neg visited]
      split
      · next template found => exact absurd found (missing template)
      · rfl

/-- The expanded tree includes no template in its bodies. -/
theorem includeNames_expanded (environment : Environment) (style : Position) (name : String)
    (template : Template) : (expanded environment style name template).includeNames = [] := by
  rw [Template.includeNames, expanded, bodyInclusions_expandAll]
  · rfl
  · exact bodyInclusions_expansionOf environment style [name]

end Compile
end TemplateCascade
