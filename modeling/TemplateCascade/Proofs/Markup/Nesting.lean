import Mathlib
import TemplateCascade.Markup.Segment

namespace TemplateCascade
namespace Markup

/-!
# Segments inside segments

Segments stand in bodies, in the arguments of calls, and in what a choice or a loop looks at.  Whatever
is said about all segments of a template says how far it looks: at bodies only, at everything whose text
can be written, or at everything.
-/

/-- How far to look into segments. -/
inductive Extent where
  /-- Into the bodies of choices and loops. -/
  | bodies
  /-- Into the arguments of calls too. -/
  | written
  /-- Into the conditions of choices and the sources of loops too. -/
  | whole
deriving DecidableEq, Repr

namespace Extent

/-- Whether the arguments of calls count. -/
def entersCalls : Extent → Bool
  | bodies => false
  | written | whole => true

/-- Whether conditions and sources count. -/
def entersTests : Extent → Bool
  | bodies | written => false
  | whole => true

end Extent

mutual

/-- A segment and the segments inside it. -/
def nested (extent : Extent) : Segment → List Segment
  | .literal text span => [.literal text span]
  | .reference path span => [.reference path span]
  | .call name arguments named span =>
      .call name arguments named span ::
        if extent.entersCalls then nestedArguments extent arguments ++ nestedNamed extent named else []
  | .choice branches otherwise span =>
      .choice branches otherwise span ::
        (nestedBranches extent branches ++ nestedOtherwise extent otherwise)
  | .loop source value key body span =>
      .loop source value key body span ::
        ((if extent.entersTests then nestedArgument extent source else []) ++ nestedAll extent body)
  | .inclusion name span => [.inclusion name span]

/-- Some segments and the segments inside them. -/
def nestedAll (extent : Extent) : List Segment → List Segment
  | [] => []
  | segment :: rest => nested extent segment ++ nestedAll extent rest

def nestedArgument (extent : Extent) : ArgumentOf Segment → List Segment
  | ⟨parts, _, _⟩ => nestedAll extent parts

def nestedArguments (extent : Extent) : List (ArgumentOf Segment) → List Segment
  | [] => []
  | argument :: rest => nestedArgument extent argument ++ nestedArguments extent rest

def nestedNamed (extent : Extent) : List (String × ArgumentOf Segment) → List Segment
  | [] => []
  | (_, argument) :: rest => nestedArgument extent argument ++ nestedNamed extent rest

def nestedBranches (extent : Extent) : List (BranchOf Segment) → List Segment
  | [] => []
  | ⟨condition, body, _⟩ :: rest =>
      (if extent.entersTests then nestedArgument extent condition else []) ++
        (nestedAll extent body ++ nestedBranches extent rest)

def nestedOtherwise (extent : Extent) : Option (List Segment) → List Segment
  | none => []
  | some body => nestedAll extent body

end

variable {extent : Extent}

theorem mem_nested_self (extent : Extent) (segment : Segment) : segment ∈ nested extent segment := by
  cases segment <;> exact List.mem_cons_self

@[simp]
theorem nestedAll_singleton (segment : Segment) : nestedAll extent [segment] = nested extent segment :=
  List.append_nil _

/-! ## What holds of all segments -/

/-- All of some segments have a property. -/
def Throughout (holds : Segment → Prop) (segments : List Segment) : Prop :=
  ∀ segment ∈ segments, holds segment

namespace Throughout

variable {holds : Segment → Prop} {front behind : List Segment}

theorem of_subset {segments inner : List Segment} (all : Throughout holds segments)
    (subset : inner ⊆ segments) : Throughout holds inner :=
  fun segment member => all segment (subset member)

theorem left (all : Throughout holds (front ++ behind)) : Throughout holds front :=
  all.of_subset (List.subset_append_left front behind)

theorem right (all : Throughout holds (front ++ behind)) : Throughout holds behind :=
  all.of_subset (List.subset_append_right front behind)

theorem head {segment : Segment} (all : Throughout holds (segment :: behind)) : holds segment :=
  all segment List.mem_cons_self

theorem tail {segment : Segment} (all : Throughout holds (segment :: behind)) : Throughout holds behind :=
  all.of_subset (List.subset_cons_self segment behind)

end Throughout

end Markup
end TemplateCascade
