import TemplateCascade.Text.Place

namespace TemplateCascade
namespace Markup

/-!
# Segment trees

A parsed template is a list of segments.  The arguments of calls and the values of attributes are
lists of segments too, so variables and calls nest wherever an argument may stand.  Every node keeps
its span; nothing in a tree refers back to the source.
-/

open Text (Span)

/-- An argument or an attribute's value, over some kind of part. -/
structure ArgumentOf (Part : Type) where
  parts : List Part
  span : Span
  /-- Whether it was written in quotes. -/
  quoted : Bool
deriving Repr

/-- One condition of a choice with its body, over some kind of part. -/
structure BranchOf (Part : Type) where
  condition : ArgumentOf Part
  body : List Part
  span : Span
deriving Repr

/-- A node of a parsed template. -/
inductive Segment where
  /-- Text written out as it is. -/
  | literal (text : String) (span : Span)
  /-- The value at a path. -/
  | reference (path : List String) (span : Span)
  /-- A function call with its positional and its named arguments. -/
  | call (name : String) (arguments : List (ArgumentOf Segment))
      (named : List (String × ArgumentOf Segment)) (span : Span)
  /-- Conditions in turn, with the body for the case that none holds. -/
  | choice (branches : List (BranchOf Segment)) (otherwise : Option (List Segment)) (span : Span)
  /-- A body for every item of a collection. -/
  | loop (source : ArgumentOf Segment) (value : String) (key : Option String)
      (body : List Segment) (span : Span)
  /-- Another template in this place. -/
  | inclusion (name : String) (span : Span)

instance : Inhabited Segment := ⟨.literal "" default⟩

abbrev Argument := ArgumentOf Segment
abbrev Branch := BranchOf Segment

/-- A parsed template. -/
structure Template where
  segments : List Segment

namespace Segment

def span : Segment → Span
  | .literal _ span | .reference _ span | .call _ _ _ span | .choice _ _ span |
    .loop _ _ _ _ span | .inclusion _ span => span

/-- The text of a literal. -/
def literal? : Segment → Option String
  | .literal text _ => some text
  | _ => none

/--
Put literal text in front of some segments.  It joins a literal that comes first there, and their
spans merge.
-/
def consLiteral (text : String) (span : Span) : List Segment → List Segment
  | .literal next nextSpan :: rest => .literal (text ++ next) (span.merge nextSpan) :: rest
  | rest => .literal text span :: rest

end Segment

namespace ArgumentOf

/-- Whether an argument has no parts at all. -/
def isEmpty (argument : Argument) : Bool :=
  argument.parts.isEmpty

/-- Whether an argument is empty and not even quoted. -/
def isMissing (argument : Argument) : Bool :=
  argument.parts.isEmpty && !argument.quoted

/-- The text of an argument that has only literal parts. -/
def literalText? (argument : Argument) : Option String :=
  (argument.parts.mapM Segment.literal?).map String.join

end ArgumentOf

mutual

/-- The names of the templates that one segment includes, in source order. -/
def Segment.inclusions : Segment → List String
  | .inclusion name _ => [name]
  | .choice branches otherwise _ => branchInclusions branches ++ otherwiseInclusions otherwise
  | .loop _ _ _ body _ => bodyInclusions body
  | .literal _ _ | .reference _ _ | .call _ _ _ _ => []

def bodyInclusions : List Segment → List String
  | [] => []
  | segment :: rest => segment.inclusions ++ bodyInclusions rest

def branchInclusions : List (BranchOf Segment) → List String
  | [] => []
  | ⟨_, body, _⟩ :: rest => bodyInclusions body ++ branchInclusions rest

def otherwiseInclusions : Option (List Segment) → List String
  | none => []
  | some body => bodyInclusions body

end

/-- The names a template includes in source order, each at its first place only. -/
def Template.includeNames (template : Template) : List String :=
  (bodyInclusions template.segments).foldl
    (fun names name => if names.contains name then names else names ++ [name]) []

end Markup
end TemplateCascade
