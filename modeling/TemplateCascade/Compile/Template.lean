import TemplateCascade.Compile.Environment
import TemplateCascade.Compile.Registry

namespace TemplateCascade
namespace Compile

/-!
# Compiling templates

A template compiles for one style and one language.  A segment is first turned into a part that is
still to be compiled, by recursion on the tree; what an inclusion stands for is a parameter of that.
In a full compilation it is the code of the included template, which never includes a template that
is being compiled already.  Each nested inclusion leaves one name fewer that may still be included, so
the expansion ends.  A compilation for validation only looks whether the included template is there.
-/

open Markup (ArgumentOf BranchOf Segment Template)
open Text (Escaping Span)

/-- What a template is compiled for. -/
structure Context where
  style : Position
  language : Position
  /-- Whether included templates are compiled too, or only looked for. -/
  expandsIncludes : Bool := true
deriving DecidableEq, Repr

/-- What an inclusion compiles to: by name, span and escaping. -/
abbrev Inclusion := String → Span → Escaping → CompileM Code

/-- What a call compiles to. -/
def compileCall (registry : Registry) (phrases : Phrases) (call : Call) (escaping : Escaping) :
    CompileM Code :=
  match registry.function? call.name with
  | some function => function phrases call escaping
  | none => failAt (.unknownFunction call.name) call.span

mutual

/-- A segment as a part that is still to be compiled. -/
def pending (registry : Registry) (phrases : Phrases) (inclusion : Inclusion) : Segment → Pending
  | .literal text span => .literal text span
  | .reference path span =>
      .deferred span fun escaping => pure (.escaped escaping (.reference path))
  | .call name arguments named span =>
      .deferred span (compileCall registry phrases
        ⟨name, pendingArguments registry phrases inclusion arguments,
          pendingNamed registry phrases inclusion named, span⟩)
  | .choice branches otherwise span =>
      .deferred span fun escaping =>
        compileChoice escaping (pendingOtherwise registry phrases inclusion otherwise)
          (pendingBranches registry phrases inclusion branches)
  | .loop source value key body span =>
      .deferred span fun escaping => do
        let sourceCode ←
          PendingArgument.compile .raw (pendingArgument registry phrases inclusion source)
        let bodyCode ← compileParts escaping (pendingAll registry phrases inclusion body)
        pure (.each sourceCode key value bodyCode)
  | .inclusion name span => .deferred span (inclusion name span)

def pendingAll (registry : Registry) (phrases : Phrases) (inclusion : Inclusion) :
    List Segment → List Pending
  | [] => []
  | segment :: rest =>
      pending registry phrases inclusion segment :: pendingAll registry phrases inclusion rest

def pendingArgument (registry : Registry) (phrases : Phrases) (inclusion : Inclusion) :
    ArgumentOf Segment → PendingArgument
  | ⟨parts, span, quoted⟩ => ⟨pendingAll registry phrases inclusion parts, span, quoted⟩

def pendingArguments (registry : Registry) (phrases : Phrases) (inclusion : Inclusion) :
    List (ArgumentOf Segment) → List PendingArgument
  | [] => []
  | argument :: rest =>
      pendingArgument registry phrases inclusion argument ::
        pendingArguments registry phrases inclusion rest

def pendingNamed (registry : Registry) (phrases : Phrases) (inclusion : Inclusion) :
    List (String × ArgumentOf Segment) → List (String × PendingArgument)
  | [] => []
  | (name, argument) :: rest =>
      (name, pendingArgument registry phrases inclusion argument) ::
        pendingNamed registry phrases inclusion rest

def pendingBranches (registry : Registry) (phrases : Phrases) (inclusion : Inclusion) :
    List (BranchOf Segment) → List (BranchOf Pending)
  | [] => []
  | ⟨condition, body, span⟩ :: rest =>
      ⟨pendingArgument registry phrases inclusion condition,
        pendingAll registry phrases inclusion body, span⟩ ::
        pendingBranches registry phrases inclusion rest

def pendingOtherwise (registry : Registry) (phrases : Phrases) (inclusion : Inclusion) :
    Option (List Segment) → Option (List Pending)
  | none => none
  | some body => some (pendingAll registry phrases inclusion body)

end

/-- Compile segments under an escaping. -/
def compileSegments (registry : Registry) (phrases : Phrases) (inclusion : Inclusion)
    (escaping : Escaping) (segments : List Segment) : CompileM Code :=
  compileParts escaping (pendingAll registry phrases inclusion segments)

/-- The names of templates that are not being compiled. -/
def unvisited (names stack : List String) : List String :=
  names.filter fun name => !stack.contains name

/-- Entering a template that is not being compiled leaves fewer names. -/
theorem length_unvisited_lt {names stack : List String} {name : String} (known : name ∈ names)
    (fresh : stack.contains name = false) :
    (unvisited names (stack ++ [name])).length < (unvisited names stack).length := by
  have fewer : unvisited names (stack ++ [name]) =
      (unvisited names stack).filter fun other => other != name := by
    simp only [unvisited, List.filter_filter]
    congr 1
    funext other
    simp [List.contains_eq_mem, bne, Bool.and_comm, Bool.beq_eq_decide_eq]
  rw [fewer]
  apply List.length_filter_lt_length_iff_exists.mpr
  have absent : name ∉ stack := by simpa using fresh
  exact ⟨name, by simp [unvisited, known, absent], by simp⟩

/--
What an inclusion compiles to while the templates of `stack` are being compiled, outermost first.
-/
def includeTemplate (environment : Environment) (registry : Registry) (context : Context)
    (stack : List String) (name : String) (span : Span) (escaping : Escaping) : CompileM Code :=
  if visited : stack.contains name then
    failAt (.circularInclude name (stack ++ [name])) span
  else do
    noteInclude name
    match found : environment.template name context.style with
    | .ok none => failAt (.unresolvedInclude name context.style) span
    | .error errors =>
        if context.expandsIncludes then throw (.included name (.ofParseErrors errors))
        else pure (.inclusion name)
    | .ok (some template) =>
        if context.expandsIncludes then
          have known : name ∈ environment.names :=
            environment.mem_names name context.style (by simp [found])
          have := length_unvisited_lt known (Bool.eq_false_iff.mpr visited)
          ExceptT.adapt (.included name)
            (compileSegments registry (fun phrase => environment.phrase phrase context.language)
              (includeTemplate environment registry context (stack ++ [name])) escaping
              template.segments)
        else pure (.inclusion name)
termination_by (unvisited environment.names stack).length

/-- The code of a template and the names it was compiled from. -/
structure Compiled where
  code : Code
  uses : Uses

/-- Why a template did not compile, and the names it had asked for by then. -/
structure CompileFailure where
  error : CompileError
  uses : Uses

/-- Run a compilation from the start. -/
def CompileM.outcome (compilation : CompileM Code) : Except CompileFailure Compiled :=
  match compilation.run.run Uses.none with
  | (.ok code, uses) => .ok ⟨code, uses⟩
  | (.error error, uses) => .error ⟨error, uses⟩

/-- Compile the named template, whose text is HTML. -/
def compileTemplate (environment : Environment) (registry : Registry) (context : Context)
    (name : String) (template : Template) : Except CompileFailure Compiled :=
  CompileM.outcome
    (compileSegments registry (fun phrase => environment.phrase phrase context.language)
      (includeTemplate environment registry context [name]) .html template.segments)

end Compile
end TemplateCascade
