import TemplateCascade.Expression.Token
import TemplateCascade.Inheritance.Kind
import TemplateCascade.Markup.Fault

namespace TemplateCascade
namespace Compile

/-!
# Why a template does not compile

An error is a cause and the span it is about.  An error inside an included template is wrapped once
for every template on the way to it.  The diagnostic of an error is what an edit form shows: the
message and the place, with the name of the template that the place is in.
-/

open Text (Span)

/-- Why a function refuses an argument. -/
inductive ArgumentProblem where
  | computedMode
  | unknownMode (name : String)
  | emptyPhraseName
  | missing (name : String)
deriving DecidableEq, Repr

def ArgumentProblem.message : ArgumentProblem → String
  | .computedMode => "the escaping mode must be a literal"
  | .unknownMode name => "unknown escaping mode '" ++ name ++ "'"
  | .emptyPhraseName => "the phrase name is empty"
  | .missing name => "the named argument '" ++ name ++ "' is required"

/-- The cause of a compile error. -/
inductive Cause where
  /-- The source of an included template does not parse. -/
  | malformedSource (fault : Markup.Fault)
  | unknownFunction (name : String)
  | argumentCount (function : String) (expected : ArgumentRange) (count : Nat)
  | computedPhraseName
  /-- An inclusion of a template that is being compiled, with the templates on the way to it. -/
  | circularInclude (name : String) (chain : List String)
  | unresolvedInclude (name : String) (style : Position)
  | malformedExpression (fault : Expression.Fault)
  | invalidArgument (function : String) (problem : ArgumentProblem)

namespace Cause

/-- The wording of a cause without its place. -/
def message : Cause → String
  | malformedSource fault => fault.kind.text ++ ": " ++ fault.message
  | unknownFunction name => "unknown function '" ++ name ++ "'"
  | argumentCount function expected count =>
      "'" ++ function ++ "' expects " ++ expected.text ++ " argument(s), got " ++ toString count
  | computedPhraseName => "phrase name must be a literal"
  | circularInclude name chain =>
      "circular include of '" ++ name ++ "' (" ++ String.intercalate " -> " chain ++ ")"
  | unresolvedInclude name style =>
      "included template '" ++ name ++ "' does not exist at style " ++ toString style
  | malformedExpression fault => "malformed expression: " ++ fault.message
  | invalidArgument function problem =>
      "invalid argument to '" ++ function ++ "': " ++ problem.message

end Cause

/-- Why a template does not compile. -/
inductive CompileError where
  | here (cause : Cause) (span : Span)
  /-- An error while compiling an included template. -/
  | included (template : String) (error : CompileError)

/-- A message with the place it is about, in the source of the named template. -/
structure Diagnostic where
  message : String
  offset : Nat
  line : Nat
  column : Nat
  template : String
deriving DecidableEq, Repr

/-- A diagnostic on one line. -/
def Diagnostic.text (diagnostic : Diagnostic) : String :=
  diagnostic.template ++ " at " ++ toString diagnostic.line ++ ":" ++ toString diagnostic.column ++
    " (offset " ++ toString diagnostic.offset ++ "): " ++ diagnostic.message

/-- The diagnostic of a parse error. -/
def Diagnostic.ofParseError (template : String) (error : Markup.ParseError) : Diagnostic :=
  ⟨error.summary, error.span.offset, error.span.line, error.span.column, template⟩

namespace CompileError

/-- The error at the bottom of all wrappers. -/
def innermost : CompileError → Cause × Span
  | here cause span => (cause, span)
  | included _ error => error.innermost

/-- The text of an error with its place and the included templates on the way to it. -/
def text : CompileError → String
  | here (.malformedSource fault) span => Markup.ParseError.text ⟨fault, span⟩
  | here cause span => "at " ++ span.text ++ ": " ++ cause.message
  | included template error => "in included template '" ++ template ++ "': " ++ error.text

/-- The template that an error is in, given the template that was compiled. -/
def location (template : String) : CompileError → String
  | here _ _ => template
  | included inner error => error.location inner

/-- The diagnostic of an error met while compiling the named template. -/
def diagnostic (template : String) (error : CompileError) : Diagnostic :=
  let (cause, span) := error.innermost
  ⟨cause.message, span.offset, span.line, span.column, error.location template⟩

/-- The first of the errors of a source that does not parse. -/
def ofParseErrors (errors : Markup.ParseErrors) : CompileError :=
  here (.malformedSource errors.first.fault) errors.first.span

end CompileError

end Compile
end TemplateCascade
