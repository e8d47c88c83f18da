import Std.Data.ExtTreeSet
import TemplateCascade.Compile.Error
import TemplateCascade.Expression.Condition
import TemplateCascade.Markup.Segment

namespace TemplateCascade
namespace Compile

/-!
# Compilation of parts on demand

The same argument of a call compiles to different code under different escaping, and some arguments
are never compiled at all.  What a function is given for each part of an argument is therefore either
literal text or a compilation that is still to be done under an escaping of its choice.

While it runs, a compilation notes the templates and phrases that it asks for, whether they exist or
not.  The notes stay when it fails: they say what has to change before trying again can help.
-/

open Markup (ArgumentOf BranchOf)
open Text (Escaping Span)

/-- The names a compilation has asked for. -/
structure Uses where
  includes : Std.ExtTreeSet String
  phrases : Std.ExtTreeSet String

namespace Uses

def none : Uses := ⟨∅, ∅⟩

/-- The names of both. -/
def union (left right : Uses) : Uses :=
  ⟨left.includes ∪ right.includes, left.phrases ∪ right.phrases⟩

end Uses

/-- A compilation: it fails or yields a result, and notes names either way. -/
abbrev CompileM := ExceptT CompileError (StateM Uses)

/-- Fail with a cause at a span. -/
def failAt {Result : Type} (cause : Cause) (span : Span) : CompileM Result :=
  throw (.here cause span)

/-- Note the name of an included template. -/
def noteInclude (name : String) : CompileM Unit :=
  modify fun uses => { uses with includes := uses.includes.insert name }

/-- Note the name of a phrase. -/
def notePhrase (name : String) : CompileM Unit :=
  modify fun uses => { uses with phrases := uses.phrases.insert name }

/-- A part that is literal text or still to be compiled. -/
inductive Pending where
  | literal (text : String) (span : Span)
  | deferred (span : Span) (compile : Escaping → CompileM Code)

namespace Pending

/-- Compile a part. -/
def compile (escaping : Escaping) : Pending → CompileM Code
  | literal text _ => pure (.text text)
  | deferred _ compile => compile escaping

def literal? : Pending → Option String
  | literal text _ => some text
  | deferred _ _ => none

end Pending

/-- Compile parts in order. -/
def compileEach (escaping : Escaping) : List Pending → CompileM (List Code)
  | [] => pure []
  | part :: rest => do
      let code ← part.compile escaping
      let more ← compileEach escaping rest
      pure (code :: more)

/-- Compile parts in order to one code. -/
def compileParts (escaping : Escaping) (parts : List Pending) : CompileM Code := do
  let codes ← compileEach escaping parts
  pure (Code.concatenate codes)

/-- An argument whose parts are still to be compiled. -/
abbrev PendingArgument := ArgumentOf Pending

namespace PendingArgument

/-- Compile an argument. -/
def compile (escaping : Escaping) (argument : PendingArgument) : CompileM Code :=
  compileParts escaping argument.parts

/-- The text of an argument that has only literal parts. -/
def literalText? (argument : PendingArgument) : Option String :=
  (argument.parts.mapM Pending.literal?).map String.join

end PendingArgument

/-! ## Expressions -/

/-- Fail with a fault of an expression. -/
def failMalformed {Result : Type} : Except Expression.Malformed Result → CompileM Result
  | .ok result => pure result
  | .error malformed => failAt (.malformedExpression malformed.fault) malformed.span

/-- The tokens of the parts of an expression: literals are scanned, other parts compiled raw. -/
def expressionTokens : List Pending → CompileM (List Expression.Token)
  | [] => pure []
  | .literal text span :: rest => do
      let place : Text.Place := ⟨span.offset, span.line, span.column⟩
      let tokens ← failMalformed (Expression.tokensFrom place text.toList)
      let more ← expressionTokens rest
      pure (tokens ++ more)
  | .deferred span compile :: rest => do
      let code ← compile .raw
      let more ← expressionTokens rest
      pure (⟨.value code, span⟩ :: more)

namespace PendingArgument

/-- An argument read as a calculation. -/
def calculation (argument : PendingArgument) : CompileM Arithmetic := do
  let tokens ← expressionTokens argument.parts
  failMalformed (Expression.parseCalculation argument.span tokens)

/-- An argument read as a condition. -/
def condition (argument : PendingArgument) : CompileM Test := do
  let tokens ← expressionTokens argument.parts
  failMalformed (Expression.parseCondition argument.span tokens)

end PendingArgument

/-- The code of a choice: the first branch whose condition holds, or what is there otherwise. -/
def compileChoice (escaping : Escaping) (otherwise : Option (List Pending)) :
    List (BranchOf Pending) → CompileM Code
  | [] =>
      match otherwise with
      | some body => compileParts escaping body
      | none => pure Code.empty
  | branch :: rest => do
      let test ← PendingArgument.condition branch.condition
      let body ← compileParts escaping branch.body
      let remaining ← compileChoice escaping otherwise rest
      pure (.conditional test body remaining)

/-! ## Functions -/

/-- A call whose arguments are still to be compiled. -/
structure Call where
  name : String
  arguments : List PendingArgument
  named : List (String × PendingArgument)
  span : Span

/-- The texts of the phrases at a language. -/
abbrev Phrases := String → Option String

/-- How calls of one function compile, under the escaping that the call stands in. -/
abbrev Function := Phrases → Call → Escaping → CompileM Code

/-- Refuse a call for its number of arguments. -/
def Call.refuseCount {Result : Type} (call : Call) (expected : ArgumentRange) : CompileM Result :=
  failAt (.argumentCount call.name expected call.arguments.length) call.span

/-- Compile named arguments raw, in order. -/
def compileNamed : List (String × PendingArgument) → CompileM (List (String × Code))
  | [] => pure []
  | (name, argument) :: rest => do
      let code ← argument.compile .raw
      let more ← compileNamed rest
      pure ((name, code) :: more)

/-- Compile arguments raw, in order. -/
def compileArguments : List PendingArgument → CompileM (List Code)
  | [] => pure []
  | argument :: rest => do
      let code ← argument.compile .raw
      let more ← compileArguments rest
      pure (code :: more)

end Compile
end TemplateCascade
