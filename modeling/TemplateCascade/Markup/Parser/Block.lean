import TemplateCascade.Markup.Lexer
import TemplateCascade.Markup.Parser.Inline

namespace TemplateCascade
namespace Markup

/-!
# Bodies, block tags and whole templates

A body is text, variables, calls and blocks in any order, up to the end of the source, a closing tag
or a branch tag of the choice around it.  There are three kinds of block: a choice between bodies, a
loop over a collection, and the inclusion of another template.  The first fault in the order of the
grammar is the one reported: the attributes of a tag are read before its name is looked at, and a
required attribute is missed before an unknown one is refused.
-/

open Text

/-- The attributes of a tag, each name at its first place with its last value. -/
abbrev Attributes := List (String × Argument)

/-- The name in an opening tag's token. -/
def openedTag (token : Token) : String :=
  String.ofList (token.lexeme.drop tagOpening.length)

/-- The name in a closing tag's token. -/
def closedTag (token : Token) : String :=
  String.ofList (leadingIdentifier (token.lexeme.drop tagClosing.length))

/-- The name in an attribute's token. -/
def attributeNameOf (token : Token) : String :=
  String.ofList (leadingIdentifier token.lexeme)

/-- Whether a token opens a further branch of a choice. -/
def isBranchTag (token : Token) : Bool :=
  token.kind = .tagStart && (openedTag token = "elseif" || openedTag token = "else")

/-- The attributes of a tag behind its opening, and the token that ends the tag. -/
def parseAttributes (finish : Token) (known : Attributes) (tokens : List Token) :
    Except ParseError (Parsed (Attributes × Token) tokens) :=
  match tokens with
  | [] => .error ⟨.unexpected .attributePart finish.kind, finish.span⟩
  | token :: behind =>
      match token.kind with
      | .attributeName => do
          let ⟨(parts, closing), left, shorter⟩ ← parseQuoted finish '"' behind
          let value := ⟨parts, token.span.merge closing, true⟩
          let ⟨read, rest, shorterStill⟩ ←
            parseAttributes finish (putEntry known (attributeNameOf token) value) left
          .ok ⟨read, rest, by simp only [List.length_cons]; omega⟩
      | .tagEnd | .tagSelfClose => .ok (.single (known, token) behind)
      | found => .error ⟨.unexpected .attributePart found, token.span⟩
termination_by tokens.length
decreasing_by
  all_goals simp only [List.length_cons]
  all_goals omega

/-- Take a required attribute of a tag out of its attributes. -/
def takeRequired (opening : Token) (attributes : Attributes) (name : String) :
    Except ParseError (Argument × Attributes) :=
  match entryNamed? attributes name with
  | some value => .ok (value, attributes.eraseP (·.1 == name))
  | none => .error ⟨.missingAttribute (openedTag opening) name, opening.span⟩

/-- Refuse the first attribute that is left over. -/
def refuseExtra (opening : Token) : Attributes → Except ParseError Unit
  | [] => .ok ()
  | (name, value) :: _ => .error ⟨.unknownAttribute (openedTag opening) name, value.span⟩

/-- Refuse a tag without a body where a body must follow. -/
def requireOpen (opening ending : Token) : Except ParseError Unit :=
  if ending.kind = .tagSelfClose then .error ⟨.selfClosing (openedTag opening), ending.span⟩
  else .ok ()

/-- Refuse a tag that could have a body where none may follow. -/
def requireSelfClosing (opening ending : Token) : Except ParseError Unit :=
  if ending.kind = .tagSelfClose then .ok ()
  else .error ⟨.notSelfClosing (openedTag opening), ending.span⟩

/-- Refuse a closing tag of another name than the tag it closes. -/
def requireMatching (opening closing : Token) : Except ParseError Unit :=
  if openedTag opening = closedTag closing then .ok ()
  else .error ⟨.mismatchedClosing (openedTag opening) (closedTag closing), closing.span⟩

/-- The name of a loop variable: literal text, an identifier with or without a dollar sign. -/
def loopVariable (value : Argument) : Except ParseError String :=
  let malformed := .error ⟨.malformedLoopVariable, value.span⟩
  match value.literalText? with
  | none => malformed
  | some text =>
      let name :=
        match trimBlanks text.toList with
        | '$' :: name => name
        | name => name
      if isIdentifier name then .ok (String.ofList name) else malformed

/-- The one condition of a branch tag. -/
def branchCondition (opening : Token) (attributes : Attributes) : Except ParseError Argument := do
  let (condition, left) ← takeRequired opening attributes "is"
  refuseExtra opening left
  return condition

/-- What a loop runs over, and its variables. -/
structure LoopHead where
  source : Argument
  value : String
  key : Option String

/-- The head of a loop from the attributes of its tag. -/
def loopHead (opening : Token) (attributes : Attributes) : Except ParseError LoopHead := do
  let (source, left) ← takeRequired opening attributes "loop"
  let (value, left) ← takeRequired opening left "value"
  let value ← loopVariable value
  let key ← (entryNamed? left "key").mapM loopVariable
  refuseExtra opening (left.eraseP (·.1 == "key"))
  return ⟨source, value, key⟩

/-- The segment of an inclusion from the attributes of its tag. -/
def parseInclusion (opening ending : Token) (attributes : Attributes) :
    Except ParseError Segment := do
  requireSelfClosing opening ending
  let (name, left) ← takeRequired opening attributes "template"
  refuseExtra opening left
  match name.literalText? with
  | none => .error ⟨.dynamicIncludeName, name.span⟩
  | some text =>
      if trim text = "" then .error ⟨.dynamicIncludeName, name.span⟩
      else .ok (.inclusion (trim text) (opening.span.merge ending.span))

/-- The branches of a choice, the body for the case that none holds, and the closing tag's span. -/
abbrev Branches := List Branch × Option (List Segment) × Span

mutual

/-- A body up to the token that ends it, which is left where it is. -/
def parseBody (finish : Token) (tokens : List Token) :
    Except ParseError (Parsed (List Segment) tokens) :=
  match tokens with
  | [] => .ok (.nothing [] [])
  | token :: behind =>
      match token.kind with
      | .tagClose => .ok (.nothing [] (token :: behind))
      | .tagStart =>
          if isBranchTag token then .ok (.nothing [] (token :: behind))
          else do
            let ⟨block, left, shorter⟩ ← parseBlock finish token behind
            let ⟨body, rest, shorterStill⟩ ← parseBody finish left
            .ok ⟨block :: body, rest, by simp only [List.length_cons]; omega⟩
      | .text => do
          let ⟨body, rest, shorter⟩ ← parseBody finish behind
          .ok ⟨Segment.consLiteral (String.ofList token.lexeme) token.span body, rest,
            Nat.le_succ_of_le shorter⟩
      | .variableReference => do
          let ⟨body, rest, shorter⟩ ← parseBody finish behind
          .ok ⟨referenceOf token :: body, rest, Nat.le_succ_of_le shorter⟩
      | .callStart => do
          let ⟨call, left, shorter⟩ ← parseCall finish token behind
          let ⟨body, rest, shorterStill⟩ ← parseBody finish left
          .ok ⟨call :: body, rest, by simp only [List.length_cons]; omega⟩
      | found => .error ⟨.unexpected .bodyPart found, token.span⟩
termination_by 4 * tokens.length
decreasing_by
  all_goals simp only [List.length_cons]
  all_goals omega

/-- A block behind the token that opens it. -/
def parseBlock (finish opening : Token) (tokens : List Token) :
    Except ParseError (Parsed Segment tokens) := do
  let ⟨(attributes, ending), left, shorter⟩ ← parseAttributes finish [] tokens
  match openedTag opening with
  | "if" => do
      requireOpen opening ending
      let condition ← branchCondition opening attributes
      let ⟨(branches, otherwise, closing), rest, shorterStill⟩ ←
        parseBranches finish opening (some (condition, opening.span)) left
      .ok ⟨.choice branches otherwise (opening.span.merge closing), rest, by omega⟩
  | "foreach" => do
      requireOpen opening ending
      let head ← loopHead opening attributes
      let ⟨body, left, shorterStill⟩ ← parseBody finish left
      match same : left with
      | [] => .error ⟨.neverClosed (openedTag opening), opening.span⟩
      | closing :: rest =>
          if closing.kind = .tagClose then do
            requireMatching opening closing
            .ok ⟨.loop head.source head.value head.key body (opening.span.merge closing.span),
              rest, by subst same; simp only [List.length_cons] at shorterStill; omega⟩
          else .error ⟨.branchOutsideIf (openedTag closing), closing.span⟩
  | "include" => do
      let segment ← parseInclusion opening ending attributes
      .ok ⟨segment, left, shorter⟩
  | unknown => .error ⟨.unknownTag unknown, opening.span⟩
termination_by 4 * tokens.length + 2
decreasing_by
  all_goals omega

/--
The branches of a choice from the body of one branch on.  `current` is the condition of that branch
with the span of its tag, or `none` for the body of the last branch, which has no condition.
-/
def parseBranches (finish opening : Token) (current : Option (Argument × Span))
    (tokens : List Token) : Except ParseError (Parsed Branches tokens) := do
  let ⟨body, left, shorter⟩ ← parseBody finish tokens
  let complete := fun ((branches, otherwise, closing) : Branches) =>
    match current with
    | some (condition, span) => (⟨condition, body, span⟩ :: branches, otherwise, closing)
    | none => (branches, some body, closing)
  match same : left with
  | [] => .error ⟨.neverClosed (openedTag opening), opening.span⟩
  | token :: behind =>
      have shorterBehind : behind.length < tokens.length := by
        subst same
        exact shorter
      match token.kind with
      | .tagClose => do
          requireMatching opening token
          .ok ⟨complete ([], none, token.span), behind, Nat.le_of_lt shorterBehind⟩
      | .tagStart => do
          let ⟨(attributes, ending), left, shorterLeft⟩ ← parseAttributes finish [] behind
          requireSelfClosing token ending
          if current.isNone then
            .error ⟨.branchAfterElse (openedTag token), token.span⟩
          let next ←
            if openedTag token = "elseif" then do
              let condition ← branchCondition token attributes
              pure (some (condition, token.span))
            else do
              refuseExtra token attributes
              pure none
          let ⟨more, rest, shorterRest⟩ ← parseBranches finish opening next left
          .ok ⟨complete more, rest, by omega⟩
      | found => .error ⟨.unexpected .closingIf found, token.span⟩
termination_by 4 * tokens.length + 1
decreasing_by
  all_goals omega

end

/-- A whole template: a body that nothing follows. -/
def parseTokens (finish : Token) (tokens : List Token) : Except ParseError Template := do
  let ⟨body, left, _⟩ ← parseBody finish tokens
  match left with
  | [] => .ok ⟨body⟩
  | token :: _ =>
      if token.kind = .tagClose then
        .error ⟨.closingWithoutOpening (String.ofList token.lexeme), token.span⟩
      else .error ⟨.branchOutsideIf (openedTag token), token.span⟩

/-- Parse a source.  Lexical errors are reported together and before anything else. -/
def parse (source : String) : Except ParseErrors Template :=
  let lexed := lex source
  match lexed.errors with
  | first :: more => .error ⟨first, more⟩
  | [] =>
      (parseTokens (Token.finish (Span.point lexed.finish)) lexed.tokens).mapError (⟨·, []⟩)

end Markup
end TemplateCascade
