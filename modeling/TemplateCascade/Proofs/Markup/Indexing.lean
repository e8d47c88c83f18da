import Mathlib
import TemplateCascade.Proofs.Markup.Misplacing

namespace TemplateCascade
namespace Markup

/-!
# Parsing by places

The parser takes its tokens off the front of a list.  Here it goes by places: it has the list of all tokens,
the one for the end of the source behind the others, and the place of the token that is next; and it cuts
names and paths out of the characters of a token by numbers of bytes.  Every such access is checked, and one
that is out of range ends everything without a result.  That the outcome is the parser's for every source
therefore says that no access is out of range, and no place has to be held back in front of the end.

The tokens that the parser has left are those from some place on.  With the token for the end of the source
behind them they are never empty, and both move on together.
-/

open Text

/-! ## Checked access -/

/-- What may report an error, or end without any result because an access is out of range. -/
abbrev Checked := ExceptT ParseError Option

/-- An outcome for which nothing is accessed. -/
def checked {Result : Type} (outcome : Except ParseError Result) : Checked Result :=
  ExceptT.mk (some outcome)

/-- A text in two parts, the first of which has so many bytes. -/
def splitBytes? : List Char → Nat → Option (List Char × List Char)
  | text, 0 => some ([], text)
  | [], _ + 1 => none
  | first :: rest, count + 1 =>
      if first.utf8Size ≤ count + 1 then
        (splitBytes? rest (count + 1 - first.utf8Size)).map fun (front, behind) => (first :: front, behind)
      else none

/-- The text between two numbers of bytes, if characters end at both of them and they are in order. -/
def cut? (text : List Char) (start finish : Nat) : Option (List Char) :=
  if start ≤ finish then do
    let (_, behind) ← splitBytes? text start
    let (between, _) ← splitBytes? behind (finish - start)
    return between
  else none

/-- The name in the opening of a call. -/
def nameIn (opening : Token) : Checked String := do
  let name ← ExceptT.lift (cut? opening.lexeme 1 (byteLength opening.lexeme - 1))
  return String.ofList name

/-- The segment of a variable. -/
def referenceIn (token : Token) : Checked Segment := do
  let path ← ExceptT.lift (cut? token.lexeme 2 (byteLength token.lexeme - 1))
  return .reference ((path.splitOn '.').map String.ofList) token.span

/-- The token at a place, which then is one of the list. -/
def tokenAt (tokens : List Token) (place : Nat) : Checked { _token : Token // place < tokens.length } :=
  if inside : place < tokens.length then pure ⟨tokens[place], inside⟩ else ExceptT.mk none

/-- Something read from a place on, and the place behind it. -/
structure ReadFrom (Result : Type) (start : Nat) where
  result : Result
  place : Nat
  start_le : start ≤ place

theorem le_of_both {start middle place : Nat} (isBehind : start + 1 ≤ middle) (isMore : middle ≤ place) :
    start ≤ place :=
  (Nat.le_of_succ_le isBehind).trans isMore

/-! ## The grammar by places

Each of these does what the parser does for the same construct, in the same order.
-/

def skipBlankTextAt (tokens : List Token) (place : Nat) : Checked (ReadFrom Unit place) := do
  let ⟨token, _⟩ ← tokenAt tokens place
  if token.kind = .text then
    if (trimBlanks token.lexeme).isEmpty then
      let ⟨_, last, isBehind⟩ ← skipBlankTextAt tokens (place + 1)
      return ⟨(), last, Nat.le_of_succ_le isBehind⟩
    else throw ⟨.textAfterQuote, token.span⟩
  else return ⟨(), place, Nat.le_refl place⟩
termination_by tokens.length - place
decreasing_by
  all_goals omega

mutual

def callAt (tokens : List Token) (opening : Token) (place : Nat) : Checked (ReadFrom Segment place) := do
  let name ← nameIn opening
  let ⟨(read, closing), last, isBehind⟩ ← argumentsAt tokens name place
  let call ← checked (assembleCall name read (opening.span.merge closing))
  return ⟨call, last, isBehind⟩
termination_by 8 * (tokens.length - place) + 4

def argumentsAt (tokens : List Token) (name : String) (place : Nat) :
    Checked (ReadFrom (List NamedArgument × Span) place) := do
  let ⟨argument, middle, isMiddle⟩ ← argumentAt tokens place
  let ⟨token, _⟩ ← tokenAt tokens middle
  match token.kind with
  | .comma =>
      let ⟨(more, closing), last, isBehind⟩ ← argumentsAt tokens name (middle + 1)
      return ⟨(argument :: more, closing), last, isMiddle.trans (Nat.le_of_succ_le isBehind)⟩
  | .callEnd => return ⟨([argument], token.span), middle + 1, Nat.le_succ_of_le isMiddle⟩
  | found => throw ⟨.unendedArgument name found, token.span⟩
termination_by 8 * (tokens.length - place) + 3
decreasing_by
  all_goals omega

def argumentAt (tokens : List Token) (place : Nat) : Checked (ReadFrom NamedArgument place) := do
  let ⟨token, _⟩ ← tokenAt tokens place
  if token.kind = .argumentName then
    let ⟨value, last, isBehind⟩ ← valueAt tokens token.span (place + 1)
    return ⟨(some (argumentName token), value), last, Nat.le_of_succ_le isBehind⟩
  else
    let ⟨value, last, isBehind⟩ ← valueAt tokens token.span place
    return ⟨(none, value), last, isBehind⟩
termination_by 8 * (tokens.length - place) + 2
decreasing_by
  all_goals omega

def valueAt (tokens : List Token) (start : Span) (place : Nat) : Checked (ReadFrom Argument place) := do
  let ⟨token, _⟩ ← tokenAt tokens place
  if token.kind = .quoteOpen then
    let ⟨(parts, closing), middle, isMiddle⟩ ← quotedAt tokens (token.lexeme.headD '"') (place + 1)
    let ⟨_, last, isBehind⟩ ← skipBlankTextAt tokens middle
    return ⟨⟨parts, token.span.merge closing, true⟩, last, le_of_both isMiddle isBehind⟩
  else
    let ⟨parts, last, isBehind⟩ ← partsAt tokens place
    return ⟨⟨trimParts parts, partsSpan start (trimParts parts), false⟩, last, isBehind⟩
termination_by 8 * (tokens.length - place) + 1
decreasing_by
  all_goals omega

def partsAt (tokens : List Token) (place : Nat) : Checked (ReadFrom (List Segment) place) := do
  let ⟨token, _⟩ ← tokenAt tokens place
  match token.kind with
  | .comma | .callEnd => return ⟨[], place, Nat.le_refl place⟩
  | .text =>
      let ⟨parts, last, isBehind⟩ ← partsAt tokens (place + 1)
      return ⟨Segment.consLiteral (String.ofList token.lexeme) token.span parts, last,
        Nat.le_of_succ_le isBehind⟩
  | .variableReference =>
      let reference ← referenceIn token
      let ⟨parts, last, isBehind⟩ ← partsAt tokens (place + 1)
      return ⟨reference :: parts, last, Nat.le_of_succ_le isBehind⟩
  | .callStart =>
      let ⟨call, middle, isMiddle⟩ ← callAt tokens token (place + 1)
      let ⟨parts, last, isBehind⟩ ← partsAt tokens middle
      return ⟨call :: parts, last, le_of_both isMiddle isBehind⟩
  | found => throw ⟨.strayInArguments found, token.span⟩
termination_by 8 * (tokens.length - place)
decreasing_by
  all_goals omega

def quotedAt (tokens : List Token) (quote : Char) (place : Nat) :
    Checked (ReadFrom (List Segment × Span) place) := do
  let ⟨token, _⟩ ← tokenAt tokens place
  match token.kind with
  | .quoteClose => return ⟨([], token.span), place + 1, Nat.le_succ place⟩
  | .text =>
      let ⟨(parts, closing), last, isBehind⟩ ← quotedAt tokens quote (place + 1)
      return ⟨(Segment.consLiteral (String.ofList (unescape token.lexeme)) token.span parts, closing), last,
        Nat.le_of_succ_le isBehind⟩
  | .variableReference =>
      let reference ← referenceIn token
      let ⟨(parts, closing), last, isBehind⟩ ← quotedAt tokens quote (place + 1)
      return ⟨(reference :: parts, closing), last, Nat.le_of_succ_le isBehind⟩
  | .callStart =>
      let ⟨call, middle, isMiddle⟩ ← callAt tokens token (place + 1)
      let ⟨(parts, closing), last, isBehind⟩ ← quotedAt tokens quote middle
      return ⟨(call :: parts, closing), last, le_of_both isMiddle isBehind⟩
  | _ => throw ⟨.unclosedQuote quote, token.span⟩
termination_by 8 * (tokens.length - place)
decreasing_by
  all_goals omega

end

def attributesAt (tokens : List Token) (known : Attributes) (place : Nat) :
    Checked (ReadFrom (Attributes × Token) place) := do
  let ⟨token, _⟩ ← tokenAt tokens place
  match token.kind with
  | .attributeName =>
      let ⟨(parts, closing), middle, isMiddle⟩ ← quotedAt tokens '"' (place + 1)
      let value := ⟨parts, token.span.merge closing, true⟩
      let ⟨read, last, isBehind⟩ ← attributesAt tokens (putEntry known (attributeNameOf token) value) middle
      return ⟨read, last, le_of_both isMiddle isBehind⟩
  | .tagEnd | .tagSelfClose => return ⟨(known, token), place + 1, Nat.le_succ place⟩
  | found => throw ⟨.unexpected .attributePart found, token.span⟩
termination_by tokens.length - place
decreasing_by
  all_goals omega

mutual

def bodyAt (tokens : List Token) (place : Nat) : Checked (ReadFrom (List Segment) place) := do
  let ⟨token, _⟩ ← tokenAt tokens place
  match token.kind with
  | .endOfSource | .tagClose => return ⟨[], place, Nat.le_refl place⟩
  | .tagStart =>
      if isBranchTag token then return ⟨[], place, Nat.le_refl place⟩
      else
        let ⟨block, middle, isMiddle⟩ ← blockAt tokens token (place + 1)
        let ⟨body, last, isBehind⟩ ← bodyAt tokens middle
        return ⟨block :: body, last, le_of_both isMiddle isBehind⟩
  | .text =>
      let ⟨body, last, isBehind⟩ ← bodyAt tokens (place + 1)
      return ⟨Segment.consLiteral (String.ofList token.lexeme) token.span body, last,
        Nat.le_of_succ_le isBehind⟩
  | .variableReference =>
      let reference ← referenceIn token
      let ⟨body, last, isBehind⟩ ← bodyAt tokens (place + 1)
      return ⟨reference :: body, last, Nat.le_of_succ_le isBehind⟩
  | .callStart =>
      let ⟨call, middle, isMiddle⟩ ← callAt tokens token (place + 1)
      let ⟨body, last, isBehind⟩ ← bodyAt tokens middle
      return ⟨call :: body, last, le_of_both isMiddle isBehind⟩
  | found => throw ⟨.unexpected .bodyPart found, token.span⟩
termination_by 4 * (tokens.length - place)
decreasing_by
  all_goals omega

def blockAt (tokens : List Token) (opening : Token) (place : Nat) : Checked (ReadFrom Segment place) := do
  let ⟨(attributes, ending), middle, isMiddle⟩ ← attributesAt tokens [] place
  if openedTag opening = "if" then
    checked (requireOpen opening ending)
    let condition ← checked (branchCondition opening attributes)
    let ⟨(branches, otherwise, closing), last, isBehind⟩ ←
      branchesAt tokens opening (some (condition, opening.span)) middle
    return ⟨.choice branches otherwise (opening.span.merge closing), last, isMiddle.trans isBehind⟩
  else if openedTag opening = "foreach" then
    checked (requireOpen opening ending)
    let head ← checked (loopHead opening attributes)
    let ⟨body, last, isBehind⟩ ← bodyAt tokens middle
    let ⟨closing, _⟩ ← tokenAt tokens last
    match closing.kind with
    | .tagClose =>
        checked (requireMatching opening closing)
        return ⟨.loop head.source head.value head.key body (opening.span.merge closing.span), last + 1,
          Nat.le_succ_of_le (isMiddle.trans isBehind)⟩
    | .endOfSource => throw ⟨.neverClosed (openedTag opening), opening.span⟩
    | _ => throw ⟨.branchOutsideIf (openedTag closing), closing.span⟩
  else if openedTag opening = "include" then
    let segment ← checked (parseInclusion opening ending attributes)
    return ⟨segment, middle, isMiddle⟩
  else throw ⟨.unknownTag (openedTag opening), opening.span⟩
termination_by 4 * (tokens.length - place) + 2
decreasing_by
  all_goals omega

def branchesAt (tokens : List Token) (opening : Token) (current : Option (Argument × Span)) (place : Nat) :
    Checked (ReadFrom Branches place) := do
  let ⟨body, middle, isMiddle⟩ ← bodyAt tokens place
  let complete := fun ((branches, otherwise, closing) : Branches) =>
    match current with
    | some (condition, span) => (⟨condition, body, span⟩ :: branches, otherwise, closing)
    | none => (branches, some body, closing)
  let ⟨token, _⟩ ← tokenAt tokens middle
  match token.kind with
  | .tagClose =>
      checked (requireMatching opening token)
      return ⟨complete ([], none, token.span), middle + 1, Nat.le_succ_of_le isMiddle⟩
  | .tagStart =>
      let ⟨(attributes, ending), behindTag, isBehindTag⟩ ← attributesAt tokens [] (middle + 1)
      checked (requireSelfClosing token ending)
      if current.isNone then throw ⟨.branchAfterElse (openedTag token), token.span⟩
      let next ←
        if openedTag token = "elseif" then do
          let condition ← checked (branchCondition token attributes)
          pure (some (condition, token.span))
        else do
          checked (refuseExtra token attributes)
          pure none
      let ⟨more, last, isBehind⟩ ← branchesAt tokens opening next behindTag
      return ⟨complete more, last, isMiddle.trans (le_of_both isBehindTag isBehind)⟩
  | .endOfSource => throw ⟨.neverClosed (openedTag opening), opening.span⟩
  | found => throw ⟨.unexpected .closingIf found, token.span⟩
termination_by 4 * (tokens.length - place) + 1
decreasing_by
  all_goals omega

end

/-- A whole template: a body from the first place on that nothing follows. -/
def templateAt (tokens : List Token) : Checked Template := do
  let ⟨body, place, _⟩ ← bodyAt tokens 0
  let ⟨token, _⟩ ← tokenAt tokens place
  match token.kind with
  | .endOfSource => return ⟨body⟩
  | .tagClose => throw ⟨.closingWithoutOpening (String.ofList token.lexeme), token.span⟩
  | _ => throw ⟨.branchOutsideIf (openedTag token), token.span⟩

/-- Parse a source by places, if no access is out of range. -/
def parseByPlaces (source : String) : Option (Except ParseErrors Template) :=
  let lexed := lex source
  match lexed.errors with
  | first :: more => some (.error ⟨first, more⟩)
  | [] => (templateAt lexed.allTokens).run.map fun outcome => outcome.mapError (⟨·, []⟩)

/-! ## Lexemes are cut where characters end -/

theorem splitBytes?_append (front behind : List Char) :
    splitBytes? (front ++ behind) (byteLength front) = some (front, behind) := by
  induction front with
  | nil => cases behind <;> rfl
  | cons first rest inductionHypothesis =>
      have positive := Char.utf8Size_pos first
      have isSum : byteLength (first :: rest) = (first.utf8Size - 1 + byteLength rest) + 1 := by
        rw [byteLength]
        omega
      have left : first.utf8Size - 1 + byteLength rest + 1 - first.utf8Size = byteLength rest := by omega
      rw [isSum, List.cons_append, splitBytes?, if_pos (by omega), left, inductionHypothesis]
      rfl

theorem cut?_append (front between behind : List Char) :
    cut? (front ++ (between ++ behind)) (byteLength front) (byteLength front + byteLength between) =
      some between := by
  rw [cut?, if_pos (Nat.le_add_right _ _), splitBytes?_append, Nat.add_sub_cancel_left]
  dsimp only [Option.bind_eq_bind, Option.bind_some]
  rw [splitBytes?_append]
  rfl

/-- What is enclosed is found from both ends of the whole if one byte closes it. -/
theorem cut?_enclosed (front between : List Char) {closing : Char} (isByte : closing.utf8Size = 1) :
    cut? (front ++ (between ++ [closing])) (byteLength front)
      (byteLength (front ++ (between ++ [closing])) - 1) = some between := by
  have length : byteLength (front ++ (between ++ [closing])) - 1 = byteLength front + byteLength between := by
    rw [byteLength_append, byteLength_append, byteLength, byteLength, isByte]
    omega
  rw [length]
  exact cut?_append front between [closing]

section Delimited

variable {token : Token}

theorem nameIn_eq (delimited : token.Delimited) (opens : token.kind = .callStart) :
    nameIn token = pure (functionName token) := by
  rcases delimited.callStart opens with ⟨name, isLexeme⟩
  have isCut : cut? token.lexeme 1 (byteLength token.lexeme - 1) = some name := by
    rw [isLexeme]
    exact cut?_enclosed ['\x7b'] name rfl
  have isName : functionName token = String.ofList name := by
    rw [functionName, isLexeme, List.drop_one, List.tail_cons, List.dropLast_concat]
  rw [nameIn, isCut, isName]
  rfl

theorem referenceIn_eq (delimited : token.Delimited) (isReference : token.kind = .variableReference) :
    referenceIn token = pure (referenceOf token) := by
  rcases delimited.reference isReference with ⟨path, isLexeme⟩
  have isCut : cut? token.lexeme 2 (byteLength token.lexeme - 1) = some path := by
    rw [isLexeme]
    exact cut?_enclosed ['\x7b', '$'] path rfl
  have isPath : (token.lexeme.drop 2).dropLast = path := by
    rw [isLexeme, List.drop_succ_cons, List.drop_succ_cons, List.drop_zero, List.dropLast_concat]
  rw [referenceIn, isCut, referenceOf, isPath]
  rfl

end Delimited

/-! ## Places and rests -/

/-- Tokens as the parser gets them from the lexer: without faults, and no token but the last one ends the
source. -/
structure Readable (finish : Token) (tokens : List Token) : Prop where
  ends : finish.kind = .endOfSource
  inside : ∀ token ∈ tokens, token.kind ≠ .endOfSource ∧ token.Delimited

/-- The tokens from a place on are these. -/
def Stands (tokens rest : List Token) (place : Nat) : Prop :=
  ∃ front, tokens = front ++ rest ∧ place = front.length

section Places

variable {finish token : Token} {tokens behind : List Token} {place : Nat}

theorem stands_start (tokens : List Token) : Stands tokens tokens 0 :=
  ⟨[], rfl, rfl⟩

theorem exists_tokenAt (front : List Token) (token : Token) (behind : List Token) :
    ∃ inside, tokenAt (front ++ token :: behind) front.length = pure ⟨token, inside⟩ := by
  have inside : front.length < (front ++ token :: behind).length := by simp
  refine ⟨inside, ?_⟩
  rw [tokenAt, dif_pos inside]
  congr
  rw [List.getElem_append_right (Nat.le_refl _)]
  simp

theorem Stands.tokenAt_nil (stands : Stands tokens [] place) (finish : Token) :
    ∃ inside, tokenAt (tokens ++ [finish]) place = pure ⟨finish, inside⟩ := by
  rcases stands with ⟨front, rfl, rfl⟩
  rw [List.append_nil]
  exact exists_tokenAt front finish []

theorem Stands.tokenAt_cons (stands : Stands tokens (token :: behind) place) (finish : Token) :
    ∃ inside, tokenAt (tokens ++ [finish]) place = pure ⟨token, inside⟩ := by
  rcases stands with ⟨front, rfl, rfl⟩
  rw [List.append_assoc]
  exact exists_tokenAt front token (behind ++ [finish])

theorem Stands.next (stands : Stands tokens (token :: behind) place) : Stands tokens behind (place + 1) := by
  rcases stands with ⟨front, rfl, rfl⟩
  exact ⟨front ++ [token], by simp, by simp⟩

theorem Readable.of_stands (readable : Readable finish tokens) (stands : Stands tokens (token :: behind) place) :
    token.kind ≠ .endOfSource ∧ token.Delimited := by
  rcases stands with ⟨front, rfl, rfl⟩
  exact readable.inside token List.mem_append_cons_self

end Places

/-- What goes by places does what the parser does on the tokens that are left. -/
def Agrees {Result : Type} (tokens : List Token) {rest : List Token}
    (outcome : Except ParseError (Parsed Result rest)) {start : Nat} (ran : Checked (ReadFrom Result start)) :
    Prop :=
  match outcome with
  | .error error => ran = throw error
  | .ok parsed => ∃ place isBehind, Stands tokens parsed.rest place ∧ ran = pure ⟨parsed.result, place, isBehind⟩

namespace Agrees

variable {First Second : Type} {tokens rest more : List Token} {start other : Nat}

/-- After an error nothing is done. -/
theorem fails {error : ParseError} {ran : Checked (ReadFrom First start)}
    (agrees : Agrees tokens (.error error : Except ParseError (Parsed First rest)) ran)
    (after : ReadFrom First start → Checked (ReadFrom Second other)) :
    Agrees tokens (.error error : Except ParseError (Parsed Second more)) (ran >>= after) := by
  rw [show ran = throw error from agrees]
  rfl

theorem bind {outcome : Except ParseError (Parsed First rest)} {ran : Checked (ReadFrom First start)}
    {next : Parsed First rest → Except ParseError (Parsed Second more)}
    {after : ReadFrom First start → Checked (ReadFrom Second other)} (agrees : Agrees tokens outcome ran)
    (others : ∀ parsed place isBehind, Stands tokens parsed.rest place →
      Agrees tokens (next parsed) (after ⟨parsed.result, place, isBehind⟩)) :
    Agrees tokens (outcome >>= next) (ran >>= after) := by
  cases outcome with
  | error error => exact agrees.fails after
  | ok parsed =>
      rcases agrees with ⟨place, isBehind, stands, isRan⟩
      rw [isRan, pure_bind]
      exact others parsed place isBehind stands

section Token

variable {Result : Type} {finish token : Token} {behind : List Token} {place : Nat}
  {outcome : Except ParseError (Parsed Result rest)}
  {after : { _token : Token // place < (tokens ++ [finish]).length } → Checked (ReadFrom Result start)}

theorem tokenAt_nil (stands : Stands tokens [] place)
    (others : ∀ inside, Agrees tokens outcome (after ⟨finish, inside⟩)) :
    Agrees tokens outcome (tokenAt (tokens ++ [finish]) place >>= after) := by
  rcases stands.tokenAt_nil finish with ⟨inside, isToken⟩
  rw [isToken, pure_bind]
  exact others inside

theorem tokenAt_cons (stands : Stands tokens (token :: behind) place)
    (others : ∀ inside, Agrees tokens outcome (after ⟨token, inside⟩)) :
    Agrees tokens outcome (tokenAt (tokens ++ [finish]) place >>= after) := by
  rcases stands.tokenAt_cons finish with ⟨inside, isToken⟩
  rw [isToken, pure_bind]
  exact others inside

end Token

theorem checked_bind {outcome : Except ParseError First} {next : First → Except ParseError (Parsed Second more)}
    {after : First → Checked (ReadFrom Second other)}
    (others : ∀ result, Agrees tokens (next result) (after result)) :
    Agrees tokens (outcome >>= next) (checked outcome >>= after) := by
  cases outcome with
  | error error => rfl
  | ok result => exact others result

end Agrees

/-! ## Both parsers side by side

The recursion is the parser's own, on the tokens that are left.  It is carried by the place: these are the
tokens from there on, before a construct and behind it.
-/

section Parsers

variable {finish : Token} {tokens : List Token}

theorem skipBlankTextAt_agrees (readable : Readable finish tokens) {rest : List Token} {place : Nat}
    (stands : Stands tokens rest place) :
    Agrees tokens (skipBlankText rest) (skipBlankTextAt (tokens ++ [finish]) place) := by
  induction rest generalizing place with
  | nil =>
      rw [skipBlankText, skipBlankTextAt]
      refine .tokenAt_nil stands fun inside => ?_
      dsimp only
      rw [if_neg (by simp [readable.ends])]
      exact ⟨place, _, stands, rfl⟩
  | cons token behind inductionHypothesis =>
      have others := inductionHypothesis stands.next
      rw [skipBlankText, skipBlankTextAt]
      refine .tokenAt_cons stands fun inside => ?_
      dsimp only
      split
      · split
        · exact others.bind fun parsed place isBehind stands => ⟨place, _, stands, rfl⟩
        · rfl
      · exact ⟨place, _, stands, rfl⟩

mutual

theorem callAt_agrees (readable : Readable finish tokens) {opening : Token} (delimited : opening.Delimited)
    (opens : opening.kind = .callStart) {rest : List Token} {place : Nat}
    (stands : Stands tokens rest place) :
    Agrees tokens (parseCall finish opening rest) (callAt (tokens ++ [finish]) opening place) := by
  rw [parseCall, callAt, nameIn_eq delimited opens, pure_bind]
  refine (argumentsAt_agrees readable _ stands).bind fun parsed place isBehind stands => ?_
  rcases parsed with ⟨⟨read, closing⟩, left, shorter⟩
  exact .checked_bind fun call => ⟨place, _, stands, rfl⟩
termination_by 8 * rest.length + 4

theorem argumentsAt_agrees (readable : Readable finish tokens) (name : String) {rest : List Token}
    {place : Nat} (stands : Stands tokens rest place) :
    Agrees tokens (parseArguments finish name rest) (argumentsAt (tokens ++ [finish]) name place) := by
  rw [parseArguments, argumentsAt]
  refine (argumentAt_agrees readable stands).bind fun parsed place isBehind stands => ?_
  rcases parsed with ⟨argument, _ | ⟨token, behind⟩, shorter⟩
  · dsimp only at stands ⊢
    refine .tokenAt_nil stands fun inside => ?_
    dsimp only
    rw [readable.ends]
    rfl
  · dsimp only at stands ⊢
    have isNext := stands.next
    have shorterBehind : behind.length < rest.length := shorter
    refine .tokenAt_cons stands fun inside => ?_
    dsimp only
    cases token.kind with
    | comma =>
        refine (argumentsAt_agrees readable name isNext).bind fun parsed place isBehind stands => ?_
        exact ⟨place, _, stands, rfl⟩
    | callEnd => exact ⟨_, _, isNext, rfl⟩
    | _ => rfl
termination_by 8 * rest.length + 3
decreasing_by
  all_goals omega

theorem argumentAt_agrees (readable : Readable finish tokens) {rest : List Token} {place : Nat}
    (stands : Stands tokens rest place) :
    Agrees tokens (parseArgument finish rest) (argumentAt (tokens ++ [finish]) place) := by
  rw [argumentAt]
  match rest with
  | [] =>
      have value := valueAt_agrees readable finish.span stands
      rw [parseValue] at value
      rw [parseArgument]
      refine .tokenAt_nil stands fun inside => ?_
      dsimp only
      rw [if_neg (by simp [readable.ends])]
      exact value.fails _
  | token :: behind =>
      rw [parseArgument]
      refine .tokenAt_cons stands fun inside => ?_
      dsimp only
      split
      · refine (valueAt_agrees readable token.span stands.next).bind fun parsed place isBehind stands => ?_
        exact ⟨place, _, stands, rfl⟩
      · refine (valueAt_agrees readable token.span stands).bind fun parsed place isBehind stands => ?_
        exact ⟨place, _, stands, rfl⟩
termination_by 8 * rest.length + 2
decreasing_by
  all_goals simp only [List.length_cons, List.length_nil]
  all_goals omega

theorem valueAt_agrees (readable : Readable finish tokens) (start : Span) {rest : List Token} {place : Nat}
    (stands : Stands tokens rest place) :
    Agrees tokens (parseValue finish start rest) (valueAt (tokens ++ [finish]) start place) := by
  rw [valueAt]
  match rest with
  | [] =>
      have parts := partsAt_agrees readable stands
      rw [parseParts] at parts
      rw [parseValue]
      refine .tokenAt_nil stands fun inside => ?_
      dsimp only
      rw [if_neg (by simp [readable.ends])]
      exact parts.fails _
  | token :: behind =>
      rw [parseValue]
      refine .tokenAt_cons stands fun inside => ?_
      dsimp only
      split
      · refine (quotedAt_agrees readable _ stands.next).bind fun parsed place isBehind stands => ?_
        rcases parsed with ⟨⟨parts, closing⟩, left, shorter⟩
        refine (skipBlankTextAt_agrees readable stands).bind fun parsed place isBehind stands => ?_
        exact ⟨place, _, stands, rfl⟩
      · refine (partsAt_agrees readable stands).bind fun parsed place isBehind stands => ?_
        exact ⟨place, _, stands, rfl⟩
termination_by 8 * rest.length + 1
decreasing_by
  all_goals grind

theorem partsAt_agrees (readable : Readable finish tokens) {rest : List Token} {place : Nat}
    (stands : Stands tokens rest place) :
    Agrees tokens (parseParts finish rest) (partsAt (tokens ++ [finish]) place) := by
  rw [partsAt]
  match rest with
  | [] =>
      rw [parseParts]
      refine .tokenAt_nil stands fun inside => ?_
      dsimp only
      rw [readable.ends]
      rfl
  | token :: behind =>
      have isNext := stands.next
      have delimited := (readable.of_stands stands).2
      rw [parseParts]
      refine .tokenAt_cons stands fun inside => ?_
      dsimp only
      cases kind : token.kind with
      | comma => exact ⟨place, _, stands, rfl⟩
      | callEnd => exact ⟨place, _, stands, rfl⟩
      | text =>
          refine (partsAt_agrees readable isNext).bind fun parsed place isBehind stands => ?_
          exact ⟨place, _, stands, rfl⟩
      | variableReference =>
          dsimp only
          rw [referenceIn_eq delimited kind, pure_bind]
          refine (partsAt_agrees readable isNext).bind fun parsed place isBehind stands => ?_
          exact ⟨place, _, stands, rfl⟩
      | callStart =>
          refine (callAt_agrees readable delimited kind isNext).bind fun parsed place isBehind stands => ?_
          rcases parsed with ⟨call, left, shorter⟩
          refine (partsAt_agrees readable stands).bind fun parsed place isBehind stands => ?_
          exact ⟨place, _, stands, rfl⟩
      | _ => rfl
termination_by 8 * rest.length
decreasing_by
  all_goals simp only [List.length_cons]
  all_goals omega

theorem quotedAt_agrees (readable : Readable finish tokens) (quote : Char) {rest : List Token} {place : Nat}
    (stands : Stands tokens rest place) :
    Agrees tokens (parseQuoted finish quote rest) (quotedAt (tokens ++ [finish]) quote place) := by
  rw [quotedAt]
  match rest with
  | [] =>
      rw [parseQuoted]
      refine .tokenAt_nil stands fun inside => ?_
      dsimp only
      rw [readable.ends]
      rfl
  | token :: behind =>
      have isNext := stands.next
      have delimited := (readable.of_stands stands).2
      rw [parseQuoted]
      refine .tokenAt_cons stands fun inside => ?_
      dsimp only
      cases kind : token.kind with
      | quoteClose => exact ⟨_, _, isNext, rfl⟩
      | text =>
          refine (quotedAt_agrees readable quote isNext).bind fun parsed place isBehind stands => ?_
          exact ⟨place, _, stands, rfl⟩
      | variableReference =>
          dsimp only
          rw [referenceIn_eq delimited kind, pure_bind]
          refine (quotedAt_agrees readable quote isNext).bind fun parsed place isBehind stands => ?_
          exact ⟨place, _, stands, rfl⟩
      | callStart =>
          refine (callAt_agrees readable delimited kind isNext).bind fun parsed place isBehind stands => ?_
          rcases parsed with ⟨call, left, shorter⟩
          refine (quotedAt_agrees readable quote stands).bind fun parsed place isBehind stands => ?_
          exact ⟨place, _, stands, rfl⟩
      | _ => rfl
termination_by 8 * rest.length
decreasing_by
  all_goals simp only [List.length_cons]
  all_goals omega

end

theorem attributesAt_agrees (readable : Readable finish tokens) (known : Attributes) {rest : List Token}
    {place : Nat} (stands : Stands tokens rest place) :
    Agrees tokens (parseAttributes finish known rest) (attributesAt (tokens ++ [finish]) known place) := by
  rw [attributesAt]
  match rest with
  | [] =>
      rw [parseAttributes]
      refine .tokenAt_nil stands fun inside => ?_
      dsimp only
      rw [readable.ends]
      rfl
  | token :: behind =>
      have isNext := stands.next
      rw [parseAttributes]
      refine .tokenAt_cons stands fun inside => ?_
      dsimp only
      cases token.kind with
      | attributeName =>
          refine (quotedAt_agrees readable _ isNext).bind fun parsed place isBehind stands => ?_
          rcases parsed with ⟨⟨parts, closing⟩, left, shorter⟩
          refine (attributesAt_agrees readable _ stands).bind fun parsed place isBehind stands => ?_
          exact ⟨place, _, stands, rfl⟩
      | tagEnd => exact ⟨_, _, isNext, rfl⟩
      | tagSelfClose => exact ⟨_, _, isNext, rfl⟩
      | _ => rfl
termination_by rest.length
decreasing_by
  all_goals simp only [List.length_cons]
  all_goals omega

mutual

theorem bodyAt_agrees (readable : Readable finish tokens) {rest : List Token} {place : Nat}
    (stands : Stands tokens rest place) :
    Agrees tokens (parseBody finish rest) (bodyAt (tokens ++ [finish]) place) := by
  rw [bodyAt]
  match rest with
  | [] =>
      rw [parseBody]
      refine .tokenAt_nil stands fun inside => ?_
      dsimp only
      rw [readable.ends]
      exact ⟨place, _, stands, rfl⟩
  | token :: behind =>
      have isNext := stands.next
      rcases readable.of_stands stands with ⟨notEnd, delimited⟩
      rw [parseBody]
      refine .tokenAt_cons stands fun inside => ?_
      dsimp only
      cases kind : token.kind with
      | endOfSource => exact absurd kind notEnd
      | tagClose => exact ⟨place, _, stands, rfl⟩
      | tagStart =>
          dsimp only
          split
          · exact ⟨place, _, stands, rfl⟩
          · refine (blockAt_agrees readable token isNext).bind fun parsed place isBehind stands => ?_
            rcases parsed with ⟨block, left, shorter⟩
            refine (bodyAt_agrees readable stands).bind fun parsed place isBehind stands => ?_
            exact ⟨place, _, stands, rfl⟩
      | text =>
          refine (bodyAt_agrees readable isNext).bind fun parsed place isBehind stands => ?_
          exact ⟨place, _, stands, rfl⟩
      | variableReference =>
          dsimp only
          rw [referenceIn_eq delimited kind, pure_bind]
          refine (bodyAt_agrees readable isNext).bind fun parsed place isBehind stands => ?_
          exact ⟨place, _, stands, rfl⟩
      | callStart =>
          refine (callAt_agrees readable delimited kind isNext).bind fun parsed place isBehind stands => ?_
          rcases parsed with ⟨call, left, shorter⟩
          refine (bodyAt_agrees readable stands).bind fun parsed place isBehind stands => ?_
          exact ⟨place, _, stands, rfl⟩
      | _ => rfl
termination_by 4 * rest.length
decreasing_by
  all_goals simp only [List.length_cons]
  all_goals omega

theorem blockAt_agrees (readable : Readable finish tokens) (opening : Token) {rest : List Token} {place : Nat}
    (stands : Stands tokens rest place) :
    Agrees tokens (parseBlock finish opening rest) (blockAt (tokens ++ [finish]) opening place) := by
  rw [parseBlock, blockAt]
  refine (attributesAt_agrees readable [] stands).bind fun parsed place isBehind stands => ?_
  rcases parsed with ⟨⟨attributes, ending⟩, left, shorter⟩
  dsimp only at stands ⊢
  generalize openedTag opening = name
  split
  · rw [if_pos rfl]
    refine .checked_bind fun _ => .checked_bind fun condition => ?_
    refine (branchesAt_agrees readable opening _ stands).bind fun parsed place isBehind stands => ?_
    exact ⟨place, _, stands, rfl⟩
  · rw [if_neg (by decide), if_pos rfl]
    refine .checked_bind fun _ => .checked_bind fun head => ?_
    refine (bodyAt_agrees readable stands).bind fun parsed place isBehind stands => ?_
    rcases parsed with ⟨body, _ | ⟨closing, behind⟩, shorterStill⟩
    · dsimp only at stands ⊢
      refine .tokenAt_nil stands fun inside => ?_
      dsimp only
      rw [readable.ends]
      rfl
    · dsimp only at stands ⊢
      have isNext := stands.next
      have notEnd := (readable.of_stands stands).1
      refine .tokenAt_cons stands fun inside => ?_
      dsimp only
      cases kind : closing.kind with
      | endOfSource => exact absurd kind notEnd
      | tagClose => exact .checked_bind fun _ => ⟨_, _, isNext, rfl⟩
      | _ => rfl
  · rw [if_neg (by decide), if_neg (by decide), if_pos rfl]
    exact .checked_bind fun segment => ⟨place, _, stands, rfl⟩
  · next notIf notLoop notInclude =>
      rw [if_neg notIf, if_neg notLoop, if_neg notInclude]
      rfl
termination_by 4 * rest.length + 2
decreasing_by
  all_goals omega

theorem branchesAt_agrees (readable : Readable finish tokens) (opening : Token)
    (current : Option (Argument × Span)) {rest : List Token} {place : Nat}
    (stands : Stands tokens rest place) :
    Agrees tokens (parseBranches finish opening current rest)
      (branchesAt (tokens ++ [finish]) opening current place) := by
  rw [parseBranches, branchesAt]
  refine (bodyAt_agrees readable stands).bind fun parsed place isBehind stands => ?_
  rcases parsed with ⟨body, _ | ⟨token, behind⟩, shorter⟩
  · dsimp only at stands ⊢
    refine .tokenAt_nil stands fun inside => ?_
    dsimp only
    rw [readable.ends]
    rfl
  · dsimp only at stands ⊢
    have shorterBehind : behind.length < rest.length := shorter
    have isNext := stands.next
    have notEnd := (readable.of_stands stands).1
    refine .tokenAt_cons stands fun inside => ?_
    dsimp only
    cases kind : token.kind with
    | endOfSource => exact absurd kind notEnd
    | tagClose => exact .checked_bind fun _ => ⟨_, _, isNext, rfl⟩
    | tagStart =>
        refine (attributesAt_agrees readable [] isNext).bind fun parsed place isBehind stands => ?_
        rcases parsed with ⟨⟨attributes, ending⟩, left, shorterLeft⟩
        refine .checked_bind fun _ => ?_
        have others := fun next => branchesAt_agrees readable opening next stands
        cases current with
        | none => rfl
        | some condition =>
            simp only [Option.isNone_some, Bool.false_eq_true, if_false, pure_bind]
            split
            · refine .checked_bind fun next => ?_
              exact (others (some (next, token.span))).bind fun parsed place isBehind stands => ⟨place, _, stands, rfl⟩
            · refine .checked_bind fun _ => ?_
              exact (others none).bind fun parsed place isBehind stands => ⟨place, _, stands, rfl⟩
    | _ => rfl
termination_by 4 * rest.length + 1
decreasing_by
  all_goals omega

end

theorem templateAt_eq (readable : Readable finish tokens) :
    templateAt (tokens ++ [finish]) = checked (parseTokens finish tokens) := by
  have body := bodyAt_agrees readable (stands_start tokens)
  rw [templateAt, parseTokens]
  cases read : parseBody finish tokens with
  | error error =>
      rw [read] at body
      rw [show bodyAt (tokens ++ [finish]) 0 = throw error from body]
      rfl
  | ok parsed =>
      rw [read] at body
      rcases body with ⟨place, isBehind, stands, isRan⟩
      rcases parsed with ⟨parts, _ | ⟨token, behind⟩, shorter⟩
      · dsimp only at stands isRan
        rcases stands.tokenAt_nil finish with ⟨inside, isToken⟩
        rw [isRan, pure_bind]
        dsimp only
        rw [isToken, pure_bind]
        dsimp only
        rw [readable.ends]
        rfl
      · dsimp only at stands isRan
        rcases stands.tokenAt_cons finish with ⟨inside, isToken⟩
        have notEnd := (readable.of_stands stands).1
        rw [isRan, pure_bind]
        dsimp only
        rw [isToken, pure_bind]
        dsimp only
        split
        · next isEnd => exact absurd isEnd notEnd
        · next closes => exact (congrArg checked (if_pos closes)).symm
        · next notClosing => exact (congrArg checked (if_neg notClosing)).symm

end Parsers

/-! ## Whole sources -/

theorem parseByPlaces_eq (source : String) : parseByPlaces source = some (parse source) := by
  unfold parseByPlaces
  dsimp only
  cases found : (lex source).errors with
  | cons first more =>
      unfold parse
      dsimp only
      rw [found]
  | nil =>
      have delimited := (closesAll_of_lexFrom found).2
      have readable : Readable (Token.finish (Span.point (lex source).finish)) (lex source).tokens :=
        ⟨rfl, fun token member => ⟨kind_ne_of_mem_lexFrom member, delimited token member⟩⟩
      rw [parse_eq_of_errorFree found, Lexed.allTokens, templateAt_eq readable]
      rfl

/-- Without lexical errors the tokens are well nested.  What the parser then reports never blames their
nesting, and it neither asks for a token that is not there nor cuts a lexeme out of its bounds. -/
theorem parse_of_errorFree {source : String} (errorFree : (lex source).errors = []) :
    WellNested (lex source).tokens ∧
    (∀ errors, parse source = .error errors → ∀ error ∈ errors.toList, ¬ error.fault.BlamesNesting) ∧
    parseByPlaces source = some (parse source) := by
  have word : WellNested (lex source).tokens := (closesAll_of_lexFrom errorFree).1
  refine ⟨word, fun errors isError error member => ?_, parseByPlaces_eq source⟩
  rw [parse_eq_of_errorFree errorFree] at isError
  exact not_blamesNesting_of_parseTokens word isError member

/-- Every kind of construct, and a fault that is not one of nesting. -/
def misclosedSource : String :=
  "\x7bf(a=\"b\x7b$c\x7d\", d)\x7d<tpl:if is=\"\x7bg()\x7d\">e</tpl:foreach>"

theorem parse_misclosedSource : (lex misclosedSource).errors = [] ∧
    WellNested (lex misclosedSource).tokens ∧
    (∀ errors, parse misclosedSource = .error errors →
      ∀ error ∈ errors.toList, ¬ error.fault.BlamesNesting) ∧
    parseByPlaces misclosedSource = some (parse misclosedSource) := by
  have errorFree : (lex misclosedSource).errors = [] := by decide +kernel
  exact ⟨errorFree, parse_of_errorFree errorFree⟩

end Markup
end TemplateCascade
