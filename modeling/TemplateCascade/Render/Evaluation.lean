import TemplateCascade.Render.Host
import TemplateCascade.Value.Comparison

namespace TemplateCascade
namespace Render

/-!
# Evaluating generated code

Code has a value in a scope.  Constants and references to the data keep their type; the value of any
other code is the text it writes.  Rendering writes the text of the value.  Loops bind names in front
of those that are bound already and of the data.
-/

/-- The data, and the names that loops have bound, innermost first. -/
structure Scope where
  data : Value
  bindings : List (String × Value)

namespace Scope

/-- The value at a path: its first name is looked up, the rest is followed down from there. -/
def lookup? (scope : Scope) : List String → Option Value
  | [] => none
  | name :: rest =>
      ((entryNamed? scope.bindings name).or (scope.data.child? name)).bind
        fun value => value.follow? rest

/-- Bind a name. -/
def bind (scope : Scope) (name : String) (value : Value) : Scope :=
  { scope with bindings := (name, value) :: scope.bindings }

/-- Bind the value of a loop, and its key if the loop names one; the value hides a key of its name. -/
def enter (scope : Scope) (key : Option String) (value : String) (item : Value × Value) : Scope :=
  match key with
  | some key => (scope.bind key item.1).bind value item.2
  | none => scope.bind value item.2

end Scope

/-- The items of a collection with their keys: numbers from zero for a list, names for a map. -/
def itemsOf : Value → List (Value × Value)
  | .list items =>
      items.zipIdx.map fun (item, index) => (.number (Float.ofNat index), item)
  | .map entries => entries.map fun (name, item) => (.string name, item)
  | _ => []

/-- Write something for every item, one after the other. -/
def writeEach (write : Value × Value → Except RenderError String) :
    List (Value × Value) → Except RenderError String
  | [] => .ok ""
  | item :: rest => do
      let text ← write item
      let more ← writeEach write rest
      .ok (text ++ more)

/-- The result of comparing two values. -/
def comparisonHolds (operator : ComparisonOperator) (left right : Value) : Bool :=
  match operator with
  | .equal => left.looselyEqual right
  | .unequal => !left.looselyEqual right
  | .less => left.looseOrder? right == some .lt
  | .atMost => left.looseOrder? right == some .lt || left.looseOrder? right == some .eq
  | .greater => left.looseOrder? right == some .gt
  | .atLeast => left.looseOrder? right == some .gt || left.looseOrder? right == some .eq

/-- The number of things a number stands for: none when it is negative or not finite. -/
def countOf (number : Float) : Nat :=
  if (Number.Double.ofFloat number).isFinite then
    (Number.clampedInteger 0 (Number.twoTo 64 - 1) number).toNat
  else 0

/-- The greatest number of decimals that a template can ask for. -/
def mostDecimals : Nat := 12

/-- The number of decimals that an option asks for. -/
def decimalsOf (option : Option Value) : Nat :=
  min mostDecimals ((option.map fun value => countOf value.toNumber).getD 0)

/-- The date format that an option asks for; empty text asks for none. -/
def dateFormatOf (option : Option Value) : Option String :=
  (option.map Value.text).filter fun format => format != ""

/-- The timestamp a number stands for. -/
def timestampOf (number : Float) : Int :=
  Number.clampedInteger (-Number.twoTo 63) (Number.twoTo 63 - 1) number

/-- A value in the format of the host. -/
def formatValue (host : Host) (kind : FormatKind) (value : Value) (option : Option Value) :
    Except RenderError String :=
  match kind with
  | .count => .ok (host.formatNumber (Float.ofNat value.count) (decimalsOf option))
  | .number => .ok (host.formatNumber value.toNumber (decimalsOf option))
  | .date | .time | .dateTime =>
      host.formatDate kind (timestampOf value.toNumber) (dateFormatOf option)

mutual

/-- The value of code. -/
def evaluate (host : Host) (scope : Scope) : Code → Except RenderError Value
  | .text content => .ok (.string content)
  | .constant value => .ok value
  | .reference path => .ok ((scope.lookup? path).getD .null)
  | .concat parts => do
      let text ← writeAll host scope parts
      .ok (.string text)
  | .escape mode inner => do
      let value ← evaluate host scope inner
      .ok (.string (mode.apply value.text))
  | .conditional test body otherwise => do
      let holds ← testHolds host scope test
      if holds then do
        let value ← evaluate host scope body
        .ok (.string value.text)
      else do
        let value ← evaluate host scope otherwise
        .ok (.string value.text)
  | .each source key value body => do
      let collection ← evaluate host scope source
      let text ← writeEach (fun item => do
        let output ← evaluate host (scope.enter key value item) body
        .ok output.text) (itemsOf collection)
      .ok (.string text)
  | .arithmetic calculation => do
      let result ← compute host scope calculation
      .ok (.string (Value.numberText result))
  | .format kind value option => do
      let value ← evaluate host scope value
      let option ← evaluateOption host scope option
      let text ← formatValue host kind value option
      .ok (.string text)
  | .link kind data parameters => do
      let kind ← evaluate host scope kind
      let data ← evaluateOption host scope data
      let parameters ← evaluateParameters host scope parameters
      .ok (.string (host.link kind.text (data.getD .null) parameters))
  | .pageNavigation link data page perPage total parameters => do
      let link ← evaluate host scope link
      let data ← evaluate host scope data
      let parameters ← evaluateParameters host scope parameters
      let page ← evaluate host scope page
      let perPage ← evaluate host scope perPage
      let total ← evaluate host scope total
      .ok (.string (host.pageNavigation
        ⟨link.text, data, countOf page.toNumber, countOf perPage.toNumber, countOf total.toNumber,
          parameters⟩))
  | .helper name arguments => do
      let name ← evaluate host scope name
      let arguments ← evaluateAll host scope arguments
      .ok (.string (host.helper name.text arguments))
  | .inclusion name => .error (.unexpandedInclude name)

/-- The texts of several codes, one after the other. -/
def writeAll (host : Host) (scope : Scope) : List Code → Except RenderError String
  | [] => .ok ""
  | code :: rest => do
      let value ← evaluate host scope code
      let more ← writeAll host scope rest
      .ok (value.text ++ more)

/-- The values of several codes. -/
def evaluateAll (host : Host) (scope : Scope) : List Code → Except RenderError (List Value)
  | [] => .ok []
  | code :: rest => do
      let value ← evaluate host scope code
      let more ← evaluateAll host scope rest
      .ok (value :: more)

/-- The value of code that may be absent. -/
def evaluateOption (host : Host) (scope : Scope) :
    Option Code → Except RenderError (Option Value)
  | none => .ok none
  | some code => do
      let value ← evaluate host scope code
      .ok (some value)

/-- The texts of named codes. -/
def evaluateParameters (host : Host) (scope : Scope) :
    List (String × Code) → Except RenderError (List (String × String))
  | [] => .ok []
  | (name, code) :: rest => do
      let value ← evaluate host scope code
      let more ← evaluateParameters host scope rest
      .ok ((name, value.text) :: more)

/-- Whether a condition holds.  The right side is looked at only if the left side does not decide. -/
def testHolds (host : Host) (scope : Scope) : Test → Except RenderError Bool
  | .truthy code => do
      let value ← evaluate host scope code
      .ok value.isTruthy
  | .not inner => do
      let holds ← testHolds host scope inner
      .ok (!holds)
  | .and left right => do
      let holds ← testHolds host scope left
      if holds then testHolds host scope right else .ok false
  | .or left right => do
      let holds ← testHolds host scope left
      if holds then .ok true else testHolds host scope right
  | .compare operator left right => do
      let left ← evaluate host scope left
      let right ← evaluate host scope right
      .ok (comparisonHolds operator left right)

/-- The result of a calculation. -/
def compute (host : Host) (scope : Scope) : Arithmetic → Except RenderError Float
  | .number amount => .ok amount
  | .value code => do
      let value ← evaluate host scope code
      .ok value.toNumber
  | .negate inner => do
      let amount ← compute host scope inner
      .ok (-amount)
  | .binary operator left right => do
      let left ← compute host scope left
      let right ← compute host scope right
      (operator.apply left right).mapError .arithmetic
  | .function function arguments => do
      let amounts ← computeAll host scope arguments
      .ok (function.apply amounts)

/-- The results of several calculations. -/
def computeAll (host : Host) (scope : Scope) : List Arithmetic → Except RenderError (List Float)
  | [] => .ok []
  | calculation :: rest => do
      let amount ← compute host scope calculation
      let more ← computeAll host scope rest
      .ok (amount :: more)

end

/-- The output of code for some data. -/
def render (host : Host) (data : Value) (code : Code) : Except RenderError String := do
  let value ← evaluate host ⟨data, []⟩ code
  .ok value.text

end Render
end TemplateCascade
