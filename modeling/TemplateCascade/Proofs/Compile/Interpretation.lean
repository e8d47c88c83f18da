import Mathlib
import TemplateCascade.Compile.Environment
import TemplateCascade.Proofs.Expression.SimpleConditions
import TemplateCascade.Proofs.Markup.Nesting
import TemplateCascade.Render.Evaluation

namespace TemplateCascade

/-!
# Reading templates directly

What a template without calls writes, told from its segments alone: there is no code, no escaping but at
variables, and no stack of bindings.  Names stand for values; a loop changes what two of them stand for
while its body is written.

The rules are a relation, since a template may include others without end.  At most one text can be told
from them, and that a text can be told is proved elsewhere.
-/

/-! ## Names -/

/-- The values that names stand for. -/
abbrev Names := String → Option Value

namespace Names

/-- Names stand for the fields of the data. -/
def ofData (data : Value) : Names :=
  data.child?

/-- A name stands for a value, whatever it stood for before. -/
def bind (names : Names) (name : String) (value : Value) : Names :=
  Function.update names name (some value)

/-- What names stand for in the body of a loop: the value hides a key of the same name. -/
def enter (names : Names) (key : Option String) (value : String) (item : Value × Value) : Names :=
  match key with
  | some key => (names.bind key item.1).bind value item.2
  | none => names.bind value item.2

/-- The value that the first name of a path stands for, followed along the rest. -/
def valueAt (names : Names) : List String → Option Value
  | [] => none
  | name :: rest => (names name).bind fun value => value.follow? rest

end Names

/-! ## Conditions -/

namespace Expression

/-- The value of an operand; what is missing is null. -/
def Operand.value (names : Names) : Operand → Value
  | .reference path => (names.valueAt path).getD .null
  | .constant value => value

/-- Whether a condition holds. -/
def Condition.holds (names : Names) : Condition → Bool
  | .truthy operand => (operand.value names).isTruthy
  | .compare operator left right =>
      Render.comparisonHolds operator (left.value names) (right.value names)
  | .not inner => !inner.holds names
  | .and left right => left.holds names && right.holds names
  | .or left right => left.holds names || right.holds names

end Expression

namespace Compile

open Expression (Condition Item Token Written)
open Markup (ArgumentOf BranchOf Segment Template nestedAll)
open Text (Escaping Span)

/-- The tokens that variables and literal text in a row are read as. -/
inductive Spells : List Segment → List Item → Prop where
  | nil : Spells [] []
  | literal {text : String} {span : Span} {rest : List Segment} {front items : List Item}
      (scanned : (Expression.tokensFrom ⟨span.offset, span.line, span.column⟩ text.toList).map
        (List.map Token.item) = .ok front)
      (behind : Spells rest items) : Spells (.literal text span :: rest) (front ++ items)
  | reference {path : List String} {span : Span} {rest : List Segment} {items : List Item}
      (behind : Spells rest items) :
      Spells (.reference path span :: rest) (.value (.reference path) :: items)

/-- An argument is a condition, in other words. -/
def Means (argument : ArgumentOf Segment) (condition : Condition) : Prop :=
  ∃ items, Spells argument.parts items ∧ Written .alternatives items condition

theorem Spells.unique {parts : List Segment} {items others : List Item} (spells : Spells parts items)
    (again : Spells parts others) : items = others := by
  induction spells generalizing others with
  | nil =>
      cases again
      rfl
  | literal scanned _ inductionHypothesis =>
      cases again with
      | literal scannedAgain behind =>
          rw [scanned, Except.ok.injEq] at scannedAgain
          rw [scannedAgain, inductionHypothesis behind]
  | reference _ inductionHypothesis =>
      cases again with
      | reference behind => rw [inductionHypothesis behind]

/-- An argument is one condition at most. -/
theorem Means.unique {argument : ArgumentOf Segment} {condition other : Condition}
    (means : Means argument condition) (again : Means argument other) : condition = other := by
  rcases means with ⟨items, spells, written⟩
  rcases again with ⟨others, spellsAgain, writtenAgain⟩
  rw [← spells.unique spellsAgain] at writtenAgain
  exact written.unique writtenAgain

/-! ## What segments write -/

/-- Items with their keys, which count from a number on. -/
def numbered (first : Nat) : List Value → List (Value × Value)
  | [] => []
  | item :: rest => (.number (Float.ofNat first), item) :: numbered (first + 1) rest

/-- What a loop runs over: the items of a list by their index, the entries of a map by their name. -/
def entriesOf : Value → List (Value × Value)
  | .list items => numbered 0 items
  | .map entries => entries.map fun entry => (.string entry.1, entry.2)
  | _ => []

mutual

/-- A segment writes a text. -/
inductive Writes (environment : Environment) (style : Position) : Names → Segment → String → Prop where
  | literal {names : Names} (text : String) (span : Span) :
      Writes environment style names (.literal text span) text
  | present {names : Names} {path : List String} {value : Value} (span : Span)
      (found : names.valueAt path = some value) :
      Writes environment style names (.reference path span) (Escaping.html.apply value.text)
  | missing {names : Names} {path : List String} (span : Span) (absent : names.valueAt path = none) :
      Writes environment style names (.reference path span) ""
  | choice {names : Names} {branches : List (BranchOf Segment)} {otherwise : Option (List Segment)}
      {text : String} (span : Span)
      (chosen : WritesChoice environment style names otherwise branches text) :
      Writes environment style names (.choice branches otherwise span) text
  | loop {names : Names} {path : List String} {value : String} {key : Option String}
      {body : List Segment} {text : String} (sourceSpan argumentSpan span : Span) (quoted : Bool)
      (each : WritesEach environment style names key value body
        (entriesOf ((names.valueAt path).getD .null)) text) :
      Writes environment style names
        (.loop ⟨[.reference path sourceSpan], argumentSpan, quoted⟩ value key body span) text
  | inclusion {names : Names} {name : String} {template : Template} {text : String} (span : Span)
      (found : environment.template name style = .ok (some template))
      (inside : WritesAll environment style names template.segments text) :
      Writes environment style names (.inclusion name span) text

/-- Some segments write a text, one after the other. -/
inductive WritesAll (environment : Environment) (style : Position) :
    Names → List Segment → String → Prop where
  | nil {names : Names} : WritesAll environment style names [] ""
  | cons {names : Names} {segment : Segment} {rest : List Segment} {text more : String}
      (first : Writes environment style names segment text)
      (behind : WritesAll environment style names rest more) :
      WritesAll environment style names (segment :: rest) (text ++ more)

/-- Branches write a text, given what is there otherwise. -/
inductive WritesChoice (environment : Environment) (style : Position) :
    Names → Option (List Segment) → List (BranchOf Segment) → String → Prop where
  | holds {names : Names} {otherwise : Option (List Segment)} {argument : ArgumentOf Segment}
      {condition : Condition} {body : List Segment} {rest : List (BranchOf Segment)} {text : String}
      (span : Span) (means : Means argument condition) (holds : condition.holds names = true)
      (inside : WritesAll environment style names body text) :
      WritesChoice environment style names otherwise (⟨argument, body, span⟩ :: rest) text
  | fails {names : Names} {otherwise : Option (List Segment)} {argument : ArgumentOf Segment}
      {condition : Condition} {body : List Segment} {rest : List (BranchOf Segment)} {text : String}
      (span : Span) (means : Means argument condition) (fails : condition.holds names = false)
      (behind : WritesChoice environment style names otherwise rest text) :
      WritesChoice environment style names otherwise (⟨argument, body, span⟩ :: rest) text
  | otherwise {names : Names} {body : List Segment} {text : String}
      (inside : WritesAll environment style names body text) :
      WritesChoice environment style names (some body) [] text
  | nothing {names : Names} : WritesChoice environment style names none [] ""

/-- The body of a loop writes a text for some entries, one after the other. -/
inductive WritesEach (environment : Environment) (style : Position) :
    Names → Option String → String → List Segment → List (Value × Value) → String → Prop where
  | nil {names : Names} {key : Option String} {value : String} {body : List Segment} :
      WritesEach environment style names key value body [] ""
  | cons {names : Names} {key : Option String} {value : String} {body : List Segment}
      {item : Value × Value} {rest : List (Value × Value)} {text more : String}
      (first : WritesAll environment style (names.enter key value item) body text)
      (behind : WritesEach environment style names key value body rest more) :
      WritesEach environment style names key value body (item :: rest) (text ++ more)

end

section Rules

variable {environment : Environment} {style : Position} {names : Names}

theorem writes_literal_iff {text other : String} {span : Span} :
    Writes environment style names (.literal text span) other ↔ other = text := by
  constructor
  · rintro ⟨⟩
    rfl
  · rintro rfl
    exact .literal other span

theorem writes_reference_iff {path : List String} {span : Span} {other : String} :
    Writes environment style names (.reference path span) other ↔
      other = Escaping.html.apply ((names.valueAt path).getD .null).text := by
  cases found : names.valueAt path with
  | none =>
      constructor
      · intro writes
        cases writes with
        | present _ present =>
            rw [found] at present
            cases present
        | missing => rfl
      · rintro rfl
        exact .missing span found
  | some value =>
      constructor
      · intro writes
        cases writes with
        | present _ present =>
            rw [found, Option.some.injEq] at present
            rw [present, Option.getD_some]
        | missing _ absent =>
            rw [found] at absent
            cases absent
      · rintro rfl
        exact .present span found

theorem writes_choice_iff {branches : List (BranchOf Segment)} {otherwise : Option (List Segment)}
    {span : Span} {other : String} :
    Writes environment style names (.choice branches otherwise span) other ↔
      WritesChoice environment style names otherwise branches other := by
  constructor
  · rintro ⟨⟩
    assumption
  · exact .choice span

theorem writes_loop_iff {path : List String} {value : String} {key : Option String}
    {body : List Segment} {sourceSpan argumentSpan span : Span} {quoted : Bool} {other : String} :
    Writes environment style names
        (.loop ⟨[.reference path sourceSpan], argumentSpan, quoted⟩ value key body span) other ↔
      WritesEach environment style names key value body
        (entriesOf ((names.valueAt path).getD .null)) other := by
  constructor
  · rintro ⟨⟩
    assumption
  · exact .loop sourceSpan argumentSpan span quoted

theorem writes_inclusion_iff {name : String} {template : Template} {span : Span} {other : String}
    (found : environment.template name style = .ok (some template)) :
    Writes environment style names (.inclusion name span) other ↔
      WritesAll environment style names template.segments other := by
  constructor
  · intro writes
    cases writes with
    | inclusion _ foundAgain inside =>
        rw [found, Except.ok.injEq, Option.some.injEq] at foundAgain
        exact foundAgain ▸ inside
  · exact .inclusion span found

theorem writesAll_nil_iff {other : String} :
    WritesAll environment style names [] other ↔ other = "" := by
  constructor
  · rintro ⟨⟩
    rfl
  · rintro rfl
    exact .nil

theorem writesAll_cons_iff {segment : Segment} {rest : List Segment} {other : String} :
    WritesAll environment style names (segment :: rest) other ↔
      ∃ text more, Writes environment style names segment text ∧
        WritesAll environment style names rest more ∧ other = text ++ more := by
  constructor
  · intro writes
    cases writes with
    | cons first behind => exact ⟨_, _, first, behind, rfl⟩
  · rintro ⟨text, more, first, behind, rfl⟩
    exact .cons first behind

theorem Writes.alone {segment : Segment} {text : String}
    (writes : Writes environment style names segment text) :
    WritesAll environment style names [segment] text := by
  rw [← String.append_empty (s := text)]
  exact .cons writes .nil

/-- A branch whose condition holds is chosen; there is no other condition that it could mean. -/
theorem writesChoice_holds_iff {otherwise : Option (List Segment)} {argument : ArgumentOf Segment}
    {condition : Condition} {body : List Segment} {rest : List (BranchOf Segment)} {span : Span}
    {other : String} (means : Means argument condition) (holds : condition.holds names = true) :
    WritesChoice environment style names otherwise (⟨argument, body, span⟩ :: rest) other ↔
      WritesAll environment style names body other := by
  constructor
  · intro writes
    cases writes with
    | holds _ _ _ inside => exact inside
    | fails _ meansAgain fails =>
        rw [← means.unique meansAgain, holds] at fails
        cases fails
  · exact .holds span means holds

theorem writesChoice_fails_iff {otherwise : Option (List Segment)} {argument : ArgumentOf Segment}
    {condition : Condition} {body : List Segment} {rest : List (BranchOf Segment)} {span : Span}
    {other : String} (means : Means argument condition) (fails : condition.holds names = false) :
    WritesChoice environment style names otherwise (⟨argument, body, span⟩ :: rest) other ↔
      WritesChoice environment style names otherwise rest other := by
  constructor
  · intro writes
    cases writes with
    | holds _ meansAgain holds =>
        rw [← means.unique meansAgain, fails] at holds
        cases holds
    | fails _ _ _ behind => exact behind
  · exact .fails span means fails

theorem writesChoice_otherwise_iff {body : List Segment} {other : String} :
    WritesChoice environment style names (some body) [] other ↔
      WritesAll environment style names body other := by
  constructor
  · rintro ⟨⟩
    assumption
  · exact .otherwise

theorem writesChoice_nothing_iff {other : String} :
    WritesChoice environment style names none [] other ↔ other = "" := by
  constructor
  · rintro ⟨⟩
    rfl
  · rintro rfl
    exact .nothing

theorem writesEach_nil_iff {key : Option String} {value : String} {body : List Segment}
    {other : String} : WritesEach environment style names key value body [] other ↔ other = "" := by
  constructor
  · rintro ⟨⟩
    rfl
  · rintro rfl
    exact .nil

theorem writesEach_cons_iff {key : Option String} {value : String} {body : List Segment}
    {item : Value × Value} {rest : List (Value × Value)} {other : String} :
    WritesEach environment style names key value body (item :: rest) other ↔
      ∃ text more, WritesAll environment style (names.enter key value item) body text ∧
        WritesEach environment style names key value body rest more ∧ other = text ++ more := by
  constructor
  · intro writes
    cases writes with
    | cons first behind => exact ⟨_, _, first, behind, rfl⟩
  · rintro ⟨text, more, first, behind, rfl⟩
    exact .cons first behind

end Rules

/-- A segment that can be read directly; what is inside it has to be looked at apart. -/
def Readable : Segment → Prop
  | .literal _ _ | .reference _ _ | .inclusion _ _ => True
  | .choice branches _ _ => ∀ branch ∈ branches, ∃ condition, Means branch.condition condition
  | .loop source _ _ _ _ => ∃ path span, source.parts = [.reference path span]
  | .call _ _ _ _ => False

end Compile
end TemplateCascade
