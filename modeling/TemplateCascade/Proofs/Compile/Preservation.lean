import Mathlib
import TemplateCascade.Proofs.Compile.IncludeGraph
import TemplateCascade.Proofs.Compile.Interpretation
import TemplateCascade.Proofs.Outcomes
import TemplateCascade.Proofs.Render.Writing

namespace TemplateCascade

/-!
# Generated code writes what its template says

A template without calls compiles, if nothing it includes is missing or includes itself, and its code writes
the one text that can be read off its segments directly.

A scope is a stack of bindings over the data, but all that matters of it is which value each name stands
for.  So the two sides are compared in every scope, and a loop needs no more than that entering it changes
the names as the rules say.
-/

/-! ## Scopes as names -/

namespace Render
namespace Scope

/-- What names stand for in a scope. -/
def names (scope : Scope) : Names :=
  fun name => (entryNamed? scope.bindings name).or (scope.data.child? name)

theorem names_ofData (data : Value) : (⟨data, []⟩ : Scope).names = Names.ofData data := by
  funext name
  rfl

theorem names_bind (scope : Scope) (name : String) (value : Value) :
    (scope.bind name value).names = scope.names.bind name value := by
  funext other
  by_cases same : other = name
  · subst same
    simp [names, bind, Names.bind, entryNamed?]
  · have differs : (other == name) = false := beq_eq_false_iff_ne.mpr same
    simp [names, bind, Names.bind, entryNamed?, List.lookup_cons, differs, same]

theorem names_enter (scope : Scope) (key : Option String) (value : String) (item : Value × Value) :
    (scope.enter key value item).names = scope.names.enter key value item := by
  cases key with
  | none => exact names_bind scope value item.2
  | some key => rw [enter, names_bind, names_bind, Names.enter]

theorem lookup?_eq_valueAt (scope : Scope) (path : List String) :
    scope.lookup? path = scope.names.valueAt path := by
  cases path <;> rfl

end Scope

open Expression (Condition Operand)

variable {host : Host} {scope : Scope}

theorem evaluate_reference (path : List String) :
    evaluate host scope (.reference path) = .ok ((scope.names.valueAt path).getD .null) := by
  rw [← Scope.lookup?_eq_valueAt]
  rfl

theorem evaluate_operand (operand : Operand) :
    evaluate host scope operand.code = .ok (operand.value scope.names) := by
  cases operand with
  | reference path => exact evaluate_reference path
  | constant value => rfl

/-- Testing never fails, so that it does not matter which sides of a condition are looked at. -/
theorem testHolds_condition (condition : Condition) :
    testHolds host scope condition.test = .ok (condition.holds scope.names) := by
  induction condition with
  | truthy operand =>
      rw [Condition.test, testHolds, evaluate_operand]
      rfl
  | compare operator left right =>
      rw [Condition.test, testHolds, evaluate_operand, evaluate_operand]
      rfl
  | not inner inductionHypothesis =>
      rw [Condition.test, testHolds, inductionHypothesis]
      rfl
  | and left right left_holds right_holds =>
      rw [Condition.test, testHolds, left_holds, right_holds, Condition.holds]
      cases left.holds scope.names <;> rfl
  | or left right left_holds right_holds =>
      rw [Condition.test, testHolds, left_holds, right_holds, Condition.holds]
      cases left.holds scope.names <;> rfl

end Render

namespace Compile

open Expression (Condition Item Token Written)
open Markup (ArgumentOf BranchOf Segment Template Throughout nested nestedAll nestedArgument
  nestedBranches nestedOtherwise)
open Render (Host RenderError Scope render write writeAll writeEach)
open Text (Escaping Span)

theorem itemsOf_eq_entriesOf (value : Value) : Render.itemsOf value = entriesOf value := by
  have counted : ∀ (items : List Value) (first : Nat),
      (items.zipIdx first).map (fun entry => (Value.number (Float.ofNat entry.2), entry.1)) =
        numbered first items := by
    intro items
    induction items with
    | nil => exact fun _ => rfl
    | cons item rest inductionHypothesis =>
        intro first
        rw [List.zipIdx_cons, List.map_cons, inductionHypothesis, numbered]
  cases value with
  | list items => exact counted items 0
  | _ => rfl

/-! ## Compilations that cannot fail -/

/-- A compilation succeeds, whatever has been noted before, and its result has a property. -/
def Delivers {Result : Type} (holds : Result → Prop) (compilation : CompileM Result) : Prop :=
  ∀ uses, ∃ result noted, compilation.after uses = (.ok result, noted) ∧ holds result

namespace Delivers

variable {Result Other : Type} {holds : Result → Prop} {others : Other → Prop}

theorem pure {result : Result} (held : holds result) :
    Delivers holds (Pure.pure result : CompileM Result) :=
  fun uses => ⟨result, uses, rfl, held⟩

theorem bind {compilation : CompileM Result} {next : Result → CompileM Other}
    (first : Delivers holds compilation)
    (then_ : ∀ result, holds result → Delivers others (next result)) :
    Delivers others (compilation >>= next) := by
  intro uses
  rcases first uses with ⟨result, between, ran, held⟩
  rw [CompileM.after_bind, ran]
  exact then_ result held between

theorem adapt {compilation : CompileM Result} (delivers : Delivers holds compilation)
    (wrap : CompileError → CompileError) : Delivers holds (ExceptT.adapt wrap compilation) := by
  intro uses
  rcases delivers uses with ⟨result, noted, ran, held⟩
  refine ⟨result, noted, ?_, held⟩
  rw [CompileM.after_adapt, ran]
  rfl

theorem mono {stronger : Result → Prop} {compilation : CompileM Result}
    (delivers : Delivers stronger compilation) (weaken : ∀ result, stronger result → holds result) :
    Delivers holds compilation := by
  intro uses
  rcases delivers uses with ⟨result, noted, ran, held⟩
  exact ⟨result, noted, ran, weaken result held⟩

end Delivers

/-! ## Texts that are the only ones allowed -/

/-- What is written is a text, and the only one that is allowed. -/
def Agrees (written : Except RenderError String) (allowed : String → Prop) : Prop :=
  ∃ text, written = .ok text ∧ ∀ other, allowed other ↔ other = text

namespace Agrees

variable {written : Except RenderError String} {allowed : String → Prop}

theorem of_eq {text : String} (only : ∀ other, allowed other ↔ other = text) :
    Agrees (.ok text) allowed :=
  ⟨text, rfl, only⟩

theorem congr {same : String → Prop} (agrees : Agrees written allowed)
    (allows : ∀ other, same other ↔ allowed other) : Agrees written same := by
  rcases agrees with ⟨text, found, only⟩
  exact ⟨text, found, fun other => (allows other).trans (only other)⟩

/-- One text after the other. -/
theorem append {more : Except RenderError String} {allowedMore : String → Prop}
    (first : Agrees written allowed) (second : Agrees more allowedMore) :
    Agrees (do
      let text ← written
      let rest ← more
      .ok (text ++ rest))
      (fun other => ∃ text rest, allowed text ∧ allowedMore rest ∧ other = text ++ rest) := by
  rcases first with ⟨text, rfl, onlyText⟩
  rcases second with ⟨rest, rfl, onlyRest⟩
  refine of_eq fun other => ?_
  constructor
  · rintro ⟨front, behind, isText, isRest, rfl⟩
    rw [(onlyText front).mp isText, (onlyRest behind).mp isRest]
  · rintro rfl
    exact ⟨text, rest, (onlyText text).mpr rfl, (onlyRest rest).mpr rfl, rfl⟩

end Agrees

section Segments

variable (environment : Environment) (style : Position)

/-- Code writes what a segment writes, in every scope. -/
def Speaks (segment : Segment) (code : Code) : Prop :=
  ∀ (host : Host) (scope : Scope),
    Agrees (write host scope code) (Writes environment style scope.names segment)

/-- Code writes what some segments write in a row, in every scope. -/
def SpeaksAll (segments : List Segment) (code : Code) : Prop :=
  ∀ (host : Host) (scope : Scope),
    Agrees (write host scope code) (WritesAll environment style scope.names segments)

/-- Codes write in a row what some segments write, in every scope. -/
def SpeakInRow (segments : List Segment) (codes : List Code) : Prop :=
  ∀ (host : Host) (scope : Scope),
    Agrees (writeAll host scope codes) (WritesAll environment style scope.names segments)

/-- Code writes what some branches write, in every scope. -/
def SpeaksChoice (otherwise : Option (List Segment)) (branches : List (BranchOf Segment)) (code : Code) :
    Prop :=
  ∀ (host : Host) (scope : Scope),
    Agrees (write host scope code) (WritesChoice environment style scope.names otherwise branches)

/-- A segment can be read directly, and if it is an inclusion, then it compiles to what it writes. -/
def Ready (inclusion : Inclusion) (segment : Segment) : Prop :=
  Readable segment ∧ ∀ name span, segment = .inclusion name span →
    Delivers (Speaks environment style segment) (inclusion name span .html)

/-- All of some segments are ready. -/
abbrev AllReady (inclusion : Inclusion) : List Segment → Prop :=
  Throughout (Ready environment style inclusion)

end Segments

variable {environment : Environment} {style : Position} {registry : Registry} {phrases : Phrases}
  {inclusion : Inclusion}

/-! ## Conditions -/

theorem expressionTokens_delivers {parts : List Segment} {items : List Item}
    (spells : Spells parts items) :
    Delivers (fun tokens => tokens.map Token.item = items)
      (expressionTokens (pendingAll registry phrases inclusion parts)) := by
  induction spells with
  | nil => exact Delivers.pure rfl
  | literal scanned _ inductionHypothesis =>
      rcases exists_of_map_eq_ok scanned with ⟨tokens, found, rfl⟩
      rw [pendingAll, pending, expressionTokens, found]
      refine (Delivers.pure rfl : Delivers (· = _) _).bind fun same isSame => ?_
      refine inductionHypothesis.bind fun more others => Delivers.pure ?_
      rw [List.map_append, isSame, others]
  | reference _ inductionHypothesis =>
      rw [pendingAll, pending, expressionTokens]
      refine (Delivers.pure rfl : Delivers (· = _) _).bind fun code same => ?_
      refine inductionHypothesis.bind fun more others => Delivers.pure ?_
      rw [List.map_cons, others, same, Code.escaped_raw]

theorem condition_delivers {argument : ArgumentOf Segment} {condition : Condition}
    (means : Means argument condition) :
    Delivers (· = condition.test)
      (PendingArgument.condition (pendingArgument registry phrases inclusion argument)) := by
  rcases argument with ⟨parts, span, quoted⟩
  rcases means with ⟨items, spells, written⟩
  refine (expressionTokens_delivers spells).bind fun tokens same => ?_
  rw [Expression.parseCondition_of_written _ (same ▸ written)]
  exact Delivers.pure rfl

/-! ## Segments -/

/-- A body that writes what its segments write does so for every entry of a loop. -/
theorem writeEach_agrees {body : List Segment} {code : Code}
    (speaks : SpeaksAll environment style body code) (host : Host) (scope : Scope) (key : Option String)
    (value : String) (items : List (Value × Value)) :
    Agrees (writeEach (fun item => write host (scope.enter key value item) code) items)
      (WritesEach environment style scope.names key value body items) := by
  induction items with
  | nil => exact Agrees.of_eq fun other => writesEach_nil_iff
  | cons item rest inductionHypothesis =>
      have first := speaks host (scope.enter key value item)
      rw [Scope.names_enter] at first
      exact (first.append inductionHypothesis).congr fun other => writesEach_cons_iff

theorem speaks_each {path : List String} {value : String} {key : Option String} {body : List Segment}
    {code : Code} (speaks : SpeaksAll environment style body code)
    (sourceSpan argumentSpan span : Span) (quoted : Bool) :
    Speaks environment style
      (.loop ⟨[.reference path sourceSpan], argumentSpan, quoted⟩ value key body span)
      (.each (.reference path) key value code) := by
  intro host scope
  have each := writeEach_agrees speaks host scope key value
    (entriesOf ((scope.names.valueAt path).getD .null))
  rw [Render.write_each, Render.evaluate_reference]
  change Agrees (writeEach _ (Render.itemsOf _)) _
  rw [itemsOf_eq_entriesOf]
  exact each.congr fun other => writes_loop_iff

theorem speaksChoice_conditional {otherwise : Option (List Segment)} {argument : ArgumentOf Segment}
    {condition : Condition} {body : List Segment} {rest : List (BranchOf Segment)} {first more : Code}
    (means : Means argument condition) (speaks : SpeaksAll environment style body first)
    (remaining : SpeaksChoice environment style otherwise rest more) (span : Span) :
    SpeaksChoice environment style otherwise (⟨argument, body, span⟩ :: rest)
      (.conditional condition.test first more) := by
  intro host scope
  rw [Render.write_conditional, Render.testHolds_condition]
  cases outcome : condition.holds scope.names with
  | true => exact (speaks host scope).congr fun other => writesChoice_holds_iff means outcome
  | false => exact (remaining host scope).congr fun other => writesChoice_fails_iff means outcome

/-- Codes that are joined write what they write in a row. -/
theorem compileParts_delivers {segments : List Segment} {parts : List Pending}
    (each : Delivers (SpeakInRow environment style segments) (compileEach .html parts)) :
    Delivers (SpeaksAll environment style segments) (compileParts .html parts) := by
  refine each.bind fun codes speak => Delivers.pure fun host scope => ?_
  rw [Render.write_concatenate]
  exact speak host scope

mutual

theorem segment_delivers : ∀ segment : Segment,
    AllReady environment style inclusion (nested .whole segment) →
      Delivers (Speaks environment style segment)
        ((pending registry phrases inclusion segment).compile .html)
  | .literal text span, _ => by
      refine Delivers.pure fun host scope => ?_
      rw [Render.write_text]
      exact Agrees.of_eq fun other => writes_literal_iff
  | .reference path span, _ => by
      refine Delivers.pure fun host scope => ?_
      rw [Render.write_escaped, Render.write_reference, Scope.lookup?_eq_valueAt]
      exact Agrees.of_eq fun other => writes_reference_iff
  | .call name arguments named span, ready =>
      absurd ready.head.1 not_false
  | .choice branches otherwise span, ready => by
      have conditions := ready.head.1
      refine (branches_deliver branches otherwise ready.tail.left conditions
        (otherwise_delivers otherwise ready.tail.right)).mono fun code speaks host scope => ?_
      exact (speaks host scope).congr fun other => writes_choice_iff
  | .loop ⟨parts, argumentSpan, quoted⟩ value key body span, ready => by
      rcases ready.head.1 with ⟨path, sourceSpan, isReference⟩
      change parts = _ at isReference
      subst isReference
      refine (Delivers.pure rfl : Delivers (· = Code.reference path) _).bind fun source same => ?_
      subst same
      refine (compileParts_delivers (all_deliver body ready.tail.right)).bind
        fun code speaks => Delivers.pure ?_
      exact speaks_each speaks sourceSpan argumentSpan span quoted
  | .inclusion name span, ready => ready.head.2 name span rfl

theorem all_deliver : ∀ segments : List Segment,
    AllReady environment style inclusion (nestedAll .whole segments) →
      Delivers (SpeakInRow environment style segments)
        (compileEach .html (pendingAll registry phrases inclusion segments))
  | [], _ => Delivers.pure fun _ _ => Agrees.of_eq fun _ => writesAll_nil_iff
  | segment :: rest, ready => by
      refine (segment_delivers segment ready.left).bind fun code speaks => ?_
      refine (all_deliver rest ready.right).bind fun codes others => Delivers.pure fun host scope => ?_
      rw [Render.writeAll_cons]
      exact ((speaks host scope).append (others host scope)).congr fun other => writesAll_cons_iff

theorem branches_deliver : ∀ (branches : List (BranchOf Segment)) (otherwise : Option (List Segment)),
    AllReady environment style inclusion (nestedBranches .whole branches) →
    (∀ branch ∈ branches, ∃ condition, Means branch.condition condition) →
    Delivers (SpeaksChoice environment style otherwise [])
      (compileChoice .html (pendingOtherwise registry phrases inclusion otherwise) []) →
      Delivers (SpeaksChoice environment style otherwise branches)
        (compileChoice .html (pendingOtherwise registry phrases inclusion otherwise)
          (pendingBranches registry phrases inclusion branches))
  | [], _, _, _, last => last
  | ⟨argument, body, span⟩ :: rest, otherwise, ready, conditions, last => by
      rw [List.forall_mem_cons] at conditions
      rcases conditions.1 with ⟨condition, means⟩
      refine (condition_delivers means).bind fun test same => ?_
      subst same
      refine (compileParts_delivers (all_deliver body ready.right.left)).bind fun first speaks => ?_
      refine (branches_deliver rest otherwise ready.right.right conditions.2 last).bind
        fun more remaining => Delivers.pure ?_
      exact speaksChoice_conditional means speaks remaining span

theorem otherwise_delivers : ∀ otherwise : Option (List Segment),
    AllReady environment style inclusion (nestedOtherwise .whole otherwise) →
      Delivers (SpeaksChoice environment style otherwise [])
        (compileChoice .html (pendingOtherwise registry phrases inclusion otherwise) [])
  | none, _ => by
      refine Delivers.pure fun host scope => ?_
      rw [Code.empty, Render.write_text]
      exact Agrees.of_eq fun other => writesChoice_nothing_iff
  | some body, ready => by
      refine (compileParts_delivers (all_deliver body ready)).mono fun code speaks host scope => ?_
      exact (speaks host scope).congr fun other => writesChoice_otherwise_iff

end

/-! ## Templates -/

/-- Some segments, and all templates that can be reached from them, can be read directly. -/
structure ReadThroughout (environment : Environment) (style : Position) (segments : List Segment) :
    Prop where
  own : Throughout Readable (nestedAll .whole segments)
  reached : ∀ name template, Reaches environment style segments name →
    environment.template name style = .ok (some template) →
      Throughout Readable (nestedAll .whole template.segments)

theorem ReadThroughout.included {segments : List Segment}
    (readable : ReadThroughout environment style segments) {name : String} {template : Template}
    (mentions : Mentions segments name) (found : environment.template name style = .ok (some template)) :
    ReadThroughout environment style template.segments where
  own := readable.reached name template (.mentioned mentions) found
  reached := fun other inner reaches => readable.reached other inner (.included mentions found reaches)

theorem noteInclude_delivers (name : String) : Delivers (fun _ => True) (noteInclude name) :=
  fun _ => ⟨(), _, rfl, trivial⟩

theorem includeTemplate_delivers {context : Context} (expands : context.expandsIncludes = true)
    {stack : List String} {segments : List Segment}
    (grounded : Grounded environment context.style stack segments)
    (readable : ReadThroughout environment context.style segments) {name : String} {span : Span}
    (member : .inclusion name span ∈ nestedAll .whole segments) :
    Delivers (Speaks environment context.style (.inclusion name span))
      (includeTemplate environment registry context stack name span .html) := by
  induction stack using stack_induction environment context.style generalizing segments name span with
  | step stack inductionHypothesis =>
      rcases grounded.included ⟨span, member⟩ with ⟨template, found, fresh, inside⟩
      have inner := readable.included ⟨span, member⟩ found
      have ready : AllReady environment context.style
          (includeTemplate environment registry context (stack ++ [name]))
          (nestedAll .whole template.segments) := by
        intro segment isInside
        refine ⟨inner.own segment isInside, ?_⟩
        rintro other otherSpan rfl
        exact inductionHypothesis name template found fresh inside inner isInside
      rw [includeTemplate_eq, if_neg (Bool.eq_false_iff.mp fresh), found]
      refine (noteInclude_delivers name).bind fun _ _ => ?_
      rw [includeFound, if_pos expands]
      refine ((compileParts_delivers (all_deliver template.segments ready)).adapt _).mono ?_
      exact fun code speaks host scope => (speaks host scope).congr fun other => writes_inclusion_iff found

theorem outcome_of_delivers {compilation : CompileM Code} {holds : Code → Prop}
    (delivers : Delivers holds compilation) :
    ∃ compiled, compilation.outcome = .ok compiled ∧ holds compiled.code := by
  rcases delivers Uses.none with ⟨code, noted, ran, held⟩
  refine ⟨⟨code, noted⟩, ?_, held⟩
  unfold CompileM.outcome
  unfold CompileM.after at ran
  rw [ran]

/--
A template without calls, in an environment where everything it includes is there and nothing includes
itself, compiles; and for all data and every host its code writes the one text that can be read off the
template directly.
-/
theorem compileTemplate_writesAll (environment : Environment) (registry : Registry) (context : Context)
    (name : String) (template : Template) (expands : context.expandsIncludes = true)
    (grounded : Grounded environment context.style [name] template.segments)
    (readable : ReadThroughout environment context.style template.segments) :
    ∃ compiled, compileTemplate environment registry context name template = .ok compiled ∧
      ∀ (host : Host) (data : Value), ∃ output, render host data compiled.code = .ok output ∧
        ∀ text, WritesAll environment context.style (Names.ofData data) template.segments text ↔
          text = output := by
  have ready : AllReady environment context.style
      (includeTemplate environment registry context [name]) (nestedAll .whole template.segments) := by
    intro segment member
    refine ⟨readable.own segment member, ?_⟩
    rintro other span rfl
    exact includeTemplate_delivers expands grounded readable member
  rcases outcome_of_delivers (compileParts_delivers (all_deliver template.segments ready)) with
    ⟨compiled, succeeded, speaks⟩
  refine ⟨compiled, succeeded, fun host data => ?_⟩
  rw [Render.render_eq_write, ← Scope.names_ofData]
  exact speaks host ⟨data, []⟩

/-! ## A list of tasks -/

/-- Whether a task is open and not the one named `x`. -/
def taskTest : ArgumentOf Segment :=
  ⟨[.literal "not " default, .reference ["task", "done"] default, .literal " and " default,
    .reference ["id"] default, .literal " != 'x'" default], default, true⟩

def taskCondition : Condition :=
  .and (.not (.truthy (.reference ["task", "done"])))
    (.compare .unequal (.reference ["id"]) (.constant (.string "x")))

/-- A task, with a star or a dash. -/
def taskEntry : Template :=
  ⟨[.choice [⟨taskTest, [.literal "* " default], default⟩] (some [.literal "- " default]) default,
    .reference ["task", "name"] default, .literal "; " default]⟩

/-- All tasks, each by the template for one. -/
def taskPage : Template :=
  ⟨[.literal "To do: " default,
    .loop ⟨[.reference ["tasks"] default], default, true⟩ "task" (some "id")
      [.inclusion "entry" default] default]⟩

def taskSite : Environment where
  template name _ := .ok (if name = "entry" then some taskEntry else none)
  phrase _ _ := none
  names := ["entry"]
  mem_names := by
    intro name _ present
    by_cases isEntry : name = "entry"
    · simp [isEntry]
    · simp [isEntry] at present

def taskData : Value :=
  .map [("tasks", .map [("a", .map [("name", .string "A & B")]),
    ("b", .map [("name", .string "C"), ("done", .bool true)])])]

theorem means_taskCondition : Means taskTest taskCondition := by
  have negation : Written .conjunction [Item.word "not", Item.value (.reference ["task", "done"])]
      (.not (.truthy (.reference ["task", "done"]))) :=
    .negation (.not (by decide) (.truthy (.reference _)))
  have comparison : Written .negation
      ([Item.value (.reference ["id"])] ++ Item.symbol .unequal :: [Item.string "x"])
      (.compare .unequal (.reference ["id"]) (.constant (.string "x"))) :=
    .compare (.reference _) rfl (.string _)
  have joins : (Item.word "and").joinsConjunction = true := by decide
  have behind : Spells [.literal " and " default, .reference ["id"] default, .literal " != 'x'" default]
      ([Item.word "and"] ++ Item.value (.reference ["id"]) ::
        ([Item.symbol .unequal, Item.string "x"] ++ [])) :=
    .literal (by cbv) (.reference (.literal (by cbv) .nil))
  have spells : Spells taskTest.parts ([Item.word "not"] ++ Item.value (.reference ["task", "done"]) ::
      ([Item.word "and"] ++ Item.value (.reference ["id"]) ::
        ([Item.symbol .unequal, Item.string "x"] ++ []))) :=
    .literal (by cbv) (.reference behind)
  have written := Written.conjunction (Written.and negation joins comparison)
  exact ⟨_, spells, written⟩

/-- What the template for one task writes. -/
theorem writesAll_taskEntry {names : Names} (name text : String)
    (named : names.valueAt ["task", "name"] = some (.string name))
    (written : (if taskCondition.holds names then "* " else "- ") ++ (Escaping.html.apply name ++ "; ") =
      text) : WritesAll taskSite 0 names [.inclusion "entry" default] text := by
  rw [← written]
  have found : taskSite.template "entry" 0 = .ok (some taskEntry) := rfl
  have shown : Writes taskSite 0 names (.reference ["task", "name"] default)
      (Escaping.html.apply (Value.string name).text) := .present default named
  have chosen : WritesChoice taskSite 0 names (some [.literal "- " default])
      [⟨taskTest, [.literal "* " default], default⟩]
      (if taskCondition.holds names then "* " else "- ") := by
    cases outcome : taskCondition.holds names with
    | true => exact .holds default means_taskCondition outcome (Writes.alone (.literal "* " default))
    | false =>
        exact .fails default means_taskCondition outcome
          (.otherwise (Writes.alone (.literal "- " default)))
  have behind := WritesAll.cons shown (Writes.alone (.literal "; " default))
  exact Writes.alone (.inclusion default found (.cons (.choice default chosen) behind))

theorem writesAll_taskPage :
    WritesAll taskSite 0 (Names.ofData taskData) taskPage.segments "To do: * A &amp; B; - C; " := by
  have first : WritesAll taskSite 0 ((Names.ofData taskData).enter (some "id") "task"
      (.string "a", .map [("name", .string "A & B")])) [.inclusion "entry" default] "* A &amp; B; " :=
    writesAll_taskEntry "A & B" _ rfl (by cbv)
  have second : WritesAll taskSite 0 ((Names.ofData taskData).enter (some "id") "task"
      (.string "b", .map [("name", .string "C"), ("done", .bool true)])) [.inclusion "entry" default]
      "- C; " :=
    writesAll_taskEntry "C" _ rfl (by cbv)
  have both : WritesEach taskSite 0 (Names.ofData taskData) (some "id") "task" [.inclusion "entry" default]
      (entriesOf (((Names.ofData taskData).valueAt ["tasks"]).getD .null))
      ("* A &amp; B; " ++ ("- C; " ++ "")) := .cons first (.cons second .nil)
  have written : "To do: * A &amp; B; - C; " = "To do: " ++ ("* A &amp; B; " ++ ("- C; " ++ "")) := by
    cbv
  rw [written]
  exact .cons (.literal "To do: " default) (Writes.alone (.loop default default default true both))

theorem mentions_taskPage {name : String} (mentions : Mentions taskPage.segments name) : name = "entry" := by
  rcases mentions with ⟨span, member⟩
  have same : name = "entry" ∧ span = default := by
    simpa [taskPage, nestedAll, nested, Markup.Extent.entersTests, nestedArgument] using member
  exact same.1

theorem not_mentions_taskEntry {name : String} : ¬ Mentions taskEntry.segments name := by
  rintro ⟨span, member⟩
  simp [taskEntry, taskTest, nestedAll, nested, Markup.Extent.entersTests, nestedArgument, nestedBranches,
    nestedOtherwise] at member

theorem not_reaches_taskEntry {name : String} : ¬ Reaches taskSite 0 taskEntry.segments name := by
  rintro (mentions | ⟨mentions, _, _⟩) <;> exact not_mentions_taskEntry mentions

theorem reaches_taskPage {name : String} (reaches : Reaches taskSite 0 taskPage.segments name) :
    name = "entry" := by
  rcases reaches with mentions | ⟨mentions, found, reaches⟩
  · exact mentions_taskPage mentions
  · cases mentions_taskPage mentions
    cases found
    exact absurd reaches not_reaches_taskEntry

theorem grounded_taskPage : Grounded taskSite 0 ["page"] taskPage.segments where
  resolves := by
    intro name reaches
    rw [reaches_taskPage reaches]
    exact ⟨taskEntry, rfl⟩
  acyclic := by
    intro name template reaches found
    cases reaches_taskPage reaches
    cases found
    exact not_reaches_taskEntry
  fresh := by
    intro name member reaches
    cases reaches_taskPage reaches
    exact absurd member (by decide)

theorem readThroughout_taskPage : ReadThroughout taskSite 0 taskPage.segments where
  own := by
    simp [Throughout, taskPage, nestedAll, nested, Markup.Extent.entersTests, nestedArgument, Readable]
  reached := by
    intro name template reaches found
    cases reaches_taskPage reaches
    cases found
    simp [Throughout, taskEntry, taskTest, nestedAll, nested, Markup.Extent.entersTests, nestedArgument,
      nestedBranches, nestedOtherwise, Readable]
    exact ⟨taskCondition, means_taskCondition⟩

/-- The page of two tasks, of which one is done. -/
theorem compileTemplate_taskPage : ∃ compiled,
    compileTemplate taskSite Registry.builtIn ⟨0, 0, true⟩ "page" taskPage = .ok compiled ∧
    ∀ host, render host taskData compiled.code = .ok "To do: * A &amp; B; - C; " := by
  rcases compileTemplate_writesAll taskSite Registry.builtIn ⟨0, 0, true⟩ "page" taskPage rfl
    grounded_taskPage readThroughout_taskPage with ⟨compiled, succeeded, renders⟩
  refine ⟨compiled, succeeded, fun host => ?_⟩
  rcases renders host taskData with ⟨output, rendered, only⟩
  rw [rendered, (only _).mp writesAll_taskPage]

end Compile
end TemplateCascade
