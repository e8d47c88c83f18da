import TemplateCascade.Proofs.Render.Writing
import TemplateCascade.Proofs.Value.Numbers

namespace TemplateCascade

/-!
# Carrying out calculations ahead of time

A calculation without values from the data can be replaced by the number that comes of it.  As code, the
calculation has the text of that number as its value, while the number keeps its type.  Wherever the text of a
value is written, or its number or its count is taken, rendering gives the same before and after.  What remains
are the places that ask for the type: truth, comparisons, and what is handed to the host as it is.
-/

open Value (numberText unsigned ComparesAlike)

namespace Render

variable {host : Host} {scope : Scope}

/-! ## Calculations -/

mutual

/-- What a calculation comes to ahead of time, it comes to in every scope. -/
theorem compute_of_fold? (host : Host) (scope : Scope) : ∀ (calculation : Arithmetic) {number : Float},
    calculation.fold? = some number → compute host scope calculation = .ok number
  | .number amount, number, folded => by
      rw [Arithmetic.fold?, Option.some.injEq] at folded
      rw [compute, folded]
  | .value code, number, folded => by
      rw [Arithmetic.fold?] at folded
      contradiction
  | .negate inner, number, folded => by
      rw [Arithmetic.fold?, Option.map_eq_some_iff] at folded
      obtain ⟨amount, innerFolded, rfl⟩ := folded
      rw [compute, compute_of_fold? host scope inner innerFolded]
      rfl
  | .binary operator left right, number, folded => by
      rw [Arithmetic.fold?, Option.bind_eq_some_iff] at folded
      obtain ⟨first, leftFolded, folded⟩ := folded
      rw [Option.bind_eq_some_iff] at folded
      obtain ⟨second, rightFolded, folded⟩ := folded
      have applied : operator.apply first second = .ok number := by
        cases outcome : operator.apply first second with
        | error error =>
            rw [outcome] at folded
            contradiction
        | ok result =>
            rw [outcome] at folded
            exact congrArg Except.ok (Option.some.inj folded)
      rw [compute, compute_of_fold? host scope left leftFolded, compute_of_fold? host scope right rightFolded]
      exact congrArg (Except.mapError RenderError.arithmetic) applied
  | .function function arguments, number, folded => by
      rw [Arithmetic.fold?, Option.map_eq_some_iff] at folded
      obtain ⟨amounts, allFolded, rfl⟩ := folded
      rw [compute, computeAll_of_foldAll? host scope arguments allFolded]
      rfl

theorem computeAll_of_foldAll? (host : Host) (scope : Scope) :
    ∀ (calculations : List Arithmetic) {numbers : List Float},
      foldAll? calculations = some numbers → computeAll host scope calculations = .ok numbers
  | [], numbers, folded => by
      rw [foldAll?, Option.some.injEq] at folded
      rw [computeAll, folded]
  | calculation :: rest, numbers, folded => by
      rw [foldAll?, Option.bind_eq_some_iff] at folded
      obtain ⟨amount, firstFolded, folded⟩ := folded
      rw [Option.map_eq_some_iff] at folded
      obtain ⟨more, restFolded, rfl⟩ := folded
      rw [computeAll, compute_of_fold? host scope calculation firstFolded,
        computeAll_of_foldAll? host scope rest restFolded]
      rfl

end

/-- A calculation, and the number that it comes to in a scope. -/
inductive CarriedOut (host : Host) (scope : Scope) : Code × Code → Float → Prop
  | intro {calculation : Arithmetic} {number : Float}
      (computed : compute host scope calculation = .ok number) :
      CarriedOut host scope (.arithmetic calculation, .constant (.number number)) number

theorem CarriedOut.evaluate_fst {code : Code × Code} {number : Float}
    (carriedOut : CarriedOut host scope code number) :
    evaluate host scope code.1 = .ok (.string (numberText number)) := by
  cases carriedOut with
  | intro computed =>
      rw [evaluate, computed]
      rfl

theorem CarriedOut.evaluate_snd {code : Code × Code} {number : Float}
    (carriedOut : CarriedOut host scope code number) :
    evaluate host scope code.2 = .ok (.number number) := by
  cases carriedOut
  rw [evaluate]

/-- Two codes have the same value, unless they are a calculation and what it comes to. -/
def Agree (host : Host) (scope : Scope) (code : Code × Code) : Prop :=
  evaluate host scope code.1 = evaluate host scope code.2 ∨ ∃ number, CarriedOut host scope code number

/-- Whatever does the same with a number as with its text does the same with both codes. -/
theorem Agree.bind {Result : Type} {code : Code × Code} (agree : Agree host scope code)
    {next : Value → Except RenderError Result}
    (alike : ∀ number, CarriedOut host scope code number →
      next (.string (numberText number)) = next (.number number)) :
    evaluate host scope code.1 >>= next = evaluate host scope code.2 >>= next := by
  rcases agree with same | ⟨number, carriedOut⟩
  · rw [same]
  · rw [carriedOut.evaluate_fst, carriedOut.evaluate_snd]
    exact alike number carriedOut

/-! ## Codes in a row -/

theorem writeAll_eq : ∀ (parts : List (Code × Code)), (∀ part ∈ parts, Agree host scope part) →
    writeAll host scope (parts.map Prod.fst) = writeAll host scope (parts.map Prod.snd)
  | [], _ => rfl
  | part :: rest, agree => by
      have tail := writeAll_eq rest fun other member => agree other (.tail _ member)
      rw [List.map_cons, List.map_cons, writeAll, writeAll, tail]
      exact (agree part (.head _)).bind fun _ _ => rfl

theorem evaluateParameters_eq : ∀ (parameters : List (String × Code × Code)),
    (∀ entry ∈ parameters, Agree host scope entry.2) →
      evaluateParameters host scope (parameters.map fun entry => (entry.1, entry.2.1)) =
        evaluateParameters host scope (parameters.map fun entry => (entry.1, entry.2.2))
  | [], _ => rfl
  | entry :: rest, agree => by
      have tail := evaluateParameters_eq rest fun other member => agree other (.tail _ member)
      rw [List.map_cons, List.map_cons, evaluateParameters, evaluateParameters, tail]
      exact (agree entry (.head _)).bind fun _ _ => rfl

/-- Several values, for something that does the same with a number as with its text in each place. -/
theorem evaluateAll_bind {Result : Type} : ∀ (codes : List (Code × Code)),
    (∀ code ∈ codes, Agree host scope code) → ∀ {next : List Value → Except RenderError Result},
      (∀ code ∈ codes, ∀ number, CarriedOut host scope code number → ∀ front behind,
        next (front ++ .string (numberText number) :: behind) = next (front ++ .number number :: behind)) →
      evaluateAll host scope (codes.map Prod.fst) >>= next =
        evaluateAll host scope (codes.map Prod.snd) >>= next
  | [], _, _, _ => rfl
  | code :: rest, agree, next, alike => by
      have tail (value : Value) :
          (evaluateAll host scope (rest.map Prod.fst) >>= fun more => next (value :: more)) =
            evaluateAll host scope (rest.map Prod.snd) >>= fun more => next (value :: more) :=
        evaluateAll_bind rest (fun other member => agree other (.tail _ member))
          fun other member number carriedOut front behind =>
            alike other (.tail _ member) number carriedOut (value :: front) behind
      rw [List.map_cons, List.map_cons, evaluateAll, evaluateAll]
      simp only [bind_assoc]
      calc
        (evaluate host scope code.1 >>= fun value =>
            evaluateAll host scope (rest.map Prod.fst) >>= fun more => next (value :: more)) =
            (evaluate host scope code.2 >>= fun value =>
              evaluateAll host scope (rest.map Prod.fst) >>= fun more => next (value :: more)) :=
          (agree code (.head _)).bind fun number carriedOut =>
            bind_congr fun more => alike code (.head _) number carriedOut [] more
        _ = (evaluate host scope code.2 >>= fun value =>
              evaluateAll host scope (rest.map Prod.snd) >>= fun more => next (value :: more)) :=
          bind_congr tail

theorem evaluateOption_bind {Result : Type} {option : Option (Code × Code)}
    (agree : ∀ code ∈ option, Agree host scope code) {next : Option Value → Except RenderError Result}
    (alike : ∀ code ∈ option, ∀ number, CarriedOut host scope code number →
      next (some (.string (numberText number))) = next (some (.number number))) :
    evaluateOption host scope (option.map Prod.fst) >>= next =
      evaluateOption host scope (option.map Prod.snd) >>= next := by
  cases option with
  | none => rfl
  | some code =>
      rw [Option.map_some, Option.map_some, evaluateOption, evaluateOption, bind_assoc, bind_assoc]
      exact (agree code rfl).bind (alike code rfl)

theorem writeEach_congr {write other : Value × Value → Except RenderError String} :
    ∀ {items : List (Value × Value)}, (∀ item ∈ items, write item = other item) →
      writeEach write items = writeEach other items
  | [], _ => rfl
  | item :: rest, same => by
      rw [writeEach, writeEach, same item (.head _),
        writeEach_congr fun other member => same other (.tail _ member)]

/-! ## Places -/

/-- How a number and its text are formatted. -/
theorem formatValue_numberText {kind : FormatKind} {number : Float} (option : Option Value)
    (alike : kind = .number → ∀ decimals,
      host.formatNumber (unsigned number) decimals = host.formatNumber number decimals) :
    formatValue host kind (.string (numberText number)) option =
      formatValue host kind (.number number) option := by
  cases kind with
  | count => rfl
  | number =>
      rw [formatValue, formatValue, Value.toNumber_numberText, alike rfl]
      rfl
  | date | time | dateTime =>
      rw [formatValue, formatValue, Value.toNumber_numberText, Value.timestampOf_unsigned]
      rfl

/-- What a number asks for as an option, its text asks for. -/
theorem formatValue_option_numberText (kind : FormatKind) (value : Value) (number : Float) :
    formatValue host kind value (some (.string (numberText number))) =
      formatValue host kind value (some (.number number)) := by
  have decimals : decimalsOf (some (.string (numberText number))) = decimalsOf (some (.number number)) := by
    rw [decimalsOf, decimalsOf, Option.map_some, Option.map_some, Value.toNumber_numberText,
      Value.countOf_unsigned]
    rfl
  cases kind with
  | count | number => rw [formatValue, formatValue, decimals]
  | date | time | dateTime => rfl

theorem evaluate_conditional_eq {test : Test × Test} {body otherwise : Code × Code}
    (decided : testHolds host scope test.1 = testHolds host scope test.2)
    (whenTrue : testHolds host scope test.1 = .ok true → Agree host scope body)
    (whenFalse : testHolds host scope test.1 = .ok false → Agree host scope otherwise) :
    evaluate host scope (.conditional test.1 body.1 otherwise.1) =
      evaluate host scope (.conditional test.2 body.2 otherwise.2) := by
  rw [evaluate, evaluate, ← decided]
  cases outcome : testHolds host scope test.1 with
  | error error => rfl
  | ok holds =>
      cases holds with
      | true => exact (whenTrue outcome).bind fun _ _ => rfl
      | false => exact (whenFalse outcome).bind fun _ _ => rfl

theorem evaluate_each_eq {source body : Code × Code} (key : Option String) (value : String)
    (collected : Agree host scope source)
    (inside : ∀ collection, evaluate host scope source.1 = .ok collection →
      ∀ item ∈ itemsOf collection, Agree host (scope.enter key value item) body) :
    evaluate host scope (.each source.1 key value body.1) =
      evaluate host scope (.each source.2 key value body.2) := by
  have bodies : evaluate host scope (.each source.1 key value body.1) =
      evaluate host scope (.each source.1 key value body.2) := by
    rw [evaluate, evaluate]
    cases outcome : evaluate host scope source.1 with
    | error error => rfl
    | ok collection =>
        refine congrArg (fun written : Except RenderError String => written >>= fun text =>
          .ok (Value.string text)) (writeEach_congr fun item member => ?_)
        exact (inside collection outcome item member).bind fun _ _ => rfl
  rw [bodies, evaluate, evaluate]
  exact collected.bind fun _ _ => rfl

theorem evaluate_format_eq {value : Code × Code} (kind : FormatKind) {option : Option (Code × Code)}
    (folded : Agree host scope value) (chosen : ∀ code ∈ option, Agree host scope code)
    (alike : kind = .number → ∀ number, CarriedOut host scope value number → ∀ decimals,
      host.formatNumber (unsigned number) decimals = host.formatNumber number decimals) :
    evaluate host scope (.format kind value.1 (option.map Prod.fst)) =
      evaluate host scope (.format kind value.2 (option.map Prod.snd)) := by
  rw [evaluate, evaluate]
  calc
    _ = evaluate host scope value.2 >>= fun value => evaluateOption host scope (option.map Prod.fst) >>=
        fun option => formatValue host kind value option >>= fun text => .ok (.string text) := by
      refine folded.bind fun number carriedOut => bind_congr fun option => ?_
      rw [formatValue_numberText option fun isNumber => alike isNumber number carriedOut]
    _ = _ := by
      refine bind_congr fun value => evaluateOption_bind chosen fun code member number carriedOut => ?_
      rw [formatValue_option_numberText]

theorem evaluate_link_eq {kind : Code × Code} {data : Option (Code × Code)}
    {parameters : List (String × Code × Code)} (named : Agree host scope kind)
    (given : ∀ code ∈ data, Agree host scope code)
    (written : ∀ entry ∈ parameters, Agree host scope entry.2)
    (alike : ∀ code ∈ data, ∀ number, CarriedOut host scope code number → ∀ kind parameters,
      host.link kind (.string (numberText number)) parameters =
        host.link kind (.number number) parameters) :
    evaluate host scope
        (.link kind.1 (data.map Prod.fst) (parameters.map fun entry => (entry.1, entry.2.1))) =
      evaluate host scope
        (.link kind.2 (data.map Prod.snd) (parameters.map fun entry => (entry.1, entry.2.2))) := by
  rw [evaluate, evaluate, evaluateParameters_eq parameters written]
  calc
    _ = evaluate host scope kind.2 >>= fun kind => evaluateOption host scope (data.map Prod.fst) >>=
        fun data => evaluateParameters host scope (parameters.map fun entry => (entry.1, entry.2.2)) >>=
          fun parameters => .ok (Value.string (host.link kind.text (data.getD .null) parameters)) :=
      named.bind fun _ _ => rfl
    _ = _ := by
      refine bind_congr fun kind => evaluateOption_bind given fun code member number carriedOut => ?_
      refine bind_congr fun parameters => ?_
      simp only [Option.getD_some, alike code member number carriedOut]

theorem evaluate_pageNavigation_eq {link data page perPage total : Code × Code}
    {parameters : List (String × Code × Code)} (linked : Agree host scope link)
    (given : Agree host scope data) (numbered : Agree host scope page) (sized : Agree host scope perPage)
    (counted : Agree host scope total) (written : ∀ entry ∈ parameters, Agree host scope entry.2)
    (alike : ∀ number, CarriedOut host scope data number → ∀ request : PageRequest,
      host.pageNavigation { request with data := .string (numberText number) } =
        host.pageNavigation { request with data := .number number }) :
    evaluate host scope (.pageNavigation link.1 data.1 page.1 perPage.1 total.1
        (parameters.map fun entry => (entry.1, entry.2.1))) =
      evaluate host scope (.pageNavigation link.2 data.2 page.2 perPage.2 total.2
        (parameters.map fun entry => (entry.1, entry.2.2))) := by
  have count (number : Float) : countOf (Value.string (numberText number)).toNumber =
      countOf (Value.number number).toNumber := by
    rw [Value.toNumber_numberText, Value.countOf_unsigned]
    rfl
  rw [evaluate, evaluate, evaluateParameters_eq parameters written]
  refine (linked.bind fun _ _ => rfl).trans (bind_congr fun link => ?_)
  refine (given.bind fun number carriedOut => ?_).trans (bind_congr fun data => bind_congr fun parameters => ?_)
  · refine bind_congr fun parameters => bind_congr fun page => bind_congr fun perPage =>
      bind_congr fun total => ?_
    exact congrArg (fun text => Except.ok (Value.string text)) (alike number carriedOut
      ⟨link.text, .null, countOf page.toNumber, countOf perPage.toNumber, countOf total.toNumber,
        parameters⟩)
  · refine (numbered.bind fun number _ => ?_).trans (bind_congr fun page => ?_)
    · simp only [count]
    · refine (sized.bind fun number _ => ?_).trans (bind_congr fun perPage => ?_)
      · simp only [count]
      · refine counted.bind fun number _ => ?_
        simp only [count]

theorem evaluate_helper_eq {name : Code × Code} {arguments : List (Code × Code)}
    (named : Agree host scope name) (given : ∀ code ∈ arguments, Agree host scope code)
    (alike : ∀ code ∈ arguments, ∀ number, CarriedOut host scope code number → ∀ name front behind,
      host.helper name (front ++ .string (numberText number) :: behind) =
        host.helper name (front ++ .number number :: behind)) :
    evaluate host scope (.helper name.1 (arguments.map Prod.fst)) =
      evaluate host scope (.helper name.2 (arguments.map Prod.snd)) := by
  rw [evaluate, evaluate]
  refine (named.bind fun _ _ => rfl).trans (bind_congr fun name => ?_)
  refine evaluateAll_bind arguments given fun code member number carriedOut front behind => ?_
  rw [alike code member number carriedOut]

/-! ## Conditions -/

theorem testHolds_and_eq {left right : Test × Test}
    (first : testHolds host scope left.1 = testHolds host scope left.2)
    (second : testHolds host scope left.1 = .ok true →
      testHolds host scope right.1 = testHolds host scope right.2) :
    testHolds host scope (.and left.1 right.1) = testHolds host scope (.and left.2 right.2) := by
  rw [testHolds, testHolds, ← first]
  cases outcome : testHolds host scope left.1 with
  | error error => rfl
  | ok holds =>
      cases holds with
      | true => exact second outcome
      | false => rfl

theorem testHolds_or_eq {left right : Test × Test}
    (first : testHolds host scope left.1 = testHolds host scope left.2)
    (second : testHolds host scope left.1 = .ok false →
      testHolds host scope right.1 = testHolds host scope right.2) :
    testHolds host scope (.or left.1 right.1) = testHolds host scope (.or left.2 right.2) := by
  rw [testHolds, testHolds, ← first]
  cases outcome : testHolds host scope left.1 with
  | error error => rfl
  | ok holds =>
      cases holds with
      | true => rfl
      | false => exact second outcome

theorem testHolds_compare_eq (operator : ComparisonOperator) {left right : Code × Code}
    (first : Agree host scope left) (second : Agree host scope right)
    (leftAlike : ∀ number, CarriedOut host scope left number → ∀ other,
      evaluate host scope right.1 = .ok other → ComparesAlike operator number other)
    (rightAlike : ∀ number, CarriedOut host scope right number → ∀ other,
      evaluate host scope left.2 = .ok other → ComparesAlike operator number other) :
    testHolds host scope (.compare operator left.1 right.1) =
      testHolds host scope (.compare operator left.2 right.2) := by
  have lefts : testHolds host scope (.compare operator left.1 right.1) =
      testHolds host scope (.compare operator left.2 right.1) := by
    rw [testHolds, testHolds]
    refine first.bind fun number carriedOut => ?_
    cases outcome : evaluate host scope right.1 with
    | error error => rfl
    | ok other =>
        exact congrArg Except.ok
          (Value.comparisonHolds_numberText (leftAlike number carriedOut other outcome)).1
  rw [lefts, testHolds, testHolds]
  cases outcome : evaluate host scope left.2 with
  | error error => rfl
  | ok other =>
      exact second.bind fun number carriedOut => congrArg Except.ok
        (Value.comparisonHolds_numberText (rightAlike number carriedOut other outcome)).2

theorem computeAll_eq : ∀ (calculations : List (Arithmetic × Arithmetic)),
    (∀ calculation ∈ calculations, compute host scope calculation.1 = compute host scope calculation.2) →
      computeAll host scope (calculations.map Prod.fst) = computeAll host scope (calculations.map Prod.snd)
  | [], _ => rfl
  | calculation :: rest, same => by
      rw [List.map_cons, List.map_cons, computeAll, computeAll, same calculation (.head _),
        computeAll_eq rest fun other member => same other (.tail _ member)]

/-! ## The standard host

The standard host does not tell numbers from their texts, except that a helper may.
-/

theorem link_numberText (host : StandardHost) (kind : String) (number : Float)
    (parameters : List (String × String)) :
    host.link kind (.string (numberText number)) parameters = host.link kind (.number number) parameters :=
  rfl

theorem pageNavigation_numberText (host : StandardHost) (request : PageRequest) (number : Float) :
    host.pageNavigation { request with data := .string (numberText number) } =
      host.pageNavigation { request with data := .number number } :=
  rfl

theorem formatNumber_unsigned (locale : Locale) (number : Float) (decimals : Nat) :
    locale.formatNumber (unsigned number) decimals = locale.formatNumber number decimals := by
  rcases Value.unsigned_eq number with same | ⟨zero, negative⟩
  · rw [same]
  · have ofZero : Number.Double.ofFloat 0 = .finite false 0 (-1074) := by decide +kernel
    have ofNegative : Number.Double.ofFloat (-0) = .finite true 0 (-1074) := by decide +kernel
    have parts : Number.fixedParts decimals 0 = Number.fixedParts decimals (-0) := by
      rw [Number.fixedParts, Number.fixedParts, ofZero, ofNegative]
    have sign : decide ((0 : Float) < 0) = decide ((-0 : Float) < 0) := by decide +kernel
    rw [zero, negative, Locale.formatNumber, Locale.formatNumber, parts, sign]

/-! ## Code with calculations carried out -/

mutual

/--
Code, and the same code with some of its calculations carried out.  A place that asks for the type of a value
has a condition on the number that stands there.  Only what rendering comes to has to be related.
-/
inductive Folded (host : Host) : Scope → Code × Code → Prop
  | same (scope : Scope) (code : Code) : Folded host scope (code, code)
  | carriedOut {scope : Scope} {code : Code × Code} {number : Float}
      (carriedOut : CarriedOut host scope code number) : Folded host scope code
  | concat {scope : Scope} (parts : List (Code × Code)) (folded : ∀ part ∈ parts, Folded host scope part) :
      Folded host scope (.concat (parts.map Prod.fst), .concat (parts.map Prod.snd))
  | escape {scope : Scope} {inner : Code × Code} (mode : Text.Escaping) (folded : Folded host scope inner) :
      Folded host scope (.escape mode inner.1, .escape mode inner.2)
  | conditional {scope : Scope} {test : Test × Test} {body otherwise : Code × Code}
      (decided : FoldedTest host scope test)
      (whenTrue : testHolds host scope test.1 = .ok true → Folded host scope body)
      (whenFalse : testHolds host scope test.1 = .ok false → Folded host scope otherwise) :
      Folded host scope
        (.conditional test.1 body.1 otherwise.1, .conditional test.2 body.2 otherwise.2)
  | each {scope : Scope} {source body : Code × Code} (key : Option String) (value : String)
      (collected : Folded host scope source)
      (inside : ∀ collection, evaluate host scope source.1 = .ok collection →
        ∀ item ∈ itemsOf collection, Folded host (scope.enter key value item) body) :
      Folded host scope (.each source.1 key value body.1, .each source.2 key value body.2)
  | arithmetic {scope : Scope} {calculation : Arithmetic × Arithmetic}
      (folded : FoldedArithmetic host scope calculation) :
      Folded host scope (.arithmetic calculation.1, .arithmetic calculation.2)
  /-- A host may write the negative zero differently from zero. -/
  | format {scope : Scope} {value : Code × Code} (kind : FormatKind) (option : Option (Code × Code))
      (folded : Folded host scope value) (chosen : ∀ code ∈ option, Folded host scope code)
      (alike : kind = .number → ∀ number, CarriedOut host scope value number → ∀ decimals,
        host.formatNumber (unsigned number) decimals = host.formatNumber number decimals) :
      Folded host scope
        (.format kind value.1 (option.map Prod.fst), .format kind value.2 (option.map Prod.snd))
  /-- A host may link a number differently from its text. -/
  | link {scope : Scope} {kind : Code × Code} (data : Option (Code × Code))
      (parameters : List (String × Code × Code)) (named : Folded host scope kind)
      (given : ∀ code ∈ data, Folded host scope code)
      (written : ∀ entry ∈ parameters, Folded host scope entry.2)
      (alike : ∀ code ∈ data, ∀ number, CarriedOut host scope code number → ∀ kind parameters,
        host.link kind (.string (numberText number)) parameters =
          host.link kind (.number number) parameters) :
      Folded host scope
        (.link kind.1 (data.map Prod.fst) (parameters.map fun entry => (entry.1, entry.2.1)),
          .link kind.2 (data.map Prod.snd) (parameters.map fun entry => (entry.1, entry.2.2)))
  | pageNavigation {scope : Scope} {link data page perPage total : Code × Code}
      (parameters : List (String × Code × Code)) (linked : Folded host scope link)
      (given : Folded host scope data) (numbered : Folded host scope page)
      (sized : Folded host scope perPage) (counted : Folded host scope total)
      (written : ∀ entry ∈ parameters, Folded host scope entry.2)
      (alike : ∀ number, CarriedOut host scope data number → ∀ request : PageRequest,
        host.pageNavigation { request with data := .string (numberText number) } =
          host.pageNavigation { request with data := .number number }) :
      Folded host scope
        (.pageNavigation link.1 data.1 page.1 perPage.1 total.1
            (parameters.map fun entry => (entry.1, entry.2.1)),
          .pageNavigation link.2 data.2 page.2 perPage.2 total.2
            (parameters.map fun entry => (entry.1, entry.2.2)))
  /-- A helper may do with a number what it does not do with its text. -/
  | helper {scope : Scope} {name : Code × Code} (arguments : List (Code × Code))
      (named : Folded host scope name) (given : ∀ code ∈ arguments, Folded host scope code)
      (alike : ∀ code ∈ arguments, ∀ number, CarriedOut host scope code number → ∀ name front behind,
        host.helper name (front ++ .string (numberText number) :: behind) =
          host.helper name (front ++ .number number :: behind)) :
      Folded host scope
        (.helper name.1 (arguments.map Prod.fst), .helper name.2 (arguments.map Prod.snd))

/-- A condition, and the same condition with some of its calculations carried out. -/
inductive FoldedTest (host : Host) : Scope → Test × Test → Prop
  | same (scope : Scope) (test : Test) : FoldedTest host scope (test, test)
  /-- The undefined number is false, and its name is true. -/
  | truthy {scope : Scope} {code : Code × Code} (folded : Folded host scope code)
      (defined : ∀ number, CarriedOut host scope code number → number.isNaN = false) :
      FoldedTest host scope (.truthy code.1, .truthy code.2)
  | not {scope : Scope} {inner : Test × Test} (folded : FoldedTest host scope inner) :
      FoldedTest host scope (.not inner.1, .not inner.2)
  | and {scope : Scope} {left right : Test × Test} (first : FoldedTest host scope left)
      (second : testHolds host scope left.1 = .ok true → FoldedTest host scope right) :
      FoldedTest host scope (.and left.1 right.1, .and left.2 right.2)
  | or {scope : Scope} {left right : Test × Test} (first : FoldedTest host scope left)
      (second : testHolds host scope left.1 = .ok false → FoldedTest host scope right) :
      FoldedTest host scope (.or left.1 right.1, .or left.2 right.2)
  | compare {scope : Scope} {left right : Code × Code} (operator : ComparisonOperator)
      (first : Folded host scope left) (second : Folded host scope right)
      (leftAlike : ∀ number, CarriedOut host scope left number → ∀ other,
        evaluate host scope right.1 = .ok other → ComparesAlike operator number other)
      (rightAlike : ∀ number, CarriedOut host scope right number → ∀ other,
        evaluate host scope left.2 = .ok other → ComparesAlike operator number other) :
      FoldedTest host scope (.compare operator left.1 right.1, .compare operator left.2 right.2)

/-- A calculation, and the same calculation with some of those inside its values carried out. -/
inductive FoldedArithmetic (host : Host) : Scope → Arithmetic × Arithmetic → Prop
  | same (scope : Scope) (calculation : Arithmetic) :
      FoldedArithmetic host scope (calculation, calculation)
  /-- The negative zero is read back from its text as zero. -/
  | value {scope : Scope} {code : Code × Code} (folded : Folded host scope code)
      (alike : ∀ number, CarriedOut host scope code number → unsigned number = number) :
      FoldedArithmetic host scope (.value code.1, .value code.2)
  | negate {scope : Scope} {inner : Arithmetic × Arithmetic} (folded : FoldedArithmetic host scope inner) :
      FoldedArithmetic host scope (.negate inner.1, .negate inner.2)
  | binary {scope : Scope} {left right : Arithmetic × Arithmetic} (operator : ArithmeticOperator)
      (first : FoldedArithmetic host scope left) (second : FoldedArithmetic host scope right) :
      FoldedArithmetic host scope
        (.binary operator left.1 right.1, .binary operator left.2 right.2)
  | function {scope : Scope} (function : MathFunction) (arguments : List (Arithmetic × Arithmetic))
      (folded : ∀ argument ∈ arguments, FoldedArithmetic host scope argument) :
      FoldedArithmetic host scope
        (.function function (arguments.map Prod.fst), .function function (arguments.map Prod.snd))

end

mutual

/-- Carrying out calculations changes no value but that of the calculations themselves. -/
theorem Folded.agree : ∀ {scope : Scope} {code : Code × Code}, Folded host scope code → Agree host scope code
  | _, _, .same scope code => .inl rfl
  | _, _, .carriedOut carriedOut => .inr ⟨_, carriedOut⟩
  | scope, _, .concat parts folded => by
      refine .inl ?_
      rw [evaluate, evaluate, writeAll_eq parts fun part member => (folded part member).agree]
  | scope, _, .escape mode folded => by
      refine .inl ?_
      rw [evaluate, evaluate]
      exact folded.agree.bind fun _ _ => rfl
  | scope, _, .conditional decided whenTrue whenFalse =>
      .inl (evaluate_conditional_eq decided.testHolds_eq (fun holds => (whenTrue holds).agree)
        fun fails => (whenFalse fails).agree)
  | scope, _, .each key value collected inside =>
      .inl (evaluate_each_eq key value collected.agree fun collection evaluated item member =>
        (inside collection evaluated item member).agree)
  | scope, _, .arithmetic folded => by
      refine .inl ?_
      rw [evaluate, evaluate, folded.compute_eq]
  | scope, _, .format kind option folded chosen alike =>
      .inl (evaluate_format_eq kind folded.agree (fun code member => (chosen code member).agree) alike)
  | scope, _, .link data parameters named given written alike =>
      .inl (evaluate_link_eq named.agree (fun code member => (given code member).agree)
        (fun entry member => (written entry member).agree) alike)
  | scope, _, .pageNavigation parameters linked given numbered sized counted written alike =>
      .inl (evaluate_pageNavigation_eq linked.agree given.agree numbered.agree sized.agree counted.agree
        (fun entry member => (written entry member).agree) alike)
  | scope, _, .helper arguments named given alike =>
      .inl (evaluate_helper_eq named.agree (fun code member => (given code member).agree) alike)

theorem FoldedTest.testHolds_eq : ∀ {scope : Scope} {test : Test × Test}, FoldedTest host scope test →
    testHolds host scope test.1 = testHolds host scope test.2
  | _, _, .same scope test => rfl
  | scope, _, .truthy folded defined => by
      rw [testHolds, testHolds]
      exact folded.agree.bind fun number carriedOut =>
        congrArg Except.ok (Value.isTruthy_numberText (defined number carriedOut))
  | scope, _, .not folded => by rw [testHolds, testHolds, folded.testHolds_eq]
  | scope, _, .and first second =>
      testHolds_and_eq first.testHolds_eq fun holds => (second holds).testHolds_eq
  | scope, _, .or first second =>
      testHolds_or_eq first.testHolds_eq fun fails => (second fails).testHolds_eq
  | scope, _, .compare operator first second leftAlike rightAlike =>
      testHolds_compare_eq operator first.agree second.agree leftAlike rightAlike

theorem FoldedArithmetic.compute_eq : ∀ {scope : Scope} {calculation : Arithmetic × Arithmetic},
    FoldedArithmetic host scope calculation →
      compute host scope calculation.1 = compute host scope calculation.2
  | _, _, .same scope calculation => rfl
  | scope, _, .value folded alike => by
      rw [compute, compute]
      refine folded.agree.bind fun number carriedOut => ?_
      rw [Value.toNumber_numberText, alike number carriedOut]
      rfl
  | scope, _, .negate folded => by rw [compute, compute, folded.compute_eq]
  | scope, _, .binary operator first second => by
      rw [compute, compute, first.compute_eq, second.compute_eq]
  | scope, _, .function function arguments folded => by
      rw [compute, compute, computeAll_eq arguments fun argument member => (folded argument member).compute_eq]

end

/--
A calculation without values from the data can be carried out ahead of time wherever it stands, with the same
output or the same failure, save where the type of its value is asked for.
-/
theorem folding_transparent :
    (∀ host scope calculation number, Arithmetic.fold? calculation = some number →
      Folded host scope (.arithmetic calculation, .constant (.number number))) ∧
    ∀ host data code, Folded host ⟨data, []⟩ code → render host data code.1 = render host data code.2 := by
  constructor
  · intro host scope calculation number folded
    exact .carriedOut ⟨compute_of_fold? host scope calculation folded⟩
  · intro host data code folded
    rw [render, render]
    exact folded.agree.bind fun _ _ => rfl

/-- A sum of two numbers. -/
def sumOfOnes : Arithmetic := .binary .add (.number 1) (.number 1)

/-- Says whether code is equal to a text. -/
def sayEqual (content : String) (code : Code) : Code :=
  .conditional (.compare .equal code (.constant (.string content))) (.text "same") (.text "different")

/-- The sum is equal to its own text before and after. -/
theorem render_sayEqual_two :
    render (StandardHost.services ⟨default, "", []⟩) .null (sayEqual "2" (.arithmetic sumOfOnes)) =
      render (StandardHost.services ⟨default, "", []⟩) .null (sayEqual "2" (.constant (.number 2))) := by
  have sum := folding_transparent.1 (StandardHost.services ⟨default, "", []⟩) ⟨.null, []⟩ sumOfOnes 2
    (by decide +kernel)
  apply folding_transparent.2 _ _ (sayEqual "2" (.arithmetic sumOfOnes), sayEqual "2" (.constant (.number 2)))
  refine .conditional (.compare .equal sum (.same _ (.constant (.string "2"))) ?_ ?_)
    (fun _ => .same _ (.text "same")) fun _ => .same _ (.text "different")
  · intro number carriedOut other evaluated
    cases carriedOut
    cases evaluated
    exact ⟨fun _ => by decide +kernel, fun _ => by decide +kernel⟩
  · intro number carriedOut
    cases carriedOut

/-- Another text of the same number is equal to the number, but not to the text of the sum. -/
theorem render_sayEqual_two_point_zero :
    sumOfOnes.fold? = some 2 ∧
      render (StandardHost.services ⟨default, "", []⟩) .null (sayEqual "2.0" (.arithmetic sumOfOnes)) =
        .ok "different" ∧
      render (StandardHost.services ⟨default, "", []⟩) .null (sayEqual "2.0" (.constant (.number 2))) =
        .ok "same" := by
  decide +kernel

end Render
end TemplateCascade
