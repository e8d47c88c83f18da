import Mathlib
import TemplateCascade.Proofs.Code.NormalForm
import TemplateCascade.Render.Evaluation

namespace TemplateCascade
namespace Render

/-!
# Why rendering fails

Code without inclusions fails to render for two reasons only: a calculation has no result, or the host does
not write a date.  So no data make rendering fail over an inclusion, unless the host claims that itself.
-/

/-- What rendering can fail with where nothing is left to be included. -/
inductive Cause (host : Host) : RenderError → Prop where
  | arithmetic (error : ArithmeticError) : Cause host (.arithmetic error)
  | date {kind : FormatKind} {timestamp : Int} {format : Option String} {error : RenderError}
      (answered : host.formatDate kind timestamp format = .error error) : Cause host error

variable {host : Host} {holds : Code → Prop} {Result Other : Type}

/-- If there is no result, then there is a cause for it. -/
def HasCause (host : Host) (outcome : Except RenderError Result) : Prop :=
  ∀ error, outcome = .error error → Cause host error

theorem HasCause.ok (result : Result) : HasCause host (.ok result) :=
  nofun

theorem HasCause.bind {outcome : Except RenderError Result} {next : Result → Except RenderError Other}
    (first : HasCause host outcome) (others : ∀ result, HasCause host (next result)) :
    HasCause host (outcome >>= next) := by
  cases outcome with
  | error error =>
      rintro _ ⟨⟩
      exact first error rfl
  | ok result => exact others result

theorem writeEach_hasCause {write : Value × Value → Except RenderError String}
    (each : ∀ item, HasCause host (write item)) (items : List (Value × Value)) :
    HasCause host (writeEach write items) := by
  induction items with
  | nil => exact HasCause.ok ""
  | cons item rest inductionHypothesis =>
      refine (each item).bind fun text => ?_
      exact inductionHypothesis.bind fun more => HasCause.ok _

theorem formatValue_hasCause (kind : FormatKind) (value : Value) (option : Option Value) :
    HasCause host (formatValue host kind value option) := by
  cases kind with
  | count | number => exact HasCause.ok _
  | date | time | dateTime => exact fun error answered => .date answered

theorem apply_hasCause (operator : ArithmeticOperator) (left right : Float) :
    HasCause host ((operator.apply left right).mapError .arithmetic) := by
  cases operator.apply left right with
  | ok result => exact HasCause.ok result
  | error error =>
      rintro _ ⟨⟩
      exact .arithmetic error

/-! ## Evaluation -/

mutual

theorem evaluate_hasCause (expanded : ∀ name, ¬ holds (.inclusion name)) :
    ∀ (code : Code) (scope : Scope), code.Throughout holds → HasCause host (evaluate host scope code)
  | .text _, _, _ => HasCause.ok _
  | .constant _, _, _ => HasCause.ok _
  | .reference _, _, _ => HasCause.ok _
  | .concat parts, scope, held =>
      (writeAll_hasCause expanded parts scope held.2).bind fun _ => HasCause.ok _
  | .escape _ inner, scope, held =>
      (evaluate_hasCause expanded inner scope held.2).bind fun _ => HasCause.ok _
  | .conditional test body otherwise, scope, held => by
      refine (testHolds_hasCause expanded test scope held.2.1).bind fun isTrue => ?_
      cases isTrue with
      | true => exact (evaluate_hasCause expanded body scope held.2.2.1).bind fun _ => HasCause.ok _
      | false => exact (evaluate_hasCause expanded otherwise scope held.2.2.2).bind fun _ => HasCause.ok _
  | .each source key value body, scope, held => by
      refine (evaluate_hasCause expanded source scope held.2.1).bind fun collection => ?_
      refine (writeEach_hasCause (fun item => ?_) _).bind fun text => HasCause.ok _
      exact (evaluate_hasCause expanded body (scope.enter key value item) held.2.2).bind fun _ =>
        HasCause.ok _
  | .arithmetic calculation, scope, held =>
      (compute_hasCause expanded calculation scope held.2).bind fun _ => HasCause.ok _
  | .format kind value option, scope, held => by
      refine (evaluate_hasCause expanded value scope held.2.1).bind fun formatted => ?_
      refine (evaluateOption_hasCause expanded option scope held.2.2).bind fun chosen => ?_
      exact (formatValue_hasCause kind formatted chosen).bind fun _ => HasCause.ok _
  | .link kind data parameters, scope, held => by
      refine (evaluate_hasCause expanded kind scope held.2.1).bind fun _ => ?_
      refine (evaluateOption_hasCause expanded data scope held.2.2.1).bind fun _ => ?_
      exact (evaluateParameters_hasCause expanded parameters scope held.2.2.2).bind fun _ => HasCause.ok _
  | .pageNavigation link data page perPage total parameters, scope, held => by
      rcases held with ⟨_, ofLink, ofData, ofPage, ofPerPage, ofTotal, ofParameters⟩
      refine (evaluate_hasCause expanded link scope ofLink).bind fun _ => ?_
      refine (evaluate_hasCause expanded data scope ofData).bind fun _ => ?_
      refine (evaluateParameters_hasCause expanded parameters scope ofParameters).bind fun _ => ?_
      refine (evaluate_hasCause expanded page scope ofPage).bind fun _ => ?_
      refine (evaluate_hasCause expanded perPage scope ofPerPage).bind fun _ => ?_
      exact (evaluate_hasCause expanded total scope ofTotal).bind fun _ => HasCause.ok _
  | .helper name arguments, scope, held => by
      refine (evaluate_hasCause expanded name scope held.2.1).bind fun _ => ?_
      exact (evaluateAll_hasCause expanded arguments scope held.2.2).bind fun _ => HasCause.ok _
  | .inclusion name, _, held => absurd held (expanded name)

theorem writeAll_hasCause (expanded : ∀ name, ¬ holds (.inclusion name)) :
    ∀ (codes : List Code) (scope : Scope), Code.ThroughoutAll holds codes →
      HasCause host (writeAll host scope codes)
  | [], _, _ => HasCause.ok ""
  | code :: rest, scope, held =>
      (evaluate_hasCause expanded code scope held.1).bind fun _ =>
        (writeAll_hasCause expanded rest scope held.2).bind fun _ => HasCause.ok _

theorem evaluateAll_hasCause (expanded : ∀ name, ¬ holds (.inclusion name)) :
    ∀ (codes : List Code) (scope : Scope), Code.ThroughoutAll holds codes →
      HasCause host (evaluateAll host scope codes)
  | [], _, _ => HasCause.ok []
  | code :: rest, scope, held =>
      (evaluate_hasCause expanded code scope held.1).bind fun _ =>
        (evaluateAll_hasCause expanded rest scope held.2).bind fun _ => HasCause.ok _

theorem evaluateOption_hasCause (expanded : ∀ name, ¬ holds (.inclusion name)) :
    ∀ (option : Option Code) (scope : Scope), Code.ThroughoutOption holds option →
      HasCause host (evaluateOption host scope option)
  | none, _, _ => HasCause.ok none
  | some code, scope, held => (evaluate_hasCause expanded code scope held).bind fun _ => HasCause.ok _

theorem evaluateParameters_hasCause (expanded : ∀ name, ¬ holds (.inclusion name)) :
    ∀ (named : List (String × Code)) (scope : Scope), Code.ThroughoutNamed holds named →
      HasCause host (evaluateParameters host scope named)
  | [], _, _ => HasCause.ok []
  | (_, code) :: rest, scope, held =>
      (evaluate_hasCause expanded code scope held.1).bind fun _ =>
        (evaluateParameters_hasCause expanded rest scope held.2).bind fun _ => HasCause.ok _

theorem testHolds_hasCause (expanded : ∀ name, ¬ holds (.inclusion name)) :
    ∀ (test : Test) (scope : Scope), test.Throughout holds → HasCause host (testHolds host scope test)
  | .truthy code, scope, held => (evaluate_hasCause expanded code scope held).bind fun _ => HasCause.ok _
  | .not inner, scope, held => (testHolds_hasCause expanded inner scope held).bind fun _ => HasCause.ok _
  | .and left right, scope, held => by
      refine (testHolds_hasCause expanded left scope held.1).bind fun isTrue => ?_
      cases isTrue with
      | true => exact testHolds_hasCause expanded right scope held.2
      | false => exact HasCause.ok false
  | .or left right, scope, held => by
      refine (testHolds_hasCause expanded left scope held.1).bind fun isTrue => ?_
      cases isTrue with
      | true => exact HasCause.ok true
      | false => exact testHolds_hasCause expanded right scope held.2
  | .compare _ left right, scope, held =>
      (evaluate_hasCause expanded left scope held.1).bind fun _ =>
        (evaluate_hasCause expanded right scope held.2).bind fun _ => HasCause.ok _

theorem compute_hasCause (expanded : ∀ name, ¬ holds (.inclusion name)) :
    ∀ (calculation : Arithmetic) (scope : Scope), calculation.Throughout holds →
      HasCause host (compute host scope calculation)
  | .number amount, _, _ => HasCause.ok amount
  | .value code, scope, held => (evaluate_hasCause expanded code scope held).bind fun _ => HasCause.ok _
  | .negate inner, scope, held => (compute_hasCause expanded inner scope held).bind fun _ => HasCause.ok _
  | .binary operator left right, scope, held =>
      (compute_hasCause expanded left scope held.1).bind fun _ =>
        (compute_hasCause expanded right scope held.2).bind fun _ => apply_hasCause operator _ _
  | .function _ arguments, scope, held =>
      (computeAll_hasCause expanded arguments scope held).bind fun _ => HasCause.ok _

theorem computeAll_hasCause (expanded : ∀ name, ¬ holds (.inclusion name)) :
    ∀ (calculations : List Arithmetic) (scope : Scope), Arithmetic.ThroughoutAll holds calculations →
      HasCause host (computeAll host scope calculations)
  | [], _, _ => HasCause.ok []
  | calculation :: rest, scope, held =>
      (compute_hasCause expanded calculation scope held.1).bind fun _ =>
        (computeAll_hasCause expanded rest scope held.2).bind fun _ => HasCause.ok _

end

/-- Code in normal form fails over a calculation or a date only. -/
theorem render_hasCause {code : Code} (normal : code.InNormalForm) (data : Value) :
    HasCause host (render host data code) :=
  (evaluate_hasCause (fun name proper => proper.expanded name rfl) code ⟨data, []⟩ normal).bind fun _ =>
    HasCause.ok _

/-- A standard host refuses a date for its format or for its timestamp, so that it is never to blame for an
inclusion. -/
theorem formatDate_ne_unexpandedInclude (host : StandardHost) (kind : FormatKind) (timestamp : Int)
    (format : Option String) (name : String) :
    host.services.formatDate kind timestamp format ≠ .error (.unexpandedInclude name) := by
  intro failed
  change formatTimestamp _ timestamp = _ at failed
  rw [formatTimestamp] at failed
  rcases checked : checkFormat (format.getD (host.locale.formatOf kind)) with error | items
  · rw [checked] at failed
    cases failed
    unfold checkFormat at checked
    split at checked <;> cases checked
  · rw [checked] at failed
    cases moment : Moment.ofTimestamp? timestamp with
    | none =>
        rw [moment] at failed
        cases failed
    | some moment =>
        rw [moment] at failed
        cases failed

end Render
end TemplateCascade
