import Mathlib
import TemplateCascade.Proofs.Compile.Following
import TemplateCascade.Proofs.Expression.CalculationGrammar

namespace TemplateCascade
namespace Compile

/-!
# Expressions in arguments

An argument is read as an expression in two steps.  Its parts become tokens: literal text is scanned, and any
other part is one token, which holds the code that the part itself compiles to.  Then the tokens are read by
a grammar, and what the grammar does not derive makes the compilation fail.
-/

open Expression (IsSum Item Malformed Token not_isSum_nil parseCalculation parseCalculation_eq_ok_iff tokensFrom)
open Text (Span)

/-! ## Tokens of an argument -/

/-- The tokens of the parts of an argument, with the notes before and after the parts are compiled. -/
inductive Tokenizes : List Pending → Uses → List Token → Uses → Prop where
  | nil (uses : Uses) : Tokenizes [] uses [] uses
  | literal {text : String} {span : Span} {parts : List Pending} {scanned tokens : List Token}
      {uses noted : Uses} (scans : tokensFrom ⟨span.offset, span.line, span.column⟩ text.toList = .ok scanned)
      (behind : Tokenizes parts uses tokens noted) :
      Tokenizes (.literal text span :: parts) uses (scanned ++ tokens) noted
  | deferred {span : Span} {compile : Text.Escaping → CompileM Code} {code : Code} {parts : List Pending}
      {tokens : List Token} {uses between noted : Uses}
      (compiles : (compile .raw).after uses = (.ok code, between))
      (behind : Tokenizes parts between tokens noted) :
      Tokenizes (.deferred span compile :: parts) uses (⟨.value code, span⟩ :: tokens) noted

theorem after_failMalformed_ok {Result : Type} (result : Result) (uses : Uses) :
    CompileM.after (failMalformed (.ok result)) uses = (.ok result, uses) := rfl

theorem after_failMalformed_error {Result : Type} (malformed : Malformed) (uses : Uses) :
    CompileM.after (failMalformed (.error malformed) : CompileM Result) uses =
      (.error (.here (.malformedExpression malformed.fault) malformed.span), uses) := rfl

theorem after_failMalformed_eq_ok {Result : Type} {outcome : Except Malformed Result} {result : Result}
    {uses noted : Uses} :
    (failMalformed outcome).after uses = (.ok result, noted) ↔ outcome = .ok result ∧ uses = noted := by
  cases outcome with
  | error malformed => simp [after_failMalformed_error]
  | ok found => simp [after_failMalformed_ok]

/-- What follows a compilation that succeeds. -/
theorem CompileM.after_bind_eq_ok {Result Other : Type} {compilation : CompileM Result}
    {next : Result → CompileM Other} {uses between : Uses} {first : Result}
    (ran : compilation.after uses = (.ok first, between)) :
    CompileM.after (compilation >>= next) uses = (next first).after between := by
  rw [CompileM.after_bind, ran]

theorem expressionTokens_eq_ok_iff {parts : List Pending} {uses noted : Uses} {tokens : List Token} :
    (expressionTokens parts).after uses = (.ok tokens, noted) ↔ Tokenizes parts uses tokens noted := by
  constructor
  · intro ran
    induction parts generalizing uses tokens with
    | nil =>
        cases ran
        exact .nil _
    | cons part parts inductionHypothesis =>
        cases part with
        | literal text span =>
            rcases CompileM.exists_of_after_bind ran with ⟨scanned, between, taken, ran⟩
            rcases after_failMalformed_eq_ok.mp taken with ⟨scans, rfl⟩
            rcases CompileM.exists_of_after_bind ran with ⟨more, last, others, done⟩
            cases done
            exact .literal scans (inductionHypothesis others)
        | deferred span compile =>
            rcases CompileM.exists_of_after_bind ran with ⟨code, between, compiles, ran⟩
            rcases CompileM.exists_of_after_bind ran with ⟨more, last, others, done⟩
            cases done
            exact .deferred compiles (inductionHypothesis others)
  · intro tokenizes
    induction tokenizes with
    | nil uses => rfl
    | literal scans behind inductionHypothesis =>
        rw [expressionTokens, CompileM.after_bind_eq_ok (after_failMalformed_eq_ok.mpr ⟨scans, rfl⟩),
          CompileM.after_bind_eq_ok inductionHypothesis]
        rfl
    | deferred compiles behind inductionHypothesis =>
        rw [expressionTokens, CompileM.after_bind_eq_ok compiles,
          CompileM.after_bind_eq_ok inductionHypothesis]
        rfl

/-! ## Grammars -/

/-- A way to compile tokens fails with a malformed expression. -/
def Malforms {Result : Type} (compilation : CompileM Result) (uses noted : Uses) : Prop :=
  ∃ fault span, compilation.after uses = (.error (.here (.malformedExpression fault) span), noted)

/-- Tokens, and arguments with such tokens, are read as a language derives them. -/
structure Implements {Result : Type} (read : Span → List Token → Except Malformed Result)
    (compile : PendingArgument → CompileM Result) (language : List Item → Result → Prop) : Prop where
  /-- Reading succeeds with what is derived, and with nothing else. -/
  derived : ∀ whole tokens uses result,
    (failMalformed (read whole tokens)).after uses = (.ok result, uses) ↔
      language (tokens.map Token.item) result
  /-- Tokens with no derivation are malformed. -/
  refused : ∀ whole tokens uses, (∀ result, ¬ language (tokens.map Token.item) result) →
    Malforms (failMalformed (read whole tokens)) uses uses
  /-- An argument compiles to what is derived from the tokens of its parts. -/
  compiled : ∀ argument uses noted result,
    (compile argument).after uses = (.ok result, noted) ↔
      ∃ tokens, Tokenizes argument.parts uses tokens noted ∧ language (tokens.map Token.item) result
  /-- An argument is malformed when no derivation starts from its tokens. -/
  malformed : ∀ argument uses noted tokens, Tokenizes argument.parts uses tokens noted →
    (∀ result, ¬ language (tokens.map Token.item) result) → Malforms (compile argument) uses noted

/-- Whatever reads exactly what a language derives implements it. -/
theorem Implements.of_eq_ok_iff {Result : Type} {read : Span → List Token → Except Malformed Result}
    {compile : PendingArgument → CompileM Result} {language : List Item → Result → Prop}
    (derives : ∀ whole tokens result, read whole tokens = .ok result ↔ language (tokens.map Token.item) result)
    (reads : ∀ argument, compile argument =
      expressionTokens argument.parts >>= fun tokens => failMalformed (read argument.span tokens)) :
    Implements read compile language where
  derived := by
    intro whole tokens uses result
    rw [after_failMalformed_eq_ok, and_iff_left rfl, derives]
  refused := by
    intro whole tokens uses underivable
    cases outcome : read whole tokens with
    | ok result => exact absurd ((derives whole tokens result).mp outcome) (underivable result)
    | error malformed => exact ⟨malformed.fault, malformed.span, rfl⟩
  compiled := by
    intro argument uses noted result
    rw [reads]
    constructor
    · intro ran
      rcases CompileM.exists_of_after_bind ran with ⟨tokens, between, tokenized, ran⟩
      rcases after_failMalformed_eq_ok.mp ran with ⟨outcome, rfl⟩
      exact ⟨tokens, expressionTokens_eq_ok_iff.mp tokenized, (derives _ tokens result).mp outcome⟩
    · rintro ⟨tokens, tokenizes, derived⟩
      rw [CompileM.after_bind_eq_ok (expressionTokens_eq_ok_iff.mpr tokenizes)]
      exact after_failMalformed_eq_ok.mpr ⟨(derives _ tokens result).mpr derived, rfl⟩
  malformed := by
    intro argument uses noted tokens tokenizes underivable
    rw [reads, Malforms, CompileM.after_bind_eq_ok (expressionTokens_eq_ok_iff.mpr tokenizes)]
    cases outcome : read argument.span tokens with
    | ok result => exact absurd ((derives _ tokens result).mp outcome) (underivable result)
    | error malformed => exact ⟨malformed.fault, malformed.span, rfl⟩

/-- Reading calculations implements their grammar, which derives nothing from no tokens at all. -/
theorem calculation_exact :
    Implements parseCalculation PendingArgument.calculation IsSum ∧ ∀ tree, ¬ IsSum [] tree :=
  ⟨.of_eq_ok_iff parseCalculation_eq_ok_iff fun _ => rfl, not_isSum_nil⟩

end Compile
end TemplateCascade
