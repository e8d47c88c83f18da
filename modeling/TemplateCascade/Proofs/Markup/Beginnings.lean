import Mathlib
import TemplateCascade.Markup.Lexer

namespace TemplateCascade
namespace Markup

/-!
# Where constructs begin

Literal text goes on until a construct begins, the text of an argument until a variable or a call begins or
the argument is over.  What can begin in literal text is said here by its characters alone; the scanners
find exactly that, and a run of text ends at the first place where it is found.
-/

open Text

/-- What is not literal text begins here. -/
inductive Begins : List Char → Prop where
  | reference {first : Char} (isStart : isIdentifierStart first = true) (rest : List Char) :
      Begins ('\x7b' :: '$' :: first :: rest)
  | call {name : List Char} (isName : isIdentifier name = true) (rest : List Char) :
      Begins ('\x7b' :: (name ++ '(' :: rest))
  | openingTag {first : Char} (isStart : isIdentifierStart first = true) (rest : List Char) :
      Begins (tagOpening ++ first :: rest)
  | closingTag {first : Char} (isStart : isIdentifierStart first = true) (rest : List Char) :
      Begins (tagClosing ++ first :: rest)
  | comment (rest : List Char) : Begins (commentOpening ++ rest)

/-! ## Names -/

theorem isIdentifier_leadingIdentifier {text : List Char} (isSome : leadingIdentifier text ≠ []) :
    isIdentifier (leadingIdentifier text) = true := by
  cases text with
  | nil => exact absurd rfl isSome
  | cons head tail =>
      rw [leadingIdentifier] at isSome ⊢
      split at isSome
      · next isStart =>
          rw [if_pos isStart, isIdentifier, Bool.and_eq_true]
          exact ⟨isStart, List.all_takeWhile⟩
      · exact absurd rfl isSome

/-- A name is read to its end if what follows it cannot belong to it. -/
theorem leadingIdentifier_append {name : List Char} {next : Char} (isName : isIdentifier name = true)
    (ends : isIdentifierPart next = false) (rest : List Char) :
    leadingIdentifier (name ++ next :: rest) = name ∧
      afterIdentifier (name ++ next :: rest) = next :: rest := by
  cases name with
  | nil => cases isName
  | cons head tail =>
      rw [isIdentifier, Bool.and_eq_true] at isName
      have parts : ∀ part ∈ tail, isIdentifierPart part = true := List.all_eq_true.mp isName.2
      rw [List.cons_append, leadingIdentifier, afterIdentifier, if_pos isName.1, if_pos isName.1,
        List.takeWhile_append_of_pos parts, List.dropWhile_append_of_pos parts,
        List.takeWhile_cons_of_neg (by simp [ends]), List.dropWhile_cons_of_neg (by simp [ends]),
        List.append_nil]
      exact ⟨rfl, rfl⟩

theorem startsIdentifier_iff {text : List Char} :
    startsIdentifier text = true ↔ ∃ first rest, text = first :: rest ∧ isIdentifierStart first = true := by
  cases text with
  | nil => simp [startsIdentifier]
  | cons first rest => simp [startsIdentifier]

theorem calledName?_isSome_iff {text : List Char} :
    (calledName? text).isSome = true ↔
      ∃ name rest, text = '\x7b' :: (name ++ '(' :: rest) ∧ isIdentifier name = true := by
  constructor
  · intro found
    unfold calledName? at found
    split at found
    · next after =>
        split at found
        · next first name rest named left =>
            refine ⟨first :: name, rest, ?_, ?_⟩
            · rw [← named, ← left, leadingIdentifier_append_afterIdentifier]
            · rw [← named]
              exact isIdentifier_leadingIdentifier (by simp [named])
        · cases found
    · cases found
  · rintro ⟨name, rest, rfl, isName⟩
    have stops : isIdentifierPart '(' = false := by decide
    rcases leadingIdentifier_append isName stops rest with ⟨named, left⟩
    cases name with
    | nil => cases isName
    | cons first more =>
        rw [calledName?, named, left]
        rfl

/-! ## Constructs -/

theorem startsInline_iff {text : List Char} :
    startsInline text = true ↔
      (∃ first rest, text = '\x7b' :: '$' :: first :: rest ∧ isIdentifierStart first = true) ∨
        ∃ name rest, text = '\x7b' :: (name ++ '(' :: rest) ∧ isIdentifier name = true := by
  unfold startsInline
  split
  · next after =>
      have notCalled : ¬ ∃ name rest, '\x7b' :: '$' :: after = '\x7b' :: (name ++ '(' :: rest) ∧
          isIdentifier name = true := by
        rintro ⟨name, rest, same, isName⟩
        cases name with
        | nil => cases isName
        | cons head tail =>
            cases same
            cases isName
      rw [or_iff_left notCalled, startsIdentifier_iff]
      simp
  · next notReference =>
      rw [calledName?_isSome_iff, or_iff_right]
      rintro ⟨first, rest, rfl, _⟩
      exact notReference _ rfl

theorem dropLiteral?_eq_some_iff {literal text rest : List Char} :
    dropLiteral? literal text = some rest ↔ text = literal ++ rest := by
  constructor
  · exact fun found => (dropLiteral?_eq_some found).symm
  · rintro rfl
    exact dropLiteral?_append literal rest

theorem startsTag_iff {text : List Char} :
    startsTag text = true ↔ ∃ first rest, isIdentifierStart first = true ∧
      (text = tagClosing ++ first :: rest ∨ text = tagOpening ++ first :: rest) := by
  unfold startsTag
  split
  · next after closes =>
      rw [startsIdentifier_iff]
      rw [dropLiteral?_eq_some_iff] at closes
      subst closes
      simp [tagClosing, tagOpening, and_comm]
  · next notClosing =>
      have notClosed : ∀ rest, text ≠ tagClosing ++ rest := by
        intro rest closes
        cases notClosing.symm.trans (dropLiteral?_eq_some_iff.mpr closes)
      split
      · next after opens =>
          rw [startsIdentifier_iff]
          rw [dropLiteral?_eq_some_iff] at opens
          subst opens
          simp [tagClosing, tagOpening, and_comm]
      · next notOpening =>
          refine iff_of_false nofun ?_
          rintro ⟨first, rest, _, closes | opens⟩
          · exact notClosed _ closes
          · cases notOpening.symm.trans (dropLiteral?_eq_some_iff.mpr opens)

/-- A construct starts exactly where one begins. -/
theorem startsConstruct_iff {text : List Char} : startsConstruct text = true ↔ Begins text := by
  rw [startsConstruct, Bool.or_eq_true, startsInline_iff, startsTag_iff]
  constructor
  · rintro ((⟨first, rest, rfl, isStart⟩ | ⟨name, rest, rfl, isName⟩) |
      ⟨first, rest, isStart, rfl | rfl⟩)
    · exact .reference isStart rest
    · exact .call isName rest
    · exact .closingTag isStart rest
    · exact .openingTag isStart rest
  · intro begins
    cases begins with
    | reference isStart rest => exact .inl (.inl ⟨_, rest, rfl, isStart⟩)
    | call isName rest => exact .inl (.inr ⟨_, rest, rfl, isName⟩)
    | openingTag isStart rest => exact .inr ⟨_, rest, isStart, .inr rfl⟩
    | closingTag isStart rest => exact .inr ⟨_, rest, isStart, .inl rfl⟩
    -- A comment opens like a tag with its name.
    | comment rest => exact .inr ⟨'c', _, by decide, .inr rfl⟩

/-! ## The scanners -/

theorem calledName?_of_scanCall? {modes : List Mode} {after : List Char}
    (scanned : scanCall? modes after = none) : calledName? ('\x7b' :: after) = none := by
  unfold scanCall? at scanned
  split at scanned
  · cases scanned
  · next notCalled =>
      unfold calledName?
      split
      · next inner same =>
          cases same
          split
          · next first name rest named left => exact (notCalled first name rest named left).elim
          · rfl
      · rfl

/-- Where no variable and no call is scanned, none starts. -/
theorem startsInline_of_scanInline? {modes : List Mode} {text : List Char}
    (scanned : scanInline? modes text = none) : startsInline text = false := by
  unfold scanInline? at scanned
  split at scanned
  · next after =>
      split at scanned
      · cases scanned
      · next notStart => exact Bool.eq_false_iff.mpr notStart
  · next after notReference =>
      unfold startsInline
      split
      · next behind same => exact (notReference behind (List.cons.inj same).2).elim
      · rw [calledName?_of_scanCall? scanned]
        rfl
  · next notReference notBrace =>
      unfold startsInline
      split
      · next after => exact (notReference after rfl).elim
      · unfold calledName?
        split
        · next after _ => exact (notBrace after rfl).elim
        · rfl

/-- Where no block tag is scanned, none starts. -/
theorem startsTag_of_scanTag? {modes : List Mode} {text : List Char}
    (scanned : scanTag? modes text = none) : startsTag text = false := by
  unfold scanTag? at scanned
  unfold startsTag
  split at scanned
  · next after closes =>
      simp only [closes]
      split at scanned
      · cases scanned
      · next notStart => exact Bool.eq_false_iff.mpr notStart
  · next notClosing =>
      simp only [notClosing]
      split at scanned
      · next after opens =>
          simp only [opens]
          split at scanned
          · cases scanned
          · next notStart => exact Bool.eq_false_iff.mpr notStart
      · next notOpening => simp only [notOpening]

/-! ## Runs of text -/

/-- Nothing stops a run inside, whatever follows it. -/
theorem breakBefore_run {stop : List Char → Bool} {text seen left : List Char}
    (run : (breakBefore stop text).1 = seen ++ left) (isLeft : left ≠ []) :
    stop (left ++ (breakBefore stop text).2) = false := by
  induction text generalizing seen with
  | nil => simp_all [breakBefore]
  | cons character rest inductionHypothesis =>
      rw [breakBefore] at run ⊢
      split at run
      · simp_all
      · next goesOn =>
          rw [if_neg goesOn]
          dsimp only at run ⊢
          cases seen with
          | nil =>
              rw [List.nil_append] at run
              subst run
              rw [List.cons_append, breakBefore_append]
              exact Bool.eq_false_iff.mpr goesOn
          | cons head tail => exact inductionHypothesis (List.cons.inj run).2

theorem breakBefore_rest (stop : List Char → Bool) (text : List Char) :
    (breakBefore stop text).2 = [] ∨ stop (breakBefore stop text).2 = true := by
  induction text with
  | nil => exact .inl rfl
  | cons character rest inductionHypothesis =>
      rw [breakBefore]
      split
      · next stops => exact .inr stops
      · exact inductionHypothesis

/-- Behind the text of an argument stands what ends the text. -/
theorem argumentRun_rest (depth : Nat) (text : List Char) :
    (argumentRun depth text).2.2 = [] ∨ startsInline (argumentRun depth text).2.2 = true ∨
      (argumentRun depth text).2.1 = 0 ∧
        ∃ character rest, (argumentRun depth text).2.2 = character :: rest ∧
          (character = ',' ∨ character = ')') := by
  induction text generalizing depth with
  | nil => exact .inl rfl
  | cons character rest inductionHypothesis =>
      rw [argumentRun]
      split
      · next ends =>
          rw [Bool.and_eq_true, Bool.or_eq_true, decide_eq_true_iff, decide_eq_true_iff,
            decide_eq_true_iff] at ends
          exact .inr (.inr ⟨ends.1, character, rest, rfl, ends.2⟩)
      · split
        · next starts => exact .inr (.inl starts)
        · exact inductionHypothesis _

/-- Behind the text of a quoted value stands its quote or what begins there. -/
theorem quotedRun_rest (quote : Char) (text : List Char) :
    (quotedRun quote text).2 = [] ∨ startsInline (quotedRun quote text).2 = true ∨
      ∃ rest, (quotedRun quote text).2 = quote :: rest := by
  fun_induction quotedRun quote text with
  | case1 => exact .inl rfl
  | case2 rest => exact .inr (.inr ⟨rest, rfl⟩)
  | case3 character rest notQuote starts => exact .inr (.inl starts)
  | case4 => exact .inl rfl
  | case5 _ _ _ _ split _ _ inductionHypothesis => simpa only [split] using inductionHypothesis
  | case6 _ _ _ _ _ _ _ split inductionHypothesis => simpa only [split] using inductionHypothesis

end Markup
end TemplateCascade
