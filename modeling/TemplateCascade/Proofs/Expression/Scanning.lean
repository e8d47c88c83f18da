import Mathlib
import TemplateCascade.Expression.Token

namespace TemplateCascade
namespace Expression

/-!
# Places of tokens

The text of an expression is scanned in pieces: blanks one by one, and tokens whole.  The place of a token is
reckoned from the pieces in front of it, and this is not how places are reckoned elsewhere.  A token is taken
to be one line, with one column for each of its characters.  Both agree on the line as long as there is no
line break inside a token, and then on the column as long as all characters since the last line break are
single bytes.
-/

open Text

/-- Some text is scanned in pieces up to a rest of it. -/
inductive Scans : List Char → List (List Char) → List Char → Prop where
  | here {text : List Char} : Scans text [] text
  | blank {first : Char} {rest left : List Char} {pieces : List (List Char)}
      (isBlank : isAsciiBlank first = true) (more : Scans rest pieces left) :
      Scans (first :: rest) ([first] :: pieces) left
  | token {first : Char} {rest left : List Char} {scanned : Scanned (first :: rest)}
      {pieces : List (List Char)} (notBlank : isAsciiBlank first = false)
      (found : scan first rest = .ok scanned) (more : Scans scanned.rest pieces left) :
      Scans (first :: rest) (scanned.lexeme :: pieces) left

theorem Scans.flatten_append {text left : List Char} {pieces : List (List Char)}
    (scans : Scans text pieces left) : pieces.flatten ++ left = text := by
  induction scans with
  | here => rfl
  | blank isBlank more inductionHypothesis => rw [List.flatten_cons, List.append_assoc, inductionHypothesis]; rfl
  | token notBlank found more inductionHypothesis =>
      rename_i scanned _
      rw [List.flatten_cons, List.append_assoc, inductionHypothesis, scanned.append_eq]

/-- The place behind some pieces as it is kept while they are scanned. -/
def reckon (place : Place) (pieces : List (List Char)) : Place :=
  pieces.foldl (fun place piece => if piece = ['\n'] then place.next '\n' else placeAfter place piece) place

theorem next_eq_reckon {place : Place} {first : Char} (isBlank : isAsciiBlank first = true) :
    place.next first = reckon place [[first]] := by
  rw [reckon, List.foldl_cons, List.foldl_nil]
  split
  · next isBreak =>
      rw [(List.cons.inj isBreak).1]
  · next notBreak =>
      have single : first.utf8Size = 1 := by
        simp only [isAsciiBlank, Bool.or_eq_true, beq_iff_eq] at isBlank
        rcases isBlank with (((rfl | rfl) | rfl) | rfl) | rfl <;> rfl
      rw [Place.next, if_neg fun isBreak => notBreak (by rw [isBreak]), placeAfter, byteLength, byteLength,
        single]
      rfl

theorem placeAfter_eq_reckon {place : Place} {first : Char} {rest : List Char}
    (scanned : Scanned (first :: rest)) (notBlank : isAsciiBlank first = false) :
    placeAfter place scanned.lexeme = reckon place [scanned.lexeme] := by
  rw [reckon, List.foldl_cons, List.foldl_nil, if_neg]
  intro isBreak
  have split := scanned.append_eq
  rw [isBreak] at split
  rw [← (List.cons.inj split).1] at notBlank
  cases notBlank

theorem reckon_append (place : Place) (front back : List (List Char)) :
    reckon place (front ++ back) = reckon (reckon place front) back :=
  List.foldl_append

/-! ## Where tokens start -/

/-- A token that is scanned stands behind the pieces in front of it. -/
theorem exists_scans_of_mem {place : Place} {text : List Char} {tokens : List Token} {token : Token}
    (scanned : tokensFrom place text = .ok tokens) (member : token ∈ tokens) :
    ∃ pieces first rest found, Scans text pieces (first :: rest) ∧ isAsciiBlank first = false ∧
      scan first rest = .ok found ∧
      token = ⟨found.item, Span.covering (reckon place pieces) found.lexeme⟩ := by
  fun_induction tokensFrom place text generalizing tokens with
  | case1 place =>
      cases scanned
      cases member
  | case2 place first rest isBlank inductionHypothesis =>
      rcases inductionHypothesis scanned member with ⟨pieces, start, left, found, scans, rest⟩
      rw [next_eq_reckon isBlank, ← reckon_append] at rest
      exact ⟨[first] :: pieces, start, left, found, .blank isBlank scans, rest⟩
  | case3 => cases scanned
  | case4 place first rest notBlank found isFound shorter inductionHypothesis =>
      have notBlank : isAsciiBlank first = false := Bool.eq_false_iff.mpr notBlank
      cases later : tokensFrom (placeAfter place found.lexeme) found.rest with
      | error malformed =>
          rw [later] at scanned
          cases scanned
      | ok others =>
          rw [later] at scanned
          cases scanned
          rcases List.mem_cons.mp member with rfl | member
          · exact ⟨[], first, rest, found, .here, notBlank, isFound, rfl⟩
          · rcases inductionHypothesis later member with ⟨pieces, start, left, next, scans, behind⟩
            rw [placeAfter_eq_reckon found notBlank, ← reckon_append] at behind
            exact ⟨found.lexeme :: pieces, start, left, next, .token notBlank isFound scans, behind⟩

/-- What is no token stands behind the pieces in front of it. -/
theorem exists_scans_of_error {place : Place} {text : List Char} {malformed : Malformed}
    (failed : tokensFrom place text = .error malformed) :
    ∃ pieces first rest width, Scans text pieces (first :: rest) ∧ isAsciiBlank first = false ∧
      scan first rest = .error (malformed.fault, width) ∧
      malformed.span = { Span.point (reckon place pieces) with length := width } := by
  fun_induction tokensFrom place text with
  | case1 => cases failed
  | case2 place first rest isBlank inductionHypothesis =>
      rcases inductionHypothesis failed with ⟨pieces, start, left, width, scans, behind⟩
      rw [next_eq_reckon isBlank, ← reckon_append] at behind
      exact ⟨[first] :: pieces, start, left, width, .blank isBlank scans, behind⟩
  | case3 place first rest notBlank fault width isFound =>
      cases failed
      exact ⟨[], first, rest, width, .here, Bool.eq_false_iff.mpr notBlank, isFound, rfl⟩
  | case4 place first rest notBlank found isFound shorter inductionHypothesis =>
      have notBlank : isAsciiBlank first = false := Bool.eq_false_iff.mpr notBlank
      cases later : tokensFrom (placeAfter place found.lexeme) found.rest with
      | ok others =>
          rw [later] at failed
          cases failed
      | error other =>
          rw [later] at failed
          cases failed
          rcases inductionHypothesis later with ⟨pieces, start, left, width, scans, behind⟩
          rw [placeAfter_eq_reckon found notBlank, ← reckon_append] at behind
          exact ⟨found.lexeme :: pieces, start, left, width, .token notBlank isFound scans, behind⟩

/-! ## How places are reckoned -/

section Reckoning

variable {place : Place} {pieces : List (List Char)}

theorem reckon_offset : (reckon place pieces).offset = (place.after pieces.flatten).offset := by
  induction pieces generalizing place with
  | nil => rfl
  | cons piece pieces inductionHypothesis =>
      rw [reckon, List.foldl_cons, ← reckon, inductionHypothesis, Place.offset_after, Place.offset_after,
        List.flatten_cons, byteLength_append]
      split
      · next isBreak =>
          rw [isBreak, Place.offset_next]
          simp only [byteLength]
          omega
      · simp only [placeAfter]
        omega

/-- The lines behind some text are as many as there are line breaks in it. -/
theorem line_after (place : Place) (text : List Char) :
    (place.after text).line = place.line + text.count '\n' := by
  induction text generalizing place with
  | nil => rfl
  | cons first rest inductionHypothesis =>
      rw [Place.after_cons, inductionHypothesis, Place.next]
      split
      · next isBreak =>
          rw [isBreak, List.count_cons_self]
          dsimp only
          omega
      · next notBreak => rw [List.count_cons_of_ne notBreak]

/-- Line breaks stand by themselves. -/
def Unbroken (pieces : List (List Char)) : Prop :=
  ∀ piece ∈ pieces, '\n' ∈ piece → piece = ['\n']

/-- There are at least as many line breaks as stand by themselves, and no more exactly if all do. -/
theorem count_flatten_iff : pieces.count ['\n'] ≤ pieces.flatten.count '\n' ∧
    (pieces.count ['\n'] = pieces.flatten.count '\n' ↔ Unbroken pieces) := by
  induction pieces with
  | nil => exact ⟨le_rfl, iff_of_true rfl nofun⟩
  | cons piece pieces inductionHypothesis =>
      rcases inductionHypothesis with ⟨fewer, same⟩
      have split : Unbroken (piece :: pieces) ↔ ('\n' ∈ piece → piece = ['\n']) ∧ Unbroken pieces :=
        List.forall_mem_cons
      rw [split, ← same, List.flatten_cons, List.count_append]
      by_cases isBreak : piece = ['\n']
      · subst isBreak
        rw [List.count_cons_self, List.count_singleton_self]
        refine ⟨by omega, ?_⟩
        rw [and_iff_right fun _ => rfl]
        omega
      · have apart : ('\n' ∈ piece → piece = ['\n']) ↔ piece.count '\n' = 0 := by
          rw [List.count_eq_zero]
          exact ⟨fun stands member => isBreak (stands member), fun absent member => absurd member absent⟩
        rw [List.count_cons_of_ne isBreak, apart]
        omega

theorem reckon_line_eq : (reckon place pieces).line = place.line + pieces.count ['\n'] := by
  induction pieces generalizing place with
  | nil => rfl
  | cons piece pieces inductionHypothesis =>
      rw [reckon, List.foldl_cons, ← reckon, inductionHypothesis]
      split
      · next isBreak =>
          rw [isBreak, List.count_cons_self]
          simp only [Place.next, if_true]
          omega
      · next notBreak =>
          rw [List.count_cons_of_ne notBreak]
          rfl

theorem reckon_line_iff :
    (reckon place pieces).line = (place.after pieces.flatten).line ↔ Unbroken pieces := by
  rw [reckon_line_eq, line_after, Nat.add_left_cancel_iff]
  exact count_flatten_iff.2

/-- The characters since the last line break. -/
def sinceBreak (text : List Char) : List Char :=
  (text.reverse.takeWhile (· ≠ '\n')).reverse

theorem sinceBreak_concat_break (text : List Char) : sinceBreak (text ++ ['\n']) = [] := by
  rw [sinceBreak, List.reverse_append, List.reverse_singleton, List.singleton_append,
    List.takeWhile_cons_of_neg (by simp)]
  rfl

theorem sinceBreak_append {text more : List Char} (unbroken : '\n' ∉ more) :
    sinceBreak (text ++ more) = sinceBreak text ++ more := by
  have all : ∀ character ∈ more.reverse, decide (character ≠ '\n') = true := by
    intro character member
    rw [decide_eq_true_iff]
    rintro rfl
    exact unbroken (List.mem_reverse.mp member)
  rw [sinceBreak, List.reverse_append, List.takeWhile_append_of_pos all, List.reverse_append,
    List.reverse_reverse]
  rfl

theorem column_after {text : List Char} (unbroken : '\n' ∉ text) (place : Place) :
    (place.after text).column = place.column + byteLength text := by
  induction text generalizing place with
  | nil => rfl
  | cons first rest inductionHypothesis =>
      rw [List.mem_cons, not_or] at unbroken
      rcases unbroken with ⟨notBreak, unbroken⟩
      rw [Place.after_cons, inductionHypothesis unbroken, Place.next, if_neg (Ne.symm notBreak), byteLength,
        Nat.add_assoc]

/-- The column that is kept falls behind by what characters of several bytes have more than one. -/
theorem reckon_column (place : Place) (unbroken : Unbroken pieces) :
    (place.after pieces.flatten).column + (sinceBreak pieces.flatten).length =
      (reckon place pieces).column + byteLength (sinceBreak pieces.flatten) := by
  induction pieces using List.reverseRecOn with
  | nil => rfl
  | append_singleton front piece inductionHypothesis =>
      have known := inductionHypothesis fun piece member => unbroken piece (List.mem_append_left _ member)
      have single := unbroken piece (List.mem_append_right front (List.mem_singleton_self piece))
      rw [List.flatten_append, List.flatten_singleton, Place.after_append, reckon_append, reckon, List.foldl_cons,
        List.foldl_nil]
      by_cases isBreak : '\n' ∈ piece
      · rw [single isBreak, sinceBreak_concat_break]
        rfl
      · have notBreak : piece ≠ ['\n'] := by
          rintro rfl
          exact isBreak (List.mem_singleton_self _)
        rw [if_neg notBreak, sinceBreak_append isBreak, column_after isBreak, List.length_append,
          byteLength_append]
        simp only [placeAfter]
        omega

theorem length_le_byteLength (text : List Char) :
    text.length ≤ byteLength text ∧
      (text.length = byteLength text ↔ ∀ character ∈ text, character.utf8Size = 1) := by
  induction text with
  | nil => exact ⟨le_rfl, iff_of_true rfl nofun⟩
  | cons first rest inductionHypothesis =>
      have positive := Char.utf8Size_pos first
      rcases inductionHypothesis with ⟨fewer, same⟩
      rw [List.forall_mem_cons, ← same, List.length_cons, byteLength]
      omega

/-- All characters since the last line break are single bytes. -/
def Narrow (text : List Char) : Prop :=
  ∀ character ∈ sinceBreak text, character.utf8Size = 1

theorem reckon_column_iff (unbroken : Unbroken pieces) :
    (reckon place pieces).column = (place.after pieces.flatten).column ↔ Narrow pieces.flatten := by
  have columns := reckon_column place unbroken
  rw [Narrow, ← (length_le_byteLength (sinceBreak pieces.flatten)).2]
  omega

theorem place_eq_iff {left right : Place} :
    left = right ↔ left.offset = right.offset ∧ left.line = right.line ∧ left.column = right.column := by
  rw [Place.mk.injEq]

/-- The place of a token is right exactly if no token in front of it holds a line break, and all characters in
front of it on its line are single bytes. -/
theorem reckon_eq_iff : reckon place pieces = place.after pieces.flatten ↔
    Unbroken pieces ∧ Narrow pieces.flatten := by
  constructor
  · intro same
    have unbroken := reckon_line_iff.mp (congrArg Place.line same)
    exact ⟨unbroken, (reckon_column_iff unbroken).mp (congrArg Place.column same)⟩
  · rintro ⟨unbroken, narrow⟩
    exact place_eq_iff.mpr
      ⟨reckon_offset, reckon_line_iff.mpr unbroken, (reckon_column_iff unbroken).mpr narrow⟩

end Reckoning

end Expression
end TemplateCascade
