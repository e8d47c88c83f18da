import Mathlib
import TemplateCascade.Compile.PhraseText

namespace TemplateCascade
namespace Compile

/-!
# Splitting phrase texts

The pieces of a phrase text make it up again.  No two texts are neighbours, nothing in a text looks like a
placeholder, and there is no other way to split the text like that.

The scan keeps two places in the text: where the text that is not yet taken starts, and where to look on.  Between
them no placeholder begins, and whatever the scan does next, what it gives splits the text from the first of the
two places on.
-/

open Text

/-! ## What splits a text -/

/-- The name of a placeholder: ASCII letters, digits and underscores, and at least one of them. -/
structure IsPlaceholderName (name : List Char) : Prop where
  nonempty : name ≠ []
  parts : ∀ character ∈ name, character.isAlphanum = true ∨ character = '_'

/-- A text begins with a placeholder. -/
def BeginsPlaceholder (text : List Char) : Prop :=
  ∃ name behind, text = '\x7b' :: name ++ '\x7d' :: behind ∧ IsPlaceholderName name

/-- No placeholder stands in a text. -/
def PlaceholderFree (content : List Char) : Prop :=
  ∀ front left, content = front ++ left → ¬ BeginsPlaceholder left

/-- Of two pieces in a row, one at most is text. -/
def Piece.Apart (left right : Piece) : Prop :=
  ∀ content next, left = .text content → right ≠ .text next

/-- Pieces that make up a text, with every placeholder by itself and everything else as long as it can be. -/
structure IsSplit (text : List Char) (parts : List Piece) : Prop where
  joined : parts.flatMap Piece.source = text
  placeholders : ∀ name, .placeholder name ∈ parts → IsPlaceholderName name
  texts : ∀ content, .text content ∈ parts → content ≠ [] ∧ PlaceholderFree content
  apart : parts.IsChain Piece.Apart

theorem isSplit_nil : IsSplit [] [] :=
  ⟨rfl, nofun, nofun, .nil⟩

namespace IsSplit

variable {phrase content name behind : List Char} {part : Piece} {parts rest : List Piece}

/-- A piece may stand in front of a splitting if it is what it should be, and no text in front of a text. -/
theorem cons (split : IsSplit behind parts) (isName : ∀ name, part = .placeholder name → IsPlaceholderName name)
    (isText : ∀ content, part = .text content → content ≠ [] ∧ PlaceholderFree content)
    (apart : ∀ next rest, parts = next :: rest → part.Apart next) :
    IsSplit (part.source ++ behind) (part :: parts) where
  joined := by rw [List.flatMap_cons, split.joined]
  placeholders := by
    intro name member
    rcases List.mem_cons.mp member with isFirst | isLater
    · exact isName name isFirst.symm
    · exact split.placeholders name isLater
  texts := by
    intro content member
    rcases List.mem_cons.mp member with isFirst | isLater
    · exact isText content isFirst.symm
    · exact split.texts content isLater
  apart := by
    cases parts with
    | nil => exact .singleton _
    | cons next rest => exact .cons_cons (apart next rest rfl) split.apart

theorem placeholder (isName : IsPlaceholderName name) (split : IsSplit behind parts) :
    IsSplit ('\x7b' :: name ++ '\x7d' :: behind) (.placeholder name :: parts) := by
  have isSource : '\x7b' :: name ++ '\x7d' :: behind = (Piece.placeholder name).source ++ behind := by
    simp [Piece.source]
  rw [isSource]
  refine split.cons ?_ nofun fun _ _ _ => nofun
  rintro _ ⟨⟩
  exact isName

theorem text (present : content ≠ []) (free : PlaceholderFree content) (split : IsSplit behind parts)
    (apart : ∀ next rest, parts ≠ .text next :: rest) :
    IsSplit (content ++ behind) (.text content :: parts) := by
  change IsSplit ((Piece.text content).source ++ behind) _
  refine split.cons ?_ ?_ ?_
  · nofun
  · rintro _ ⟨⟩
    exact ⟨present, free⟩
  · rintro next rest rfl _ other ⟨⟩ rfl
    exact apart other rest rfl

theorem tail (split : IsSplit phrase (part :: rest)) : IsSplit (rest.flatMap Piece.source) rest where
  joined := rfl
  placeholders name member := split.placeholders name (List.mem_cons_of_mem part member)
  texts content member := split.texts content (List.mem_cons_of_mem part member)
  apart := split.apart.tail

/-- What stands behind a text is no text. -/
theorem ne_text (split : IsSplit phrase (.text content :: parts)) : ∀ next rest, parts ≠ .text next :: rest := by
  rintro next rest rfl
  have apart := split.apart
  rw [List.isChain_cons_cons] at apart
  exact apart.1 content next rfl rfl

/-- Where no text comes first, a placeholder does. -/
theorem eq_nil_or_begins (split : IsSplit phrase parts) (apart : ∀ next rest, parts ≠ .text next :: rest) :
    phrase = [] ∨ BeginsPlaceholder phrase := by
  rw [← split.joined]
  rcases parts with _ | ⟨content | name, rest⟩
  · exact .inl rfl
  · exact absurd rfl (apart content rest)
  · refine .inr ⟨name, rest.flatMap Piece.source, ?_, split.placeholders name List.mem_cons_self⟩
    rw [List.flatMap_cons, Piece.source, List.append_assoc]
    rfl

theorem eq_nil (split : IsSplit [] parts) : parts = [] := by
  have joined := split.joined
  rcases parts with _ | ⟨content | name, rest⟩
  · rfl
  · have nothing := (List.append_eq_nil_iff.mp joined).1
    exact absurd nothing (split.texts content List.mem_cons_self).1
  · cases joined

end IsSplit

/-! ## One placeholder -/

theorem isPlaceholderPart_iff {character : Char} :
    isPlaceholderPart character = true ↔ character.isAlphanum = true ∨ character = '_' := by
  simp only [isPlaceholderPart, isAsciiLetter, isAsciiDigit, Char.isAlphanum, Char.isAlpha, Char.isUpper,
    Char.isLower, Char.isDigit, Bool.or_eq_true, Bool.and_eq_true, decide_eq_true_eq, beq_iff_eq, Char.le_def]
  tauto

/-- A name ends at the first character that cannot belong to it. -/
theorem takeWhile_name {name : List Char} (isName : IsPlaceholderName name) (behind : List Char) :
    (name ++ '\x7d' :: behind).takeWhile isPlaceholderPart = name := by
  have areParts : ∀ character ∈ name, isPlaceholderPart character = true := fun character member =>
    isPlaceholderPart_iff.mpr (isName.parts character member)
  rw [List.takeWhile_append_of_pos areParts]
  simp [isPlaceholderPart, isAsciiLetter, isAsciiDigit]

/-- A run of characters for a name that is closed is a placeholder. -/
theorem placeholder_of_closed {after : List Char} (present : 0 < (after.takeWhile isPlaceholderPart).length)
    (closes : after[(after.takeWhile isPlaceholderPart).length]? = some '\x7d') :
    IsPlaceholderName (after.take (after.takeWhile isPlaceholderPart).length) ∧
      after = after.take (after.takeWhile isPlaceholderPart).length ++
        '\x7d' :: after.drop ((after.takeWhile isPlaceholderPart).length + 1) := by
  have isRun := List.prefix_iff_eq_take.mp (List.takeWhile_prefix (l := after) isPlaceholderPart)
  constructor
  · rw [← isRun]
    refine ⟨List.ne_nil_of_length_pos present, fun character member => ?_⟩
    exact isPlaceholderPart_iff.mp (List.mem_takeWhile_imp member)
  · rcases List.getElem?_eq_some_iff.mp closes with ⟨inside, isClosing⟩
    rw [← isClosing, ← List.drop_eq_getElem_cons inside, List.take_append_drop]

/-- Behind a brace a placeholder is a run of characters for its name and the brace that closes it. -/
theorem beginsPlaceholder_iff {after : List Char} :
    BeginsPlaceholder ('\x7b' :: after) ↔
      0 < (after.takeWhile isPlaceholderPart).length ∧
        after[(after.takeWhile isPlaceholderPart).length]? = some '\x7d' := by
  constructor
  · rintro ⟨name, behind, isText, isName⟩
    obtain rfl : after = name ++ '\x7d' :: behind := (List.cons.inj isText).2
    rw [takeWhile_name isName]
    exact ⟨List.length_pos_of_ne_nil isName.nonempty, by simp⟩
  · rintro ⟨present, closes⟩
    rcases placeholder_of_closed present closes with ⟨isName, isText⟩
    exact ⟨_, _, congrArg (List.cons '\x7b') isText, isName⟩

namespace BeginsPlaceholder

variable {content behind : List Char}

theorem exists_cons (begins : BeginsPlaceholder content) : ∃ after, content = '\x7b' :: after := by
  rcases begins with ⟨name, behind, rfl, _⟩
  exact ⟨_, rfl⟩

/-- A placeholder at the front of a text is there whatever stands behind the text. -/
theorem append (begins : BeginsPlaceholder content) (behind : List Char) :
    BeginsPlaceholder (content ++ behind) := by
  rcases begins with ⟨name, others, rfl, isName⟩
  exact ⟨name, others ++ behind, by simp, isName⟩

/-- No placeholder starts in a text and ends behind it, where nothing or another placeholder stands. -/
theorem of_append (begins : BeginsPlaceholder (content ++ behind)) (present : content ≠ [])
    (starts : behind = [] ∨ BeginsPlaceholder behind) : BeginsPlaceholder content := by
  rcases begins with ⟨name, others, isText, isName⟩
  have isText : content ++ behind = ('\x7b' :: name ++ ['\x7d']) ++ others := by rw [isText]; simp
  rcases List.append_eq_append_iff.mp isText with ⟨inside, isPlaceholder, isBehind⟩ | ⟨left, rfl, _⟩
  · rcases starts with rfl | starts
    · rw [(List.append_eq_nil_iff.mp isBehind.symm).1, List.append_nil] at isPlaceholder
      exact ⟨name, [], isPlaceholder.symm, isName⟩
    -- The second placeholder would open in the name of the first, or where the first is closed.
    · rcases starts.exists_cons with ⟨after, rfl⟩
      rcases List.exists_cons_of_ne_nil present with ⟨head, tail, rfl⟩
      have isRest : name ++ ['\x7d'] = tail ++ inside := (List.cons.inj isPlaceholder).2
      cases inside with
      | nil =>
          rw [List.append_nil] at isPlaceholder
          exact ⟨name, [], isPlaceholder.symm, isName⟩
      | cons first inside =>
          have isBrace : '\x7b' = first := (List.cons.inj isBehind).1
          have member : '\x7b' ∈ name ++ ['\x7d'] := by
            rw [isRest, isBrace]
            exact List.mem_append_right tail List.mem_cons_self
          rcases List.mem_append.mp member with inName | isClosing
          · exact absurd (isName.parts _ inName) (by decide)
          · exact absurd (List.mem_singleton.mp isClosing) (by decide)
  · exact ⟨name, left, by simp, isName⟩

end BeginsPlaceholder

/-! ## What the scan has settled -/

/-- From where the text that is not yet taken starts to where the scan looks on no placeholder begins. -/
structure Settled (text : List Char) (literalStart offset : Nat) : Prop where
  ordered : literalStart ≤ offset
  within : offset ≤ text.length
  free : ∀ place, literalStart ≤ place → place < offset → ¬ BeginsPlaceholder (text.drop place)

namespace Settled

variable {text : List Char} {literalStart offset finish : Nat} {parts : List Piece}

theorem nothing (within : offset ≤ text.length) : Settled text offset offset :=
  ⟨le_rfl, within, fun _ notBefore before => absurd before (Nat.not_lt.mpr notBefore)⟩

theorem extend (settled : Settled text literalStart offset) (ordered : offset ≤ finish)
    (within : finish ≤ text.length)
    (free : ∀ place, offset ≤ place → place < finish → ¬ BeginsPlaceholder (text.drop place)) :
    Settled text literalStart finish where
  ordered := settled.ordered.trans ordered
  within := within
  free := by
    intro place start before
    rcases Nat.lt_or_ge place offset with isEarlier | isLater
    · exact settled.free place start isEarlier
    · exact free place isLater before

theorem placeholderFree (settled : Settled text literalStart finish) :
    PlaceholderFree ((text.take finish).drop literalStart) := by
  intro front left isText begins
  rcases begins.exists_cons with ⟨after, rfl⟩
  have isLeft : '\x7b' :: after = (text.take finish).drop (literalStart + front.length) := by
    rw [← List.drop_drop, isText, List.drop_left]
  have before : literalStart + front.length < finish := by
    have count := congrArg List.length isLeft
    rw [List.length_drop, List.length_take, List.length_cons] at count
    omega
  refine settled.free _ (Nat.le_add_right literalStart front.length) before ?_
  rw [← List.take_append_drop finish text, List.drop_append_of_le_length, ← isLeft]
  · exact begins.append _
  · rw [List.length_take, min_eq_left settled.within]
    exact before.le

/-- The text up to a placeholder, or up to the end, is one piece if there is any of it. -/
theorem isSplit_textBetween (settled : Settled text literalStart finish)
    (split : IsSplit (text.drop finish) parts) (apart : ∀ next rest, parts ≠ .text next :: rest) :
    IsSplit (text.drop literalStart) (textBetween text literalStart finish ++ parts) := by
  unfold textBetween
  split
  · next before =>
      have count : ((text.take finish).drop literalStart).length = finish - literalStart := by
        rw [List.length_drop, List.length_take, min_eq_left settled.within]
      have present : (text.take finish).drop literalStart ≠ [] :=
        List.ne_nil_of_length_pos (count ▸ Nat.sub_pos_of_lt before)
      have isText : text.drop literalStart = (text.take finish).drop literalStart ++ text.drop finish := by
        conv_lhs => rw [← List.take_append_drop finish text]
        refine List.drop_append_of_le_length ?_
        rw [List.length_take, min_eq_left settled.within]
        exact before.le
      rw [isText, List.singleton_append]
      exact split.text present settled.placeholderFree apart
  · next notBefore =>
      obtain rfl : literalStart = finish := le_antisymm settled.ordered (Nat.not_lt.mp notBefore)
      exact split

end Settled

/-! ## There is a splitting -/

/-- Where the scan finds no brace no placeholder begins. -/
theorem not_beginsPlaceholder_of_findIdx?_eq_none {text : List Char} {offset : Nat}
    (missing : (text.drop offset).findIdx? (· == '\x7b') = none) (place : Nat) (notBefore : offset ≤ place) :
    ¬ BeginsPlaceholder (text.drop place) := by
  intro begins
  rcases begins.exists_cons with ⟨after, isText⟩
  rcases Nat.exists_eq_add_of_le notBefore with ⟨skipped, rfl⟩
  rw [← List.drop_drop] at isText
  have member : '\x7b' ∈ text.drop offset :=
    List.mem_of_mem_drop (isText.symm ▸ List.mem_cons_self : '\x7b' ∈ (text.drop offset).drop skipped)
  exact absurd (List.findIdx?_eq_none_iff.mp missing _ member) (by decide)

/-- The scan finds the next brace, and no placeholder begins in front of it. -/
theorem opens_of_findIdx?_eq_some {text : List Char} {offset skipped : Nat}
    (found : (text.drop offset).findIdx? (· == '\x7b') = some skipped) :
    offset + skipped < text.length ∧
      text.drop (offset + skipped) = '\x7b' :: text.drop (offset + skipped + 1) ∧
      ∀ place, offset ≤ place → place < offset + skipped → ¬ BeginsPlaceholder (text.drop place) := by
  rcases List.findIdx?_eq_some_iff_getElem.mp found with ⟨inside, isBrace, others⟩
  rw [List.length_drop] at inside
  have within : offset + skipped < text.length := by omega
  rw [List.getElem_drop, beq_iff_eq] at isBrace
  refine ⟨within, ?_, ?_⟩
  · rw [List.drop_eq_getElem_cons within, isBrace]
  · intro place notBefore before begins
    rcases begins.exists_cons with ⟨after, isText⟩
    rcases Nat.exists_eq_add_of_le notBefore with ⟨passed, rfl⟩
    have isBefore : passed < skipped := Nat.lt_of_add_lt_add_left before
    rw [List.drop_eq_getElem_cons (before.trans within)] at isText
    refine others passed isBefore ?_
    rw [List.getElem_drop, beq_iff_eq]
    exact (List.cons.inj isText).1

/-- Whatever the scan has settled, what it gives splits the text that is not yet taken. -/
theorem isSplit_piecesFrom {text : List Char} {literalStart offset : Nat}
    (settled : Settled text literalStart offset) :
    IsSplit (text.drop literalStart) (piecesFrom text literalStart offset) := by
  fun_induction piecesFrom text literalStart offset with
  | case1 literalStart offset missing =>
      have atEnd : Settled text literalStart text.length := settled.extend settled.within le_rfl
        fun place notBefore _ => not_beginsPlaceholder_of_findIdx?_eq_none missing place notBefore
      rw [← List.append_nil (textBetween text literalStart text.length)]
      refine atEnd.isSplit_textBetween ?_ nofun
      rw [List.drop_length]
      exact isSplit_nil
  | case2 literalStart offset skipped found opening after length closed inductionHypothesis =>
      rcases opens_of_findIdx?_eq_some found with ⟨within, isBrace, noneEarlier⟩
      have atBrace : Settled text literalStart opening :=
        settled.extend (Nat.le_add_right offset skipped) within.le noneEarlier
      rcases placeholder_of_closed closed.1 closed.2 with ⟨isName, isAfter⟩
      have isBehind : after.drop (length + 1) = text.drop (opening + length + 2) := by
        rw [List.drop_drop]
        congr 1
        omega
      have behindWithin : opening + length + 2 ≤ text.length := by
        have inside := (List.getElem?_eq_some_iff.mp closed.2).1
        rw [List.length_drop] at inside
        omega
      refine atBrace.isSplit_textBetween ?_ nofun
      have isText : text.drop opening = '\x7b' :: after.take length ++ '\x7d' :: after.drop (length + 1) :=
        isBrace.trans (congrArg (List.cons '\x7b') isAfter)
      rw [isText, isBehind]
      exact (inductionHypothesis (.nothing behindWithin)).placeholder isName
  | case3 literalStart offset skipped found opening after length closed inductionHypothesis =>
      rcases opens_of_findIdx?_eq_some found with ⟨within, isBrace, noneEarlier⟩
      refine inductionHypothesis (settled.extend (by omega) within fun place notBefore before => ?_)
      rcases Nat.lt_or_ge place opening with isEarlier | notEarlier
      · exact noneEarlier place notBefore isEarlier
      · obtain rfl : place = opening := by omega
        rw [isBrace]
        exact fun begins => closed (beginsPlaceholder_iff.mp begins)

theorem isSplit_pieces (text : List Char) : IsSplit text (pieces text) :=
  isSplit_piecesFrom (.nothing (Nat.zero_le _))

/-- The pieces of a phrase make up its text. -/
theorem flatMap_source_pieces (text : List Char) : (pieces text).flatMap Piece.source = text :=
  (isSplit_pieces text).joined

/-! ## There is no other -/

theorem PlaceholderFree.of_append {front left : List Char} (free : PlaceholderFree (front ++ left)) :
    PlaceholderFree left := by
  rintro earlier later rfl
  exact free (front ++ earlier) later (List.append_assoc front earlier later).symm

/-- A text that goes on in front of a placeholder or the end of the phrase cannot be cut short. -/
theorem eq_nil_of_placeholderFree {content behind : List Char} (free : PlaceholderFree content)
    (starts : behind = [] ∨ BeginsPlaceholder behind)
    (early : content ++ behind = [] ∨ BeginsPlaceholder (content ++ behind)) : content = [] := by
  by_contra present
  rcases early with isEmpty | begins
  · exact present (List.append_eq_nil_iff.mp isEmpty).1
  · exact free [] content rfl (begins.of_append present starts)

namespace IsSplit

variable {phrase content : List Char} {part piece : Piece} {parts rest more : List Piece}

theorem not_begins_of_text (split : IsSplit phrase (.text content :: rest)) :
    ¬ (phrase = [] ∨ BeginsPlaceholder phrase) := by
  rcases split.texts content List.mem_cons_self with ⟨present, free⟩
  intro starts
  rw [← split.joined] at starts
  exact present (eq_nil_of_placeholderFree free (split.tail.eq_nil_or_begins split.ne_text) starts)

theorem head_eq (split : IsSplit phrase (part :: rest)) (other : IsSplit phrase (piece :: more)) :
    part = piece := by
  have same : (part :: rest).flatMap Piece.source = (piece :: more).flatMap Piece.source :=
    split.joined.trans other.joined.symm
  rw [List.flatMap_cons, List.flatMap_cons] at same
  rcases part with content | name <;> rcases piece with next | again
  · have behind := split.tail.eq_nil_or_begins split.ne_text
    have behindNext := other.tail.eq_nil_or_begins other.ne_text
    rcases List.append_eq_append_iff.mp same with ⟨surplus, isNext, isBehind⟩ | ⟨surplus, isContent, isBehind⟩
    · have isNext : next = content ++ surplus := isNext
      have free := (isNext ▸ (other.texts next List.mem_cons_self).2).of_append
      rw [isNext, eq_nil_of_placeholderFree free behindNext (isBehind ▸ behind), List.append_nil]
    · have isContent : content = next ++ surplus := isContent
      have free := (isContent ▸ (split.texts content List.mem_cons_self).2).of_append
      rw [isContent, eq_nil_of_placeholderFree free behind (isBehind ▸ behindNext), List.append_nil]
  · exact absurd (other.eq_nil_or_begins nofun) split.not_begins_of_text
  · exact absurd (split.eq_nil_or_begins nofun) other.not_begins_of_text
  · have names : name ++ '\x7d' :: rest.flatMap Piece.source = again ++ '\x7d' :: more.flatMap Piece.source := by
      simpa [Piece.source] using same
    have first := congrArg (List.takeWhile isPlaceholderPart) names
    rw [takeWhile_name (split.placeholders name List.mem_cons_self),
      takeWhile_name (other.placeholders again List.mem_cons_self)] at first
    rw [first]

/-- Two splittings of a text are the same. -/
theorem unique (split : IsSplit phrase parts) (other : IsSplit phrase more) : parts = more := by
  induction parts generalizing phrase more with
  | nil =>
      obtain rfl : [] = phrase := split.joined
      exact other.eq_nil.symm
  | cons part rest inductionHypothesis =>
      cases more with
      | nil =>
          obtain rfl : [] = phrase := other.joined
          exact split.eq_nil
      | cons piece more =>
          obtain rfl := split.head_eq other
          have tails : rest.flatMap Piece.source = more.flatMap Piece.source :=
            List.append_cancel_left (split.joined.trans other.joined.symm)
          rw [inductionHypothesis split.tail (tails ▸ other.tail)]

end IsSplit

/-- The pieces of a phrase are the one way to split its text. -/
theorem isSplit_iff {text : List Char} {parts : List Piece} : IsSplit text parts ↔ parts = pieces text :=
  ⟨fun split => split.unique (isSplit_pieces text), fun same => same ▸ isSplit_pieces text⟩

example : pieces "\x7ba\x7b1\x7d\x7bé\x7d\x7bx_2\x7d\x7b".toList =
    [.text "\x7ba".toList, .placeholder ['1'], .text "\x7bé\x7d".toList, .placeholder ['x', '_', '2'],
      .text ['\x7b']] := by
  cbv

end Compile
end TemplateCascade
