import Mathlib
import TemplateCascade.Markup.Parser.Inline
import TemplateCascade.Proofs.Markup.Tiling

namespace TemplateCascade

/-!
# Spans that cover text

A span says by numbers where some text stands.  It covers a text if the text stands in the source at just
these numbers.  Spans that stand in one source can be merged, and what is covered afterwards is again a piece
of the source; so everything that a tree says about places comes from the tokens it was read from, which
stand in the source one behind the other.
-/

namespace Text

theorem byteLength_eq_zero_iff {text : List Char} : byteLength text = 0 ↔ text = [] := by
  constructor
  · intro isZero
    cases text with
    | nil => rfl
    | cons first rest =>
        have positive := Char.utf8Size_pos first
        rw [byteLength] at isZero
        omega
  · rintro rfl
    rfl

/-- Of two texts that start the same source the one with fewer bytes starts the other. -/
theorem exists_between {left right leftRest rightRest : List Char}
    (same : left ++ leftRest = right ++ rightRest) (shorter : byteLength left ≤ byteLength right) :
    ∃ between, right = left ++ between ∧ leftRest = between ++ rightRest := by
  rcases List.append_eq_append_iff.mp same with ⟨between, isRight, isRest⟩ | ⟨between, isLeft, isRest⟩
  · exact ⟨between, isRight, isRest⟩
  · have nothing : between = [] := by
      rw [← byteLength_eq_zero_iff]
      rw [isLeft, byteLength_append] at shorter
      omega
    subst nothing
    exact ⟨[], by simpa using isLeft.symm, by simpa using isRest.symm⟩

theorem eq_of_byteLength_eq {left right leftRest rightRest : List Char}
    (same : left ++ leftRest = right ++ rightRest) (length : byteLength left = byteLength right) :
    left = right ∧ leftRest = rightRest := by
  rcases exists_between same length.le with ⟨between, rfl, rfl⟩
  have nothing : between = [] := by
    rw [← byteLength_eq_zero_iff]
    rw [byteLength_append] at length
    omega
  subst nothing
  exact ⟨(List.append_nil _).symm, rfl⟩

namespace Span

/-- A span lies between two bytes of a source. -/
structure Between (span : Span) (lower upper : Nat) : Prop where
  starts : lower ≤ span.offset
  ends : span.finish ≤ upper

/-- A span lies inside another one. -/
def Within (inner outer : Span) : Prop :=
  inner.Between outer.offset outer.finish

theorem offset_le_finish (span : Span) : span.offset ≤ span.finish :=
  Nat.le_add_right _ _

theorem Between.widen {span : Span} {lower upper least greatest : Nat} (between : span.Between lower upper)
    (below : least ≤ lower) (above : upper ≤ greatest) : span.Between least greatest :=
  ⟨below.trans between.starts, between.ends.trans above⟩

theorem Between.merge {left right : Span} {lower upper : Nat} (isLeft : left.Between lower upper)
    (isRight : right.Between lower upper) : (left.merge right).Between lower upper := by
  refine ⟨?_, ?_⟩
  · rw [offset_merge]
    exact le_min isLeft.starts isRight.starts
  · rw [finish_merge]
    exact max_le isLeft.ends isRight.ends

/-- What lies between the start of one span and the end of another lies inside both merged. -/
theorem within_merge {left right span : Span} (between : span.Between left.offset right.finish) :
    span.Within (left.merge right) := by
  refine between.widen ?_ ?_
  · rw [offset_merge]
    exact min_le_left _ _
  · rw [finish_merge]
    exact le_max_right _ _

end Span

end Text

namespace Markup

open Text

/-! ## Covering -/

/-- Some text stands in a source at a span. -/
def Covers (source : List Char) (span : Span) (text : List Char) : Prop :=
  ∃ before behind, source = before ++ (text ++ behind) ∧ span = coveringSpan before text

/-- A span starts and ends between characters of a source, with line and column of its start. -/
def Located (source : List Char) (span : Span) : Prop :=
  ∃ text, Covers source span text

section

variable {source text left right between : List Char} {span leftSpan rightSpan : Span}

theorem Covers.located (covers : Covers source span text) : Located source span := ⟨text, covers⟩

theorem Covers.length_eq (covers : Covers source span text) : span.length = byteLength text := by
  rcases covers with ⟨before, behind, _, rfl⟩
  rfl

/-- The start of a text is covered by the start of its span. -/
theorem Covers.opening (covers : Covers source span (left ++ right)) :
    Covers source { span with length := byteLength left } left := by
  rcases covers with ⟨before, behind, isSource, rfl⟩
  exact ⟨before, right ++ behind, by rw [isSource, List.append_assoc], rfl⟩

/-- The end of a text is covered by what its span is behind the start. -/
theorem Covers.ending (covers : Covers source span (left ++ right)) :
    Covers source (spanBehind span left) right := by
  rcases covers with ⟨before, behind, isSource, rfl⟩
  refine ⟨before ++ left, behind, by simp [isSource], ?_⟩
  have isPlace : (⟨byteLength before, lineBehind before, columnBehind before⟩ : Place).after left =
      ⟨byteLength (before ++ left), lineBehind (before ++ left), columnBehind (before ++ left)⟩ := by
    rw [← start_after_eq, ← start_after_eq, Place.after_append]
  simp only [spanBehind, coveringSpan, isPlace, byteLength_append left, Nat.add_sub_cancel_left]

/-- Merging in the order of the source covers all from the first text to the second. -/
theorem merge_coveringSpan (before : List Char) :
    (coveringSpan before left).merge (coveringSpan (before ++ (left ++ between)) right) =
      coveringSpan before (left ++ (between ++ right)) := by
  rw [Span.merge, if_pos]
  · simp only [coveringSpan, Span.finish, byteLength_append, Span.mk.injEq, true_and]
    omega
  · simp only [coveringSpan, byteLength_append]
    omega

theorem located_merge_of_le (isLeft : Located source leftSpan) (isRight : Located source rightSpan)
    (ordered : leftSpan.offset ≤ rightSpan.offset) : Located source (leftSpan.merge rightSpan) := by
  rcases isLeft with ⟨left, before, behind, isSource, rfl⟩
  rcases isRight with ⟨right, front, back, isSame, rfl⟩
  rcases exists_between (isSource.symm.trans isSame) ordered with ⟨between, rfl, isRest⟩
  rw [Span.merge, if_pos ordered]
  rcases Nat.le_total (byteLength left) (byteLength (between ++ right)) with farther | nearer
  · refine ⟨between ++ right, before, back, by rw [isSame]; simp only [List.append_assoc], ?_⟩
    simp only [coveringSpan, Span.finish, byteLength_append, Span.mk.injEq, true_and] at farther ⊢
    omega
  · refine ⟨left, before, behind, isSource, ?_⟩
    simp only [coveringSpan, Span.finish, byteLength_append, Span.mk.injEq, true_and] at nearer ⊢
    omega

/-- Spans that stand in a source may be merged. -/
theorem Located.merge (isLeft : Located source leftSpan) (isRight : Located source rightSpan) :
    Located source (leftSpan.merge rightSpan) := by
  by_cases ordered : leftSpan.offset ≤ rightSpan.offset
  · exact located_merge_of_le isLeft isRight ordered
  · have merged : leftSpan.merge rightSpan = rightSpan.merge leftSpan := by
      rw [Span.merge, Span.merge, if_neg ordered, if_pos (by omega), max_comm]
    rw [merged]
    exact located_merge_of_le isRight isLeft (by omega)

/-- Where a span starts there stands also the empty text. -/
theorem Located.point (located : Located source span) : Located source { span with length := 0 } := by
  rcases located with ⟨text, covers⟩
  have covers : Covers source span ([] ++ text) := covers
  exact ⟨[], covers.opening⟩

end

/-! ## What tokens look like -/

/-- The characters of variables, of the openings of tags and of the names of arguments. -/
def Shaped : TokenKind → List Char → Prop
  | .variableReference, lexeme => ∃ path, lexeme = '\x7b' :: '$' :: (path ++ ['\x7d'])
  | .tagStart, lexeme => ∃ name, lexeme = tagOpening ++ name
  | .argumentName, lexeme => ∃ blanks name, lexeme = blanks ++ (name ++ ['=']) ∧
      (∀ blank ∈ blanks, isBlank blank = true) ∧ isIdentifier name = true
  | _, _ => True

section Shapes

variable {modes : List Mode} {input : List Char} {scanned : Scanned input}

theorem shaped_scanInline? (found : scanInline? modes input = some scanned) :
    Shaped scanned.kind scanned.lexeme := by
  have ofCall : ∀ {after : List Char} {scanned : Scanned ('\x7b' :: after)},
      scanCall? modes after = some scanned → Shaped scanned.kind scanned.lexeme := by
    intro after scanned found
    unfold scanCall? at found
    split at found
    · cases found
      trivial
    · cases found
  unfold scanInline? at found
  split at found
  · split at found
    · cases found
      unfold scanVariable
      dsimp only
      split
      · dsimp only
        split
        · trivial
        · exact ⟨_, rfl⟩
      · trivial
    · exact ofCall found
  · exact ofCall found
  · cases found

theorem shaped_scanTag? (found : scanTag? modes input = some scanned) :
    Shaped scanned.kind scanned.lexeme := by
  unfold scanTag? at found
  split at found
  · split at found
    · cases found
      unfold scanClosingTag
      dsimp only
      split <;> trivial
    · cases found
  · split at found
    · split at found
      · cases found
        exact ⟨_, rfl⟩
      · cases found
    · cases found

theorem shaped_scanArgument {depth : Nat} {opened : Span} {first : Char} {rest : List Char} :
    Shaped (scanArgument depth opened modes first rest).kind
      (scanArgument depth opened modes first rest).lexeme := by
  unfold scanArgument
  dsimp only
  split
  · trivial
  · split
    · split <;> trivial
    · split
      · next found => exact shaped_scanInline? found
      · trivial

theorem shaped_scanArgumentStart? {named : Bool} {opened : Span}
    (found : scanArgumentStart? named opened modes input = some scanned) :
    Shaped scanned.kind scanned.lexeme := by
  unfold scanArgumentStart? at found
  dsimp only at found
  split at found
  · cases found
  · split at found
    · cases found
      trivial
    · split at found
      · cases found
      · split at found
        · cases found
        · next initial more _ _ isName _ =>
            cases found
            refine ⟨_, initial :: more, rfl, fun blank member => List.mem_takeWhile_imp member, ?_⟩
            rw [← isName]
            exact isIdentifier_leadingIdentifier (isName ▸ List.cons_ne_nil initial more)
        · cases found

theorem shaped_start {named : Bool} {opened : Span} {first : Char} {rest : List Char} :
    let scanned := (scanArgumentStart? named opened modes (first :: rest)).getD
      (scanArgument 0 opened modes first rest)
    Shaped scanned.kind scanned.lexeme := by
  cases found : scanArgumentStart? named opened modes (first :: rest) with
  | some scanned => exact shaped_scanArgumentStart? found
  | none => exact shaped_scanArgument

theorem shaped_scanQuoted {quote : Char} {opened : Span} {first : Char} {rest : List Char} :
    Shaped (scanQuoted quote opened modes first rest).kind
      (scanQuoted quote opened modes first rest).lexeme := by
  unfold scanQuoted
  dsimp only
  split
  · trivial
  · split
    · next found => exact shaped_scanInline? found
    · split
      · split <;> trivial
      · trivial

theorem shaped_scanInTag? {opened : Span} (found : scanInTag? opened modes input = some scanned) :
    Shaped scanned.kind scanned.lexeme := by
  unfold scanInTag? at found
  dsimp only at found
  split at found
  · cases found
  · split at found
    · split at found
      · cases found
        trivial
      · cases found
        trivial
    · split at found
      · cases found
        trivial
      · split at found
        · cases found
          trivial
        · cases found
          trivial

theorem shaped_of_step {first : Char} {rest : List Char} {scanned : Scanned (first :: rest)}
    (found : step modes first rest = .token scanned) : Shaped scanned.kind scanned.lexeme := by
  unfold step at found
  split at found
  · unfold stepInText at found
    split at found
    · split at found <;> cases found
    · split at found
      · next inline isInline =>
          cases found
          exact shaped_scanInline? isInline
      · split at found
        · next tag isTag =>
            cases found
            exact shaped_scanTag? isTag
        · cases found
          trivial
  · cases found
    exact shaped_start
  · cases found
    exact shaped_start
  · cases found
    exact shaped_scanArgument
  · cases found
    exact shaped_scanQuoted
  · split at found
    · next isFound =>
        cases found
        exact shaped_scanInTag? isFound
    · cases found

theorem shaped_of_mem_lexFrom {place : Place} {source : List Char} {token : Token}
    (member : token ∈ (lexFrom place modes source).tokens) : Shaped token.kind token.lexeme := by
  fun_induction lexFrom place modes source with
  | case1 => cases member
  | case2 place modes first rest scanned found start span shorter inductionHypothesis =>
      rcases List.mem_cons.mp member with rfl | isLater
      · exact shaped_of_step found
      · exact inductionHypothesis isLater
  | case3 place modes first rest skipped left isSkipped whole found shorter inductionHypothesis =>
      exact inductionHypothesis member
  | case4 =>
      cases List.mem_singleton.mp member
      trivial
  | case5 => cases member

end Shapes

/-! ## Tokens one behind the other -/

/-- A token stands in a source behind some tiles, and with it the tiles are those that are last. -/
structure Standing (source : List Char) (front : List Tile) (token : Token) (last : List Tile) : Prop where
  covers : Covers source token.span token.lexeme
  behind : byteLength (written front) ≤ token.span.offset
  finish : token.span.finish = byteLength (written last)
  open_eq : openAfter last = openBehind (openAfter front) token.kind
  shaped : Shaped token.kind token.lexeme

/-- Some tokens stand in a source behind some tiles, and with them the tiles are those that are last. -/
def Laid (source : List Char) (front : List Tile) (tokens : List Token) (last : List Tile) : Prop :=
  ∃ tiles back, tiles.map Tile.token = tokens ∧ last = front ++ tiles ∧ FitBehind front (tiles ++ back) ∧
    source = written (front ++ (tiles ++ back)) ∧ ∀ token ∈ tokens, Shaped token.kind token.lexeme

theorem fitBehind_append {front inner back : List Tile} (fit : FitBehind front (inner ++ back)) :
    FitBehind (front ++ inner) back := by
  intro between tile rest split
  rw [List.append_assoc]
  exact fit (inner ++ between) tile rest (by rw [split, List.append_assoc])

section Laid

variable {source : List Char} {front last : List Tile} {token next : Token} {tokens others : List Token}

theorem Laid.eq_of_nil (laid : Laid source front [] last) : last = front := by
  rcases laid with ⟨tiles, back, isNil, rfl, _⟩
  rw [List.map_eq_nil_iff.mp isNil, List.append_nil]

theorem Laid.split (laid : Laid source front (tokens ++ others) last) :
    ∃ middle, Laid source front tokens middle ∧ Laid source middle others last := by
  rcases laid with ⟨tiles, back, areTokens, rfl, fit, isSource, shaped⟩
  rcases List.map_eq_append_iff.mp areTokens with ⟨inner, outer, rfl, rfl, rfl⟩
  rw [List.append_assoc] at fit isSource
  refine ⟨front ++ inner, ⟨inner, outer ++ back, rfl, rfl, fit, isSource, ?_⟩,
    ⟨outer, back, rfl, by rw [List.append_assoc], fitBehind_append fit, by rw [isSource, List.append_assoc], ?_⟩⟩
  · exact fun token member => shaped token (List.mem_append_left _ member)
  · exact fun token member => shaped token (List.mem_append_right _ member)

theorem Laid.cons (laid : Laid source front (token :: tokens) last) :
    ∃ middle, Standing source front token middle ∧ Laid source middle tokens last := by
  rcases laid with ⟨tiles, back, areTokens, rfl, fit, isSource, shaped⟩
  rcases List.map_eq_cons_iff.mp areTokens with ⟨tile, rest, rfl, rfl, rfl⟩
  rcases fitBehind_cons.mp fit with ⟨fits, fitRest⟩
  have isWritten : written (front ++ [tile]) = written front ++ tile.gap ++ tile.token.lexeme := by
    rw [written_append, written_singleton, List.append_assoc]
  refine ⟨front ++ [tile],
    ⟨⟨written front ++ tile.gap, written (rest ++ back), ?_, fits.span⟩, ?_, ?_, ?_, ?_⟩,
    ⟨rest, back, rfl, by simp, fitRest, by simp [isSource], ?_⟩⟩
  · rw [isSource, List.cons_append, List.append_cons, written_append, isWritten, List.append_assoc]
  · rw [fits.span, coveringSpan, byteLength_append]
    exact Nat.le_add_right _ _
  · rw [fits.span, isWritten, byteLength_append]
    rfl
  · rw [openAfter_append_singleton]
  · exact shaped _ List.mem_cons_self
  · exact fun token member => shaped token (List.mem_cons_of_mem _ member)

theorem Laid.single (laid : Laid source front [token] last) : Standing source front token last := by
  rcases laid.cons with ⟨middle, standing, nothing⟩
  rw [nothing.eq_of_nil]
  exact standing

theorem Laid.le (laid : Laid source front tokens last) :
    byteLength (written front) ≤ byteLength (written last) := by
  rcases laid with ⟨tiles, back, _, rfl, _⟩
  rw [written_append, byteLength_append]
  exact Nat.le_add_right _ _

theorem Standing.located (standing : Standing source front token last) : Located source token.span :=
  standing.covers.located

theorem Standing.between (standing : Standing source front token last) :
    token.span.Between (byteLength (written front)) (byteLength (written last)) :=
  ⟨standing.behind, standing.finish.le⟩

/-- Texts stand side by side in literal text only. -/
theorem Laid.open_of_texts (laid : Laid source front (token :: next :: tokens) last)
    (isText : token.kind = .text) (isNext : next.kind = .text) : openAfter front = [] := by
  rcases laid with ⟨tiles, back, areTokens, rfl, fit, _⟩
  rcases List.map_eq_cons_iff.mp areTokens with ⟨tile, more, rfl, rfl, areMore⟩
  rcases List.map_eq_cons_iff.mp areMore with ⟨other, rest, rfl, rfl, rfl⟩
  rcases fitBehind_cons.mp (fitBehind_cons.mp fit).2 with ⟨fits, _⟩
  rcases fits.apart tile List.getLast?_concat isText isNext with ⟨outside, _⟩
  rw [openAfter_append_singleton, isText] at outside
  exact outside

/-- Nothing begins in literal text, and between it and more text right behind there are comments. -/
theorem Laid.text (laid : Laid source front (token :: tokens) last) (outside : openAfter front = [])
    (isText : token.kind = .text) :
    ∃ before behind, source = before ++ (token.lexeme ++ behind) ∧
      token.span = coveringSpan before token.lexeme ∧
      (∀ seen left, token.lexeme = seen ++ left → left ≠ [] → ¬ Begins (left ++ behind)) ∧
      ∀ next others, tokens = next :: others → next.kind = .text →
        ∃ gap rest, Skippable [] .text gap ∧ behind = gap ++ rest ∧
          next.span.offset = byteLength (before ++ (token.lexeme ++ gap)) := by
  rcases laid with ⟨tiles, back, areTokens, rfl, fit, isSource, _⟩
  rcases List.map_eq_cons_iff.mp areTokens with ⟨tile, more, rfl, rfl, rfl⟩
  rcases fitBehind_cons.mp fit with ⟨fits, fitMore⟩
  refine ⟨written front ++ tile.gap, written (more ++ back), ?_, fits.span, fits.plain outside isText, ?_⟩
  · rw [isSource, List.cons_append, List.append_cons, written_append, written_append, written_singleton]
    simp only [List.append_assoc]
  · intro next others split isNext
    rcases List.map_eq_cons_iff.mp split with ⟨other, rest, rfl, rfl, rfl⟩
    have fits := (fitBehind_cons.mp fitMore).1
    have isOutside : openAfter (front ++ [tile]) = [] := by
      rw [openAfter_append_singleton, isText]
      exact outside
    refine ⟨other.gap, other.token.lexeme ++ written (rest ++ back), ?_, ?_, ?_⟩
    · rw [← isNext, ← isOutside]
      exact fits.gap
    · simp [written]
    · rw [fits.span, coveringSpan, written_append, written_singleton]
      simp only [List.append_assoc]

end Laid

end Markup
end TemplateCascade
