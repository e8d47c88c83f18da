import Mathlib
import TemplateCascade.Proofs.Markup.Derivability
import TemplateCascade.Proofs.Markup.Nodes

namespace TemplateCascade
namespace Markup

/-!
# Exact spans

Along a derivation the tokens of a construct stand one behind the other, and behind the construct the same
constructs are open as in front of it.  So in a body, where nothing is open, neighbouring texts have comments
between them and nothing else, and anywhere else there are no neighbouring texts at all.  With that every node
gets the span of what it was read from.
-/

open Text

/-! ## Joined parts -/

/-- Joined parts start with a literal only if the parts do. -/
theorem exists_of_joinLiterals_eq {parts rest : List Segment} {text : String} {span : Span}
    (isLiteral : joinLiterals parts = .literal text span :: rest) :
    ∃ first firstSpan others, parts = .literal first firstSpan :: others := by
  cases parts with
  | nil => cases isLiteral
  | cons part parts =>
      rw [joinLiterals, List.foldr_cons] at isLiteral
      cases part with
      | literal first firstSpan => exact ⟨first, firstSpan, parts, rfl⟩
      | _ =>
          rw [joinTo_of_apart (.inl rfl)] at isLiteral
          cases isLiteral

theorem mem_of_mem_lastOfEach {Entry : Type} {entries : List (String × Entry)} {entry : String × Entry}
    (member : entry ∈ lastOfEach entries) : entry ∈ entries := by
  rcases List.mem_filterMap.mp member with ⟨name, _, isEntry⟩
  rcases Option.map_eq_some_iff.mp isEntry with ⟨value, found, rfl⟩
  exact List.mem_reverse.mp (mem_of_entryNamed? found)

/-- Only text is read as a literal. -/
theorem DerivesParts.exists_text {change : List Char → List Char} {tokens : List Token} {text : String}
    {span : Span} {parts : List Segment} (derives : DerivesParts change tokens (.literal text span :: parts)) :
    ∃ token rest, tokens = token :: rest ∧ token.kind = .text := by
  generalize isHead : Segment.literal text span :: parts = all at derives
  cases derives with
  | nil => cases isHead
  | text isText more => exact ⟨_, _, rfl, isText⟩
  | reference isReference more => cases isHead
  | call first more =>
      rcases first.opens with ⟨_, _, _, _, _, _, _, _, isCall⟩
      rw [isCall] at isHead
      cases isHead

theorem DerivesBlock.literal?_eq {used : List Token} {block : Segment} (derives : DerivesBlock used block) :
    block.literal? = none := by
  cases derives <;> rfl

/-- The source of a loop is one of its attributes. -/
theorem LoopOf.mem_source {attributes : Attributes} {source : Argument} {name : String} {key : Option String}
    (loops : LoopOf attributes source name key) : ("loop", source) ∈ attributes := by
  cases loops with
  | unkeyed entries isVariable => exact entries.mem_iff.mpr List.mem_cons_self
  | keyed entries isVariable isKey => exact entries.mem_iff.mpr List.mem_cons_self

/-! ## Comments -/

theorem begins_of_isComment {comment text behind : List Char} (isComment : IsComment comment)
    (starts : comment <+: text) : Begins (text ++ behind) := by
  rcases isComment with ⟨inside, rfl, _⟩
  rcases starts with ⟨rest, rfl⟩
  simp only [List.append_assoc]
  exact .comment _

namespace CommentsRemoved

variable {lexeme gap written text : List Char}

/-- In front of text with its comments removed there may stand more text in which nothing begins. -/
theorem prepend (behind : List Char) (removed : CommentsRemoved written text)
    (plain : ∀ seen left, lexeme = seen ++ left → left ≠ [] → ¬ Begins (left ++ (written ++ behind))) :
    CommentsRemoved (lexeme ++ written) (lexeme ++ text) := by
  induction lexeme with
  | nil => exact removed
  | cons first rest inductionHypothesis =>
      refine .character ?_ (inductionHypothesis ?_)
      · intro comment isComment starts
        refine plain [] (first :: rest) rfl (List.cons_ne_nil _ _) ?_
        rw [← List.append_assoc]
        exact begins_of_isComment isComment starts
      · intro seen left split isLeft
        exact plain (first :: seen) left (by rw [split]; rfl) isLeft

/-- In front of text with its comments removed there may stand comments. -/
theorem behind_comments (removed : CommentsRemoved written text) (isSkippable : Skippable [] .text gap) :
    CommentsRemoved (gap ++ written) text := by
  rcases isSkippable with ⟨comments, rfl, areComments⟩
  induction comments with
  | nil => exact removed
  | cons comment comments inductionHypothesis =>
      rw [List.flatten_cons, List.append_assoc]
      exact .comment (areComments comment List.mem_cons_self)
        (inductionHypothesis fun text member => areComments text (List.mem_cons_of_mem _ member))

end CommentsRemoved

/-! ## Inline constructs -/

section Laid

variable {source : List Char} {front last : List Tile}

/-- Blank text leaves open what is open. -/
theorem Laid.open_of_blank {tokens : List Token} (laid : Laid source front tokens last)
    (blank : AllBlank tokens) : openAfter last = openAfter front := by
  induction tokens generalizing front with
  | nil => rw [laid.eq_of_nil]
  | cons token tokens inductionHypothesis =>
      rcases laid.cons with ⟨middle, standing, more⟩
      rcases List.forall_mem_cons.mp blank with ⟨⟨isText, _⟩, blank⟩
      rw [inductionHypothesis more blank, standing.open_eq, isText]
      rfl

/-- A literal in front of others that it is not joined with. -/
theorem Sound.literal {setting : Setting} {token : Token} {middle : List Tile} {text : List Char}
    {joined : List Segment} {upper : Nat} (standing : Standing source front token middle)
    (spells : setting.Spells token.lexeme text) (below : byteLength (written middle) ≤ upper)
    (more : Sound source setting upper (byteLength (written middle)) joined) :
    Sound source setting upper (byteLength (written front)) (.literal (String.ofList text) token.span :: joined) :=
  .cons (exact_literal standing.covers (by rw [String.toList_ofList]; exact spells))
    (standing.between.widen le_rfl below) (more.widen standing.finish.le le_rfl)

theorem Sound.reference {setting : Setting} {token : Token} {middle : List Tile} {joined : List Segment}
    {upper : Nat} (standing : Standing source front token middle) (isReference : token.kind = .variableReference)
    (below : byteLength (written middle) ≤ upper)
    (more : Sound source setting upper (byteLength (written middle)) joined) :
    Sound source setting upper (byteLength (written front)) (joinTo (referenceOf token) joined) := by
  rw [joinTo_of_apart (.inl rfl)]
  exact .cons (exact_reference isReference standing.shaped standing.covers)
    (standing.between.widen le_rfl below) (more.widen standing.finish.le le_rfl)

/-- What stands in a source, from one place to another, for a node. -/
structure Holds (source : List Char) (front last : List Tile) (node : Node) : Prop where
  exact : node.Throughout (Exact source)
  between : node.span.Between (byteLength (written front)) (byteLength (written last))

/-- A call or a block in front of other parts. -/
theorem Sound.construct {setting : Setting} {segment : Segment} {middle : List Tile} {joined : List Segment}
    {upper : Nat} (holds : Holds source front middle (.segment setting segment))
    (isOther : segment.literal? = none) (below : byteLength (written middle) ≤ upper)
    (more : Sound source setting upper (byteLength (written middle)) joined) :
    Sound source setting upper (byteLength (written front)) (joinTo segment joined) := by
  rw [joinTo_of_apart (.inl isOther)]
  exact .cons holds.exact (holds.between.widen le_rfl below) (more.widen holds.between.ends le_rfl)

/-- What opens and what closes a construct enclose all that stands between them. -/
theorem enclosing {opening closing : Token} {inner outer : List Tile}
    (opens : Standing source front opening inner) (closes : Standing source outer closing last)
    (ordered : byteLength (written inner) ≤ byteLength (written outer)) :
    Located source (opening.span.merge closing.span) ∧
      (opening.span.merge closing.span).Between (byteLength (written front)) (byteLength (written last)) ∧
      ∀ span : Span, span.Between opening.span.offset (byteLength (written outer)) →
        span.Within (opening.span.merge closing.span) := by
  have toInner : opening.span.offset ≤ byteLength (written inner) :=
    (Span.offset_le_finish _).trans opens.finish.le
  have fromOuter : byteLength (written outer) ≤ closing.span.finish :=
    closes.behind.trans (Span.offset_le_finish _)
  refine ⟨opens.located.merge closes.located, ?_, ?_⟩
  · have below := ordered.trans (fromOuter.trans closes.finish.le)
    have above := opens.behind.trans (toInner.trans ordered)
    exact (opens.between.widen le_rfl below).merge (closes.between.widen above le_rfl)
  · exact fun span between => Span.within_merge (between.widen le_rfl fromOuter)

theorem Standing.offset_le {token : Token} (standing : Standing source front token last) :
    token.span.offset ≤ byteLength (written last) :=
  (Span.offset_le_finish _).trans standing.finish.le

/-- A call around its arguments. -/
theorem holds_call {setting : Setting} {opening closing : Token} {name : String} {arguments : List Argument}
    {named : List (String × Argument)} {inner outer : List Tile} (opens : Standing source front opening inner)
    (closes : Standing source outer closing last) (ordered : byteLength (written inner) ≤ byteLength (written outer))
    (positional : ∀ argument ∈ arguments, Holds source inner outer (.argument argument))
    (byName : ∀ entry ∈ named, Holds source inner outer (.argument entry.2)) :
    Holds source front last (.segment setting (.call name arguments named (opening.span.merge closing.span))) := by
  rcases enclosing opens closes ordered with ⟨located, between, encloses⟩
  have inside : ∀ child ∈ (Node.segment setting (.call name arguments named
      (opening.span.merge closing.span))).children, Holds source inner outer child := by
    intro child member
    rcases List.mem_append.mp member with member | member
    · rcases List.mem_map.mp member with ⟨argument, isArgument, rfl⟩
      exact positional argument isArgument
    · rcases List.mem_map.mp member with ⟨entry, isEntry, rfl⟩
      exact byName entry isEntry
  refine ⟨⟨⟨located, fun child member => encloses _ ?_, nofun, trivial⟩,
    fun child member => (inside child member).exact⟩, between⟩
  exact (inside child member).between.widen opens.offset_le le_rfl

/-- An argument around its parts. -/
theorem holds_argument {argument : Argument} {lower upper : Nat} (located : Located source argument.span)
    (between : argument.span.Between (byteLength (written front)) (byteLength (written last)))
    (sound : Sound source argument.setting upper lower argument.parts)
    (encloses : ∀ part ∈ argument.parts, part.span.Within argument.span) :
    Holds source front last (.argument argument) := by
  refine ⟨⟨⟨located, ?_, ?_, trivial⟩, ?_⟩, between⟩
  · intro child member
    rcases List.mem_map.mp member with ⟨part, isPart, rfl⟩
    exact encloses part isPart
  · intro row member
    rw [List.mem_singleton.mp member]
    exact sound.inOrder
  · intro child member
    rcases List.mem_map.mp member with ⟨part, isPart, rfl⟩
    exact sound.exact_of_mem isPart

/-- A quoted value between what opens and what closes it. -/
theorem holds_quoted {opening closing : Token} {parts : List Segment} {inner outer : List Tile}
    (opens : Standing source front opening inner) (closes : Standing source outer closing last)
    (ordered : byteLength (written inner) ≤ byteLength (written outer))
    (sound : Sound source .quoted (byteLength (written outer)) (byteLength (written inner)) parts) :
    Holds source front last (.argument ⟨parts, opening.span.merge closing.span, true⟩) := by
  rcases enclosing opens closes ordered with ⟨located, between, encloses⟩
  refine holds_argument located between sound fun part isPart => encloses _ ?_
  exact (sound.between_of_mem isPart).widen opens.offset_le le_rfl

theorem Holds.widen {node : Node} {inner outer : List Tile} (holds : Holds source inner outer node)
    (below : byteLength (written front) ≤ byteLength (written inner))
    (above : byteLength (written outer) ≤ byteLength (written last)) : Holds source front last node :=
  ⟨holds.exact, holds.between.widen below above⟩

end Laid

section Inline

variable {source : List Char}

mutual

/-- The parts of an argument have exact spans, and behind them is open what is open in front. -/
theorem sound_of_derivesParts (setting : Setting) {change : List Char → List Char} {tokens : List Token}
    {parts : List Segment} {front last : List Tile} (spells : ∀ written, setting.Spells written (change written))
    (inside : openAfter front ≠ []) (laid : Laid source front tokens last) :
    DerivesParts change tokens parts → openAfter last = openAfter front ∧
      Sound source setting (byteLength (written last)) (byteLength (written front)) (joinLiterals parts)
  | .nil => by
      rw [laid.eq_of_nil]
      exact ⟨rfl, .nil⟩
  | @DerivesParts.text _ token others parts isText more => by
      rcases laid.cons with ⟨middle, standing, laidMore⟩
      have isOpen : openAfter middle = openAfter front := by
        rw [standing.open_eq, isText]
        rfl
      rcases sound_of_derivesParts setting spells (isOpen ▸ inside) laidMore more with ⟨returns, sound⟩
      refine ⟨returns.trans isOpen, ?_⟩
      rw [joinLiterals, List.foldr_cons, ← joinLiterals, joinTo_of_apart]
      · exact .literal standing (spells _) laidMore.le sound
      · refine .inr fun text span rest isLiteral => ?_
        -- A literal that comes next would be read from a text side by side with this one.
        rcases exists_of_joinLiterals_eq isLiteral with ⟨_, _, _, rfl⟩
        rcases more.exists_text with ⟨next, behind, rfl, isNext⟩
        exact inside (laid.open_of_texts isText isNext)
  | .reference isReference more => by
      rcases laid.cons with ⟨middle, standing, laidMore⟩
      have isOpen : openAfter middle = openAfter front := by
        rw [standing.open_eq, isReference]
        rfl
      rcases sound_of_derivesParts setting spells (isOpen ▸ inside) laidMore more with ⟨returns, sound⟩
      exact ⟨returns.trans isOpen, .reference standing isReference laidMore.le sound⟩
  | .call first more => by
      rcases laid.split with ⟨middle, laidCall, laidMore⟩
      rcases holds_of_derivesCall setting laidCall first with ⟨isOpen, holds⟩
      rcases sound_of_derivesParts setting spells (isOpen ▸ inside) laidMore more with ⟨returns, sound⟩
      rcases first.opens with ⟨_, _, _, _, _, _, _, _, rfl⟩
      exact ⟨returns.trans isOpen, .construct holds rfl laidMore.le sound⟩

theorem holds_of_derivesCall {used : List Token} {call : Segment} {front last : List Tile}
    (setting : Setting) (laid : Laid source front used last) : DerivesCall used call →
      openAfter last = openAfter front ∧ Holds source front last (.segment setting call)
  | .bare opens blank closes => by
      rcases laid.cons with ⟨inner, opening, laid⟩
      rcases laid.split with ⟨outer, laidBlank, laid⟩
      refine ⟨?_, holds_call opening laid.single laidBlank.le nofun nofun⟩
      rw [laid.single.open_eq, laidBlank.open_of_blank blank, opening.open_eq, opens, closes]
      rfl
  | @DerivesCall.filled _ _ _ read opens arguments closes => by
      rcases laid.cons with ⟨inner, opening, laid⟩
      rcases laid.split with ⟨outer, laidArguments, laid⟩
      have isOpen : openAfter inner = .call :: openAfter front := by
        rw [opening.open_eq, opens]
        rfl
      rcases holds_of_derivesArguments (isOpen ▸ List.cons_ne_nil _ _) laidArguments arguments with
        ⟨returns, holds⟩
      refine ⟨?_, holds_call opening laid.single laidArguments.le ?_ ?_⟩
      · rw [laid.single.open_eq, returns, isOpen, closes]
        rfl
      · exact fun argument member => holds _ (mem_positionalOf.mp member)
      · intro entry member
        rcases List.mem_filterMap.mp (mem_of_mem_lastOfEach member) with ⟨⟨name, value⟩, isRead, named⟩
        rcases Option.map_eq_some_iff.mp named with ⟨_, _, rfl⟩
        exact holds _ isRead

theorem holds_of_derivesArguments {tokens : List Token} {read : List NamedArgument} {front last : List Tile}
    (inside : openAfter front ≠ []) (laid : Laid source front tokens last) : DerivesArguments tokens read →
      openAfter last = openAfter front ∧ ∀ argument ∈ read, Holds source front last (.argument argument.2)
  | .one only => by
      rcases holds_of_derivesArgument inside laid only with ⟨returns, holds⟩
      exact ⟨returns, List.forall_mem_singleton.mpr holds⟩
  | .more first isComma behind => by
      rcases laid.split with ⟨outer, laidFirst, laid⟩
      rcases laid.cons with ⟨next, comma, laidMore⟩
      rcases holds_of_derivesArgument inside laidFirst first with ⟨returns, holds⟩
      have isOpen : openAfter next = openAfter front := by
        rw [comma.open_eq, isComma, returns]
        rfl
      rcases holds_of_derivesArguments (isOpen ▸ inside) laidMore behind with ⟨returnsMore, holdsMore⟩
      have toNext := comma.behind.trans ((Span.offset_le_finish _).trans comma.finish.le)
      refine ⟨returnsMore.trans isOpen, List.forall_mem_cons.mpr ⟨?_, ?_⟩⟩
      · exact holds.widen le_rfl (toNext.trans laidMore.le)
      · exact fun argument member => (holdsMore argument member).widen (laidFirst.le.trans toNext) le_rfl

theorem holds_of_derivesArgument {tokens : List Token} {argument : NamedArgument} {front last : List Tile}
    (inside : openAfter front ≠ []) (laid : Laid source front tokens last) : DerivesArgument tokens argument →
      openAfter last = openAfter front ∧ Holds source front last (.argument argument.2)
  | .named isName content => by
      rcases laid.cons with ⟨middle, name, laidValue⟩
      have isOpen : openAfter middle = openAfter front := by
        rw [name.open_eq, isName]
        rfl
      have toMiddle := (Span.offset_le_finish _).trans name.finish.le
      rcases holds_of_derivesValue (isOpen ▸ inside) laidValue (name.behind.trans toMiddle)
        (.inl ⟨name.located, name.behind, toMiddle⟩) content with ⟨returns, holds⟩
      exact ⟨returns.trans isOpen, holds⟩
  | .positional content present => holds_of_derivesValue inside laid le_rfl (.inr present) content

/-- A value may start in front of its tokens, where its name starts. -/
theorem holds_of_derivesValue {start : Span} {tokens : List Token} {value : Argument}
    {front inner last : List Tile} (inside : openAfter inner ≠ []) (laid : Laid source inner tokens last)
    (below : byteLength (written front) ≤ byteLength (written inner))
    (starts : (Located source start ∧ byteLength (written front) ≤ start.offset ∧
      start.offset ≤ byteLength (written inner)) ∨ ¬ AllBlank tokens) :
    DerivesValue start tokens value → openAfter last = openAfter inner ∧ Holds source front last (.argument value)
  | .quoted opens content closes blank => by
      rcases laid.cons with ⟨first, opening, laid⟩
      rcases laid.split with ⟨outer, laidParts, laid⟩
      rcases laid.cons with ⟨behind, closing, laidBlank⟩
      have isOpen : openAfter first = .value :: openAfter inner := by
        rw [opening.open_eq, opens]
        rfl
      rcases sound_of_derivesParts .quoted (fun _ => rfl) (isOpen ▸ List.cons_ne_nil _ _)
        laidParts content with ⟨returns, sound⟩
      refine ⟨?_, (holds_quoted opening closing laidParts.le sound).widen below laidBlank.le⟩
      rw [laidBlank.open_of_blank blank, closing.open_eq, returns, isOpen, closes]
      rfl
  | @DerivesValue.plain _ _ parts content => by
      rcases sound_of_derivesParts .plain (fun _ => rfl) inside laid content with ⟨returns, sound⟩
      have sound := sound.trimParts
      refine ⟨returns, ?_⟩
      by_cases isPart : trimParts (joinLiterals parts) = []
      · rcases starts with ⟨located, isBehind, isBefore⟩ | present
        · rw [isPart] at sound ⊢
          exact holds_argument located.point ⟨isBehind, isBefore.trans laid.le⟩ sound nofun
        · exact absurd (content.isBlank_iff.mp (trimParts_joinLiterals.mp isPart)) present
      · rcases sound.partsSpan isPart start with ⟨located, between, encloses⟩
        exact holds_argument located (between.widen below le_rfl) sound encloses

end

end Inline

/-! ## Tags -/

section Tags

variable {source : List Char} {front last : List Tile}

theorem holds_of_derivesAttributes {tokens : List Token} {entries : Attributes}
    (derives : DerivesAttributes tokens entries) (inside : openAfter front ≠ [])
    (laid : Laid source front tokens last) : openAfter last = openAfter front ∧
      ∀ entry ∈ entries, Holds source front last (.argument entry.2) := by
  induction derives generalizing front with
  | nil =>
      rw [laid.eq_of_nil]
      exact ⟨rfl, nofun⟩
  | cons isName content closes more inductionHypothesis =>
      rcases laid.cons with ⟨inner, name, laid⟩
      rcases laid.split with ⟨outer, laidParts, laid⟩
      rcases laid.cons with ⟨behind, closing, laidMore⟩
      have isOpen : openAfter inner = .value :: openAfter front := by
        rw [name.open_eq, isName]
        rfl
      rcases sound_of_derivesParts .quoted (fun _ => rfl) (isOpen ▸ List.cons_ne_nil _ _)
        laidParts content with ⟨returns, sound⟩
      have isSame : openAfter behind = openAfter front := by
        rw [closing.open_eq, returns, isOpen, closes]
        rfl
      rcases inductionHypothesis (isSame ▸ inside) laidMore with ⟨returnsMore, holdsMore⟩
      have holds := holds_quoted name closing laidParts.le sound
      refine ⟨returnsMore.trans isSame, List.forall_mem_cons.mpr ⟨?_, ?_⟩⟩
      · exact holds.widen le_rfl laidMore.le
      · have toBehind := holds.between.starts.trans ((Span.offset_le_finish _).trans holds.between.ends)
        exact fun entry member => (holdsMore entry member).widen toBehind le_rfl

/-- An opening tag stands in a source: its opening, its attributes and what ends it. -/
structure Tagged (source : List Char) (front : List Tile) (opening : Token) (name : String)
    (inner outer : List Tile) (ending : Token) (last : List Tile) (attributes : Attributes) : Prop where
  opens : Standing source front opening inner
  isOpening : Covers source opening.span (tagOpening ++ name.toList)
  ends : Standing source outer ending last
  ordered : byteLength (written inner) ≤ byteLength (written outer)
  open_eq : openAfter last = openAfter front
  holds : ∀ entry ∈ attributes, Holds source inner outer (.argument entry.2)

theorem DerivesTag.tagged {opening ending : Token} {name : String} {tokens : List Token}
    {attributes : Attributes} (derives : DerivesTag opening name ending tokens attributes)
    (ends : ending.kind = .tagEnd ∨ ending.kind = .tagSelfClose) (laid : Laid source front tokens last) :
    ∃ inner outer, Tagged source front opening name inner outer ending last attributes := by
  cases derives with
  | mk opens isNamed attributes =>
      rcases laid.cons with ⟨inner, start, laid⟩
      rcases laid.split with ⟨outer, laidAttributes, laid⟩
      have isOpen : openAfter inner = .tag :: openAfter front := by
        rw [start.open_eq, opens]
        rfl
      rcases holds_of_derivesAttributes attributes (isOpen ▸ List.cons_ne_nil _ _) laidAttributes with
        ⟨returns, holds⟩
      refine ⟨inner, outer, start, ?_, laid.single, laidAttributes.le, ?_, ?_⟩
      · have shaped := start.shaped
        rw [opens] at shaped
        rcases shaped with ⟨written, isWritten⟩
        have isName : name.toList = written := by
          rw [← isNamed, openedTag, String.toList_ofList, isWritten, List.drop_left]
        rw [isName, ← isWritten]
        exact start.covers
      · rw [laid.single.open_eq, returns, isOpen]
        rcases ends with ends | ends <;> rw [ends] <;> rfl
      · exact fun entry member => holds entry (mem_of_mem_lastOfEach member)

end Tags

/-! ## Bodies and blocks -/

section Bodies

variable {source : List Char} {front last : List Tile}

/-- Text in front of text that its comments separate it from. -/
theorem Sound.joined {token next : Token} {tokens : List Token} {text : String} {span : Span}
    {rest : List Segment} (outside : openAfter front = [])
    (laid : Laid source front (token :: next :: tokens) last) (isText : token.kind = .text)
    (isNext : next.kind = .text) (isStart : span.offset = next.span.offset)
    (more : Sound source .body (byteLength (written last)) next.span.offset (.literal text span :: rest)) :
    Sound source .body (byteLength (written last)) (byteLength (written front))
      (.literal (String.ofList token.lexeme ++ text) (token.span.merge span) :: rest) ∧
    (token.span.merge span).offset = token.span.offset := by
  rcases laid.text outside isText with ⟨before, behind, isSource, isSpan, plain, apart⟩
  rcases apart next tokens rfl isNext with ⟨gap, behindGap, isSkippable, rfl, isOffset⟩
  rcases laid.cons with ⟨middle, standing, _⟩
  cases more with
  | cons exact between more =>
      rcases exact.here.faithful with ⟨written, ⟨start, back, isSame, isCovered⟩, removed⟩
      have isBehind : byteLength (before ++ (token.lexeme ++ gap)) = byteLength start := by
        rw [← isOffset, ← isStart, isCovered, coveringSpan]
      have same : (before ++ (token.lexeme ++ gap)) ++ behindGap = start ++ (written ++ back) := by
        rw [← isSame, isSource]
        simp only [List.append_assoc]
      rcases eq_of_byteLength_eq same isBehind with ⟨rfl, rfl⟩
      have merged : token.span.merge span = coveringSpan before (token.lexeme ++ (gap ++ written)) := by
        rw [isSpan, isCovered, merge_coveringSpan]
      have covers : Covers source (token.span.merge span) (token.lexeme ++ (gap ++ written)) := by
        refine ⟨before, back, ?_, merged⟩
        rw [isSource]
        simp only [List.append_assoc]
      have spelled : CommentsRemoved (token.lexeme ++ (gap ++ written)) (token.lexeme ++ text.toList) := by
        refine (removed.behind_comments isSkippable).prepend back fun seen left split isLeft => ?_
        rw [List.append_assoc]
        exact plain seen left split isLeft
      have ordered : token.span.finish ≤ span.finish := by
        rw [isSpan, isCovered]
        simp only [Span.finish, coveringSpan, byteLength_append]
        omega
      refine ⟨.cons (exact_literal covers ?_) ⟨?_, ?_⟩ (more.widen ?_ le_rfl), ?_⟩
      · rw [String.toList_append, String.toList_ofList]
        exact spelled
      · have isBehind := standing.behind
        rw [isSpan] at isBehind
        rw [Segment.span, merged]
        exact isBehind
      · rw [Segment.span, Span.finish_merge, max_eq_right ordered]
        exact between.ends
      · rw [Segment.span, Span.finish_merge, max_eq_right ordered]
        rfl
      · rw [merged, isSpan]
        rfl

/-- The parts of a body have exact spans, and a literal at their front starts where the first text does. -/
structure SoundBody (source : List Char) (front last : List Tile) (tokens : List Token)
    (joined : List Segment) : Prop where
  sound : Sound source .body (byteLength (written last)) (byteLength (written front)) joined
  starts : ∀ text span rest, joined = .literal text span :: rest → ∃ token others,
    tokens = token :: others ∧ token.kind = .text ∧ span.offset = token.span.offset

/-- Text in front of the parts of a body is joined with a literal that comes next. -/
theorem SoundBody.text {token : Token} {tokens : List Token} {joined : List Segment}
    (outside : openAfter front = []) (laid : Laid source front (token :: tokens) last)
    (isText : token.kind = .text) {middle : List Tile} (standing : Standing source front token middle)
    (below : byteLength (written middle) ≤ byteLength (written last))
    (more : SoundBody source middle last tokens joined) :
    SoundBody source front last (token :: tokens)
      (joinTo (.literal (String.ofList token.lexeme) token.span) joined) := by
  rcases more with ⟨sound, starts⟩
  by_cases isLiteral : ∃ text span rest, joined = .literal text span :: rest
  · rcases isLiteral with ⟨text, span, rest, rfl⟩
    rcases starts text span rest rfl with ⟨next, behind, rfl, isNext, isStart⟩
    have fromNext : Sound source .body (byteLength (written last)) next.span.offset
        (.literal text span :: rest) := by
      cases sound with
      | cons exact between more => exact .cons exact ⟨isStart.ge, between.ends⟩ more
    rcases fromNext.joined outside laid isText isNext isStart with ⟨joined, isOffset⟩
    refine ⟨joined, ?_⟩
    rintro _ _ _ ⟨⟩
    exact ⟨token, _, rfl, isText, isOffset⟩
  · rw [joinTo_of_apart (.inr fun text span rest same => isLiteral ⟨text, span, rest, same⟩)]
    rcases laid.text outside isText with ⟨before, behind, isSource, isSpan, plain, _⟩
    have spells : CommentsRemoved token.lexeme token.lexeme := by
      have removed := CommentsRemoved.nil.prepend behind plain
      rwa [List.append_nil] at removed
    refine ⟨.literal standing spells below sound, ?_⟩
    rintro _ _ _ ⟨⟩
    exact ⟨token, tokens, rfl, isText, rfl⟩

/-- A branch stands in a source between two bytes, with its condition and its body. -/
structure HoldsBranch (source : List Char) (lower upper : Nat) (branch : Branch) : Prop where
  exact : (Node.branch branch).Throughout (Exact source)
  between : ∀ node ∈ Node.branch branch :: (Node.branch branch).children, node.span.Between lower upper

theorem HoldsBranch.widen {branch : Branch} {lower upper least greatest : Nat}
    (holds : HoldsBranch source lower upper branch) (below : least ≤ lower) (above : upper ≤ greatest) :
    HoldsBranch source least greatest branch :=
  ⟨holds.exact, fun node member => (holds.between node member).widen below above⟩

section Tag

variable {opening ending : Token} {name : String} {inner outer middle : List Tile} {attributes : Attributes}

theorem Tagged.le (tagged : Tagged source front opening name inner outer ending last attributes) :
    byteLength (written inner) ≤ byteLength (written last) :=
  tagged.ordered.trans (tagged.ends.behind.trans tagged.ends.offset_le)

theorem holdsBranch {condition : Argument} {body : List Segment} (isBranch : name = "if" ∨ name = "elseif")
    (tagged : Tagged source front opening name inner outer ending middle [("is", condition)])
    (below : byteLength (written middle) ≤ byteLength (written last))
    (sound : Sound source .body (byteLength (written last)) (byteLength (written middle)) body) :
    HoldsBranch source opening.span.offset (byteLength (written last)) ⟨condition, body, opening.span⟩ := by
  have holds := tagged.holds _ List.mem_cons_self
  have toMiddle := tagged.ends.behind.trans tagged.ends.offset_le
  refine ⟨⟨⟨tagged.opens.located, nofun, ?_, ?_, ?_, ?_⟩, ?_⟩, ?_⟩
  · intro row member
    rw [List.mem_singleton.mp member]
    exact sound.inOrder
  · rcases isBranch with rfl | rfl
    · exact .inl tagged.isOpening
    · exact .inr tagged.isOpening
  · exact tagged.opens.finish.le.trans holds.between.starts
  · exact fun part member => (holds.between.ends.trans toMiddle).trans (sound.between_of_mem member).starts
  · intro child member
    rcases List.mem_cons.mp member with rfl | member
    · exact holds.exact
    · rcases List.mem_map.mp member with ⟨part, isPart, rfl⟩
      exact sound.exact_of_mem isPart
  · intro node member
    rcases List.mem_cons.mp member with rfl | member
    · exact ⟨le_rfl, tagged.opens.finish.le.trans (tagged.le.trans below)⟩
    · rcases List.mem_cons.mp member with rfl | member
      · exact holds.between.widen tagged.opens.offset_le (toMiddle.trans below)
      · rcases List.mem_map.mp member with ⟨part, isPart, rfl⟩
        exact (sound.between_of_mem isPart).widen (tagged.opens.offset_le.trans tagged.le) le_rfl

end Tag

/-- A choice around its branches. -/
theorem holds_choice {opening closing : Token} {branches : List Branch} {otherwise : Option (List Segment)}
    {inner outer : List Tile} (opens : Standing source front opening inner)
    (closes : Standing source outer closing last) (ordered : byteLength (written inner) ≤ byteLength (written outer))
    (inside : ∀ branch ∈ branches, HoldsBranch source opening.span.offset (byteLength (written outer)) branch)
    (lastBody : ∀ body ∈ otherwise, Sound source .body (byteLength (written outer)) opening.span.offset body) :
    Holds source front last
      (.segment .body (.choice branches otherwise (opening.span.merge closing.span))) := by
  rcases enclosing opens closes ordered with ⟨located, between, encloses⟩
  have isLast : ∀ node ∈ (otherwise.getD []).map (Node.segment .body),
      node.Throughout (Exact source) ∧ node.span.Within (opening.span.merge closing.span) := by
    intro node member
    rcases List.mem_map.mp member with ⟨part, isPart, rfl⟩
    cases otherwise with
    | none => cases isPart
    | some body =>
        have sound := lastBody body rfl
        exact ⟨sound.exact_of_mem isPart, encloses _ (sound.between_of_mem isPart)⟩
  refine ⟨⟨⟨located, ?_, ?_, trivial⟩, ?_⟩, between⟩
  · intro node member
    rcases List.mem_append.mp member with member | member
    · rcases List.mem_flatMap.mp member with ⟨branch, isBranch, member⟩
      exact encloses _ ((inside branch isBranch).between node member)
    · exact (isLast node member).2
  · exact fun row member => (lastBody row (Option.mem_toList.mp member)).inOrder
  · intro child member
    rcases List.mem_append.mp member with member | member
    · rcases List.mem_map.mp member with ⟨branch, isBranch, rfl⟩
      exact (inside branch isBranch).exact
    · exact (isLast child member).1

/-- A loop around its source and its body. -/
theorem holds_loop {opening closing : Token} {argument : Argument} {name : String} {key : Option String}
    {body : List Segment} {inner outer : List Tile} (opens : Standing source front opening inner)
    (closes : Standing source outer closing last) (ordered : byteLength (written inner) ≤ byteLength (written outer))
    (holds : Holds source inner outer (.argument argument))
    (sound : Sound source .body (byteLength (written outer)) (byteLength (written inner)) body) :
    Holds source front last
      (.segment .body (.loop argument name key body (opening.span.merge closing.span))) := by
  rcases enclosing opens closes ordered with ⟨located, between, encloses⟩
  have inside : ∀ node ∈ Node.argument argument :: body.map (Node.segment .body),
      node.Throughout (Exact source) ∧ node.span.Within (opening.span.merge closing.span) := by
    intro node member
    rcases List.mem_cons.mp member with rfl | member
    · exact ⟨holds.exact, encloses _ (holds.between.widen opens.offset_le le_rfl)⟩
    · rcases List.mem_map.mp member with ⟨part, isPart, rfl⟩
      exact ⟨sound.exact_of_mem isPart, encloses _ ((sound.between_of_mem isPart).widen opens.offset_le le_rfl)⟩
  refine ⟨⟨⟨located, fun node member => (inside node member).2, ?_, trivial⟩,
    fun node member => (inside node member).1⟩, between⟩
  intro row member
  rw [List.mem_singleton.mp member]
  exact sound.inOrder

mutual

theorem sound_of_derivesBody {tokens : List Token} {parts : List Segment} {front last : List Tile}
    (outside : openAfter front = []) (laid : Laid source front tokens last) : DerivesBody tokens parts →
      openAfter last = [] ∧ SoundBody source front last tokens (joinLiterals parts)
  | .nil => by
      rw [laid.eq_of_nil]
      exact ⟨outside, .nil, nofun⟩
  | .text isText more => by
      have laidText := laid
      rcases laid.cons with ⟨middle, standing, laid⟩
      have isOpen : openAfter middle = [] := by
        rw [standing.open_eq, isText]
        exact outside
      rcases sound_of_derivesBody isOpen laid more with ⟨returns, sound⟩
      exact ⟨returns, .text outside laidText isText standing laid.le sound⟩
  | .reference isReference more => by
      rcases laid.cons with ⟨middle, standing, laid⟩
      have isOpen : openAfter middle = [] := by
        rw [standing.open_eq, isReference]
        exact outside
      rcases sound_of_derivesBody isOpen laid more with ⟨returns, sound, _⟩
      refine ⟨returns, .reference standing isReference laid.le sound, ?_⟩
      rintro _ _ _ isLiteral
      rcases exists_of_joinLiterals_eq isLiteral with ⟨_, _, _, same⟩
      cases same
  | .call first more => by
      rcases laid.split with ⟨middle, laidCall, laid⟩
      rcases holds_of_derivesCall .body laidCall first with ⟨isOpen, holds⟩
      rcases sound_of_derivesBody (isOpen.trans outside) laid more with ⟨returns, sound, _⟩
      rcases first.opens with ⟨_, _, _, _, _, _, _, _, rfl⟩
      refine ⟨returns, .construct holds rfl laid.le sound, ?_⟩
      rintro _ _ _ isLiteral
      rcases exists_of_joinLiterals_eq isLiteral with ⟨_, _, _, same⟩
      cases same
  | .block first more => by
      rcases laid.split with ⟨middle, laidBlock, laid⟩
      rcases holds_of_derivesBlock outside laidBlock first with ⟨isOpen, holds⟩
      rcases sound_of_derivesBody isOpen laid more with ⟨returns, sound, _⟩
      have isOther := first.literal?_eq
      refine ⟨returns, .construct holds isOther laid.le sound, ?_⟩
      rintro _ _ _ isLiteral
      rcases exists_of_joinLiterals_eq isLiteral with ⟨_, _, _, same⟩
      cases same
      cases isOther

theorem holds_of_derivesBlock {used : List Token} {block : Segment} {front last : List Tile}
    (outside : openAfter front = []) (laid : Laid source front used last) : DerivesBlock used block →
      openAfter last = [] ∧ Holds source front last (.segment .body block)
  | .choice head isOpen body more lastBranch closes => by
      rcases laid.split with ⟨first, laidTag, laid⟩
      rcases laid.split with ⟨second, laidBody, laid⟩
      rcases laid.split with ⟨third, laidBranches, laid⟩
      rcases laid.split with ⟨fourth, laidLast, laid⟩
      rcases head.tagged (.inl isOpen) laidTag with ⟨inner, outer, tagged⟩
      rcases sound_of_derivesBody (tagged.open_eq.trans outside) laidBody body with ⟨openBody, sound, _⟩
      rcases holds_of_derivesBranches openBody laidBranches more with ⟨openBranches, holds⟩
      rcases sound_of_derivesOtherwise openBranches laidLast lastBranch with ⟨openLast, soundLast⟩
      have toSecond := (tagged.opens.offset_le.trans tagged.le).trans laidBody.le
      refine ⟨?_, holds_choice tagged.opens laid.single ?_ (List.forall_mem_cons.mpr ⟨?_, ?_⟩) ?_⟩
      · rw [laid.single.open_eq, openLast, closes.kind]
        rfl
      · exact tagged.le.trans ((laidBody.le.trans laidBranches.le).trans laidLast.le)
      · exact (holdsBranch (.inl rfl) tagged laidBody.le sound).widen le_rfl
          (laidBranches.le.trans laidLast.le)
      · exact fun branch member => (holds branch member).widen toSecond laidLast.le
      · exact fun body member => (soundLast body member).widen (toSecond.trans laidBranches.le) le_rfl
  | .loop head isOpen loops body closes => by
      rcases laid.split with ⟨first, laidTag, laid⟩
      rcases laid.split with ⟨second, laidBody, laid⟩
      rcases head.tagged (.inl isOpen) laidTag with ⟨inner, outer, tagged⟩
      rcases sound_of_derivesBody (tagged.open_eq.trans outside) laidBody body with ⟨openBody, sound, _⟩
      have toFirst := tagged.ends.behind.trans tagged.ends.offset_le
      have holds := tagged.holds _ loops.mem_source
      refine ⟨?_, holds_loop tagged.opens laid.single (tagged.le.trans laidBody.le) ?_ ?_⟩
      · rw [laid.single.open_eq, openBody, closes.kind]
        rfl
      · exact holds.widen le_rfl (toFirst.trans laidBody.le)
      · exact sound.widen tagged.le le_rfl
  | .inclusion head isClosed literal present => by
      rcases head.tagged (.inr isClosed) laid with ⟨inner, outer, tagged⟩
      rcases enclosing tagged.opens tagged.ends tagged.ordered with ⟨located, between, _⟩
      exact ⟨tagged.open_eq.trans outside, exact_inclusion located, between⟩

theorem holds_of_derivesBranches {tokens : List Token} {branches : List Branch} {front last : List Tile}
    (outside : openAfter front = []) (laid : Laid source front tokens last) : DerivesBranches tokens branches →
      openAfter last = [] ∧ ∀ branch ∈ branches,
        HoldsBranch source (byteLength (written front)) (byteLength (written last)) branch
  | .nil => by
      rw [laid.eq_of_nil]
      exact ⟨outside, nofun⟩
  | .cons head isClosed body more => by
      rcases laid.split with ⟨first, laidTag, laid⟩
      rcases laid.split with ⟨second, laidBody, laid⟩
      rcases head.tagged (.inr isClosed) laidTag with ⟨inner, outer, tagged⟩
      rcases sound_of_derivesBody (tagged.open_eq.trans outside) laidBody body with ⟨openBody, sound, _⟩
      rcases holds_of_derivesBranches openBody laid more with ⟨openMore, holds⟩
      refine ⟨openMore, List.forall_mem_cons.mpr ⟨?_, ?_⟩⟩
      · exact (holdsBranch (.inr rfl) tagged laidBody.le sound).widen tagged.opens.behind laid.le
      · exact fun branch member => (holds branch member).widen (laidTag.le.trans laidBody.le) le_rfl

theorem sound_of_derivesOtherwise {tokens : List Token} {otherwise : Option (List Segment)}
    {front last : List Tile} (outside : openAfter front = []) (laid : Laid source front tokens last) :
    DerivesOtherwise tokens otherwise → openAfter last = [] ∧ ∀ body ∈ otherwise,
      Sound source .body (byteLength (written last)) (byteLength (written front)) body
  | .none => by
      rw [laid.eq_of_nil]
      exact ⟨outside, nofun⟩
  | .some head isClosed body => by
      rcases laid.split with ⟨first, laidTag, laid⟩
      rcases head.tagged (.inr isClosed) laidTag with ⟨inner, outer, tagged⟩
      rcases sound_of_derivesBody (tagged.open_eq.trans outside) laid body with ⟨returns, sound, _⟩
      refine ⟨returns, ?_⟩
      rintro _ ⟨⟩
      exact sound.widen laidTag.le le_rfl

end

end Bodies

/-! ## Whole templates -/

/-- The tokens of a source that lexes without an error stand in it one behind the other. -/
theorem exists_laid {source : String} (errorFree : (lex source).errors = []) :
    ∃ last, Laid source.toList [] (lex source).tokens last := by
  have ready : Ready [] [] [] source.toList := ⟨rfl, skippable_nil _ _, absurd rfl, nofun⟩
  have isHere : Place.start = Place.start.after (written [] ++ []) := rfl
  rcases exists_tiles_of_lexFrom ready isHere errorFree with ⟨tiles, areTokens, covers, fit⟩
  rcases List.map_eq_append_iff.mp areTokens with ⟨front, finish, rfl, areFront, _⟩
  exact ⟨front, front, finish, areFront, rfl, fit, covers.symm, fun token => shaped_of_mem_lexFrom⟩

/-- What parses was derived from its tokens. -/
theorem derives_of_parse {source : String} {template : Template} (parsed : parse source = .ok template) :
    (lex source).errors = [] ∧ ∃ parts, DerivesBody (lex source).tokens parts ∧
      template.segments = joinLiterals parts := by
  rcases parse_eq_ok_iff_parseTokens.mp parsed with ⟨errorFree, read⟩
  rcases parseTokens_eq_ok_iff.mp read with ⟨parts, derives, rfl⟩
  exact ⟨errorFree, parts, derives, rfl⟩

/-- The parts of a template stand in its source, from its start on. -/
theorem exists_sound_of_parse {source : String} {template : Template} (parsed : parse source = .ok template) :
    ∃ upper, Sound source.toList .body upper 0 template.segments := by
  rcases derives_of_parse parsed with ⟨errorFree, parts, derives, isTree⟩
  rcases exists_laid errorFree with ⟨last, laid⟩
  rcases sound_of_derivesBody rfl laid derives with ⟨_, sound, _⟩
  rw [← isTree] at sound
  exact ⟨_, sound⟩

/-- Every node of a template, and all below it, is where its span says. -/
theorem Template.HasNode.throughout {source : String} {template : Template} {node : Node}
    (isNode : template.HasNode node) (parsed : parse source = .ok template) :
    node.Throughout (Exact source.toList) := by
  rcases exists_sound_of_parse parsed with ⟨_, sound⟩
  induction isNode with
  | top member => exact sound.exact_of_mem member
  | child parent member inductionHypothesis => exact inductionHypothesis.of_child _ member

theorem Template.HasNode.exact {source : String} {template : Template} {node : Node}
    (isNode : template.HasNode node) (parsed : parse source = .ok template) : Exact source.toList node :=
  (isNode.throughout parsed).here

end Markup
end TemplateCascade
