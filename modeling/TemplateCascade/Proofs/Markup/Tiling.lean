import Mathlib
import TemplateCascade.Proofs.Markup.Beginnings

namespace TemplateCascade
namespace Markup

/-!
# Tokens cover their source

The tokens of a source that lexes without error stand one behind the other, and what is left between them
is comments and white space.  Which of the two may be left in front of a token, and whether a token of text
may hold what begins a construct, depends on what is open there, and that is settled by the tokens before.
-/

open Text

/-! ## What is open between tokens -/

/-- A construct that tokens open and close. -/
inductive Construct where
  | call
  /-- A quoted argument, or the value of an attribute. -/
  | value
  | tag
deriving DecidableEq, Repr

/-- The constructs that are open behind a token, the innermost first. -/
def openBehind (around : List Construct) : TokenKind → List Construct
  | .callStart => .call :: around
  | .quoteOpen | .attributeName => .value :: around
  | .tagStart => .tag :: around
  | .callEnd | .quoteClose | .tagEnd | .tagSelfClose => around.tail
  | .text | .variableReference | .argumentName | .comma | .tagClose | .endOfSource | .error => around

/-- A whole comment, which goes on to the first closing of a comment. -/
def IsComment (text : List Char) : Prop :=
  ∃ inside, text = commentOpening ++ (inside ++ commentClosing) ∧
    ∀ seen left, inside = seen ++ left → left ≠ [] → ¬ commentClosing <+: left ++ commentClosing

/-- What belongs to no token: comments in literal text, white space in tags and in front of the quotes that
open arguments. -/
def Skippable : List Construct → TokenKind → List Char → Prop
  | [], _, gap => ∃ comments : List (List Char), gap = comments.flatten ∧ ∀ text ∈ comments, IsComment text
  | .tag :: _, _, gap | .call :: _, .quoteOpen, gap => ∀ character ∈ gap, isBlank character = true
  | .call :: _, _, gap | .value :: _, _, gap => gap = []

theorem skippable_nil (around : List Construct) (kind : TokenKind) : Skippable around kind [] := by
  unfold Skippable
  split
  · exact ⟨[], rfl, nofun⟩
  · exact nofun
  · exact nofun
  · rfl
  · rfl

/-- A token with the characters in front of it that belong to no token. -/
structure Tile where
  gap : List Char
  token : Token

/-- The characters of some tiles. -/
def written (tiles : List Tile) : List Char :=
  tiles.flatMap fun tile => tile.gap ++ tile.token.lexeme

/-- The constructs that are open behind some tiles at the start of a source. -/
def openAfter (tiles : List Tile) : List Construct :=
  tiles.foldl (fun around tile => openBehind around tile.token.kind) []

theorem written_append (front back : List Tile) : written (front ++ back) = written front ++ written back :=
  List.flatMap_append

theorem written_singleton (tile : Tile) : written [tile] = tile.gap ++ tile.token.lexeme := by
  rw [written, List.flatMap_singleton]

theorem openAfter_append_singleton (front : List Tile) (tile : Tile) :
    openAfter (front ++ [tile]) = openBehind (openAfter front) tile.token.kind := by
  rw [openAfter, List.foldl_append]
  rfl

/-! ## Places -/

/-- The line behind some text at the start of a source, counted from one. -/
def lineBehind (before : List Char) : Nat :=
  before.count '\n' + 1

/-- The column behind some text at the start of a source: the bytes since the last line break, counted from
one. -/
def columnBehind (before : List Char) : Nat :=
  byteLength (before.reverse.takeWhile (· ≠ '\n')) + 1

/-- The span of some text behind other text at the start of a source. -/
def coveringSpan (before text : List Char) : Span :=
  ⟨byteLength before, lineBehind before, columnBehind before, byteLength text⟩

theorem start_after_eq (before : List Char) :
    Place.start.after before = ⟨byteLength before, lineBehind before, columnBehind before⟩ := by
  induction before using List.reverseRecOn with
  | nil => rfl
  | append_singleton before last inductionHypothesis =>
      rw [Place.after_append, inductionHypothesis, Place.after_cons, Place.after_nil, Place.next,
        byteLength_append, lineBehind, lineBehind, columnBehind, columnBehind, List.reverse_append,
        List.reverse_singleton, List.singleton_append, List.count_append]
      split
      · next isBreak =>
          subst isBreak
          rfl
      · next notBreak =>
          rw [List.takeWhile_cons_of_pos (by simpa using notBreak), List.count_singleton,
            if_neg (by simpa using notBreak)]
          simp only [byteLength, Nat.add_zero, Place.mk.injEq, true_and]
          omega

/-! ## Tiles -/

/-- A tile stands in its place between those in front of it and those behind it. -/
structure Fits (front : List Tile) (tile : Tile) (back : List Tile) : Prop where
  span : tile.token.span = coveringSpan (written front ++ tile.gap) tile.token.lexeme
  gap : Skippable (openAfter front) tile.token.kind tile.gap
  /-- Between texts a comment has been skipped. -/
  apart : ∀ last, front.getLast? = some last → last.token.kind = .text → tile.token.kind = .text →
    openAfter front = [] ∧ tile.gap ≠ []
  /-- Nothing begins in literal text. -/
  plain : openAfter front = [] → tile.token.kind = .text →
    ∀ seen left, tile.token.lexeme = seen ++ left → left ≠ [] → ¬ Begins (left ++ written back)

/-- Each of some tiles stands in its place behind some others. -/
def FitBehind (front tiles : List Tile) : Prop :=
  ∀ inner tile back, tiles = inner ++ tile :: back → Fits (front ++ inner) tile back

theorem fitBehind_cons {front back : List Tile} {tile : Tile} :
    FitBehind front (tile :: back) ↔ Fits front tile back ∧ FitBehind (front ++ [tile]) back := by
  constructor
  · intro fit
    refine ⟨?_, ?_⟩
    · simpa using fit [] tile back rfl
    · intro inner next rest split
      simpa using fit (tile :: inner) next rest (by rw [split]; rfl)
  · rintro ⟨fits, fit⟩ inner next rest split
    cases inner with
    | nil =>
        cases split
        simpa using fits
    | cons head tail =>
        cases split
        simpa using fit tail next rest rfl

/-- What a construct that is open is for the tokens. -/
def Mode.construct : Mode → Construct
  | .argumentStart _ | .argumentValue _ | .argument _ _ => .call
  | .quoted _ _ => .value
  | .tag _ => .tag

/-- No text can go on here. -/
def Ends : List Mode → List Char → Prop
  | [], left => startsConstruct left = true
  | .argument depth _ :: _, left => startsInline left = true ∨
      depth = 0 ∧ ∃ character rest, left = character :: rest ∧ (character = ',' ∨ character = ')')
  | .quoted quote _ :: _, left => startsInline left = true ∨ ∃ rest, left = quote :: rest
  | .argumentStart _ :: _, _ | .argumentValue _ :: _, _ | .tag _ :: _, _ => False

/-- A token that is taken off the front of a text fits there. -/
structure Scanned.Fitting (modes : List Mode) {input : List Char} (scanned : Scanned input) : Prop where
  kind_ne : scanned.kind ≠ .endOfSource
  skipped : scanned.skipped ≠ [] → modes ≠ [] ∧
    Skippable (modes.map Mode.construct) scanned.kind scanned.skipped
  open_eq : ∀ span, (scanned.modes span).map Mode.construct =
    openBehind (modes.map Mode.construct) scanned.kind
  goesOn : scanned.kind = .text → ¬ Ends modes input
  ends : scanned.kind = .text → ∀ span, scanned.rest = [] ∨ Ends (scanned.modes span) scanned.rest
  plain : scanned.kind = .text → modes = [] → ∀ seen left, scanned.lexeme = seen ++ left → left ≠ [] →
    startsConstruct (left ++ scanned.rest) = false

namespace Scanned

variable {modes outer : List Mode} {input : List Char} {scanned : Scanned input}

theorem Fitting.of_ne_text (kind_ne : scanned.kind ≠ .endOfSource) (notText : scanned.kind ≠ .text)
    (skipped : scanned.skipped ≠ [] → modes ≠ [] ∧
      Skippable (modes.map Mode.construct) scanned.kind scanned.skipped)
    (open_eq : ∀ span, (scanned.modes span).map Mode.construct =
      openBehind (modes.map Mode.construct) scanned.kind) : scanned.Fitting modes :=
  ⟨kind_ne, skipped, open_eq, fun isText => absurd isText notText, fun isText => absurd isText notText,
    fun isText => absurd isText notText⟩

/-- A token of text that ends where it has to. -/
theorem fitting_plain {first : Char} {run left : List Char} (found : first :: run ++ left = input)
    (same : outer.map Mode.construct = modes.map Mode.construct) (goesOn : ¬ Ends modes input)
    (ends : left = [] ∨ Ends outer left)
    (nothing : modes = [] → ∀ seen behind, first :: run = seen ++ behind → behind ≠ [] →
      startsConstruct (behind ++ left) = false) :
    (Scanned.plain outer first run left found).Fitting modes :=
  ⟨nofun, fun isSkipped => absurd rfl isSkipped, fun _ => same, fun _ => goesOn, fun _ _ => ends,
    fun _ => nothing⟩

/-- A token of one character that is no text. -/
theorem fitting_single {kind : TokenKind} {after : Span → List Mode} {fault : Option Fault}
    {skipped rest : List Char} {character : Char} (found : skipped ++ character :: rest = input)
    (kind_ne : kind ≠ .endOfSource) (notText : kind ≠ .text)
    (isSkippable : skipped ≠ [] → modes ≠ [] ∧ Skippable (modes.map Mode.construct) kind skipped)
    (open_eq : ∀ span, (after span).map Mode.construct = openBehind (modes.map Mode.construct) kind) :
    (Scanned.single kind after fault skipped character rest found).Fitting modes :=
  .of_ne_text kind_ne notText isSkippable open_eq

theorem fitting_scanVariable {after : List Char}
    (same : outer.map Mode.construct = modes.map Mode.construct) :
    (scanVariable outer after).Fitting modes := by
  unfold scanVariable
  dsimp only
  split
  · refine .of_ne_text ?_ ?_ (absurd rfl) ?_ <;> dsimp only
    · split <;> exact nofun
    · split <;> exact nofun
    · intro span
      split <;> exact same
  · exact .of_ne_text nofun nofun (absurd rfl) fun _ => same

theorem fitting_scanCall? {after : List Char} {scanned : Scanned ('\x7b' :: after)}
    (same : outer.map Mode.construct = modes.map Mode.construct)
    (found : scanCall? outer after = some scanned) : scanned.Fitting modes := by
  unfold scanCall? at found
  split at found
  · cases found
    refine .of_ne_text nofun nofun (absurd rfl) fun span => ?_
    rw [List.map_cons, same]
    rfl
  · cases found

theorem fitting_scanInline? {text : List Char} {scanned : Scanned text}
    (same : outer.map Mode.construct = modes.map Mode.construct)
    (found : scanInline? outer text = some scanned) : scanned.Fitting modes := by
  unfold scanInline? at found
  split at found
  · split at found
    · cases found
      exact fitting_scanVariable same
    · exact fitting_scanCall? same found
  · exact fitting_scanCall? same found
  · cases found

theorem fitting_scanTag? {text : List Char} {scanned : Scanned text}
    (found : scanTag? modes text = some scanned) : scanned.Fitting modes := by
  unfold scanTag? at found
  split at found
  · split at found
    · cases found
      unfold scanClosingTag
      dsimp only
      split
      · exact .of_ne_text (by simp) (by simp) (absurd rfl) fun _ => rfl
      · exact .of_ne_text (by simp) (by simp) (absurd rfl) fun _ => rfl
    · cases found
  · split at found
    · split at found
      · cases found
        unfold scanOpeningTag
        exact .of_ne_text (by simp) (by simp) (absurd rfl) fun _ => rfl
      · cases found
    · cases found

theorem fitting_scanText {first : Char} {rest : List Char}
    (nothing : startsConstruct (first :: rest) = false) : (scanText [] first rest).Fitting [] := by
  refine fitting_plain _ rfl ?_ (breakBefore_rest startsConstruct rest) ?_
  · rw [Ends, nothing]
    exact Bool.false_ne_true
  · intro _ seen behind split isBehind
    cases seen with
    | nil =>
        rw [List.nil_append] at split
        subst split
        rw [List.cons_append, breakBefore_append]
        exact nothing
    | cons head tail => exact breakBefore_run (List.cons.inj split).2 isBehind

theorem fitting_scanArgument {depth : Nat} {opened : Span} {first : Char} {rest : List Char}
    {mode : Mode} (isCall : mode.construct = .call)
    (isInside : ∀ left, Ends (mode :: modes) left → Ends (.argument depth opened :: modes) left) :
    (scanArgument depth opened modes first rest).Fitting (mode :: modes) := by
  have same : (Mode.argument depth opened :: modes).map Mode.construct =
      (mode :: modes).map Mode.construct := by
    rw [List.map_cons, List.map_cons, isCall]
    rfl
  unfold scanArgument
  dsimp only
  split
  · refine fitting_single _ nofun nofun (absurd rfl) fun _ => ?_
    exact same
  · next notComma =>
      split
      · next closes =>
          split
          · refine .of_ne_text nofun nofun (absurd rfl) fun _ => ?_
            rw [← same]
            rfl
          · exact fitting_single _ nofun nofun (absurd rfl) fun _ => same
      · next notClosing =>
          split
          · next scanned found => exact fitting_scanInline? same found
          · next notInline =>
              refine fitting_plain _ ?_ ?_ ?_ nofun
              · rw [← same]
                rfl
              · intro ends
                rcases isInside _ ends with starts | ⟨outside, character, left, begins, stops⟩
                · rw [startsInline_of_scanInline? notInline] at starts
                  cases starts
                · cases begins
                  simp only [outside, decide_true, Bool.true_and, decide_eq_true_iff] at notComma notClosing
                  rcases stops with isComma | isClosing
                  · exact notComma isComma
                  · exact notClosing isClosing
              · exact argumentRun_rest _ rest

theorem fitting_scanArgumentStart? {named : Bool} {opened : Span} {text : List Char} {mode : Mode}
    {scanned : Scanned text} (isCall : mode.construct = .call)
    (found : scanArgumentStart? named opened modes text = some scanned) :
    scanned.Fitting (mode :: modes) := by
  unfold scanArgumentStart? at found
  dsimp only at found
  split at found
  · cases found
  · split at found
    · cases found
      refine fitting_single _ nofun nofun ?_ fun span => ?_
      · refine fun _ => ⟨nofun, ?_⟩
        rw [List.map_cons, isCall]
        exact fun character member => List.mem_takeWhile_imp member
      · rw [List.map_cons, List.map_cons, List.map_cons, isCall]
        rfl
    · split at found
      · cases found
      · split at found
        · cases found
        · cases found
          refine .of_ne_text nofun nofun (absurd rfl) fun _ => ?_
          rw [List.map_cons, List.map_cons, isCall]
          rfl
        · cases found

/-- Where no argument has its text yet, a token fits whether it starts the argument or not. -/
theorem fitting_start {named : Bool} {opened : Span} {first : Char} {rest : List Char} {mode : Mode}
    (isCall : mode.construct = .call) (isStart : ∀ left, ¬ Ends (mode :: modes) left) :
    ((scanArgumentStart? named opened modes (first :: rest)).getD
      (scanArgument 0 opened modes first rest)).Fitting (mode :: modes) := by
  cases found : scanArgumentStart? named opened modes (first :: rest) with
  | some scanned => exact fitting_scanArgumentStart? isCall found
  | none => exact fitting_scanArgument isCall fun left ends => absurd ends (isStart left)

theorem fitting_scanQuoted {quote : Char} {opened : Span} {first : Char} {rest : List Char} :
    (scanQuoted quote opened modes first rest).Fitting (.quoted quote opened :: modes) := by
  unfold scanQuoted
  dsimp only
  split
  · exact fitting_single _ (by simp) (by simp) (absurd rfl) fun _ => rfl
  · next notQuote =>
      split
      · next scanned found => exact fitting_scanInline? rfl found
      · next notInline =>
          have goesOn : ¬ Ends (.quoted quote opened :: modes) (first :: rest) := by
            rintro (starts | ⟨left, begins⟩)
            · rw [startsInline_of_scanInline? notInline] at starts
              cases starts
            · exact notQuote (List.cons.inj begins).1
          split
          · split
            · exact fitting_plain _ rfl goesOn (.inl rfl) (by simp)
            · exact fitting_plain _ rfl goesOn (quotedRun_rest quote _) (by simp)
          · exact fitting_plain _ rfl goesOn (quotedRun_rest quote _) (by simp)

theorem fitting_scanInTag? {opened : Span} {text : List Char} {scanned : Scanned text}
    (found : scanInTag? opened modes text = some scanned) : scanned.Fitting (.tag opened :: modes) := by
  have blanks : ∀ kind, Skippable ((Mode.tag opened :: modes).map Mode.construct) kind
      (text.takeWhile isBlank) :=
    fun _ character member => List.mem_takeWhile_imp member
  unfold scanInTag? at found
  dsimp only at found
  split at found
  · cases found
  · split at found
    · split at found
      · cases found
        exact .of_ne_text nofun nofun (fun _ => ⟨nofun, blanks _⟩) fun _ => rfl
      · cases found
        exact .of_ne_text nofun nofun (fun _ => ⟨nofun, blanks _⟩) fun _ => rfl
    · split at found
      · cases found
        exact fitting_single _ nofun nofun (fun _ => ⟨nofun, blanks _⟩) fun _ => rfl
      · split at found
        · cases found
          exact .of_ne_text nofun nofun (fun _ => ⟨nofun, blanks _⟩) fun _ => rfl
        · cases found
          exact fitting_single _ nofun nofun (fun _ => ⟨nofun, blanks _⟩) fun _ => rfl

end Scanned

/-! ## One step -/

theorem isComment_of_splitComment? {text inside rest : List Char}
    (found : splitComment? text = some (inside, rest)) : IsComment (commentOpening ++ inside) := by
  simp only [splitComment?, Option.map_eq_some_iff, Prod.mk.injEq] at found
  rcases found with ⟨left, dropped, rfl, rfl⟩
  refine ⟨_, rfl, ?_⟩
  rintro seen behind split isBehind ⟨more, closes⟩
  have goesOn := breakBefore_run split isBehind
  rw [← dropLiteral?_eq_some dropped, ← List.append_assoc, ← closes, List.append_assoc,
    dropLiteral?_append] at goesOn
  cases goesOn

section Step

variable {modes : List Mode} {first : Char} {rest : List Char}

/-- Every token that a step takes fits. -/
theorem fitting_of_step {scanned : Scanned (first :: rest)} (found : step modes first rest = .token scanned) :
    scanned.Fitting modes := by
  unfold step at found
  split at found
  · unfold stepInText at found
    split at found
    · split at found <;> cases found
    · split at found
      · next inline isInline =>
          cases found
          exact Scanned.fitting_scanInline? rfl isInline
      · next notInline =>
          split at found
          · next tag isTag =>
              cases found
              exact Scanned.fitting_scanTag? isTag
          · next notTag =>
              cases found
              apply Scanned.fitting_scanText
              rw [startsConstruct, startsInline_of_scanInline? notInline, startsTag_of_scanTag? notTag]
              rfl
  · cases found
    exact Scanned.fitting_start rfl fun _ => id
  · cases found
    exact Scanned.fitting_start rfl fun _ => id
  · cases found
    exact Scanned.fitting_scanArgument rfl fun _ => id
  · cases found
    exact Scanned.fitting_scanQuoted
  · split at found
    · next isFound =>
        cases found
        exact Scanned.fitting_scanInTag? isFound
    · cases found

/-- Comments are skipped in literal text only. -/
theorem comment_of_step {skipped left : List Char} {isSkipped : skipped ≠ []}
    {whole : skipped ++ left = first :: rest}
    (found : step modes first rest = .comment skipped left isSkipped whole) :
    modes = [] ∧ IsComment skipped := by
  unfold step at found
  split at found
  · refine ⟨rfl, ?_⟩
    unfold stepInText at found
    split at found
    · split at found
      · next closed =>
          cases found
          exact isComment_of_splitComment? closed
      · cases found
    · split at found
      · cases found
      · split at found <;> cases found
  · cases found
  · cases found
  · cases found
  · cases found
  · split at found <;> cases found

/-- A source is used up without a token in a tag only. -/
theorem open_of_step (found : step modes first rest = .exhausted) : modes ≠ [] := by
  rintro rfl
  unfold step stepInText at found
  dsimp only at found
  split at found
  · split at found <;> cases found
  · split at found
    · cases found
    · split at found <;> cases found

end Step

/-! ## The whole source -/

/-- A step from here on finds what the tokens before have left. -/
structure Ready (front : List Tile) (pending : List Char) (modes : List Mode) (source : List Char) :
    Prop where
  open_eq : modes.map Mode.construct = openAfter front
  comments : Skippable [] .error pending
  outside : pending ≠ [] → modes = []
  ends : ∀ last, front.getLast? = some last → last.token.kind = .text →
    pending ≠ [] ∨ source = [] ∨ Ends modes source

section Ready

variable {front back : List Tile} {pending source : List Char} {modes : List Mode}
  {scanned : Scanned source} {span : Span}

/-- A token that is taken next fits behind the tokens before. -/
theorem Ready.fits (ready : Ready front pending modes source) (fitting : scanned.Fitting modes)
    (isSource : source ≠ []) (isRest : written back = scanned.rest)
    (isSpan : span = coveringSpan (written front ++ (pending ++ scanned.skipped)) scanned.lexeme) :
    Fits front ⟨pending ++ scanned.skipped, scanned.kind, scanned.lexeme, span⟩ back := by
  refine ⟨isSpan, ?_, ?_, ?_⟩
  · rw [← ready.open_eq]
    by_cases isText : modes = []
    · subst isText
      have nothing : scanned.skipped = [] := by_contra fun isSkipped => (fitting.skipped isSkipped).1 rfl
      rw [nothing, List.append_nil]
      exact ready.comments
    · have nothing : pending = [] := by_contra fun isPending => isText (ready.outside isPending)
      rw [nothing, List.nil_append]
      by_cases isSkipped : scanned.skipped = []
      · rw [isSkipped]
        exact skippable_nil _ _
      · exact (fitting.skipped isSkipped).2
  · intro last isLast lastText isText
    rcases ready.ends last isLast lastText with isPending | isEmpty | ends
    · refine ⟨?_, ?_⟩
      · rw [← ready.open_eq, ready.outside isPending]
        rfl
      · exact fun isEmpty => isPending (List.append_eq_nil_iff.mp isEmpty).1
    · exact absurd isEmpty isSource
    · exact absurd ends (fitting.goesOn isText)
  · intro isOutside isText seen left split isLeft
    rw [← ready.open_eq, List.map_eq_nil_iff] at isOutside
    rw [isRest, ← startsConstruct_iff, Bool.not_eq_true]
    exact fitting.plain isText isOutside seen left split isLeft

/-- The next step finds what the tokens before and this one have left. -/
theorem Ready.next (ready : Ready front pending modes source) (fitting : scanned.Fitting modes) :
    Ready (front ++ [⟨pending ++ scanned.skipped, scanned.kind, scanned.lexeme, span⟩]) []
      (scanned.modes span) scanned.rest := by
  refine ⟨?_, skippable_nil _ _, absurd rfl, ?_⟩
  · rw [openAfter_append_singleton, ← ready.open_eq, fitting.open_eq]
  · intro last isLast isText
    rw [List.getLast?_concat, Option.some.injEq] at isLast
    subst isLast
    exact .inr (fitting.ends isText span)

/-- Behind a comment the same constructs are open. -/
theorem Ready.comment {skipped left : List Char} (ready : Ready front pending [] source)
    (isComment : IsComment skipped) (isSkipped : skipped ≠ []) :
    Ready front (pending ++ skipped) [] left := by
  refine ⟨ready.open_eq, ?_, fun _ => rfl, ?_⟩
  · rcases ready.comments with ⟨comments, rfl, areComments⟩
    refine ⟨comments ++ [skipped], by simp, ?_⟩
    simpa [or_imp, forall_and, isComment] using areComments
  · intro _ _ _
    exact .inl fun isEmpty => isSkipped (List.append_eq_nil_iff.mp isEmpty).2

end Ready

/-- Without errors the tokens from a place on cover what is left. -/
theorem exists_tiles_of_lexFrom {place : Place} {modes : List Mode} {source pending : List Char}
    {front : List Tile} (ready : Ready front pending modes source)
    (isHere : place = Place.start.after (written front ++ pending))
    (errorFree : (lexFrom place modes source).errors = []) :
    ∃ tiles : List Tile, tiles.map Tile.token = (lexFrom place modes source).allTokens ∧
      written tiles = pending ++ source ∧ FitBehind front tiles := by
  fun_induction lexFrom place modes source generalizing front pending with
  | case1 place modes =>
      have closed : modes = [] := List.map_eq_nil_iff.mp errorFree
      subst closed
      refine ⟨[⟨pending, Token.finish (Span.point place)⟩], rfl, by simp [written, Token.finish], ?_⟩
      refine fitBehind_cons.mpr ⟨⟨?_, ?_, nofun, nofun⟩, by intro inner _ _ split; cases inner <;> cases split⟩
      · rw [isHere, start_after_eq]
        rfl
      · rw [← ready.open_eq]
        exact ready.comments
  | case2 place modes first rest scanned found start span =>
      rename_i shorter inductionHypothesis
      have fitting := fitting_of_step found
      rcases List.append_eq_nil_iff.mp errorFree with ⟨_, errorFree⟩
      have isStart : start = Place.start.after (written front ++ (pending ++ scanned.skipped)) := by
        rw [← List.append_assoc, Place.after_append, ← isHere]
      have isBehind : start.after scanned.lexeme = Place.start.after (written (front ++
          [⟨pending ++ scanned.skipped, scanned.kind, scanned.lexeme, span⟩]) ++ []) := by
        rw [isStart, ← Place.after_append, List.append_nil, written_append, written_singleton,
          List.append_assoc]
      rcases inductionHypothesis (ready.next fitting) isBehind errorFree with ⟨tiles, tokens, covers, fit⟩
      refine ⟨⟨pending ++ scanned.skipped, scanned.kind, scanned.lexeme, span⟩ :: tiles, ?_, ?_, ?_⟩
      · rw [List.map_cons, tokens]
        rfl
      · calc
          written (⟨pending ++ scanned.skipped, scanned.kind, scanned.lexeme, span⟩ :: tiles)
            = pending ++ scanned.skipped ++ scanned.lexeme ++ written tiles := rfl
          _ = pending ++ (scanned.skipped ++ scanned.lexeme ++ scanned.rest) := by
              rw [covers]
              simp only [List.nil_append, List.append_assoc]
          _ = pending ++ first :: rest := by rw [scanned.append_eq]
      · refine fitBehind_cons.mpr ⟨ready.fits fitting (List.cons_ne_nil _ _) covers ?_, fit⟩
        rw [coveringSpan, show span = Span.covering start scanned.lexeme from rfl, isStart, start_after_eq]
        rfl
  | case3 place modes first rest skipped left isSkipped whole found shorter inductionHypothesis =>
      rcases comment_of_step found with ⟨rfl, isComment⟩
      have isBehind : place.after skipped = Place.start.after (written front ++ (pending ++ skipped)) := by
        rw [isHere, ← Place.after_append, List.append_assoc]
      rcases inductionHypothesis (ready.comment isComment isSkipped) isBehind errorFree with
        ⟨tiles, tokens, covers, fit⟩
      refine ⟨tiles, tokens, ?_, fit⟩
      rw [covers, ← whole, List.append_assoc]
  | case4 => cases errorFree
  | case5 place modes first rest found =>
      exact absurd (List.map_eq_nil_iff.mp errorFree) (open_of_step found)

/-- The token for the end of a source is none of its other tokens. -/
theorem kind_ne_of_mem_lexFrom {place : Place} {modes : List Mode} {source : List Char} {token : Token}
    (member : token ∈ (lexFrom place modes source).tokens) : token.kind ≠ .endOfSource := by
  fun_induction lexFrom place modes source with
  | case1 => cases member
  | case2 place modes first rest scanned found start span shorter inductionHypothesis =>
      rcases List.mem_cons.mp member with rfl | isLater
      · exact (fitting_of_step found).kind_ne
      · exact inductionHypothesis isLater
  | case3 place modes first rest skipped left isSkipped whole found shorter inductionHypothesis =>
      exact inductionHypothesis member
  | case4 =>
      cases List.mem_singleton.mp member
      exact nofun
  | case5 => cases member

end Markup
end TemplateCascade
