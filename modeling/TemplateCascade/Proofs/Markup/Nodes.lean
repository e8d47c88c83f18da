import Mathlib
import TemplateCascade.Proofs.Markup.Covering

namespace TemplateCascade
namespace Markup

/-!
# Nodes and their spans

The nodes of a tree are its segments, the branches of its choices, and its arguments.  What the span of a
node says about the source is the same for every node but for literals, whose text is spelled otherwise in
bodies, in quotes and outside of quotes, and for branches, whose span is only the opening of their tag.
Parts that stand one behind the other with exact spans keep them when the blanks around them are trimmed.
-/

open Text

/-! ## How text is spelled -/

/-- A text behind the complete comments in it being taken out. -/
inductive CommentsRemoved : List Char → List Char → Prop where
  | nil : CommentsRemoved [] []
  | comment {comment written text : List Char} (isComment : IsComment comment)
      (more : CommentsRemoved written text) : CommentsRemoved (comment ++ written) text
  | character {character : Char} {written text : List Char}
      (plain : ∀ comment, IsComment comment → ¬ comment <+: character :: written)
      (more : CommentsRemoved written text) : CommentsRemoved (character :: written) (character :: text)

/-- Where a literal stands. -/
inductive Setting where
  | body
  /-- In an argument without quotes. -/
  | plain
  /-- In a quoted argument, or in the value of an attribute. -/
  | quoted
deriving DecidableEq

/-- The characters of a source that stand for a text. -/
def Setting.Spells : Setting → List Char → List Char → Prop
  | .body, written, text => CommentsRemoved written text
  | .plain, written, text => written = text
  | .quoted, written, text => unescape written = text

/-- Where the parts of an argument stand. -/
def ArgumentOf.setting (argument : Argument) : Setting :=
  if argument.quoted then .quoted else .plain

/-! ## Nodes -/

/-- A node of a tree.  A segment comes with the place its text stands in. -/
inductive Node where
  | segment (setting : Setting) (segment : Segment)
  | branch (branch : Branch)
  | argument (argument : Argument)

namespace Node

def span : Node → Span
  | .segment _ part => part.span
  | .branch alternative => alternative.span
  | .argument value => value.span

/-- The nodes right below a node. -/
def children : Node → List Node
  | .segment _ (.literal _ _) | .segment _ (.reference _ _) | .segment _ (.inclusion _ _) => []
  | .segment _ (.call _ arguments named _) =>
      arguments.map .argument ++ named.map fun entry => .argument entry.2
  | .segment _ (.choice branches otherwise _) =>
      branches.map .branch ++ (otherwise.getD []).map (.segment .body)
  | .segment _ (.loop source _ _ body _) => .argument source :: body.map (.segment .body)
  | .branch alternative => .argument alternative.condition :: alternative.body.map (.segment .body)
  | .argument value => value.parts.map (.segment value.setting)

/-- The nodes that lie inside the span of a node: those right below it, and for a choice those right below
its branches too.  A branch has no more than the opening of its tag. -/
def enclosed : Node → List Node
  | .branch _ => []
  | .segment _ (.choice branches otherwise _) =>
      (branches.flatMap fun alternative => .branch alternative :: children (.branch alternative)) ++
        (otherwise.getD []).map (.segment .body)
  | node => node.children

/-- The bodies of a node, or the parts of an argument. -/
def rows : Node → List (List Segment)
  | .segment _ (.choice _ otherwise _) => otherwise.toList
  | .segment _ (.loop _ _ _ body _) => [body]
  | .branch alternative => [alternative.body]
  | .argument value => [value.parts]
  | _ => []

/-- What the characters at the span of a node are. -/
def Faithful (source : List Char) : Node → Prop
  | .segment setting (.literal text span) =>
      ∃ written, Covers source span written ∧ setting.Spells written text.toList
  | .segment _ (.reference path span) =>
      Covers source span ('\x7b' :: '$' :: (['.'].intercalate (path.map String.toList) ++ ['\x7d']))
  | .branch alternative =>
      (Covers source alternative.span (tagOpening ++ "if".toList) ∨
        Covers source alternative.span (tagOpening ++ "elseif".toList)) ∧
      alternative.span.finish ≤ alternative.condition.span.offset ∧
      ∀ part ∈ alternative.body, alternative.condition.span.finish ≤ part.span.offset
  | _ => True

/-- Something holds of a node and of all nodes below it. -/
inductive Throughout (holds : Node → Prop) : Node → Prop where
  | mk {node : Node} (here : holds node) (below : ∀ child ∈ node.children, Throughout holds child) :
      Throughout holds node

theorem Throughout.here {holds : Node → Prop} {node : Node} : node.Throughout holds → holds node
  | .mk here _ => here

theorem Throughout.of_child {holds : Node → Prop} {node : Node} :
    node.Throughout holds → ∀ child ∈ node.children, child.Throughout holds
  | .mk _ below => below

end Node

/-- The nodes of a template. -/
inductive Template.HasNode (template : Template) : Node → Prop where
  | top {segment : Segment} (member : segment ∈ template.segments) : HasNode template (.segment .body segment)
  | child {node child : Node} (parent : HasNode template node) (member : child ∈ node.children) :
      HasNode template child

/-- Segments stand one behind the other and share no byte. -/
def InOrder (segments : List Segment) : Prop :=
  segments.Pairwise fun left right => left.span.finish ≤ right.span.offset

/-- The span of a node says where it stands in a source. -/
structure Exact (source : List Char) (node : Node) : Prop where
  located : Located source node.span
  inside : ∀ inner ∈ node.enclosed, inner.span.Within node.span
  ordered : ∀ row ∈ node.rows, InOrder row
  faithful : node.Faithful source

section Leaves

variable {source : List Char} {setting : Setting} {span : Span}

theorem exact_literal {text : String} {written : List Char} (covers : Covers source span written)
    (spells : setting.Spells written text.toList) :
    (Node.segment setting (.literal text span)).Throughout (Exact source) :=
  ⟨⟨covers.located, nofun, nofun, written, covers, spells⟩, nofun⟩

theorem exact_reference {token : Token} (isReference : token.kind = .variableReference)
    (shaped : Shaped token.kind token.lexeme) (covers : Covers source token.span token.lexeme) :
    (Node.segment setting (referenceOf token)).Throughout (Exact source) := by
  rw [isReference] at shaped
  rcases shaped with ⟨path, isPath⟩
  refine ⟨⟨covers.located, nofun, nofun, ?_⟩, nofun⟩
  have spelled : ['.'].intercalate ((path.splitOn '.').map (String.toList ∘ String.ofList)) = path := by
    rw [show (String.toList ∘ String.ofList) = id from funext fun text => String.toList_ofList]
    rw [List.map_id, List.intercalate_splitOn]
  have middle : (token.lexeme.drop 2).dropLast = path := by
    rw [isPath]
    exact List.dropLast_concat
  rw [referenceOf, Node.Faithful, middle, List.map_map, spelled, ← isPath]
  exact covers

theorem exact_inclusion {name : String} (located : Located source span) :
    (Node.segment setting (.inclusion name span)).Throughout (Exact source) :=
  ⟨⟨located, nofun, nofun, trivial⟩, nofun⟩

end Leaves

/-! ## Parts one behind the other -/

/-- Parts stand in a source one behind the other between two bytes, each with exact spans throughout. -/
inductive Sound (source : List Char) (setting : Setting) (upper : Nat) : Nat → List Segment → Prop where
  | nil {lower : Nat} : Sound source setting upper lower []
  | cons {lower : Nat} {part : Segment} {parts : List Segment}
      (exact : (Node.segment setting part).Throughout (Exact source))
      (between : part.span.Between lower upper) (more : Sound source setting upper part.span.finish parts) :
      Sound source setting upper lower (part :: parts)

namespace Sound

variable {source : List Char} {setting : Setting} {lower upper : Nat} {part : Segment} {parts : List Segment}

theorem widen {least greatest : Nat} (sound : Sound source setting upper lower parts) (below : least ≤ lower)
    (above : upper ≤ greatest) : Sound source setting greatest least parts := by
  induction sound generalizing least with
  | nil => exact .nil
  | cons exact between more inductionHypothesis =>
      exact .cons exact (between.widen below above) (inductionHypothesis le_rfl)

theorem exact_of_mem (sound : Sound source setting upper lower parts) (member : part ∈ parts) :
    (Node.segment setting part).Throughout (Exact source) := by
  induction sound with
  | nil => cases member
  | cons exact between more inductionHypothesis =>
      rcases List.mem_cons.mp member with rfl | later
      · exact exact
      · exact inductionHypothesis later

theorem between_of_mem (sound : Sound source setting upper lower parts) (member : part ∈ parts) :
    part.span.Between lower upper := by
  induction sound with
  | nil => cases member
  | cons exact between more inductionHypothesis =>
      rcases List.mem_cons.mp member with rfl | later
      · exact between
      · exact (inductionHypothesis later).widen (between.starts.trans (Span.offset_le_finish _)) le_rfl

theorem inOrder (sound : Sound source setting upper lower parts) : InOrder parts := by
  induction sound with
  | nil => exact .nil
  | cons exact between more inductionHypothesis =>
      exact .cons (fun other member => (more.between_of_mem member).starts) inductionHypothesis

theorem sublist {fewer : List Segment} (sound : Sound source setting upper lower parts)
    (isSublist : fewer.Sublist parts) : Sound source setting upper lower fewer := by
  induction isSublist generalizing lower with
  | slnil => exact .nil
  | cons part isSublist inductionHypothesis =>
      cases sound with
      | cons exact between more =>
          exact inductionHypothesis (more.widen (between.starts.trans (Span.offset_le_finish _)) le_rfl)
  | cons_cons part isSublist inductionHypothesis =>
      cases sound with
      | cons exact between more => exact .cons exact between (inductionHypothesis more)

/-- Parts reach no farther than the last of them. -/
theorem up_to_last (sound : Sound source setting upper lower parts) {last : Segment}
    (isLast : parts.getLast? = some last) : Sound source setting last.span.finish lower parts := by
  induction sound with
  | nil => cases isLast
  | cons exact between more inductionHypothesis =>
      rename_i part rest
      cases rest with
      | nil =>
          cases isLast
          exact .cons exact ⟨between.starts, le_rfl⟩ .nil
      | cons next rest =>
          rw [List.getLast?_cons_cons] at isLast
          have others := inductionHypothesis isLast
          have isBehind := more.between_of_mem (List.mem_of_getLast? isLast)
          exact .cons exact ⟨between.starts, isBehind.starts.trans (Span.offset_le_finish _)⟩ others

/-- The span of an argument without quotes reaches from its first to its last part. -/
theorem partsSpan (sound : Sound source setting upper lower parts) (isPart : parts ≠ []) (start : Span) :
    Located source (partsSpan start parts) ∧ (partsSpan start parts).Between lower upper ∧
      ∀ part ∈ parts, part.span.Within (partsSpan start parts) := by
  cases sound with
  | nil => exact absurd rfl isPart
  | cons exact between more =>
      rename_i first rest
      rcases List.getLast?_isSome.mpr isPart |> Option.isSome_iff_exists.mp with ⟨last, isLast⟩
      have sound : Sound source setting upper lower (first :: rest) := .cons exact between more
      have isMember := List.mem_of_getLast? isLast
      rw [Markup.partsSpan, List.head?_cons, isLast]
      dsimp only
      refine ⟨exact.here.located.merge (sound.exact_of_mem isMember).here.located,
        between.merge (sound.between_of_mem isMember), ?_⟩
      intro part member
      have fromFirst : Sound source setting upper first.span.offset (first :: rest) :=
        .cons exact ⟨le_rfl, between.ends⟩ more
      exact Span.within_merge ((fromFirst.up_to_last isLast).between_of_mem member)

/-! ### Trimming -/

theorem trimFirst (sound : Sound source .plain upper lower parts) :
    Sound source .plain upper lower (trimFirst parts) := by
  cases sound with
  | nil => exact .nil
  | cons exact between more =>
      rename_i part rest
      unfold Markup.trimFirst
      split
      · next text span others isLiteral =>
          cases isLiteral
          rcases exact.here.faithful with ⟨written, covers, rfl⟩
          have isSplit := takeWhile_append_dropLeadingBlanks text.toList
          have covers := isSplit.symm ▸ covers
          have length := covers.length_eq
          rw [byteLength_append] at length
          have kept := covers.ending
          rw [Markup.Segment.span] at between more
          have isSame : (spanBehind span (text.toList.takeWhile isBlank)).finish = span.finish := by
            simp only [spanBehind, Span.finish, Place.offset_after]
            omega
          refine .cons (exact_literal kept String.toList_ofList.symm) ⟨?_, ?_⟩ ?_
          · refine between.starts.trans ?_
            simp only [Markup.Segment.span, spanBehind, Place.offset_after]
            exact Nat.le_add_right _ _
          · exact isSame.le.trans between.ends
          · exact more.widen isSame.le le_rfl
      · exact .cons exact between more

theorem trimLast (sound : Sound source .plain upper lower parts) :
    Sound source .plain upper lower (trimLast parts) := by
  induction parts using trimLast.induct generalizing lower with
  | case1 => exact .nil
  | case2 text span =>
      cases sound with
      | cons exact between more =>
          rcases exact.here.faithful with ⟨written, covers, rfl⟩
          have isSplit : dropTrailingBlanks text.toList ++ (text.toList.reverse.takeWhile isBlank).reverse =
              text.toList := by
            rw [dropTrailingBlanks, ← List.reverse_append, List.takeWhile_append_dropWhile, List.reverse_reverse]
          have length := covers.length_eq
          have lengths := congrArg byteLength isSplit
          rw [byteLength_append] at lengths
          have kept := (isSplit.symm ▸ covers).opening
          have isLength : span.length - (byteLength text.toList - byteLength (dropTrailingBlanks text.toList)) =
              byteLength (dropTrailingBlanks text.toList) := by omega
          rw [Markup.trimLast, isLength]
          refine .cons (exact_literal kept String.toList_ofList.symm) ⟨between.starts, ?_⟩ .nil
          refine le_trans ?_ between.ends
          simp only [Markup.Segment.span, Span.finish]
          omega
  | case3 part isOther =>
      rw [Markup.trimLast]
      · exact sound
      · exact isOther
  | case4 part next rest inductionHypothesis =>
      cases sound with
      | cons exact between more =>
          rw [Markup.trimLast]
          exact .cons exact between (inductionHypothesis more)

theorem trimParts (sound : Sound source .plain upper lower parts) :
    Sound source .plain upper lower (trimParts parts) :=
  sound.trimFirst.trimLast.sublist List.filter_sublist

end Sound

end Markup
end TemplateCascade
