import Mathlib
import TemplateCascade.Proofs.Markup.Placement

namespace TemplateCascade
namespace Markup

/-!
# The grammar of templates

What tokens make a template is said here without saying how they are read: which tokens may follow each
other, and which segment a run of tokens stands for.  Parts are derived one for each token, variable, call or
block; where a list of them becomes the body of a block or the parts of an argument, neighbouring literals
are joined.
-/

open Text

/-! ## Joining literals -/

/-- A part in front of others, joined with the first of them if both are literals. -/
def joinTo (part : Segment) (joined : List Segment) : List Segment :=
  match part with
  | .literal text span => Segment.consLiteral text span joined
  | other => other :: joined

/-- Parts with neighbouring literals made into one. -/
def joinLiterals (parts : List Segment) : List Segment :=
  parts.foldr joinTo []

/-- The last value of every name, the names in the order of their first places. -/
def lastOfEach {Entry : Type} (entries : List (String × Entry)) : List (String × Entry) :=
  (entries.reverse.map Prod.fst).dedup.reverse.filterMap fun name =>
    (entryNamed? entries.reverse name).map fun entry => (name, entry)

/-- Nothing but white space, as text. -/
def AllBlank (tokens : List Token) : Prop :=
  ∀ token ∈ tokens, token.kind = .text ∧ ∀ character ∈ token.lexeme, isBlank character = true

/-- The arguments without a name, in order. -/
def positionalOf (read : List NamedArgument) : List Argument :=
  read.filterMap fun argument => if argument.1.isNone then some argument.2 else none

/-- The arguments with a name, in order. -/
def namedOf (read : List NamedArgument) : List (String × Argument) :=
  read.filterMap fun argument => argument.1.map fun name => (name, argument.2)

/-! ## Inline constructs -/

mutual

/-- Text, variables and calls.  The text of a token may be changed, as the escapes of quoted text are. -/
inductive DerivesParts : (List Char → List Char) → List Token → List Segment → Prop where
  | nil {change : List Char → List Char} : DerivesParts change [] []
  | text {change : List Char → List Char} {token : Token} {tokens : List Token} {parts : List Segment}
      (isText : token.kind = .text) (more : DerivesParts change tokens parts) :
      DerivesParts change (token :: tokens)
        (.literal (String.ofList (change token.lexeme)) token.span :: parts)
  | reference {change : List Char → List Char} {token : Token} {tokens : List Token}
      {parts : List Segment} (isReference : token.kind = .variableReference)
      (more : DerivesParts change tokens parts) :
      DerivesParts change (token :: tokens) (referenceOf token :: parts)
  | call {change : List Char → List Char} {used tokens : List Token} {call : Segment}
      {parts : List Segment} (first : DerivesCall used call) (more : DerivesParts change tokens parts) :
      DerivesParts change (used ++ tokens) (call :: parts)

/-- A call with the tokens that open and close it. -/
inductive DerivesCall : List Token → Segment → Prop where
  | bare {opening closing : Token} {tokens : List Token} (opens : opening.kind = .callStart)
      (blank : AllBlank tokens) (closes : closing.kind = .callEnd) :
      DerivesCall (opening :: (tokens ++ [closing]))
        (.call (functionName opening) [] [] (opening.span.merge closing.span))
  | filled {opening closing : Token} {tokens : List Token} {read : List NamedArgument}
      (opens : opening.kind = .callStart) (arguments : DerivesArguments tokens read)
      (closes : closing.kind = .callEnd) :
      DerivesCall (opening :: (tokens ++ [closing]))
        (.call (functionName opening) (positionalOf read) (lastOfEach (namedOf read))
          (opening.span.merge closing.span))

/-- Arguments, at least one, with commas between them. -/
inductive DerivesArguments : List Token → List NamedArgument → Prop where
  | one {tokens : List Token} {argument : NamedArgument} (only : DerivesArgument tokens argument) :
      DerivesArguments tokens [argument]
  | more {comma : Token} {tokens rest : List Token} {argument : NamedArgument}
      {others : List NamedArgument} (first : DerivesArgument tokens argument) (isComma : comma.kind = .comma)
      (behind : DerivesArguments rest others) : DerivesArguments (tokens ++ comma :: rest) (argument :: others)

/-- An argument with its name, or one without a name that is not blank. -/
inductive DerivesArgument : List Token → NamedArgument → Prop where
  | named {name : Token} {tokens : List Token} {value : Argument} (isName : name.kind = .argumentName)
      (content : DerivesValue name.span tokens value) :
      DerivesArgument (name :: tokens) (some (argumentName name), value)
  | positional {start : Span} {tokens : List Token} {value : Argument}
      (content : DerivesValue start tokens value) (present : ¬ AllBlank tokens) :
      DerivesArgument tokens (none, value)

/-- The value of an argument that starts somewhere: a quoted one with nothing but white space behind it, or
some parts without white space around them. -/
inductive DerivesValue : Span → List Token → Argument → Prop where
  | quoted {start : Span} {opening closing : Token} {tokens behind : List Token} {parts : List Segment}
      (opens : opening.kind = .quoteOpen) (content : DerivesParts unescape tokens parts)
      (closes : closing.kind = .quoteClose) (blank : AllBlank behind) :
      DerivesValue start (opening :: (tokens ++ closing :: behind))
        ⟨joinLiterals parts, opening.span.merge closing.span, true⟩
  | plain {start : Span} {tokens : List Token} {parts : List Segment} (content : DerivesParts id tokens parts) :
      DerivesValue start tokens ⟨trimParts (joinLiterals parts),
        partsSpan start (trimParts (joinLiterals parts)), false⟩

end

/-! ## Tags -/

/-- Attributes with their quoted values, one behind the other. -/
inductive DerivesAttributes : List Token → Attributes → Prop where
  | nil : DerivesAttributes [] []
  | cons {name closing : Token} {tokens rest : List Token} {parts : List Segment} {others : Attributes}
      (isName : name.kind = .attributeName) (content : DerivesParts unescape tokens parts)
      (closes : closing.kind = .quoteClose) (more : DerivesAttributes rest others) :
      DerivesAttributes (name :: (tokens ++ closing :: rest))
        ((attributeNameOf name, ⟨joinLiterals parts, name.span.merge closing.span, true⟩) :: others)

/-- An opening tag of some name with its attributes, up to the token that ends it. -/
inductive DerivesTag (opening : Token) (name : String) (ending : Token) : List Token → Attributes → Prop where
  | mk {tokens : List Token} {entries : Attributes} (opens : opening.kind = .tagStart)
      (isNamed : openedTag opening = name) (attributes : DerivesAttributes tokens entries) :
      DerivesTag opening name ending (opening :: (tokens ++ [ending])) (lastOfEach entries)

/-- A token is the closing tag of some name. -/
structure Closes (closing : Token) (name : String) : Prop where
  kind : closing.kind = .tagClose
  isNamed : closedTag closing = name

/-- Literal text that names a loop variable: an identifier, with or without a dollar sign. -/
structure NamesVariable (value : Argument) (name : String) : Prop where
  identifier : isIdentifier name.toList = true
  literal : ∃ text, value.literalText? = some text ∧ (trim text = name ∨ trim text = "$" ++ name)

/-- The attributes of a loop in any order, and what it runs over with the names of its variables. -/
inductive LoopOf (attributes : Attributes) (source : Argument) (name : String) : Option String → Prop where
  | unkeyed {value : Argument} (entries : attributes.Perm [("loop", source), ("value", value)])
      (isVariable : NamesVariable value name) : LoopOf attributes source name none
  | keyed {value key : Argument} {keyName : String}
      (entries : attributes.Perm [("loop", source), ("value", value), ("key", key)])
      (isVariable : NamesVariable value name) (isKey : NamesVariable key keyName) :
      LoopOf attributes source name (some keyName)

/-! ## Bodies and blocks -/

mutual

/-- Text, variables, calls and blocks. -/
inductive DerivesBody : List Token → List Segment → Prop where
  | nil : DerivesBody [] []
  | text {token : Token} {tokens : List Token} {parts : List Segment} (isText : token.kind = .text)
      (more : DerivesBody tokens parts) :
      DerivesBody (token :: tokens) (.literal (String.ofList token.lexeme) token.span :: parts)
  | reference {token : Token} {tokens : List Token} {parts : List Segment}
      (isReference : token.kind = .variableReference) (more : DerivesBody tokens parts) :
      DerivesBody (token :: tokens) (referenceOf token :: parts)
  | call {used tokens : List Token} {call : Segment} {parts : List Segment} (first : DerivesCall used call)
      (more : DerivesBody tokens parts) : DerivesBody (used ++ tokens) (call :: parts)
  | block {used tokens : List Token} {block : Segment} {parts : List Segment} (first : DerivesBlock used block)
      (more : DerivesBody tokens parts) : DerivesBody (used ++ tokens) (block :: parts)

/-- A block with the tags that open and close it. -/
inductive DerivesBlock : List Token → Segment → Prop where
  | choice {opening ending closing : Token} {tag tokens branchTokens lastTokens : List Token}
      {condition : Argument} {parts : List Segment} {branches : List Branch}
      {otherwise : Option (List Segment)} (head : DerivesTag opening "if" ending tag [("is", condition)])
      (isOpen : ending.kind = .tagEnd) (body : DerivesBody tokens parts)
      (more : DerivesBranches branchTokens branches) (last : DerivesOtherwise lastTokens otherwise)
      (closes : Closes closing "if") :
      DerivesBlock (tag ++ (tokens ++ (branchTokens ++ (lastTokens ++ [closing]))))
        (.choice (⟨condition, joinLiterals parts, opening.span⟩ :: branches) otherwise
          (opening.span.merge closing.span))
  | loop {opening ending closing : Token} {tag tokens : List Token} {attributes : Attributes}
      {source : Argument} {name : String} {key : Option String} {parts : List Segment}
      (head : DerivesTag opening "foreach" ending tag attributes) (isOpen : ending.kind = .tagEnd)
      (loops : LoopOf attributes source name key) (body : DerivesBody tokens parts)
      (closes : Closes closing "foreach") :
      DerivesBlock (tag ++ (tokens ++ [closing]))
        (.loop source name key (joinLiterals parts) (opening.span.merge closing.span))
  | inclusion {opening ending : Token} {tag : List Token} {value : Argument} {text : String}
      (head : DerivesTag opening "include" ending tag [("template", value)])
      (isClosed : ending.kind = .tagSelfClose) (literal : value.literalText? = some text)
      (present : trim text ≠ "") :
      DerivesBlock tag (.inclusion (trim text) (opening.span.merge ending.span))

/-- The branches of a choice behind its first one. -/
inductive DerivesBranches : List Token → List Branch → Prop where
  | nil : DerivesBranches [] []
  | cons {opening ending : Token} {tag tokens rest : List Token} {condition : Argument}
      {parts : List Segment} {others : List Branch}
      (head : DerivesTag opening "elseif" ending tag [("is", condition)])
      (isClosed : ending.kind = .tagSelfClose) (body : DerivesBody tokens parts)
      (more : DerivesBranches rest others) :
      DerivesBranches (tag ++ (tokens ++ rest)) (⟨condition, joinLiterals parts, opening.span⟩ :: others)

/-- The branch without a condition, if there is one. -/
inductive DerivesOtherwise : List Token → Option (List Segment) → Prop where
  | none : DerivesOtherwise [] none
  | some {opening ending : Token} {tag tokens : List Token} {parts : List Segment}
      (head : DerivesTag opening "else" ending tag []) (isClosed : ending.kind = .tagSelfClose)
      (body : DerivesBody tokens parts) : DerivesOtherwise (tag ++ tokens) (some (joinLiterals parts))

end

/-! ## Joined parts -/

/-- Joining leaves no two literals side by side. -/
theorem isChain_joinLiterals (parts : List Segment) :
    (joinLiterals parts).IsChain fun left right => left.literal? = none ∨ right.literal? = none := by
  induction parts with
  | nil => exact .nil
  | cons part parts inductionHypothesis =>
      rw [joinLiterals, List.foldr_cons, ← joinLiterals]
      generalize joinLiterals parts = joined at inductionHypothesis
      unfold joinTo
      split
      · next text span =>
          unfold Segment.consLiteral
          split
          · next next nextSpan rest =>
              -- The joined literal is a literal in place of another one.
              cases inductionHypothesis with
              | singleton => exact .singleton _
              | cons_cons apart chain => exact .cons_cons (.inr (apart.resolve_left nofun)) chain
          · next notLiteral =>
              cases joined with
              | nil => exact .singleton _
              | cons first rest =>
                  refine .cons_cons (.inr ?_) inductionHypothesis
                  cases first with
                  | literal next nextSpan => exact (notLiteral next nextSpan rest rfl).elim
                  | _ => rfl
      · next notLiteral =>
          have isOther : part.literal? = none := by
            cases part with
            | literal text span => exact (notLiteral text span rfl).elim
            | _ => rfl
          cases joined with
          | nil => exact .singleton _
          | cons first rest => exact .cons_cons (.inl isOther) inductionHypothesis

theorem joinTo_of_apart {part : Segment} {joined : List Segment}
    (apart : part.literal? = none ∨ ∀ text span rest, joined ≠ .literal text span :: rest) :
    joinTo part joined = part :: joined := by
  unfold joinTo
  split
  · unfold Segment.consLiteral
    split
    · next nextSpan rest =>
        rcases apart with nothing | apart
        · cases nothing
        · exact absurd rfl (apart _ _ _)
    · rfl
  · rfl

/-- Parts without neighbouring literals stay as they are. -/
theorem joinLiterals_of_isChain {parts : List Segment}
    (apart : parts.IsChain fun left right => left.literal? = none ∨ right.literal? = none) :
    joinLiterals parts = parts := by
  induction parts with
  | nil => rfl
  | cons part parts inductionHypothesis =>
      rw [joinLiterals, List.foldr_cons, ← joinLiterals, inductionHypothesis apart.tail]
      refine joinTo_of_apart ?_
      cases apart with
      | singleton => exact .inr nofun
      | cons_cons side _ =>
          refine side.imp_right ?_
          rintro isOther text span rest ⟨⟩
          cases isOther

/-! ## The last of each name -/

section

variable {Entry : Type}

theorem putEntry_filterMap {names : List String} (distinct : names.Nodup) (valueOf : String → Option Entry)
    (known : ∀ name ∈ names, (valueOf name).isSome = true) (name : String) (entry : Entry) :
    putEntry (names.filterMap fun name => (valueOf name).map fun entry => (name, entry)) name entry =
      (if name ∈ names then names else names ++ [name]).filterMap fun other =>
        (if other = name then some entry else valueOf other).map fun entry => (other, entry) := by
  induction names with
  | nil => simp [putEntry]
  | cons first rest inductionHypothesis =>
      rcases Option.isSome_iff_exists.mp (known first List.mem_cons_self) with ⟨old, isOld⟩
      have distinct := List.nodup_cons.mp distinct
      have others := inductionHypothesis distinct.2 fun name member =>
        known name (List.mem_cons_of_mem _ member)
      rw [List.filterMap_cons_some (by rw [isOld]; rfl), putEntry]
      by_cases same : first = name
      · subst same
        rw [if_pos rfl, if_pos List.mem_cons_self, List.filterMap_cons_some (by rw [if_pos rfl]; rfl)]
        congr 1
        refine List.filterMap_congr fun other member => ?_
        rw [if_neg]
        rintro rfl
        exact distinct.1 member
      · rw [if_neg same, others]
        have split : (if name ∈ first :: rest then first :: rest else first :: rest ++ [name]) =
            first :: (if name ∈ rest then rest else rest ++ [name]) := by
          simp only [List.mem_cons, Ne.symm same, false_or]
          split <;> rfl
        rw [split, List.filterMap_cons_some (by rw [if_neg same, isOld]; rfl)]

/-- Entries that are put in one after the other leave the last of each name. -/
theorem foldl_putEntry (entries : List (String × Entry)) :
    entries.foldl (fun known entry => putEntry known entry.1 entry.2) [] = lastOfEach entries := by
  induction entries using List.reverseRecOn with
  | nil => rfl
  | append_singleton before last inductionHypothesis =>
      have known : ∀ name ∈ (before.reverse.map Prod.fst).dedup.reverse,
          (entryNamed? before.reverse name).isSome = true := by
        intro name member
        rw [List.mem_reverse, List.mem_dedup, List.mem_map] at member
        rcases member with ⟨entry, member, rfl⟩
        exact List.lookup_isSome_iff.mpr ⟨entry, member, beq_self_eq_true _⟩
      rw [List.foldl_append, inductionHypothesis, List.foldl_cons, List.foldl_nil, lastOfEach,
        putEntry_filterMap (List.nodup_reverse.mpr (List.nodup_dedup _)) _ known, lastOfEach]
      simp only [List.reverse_append, List.reverse_singleton, List.singleton_append, List.map_cons,
        List.dedup_cons, List.mem_reverse, List.mem_dedup]
      congr 1
      · funext name
        have found : entryNamed? (last :: before.reverse) name =
            if name = last.1 then some last.2 else entryNamed? before.reverse name := by
          rw [entryNamed?, List.lookup_cons]
          by_cases same : name = last.1
          · rw [if_pos same, beq_iff_eq.mpr same]
          · rw [if_neg same, beq_eq_false_iff_ne.mpr same]
            rfl
        rw [found]
      · split <;> simp

end

/-! ## Blank arguments -/

/-- A literal of nothing but white space. -/
def Segment.IsBlank (part : Segment) : Prop :=
  ∃ text span, part = .literal text span ∧ ∀ character ∈ text.toList, isBlank character = true

theorem isBlank_literal {text : String} {span : Span} :
    (Segment.literal text span).IsBlank ↔ ∀ character ∈ text.toList, isBlank character = true := by
  constructor
  · rintro ⟨_, _, ⟨⟩, blank⟩
    exact blank
  · exact fun blank => ⟨text, span, rfl, blank⟩

theorem forall_mem_joinTo {part : Segment} {joined : List Segment} :
    (∀ other ∈ joinTo part joined, other.IsBlank) ↔ part.IsBlank ∧ ∀ other ∈ joined, other.IsBlank := by
  unfold joinTo
  split
  · next text span =>
      unfold Segment.consLiteral
      split
      · next next nextSpan rest =>
          simp only [List.forall_mem_cons, isBlank_literal, String.toList_append, List.mem_append, or_imp,
            forall_and, and_assoc]
      · exact List.forall_mem_cons
  · exact List.forall_mem_cons

/-- Joined literals are blank if all of them are. -/
theorem forall_mem_joinLiterals {parts : List Segment} :
    (∀ part ∈ joinLiterals parts, part.IsBlank) ↔ ∀ part ∈ parts, part.IsBlank := by
  induction parts with
  | nil => rfl
  | cons part parts inductionHypothesis =>
      rw [joinLiterals, List.foldr_cons, ← joinLiterals, forall_mem_joinTo, inductionHypothesis,
        List.forall_mem_cons]

theorem trimBlanks_eq_nil_iff {text : List Char} :
    trimBlanks text = [] ↔ ∀ character ∈ text, isBlank character = true := by
  rw [trimBlanks, dropTrailingBlanks, List.reverse_eq_nil_iff, List.dropWhile_eq_nil_iff]
  simp only [List.mem_reverse]
  constructor
  · intro rest character member
    rw [← takeWhile_append_dropLeadingBlanks text, List.mem_append] at member
    exact member.elim List.mem_takeWhile_imp (rest character)
  · exact fun blank character member => blank character ((List.dropWhile_sublist _).subset member)

/-- What is no literal is not trimmed away. -/
theorem mem_trimParts {part : Segment} {parts : List Segment} (notLiteral : part.literal? = none)
    (member : part ∈ parts) : part ∈ trimParts parts := by
  have isKept : (!isEmptyLiteral part) = true := by
    cases part with
    | literal text span => cases notLiteral
    | _ => rfl
  refine List.mem_filter.mpr ⟨?_, isKept⟩
  have behindFirst : part ∈ trimFirst parts := by
    unfold trimFirst
    split
    · refine List.mem_cons_of_mem _ ((List.mem_cons.mp member).resolve_left ?_)
      rintro rfl
      cases notLiteral
    · exact member
  generalize trimFirst parts = trimmed at behindFirst
  induction trimmed using trimLast.induct with
  | case1 => exact behindFirst
  | case2 text span =>
      cases List.mem_singleton.mp behindFirst
      cases notLiteral
  | case3 other isOther =>
      rw [trimLast]
      · exact behindFirst
      · exact isOther
  | case4 first next rest inductionHypothesis =>
      rw [trimLast]
      rcases List.mem_cons.mp behindFirst with rfl | later
      · exact List.mem_cons_self
      · exact List.mem_cons_of_mem _ (inductionHypothesis later)

/-- Joined parts are trimmed to nothing exactly if they are blank. -/
theorem trimParts_joinLiterals {parts : List Segment} :
    trimParts (joinLiterals parts) = [] ↔ ∀ part ∈ parts, part.IsBlank := by
  rw [← forall_mem_joinLiterals]
  have apart := isChain_joinLiterals parts
  generalize joinLiterals parts = joined at apart
  have single : ∀ text span, trimParts [.literal text span] = [] ↔
      ∀ part ∈ [Segment.literal text span], part.IsBlank := by
    intro text span
    rw [List.forall_mem_singleton, isBlank_literal, ← trimBlanks_eq_nil_iff]
    simp [trimParts, trimFirst, trimLast, isEmptyLiteral, trimBlanks]
  constructor
  · intro nothing
    have literals : ∀ part ∈ joined, part.literal? ≠ none := by
      intro part member notLiteral
      have kept := mem_trimParts notLiteral member
      rw [nothing] at kept
      cases kept
    cases apart with
    | nil => exact fun part member => absurd member List.not_mem_nil
    | singleton part =>
        cases part with
        | literal text span => exact (single text span).mp nothing
        | _ => exact absurd rfl (literals _ List.mem_cons_self)
    | cons_cons side chain =>
        rcases side with left | right
        · exact absurd left (literals _ List.mem_cons_self)
        · exact absurd right (literals _ (List.mem_cons_of_mem _ List.mem_cons_self))
  · intro blank
    cases apart with
    | nil => rfl
    | singleton part =>
        rcases blank part List.mem_cons_self with ⟨text, span, rfl, _⟩
        exact (single text span).mpr blank
    | cons_cons side chain =>
        rcases blank _ List.mem_cons_self with ⟨_, _, rfl, _⟩
        rcases blank _ (List.mem_cons_of_mem _ List.mem_cons_self) with ⟨_, _, rfl, _⟩
        rcases side with ⟨⟨⟩⟩ | ⟨⟨⟩⟩

theorem DerivesCall.opens {used : List Token} {call : Segment} (derives : DerivesCall used call) :
    ∃ opening rest name arguments named span, used = opening :: rest ∧ opening.kind = .callStart ∧
      call = .call name arguments named span := by
  cases derives with
  | bare opens blank closes => exact ⟨_, _, _, _, _, _, rfl, opens, rfl⟩
  | filled opens arguments closes => exact ⟨_, _, _, _, _, _, rfl, opens, rfl⟩

/-- Parts that are read without a change are blank exactly if their tokens are. -/
theorem DerivesParts.isBlank_iff {tokens : List Token} {parts : List Segment} :
    DerivesParts id tokens parts → ((∀ part ∈ parts, part.IsBlank) ↔ AllBlank tokens)
  | .nil => iff_of_true nofun nofun
  | .text isText more => by
      have others := more.isBlank_iff
      rw [AllBlank] at others ⊢
      rw [List.forall_mem_cons, List.forall_mem_cons, others, isBlank_literal, String.toList_ofList, id,
        and_iff_right isText]
  | .reference isReference more => by
      refine iff_of_false (fun blank => ?_) (fun blank => ?_)
      · rcases blank _ List.mem_cons_self with ⟨_, _, isLiteral, _⟩
        cases isLiteral
      · cases isReference.symm.trans (blank _ List.mem_cons_self).1
  | .call first more => by
      rcases first.opens with ⟨opening, rest, name, arguments, named, span, rfl, opens, rfl⟩
      refine iff_of_false (fun blank => ?_) (fun blank => ?_)
      · rcases blank _ List.mem_cons_self with ⟨_, _, isLiteral, _⟩
        cases isLiteral
      · cases opens.symm.trans (blank _ List.mem_cons_self).1

/-- A value that is read is missing exactly if its tokens are blank. -/
theorem DerivesValue.isMissing_iff {start : Span} {tokens : List Token} {value : Argument}
    (derives : DerivesValue start tokens value) : value.isMissing = true ↔ AllBlank tokens := by
  cases derives with
  | quoted opens content closes blank =>
      refine iff_of_false ?_ fun blank => ?_
      · simp [ArgumentOf.isMissing]
      · cases opens.symm.trans (blank _ List.mem_cons_self).1
  | plain content =>
      rw [ArgumentOf.isMissing, ← content.isBlank_iff, ← trimParts_joinLiterals]
      simp

end Markup
end TemplateCascade
