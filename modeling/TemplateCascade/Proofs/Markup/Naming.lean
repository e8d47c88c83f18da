import Mathlib
import TemplateCascade.Proofs.Markup.Exactness
import TemplateCascade.Proofs.Markup.Printing

namespace TemplateCascade
namespace Markup

/-!
# The names of arguments

Every call in a tree was derived from tokens of its source, however deep it is nested.  So whatever tokens look
like, it shows in all calls; among other things the arguments of a call are named by identifiers.
-/

open Text

/-! ## Parts that stay -/

theorem mem_of_mem_joinLiterals {part : Segment} {parts : List Segment} (notLiteral : part.literal? = none)
    (member : part ∈ joinLiterals parts) : part ∈ parts := by
  have other {text : String} {span : Span} : part ≠ .literal text span := by
    rintro rfl
    cases notLiteral
  induction parts with
  | nil => exact member
  | cons first rest inductionHypothesis =>
      rw [joinLiterals, List.foldr_cons, ← joinLiterals] at member
      unfold joinTo at member
      split at member
      · refine List.mem_cons_of_mem _ (inductionHypothesis ?_)
        unfold Segment.consLiteral at member
        split at member
        · next isJoined =>
            rw [isJoined]
            exact List.mem_cons_of_mem _ ((List.mem_cons.mp member).resolve_left other)
        · exact (List.mem_cons.mp member).resolve_left other
      · rcases List.mem_cons.mp member with rfl | isLater
        · exact List.mem_cons_self
        · exact List.mem_cons_of_mem _ (inductionHypothesis isLater)

theorem mem_of_mem_trimParts {part : Segment} {parts : List Segment} (notLiteral : part.literal? = none)
    (member : part ∈ trimParts parts) : part ∈ parts := by
  have other {text : String} {span : Span} : part ≠ .literal text span := by
    rintro rfl
    cases notLiteral
  have inTrimmed := (List.mem_filter.mp member).1
  have beforeLast : part ∈ trimFirst parts := by
    generalize trimFirst parts = trimmed at inTrimmed
    induction trimmed using trimLast.induct with
    | case1 => exact inTrimmed
    | case2 text span => exact absurd (List.mem_singleton.mp inTrimmed) other
    | case3 single notText =>
        rw [trimLast] at inTrimmed
        · exact inTrimmed
        · exact notText
    | case4 first next rest inductionHypothesis =>
        rw [trimLast] at inTrimmed
        rcases List.mem_cons.mp inTrimmed with rfl | isLater
        · exact List.mem_cons_self
        · exact List.mem_cons_of_mem _ (inductionHypothesis isLater)
  unfold trimFirst at beforeLast
  split at beforeLast
  · exact List.mem_cons_of_mem _ ((List.mem_cons.mp beforeLast).resolve_left other)
  · exact beforeLast

/-! ## Calls and the tokens they were derived from -/

/-- A node that is a call was derived from some of the tokens. -/
def Derived (tokens : List Token) : Node → Prop
  | .segment _ (.call name arguments named span) =>
      ∃ used, used ⊆ tokens ∧ DerivesCall used (.call name arguments named span)
  | _ => True

/-- All calls in some segments were derived from some of the tokens. -/
def AllDerived (tokens : List Token) (segments : List Segment) : Prop :=
  ∀ setting, ∀ part ∈ segments, (Node.segment setting part).Throughout (Derived tokens)

variable {tokens : List Token}

theorem throughout_literal {setting : Setting} {part : Segment} (isLiteral : part.literal? ≠ none) :
    (Node.segment setting part).Throughout (Derived tokens) := by
  cases part with
  | literal text span => exact .mk trivial nofun
  | _ => exact absurd rfl isLiteral

theorem AllDerived.of_mem {parts others : List Segment} (derived : AllDerived tokens parts)
    (same : ∀ part ∈ others, part.literal? = none → part ∈ parts) : AllDerived tokens others := by
  intro setting part member
  by_cases notLiteral : part.literal? = none
  · exact derived setting part (same part member notLiteral)
  · exact throughout_literal notLiteral

theorem AllDerived.joinLiterals {parts : List Segment} (derived : AllDerived tokens parts) :
    AllDerived tokens (joinLiterals parts) :=
  derived.of_mem fun _ member notLiteral => mem_of_mem_joinLiterals notLiteral member

theorem AllDerived.trimParts {parts : List Segment} (derived : AllDerived tokens parts) :
    AllDerived tokens (trimParts parts) :=
  derived.of_mem fun _ member notLiteral => mem_of_mem_trimParts notLiteral member

theorem AllDerived.cons {part : Segment} {parts : List Segment}
    (first : ∀ setting, (Node.segment setting part).Throughout (Derived tokens))
    (derived : AllDerived tokens parts) : AllDerived tokens (part :: parts) := fun setting =>
  List.forall_mem_cons.mpr ⟨first setting, derived setting⟩

theorem AllDerived.argument {value : Argument} (derived : AllDerived tokens value.parts) :
    (Node.argument value).Throughout (Derived tokens) :=
  .mk trivial fun child isChild => by
    rcases List.mem_map.mp isChild with ⟨part, member, rfl⟩
    exact derived _ part member

mutual

theorem allDerived_of_parts {change : List Char → List Char} {used : List Token} {parts : List Segment}
    (known : used ⊆ tokens) : DerivesParts change used parts → AllDerived tokens parts
  | .nil => nofun
  | .text _ more =>
      .cons (fun _ => .mk trivial nofun) (allDerived_of_parts (List.subset_of_cons_subset known) more)
  | .reference _ more =>
      .cons (fun _ => .mk trivial nofun) (allDerived_of_parts (List.subset_of_cons_subset known) more)
  | .call first more =>
      .cons (throughout_of_call (List.append_subset.mp known).1 first)
        (allDerived_of_parts (List.append_subset.mp known).2 more)

theorem throughout_of_call {used : List Token} {call : Segment} (known : used ⊆ tokens) :
    DerivesCall used call → ∀ setting, (Node.segment setting call).Throughout (Derived tokens)
  | .bare opens blank closes, setting => .mk ⟨_, known, .bare opens blank closes⟩ nofun
  | .filled opens arguments closes, setting => by
      refine .mk ⟨_, known, .filled opens arguments closes⟩ fun child isChild => ?_
      have inside := (List.append_subset.mp (List.subset_of_cons_subset known)).1
      have derived := throughout_of_arguments inside arguments
      rcases List.mem_append.mp isChild with isPositional | isNamed
      · rcases List.mem_map.mp isPositional with ⟨argument, member, rfl⟩
        exact derived _ (mem_positionalOf.mp member)
      · rcases List.mem_map.mp isNamed with ⟨entry, member, rfl⟩
        rcases List.mem_filterMap.mp (mem_of_mem_lastOfEach member) with ⟨⟨name, value⟩, isRead, named⟩
        rcases Option.map_eq_some_iff.mp named with ⟨_, _, rfl⟩
        exact derived _ isRead

theorem throughout_of_arguments {used : List Token} {read : List NamedArgument} (known : used ⊆ tokens) :
    DerivesArguments used read → ∀ argument ∈ read, (Node.argument argument.2).Throughout (Derived tokens)
  | .one only => List.forall_mem_singleton.mpr (throughout_of_argument known only)
  | .more first _ behind =>
      List.forall_mem_cons.mpr ⟨throughout_of_argument (List.append_subset.mp known).1 first,
        throughout_of_arguments (List.subset_of_cons_subset (List.append_subset.mp known).2) behind⟩

theorem throughout_of_argument {used : List Token} {argument : NamedArgument} (known : used ⊆ tokens) :
    DerivesArgument used argument → (Node.argument argument.2).Throughout (Derived tokens)
  | .named _ content => throughout_of_value (List.subset_of_cons_subset known) content
  | .positional content _ => throughout_of_value known content

theorem throughout_of_value {start : Span} {used : List Token} {value : Argument} (known : used ⊆ tokens) :
    DerivesValue start used value → (Node.argument value).Throughout (Derived tokens)
  | .quoted _ content _ _ =>
      have inside := (List.append_subset.mp (List.subset_of_cons_subset known)).1
      (allDerived_of_parts inside content).joinLiterals.argument
  | .plain content => (allDerived_of_parts known content).joinLiterals.trimParts.argument

end

theorem throughout_of_attributes {used : List Token} {entries : Attributes} (known : used ⊆ tokens)
    (derives : DerivesAttributes used entries) :
    ∀ entry ∈ entries, (Node.argument entry.2).Throughout (Derived tokens) := by
  induction derives with
  | nil => nofun
  | cons _ content _ _ inductionHypothesis =>
      have parts := List.append_subset.mp (List.subset_of_cons_subset known)
      refine List.forall_mem_cons.mpr ⟨?_, inductionHypothesis (List.subset_of_cons_subset parts.2)⟩
      exact (allDerived_of_parts parts.1 content).joinLiterals.argument

theorem throughout_of_tag {opening ending : Token} {name : String} {used : List Token} {attributes : Attributes}
    (known : used ⊆ tokens) : DerivesTag opening name ending used attributes →
      ∀ entry ∈ attributes, (Node.argument entry.2).Throughout (Derived tokens)
  | .mk _ _ derives => fun entry member =>
      have inside := (List.append_subset.mp (List.subset_of_cons_subset known)).1
      throughout_of_attributes inside derives entry (mem_of_mem_lastOfEach member)

/-- A branch whose condition and whose body are derived. -/
theorem throughout_branch {condition : Argument} {body : List Segment} {span : Span}
    (first : (Node.argument condition).Throughout (Derived tokens)) (derived : AllDerived tokens body) :
    (Node.branch ⟨condition, body, span⟩).Throughout (Derived tokens) :=
  .mk trivial fun child isChild => by
    rcases List.mem_cons.mp isChild with rfl | inBody
    · exact first
    · rcases List.mem_map.mp inBody with ⟨part, member, rfl⟩
      exact derived .body part member

mutual

theorem allDerived_of_body {used : List Token} {parts : List Segment} (known : used ⊆ tokens) :
    DerivesBody used parts → AllDerived tokens parts
  | .nil => nofun
  | .text _ more =>
      .cons (fun _ => .mk trivial nofun) (allDerived_of_body (List.subset_of_cons_subset known) more)
  | .reference _ more =>
      .cons (fun _ => .mk trivial nofun) (allDerived_of_body (List.subset_of_cons_subset known) more)
  | .call first more =>
      .cons (throughout_of_call (List.append_subset.mp known).1 first)
        (allDerived_of_body (List.append_subset.mp known).2 more)
  | .block first more =>
      .cons (throughout_of_block (List.append_subset.mp known).1 first)
        (allDerived_of_body (List.append_subset.mp known).2 more)

theorem throughout_of_block {used : List Token} {block : Segment} (known : used ⊆ tokens) :
    DerivesBlock used block → ∀ setting, (Node.segment setting block).Throughout (Derived tokens)
  | .choice head _ body more last _, setting => .mk trivial fun child isChild => by
      have tagged := List.append_subset.mp known
      have behindTag := List.append_subset.mp tagged.2
      have behindBody := List.append_subset.mp behindTag.2
      have behindBranches := List.append_subset.mp behindBody.2
      rcases List.mem_append.mp isChild with isBranch | isLast
      · rcases List.mem_map.mp isBranch with ⟨branch, member, rfl⟩
        rcases List.mem_cons.mp member with rfl | isLater
        · exact throughout_branch (throughout_of_tag tagged.1 head _ List.mem_cons_self)
            (allDerived_of_body behindTag.1 body).joinLiterals
        · exact throughout_of_branches behindBody.1 more branch isLater
      · rcases List.mem_map.mp isLast with ⟨part, member, rfl⟩
        exact allDerived_of_otherwise behindBranches.1 last .body part member
  | .loop head _ loops body _, setting => .mk trivial fun child isChild => by
      have tagged := List.append_subset.mp known
      rcases List.mem_cons.mp isChild with rfl | inBody
      · exact throughout_of_tag tagged.1 head _ loops.mem_source
      · rcases List.mem_map.mp inBody with ⟨part, member, rfl⟩
        have inside := (List.append_subset.mp tagged.2).1
        exact (allDerived_of_body inside body).joinLiterals .body part member
  | .inclusion _ _ _ _, _ => .mk trivial nofun

theorem throughout_of_branches {used : List Token} {branches : List Branch} (known : used ⊆ tokens) :
    DerivesBranches used branches → ∀ branch ∈ branches, (Node.branch branch).Throughout (Derived tokens)
  | .nil => nofun
  | .cons head _ body more =>
      have tagged := List.append_subset.mp known
      have behindTag := List.append_subset.mp tagged.2
      List.forall_mem_cons.mpr
        ⟨throughout_branch (throughout_of_tag tagged.1 head _ List.mem_cons_self)
          (allDerived_of_body behindTag.1 body).joinLiterals,
        throughout_of_branches behindTag.2 more⟩

theorem allDerived_of_otherwise {used : List Token} {otherwise : Option (List Segment)} (known : used ⊆ tokens) :
    DerivesOtherwise used otherwise → AllDerived tokens (otherwise.getD [])
  | .none => nofun
  | .some _ _ body => (allDerived_of_body (List.append_subset.mp known).2 body).joinLiterals

end

/-- The nodes of a template that was parsed were derived from the tokens of its source. -/
theorem Template.HasNode.derived {source : String} {template : Template} {node : Node}
    (isNode : template.HasNode node) (parsed : parse source = .ok template) :
    node.Throughout (Derived (lex source).tokens) := by
  rcases derives_of_parse parsed with ⟨_, parts, derives, isTree⟩
  have derived := (allDerived_of_body (List.Subset.refl _) derives).joinLiterals
  rw [← isTree] at derived
  induction isNode with
  | top member => exact derived .body _ member
  | child parent member inductionHypothesis => exact inductionHypothesis.of_child _ member

/-! ## Names -/

/-- Blanks in front of a name do not belong to it. -/
theorem trimBlanks_append {blanks : List Char} (areBlank : ∀ blank ∈ blanks, isBlank blank = true)
    (text : List Char) : trimBlanks (blanks ++ text) = trimBlanks text := by
  rw [trimBlanks, dropLeadingBlanks, List.dropWhile_append_of_pos areBlank]
  rfl

theorem isIdentifier_argumentName {source : String} {token : Token} (member : token ∈ (lex source).tokens)
    (isName : token.kind = .argumentName) : isIdentifier (argumentName token).toList = true := by
  have shaped := shaped_of_mem_lexFrom member
  rw [isName] at shaped
  rcases shaped with ⟨blanks, name, isLexeme, areBlank, isIdentifier⟩
  have isSame : argumentName token = argumentName { token with lexeme := name ++ ['='] } := by
    rw [argumentName, isLexeme, trimBlanks_append areBlank]
    rfl
  rw [isSame, TextArgument.argumentName_eq isIdentifier rfl, String.toList_ofList]
  exact isIdentifier

theorem exists_token_of_argument {used : List Token} {name : String} {value : Argument} :
    DerivesArgument used (some name, value) →
      ∃ token ∈ used, token.kind = .argumentName ∧ argumentName token = name
  | .named isName _ => ⟨_, List.mem_cons_self, isName, rfl⟩

/-- A named argument was derived from a token with its name. -/
theorem exists_token_of_named {used : List Token} {read : List NamedArgument} {name : String} {value : Argument}
    (derives : DerivesArguments used read) (member : (some name, value) ∈ read) :
    ∃ token ∈ used, token.kind = .argumentName ∧ argumentName token = name := by
  induction read generalizing used with
  | nil => cases member
  | cons first others inductionHypothesis =>
      cases derives with
      | one only =>
          cases List.mem_singleton.mp member
          exact exists_token_of_argument only
      | more first isComma behind =>
          rcases List.mem_cons.mp member with rfl | isLater
          · rcases exists_token_of_argument first with ⟨token, isUsed, found⟩
            exact ⟨token, List.mem_append_left _ isUsed, found⟩
          · rcases inductionHypothesis behind isLater with ⟨token, isUsed, found⟩
            exact ⟨token, List.mem_append_right _ (List.mem_cons_of_mem _ isUsed), found⟩

/-- The arguments of a call are named by identifiers. -/
theorem Template.HasNode.isIdentifier_of_named {source : String} {template : Template} {setting : Setting}
    {called : String} {arguments : List Argument} {named : List (String × Argument)} {span : Span}
    (isNode : template.HasNode (.segment setting (.call called arguments named span)))
    (parsed : parse source = .ok template) : ∀ entry ∈ named, isIdentifier entry.1.toList = true := by
  rcases (isNode.derived parsed).here with ⟨used, known, derives⟩
  intro entry member
  cases derives with
  | bare opens blank closes => cases member
  | filled opens derived closes =>
      rcases List.mem_filterMap.mp (mem_of_mem_lastOfEach member) with ⟨⟨name, value⟩, isRead, isNamed⟩
      rcases Option.map_eq_some_iff.mp isNamed with ⟨name, rfl, rfl⟩
      rcases exists_token_of_named derived isRead with ⟨token, isUsed, isName, rfl⟩
      exact isIdentifier_argumentName (known (List.mem_cons_of_mem _ (List.mem_append_left _ isUsed))) isName

end Markup
end TemplateCascade
