import Mathlib
import TemplateCascade.Markup.Parser.Block
import TemplateCascade.Proofs.Entries
import TemplateCascade.Proofs.Markup.Nesting
import TemplateCascade.Proofs.Outcomes

namespace TemplateCascade
namespace Markup

/-!
# Where inclusions stand

The names that a template includes are collected from bodies alone.  Nothing is missed by that in a
template that was parsed: the grammar has inclusions among the parts of a body, and none among the parts of
an argument or of an attribute's value, whatever is nested in them.
-/

open Text

/-- No inclusion stands anywhere in a segment. -/
def Segment.Inline (segment : Segment) : Prop :=
  ∀ name span, Segment.inclusion name span ∉ nested .whole segment

/-- Every inclusion in a segment stands in a body. -/
def Segment.Placed (segment : Segment) : Prop :=
  ∀ name span, Segment.inclusion name span ∈ nested .whole segment → name ∈ segment.inclusions

/-- No inclusion stands anywhere in some segments. -/
abbrev AllInline (segments : List Segment) : Prop :=
  ∀ segment ∈ segments, segment.Inline

/-- Every inclusion in some segments stands in a body. -/
abbrev AllPlaced (segments : List Segment) : Prop :=
  ∀ segment ∈ segments, segment.Placed

/-- Inclusions stand in the bodies of a choice and in none of its conditions. -/
structure BranchesPlaced (branches : List Branch) (otherwise : Option (List Segment)) : Prop where
  conditions : ∀ branch ∈ branches, AllInline branch.condition.parts
  bodies : ∀ branch ∈ branches, AllPlaced branch.body
  otherwise : ∀ body, otherwise = some body → AllPlaced body

/-! ## Members -/

section Members

variable {extent : Extent} {segment : Segment}

theorem mem_nestedAll {segments : List Segment} :
    segment ∈ nestedAll extent segments ↔ ∃ outer ∈ segments, segment ∈ nested extent outer := by
  induction segments with
  | nil => simp [nestedAll]
  | cons first rest inductionHypothesis => simp [nestedAll, inductionHypothesis]

theorem nestedArgument_eq (argument : ArgumentOf Segment) :
    nestedArgument extent argument = nestedAll extent argument.parts := by
  rw [nestedArgument]

theorem mem_nestedArguments {arguments : List (ArgumentOf Segment)} :
    segment ∈ nestedArguments extent arguments ↔
      ∃ argument ∈ arguments, segment ∈ nestedAll extent argument.parts := by
  induction arguments with
  | nil => simp [nestedArguments]
  | cons first rest inductionHypothesis => simp [nestedArguments, nestedArgument_eq, inductionHypothesis]

theorem mem_nestedNamed {named : List (String × ArgumentOf Segment)} :
    segment ∈ nestedNamed extent named ↔
      ∃ entry ∈ named, segment ∈ nestedAll extent entry.2.parts := by
  induction named with
  | nil => simp [nestedNamed]
  | cons first rest inductionHypothesis => simp [nestedNamed, nestedArgument_eq, inductionHypothesis]

theorem mem_nestedBranches {branches : List (BranchOf Segment)} :
    segment ∈ nestedBranches .whole branches ↔ ∃ branch ∈ branches,
      segment ∈ nestedAll .whole branch.condition.parts ∨ segment ∈ nestedAll .whole branch.body := by
  induction branches with
  | nil => simp [nestedBranches]
  | cons first rest inductionHypothesis =>
      simp [nestedBranches, nestedArgument_eq, Extent.entersTests, inductionHypothesis, or_assoc]

theorem mem_bodyInclusions {name : String} {segments : List Segment} :
    name ∈ bodyInclusions segments ↔ ∃ outer ∈ segments, name ∈ outer.inclusions := by
  induction segments with
  | nil => simp [bodyInclusions]
  | cons first rest inductionHypothesis => simp [bodyInclusions, inductionHypothesis]

theorem mem_branchInclusions {name : String} {branches : List (BranchOf Segment)} :
    name ∈ branchInclusions branches ↔ ∃ branch ∈ branches, name ∈ bodyInclusions branch.body := by
  induction branches with
  | nil => simp [branchInclusions]
  | cons first rest inductionHypothesis => simp [branchInclusions, inductionHypothesis]

end Members

/-- A name is among those that a template includes exactly if a body includes it. -/
theorem Template.mem_includeNames {template : Template} {name : String} :
    name ∈ template.includeNames ↔ name ∈ bodyInclusions template.segments := by
  have collected : ∀ names known : List String,
      name ∈ names.foldl (fun names name => if names.contains name then names else names ++ [name]) known ↔
        name ∈ known ∨ name ∈ names := by
    intro names
    induction names with
    | nil => simp
    | cons first rest inductionHypothesis =>
        intro known
        rw [List.foldl_cons, inductionHypothesis]
        split
        · next listed =>
            have listed : first ∈ known := List.contains_iff_mem.mp listed
            rw [List.mem_cons]
            constructor
            · tauto
            · rintro (member | rfl | member)
              · exact .inl member
              · exact .inl listed
              · exact .inr member
        · simp [or_assoc]
  rw [Template.includeNames, collected]
  simp

/-! ## Segments by their parts -/

theorem not_mem_nestedAll_of_allInline {segments : List Segment} (inline : AllInline segments)
    (name : String) (span : Span) : Segment.inclusion name span ∉ nestedAll .whole segments := by
  rw [mem_nestedAll]
  rintro ⟨outer, member, inside⟩
  exact inline outer member name span inside

theorem mem_bodyInclusions_of_allPlaced {segments : List Segment} (placed : AllPlaced segments)
    {name : String} {span : Span} (inside : Segment.inclusion name span ∈ nestedAll .whole segments) :
    name ∈ bodyInclusions segments := by
  rcases mem_nestedAll.mp inside with ⟨outer, member, inside⟩
  exact mem_bodyInclusions.mpr ⟨outer, member, placed outer member name span inside⟩

namespace Segment

theorem inline_literal (text : String) (span : Span) : (literal text span).Inline := by
  intro name place
  simp [nested]

theorem inline_reference (path : List String) (span : Span) : (reference path span).Inline := by
  intro name place
  simp [nested]

theorem inline_call {name : String} {arguments : List Argument} {named : List (String × Argument)}
    {span : Span} (positional : ∀ argument ∈ arguments, AllInline argument.parts)
    (byName : ∀ entry ∈ named, AllInline entry.2.parts) : (call name arguments named span).Inline := by
  intro inclusion place inside
  simp only [nested, Extent.entersCalls, if_true, List.mem_cons, reduceCtorEq, false_or,
    List.mem_append, mem_nestedArguments, mem_nestedNamed] at inside
  rcases inside with ⟨argument, member, inside⟩ | ⟨entry, member, inside⟩
  · exact not_mem_nestedAll_of_allInline (positional argument member) inclusion place inside
  · exact not_mem_nestedAll_of_allInline (byName entry member) inclusion place inside

theorem Inline.placed {segment : Segment} (inline : segment.Inline) : segment.Placed :=
  fun name span inside => absurd inside (inline name span)

theorem placed_inclusion (name : String) (span : Span) : (inclusion name span).Placed := by
  intro other place inside
  rw [nested, List.mem_singleton, Segment.inclusion.injEq] at inside
  exact List.mem_singleton.mpr inside.1

theorem placed_choice {branches : List Branch} {otherwise : Option (List Segment)} {span : Span}
    (placed : BranchesPlaced branches otherwise) : (choice branches otherwise span).Placed := by
  intro name place inside
  simp only [nested, List.mem_cons, reduceCtorEq, false_or, List.mem_append, mem_nestedBranches] at inside
  rw [inclusions, List.mem_append, mem_branchInclusions]
  rcases inside with ⟨branch, member, inCondition | inBody⟩ | inside
  · exact absurd inCondition (not_mem_nestedAll_of_allInline (placed.conditions branch member) name place)
  · exact .inl ⟨branch, member, mem_bodyInclusions_of_allPlaced (placed.bodies branch member) inBody⟩
  · cases otherwise with
    | none => cases inside
    | some body => exact .inr (mem_bodyInclusions_of_allPlaced (placed.otherwise body rfl) inside)

theorem placed_loop {source : Argument} {value : String} {key : Option String} {body : List Segment}
    {span : Span} (inline : AllInline source.parts) (placed : AllPlaced body) :
    (loop source value key body span).Placed := by
  intro name place inside
  simp only [nested, Extent.entersTests, if_true, nestedArgument_eq, List.mem_cons, reduceCtorEq, false_or,
    List.mem_append] at inside
  rcases inside with inSource | inBody
  · exact absurd inSource (not_mem_nestedAll_of_allInline inline name place)
  · exact mem_bodyInclusions_of_allPlaced placed inBody

end Segment

/-! ## Inline constructs -/

theorem forall_mem_consLiteral {holds : Segment → Prop} (literal : ∀ text span, holds (.literal text span))
    (text : String) (span : Span) {segments : List Segment} (all : ∀ segment ∈ segments, holds segment) :
    ∀ segment ∈ Segment.consLiteral text span segments, holds segment := by
  unfold Segment.consLiteral
  split
  · exact List.forall_mem_cons.mpr ⟨literal _ _, (List.forall_mem_cons.mp all).2⟩
  · exact List.forall_mem_cons.mpr ⟨literal _ _, all⟩

theorem allInline_trimFirst {parts : List Segment} (inline : AllInline parts) :
    AllInline (trimFirst parts) := by
  unfold trimFirst
  split
  · exact List.forall_mem_cons.mpr ⟨Segment.inline_literal _ _, (List.forall_mem_cons.mp inline).2⟩
  · exact inline

theorem allInline_trimLast {parts : List Segment} (inline : AllInline parts) :
    AllInline (trimLast parts) := by
  induction parts using trimLast.induct with
  | case1 => exact inline
  | case2 text span => exact List.forall_mem_singleton.mpr (Segment.inline_literal _ _)
  | case3 part notLiteral =>
      rw [trimLast]
      · exact inline
      · exact notLiteral
  | case4 part next rest inductionHypothesis =>
      have inline := List.forall_mem_cons.mp inline
      rw [trimLast]
      exact List.forall_mem_cons.mpr ⟨inline.1, inductionHypothesis inline.2⟩

theorem allInline_trimParts {parts : List Segment} (inline : AllInline parts) :
    AllInline (trimParts parts) :=
  fun segment member =>
    allInline_trimLast (allInline_trimFirst inline) segment (List.mem_of_mem_filter member)

theorem mem_namedArguments (read : List NamedArgument) (known : List (String × Argument)) :
    ∀ entry ∈ read.foldl (fun known argument =>
        match argument with
        | (none, _) => known
        | (some key, value) => putEntry known key value) known,
      entry ∈ known ∨ ∃ key, (some key, entry.2) ∈ read := by
  induction read generalizing known with
  | nil => exact fun entry member => .inl member
  | cons first rest inductionHypothesis =>
      intro entry member
      rcases inductionHypothesis _ entry member with old | ⟨key, later⟩
      · rcases first with ⟨key | key, value⟩
        · exact .inl old
        · rcases mem_putEntry old with old | same
          · exact .inl old
          · exact .inr ⟨key, same ▸ List.mem_cons_self⟩
      · exact .inr ⟨key, List.mem_cons_of_mem _ later⟩

theorem ok_of_ite_error {Failure Result : Type} {condition : Prop} [Decidable condition]
    {failure : Failure} {result other : Result}
    (succeeded : (if condition then .error failure else .ok result : Except Failure Result) = .ok other) :
    result = other := by
  split at succeeded
  · cases succeeded
  · exact Except.ok.inj succeeded

/-- A call is put together from the arguments that were read, and from nothing else. -/
theorem exists_of_assembleCall {name : String} {read : List NamedArgument} {span : Span}
    {segment : Segment} (assembled : assembleCall name read span = .ok segment) :
    ∃ positional named, segment = .call name positional named span ∧
      (∀ argument ∈ positional, (none, argument) ∈ read) ∧
      ∀ entry ∈ named, ∃ key, (some key, entry.2) ∈ read := by
  unfold assembleCall at assembled
  dsimp only at assembled
  generalize inOrder_eq : List.filterMap _ read = inOrder at assembled
  generalize byName_eq : List.foldl _ [] read = byName at assembled
  have positional : ∀ argument ∈ inOrder, (none, argument) ∈ read := by
    subst inOrder_eq
    intro argument member
    rcases List.mem_filterMap.mp member with ⟨⟨key | key, value⟩, isRead, same⟩
    · exact Option.some.inj same ▸ isRead
    · cases same
  have named : ∀ entry ∈ byName, ∃ key, (some key, entry.2) ∈ read := by
    subst byName_eq
    exact fun entry member => (mem_namedArguments read [] entry member).resolve_left List.not_mem_nil
  generalize List.find? ArgumentOf.isMissing _ = missing at assembled
  -- All positional arguments are kept, or a single one that is missing is dropped.
  have made : ∃ kept, segment = .call name kept byName span ∧ kept ⊆ inOrder := by
    cases missing with
    | none =>
        refine ⟨_, (Except.ok.inj assembled).symm, ?_⟩
        split
        · split <;> simp
        · exact List.Subset.refl inOrder
    | some missing =>
        refine ⟨_, (ok_of_ite_error assembled).symm, ?_⟩
        split
        · split <;> simp
        · exact List.Subset.refl inOrder
  rcases made with ⟨kept, rfl, isKept⟩
  exact ⟨kept, byName, rfl, fun argument member => positional argument (isKept member), named⟩

theorem inline_of_assembleCall {name : String} {read : List NamedArgument} {span : Span} {segment : Segment}
    (inline : ∀ argument ∈ read, AllInline argument.2.parts)
    (assembled : assembleCall name read span = .ok segment) : segment.Inline := by
  rcases exists_of_assembleCall assembled with ⟨positional, named, rfl, positionalRead, namedRead⟩
  refine Segment.inline_call (fun argument member => inline _ (positionalRead argument member)) ?_
  intro entry member
  rcases namedRead entry member with ⟨key, isRead⟩
  exact inline _ isRead

mutual

theorem inline_of_parseCall {finish opening : Token} {tokens : List Token} {parsed : Parsed Segment tokens}
    (ran : parseCall finish opening tokens = .ok parsed) : parsed.result.Inline := by
  rw [parseCall] at ran
  rcases exists_of_bind_eq_ok ran with ⟨⟨⟨read, closing⟩, rest, shorter⟩, arguments, ran⟩
  rcases exists_of_bind_eq_ok ran with ⟨call, assembled, ran⟩
  have inline := allInline_of_parseArguments arguments
  cases ran
  exact inline_of_assembleCall inline assembled
termination_by 8 * tokens.length + 4

theorem allInline_of_parseArguments {finish : Token} {name : String} {tokens : List Token}
    {parsed : Parsed (List NamedArgument × Span) tokens}
    (ran : parseArguments finish name tokens = .ok parsed) :
    ∀ argument ∈ parsed.result.1, AllInline argument.2.parts := by
  rw [parseArguments] at ran
  rcases exists_of_bind_eq_ok ran with ⟨⟨argument, left, shorter⟩, first, ran⟩
  have inline := allInline_of_parseArgument first
  dsimp only at ran
  split at ran
  · next token rest =>
      split at ran
      · rcases exists_of_bind_eq_ok ran with ⟨⟨⟨more, closing⟩, behind, shorterStill⟩, others, ran⟩
        have inlineOthers := allInline_of_parseArguments others
        cases ran
        exact List.forall_mem_cons.mpr ⟨inline, inlineOthers⟩
      · cases ran
        exact List.forall_mem_singleton.mpr inline
      · cases ran
  · cases ran
termination_by 8 * tokens.length + 3

theorem allInline_of_parseArgument {finish : Token} : ∀ {tokens : List Token}
    {parsed : Parsed NamedArgument tokens}, parseArgument finish tokens = .ok parsed →
      AllInline parsed.result.2.parts
  | [], parsed, ran => by
      rw [parseArgument] at ran
      cases ran
  | token :: behind, parsed, ran => by
      rw [parseArgument] at ran
      split at ran
      · rcases exists_of_bind_eq_ok ran with ⟨⟨value, rest, shorter⟩, named, ran⟩
        have inline := allInline_of_parseValue named
        cases ran
        exact inline
      · rcases exists_of_bind_eq_ok ran with ⟨⟨value, rest, shorter⟩, unnamed, ran⟩
        have inline := allInline_of_parseValue unnamed
        cases ran
        exact inline
termination_by tokens => 8 * tokens.length + 2
decreasing_by
  all_goals simp only [List.length_cons]
  all_goals omega

theorem allInline_of_parseValue {finish : Token} {start : Span} : ∀ {tokens : List Token}
    {parsed : Parsed Argument tokens}, parseValue finish start tokens = .ok parsed →
      AllInline parsed.result.parts
  | [], parsed, ran => by
      rw [parseValue] at ran
      cases ran
  | token :: behind, parsed, ran => by
      rw [parseValue] at ran
      split at ran
      · rcases exists_of_bind_eq_ok ran with ⟨⟨⟨parts, closing⟩, left, shorter⟩, quoted, ran⟩
        rcases exists_of_bind_eq_ok ran with ⟨⟨_, rest, shorterStill⟩, _, ran⟩
        have inline := allInline_of_parseQuoted quoted
        cases ran
        exact inline
      · rcases exists_of_bind_eq_ok ran with ⟨⟨parts, rest, shorter⟩, unquoted, ran⟩
        have inline := allInline_of_parseParts unquoted
        cases ran
        exact allInline_trimParts inline
termination_by tokens => 8 * tokens.length + 1
decreasing_by
  all_goals simp only [List.length_cons]
  all_goals omega

theorem allInline_of_parseParts {finish : Token} : ∀ {tokens : List Token}
    {parsed : Parsed (List Segment) tokens}, parseParts finish tokens = .ok parsed →
      AllInline parsed.result
  | [], parsed, ran => by
      rw [parseParts] at ran
      cases ran
  | token :: behind, parsed, ran => by
      rw [parseParts] at ran
      split at ran
      · cases ran
        exact nofun
      · cases ran
        exact nofun
      · rcases exists_of_bind_eq_ok ran with ⟨⟨parts, rest, shorter⟩, others, ran⟩
        have inline := allInline_of_parseParts others
        cases ran
        exact forall_mem_consLiteral Segment.inline_literal _ _ inline
      · rcases exists_of_bind_eq_ok ran with ⟨⟨parts, rest, shorter⟩, others, ran⟩
        have inline := allInline_of_parseParts others
        cases ran
        exact List.forall_mem_cons.mpr ⟨Segment.inline_reference _ _, inline⟩
      · rcases exists_of_bind_eq_ok ran with ⟨⟨call, left, shorter⟩, first, ran⟩
        rcases exists_of_bind_eq_ok ran with ⟨⟨parts, rest, shorterStill⟩, others, ran⟩
        have inline := inline_of_parseCall first
        have inlineOthers := allInline_of_parseParts others
        cases ran
        exact List.forall_mem_cons.mpr ⟨inline, inlineOthers⟩
      · cases ran
termination_by tokens => 8 * tokens.length
decreasing_by
  all_goals simp only [List.length_cons]
  all_goals omega

theorem allInline_of_parseQuoted {finish : Token} {quote : Char} : ∀ {tokens : List Token}
    {parsed : Parsed (List Segment × Span) tokens}, parseQuoted finish quote tokens = .ok parsed →
      AllInline parsed.result.1
  | [], parsed, ran => by
      rw [parseQuoted] at ran
      cases ran
  | token :: behind, parsed, ran => by
      rw [parseQuoted] at ran
      split at ran
      · cases ran
        exact nofun
      · rcases exists_of_bind_eq_ok ran with ⟨⟨⟨parts, closing⟩, rest, shorter⟩, others, ran⟩
        have inline := allInline_of_parseQuoted others
        cases ran
        exact forall_mem_consLiteral Segment.inline_literal _ _ inline
      · rcases exists_of_bind_eq_ok ran with ⟨⟨⟨parts, closing⟩, rest, shorter⟩, others, ran⟩
        have inline := allInline_of_parseQuoted others
        cases ran
        exact List.forall_mem_cons.mpr ⟨Segment.inline_reference _ _, inline⟩
      · rcases exists_of_bind_eq_ok ran with ⟨⟨call, left, shorter⟩, first, ran⟩
        rcases exists_of_bind_eq_ok ran with ⟨⟨⟨parts, closing⟩, rest, shorterStill⟩, others, ran⟩
        have inline := inline_of_parseCall first
        have inlineOthers := allInline_of_parseQuoted others
        cases ran
        exact List.forall_mem_cons.mpr ⟨inline, inlineOthers⟩
      · cases ran
termination_by tokens => 8 * tokens.length
decreasing_by
  all_goals simp only [List.length_cons]
  all_goals omega

end

/-! ## Bodies and blocks -/

/-- No inclusion stands anywhere in the values of some attributes. -/
abbrev AttributesInline (attributes : Attributes) : Prop :=
  ∀ entry ∈ attributes, AllInline entry.2.parts

theorem attributesInline_of_parseAttributes {finish : Token} : ∀ {known : Attributes} {tokens : List Token}
    {parsed : Parsed (Attributes × Token) tokens}, AttributesInline known →
      parseAttributes finish known tokens = .ok parsed → AttributesInline parsed.result.1
  | known, [], parsed, _, ran => by
      rw [parseAttributes] at ran
      cases ran
  | known, token :: behind, parsed, inline, ran => by
      rw [parseAttributes] at ran
      split at ran
      · rcases exists_of_bind_eq_ok ran with ⟨⟨⟨parts, closing⟩, left, shorter⟩, quoted, ran⟩
        rcases exists_of_bind_eq_ok ran with ⟨⟨read, rest, shorterStill⟩, others, ran⟩
        have inlineValue := allInline_of_parseQuoted quoted
        have inlineRead := attributesInline_of_parseAttributes (fun entry member =>
          (mem_putEntry member).elim (inline entry) (fun same => same ▸ inlineValue)) others
        cases ran
        exact inlineRead
      · cases ran
        exact inline
      · cases ran
        exact inline
      · cases ran
termination_by _ tokens => tokens.length
decreasing_by
  all_goals simp only [List.length_cons]
  all_goals omega

theorem inline_of_takeRequired {opening : Token} {attributes left : Attributes} {name : String}
    {value : Argument} (inline : AttributesInline attributes)
    (taken : takeRequired opening attributes name = .ok (value, left)) :
    AllInline value.parts ∧ AttributesInline left := by
  unfold takeRequired at taken
  split at taken
  · next found =>
      cases taken
      refine ⟨?_, fun entry member => inline entry (List.mem_of_mem_eraseP member)⟩
      exact inline _ (mem_of_entryNamed? found)
  · cases taken

theorem inline_of_branchCondition {opening : Token} {attributes : Attributes} {condition : Argument}
    (inline : AttributesInline attributes) (found : branchCondition opening attributes = .ok condition) :
    AllInline condition.parts := by
  rcases exists_of_bind_eq_ok found with ⟨⟨taken, left⟩, isTaken, found⟩
  rcases exists_of_bind_eq_ok found with ⟨_, _, found⟩
  cases found
  exact (inline_of_takeRequired inline isTaken).1

theorem inline_of_loopHead {opening : Token} {attributes : Attributes} {head : LoopHead}
    (inline : AttributesInline attributes) (found : loopHead opening attributes = .ok head) :
    AllInline head.source.parts := by
  rcases exists_of_bind_eq_ok found with ⟨⟨source, left⟩, isTaken, found⟩
  rcases exists_of_bind_eq_ok found with ⟨⟨value, left⟩, _, found⟩
  rcases exists_of_bind_eq_ok found with ⟨_, _, found⟩
  rcases exists_of_bind_eq_ok found with ⟨_, _, found⟩
  rcases exists_of_bind_eq_ok found with ⟨_, _, found⟩
  cases found
  exact (inline_of_takeRequired inline isTaken).1

theorem placed_of_parseInclusion {opening ending : Token} {attributes : Attributes} {segment : Segment}
    (found : parseInclusion opening ending attributes = .ok segment) : segment.Placed := by
  rcases exists_of_bind_eq_ok found with ⟨_, _, found⟩
  rcases exists_of_bind_eq_ok found with ⟨⟨name, left⟩, _, found⟩
  rcases exists_of_bind_eq_ok found with ⟨_, _, found⟩
  split at found
  · cases found
  · split at found
    · cases found
    · cases found
      exact Segment.placed_inclusion _ _

/-- A body that was read belongs to the branch with the current condition, or is the last one. -/
theorem placed_complete (current : Option (Argument × Span)) (body : List Segment) (more : Branches) :
    let whole : Branches :=
      match current with
      | some (condition, span) => (⟨condition, body, span⟩ :: more.1, more.2.1, more.2.2)
      | none => (more.1, some body, more.2.2)
    (∀ branch, current = some branch → AllInline branch.1.parts) → AllPlaced body →
      BranchesPlaced more.1 more.2.1 → BranchesPlaced whole.1 whole.2.1 := by
  intro whole inline placed others
  subst whole
  cases current with
  | none => exact ⟨others.conditions, others.bodies, fun _ same => Option.some.inj same ▸ placed⟩
  | some branch =>
      exact ⟨List.forall_mem_cons.mpr ⟨inline branch rfl, others.conditions⟩,
        List.forall_mem_cons.mpr ⟨placed, others.bodies⟩, others.otherwise⟩

mutual

theorem allPlaced_of_parseBody {finish : Token} : ∀ {tokens : List Token}
    {parsed : Parsed (List Segment) tokens}, parseBody finish tokens = .ok parsed →
      AllPlaced parsed.result
  | [], parsed, ran => by
      rw [parseBody] at ran
      cases ran
      exact nofun
  | token :: behind, parsed, ran => by
      rw [parseBody] at ran
      split at ran
      · cases ran
        exact nofun
      · split at ran
        · cases ran
          exact nofun
        · rcases exists_of_bind_eq_ok ran with ⟨⟨block, left, shorter⟩, first, ran⟩
          rcases exists_of_bind_eq_ok ran with ⟨⟨body, rest, shorterStill⟩, others, ran⟩
          have placed := placed_of_parseBlock first
          have placedOthers := allPlaced_of_parseBody others
          cases ran
          exact List.forall_mem_cons.mpr ⟨placed, placedOthers⟩
      · rcases exists_of_bind_eq_ok ran with ⟨⟨body, rest, shorter⟩, others, ran⟩
        have placed := allPlaced_of_parseBody others
        cases ran
        exact forall_mem_consLiteral (fun text span => (Segment.inline_literal text span).placed) _ _ placed
      · rcases exists_of_bind_eq_ok ran with ⟨⟨body, rest, shorter⟩, others, ran⟩
        have placed := allPlaced_of_parseBody others
        cases ran
        exact List.forall_mem_cons.mpr ⟨(Segment.inline_reference _ _).placed, placed⟩
      · rcases exists_of_bind_eq_ok ran with ⟨⟨call, left, shorter⟩, first, ran⟩
        rcases exists_of_bind_eq_ok ran with ⟨⟨body, rest, shorterStill⟩, others, ran⟩
        have inline := inline_of_parseCall first
        have placed := allPlaced_of_parseBody others
        cases ran
        exact List.forall_mem_cons.mpr ⟨inline.placed, placed⟩
      · cases ran
termination_by tokens => 4 * tokens.length
decreasing_by
  all_goals simp only [List.length_cons]
  all_goals omega

theorem placed_of_parseBlock {finish opening : Token} {tokens : List Token}
    {parsed : Parsed Segment tokens} (ran : parseBlock finish opening tokens = .ok parsed) :
    parsed.result.Placed := by
  rw [parseBlock] at ran
  rcases exists_of_bind_eq_ok ran with ⟨⟨⟨attributes, ending⟩, left, shorter⟩, read, ran⟩
  have inline := attributesInline_of_parseAttributes (fun _ member => (List.not_mem_nil member).elim) read
  dsimp only at ran
  split at ran
  · rcases exists_of_bind_eq_ok ran with ⟨_, _, ran⟩
    rcases exists_of_bind_eq_ok ran with ⟨condition, found, ran⟩
    rcases exists_of_bind_eq_ok ran with ⟨⟨⟨branches, otherwise, closing⟩, rest, shorterStill⟩, more, ran⟩
    have conditionInline := inline_of_branchCondition inline found
    have placed := branchesPlaced_of_parseBranches
      (fun _ same => Option.some.inj same ▸ conditionInline) more
    cases ran
    exact Segment.placed_choice placed
  · rcases exists_of_bind_eq_ok ran with ⟨_, _, ran⟩
    rcases exists_of_bind_eq_ok ran with ⟨head, found, ran⟩
    rcases exists_of_bind_eq_ok ran with ⟨⟨body, behind, shorterStill⟩, inside, ran⟩
    have placed := allPlaced_of_parseBody inside
    dsimp only at ran
    split at ran
    · cases ran
    · split at ran
      · rcases exists_of_bind_eq_ok ran with ⟨_, _, ran⟩
        cases ran
        exact Segment.placed_loop (inline_of_loopHead inline found) placed
      · cases ran
  · rcases exists_of_bind_eq_ok ran with ⟨segment, found, ran⟩
    cases ran
    exact placed_of_parseInclusion found
  · cases ran
termination_by 4 * tokens.length + 2

theorem branchesPlaced_of_parseBranches {finish opening : Token} {current : Option (Argument × Span)}
    {tokens : List Token} {parsed : Parsed Branches tokens}
    (inline : ∀ branch, current = some branch → AllInline branch.1.parts)
    (ran : parseBranches finish opening current tokens = .ok parsed) :
    BranchesPlaced parsed.result.1 parsed.result.2.1 := by
  rw [parseBranches] at ran
  rcases exists_of_bind_eq_ok ran with ⟨⟨body, left, shorter⟩, inside, ran⟩
  have placed := allPlaced_of_parseBody inside
  rcases left with _ | ⟨token, behind⟩
  · cases ran
  · have shorterBehind : behind.length < tokens.length := shorter
    dsimp only at ran
    split at ran
    · rcases exists_of_bind_eq_ok ran with ⟨_, _, ran⟩
      cases ran
      exact placed_complete _ body ([], none, token.span) inline placed ⟨nofun, nofun, nofun⟩
    · rcases exists_of_bind_eq_ok ran with ⟨⟨⟨attributes, ending⟩, next, shorterNext⟩, read, ran⟩
      have valuesInline := attributesInline_of_parseAttributes
        (fun _ member => (List.not_mem_nil member).elim) read
      rcases exists_of_bind_eq_ok ran with ⟨_, _, ran⟩
      split at ran
      · rcases exists_of_bind_eq_ok ran with ⟨_, failed, _⟩
        cases failed
      · split at ran
        · rcases exists_of_bind_eq_ok ran with ⟨condition, found, ran⟩
          have conditionInline := inline_of_branchCondition valuesInline found
          rcases exists_of_bind_eq_ok ran with ⟨_, ⟨⟩, ran⟩
          rcases exists_of_bind_eq_ok ran with ⟨⟨more, rest, shorterRest⟩, others, ran⟩
          have placedOthers := branchesPlaced_of_parseBranches
            (fun _ same => Option.some.inj same ▸ conditionInline) others
          cases ran
          exact placed_complete _ body more inline placed placedOthers
        · rcases exists_of_bind_eq_ok ran with ⟨_, _, ran⟩
          rcases exists_of_bind_eq_ok ran with ⟨_, ⟨⟩, ran⟩
          rcases exists_of_bind_eq_ok ran with ⟨⟨more, rest, shorterRest⟩, others, ran⟩
          have placedOthers := branchesPlaced_of_parseBranches (by rintro _ ⟨⟩) others
          cases ran
          exact placed_complete _ body more inline placed placedOthers
    · cases ran
termination_by 4 * tokens.length + 1

end

/-! ## Templates -/

theorem parse_eq_of_errorFree {source : String} (errorFree : (lex source).errors = []) :
    parse source = (parseTokens (Token.finish (Span.point (lex source).finish)) (lex source).tokens).mapError
      (⟨·, []⟩) := by
  unfold parse
  dsimp only
  rw [errorFree]

theorem parse_eq_ok_iff_parseTokens {source : String} {template : Template} :
    parse source = .ok template ↔ (lex source).errors = [] ∧
      parseTokens (Token.finish (Span.point (lex source).finish)) (lex source).tokens = .ok template := by
  cases found : (lex source).errors with
  | nil => rw [parse_eq_of_errorFree found, mapError_eq_ok_iff, and_iff_right rfl]
  | cons first more =>
      unfold parse
      dsimp only
      rw [found]
      exact iff_of_false nofun nofun

/-- Every inclusion in a template that was parsed stands in a body. -/
theorem allPlaced_of_parse {source : String} {template : Template} (parsed : parse source = .ok template) :
    AllPlaced template.segments := by
  have ran := (parse_eq_ok_iff_parseTokens.mp parsed).2
  rcases exists_of_bind_eq_ok ran with ⟨⟨body, left, shorter⟩, inside, ran⟩
  have placed := allPlaced_of_parseBody inside
  dsimp only at ran
  split at ran
  · cases ran
    exact placed
  · split at ran
    · cases ran
    · cases ran

/-- No name is missed where the names that a parsed template includes are collected. -/
theorem mem_includeNames_of_parse {source : String} {template : Template}
    (parsed : parse source = .ok template) {name : String} {span : Span}
    (inside : Segment.inclusion name span ∈ nestedAll .whole template.segments) :
    name ∈ template.includeNames :=
  Template.mem_includeNames.mpr (mem_bodyInclusions_of_allPlaced (allPlaced_of_parse parsed) inside)

end Markup
end TemplateCascade
