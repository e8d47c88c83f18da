import Mathlib
import TemplateCascade.Proofs.Code.Concatenation
import TemplateCascade.Proofs.Compile.Expansion
import TemplateCascade.Proofs.Compile.IncludeGraph
import TemplateCascade.Proofs.Compile.Lawful

namespace TemplateCascade
namespace Compile

/-!
# Inclusion is substitution

The expanded tree of a template compiles to the code that the template compiles to, and it fails where the
template fails; then the template's error tells the way to the segment that fails.

The two compilations note different templates, so they are compared from states that have noted the same
phrases.  An included template is concatenated by itself on one side and together with what stands around
it on the other; both give the same joined parts because all generated code is flat.
-/

open Markup (ArgumentOf BranchOf Segment Template mem_nested_self nested nestedAll nestedBranches
  nestedOtherwise)
open Text (Escaping Span)

/-! ## Two compilations side by side -/

/--
Two compilations have ended alike: with results that agree, or with errors of which one may tell more than
the other.  They have noted the same phrases.
-/
inductive Alike {Left Right : Type} (fails : CompileError → CompileError → Prop)
    (agree : Left → Right → Prop) :
    Except CompileError Left × Uses → Except CompileError Right × Uses → Prop where
  | ok {left : Left} {right : Right} {noted other : Uses} (same : agree left right)
      (phrases : noted.phrases = other.phrases) : Alike fails agree (.ok left, noted) (.ok right, other)
  | error {wrapped bare : CompileError} {noted other : Uses} (same : fails wrapped bare)
      (phrases : noted.phrases = other.phrases) :
      Alike fails agree (.error wrapped, noted) (.error bare, other)

/-- Two compilations end alike wherever they have noted the same phrases before. -/
def Splices {Left Right : Type} (fails : CompileError → CompileError → Prop)
    (agree : Left → Right → Prop) (original : CompileM Left) (replaced : CompileM Right) : Prop :=
  ∀ uses other : Uses, uses.phrases = other.phrases →
    Alike fails agree (original.after uses) (replaced.after other)

namespace Splices

variable {Left Right Left' Right' : Type} {fails : CompileError → CompileError → Prop}
  {agree : Left → Right → Prop} {agree' : Left' → Right' → Prop}

theorem pure {left : Left} {right : Right} (same : agree left right) :
    Splices fails agree (Pure.pure left) (Pure.pure right) :=
  fun _ _ phrases => .ok same phrases

theorem bind {original : CompileM Left} {replaced : CompileM Right} {next : Left → CompileM Left'}
    {nextReplaced : Right → CompileM Right'} (first : Splices fails agree original replaced)
    (second : ∀ left right, agree left right → Splices fails agree' (next left) (nextReplaced right)) :
    Splices fails agree' (original >>= next) (replaced >>= nextReplaced) := by
  intro uses other phrases
  rw [CompileM.after_bind, CompileM.after_bind]
  have both := first uses other phrases
  generalize original.after uses = ended at both ⊢
  generalize replaced.after other = endedReplaced at both ⊢
  cases both with
  | ok same phrases => exact second _ _ same _ _ phrases
  | error same phrases => exact .error same phrases

/-- A compilation that only adds notes does the same from both states. -/
theorem of_adds {compilation : CompileM Left} (adds : Adds compilation)
    (blamed : ∀ uses error noted, compilation.after uses = (.error error, noted) → fails error error) :
    Splices fails Eq compilation compilation := by
  intro uses other phrases
  rw [adds uses, adds other]
  have added : (uses.union (compilation.after Uses.none).2).phrases =
      (other.union (compilation.after Uses.none).2).phrases :=
    congrArg (· ∪ (compilation.after Uses.none).2.phrases) phrases
  cases outcome : (compilation.after Uses.none).1 with
  | ok result => exact .ok rfl added
  | error error => exact .error (blamed Uses.none error _ (Prod.ext outcome rfl)) added

/-- Of the original's result more may be known. -/
theorem with_yields {holds : Left → Prop} {original : CompileM Left} {replaced : CompileM Right}
    (splices : Splices fails agree original replaced) (yields : Yields holds original) :
    Splices fails (fun left right => agree left right ∧ holds left) original replaced := by
  intro uses other phrases
  have both := splices uses other phrases
  have held := yields uses
  generalize original.after uses = ended at both held ⊢
  generalize replaced.after other = endedReplaced at both ⊢
  cases both with
  | ok same phrases => exact .ok ⟨same, held _ _ rfl⟩ phrases
  | error same phrases => exact .error same phrases

/-- The original's result may be changed by itself. -/
theorem map_left {change : Left → Left'} {agreeChanged : Left' → Right → Prop}
    {original : CompileM Left} {replaced : CompileM Right}
    (splices : Splices fails agree original replaced)
    (changed : ∀ left right, agree left right → agreeChanged (change left) right) :
    Splices fails agreeChanged (original >>= fun left => Pure.pure (change left)) replaced := by
  intro uses other phrases
  rw [CompileM.after_bind]
  have both := splices uses other phrases
  generalize original.after uses = ended at both ⊢
  generalize replaced.after other = endedReplaced at both ⊢
  cases both with
  | ok same phrases => exact .ok (changed _ _ same) phrases
  | error same phrases => exact .error same phrases

/-- The original notes a template and wraps its errors. -/
theorem included {outer : CompileError → CompileError → Prop} {name : String} {original : CompileM Left}
    {replaced : CompileM Right} (splices : Splices fails agree original replaced)
    (wraps : ∀ wrapped bare, fails wrapped bare → outer (.included name wrapped) bare) :
    Splices outer agree (do
      noteInclude name
      ExceptT.adapt (.included name) original) replaced := by
  intro uses other phrases
  have noted : CompileM.after (noteInclude name) uses =
      (.ok (), { uses with includes := uses.includes.insert name }) := rfl
  rw [CompileM.after_bind, noted]
  dsimp only
  rw [CompileM.after_adapt]
  have both := splices { uses with includes := uses.includes.insert name } other phrases
  generalize original.after { uses with includes := uses.includes.insert name } = ended at both ⊢
  generalize replaced.after other = endedReplaced at both ⊢
  cases both with
  | ok same phrases => exact .ok same phrases
  | error same phrases => exact .error (wraps _ _ same) phrases

end Splices

/-! ## Flat code -/

/-- All generated code is flat, whatever templates do. -/
def flatLaw : CodeLaw where
  allows := fun _ => True
  holds := fun _ code => code.Flat
  admits := fun _ => True
  markup := True

theorem flat_escaped {mode : Escaping} {code : Code} (flat : code.Flat) : (code.escaped mode).Flat := by
  unfold Code.escaped
  split
  · exact Code.flat_text _
  · split
    · exact flat
    · exact Code.flat_of_parts rfl

theorem flatLaw_kept : flatLaw.Kept where
  text := fun _ content _ => Code.flat_text content
  concatenate := fun _ _ flat => Code.flat_concatenate flat
  conditional := fun _ _ _ _ _ _ => Code.flat_of_parts rfl
  each := fun _ _ _ _ _ _ => Code.flat_of_parts rfl
  reference := fun _ => Code.flat_of_parts rfl
  format := fun _ _ _ => Code.flat_of_parts rfl
  link := fun _ _ _ => Code.flat_of_parts rfl
  escaped := fun _ _ flat => flat_escaped flat
  forced := fun _ _ _ _ flat => flat_escaped flat
  admitted := fun _ _ => trivial
  number := fun _ _ => Code.flat_of_parts rfl
  arithmetic := fun _ _ => Code.flat_of_parts rfl
  checked := fun _ _ => trivial
  selected := fun _ _ => trivial
  pageNavigation := fun _ _ _ _ _ _ _ _ => Code.flat_of_parts rfl
  helper := fun _ _ _ _ => Code.flat_of_parts rfl
  inclusion := fun _ _ => Code.flat_of_parts rfl

theorem flatLaw_obeyed (segments : List Segment) : AllObey flatLaw segments := by
  intro segment _
  cases segment with
  | literal text span => exact fun _ _ => trivial
  | call name arguments named span => exact ⟨fun _ => trivial, fun _ => trivial, fun _ _ _ => trivial⟩
  | _ => trivial

theorem flatLaw_environment (environment : Environment) (context : Context) :
    EnvironmentObeys flatLaw environment context :=
  ⟨fun _ _ _ => flatLaw_obeyed _, fun _ _ _ _ _ => trivial⟩

/-- Whatever some segments compile to one by one is flat. -/
theorem compileEach_flat (environment : Environment) (context : Context) (stack : List String)
    (segments : List Segment) (escaping : Escaping) :
    Yields (fun codes => ∀ code ∈ codes, code.Flat)
      (compileEach escaping (pendingAll Registry.builtIn
        (fun name => environment.phrase name context.language)
        (includeTemplate environment Registry.builtIn context stack) segments)) := by
  have obeys := flatLaw_environment environment context
  exact compileEach_yields flatLaw_kept (pendingAll_obey flatLaw_kept obeys.phrases
    (includeTemplate_keeps flatLaw_kept obeys stack) segments (flatLaw_obeyed _)) escaping

/-! ## Segments side by side -/

theorem pendingAll_append {registry : Registry} {phrases : Phrases} {inclusion : Inclusion}
    (front behind : List Segment) :
    pendingAll registry phrases inclusion (front ++ behind) =
      pendingAll registry phrases inclusion front ++ pendingAll registry phrases inclusion behind := by
  induction front with
  | nil => rfl
  | cons segment rest inductionHypothesis =>
      rw [List.cons_append, pendingAll, pendingAll, inductionHypothesis, List.cons_append]

theorem compileEach_append (escaping : Escaping) (front behind : List Pending) :
    compileEach escaping (front ++ behind) = (do
      let codes ← compileEach escaping front
      let more ← compileEach escaping behind
      pure (codes ++ more)) := by
  induction front with
  | nil => simp [compileEach]
  | cons part rest inductionHypothesis => simp [compileEach, inductionHypothesis]

/-- Two lists of codes make up the same code. -/
def SameJoined (codes others : List Code) : Prop :=
  Code.joined codes = Code.joined others

theorem SameJoined.append {front behind frontOther behindOther : List Code}
    (first : SameJoined front frontOther) (second : SameJoined behind behindOther) :
    SameJoined (front ++ behind) (frontOther ++ behindOther) := by
  have parts : ∀ codes : List Code, ∀ rest, (codes.flatMap Code.parts).foldr Code.consPart rest =
      (Code.joined codes).foldr Code.consPart rest := fun codes rest => (Code.foldr_joined _ rest).symm
  rw [SameJoined, Code.joined_append, Code.joined_append, parts, parts, first, second]

theorem SameJoined.concatenate {codes others : List Code} (same : SameJoined codes others) :
    Code.concatenate codes = Code.concatenate others := by
  rw [Code.concatenate_eq, Code.concatenate_eq, same]

/--
A segment fails by itself: a call that does not compile, a choice with a condition that does not, or a
loop with a source that does not.
-/
inductive FailsItself (phrases : Phrases) (inclusion : Inclusion) (escaping : Escaping) :
    Segment → CompileError → Prop where
  | call {name : String} {arguments : List (ArgumentOf Segment)}
      {named : List (String × ArgumentOf Segment)} {span : Span} {uses noted : Uses}
      {error : CompileError}
      (failed : ((pending Registry.builtIn phrases inclusion
        (.call name arguments named span)).compile escaping).after uses = (.error error, noted)) :
      FailsItself phrases inclusion escaping (.call name arguments named span) error
  | choice {branches : List (BranchOf Segment)} {otherwise : Option (List Segment)} {span : Span}
      {branch : BranchOf Segment} {uses noted : Uses} {error : CompileError} (member : branch ∈ branches)
      (failed : (pendingArgument Registry.builtIn phrases inclusion branch.condition).condition.after
        uses = (.error error, noted)) :
      FailsItself phrases inclusion escaping (.choice branches otherwise span) error
  | loop {source : ArgumentOf Segment} {value : String} {key : Option String} {body : List Segment}
      {span : Span} {uses noted : Uses} {error : CompileError}
      (failed : ((pendingArgument Registry.builtIn phrases inclusion source).compile .raw).after uses =
        (.error error, noted)) :
      FailsItself phrases inclusion escaping (.loop source value key body span) error

/--
The bare error is that of a segment among those given or in a template that they include, and the wrapped
one names the templates on the way there, from the outside in.
-/
inductive FailsInside (environment : Environment) (style : Position) (phrases : Phrases)
    (inclusion : Inclusion) (escaping : Escaping) : List Segment → CompileError → CompileError → Prop where
  | here {segments : List Segment} {segment : Segment} {error : CompileError}
      (member : segment ∈ nestedAll .bodies segments)
      (fails : FailsItself phrases inclusion escaping segment error) :
      FailsInside environment style phrases inclusion escaping segments error error
  | included {segments : List Segment} {name : String} {span : Span} {template : Template}
      {wrapped bare : CompileError} (member : Segment.inclusion name span ∈ nestedAll .bodies segments)
      (found : environment.template name style = .ok (some template))
      (fails : FailsInside environment style phrases inclusion escaping template.segments wrapped bare) :
      FailsInside environment style phrases inclusion escaping segments (.included name wrapped) bare

/-- An environment compared with itself. -/
abbrev sameEnvironment (environment : Environment) (context : Context) : Comparison :=
  ⟨environment, environment, context.style, context.language⟩

/--
What is known of the two ways to compile some segments.  The failures of the `blamed` segments are failures
of the whole, and the two ways agree for every template that is mentioned.
-/
structure Setting (environment : Environment) (context : Context) (escaping : Escaping)
    (fails : CompileError → CompileError → Prop) (first second : Inclusion)
    (expansion : String → List Segment) (blamed whole : List Segment) : Prop where
  follows : InclusionFollows (sameEnvironment environment context) second second
  same : SameFor first second whole
  inclusions : ∀ name span, Segment.inclusion name span ∈ blamed →
    Segment.inclusion name span ∈ whole →
    Splices fails SameJoined (compileEach escaping [.deferred span (first name span)])
      (compileEach escaping (pendingAll Registry.builtIn
        (sameEnvironment environment context).firstPhrases second (expansion name)))
  itself : ∀ segment error, segment ∈ blamed →
    FailsItself (sameEnvironment environment context).firstPhrases second escaping segment error →
      fails error error

section Segments

variable {environment : Environment} {context : Context} {escaping : Escaping}
  {fails : CompileError → CompileError → Prop} {first second : Inclusion}
  {expansion : String → List Segment} {blamed whole : List Segment}

/-- Parts that compile alike are alike as lists of one. -/
theorem splices_single {part other : Pending}
    (splices : Splices fails Eq (part.compile escaping) (other.compile escaping)) :
    Splices fails SameJoined (compileEach escaping [part]) (compileEach escaping [other]) := by
  refine splices.bind fun code same equal => ?_
  subst equal
  have nothing : Splices fails Eq (pure [] : CompileM (List Code)) (pure []) := Splices.pure rfl
  refine nothing.bind fun more others equal => Splices.pure ?_
  rw [equal, SameJoined]

theorem splices_compileParts {parts others : List Pending}
    (splices : Splices fails SameJoined (compileEach escaping parts) (compileEach escaping others)) :
    Splices fails Eq (compileParts escaping parts) (compileParts escaping others) :=
  splices.bind fun _ _ same => Splices.pure same.concatenate

mutual

theorem segment_splices
    (setting : Setting environment context escaping fails first second expansion blamed whole) :
    ∀ segment : Segment, nested .bodies segment ⊆ blamed → nested .whole segment ⊆ whole →
      Splices fails SameJoined
        (compileEach escaping [pending Registry.builtIn
          (sameEnvironment environment context).firstPhrases first segment])
        (compileEach escaping (pendingAll Registry.builtIn
          (sameEnvironment environment context).firstPhrases second (expandSegment expansion segment)))
  | .literal text span, _, _ => splices_single (Splices.pure rfl)
  | .reference path span, _, _ => splices_single (Splices.pure rfl)
  | .call name arguments named span, member, inside => by
      rw [pending_congr (.call name arguments named span) (setting.same.of_subset inside)]
      have follows := pending_follows setting.follows (.call name arguments named span)
      apply splices_single
      apply Splices.of_adds (follows.compile escaping).adds
      intro uses error noted failed
      exact setting.itself _ error (member (mem_nested_self _ _)) (.call failed)
  | .choice branches otherwise span, member, inside => by
      have blames := (List.cons_subset.mp member).2
      have mentions := (List.cons_subset.mp inside).2
      apply splices_single
      apply branches_splices setting branches (List.append_subset.mp blames).1
        (List.append_subset.mp mentions).1
      · exact otherwise_splices setting otherwise (List.append_subset.mp blames).2
          (List.append_subset.mp mentions).2
      · intro branch isBranch uses error noted failed
        exact setting.itself _ error (member (mem_nested_self _ _)) (.choice isBranch failed)
  | .loop source value key body span, member, inside => by
      have blames := (List.append_subset.mp (List.cons_subset.mp member).2).2
      have mentions := List.append_subset.mp (List.cons_subset.mp inside).2
      have follows := (pendingArgument_follows setting.follows source).compile .raw
      have sourceSplices : Splices fails Eq
          ((pendingArgument Registry.builtIn (sameEnvironment environment context).firstPhrases first
            source).compile .raw)
          ((pendingArgument Registry.builtIn (sameEnvironment environment context).firstPhrases second
            source).compile .raw) := by
        rw [pendingArgument_congr source (setting.same.of_subset mentions.1)]
        apply Splices.of_adds follows.adds
        intro uses error noted failed
        exact setting.itself _ error (member (mem_nested_self _ _)) (.loop failed)
      apply splices_single
      refine sourceSplices.bind fun sourceCode other equal => ?_
      subst equal
      refine (splices_compileParts (all_splices setting body blames mentions.2)).bind ?_
      intro bodyCode other equal
      exact Splices.pure (congrArg (Code.each sourceCode key value) equal)
  | .inclusion name span, member, inside =>
      setting.inclusions name span (member (mem_nested_self _ _)) (inside (mem_nested_self _ _))

theorem all_splices
    (setting : Setting environment context escaping fails first second expansion blamed whole) :
    ∀ segments : List Segment, nestedAll .bodies segments ⊆ blamed →
      nestedAll .whole segments ⊆ whole → Splices fails SameJoined
        (compileEach escaping (pendingAll Registry.builtIn
          (sameEnvironment environment context).firstPhrases first segments))
        (compileEach escaping (pendingAll Registry.builtIn
          (sameEnvironment environment context).firstPhrases second (expandAll expansion segments)))
  | [], _, _ => Splices.pure rfl
  | segment :: rest, member, inside => by
      have blames := List.append_subset.mp member
      have mentions := List.append_subset.mp inside
      rw [pendingAll, expandAll, pendingAll_append, compileEach_append, ← List.singleton_append,
        compileEach_append]
      refine (segment_splices setting segment blames.1 mentions.1).bind fun codes others front => ?_
      refine (all_splices setting rest blames.2 mentions.2).bind fun more moreOthers behind => ?_
      exact Splices.pure (front.append behind)

theorem branches_splices
    (setting : Setting environment context escaping fails first second expansion blamed whole) :
    ∀ (branches : List (BranchOf Segment)) {otherwise replaced : Option (List Pending)},
      nestedBranches .bodies branches ⊆ blamed → nestedBranches .whole branches ⊆ whole →
      Splices fails Eq (compileChoice escaping otherwise []) (compileChoice escaping replaced []) →
      (∀ branch ∈ branches, ∀ uses error noted, (pendingArgument Registry.builtIn
        (sameEnvironment environment context).firstPhrases second branch.condition).condition.after
          uses = (.error error, noted) → fails error error) →
      Splices fails Eq
        (compileChoice escaping otherwise (pendingBranches Registry.builtIn
          (sameEnvironment environment context).firstPhrases first branches))
        (compileChoice escaping replaced (pendingBranches Registry.builtIn
          (sameEnvironment environment context).firstPhrases second
          (expandBranches expansion branches)))
  | [], _, _, _, _, last, _ => last
  | ⟨condition, body, span⟩ :: rest, _, _, member, inside, last, blames => by
      rw [List.forall_mem_cons] at blames
      have inBodies := List.append_subset.mp (List.append_subset.mp member).2
      have mentions := List.append_subset.mp inside
      have inWhole := List.append_subset.mp mentions.2
      have follows := (pendingArgument_follows setting.follows condition).condition
      have conditionSplices : Splices fails Eq
          (pendingArgument Registry.builtIn (sameEnvironment environment context).firstPhrases first
            condition).condition
          (pendingArgument Registry.builtIn (sameEnvironment environment context).firstPhrases second
            condition).condition := by
        rw [pendingArgument_congr condition (setting.same.of_subset mentions.1)]
        exact Splices.of_adds follows.adds blames.1
      refine conditionSplices.bind fun test other equal => ?_
      subst equal
      refine (splices_compileParts (all_splices setting body inBodies.1 inWhole.1)).bind ?_
      intro bodyCode other equal
      subst equal
      refine (branches_splices setting rest inBodies.2 inWhole.2 last blames.2).bind ?_
      intro remaining other equal
      exact Splices.pure (congrArg (Code.conditional test bodyCode) equal)

theorem otherwise_splices
    (setting : Setting environment context escaping fails first second expansion blamed whole) :
    ∀ otherwise : Option (List Segment), nestedOtherwise .bodies otherwise ⊆ blamed →
      nestedOtherwise .whole otherwise ⊆ whole → Splices fails Eq
        (compileChoice escaping (pendingOtherwise Registry.builtIn
          (sameEnvironment environment context).firstPhrases first otherwise) [])
        (compileChoice escaping (pendingOtherwise Registry.builtIn
          (sameEnvironment environment context).firstPhrases second
          (expandOtherwise expansion otherwise)) [])
  | none, _, _ => Splices.pure rfl
  | some body, member, inside => splices_compileParts (all_splices setting body member inside)

end

end Segments

/-! ## Templates side by side -/

section Templates

variable {environment : Environment} {context : Context} {stack base : List String}
  {segments : List Segment}

/-- The failures of some segments, with the templates of `base` being compiled. -/
abbrev FailsUnder (environment : Environment) (context : Context) (base : List String)
    (escaping : Escaping) : List Segment → CompileError → CompileError → Prop :=
  FailsInside environment context.style (sameEnvironment environment context).firstPhrases
    (includeTemplate environment Registry.builtIn context base) escaping

/-- An inclusion compiles to what its expansion compiles to; in the expansion, what stands in arguments is
compiled as if only `base` were being compiled. -/
theorem inclusion_splices (expands : context.expandsIncludes = true) (escaping : Escaping)
    (grounded : Grounded environment context.style stack segments)
    (groundedBase : Grounded environment context.style base segments) {name : String} {span : Span}
    (member : Segment.inclusion name span ∈ nestedAll .bodies segments) (mentions : Mentions segments name) :
    Splices (FailsUnder environment context base escaping segments) SameJoined
      (compileEach escaping
        [.deferred span (includeTemplate environment Registry.builtIn context stack name span)])
      (compileEach escaping (pendingAll Registry.builtIn
        (sameEnvironment environment context).firstPhrases
        (includeTemplate environment Registry.builtIn context base)
        (expansionOf environment context.style stack name))) := by
  induction stack using stack_induction environment context.style generalizing segments name span with
  | step stack inductionHypothesis =>
      rcases grounded.included mentions with ⟨template, found, fresh, inner⟩
      rcases groundedBase.included mentions with ⟨_, again, _, innerBase⟩
      rw [found, Except.ok.injEq, Option.some.injEq] at again
      subst again
      have setting : Setting environment context escaping
          (FailsUnder environment context base escaping template.segments)
          (includeTemplate environment Registry.builtIn context (stack ++ [name]))
          (includeTemplate environment Registry.builtIn context base)
          (expansionOf environment context.style (stack ++ [name]))
          (nestedAll .bodies template.segments) (nestedAll .whole template.segments) := by
        refine ⟨includeTemplate_follows environment context base environment, ?_, ?_, ?_⟩
        · rintro segment mentioned other otherSpan rfl
          exact includeTemplate_congr environment Registry.builtIn context inner innerBase.of_append
            ⟨otherSpan, mentioned⟩
        · intro other otherSpan inBodies mentioned
          exact inductionHypothesis name template found fresh inner innerBase.of_append inBodies
            ⟨otherSpan, mentioned⟩
        · exact fun segment error inBodies fails => .here inBodies fails
      have inside := all_splices setting template.segments (List.Subset.refl _) (List.Subset.refl _)
      have flat := compileEach_flat environment context (stack ++ [name]) template.segments escaping
      have whole : Splices (FailsUnder environment context base escaping template.segments)
          (fun code others => SameJoined [code] others)
          (compileSegments Registry.builtIn (sameEnvironment environment context).firstPhrases
            (includeTemplate environment Registry.builtIn context (stack ++ [name])) escaping
            template.segments)
          (compileEach escaping (pendingAll Registry.builtIn
            (sameEnvironment environment context).firstPhrases
            (includeTemplate environment Registry.builtIn context base)
            (expandAll (expansionOf environment context.style (stack ++ [name]))
              template.segments))) := by
        refine (inside.with_yields flat).map_left fun codes others same => ?_
        have apart := Code.joined_concatenate_append same.2 []
        rw [List.append_nil] at apart
        exact apart.trans same.1
      have wraps : ∀ wrapped bare,
          FailsUnder environment context base escaping template.segments wrapped bare →
          FailsUnder environment context base escaping segments (.included name wrapped) bare :=
        fun wrapped bare fails => .included member found fails
      have noted := whole.included wraps
      rw [expansionOf_eq fresh found]
      have compiled : compileEach escaping
          [.deferred span (includeTemplate environment Registry.builtIn context stack name span)] = (do
            let code ← includeTemplate environment Registry.builtIn context stack name span escaping
            pure [code]) := rfl
      rw [compiled, includeTemplate_eq, fresh, found]
      simp only [Bool.false_eq_true, if_false, includeFound, expands, if_true]
      exact noted.map_left fun code others same => same

/-- A template and its expanded tree, side by side. -/
theorem expanded_splices (expands : context.expandsIncludes = true) (escaping : Escaping) (name : String)
    (template : Template) (grounded : Grounded environment context.style [name] template.segments) :
    Splices (FailsUnder environment context [name] escaping template.segments) Eq
      (compileSegments Registry.builtIn (sameEnvironment environment context).firstPhrases
        (includeTemplate environment Registry.builtIn context [name]) escaping template.segments)
      (compileSegments Registry.builtIn (sameEnvironment environment context).firstPhrases
        (includeTemplate environment Registry.builtIn context [name]) escaping
        (expanded environment context.style name template).segments) := by
  have setting : Setting environment context escaping
      (FailsUnder environment context [name] escaping template.segments)
      (includeTemplate environment Registry.builtIn context [name])
      (includeTemplate environment Registry.builtIn context [name])
      (expansionOf environment context.style [name])
      (nestedAll .bodies template.segments) (nestedAll .whole template.segments) := by
    refine ⟨includeTemplate_follows environment context [name] environment, fun _ _ _ _ _ => rfl, ?_, ?_⟩
    · intro other span inBodies mentioned
      exact inclusion_splices expands escaping grounded grounded inBodies ⟨span, mentioned⟩
    · exact fun segment error inBodies fails => .here inBodies fails
  exact splices_compileParts
    (all_splices setting template.segments (List.Subset.refl _) (List.Subset.refl _))

end Templates

/-- Whole compilations that end alike. -/
theorem outcome_of_alike {fails : CompileError → CompileError → Prop} {original replaced : CompileM Code}
    (alike : Alike fails Eq (original.after Uses.none) (replaced.after Uses.none)) :
    match replaced.outcome with
    | .ok result => ∃ compiled, original.outcome = .ok compiled ∧ compiled.code = result.code ∧
        compiled.uses.phrases = result.uses.phrases
    | .error bare => ∃ failure, original.outcome = .error failure ∧ fails failure.error bare.error := by
  unfold CompileM.outcome
  unfold CompileM.after at alike
  generalize original.run.run Uses.none = ended at alike ⊢
  generalize replaced.run.run Uses.none = endedReplaced at alike ⊢
  cases alike with
  | ok same phrases => exact ⟨_, rfl, same, phrases⟩
  | error same phrases => exact ⟨_, rfl, same⟩

/--
A template compiles to the code that its expanded tree compiles to, with the same phrases.  Where the
expanded tree fails the template fails too, and its error is the same but for the names of the templates
on the way to the segment that fails.
-/
theorem compileTemplate_expanded (environment : Environment) (context : Context) (name : String)
    (template : Template) (expands : context.expandsIncludes = true)
    (grounded : Grounded environment context.style [name] template.segments) :
    match compileTemplate environment Registry.builtIn context name
        (expanded environment context.style name template) with
    | .ok replaced => ∃ compiled,
        compileTemplate environment Registry.builtIn context name template = .ok compiled ∧
          compiled.code = replaced.code ∧ compiled.uses.phrases = replaced.uses.phrases
    | .error bare => ∃ failure,
        compileTemplate environment Registry.builtIn context name template = .error failure ∧
          FailsUnder environment context [name] .html template.segments failure.error bare.error := by
  exact outcome_of_alike (expanded_splices expands .html name template grounded _ _ rfl)

/-! ## A menu -/

/-- The entries of a menu, each of them by a template of its own. -/
def menuTemplate : Template :=
  ⟨[.loop ⟨[.reference ["items"] default], default, false⟩ "item" none
    [.inclusion "entry" default, .literal "; " default] default]⟩

def entryTemplate : Template :=
  ⟨[.literal "- " default, .reference ["item"] default]⟩

def menuSite : Environment where
  template name _ :=
    .ok (if name = "menu" then some menuTemplate else if name = "entry" then some entryTemplate else none)
  phrase _ _ := none
  names := ["menu", "entry"]
  mem_names := by
    intro name _ present
    by_cases isMenu : name = "menu"
    · simp [isMenu]
    · by_cases isEntry : name = "entry"
      · simp [isEntry]
      · simp [isMenu, isEntry] at present

/-- A page with a menu. -/
def menuPage : Template :=
  ⟨[.literal "Menu: " default, .inclusion "menu" default]⟩

/-- The page with the menu and its entries in place. -/
def expandedMenuPage : Template :=
  ⟨[.literal "Menu: " default, .loop ⟨[.reference ["items"] default], default, false⟩ "item" none
    [.literal "- " default, .reference ["item"] default, .literal "; " default] default]⟩

theorem not_mentions_entryTemplate {name : String} : ¬ Mentions entryTemplate.segments name := by
  rintro ⟨span, member⟩
  simp [entryTemplate, nestedAll, nested] at member

theorem mentions_menuTemplate {name : String} (mentions : Mentions menuTemplate.segments name) :
    name = "entry" := by
  rcases mentions with ⟨span, member⟩
  have same : name = "entry" ∧ span = default := by
    simpa [menuTemplate, nestedAll, nested, Markup.Extent.entersTests, Markup.nestedArgument] using member
  exact same.1

theorem mentions_menuPage {name : String} (mentions : Mentions menuPage.segments name) : name = "menu" := by
  rcases mentions with ⟨span, member⟩
  have same : name = "menu" ∧ span = default := by
    simpa [menuPage, nestedAll, nested] using member
  exact same.1

theorem not_reaches_entryTemplate {name : String} :
    ¬ Reaches menuSite 0 entryTemplate.segments name := by
  rintro (mentions | ⟨mentions, _, _⟩)
  · exact not_mentions_entryTemplate mentions
  · exact not_mentions_entryTemplate mentions

theorem reaches_menuTemplate {name : String} (reaches : Reaches menuSite 0 menuTemplate.segments name) :
    name = "entry" := by
  rcases reaches with mentions | ⟨mentions, found, reaches⟩
  · exact mentions_menuTemplate mentions
  · cases mentions_menuTemplate mentions
    cases found
    exact absurd reaches not_reaches_entryTemplate

theorem reaches_menuPage {name : String} (reaches : Reaches menuSite 0 menuPage.segments name) :
    name = "menu" ∨ name = "entry" := by
  rcases reaches with mentions | ⟨mentions, found, reaches⟩
  · exact Or.inl (mentions_menuPage mentions)
  · cases mentions_menuPage mentions
    cases found
    exact Or.inr (reaches_menuTemplate reaches)

theorem grounded_menuPage : Grounded menuSite 0 ["page"] menuPage.segments where
  resolves := by
    intro name reaches
    rcases reaches_menuPage reaches with rfl | rfl
    · exact ⟨menuTemplate, rfl⟩
    · exact ⟨entryTemplate, rfl⟩
  acyclic := by
    intro name template reaches found again
    rcases reaches_menuPage reaches with rfl | rfl
    · cases found
      exact absurd (reaches_menuTemplate again) (by decide)
    · cases found
      exact not_reaches_entryTemplate again
  fresh := by
    intro name member reaches
    rw [List.mem_singleton] at member
    subst member
    exact absurd (reaches_menuPage reaches) (by decide)

theorem expanded_menuPage : expanded menuSite 0 "page" menuPage = expandedMenuPage := by
  have freshEntry : ["page", "menu"].contains "entry" = false := by decide
  have freshMenu : ["page"].contains "menu" = false := by decide
  have entryFound : menuSite.template "entry" 0 = .ok (some entryTemplate) := rfl
  have entry : expansionOf menuSite 0 ["page", "menu"] "entry" = entryTemplate.segments :=
    expansionOf_eq freshEntry entryFound
  have menu : expansionOf menuSite 0 ["page"] "menu" =
      expandAll (expansionOf menuSite 0 ["page", "menu"]) menuTemplate.segments :=
    expansionOf_eq freshMenu rfl
  simp only [expanded, menuPage, expandAll, expandSegment, menu, menuTemplate, entry]
  rfl

/-- The page compiles to the code that it would compile to with the menu and its entries in place. -/
theorem compileTemplate_menuPage : ∃ compiled replaced,
    compileTemplate menuSite Registry.builtIn ⟨0, 0, true⟩ "page" menuPage = .ok compiled ∧
    compileTemplate menuSite Registry.builtIn ⟨0, 0, true⟩ "page" expandedMenuPage = .ok replaced ∧
    compiled.code = replaced.code := by
  have both := compileTemplate_expanded menuSite ⟨0, 0, true⟩ "page" menuPage rfl grounded_menuPage
  rw [expanded_menuPage] at both
  rcases compiled : compileTemplate menuSite Registry.builtIn ⟨0, 0, true⟩ "page" expandedMenuPage with
    failure | replaced
  · cases compiled
  · rw [compiled] at both
    rcases both with ⟨result, succeeded, same, _⟩
    exact ⟨result, replaced, succeeded, rfl, same⟩

end Compile
end TemplateCascade
