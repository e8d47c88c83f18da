import TemplateCascade.Proofs.Compile.Stepwise
import TemplateCascade.Proofs.Markup.Placement

namespace TemplateCascade
namespace Compile

/-!
# Cycles of inclusions

A compilation keeps the names of the templates that it is in, and refuses to include one of them.  So it
ends: the plain recursion, which just compiles what is included, is cut off no deeper than there are names.

What it refuses are the cycles and nothing else.  A chain that is reported as circular is a way through
the inclusions that comes back to a template on it, and a template compiles only if there is no such way at
all.  It has then noted the names that can be reached from it, each of them and no others.
-/

open Markup (BranchOf ParseErrors Segment Template bodyInclusions branchInclusions
  mem_includeNames_of_parse nestedAll otherwiseInclusions)
open Text (Escaping Span)

/-! ## Ways through inclusions -/

/-- A way from a template down through inclusions: the names on it, and the template that it comes to. -/
inductive Leads (environment : Environment) (style : Position) (template : Template) :
    List String → Template → Prop where
  | here : Leads environment style template [] template
  | down {names : List String} {current inner : Template} {name : String}
      (way : Leads environment style template names current) (included : name ∈ current.includeNames)
      (found : environment.template name style = .ok (some inner)) :
      Leads environment style template (names ++ [name]) inner

/-- Some way from a template comes to one that includes a name. -/
def Reachable (environment : Environment) (style : Position) (template : Template) (name : String) : Prop :=
  ∃ names current, Leads environment style template names current ∧ name ∈ current.includeNames

/-- No way from a template, which has a name itself, comes back to a template on it. -/
structure Acyclic (environment : Environment) (style : Position) (root : String) (template : Template) :
    Prop where
  root : ¬ Reachable environment style template root
  inner : ∀ name inner, Reachable environment style template name →
    environment.template name style = .ok (some inner) → ¬ Reachable environment style inner name

/-- The names on a way from the root down, with the root in front, and behind them one that the last
template includes and that is among them already. -/
def Returns (environment : Environment) (style : Position) (root : String) (template : Template)
    (chain : List String) : Prop :=
  ∃ names current last, Leads environment style template names current ∧ last ∈ current.includeNames ∧
    chain = root :: names ++ [last] ∧ last ∈ root :: names

/-- All templates at a style are what some source parses to.  A tree that is put together otherwise could
hold inclusions in arguments, and these are not among the names that it includes. -/
def Environment.Parsed (environment : Environment) (style : Position) : Prop :=
  ∀ name template, environment.template name style = .ok (some template) →
    ∃ source, Markup.parse source = .ok template

section Ways

variable {environment : Environment} {style : Position} {template : Template}

/-- A way that goes on where another one ends. -/
theorem Leads.append {names more : List String} {current last : Template}
    (way : Leads environment style template names current)
    (goesOn : Leads environment style current more last) :
    Leads environment style template (names ++ more) last := by
  induction goesOn with
  | here => rwa [List.append_nil]
  | down _ included found inductionHypothesis =>
      rw [← List.append_assoc]
      exact inductionHypothesis.down included found

/-- A way through a name leads to the template that has it, and from there on. -/
theorem Leads.through {names : List String} {last : Template}
    (way : Leads environment style template names last) {front behind : List String} {name : String}
    (parts : names = front ++ name :: behind) :
    Reachable environment style template name ∧ ∃ inner, environment.template name style = .ok (some inner) ∧
      Leads environment style inner behind last := by
  induction way generalizing behind with
  | here => simp at parts
  | @down names current inner other way included found inductionHypothesis =>
      rcases List.eq_nil_or_concat behind with rfl | ⟨between, final, rfl⟩
      · rcases List.append_inj' parts rfl with ⟨rfl, same⟩
        cases same
        exact ⟨⟨names, current, way, included⟩, inner, found, .here⟩
      · rw [List.concat_eq_append, ← List.cons_append, ← List.append_assoc] at parts
        rcases List.append_inj' parts rfl with ⟨before, same⟩
        cases same
        rcases inductionHypothesis before with ⟨reachable, first, isFirst, goesOn⟩
        rw [List.concat_eq_append]
        exact ⟨reachable, first, isFirst, goesOn.down included found⟩

/-- A chain that returns goes through a cycle. -/
theorem Returns.not_acyclic {root : String} {chain : List String}
    (returns : Returns environment style root template chain) :
    ¬ Acyclic environment style root template := by
  rcases returns with ⟨names, current, last, way, included, _, again⟩
  intro acyclic
  rcases List.mem_cons.mp again with rfl | member
  · exact acyclic.root ⟨names, current, way, included⟩
  · rcases List.append_of_mem member with ⟨front, behind, parts⟩
    rcases way.through parts with ⟨reachable, inner, found, goesOn⟩
    exact acyclic.inner last inner reachable found ⟨behind, current, goesOn, included⟩

end Ways

/-! ## What is noted and what is refused -/

/-- Which templates a compilation may note, and which chains it may report as circular. -/
structure Bounds where
  notes : String → Prop
  reports : List String → Prop

/-- A compilation that keeps to its bounds. -/
structure Confined (bounds : Bounds) (Result : Type) (compilation : CompileM Result) : Prop where
  notes : ∀ uses, ∀ name ∈ (compilation.after uses).2.includes, name ∈ uses.includes ∨ bounds.notes name
  reports : ∀ uses error name chain, (compilation.after uses).1 = .error error →
    error.innermost.1 = .circularInclude name chain → bounds.reports chain

namespace Confined

variable {bounds : Bounds} {Result Other : Type}

theorem pure (result : Result) : Confined bounds Result (Pure.pure result) where
  notes := fun _ _ member => .inl member
  reports := nofun

theorem throw {error : CompileError}
    (permitted : ∀ name chain, error.innermost.1 = .circularInclude name chain → bounds.reports chain) :
    Confined bounds Result (MonadExcept.throw error) where
  notes := fun _ _ member => .inl member
  reports := by
    rintro _ _ name chain ⟨⟩ circular
    exact permitted name chain circular

theorem bind {compilation : CompileM Result} {next : Result → CompileM Other}
    (first : Confined bounds Result compilation) (second : ∀ result, Confined bounds Other (next result)) :
    Confined bounds Other (compilation >>= next) where
  notes := by
    intro uses name member
    rw [CompileM.after_bind] at member
    rcases ran : compilation.after uses with ⟨error | result, noted⟩
    · rw [ran] at member
      exact first.notes uses name (ran ▸ member)
    · rw [ran] at member
      rcases (second result).notes noted name member with early | permitted
      · exact first.notes uses name (ran ▸ early)
      · exact .inr permitted
  reports := by
    intro uses error name chain failed circular
    rw [CompileM.after_bind] at failed
    rcases ran : compilation.after uses with ⟨failure | result, noted⟩
    · rw [ran] at failed
      have failed : failure = error := Except.error.inj failed
      exact first.reports uses error name chain (by rw [ran, failed]) circular
    · rw [ran] at failed
      exact (second result).reports noted error name chain failed circular

theorem notePhrase (name : String) : Confined bounds Unit (Compile.notePhrase name) where
  notes := fun _ _ member => .inl member
  reports := nofun

theorem noteInclude {name : String} (permitted : bounds.notes name) :
    Confined bounds Unit (Compile.noteInclude name) where
  notes := by
    intro uses other member
    have member : other ∈ uses.includes.insert name := member
    rw [Std.ExtTreeSet.mem_insert, Std.compare_eq_iff_eq] at member
    rcases member with rfl | member
    · exact .inr permitted
    · exact .inl member
  reports := nofun

/-- An error in an included template is about the same cause. -/
theorem adapt {compilation : CompileM Result} (confined : Confined bounds Result compilation)
    (template : String) : Confined bounds Result (ExceptT.adapt (.included template) compilation) where
  notes := confined.notes
  reports := by
    intro uses error name chain failed circular
    rw [CompileM.after_adapt] at failed
    rcases ran : (compilation.after uses).1 with failure | result
    · rw [ran] at failed
      cases failed
      exact confined.reports uses failure name chain ran circular
    · rw [ran] at failed
      cases failed

end Confined

theorem confined_stepwise (bounds : Bounds) : Stepwise (Confined bounds) where
  pure := Confined.pure
  failAt := fun _ _ other => Confined.throw fun name chain circular => absurd circular (other name chain)
  notePhrase := Confined.notePhrase
  bind := Confined.bind

/-- What can be reached from a template, and the ways from it that come back to a template on them. -/
def boundsFrom (environment : Environment) (style : Position) (root : String) (template : Template) :
    Bounds where
  notes := Reachable environment style template
  reports := Returns environment style root template

theorem includeTemplate_confined (environment : Environment) (context : Context)
    (full : context.expandsIncludes = true) (parsed : environment.Parsed context.style) {root : String}
    {template current : Template} {names : List String}
    (way : Leads environment context.style template names current) {name : String}
    (included : name ∈ current.includeNames) (span : Span) (escaping : Escaping) :
    Confined (boundsFrom environment context.style root template) Code
      (includeTemplate environment Registry.builtIn context (root :: names) name span escaping) := by
  generalize isStack : root :: names = stack
  induction stack using stack_induction environment context.style
      generalizing names current name span escaping with
  | step stack inductionHypothesis =>
      subst isStack
      rw [includeTemplate_eq]
      split
      · next visited =>
          refine Confined.throw ?_
          rintro _ _ ⟨⟩
          exact ⟨names, current, name, way, included, rfl, List.contains_iff_mem.mp visited⟩
      · next visited =>
          have reachable : Reachable environment context.style template name :=
            ⟨names, current, way, included⟩
          refine Confined.bind (Confined.noteInclude reachable) fun _ => ?_
          cases answer : environment.template name context.style with
          | error errors =>
              simp only [includeFound, full, if_true]
              exact Confined.throw (by simp [CompileError.innermost, CompileError.ofParseErrors])
          | ok present =>
              cases present with
              | none => exact Confined.throw (by simp [CompileError.innermost])
              | some inner =>
                  simp only [includeFound, full, if_true]
                  rcases parsed name inner answer with ⟨source, isParsed⟩
                  refine (compileSegments_has (confined_stepwise _) ?_ escaping).adapt name
                  rintro _ member other place rfl otherEscaping
                  exact inductionHypothesis name inner answer (Bool.eq_false_iff.mpr visited)
                    (way.down included answer) (mem_includeNames_of_parse isParsed member) place
                    otherEscaping rfl

/-! ## What succeeded on the way -/

theorem adds_stepwise : Stepwise @Adds where
  pure := Adds.pure
  failAt := fun _ _ _ => Adds.throw _
  notePhrase := Adds.notePhrase
  bind := Adds.bind

/-- A compilation succeeded on the way to some notes. -/
def SucceededBefore (noted : Uses) {Result : Type} (compilation : CompileM Result) : Prop :=
  ∃ uses result between, compilation.after uses = (.ok result, between) ∧ between.Within noted

namespace SucceededBefore

variable {noted : Uses} {Result Other : Type}

theorem first {compilation : CompileM Result} {next : Result → CompileM Other}
    (succeeded : SucceededBefore noted (compilation >>= next)) (adds : ∀ result, Adds (next result)) :
    SucceededBefore noted compilation := by
  rcases succeeded with ⟨uses, result, last, ran, within⟩
  rcases CompileM.exists_of_after_bind ran with ⟨found, between, ran, goesOn⟩
  have grows := (adds found).grows between
  rw [goesOn] at grows
  exact ⟨uses, found, between, ran, grows.trans within⟩

theorem second {compilation : CompileM Result} {next : Result → CompileM Other}
    (succeeded : SucceededBefore noted (compilation >>= next)) :
    ∃ result, SucceededBefore noted (next result) := by
  rcases succeeded with ⟨uses, result, last, ran, within⟩
  rcases CompileM.exists_of_after_bind ran with ⟨found, between, _, goesOn⟩
  exact ⟨found, between, result, last, goesOn, within⟩

theorem of_adapt {compilation : CompileM Result} {wrap : CompileError → CompileError}
    (succeeded : SucceededBefore noted (ExceptT.adapt wrap compilation)) :
    SucceededBefore noted compilation := by
  rcases succeeded with ⟨uses, result, last, ran, within⟩
  rw [CompileM.after_adapt, Prod.mk.injEq] at ran
  rcases outcome : compilation.after uses with ⟨error | found, between⟩
  · rw [outcome] at ran
    cases ran.1
  · rw [outcome] at ran
    have same : between = last := ran.2
    exact ⟨uses, found, between, outcome, same ▸ within⟩

theorem not_throw {error : CompileError} :
    ¬ SucceededBefore noted (throw error : CompileM Result) := by
  rintro ⟨_, _, _, ran, _⟩
  cases ran

theorem mem_of_noteInclude {name : String} (succeeded : SucceededBefore noted (noteInclude name)) :
    name ∈ noted.includes := by
  rcases succeeded with ⟨uses, result, between, ran, within⟩
  cases ran
  exact within.1 name Std.ExtTreeSet.mem_insert_self

/-! ### Parts -/

variable {escaping : Escaping}

theorem of_compileEach {parts : List Pending} (adds : ∀ part ∈ parts, PartHas @Adds part)
    (succeeded : SucceededBefore noted (compileEach escaping parts)) :
    ∀ part ∈ parts, SucceededBefore noted (part.compile escaping) := by
  induction parts with
  | nil => exact nofun
  | cons part rest inductionHypothesis =>
      have adds := List.forall_mem_cons.mp adds
      rcases succeeded.second with ⟨code, others⟩
      refine List.forall_mem_cons.mpr ⟨succeeded.first fun code => ?_, ?_⟩
      · exact (adds_stepwise.compileEach adds.2 escaping).bind fun codes => Adds.pure _
      · exact inductionHypothesis adds.2 (others.first fun codes => Adds.pure _)

theorem of_compileParts {parts : List Pending} (adds : ∀ part ∈ parts, PartHas @Adds part)
    (succeeded : SucceededBefore noted (compileParts escaping parts)) :
    ∀ part ∈ parts, SucceededBefore noted (part.compile escaping) :=
  of_compileEach adds (succeeded.first fun _ => Adds.pure _)

/-- All bodies of a choice are compiled, whichever is taken when it is rendered. -/
theorem of_compileChoice {branches : List (BranchOf Pending)} {otherwise : Option (List Pending)}
    (adds : BranchesHave @Adds (ArgumentHas @Adds) branches)
    (last : ∀ body, otherwise = some body → ∀ part ∈ body, PartHas @Adds part)
    (succeeded : SucceededBefore noted (compileChoice escaping otherwise branches)) :
    (∀ branch ∈ branches, ∀ part ∈ branch.body, SucceededBefore noted (part.compile escaping)) ∧
      ∀ body, otherwise = some body → ∀ part ∈ body, SucceededBefore noted (part.compile escaping) := by
  induction branches with
  | nil =>
      refine ⟨nofun, ?_⟩
      rintro body rfl
      exact of_compileParts (last body rfl) succeeded
  | cons branch rest inductionHypothesis =>
      have adds := List.forall_mem_cons.mp adds
      rcases succeeded.second with ⟨test, succeeded⟩
      rcases succeeded.second with ⟨body, others⟩
      have bodies := inductionHypothesis adds.2 (others.first fun remaining => Adds.pure _)
      refine ⟨List.forall_mem_cons.mpr ⟨of_compileParts adds.1.2 (succeeded.first fun body => ?_), bodies.1⟩,
        bodies.2⟩
      exact (adds_stepwise.composed.compileChoice adds.2 last escaping).bind fun remaining => Adds.pure _

end SucceededBefore

section Bodies

variable {noted : Uses} {phrases : Phrases} {inclusion : Inclusion}

/-- Whatever an inclusion compiles to takes no note back. -/
def InclusionAdds (inclusion : Inclusion) : Prop :=
  ∀ name span escaping, Adds (inclusion name span escaping)

theorem InclusionAdds.all (adds : InclusionAdds inclusion) (segments : List Segment) :
    InclusionsHave @Adds inclusion segments :=
  fun _ _ name span _ => adds name span

mutual

/-- Where a segment was compiled, all inclusions in its bodies were. -/
theorem pending_succeeded (adds : InclusionAdds inclusion) {escaping : Escaping} :
    ∀ segment : Segment,
      SucceededBefore noted ((pending Registry.builtIn phrases inclusion segment).compile escaping) →
        ∀ name ∈ segment.inclusions, ∃ span inner, SucceededBefore noted (inclusion name span inner)
  | .literal _ _, _ => nofun
  | .reference _ _, _ => nofun
  | .call _ _ _ _, _ => nofun
  | .choice branches otherwise _, succeeded => by
      have bodies := SucceededBefore.of_compileChoice
        (pendingBranches_have adds_stepwise branches (adds.all _))
        (pendingOtherwise_has adds_stepwise otherwise (adds.all _)) succeeded
      intro name member
      rcases List.mem_append.mp member with inBranches | inOtherwise
      · exact pendingBranches_succeeded adds branches bodies.1 name inBranches
      · exact pendingOtherwise_succeeded adds otherwise bodies.2 name inOtherwise
  | .loop _ _ _ body _, succeeded => by
      rcases succeeded.second with ⟨source, succeeded⟩
      have inside := succeeded.first fun code => Adds.pure _
      exact pendingAll_succeeded adds body
        (SucceededBefore.of_compileParts (pendingAll_have adds_stepwise body (adds.all _)) inside)
  | .inclusion name span, succeeded => by
      intro other member
      rw [Segment.inclusions, List.mem_singleton] at member
      exact member ▸ ⟨span, escaping, succeeded⟩

theorem pendingAll_succeeded (adds : InclusionAdds inclusion) {escaping : Escaping} :
    ∀ segments : List Segment,
      (∀ part ∈ pendingAll Registry.builtIn phrases inclusion segments,
        SucceededBefore noted (part.compile escaping)) →
        ∀ name ∈ bodyInclusions segments, ∃ span inner, SucceededBefore noted (inclusion name span inner)
  | [], _ => nofun
  | segment :: rest, succeeded => by
      have succeeded := List.forall_mem_cons.mp succeeded
      intro name member
      rcases List.mem_append.mp member with here | later
      · exact pending_succeeded adds segment succeeded.1 name here
      · exact pendingAll_succeeded adds rest succeeded.2 name later

theorem pendingBranches_succeeded (adds : InclusionAdds inclusion) {escaping : Escaping} :
    ∀ branches : List (BranchOf Segment),
      (∀ branch ∈ pendingBranches Registry.builtIn phrases inclusion branches, ∀ part ∈ branch.body,
        SucceededBefore noted (part.compile escaping)) →
        ∀ name ∈ branchInclusions branches, ∃ span inner, SucceededBefore noted (inclusion name span inner)
  | [], _ => nofun
  | ⟨_, body, _⟩ :: rest, succeeded => by
      have succeeded := List.forall_mem_cons.mp succeeded
      intro name member
      rcases List.mem_append.mp member with here | later
      · exact pendingAll_succeeded adds body succeeded.1 name here
      · exact pendingBranches_succeeded adds rest succeeded.2 name later

theorem pendingOtherwise_succeeded (adds : InclusionAdds inclusion) {escaping : Escaping} :
    ∀ otherwise : Option (List Segment),
      (∀ body, pendingOtherwise Registry.builtIn phrases inclusion otherwise = some body → ∀ part ∈ body,
        SucceededBefore noted (part.compile escaping)) →
        ∀ name ∈ otherwiseInclusions otherwise, ∃ span inner,
          SucceededBefore noted (inclusion name span inner)
  | none, _ => nofun
  | some body, succeeded => pendingAll_succeeded adds body (succeeded _ rfl)

end

end Bodies

/-- Some segments compiled inside the templates of `stack`, on the way to some notes. -/
def CompiledInside (environment : Environment) (context : Context) (noted : Uses) (stack : List String)
    (segments : List Segment) : Prop :=
  ∃ escaping, SucceededBefore noted
    (compileSegments Registry.builtIn (fun phrase => environment.phrase phrase context.language)
      (includeTemplate environment Registry.builtIn context stack) escaping segments)

theorem includeTemplate_adds (environment : Environment) (context : Context) (stack : List String) :
    InclusionAdds (includeTemplate environment Registry.builtIn context stack) :=
  fun name span escaping =>
    (includeTemplate_follows environment context stack environment name span escaping).adds

section Success

variable {environment : Environment} {context : Context} {noted : Uses}

/-- An inclusion that succeeds is of another template than those around it, and that has compiled. -/
theorem includeTemplate_succeeded (full : context.expandsIncludes = true) {stack : List String}
    {name : String} {span : Span} {escaping : Escaping}
    (succeeded : SucceededBefore noted
      (includeTemplate environment Registry.builtIn context stack name span escaping)) :
    name ∉ stack ∧ name ∈ noted.includes ∧ ∃ inner,
      environment.template name context.style = .ok (some inner) ∧
      CompiledInside environment context noted (stack ++ [name]) inner.segments := by
  rw [includeTemplate_eq] at succeeded
  split at succeeded
  · exact absurd succeeded SucceededBefore.not_throw
  · next visited =>
      refine ⟨fun member => visited (List.contains_iff_mem.mpr member), ?_⟩
      cases answer : environment.template name context.style with
      | error errors =>
          simp only [answer, includeFound, full, if_true] at succeeded
          rcases succeeded.second with ⟨_, failed⟩
          exact absurd failed SucceededBefore.not_throw
      | ok present =>
          cases present with
          | none =>
              simp only [answer, includeFound] at succeeded
              rcases succeeded.second with ⟨_, failed⟩
              exact absurd failed SucceededBefore.not_throw
          | some inner =>
              simp only [answer, includeFound, full, if_true] at succeeded
              have inclusionAdds := includeTemplate_adds environment context (stack ++ [name])
              have adds : Adds (compileSegments Registry.builtIn
                  (fun phrase => environment.phrase phrase context.language)
                  (includeTemplate environment Registry.builtIn context (stack ++ [name])) escaping
                  inner.segments) :=
                compileSegments_has adds_stepwise (inclusionAdds.all _) escaping
              have isNoted := (succeeded.first fun _ => adds.adapt _).mem_of_noteInclude
              rcases succeeded.second with ⟨_, inside⟩
              exact ⟨isNoted, inner, rfl, escaping, inside.of_adapt⟩

namespace CompiledInside

variable {stack : List String} {template : Template}

/-- What a template includes was compiled inside of it. -/
theorem included (full : context.expandsIncludes = true)
    (compiled : CompiledInside environment context noted stack template.segments) {name : String}
    (included : name ∈ template.includeNames) :
    name ∉ stack ∧ name ∈ noted.includes ∧ ∃ inner,
      environment.template name context.style = .ok (some inner) ∧
      CompiledInside environment context noted (stack ++ [name]) inner.segments := by
  rcases compiled with ⟨escaping, succeeded⟩
  have adds := includeTemplate_adds environment context stack
  have parts := succeeded.of_compileParts (pendingAll_have adds_stepwise template.segments (adds.all _))
  rcases pendingAll_succeeded adds template.segments parts name (Template.mem_includeNames.mp included) with
    ⟨span, inner, succeeded⟩
  exact includeTemplate_succeeded full succeeded

theorem leads (full : context.expandsIncludes = true)
    (compiled : CompiledInside environment context noted stack template.segments) {names : List String}
    {current : Template} (way : Leads environment context.style template names current) :
    CompiledInside environment context noted (stack ++ names) current.segments := by
  induction way with
  | here => rwa [List.append_nil]
  | down way isIncluded found inductionHypothesis =>
      rcases inductionHypothesis.included full isIncluded with ⟨_, _, inner, again, inside⟩
      rw [found, Except.ok.injEq, Option.some.injEq] at again
      subst again
      rwa [← List.append_assoc]

theorem mem_of_reachable (full : context.expandsIncludes = true)
    (compiled : CompiledInside environment context noted stack template.segments) {name : String}
    (reachable : Reachable environment context.style template name) : name ∈ noted.includes := by
  rcases reachable with ⟨names, current, way, isIncluded⟩
  exact ((compiled.leads full way).included full isIncluded).2.1

/-- A way that came back to a template would have been refused there. -/
theorem acyclic (full : context.expandsIncludes = true) {root : String}
    (compiled : CompiledInside environment context noted [root] template.segments) :
    Acyclic environment context.style root template where
  root := by
    rintro ⟨names, current, way, isIncluded⟩
    exact ((compiled.leads full way).included full isIncluded).1 List.mem_cons_self
  inner := by
    rintro name inner ⟨names, current, way, isIncluded⟩ found ⟨more, last, goesOn, again⟩
    have whole := compiled.leads full ((way.down isIncluded found).append goesOn)
    refine (whole.included full again).1 ?_
    simp

end CompiledInside

end Success

/-! ## The plain recursion -/

/-- An inclusion with `inner` for the inclusions in it, which are told the templates around them. -/
def includeLevel (environment : Environment) (registry : Registry) (context : Context)
    (inner : List String → Inclusion) (stack : List String) : Inclusion :=
  fun name span escaping =>
    if stack.contains name then failAt (.circularInclude name (stack ++ [name])) span
    else do
      noteInclude name
      match environment.template name context.style with
      | .ok none => failAt (.unresolvedInclude name context.style) span
      | .error errors =>
          if context.expandsIncludes then throw (.included name (.ofParseErrors errors))
          else pure (.inclusion name)
      | .ok (some template) =>
          if context.expandsIncludes then
            ExceptT.adapt (.included name)
              (compileSegments registry (fun phrase => environment.phrase phrase context.language)
                (inner (stack ++ [name])) escaping template.segments)
          else pure (.inclusion name)

section Levels

variable {environment : Environment} {registry : Registry} {context : Context}

theorem includeLevel_includeTemplate :
    includeLevel environment registry context (includeTemplate environment registry context) =
      includeTemplate environment registry context := by
  funext stack name span escaping
  rw [includeTemplate_eq, includeLevel]
  rfl

/-- What is inside counts only for a template that is there and is not being compiled. -/
theorem includeLevel_congr {first second : List String → Inclusion} {stack : List String}
    (same : ∀ name ∈ environment.names, stack.contains name = false →
      first (stack ++ [name]) = second (stack ++ [name])) :
    includeLevel environment registry context first stack =
      includeLevel environment registry context second stack := by
  funext name span escaping
  unfold includeLevel
  split
  · rfl
  · next visited =>
      refine congrArg (fun next => noteInclude name >>= fun _ => next) ?_
      split
      · rfl
      · rfl
      · next template found =>
          have known : name ∈ environment.names :=
            environment.mem_names name context.style (by simp [found])
          rw [same name known (Bool.eq_false_iff.mpr visited)]

/-- No inclusion is nested deeper than there are names that may still be included. -/
theorem iterate_includeLevel (beyond : List String → Inclusion) {depth : Nat} {stack : List String}
    (enough : (unvisited environment.names stack).length < depth) :
    (includeLevel environment registry context)^[depth] beyond stack =
      includeTemplate environment registry context stack := by
  induction depth generalizing stack with
  | zero => exact absurd enough (Nat.not_lt_zero _)
  | succ depth inductionHypothesis =>
      rw [Function.iterate_succ_apply', ← includeLevel_includeTemplate]
      refine includeLevel_congr fun name known fresh => inductionHypothesis ?_
      have fewer := length_unvisited_lt known fresh
      omega

/-- The plain recursion has one solution only. -/
theorem eq_includeTemplate_of_includeLevel {inclusion : List String → Inclusion}
    (solves : includeLevel environment registry context inclusion = inclusion) :
    inclusion = includeTemplate environment registry context := by
  funext stack
  rw [← iterate_includeLevel inclusion (Nat.lt_succ_self _), Function.iterate_fixed solves]

end Levels

/-! ## Whole compilations -/

/-- What a template compiled to is noted whole at the end. -/
theorem compiledInside_of_compileTemplate {environment : Environment} {context : Context} {root : String}
    {template : Template} {compiled : Compiled}
    (succeeded : compileTemplate environment Registry.builtIn context root template = .ok compiled) :
    CompiledInside environment context compiled.uses [root] template.segments := by
  refine ⟨.html, Uses.none, compiled.code, compiled.uses, ?_, Uses.Within.refl _⟩
  unfold compileTemplate at succeeded
  rw [CompileM.after_none, succeeded]

/--
Inclusions that lead back are always caught, and nothing else is reported as circular.  A full compilation
ends: it is the plain recursion cut off at any depth beyond the number of names, whatever stands in place of
what would be deeper.  If it succeeds, no way from the template comes back to a template on it, and the names
it noted are those that can be reached.  If it fails for a circular inclusion, some way does come back, and
the chain it reports is one.
-/
theorem compileTemplate_catches_cycles (environment : Environment) (style language : Position)
    (root source : String) (template : Template) (parsedRoot : Markup.parse source = .ok template)
    (parsed : environment.Parsed style) :
    (∀ (beyond : List String → Inclusion) (depth : Nat), environment.names.length < depth →
      CompileM.outcome (compileSegments Registry.builtIn (fun phrase => environment.phrase phrase language)
        ((includeLevel environment Registry.builtIn ⟨style, language, true⟩)^[depth] beyond [root]) .html
        template.segments) =
      compileTemplate environment Registry.builtIn ⟨style, language, true⟩ root template) ∧
    (∀ compiled,
      compileTemplate environment Registry.builtIn ⟨style, language, true⟩ root template = .ok compiled →
      Acyclic environment style root template ∧
      ∀ name, name ∈ compiled.uses.includes ↔ Reachable environment style template name) ∧
    (∀ failure name chain,
      compileTemplate environment Registry.builtIn ⟨style, language, true⟩ root template = .error failure →
      failure.error.innermost.1 = .circularInclude name chain →
      Returns environment style root template chain ∧ ¬ Acyclic environment style root template) := by
  have confined : Confined (boundsFrom environment style root template) Code
      (compileSegments Registry.builtIn (fun phrase => environment.phrase phrase language)
        (includeTemplate environment Registry.builtIn ⟨style, language, true⟩ [root]) .html
        template.segments) := by
    refine compileSegments_has (confined_stepwise _) ?_ .html
    rintro _ member name span rfl escaping
    exact includeTemplate_confined environment ⟨style, language, true⟩ rfl parsed .here
      (mem_includeNames_of_parse parsedRoot member) span escaping
  refine ⟨fun beyond depth enough => ?_, fun compiled succeeded => ?_, fun failure name chain failed => ?_⟩
  · have fewer : (unvisited environment.names [root]).length ≤ environment.names.length :=
      List.length_filter_le _ _
    rw [iterate_includeLevel beyond (fewer.trans_lt enough), compileTemplate]
  · have inside := compiledInside_of_compileTemplate succeeded
    refine ⟨inside.acyclic rfl, fun name => ⟨fun member => ?_, inside.mem_of_reachable rfl⟩⟩
    unfold compileTemplate at succeeded
    have permitted := confined.notes Uses.none name
    rw [CompileM.after_none, succeeded] at permitted
    exact (permitted member).resolve_left Uses.not_mem_includes_none
  · unfold compileTemplate at failed
    have permitted := confined.reports Uses.none failure.error name chain
    rw [CompileM.after_none, failed] at permitted
    exact fun circular => ⟨permitted rfl circular, (permitted rfl circular).not_acyclic⟩

/-! ### A site with a cycle aside -/

theorem Environment.parsed_ofSources (templates phrases : List (String × String)) (style : Position) :
    (Environment.ofSources templates phrases).Parsed style := by
  intro name template found
  change parseSource? (entryNamed? templates name) = .ok (some template) at found
  cases isThere : entryNamed? templates name with
  | none =>
      rw [isThere] at found
      cases found
  | some source =>
      rw [isThere] at found
      rcases exists_of_map_eq_ok found with ⟨_, parsed, ⟨⟩⟩
      exact ⟨source, parsed⟩

/-- A page whose header and footer share a menu, and two templates that include each other. -/
def ringSources : List (String × String) :=
  [("page", "<tpl:include template=\"header\"/><tpl:include template=\"footer\"/>"),
    ("header", "<tpl:include template=\"menu\"/>"),
    ("footer", "<tpl:include template=\"menu\"/>"),
    ("menu", "Home"),
    ("round", "<tpl:include template=\"turn\"/>"),
    ("turn", "<tpl:include template=\"round\"/>")]

def ringSite : Environment := .ofSources ringSources []

/-- Compile a template of the site. -/
def compileRing (name : String) (template : Template) : Except CompileFailure Compiled :=
  compileTemplate ringSite Registry.builtIn ⟨0, 0, true⟩ name template

/-- The chain that a compilation reports as circular. -/
def circularChain? : Except CompileFailure Compiled → Option (List String)
  | .ok _ => none
  | .error failure =>
      match failure.error.innermost.1 with
      | .circularInclude _ chain => some chain
      | _ => none

theorem exists_of_circularChain? {outcome : Except CompileFailure Compiled} {chain : List String}
    (reported : circularChain? outcome = some chain) :
    ∃ failure name, outcome = .error failure ∧ failure.error.innermost.1 = .circularInclude name chain := by
  unfold circularChain? at reported
  split at reported
  · cases reported
  · next failure =>
      split at reported
      · next name found circular =>
          cases reported
          exact ⟨failure, name, rfl, circular⟩
      · cases reported

/-- What the source of a template of the site parses to. -/
def ringTemplate? (name : String) : Option Template :=
  (entryNamed? ringSources name).bind fun source => (Markup.parse source).toOption

theorem exists_of_ringTemplate? {name : String} {holds : Template → Bool}
    (checked : (ringTemplate? name).any holds = true) :
    ∃ source template, entryNamed? ringSources name = some source ∧ Markup.parse source = .ok template ∧
      holds template = true := by
  unfold ringTemplate? at checked
  cases isThere : entryNamed? ringSources name with
  | none =>
      rw [isThere] at checked
      cases checked
  | some source =>
      rw [isThere, Option.bind_some] at checked
      cases parsed : Markup.parse source with
      | error errors =>
          rw [parsed] at checked
          cases checked
      | ok template =>
          rw [parsed] at checked
          exact ⟨source, template, rfl, parsed, checked⟩

/-- Including the menu twice is no cycle, and the two templates that include each other are one. -/
theorem cycles_ringSite :
    (∃ source template compiled, entryNamed? ringSources "page" = some source ∧
      Markup.parse source = .ok template ∧ compileRing "page" template = .ok compiled ∧
      Acyclic ringSite 0 "page" template ∧
      ∀ name, name ∈ compiled.uses.includes ↔ Reachable ringSite 0 template name) ∧
    ∃ source template, entryNamed? ringSources "round" = some source ∧
      Markup.parse source = .ok template ∧
      Returns ringSite 0 "round" template ["round", "turn", "round"] ∧
      ¬ Acyclic ringSite 0 "round" template := by
  have parsed := Environment.parsed_ofSources ringSources [] 0
  constructor
  · have compiles : (ringTemplate? "page").any (fun template => (compileRing "page" template).isOk) = true := by
      decide +kernel
    rcases exists_of_ringTemplate? compiles with ⟨source, template, isThere, parsedPage, compiles⟩
    have caught := (compileTemplate_catches_cycles ringSite 0 0 "page" source template parsedPage parsed).2.1
    cases outcome : compileRing "page" template with
    | error failure =>
        rw [outcome] at compiles
        cases compiles
    | ok compiled =>
        exact ⟨source, template, compiled, isThere, parsedPage, outcome, caught compiled outcome⟩
  · have reports : (ringTemplate? "round").any (fun template =>
        circularChain? (compileRing "round" template) == some ["round", "turn", "round"]) = true := by
      decide +kernel
    rcases exists_of_ringTemplate? reports with ⟨source, template, isThere, parsedRound, reports⟩
    rcases exists_of_circularChain? (beq_iff_eq.mp reports) with ⟨failure, name, failed, circular⟩
    have caught := (compileTemplate_catches_cycles ringSite 0 0 "round" source template parsedRound parsed).2.2
    exact ⟨source, template, isThere, parsedRound, caught failure name _ failed circular⟩

end Compile
end TemplateCascade
