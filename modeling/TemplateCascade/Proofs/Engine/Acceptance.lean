import Mathlib
import TemplateCascade.Proofs.Compile.Locating
import TemplateCascade.Proofs.Engine.Bookkeeping

namespace TemplateCascade

/-!
# Accepted templates

A template is validated where it is saved and for the language at the root, and then compiled for every
style at which it is in effect and for every language.  Templates that it includes are found at these styles
too, because styles inherit.  Phrases need not be alike: what fills a placeholder is compiled only if the
phrase has the placeholder, and at another language it may have more of them than at the root.  This is the
only way in which an accepted template can fail by itself.
-/

open Compile (Compiled CompileFailure Diagnostic Registry Uses compileTemplate placeholders)
open Markup (ParseMemo Template)

/-! ## What is in effect below a position -/

theorem Compile.Environment.parseSource?_eq_none_iff {source : Option String} :
    Environment.parseSource? source = .ok none ↔ source = none := by
  cases source with
  | none => exact iff_of_true rfl rfl
  | some source =>
      rw [Environment.parseSource?]
      cases Markup.parse source <;> simp [Except.map]

namespace BuildInputs

variable {inputs : BuildInputs MemoryStore} {name source : String} {style : Position}

theorem template_eq_none_iff (sound : inputs.memo.Sound inputs.store) :
    inputs.template name style = .ok none ↔
      (effective? inputs.store inputs.scheme .template name style).bind Prod.snd = none := by
  rw [template_eq sound, Compile.Environment.parseSource?_eq_none_iff]

/-- What has a content in effect is built from that. -/
theorem build_of_own (sound : inputs.memo.Sound inputs.store) {key : ArtifactKey} {id : DefinitionId}
    {content : String} (own : own? inputs.store inputs.scheme key = some (id, some content)) :
    inputs.build key = inputs.buildContent content key := by
  rw [build_eq sound, own]

/-- A source without diagnostics parses and compiles for the language at the root. -/
theorem exists_compiled_of_validate (acceptable : (inputs.validate name source style).1 = []) :
    ∃ tree checked, Markup.parse source = .ok tree ∧
      compileTemplate inputs.environment inputs.registry ⟨style, rootPosition, false⟩ name tree =
        .ok checked := by
  unfold validate at acceptable
  rcases parsed : Markup.parse source with errors | tree
  · simp [parsed, Markup.ParseErrors.toList] at acceptable
  · rcases compiled : compileTemplate inputs.environment inputs.registry ⟨style, rootPosition, false⟩ name
      tree with failure | checked
    · simp [parsed, compiled] at acceptable
    · exact ⟨tree, checked, rfl, compiled⟩

end BuildInputs

namespace Engine

variable {before after engine : Engine MemoryStore} {store : MemoryStore} {scheme : InheritanceScheme}
  {key : ArtifactKey} {report : CascadeReport} {failure : CascadeFailure} {outcome : Outcome}
  {name source : String} {style language : Position}

/-- Where a name has a content in effect, it has one at the positions below. -/
theorem Tracks.effective?_child (wellFormed : store.WellFormed) {kind : DefinitionKind}
    (tracks : Tracks store scheme kind name) {id parent : Position}
    (isParent : (scheme.tree kind.tree).parent? id = some parent)
    (above : (effective? store scheme kind name parent).bind Prod.snd ≠ none) :
    (effective? store scheme kind name id).bind Prod.snd ≠ none := by
  have child := tracks.trailing.child id parent isParent
  cases own : (store.direct kind name)[id]? with
  | none =>
      rw [own, Option.none_or] at child
      rwa [effective?, child]
  | some definition =>
      rcases wellFormed.direct_eq_some_iff.mp own with ⟨owned, stored, isKind, _⟩
      have found := MemoryStore.definition?_eq_some_iff.mpr ⟨stored, isKind⟩
      rw [own, Option.some_or] at child
      simp [effective?, child, found]

/-! ## What a saved template changes -/

/-- A template has been saved at a style.  Where something else is in effect for it now, that is its source,
if anything, and what other templates have at the style they have there too. -/
structure Saved (before after : Engine MemoryStore) (style : Position) (name source : String) : Prop where
  languages_eq : after.scheme.languages = before.scheme.languages
  templates_eq : ∀ other, other ≠ name → ∀ position,
    effective? after.store after.scheme .template other position =
      effective? before.store before.scheme .template other position
  phrases_eq : ∀ phrase language, effective? after.store after.scheme .phrase phrase language =
    effective? before.store before.scheme .phrase phrase language
  changed : ∀ position, effective? after.store after.scheme .template name position ≠
      effective? before.store before.scheme .template name position →
    effective? after.store after.scheme .template name position ≠ none →
    (∃ id, effective? after.store after.scheme .template name position = some (id, some source)) ∧
      ∀ other, (effective? before.store before.scheme .template other style).bind Prod.snd ≠ none →
        (effective? before.store before.scheme .template other position).bind Prod.snd ≠ none

section Defining

variable {targets : Targets} (upheld : before.Upheld)
  (driven : Driven (before.redefined .template style name source) after .template
    (Std.ExtTreeSet.ofList [name]) (some (before.store.define .template style name source).2) before.scheme
    targets report)

include driven in
theorem flatten_of_saved {position : Position} {id : DefinitionId}
    (resolved : (after.scheme.map .template).resolve? name position = some id) :
    (flatten (before.scheme.tree .style)
      ((before.store.define .template style name source).1.direct .template name))[position]? = some id := by
  have selected : name ∈ (Std.ExtTreeSet.ofList [name]).toList :=
    Std.ExtTreeSet.mem_toList.mpr (mem_singletonSet.mpr rfl)
  exact (driven.carried.reworked.resolve?_eq selected position).symm.trans resolved

include upheld driven

/-- Where the name resolves to another definition than the one that is saved, nothing has changed. -/
theorem effective?_of_other {position : Position} {id : DefinitionId}
    (resolved : (after.scheme.map .template).resolve? name position = some id)
    (other : id ≠ (before.store.define .template style name source).2) :
    effective? (before.store.define .template style name source).1 after.scheme .template name position =
      effective? before.store before.scheme .template name position := by
  have isRedefined := MemoryStore.define_redefined upheld.wellFormed .template style name source
  have was := (upheld.tracks .template name).trailing.found_of_flatten
    (isRedefined.direct_eq upheld.wellFormed) other (flatten_of_saved driven resolved)
  rw [effective?, effective?, resolved, was, Option.map_some, Option.map_some,
    isRedefined.definition?_of_ne other]

/-- Where the name resolves to the definition that is saved, there is whatever there is at its position. -/
theorem effective?_below {position : Position}
    (resolved : (after.scheme.map .template).resolve? name position =
      some (before.store.define .template style name source).2) {other : String}
    (atStyle : (effective? before.store before.scheme .template other style).bind Prod.snd ≠ none) :
    (effective? before.store before.scheme .template other position).bind Prod.snd ≠ none := by
  have isRedefined := MemoryStore.define_redefined upheld.wellFormed .template style name source
  refine flatten_induction (fun owner own => ?_) (fun id parent isParent => ?_)
    (flatten_of_saved driven resolved)
  · rcases (isRedefined.wellFormed upheld.wellFormed).direct_eq_some_iff.mp own with
      ⟨definition, stored, _, _, rfl⟩
    have isSaved := (MemoryStore.definition?_eq_some_iff.mp isRedefined.definition?_self).1
    rw [stored, Option.some.injEq] at isSaved
    rwa [isSaved]
  · exact (upheld.tracks .template other).effective?_child upheld.wellFormed isParent

end Defining

theorem define_saved (upheld : before.Upheld)
    (isNew : before.store.isKept .template name style source = false)
    (performed : before.perform (define .template style name source) = (.ok report, after)) :
    Saved before after style name source := by
  have prepared := prepared_redefined before upheld isNew
  rcases define_driven upheld isNew performed with ⟨targets, driven⟩
  have reworked := driven.carried.reworked
  have inEffect : ∀ kind other position, effective? after.store after.scheme kind other position =
      effective? (before.store.define .template style name source).1 after.scheme kind other position :=
    effective?_of_definitions driven.carried.definitions_eq after.scheme
  constructor
  · exact reworked.tree_eq .language
  · intro other different position
    rw [inEffect]
    by_contra changed
    have isSelected := ((prepared.effective?_ne_iff upheld reworked other position).mp changed).1
    exact different (mem_singletonSet.mp (Std.ExtTreeSet.mem_toList.mp isSelected))
  · intro phrase language
    rw [inEffect]
    exact @Prepared.effective?_other _ _ _ _ _ _ _ prepared reworked .phrase (by decide) phrase language
  · intro position different present
    rw [inEffect] at different present ⊢
    -- Where the name resolves at all, it does so to the saved definition or as it did before.
    cases resolved : (after.scheme.map .template).resolve? name position with
    | none => simp [effective?, resolved] at present
    | some id =>
        by_cases isSaved : id = (before.store.define .template style name source).2
        · subst isSaved
          have stored := (MemoryStore.define_redefined upheld.wellFormed .template style name
            source).definition?_self
          refine ⟨⟨(before.store.define .template style name source).2, ?_⟩,
            fun other => effective?_below upheld driven resolved⟩
          rw [effective?, resolved, Option.map_some]
          exact congrArg (fun definition => some (_, definition.map Definition.content)) stored
        · exact absurd (effective?_of_other upheld driven resolved isSaved) different

/-- A template of the saved name is disturbed only where something else is in effect for the name. -/
theorem Saved.changed_of_disturbed (saved : Saved before after style name source) {lower : Position}
    (disturbed : ¬ Undisturbed before after (.template lower language name)) :
    effective? after.store after.scheme .template name lower ≠
      effective? before.store before.scheme .template name lower := by
  intro same
  refine disturbed ⟨?_, fun other _ position isStyle => ?_, fun phrase _ => saved.phrases_eq phrase language⟩
  · rw [own?, own?, saved.languages_eq, same]
  · cases isStyle
    by_cases isName : other = name
    · rw [isName, same]
    · exact saved.templates_eq other isName lower

/-! ## Failures -/

theorem Fate.failed_of_mem (fate : Fate before after key outcome report)
    (member : failure ∈ report.failures) : ∃ uses, outcome = .failed failure.diagnostic uses := by
  cases fate with
  | built _ _ _ _ => cases member
  | @aged diagnostic uses _ _ _ _ _ => exact ⟨uses, by rw [List.mem_singleton.mp member]⟩
  | @missed diagnostic uses _ _ _ => exact ⟨uses, by rw [List.mem_singleton.mp member]⟩
  | dropped _ _ _ => cases member
  | absent _ _ _ => cases member

/-- A failure is reported of a key for which something else is in effect. -/
theorem Course.failed_of_mem (course : Course before after key report)
    (member : failure ∈ report.failures) :
    ¬ Undisturbed before after key ∧ ∃ uses, after.outcome key = .failed failure.diagnostic uses := by
  cases course with
  | spared _ spared =>
      rw [spared.silent] at member
      cases member
  | visited disturbed fate => exact ⟨disturbed, fate.failed_of_mem member⟩
  | gone _ left =>
      rcases left with spared | fate
      · rw [spared.silent] at member
        cases member
      · rcases fate.failed_of_mem member with ⟨_, impossible⟩
        cases impossible

/-- A build that fails over the source of a template fails in compiling it. -/
theorem exists_failure_of_outcome (builtIn : engine.registry = Registry.builtIn) {tree : Template}
    (parsed : Markup.parse source = .ok tree) {id : DefinitionId}
    (inEffect : effective? engine.store engine.scheme .template name style = some (id, some source))
    {diagnostic : Diagnostic} {uses : Uses}
    (failed : engine.outcome (.template style language name) = .failed diagnostic uses) :
    ∃ failure, compileTemplate engine.inputs.forgetful.environment Registry.builtIn
        ⟨style, language, true⟩ name tree = .error failure ∧
      diagnostic = failure.error.diagnostic name ∧ uses = failure.uses := by
  cases present : engine.scheme.languages.contains language with
  | false =>
      have unresolved : engine.outcome (.template style language name) = .unresolved := by
        rw [outcome_eq_unresolved_iff, own?, present, if_neg Bool.false_ne_true]
      rw [unresolved] at failed
      cases failed
  | true =>
      have own : own? engine.store engine.scheme (.template style language name) =
          some (id, some source) := by
        rw [own?, present, if_pos rfl, inEffect]
      have built : engine.outcome (.template style language name) =
          engine.inputs.forgetful.buildContent source (.template style language name) :=
        BuildInputs.build_of_own (ParseMemo.sound_empty engine.store) own
      have sameRegistry : engine.inputs.forgetful.registry = Registry.builtIn := builtIn
      simp only [failed, BuildInputs.buildContent, parsed, BuildInputs.compileTree, sameRegistry] at built
      generalize compileTemplate engine.inputs.forgetful.environment Registry.builtIn
        ⟨style, language, true⟩ name tree = compiled at built ⊢
      rcases compiled with failure | compiled
      · cases built
        exact ⟨failure, rfl, rfl, rfl⟩
      · cases built

/-- A phrase that a build asks for has a placeholder at a language that it does not have at the root. -/
def Unfilled (engine : Engine MemoryStore) (language : Position) (uses : Uses) : Prop :=
  ∃ phrase ∈ uses.phrases, ∃ placeholder ∈ placeholders (engine.inputs.phrase? phrase language),
    placeholder ∉ placeholders (engine.inputs.phrase? phrase rootPosition)

theorem not_unfilled_root (engine : Engine MemoryStore) (uses : Uses) :
    ¬ engine.Unfilled rootPosition uses := by
  rintro ⟨_, _, placeholder, here, notHere⟩
  exact notHere here

theorem Saved.phrase?_eq (saved : Saved before after style name source) (phrase : String)
    (language : Position) : after.inputs.phrase? phrase language = before.inputs.phrase? phrase language := by
  rw [BuildInputs.phrase?_eq, BuildInputs.phrase?_eq]
  exact congrArg (fun found => Option.bind found Prod.snd) (saved.phrases_eq phrase language)

/-- A template that is not found further down was not found where the other one has been saved. -/
theorem Saved.missing_of_missing (saved : Saved before after style name source)
    (sound : before.memo.Sound before.store) {lower : Position} {other : String} (isOther : other ≠ name)
    (below : (effective? before.store before.scheme .template other style).bind Prod.snd ≠ none →
      (effective? before.store before.scheme .template other lower).bind Prod.snd ≠ none)
    (missing : after.inputs.forgetful.environment.template other lower = .ok none) :
    before.inputs.environment.template other style = .ok none := by
  have nothing := (@BuildInputs.template_eq_none_iff after.inputs.forgetful other lower
    (ParseMemo.sound_empty after.store)).mp missing
  change (effective? after.store after.scheme .template other lower).bind Prod.snd = none at nothing
  rw [saved.templates_eq other isOther] at nothing
  refine (BuildInputs.template_eq_none_iff sound).mpr ?_
  by_contra there
  exact below there nothing

/-- A template that compiles where it is saved fails at another place in a template that it includes, or over
a phrase. -/
theorem Saved.located_of_failed (saved : Saved before after style name source)
    (sound : before.memo.Sound before.store) (builtIn : after.registry = Registry.builtIn) {tree : Template}
    {checked : Compiled} (parsed : Markup.parse source = .ok tree)
    (validated : compileTemplate before.inputs.environment Registry.builtIn ⟨style, rootPosition, false⟩ name
      tree = .ok checked) {lower : Position} {diagnostic : Diagnostic} {uses : Uses}
    (disturbed : ¬ Undisturbed before after (.template lower language name))
    (failed : after.outcome (.template lower language name) = .failed diagnostic uses) :
    (diagnostic.template ≠ name ∧ diagnostic.template ∈ uses.includes) ∨
      (diagnostic.template = name ∧ language ≠ rootPosition ∧ after.Unfilled language uses) := by
  have different := saved.changed_of_disturbed disturbed
  have present : effective? after.store after.scheme .template name lower ≠ none := by
    intro nothing
    have unresolved : after.outcome (.template lower language name) = .unresolved := by
      rw [outcome_eq_unresolved_iff, own?, nothing, ite_self]
    rw [unresolved] at failed
    cases failed
  rcases saved.changed lower different present with ⟨⟨id, inEffect⟩, below⟩
  rcases exists_failure_of_outcome builtIn parsed inEffect failed with ⟨failure, ended, rfl, rfl⟩
  rcases Compile.template_diagnostic ended with ⟨isHere, itself⟩ | elsewhere
  · have unfilled : after.Unfilled language failure.uses := by
      have found : ∀ other, other ≠ name →
          after.inputs.forgetful.environment.template other lower = .ok none →
          before.inputs.environment.template other style = .ok none :=
        fun other isOther => saved.missing_of_missing sound isOther (below other)
      rcases Compile.exists_unfilled_of_failed found validated ended itself with
        ⟨phrase, used, placeholder, here, notThere⟩
      refine ⟨phrase, used, placeholder, here, ?_⟩
      rw [saved.phrase?_eq]
      exact notThere
    refine .inr ⟨isHere, ?_, unfilled⟩
    rintro rfl
    exact not_unfilled_root after failure.uses unfilled
  · exact .inl elsewhere

/--
When an accepted template fails somewhere, the failure is in a template that it includes; or else it is at
another language than the root, where a phrase that the template asks for has a placeholder which it does not
have at the root.
-/
theorem located_of_saveTemplate (reached : Reached before) (builtIn : before.registry = Registry.builtIn)
    (validates : before.config.validateOnSave = true)
    (performed : before.perform (saveTemplate style name source) = (.ok report, after))
    (member : failure ∈ report.failures) {lower : Position}
    (isKey : failure.key = .template lower language name) :
    (failure.diagnostic.template ≠ name ∧
        failure.diagnostic.template ∈ (after.outcome failure.key).uses.includes) ∨
      (failure.diagnostic.template = name ∧ language ≠ rootPosition ∧
        after.Unfilled language (after.outcome failure.key).uses) := by
  have upheld := reached.orderly.upheld
  rcases perform_saveTemplate upheld.wellFormed style name source with
    ⟨_, kept⟩ | ⟨isNew, memo, sound, ⟨acceptable, defined⟩ | ⟨_, refused⟩⟩
  · rw [kept, Prod.mk.injEq, Except.ok.injEq] at performed
    rw [← performed.1] at member
    cases member
  · -- The check has only remembered trees, and these make no difference to what compilation sees.
    rw [defined] at performed
    have soundMemo := sound upheld.sound
    have remembering := upheld.withMemo soundMemo
    have completed := define_completed remembering isNew performed
    have saved := define_saved remembering isNew performed
    rcases BuildInputs.exists_compiled_of_validate (acceptable validates) with
      ⟨tree, checked, parsed, validated⟩
    have sameEnvironment : ({ before with memo := memo } : Engine MemoryStore).inputs.environment =
        before.inputs.environment :=
      BuildInputs.environment_eq_of_definitions upheld.sound soundMemo rfl rfl
    have sameRegistry : before.inputs.registry = Registry.builtIn := builtIn
    rw [← sameEnvironment, sameRegistry] at validated
    have said := (report.mem_failures_iff (.template lower language name)).mp ⟨member, isKey⟩
    rcases (completed.course (.template lower language name) id).failed_of_mem said with
      ⟨disturbed, uses, failed⟩
    have located := saved.located_of_failed soundMemo (completed.registry_eq.trans builtIn) parsed validated
      disturbed failed
    rwa [isKey, failed]
  · rw [refused] at performed
    cases performed

/-! ## A phrase with a placeholder at one language -/

/-- Two languages, and a phrase that has a placeholder at the lower one only. -/
def greetStore : MemoryStore :=
  let languages := MemoryStore.empty.addPosition .language 1 rootPosition
  ((languages.define .phrase rootPosition "greet" "Hi").1.define .phrase 1 "greet" "Hi \x7b1\x7d").1

theorem constructed_greetStore : greetStore.Constructed :=
  .define .phrase 1 "greet" _ (.define .phrase rootPosition "greet" "Hi"
    (.putTreeNode .language ⟨1, some rootPosition, []⟩ .empty))

def openedGreet : Engine MemoryStore :=
  (openedOver {} greetStore).get (by decide +kernel)

theorem ofStore_greetStore : ofStore {} Registry.builtIn greetStore = .ok openedGreet :=
  ofStore_of_openedOver (Option.some_get _).symm

theorem registry_openedGreet : openedGreet.registry = Registry.builtIn :=
  (opened_of_ofStore constructed_greetStore.wellFormed ofStore_greetStore).registry_eq

/-- A page that greets with what an unknown function gives. -/
def saveGreeting : EngineM MemoryStore CascadeReport :=
  saveTemplate rootPosition "page" "\x7bphrase(greet, \x7bnope()\x7d)\x7d"

/-- The page is accepted, and fails at the lower language. -/
theorem exists_failure_greeting : ∃ report after failure,
    openedGreet.perform saveGreeting = (.ok report, after) ∧ failure ∈ report.failures ∧
      failure.key = .template rootPosition 1 "page" ∧ failure.diagnostic.template = "page" := by
  have saves : (openedGreet.perform saveGreeting).1.isOk = true := by decide +kernel
  have fails : ∀ report ∈ (openedGreet.perform saveGreeting).1.toOption, ∃ failure ∈ report.failures,
      failure.key = .template rootPosition 1 "page" ∧ failure.diagnostic.template = "page" := by
    decide +kernel
  rcases exists_perform_ok openedGreet saves with ⟨report, performed⟩
  rw [performed] at fails
  rcases fails report rfl with ⟨failure, member, isKey, isHere⟩
  exact ⟨report, _, failure, performed, member, isKey, isHere⟩

/-- The greeting has a placeholder at the lower language. -/
theorem unfilled_greeting : ∃ report after failure,
    openedGreet.perform saveGreeting = (.ok report, after) ∧ failure ∈ report.failures ∧
      after.Unfilled 1 (after.outcome failure.key).uses := by
  have validates : openedGreet.config.validateOnSave = true := by decide +kernel
  rcases exists_failure_greeting with ⟨report, after, failure, performed, member, isKey, isHere⟩
  rcases located_of_saveTemplate (.opened constructed_greetStore ofStore_greetStore) registry_openedGreet
    validates performed member isKey with ⟨elsewhere, _⟩ | ⟨_, _, unfilled⟩
  · exact absurd isHere elsewhere
  · exact ⟨report, after, failure, performed, member, unfilled⟩

/-- An accepted page may fail by itself. -/
theorem accepted_page_fails : ∃ (before after : Engine MemoryStore) (style : Position) (name source : String)
    (report : CascadeReport) (failure : CascadeFailure), Reached before ∧
      before.registry = Registry.builtIn ∧ before.config.validateOnSave = true ∧
      before.perform (saveTemplate style name source) = (.ok report, after) ∧
      failure ∈ report.failures ∧ failure.key = .template style 1 name ∧
      failure.diagnostic.template = name := by
  have validates : openedGreet.config.validateOnSave = true := by decide +kernel
  rcases exists_failure_greeting with ⟨report, after, failure, performed, member, isKey, isHere⟩
  exact ⟨openedGreet, after, rootPosition, "page", _, report, failure,
    .opened constructed_greetStore ofStore_greetStore, registry_openedGreet, validates, performed, member,
    isKey, isHere⟩

end Engine
end TemplateCascade
