import Mathlib
import TemplateCascade.Proofs.Engine.Editing
import TemplateCascade.Proofs.Engine.Reporting

namespace TemplateCascade
namespace Engine

/-!
# What an edit does with each key

An edit that succeeds visits the keys for which something else is in effect afterwards, once each, and
spares the others.  What goes with a removed position is gone.  There is one exception: templates of a
new language are built behind the cascade, also those that the cascade has built already because a failed
build of theirs is still on record.

This is so in every state that can be reached, also where names lag behind at the root; and what is held
is always on record, and has a generation that has been drawn.
-/

variable {before between middle after engine : Engine MemoryStore} {key : ArtifactKey}
  {report first second : CascadeReport} {kind : DefinitionKind} {names : Std.ExtTreeSet String}
  {edited : Option DefinitionId} {mutated : InheritanceScheme} {targets : Targets}

/-! ## One key -/

/-- What an edit has done with a key, and what its report says of the key. -/
inductive Course (before after : Engine MemoryStore) (key : ArtifactKey) (report : CascadeReport) :
    Prop where
  | spared (undisturbed : Undisturbed before after key) (spared : Spared before after key report)
  | visited (disturbed : ¬ Undisturbed before after key)
      (fate : Fate before after key (after.outcome key) report)
  | gone (unresolved : own? after.store after.scheme key = none)
      (left : Spared before after key report ∨ Fate before after key .unresolved report)

/-- An edit has visited a key twice. -/
structure Twice (before after : Engine MemoryStore) (key : ArtifactKey) (report : CascadeReport) :
    Prop where
  disturbed : ¬ Undisturbed before after key
  present : own? after.store after.scheme key ≠ none
  fates : ∃ between first second, before.cache.nextGeneration ≤ between.cache.nextGeneration ∧
    between.cache.nextGeneration ≤ after.cache.nextGeneration ∧
    Fate before between key (after.outcome key) first ∧
    Fate between after key (after.outcome key) second ∧ report = first ++ second

theorem undisturbed_congr (definitions : after.store.definitions = between.store.definitions)
    (sameScheme : after.scheme = between.scheme) :
    Undisturbed before after key ↔ Undisturbed before between key := by
  rw [Undisturbed, sameScheme]
  exact alike_of_definitions definitions

/-- A course stays as it is when the key is spared afterwards. -/
theorem Course.onward (course : Course before between key first) (next : Spared between after key second)
    (drawn : between.cache.nextGeneration ≤ after.cache.nextGeneration)
    (definitions : after.store.definitions = between.store.definitions)
    (sameScheme : after.scheme = between.scheme) (sameRegistry : after.registry = between.registry) :
    Course before after key (first ++ second) := by
  have undisturbed : Undisturbed before after key ↔ Undisturbed before between key :=
    undisturbed_congr definitions sameScheme
  cases course with
  | spared still spared => exact .spared (undisturbed.mpr still) (spared.trans next)
  | visited disturbed fate =>
      refine .visited (disturbed ∘ undisturbed.mp) ?_
      rw [outcome_eq_of_definitions definitions sameScheme sameRegistry]
      exact fate.spared next drawn
  | gone unresolved left =>
      refine .gone ?_ (left.imp (fun spared => spared.trans next) fun fate => fate.spared next drawn)
      rw [sameScheme, own?_of_definitions definitions, unresolved]

/-- Remembering trees is no part of what is done with a key. -/
theorem Course.of_withMemo {memo : Markup.ParseMemo}
    (course : Course { engine with memo := memo } after key report) : Course engine after key report := by
  have same : HoldsAs engine { engine with memo := memo } := ⟨rfl, rfl⟩
  have fated : ∀ {outcome}, Fate { engine with memo := memo } after key outcome report →
      Fate engine after key outcome report := by
    intro outcome fate
    have whole := (same.spared key).fate (le_refl _) fate
    rwa [CascadeReport.empty_append] at whole
  have left : Spared { engine with memo := memo } after key report → Spared engine after key report :=
    fun spared => ⟨spared.held, spared.recorded, spared.silent⟩
  cases course with
  | spared undisturbed spared => exact .spared undisturbed (left spared)
  | visited disturbed fate => exact .visited disturbed (fated fate)
  | gone unresolved either => exact .gone unresolved (either.imp left fated)

/-- An edit has been completed, and has visited the doubled keys twice. -/
structure Completed (before after : Engine MemoryStore) (doubled : ArtifactKey → Prop)
    (report : CascadeReport) : Prop where
  upheld : after.Upheld
  config_eq : after.config = before.config
  registry_eq : after.registry = before.registry
  drawn : before.cache.nextGeneration ≤ after.cache.nextGeneration
  course : ∀ key, ¬ doubled key → Course before after key (report.about key)
  twice : ∀ key, doubled key → Twice before after key (report.about key)

theorem Completed.refl (upheld : engine.Upheld) :
    Completed engine engine (fun _ => False) CascadeReport.empty := by
  refine ⟨upheld, rfl, rfl, le_refl _, fun key _ => ?_, fun _ => False.elim⟩
  have alike : Undisturbed engine engine key := ⟨rfl, fun _ _ _ _ => rfl, fun _ _ => rfl⟩
  exact .spared alike (HoldsAs.spared ⟨rfl, rfl⟩ key)

/-! ## Cascades -/

/-- A cascade has worked out the selected names, and passed over the keys that they concern. -/
structure Driven (middle after : Engine MemoryStore) (kind : DefinitionKind)
    (names : Std.ExtTreeSet String) (edited : Option DefinitionId) (mutated : InheritanceScheme)
    (targets : Targets) (report : CascadeReport) : Prop where
  carried : Carried middle after kind names mutated
  config_eq : after.config = middle.config
  registry_eq : after.registry = middle.registry
  mem_targets_iff : ∀ key, key ∈ targets ↔
    OwnConcerned mutated after.scheme kind edited names.toList key ∨
      UseConcerned mutated after.scheme kind edited names.toList key (middle.usesOf key)
  pass : Pass middle after report fun key =>
    if key ∈ targets then some (after.outcome key) else none

/-- What has been prepared for is carried out, and reported. -/
theorem Prepared.perform_driven (prepared : Prepared before middle kind names edited mutated)
    {mutate : InheritanceScheme → Except TreeError InheritanceScheme}
    (mutates : mutate before.scheme = .ok mutated) :
    ∃ report after targets, middle.perform (cascade kind names edited mutate) = (.ok report, after) ∧
      Driven middle after kind names edited mutated targets report := by
  rcases prepared.perform_carried mutates with ⟨report, after, performed, carried⟩
  rw [← prepared.scheme_eq] at mutates
  rcases Engine.perform_cascade middle names mutates with ⟨scheme, affected, _, reported, same⟩
  rw [same] at performed
  rcases perform_buildTargets { middle with scheme := scheme }
      (plan affected scheme.languages.breadthFirst middle.dependencies) with ⟨_, _, built, settling⟩
  rw [performed, Prod.mk.injEq] at built
  rcases built with ⟨_, rfl⟩
  have isScheme : after.scheme = scheme := settling.scheme_eq
  have pass := pass_buildTargets { middle with scheme := scheme } prepared.sound performed
  refine ⟨report, after, plan affected scheme.languages.breadthFirst middle.dependencies,
    same.trans performed, carried, settling.config_eq, settling.registry_eq, fun key => ?_, ?_⟩
  · rw [isScheme]
    exact mem_plan_iff_concerned reported prepared.backed.consistent key
  · have start : HoldsAs middle { middle with scheme := scheme } := ⟨rfl, rfl⟩
    refine (pass.of_same start ⟨rfl, rfl⟩).congr fun key => ?_
    rw [outcome_eq_of_definitions settling.definitions_eq settling.scheme_eq settling.registry_eq]

namespace Driven

/-- A key that nothing was done with before the cascade is visited if something else is in effect for it. -/
theorem course (driven : Driven middle after kind names edited mutated targets report)
    (prepared : Prepared before middle kind names edited mutated) (upheld : before.Upheld)
    (spared : Spared before middle key first)
    (drawn : before.cache.nextGeneration ≤ middle.cache.nextGeneration)
    (own : OwnConcerned mutated after.scheme kind edited names.toList key ↔
      own? middle.store after.scheme key ≠ own? before.store before.scheme key) :
    Course before after key (first ++ report.about key) := by
  have sameUses : middle.usesOf key = before.usesOf key := by
    rw [usesOf, usesOf, slot, slot, spared.recorded]
  have alike : Undisturbed before after key ↔
      Alike before.store middle.store before.scheme after.scheme key (before.usesOf key) :=
    alike_of_definitions driven.carried.definitions_eq
  have planned : key ∈ targets ↔ ¬ Undisturbed before after key := by
    rw [driven.mem_targets_iff, sameUses, alike]
    exact prepared.concerned_iff upheld driven.carried.reworked own _
  by_cases undisturbed : Undisturbed before after key
  · have notTarget : key ∉ targets := fun target => planned.mp target undisturbed
    exact .spared undisturbed (spared.trans (driven.pass.spared key (if_neg notTarget)))
  · have fate := driven.pass.fate key _ (if_pos (planned.mpr undisturbed))
    exact .visited undisturbed (spared.fate drawn fate)

/-- So it is when the languages stay. -/
theorem course_of_languages (driven : Driven middle after kind names edited mutated targets report)
    (prepared : Prepared before middle kind names edited mutated) (upheld : before.Upheld)
    (spared : Spared before middle key first)
    (drawn : before.cache.nextGeneration ≤ middle.cache.nextGeneration)
    (sameLanguages : key.kind = .template → after.scheme.languages.contains key.language =
      before.scheme.languages.contains key.language) :
    Course before after key (first ++ report.about key) :=
  driven.course prepared upheld spared drawn
    (prepared.ownConcerned_iff upheld driven.carried.reworked sameLanguages)

/-- A cascade that nothing comes before is a whole edit when the languages stay and the trees are stored. -/
theorem completed (driven : Driven middle after kind names edited mutated targets report)
    (prepared : Prepared before middle kind names edited mutated) (upheld : before.Upheld)
    (same : HoldsAs before middle) (founded : after.Founded)
    (sameLanguages : ∀ position, after.scheme.languages.contains position =
      before.scheme.languages.contains position) :
    Completed before after (fun _ => False) report := by
  have drawn : before.cache.nextGeneration ≤ middle.cache.nextGeneration := by rw [same.cache_eq]
  refine ⟨?_, driven.config_eq.trans prepared.config_eq, driven.registry_eq.trans prepared.registry_eq,
    drawn.trans driven.pass.drawn, fun key _ => ?_, fun _ => False.elim⟩
  · exact driven.carried.upheld prepared upheld rfl rfl rfl driven.carried.sound founded
  · exact driven.course_of_languages prepared upheld (same.spared key) drawn fun _ =>
      sameLanguages key.language

end Driven

/-! ## Definitions -/

section

variable {name content source text : String} {position style language : Position}

/-- Storing a definition is followed by a cascade of its name. -/
theorem define_driven (upheld : engine.Upheld)
    (isNew : engine.store.isKept kind name position content = false)
    (succeeded : engine.perform (define kind position name content) = (.ok report, after)) :
    ∃ targets, Driven (engine.redefined kind position name content) after kind
      (Std.ExtTreeSet.ofList [name]) (some (engine.store.define kind position name content).2)
      engine.scheme targets report := by
  have mutates : (.ok engine.scheme : Except TreeError InheritanceScheme) = .ok engine.scheme := rfl
  rcases (prepared_redefined engine upheld isNew).perform_driven mutates with
    ⟨_, last, targets, performed, driven⟩
  rw [cascade_of_define upheld.wellFormed succeeded, Prod.mk.injEq, Except.ok.injEq] at performed
  rcases performed with ⟨rfl, rfl⟩
  exact ⟨targets, driven⟩

theorem define_completed (upheld : engine.Upheld)
    (isNew : engine.store.isKept kind name position content = false)
    (succeeded : engine.perform (define kind position name content) = (.ok report, after)) :
    Completed engine after (fun _ => False) report := by
  have prepared := prepared_redefined engine upheld isNew
  rcases define_driven upheld isNew succeeded with ⟨targets, driven⟩
  apply driven.completed prepared upheld ⟨rfl, rfl⟩ (define_stores upheld.founded succeeded).founded
  intro position
  exact congrArg (fun tree => tree.contains position) (driven.carried.reworked.tree_eq .language)

theorem saveTemplate_completed (upheld : engine.Upheld)
    (succeeded : engine.perform (saveTemplate style name source) = (.ok report, after)) :
    Completed engine after (fun _ => False) report := by
  rcases perform_saveTemplate upheld.wellFormed style name source with
    ⟨_, performed⟩ | ⟨isNew, memo, sound, ⟨_, performed⟩ | ⟨_, performed⟩⟩
  · rw [performed, Prod.mk.injEq, Except.ok.injEq] at succeeded
    rcases succeeded with ⟨rfl, rfl⟩
    exact Completed.refl upheld
  · rw [performed] at succeeded
    have completed := define_completed (upheld.withMemo (sound upheld.sound)) isNew succeeded
    exact ⟨completed.upheld, completed.config_eq, completed.registry_eq, completed.drawn,
      fun key once => (completed.course key once).of_withMemo, fun _ => False.elim⟩
  · rw [performed] at succeeded
    cases succeeded

theorem savePhrase_completed (upheld : engine.Upheld)
    (succeeded : engine.perform (savePhrase language name text) = (.ok report, after)) :
    Completed engine after (fun _ => False) report := by
  rw [perform_savePhrase upheld.wellFormed] at succeeded
  split at succeeded
  · rw [Prod.mk.injEq, Except.ok.injEq] at succeeded
    rcases succeeded with ⟨rfl, rfl⟩
    exact Completed.refl upheld
  · next isNew =>
      rw [Bool.not_eq_true] at isNew
      exact define_completed upheld isNew succeeded

theorem deleteDefinition_completed (upheld : engine.Upheld)
    (succeeded : engine.perform (deleteDefinition kind name position) = (.ok report, after)) :
    Completed engine after (fun _ => False) report := by
  rcases cascade_of_deleteDefinition upheld.wellFormed succeeded with ⟨middle, released, performed⟩
  have prepared := prepared_released upheld released
  have mutates : (.ok engine.scheme : Except TreeError InheritanceScheme) = .ok engine.scheme := rfl
  rcases prepared.perform_driven mutates with ⟨_, last, targets, again, driven⟩
  rw [performed, Prod.mk.injEq, Except.ok.injEq] at again
  rcases again with ⟨rfl, rfl⟩
  have same : HoldsAs engine middle := ⟨by rw [released.frame], by rw [released.frame]⟩
  apply driven.completed prepared upheld same (deleteDefinition_stores upheld.founded succeeded).founded
  intro position
  exact congrArg (fun tree => tree.contains position) (driven.carried.reworked.tree_eq .language)

end

/-! ## Positions -/

section

variable {tree : TreeKind} {id parent : Position}

theorem Course.replanted (course : Course before after key report) (tree : TreeKind)
    (nodes : Std.ExtTreeMap Position TreeNode) : Course before (after.replanted tree nodes) key report := by
  have same : HoldsAs after (after.replanted tree nodes) := ⟨rfl, rfl⟩
  have definitions := MemoryStore.definitions_withNodes after.store tree nodes
  have whole := course.onward (same.spared key) (le_refl _) definitions rfl rfl
  rwa [CascadeReport.append_empty] at whole

/-- A cascade is upheld when the changed nodes are stored behind it. -/
theorem Carried.upheld_replanted (carried : Carried middle after kind names mutated)
    (prepared : Prepared before middle kind names edited mutated) (upheld : before.Upheld)
    {nodes : Std.ExtTreeMap Position TreeNode} (founded : (after.replanted tree nodes).Founded) :
    (after.replanted tree nodes).Upheld := by
  have definitions : (after.replanted tree nodes).store.definitions = after.store.definitions :=
    MemoryStore.definitions_withNodes after.store tree nodes
  refine carried.upheld prepared upheld definitions (MemoryStore.nextId_withNodes after.store tree nodes)
    rfl ?_ founded
  refine carried.sound.of_definitions fun id definition stored => ?_
  rwa [MemoryStore.definition?, definitions] at stored

theorem movePosition_completed (upheld : engine.Upheld)
    (succeeded : engine.perform (movePosition tree id parent) = (.ok report, after)) :
    Completed engine after (fun _ => False) report := by
  rcases movePosition_stores upheld.founded succeeded with ⟨_, _, _, stores⟩
  rcases steps_of_movePosition upheld.wellFormed succeeded with
    ⟨moved, move, names, between, set, unselected, performed, rfl⟩
  have isMoved := PositionTree.setParent_moved set
  have prepared := prepared_moved upheld isMoved unselected
  rcases prepared.perform_driven (changeTree_setParent set) with ⟨_, _, targets, again, driven⟩
  rw [performed, Prod.mk.injEq, Except.ok.injEq] at again
  rcases again with ⟨rfl, rfl⟩
  refine ⟨driven.carried.upheld_replanted prepared upheld stores.founded, driven.config_eq,
    driven.registry_eq, driven.pass.drawn, fun key _ => ?_, fun _ => False.elim⟩
  have same : HoldsAs engine engine := ⟨rfl, rfl⟩
  have course := driven.course_of_languages prepared upheld (same.spared key) (le_refl _) fun _ =>
    contains_language_moved isMoved driven.carried.reworked key.language
  exact course.replanted tree _

/-! ### New positions -/

/-- The keys that an edit builds twice: templates of a new language which the cascade has built already,
because a phrase that is on record for them is in effect there. -/
def Doubled (before after : Engine MemoryStore) : Edit → ArtifactKey → Prop
  | .addPosition .language id _, .template style language name =>
      language = id ∧ .template style language name ∈ after.scheme.allKeys ∧
        ∃ phrase ∈ (before.usesOf (.template style language name)).phrases,
          after.resolve? .phrase phrase language ≠ none
  | _, _ => False

/-- What is built behind the cascade is a pass over the keys that the new position calls for. -/
theorem pass_buildAdded (sound : between.memo.Sound between.store)
    (performed : between.perform (buildAdded tree id first) = (.ok report, after)) :
    ∃ more, report = first ++ more ∧ Pass between after more fun key =>
      if key ∈ addedKeys between.scheme tree id then some (between.outcome key) else none := by
  cases tree with
  | style =>
      rw [buildAdded, perform_pure, Prod.mk.injEq, Except.ok.injEq] at performed
      rcases performed with ⟨rfl, rfl⟩
      refine ⟨CascadeReport.empty, (CascadeReport.append_empty _).symm, ?_⟩
      exact (Pass.silent ⟨rfl, rfl⟩).congr fun key => (if_neg List.not_mem_nil).symm
  | language =>
      rcases perform_buildTargets between (Targets.direct (addedKeys between.scheme .language id)) with
        ⟨more, last, built, _⟩
      simp only [buildAdded, perform_bind, perform_get, built, perform_pure, Prod.mk.injEq,
        Except.ok.injEq] at performed
      rcases performed with ⟨rfl, rfl⟩
      refine ⟨more, rfl, (pass_buildTargets between sound built).congr fun key => ?_⟩
      simp only [Targets.mem_direct]

section Adding

variable {grown : PositionTree}
  (isGrown : (engine.scheme.tree tree).Grown grown id parent)
  (prepared : Prepared engine (engine.planted tree id parent) tree.defines names none
    (engine.scheme.withTree tree grown))
  (driven : Driven (engine.planted tree id parent) between tree.defines names none
    (engine.scheme.withTree tree grown) targets first)

include isGrown prepared driven

/-- A key at a new position is concerned if a phrase that is on record for it resolves there. -/
theorem mem_targets_of_new_language (upheld : engine.Upheld) (isLanguage : tree = .language)
    (isTemplate : key.kind = .template) (atId : key.language = id) :
    key ∈ targets ↔ ∃ phrase ∈ (engine.usesOf key).phrases, between.resolve? .phrase phrase id ≠ none := by
  subst isLanguage
  have nowhere : ∀ name, engine.resolve? .phrase name id = none := by
    intro name
    rw [Option.eq_none_iff_forall_ne_some]
    intro definition resolved
    have inTree : (engine.scheme.tree .language).contains id = true :=
      (upheld.tracks .phrase name).trailing.inTree id definition resolved
    rw [isGrown.absent] at inTree
    cases inTree
  have affected : ∀ name, IsAffected (engine.scheme.withTree .language grown) between.scheme .phrase none
      name id ↔ between.resolve? .phrase name id ≠ none := by
    intro name
    have before := nowhere name
    rw [resolve?] at before
    rw [IsAffected, InheritanceScheme.map_withTree, before, resolve?]
    simp [eq_comm]
  rw [driven.mem_targets_iff]
  refine (or_iff_right (not_ownConcerned_of_template isTemplate)).trans ?_
  change (∃ name ∈ names.toList, name ∈ (engine.usesOf key).phrases ∧ IsAffected _ _ .phrase none name
    key.language) ↔ _
  simp only [atId, affected]
  constructor
  · rintro ⟨name, _, used, resolved⟩
    exact ⟨name, used, resolved⟩
  · rintro ⟨name, used, resolved⟩
    have different : (between.scheme.map .phrase).resolve? name id ≠
        (engine.scheme.map .phrase).resolve? name id :=
      fun same => resolved (same.trans (nowhere name))
    exact ⟨name, prepared.selected_of_resolve?_ne driven.carried.reworked different, used, resolved⟩

/-- The keys that the cascade and what is built behind it have in common. -/
theorem doubled_iff (upheld : engine.Upheld)
    (tracks : ∀ name, Tracks between.store between.scheme .template name)
    (sameScheme : after.scheme = between.scheme) :
    Doubled engine after (.addPosition tree id parent) key ↔
      key ∈ addedKeys between.scheme tree id ∧ key ∈ targets := by
  have languages := contains_language_planted isGrown driven.carried.reworked
  have added := @mem_addedKeys tree id between.store between.scheme tracks
    (fun isLanguage => (languages id).mpr (Or.inl ⟨isLanguage, rfl⟩)) key
  cases tree with
  | style => exact iff_of_false not_false fun both => absurd both.1 List.not_mem_nil
  | language =>
      cases key with
      | phrase language name =>
          exact iff_of_false not_false fun both => nomatch (added.mp both.1).2.1
      | template style language name =>
          -- The cascade comes by only for what the key is on record with, since its own name is no phrase.
          have visited := fun atId => mem_targets_of_new_language isGrown prepared driven upheld rfl
            (@rfl _ (ArtifactKey.template style language name).kind) atId
          have same : ∀ phrase, after.resolve? .phrase phrase language =
              between.resolve? .phrase phrase language := fun _ => by rw [resolve?, resolve?, sameScheme]
          simp only [Doubled, same]
          rw [added, sameScheme, InheritanceScheme.mem_allKeys_iff between.store]
          constructor
          · rintro ⟨rfl, wanted, used⟩
            exact ⟨⟨rfl, rfl, rfl, wanted⟩, (visited rfl).mpr used⟩
          · rintro ⟨⟨_, _, atId, wanted⟩, target⟩
            change language = id at atId
            subst atId
            exact ⟨rfl, wanted, (visited rfl).mp target⟩

variable {more : CascadeReport} (upheld : engine.Upheld)
  (tracks : ∀ name, Tracks between.store between.scheme .template name)
  (behind : Pass between after more fun key =>
    if key ∈ addedKeys between.scheme tree id then some (between.outcome key) else none)
  (definitions : after.store.definitions = between.store.definitions)
  (sameScheme : after.scheme = between.scheme) (sameRegistry : after.registry = between.registry)

include upheld tracks behind definitions sameScheme sameRegistry

omit prepared upheld behind sameRegistry in
/-- What is built behind the cascade had nothing in effect before, and has now. -/
theorem called_of_added (isAdded : key ∈ addedKeys between.scheme tree id) :
    ¬ Undisturbed engine after key ∧ own? after.store after.scheme key ≠ none := by
  rcases own?_of_added isGrown driven.carried.reworked tracks isAdded with ⟨nothing, some⟩
  rw [← own?_of_definitions definitions, ← sameScheme] at some
  exact ⟨fun undisturbed => some (undisturbed.own_eq.trans nothing), some⟩

/-- What the cascade spares is visited behind it if the new position calls for it. -/
theorem course_of_planted (once : ¬ (key ∈ addedKeys between.scheme tree id ∧ key ∈ targets)) :
    Course engine after key (first.about key ++ more.about key) := by
  have start : HoldsAs engine (engine.planted tree id parent) := ⟨rfl, rfl⟩
  by_cases isAdded : key ∈ addedKeys between.scheme tree id
  · have notTarget : key ∉ targets := fun target => once ⟨isAdded, target⟩
    have spared := (start.spared key).trans (driven.pass.spared key (if_neg notTarget))
    have fate := spared.fate driven.pass.drawn (behind.fate key _ (if_pos isAdded))
    refine .visited (called_of_added isGrown driven tracks definitions sameScheme isAdded).1 ?_
    rwa [outcome_eq_of_definitions definitions sameScheme sameRegistry]
  · have course := driven.course prepared upheld (start.spared key) (le_refl _)
      (ownConcerned_iff_of_not_added upheld isGrown prepared driven.carried.reworked isAdded)
    exact course.onward (behind.spared key (if_neg isAdded)) behind.drawn definitions sameScheme sameRegistry

omit prepared upheld in
/-- What the cascade has built is built again behind it. -/
theorem twice_of_planted (isAdded : key ∈ addedKeys between.scheme tree id) (target : key ∈ targets) :
    Twice engine after key (first.about key ++ more.about key) := by
  have start : HoldsAs engine (engine.planted tree id parent) := ⟨rfl, rfl⟩
  have sameOutcome := outcome_eq_of_definitions definitions sameScheme sameRegistry key
  have fate := (start.spared key).fate (le_refl _) (driven.pass.fate key _ (if_pos target))
  rcases called_of_added isGrown driven tracks definitions sameScheme isAdded with ⟨disturbed, present⟩
  refine ⟨disturbed, present, between, first.about key, more.about key, driven.pass.drawn, behind.drawn, ?_,
    ?_, rfl⟩
  · rwa [sameOutcome]
  · rw [sameOutcome]
    exact behind.fate key _ (if_pos isAdded)

end Adding

theorem addPosition_completed (upheld : engine.Upheld)
    (succeeded : engine.perform (addPosition tree id parent) = (.ok report, after)) :
    Completed engine after (Doubled engine after (.addPosition tree id parent)) report := by
  rcases steps_of_addPosition upheld.wellFormed succeeded with
    ⟨grown, names, first, between, added, unselected, performed, followed⟩
  have isGrown := PositionTree.insert_grown added
  have prepared := prepared_planted upheld added unselected
  rcases prepared.perform_driven (changeTree_insert added) with ⟨_, _, targets, again, driven⟩
  rw [performed, Prod.mk.injEq, Except.ok.injEq] at again
  rcases again with ⟨rfl, rfl⟩
  have carried := driven.carried
  have treesBetween : TreesOf between.store between.scheme :=
    (treesOf_planted upheld.founded added).of_eq carried.nodes_eq carried.reworked.tree_eq
  have betweenUpheld := carried.upheld prepared upheld rfl rfl rfl carried.sound
    ⟨carried.wellFormed, treesBetween, carried.backed⟩
  have tracks := betweenUpheld.tracks .template
  rcases pass_buildAdded betweenUpheld.sound followed with ⟨more, rfl, behind⟩
  rcases perform_buildAdded between tree id first with ⟨_, _, answer, built, settling⟩
  rw [followed, Prod.mk.injEq] at built
  rcases built with ⟨_, rfl⟩
  have doubled : ∀ key, Doubled engine after (.addPosition tree id parent) key ↔
      key ∈ addedKeys between.scheme tree id ∧ key ∈ targets :=
    fun key => doubled_iff isGrown prepared driven upheld tracks settling.scheme_eq
  have drawn : engine.cache.nextGeneration ≤ between.cache.nextGeneration := driven.pass.drawn
  refine ⟨settling.upheld betweenUpheld, settling.config_eq.trans driven.config_eq,
    settling.registry_eq.trans driven.registry_eq, drawn.trans behind.drawn, fun key once => ?_,
    fun key again => ?_⟩
  · rw [CascadeReport.about_append]
    exact course_of_planted isGrown prepared driven upheld tracks behind settling.definitions_eq
      settling.scheme_eq settling.registry_eq fun both => once ((doubled key).mpr both)
  · rcases (doubled key).mp again with ⟨isAdded, target⟩
    rw [CascadeReport.about_append]
    exact twice_of_planted isGrown driven tracks behind settling.definitions_eq settling.scheme_eq
      settling.registry_eq isAdded target

/-! ### Removed positions -/

/-- What comes before the cascade is a pass over the artifacts at the position. -/
theorem Uprooting.pass (uprooting : Uprooting engine between middle tree id report) :
    Pass engine middle report fun key =>
      if key ∈ engine.heldAt tree id then some .unresolved else none := by
  have distinct : (engine.heldAt tree id).Nodup := (nodup_keys engine.cache.artifacts).filter _
  have same : HoldsAs engine between :=
    ⟨by rw [uprooting.released.frame], by rw [uprooting.released.frame]⟩
  exact (pass_dropAll between distinct uprooting.performed).of_same same ⟨rfl, rfl⟩

section Removing

variable {left : PositionTree} {dropped : CascadeReport}
  (uprooting : Uprooting engine between middle tree id dropped)
  (isWithout : (engine.scheme.tree tree).Without left id parent)
  (driven : Driven middle after tree.defines (engine.namesResolvingAt tree.defines id) none
    (engine.scheme.withTree tree left) targets first)

include uprooting isWithout driven

/-- What is at the position is gone, whether it has been dropped first or is dropped by the cascade. -/
theorem course_at_removed (upheld : engine.Upheld) (here : isAt tree id key = true) :
    Course engine after key (dropped.about key ++ first.about key) := by
  have reworked := driven.carried.reworked
  have tracks := (prepared_uprooted upheld uprooting isWithout).tracksAll upheld reworked
  have nothing := own?_of_removed isWithout reworked (tracks tree.defines) here
  rw [← own?_of_definitions driven.carried.definitions_eq] at nothing
  have unresolved := outcome_eq_unresolved_iff.mpr nothing
  have dropping := uprooting.pass
  apply Course.gone nothing
  -- What is held is dropped first; the cascade also finds what is only on record, or still is.
  by_cases target : key ∈ targets
  · have fate := driven.pass.fate key _ (if_pos target)
    rw [unresolved] at fate
    refine .inr ?_
    by_cases held : key ∈ engine.heldAt tree id
    · exact (dropping.fate key _ (if_pos held)).dropped_again fate
    · exact (dropping.spared key (if_neg held)).fate dropping.drawn fate
  · have spared := driven.pass.spared key (if_neg target)
    by_cases held : key ∈ engine.heldAt tree id
    · exact .inr ((dropping.fate key _ (if_pos held)).spared spared driven.pass.drawn)
    · exact .inl ((dropping.spared key (if_neg held)).trans spared)

/-- Elsewhere nothing has been done before the cascade. -/
theorem course_besides_removed (upheld : engine.Upheld) (elsewhere : ¬ isAt tree id key = true) :
    Course engine after key (dropped.about key ++ first.about key) := by
  have dropping := uprooting.pass
  have notHeld : key ∉ engine.heldAt tree id := fun member => elsewhere ((mem_heldAt engine).mp member).2
  apply driven.course_of_languages (prepared_uprooted upheld uprooting isWithout) upheld
    (dropping.spared key (if_neg notHeld)) dropping.drawn
  exact fun _ => contains_language_elsewhere isWithout driven.carried.reworked elsewhere

end Removing

theorem removePosition_completed (upheld : engine.Upheld)
    (succeeded : engine.perform (removePosition tree id) = (.ok report, after)) :
    Completed engine after (fun _ => False) report := by
  rcases removePosition_stores upheld.founded succeeded with ⟨_, _, _, stores⟩
  rcases steps_of_removePosition upheld.founded succeeded with
    ⟨between, middle, dropped, left, removal, first, last, parent, uprooting, removed, isWithout,
      carried, _, rfl, rfl⟩
  have prepared := prepared_uprooted upheld uprooting isWithout
  rcases prepared.perform_driven (changeTree_remove removed) with ⟨_, _, targets, again, driven⟩
  rw [carried, Prod.mk.injEq, Except.ok.injEq] at again
  rcases again with ⟨rfl, rfl⟩
  refine ⟨driven.carried.upheld_replanted prepared upheld stores.founded,
    driven.config_eq.trans prepared.config_eq, driven.registry_eq.trans prepared.registry_eq,
    uprooting.pass.drawn.trans driven.pass.drawn, fun key _ => ?_, fun _ => False.elim⟩
  rw [CascadeReport.about_append]
  by_cases here : isAt tree id key = true
  · exact (course_at_removed uprooting isWithout driven upheld here).replanted tree _
  · exact (course_besides_removed uprooting isWithout driven upheld here).replanted tree _

end

/-- An edit visits the keys for which something else is in effect, and spares the others. -/
theorem edit_completed {edit : Edit} (upheld : engine.Upheld)
    (succeeded : engine.perform edit.command = (.ok report, after)) :
    Completed engine after (Doubled engine after edit) report := by
  cases edit with
  | saveTemplate style name source => exact saveTemplate_completed upheld succeeded
  | savePhrase language name text => exact savePhrase_completed upheld succeeded
  | deleteDefinition kind name position => exact deleteDefinition_completed upheld succeeded
  | addPosition tree id parent => exact addPosition_completed upheld succeeded
  | movePosition tree id parent => exact movePosition_completed upheld succeeded
  | removePosition tree id => exact removePosition_completed upheld succeeded

end Engine
end TemplateCascade
