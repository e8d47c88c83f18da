import Mathlib
import TemplateCascade.Proofs.Engine.Cascading

namespace TemplateCascade
namespace Engine

/-!
# Staying in step with the store

An engine is in step with its store when everything that it derives is what the store gives; which
artifacts it holds is left open.  A command advances such an engine when it is in step again afterwards
and has answered the slots for which something is in effect that was not before, and no others.

Names that a cascade does not select resolve as before, and their definitions are the same.  For the
selected ones the affected positions are exactly those where something else is in effect.
-/

open Compile (Registry Uses)

/-- What an engine derives is what its store gives. -/
structure InStep (engine : Engine MemoryStore) : Prop where
  builtIn : engine.registry = Registry.builtIn
  wellFormed : engine.store.WellFormed
  trees : TreesOf engine.store engine.scheme
  maps : MapsOf engine.store engine.scheme
  backed : engine.Backed
  sound : engine.memo.Sound engine.store

/-- An engine has derived everything from its store, whatever functions it knows. -/
structure Derived (engine : Engine MemoryStore) : Prop where
  wellFormed : engine.store.WellFormed
  trees : TreesOf engine.store engine.scheme
  maps : MapsOf engine.store engine.scheme
  backed : engine.Backed
  sound : engine.memo.Sound engine.store

theorem InStep.derived {engine : Engine MemoryStore} (inStep : engine.InStep) : engine.Derived :=
  ⟨inStep.wellFormed, inStep.trees, inStep.maps, inStep.backed, inStep.sound⟩

theorem Derived.inStep {engine : Engine MemoryStore} (derived : engine.Derived)
    (builtIn : engine.registry = Registry.builtIn) : engine.InStep :=
  ⟨builtIn, derived.wellFormed, derived.trees, derived.maps, derived.backed, derived.sound⟩

theorem Derived.founded {engine : Engine MemoryStore} (derived : engine.Derived) : engine.Founded :=
  ⟨derived.wellFormed, derived.trees, derived.backed⟩

/-- An engine has derived everything from its store, except that names may lag behind at the root. -/
structure Upheld (engine : Engine MemoryStore) : Prop where
  wellFormed : engine.store.WellFormed
  trees : TreesOf engine.store engine.scheme
  tracks : ∀ kind name, Tracks engine.store engine.scheme kind name
  backed : engine.Backed
  sound : engine.memo.Sound engine.store

theorem Derived.upheld {engine : Engine MemoryStore} (derived : engine.Derived) : engine.Upheld :=
  ⟨derived.wellFormed, derived.trees, derived.maps.tracks derived.wellFormed, derived.backed,
    derived.sound⟩

theorem InStep.upheld {engine : Engine MemoryStore} (inStep : engine.InStep) : engine.Upheld :=
  inStep.derived.upheld

theorem Upheld.founded {engine : Engine MemoryStore} (upheld : engine.Upheld) : engine.Founded :=
  ⟨upheld.wellFormed, upheld.trees, upheld.backed⟩

theorem Upheld.withMemo {engine : Engine MemoryStore} (upheld : engine.Upheld)
    {memo : Markup.ParseMemo} (sound : memo.Sound engine.store) :
    ({ engine with memo := memo } : Engine MemoryStore).Upheld :=
  ⟨upheld.wellFormed, upheld.trees, upheld.tracks,
    ⟨upheld.backed.stored, upheld.backed.keyed, upheld.backed.consistent⟩, sound⟩

/-- What building a key from scratch gives for what is stored. -/
def scratch (engine : Engine MemoryStore) (key : ArtifactKey) : Outcome :=
  fresh engine.store engine.scheme key

/-- The names that are on record for a key. -/
def usesOf (engine : Engine MemoryStore) (key : ArtifactKey) : Uses :=
  (engine.slot key).recorded.getD Uses.none

/-- The same is in effect before and after, for a key and for the names that are on its record. -/
def Undisturbed (before after : Engine MemoryStore) (key : ArtifactKey) : Prop :=
  Alike before.store after.store before.scheme after.scheme key (before.usesOf key)

/-- What a command may do to one slot. -/
inductive SlotStep (before after : Engine MemoryStore) (key : ArtifactKey) : Prop where
  | kept (undisturbed : Undisturbed before after key) (slot_eq : after.slot key = before.slot key)
  | answered (disturbed : ¬ Undisturbed before after key)
      (slot_eq : after.slot key =
        (before.slot key).answer before.config.failurePolicy key (after.scratch key))
  | dropped (unresolved : own? after.store after.scheme key = none)
      (held_eq : (after.slot key).held = none)

/-- A command has brought everything in line with a change of the store. -/
structure Advances (before after : Engine MemoryStore) : Prop where
  inStep : after.InStep
  config_eq : after.config = before.config
  slotStep : ∀ key, SlotStep before after key

theorem Advances.refl {engine : Engine MemoryStore} (inStep : engine.InStep) :
    Advances engine engine :=
  ⟨inStep, rfl, fun _ => .kept ⟨rfl, fun _ _ _ _ => rfl, fun _ _ => rfl⟩ rfl⟩

theorem Derived.withMemo {engine : Engine MemoryStore} (derived : engine.Derived)
    {memo : Markup.ParseMemo} (sound : memo.Sound engine.store) :
    ({ engine with memo := memo } : Engine MemoryStore).Derived :=
  ⟨derived.wellFormed, derived.trees, derived.maps,
    ⟨derived.backed.stored, derived.backed.keyed, derived.backed.consistent⟩, sound⟩

theorem InStep.withMemo {engine : Engine MemoryStore} (inStep : engine.InStep)
    {memo : Markup.ParseMemo} (sound : memo.Sound engine.store) :
    ({ engine with memo := memo } : Engine MemoryStore).InStep :=
  (inStep.derived.withMemo sound).inStep inStep.builtIn

theorem InStep.founded {engine : Engine MemoryStore} (inStep : engine.InStep) : engine.Founded :=
  inStep.derived.founded

theorem Founded.withMemo {engine : Engine MemoryStore} (founded : engine.Founded)
    {memo : Markup.ParseMemo} : ({ engine with memo := memo } : Engine MemoryStore).Founded :=
  ⟨founded.wellFormed, founded.trees,
    ⟨founded.backed.stored, founded.backed.keyed, founded.backed.consistent⟩⟩

/-- Answering slots changes nothing that the scheme is derived from. -/
theorem Settling.derived {before after : Engine MemoryStore} {answer : ArtifactKey → Slot → Slot}
    (settling : Settling before after answer) (derived : before.Derived) : after.Derived where
  wellFormed := settling.wellFormed derived.wellFormed
  trees := (settling.founded derived.founded).trees
  maps := by
    rw [settling.scheme_eq]
    refine ⟨derived.maps.kind_eq, fun other name => ?_⟩
    have same : after.store.direct other name = before.store.direct other name := by
      simp only [MemoryStore.direct, MemoryStore.definitionsOf, settling.definitions_eq]
    rw [same]
    exact derived.maps.resolves other name
  backed := settling.backed derived.backed
  sound := by
    refine (settling.sound derived.sound).of_definitions fun id definition stored => ?_
    rwa [MemoryStore.definition?, settling.definitions_eq] at stored

/-- So it is when names lag behind at the root. -/
theorem Settling.upheld {before after : Engine MemoryStore} {answer : ArtifactKey → Slot → Slot}
    (settling : Settling before after answer) (upheld : before.Upheld) : after.Upheld where
  wellFormed := settling.wellFormed upheld.wellFormed
  trees := (settling.founded upheld.founded).trees
  tracks := by
    intro kind name
    have next : after.store.nextId = before.store.nextId := by rw [settling.store_eq]
    have tracks := upheld.tracks kind name
    refine tracks.onward (MemoryStore.onward_of_definitions settling.definitions_eq next) ?_ ?_
    · rw [settling.scheme_eq]
    · have same : after.store.direct kind name = before.store.direct kind name := by
        simp only [MemoryStore.direct, MemoryStore.definitionsOf, settling.definitions_eq]
      rw [settling.scheme_eq, same]
      exact tracks.trailing
  backed := settling.backed upheld.backed
  sound := by
    refine (settling.sound upheld.sound).of_definitions fun id definition stored => ?_
    rwa [MemoryStore.definition?, settling.definitions_eq] at stored

/-- Answering slots keeps an engine in step. -/
theorem Settling.inStep {before after : Engine MemoryStore} {answer : ArtifactKey → Slot → Slot}
    (settling : Settling before after answer) (inStep : before.InStep) : after.InStep :=
  (settling.derived inStep.derived).inStep (settling.registry_eq.trans inStep.builtIn)

/-- Remembering trees is no part of what a command does. -/
theorem Advances.of_withMemo {engine after : Engine MemoryStore} {memo : Markup.ParseMemo}
    (advances : Advances { engine with memo := memo } after) : Advances engine after := by
  refine ⟨advances.inStep, advances.config_eq, fun key => ?_⟩
  cases advances.slotStep key with
  | kept undisturbed slot_eq => exact .kept undisturbed slot_eq
  | answered disturbed slot_eq => exact .answered disturbed slot_eq
  | dropped unresolved held_eq => exact .dropped unresolved held_eq

/-! ## Before a cascade -/

variable {before middle : Engine MemoryStore} {kind : DefinitionKind} {names : Std.ExtTreeSet String}
  {edited : Option DefinitionId} {mutated scheme : InheritanceScheme}

/--
The store has been changed, and names have been selected for a cascade.  Only names that are not selected
have to resolve as before, to definitions that are as they were, and only the edited definition may have
another content.
-/
structure Prepared (before middle : Engine MemoryStore) (kind : DefinitionKind)
    (names : Std.ExtTreeSet String) (edited : Option DefinitionId) (mutated : InheritanceScheme) :
    Prop where
  scheme_eq : middle.scheme = before.scheme
  config_eq : middle.config = before.config
  registry_eq : middle.registry = before.registry
  wellFormed : middle.store.WellFormed
  backed : middle.Backed
  sound : middle.memo.Sound middle.store
  map_eq : ∀ other, mutated.map other = before.scheme.map other
  tree_other : ∀ tree, tree ≠ kind.tree → mutated.tree tree = before.scheme.tree tree
  direct_other : ∀ other, other ≠ kind → ∀ name,
    middle.store.direct other name = before.store.direct other name
  definition_other : ∀ other, other ≠ kind → ∀ id,
    middle.store.definition? other id = before.store.definition? other id
  onward : before.store.Onward middle.store
  unselected : ∀ name, name ∉ names →
    flatten (mutated.tree kind.tree) (middle.store.direct kind name) =
      flatten (before.scheme.tree kind.tree) (before.store.direct kind name)
  tracks : ∀ name, name ∉ names → Tracks middle.store mutated kind name
  unaltered : ∀ id definition, before.store.definition? kind id = some definition →
    definition.name ∉ names → middle.store.definition? kind id = some definition
  content_iff : ∀ id old new, before.store.definition? kind id = some old →
    middle.store.definition? kind id = some new → (new.content ≠ old.content ↔ edited = some id)

/-- What building a key gives depends on the definitions of a store only. -/
theorem fresh_of_definitions {store other : MemoryStore}
    (same : other.definitions = store.definitions) (scheme : InheritanceScheme) (key : ArtifactKey) :
    fresh other scheme key = fresh store scheme key := by
  refine fresh_eq_of_alike ⟨own?_of_definitions same scheme key, ?_, ?_⟩
  · exact fun name _ style _ => effective?_of_definitions same scheme .template name style
  · exact fun name _ => effective?_of_definitions same scheme .phrase name key.language

theorem direct_of_definitions {store other : MemoryStore}
    (same : other.definitions = store.definitions) (kind : DefinitionKind) (name : String) :
    other.direct kind name = store.direct kind name := by
  simp only [MemoryStore.direct, MemoryStore.definitionsOf, same]

theorem alike_of_definitions {store other last : MemoryStore} {first second : InheritanceScheme}
    (same : last.definitions = other.definitions) {key : ArtifactKey} {uses : Uses} :
    Alike store last first second key uses ↔ Alike store other first second key uses := by
  have effective : ∀ kind name position,
      effective? last second kind name position = effective? other second kind name position :=
    effective?_of_definitions same second
  have own := own?_of_definitions same second key
  constructor
  · intro alike
    refine ⟨own ▸ alike.own_eq, fun name member style isStyle => ?_, fun name member => ?_⟩
    · exact effective .template name style ▸ alike.includes_eq name member style isStyle
    · exact effective .phrase name key.language ▸ alike.phrases_eq name member
  · intro alike
    refine ⟨own ▸ alike.own_eq, fun name member style isStyle => ?_, fun name member => ?_⟩
    · exact effective .template name style ▸ alike.includes_eq name member style isStyle
    · exact effective .phrase name key.language ▸ alike.phrases_eq name member

/-- Only the definitions, the scheme and the slot itself count for what has been done to a slot. -/
theorem SlotStep.of_same {after last : Engine MemoryStore} {key : ArtifactKey}
    (step : SlotStep before after key)
    (definitions : last.store.definitions = after.store.definitions)
    (sameScheme : last.scheme = after.scheme) (sameSlot : last.slot key = after.slot key) :
    SlotStep before last key := by
  have undisturbed : Undisturbed before last key ↔ Undisturbed before after key := by
    rw [Undisturbed, sameScheme]
    exact alike_of_definitions definitions
  cases step with
  | kept still slot_eq => exact .kept (undisturbed.mpr still) (sameSlot.trans slot_eq)
  | answered disturbed slot_eq =>
      refine .answered (disturbed ∘ undisturbed.mp) ?_
      rw [sameSlot, slot_eq, scratch, scratch, sameScheme, fresh_of_definitions definitions]
  | dropped unresolved held_eq =>
      refine .dropped ?_ (sameSlot ▸ held_eq)
      rw [sameScheme, own?_of_definitions definitions, unresolved]

/-- Definitions of one kind may be gone from the store; the scheme is as before. -/
structure Cleared (before middle : Engine MemoryStore) (gone : Definition → Prop) : Prop where
  fewer : before.store.Fewer middle.store gone
  onward : before.store.Onward middle.store
  scheme_eq : middle.scheme = before.scheme
  config_eq : middle.config = before.config
  registry_eq : middle.registry = before.registry
  wellFormed : middle.store.WellFormed
  backed : middle.Backed
  sound : middle.memo.Sound middle.store

/-- Without an edited definition, what is to be shown is how the names resolve that are not selected. -/
theorem Cleared.prepared {gone : Definition → Prop} (cleared : Cleared before middle gone)
    (wellFormed : before.store.WellFormed) (ofKind : ∀ definition, gone definition → definition.kind = kind)
    (selected : ∀ (id : DefinitionId) (definition : Definition),
      before.store.definitions[id]? = some definition → gone definition → definition.name ∈ names)
    (map_eq : ∀ other, mutated.map other = before.scheme.map other)
    (tree_other : ∀ tree, tree ≠ kind.tree → mutated.tree tree = before.scheme.tree tree)
    (unselected : ∀ name, name ∉ names →
      flatten (mutated.tree kind.tree) (middle.store.direct kind name) =
        flatten (before.scheme.tree kind.tree) (before.store.direct kind name))
    (tracks : ∀ name, name ∉ names → Tracks middle.store mutated kind name) :
    Prepared before middle kind names none mutated where
  scheme_eq := cleared.scheme_eq
  config_eq := cleared.config_eq
  registry_eq := cleared.registry_eq
  wellFormed := cleared.wellFormed
  backed := cleared.backed
  sound := cleared.sound
  map_eq := map_eq
  tree_other := tree_other
  direct_other := by
    intro other different name
    refine (cleared.fewer.sameNamed ?_).direct_eq wellFormed cleared.wellFormed
    intro id definition _ isOther _ isGone
    exact different (isOther.symm.trans (ofKind definition isGone))
  definition_other := by
    intro other different id
    refine cleared.fewer.definition?_of_kind fun definition isOther isGone => ?_
    exact different (isOther.symm.trans (ofKind definition isGone))
  onward := cleared.onward
  unselected := unselected
  tracks := tracks
  unaltered := by
    intro id definition stored absent
    rw [MemoryStore.definition?_eq_some_iff] at stored ⊢
    refine ⟨(cleared.fewer.definitions_iff id definition).mpr ⟨stored.1, fun gone => ?_⟩, stored.2⟩
    exact absent (selected id definition stored.1 gone)
  content_iff := by
    intro id old new oldStored newStored
    have stays := cleared.fewer.definition?_eq_some newStored
    rw [oldStored, Option.some.injEq] at stays
    subst stays
    exact ⟨fun different => absurd rfl different, nofun⟩

namespace Prepared

theorem tree_ne {kind other : DefinitionKind} (different : other ≠ kind) : other.tree ≠ kind.tree := by
  cases kind <;> cases other <;> simp_all [DefinitionKind.tree]

/-- After the names have been worked out again, all names resolve by what is stored. -/
theorem maps (prepared : Prepared before middle kind names edited mutated)
    (maps : MapsOf before.store before.scheme)
    (reworked : Reworked middle.store kind names.toList mutated scheme) :
    MapsOf middle.store scheme := by
  constructor
  · intro other
    by_cases same : other = kind
    · rw [same, reworked.map_kind, prepared.map_eq, maps.kind_eq]
    · rw [reworked.map_other other same, prepared.map_eq, maps.kind_eq]
  · intro other name
    by_cases same : other = kind
    · subst same
      rw [reworked.entries_eq, reworked.tree_eq]
      split
      · rfl
      · next absent =>
          have unselected : name ∉ names := fun member => absent (Std.ExtTreeSet.mem_toList.mpr member)
          rw [prepared.map_eq, maps.resolves other name, prepared.unselected name unselected]
    · rw [reworked.map_other other same, reworked.tree_eq, prepared.map_eq,
        prepared.tree_other _ (tree_ne same), prepared.direct_other other same]
      exact maps.resolves other name

/-- For the other kind of definitions everything in effect stays. -/
theorem effective?_other (prepared : Prepared before middle kind names edited mutated)
    (reworked : Reworked middle.store kind names.toList mutated scheme) {other : DefinitionKind}
    (different : other ≠ kind) (name : String) (position : Position) :
    effective? middle.store scheme other name position =
      effective? before.store before.scheme other name position := by
  simp only [effective?, reworked.map_other other different, prepared.map_eq,
    prepared.definition_other other different]

/-- Only selected names can resolve differently. -/
theorem selected_of_resolve?_ne (prepared : Prepared before middle kind names edited mutated)
    (reworked : Reworked middle.store kind names.toList mutated scheme) {name : String}
    {position : Position} (different : (scheme.map kind).resolve? name position ≠
      (before.scheme.map kind).resolve? name position) : name ∈ names.toList :=
  reworked.mem_of_resolve?_ne (by rwa [prepared.map_eq])

/-- A selected name resolves to definitions that are stored. -/
theorem exists_definition (prepared : Prepared before middle kind names edited mutated)
    (reworked : Reworked middle.store kind names.toList mutated scheme) {name : String}
    (selected : name ∈ names.toList) {position : Position} {id : DefinitionId}
    (resolved : (scheme.map kind).resolve? name position = some id) :
    ∃ definition, middle.store.definition? kind id = some definition := by
  rw [reworked.resolve?_eq selected] at resolved
  rcases exists_direct_of_flatten resolved with ⟨owner, own⟩
  rcases prepared.wellFormed.direct_eq_some_iff.mp own with ⟨definition, stored, isKind, _⟩
  exact ⟨definition, MemoryStore.definition?_eq_some_iff.mpr ⟨stored, isKind⟩⟩

/-- Where a name resolves to the same definition as before, the content is another one exactly if the name
is selected and the definition edited. -/
theorem content_ne_iff (prepared : Prepared before middle kind names edited mutated)
    (upheld : before.Upheld) (reworked : Reworked middle.store kind names.toList mutated scheme)
    {name : String} {position : Position} {id : DefinitionId}
    (was : (before.scheme.map kind).resolve? name position = some id)
    (still : (scheme.map kind).resolve? name position = some id) :
    (middle.store.definition? kind id).map Definition.content ≠
        (before.store.definition? kind id).map Definition.content ↔
      name ∈ names.toList ∧ edited = some id := by
  have tracks := upheld.tracks kind name
  by_cases selected : name ∈ names.toList
  · rcases prepared.exists_definition reworked selected still with ⟨new, newStored⟩
    rcases prepared.onward.named kind id new (tracks.given position id was) newStored with
      ⟨old, oldStored, _⟩
    rw [and_iff_right selected, ← prepared.content_iff id old new oldStored newStored, oldStored,
      newStored, Option.map_some, Option.map_some, ne_eq, Option.some.injEq]
  · refine iff_of_false (not_not_intro (congrArg _ ?_)) fun both => selected both.1
    rw [Std.ExtTreeSet.mem_toList] at selected
    cases stored : before.store.definition? kind id with
    | some old =>
        have isName := tracks.named position id was old stored
        exact prepared.unaltered id old stored (isName ▸ selected)
    | none =>
        rw [Option.eq_none_iff_forall_ne_some]
        intro new newStored
        rcases prepared.onward.named kind id new (tracks.given position id was) newStored with
          ⟨old, oldStored, _⟩
        rw [stored] at oldStored
        cases oldStored

/-- Something else is in effect exactly where a selected name is affected. -/
theorem effective?_ne_iff (prepared : Prepared before middle kind names edited mutated)
    (upheld : before.Upheld) (reworked : Reworked middle.store kind names.toList mutated scheme)
    (name : String) (position : Position) :
    effective? middle.store scheme kind name position ≠
        effective? before.store before.scheme kind name position ↔
      name ∈ names.toList ∧ IsAffected mutated scheme kind edited name position := by
  rw [IsAffected, prepared.map_eq, effective?, effective?]
  by_cases same : (scheme.map kind).resolve? name position =
      (before.scheme.map kind).resolve? name position
  · rw [same]
    cases old : (before.scheme.map kind).resolve? name position with
    | none => simp
    | some id =>
        have content := prepared.content_ne_iff upheld reworked old (same.trans old)
        simpa only [Option.map_some, ne_eq, Option.some.injEq, Prod.mk.injEq, true_and,
          not_true_eq_false, false_or, exists_eq_right'] using content
  · have selected := prepared.selected_of_resolve?_ne reworked same
    refine iff_of_true (fun equal => same ?_) ⟨selected, Or.inl (Ne.symm same)⟩
    have ids := congrArg (Option.map Prod.fst) equal
    simpa only [Option.map_map, Function.comp_def, Option.map_id'] using ids

/-- After the names have been worked out again, all names follow what is stored. -/
theorem tracksAll (prepared : Prepared before middle kind names edited mutated) (upheld : before.Upheld)
    (reworked : Reworked middle.store kind names.toList mutated scheme) (other : DefinitionKind)
    (name : String) : Tracks middle.store scheme other name := by
  by_cases same : other = kind
  · subst same
    have entries := reworked.entries_eq name
    split at entries
    · rw [← reworked.tree_eq] at entries
      exact tracks_of_resolves prepared.wellFormed entries
    · next absent =>
        have unselected : name ∉ names := fun member => absent (Std.ExtTreeSet.mem_toList.mpr member)
        have tracks := prepared.tracks name unselected
        refine tracks.onward (MemoryStore.onward_of_definitions rfl rfl) entries ?_
        rw [reworked.tree_eq]
        exact tracks.trailing
  · have tracks := upheld.tracks other name
    refine tracks.onward prepared.onward ?_ ?_
    · rw [reworked.map_other other same, prepared.map_eq]
    · rw [reworked.tree_eq, prepared.tree_other _ (tree_ne same), prepared.direct_other other same]
      exact tracks.trailing

/-! ## Which keys are concerned -/

/-- A key's own name is affected exactly if something else is in effect for it, unless its language is
new or has been removed. -/
theorem ownConcerned_iff (prepared : Prepared before middle kind names edited mutated)
    (upheld : before.Upheld) (reworked : Reworked middle.store kind names.toList mutated scheme)
    {key : ArtifactKey} (sameLanguages : key.kind = .template →
      scheme.languages.contains key.language = before.scheme.languages.contains key.language) :
    OwnConcerned mutated scheme kind edited names.toList key ↔
      own? middle.store scheme key ≠ own? before.store before.scheme key := by
  have kinds : DefinitionKind.template ≠ .phrase := by decide
  cases key with
  | template style language name =>
      have sameHere : scheme.languages.contains language =
          before.scheme.languages.contains language := sameLanguages rfl
      simp only [own?, sameHere]
      cases kind with
      | template =>
          split
          · next present =>
              rw [prepared.effective?_ne_iff upheld reworked]
              exact ⟨fun own => ⟨own.2.1, own.2.2.1⟩,
                fun both => ⟨rfl, both.1, both.2, fun _ => sameHere.trans present⟩⟩
          · next absent =>
              refine ⟨fun own => absurd (own.2.2.2 rfl) ?_, fun different => absurd rfl different⟩
              intro present
              exact absent (sameHere.symm.trans present)
      | phrase =>
          rw [prepared.effective?_other reworked (by decide)]
          exact ⟨fun own => absurd own.1 kinds, fun different => absurd rfl different⟩
  | phrase language name =>
      simp only [own?]
      cases kind with
      | template =>
          rw [prepared.effective?_other reworked (by decide)]
          exact ⟨fun own => absurd own.1 kinds.symm, fun different => absurd rfl different⟩
      | phrase =>
          rw [prepared.effective?_ne_iff upheld reworked]
          refine ⟨fun own => ⟨own.2.1, own.2.2.1⟩, fun both => ⟨rfl, both.1, both.2, fun other => ?_⟩⟩
          exact absurd other kinds.symm

/-- A name on record is affected exactly if something else is in effect for one. -/
theorem useConcerned_iff (prepared : Prepared before middle kind names edited mutated)
    (upheld : before.Upheld) (reworked : Reworked middle.store kind names.toList mutated scheme)
    (key : ArtifactKey) (uses : Uses) :
    UseConcerned mutated scheme kind edited names.toList key uses ↔
      ¬ ((∀ name ∈ uses.includes, ∀ style, key.style? = some style →
          effective? middle.store scheme .template name style =
            effective? before.store before.scheme .template name style) ∧
        ∀ name ∈ uses.phrases, effective? middle.store scheme .phrase name key.language =
          effective? before.store before.scheme .phrase name key.language) := by
  cases kind with
  | template =>
      have phrases : ∀ name ∈ uses.phrases,
          effective? middle.store scheme .phrase name key.language =
            effective? before.store before.scheme .phrase name key.language :=
        fun name _ => prepared.effective?_other reworked (by decide) name key.language
      rw [and_iff_left phrases]
      simp only [UseConcerned, not_forall, exists_prop]
      constructor
      · rintro ⟨name, selected, includes, style, isStyle, affected⟩
        exact ⟨name, includes, style, isStyle,
          (prepared.effective?_ne_iff upheld reworked name style).mpr ⟨selected, affected⟩⟩
      · rintro ⟨name, includes, style, isStyle, different⟩
        rcases (prepared.effective?_ne_iff upheld reworked name style).mp different with
          ⟨selected, affected⟩
        exact ⟨name, selected, includes, style, isStyle, affected⟩
  | phrase =>
      have templates : ∀ name ∈ uses.includes, ∀ style, key.style? = some style →
          effective? middle.store scheme .template name style =
            effective? before.store before.scheme .template name style :=
        fun name _ style _ => prepared.effective?_other reworked (by decide) name style
      rw [and_iff_right templates]
      simp only [UseConcerned, not_forall, exists_prop]
      constructor
      · rintro ⟨name, selected, phrases, affected⟩
        exact ⟨name, phrases,
          (prepared.effective?_ne_iff upheld reworked name key.language).mpr ⟨selected, affected⟩⟩
      · rintro ⟨name, phrases, different⟩
        rcases (prepared.effective?_ne_iff upheld reworked name key.language).mp different with
          ⟨selected, affected⟩
        exact ⟨name, selected, phrases, affected⟩

/-- A key is concerned exactly if something else is in effect for it or for a name on its record. -/
theorem concerned_iff (prepared : Prepared before middle kind names edited mutated)
    (upheld : before.Upheld) (reworked : Reworked middle.store kind names.toList mutated scheme)
    {key : ArtifactKey} (own : OwnConcerned mutated scheme kind edited names.toList key ↔
      own? middle.store scheme key ≠ own? before.store before.scheme key) (uses : Uses) :
    OwnConcerned mutated scheme kind edited names.toList key ∨
        UseConcerned mutated scheme kind edited names.toList key uses ↔
      ¬ Alike before.store middle.store before.scheme scheme key uses := by
  rw [own, prepared.useConcerned_iff upheld reworked, ne_eq, ← not_and_or]
  exact not_congr ⟨fun both => ⟨both.1, both.2.1, both.2.2⟩,
    fun alike => ⟨alike.own_eq, alike.includes_eq, alike.phrases_eq⟩⟩

end Prepared

/-! ## After a cascade -/

/-- A cascade has worked out the selected names, and left in the store what was there besides artifacts. -/
structure Carried (middle after : Engine MemoryStore) (kind : DefinitionKind)
    (names : Std.ExtTreeSet String) (mutated : InheritanceScheme) : Prop where
  reworked : Reworked middle.store kind names.toList mutated after.scheme
  store_eq : after.store = { middle.store with artifacts := after.store.artifacts }
  wellFormed : after.store.WellFormed
  backed : after.Backed
  sound : after.memo.Sound after.store

namespace Carried

variable {after : Engine MemoryStore}

theorem definitions_eq (carried : Carried middle after kind names mutated) :
    after.store.definitions = middle.store.definitions := by
  rw [carried.store_eq]

theorem nodes_eq (carried : Carried middle after kind names mutated) (tree : TreeKind) :
    after.store.nodes tree = middle.store.nodes tree := by
  rw [carried.store_eq, MemoryStore.nodes_withArtifacts]

theorem maps (carried : Carried middle after kind names mutated)
    (prepared : Prepared before middle kind names edited mutated)
    (maps : MapsOf before.store before.scheme) : MapsOf after.store after.scheme := by
  have reworked := prepared.maps maps carried.reworked
  refine ⟨reworked.kind_eq, fun other name => ?_⟩
  rw [direct_of_definitions carried.definitions_eq]
  exact reworked.resolves other name

/-- Everything is derived from the store after a cascade when the changed trees are stored. -/
theorem derived (carried : Carried middle after kind names mutated)
    (prepared : Prepared before middle kind names edited mutated)
    (maps : MapsOf before.store before.scheme) (trees : TreesOf after.store after.scheme) :
    after.Derived :=
  ⟨carried.wellFormed, trees, carried.maps prepared maps, carried.backed, carried.sound⟩

/-- An engine that is upheld is so again when the changed trees are stored. -/
theorem upheld (carried : Carried middle after kind names mutated)
    (prepared : Prepared before middle kind names edited mutated) (upheld : before.Upheld)
    {last : Engine MemoryStore} (sameDefinitions : last.store.definitions = after.store.definitions)
    (sameNext : last.store.nextId = after.store.nextId) (sameScheme : last.scheme = after.scheme)
    (sound : last.memo.Sound last.store) (founded : last.Founded) : last.Upheld := by
  have definitions := sameDefinitions.trans carried.definitions_eq
  have next : last.store.nextId = middle.store.nextId := by rw [sameNext, carried.store_eq]
  refine ⟨founded.wellFormed, founded.trees, fun other name => ?_, founded.backed, sound⟩
  have tracks := prepared.tracksAll upheld carried.reworked other name
  rw [sameScheme]
  refine tracks.onward (MemoryStore.onward_of_definitions definitions next) rfl ?_
  rw [direct_of_definitions definitions]
  exact tracks.trailing

/-- The changed trees may also be stored when the cascade is over. -/
theorem derived_replanted (carried : Carried middle after kind names mutated)
    (prepared : Prepared before middle kind names edited mutated)
    (maps : MapsOf before.store before.scheme) {tree : TreeKind}
    {nodes : Std.ExtTreeMap Position TreeNode} (founded : (after.replanted tree nodes).Founded) :
    (after.replanted tree nodes).Derived where
  wellFormed := founded.wellFormed
  trees := founded.trees
  maps := by
    have resolved := carried.maps prepared maps
    refine ⟨resolved.kind_eq, fun other name => ?_⟩
    have definitions : (after.replanted tree nodes).store.definitions = after.store.definitions :=
      MemoryStore.definitions_withNodes after.store tree nodes
    rw [direct_of_definitions definitions]
    exact resolved.resolves other name
  backed := founded.backed
  sound := by
    refine carried.sound.of_definitions fun id definition stored => ?_
    rwa [replanted, MemoryStore.definition?, MemoryStore.definitions_withNodes] at stored

end Carried

/-- What has been prepared for is carried out, whatever functions the engine knows. -/
theorem Prepared.perform_carried (prepared : Prepared before middle kind names edited mutated)
    {mutate : InheritanceScheme → Except TreeError InheritanceScheme}
    (mutates : mutate before.scheme = .ok mutated) :
    ∃ report after, middle.perform (cascade kind names edited mutate) = (.ok report, after) ∧
      Carried middle after kind names mutated := by
  rw [← prepared.scheme_eq] at mutates
  rcases perform_cascade middle names mutates with ⟨scheme, affected, reworked, _, performed⟩
  rcases perform_buildTargets { middle with scheme := scheme }
      (plan affected scheme.languages.breadthFirst middle.dependencies) with
    ⟨report, after, built, settling⟩
  have isScheme : after.scheme = scheme := settling.scheme_eq
  have backed := prepared.backed
  refine ⟨report, after, performed.trans built, isScheme ▸ reworked, settling.store_eq,
    settling.wellFormed prepared.wellFormed,
    settling.backed ⟨backed.stored, backed.keyed, backed.consistent⟩, ?_⟩
  refine (settling.sound prepared.sound).of_definitions fun id definition stored => ?_
  rwa [MemoryStore.definition?, settling.definitions_eq] at stored

/-- A cascade has worked out the selected names and answered the slots of the concerned keys. -/
structure Cascaded (middle after : Engine MemoryStore) (kind : DefinitionKind)
    (names : Std.ExtTreeSet String) (edited : Option DefinitionId) (mutated : InheritanceScheme) :
    Prop where
  reworked : Reworked middle.store kind names.toList mutated after.scheme
  store_eq : after.store = { middle.store with artifacts := after.store.artifacts }
  config_eq : after.config = middle.config
  registry_eq : after.registry = middle.registry
  wellFormed : after.store.WellFormed
  backed : after.Backed
  sound : after.memo.Sound after.store
  slot_concerned : ∀ key, OwnConcerned mutated after.scheme kind edited names.toList key ∨
      UseConcerned mutated after.scheme kind edited names.toList key (middle.usesOf key) →
    after.slot key =
      (middle.slot key).answer middle.config.failurePolicy key (after.scratch key)
  slot_other : ∀ key, ¬ (OwnConcerned mutated after.scheme kind edited names.toList key ∨
      UseConcerned mutated after.scheme kind edited names.toList key (middle.usesOf key)) →
    after.slot key = middle.slot key

theorem perform_cascade_builtIn (builtIn : middle.registry = Registry.builtIn)
    (wellFormed : middle.store.WellFormed) (backed : middle.Backed)
    (sound : middle.memo.Sound middle.store)
    {mutate : InheritanceScheme → Except TreeError InheritanceScheme}
    (mutates : mutate middle.scheme = .ok mutated) :
    ∃ report after, middle.perform (cascade kind names edited mutate) = (.ok report, after) ∧
      Cascaded middle after kind names edited mutated := by
  rcases perform_cascade middle names mutates with ⟨scheme, affected, reworked, reported, performed⟩
  rcases perform_buildTargets_builtIn { middle with scheme := scheme } builtIn sound
      (plan affected scheme.languages.breadthFirst middle.dependencies) with
    ⟨report, after, built, settling⟩
  refine ⟨report, after, performed.trans built, ?_⟩
  have isScheme : after.scheme = scheme := settling.scheme_eq
  have definitions : after.store.definitions = middle.store.definitions := settling.definitions_eq
  have planned := mem_plan_iff_concerned reported backed.consistent
  have outcome : ∀ key, fresh middle.store scheme key = after.scratch key := by
    intro key
    rw [scratch, isScheme, fresh_of_definitions definitions]
  refine ⟨isScheme ▸ reworked, settling.store_eq, settling.config_eq, settling.registry_eq,
    settling.wellFormed wellFormed, settling.backed ⟨backed.stored, backed.keyed, backed.consistent⟩,
    ?_, ?_, ?_⟩
  · refine (settling.sound sound).of_definitions fun id definition stored => ?_
    rwa [MemoryStore.definition?, definitions] at stored
  · intro key concerned
    rw [isScheme] at concerned
    rw [settling.slot_eq, if_pos ((planned key).mpr concerned), ← outcome]
    rfl
  · intro key unconcerned
    rw [isScheme] at unconcerned
    rw [settling.slot_eq, if_neg fun target => unconcerned ((planned key).mp target)]
    rfl

namespace Cascaded

variable {after : Engine MemoryStore}

theorem carried (cascaded : Cascaded middle after kind names edited mutated) :
    Carried middle after kind names mutated :=
  ⟨cascaded.reworked, cascaded.store_eq, cascaded.wellFormed, cascaded.backed, cascaded.sound⟩

/-- An engine is in step after a cascade when everything is derived from the store. -/
theorem inStep (cascaded : Cascaded middle after kind names edited mutated)
    (prepared : Prepared before middle kind names edited mutated) (inStep : before.InStep)
    (trees : TreesOf after.store after.scheme) : after.InStep := by
  apply (cascaded.carried.derived prepared inStep.maps trees).inStep
  rw [cascaded.registry_eq, prepared.registry_eq, inStep.builtIn]

theorem inStep_replanted (cascaded : Cascaded middle after kind names edited mutated)
    (prepared : Prepared before middle kind names edited mutated) (inStep : before.InStep)
    {tree : TreeKind} {nodes : Std.ExtTreeMap Position TreeNode}
    (founded : (after.replanted tree nodes).Founded) : (after.replanted tree nodes).InStep := by
  apply (cascaded.carried.derived_replanted prepared inStep.maps founded).inStep
  change after.registry = Registry.builtIn
  rw [cascaded.registry_eq, prepared.registry_eq, inStep.builtIn]

/-- A slot that nothing was done to before the cascade has made one step. -/
theorem slotStep (cascaded : Cascaded middle after kind names edited mutated)
    (prepared : Prepared before middle kind names edited mutated) (inStep : before.InStep)
    {key : ArtifactKey} (sameSlot : middle.slot key = before.slot key)
    (own : OwnConcerned mutated after.scheme kind edited names.toList key ↔
      own? middle.store after.scheme key ≠ own? before.store before.scheme key) :
    SlotStep before after key := by
  have sameUses : middle.usesOf key = before.usesOf key := by rw [usesOf, usesOf, sameSlot]
  have alike : Undisturbed before after key ↔
      Alike before.store middle.store before.scheme after.scheme key (before.usesOf key) :=
    alike_of_definitions cascaded.carried.definitions_eq
  have concerned := prepared.concerned_iff inStep.upheld cascaded.reworked own (before.usesOf key)
  by_cases undisturbed : Undisturbed before after key
  · refine .kept undisturbed ?_
    rw [cascaded.slot_other key, sameSlot]
    rw [sameUses, concerned, not_not]
    exact alike.mp undisturbed
  · refine .answered undisturbed ?_
    rw [cascaded.slot_concerned key, sameSlot, prepared.config_eq]
    rw [sameUses, concerned]
    exact fun same => undisturbed (alike.mpr same)

/-- So it is for every key when the languages stay. -/
theorem slotStep_of_languages (cascaded : Cascaded middle after kind names edited mutated)
    (prepared : Prepared before middle kind names edited mutated) (inStep : before.InStep)
    {key : ArtifactKey} (sameSlot : middle.slot key = before.slot key)
    (sameLanguages : key.kind = .template → after.scheme.languages.contains key.language =
      before.scheme.languages.contains key.language) : SlotStep before after key := by
  apply cascaded.slotStep prepared inStep sameSlot
  exact prepared.ownConcerned_iff inStep.upheld cascaded.reworked sameLanguages

theorem advances (cascaded : Cascaded middle after kind names edited mutated)
    (prepared : Prepared before middle kind names edited mutated) (inStep : before.InStep)
    (trees : TreesOf after.store after.scheme) (sameSlots : ∀ key, middle.slot key = before.slot key)
    (sameLanguages : ∀ position, after.scheme.languages.contains position =
      before.scheme.languages.contains position) : Advances before after where
  inStep := cascaded.inStep prepared inStep trees
  config_eq := cascaded.config_eq.trans prepared.config_eq
  slotStep := fun key =>
    cascaded.slotStep_of_languages prepared inStep (sameSlots key) fun _ =>
      sameLanguages key.language

end Cascaded

/-- What has been prepared for is carried out. -/
theorem Prepared.perform_cascade (prepared : Prepared before middle kind names edited mutated)
    (inStep : before.InStep) {mutate : InheritanceScheme → Except TreeError InheritanceScheme}
    (mutates : mutate before.scheme = .ok mutated) :
    ∃ report after, middle.perform (cascade kind names edited mutate) = (.ok report, after) ∧
      Cascaded middle after kind names edited mutated :=
  perform_cascade_builtIn (prepared.registry_eq.trans inStep.builtIn) prepared.wellFormed
    prepared.backed prepared.sound (prepared.scheme_eq ▸ mutates)

end Engine
end TemplateCascade
