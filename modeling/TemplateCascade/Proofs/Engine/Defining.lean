import Mathlib
import TemplateCascade.Proofs.Engine.Advancing

namespace TemplateCascade

/-!
# Edits of definitions

Saving and deleting a definition change the store at one number and then start a cascade for one name.
Until the store is changed an edit that fails has done nothing but remember trees; from then on it cannot
fail any more.
-/

open Compile (Registry)

/-- Whether a name is defined at a position as a text with the fingerprint of the given one. -/
def MemoryStore.isKept (store : MemoryStore) (kind : DefinitionKind) (name : String)
    (position : Position) (content : String) : Bool :=
  ((store.direct kind name)[position]?.bind (store.definition? kind)).any fun definition =>
    definition.fingerprint == Fingerprint.ofText kind content

/-- What a store holds after a definition has been saved. -/
def MemoryStore.saved (store : MemoryStore) (kind : DefinitionKind) (position : Position)
    (name content : String) : MemoryStore :=
  if store.isKept kind name position content then store
  else (store.define kind position name content).1

/-- Whether a definition is that of a name at a position. -/
def Definition.isAt (kind : DefinitionKind) (name : String) (position : Position)
    (definition : Definition) : Bool :=
  definition.kind == kind && definition.name == name && definition.position == position

theorem Definition.isAt_iff {kind : DefinitionKind} {name : String} {position : Position}
    {definition : Definition} :
    definition.isAt kind name position = true ↔
      definition.kind = kind ∧ definition.name = name ∧ definition.position = position := by
  simp [isAt, and_assoc]

namespace Engine

variable (engine : Engine MemoryStore) {kind : DefinitionKind} {name content : String}
  {position : Position}

/-- A successful command has left in the store what it should, and the trees are still the stored ones. -/
structure Stores (stored : MemoryStore) (after : Engine MemoryStore) : Prop where
  founded : after.Founded
  store_eq : after.store = { stored with artifacts := after.store.artifacts }

/-! ## Saving -/

theorem perform_isUnchanged (wellFormed : engine.store.WellFormed) (kind : DefinitionKind)
    (name : String) (position : Position) (content : String) :
    engine.perform (isUnchanged kind name position content) =
      (.ok (engine.store.isKept kind name position content), engine) := by
  simp only [isUnchanged, perform_bind, perform_ask, wellFormed.definitionAt_eq, Except.mapError]
  cases owned : (engine.store.direct kind name)[position]? with
  | none => simp only [perform_pure, MemoryStore.isKept, owned]; rfl
  | some id =>
      rcases wellFormed.direct_eq_some_iff.mp owned with ⟨definition, stored, isKind, _⟩
      have found := MemoryStore.definition?_eq_some_iff.mpr ⟨stored, isKind⟩
      simp only [perform_bind, perform_ask, Store.load, found, Except.mapError, perform_pure,
        MemoryStore.isKept, owned]
      simp [found]

/-- Checking a source remembers trees, and passes a source that may be stored. -/
theorem perform_checkTemplate (name source : String) (style : Position) :
    ∃ memo, (engine.memo.Sound engine.store → memo.Sound engine.store) ∧
      ((engine.config.validateOnSave = true → (engine.inputs.validate name source style).1 = []) ∧
        engine.perform (checkTemplate name source style) = (.ok (), { engine with memo := memo }) ∨
        ∃ error, engine.perform (checkTemplate name source style) =
          (.error error, { engine with memo := memo })) := by
  simp only [checkTemplate, perform_bind, perform_get]
  split
  · refine ⟨(engine.inputs.validate name source style).2, ?_, ?_⟩
    · exact fun sound => engine.inputs.validate_sound sound name source style
    · simp only [validateTemplate, perform_bind, perform_get, perform_modify, perform_pure]
      split
      · exact Or.inr ⟨_, rfl⟩
      · next acceptable =>
          rw [Bool.not_eq_true, Bool.not_eq_false', List.isEmpty_iff] at acceptable
          exact Or.inl ⟨fun _ => acceptable, rfl⟩
  · next unchecked => exact ⟨engine.memo, id, Or.inl ⟨fun checks => absurd checks unchecked, rfl⟩⟩

/-- The engine when a definition has been stored and its tree is forgotten. -/
def redefined (engine : Engine MemoryStore) (kind : DefinitionKind) (position : Position)
    (name content : String) : Engine MemoryStore :=
  { engine with
    store := (engine.store.define kind position name content).1
    memo := engine.memo.forget (engine.store.define kind position name content).2 }

theorem backed_redefined (wellFormed : engine.store.WellFormed) (backed : engine.Backed)
    (kind : DefinitionKind) (position : Position) (name content : String) :
    (engine.redefined kind position name content).Backed :=
  ⟨(MemoryStore.define_redefined wellFormed kind position name content).artifacts_eq.trans backed.stored,
    backed.keyed, backed.consistent⟩

theorem perform_define_error
    (missing : (engine.store.nodes kind.tree).contains position = false) :
    engine.perform (define kind position name content) =
      (.error (.store (.missingPosition kind.tree position)), engine) := by
  have failed : Store.put engine.store kind position name content =
      .error (.missingPosition kind.tree position) := by
    change engine.store.put kind position name content = _
    rw [MemoryStore.put, missing]
    rfl
  rw [define, perform_bind, perform_tellFor_error engine failed]

theorem perform_define (wellFormed : engine.store.WellFormed)
    (present : (engine.store.nodes kind.tree).contains position = true) :
    engine.perform (define kind position name content) =
      (engine.redefined kind position name content).perform
        (cascade kind (Std.ExtTreeSet.ofList [name])
          (some (engine.store.define kind position name content).2) .ok) := by
  have changed : Store.put engine.store kind position name content =
      .ok ((engine.store.define kind position name content).1,
        (engine.store.define kind position name content).2) := by
    change engine.store.put kind position name content = _
    rw [MemoryStore.put, if_pos present]
  have isRedefined := MemoryStore.define_redefined wellFormed kind position name content
  have owned := (isRedefined.wellFormed wellFormed).definitionAt_eq kind name position
  rw [isRedefined.direct_self wellFormed] at owned
  rw [define, perform_bind, perform_tellFor_ok engine changed]
  simp only [definitionChanged, perform_bind, perform_ask, owned, Except.mapError, perform_modify]
  rfl

theorem mem_singletonSet {name other : String} :
    other ∈ Std.ExtTreeSet.ofList [name] ↔ other = name := by
  rw [Std.ExtTreeSet.mem_ofList, List.contains_iff_mem, List.mem_singleton]

/-- Of all definitions only the one that is saved has another content afterwards. -/
theorem content_ne_iff_of_define {store : MemoryStore} (wellFormed : store.WellFormed)
    (isNew : store.isKept kind name position content = false) {id : DefinitionId}
    {old new : Definition} (oldStored : store.definition? kind id = some old)
    (newStored : (store.define kind position name content).1.definition? kind id = some new) :
    new.content ≠ old.content ↔ some (store.define kind position name content).2 = some id := by
  have isRedefined := MemoryStore.define_redefined wellFormed kind position name content
  rw [Option.some.injEq]
  by_cases same : id = (store.define kind position name content).2
  · have own := isRedefined.definition?_self
    rw [same] at newStored
    change (store.define kind position name content).1.definition? kind
      (store.define kind position name content).2 = _ at own
    rw [own, Option.some.injEq] at newStored
    rw [← newStored]
    refine iff_of_true (fun equal => ?_) same.symm
    have stored := MemoryStore.definition?_eq_some_iff.mp oldStored
    have fields := isRedefined.same old (same ▸ stored.1)
    have owned : (store.direct kind name)[position]? = some id :=
      wellFormed.direct_eq_some_iff.mpr ⟨old, stored.1, fields⟩
    have sameText : content = old.content := equal
    simp [MemoryStore.isKept, owned, oldStored, Definition.fingerprint, stored.2, sameText] at isNew
  · rw [isRedefined.definition?_of_ne same, oldStored, Option.some.injEq] at newStored
    exact iff_of_false (fun different => different (congrArg Definition.content newStored.symm))
      (Ne.symm same)

/-- Storing a definition with a new content prepares for a cascade of its name. -/
theorem prepared_redefined (upheld : engine.Upheld)
    (isNew : engine.store.isKept kind name position content = false) :
    Prepared engine (engine.redefined kind position name content) kind
      (Std.ExtTreeSet.ofList [name])
      (some (engine.store.define kind position name content).2) engine.scheme := by
  have wellFormed := upheld.wellFormed
  have isRedefined := MemoryStore.define_redefined wellFormed kind position name content
  have afterWellFormed := isRedefined.wellFormed wellFormed
  have sameDirect : ∀ other, other ∉ Std.ExtTreeSet.ofList [name] →
      (engine.redefined kind position name content).store.direct kind other =
        engine.store.direct kind other := by
    intro other unselected
    have different : other ≠ name := fun same => unselected (mem_singletonSet.mpr same)
    have sameNamed : engine.store.SameNamed (engine.store.define kind position name content).1 kind
        other := isRedefined.sameNamed fun same => different same.2
    exact sameNamed.direct_eq wellFormed afterWellFormed
  refine
    { scheme_eq := rfl
      config_eq := rfl
      registry_eq := rfl
      wellFormed := afterWellFormed
      backed := backed_redefined engine wellFormed upheld.backed kind position name content
      sound := ?_
      map_eq := fun _ => rfl
      tree_other := fun _ _ => rfl
      direct_other := ?_
      definition_other := fun other different id => isRedefined.definition?_of_kind different
      onward := MemoryStore.define_onward wellFormed kind position name content
      unselected := ?_
      tracks := ?_
      unaltered := ?_
      content_iff := fun id old new => content_ne_iff_of_define wellFormed isNew }
  · refine upheld.sound.forget fun other definition different stored => ?_
    exact (isRedefined.definition?_of_ne different).symm.trans stored
  · intro other different name
    exact (isRedefined.sameNamed fun same => different same.1).direct_eq wellFormed afterWellFormed
  · intro other unselected
    exact congrArg (fun direct => flatten _ direct) (sameDirect other unselected)
  · intro other unselected
    have tracks := upheld.tracks kind other
    refine tracks.onward (MemoryStore.define_onward wellFormed kind position name content) rfl ?_
    rw [sameDirect other unselected]
    exact tracks.trailing
  · intro id definition stored unselected
    have old := MemoryStore.definition?_eq_some_iff.mp stored
    refine (isRedefined.definition?_of_ne fun same => ?_).trans stored
    exact unselected (mem_singletonSet.mpr (isRedefined.same definition (same ▸ old.1)).2.1)

variable {engine}

/-- Storing a definition either fails at once or cannot fail. -/
theorem define_untouched (wellFormed : engine.store.WellFormed) {error : EngineError}
    {after : Engine MemoryStore}
    (failed : engine.perform (define kind position name content) = (.error error, after)) :
    after = engine := by
  cases present : (engine.store.nodes kind.tree).contains position with
  | false =>
      rw [perform_define_error engine present, Prod.mk.injEq] at failed
      exact failed.2.symm
  | true =>
      have mutates : (.ok engine.scheme : Except TreeError InheritanceScheme) = .ok engine.scheme := rfl
      rcases exists_perform_cascade (engine.redefined kind position name content) _ mutates with
        ⟨report, last, performed, _⟩
      rw [perform_define engine wellFormed present, performed] at failed
      cases failed

/-- A definition that is stored has its position, and is followed by a cascade. -/
theorem cascade_of_define (wellFormed : engine.store.WellFormed) {report : CascadeReport}
    {after : Engine MemoryStore}
    (succeeded : engine.perform (define kind position name content) = (.ok report, after)) :
    (engine.redefined kind position name content).perform
        (cascade kind (Std.ExtTreeSet.ofList [name])
          (some (engine.store.define kind position name content).2) .ok) = (.ok report, after) := by
  cases present : (engine.store.nodes kind.tree).contains position with
  | false =>
      rw [perform_define_error engine present] at succeeded
      cases succeeded
  | true => rwa [perform_define engine wellFormed present] at succeeded

theorem define_stores (founded : engine.Founded) {report : CascadeReport} {after : Engine MemoryStore}
    (succeeded : engine.perform (define kind position name content) = (.ok report, after)) :
    Stores (engine.store.define kind position name content).1 after := by
  have isRedefined := MemoryStore.define_redefined founded.wellFormed kind position name content
  have mutates : (.ok engine.scheme : Except TreeError InheritanceScheme) = .ok engine.scheme := rfl
  rcases exists_perform_cascade (engine.redefined kind position name content)
    (Std.ExtTreeSet.ofList [name]) mutates with ⟨_, last, performed, framed⟩
  rw [cascade_of_define founded.wellFormed succeeded, Prod.mk.injEq] at performed
  rcases performed with ⟨_, rfl⟩
  have backed := backed_redefined engine founded.wellFormed founded.backed kind position name content
  refine ⟨framed.founded (isRedefined.wellFormed founded.wellFormed) backed ?_, framed.store_eq⟩
  exact founded.trees.of_eq isRedefined.nodes_eq fun _ => rfl

/-- A new definition, or a new content of one, brings everything in line. -/
theorem define_advances (inStep : engine.InStep)
    (isNew : engine.store.isKept kind name position content = false) {report : CascadeReport}
    {after : Engine MemoryStore}
    (succeeded : engine.perform (define kind position name content) = (.ok report, after)) :
    Advances engine after := by
  have prepared := prepared_redefined engine inStep.upheld isNew
  have mutates : (.ok engine.scheme : Except TreeError InheritanceScheme) = .ok engine.scheme := rfl
  rcases prepared.perform_cascade inStep mutates with ⟨_, last, performed, cascaded⟩
  rw [cascade_of_define inStep.wellFormed succeeded, Prod.mk.injEq] at performed
  rcases performed with ⟨_, rfl⟩
  have stores := define_stores inStep.founded succeeded
  refine cascaded.advances prepared inStep stores.founded.trees (fun _ => rfl) fun position => ?_
  exact congrArg (fun tree => tree.contains position) (cascaded.reworked.tree_eq .language)

/-! ### Templates -/

/-- A template is not saved again, or saved when its source has been checked. -/
theorem perform_saveTemplate (wellFormed : engine.store.WellFormed) (style : Position)
    (name source : String) :
    (engine.store.isKept .template name style source = true ∧
      engine.perform (saveTemplate style name source) = (.ok CascadeReport.empty, engine)) ∨
    (engine.store.isKept .template name style source = false ∧ ∃ memo,
      (engine.memo.Sound engine.store → memo.Sound engine.store) ∧
      ((engine.config.validateOnSave = true → (engine.inputs.validate name source style).1 = []) ∧
        engine.perform (saveTemplate style name source) =
          ({ engine with memo := memo } : Engine MemoryStore).perform
            (define .template style name source) ∨
        ∃ error, engine.perform (saveTemplate style name source) =
          (.error error, { engine with memo := memo }))) := by
  rw [saveTemplate, perform_bind, perform_isUnchanged engine wellFormed]
  cases kept : engine.store.isKept .template name style source with
  | true => exact Or.inl ⟨rfl, rfl⟩
  | false =>
      rcases perform_checkTemplate engine name source style with
        ⟨memo, sound, ⟨acceptable, passed⟩ | ⟨error, failed⟩⟩
      · exact Or.inr ⟨rfl, memo, sound, Or.inl ⟨acceptable, perform_bind_ok engine passed⟩⟩
      · exact Or.inr ⟨rfl, memo, sound, Or.inr ⟨error, perform_bind_error engine failed⟩⟩

theorem saveTemplate_idle (wellFormed : engine.store.WellFormed) {style : Position}
    {name source : String} {error : EngineError} {after : Engine MemoryStore}
    (failed : engine.perform (saveTemplate style name source) = (.error error, after)) :
    Idle engine after := by
  rcases perform_saveTemplate wellFormed style name source with
    ⟨_, performed⟩ | ⟨_, memo, sound, ⟨_, performed⟩ | ⟨_, performed⟩⟩
  · rw [performed] at failed
    cases failed
  · rw [performed] at failed
    exact ⟨memo, sound, @define_untouched { engine with memo := memo } .template name source style
      wellFormed error after failed⟩
  · rw [performed, Prod.mk.injEq] at failed
    exact ⟨memo, sound, failed.2.symm⟩

theorem saveTemplate_stores (founded : engine.Founded) {style : Position} {name source : String}
    {report : CascadeReport} {after : Engine MemoryStore}
    (succeeded : engine.perform (saveTemplate style name source) = (.ok report, after)) :
    Stores (engine.store.saved .template style name source) after := by
  rcases perform_saveTemplate founded.wellFormed style name source with
    ⟨kept, performed⟩ | ⟨isNew, memo, _, ⟨_, performed⟩ | ⟨_, performed⟩⟩
  · rw [performed, Prod.mk.injEq] at succeeded
    rw [← succeeded.2, MemoryStore.saved, kept]
    exact ⟨founded, rfl⟩
  · rw [performed] at succeeded
    rw [MemoryStore.saved, isNew]
    exact @define_stores { engine with memo := memo } .template name source style founded.withMemo
      report after succeeded
  · rw [performed] at succeeded
    cases succeeded

theorem saveTemplate_advances (inStep : engine.InStep) {style : Position} {name source : String}
    {report : CascadeReport} {after : Engine MemoryStore}
    (succeeded : engine.perform (saveTemplate style name source) = (.ok report, after)) :
    Advances engine after := by
  rcases perform_saveTemplate inStep.wellFormed style name source with
    ⟨_, performed⟩ | ⟨isNew, memo, sound, ⟨_, performed⟩ | ⟨_, performed⟩⟩
  · rw [performed, Prod.mk.injEq] at succeeded
    exact succeeded.2 ▸ Advances.refl inStep
  · rw [performed] at succeeded
    exact (define_advances (inStep.withMemo (sound inStep.sound)) isNew succeeded).of_withMemo
  · rw [performed] at succeeded
    cases succeeded

/-! ### Phrases -/

/-- A phrase is saved as it is, unless it is the same as before. -/
theorem perform_savePhrase (wellFormed : engine.store.WellFormed) (language : Position)
    (name text : String) :
    engine.perform (savePhrase language name text) =
      if engine.store.isKept .phrase name language text then (.ok CascadeReport.empty, engine)
      else engine.perform (define .phrase language name text) := by
  rw [savePhrase, perform_bind, perform_isUnchanged engine wellFormed]
  cases engine.store.isKept .phrase name language text <;> rfl

theorem savePhrase_untouched (wellFormed : engine.store.WellFormed) {language : Position}
    {name text : String} {error : EngineError} {after : Engine MemoryStore}
    (failed : engine.perform (savePhrase language name text) = (.error error, after)) :
    after = engine := by
  rw [perform_savePhrase wellFormed] at failed
  split at failed
  · cases failed
  · exact define_untouched wellFormed failed

theorem savePhrase_stores (founded : engine.Founded) {language : Position} {name text : String}
    {report : CascadeReport} {after : Engine MemoryStore}
    (succeeded : engine.perform (savePhrase language name text) = (.ok report, after)) :
    Stores (engine.store.saved .phrase language name text) after := by
  rw [perform_savePhrase founded.wellFormed] at succeeded
  rw [MemoryStore.saved]
  split at succeeded
  · next kept =>
      rw [Prod.mk.injEq] at succeeded
      rw [← succeeded.2, if_pos kept]
      exact ⟨founded, rfl⟩
  · next isNew =>
      rw [if_neg isNew]
      exact define_stores founded succeeded

theorem savePhrase_advances (inStep : engine.InStep) {language : Position} {name text : String}
    {report : CascadeReport} {after : Engine MemoryStore}
    (succeeded : engine.perform (savePhrase language name text) = (.ok report, after)) :
    Advances engine after := by
  rw [perform_savePhrase inStep.wellFormed] at succeeded
  split at succeeded
  · rw [Prod.mk.injEq] at succeeded
    exact succeeded.2 ▸ Advances.refl inStep
  · next isNew =>
      rw [Bool.not_eq_true] at isNew
      exact define_advances inStep isNew succeeded

/-! ## Deleting -/

/-- Definitions are gone from the store, and their trees are forgotten. -/
structure Released (before after : Engine MemoryStore) (gone : Definition → Prop) : Prop where
  reduced : before.store.Reduced after.store gone
  frame : after = { before with store := after.store, memo := after.memo }
  sound : before.memo.Sound before.store → after.memo.Sound after.store

namespace Released

variable {before after last : Engine MemoryStore} {gone later : Definition → Prop}

theorem refl (engine : Engine MemoryStore) : Released engine engine fun _ => False :=
  ⟨MemoryStore.Reduced.refl engine.store, rfl, id⟩

theorem trans (first : Released before after gone) (second : Released after last later) :
    Released before last fun definition => gone definition ∨ later definition where
  reduced := first.reduced.trans second.reduced
  frame := by rw [second.frame, first.frame]
  sound := second.sound ∘ first.sound

theorem congr (released : Released before after gone)
    (same : ∀ (id : DefinitionId) (definition : Definition),
      before.store.definitions[id]? = some definition → (gone definition ↔ later definition)) :
    Released before after later :=
  ⟨released.reduced.congr same, released.frame, released.sound⟩

theorem scheme_eq (released : Released before after gone) : after.scheme = before.scheme := by
  rw [released.frame]

theorem backed (released : Released before after gone) (backed : before.Backed) : after.Backed := by
  have stored := released.reduced.artifacts_eq.trans backed.stored
  rw [released.frame]
  exact ⟨stored, backed.keyed, backed.consistent⟩

theorem founded (released : Released before after gone) (founded : before.Founded) :
    after.Founded := by
  refine ⟨released.reduced.wellFormed founded.wellFormed, ?_, released.backed founded.backed⟩
  exact founded.trees.of_eq released.reduced.nodes_eq fun tree => by rw [released.scheme_eq]

theorem slot_eq (released : Released before after gone) (key : ArtifactKey) :
    after.slot key = before.slot key := by
  rw [released.frame]
  rfl

theorem cleared (released : Released before after gone) (upheld : before.Upheld) :
    Cleared before after gone where
  fewer := released.reduced.toFewer
  onward := released.reduced.onward
  scheme_eq := released.scheme_eq
  config_eq := by rw [released.frame]
  registry_eq := by rw [released.frame]
  wellFormed := released.reduced.wellFormed upheld.wellFormed
  backed := released.backed upheld.backed
  sound := released.sound upheld.sound

end Released

theorem perform_deleteStored (wellFormed : engine.store.WellFormed) {id : DefinitionId}
    {definition : Definition} (stored : engine.store.definition? kind id = some definition) :
    ∃ after, engine.perform (deleteStored kind id) = (.ok (), after) ∧
      Released engine after fun other => other.id = id := by
  have deleted : engine.store.delete kind id =
      .ok ({ engine.store with definitions := engine.store.definitions.erase id }, definition) := by
    rw [MemoryStore.delete, stored]
  have reduced := (MemoryStore.delete_reduced wellFormed deleted).2
  refine ⟨{ engine with
    store := { engine.store with definitions := engine.store.definitions.erase id }
    memo := engine.memo.forget id }, ?_, reduced, rfl, ?_⟩
  · have changed : Store.delete engine.store kind id = .ok (_, definition) := deleted
    rw [deleteStored, perform_bind, perform_tellFor_ok engine changed]
    rfl
  · exact fun sound => sound.forget fun other definition _ left => reduced.definition?_eq_some left

/-- Deleting stored definitions one by one never fails. -/
theorem perform_deleteEach (wellFormed : engine.store.WellFormed) (kind : DefinitionKind)
    {owned : List (String × DefinitionId)} (distinct : (owned.map Prod.snd).Nodup)
    (stored : ∀ pair ∈ owned, ∃ definition, engine.store.definition? kind pair.2 = some definition) :
    ∃ after, engine.perform (owned.forM fun (_, definition) => deleteStored kind definition) =
        (.ok (), after) ∧
      Released engine after fun definition => definition.id ∈ owned.map Prod.snd := by
  induction owned generalizing engine with
  | nil =>
      refine ⟨engine, rfl, (Released.refl engine).congr fun id definition _ => ?_⟩
      rw [List.map_nil, List.mem_nil_iff]
  | cons pair rest inductionHypothesis =>
      rcases pair with ⟨name, id⟩
      rw [List.map_cons, List.nodup_cons] at distinct
      rcases stored (name, id) List.mem_cons_self with ⟨definition, idStored⟩
      rcases perform_deleteStored wellFormed idStored with ⟨between, performed, released⟩
      have restStored : ∀ pair ∈ rest,
          ∃ definition, between.store.definition? kind pair.2 = some definition := by
        intro other member
        rcases stored other (List.mem_cons_of_mem _ member) with ⟨definition, otherStored⟩
        rw [MemoryStore.definition?_eq_some_iff] at otherStored
        refine ⟨definition, MemoryStore.definition?_eq_some_iff.mpr ⟨?_, otherStored.2⟩⟩
        rw [released.reduced.definitions_iff]
        refine ⟨otherStored.1, fun same => distinct.1 ?_⟩
        rw [← same, wellFormed.definition_id other.2 definition otherStored.1]
        exact List.mem_map_of_mem member
      rcases inductionHypothesis (released.reduced.wellFormed wellFormed) distinct.2 restStored with
        ⟨after, restPerformed, restReleased⟩
      refine ⟨after, ?_, (released.trans restReleased).congr fun other definition _ => ?_⟩
      · exact (perform_bind_ok engine performed).trans restPerformed
      · rw [List.map_cons, List.mem_cons]

/-! ### One definition -/

theorem perform_deleteDefinition_error (wellFormed : engine.store.WellFormed)
    (undefined : (engine.store.direct kind name)[position]? = none) :
    engine.perform (deleteDefinition kind name position) =
      (.error (.store (.notDefinedAt kind name position)), engine) := by
  simp only [deleteDefinition, perform_bind, perform_ask, wellFormed.definitionAt_eq, undefined,
    Except.mapError, perform_throw]

/-- A definition that is there can be deleted. -/
theorem perform_deleteDefinition (wellFormed : engine.store.WellFormed) {id : DefinitionId}
    (owned : (engine.store.direct kind name)[position]? = some id) :
    ∃ middle, Released engine middle
        (fun definition => Definition.isAt kind name position definition = true) ∧
      engine.perform (deleteDefinition kind name position) =
        middle.perform (cascade kind (Std.ExtTreeSet.ofList [name]) none .ok) := by
  rcases wellFormed.direct_eq_some_iff.mp owned with ⟨definition, stored, isKind, isName, isHere⟩
  have found := MemoryStore.definition?_eq_some_iff.mpr ⟨stored, isKind⟩
  rcases perform_deleteStored wellFormed found with ⟨middle, performed, released⟩
  refine ⟨middle, released.congr fun other otherDefinition otherStored => ?_, ?_⟩
  · rw [Definition.isAt_iff]
    constructor
    · intro same
      rw [wellFormed.definition_id other otherDefinition otherStored] at same
      subst same
      rw [stored, Option.some.injEq] at otherStored
      exact otherStored ▸ ⟨isKind, isName, isHere⟩
    · rintro ⟨sameKind, sameName, samePosition⟩
      rw [wellFormed.definition_id other otherDefinition otherStored]
      exact wellFormed.unique other id otherDefinition definition otherStored stored
        (sameKind.trans isKind.symm) (sameName.trans isName.symm) (samePosition.trans isHere.symm)
  · simp only [deleteDefinition, perform_bind, perform_ask, wellFormed.definitionAt_eq, owned,
      Except.mapError, performed]
    rfl

theorem deleteDefinition_untouched (wellFormed : engine.store.WellFormed) {error : EngineError}
    {after : Engine MemoryStore}
    (failed : engine.perform (deleteDefinition kind name position) = (.error error, after)) :
    after = engine := by
  cases owned : (engine.store.direct kind name)[position]? with
  | none =>
      rw [perform_deleteDefinition_error wellFormed owned, Prod.mk.injEq] at failed
      exact failed.2.symm
  | some id =>
      rcases perform_deleteDefinition wellFormed owned with ⟨middle, _, performed⟩
      have mutates : (.ok middle.scheme : Except TreeError InheritanceScheme) = .ok middle.scheme := rfl
      rcases exists_perform_cascade middle (Std.ExtTreeSet.ofList [name]) mutates with
        ⟨_, _, carried, _⟩
      rw [performed, carried] at failed
      cases failed

/-- A definition that is deleted was there, and a cascade follows. -/
theorem cascade_of_deleteDefinition (wellFormed : engine.store.WellFormed) {report : CascadeReport}
    {after : Engine MemoryStore}
    (succeeded : engine.perform (deleteDefinition kind name position) = (.ok report, after)) :
    ∃ middle, Released engine middle
        (fun definition => Definition.isAt kind name position definition = true) ∧
      middle.perform (cascade kind (Std.ExtTreeSet.ofList [name]) none .ok) = (.ok report, after) := by
  cases owned : (engine.store.direct kind name)[position]? with
  | none =>
      rw [perform_deleteDefinition_error wellFormed owned] at succeeded
      cases succeeded
  | some id =>
      rcases perform_deleteDefinition wellFormed owned with ⟨middle, released, performed⟩
      exact ⟨middle, released, performed ▸ succeeded⟩

theorem deleteDefinition_stores (founded : engine.Founded) {report : CascadeReport}
    {after : Engine MemoryStore}
    (succeeded : engine.perform (deleteDefinition kind name position) = (.ok report, after)) :
    Stores (engine.store.discard (Definition.isAt kind name position)) after := by
  rcases cascade_of_deleteDefinition founded.wellFormed succeeded with ⟨middle, released, performed⟩
  have mutates : (.ok middle.scheme : Except TreeError InheritanceScheme) = .ok middle.scheme := rfl
  rcases exists_perform_cascade middle (Std.ExtTreeSet.ofList [name]) mutates with
    ⟨_, last, carried, framed⟩
  rw [performed, Prod.mk.injEq] at carried
  rcases carried with ⟨_, rfl⟩
  have middleFounded := released.founded founded
  refine ⟨framed.founded middleFounded.wellFormed middleFounded.backed middleFounded.trees, ?_⟩
  rw [← released.reduced.unique (MemoryStore.discard_reduced engine.store _)]
  exact framed.store_eq

/-- Deleting a definition prepares for a cascade of its name. -/
theorem prepared_released (upheld : engine.Upheld) {middle : Engine MemoryStore}
    (released : Released engine middle
      fun definition => Definition.isAt kind name position definition = true) :
    Prepared engine middle kind (Std.ExtTreeSet.ofList [name]) none engine.scheme := by
  have cleared := released.cleared upheld
  have sameDirect : ∀ other, other ∉ Std.ExtTreeSet.ofList [name] →
      middle.store.direct kind other = engine.store.direct kind other := by
    intro other unselected
    have different : other ≠ name := fun same => unselected (mem_singletonSet.mpr same)
    have same : engine.store.SameNamed middle.store kind other := by
      refine cleared.fewer.sameNamed fun id definition _ _ isOther gone => ?_
      exact different (isOther.symm.trans (Definition.isAt_iff.mp gone).2.1)
    exact same.direct_eq upheld.wellFormed cleared.wellFormed
  apply cleared.prepared upheld.wellFormed
  · exact fun definition gone => (Definition.isAt_iff.mp gone).1
  · exact fun id definition _ gone => mem_singletonSet.mpr (Definition.isAt_iff.mp gone).2.1
  · exact fun _ => rfl
  · exact fun _ _ => rfl
  · intro other unselected
    rw [sameDirect other unselected]
  · intro other unselected
    have tracks := upheld.tracks kind other
    refine tracks.onward cleared.onward rfl ?_
    rw [sameDirect other unselected]
    exact tracks.trailing

theorem deleteDefinition_advances (inStep : engine.InStep) {report : CascadeReport}
    {after : Engine MemoryStore}
    (succeeded : engine.perform (deleteDefinition kind name position) = (.ok report, after)) :
    Advances engine after := by
  rcases cascade_of_deleteDefinition inStep.wellFormed succeeded with ⟨middle, released, performed⟩
  have prepared := prepared_released inStep.upheld released
  have mutates : (.ok engine.scheme : Except TreeError InheritanceScheme) = .ok engine.scheme := rfl
  rcases prepared.perform_cascade inStep mutates with ⟨_, last, carried, cascaded⟩
  rw [performed, Prod.mk.injEq] at carried
  rcases carried with ⟨_, rfl⟩
  have stores := deleteDefinition_stores inStep.founded succeeded
  refine cascaded.advances prepared inStep stores.founded.trees released.slot_eq fun position => ?_
  exact congrArg (fun tree => tree.contains position) (cascaded.reworked.tree_eq .language)

end Engine
end TemplateCascade
