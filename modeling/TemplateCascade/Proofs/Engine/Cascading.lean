import Mathlib
import TemplateCascade.Proofs.Cascade.Planning
import TemplateCascade.Proofs.Engine.Scheme
import TemplateCascade.Proofs.Engine.Settling
import TemplateCascade.Proofs.Inheritance.Differences

namespace TemplateCascade

/-!
# Cascades, step by step

A cascade works the selected names out again and reports where each of them is affected.  It answers the
slots of the keys that are planned for, and nothing in it can fail once the tree has been changed.
-/

open Compile (Registry Uses)

/-! ## What has changed between two schemes -/

/-- Where a name resolves differently than before, or to the definition that has been edited. -/
def IsAffected (before after : InheritanceScheme) (kind : DefinitionKind)
    (edited : Option DefinitionId) (name : String) (position : Position) : Prop :=
  (before.map kind).resolve? name position ≠ (after.map kind).resolve? name position ∨
    ∃ id, edited = some id ∧ (after.map kind).resolve? name position = some id

/-- A scheme after some names have been worked out again along its trees. -/
structure Reworked (store : MemoryStore) (kind : DefinitionKind) (names : List String)
    (before after : InheritanceScheme) : Prop where
  tree_eq : ∀ tree, after.tree tree = before.tree tree
  map_other : ∀ other, other ≠ kind → after.map other = before.map other
  map_kind : (after.map kind).kind = (before.map kind).kind
  entries_eq : ∀ name : String, (after.map kind).entries[name]? =
    if name ∈ names then
      ResolutionMap.nonempty? (flatten (before.tree kind.tree) (store.direct kind name))
    else (before.map kind).entries[name]?

theorem Reworked.refl (store : MemoryStore) (kind : DefinitionKind) (scheme : InheritanceScheme) :
    Reworked store kind [] scheme scheme :=
  ⟨fun _ => rfl, fun _ _ => rfl, rfl, fun _ => by simp⟩

theorem Reworked.cons {store : MemoryStore} {kind : DefinitionKind} {name : String}
    {rest : List String} {before between after : InheritanceScheme}
    (first : Reworked store kind [name] before between)
    (others : Reworked store kind rest between after) :
    Reworked store kind (name :: rest) before after where
  tree_eq := fun tree => (others.tree_eq tree).trans (first.tree_eq tree)
  map_other := fun other different =>
    (others.map_other other different).trans (first.map_other other different)
  map_kind := others.map_kind.trans first.map_kind
  entries_eq := by
    intro other
    rw [others.entries_eq, first.entries_eq, first.tree_eq]
    by_cases inRest : other ∈ rest
    · simp [inRest]
    · by_cases same : other = name
      · simp [same]
      · simp [inRest, same]

/-- A name that has been worked out again follows the stored definitions. -/
theorem Reworked.resolve?_eq {store : MemoryStore} {kind : DefinitionKind} {names : List String}
    {before after : InheritanceScheme} (reworked : Reworked store kind names before after) {name : String}
    (selected : name ∈ names) (position : Position) :
    (after.map kind).resolve? name position =
      (flatten (before.tree kind.tree) (store.direct kind name))[position]? := by
  rw [ResolutionMap.resolve?, ResolutionMap.resolvedOf, reworked.entries_eq, if_pos selected,
    ResolutionMap.nonempty?_getD]

/-- Only names that have been worked out again can resolve differently. -/
theorem Reworked.mem_of_resolve?_ne {store : MemoryStore} {kind : DefinitionKind} {names : List String}
    {before after : InheritanceScheme} (reworked : Reworked store kind names before after) {name : String}
    {position : Position} (different : (after.map kind).resolve? name position ≠
      (before.map kind).resolve? name position) : name ∈ names := by
  by_contra absent
  apply different
  refine ResolutionMap.resolve?_congr ?_ position
  rw [reworked.entries_eq, if_neg absent]

/-- What is reported of the affected positions of some names. -/
structure Reported (before after : InheritanceScheme) (kind : DefinitionKind)
    (edited : Option DefinitionId) (names : List String) (affected : List Affected) : Prop where
  names_eq : affected.map Affected.name = names
  kind_eq : ∀ change ∈ affected, change.kind = kind
  positions_iff : ∀ change ∈ affected, ∀ position,
    position ∈ change.positions ↔ IsAffected before after kind edited change.name position

/-- Where a name is affected depends only on how it itself resolves. -/
theorem isAffected_congr {before after otherBefore otherAfter : InheritanceScheme}
    {kind : DefinitionKind} {edited : Option DefinitionId} {name : String} {position : Position}
    (sameBefore : (before.map kind).entries[name]? = (otherBefore.map kind).entries[name]?)
    (sameAfter : (after.map kind).entries[name]? = (otherAfter.map kind).entries[name]?) :
    IsAffected before after kind edited name position ↔
      IsAffected otherBefore otherAfter kind edited name position := by
  rw [IsAffected, IsAffected, ResolutionMap.resolve?_congr sameBefore,
    ResolutionMap.resolve?_congr sameAfter]

theorem Reported.cons {store : MemoryStore} {kind : DefinitionKind} {edited : Option DefinitionId}
    {name : String} {rest : List String} {before between after : InheritanceScheme}
    {change : Affected} {affected : List Affected} (absent : name ∉ rest)
    (first : Reworked store kind [name] before between)
    (others : Reworked store kind rest between after)
    (firstReported : Reported before between kind edited [name] [change])
    (othersReported : Reported between after kind edited rest affected) :
    Reported before after kind edited (name :: rest) (change :: affected) := by
  have isName : change.name = name := List.singleton_inj.mp firstReported.names_eq
  refine ⟨?_, ?_, ?_⟩
  · rw [List.map_cons, isName, othersReported.names_eq]
  · rw [List.forall_mem_cons]
    exact ⟨firstReported.kind_eq change List.mem_cons_self, othersReported.kind_eq⟩
  · rw [List.forall_mem_cons]
    constructor
    · intro position
      rw [firstReported.positions_iff change List.mem_cons_self]
      refine isAffected_congr rfl ?_
      rw [others.entries_eq, isName, if_neg absent]
    · intro other member position
      rw [othersReported.positions_iff other member]
      refine isAffected_congr ?_ rfl
      have inRest : other.name ∈ rest := by
        rw [← othersReported.names_eq]
        exact List.mem_map_of_mem member
      have different : other.name ≠ name := by
        intro same
        exact absent (same ▸ inRest)
      rw [first.entries_eq, if_neg (by simpa using different)]

namespace Engine

variable (engine : Engine MemoryStore) (kind : DefinitionKind) (edited : Option DefinitionId)

/-- The engine after a name has been worked out again. -/
theorem perform_rebuildName (name : String) :
    ∃ scheme change, engine.perform (rebuildName kind edited name) =
        (.ok change, { engine with scheme := scheme }) ∧
      Reworked engine.store kind [name] engine.scheme scheme ∧
      Reported engine.scheme scheme kind edited [name] [change] := by
  simp only [rebuildName, perform_bind, perform_ask, MemoryStore.definitionsNamed_eq,
    Except.mapError, perform_get, perform_modify, perform_pure]
  refine ⟨_, _, rfl, ?_, ?_⟩
  · refine ⟨?_, ?_, ?_, ?_⟩
    · intro tree
      exact InheritanceScheme.tree_withMap _ _ _ _
    · intro other different
      simp [InheritanceScheme.rebuildName, different]
    · simp [InheritanceScheme.rebuildName, ResolutionMap.rebuildName]
    · intro other
      rw [InheritanceScheme.rebuildName, InheritanceScheme.map_withMap, if_pos rfl,
        ResolutionMap.entries_rebuildName]
      simp only [List.mem_singleton]
      split
      · next same => rw [same]; rfl
      · rfl
  · refine ⟨rfl, ?_, ?_⟩
    · intro change member
      rw [List.mem_singleton] at member
      rw [member]
    · intro change member position
      rw [List.mem_singleton] at member
      subst member
      simp only [InheritanceScheme.rebuildName, IsAffected, InheritanceScheme.map_withMap, if_pos,
        ResolutionMap.resolve?_rebuildName]
      rw [Std.ExtTreeSet.mem_ofList, List.contains_iff_mem, List.mem_append]
      refine or_congr ?_ ?_
      · exact ResolutionMap.mem_positions_changesBetween
      · cases edited with
        | none => simp
        | some id =>
            simp only [Option.elim_some, Option.some.injEq, exists_eq_left']
            rw [ResolutionMap.mem_positionsResolvingTo, ResolutionMap.resolve?_rebuildName]

theorem perform_rebuildNames {names : List String} (distinct : names.Nodup) :
    ∃ scheme affected, engine.perform (names.mapM (rebuildName kind edited)) =
        (.ok affected, { engine with scheme := scheme }) ∧
      Reworked engine.store kind names engine.scheme scheme ∧
      Reported engine.scheme scheme kind edited names affected := by
  induction names generalizing engine with
  | nil =>
      exact ⟨engine.scheme, [], rfl, Reworked.refl engine.store kind engine.scheme,
        ⟨rfl, by simp, by simp⟩⟩
  | cons name rest inductionHypothesis =>
      rw [List.nodup_cons] at distinct
      rcases perform_rebuildName engine kind edited name with
        ⟨between, change, performed, first, firstReported⟩
      rcases inductionHypothesis { engine with scheme := between } distinct.2 with
        ⟨after, affected, restPerformed, others, othersReported⟩
      refine ⟨after, change :: affected, ?_, first.cons others,
        Reported.cons distinct.1 first others firstReported othersReported⟩
      rw [List.mapM_cons, perform_bind_ok engine performed, perform_bind_ok _ restPerformed]
      rfl

/-! ## The whole cascade -/

/-- The key's own name is affected at the key's position. -/
def OwnConcerned (before after : InheritanceScheme) (kind : DefinitionKind)
    (edited : Option DefinitionId) (names : List String) (key : ArtifactKey) : Prop :=
  key.kind = kind ∧ key.name ∈ names ∧
    IsAffected before after kind edited key.name key.resolutionPosition ∧
    (kind = .template → after.languages.contains key.language = true)

/-- Names of phrases are no template's own name. -/
theorem not_ownConcerned_of_template {before after : InheritanceScheme} {edited : Option DefinitionId}
    {names : List String} {key : ArtifactKey} (isTemplate : key.kind = .template) :
    ¬ OwnConcerned before after .phrase edited names key := by
  intro own
  exact nomatch isTemplate.symm.trans own.1

/-- A name that the key uses is affected at the position where the key uses it. -/
def UseConcerned (before after : InheritanceScheme) (kind : DefinitionKind)
    (edited : Option DefinitionId) (names : List String) (key : ArtifactKey) (uses : Uses) : Prop :=
  match kind with
  | .template => ∃ name ∈ names, name ∈ uses.includes ∧ ∃ style, key.style? = some style ∧
      IsAffected before after .template edited name style
  | .phrase => ∃ name ∈ names, name ∈ uses.phrases ∧
      IsAffected before after .phrase edited name key.language

variable {kind edited}

section Reported

variable {before after : InheritanceScheme} {names : List String} {affected : List Affected}
  (reported : Reported before after kind edited names affected)

include reported

theorem name_mem_of_reported {change : Affected} (member : change ∈ affected) : change.name ∈ names := by
  rw [← reported.names_eq]
  exact List.mem_map_of_mem member

theorem exists_change_of_reported {name : String} (member : name ∈ names) :
    ∃ change ∈ affected, change.name = name := by
  rw [← reported.names_eq, List.mem_map] at member
  exact member

theorem exists_owns_iff (key : ArtifactKey) :
    (∃ change ∈ affected, change.Owns after.languages.breadthFirst key) ↔
      OwnConcerned before after kind edited names key := by
  constructor
  · rintro ⟨change, member, owns⟩
    have positionsIff := reported.positions_iff change member
    have isKind := reported.kind_eq change member
    cases key with
    | template style language name =>
        rcases owns with ⟨isTemplate, rfl, atStyle, atLanguage⟩
        exact ⟨isTemplate.symm.trans isKind, name_mem_of_reported reported member,
          (positionsIff style).mp atStyle, fun _ => PositionTree.mem_breadthFirst.mp atLanguage⟩
    | phrase language name =>
        rcases owns with ⟨isPhrase, rfl, atLanguage⟩
        refine ⟨isPhrase.symm.trans isKind, name_mem_of_reported reported member,
          (positionsIff language).mp atLanguage, fun isTemplate => ?_⟩
        rw [isPhrase, isTemplate] at isKind
        cases isKind
  · rintro ⟨isKind, inNames, affectedThere, inLanguages⟩
    rcases exists_change_of_reported reported inNames with ⟨change, member, sameName⟩
    have positionsIff := reported.positions_iff change member key.resolutionPosition
    rw [sameName] at positionsIff
    have changeKind := reported.kind_eq change member
    refine ⟨change, member, ?_⟩
    cases key with
    | template style language name =>
        exact ⟨changeKind.trans isKind.symm, sameName.symm, positionsIff.mpr affectedThere,
          PositionTree.mem_breadthFirst.mpr (inLanguages isKind.symm)⟩
    | phrase language name =>
        exact ⟨changeKind.trans isKind.symm, sameName.symm, positionsIff.mpr affectedThere⟩

theorem exists_isUsedBy_iff (key : ArtifactKey) (uses : Uses) :
    (∃ change ∈ affected, change.IsUsedBy key uses) ↔
      UseConcerned before after kind edited names key uses := by
  cases kind with
  | template =>
      constructor
      · rintro ⟨change, member, used⟩
        rw [Affected.IsUsedBy, reported.kind_eq change member] at used
        rcases used with ⟨includes, style, isStyle, atStyle⟩
        exact ⟨change.name, name_mem_of_reported reported member, includes, style, isStyle,
          (reported.positions_iff change member style).mp atStyle⟩
      · rintro ⟨name, inNames, includes, style, isStyle, affectedThere⟩
        rcases exists_change_of_reported reported inNames with ⟨change, member, rfl⟩
        refine ⟨change, member, ?_⟩
        rw [Affected.IsUsedBy, reported.kind_eq change member]
        exact ⟨includes, style, isStyle, (reported.positions_iff change member style).mpr affectedThere⟩
  | phrase =>
      constructor
      · rintro ⟨change, member, used⟩
        rw [Affected.IsUsedBy, reported.kind_eq change member] at used
        exact ⟨change.name, name_mem_of_reported reported member, used.1,
          (reported.positions_iff change member key.language).mp used.2⟩
      · rintro ⟨name, inNames, phrases, affectedThere⟩
        rcases exists_change_of_reported reported inNames with ⟨change, member, rfl⟩
        refine ⟨change, member, ?_⟩
        rw [Affected.IsUsedBy, reported.kind_eq change member]
        exact ⟨phrases, (reported.positions_iff change member key.language).mpr affectedThere⟩

/-- A key is planned for exactly if an affected name is its own or is on its record. -/
theorem mem_plan_iff_concerned {dependencies : Dependencies} (consistent : dependencies.Consistent)
    (key : ArtifactKey) :
    key ∈ plan affected after.languages.breadthFirst dependencies ↔
      OwnConcerned before after kind edited names key ∨
        UseConcerned before after kind edited names key
          ((dependencies.usesOf? key).getD Uses.none) := by
  rw [mem_plan_iff consistent, ← exists_owns_iff reported, ← exists_isUsedBy_iff reported,
    ← exists_or]
  simp only [and_or_left]

end Reported

/-- Where the tree cannot be changed, a cascade does nothing. -/
theorem perform_cascade_error (names : Std.ExtTreeSet String)
    {mutate : InheritanceScheme → Except TreeError InheritanceScheme} {error : TreeError}
    (refused : mutate engine.scheme = .error error) :
    engine.perform (cascade kind names edited mutate) = (.error (.tree error), engine) := by
  simp only [cascade, perform_bind, perform_get, refused, perform_ofTree_error]

/-- Once the tree has been changed, a cascade succeeds. -/
theorem perform_cascade (names : Std.ExtTreeSet String)
    {mutate : InheritanceScheme → Except TreeError InheritanceScheme} {mutated : InheritanceScheme}
    (mutates : mutate engine.scheme = .ok mutated) :
    ∃ scheme affected, Reworked engine.store kind names.toList mutated scheme ∧
      Reported mutated scheme kind edited names.toList affected ∧
      engine.perform (cascade kind names edited mutate) =
        ({ engine with scheme := scheme } : Engine MemoryStore).perform
          (buildTargets (plan affected scheme.languages.breadthFirst engine.dependencies)) := by
  have distinct : names.toList.Nodup :=
    names.distinct_toList.imp fun different same => different (Std.compare_eq_iff_eq.mpr same)
  rcases perform_rebuildNames { engine with scheme := mutated } kind edited distinct with
    ⟨scheme, affected, performed, reworked, reported⟩
  refine ⟨scheme, affected, reworked, reported, ?_⟩
  simp only [cascade, perform_bind, perform_get, mutates, perform_ofTree_ok, perform_modify,
    performed]

/-! ## Whatever functions are registered -/

/-- A failed command has done nothing but remember trees. -/
def Untouched (before after : Engine MemoryStore) : Prop :=
  after = { before with memo := after.memo }

/-- The trees that it remembers are still those of what is stored. -/
def Idle (before after : Engine MemoryStore) : Prop :=
  ∃ memo : Markup.ParseMemo, (before.memo.Sound before.store → memo.Sound before.store) ∧
    after = { before with memo := memo }

theorem Idle.refl : Idle engine engine := ⟨engine.memo, id, rfl⟩

theorem Idle.untouched {before after : Engine MemoryStore} (idle : Idle before after) :
    Untouched before after := by
  rcases idle with ⟨memo, _, rfl⟩
  rfl

/-- What is stored is in order, and the trees and the artifacts of an engine are the stored ones.  Commands
that fail keep this, also when they leave the names behind the store. -/
structure Founded (engine : Engine MemoryStore) : Prop where
  wellFormed : engine.store.WellFormed
  trees : TreesOf engine.store engine.scheme
  backed : engine.Backed

/-- What a cascade leaves alone besides the artifacts. -/
structure Framed (middle after : Engine MemoryStore) (mutated : InheritanceScheme) : Prop where
  store_eq : after.store = { middle.store with artifacts := after.store.artifacts }
  tree_eq : ∀ tree, after.scheme.tree tree = mutated.tree tree
  wellFormed : middle.store.WellFormed → after.store.WellFormed
  backed : middle.Backed → after.Backed

/-- A cascade for trees that have been changed cannot fail. -/
theorem exists_perform_cascade (names : Std.ExtTreeSet String)
    {mutate : InheritanceScheme → Except TreeError InheritanceScheme} {mutated : InheritanceScheme}
    (mutates : mutate engine.scheme = .ok mutated) :
    ∃ report after, engine.perform (cascade kind names edited mutate) = (.ok report, after) ∧
      Framed engine after mutated := by
  rcases perform_cascade engine names mutates with ⟨scheme, affected, reworked, _, performed⟩
  rcases perform_buildTargets { engine with scheme := scheme }
      (plan affected scheme.languages.breadthFirst engine.dependencies) with
    ⟨report, after, built, settling⟩
  refine ⟨report, after, performed.trans built, settling.store_eq, ?_, settling.wellFormed, ?_⟩
  · intro tree
    rw [settling.scheme_eq]
    exact reworked.tree_eq tree
  · exact fun backed => settling.backed ⟨backed.stored, backed.keyed, backed.consistent⟩

/-- The trees stay the stored ones when the nodes are those of the changed trees. -/
theorem Framed.founded {middle after : Engine MemoryStore} {mutated : InheritanceScheme}
    (framed : Framed middle after mutated) (wellFormed : middle.store.WellFormed)
    (backed : middle.Backed) (trees : TreesOf middle.store mutated) : after.Founded := by
  refine ⟨framed.wellFormed wellFormed, trees.of_eq (fun tree => ?_) framed.tree_eq,
    framed.backed backed⟩
  rw [framed.store_eq, MemoryStore.nodes_withArtifacts]

theorem Settling.founded {before after : Engine MemoryStore} {answer : ArtifactKey → Slot → Slot}
    (settling : Settling before after answer) (founded : before.Founded) : after.Founded := by
  refine ⟨settling.wellFormed founded.wellFormed,
    founded.trees.of_eq settling.nodes_eq fun tree => ?_, settling.backed founded.backed⟩
  rw [settling.scheme_eq]

/-- The engine when its store has other nodes for a tree. -/
def replanted (engine : Engine MemoryStore) (tree : TreeKind)
    (nodes : Std.ExtTreeMap Position TreeNode) : Engine MemoryStore :=
  { engine with store := engine.store.withNodes tree nodes }

theorem Backed.replanted {engine : Engine MemoryStore} (backed : engine.Backed) (tree : TreeKind)
    (nodes : Std.ExtTreeMap Position TreeNode) : (engine.replanted tree nodes).Backed :=
  ⟨(MemoryStore.artifacts_withNodes engine.store tree nodes).trans backed.stored, backed.keyed,
    backed.consistent⟩

/-- The nodes may also be stored when the cascade is over. -/
theorem Framed.founded_replanted {middle after : Engine MemoryStore} {mutated : InheritanceScheme}
    (framed : Framed middle after mutated) (wellFormed : middle.store.WellFormed)
    (backed : middle.Backed) {tree : TreeKind} {nodes : Std.ExtTreeMap Position TreeNode}
    (keyed : ∀ (id : Position) (node : TreeNode), nodes[id]? = some node → node.id = id)
    (trees : TreesOf (middle.store.withNodes tree nodes) mutated) :
    (after.replanted tree nodes).Founded := by
  refine ⟨(framed.wellFormed wellFormed).withNodes tree keyed, ?_,
    (framed.backed backed).replanted tree nodes⟩
  refine trees.of_eq (fun other => ?_) framed.tree_eq
  rw [replanted, MemoryStore.nodes_withNodes, MemoryStore.nodes_withNodes, framed.store_eq,
    MemoryStore.nodes_withArtifacts]

end Engine
end TemplateCascade
