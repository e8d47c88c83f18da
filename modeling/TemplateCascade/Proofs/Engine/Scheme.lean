import Mathlib
import TemplateCascade.Engine.Basic
import TemplateCascade.Proofs.Inheritance.Loading
import TemplateCascade.Proofs.Store.Contents

namespace TemplateCascade

/-!
# The scheme of a store

A scheme is loaded from a store exactly if its trees are stored as nodes and its names resolve along them
by the stored definitions.  The two halves are kept apart: an edit that fails in the middle can leave the
names behind the store, but not the trees.
-/

namespace InheritanceScheme

variable (scheme : InheritanceScheme) (tree other : TreeKind) (kind : DefinitionKind)

@[simp]
theorem tree_withTree (positions : PositionTree) :
    (scheme.withTree tree positions).tree other =
      if other = tree then positions else scheme.tree other := by
  cases tree <;> cases other <;> rfl

@[simp]
theorem map_withTree (positions : PositionTree) :
    (scheme.withTree tree positions).map kind = scheme.map kind := by
  cases tree <;> cases kind <;> rfl

@[simp]
theorem tree_withMap (map : ResolutionMap) : (scheme.withMap kind map).tree tree = scheme.tree tree := by
  cases kind <;> cases tree <;> rfl

@[simp]
theorem map_withMap (map : ResolutionMap) (asked : DefinitionKind) :
    (scheme.withMap kind map).map asked = if asked = kind then map else scheme.map asked := by
  cases kind <;> cases asked <;> rfl

theorem ext_of_parts {first second : InheritanceScheme}
    (trees : ∀ tree, first.tree tree = second.tree tree)
    (maps : ∀ kind, first.map kind = second.map kind) : first = second := by
  have styles := trees .style
  have languages := trees .language
  have templates := maps .template
  have phrases := maps .phrase
  cases first
  cases second
  simp_all [tree, map]

end InheritanceScheme

namespace Engine

/-- The trees of a scheme are those that a store has nodes for. -/
structure TreesOf (store : MemoryStore) (scheme : InheritanceScheme) : Prop where
  kind_eq : ∀ tree, (scheme.tree tree).kind = tree
  stored : ∀ tree, PositionTree.StoredAs (store.nodes tree) (scheme.tree tree)

/-- The names of a scheme resolve along its trees by the definitions of a store. -/
structure MapsOf (store : MemoryStore) (scheme : InheritanceScheme) : Prop where
  kind_eq : ∀ kind, (scheme.map kind).kind = kind
  resolves : ∀ kind, (scheme.map kind).Resolves (scheme.tree kind.tree) (store.direct kind)

variable {store : MemoryStore} {scheme : InheritanceScheme}

theorem TreesOf.of_eq (trees : TreesOf store scheme) {other : MemoryStore}
    {otherScheme : InheritanceScheme} (sameNodes : ∀ tree, other.nodes tree = store.nodes tree)
    (sameTrees : ∀ tree, otherScheme.tree tree = scheme.tree tree) : TreesOf other otherScheme :=
  ⟨fun tree => by rw [sameTrees, trees.kind_eq],
    fun tree => by rw [sameTrees, sameNodes]; exact trees.stored tree⟩

/-- A tree may be changed together with its nodes. -/
theorem TreesOf.withNodes (trees : TreesOf store scheme) {tree : TreeKind}
    {positions : PositionTree} {nodes : Std.ExtTreeMap Position TreeNode}
    (kind_eq : positions.kind = tree) (stored : PositionTree.StoredAs nodes positions) :
    TreesOf (store.withNodes tree nodes) (scheme.withTree tree positions) := by
  constructor
  · intro other
    rw [InheritanceScheme.tree_withTree]
    split
    · next same => rw [kind_eq, same]
    · exact trees.kind_eq other
  · intro other
    rw [InheritanceScheme.tree_withTree, MemoryStore.nodes_withNodes]
    split
    · exact stored
    · exact trees.stored other

/-- What a name resolves to in a scheme follows the stored definitions, though the root may lag behind; and
its numbers have not been given to other names. -/
structure Tracks (store : MemoryStore) (scheme : InheritanceScheme) (kind : DefinitionKind)
    (name : String) : Prop where
  given : ∀ position id, (scheme.map kind).resolve? name position = some id → id < store.nextId
  named : ∀ position id, (scheme.map kind).resolve? name position = some id → ∀ definition,
    store.definition? kind id = some definition → definition.name = name
  trailing : Trailing (scheme.tree kind.tree) (store.direct kind name) ((scheme.map kind).resolve? name)

/-- A name that has just been worked out is not behind. -/
theorem tracks_of_resolves (wellFormed : store.WellFormed) {kind : DefinitionKind} {name : String}
    (resolves : (scheme.map kind).entries[name]? =
      ResolutionMap.nonempty? (flatten (scheme.tree kind.tree) (store.direct kind name))) :
    Tracks store scheme kind name := by
  have found : (scheme.map kind).resolve? name =
      fun position => (flatten (scheme.tree kind.tree) (store.direct kind name))[position]? := by
    funext position
    rw [ResolutionMap.resolve?, ResolutionMap.resolvedOf, resolves, ResolutionMap.nonempty?_getD]
  have owned : ∀ position id, (scheme.map kind).resolve? name position = some id →
      ∃ definition, store.definitions[id]? = some definition ∧ definition.name = name := by
    intro position id resolved
    rw [found] at resolved
    rcases exists_direct_of_flatten resolved with ⟨owner, own⟩
    rcases wellFormed.direct_eq_some_iff.mp own with ⟨definition, stored, _, sameName, _⟩
    exact ⟨definition, stored, sameName⟩
  refine ⟨fun position id resolved => ?_, fun position id resolved definition isStored => ?_, ?_⟩
  · rcases owned position id resolved with ⟨definition, stored, _⟩
    exact wellFormed.id_lt id definition stored
  · rcases owned position id resolved with ⟨other, stored, sameName⟩
    rw [MemoryStore.definition?_eq_some_iff, stored, Option.some.injEq] at isStored
    exact isStored.1 ▸ sameName
  · rw [found]
    exact trailing_flatten (scheme.tree kind.tree) (store.direct kind name)

theorem MapsOf.tracks (maps : MapsOf store scheme) (wellFormed : store.WellFormed) (kind : DefinitionKind)
    (name : String) : Tracks store scheme kind name :=
  tracks_of_resolves wellFormed (maps.resolves kind name)

/-- Names keep their numbers in a store that has gone on, as long as they follow what it has. -/
theorem Tracks.onward {other : MemoryStore} {otherScheme : InheritanceScheme} {kind : DefinitionKind}
    {name : String} (tracks : Tracks store scheme kind name) (onward : store.Onward other)
    (sameMap : (otherScheme.map kind).entries[name]? = (scheme.map kind).entries[name]?)
    (trailing : Trailing (otherScheme.tree kind.tree) (other.direct kind name)
      ((scheme.map kind).resolve? name)) : Tracks other otherScheme kind name := by
  have found : (otherScheme.map kind).resolve? name = (scheme.map kind).resolve? name := by
    funext position
    rw [ResolutionMap.resolve?, ResolutionMap.resolvedOf, sameMap]
    rfl
  refine ⟨?_, ?_, ?_⟩
  · rw [found]
    exact fun position id resolved => (tracks.given position id resolved).trans_le onward.nextId_le
  · rw [found]
    intro position id resolved definition stored
    rcases onward.named kind id definition (tracks.given position id resolved) stored with
      ⟨old, oldStored, sameName⟩
    exact sameName ▸ tracks.named position id resolved old oldStored
  · rwa [found]

theorem build_eq_of_maps (maps : MapsOf store scheme) (kind : DefinitionKind) :
    ResolutionMap.build kind (scheme.tree kind.tree)
      ((store.definitionsOf kind).map Definition.ownership) = scheme.map kind :=
  ResolutionMap.Resolves.unique (maps.kind_eq kind).symm
    (ResolutionMap.resolves_build kind (scheme.tree kind.tree) _) (maps.resolves kind)

/-- A scheme is loaded from a store exactly if it is the scheme of what is stored. -/
theorem loadScheme_eq_ok_iff (wellFormed : store.WellFormed) :
    loadScheme store = .ok scheme ↔ TreesOf store scheme ∧ MapsOf store scheme := by
  constructor
  · intro loaded
    rcases exists_of_bind_eq_ok loaded with ⟨_, ⟨⟩, loaded⟩
    rcases exists_of_bind_eq_ok loaded with ⟨styleTree, styles, loaded⟩
    rcases exists_of_bind_eq_ok loaded with ⟨_, ⟨⟩, loaded⟩
    rcases exists_of_bind_eq_ok loaded with ⟨languageTree, languages, loaded⟩
    have styleStored := PositionTree.storedAs_of_ofNodes (wellFormed.node_id .style)
      (mapError_eq_ok_iff.mp styles)
    have languageStored := PositionTree.storedAs_of_ofNodes (wellFormed.node_id .language)
      (mapError_eq_ok_iff.mp languages)
    cases loaded
    refine ⟨⟨?_, ?_⟩, ⟨?_, ?_⟩⟩
    · rintro (_ | _)
      · exact styleStored.1
      · exact languageStored.1
    · rintro (_ | _)
      · exact styleStored.2
      · exact languageStored.2
    · rintro (_ | _) <;> rfl
    · rintro (_ | _)
      · exact ResolutionMap.resolves_build .template styleTree _
      · exact ResolutionMap.resolves_build .phrase languageTree _
  · rintro ⟨trees, maps⟩
    have styles := PositionTree.ofNodes_of_storedAs (wellFormed.node_id .style) (trees.stored .style)
    have languages :=
      PositionTree.ofNodes_of_storedAs (wellFormed.node_id .language) (trees.stored .language)
    rw [trees.kind_eq] at styles languages
    have templates := build_eq_of_maps maps .template
    have phrases := build_eq_of_maps maps .phrase
    simp only [loadScheme, Store.loadTree, Store.allDefinitions, Except.mapError, bind, Except.bind,
      styles, languages, pure, Except.pure, Except.ok.injEq]
    refine InheritanceScheme.ext_of_parts ?_ ?_
    · rintro (_ | _) <;> rfl
    · rintro (_ | _)
      · exact templates
      · exact phrases

end Engine
end TemplateCascade
