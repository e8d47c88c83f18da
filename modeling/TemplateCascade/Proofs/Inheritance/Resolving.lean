import Mathlib
import TemplateCascade.Proofs.Inheritance.NearestOwner

namespace TemplateCascade

/-!
# What a map answers

A name is worked out position by position from the root on, and every position takes over what its parent
has.  The answer at a position can be told from its chain alone: of the positions on the chain that own a
definition of the name, the last one decides.  Of several definitions of a name at one position it is the
last one as well that counts.

The lists that a map gives leave none of its answers out and add none, and they ascend.
-/

/-! ## The last that gives something -/

section

variable {Item Result : Type} {value : Item → Option Result} {items : List Item} {item : Item}
  {result : Result}

/-- What the last of some items gives, of those that give something. -/
def lastGiven? (value : Item → Option Result) (items : List Item) : Option Result :=
  items.reverse.findSome? value

theorem lastGiven?_concat :
    lastGiven? value (items ++ [item]) = (value item).or (lastGiven? value items) := by
  rw [lastGiven?, List.reverse_append, List.reverse_singleton, List.singleton_append, List.findSome?_cons]
  cases value item <;> rfl

theorem lastGiven?_eq_some_iff : lastGiven? value items = some result ↔
    ∃ front item back, items = front ++ item :: back ∧ value item = some result ∧
      ∀ later ∈ back, value later = none := by
  rw [lastGiven?, List.findSome?_eq_some_iff]
  constructor
  · rintro ⟨before, item, after, reversed, given, nothing⟩
    refine ⟨after.reverse, item, before.reverse, ?_, given, ?_⟩
    · rw [← List.reverse_reverse items, reversed]
      simp
    · simpa using nothing
  · rintro ⟨front, item, back, rfl, given, nothing⟩
    exact ⟨back.reverse, item, front.reverse, by simp, given, by simpa using nothing⟩

theorem lastGiven?_eq_none_iff : lastGiven? value items = none ↔ ∀ item ∈ items, value item = none := by
  rw [lastGiven?, List.findSome?_eq_none_iff]
  simp

end

/-! ## Owners -/

variable {tree : PositionTree} {direct : DirectDefinitions} {definitions : List Ownership}
  {name : String} {id : Position} {map : ResolutionMap}

/-- The number of a definition if it is one of a name at a position. -/
def Ownership.idAt? (definition : Ownership) (name : String) (position : Position) : Option DefinitionId :=
  if definition.name = name ∧ definition.position = position then some definition.id else none

/-- What a position owns for a name: of several definitions the last one counts. -/
def owned? (definitions : List Ownership) (name : String) (position : Position) : Option DefinitionId :=
  lastGiven? (fun definition => definition.idAt? name position) definitions

theorem getElem?_ofList_ownersOf (definitions : List Ownership) (name : String) (position : Position) :
    (DirectDefinitions.ofList (ownersOf definitions name))[position]? =
      owned? definitions name position := by
  induction definitions using List.reverseRecOn with
  | nil => rfl
  | append_singleton front last inductionHypothesis =>
      rw [owned?, lastGiven?_concat, ← owned?, ← inductionHypothesis, Ownership.idAt?]
      by_cases sameName : last.name = name
      · have entered : DirectDefinitions.ofList (ownersOf (front ++ [last]) name) =
            (DirectDefinitions.ofList (ownersOf front name)).insert last.position last.id := by
          simp [DirectDefinitions.ofList, ownersOf, sameName]
        rw [entered, getElem?_insert_eq]
        by_cases same : last.position = position
        · rw [if_pos same.symm, if_pos ⟨sameName, same⟩, Option.some_or]
        · rw [if_neg (Ne.symm same), if_neg fun both => same both.2, Option.none_or]
      · have skipped : ownersOf (front ++ [last]) name = ownersOf front name := by
          simp [ownersOf, sameName]
        rw [skipped, if_neg fun both => sameName both.1, Option.none_or]

/-! ## Nearest owners -/

/-- A position has what the last owner on its chain owns. -/
theorem flatten_eq_lastGiven? {up : List Position} (found : tree.chains[id]? = some up) :
    (flatten tree direct)[id]? = lastGiven? (fun position => direct[position]?) (up ++ [id]) := by
  have every : ∀ id, tree.contains id = true → ∀ up, tree.chains[id]? = some up →
      (flatten tree direct)[id]? = lastGiven? (fun position => direct[position]?) (up ++ [id]) := by
    refine tree.ancestry_induction ?_ ?_
    · intro up found
      rw [tree.root_chain, Option.some.injEq] at found
      subst found
      rw [flatten_root, lastGiven?_concat]
      exact (Option.or_none).symm
    · intro id parent isParent inductionHypothesis up found
      rcases PositionTree.parent?_eq_some_iff.mp isParent with ⟨higher, parentFound, chainFound⟩
      rw [chainFound, Option.some.injEq] at found
      subst found
      rw [flatten_child isParent, inductionHypothesis higher parentFound,
        ← @lastGiven?_concat _ _ _ (higher ++ [parent]) id]
  exact every id (PositionTree.contains_iff.mpr ⟨up, found⟩) up found

theorem flatten_eq_some_iff {definition : DefinitionId} : (flatten tree direct)[id]? = some definition ↔
    ∃ above owner below, tree.chain id = .ok (above ++ owner :: below) ∧
      direct[owner]? = some definition ∧ ∀ lower ∈ below, direct[lower]? = none := by
  constructor
  · intro resolved
    rcases PositionTree.contains_iff.mp (contains_of_flatten resolved) with ⟨up, found⟩
    rw [flatten_eq_lastGiven? found, lastGiven?_eq_some_iff] at resolved
    rcases resolved with ⟨above, owner, below, cut, own, nothing⟩
    exact ⟨above, owner, below, PositionTree.chain_eq_ok_iff.mpr ⟨up, found, cut.symm⟩, own, nothing⟩
  · rintro ⟨above, owner, below, isChain, own, nothing⟩
    rcases PositionTree.chain_eq_ok_iff.mp isChain with ⟨up, found, cut⟩
    rw [flatten_eq_lastGiven? found, lastGiven?_eq_some_iff]
    exact ⟨above, owner, below, cut.symm, own, nothing⟩

theorem flatten_eq_none_iff : (flatten tree direct)[id]? = none ↔
    ∀ chain, tree.chain id = .ok chain → ∀ owner ∈ chain, direct[owner]? = none := by
  constructor
  · intro unresolved chain isChain
    rcases PositionTree.chain_eq_ok_iff.mp isChain with ⟨up, found, rfl⟩
    rwa [flatten_eq_lastGiven? found, lastGiven?_eq_none_iff] at unresolved
  · intro undefined
    cases present : tree.contains id with
    | false => exact flatten_of_not_contains present
    | true =>
        rcases PositionTree.contains_iff.mp present with ⟨up, found⟩
        rw [flatten_eq_lastGiven? found, lastGiven?_eq_none_iff]
        exact undefined _ (PositionTree.chain_eq_ok_iff.mpr ⟨up, found, rfl⟩)

/-! ## Asking a map -/

namespace ResolutionMap

theorem resolve?_congr {first second : ResolutionMap} {name : String}
    (same : first.entries[name]? = second.entries[name]?) (position : Position) :
    first.resolve? name position = second.resolve? name position := by
  rw [resolve?, resolve?, resolvedOf, resolvedOf, same]

theorem Resolves.resolve?_eq {directOf : String → DirectDefinitions} (resolves : map.Resolves tree directOf)
    (name : String) (position : Position) :
    map.resolve? name position = (flatten tree (directOf name))[position]? := by
  rw [resolve?, resolvedOf, resolves name, nonempty?_getD]

theorem resolve?_eq_some_iff {position : Position} {definition : DefinitionId} :
    map.resolve? name position = some definition ↔
      ∃ resolved, map.entries[name]? = some resolved ∧ resolved[position]? = some definition := by
  rw [resolve?, resolvedOf]
  cases map.entries[name]? <;> simp

theorem mem_positions {position : Position} :
    position ∈ map.positions name ↔ ∃ definition, map.resolve? name position = some definition := by
  rw [positions, Std.ExtTreeMap.mem_keys, mem_iff_getElem?]
  rfl

theorem mem_positionsResolvingTo {id : DefinitionId} {position : Position} :
    position ∈ map.positionsResolvingTo name id ↔ map.resolve? name position = some id := by
  rw [positionsResolvingTo, Std.ExtTreeMap.mem_keys, mem_iff_getElem?, resolve?,
    Std.ExtTreeMap.getElem?_filter']
  simp only [Option.filter_eq_some_iff, beq_iff_eq]
  constructor
  · rintro ⟨found, inMap, rfl⟩
    exact inMap
  · intro inMap
    exact ⟨id, inMap, rfl⟩

theorem mem_namesAt {position : Position} {definition : DefinitionId} :
    (name, definition) ∈ map.namesAt position ↔ map.resolve? name position = some definition := by
  rw [namesAt, List.mem_filterMap, resolve?_eq_some_iff]
  constructor
  · rintro ⟨⟨other, resolved⟩, member, isPair⟩
    rw [Option.map_eq_some_iff] at isPair
    rcases isPair with ⟨found, inMap, same⟩
    cases same
    exact ⟨resolved, Std.ExtTreeMap.mem_toList_iff_getElem?_eq_some.mp member, inMap⟩
  · rintro ⟨resolved, entry, inMap⟩
    exact ⟨(name, resolved), Std.ExtTreeMap.mem_toList_iff_getElem?_eq_some.mpr entry, by simp [inMap]⟩

/-- A name has an entry exactly if it resolves somewhere. -/
theorem Resolves.mem_names {directOf : String → DirectDefinitions} (resolves : map.Resolves tree directOf)
    (name : String) : name ∈ map.names ↔
      ∃ position definition, map.resolve? name position = some definition := by
  rw [names, Std.ExtTreeMap.mem_keys, mem_iff_getElem?]
  constructor
  · rintro ⟨resolved, entry⟩
    have isEntry := resolves name
    rw [entry, nonempty?] at isEntry
    split at isEntry
    · cases isEntry
    · next some =>
        rw [Option.some.injEq] at isEntry
        rw [← isEntry, Std.ExtTreeMap.isEmpty_iff, Std.ExtTreeMap.eq_empty_iff_forall_not_mem,
          not_forall_not] at some
        rcases some with ⟨position, member⟩
        rcases mem_iff_getElem?.mp member with ⟨definition, found⟩
        exact ⟨position, definition, resolve?_eq_some_iff.mpr ⟨resolved, entry, found⟩⟩
  · rintro ⟨position, definition, found⟩
    rcases resolve?_eq_some_iff.mp found with ⟨resolved, entry, _⟩
    exact ⟨resolved, entry⟩

theorem pairwise_names (map : ResolutionMap) : map.names.Pairwise (· < ·) :=
  map.entries.ordered_keys.imp fun less => compare_lt_iff_lt.mp less

theorem pairwise_namesAt (map : ResolutionMap) (position : Position) :
    ((map.namesAt position).map Prod.fst).Pairwise (· < ·) := by
  rw [namesAt, List.pairwise_map, List.pairwise_filterMap]
  refine map.entries.ordered_keys_toList.imp ?_
  rintro ⟨name, resolved⟩ ⟨other, otherResolved⟩ less first isFirst second isSecond
  rcases Option.map_eq_some_iff.mp isFirst with ⟨_, _, rfl⟩
  rcases Option.map_eq_some_iff.mp isSecond with ⟨_, _, rfl⟩
  exact compare_lt_iff_lt.mp less

/-- A map that answers along the chains of a tree, by what positions own for a name.  Its lists are the
answers, in ascending order. -/
structure AnswersAlong (map : ResolutionMap) (tree : PositionTree)
    (own : String → Position → Option DefinitionId) : Prop where
  resolve?_iff : ∀ name position definition, map.resolve? name position = some definition ↔
    ∃ above owner below, tree.chain position = .ok (above ++ owner :: below) ∧
      own name owner = some definition ∧ ∀ lower ∈ below, own name lower = none
  unresolved_iff : ∀ name position, map.resolve? name position = none ↔
    ∀ chain, tree.chain position = .ok chain → ∀ owner ∈ chain, own name owner = none
  absent : ∀ name position, tree.contains position = false → map.resolve? name position = none
  mem_names : ∀ name, name ∈ map.names ↔
    ∃ position definition, map.resolve? name position = some definition
  names_ascend : map.names.Pairwise (· < ·)
  mem_namesAt : ∀ position name definition, (name, definition) ∈ map.namesAt position ↔
    map.resolve? name position = some definition
  namesAt_ascend : ∀ position, ((map.namesAt position).map Prod.fst).Pairwise (· < ·)
  mem_positions : ∀ name position, position ∈ map.positions name ↔
    ∃ definition, map.resolve? name position = some definition
  positions_ascend : ∀ name, (map.positions name).Pairwise (· < ·)
  mem_positionsResolvingTo : ∀ name definition position,
    position ∈ map.positionsResolvingTo name definition ↔ map.resolve? name position = some definition
  positionsResolvingTo_ascend : ∀ name definition,
    (map.positionsResolvingTo name definition).Pairwise (· < ·)

/-- Whatever names a map has worked out along a tree, it answers along the chains. -/
theorem Resolves.answersAlong {directOf : String → DirectDefinitions}
    (resolves : map.Resolves tree directOf) :
    map.AnswersAlong tree fun name position => (directOf name)[position]? where
  resolve?_iff name position definition := by rw [resolves.resolve?_eq, flatten_eq_some_iff]
  unresolved_iff name position := by rw [resolves.resolve?_eq, flatten_eq_none_iff]
  absent name position absent := by rw [resolves.resolve?_eq, flatten_of_not_contains absent]
  mem_names := resolves.mem_names
  names_ascend := map.pairwise_names
  mem_namesAt _ _ _ := mem_namesAt
  namesAt_ascend := map.pairwise_namesAt
  mem_positions _ _ := mem_positions
  positions_ascend _ := pairwise_keys _
  mem_positionsResolvingTo _ _ _ := mem_positionsResolvingTo
  positionsResolvingTo_ascend _ _ := pairwise_keys _

/-- A map that is built from definitions answers by the nearest position, on the way up to the root, that owns
a definition of the name, whether other definitions are at positions of the tree or not. -/
theorem answersAlong_build (kind : DefinitionKind) (tree : PositionTree) (definitions : List Ownership) :
    (build kind tree definitions).AnswersAlong tree (owned? definitions) := by
  have answers := (resolves_build kind tree definitions).answersAlong
  simp only [getElem?_ofList_ownersOf] at answers
  exact answers

end ResolutionMap
end TemplateCascade
