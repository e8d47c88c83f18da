import Mathlib
import TemplateCascade.Inheritance.Scheme
import TemplateCascade.Proofs.Entries
import TemplateCascade.Proofs.Inheritance.Reshaping

namespace TemplateCascade

/-!
# What a name resolves to

Working out a name position by position gives every position its own definition, or else what its parent
has.  This is the only fact about the order of the positions that is used later.  It tells which names a
change of the tree cannot affect: those without a definition above the changed position, where it was and
where it is now.
-/

variable {tree : PositionTree} {direct : DirectDefinitions} {id parent : Position}

/-! ## Along the parents -/

theorem resolveNext_getElem? (tree : PositionTree) (direct : DirectDefinitions) (resolved : Resolved)
    (isNew : resolved[id]? = none) (other : Position) :
    (resolveNext tree direct resolved id)[other]? =
      if other = id then direct[id]?.or ((tree.parent? id).bind fun parent => resolved[parent]?)
      else resolved[other]? := by
  cases value : direct[id]?.or ((tree.parent? id).bind fun parent => resolved[parent]?) with
  | some definition =>
      simp only [resolveNext, value]
      exact getElem?_insert_eq resolved id other definition
  | none =>
      simp only [resolveNext, value]
      split
      · next same => rw [same, isNew]
      · rfl

/-- Some positions have been worked out, with the parent of each, and nothing else. -/
structure WorkedOut (tree : PositionTree) (direct : DirectDefinitions) (known : Position → Prop)
    (resolved : Resolved) : Prop where
  closed : ∀ id, known id → ∀ parent, tree.parent? id = some parent → known parent
  getElem?_eq : ∀ id, known id →
    resolved[id]? = direct[id]?.or ((tree.parent? id).bind fun parent => resolved[parent]?)
  getElem?_none : ∀ id, ¬ known id → resolved[id]? = none

theorem WorkedOut.next {known : Position → Prop} {resolved : Resolved}
    (before : WorkedOut tree direct known resolved) (isNew : ¬ known id)
    (behindParent : ∀ parent, tree.parent? id = some parent → known parent) :
    WorkedOut tree direct (fun other => known other ∨ other = id)
      (resolveNext tree direct resolved id) := by
  have look := resolveNext_getElem? tree direct resolved (before.getElem?_none id isNew)
  have parentsKept : ∀ other, (∀ parent, tree.parent? other = some parent → known parent) →
      ((tree.parent? other).bind fun parent => (resolveNext tree direct resolved id)[parent]?) =
        (tree.parent? other).bind fun parent => resolved[parent]? := by
    intro other parentKnown
    refine Option.bind_congr fun parent isParent => ?_
    rw [look, if_neg]
    rintro rfl
    exact isNew (parentKnown parent isParent)
  refine ⟨?_, ?_, ?_⟩
  · rintro other (isKnown | rfl) parent isParent
    · exact Or.inl (before.closed other isKnown parent isParent)
    · exact Or.inl (behindParent parent isParent)
  · rintro other (isKnown | rfl)
    · have different : other ≠ id := by
        rintro rfl
        exact isNew isKnown
      rw [look, if_neg different, parentsKept other (before.closed other isKnown)]
      exact before.getElem?_eq other isKnown
    · rw [look, if_pos rfl, parentsKept other behindParent]
  · intro other unknown
    rw [not_or] at unknown
    rw [look, if_neg unknown.2]
    exact before.getElem?_none other unknown.1

theorem WorkedOut.all {known : Position → Prop} {resolved : Resolved} {list : List Position}
    (before : WorkedOut tree direct known resolved) (parentsFirst : tree.ParentsFirst known list) :
    WorkedOut tree direct (fun other => known other ∨ other ∈ list)
      (list.foldl (resolveNext tree direct) resolved) := by
  induction list generalizing known resolved with
  | nil => simpa using before
  | cons id rest inductionHypothesis =>
      rcases parentsFirst with ⟨isNew, behindParent, restFirst⟩
      have after := inductionHypothesis (before.next isNew behindParent) restFirst
      simpa only [List.foldl_cons, List.mem_cons, or_assoc] using after

theorem workedOut_flatten (tree : PositionTree) (direct : DirectDefinitions) :
    WorkedOut tree direct (fun id => tree.contains id = true) (flatten tree direct) := by
  have nothing : WorkedOut tree direct (fun _ => False) ∅ :=
    ⟨fun _ => False.elim, fun _ => False.elim, fun _ _ => by simp⟩
  have all := nothing.all tree.parentsFirst_breadthFirst
  simp only [false_or, PositionTree.mem_breadthFirst] at all
  exact all

theorem flatten_of_not_contains (absent : tree.contains id = false) :
    (flatten tree direct)[id]? = none :=
  (workedOut_flatten tree direct).getElem?_none id (by rw [absent]; exact Bool.false_ne_true)

theorem flatten_root : (flatten tree direct)[rootPosition]? = direct[rootPosition]? := by
  have atRoot := (workedOut_flatten tree direct).getElem?_eq rootPosition tree.contains_root
  rw [atRoot, tree.parent?_root, Option.bind_none, Option.or_none]

/-- A position has its own definition, or else what its parent has. -/
theorem flatten_child (isParent : tree.parent? id = some parent) :
    (flatten tree direct)[id]? = direct[id]?.or (flatten tree direct)[parent]? := by
  have atChild := (workedOut_flatten tree direct).getElem?_eq id
    (PositionTree.contains_of_parent? isParent)
  rw [atChild, isParent, Option.bind_some]

theorem contains_of_flatten {definition : DefinitionId}
    (found : (flatten tree direct)[id]? = some definition) : tree.contains id = true := by
  by_contra absent
  rw [Bool.not_eq_true] at absent
  rw [flatten_of_not_contains absent] at found
  cases found

/-- What holds wherever a definition is, and goes on from parents to children, holds wherever the
definition is found. -/
@[elab_as_elim]
theorem flatten_induction {definition : DefinitionId} {motive : Position → Prop}
    (own : ∀ position : Position, direct[position]? = some definition → motive position)
    (inherited : ∀ id parent, tree.parent? id = some parent → motive parent → motive id)
    (found : (flatten tree direct)[id]? = some definition) : motive id := by
  have every : ∀ id, tree.contains id = true → (flatten tree direct)[id]? = some definition → motive id := by
    refine tree.ancestry_induction ?_ ?_
    · intro found
      rw [flatten_root] at found
      exact own rootPosition found
    · intro id parent isParent inductionHypothesis found
      rw [flatten_child isParent, Option.or_eq_some_iff] at found
      rcases found with isOwn | ⟨_, above⟩
      · exact own id isOwn
      · exact inherited id parent isParent (inductionHypothesis above)
  exact every id (contains_of_flatten found) found

/-- What a position has is what some position defines. -/
theorem exists_direct_of_flatten {definition : DefinitionId}
    (found : (flatten tree direct)[id]? = some definition) :
    ∃ owner : Position, direct[owner]? = some definition :=
  @flatten_induction tree direct id definition (fun _ => ∃ owner : Position, direct[owner]? = some definition)
    (fun position own => ⟨position, own⟩) (fun _ _ _ above => above) found

/-- Where neither a position nor anything above it defines the name, it does not resolve. -/
theorem flatten_eq_none_of_chain : ∀ {up : List Position}, tree.chains[id]? = some up →
    (∀ position ∈ up ++ [id], direct[position]? = none) → (flatten tree direct)[id]? = none := by
  suffices every : ∀ id, tree.contains id = true → ∀ up, tree.chains[id]? = some up →
      (∀ position ∈ up ++ [id], direct[position]? = none) → (flatten tree direct)[id]? = none by
    intro up found undefined
    exact every id (PositionTree.contains_iff.mpr ⟨up, found⟩) up found undefined
  refine tree.ancestry_induction ?_ ?_
  · intro up found undefined
    rw [flatten_root]
    exact undefined rootPosition (by simp)
  · intro id parent isParent inductionHypothesis up found undefined
    rcases PositionTree.parent?_eq_some_iff.mp isParent with ⟨higher, parentFound, chainFound⟩
    rw [chainFound, Option.some.injEq] at found
    subst found
    rw [flatten_child isParent, undefined id (by simp), Option.none_or]
    refine inductionHypothesis higher parentFound fun position member => ?_
    exact undefined position (List.mem_append_left _ member)

theorem flatten_empty (tree : PositionTree) : flatten tree ∅ = ∅ := by
  refine Std.ExtTreeMap.ext_getElem? fun {id} => ?_
  rw [Std.ExtTreeMap.getElem?_empty, Option.eq_none_iff_forall_ne_some]
  intro definition found
  rcases exists_direct_of_flatten found with ⟨owner, own⟩
  simp at own

/-- Two trees resolve a name alike if the step from a parent to a child is alike. -/
theorem flatten_eq_of_step {left right : PositionTree} {leftDirect rightDirect : DirectDefinitions}
    (outside : ∀ id, left.contains id = false → (flatten right rightDirect)[id]? = none)
    (root : leftDirect[rootPosition]? = rightDirect[rootPosition]?)
    (step : ∀ id parent, left.parent? id = some parent →
      (flatten left leftDirect)[parent]? = (flatten right rightDirect)[parent]? →
      leftDirect[id]?.or (flatten left leftDirect)[parent]? = (flatten right rightDirect)[id]?) :
    flatten left leftDirect = flatten right rightDirect := by
  have same : ∀ id, left.contains id = true →
      (flatten left leftDirect)[id]? = (flatten right rightDirect)[id]? := by
    refine left.ancestry_induction ?_ ?_
    · rw [flatten_root, flatten_root, root]
    · intro id parent isParent inductionHypothesis
      rw [flatten_child isParent]
      exact step id parent isParent inductionHypothesis
  refine Std.ExtTreeMap.ext_getElem? fun {id} => ?_
  cases present : left.contains id with
  | false => rw [flatten_of_not_contains present, outside id present]
  | true => exact same id present

/-! ## Changes of the tree -/

/-- A new position changes nothing for a name that it does not define and its parent does not have. -/
theorem flatten_grown {grown : PositionTree} (isGrown : tree.Grown grown id parent)
    (undefined : direct[id]? = none) (notInherited : (flatten tree direct)[parent]? = none) :
    flatten grown direct = flatten tree direct := by
  refine flatten_eq_of_step ?_ rfl ?_
  · intro other absent
    refine flatten_of_not_contains ?_
    rw [← Bool.not_eq_true, isGrown.contains_iff, not_or, Bool.not_eq_true] at absent
    exact absent.2
  · intro other above isParent inductionHypothesis
    rw [isGrown.parent?_eq] at isParent
    rw [inductionHypothesis]
    split at isParent
    · next same =>
        rw [Option.some.injEq] at isParent
        rw [same, ← isParent, undefined, notInherited, flatten_of_not_contains isGrown.absent]
        rfl
    · exact (flatten_child isParent).symm

/-- A move changes nothing for a name that neither the old parent nor the new one has. -/
theorem flatten_moved {moved : PositionTree} {old : Position} (isMoved : tree.Moved moved id parent)
    (wasParent : tree.parent? id = some old) (notInherited : (flatten tree direct)[old]? = none)
    (notGained : (flatten tree direct)[parent]? = none) :
    flatten moved direct = flatten tree direct := by
  refine flatten_eq_of_step ?_ rfl ?_
  · intro other absent
    rw [isMoved.contains_eq] at absent
    exact flatten_of_not_contains absent
  · intro other above isParent inductionHypothesis
    rw [isMoved.parent?_eq] at isParent
    rw [inductionHypothesis]
    split at isParent
    · next same =>
        rw [Option.some.injEq] at isParent
        rw [same, ← isParent, flatten_child wasParent, notInherited, notGained]
    · exact (flatten_child isParent).symm

/-- A removal changes nothing for a name that the position does not have. -/
theorem flatten_without {left : PositionTree} (isWithout : tree.Without left id parent)
    (unresolved : (flatten tree direct)[id]? = none) :
    flatten left direct = flatten tree direct := by
  have above : (flatten tree direct)[parent]? = none := by
    rw [flatten_child isWithout.isParent, Option.or_eq_none_iff] at unresolved
    exact unresolved.2
  refine flatten_eq_of_step ?_ rfl ?_
  · intro other absent
    rw [← Bool.not_eq_true, isWithout.contains_iff, not_and_or, not_not, Bool.not_eq_true] at absent
    rcases absent with rfl | absent
    · exact unresolved
    · exact flatten_of_not_contains absent
  · intro other next isParent inductionHypothesis
    have different : other ≠ id :=
      ((isWithout.contains_iff other).mp (PositionTree.contains_of_parent? isParent)).1
    rw [isWithout.parent?_eq other different] at isParent
    rw [inductionHypothesis]
    split at isParent
    · next underRemoved =>
        rw [Option.some.injEq] at isParent
        rw [flatten_child underRemoved, unresolved, ← isParent, above]
    · exact (flatten_child isParent).symm

/-! ## Lagging behind at the root -/

/-- What a name resolves to follows its definitions down a tree.  Only the root may still have a definition
that is gone, and whatever inherits from it then has it too. -/
structure Trailing (tree : PositionTree) (direct : DirectDefinitions)
    (found : Position → Option DefinitionId) : Prop where
  inTree : ∀ position id, found position = some id → tree.contains position = true
  root : ∀ id, direct[rootPosition]? = some id → found rootPosition = some id
  child : ∀ id parent, tree.parent? id = some parent → found id = direct[id]?.or (found parent)

theorem trailing_flatten (tree : PositionTree) (direct : DirectDefinitions) :
    Trailing tree direct fun position => (flatten tree direct)[position]? :=
  ⟨fun _ _ => contains_of_flatten, fun _ own => flatten_root.trans own, fun _ _ => flatten_child⟩

namespace Trailing

variable {found : Position → Option DefinitionId}

/-- A definition counts where it is. -/
theorem found_of_direct (trailing : Trailing tree direct found) (present : tree.contains id = true)
    {definition : DefinitionId} (own : direct[id]? = some definition) : found id = some definition := by
  by_cases isRoot : id = rootPosition
  · subst isRoot
    exact trailing.root definition own
  · rcases PositionTree.exists_parent? present isRoot with ⟨parent, isParent⟩
    rw [trailing.child id parent isParent, own, Option.some_or]

/-- Where nothing is found, nothing is inherited. -/
theorem flatten_eq_none (trailing : Trailing tree direct found) (missing : found id = none) :
    (flatten tree direct)[id]? = none := by
  have every : ∀ id, tree.contains id = true → found id = none → (flatten tree direct)[id]? = none := by
    refine tree.ancestry_induction ?_ ?_
    · intro missing
      rw [flatten_root, Option.eq_none_iff_forall_ne_some]
      intro definition own
      rw [trailing.root definition own] at missing
      cases missing
    · intro id parent isParent inductionHypothesis missing
      rw [trailing.child id parent isParent, Option.or_eq_none_iff] at missing
      rw [flatten_child isParent, missing.1, Option.none_or]
      exact inductionHypothesis missing.2
  cases present : tree.contains id with
  | false => exact flatten_of_not_contains present
  | true => exact every id present missing

/-- Where neither a position nor anything above it defines the name, it has what the root has. -/
theorem found_eq_root (trailing : Trailing tree direct found) : ∀ {up : List Position},
    tree.chains[id]? = some up → (∀ position ∈ up ++ [id], direct[position]? = none) →
      found id = found rootPosition := by
  suffices every : ∀ id, tree.contains id = true → ∀ up, tree.chains[id]? = some up →
      (∀ position ∈ up ++ [id], direct[position]? = none) → found id = found rootPosition by
    intro up chain undefined
    exact every id (PositionTree.contains_iff.mpr ⟨up, chain⟩) up chain undefined
  refine tree.ancestry_induction (fun _ _ _ => rfl) ?_
  intro id parent isParent inductionHypothesis up chain undefined
  rcases PositionTree.parent?_eq_some_iff.mp isParent with ⟨higher, parentChain, idChain⟩
  rw [idChain, Option.some.injEq] at chain
  subst chain
  rw [trailing.child id parent isParent, undefined id (by simp), Option.none_or]
  refine inductionHypothesis higher parentChain fun position member => ?_
  exact undefined position (List.mem_append_left _ member)

theorem grown {larger : PositionTree} (trailing : Trailing tree direct found)
    (isGrown : tree.Grown larger id parent) (undefined : direct[id]? = none)
    (notInherited : found parent = none) : Trailing larger direct found := by
  refine ⟨fun other definition resolved => ?_, trailing.root, fun other above isParent => ?_⟩
  · exact (isGrown.contains_iff other).mpr (Or.inr (trailing.inTree other definition resolved))
  · rw [isGrown.parent?_eq] at isParent
    split at isParent
    · next same =>
        rw [Option.some.injEq] at isParent
        subst same isParent
        rw [undefined, notInherited, Option.none_or, Option.eq_none_iff_forall_ne_some]
        intro definition resolved
        have present := trailing.inTree other definition resolved
        rw [isGrown.absent] at present
        cases present
    · exact trailing.child other above isParent

theorem moved {other : PositionTree} (trailing : Trailing tree direct found)
    (isMoved : tree.Moved other id parent) {old : Position} (wasParent : tree.parent? id = some old)
    (same : found parent = found old) : Trailing other direct found := by
  refine ⟨fun position definition resolved => ?_, trailing.root, fun position above isParent => ?_⟩
  · rw [isMoved.contains_eq]
    exact trailing.inTree position definition resolved
  · rw [isMoved.parent?_eq] at isParent
    split at isParent
    · next isId =>
        rw [Option.some.injEq] at isParent
        subst isId isParent
        rw [same]
        exact trailing.child position old wasParent
    · exact trailing.child position above isParent

theorem without {left : PositionTree} (trailing : Trailing tree direct found)
    (isWithout : tree.Without left id parent) (unresolved : found id = none) :
    Trailing left direct found := by
  have above : found parent = none := by
    rw [trailing.child id parent isWithout.isParent, Option.or_eq_none_iff] at unresolved
    exact unresolved.2
  refine ⟨fun other definition resolved => ?_, trailing.root, fun other next isParent => ?_⟩
  · refine (isWithout.contains_iff other).mpr ⟨?_, trailing.inTree other definition resolved⟩
    rintro rfl
    rw [unresolved] at resolved
    cases resolved
  · have different : other ≠ id :=
      ((isWithout.contains_iff other).mp (PositionTree.contains_of_parent? isParent)).1
    rw [isWithout.parent?_eq other different] at isParent
    split at isParent
    · next underRemoved =>
        rw [Option.some.injEq] at isParent
        rw [trailing.child other id underRemoved, unresolved, ← isParent, above]
    · exact trailing.child other next isParent

/-- When a position has been given a definition, other definitions are found only where they were. -/
theorem found_of_flatten {larger : DirectDefinitions} {owner : Position} {definition other : DefinitionId}
    (trailing : Trailing tree direct found)
    (isLarger : ∀ position : Position, larger[position]? =
      if position = owner then some definition else direct[position]?)
    (different : other ≠ definition) (resolved : (flatten tree larger)[id]? = some other) :
    found id = some other := by
  -- At the root this needs no more than that own definitions count; what has gone there is not found again.
  have own : ∀ position : Position, larger[position]? = some other → direct[position]? = some other := by
    intro position isOwn
    rw [isLarger] at isOwn
    split at isOwn
    · rw [Option.some.injEq] at isOwn
      exact absurd isOwn.symm different
    · exact isOwn
  have every : ∀ id, tree.contains id = true → (flatten tree larger)[id]? = some other →
      found id = some other := by
    refine tree.ancestry_induction ?_ ?_
    · intro resolved
      rw [flatten_root] at resolved
      exact trailing.root other (own rootPosition resolved)
    · intro id parent isParent inductionHypothesis resolved
      rw [flatten_child isParent, Option.or_eq_some_iff] at resolved
      rw [trailing.child id parent isParent]
      rcases resolved with isOwn | ⟨undefined, above⟩
      · rw [own id isOwn, Option.some_or]
      · rw [isLarger] at undefined
        split at undefined
        · cases undefined
        · rw [undefined, Option.none_or]
          exact inductionHypothesis above
  exact every id (contains_of_flatten resolved) resolved

/-- The definition of the root may go. -/
theorem robbed {left : DirectDefinitions} (trailing : Trailing tree direct found)
    (same : ∀ position, position ≠ rootPosition → left[position]? = direct[position]?)
    (gone : ∀ definition, left[rootPosition]? = some definition →
      direct[rootPosition]? = some definition) : Trailing tree left found := by
  refine ⟨trailing.inTree, fun definition own => trailing.root definition (gone definition own), ?_⟩
  intro other above isParent
  rw [same other (PositionTree.ne_root_of_parent? isParent)]
  exact trailing.child other above isParent

end Trailing

/-! ## The map of all names -/

/-- The definitions of one name among some definitions. -/
def ownersOf (definitions : List Ownership) (name : String) : List (Position × DefinitionId) :=
  (definitions.filter fun definition => definition.name == name).map
    fun definition => (definition.position, definition.id)

/-- The names of a map resolve along a tree, by the definitions of each. -/
def ResolutionMap.Resolves (map : ResolutionMap) (tree : PositionTree)
    (directOf : String → DirectDefinitions) : Prop :=
  ∀ name : String, map.entries[name]? = ResolutionMap.nonempty? (flatten tree (directOf name))

namespace ResolutionMap

theorem nonempty?_getD (resolved : Resolved) : (nonempty? resolved).getD ∅ = resolved := by
  unfold nonempty?
  split
  · next isEmpty => exact (Std.ExtTreeMap.isEmpty_iff.mp isEmpty).symm
  · rfl

theorem nonempty?_empty : nonempty? ∅ = none := by
  simp [nonempty?]

/-- A map is determined by its kind and what its names resolve along. -/
theorem Resolves.unique {first second : ResolutionMap} {directOf : String → DirectDefinitions}
    (sameKind : first.kind = second.kind) (left : first.Resolves tree directOf)
    (right : second.Resolves tree directOf) : first = second := by
  have sameEntries : first.entries = second.entries :=
    Std.ExtTreeMap.ext_getElem? fun {name} => by rw [left name, right name]
  cases first
  cases second
  simp_all

end ResolutionMap

/-- Enter one more definition under its name. -/
def enter (known : Std.ExtTreeMap String DirectDefinitions) (definition : Ownership) :
    Std.ExtTreeMap String DirectDefinitions :=
  known.insert definition.name
    ((known[definition.name]?.getD ∅).insert definition.position definition.id)

theorem directByName_eq (definitions : List Ownership) :
    directByName definitions = definitions.foldl enter ∅ := rfl

theorem foldl_enter (definitions : List Ownership)
    (known : Std.ExtTreeMap String DirectDefinitions) (name : String) :
    (definitions.foldl enter known)[name]?.getD ∅ =
      (ownersOf definitions name).foldl (fun known (position, id) => known.insert position id)
        (known[name]?.getD ∅) := by
  induction definitions generalizing known with
  | nil => rfl
  | cons definition rest inductionHypothesis =>
      rw [List.foldl_cons, inductionHypothesis, enter, getElem?_insert_eq]
      by_cases same : definition.name = name
      · subst same
        simp [ownersOf]
      · simp [ownersOf, same, Ne.symm same]

theorem directByName_getD (definitions : List Ownership) (name : String) :
    (directByName definitions)[name]?.getD ∅ =
      DirectDefinitions.ofList (ownersOf definitions name) := by
  rw [directByName_eq, foldl_enter, Std.ExtTreeMap.getElem?_empty, Option.getD_none]
  rfl

/-- Working out every name gives a map in which every name resolves. -/
theorem ResolutionMap.resolves_build (kind : DefinitionKind) (tree : PositionTree)
    (definitions : List Ownership) :
    (build kind tree definitions).Resolves tree
      fun name => DirectDefinitions.ofList (ownersOf definitions name) := by
  intro name
  rw [build, Std.ExtTreeMap.getElem?_filterMap']
  simp only [← directByName_getD]
  cases (directByName definitions)[name]? with
  | none => rw [Option.bind_none, Option.getD_none, flatten_empty, nonempty?_empty]
  | some direct => rfl

end TemplateCascade
