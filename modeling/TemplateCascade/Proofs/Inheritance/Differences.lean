import Mathlib
import TemplateCascade.Proofs.Inheritance.Resolving

namespace TemplateCascade

/-!
# What has changed for a name

When a name is worked out again, its old answers and its new ones are compared over the positions of both.
So a position that has left the tree since the name was worked out last is compared as well, and is lost if
the name resolved there.  The other names keep their entries, and the entry of the name itself does not
depend on what it was: working it out once more finds nothing to report.
-/

/-- Definitions are found again when they are entered one by one. -/
theorem ofList_toList (direct : DirectDefinitions) : DirectDefinitions.ofList direct.toList = direct := by
  refine Std.ExtTreeMap.ext_getElem? fun {position} => Option.ext fun definition => ?_
  have functional : ∀ first ∈ direct.toList, ∀ second ∈ direct.toList, first.1 = second.1 →
      first.2 = second.2 := by
    rintro ⟨position, first⟩ firstMember ⟨_, second⟩ secondMember rfl
    rw [Std.ExtTreeMap.mem_toList_iff_getElem?_eq_some] at firstMember secondMember
    rw [firstMember, Option.some.injEq] at secondMember
    exact secondMember
  refine (foldl_insert_eq_some_iff functional).trans ?_
  simp only [Std.ExtTreeMap.getElem?_empty, reduceCtorEq, and_false, or_false, Prod.exists,
    Std.ExtTreeMap.mem_toList_iff_getElem?_eq_some]
  constructor
  · rintro ⟨_, _, found, rfl, rfl⟩
    exact found
  · exact fun found => ⟨position, definition, found, rfl, rfl⟩

namespace ResolutionMap

variable {old new : Resolved} {map : ResolutionMap} {tree : PositionTree} {name : String}
  {direct : DirectDefinitions} {change : PositionChange} {position : Position}

/-! ## Comparing answers -/

theorem mem_changesBetween : change ∈ changesBetween old new ↔
    change.old = old[change.position]? ∧ change.new = new[change.position]? ∧ change.old ≠ change.new := by
  simp only [changesBetween, List.mem_filter, List.mem_map, Std.ExtTreeMap.mem_keys,
    Std.ExtTreeMap.mem_union_iff, bne_iff_ne]
  constructor
  · rintro ⟨⟨position, _, rfl⟩, different⟩
    exact ⟨rfl, rfl, different⟩
  · rintro ⟨isOld, isNew, different⟩
    refine ⟨⟨change.position, ?_, by rw [← isOld, ← isNew]⟩, different⟩
    rw [isOld, isNew] at different
    -- Where the name resolved neither before nor now, there is no difference.
    rw [mem_iff_getElem?, mem_iff_getElem?]
    by_contra nowhere
    rw [not_or, not_exists, not_exists, ← Option.eq_none_iff_forall_ne_some,
      ← Option.eq_none_iff_forall_ne_some] at nowhere
    exact different (nowhere.1.trans nowhere.2.symm)

theorem mem_positions_changesBetween :
    position ∈ (changesBetween old new).map PositionChange.position ↔ old[position]? ≠ new[position]? := by
  rw [List.mem_map]
  constructor
  · rintro ⟨change, member, rfl⟩
    rcases mem_changesBetween.mp member with ⟨isOld, isNew, different⟩
    rwa [isOld, isNew] at different
  · intro different
    exact ⟨⟨position, old[position]?, new[position]?⟩, mem_changesBetween.mpr ⟨rfl, rfl, different⟩, rfl⟩

theorem entries_rebuildName (map : ResolutionMap) (tree : PositionTree) (name other : String)
    (direct : DirectDefinitions) :
    (map.rebuildName tree name direct).1.entries[other]? =
      if other = name then nonempty? (flatten tree direct) else map.entries[other]? := by
  rw [rebuildName, Std.ExtTreeMap.getElem?_alter]
  by_cases same : other = name
  · rw [if_pos (Std.compare_eq_iff_eq.mpr same.symm), if_pos same]
  · rw [if_neg fun equal => same (Std.compare_eq_iff_eq.mp equal).symm, if_neg same]

theorem resolvedOf_rebuildName (map : ResolutionMap) (tree : PositionTree) (name : String)
    (direct : DirectDefinitions) :
    (map.rebuildName tree name direct).1.resolvedOf name = flatten tree direct := by
  rw [resolvedOf, entries_rebuildName, if_pos rfl, nonempty?_getD]

theorem resolve?_rebuildName (map : ResolutionMap) (tree : PositionTree) (name : String)
    (direct : DirectDefinitions) (position : Position) :
    (map.rebuildName tree name direct).1.resolve? name position = (flatten tree direct)[position]? := by
  rw [resolve?, resolvedOf_rebuildName]

end ResolutionMap
end TemplateCascade
