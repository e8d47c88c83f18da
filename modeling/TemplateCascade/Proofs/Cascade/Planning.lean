import Mathlib
import TemplateCascade.Cascade.Plan
import TemplateCascade.Proofs.Artifact.Dependencies
import TemplateCascade.Proofs.Cascade.Building
import TemplateCascade.Proofs.Inheritance.Ancestry

namespace TemplateCascade

/-!
# What is planned

A key is a target of a plan when one of the affected names is its own, or is on its record, at the
position of the key that counts for the name.  All keys that there should be are those with something in
effect for their own name.
-/

open Compile (Uses)

namespace Targets

theorem mem_foldl_add {key : ArtifactKey} (list : List (ArtifactKey × Bool)) (targets : Targets) :
    key ∈ list.foldl add targets ↔ key ∈ list.map Prod.fst ∨ key ∈ targets := by
  induction list generalizing targets with
  | nil => simp
  | cons target rest inductionHypothesis =>
      rw [List.foldl_cons, inductionHypothesis, add, Std.ExtTreeMap.mem_insert,
        Std.compare_eq_iff_eq, List.map_cons, List.mem_cons]
      tauto

theorem mem_ofList {key : ArtifactKey} {list : List (ArtifactKey × Bool)} :
    key ∈ ofList list ↔ key ∈ list.map Prod.fst := by
  rw [ofList, mem_foldl_add]
  simp

theorem mem_direct {key : ArtifactKey} {keys : List ArtifactKey} :
    key ∈ direct keys ↔ key ∈ keys := by
  simp [direct, mem_ofList]

end Targets

namespace Affected

/-- The affected name is the key's own one, at the key's position. -/
def Owns (change : Affected) (languages : List Position) : ArtifactKey → Prop
  | .template style language name =>
      change.kind = .template ∧ name = change.name ∧ style ∈ change.positions ∧ language ∈ languages
  | .phrase language name =>
      change.kind = .phrase ∧ name = change.name ∧ language ∈ change.positions

/-- The affected name is one that a key uses, at the position where the key uses it. -/
def IsUsedBy (change : Affected) (key : ArtifactKey) (uses : Uses) : Prop :=
  match change.kind with
  | .template =>
      change.name ∈ uses.includes ∧ ∃ style, key.style? = some style ∧ style ∈ change.positions
  | .phrase => change.name ∈ uses.phrases ∧ key.language ∈ change.positions

variable {change : Affected} {languages : List Position} {dependencies : Dependencies}
  {key : ArtifactKey}

theorem mem_ownKeys : key ∈ change.ownKeys languages ↔ change.Owns languages key := by
  rcases change with ⟨_ | _, name, positions⟩
  · cases key with
    | template style language other =>
        simp only [ownKeys, Owns, List.mem_flatMap, List.mem_map, Std.ExtTreeSet.mem_toList,
          ArtifactKey.template.injEq, true_and]
        constructor
        · rintro ⟨_, styleIn, _, languageIn, rfl, rfl, rfl⟩
          exact ⟨rfl, styleIn, languageIn⟩
        · rintro ⟨rfl, styleIn, languageIn⟩
          exact ⟨style, styleIn, language, languageIn, rfl, rfl, rfl⟩
    | phrase language other => simp [ownKeys, Owns]
  · cases key with
    | template style language other => simp [ownKeys, Owns]
    | phrase language other =>
        simp only [ownKeys, Owns, List.mem_map, Std.ExtTreeSet.mem_toList,
          ArtifactKey.phrase.injEq, true_and]
        constructor
        · rintro ⟨_, languageIn, rfl, rfl⟩
          exact ⟨rfl, languageIn⟩
        · rintro ⟨rfl, languageIn⟩
          exact ⟨language, languageIn, rfl, rfl⟩

theorem mem_userKeys (consistent : dependencies.Consistent) :
    key ∈ change.userKeys dependencies ↔
      change.IsUsedBy key ((dependencies.usesOf? key).getD Uses.none) := by
  have onRecord : ∀ (selected : Uses → Prop), ¬ selected Uses.none →
      ((∃ uses, dependencies.usesOf? key = some uses ∧ selected uses) ↔
        selected ((dependencies.usesOf? key).getD Uses.none)) := by
    intro selected notNone
    cases dependencies.usesOf? key with
    | none => simp [notNone]
    | some uses => simp
  rcases change with ⟨_ | _, name, positions⟩
  · simp only [userKeys, IsUsedBy, List.mem_filter, Dependencies.includersOf,
      Std.ExtTreeSet.mem_toList, consistent.includers_iff]
    rw [onRecord (fun uses => name ∈ uses.includes) Std.ExtTreeSet.not_mem_empty, Option.any_eq_true]
    simp only [Std.ExtTreeSet.mem_iff_contains]
  · simp only [userKeys, IsUsedBy, List.mem_filter, Dependencies.phraseUsersOf,
      Std.ExtTreeSet.mem_toList, consistent.phraseUsers_iff]
    rw [onRecord (fun uses => name ∈ uses.phrases) Std.ExtTreeSet.not_mem_empty]
    simp only [Std.ExtTreeSet.mem_iff_contains]

end Affected

/-- A key is planned for exactly if an affected name is its own or is on its record. -/
theorem mem_plan_iff {affected : List Affected} {languages : List Position}
    {dependencies : Dependencies} (consistent : dependencies.Consistent) {key : ArtifactKey} :
    key ∈ plan affected languages dependencies ↔
      ∃ change ∈ affected, change.Owns languages key ∨
        change.IsUsedBy key ((dependencies.usesOf? key).getD Uses.none) := by
  simp only [plan, Targets.mem_ofList, List.map_flatMap, List.mem_flatMap, Affected.targets,
    List.map_append, List.map_map, List.mem_append, Function.comp_def, List.map_id',
    Affected.mem_ownKeys, Affected.mem_userKeys consistent]

namespace InheritanceScheme

variable {scheme : InheritanceScheme}

theorem mem_names_of_resolve? {map : ResolutionMap} {name : String} {position : Position}
    {id : DefinitionId} (resolved : map.resolve? name position = some id) : name ∈ map.names := by
  rw [ResolutionMap.names, Std.ExtTreeMap.mem_keys, mem_iff_getElem?]
  cases entry : map.entries[name]? with
  | none => simp [ResolutionMap.resolve?, ResolutionMap.resolvedOf, entry] at resolved
  | some found => exact ⟨found, rfl⟩

theorem mem_positions_iff {map : ResolutionMap} {name : String} {position : Position} :
    position ∈ map.positions name ↔ ∃ id, map.resolve? name position = some id := by
  rw [ResolutionMap.positions, Std.ExtTreeMap.mem_keys, mem_iff_getElem?]
  rfl

theorem mem_templateKeys {language : Position} {key : ArtifactKey} :
    key ∈ scheme.templateKeys language ↔ ∃ style name id,
      key = .template style language name ∧ scheme.templates.resolve? name style = some id := by
  simp only [templateKeys, List.mem_flatMap, List.mem_map, mem_positions_iff]
  constructor
  · rintro ⟨name, _, style, ⟨id, resolved⟩, rfl⟩
    exact ⟨style, name, id, rfl, resolved⟩
  · rintro ⟨style, name, id, rfl, resolved⟩
    exact ⟨name, mem_names_of_resolve? resolved, style, ⟨id, resolved⟩, rfl⟩

theorem mem_phraseKeys {key : ArtifactKey} :
    key ∈ scheme.phraseKeys ↔ ∃ language name id,
      key = .phrase language name ∧ scheme.phrases.resolve? name language = some id := by
  simp only [phraseKeys, List.mem_flatMap, List.mem_map, mem_positions_iff]
  constructor
  · rintro ⟨name, _, language, ⟨id, resolved⟩, rfl⟩
    exact ⟨language, name, id, rfl, resolved⟩
  · rintro ⟨language, name, id, rfl, resolved⟩
    exact ⟨name, mem_names_of_resolve? resolved, language, ⟨id, resolved⟩, rfl⟩

/-- The keys that there should be are those whose own name has something in effect. -/
theorem mem_allKeys_iff (store : MemoryStore) {key : ArtifactKey} :
    key ∈ scheme.allKeys ↔ own? store scheme key ≠ none := by
  simp only [allKeys, List.mem_append, List.mem_flatMap, PositionTree.mem_breadthFirst,
    mem_templateKeys, mem_phraseKeys, Option.ne_none_iff_exists']
  cases key with
  | template style language name =>
      simp only [ArtifactKey.template.injEq, reduceCtorEq, false_and, exists_false, or_false, own?]
      constructor
      · rintro ⟨other, present, _, _, id, ⟨rfl, rfl, rfl⟩, resolved⟩
        rw [if_pos present, effective?]
        change ∃ found, (scheme.templates.resolve? name style).map _ = some found
        rw [resolved]
        exact ⟨_, rfl⟩
      · rintro ⟨found, inEffect⟩
        split at inEffect
        · next present =>
            rw [effective?, Option.map_eq_some_iff] at inEffect
            rcases inEffect with ⟨id, resolved, _⟩
            exact ⟨language, present, style, name, id, ⟨rfl, rfl, rfl⟩, resolved⟩
        · cases inEffect
  | phrase language name =>
      simp only [ArtifactKey.phrase.injEq, reduceCtorEq, false_and, exists_false, and_false,
        false_or, own?]
      constructor
      · rintro ⟨_, _, id, ⟨rfl, rfl⟩, resolved⟩
        rw [effective?]
        change ∃ found, (scheme.phrases.resolve? name language).map _ = some found
        rw [resolved]
        exact ⟨_, rfl⟩
      · rintro ⟨found, inEffect⟩
        rw [effective?, Option.map_eq_some_iff] at inEffect
        rcases inEffect with ⟨id, resolved, _⟩
        exact ⟨language, name, id, ⟨rfl, rfl⟩, resolved⟩

end InheritanceScheme

end TemplateCascade
