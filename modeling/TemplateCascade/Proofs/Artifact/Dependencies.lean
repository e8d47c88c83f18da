import Mathlib
import TemplateCascade.Artifact.Dependencies
import TemplateCascade.Proofs.Entries

namespace TemplateCascade

/-!
# The lists of users

Dependencies are kept twice, by artifact and by name.  The lists by name are exactly what the records by
artifact say, and recording and forgetting keep it so.
-/

open Compile (Uses)

namespace UserIndex

variable {key other : ArtifactKey} {index : UserIndex} {name : String}

/-- Listing and striking are told apart by name and by artifact at once. -/
theorem mem_usersOf_insert (index : UserIndex) (users : Std.ExtTreeSet ArtifactKey)
    (listed name : String) :
    other ∈ UserIndex.usersOf (index.insert listed users) name ↔
      if name = listed then other ∈ users else other ∈ index.usersOf name := by
  rw [usersOf, getElem?_insert_eq]
  split
  · rfl
  · rfl

theorem mem_usersOf_link (index : UserIndex) (listed name : String) :
    other ∈ (index.link key listed).usersOf name ↔
      (other = key ∧ name = listed) ∨ other ∈ index.usersOf name := by
  rw [link, mem_usersOf_insert]
  split
  · next same =>
      rw [same, Std.ExtTreeSet.mem_insert, Std.compare_eq_iff_eq]
      simp [eq_comm]
  · next different => simp [different]

theorem mem_usersOf_unlink (index : UserIndex) (listed name : String) :
    other ∈ (index.unlink key listed).usersOf name ↔
      ¬ (other = key ∧ name = listed) ∧ other ∈ index.usersOf name := by
  have erased : other ∈ (index.usersOf listed).erase key ↔
      other ≠ key ∧ other ∈ index.usersOf listed := by
    rw [Std.ExtTreeSet.mem_erase, ne_eq, Std.compare_eq_iff_eq, eq_comm]
  by_cases same : name = listed
  · subst same
    rw [unlink]
    split
    · next isEmpty =>
        rw [Std.ExtTreeSet.isEmpty_iff] at isEmpty
        rw [isEmpty] at erased
        rw [usersOf, getElem?_erase_eq, if_pos rfl, Option.getD_none, erased]
        simp
    · rw [mem_usersOf_insert, if_pos rfl, erased]
      simp
  · rw [unlink]
    split
    · rw [usersOf, getElem?_erase_eq, if_neg same]
      simp [same, usersOf]
    · rw [mem_usersOf_insert, if_neg same]
      simp [same]

theorem mem_usersOf_foldl_link (names : List String) :
    other ∈ UserIndex.usersOf (names.foldl (link key) index) name ↔
      (other = key ∧ name ∈ names) ∨ other ∈ index.usersOf name := by
  induction names generalizing index with
  | nil => simp
  | cons listed rest inductionHypothesis =>
      rw [List.foldl_cons, inductionHypothesis, mem_usersOf_link, List.mem_cons]
      tauto

theorem mem_usersOf_foldl_unlink (names : List String) :
    other ∈ UserIndex.usersOf (names.foldl (unlink key) index) name ↔
      ¬ (other = key ∧ name ∈ names) ∧ other ∈ index.usersOf name := by
  induction names generalizing index with
  | nil => simp
  | cons listed rest inductionHypothesis =>
      rw [List.foldl_cons, inductionHypothesis, mem_usersOf_unlink, List.mem_cons]
      tauto

end UserIndex

namespace Dependencies

/-- The artifacts listed under the names are those whose records have the names. -/
structure Consistent (dependencies : Dependencies) : Prop where
  includers_iff : ∀ (key : ArtifactKey) (name : String),
    key ∈ dependencies.includers.usersOf name ↔
      ∃ uses, dependencies.usesOf? key = some uses ∧ name ∈ uses.includes
  phraseUsers_iff : ∀ (key : ArtifactKey) (name : String),
    key ∈ dependencies.phraseUsers.usersOf name ↔
      ∃ uses, dependencies.usesOf? key = some uses ∧ name ∈ uses.phrases

variable {dependencies : Dependencies} {key other : ArtifactKey} {uses : Uses} {name : String}

theorem consistent_empty : empty.Consistent :=
  ⟨by simp [empty, UserIndex.usersOf, usesOf?], by simp [empty, UserIndex.usersOf, usesOf?]⟩

theorem usesOf?_unlink : (dependencies.unlink key).usesOf? other = dependencies.usesOf? other := by
  unfold unlink
  split <;> rfl

theorem usesOf?_record : (dependencies.record key uses).usesOf? other =
    if other = key then some uses else dependencies.usesOf? other := by
  change ((dependencies.unlink key).uses.insert key uses)[other]? = _
  rw [getElem?_insert_eq]
  split
  · rfl
  · exact usesOf?_unlink

theorem usesOf?_remove : (dependencies.remove key).usesOf? other =
    if other = key then none else dependencies.usesOf? other := by
  change ((dependencies.unlink key).uses.erase key)[other]? = _
  rw [getElem?_erase_eq]
  split
  · rfl
  · exact usesOf?_unlink

/-- An index lists every artifact under the names that are on its record. -/
def Lists (dependencies : Dependencies) (namesOf : Uses → Std.ExtTreeSet String) (index : UserIndex) :
    Prop :=
  ∀ (key : ArtifactKey) (name : String), key ∈ index.usersOf name ↔
    ∃ uses, dependencies.usesOf? key = some uses ∧ name ∈ namesOf uses

/-- An index without an artifact that was listed under the names on its record. -/
def struck (dependencies : Dependencies) (namesOf : Uses → Std.ExtTreeSet String) (key : ArtifactKey)
    (index : UserIndex) : UserIndex :=
  match dependencies.usesOf? key with
  | none => index
  | some old => (namesOf old).toList.foldl (UserIndex.unlink key) index

theorem includers_unlink : (dependencies.unlink key).includers =
    dependencies.struck Uses.includes key dependencies.includers := by
  rw [unlink, struck]
  cases dependencies.usesOf? key <;> rfl

theorem phraseUsers_unlink : (dependencies.unlink key).phraseUsers =
    dependencies.struck Uses.phrases key dependencies.phraseUsers := by
  rw [unlink, struck]
  cases dependencies.usesOf? key <;> rfl

namespace Lists

variable {namesOf : Uses → Std.ExtTreeSet String} {index : UserIndex}
  (lists : Lists dependencies namesOf index)

include lists

/-- After striking an artifact, the others are listed as before. -/
theorem mem_struck : other ∈ (dependencies.struck namesOf key index).usersOf name ↔
    other ≠ key ∧ other ∈ index.usersOf name := by
  unfold struck
  split
  · next missing =>
      rw [iff_and_self]
      rintro listed rfl
      rcases (lists other name).mp listed with ⟨uses, recorded, _⟩
      rw [missing] at recorded
      cases recorded
  · next old recorded =>
      rw [UserIndex.mem_usersOf_foldl_unlink, Std.ExtTreeSet.mem_toList]
      refine and_congr_left fun listed => not_congr ⟨fun both => both.1, fun same => ⟨same, ?_⟩⟩
      rcases (lists other name).mp listed with ⟨uses, otherRecorded, member⟩
      rw [same, recorded, Option.some.injEq] at otherRecorded
      exact otherRecorded ▸ member

theorem record (key : ArtifactKey) (uses : Uses) :
    Lists (dependencies.record key uses) namesOf
      ((namesOf uses).toList.foldl (UserIndex.link key) (dependencies.struck namesOf key index)) := by
  intro other name
  rw [UserIndex.mem_usersOf_foldl_link, lists.mem_struck, lists, Std.ExtTreeSet.mem_toList,
    usesOf?_record]
  by_cases same : other = key
  · simp [same]
  · simp [same]

theorem remove (key : ArtifactKey) :
    Lists (dependencies.remove key) namesOf (dependencies.struck namesOf key index) := by
  intro other name
  rw [lists.mem_struck, lists, usesOf?_remove]
  by_cases same : other = key
  · simp [same]
  · simp [same]

end Lists

theorem Consistent.record (consistent : dependencies.Consistent) (key : ArtifactKey) (uses : Uses) :
    (dependencies.record key uses).Consistent := by
  have includers : Lists dependencies Uses.includes dependencies.includers := consistent.includers_iff
  have phraseUsers : Lists dependencies Uses.phrases dependencies.phraseUsers :=
    consistent.phraseUsers_iff
  constructor
  · have recorded := includers.record key uses
    rw [← includers_unlink] at recorded
    exact recorded
  · have recorded := phraseUsers.record key uses
    rw [← phraseUsers_unlink] at recorded
    exact recorded

theorem Consistent.remove (consistent : dependencies.Consistent) (key : ArtifactKey) :
    (dependencies.remove key).Consistent := by
  have includers : Lists dependencies Uses.includes dependencies.includers := consistent.includers_iff
  have phraseUsers : Lists dependencies Uses.phrases dependencies.phraseUsers :=
    consistent.phraseUsers_iff
  constructor
  · have removed := includers.remove key
    rw [← includers_unlink] at removed
    exact removed
  · have removed := phraseUsers.remove key
    rw [← phraseUsers_unlink] at removed
    exact removed

end Dependencies
end TemplateCascade
