import Mathlib
import TemplateCascade.Proofs.Artifact.Dependencies

namespace TemplateCascade

/-!
# Records over time

Dependencies start empty and are changed one artifact at a time, or forgotten all at once.  Whatever was
done to them, what is recorded of an artifact is what was recorded last, the lists by name are exactly what
the records say, and no name is listed without an artifact.  Striking the old names of an artifact before
its new ones are listed is what keeps a name off the lists that it is recorded under no longer, and striking
a name with its last artifact is what keeps the lists from being empty.
-/

open Compile (Uses)

namespace UserIndex

variable {index : UserIndex}

/-- No name is listed without an artifact. -/
def NoneEmpty (index : UserIndex) : Prop :=
  ∀ (name : String) (users : Std.ExtTreeSet ArtifactKey), index[name]? = some users → users ≠ ∅

theorem noneEmpty_empty : NoneEmpty ∅ := by
  intro name users found
  simp at found

theorem NoneEmpty.insert (full : index.NoneEmpty) (name : String) {users : Std.ExtTreeSet ArtifactKey}
    (present : users ≠ ∅) : NoneEmpty (index.insert name users) := by
  intro other found isFound
  rw [getElem?_insert_eq] at isFound
  split at isFound
  · exact Option.some.inj isFound ▸ present
  · exact full other found isFound

theorem NoneEmpty.erase (full : index.NoneEmpty) (name : String) : NoneEmpty (index.erase name) := by
  intro other found isFound
  rw [getElem?_erase_eq] at isFound
  split at isFound
  · cases isFound
  · exact full other found isFound

theorem NoneEmpty.link (full : index.NoneEmpty) (key : ArtifactKey) (name : String) :
    (index.link key name).NoneEmpty :=
  full.insert name Std.ExtTreeSet.insert_ne_empty

theorem NoneEmpty.unlink (full : index.NoneEmpty) (key : ArtifactKey) (name : String) :
    (index.unlink key name).NoneEmpty := by
  unfold UserIndex.unlink
  dsimp only
  split
  · exact full.erase name
  · next notEmpty => exact full.insert name fun isEmpty => notEmpty (Std.ExtTreeSet.isEmpty_iff.mpr isEmpty)

theorem NoneEmpty.foldl_link (full : index.NoneEmpty) (key : ArtifactKey) (names : List String) :
    NoneEmpty (names.foldl (UserIndex.link key) index) := by
  induction names generalizing index with
  | nil => exact full
  | cons name rest inductionHypothesis => exact inductionHypothesis (full.link key name)

theorem NoneEmpty.foldl_unlink (full : index.NoneEmpty) (key : ArtifactKey) (names : List String) :
    NoneEmpty (names.foldl (UserIndex.unlink key) index) := by
  induction names generalizing index with
  | nil => exact full
  | cons name rest inductionHypothesis => exact inductionHypothesis (full.unlink key name)

end UserIndex

namespace Dependencies

variable {dependencies : Dependencies}

theorem noneEmpty_struck (dependencies : Dependencies) {index : UserIndex} (full : index.NoneEmpty)
    (namesOf : Uses → Std.ExtTreeSet String) (key : ArtifactKey) :
    (dependencies.struck namesOf key index).NoneEmpty := by
  unfold struck
  split
  · exact full
  · exact full.foldl_unlink key _

/-- Both lists by name follow the records, and neither has a name without an artifact. -/
structure Kept (dependencies : Dependencies) : Prop where
  consistent : dependencies.Consistent
  includers : dependencies.includers.NoneEmpty
  phraseUsers : dependencies.phraseUsers.NoneEmpty

theorem kept_empty : empty.Kept :=
  ⟨consistent_empty, UserIndex.noneEmpty_empty, UserIndex.noneEmpty_empty⟩

theorem Kept.record (kept : dependencies.Kept) (key : ArtifactKey) (uses : Uses) :
    (dependencies.record key uses).Kept := by
  refine ⟨kept.consistent.record key uses, ?_, ?_⟩
  · have struck := noneEmpty_struck dependencies kept.includers Uses.includes key
    rw [← includers_unlink] at struck
    exact struck.foldl_link key _
  · have struck := noneEmpty_struck dependencies kept.phraseUsers Uses.phrases key
    rw [← phraseUsers_unlink] at struck
    exact struck.foldl_link key _

theorem Kept.remove (kept : dependencies.Kept) (key : ArtifactKey) : (dependencies.remove key).Kept := by
  refine ⟨kept.consistent.remove key, ?_, ?_⟩
  · have struck := noneEmpty_struck dependencies kept.includers Uses.includes key
    rw [← includers_unlink] at struck
    exact struck
  · have struck := noneEmpty_struck dependencies kept.phraseUsers Uses.phrases key
    rw [← phraseUsers_unlink] at struck
    exact struck

/-! ## Changes -/

/-- What can be done to dependencies. -/
inductive Change where
  | record (key : ArtifactKey) (uses : Uses)
  | remove (key : ArtifactKey)
  /-- Forget all artifacts. -/
  | clear

/-- The dependencies behind a change. -/
def Change.apply (dependencies : Dependencies) : Change → Dependencies
  | .record key uses => dependencies.record key uses
  | .remove key => dependencies.remove key
  | .clear => empty

/-- The dependencies behind some changes, made one after the other to none. -/
def changedBy (changes : List Change) : Dependencies :=
  changes.foldl Change.apply empty

/-- A change replaces or forgets what was recorded of an artifact. -/
inductive Change.Concerns (key : ArtifactKey) : Change → Prop where
  | record (uses : Uses) : Concerns key (.record key uses)
  | remove : Concerns key (.remove key)
  | clear : Concerns key .clear

theorem changedBy_append_singleton (changes : List Change) (last : Change) :
    changedBy (changes ++ [last]) = last.apply (changedBy changes) := by
  rw [changedBy, List.foldl_append]
  rfl

theorem Kept.apply (kept : dependencies.Kept) (change : Change) : (change.apply dependencies).Kept := by
  cases change with
  | record key uses => exact kept.record key uses
  | remove key => exact kept.remove key
  | clear => exact kept_empty

theorem kept_changedBy (changes : List Change) : (changedBy changes).Kept := by
  induction changes using List.reverseRecOn with
  | nil => exact kept_empty
  | append_singleton before last inductionHypothesis =>
      rw [changedBy_append_singleton]
      exact inductionHypothesis.apply last

/-- A change either says what is recorded of an artifact or leaves it as it was. -/
theorem usesOf?_apply (change : Change) (key : ArtifactKey) (uses : Uses) :
    (change.apply dependencies).usesOf? key = some uses ↔
      change = .record key uses ∨ ¬ change.Concerns key ∧ dependencies.usesOf? key = some uses := by
  cases change with
  | record other recorded =>
      rw [Change.apply, usesOf?_record]
      by_cases same : key = other
      · subst same
        simp [Change.Concerns.record]
      · have untouched : ¬ (Change.record other recorded).Concerns key := by
          rintro ⟨⟩
          exact same rfl
        simp [same, untouched, Ne.symm same]
  | remove other =>
      rw [Change.apply, usesOf?_remove]
      by_cases same : key = other
      · subst same
        simp [Change.Concerns.remove]
      · have untouched : ¬ (Change.remove other).Concerns key := by
          rintro ⟨⟩
          exact same rfl
        simp [same, untouched]
  | clear => simp [Change.apply, Change.Concerns.clear, empty, usesOf?]

/-- What is recorded of an artifact is what was recorded last, and nothing has concerned the artifact since. -/
theorem usesOf?_changedBy (changes : List Change) (key : ArtifactKey) (uses : Uses) :
    (changedBy changes).usesOf? key = some uses ↔
      ∃ before since, changes = before ++ .record key uses :: since ∧
        ∀ change ∈ since, ¬ change.Concerns key := by
  induction changes using List.reverseRecOn with
  | nil => simp [changedBy, empty, usesOf?]
  | append_singleton earlier last inductionHypothesis =>
      rw [changedBy_append_singleton, usesOf?_apply, inductionHypothesis]
      constructor
      · rintro (rfl | ⟨untouched, before, since, rfl, others⟩)
        · exact ⟨earlier, [], rfl, List.forall_mem_nil _⟩
        · refine ⟨before, since ++ [last], by simp, ?_⟩
          rw [List.forall_mem_append, List.forall_mem_singleton]
          exact ⟨others, untouched⟩
      · rintro ⟨before, since, split, others⟩
        cases since using List.reverseRecOn with
        | nil => exact .inl (List.singleton_inj.mp (List.append_inj_right' split rfl))
        | append_singleton since newest =>
            rw [← List.cons_append, ← List.append_assoc] at split
            have sameLast := List.singleton_inj.mp (List.append_inj_right' split rfl)
            rw [List.forall_mem_append, List.forall_mem_singleton, ← sameLast] at others
            exact .inr ⟨others.2, before, since, List.append_inj_left' split rfl, others.1⟩

/-- Whatever is recorded, removed and cleared: under every name stand, in strictly ascending order, exactly
the artifacts whose record has the name, for templates and for phrases; no name stands without an artifact;
and the record of an artifact is the last one since it was removed or all was cleared. -/
theorem listings_of_changes (changes : List Change) :
    let dependencies := changedBy changes
    (∀ name, (dependencies.includersOf name).Pairwise (compare · · = .lt) ∧
      ∀ key, key ∈ dependencies.includersOf name ↔
        ∃ uses, dependencies.usesOf? key = some uses ∧ name ∈ uses.includes) ∧
    (∀ name, (dependencies.phraseUsersOf name).Pairwise (compare · · = .lt) ∧
      ∀ key, key ∈ dependencies.phraseUsersOf name ↔
        ∃ uses, dependencies.usesOf? key = some uses ∧ name ∈ uses.phrases) ∧
    (dependencies.includers.NoneEmpty ∧ dependencies.phraseUsers.NoneEmpty) ∧
    ∀ key uses, dependencies.usesOf? key = some uses ↔
      ∃ before since, changes = before ++ .record key uses :: since ∧
        ∀ change ∈ since, ¬ change.Concerns key := by
  intro dependencies
  have kept : dependencies.Kept := kept_changedBy changes
  refine ⟨fun name => ⟨Std.ExtTreeSet.ordered_toList, fun key => ?_⟩,
    fun name => ⟨Std.ExtTreeSet.ordered_toList, fun key => ?_⟩,
    ⟨kept.includers, kept.phraseUsers⟩, usesOf?_changedBy changes⟩
  · rw [includersOf, Std.ExtTreeSet.mem_toList]
    exact kept.consistent.includers_iff key name
  · rw [phraseUsersOf, Std.ExtTreeSet.mem_toList]
    exact kept.consistent.phraseUsers_iff key name

end Dependencies
end TemplateCascade
