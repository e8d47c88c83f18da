import Mathlib
import TemplateCascade.Proofs.Engine.Agreement
import TemplateCascade.Proofs.Engine.Bookkeeping

namespace TemplateCascade

/-!
# Cascades are exact

Among the artifacts that are held and still called for, an edit revisits exactly those that were built from
something that is different now: what their own name resolves to, a template that they include at their
style, or a phrase that is written into them at their language.  Different means that the name resolves to
another definition, or to the same one with another content.  All others stay as they are.
-/

namespace CascadeReport

variable (report first second : CascadeReport) (key : ArtifactKey)

/-- The keys that a report lists as built or as failed. -/
def visited : List ArtifactKey :=
  report.recompiled.map Prod.fst ++ report.failures.map CascadeFailure.key

theorem mem_visited_about : key ∈ (report.about key).visited ↔ key ∈ report.visited := by
  simp [visited, about]

@[simp]
theorem not_mem_visited_empty : key ∉ CascadeReport.empty.visited :=
  List.not_mem_nil

theorem mem_visited_append :
    key ∈ (first ++ second).visited ↔ key ∈ first.visited ∨ key ∈ second.visited := by
  change key ∈ (append first second).visited ↔ _
  simp only [visited, append, List.map_append, List.mem_append]
  tauto

end CascadeReport

namespace Engine

open Compile (Uses)

variable {before after : Engine MemoryStore} {key : ArtifactKey} {report : CascadeReport}
  {outcome : Outcome} {artifact : Artifact} {edit : Edit}

/-- What is built or has failed is visited. -/
theorem Fate.mem_visited (fate : Fate before after key outcome report) (resolved : outcome ≠ .unresolved) :
    key ∈ report.visited := by
  cases fate with
  | built _ _ _ _ => exact List.mem_singleton_self key
  | aged _ _ _ _ => exact List.mem_singleton_self key
  | missed _ _ _ => exact List.mem_singleton_self key
  | dropped _ _ _ => exact absurd rfl resolved
  | absent _ _ _ => exact absurd rfl resolved

/-- Something else is in effect for a key: for its own name at its own position, for a template that it
includes at its style, or for a phrase that is written into it at its language. -/
def Altered (before after : Engine MemoryStore) (key : ArtifactKey) (uses : Uses) : Prop :=
  own? after.store after.scheme key ≠ own? before.store before.scheme key ∨
    (∃ name ∈ uses.includes, ∃ style, key.style? = some style ∧
      effective? after.store after.scheme .template name style ≠
        effective? before.store before.scheme .template name style) ∨
    ∃ name ∈ uses.phrases, effective? after.store after.scheme .phrase name key.language ≠
      effective? before.store before.scheme .phrase name key.language

theorem not_undisturbed_iff_altered :
    ¬ Undisturbed before after key ↔ Altered before after key (before.usesOf key) := by
  constructor
  · intro disturbed
    by_contra unaltered
    simp only [Altered, not_or, not_exists, not_and, not_not] at unaltered
    exact disturbed ⟨unaltered.1, unaltered.2.1, unaltered.2.2⟩
  · rintro (own | ⟨name, member, style, isStyle, different⟩ | ⟨name, member, different⟩) alike
    · exact own alike.own_eq
    · exact different (alike.includes_eq name member style isStyle)
    · exact different (alike.phrases_eq name member)

/-- An edit revisits the artifacts that were built from something different, and keeps all others as they
are. -/
theorem mem_visited_iff_altered (reached : Reached before)
    (performed : before.perform edit.command = (.ok report, after))
    (held : before.artifact? key = some artifact) (wanted : key ∈ after.scheme.allKeys) :
    (key ∈ report.visited ↔ Altered before after key artifact.uses) ∧
      (key ∉ report.visited → after.artifact? key = some artifact ∧
        after.dependencies.usesOf? key = some artifact.uses) := by
  have orderly := reached.orderly
  have completed := edit_completed orderly.upheld performed
  have recorded := orderly.recordedAt key artifact held
  have present := (InheritanceScheme.mem_allKeys_iff after.store).mp wanted
  have resolved : after.outcome key ≠ .unresolved := fun unresolved =>
    present (outcome_eq_unresolved_iff.mp unresolved)
  have uses : before.usesOf key = artifact.uses := by
    rw [usesOf, slot, recorded, Option.getD_some]
  have altered := @not_undisturbed_iff_altered before after key
  rw [uses] at altered
  rw [← altered, ← CascadeReport.mem_visited_about]
  by_cases again : Doubled before after edit key
  · -- A key that is built twice is listed all the same, and had nothing in effect before.
    have twice := completed.twice key again
    rcases twice.fates with ⟨_, first, second, _, _, fate, _, isReport⟩
    have visited : key ∈ (report.about key).visited := by
      rw [isReport, CascadeReport.mem_visited_append]
      exact .inl (fate.mem_visited resolved)
    exact ⟨iff_of_true visited twice.disturbed, fun spared => absurd visited spared⟩
  · cases completed.course key again with
    | spared undisturbed spared =>
        rw [spared.silent]
        refine ⟨iff_of_false (CascadeReport.not_mem_visited_empty key) (not_not_intro undisturbed),
          fun _ => ⟨spared.held.trans held, spared.recorded.trans recorded⟩⟩
    | visited disturbed fate =>
        have visited := fate.mem_visited resolved
        exact ⟨iff_of_true visited disturbed, fun spared => absurd visited spared⟩
    | gone unresolved _ => exact absurd unresolved present

/-! ## A page whose header is another one -/

theorem reached_headedPage : Reached headedPage :=
  (Reached.opened constructed_pageStore ofStore_pageStore).afterRebuild.afterEdit saveHeader

def changeHeader : Edit :=
  .saveTemplate rootPosition "header" "bottom "

/-- The page includes the header, so it is built again. -/
theorem altered_headedPage : ∃ report after artifact,
    headedPage.perform changeHeader.command = (.ok report, after) ∧
      headedPage.artifact? pageKey = some artifact ∧ pageKey ∈ after.scheme.allKeys ∧
      pageKey ∈ report.visited ∧ Altered headedPage after pageKey artifact.uses := by
  have saves : (headedPage.perform changeHeader.command).1.isOk = true := by decide +kernel
  have isHeld : (headedPage.artifact? pageKey).isSome = true := by decide +kernel
  have wanted : pageKey ∈ (headedPage.afterwards changeHeader.command).scheme.allKeys := by
    decide +kernel
  have listed : ∀ report ∈ (headedPage.perform changeHeader.command).1.toOption,
      pageKey ∈ report.visited := by decide +kernel
  rcases exists_perform_ok headedPage saves with ⟨report, performed⟩
  rcases Option.isSome_iff_exists.mp isHeld with ⟨artifact, held⟩
  rw [performed] at listed
  have visited := listed report rfl
  exact ⟨report, _, artifact, performed, held, wanted, visited,
    (mem_visited_iff_altered reached_headedPage performed held wanted).1.mp visited⟩

end Engine
end TemplateCascade
