import Mathlib
import TemplateCascade.Proofs.Engine.Bookkeeping
import TemplateCascade.Proofs.Engine.Deriving

namespace TemplateCascade

/-!
# Reports account for what has happened

A report lists a key as built, as removed or as failed, and once at most: as built, with the generation
that is held afterwards, if that was not held before; as removed if an artifact is gone that could be built
no more.  This goes for all keys but those that an edit builds twice.  These are listed twice, and the
generation that is listed first is not the one that is held.
-/

namespace CascadeReport

variable {report : CascadeReport} {key : ArtifactKey}

theorem mem_of_generationOf? {generation : Nat} (found : report.generationOf? key = some generation) :
    (key, generation) ∈ report.recompiled := by
  rw [generationOf?, Option.map_eq_some_iff] at found
  rcases found with ⟨⟨other, generation⟩, isFirst, rfl⟩
  have same : other = key := by simpa using List.find?_some isFirst
  exact same ▸ List.mem_of_find?_eq_some isFirst

theorem failures_about_eq_nil_iff :
    (report.about key).failures = [] ↔ ∀ failure ∈ report.failures, failure.key ≠ key := by
  simp [about, List.filter_eq_nil_iff]

end CascadeReport

namespace Engine

open Compile (Registry)

variable {before after : Engine MemoryStore} {key : ArtifactKey} {report said : CascadeReport}
  {outcome : Outcome} {edit : Edit}

/-- A report accounts for what has happened to the artifact of a key. -/
structure Accounts (before after : Engine MemoryStore) (report : CascadeReport) (key : ArtifactKey) :
    Prop where
  once : report.keys.count key ≤ 1
  recompiled_iff : ∀ generation, (key, generation) ∈ report.recompiled ↔
    (after.artifact? key).map Artifact.generation = some generation ∧
      (before.artifact? key).map Artifact.generation ≠ some generation
  generation_eq : ∀ generation, report.generationOf? key = some generation →
    (after.artifact? key).map Artifact.generation = some generation
  removed_iff : key ∈ report.removed ↔ before.artifact? key ≠ none ∧ after.artifact? key = none ∧
    ∀ failure ∈ report.failures, failure.key ≠ key

/-- Only what is said of a key counts. -/
theorem accounts_of_about (isSaid : report.about key = said)
    (once : said.recompiled.length + said.removed.length + said.failures.length ≤ 1)
    (recompiled : ∀ generation, (key, generation) ∈ said.recompiled ↔
      (after.artifact? key).map Artifact.generation = some generation ∧
        (before.artifact? key).map Artifact.generation ≠ some generation)
    (removed : key ∈ said.removed ↔
      before.artifact? key ≠ none ∧ after.artifact? key = none ∧ said.failures = []) :
    Accounts before after report key := by
  subst isSaid
  have recompiledIff := fun generation =>
    (report.mem_recompiled_iff key).trans (recompiled generation)
  refine ⟨?_, recompiledIff, fun generation found => ?_, ?_⟩
  · rwa [CascadeReport.count_keys]
  · exact ((recompiledIff generation).mp (CascadeReport.mem_of_generationOf? found)).1
  · rw [CascadeReport.mem_removed_iff, removed, CascadeReport.failures_about_eq_nil_iff]

/-- A key that was spared is not mentioned, and its artifact is the same. -/
theorem Spared.accounts (spared : Spared before after key (report.about key)) :
    Accounts before after report key := by
  refine accounts_of_about spared.silent (Nat.zero_le 1) (fun generation => ?_) ?_
  · rw [spared.held]
    exact iff_of_false List.not_mem_nil fun both => both.2 both.1
  · rw [spared.held]
    exact iff_of_false List.not_mem_nil fun gone => gone.1 gone.2.1

/-- What has been done with a key once is accounted for. -/
theorem Fate.accounts (fate : Fate before after key outcome (report.about key))
    (dated : before.DatedAt key) : Accounts before after report key := by
  generalize isSaid : report.about key = said at fate
  cases fate with
  | @built code uses generation isNew _ held _ =>
      refine accounts_of_about isSaid (le_refl 1) (fun other => ?_) ?_
      · rw [held, Option.map_some, List.mem_singleton, Prod.mk.injEq, and_iff_right rfl,
          Option.some.injEq, eq_comm, iff_self_and]
        rintro rfl same
        -- What was held has a generation that had been drawn, and this one had not.
        rcases Option.map_eq_some_iff.mp same with ⟨previous, was, rfl⟩
        exact absurd (dated previous was) (not_lt.mpr isNew)
      · rw [held]
        exact iff_of_false List.not_mem_nil fun gone => nomatch gone.2.1
  | @aged diagnostic uses previous direct was held _ =>
      refine accounts_of_about isSaid (le_refl 1) (fun other => ?_) ?_
      · rw [held, was]
        exact iff_of_false List.not_mem_nil fun both => both.2 both.1
      · rw [held]
        exact iff_of_false List.not_mem_nil fun gone => nomatch gone.2.1
  | missed direct held _ =>
      refine accounts_of_about isSaid (le_refl 1) (fun other => ?_) ?_
      · rw [held]
        exact iff_of_false List.not_mem_nil fun both => nomatch both.1
      · exact iff_of_false List.not_mem_nil fun gone => nomatch gone.2.2
  | dropped was held _ =>
      refine accounts_of_about isSaid (le_refl 1) (fun other => ?_) ?_
      · rw [held]
        exact iff_of_false List.not_mem_nil fun both => nomatch both.1
      · exact iff_of_true (List.mem_singleton_self key) ⟨was, held, rfl⟩
  | absent was held _ =>
      refine accounts_of_about isSaid (Nat.zero_le 1) (fun other => ?_) ?_
      · rw [held]
        exact iff_of_false List.not_mem_nil fun both => nomatch both.1
      · exact iff_of_false List.not_mem_nil fun gone => gone.1 was

/-- What there is something to build for is listed once for each time that it is built. -/
theorem Fate.length_eq_one (fate : Fate before after key outcome said) (resolved : outcome ≠ .unresolved) :
    said.recompiled.length + said.removed.length + said.failures.length = 1 := by
  cases fate with
  | built _ _ _ _ => rfl
  | aged _ _ _ _ => rfl
  | missed _ _ _ => rfl
  | dropped _ _ _ => exact absurd rfl resolved
  | absent _ _ _ => exact absurd rfl resolved

theorem Twice.count_eq_two (twice : Twice before after key (report.about key)) :
    report.keys.count key = 2 := by
  rcases twice.fates with ⟨_, first, second, _, _, firstFate, secondFate, isSaid⟩
  have resolved : after.outcome key ≠ .unresolved := fun unresolved =>
    twice.present (outcome_eq_unresolved_iff.mp unresolved)
  have firstOnce := firstFate.length_eq_one resolved
  have secondOnce := secondFate.length_eq_one resolved
  rw [CascadeReport.count_keys, isSaid]
  change (first.recompiled ++ second.recompiled).length + (first.removed ++ second.removed).length +
    (first.failures ++ second.failures).length = 2
  simp only [List.length_append]
  omega

/-- The report of an edit accounts for every key but those that are built twice, and these it lists twice. -/
theorem accounts_iff_not_doubled (reached : Reached before)
    (performed : before.perform edit.command = (.ok report, after)) (key : ArtifactKey) :
    (Accounts before after report key ↔ ¬ Doubled before after edit key) ∧
      (Doubled before after edit key → report.keys.count key = 2) := by
  have orderly := reached.orderly
  have completed := edit_completed orderly.upheld performed
  have twofold : Doubled before after edit key → report.keys.count key = 2 :=
    fun again => (completed.twice key again).count_eq_two
  refine ⟨⟨fun accounts again => ?_, fun once => ?_⟩, twofold⟩
  · have count := accounts.once
    rw [twofold again] at count
    exact absurd count (by decide)
  · cases completed.course key once with
    | spared _ spared => exact spared.accounts
    | visited _ fate => exact fate.accounts (orderly.datedAt key)
    | gone _ left =>
        cases left with
        | inl spared => exact spared.accounts
        | inr fate => exact fate.accounts (orderly.datedAt key)

/-! ## A page that waits for a phrase -/

/-- Two languages, and a page that writes a phrase and calls a function, neither of which there is. -/
def waitingStore : MemoryStore :=
  ((MemoryStore.empty.addPosition .language 1 rootPosition).define .template rootPosition "page"
    "\x7bphrase(greet)\x7d\x7bnope()\x7d").1

theorem constructed_waitingStore : waitingStore.Constructed :=
  .define .template rootPosition "page" _ (.putTreeNode .language ⟨1, some rootPosition, []⟩ .empty)

def openedWaiting : Engine MemoryStore :=
  (openedOver {} waitingStore).get (by decide +kernel)

/-- The page fails, its language goes, and the phrase comes, with a page that can be built. -/
def greetedPage : Engine MemoryStore :=
  (openedWaiting.afterwards rebuildAll).afterEdits
    [.removePosition .language 1, .savePhrase rootPosition "greet" "Hi",
      .saveTemplate rootPosition "page" "Hello"]

theorem Reached.afterEdits (reached : Reached before) (edits : List Edit) :
    Reached (before.afterEdits edits) := by
  induction edits generalizing before with
  | nil => exact reached
  | cons edit rest inductionHypothesis => exact inductionHypothesis (reached.afterEdit edit)

theorem reached_greetedPage : Reached greetedPage := by
  have isOpened : ofStore {} Registry.builtIn waitingStore = .ok openedWaiting :=
    ofStore_of_openedOver (Option.some_get _).symm
  exact (Reached.opened constructed_waitingStore isOpened).afterRebuild.afterEdits _

def regrowLanguage : Edit :=
  .addPosition .language 1 rootPosition

/-- The page at the root is no part of what comes back, and is accounted for. -/
theorem accounts_rootPage : ∃ report after,
    greetedPage.perform regrowLanguage.command = (.ok report, after) ∧
      Accounts greetedPage after report (.template rootPosition rootPosition "page") := by
  have adds : (greetedPage.perform regrowLanguage.command).1.isOk = true := by decide +kernel
  rcases exists_perform_ok greetedPage adds with ⟨report, performed⟩
  refine ⟨report, _, performed, (accounts_iff_not_doubled reached_greetedPage performed _).1.mpr ?_⟩
  exact fun doubled => absurd doubled.1 (by decide)

/-- The page at the language that comes back is built by the cascade and once more behind it, so that the
generation that is reported for it is not the one that is held. -/
theorem doubled_page : ∃ (before after : Engine MemoryStore) (edit : Edit) (report : CascadeReport)
    (key : ArtifactKey), Reached before ∧ before.perform edit.command = (.ok report, after) ∧
      report.keys.count key = 2 ∧
      report.generationOf? key ≠ (after.artifact? key).map Artifact.generation ∧
      ¬ Accounts before after report key := by
  let key : ArtifactKey := .template rootPosition 1 "page"
  have adds : (greetedPage.perform regrowLanguage.command).1.isOk = true := by decide +kernel
  have listed : ∀ report ∈ (greetedPage.perform regrowLanguage.command).1.toOption,
      report.keys.count key = 2 ∧ report.generationOf? key ≠
        ((greetedPage.afterwards regrowLanguage.command).artifact? key).map Artifact.generation := by
    decide +kernel
  rcases exists_perform_ok greetedPage adds with ⟨report, performed⟩
  rw [performed] at listed
  rcases listed report rfl with ⟨count, superseded⟩
  refine ⟨greetedPage, _, regrowLanguage, report, key, reached_greetedPage, performed, count, superseded,
    fun accounts => ?_⟩
  have once := accounts.once
  rw [count] at once
  exact absurd once (by decide)

end Engine
end TemplateCascade
