import Mathlib
import TemplateCascade.Proofs.Engine.Lockstep

namespace TemplateCascade

/-!
# The order of reports

Targets are kept in the order of their keys, and what is built of them is reported in this order.  A call that
builds once therefore reports its artifacts sorted by key, whatever it has dropped before.

A new language is built for twice: first comes what the cascade of the phrases calls for, and behind it the
templates that the language calls for.  The second list is put behind the first one, so the report is out of
order as soon as a template of the second list belongs in front of something in the first one, and templates
belong in front of all phrases.
-/

/-- Whether a build has given something to put to use. -/
def Outcome.isBuilt : Outcome → Bool
  | .built _ _ => true
  | .failed _ _ | .unresolved => false

/-! ## Sorted reports -/

namespace CascadeReport

variable {report first second : CascadeReport}

/-- The keys of what was recompiled, in the order of the report. -/
def recompiledKeys (report : CascadeReport) : List ArtifactKey :=
  report.recompiled.map Prod.fst

/-- What was recompiled is sorted by key. -/
def IsSorted (report : CascadeReport) : Prop :=
  report.recompiled.Pairwise fun earlier later => compare earlier.1 later.1 ≠ .gt

instance (report : CascadeReport) : Decidable report.IsSorted :=
  inferInstanceAs (Decidable (List.Pairwise _ _))

theorem recompiledKeys_append :
    (first ++ second).recompiledKeys = first.recompiledKeys ++ second.recompiledKeys :=
  List.map_append

theorem isSorted_iff : report.IsSorted ↔
    report.recompiledKeys.Pairwise fun earlier later => compare earlier later ≠ .gt := by
  rw [recompiledKeys, List.pairwise_map]
  rfl

/-- Every key comes before all that are listed behind it. -/
def Ascends (report : CascadeReport) : Prop :=
  report.recompiledKeys.Pairwise fun earlier later => compare earlier later = .lt

theorem Ascends.isSorted (ascends : report.Ascends) : report.IsSorted :=
  isSorted_iff.mpr (ascends.imp fun before => by rw [before]; decide)

theorem Ascends.append_of_nil (ascends : second.Ascends) (nothing : first.recompiledKeys = []) :
    (first ++ second).Ascends := by
  rwa [Ascends, recompiledKeys_append, nothing, List.nil_append]

/-- Of two lists that ascend, the second one may follow the first if none of its keys belongs in front of a
key of the first. -/
theorem isSorted_append_iff (firstAscends : first.Ascends) (secondAscends : second.Ascends) :
    (first ++ second).IsSorted ↔ ∀ earlier ∈ first.recompiledKeys, ∀ later ∈ second.recompiledKeys,
      compare later earlier ≠ .lt := by
  rw [isSorted_iff, recompiledKeys_append, List.pairwise_append, ← isSorted_iff, ← isSorted_iff,
    and_iff_right firstAscends.isSorted, and_iff_right secondAscends.isSorted]
  simp only [ne_eq, Std.OrientedCmp.gt_iff_lt]

end CascadeReport

theorem Targets.pairwise_filter (targets : Targets) (keeps : ArtifactKey → Bool) :
    (targets.keys.filter keeps).Pairwise fun earlier later => compare earlier later = .lt :=
  Std.ExtTreeMap.ordered_keys.sublist List.filter_sublist

namespace Engine

variable {engine before between after : Engine MemoryStore} {key : ArtifactKey} {direct : Bool}
  {outcome : Outcome} {report first : CascadeReport} {targets : Targets} {Result Other : Type}

/-! ## What is reported of targets -/

/-- Whether an artifact can be built for a key. -/
def builds (engine : Engine MemoryStore) (key : ArtifactKey) : Bool :=
  (engine.inputs.build key).isBuilt

theorem recompiledKeys_of_drop (performed : engine.perform (drop key) = (.ok report, after)) :
    report.recompiledKeys = [] ∧ after.memo = engine.memo := by
  rcases perform_drop engine key with ⟨_, isPerformed, _, replaced⟩
  cases isPerformed.symm.trans performed
  refine ⟨?_, replaced.memo_eq⟩
  cases engine.cache.get? key <;> rfl

/-- An artifact is reported as recompiled if it has been built. -/
theorem recompiledKeys_of_applyOutcome
    (performed : engine.perform (applyOutcome key direct outcome) = (.ok report, after)) :
    report.recompiledKeys = (if outcome.isBuilt then [key] else []) ∧ after.memo = engine.memo := by
  cases outcome with
  | built code uses =>
      rcases perform_install engine key code uses with ⟨_, isPerformed, _, replaced⟩
      cases isPerformed.symm.trans performed
      exact ⟨rfl, replaced.memo_eq⟩
  | unresolved => exact recompiledKeys_of_drop performed
  | failed diagnostic uses =>
      simp only [applyOutcome, perform_bind, perform_get] at performed
      cases policy : engine.config.failurePolicy with
      | keepLastGood =>
          rcases perform_keep engine key diagnostic uses with ⟨_, isPerformed, _, replaced⟩
          simp only [policy, perform_bind, isPerformed, perform_pure] at performed
          cases performed
          exact ⟨rfl, replaced.memo_eq⟩
      | invalidate =>
          rcases perform_invalidate engine key uses with ⟨_, isPerformed, _, replaced⟩
          simp only [policy, perform_bind, isPerformed, perform_pure] at performed
          cases performed
          exact ⟨rfl, replaced.memo_eq⟩

theorem recompiledKeys_of_applyEach (outcomes : List (ArtifactKey × Bool × Outcome))
    (performed : engine.perform (reportEach (fun (key, direct, outcome) =>
      applyOutcome key direct outcome) outcomes) = (.ok report, after)) :
    report.recompiledKeys = (outcomes.filter fun item => item.2.2.isBuilt).map Prod.fst ∧
      after.memo = engine.memo := by
  induction outcomes generalizing engine report with
  | nil =>
      cases performed
      exact ⟨rfl, rfl⟩
  | cons item rest inductionHypothesis =>
      rcases exists_of_perform_bind engine performed with ⟨first, between, applied, performed⟩
      rcases exists_of_perform_bind between performed with ⟨others, last, restApplied, performed⟩
      cases performed
      rcases recompiledKeys_of_applyOutcome applied with ⟨keys, memo⟩
      rcases inductionHypothesis restApplied with ⟨restKeys, restMemo⟩
      refine ⟨?_, restMemo.trans memo⟩
      rw [CascadeReport.recompiledKeys_append, keys, restKeys, List.filter_cons]
      split <;> rfl

/-- Those targets are reported as recompiled that can be built, in the order of their keys.  Afterwards names
resolve as before, and the same can be built. -/
theorem recompiledKeys_of_buildTargets
    (performed : engine.perform (buildTargets targets) = (.ok report, after)) :
    report.recompiledKeys = targets.keys.filter engine.builds ∧ after.scheme = engine.scheme ∧
      after.builds = engine.builds := by
  rcases engine.inputs.buildAll_eq_map_build targets.toList with ⟨isOutcomes, reads⟩
  rcases perform_buildTargets engine targets with ⟨_, _, again, settling⟩
  cases performed.symm.trans again
  rcases built : engine.inputs.buildAll targets.toList with ⟨outcomes, memo⟩
  rw [built] at isOutcomes reads
  dsimp only at isOutcomes
  simp only [buildTargets, perform_bind, perform_get, built, perform_modify] at performed
  rcases recompiledKeys_of_applyEach outcomes performed with ⟨keys, sameMemo⟩
  refine ⟨?_, settling.scheme_eq, funext fun key => congrArg Outcome.isBuilt ?_⟩
  · rw [keys, isOutcomes, List.filter_map, List.map_map, ← Std.ExtTreeMap.map_fst_toList_eq_keys,
      List.filter_map]
    rfl
  · refine BuildInputs.build_eq_of_readsAs (BuildInputs.load_of_definitions settling.definitions_eq)
      settling.scheme_eq settling.registry_eq ?_ key
    change Markup.ParseMemo.ReadsAs engine.store engine.memo after.memo
    rw [sameMemo]
    exact reads

/-! ## Calls that build once -/

/-- Whatever a command gives when it succeeds has a property. -/
def Yields (property : Result → Prop) (command : EngineM MemoryStore Result) : Prop :=
  ∀ (engine : Engine MemoryStore) (result : Result) (after : Engine MemoryStore),
    engine.perform command = (.ok result, after) → property result

namespace Yields

variable {property : Result → Prop} {other : Other → Prop} {command : EngineM MemoryStore Result}
  {next : Result → EngineM MemoryStore Other}

theorem bind (first : Yields property command)
    (others : ∀ result, property result → Yields other (next result)) : Yields other (command >>= next) := by
  intro engine result after performed
  rcases exists_of_perform_bind engine performed with ⟨given, between, commanded, performed⟩
  exact others given (first engine given between commanded) between result after performed

/-- What the first command gives may not matter. -/
theorem behind (others : ∀ result, Yields other (next result)) : Yields other (command >>= next) :=
  bind (fun _ _ _ _ => trivial) fun result (_ : True) => others result

theorem pure {result : Result} (holds : property result) :
    Yields property (Pure.pure result : EngineM MemoryStore Result) := by
  intro engine given after performed
  cases performed
  exact holds

theorem throw (error : EngineError) :
    Yields property (MonadExcept.throw error : EngineM MemoryStore Result) := by
  intro engine given after performed
  cases performed

theorem buildTargets (targets : Targets) :
    Yields CascadeReport.Ascends (Engine.buildTargets targets) := by
  intro engine report after performed
  rw [CascadeReport.Ascends, (recompiledKeys_of_buildTargets performed).1]
  exact targets.pairwise_filter _

theorem dropAll (keys : List ArtifactKey) :
    Yields (fun report => report.recompiledKeys = []) (reportEach (drop (σ := MemoryStore)) keys) := by
  induction keys with
  | nil => exact pure rfl
  | cons key rest inductionHypothesis =>
      refine bind (fun _ _ _ performed => (recompiledKeys_of_drop performed).1) fun first nothing => ?_
      refine bind inductionHypothesis fun others nothingElse => pure ?_
      rw [CascadeReport.recompiledKeys_append, nothing, nothingElse, List.append_nil]

theorem cascade (kind : DefinitionKind) (names : Std.ExtTreeSet String) (edited : Option DefinitionId)
    (mutate : InheritanceScheme → Except TreeError InheritanceScheme) :
    Yields CascadeReport.Ascends (Engine.cascade kind names edited mutate) :=
  behind fun _ => behind fun _ => behind fun _ => behind fun _ => behind fun _ => buildTargets _

theorem rebuildAll : Yields CascadeReport.Ascends Engine.rebuildAll := by
  refine behind fun engine => ?_
  split
  · exact throw _
  · refine behind fun _ => behind fun _ => bind (dropAll _) fun dropped nothing => ?_
    exact bind (buildTargets _) fun report ascends => pure (ascends.append_of_nil nothing)

theorem definitionChanged (kind : DefinitionKind) (name : String) (position : Position) :
    Yields CascadeReport.Ascends (Engine.definitionChanged kind name position) := by
  refine behind fun edited => ?_
  cases edited with
  | none => exact cascade _ _ _ _
  | some id => exact behind fun _ => cascade _ _ _ _

theorem positionMoved (tree : TreeKind) (id parent : Position) :
    Yields CascadeReport.Ascends (Engine.positionMoved tree id parent) :=
  behind fun _ => behind fun _ => behind fun _ => behind fun _ => cascade _ _ _ _

theorem styleAdded (id parent : Position) :
    Yields CascadeReport.Ascends (Engine.positionAdded .style id parent) := by
  refine behind fun _ => behind fun _ => bind (cascade _ _ _ _) fun report ascends => ?_
  exact pure ascends

theorem positionRemoved (tree : TreeKind) (id : Position) :
    Yields CascadeReport.Ascends (Engine.positionRemoved tree id) := by
  refine behind fun _ => bind (dropAll _) fun dropped nothing => ?_
  exact bind (cascade _ _ _ _) fun report ascends => pure (ascends.append_of_nil nothing)

theorem define (kind : DefinitionKind) (position : Position) (name content : String) :
    Yields CascadeReport.Ascends (Engine.define kind position name content) :=
  behind fun _ => definitionChanged _ _ _

theorem saveTemplate (style : Position) (name source : String) :
    Yields CascadeReport.Ascends (Engine.saveTemplate style name source) := by
  refine behind fun unchanged => ?_
  split
  · exact pure List.Pairwise.nil
  · exact behind fun _ => define _ _ _ _

theorem savePhrase (language : Position) (name text : String) :
    Yields CascadeReport.Ascends (Engine.savePhrase language name text) := by
  refine behind fun unchanged => ?_
  split
  · exact pure List.Pairwise.nil
  · exact define _ _ _ _

theorem deleteDefinition (kind : DefinitionKind) (name : String) (position : Position) :
    Yields CascadeReport.Ascends (Engine.deleteDefinition kind name position) := by
  refine behind fun owned => ?_
  cases owned with
  | none => exact throw _
  | some id => exact behind fun _ => cascade _ _ _ _

theorem addStyle (id parent : Position) :
    Yields CascadeReport.Ascends (Engine.addPosition .style id parent) :=
  fun engine report after succeeded =>
    styleAdded id parent _ report after (positionAdded_of_addPosition engine succeeded)

theorem movePosition (tree : TreeKind) (id parent : Position) :
    Yields CascadeReport.Ascends (Engine.movePosition tree id parent) :=
  bind (positionMoved _ _ _) fun _ ascends => behind fun _ => pure ascends

theorem removePosition (tree : TreeKind) (id : Position) :
    Yields CascadeReport.Ascends (Engine.removePosition tree id) := by
  refine behind fun _ => behind fun _ => behind fun owned => behind fun _ => ?_
  refine bind (positionRemoved _ _) fun report ascends => ?_
  exact behind fun _ => behind fun _ => pure ascends

end Yields

/-- The language that a call adds. -/
def Call.newLanguage? : Call → Option Position
  | .positionAdded .language id _ | .edit (.addPosition .language id _) => some id
  | _ => none

/-- A call that adds no language reports its artifacts in the order of their keys, and none twice. -/
theorem Call.yields_ascends {call : Call} (noLanguage : call.newLanguage? = none) :
    Yields CascadeReport.Ascends call.command := by
  cases call with
  | rebuildAll => exact .rebuildAll
  | definitionChanged kind name position => exact .definitionChanged kind name position
  | definitionDeleted kind name => exact .cascade _ _ _ _
  | positionMoved tree id parent => exact .positionMoved tree id parent
  | positionAdded tree id parent =>
      cases tree with
      | style => exact .styleAdded id parent
      | language => cases noLanguage
  | positionRemoved tree id => exact .positionRemoved tree id
  | edit change =>
      cases change with
      | saveTemplate style name source => exact .saveTemplate style name source
      | savePhrase language name text => exact .savePhrase language name text
      | deleteDefinition kind name position => exact .deleteDefinition kind name position
      | addPosition tree id parent =>
          cases tree with
          | style => exact .addStyle id parent
          | language => cases noLanguage
      | movePosition tree id parent => exact .movePosition tree id parent
      | removePosition tree id => exact .removePosition tree id

/-! ## A new language -/

/-- A phrase that is the key's own, or that is on record for the key, resolves differently than before. -/
def Touched (before after : Engine MemoryStore) (key : ArtifactKey) : Prop :=
  ∃ name, (key.kind = .phrase ∧ key.name = name ∨ name ∈ (before.usesOf key).phrases) ∧
    after.resolve? .phrase name key.language ≠ before.resolve? .phrase name key.language

/-- The keys that concern a cascade of phrases are those that it touches. -/
theorem concerned_iff_touched {names : List String} {mutated : InheritanceScheme}
    (reworked : Reworked before.store .phrase names mutated after.scheme)
    (sameMap : mutated.map .phrase = before.scheme.map .phrase) :
    OwnConcerned mutated after.scheme .phrase none names key ∨
        UseConcerned mutated after.scheme .phrase none names key (before.usesOf key) ↔
      Touched before after key := by
  have affected : ∀ name position,
      name ∈ names ∧ IsAffected mutated after.scheme .phrase none name position ↔
        after.resolve? .phrase name position ≠ before.resolve? .phrase name position := by
    intro name position
    have isAffected : IsAffected mutated after.scheme .phrase none name position ↔
        after.resolve? .phrase name position ≠ before.resolve? .phrase name position := by
      simp [IsAffected, sameMap, resolve?, eq_comm]
    rw [isAffected, and_iff_right_of_imp]
    intro different
    have moved : (after.scheme.map .phrase).resolve? name position ≠
        (mutated.map .phrase).resolve? name position := by rwa [sameMap]
    exact reworked.mem_of_resolve?_ne moved
  have own : OwnConcerned mutated after.scheme .phrase none names key ↔ key.kind = .phrase ∧
      after.resolve? .phrase key.name key.language ≠ before.resolve? .phrase key.name key.language := by
    cases key with
    | template style language name =>
        refine iff_of_false (not_ownConcerned_of_template rfl) ?_
        rintro ⟨isPhrase, _⟩
        cases isPhrase
    | phrase language name =>
        rw [← affected]
        constructor
        · rintro ⟨isPhrase, selected, isAffected, _⟩
          exact ⟨isPhrase, selected, isAffected⟩
        · rintro ⟨isPhrase, selected, isAffected⟩
          exact ⟨isPhrase, selected, isAffected, fun isTemplate => absurd isTemplate (by decide)⟩
  have used : UseConcerned mutated after.scheme .phrase none names key (before.usesOf key) ↔
      ∃ name ∈ (before.usesOf key).phrases,
        after.resolve? .phrase name key.language ≠ before.resolve? .phrase name key.language := by
    simp only [← affected, UseConcerned]
    exact exists_congr fun name => and_left_comm
  rw [own, used, Touched]
  constructor
  · rintro (⟨isPhrase, different⟩ | ⟨name, isUsed, different⟩)
    · exact ⟨key.name, Or.inl ⟨isPhrase, rfl⟩, different⟩
    · exact ⟨name, Or.inr isUsed, different⟩
  · rintro ⟨name, ⟨isPhrase, rfl⟩ | isUsed, different⟩
    · exact Or.inl ⟨isPhrase, different⟩
    · exact Or.inr ⟨name, isUsed, different⟩

/-- The two parts of what is reported of a new language: what the cascade has built, and behind it the
templates for the language. -/
structure TwoParts (before after : Engine MemoryStore) (id : Position) (cascaded behind : CascadeReport) :
    Prop where
  cascadedAscends : cascaded.Ascends
  behindAscends : behind.Ascends
  mem_cascaded : ∀ key, key ∈ cascaded.recompiledKeys ↔ Touched before after key ∧ after.builds key = true
  mem_behind : ∀ key, key ∈ behind.recompiledKeys ↔
    key ∈ addedKeys after.scheme .language id ∧ after.builds key = true

/-- The cascade and what is built behind it are two passes over targets, each in the order of its keys. -/
theorem twoParts_of_languageAdded {id parent : Position} (consistent : engine.dependencies.Consistent)
    (performed : engine.perform (positionAdded .language id parent) = (.ok report, after)) :
    ∃ cascaded behind, report = cascaded ++ behind ∧ TwoParts engine after id cascaded behind := by
  rcases perform_namesDefinedAt engine TreeKind.language.defines [id] with ⟨own, asked, _⟩
  rw [perform_positionAdded engine asked] at performed
  rcases exists_of_perform_bind engine performed with ⟨cascaded, between, carried, performed⟩
  cases mutates : changeTree .language (fun positions => positions.insert id parent) engine.scheme with
  | error error =>
      rw [perform_cascade_error engine _ mutates] at carried
      cases carried
  | ok mutated =>
      rcases exists_of_map_eq_ok mutates with ⟨grown, _, rfl⟩
      rcases perform_cascade engine _ mutates with ⟨scheme, affected, reworked, reported, same⟩
      rw [same] at carried
      rcases exists_of_perform_bind between performed with ⟨_, _, got, performed⟩
      cases got
      rcases exists_of_perform_bind between performed with ⟨behind, _, built, performed⟩
      cases performed
      rcases recompiledKeys_of_buildTargets carried with ⟨cascadedKeys, betweenScheme, betweenBuilds⟩
      rcases recompiledKeys_of_buildTargets built with ⟨behindKeys, afterScheme, afterBuilds⟩
      rcases afterScheme.trans betweenScheme with rfl
      refine ⟨cascaded, behind, rfl, Yields.buildTargets _ _ _ _ carried, Yields.buildTargets _ _ _ _ built,
        fun key => ?_, fun key => ?_⟩
      · have sameMap := InheritanceScheme.map_withTree engine.scheme .language .phrase grown
        rw [cascadedKeys, List.mem_filter, Std.ExtTreeMap.mem_keys,
          mem_plan_iff_concerned reported consistent, afterBuilds, betweenBuilds]
        exact and_congr_left' (concerned_iff_touched reworked sameMap)
      · rw [behindKeys, List.mem_filter, Std.ExtTreeMap.mem_keys, Targets.mem_direct, afterScheme,
          afterBuilds]

theorem Call.twoParts {call : Call} {id : Position} (consistent : engine.dependencies.Consistent)
    (isNew : call.newLanguage? = some id) (performed : engine.perform call.command = (.ok report, after)) :
    ∃ cascaded behind, report = cascaded ++ behind ∧ TwoParts engine after id cascaded behind := by
  have ofHook : ∀ {parent : Position},
      engine.perform (Engine.positionAdded .language id parent) = (.ok report, after) →
      ∃ cascaded behind, report = cascaded ++ behind ∧ TwoParts engine after id cascaded behind :=
    twoParts_of_languageAdded consistent
  have ofEdit : ∀ {parent : Position},
      engine.perform (Engine.addPosition .language id parent) = (.ok report, after) →
      ∃ cascaded behind, report = cascaded ++ behind ∧ TwoParts engine after id cascaded behind := by
    intro parent succeeded
    have stillConsistent : (engine.planted .language id parent).dependencies.Consistent := consistent
    rcases twoParts_of_languageAdded stillConsistent (positionAdded_of_addPosition engine succeeded) with
      ⟨cascaded, behind, isReport, parts⟩
    -- The node that is stored first changes neither how names resolve nor what is on record.
    exact ⟨cascaded, behind, isReport, parts.cascadedAscends, parts.behindAscends, parts.mem_cascaded,
      parts.mem_behind⟩
  cases call with
  | positionAdded tree added parent =>
      cases tree with
      | style => cases isNew
      | language => cases isNew; exact ofHook performed
  | edit change =>
      cases change with
      | addPosition tree added parent =>
          cases tree with
          | style => cases isNew
          | language => cases isNew; exact ofEdit performed
      | _ => cases isNew
  | _ => cases isNew

/-- A language has been added, and a template that is built for it behind the cascade belongs in front of
something that the cascade has built. -/
def Overtaken (before after : Engine MemoryStore) (call : Call) : Prop :=
  ∃ id earlier later, call.newLanguage? = some id ∧ Touched before after earlier ∧
    after.builds earlier = true ∧ later ∈ addedKeys after.scheme .language id ∧ after.builds later = true ∧
    compare later earlier = .lt

/-- What a call reports as recompiled is sorted by key, except when a template has been overtaken. -/
theorem isSorted_iff_not_overtaken {call : Call} (told : Told engine)
    (performed : engine.perform call.command = (.ok report, after)) :
    report.IsSorted ↔ ¬ Overtaken engine after call := by
  cases isNew : call.newLanguage? with
  | none =>
      refine iff_of_true (Call.yields_ascends isNew _ _ _ performed).isSorted ?_
      rintro ⟨id, _, _, isLanguage, _⟩
      exact nomatch isNew.symm.trans isLanguage
  | some id =>
      rcases call.twoParts told.aligned.backed.consistent isNew performed with ⟨cascaded, behind, rfl, parts⟩
      rw [CascadeReport.isSorted_append_iff parts.cascadedAscends parts.behindAscends]
      simp only [parts.mem_cascaded, parts.mem_behind]
      constructor
      · rintro apart ⟨_, earlier, later, isLanguage, touched, built, added, laterBuilt, before⟩
        cases isNew.symm.trans isLanguage
        exact apart earlier ⟨touched, built⟩ later ⟨added, laterBuilt⟩ before
      · rintro notOvertaken earlier ⟨touched, built⟩ later ⟨added, laterBuilt⟩ before
        exact notOvertaken ⟨id, earlier, later, isNew, touched, built, added, laterBuilt, before⟩

/-! ## Two sites that get a language -/

def addLanguage : Call :=
  .edit (.addPosition .language 1 rootPosition)

/-- Where there is no phrase, the page and its header are built for the new language in order. -/
theorem isSorted_headedPage : Told headedPage ∧ ∃ report after,
    headedPage.perform addLanguage.command = (.ok report, after) ∧
      report.recompiledKeys = [.template rootPosition 1 "header", .template rootPosition 1 "page"] ∧
      report.IsSorted ∧ ¬ Overtaken headedPage after addLanguage := by
  have opened : Told openedPage := .opened constructed_pageStore ofStore_pageStore
  have headed : Told headedPage := (opened.afterCall .rebuildAll).afterCall (.edit saveHeader)
  have adds : (headedPage.perform addLanguage.command).1.isOk = true := by decide +kernel
  have listed : ∀ report ∈ (headedPage.perform addLanguage.command).1.toOption,
      report.recompiledKeys = [.template rootPosition 1 "header", .template rootPosition 1 "page"] ∧
        report.IsSorted := by decide +kernel
  rcases exists_perform_ok headedPage adds with ⟨report, performed⟩
  rw [performed] at listed
  rcases listed report rfl with ⟨keys, isSorted⟩
  exact ⟨headed, report, _, performed, keys, isSorted,
    (isSorted_iff_not_overtaken headed performed).mp isSorted⟩

/-- A page, and a phrase that it does not use. -/
def siteStore : MemoryStore :=
  ((MemoryStore.empty.define .template rootPosition "page" "Hello").1.define .phrase rootPosition
    "greet" "Hi").1

theorem constructed_siteStore : siteStore.Constructed :=
  .define .phrase rootPosition "greet" _ (.define .template rootPosition "page" _ .empty)

def openedSite : Engine MemoryStore :=
  (openedOver {} siteStore).get (by decide +kernel)

/-- The page for the new language is reported behind the phrase, and belongs in front of it. -/
theorem unsorted_site : ∃ (engine after : Engine MemoryStore) (call : Call) (report : CascadeReport),
    Told engine ∧ engine.perform call.command = (.ok report, after) ∧
      report.recompiledKeys = [.phrase 1 "greet", .template rootPosition 1 "page"] ∧
      ¬ report.IsSorted := by
  have told : Told openedSite :=
    .opened constructed_siteStore (ofStore_of_openedOver (Option.some_get _).symm)
  have adds : (openedSite.perform addLanguage.command).1.isOk = true := by decide +kernel
  have listed : ∀ report ∈ (openedSite.perform addLanguage.command).1.toOption,
      report.recompiledKeys = [.phrase 1 "greet", .template rootPosition 1 "page"] ∧
        ¬ report.IsSorted := by decide +kernel
  rcases exists_perform_ok openedSite adds with ⟨report, performed⟩
  rw [performed] at listed
  exact ⟨openedSite, _, addLanguage, report, told, performed, listed report rfl⟩

end Engine
end TemplateCascade
