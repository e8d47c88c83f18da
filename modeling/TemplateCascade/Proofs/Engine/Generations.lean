import Mathlib
import TemplateCascade.Proofs.Engine.Bookkeeping
import TemplateCascade.Proofs.Engine.Observing

namespace TemplateCascade

/-!
# Generations along the history of a store

Every installation draws the next number of the engine's sequence, and reports list the numbers in the order
in which they are drawn.  An engine that is opened over a store goes on behind the highest number that is
still stored.  If the artifact with the highest number has been dropped by then, its number is drawn again.

So the numbers of a history are runs, one for every time that the store has been opened.  They increase
exactly if every run that is not empty starts behind all numbers before it, and if they do, a number tells the
builds of a key apart.
-/

open Compile (Diagnostic Registry Uses)

/-- The numbers that installations have drawn, in this order. -/
def CascadeReport.generations (report : CascadeReport) : List Nat :=
  report.recompiled.map Prod.snd

theorem CascadeReport.generations_append (first second : CascadeReport) :
    (first ++ second).generations = first.generations ++ second.generations :=
  List.map_append

namespace Engine

variable {engine before between after : Engine MemoryStore} {key : ArtifactKey} {numbers later : List Nat}

/-! ## Drawing numbers -/

/-- Numbers have been drawn, and the code that is held afterwards is from one of these builds or was held
before under the same number. -/
structure Drawn (before after : Engine MemoryStore) (numbers : List Nat) : Prop where
  numbers_eq : numbers = List.range' before.cache.nextGeneration numbers.length
  next_eq : after.cache.nextGeneration = before.cache.nextGeneration + numbers.length
  held : ∀ key artifact, after.artifact? key = some artifact → artifact.generation ∈ numbers ∨
    ∃ previous, before.artifact? key = some previous ∧ previous.generation = artifact.generation ∧
      previous.code = artifact.code

theorem Drawn.of_cache_eq (same : after.cache = before.cache) : Drawn before after [] := by
  refine ⟨rfl, by rw [same]; rfl, fun key artifact holds => Or.inr ⟨artifact, ?_, rfl, rfl⟩⟩
  rwa [artifact?, same] at holds

theorem Drawn.trans (first : Drawn before between numbers) (second : Drawn between after later) :
    Drawn before after (numbers ++ later) := by
  refine ⟨?_, ?_, fun key artifact holds => ?_⟩
  · have onwards := second.numbers_eq
    rw [first.next_eq] at onwards
    rw [List.length_append, ← List.range'_append_1, ← onwards, ← first.numbers_eq]
  · rw [second.next_eq, first.next_eq, List.length_append, Nat.add_assoc]
  · rcases second.held key artifact holds with isNew | ⟨previous, was, sameNumber, sameCode⟩
    · exact Or.inl (List.mem_append_right _ isNew)
    · rcases first.held key previous was with isNew | ⟨earlier, was, earlierNumber, earlierCode⟩
      · exact Or.inl (List.mem_append_left _ (sameNumber ▸ isNew))
      · exact Or.inr ⟨earlier, was, earlierNumber.trans sameNumber, earlierCode.trans sameCode⟩

/-- An outcome draws a number where it is a build that has succeeded, and the report has it. -/
theorem numbers_of_applied {direct : Bool} {outcome : Outcome} {report : CascadeReport}
    (performed : engine.perform (applyOutcome key direct outcome) = (.ok report, after)) :
    report.generations = List.range' engine.cache.nextGeneration report.generations.length ∧
      after.cache.nextGeneration = engine.cache.nextGeneration + report.generations.length := by
  cases outcome with
  | built code uses =>
      rcases perform_install engine key code uses with ⟨_, isPerformed, drawn, _⟩
      cases isPerformed.symm.trans performed
      exact ⟨rfl, drawn⟩
  | unresolved =>
      rcases perform_drop engine key with ⟨_, isPerformed, drawn, _⟩
      cases isPerformed.symm.trans performed
      cases engine.cache.get? key <;> exact ⟨rfl, drawn⟩
  | failed diagnostic uses =>
      simp only [applyOutcome, perform_bind, perform_get] at performed
      cases policy : engine.config.failurePolicy with
      | keepLastGood =>
          rcases perform_keep engine key diagnostic uses with ⟨_, isPerformed, drawn, _⟩
          simp only [policy, perform_bind, isPerformed, perform_pure] at performed
          cases performed
          exact ⟨rfl, drawn⟩
      | invalidate =>
          rcases perform_invalidate engine key uses with ⟨_, isPerformed, drawn, _⟩
          simp only [policy, perform_bind, isPerformed, perform_pure] at performed
          cases performed
          exact ⟨rfl, drawn⟩

theorem drawn_of_applied {direct : Bool} {outcome : Outcome} {report : CascadeReport}
    (performed : engine.perform (applyOutcome key direct outcome) = (.ok report, after)) :
    Drawn engine after report.generations := by
  rcases numbers_of_applied performed with ⟨numbers, next⟩
  have pass := pass_applyOutcome engine performed
  refine ⟨numbers, next, fun other artifact holds => ?_⟩
  by_cases same : other = key
  · have fate := pass.fate other outcome (if_pos same)
    generalize said : report.about other = about at fate
    cases fate with
    | @built code uses generation _ _ held _ =>
        rw [held, Option.some.injEq] at holds
        have listed : (other, generation) ∈ report.recompiled := by
          rw [CascadeReport.mem_recompiled_iff, said]
          exact List.mem_singleton_self _
        exact Or.inl (holds ▸ List.mem_map_of_mem listed)
    | aged _ was held _ =>
        rw [held, Option.some.injEq] at holds
        exact Or.inr ⟨_, was, holds ▸ rfl, holds ▸ rfl⟩
    | missed _ held _ => exact nomatch held.symm.trans holds
    | dropped _ held _ => exact nomatch held.symm.trans holds
    | absent _ held _ => exact nomatch held.symm.trans holds
  · have spared := pass.spared other (if_neg same)
    exact Or.inr ⟨artifact, spared.held ▸ holds, rfl, rfl⟩

/-- Numbers have been drawn, and have been reported. -/
def Draws (first second : Progress MemoryStore) : Prop :=
  ∃ numbers, second.2.generations = first.2.generations ++ numbers ∧ Drawn first.1 second.1 numbers

theorem draws_of_cache_eq (same : after.cache = before.cache) (said : CascadeReport) :
    Draws (before, said) (after, said) :=
  ⟨[], (List.append_nil _).symm, .of_cache_eq same⟩

theorem Draws.trans {first second third : Progress MemoryStore} (draws : Draws first second)
    (further : Draws second third) : Draws first third := by
  rcases draws with ⟨numbers, said, drawn⟩
  rcases further with ⟨later, laterSaid, drawnLater⟩
  exact ⟨numbers ++ later, by rw [laterSaid, said, List.append_assoc], drawn.trans drawnLater⟩

theorem respected_draws : Respected MemoryStore.KeepsArtifacts Draws where
  sparing := MemoryStore.sparing_keepsArtifacts
  refl state := draws_of_cache_eq rfl state.2
  trans := Draws.trans
  besides said besides := draws_of_cache_eq besides.cache_eq said
  applied _ _ _ _ onwards := endsIn_applyOutcome fun _ _ performed =>
    onwards.trans ⟨_, CascadeReport.generations_append _ _, drawn_of_applied performed⟩

theorem drawn_of_draws {report : CascadeReport} (draws : Draws (before, .empty) (after, .empty ++ report)) :
    Drawn before after report.generations := by
  rcases draws with ⟨numbers, said, drawn⟩
  have same : report.generations = numbers := said
  exact same ▸ drawn

/-- The numbers that an edit reports are the next ones. -/
theorem drawn_of_edit {edit : Edit} {report : CascadeReport}
    (performed : engine.perform edit.command = (.ok report, after)) :
    Drawn engine after report.generations :=
  drawn_of_draws ((respected_draws.edit .empty edit).of_ok (edit.command_eq_commandOn ▸ performed))

theorem drawn_of_rebuildAll {report : CascadeReport}
    (performed : engine.perform rebuildAll = (.ok report, after)) :
    Drawn engine after report.generations := by
  have reloaded : ∀ (engine : Engine MemoryStore) (scheme : InheritanceScheme),
      Draws (engine, .empty) (engine.reloaded scheme, .empty) :=
    fun engine scheme => @draws_of_cache_eq engine (engine.reloaded scheme) rfl .empty
  exact drawn_of_draws ((respected_draws.rebuildAll reloaded).of_ok performed)

/-- An opened engine goes on behind the highest number that is stored. -/
theorem nextGeneration_of_ofStore {config : Config} {registry : Registry} {store : MemoryStore}
    (isOpened : ofStore config registry store = .ok engine) :
    engine.cache.nextGeneration = ArtifactCache.highestGeneration store.artifacts.values + 1 := by
  rw [cache_of_ofStore isOpened]
  exact max_eq_right (Nat.le_add_left 1 _)

/-! ## Histories -/

/-- A time between two openings of a store: the engine as it was opened, and the numbers that it has drawn. -/
structure Session where
  opening : Engine MemoryStore
  drawn : List Nat

namespace Session

/-- The highest number that was stored when the store was opened. -/
def highest (session : Session) : Nat :=
  ArtifactCache.highestGeneration session.opening.store.artifacts.values

/-- The numbers that were drawn are those behind the highest one that was stored. -/
def IsRun (session : Session) : Prop :=
  session.drawn = List.range' (session.highest + 1) session.drawn.length

end Session

/-- The numbers that were drawn in some sessions, of which the latest is the first. -/
def drawnIn : List Session → List Nat
  | [] => []
  | session :: earlier => drawnIn earlier ++ session.drawn

/-- The history of a store: the numbers that it was found with, the sessions since, and the states of the
engines after every step, the latest session and the latest state first. -/
inductive History : List Nat → List Session → List (Engine MemoryStore) → Prop where
  | opened {config : Config} {registry : Registry} {store : MemoryStore} {engine : Engine MemoryStore}
      (constructed : store.Constructed) (isOpened : ofStore config registry store = .ok engine) :
      History (store.artifacts.values.map Artifact.generation) [⟨engine, []⟩] [engine]
  | reopened {found : List Nat} {config : Config} {registry : Registry} {sessions : List Session}
      {before engine : Engine MemoryStore} {earlier : List (Engine MemoryStore)}
      (history : History found sessions (before :: earlier))
      (isOpened : ofStore config registry before.store = .ok engine) :
      History found (⟨engine, []⟩ :: sessions) (engine :: before :: earlier)
  | rebuilt {found drawn : List Nat} {sessions : List Session} {opening before after : Engine MemoryStore}
      {earlier : List (Engine MemoryStore)} {report : CascadeReport}
      (history : History found (⟨opening, drawn⟩ :: sessions) (before :: earlier))
      (performed : before.perform rebuildAll = (.ok report, after)) :
      History found (⟨opening, drawn ++ report.generations⟩ :: sessions) (after :: before :: earlier)
  | edited {found drawn : List Nat} {sessions : List Session} {opening before after : Engine MemoryStore}
      {earlier : List (Engine MemoryStore)} {edit : Edit} {report : CascadeReport}
      (history : History found (⟨opening, drawn⟩ :: sessions) (before :: earlier))
      (performed : before.perform edit.command = (.ok report, after)) :
      History found (⟨opening, drawn ++ report.generations⟩ :: sessions) (after :: before :: earlier)

/-- No session has drawn a number unless the highest one until then was stored, or a higher one, when it
began. -/
def Continues (found : List Nat) : List Session → Prop
  | [] => True
  | session :: earlier => Continues found earlier ∧
      (session.drawn ≠ [] → ∀ number ∈ found ++ drawnIn earlier, number ≤ session.highest)

variable {found : List Nat} {sessions : List Session} {moments : List (Engine MemoryStore)}

theorem History.reached (history : History found sessions moments) :
    ∀ moment ∈ moments, Reached moment := by
  induction history with
  | opened constructed isOpened =>
      intro moment member
      rw [List.mem_singleton] at member
      exact member ▸ .opened constructed isOpened
  | reopened history isOpened inductionHypothesis =>
      rw [List.forall_mem_cons]
      exact ⟨.reopened (inductionHypothesis _ List.mem_cons_self) isOpened, inductionHypothesis⟩
  | rebuilt history performed inductionHypothesis =>
      rw [List.forall_mem_cons]
      exact ⟨.rebuilt (inductionHypothesis _ List.mem_cons_self) performed, inductionHypothesis⟩
  | edited history performed inductionHypothesis =>
      rw [List.forall_mem_cons]
      exact ⟨.edited (inductionHypothesis _ List.mem_cons_self) performed, inductionHypothesis⟩

/-! ## Along a history -/

/-- Code that is held under one number is the same at both times. -/
def SameBuilds (first second : Engine MemoryStore) : Prop :=
  ∀ key one other, first.artifact? key = some one → second.artifact? key = some other →
    one.generation = other.generation → one.code = other.code

theorem SameBuilds.refl (engine : Engine MemoryStore) : SameBuilds engine engine := by
  intro key one other isOne isOther _
  rw [isOne, Option.some.injEq] at isOther
  rw [isOther]

theorem SameBuilds.symm {first second : Engine MemoryStore} (same : SameBuilds first second) :
    SameBuilds second first :=
  fun key one other isOne isOther sameNumber => (same key other one isOther isOne sameNumber.symm).symm

/-- What is known of a history by its latest session and state. -/
structure Ledger (found : List Nat) (session : Session) (earlier : List Session)
    (now : Engine MemoryStore) (moments : List (Engine MemoryStore)) : Prop where
  runs : ∀ other ∈ session :: earlier, other.IsRun
  next_eq : now.cache.nextGeneration = session.highest + 1 + session.drawn.length
  listed : ∀ moment ∈ now :: moments, ∀ key artifact, moment.artifact? key = some artifact →
    artifact.generation ∈ found ++ drawnIn (session :: earlier)
  same : Continues found (session :: earlier) →
    ∀ first ∈ now :: moments, ∀ second ∈ now :: moments, SameBuilds first second

theorem Ledger.isRun_append {session : Session} {earlier : List Session} {now : Engine MemoryStore}
    (ledger : Ledger found session earlier now moments) (drawn : Drawn now after numbers) :
    Session.IsRun ⟨session.opening, session.drawn ++ numbers⟩ := by
  have run := ledger.runs session List.mem_cons_self
  have onwards := drawn.numbers_eq
  rw [ledger.next_eq] at onwards
  change session.drawn ++ numbers = List.range' (session.highest + 1) (session.drawn ++ numbers).length
  rw [List.length_append, ← List.range'_append_1, ← onwards, ← run]

/-- Where the latest session draws anything, no number until then reaches the next one. -/
theorem Ledger.lt_next {session : Session} {earlier : List Session} {now : Engine MemoryStore}
    (ledger : Ledger found session earlier now moments)
    (behind : ∀ number ∈ found ++ drawnIn earlier, number ≤ session.highest) {number : Nat}
    (member : number ∈ found ++ drawnIn (session :: earlier)) : number < now.cache.nextGeneration := by
  rw [drawnIn, ← List.append_assoc, List.mem_append] at member
  rw [ledger.next_eq]
  rcases member with before | drawn
  · have := behind number before
    omega
  · rw [ledger.runs session List.mem_cons_self, List.mem_range'_1] at drawn
    exact drawn.2

/-- A command that draws numbers leaves everything on the ledger. -/
theorem Ledger.step {session : Session} {earlier : List Session} {now : Engine MemoryStore}
    (ledger : Ledger found session earlier now moments) (drawn : Drawn now after numbers) :
    Ledger found ⟨session.opening, session.drawn ++ numbers⟩ earlier after (now :: moments) := by
  have known : ∀ number ∈ found ++ drawnIn (session :: earlier),
      number ∈ found ++ drawnIn (⟨session.opening, session.drawn ++ numbers⟩ :: earlier) := by
    intro number member
    rw [drawnIn, ← List.append_assoc, ← List.append_assoc]
    rw [drawnIn, ← List.append_assoc] at member
    exact List.mem_append_left _ member
  refine ⟨?_, ?_, ?_, fun continues => ?_⟩
  · rw [List.forall_mem_cons]
    exact ⟨ledger.isRun_append drawn, fun other member => ledger.runs other (List.mem_cons_of_mem _ member)⟩
  · rw [drawn.next_eq, ledger.next_eq, List.length_append]
    exact Nat.add_assoc _ _ _
  · rw [List.forall_mem_cons]
    refine ⟨fun key artifact holds => ?_, fun moment member key artifact holds =>
      known _ (ledger.listed moment member key artifact holds)⟩
    rcases drawn.held key artifact holds with isNew | ⟨previous, was, sameNumber, _⟩
    · rw [drawnIn, ← List.append_assoc, ← List.append_assoc]
      exact List.mem_append_right _ isNew
    · exact sameNumber ▸ known _ (ledger.listed now List.mem_cons_self key previous was)
  · have before : Continues found (session :: earlier) :=
      ⟨continues.1, fun some => continues.2 (List.append_ne_nil_of_left_ne_nil some numbers)⟩
    have same := ledger.same before
    -- A number that has just been drawn has not been seen before, and all other code was there before.
    have sameAfter : ∀ first ∈ now :: moments, SameBuilds first after := by
      intro first member key one other isOne isOther sameNumber
      rcases drawn.held key other isOther with isNew | ⟨previous, was, previousNumber, previousCode⟩
      · have behind := continues.2 fun nothing => by
          rw [(List.append_eq_nil_iff.mp nothing).2] at isNew
          cases isNew
        have seen := ledger.listed first member key one isOne
        rw [sameNumber] at seen
        rw [drawn.numbers_eq, List.mem_range'_1] at isNew
        exact absurd (ledger.lt_next behind seen) (Nat.not_lt.mpr isNew.1)
      · rw [same first member now List.mem_cons_self key one previous isOne was
          (sameNumber.trans previousNumber.symm), previousCode]
    intro first member second secondMember
    rcases List.mem_cons.mp member with rfl | before
    · rcases List.mem_cons.mp secondMember with rfl | secondBefore
      · exact SameBuilds.refl _
      · exact (sameAfter second secondBefore).symm
    · rcases List.mem_cons.mp secondMember with rfl | secondBefore
      · exact sameAfter first before
      · exact same first before second secondBefore

/-- Opening a store again loses the highest number if its artifact is gone, and nothing else. -/
theorem Ledger.reopen {config : Config} {registry : Registry} {session : Session}
    {earlier : List Session} {now : Engine MemoryStore}
    (ledger : Ledger found session earlier now moments) (founded : now.Founded)
    (isOpened : ofStore config registry now.store = .ok engine) :
    Ledger found ⟨engine, []⟩ (session :: earlier) engine (now :: moments) := by
  have opened := opened_of_ofStore founded.wellFormed isOpened
  have sameHeld : ∀ key, engine.artifact? key = now.artifact? key := by
    intro key
    rw [artifact?, artifact?, ArtifactCache.get?, ArtifactCache.get?, ← opened.founded.backed.stored,
      opened.store_eq, founded.backed.stored]
  have sameNumbers : drawnIn (⟨engine, []⟩ :: session :: earlier) = drawnIn (session :: earlier) :=
    List.append_nil _
  refine ⟨?_, ?_, ?_, fun continues => ?_⟩
  · rw [List.forall_mem_cons]
    exact ⟨rfl, ledger.runs⟩
  · rw [nextGeneration_of_ofStore isOpened, Session.highest, opened.store_eq]
    rfl
  · rw [sameNumbers, List.forall_mem_cons]
    exact ⟨fun key artifact holds => ledger.listed now List.mem_cons_self key artifact
      (sameHeld key ▸ holds), ledger.listed⟩
  · have same := ledger.same continues.1
    have nowSame : ∀ {other}, SameBuilds now other → SameBuilds engine other :=
      fun sameNow key one other isOne => sameNow key one other (sameHeld key ▸ isOne)
    intro first member second secondMember
    rcases List.mem_cons.mp member with rfl | before
    · rcases List.mem_cons.mp secondMember with rfl | secondBefore
      · exact SameBuilds.refl _
      · exact nowSame (same now List.mem_cons_self second secondBefore)
    · rcases List.mem_cons.mp secondMember with rfl | secondBefore
      · exact (nowSame (same now List.mem_cons_self first before)).symm
      · exact same first before second secondBefore

theorem ledger_of_ofStore {config : Config} {registry : Registry} {store : MemoryStore}
    (wellFormed : store.WellFormed) (isOpened : ofStore config registry store = .ok engine) :
    Ledger (store.artifacts.values.map Artifact.generation) ⟨engine, []⟩ [] engine [] := by
  have opened := opened_of_ofStore wellFormed isOpened
  refine ⟨?_, ?_, ?_, fun _ => ?_⟩
  · rw [List.forall_mem_singleton]
    rfl
  · rw [nextGeneration_of_ofStore isOpened, Session.highest, opened.store_eq]
    rfl
  · rw [List.forall_mem_singleton]
    intro key artifact holds
    rw [artifact?, ArtifactCache.get?, ← opened.founded.backed.stored, opened.store_eq] at holds
    exact List.mem_append_left _ (List.mem_map_of_mem (mem_values.mpr ⟨key, holds⟩))
  · intro first member second secondMember
    rw [List.mem_singleton] at member secondMember
    rw [member, secondMember]
    exact SameBuilds.refl engine

theorem History.exists_ledger (history : History found sessions moments) :
    ∃ session earlier now rest, sessions = session :: earlier ∧ moments = now :: rest ∧
      Ledger found session earlier now rest := by
  induction history with
  | opened constructed isOpened =>
      exact ⟨_, _, _, _, rfl, rfl, ledger_of_ofStore constructed.wellFormed isOpened⟩
  | reopened history isOpened inductionHypothesis =>
      rcases inductionHypothesis with ⟨session, earlier, now, rest, rfl, sameMoments, ledger⟩
      cases sameMoments
      have founded := (history.reached _ List.mem_cons_self).founded
      exact ⟨_, _, _, _, rfl, rfl, ledger.reopen founded isOpened⟩
  | rebuilt history performed inductionHypothesis =>
      rcases inductionHypothesis with ⟨session, earlier, now, rest, sameSessions, sameMoments, ledger⟩
      cases sameSessions
      cases sameMoments
      exact ⟨_, _, _, _, rfl, rfl, ledger.step (drawn_of_rebuildAll performed)⟩
  | edited history performed inductionHypothesis =>
      rcases inductionHypothesis with ⟨session, earlier, now, rest, sameSessions, sameMoments, ledger⟩
      cases sameSessions
      cases sameMoments
      exact ⟨_, _, _, _, rfl, rfl, ledger.step (drawn_of_edit performed)⟩

/-! ## When numbers increase -/

/-- A run is behind some numbers when it is empty, or when the stored number from which it starts is. -/
theorem Session.IsRun.behind_iff {session : Session} (run : session.IsRun) :
    (∀ number ∈ numbers, ∀ drawn ∈ session.drawn, number < drawn) ↔
      (session.drawn ≠ [] → ∀ number ∈ numbers, number ≤ session.highest) := by
  constructor
  · intro behind some number member
    have first : session.highest + 1 ∈ session.drawn := by
      rw [run, List.mem_range'_1]
      have := List.length_pos_iff.mpr some
      omega
    exact Nat.le_of_lt_succ (behind number member _ first)
  · intro behind number member drawn isDrawn
    have bound := behind (List.ne_nil_of_mem isDrawn) number member
    rw [run, List.mem_range'_1] at isDrawn
    omega

theorem increase_iff_continues (runs : ∀ session ∈ sessions, session.IsRun) :
    ((∀ number ∈ found, ∀ drawn ∈ drawnIn sessions, number < drawn) ∧
      (drawnIn sessions).Pairwise (· < ·)) ↔ Continues found sessions := by
  induction sessions with
  | nil => simp [drawnIn, Continues]
  | cons session earlier inductionHypothesis =>
      rw [List.forall_mem_cons] at runs
      have increasing : session.drawn.Pairwise (· < ·) := by
        rw [runs.1]
        exact List.pairwise_lt_range'
      rw [Continues, ← inductionHypothesis runs.2, ← runs.1.behind_iff, drawnIn, List.pairwise_append]
      simp only [List.forall_mem_append, forall_and]
      tauto

/-- Exactly if every session that draws numbers finds the highest one until then stored, the numbers of a
history increase.  If they do, no two builds of a key have had the same one. -/
theorem increase_iff_of_history (history : History found sessions moments) :
    (((∀ number ∈ found, ∀ drawn ∈ drawnIn sessions, number < drawn) ∧
        (drawnIn sessions).Pairwise (· < ·)) ↔ Continues found sessions) ∧
      (Continues found sessions →
        ∀ first ∈ moments, ∀ second ∈ moments, SameBuilds first second) := by
  rcases history.exists_ledger with ⟨session, earlier, now, rest, rfl, rfl, ledger⟩
  exact ⟨increase_iff_continues ledger.runs, ledger.same⟩

/-! ## A page that is replaced behind a reopening -/

theorem history_greeting : History [] [⟨openedGreeting, [1]⟩] [greeting, openedGreeting] := by
  have constructed : greetingStore.Constructed := .define .template rootPosition "page" "Hello" .empty
  have isOpened : ofStore {} Registry.builtIn greetingStore = .ok openedGreeting :=
    ofStore_of_openedOver (Option.some_get _).symm
  have found : greetingStore.artifacts.values.map Artifact.generation = [] := by decide +kernel
  have rebuilds : (openedGreeting.perform rebuildAll).1.isOk = true := by decide +kernel
  have reports : ∀ report ∈ (openedGreeting.perform rebuildAll).1.toOption,
      report.generations = [1] := by decide +kernel
  rcases exists_perform_ok openedGreeting rebuilds with ⟨report, performed⟩
  rw [performed] at reports
  have history := History.rebuilt (.opened constructed isOpened) performed
  rwa [found, reports report rfl] at history

def replacePage : Edit :=
  .saveTemplate rootPosition "page" "Welcome"

def reopenedGreeting : Engine MemoryStore :=
  (openedOver greeting.config greeting.store).get (by decide +kernel)

/-- The store is opened again while the page is there, and the page is replaced. -/
def replacedPage : Engine MemoryStore :=
  reopenedGreeting.afterwards replacePage.command

theorem history_replacedPage : History [] [⟨reopenedGreeting, [2]⟩, ⟨openedGreeting, [1]⟩]
    [replacedPage, reopenedGreeting, greeting, openedGreeting] := by
  have isReopened : ofStore greeting.config Registry.builtIn greeting.store = .ok reopenedGreeting :=
    ofStore_of_openedOver (Option.some_get _).symm
  have saves : (reopenedGreeting.perform replacePage.command).1.isOk = true := by decide +kernel
  have reports : ∀ report ∈ (reopenedGreeting.perform replacePage.command).1.toOption,
      report.generations = [2] := by decide +kernel
  rcases exists_perform_ok reopenedGreeting saves with ⟨report, performed⟩
  rw [performed] at reports
  have history := History.edited (.reopened history_greeting isReopened) performed
  rwa [List.nil_append, reports report rfl] at history

/-- The second page has a number of its own, because the first one is stored when the store is opened. -/
theorem increase_replacedPage :
    Continues [] [⟨reopenedGreeting, [2]⟩, ⟨openedGreeting, [1]⟩] ∧
      (drawnIn [⟨reopenedGreeting, [2]⟩, ⟨openedGreeting, [1]⟩]).Pairwise (· < ·) ∧
      SameBuilds greeting replacedPage := by
  have continues : Continues [] [⟨reopenedGreeting, [2]⟩, ⟨openedGreeting, [1]⟩] :=
    ⟨⟨trivial, fun _ => by decide⟩, fun _ => by decide +kernel⟩
  have whole := increase_iff_of_history history_replacedPage
  exact ⟨continues, (whole.1.mpr continues).2, whole.2 continues _ (by simp) _ (by simp)⟩

def deletePage : Edit :=
  .deleteDefinition .template "page" rootPosition

def withdrawnGreeting : Engine MemoryStore :=
  greeting.afterwards deletePage.command

def reopenedWithdrawn : Engine MemoryStore :=
  (openedOver withdrawnGreeting.config withdrawnGreeting.store).get (by decide +kernel)

/-- The store is opened again while there is no page, and another page is saved. -/
def anotherPage : Engine MemoryStore :=
  reopenedWithdrawn.afterwards replacePage.command

theorem history_anotherPage : History [] [⟨reopenedWithdrawn, [1]⟩, ⟨openedGreeting, [1]⟩]
    [anotherPage, reopenedWithdrawn, withdrawnGreeting, greeting, openedGreeting] := by
  have isReopened : ofStore withdrawnGreeting.config Registry.builtIn withdrawnGreeting.store =
      .ok reopenedWithdrawn := ofStore_of_openedOver (Option.some_get _).symm
  have deletes : (greeting.perform deletePage.command).1.isOk = true := by decide +kernel
  have nothing : ∀ report ∈ (greeting.perform deletePage.command).1.toOption,
      report.generations = [] := by decide +kernel
  have saves : (reopenedWithdrawn.perform replacePage.command).1.isOk = true := by decide +kernel
  have again : ∀ report ∈ (reopenedWithdrawn.perform replacePage.command).1.toOption,
      report.generations = [1] := by decide +kernel
  rcases exists_perform_ok greeting deletes with ⟨deletion, deleted⟩
  rcases exists_perform_ok reopenedWithdrawn saves with ⟨saving, saved⟩
  rw [deleted] at nothing
  rw [saved] at again
  have history := History.edited (.reopened (.edited history_greeting deleted) isReopened) saved
  rwa [nothing deletion rfl, again saving rfl] at history

def firstPage : Artifact :=
  (greeting.artifact? (.template rootPosition rootPosition "page")).get (by decide +kernel)

def secondPage : Artifact :=
  (anotherPage.artifact? (.template rootPosition rootPosition "page")).get (by decide +kernel)

/-- Nothing is stored any more that has the number of the first page, and the other page gets it again. -/
theorem number_drawn_twice : ∃ (sessions : List Session) (moments : List (Engine MemoryStore))
    (first second : Engine MemoryStore) (key : ArtifactKey) (one other : Artifact),
    History [] sessions moments ∧ drawnIn sessions = [1, 1] ∧ first ∈ moments ∧ second ∈ moments ∧
      first.artifact? key = some one ∧ second.artifact? key = some other ∧
      one.generation = other.generation ∧ one.status = .current ∧ other.status = .current ∧
      one.code ≠ other.code :=
  ⟨_, _, greeting, anotherPage, _, firstPage, secondPage, history_anotherPage, rfl, by simp, by simp,
    (Option.some_get _).symm, (Option.some_get _).symm, by decide +kernel, by decide +kernel,
    by decide +kernel, fun same => absurd (congrArg Code.text? same) (by decide +kernel)⟩

end Engine
end TemplateCascade
