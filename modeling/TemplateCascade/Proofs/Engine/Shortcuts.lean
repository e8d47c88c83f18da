import Mathlib
import TemplateCascade.Proofs.Engine.Atomicity
import TemplateCascade.Proofs.Markup.Remembering

namespace TemplateCascade

/-!
# Fingerprints in place of texts

Two shortcuts look at fingerprints alone.  A text is not saved when the definition that it is for has its
fingerprint already, and a remembered tree is used again for a source with the fingerprint of its own.
Both are right as long as no two different texts with one fingerprint meet in a definition.

Such texts are not hard to come by.  A step of the hash takes eight bytes as one word, and for every word the
next one can be chosen so that a difference in the word before is undone.
-/

open Compile (Registry)
open Markup (MemoCall Misread ParseMemo remembered)

/-! ## What is stored as a definition -/

namespace MemoryStore

variable {store : MemoryStore} {kind : DefinitionKind} {name content : String} {position : Position}

/-- The text that a name is defined as at a position itself. -/
def contentAt? (store : MemoryStore) (kind : DefinitionKind) (name : String) (position : Position) :
    Option String :=
  (store.owned? kind position name).map Definition.content

/-- A text is taken for the one that is stored, and is another one. -/
def Mistakes (store : MemoryStore) (kind : DefinitionKind) (name : String) (position : Position)
    (content : String) : Prop :=
  ∃ stored, store.contentAt? kind name position = some stored ∧ stored ≠ content ∧
    Fingerprint.ofText kind stored = Fingerprint.ofText kind content

theorem WellFormed.contentAt?_eq_some_iff (wellFormed : store.WellFormed) :
    store.contentAt? kind name position = some content ↔
      ∃ id, (store.direct kind name)[position]? = some id ∧
        store.definition? kind id = some ⟨id, kind, name, position, content⟩ := by
  rw [contentAt?, Option.map_eq_some_iff]
  constructor
  · rintro ⟨definition, owned, rfl⟩
    rcases wellFormed.owned?_eq_some_iff.mp owned with ⟨stored, rfl, rfl, rfl⟩
    exact ⟨definition.id, wellFormed.direct_eq_some_iff.mpr ⟨definition, stored, rfl, rfl, rfl⟩,
      definition?_eq_some_iff.mpr ⟨stored, rfl⟩⟩
  · rintro ⟨id, _, stored⟩
    have held := (definition?_eq_some_iff.mp stored).1
    exact ⟨⟨id, kind, name, position, content⟩,
      wellFormed.owned?_eq_some_iff.mpr ⟨held, rfl, rfl, rfl⟩, rfl⟩

/-- A text counts as kept exactly if what is stored has its fingerprint. -/
theorem WellFormed.isKept_iff (wellFormed : store.WellFormed) :
    store.isKept kind name position content = true ↔
      ∃ stored, store.contentAt? kind name position = some stored ∧
        Fingerprint.ofText kind stored = Fingerprint.ofText kind content := by
  rw [isKept, Option.any_eq_true]
  constructor
  · rintro ⟨definition, found, same⟩
    rw [Option.bind_eq_some_iff] at found
    rcases found with ⟨id, owned, stored⟩
    rcases wellFormed.direct_eq_some_iff.mp owned with ⟨other, otherStored, rfl, rfl, rfl⟩
    rw [(definition?_eq_some_iff.mp stored).1, Option.some.injEq] at otherStored
    subst otherStored
    refine ⟨definition.content, ?_, beq_iff_eq.mp same⟩
    rw [wellFormed.contentAt?_eq_some_iff]
    have isId := wellFormed.definition_id id definition (definition?_eq_some_iff.mp stored).1
    exact ⟨id, owned, isId ▸ stored⟩
  · rintro ⟨stored, held, same⟩
    rcases wellFormed.contentAt?_eq_some_iff.mp held with ⟨id, owned, found⟩
    exact ⟨_, Option.bind_eq_some_iff.mpr ⟨id, owned, found⟩, beq_iff_eq.mpr same⟩

theorem contentAt?_define (wellFormed : store.WellFormed) :
    (store.define kind position name content).1.contentAt? kind name position = some content := by
  have redefined := define_redefined wellFormed kind position name content
  rw [(redefined.wellFormed wellFormed).contentAt?_eq_some_iff]
  exact ⟨_, redefined.direct_self wellFormed, redefined.definition?_self⟩

/-- What has been saved is stored, unless it was mistaken for what was stored before. -/
theorem contentAt?_saved_eq_iff (wellFormed : store.WellFormed) :
    (store.saved kind position name content).contentAt? kind name position = some content ↔
      ¬ store.Mistakes kind name position content := by
  rw [saved]
  split
  · next kept =>
      rcases wellFormed.isKept_iff.mp kept with ⟨stored, held, same⟩
      rw [held, Option.some.injEq]
      constructor
      · rintro rfl ⟨_, again, different, _⟩
        rw [held, Option.some.injEq] at again
        exact different again.symm
      · intro rightly
        by_contra different
        exact rightly ⟨stored, held, different, same⟩
  · next isNew =>
      refine iff_of_true (contentAt?_define wellFormed) ?_
      rintro ⟨stored, held, _, same⟩
      exact isNew (wellFormed.isKept_iff.mpr ⟨stored, held, same⟩)

end MemoryStore

/-! ## Saving -/

/-- The edit that saves a text of either kind. -/
def Edit.save (kind : DefinitionKind) (position : Position) (name content : String) : Edit :=
  match kind with
  | .template => .saveTemplate position name content
  | .phrase => .savePhrase position name content

namespace Engine

variable {engine after : Engine MemoryStore} {kind : DefinitionKind} {name content : String}
  {position : Position} {report : CascadeReport}

theorem contentAt?_of_save (founded : engine.Founded)
    (performed : engine.perform (Edit.save kind position name content).command = (.ok report, after)) :
    after.store.contentAt? kind name position =
      (engine.store.saved kind position name content).contentAt? kind name position := by
  have stores := (edit_stores founded performed).store_eq
  rw [stores]
  cases kind <;> rfl

/-- A text that is mistaken for the stored one is not saved, and nothing is reported. -/
theorem perform_save_of_mistakes (founded : engine.Founded)
    (mistakes : engine.store.Mistakes kind name position content) :
    engine.perform (Edit.save kind position name content).command = (.ok .empty, engine) := by
  rcases mistakes with ⟨stored, held, _, same⟩
  have kept := founded.wellFormed.isKept_iff.mpr ⟨stored, held, same⟩
  cases kind with
  | phrase => exact (perform_savePhrase founded.wellFormed position name content).trans (if_pos kept)
  | template =>
      rcases perform_saveTemplate founded.wellFormed position name content with
        ⟨_, performed⟩ | ⟨isNew, _⟩
      · exact performed
      · cases kept.symm.trans isNew

/-- A memo answers with the tree of the source that it is asked for, and a save of the source that succeeds
has stored it, exactly if no other text with the same fingerprint comes in between: the one that is
remembered for the same definition and reads differently, and the one that is stored in the same place. -/
theorem faithful_iff_not_mistaken (calls : List MemoCall) (id : DefinitionId) (source : String) :
    (((calls.foldl ParseMemo.after .empty).parse id source).2 = Markup.parse source ↔
      ¬ Misread (remembered calls id) source) ∧
    ∀ {engine after : Engine MemoryStore} {kind : DefinitionKind} {position : Position} {name : String}
        {report : CascadeReport}, Reached engine →
      engine.perform (Edit.save kind position name source).command = (.ok report, after) →
        (after.store.contentAt? kind name position = some source ↔
          ¬ engine.store.Mistakes kind name position source) ∧
        (engine.store.Mistakes kind name position source → report = .empty ∧ after = engine) := by
  constructor
  · rw [ParseMemo.parse_eq]
    exact Markup.parse_standIn_eq_iff
  · intro engine after kind position name report reached performed
    have founded := reached.founded
    constructor
    · rw [contentAt?_of_save founded performed]
      exact MemoryStore.contentAt?_saved_eq_iff founded.wellFormed
    · intro mistakes
      rw [perform_save_of_mistakes founded mistakes, Prod.mk.injEq, Except.ok.injEq] at performed
      exact ⟨performed.1.symm, performed.2.symm⟩

/-! ## Two pages with one fingerprint -/

def welcomeSource : String := "Welcome txpmlfgr"

def goodbyeSource : String := "Goodbye abnfnyjr"

theorem fingerprint_welcome : Fingerprint.ofText .template welcomeSource =
    Fingerprint.ofText .template goodbyeSource := by
  decide +kernel

/-- The two pages read differently. -/
theorem parse_welcome_ne : Markup.parse welcomeSource ≠ Markup.parse goodbyeSource := by
  intro same
  let literals := fun source =>
    (Markup.parse source).toOption.map fun template => template.segments.map Markup.Segment.literal?
  have alike : literals welcomeSource = literals goodbyeSource := by
    simp only [literals, same]
  have differ : literals welcomeSource ≠ literals goodbyeSource := by decide +kernel
  exact differ alike

def welcomeStore : MemoryStore :=
  (MemoryStore.empty.define .template rootPosition "page" welcomeSource).1

def openedWelcome : Engine MemoryStore :=
  (openedOver {} welcomeStore).get (by decide +kernel)

theorem reached_openedWelcome : Reached openedWelcome := by
  have constructed : welcomeStore.Constructed := .define .template rootPosition "page" welcomeSource .empty
  have isOpened : ofStore {} Registry.builtIn welcomeStore = .ok openedWelcome :=
    ofStore_of_openedOver (Option.some_get _).symm
  exact .opened constructed isOpened

theorem contentAt?_openedWelcome :
    openedWelcome.store.contentAt? .template "page" rootPosition = some welcomeSource := by
  decide +kernel

theorem remembered_welcome : remembered [.parse 0 welcomeSource] 0 = some welcomeSource := by
  decide +kernel

/-- A page is stored and its tree is answered as long as the fingerprints differ. -/
theorem faithful_openedWelcome : ∃ report after,
    openedWelcome.perform (Edit.save .template rootPosition "page" "Hello").command = (.ok report, after) ∧
      after.store.contentAt? .template "page" rootPosition = some "Hello" ∧
      (([MemoCall.parse 0 welcomeSource].foldl ParseMemo.after .empty).parse 0 "Hello").2 =
        Markup.parse "Hello" := by
  have saves : (openedWelcome.perform
      (Edit.save .template rootPosition "page" "Hello").command).1.isOk = true := by decide +kernel
  have differ : Fingerprint.ofText .template welcomeSource ≠ Fingerprint.ofText .template "Hello" := by
    decide +kernel
  rcases exists_perform_ok openedWelcome saves with ⟨report, performed⟩
  have faithful := faithful_iff_not_mistaken [.parse 0 welcomeSource] 0 "Hello"
  refine ⟨report, _, performed, ?_, ?_⟩
  · refine ((faithful.2 reached_openedWelcome performed).1).mpr ?_
    rintro ⟨stored, held, _, same⟩
    cases contentAt?_openedWelcome.symm.trans held
    exact differ same
  · refine faithful.1.mpr ?_
    rintro ⟨other, known, same, _⟩
    cases remembered_welcome.symm.trans known
    exact differ same

/-- The second page is accepted and not stored, and a memo answers it with the tree of the first. -/
theorem lost_goodbye :
    (∃ (engine after : Engine MemoryStore) (report : CascadeReport), Reached engine ∧
      engine.perform (Edit.save .template rootPosition "page" goodbyeSource).command =
        (.ok report, after) ∧
      after.store.contentAt? .template "page" rootPosition ≠ some goodbyeSource) ∧
    ∃ (calls : List MemoCall) (id : DefinitionId),
      ((calls.foldl ParseMemo.after .empty).parse id goodbyeSource).2 ≠ Markup.parse goodbyeSource := by
  have different : welcomeSource ≠ goodbyeSource := by decide
  constructor
  · have mistakes : openedWelcome.store.Mistakes .template "page" rootPosition goodbyeSource :=
      ⟨welcomeSource, contentAt?_openedWelcome, different, fingerprint_welcome⟩
    have performed := perform_save_of_mistakes reached_openedWelcome.founded mistakes
    refine ⟨openedWelcome, openedWelcome, .empty, reached_openedWelcome, performed, ?_⟩
    rw [contentAt?_openedWelcome]
    exact fun same => different (Option.some.inj same)
  · refine ⟨[.parse 0 welcomeSource], 0, ?_⟩
    rw [ParseMemo.parse_eq, remembered_welcome, Markup.standIn_of_eq fingerprint_welcome]
    exact parse_welcome_ne

end Engine
end TemplateCascade
