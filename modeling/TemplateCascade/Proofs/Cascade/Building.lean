import Mathlib
import TemplateCascade.Cascade.Build
import TemplateCascade.Proofs.Compile.Noninterference
import TemplateCascade.Proofs.Store.Contents

namespace TemplateCascade

/-!
# What a build depends on

A build sees a store and a scheme only through what is in effect for names at positions.  The name of the
key itself decides whether there is anything to build, and the names that the build has noted decide the
rest.  Trees that are remembered make no difference as long as they are those of what is stored.
-/

open Compile (Diagnostic Environment Registry Uses)
open Markup (ParseMemo Template)

variable {store other : MemoryStore} {scheme otherScheme : InheritanceScheme} {key : ArtifactKey}

/-! ## What is in effect -/

/-- What a name resolves to at a position, and the content of that if it can be loaded. -/
def effective? (store : MemoryStore) (scheme : InheritanceScheme) (kind : DefinitionKind)
    (name : String) (position : Position) : Option (DefinitionId × Option String) :=
  ((scheme.map kind).resolve? name position).map fun id =>
    (id, (store.definition? kind id).map Definition.content)

/-- What is in effect for the name of a key at its position.  A template is built for languages only
that there are. -/
def own? (store : MemoryStore) (scheme : InheritanceScheme) :
    ArtifactKey → Option (DefinitionId × Option String)
  | .template style language name =>
      if scheme.languages.contains language then effective? store scheme .template name style else none
  | .phrase language name => effective? store scheme .phrase name language

theorem own?_of_absent_language (store : MemoryStore) {scheme : InheritanceScheme} {key : ArtifactKey}
    (isTemplate : key.kind = .template) (absent : scheme.languages.contains key.language = false) :
    own? store scheme key = none := by
  cases key with
  | phrase language name => cases isTemplate
  | template style language name =>
      rw [own?, if_neg]
      rw [Bool.not_eq_true]
      exact absent

/-- What is in effect depends on the definitions of a store only. -/
theorem effective?_of_definitions (same : other.definitions = store.definitions)
    (scheme : InheritanceScheme)
    (kind : DefinitionKind) (name : String) (position : Position) :
    effective? other scheme kind name position = effective? store scheme kind name position := by
  simp only [effective?, MemoryStore.definition?, same]

theorem own?_of_definitions (same : other.definitions = store.definitions)
    (scheme : InheritanceScheme) (key : ArtifactKey) : own? other scheme key = own? store scheme key := by
  cases key <;> simp only [own?, effective?_of_definitions same]

/-- Two stores with their schemes have the same in effect for a key and for the names that it uses. -/
structure Alike (store other : MemoryStore) (scheme otherScheme : InheritanceScheme)
    (key : ArtifactKey) (uses : Uses) : Prop where
  own_eq : own? other otherScheme key = own? store scheme key
  includes_eq : ∀ name ∈ uses.includes, ∀ style, key.style? = some style →
    effective? other otherScheme .template name style = effective? store scheme .template name style
  phrases_eq : ∀ name ∈ uses.phrases,
    effective? other otherScheme .phrase name key.language =
      effective? store scheme .phrase name key.language

theorem Alike.of_within {fewer more : Uses} (alike : Alike store other scheme otherScheme key more)
    (within : fewer.Within more) : Alike store other scheme otherScheme key fewer :=
  ⟨alike.own_eq, fun name member => alike.includes_eq name (within.1 name member),
    fun name member => alike.phrases_eq name (within.2 name member)⟩

/-! ## Remembered trees -/

/-- Every stored template reads as its own tree. -/
def Markup.ParseMemo.Sound (memo : ParseMemo) (store : MemoryStore) : Prop :=
  ∀ (id : DefinitionId) (definition : Definition),
    store.definition? .template id = some definition →
    memo.read id definition.content = Markup.parse definition.content

namespace Markup.ParseMemo

variable {memo : ParseMemo}

theorem sound_empty (store : MemoryStore) : ParseMemo.empty.Sound store := by
  intro id definition _
  simp [read, lookup?, ParseMemo.empty]

theorem read_learn_of_ne {id learned : DefinitionId} (different : id ≠ learned)
    (source content : String) : (memo.learn learned source).read id content = memo.read id content := by
  unfold learn
  split
  · simp only [read, lookup?, getElem?_insert_eq, if_neg different]
  · rfl

theorem read_learn_self (id : DefinitionId) (source : String) :
    (memo.learn id source).read id source = memo.read id source := by
  unfold learn
  split
  · next template known =>
      rw [known]
      simp [read, lookup?, Option.filter]
  · rfl

/-- Every stored template is read as before. -/
def ReadsAs {σ : Type} [Store σ] (store : σ) (before after : ParseMemo) : Prop :=
  ∀ (id : DefinitionId) (definition : Definition), Store.load store .template id = .ok definition →
    after.read id definition.content = before.read id definition.content

section

variable {σ : Type} [Store σ] {kept : σ} {before after last : ParseMemo}

theorem ReadsAs.refl (store : σ) (memo : ParseMemo) : ReadsAs store memo memo :=
  fun _ _ _ => rfl

theorem ReadsAs.trans (first : ReadsAs kept before after) (second : ReadsAs kept after last) :
    ReadsAs kept before last :=
  fun id definition stored => (second id definition stored).trans (first id definition stored)

/-- A definition has one content, so learning its tree does not change how anything stored is read. -/
theorem readsAs_learn {id : DefinitionId} {definition : Definition}
    (stored : Store.load kept .template id = .ok definition) (memo : ParseMemo) :
    ReadsAs kept memo (memo.learn id definition.content) := by
  intro asked other askedStored
  by_cases same : asked = id
  · subst same
    rw [stored, Except.ok.injEq] at askedStored
    subst askedStored
    exact read_learn_self asked definition.content
  · exact read_learn_of_ne same definition.content other.content

end

theorem Sound.of_readsAs (sound : memo.Sound store) {learned : ParseMemo}
    (reads : ReadsAs store memo learned) : learned.Sound store := by
  intro id definition stored
  rw [reads id definition (by simp only [Store.load, stored])]
  exact sound id definition stored

theorem read_forget (memo : ParseMemo) (id forgotten : DefinitionId) (content : String) :
    (memo.forget forgotten).read id content =
      if id = forgotten then Markup.parse content else memo.read id content := by
  by_cases same : id = forgotten
  · simp [read, lookup?, forget, same]
  · simp [read, lookup?, forget, getElem?_erase_eq, same]

/-- Forgetting a definition makes up for any change of it. -/
theorem Sound.forget (sound : memo.Sound store) {forgotten : DefinitionId}
    (same : ∀ (id : DefinitionId) (definition : Definition), id ≠ forgotten →
      other.definition? .template id = some definition →
      store.definition? .template id = some definition) :
    (memo.forget forgotten).Sound other := by
  intro id definition stored
  rw [read_forget]
  split
  · rfl
  · next different => exact sound id definition (same id definition different stored)

theorem Sound.of_definitions (sound : memo.Sound store)
    (same : ∀ (id : DefinitionId) (definition : Definition),
      other.definition? .template id = some definition →
      store.definition? .template id = some definition) : memo.Sound other :=
  fun id definition stored => sound id definition (same id definition stored)

end Markup.ParseMemo

/-! ## What compilation sees -/

namespace BuildInputs

variable {inputs : BuildInputs MemoryStore}

theorem phrase?_eq (inputs : BuildInputs MemoryStore) (name : String) (language : Position) :
    inputs.phrase? name language =
      (effective? inputs.store inputs.scheme .phrase name language).bind Prod.snd := by
  change (inputs.scheme.phrases.resolve? name language >>= _) =
    ((inputs.scheme.phrases.resolve? name language).map _).bind Prod.snd
  cases inputs.scheme.phrases.resolve? name language with
  | none => rfl
  | some id =>
      simp only [Option.bind_eq_bind, Option.bind_some, Option.map_some, Store.load]
      cases inputs.store.definition? .phrase id <;> rfl

theorem source?_eq_some_iff {name source : String} {style : Position} {id : DefinitionId} :
    inputs.source? name style = some (id, source) ↔
      effective? inputs.store inputs.scheme .template name style = some (id, some source) := by
  change (inputs.scheme.templates.resolve? name style >>= _) = _ ↔
    (inputs.scheme.templates.resolve? name style).map _ = _
  cases inputs.scheme.templates.resolve? name style with
  | none => simp
  | some found =>
      simp only [Option.bind_eq_bind, Option.bind_some, Option.map_some, Store.load]
      cases inputs.store.definition? .template found with
      | none => simp
      | some definition => simp

theorem definition?_of_source? {name source : String} {style : Position} {id : DefinitionId}
    (found : inputs.source? name style = some (id, source)) :
    ∃ definition, inputs.store.definition? .template id = some definition ∧
      definition.content = source := by
  rw [source?_eq_some_iff, effective?, Option.map_eq_some_iff] at found
  rcases found with ⟨resolved, _, same⟩
  rw [Prod.mk.injEq, Option.map_eq_some_iff] at same
  rcases same with ⟨rfl, definition, stored, content⟩
  exact ⟨definition, stored, content⟩

theorem template_eq (sound : inputs.memo.Sound inputs.store) (name : String) (style : Position) :
    inputs.template name style = Environment.parseSource?
      ((effective? inputs.store inputs.scheme .template name style).bind Prod.snd) := by
  unfold template
  split
  · next missing =>
      cases inEffect : effective? inputs.store inputs.scheme .template name style with
      | none => rfl
      | some pair =>
          rcases pair with ⟨id, content⟩
          cases content with
          | none => rfl
          | some source =>
              rw [← source?_eq_some_iff, missing] at inEffect
              cases inEffect
  · next id source found =>
      rcases definition?_of_source? found with ⟨definition, stored, rfl⟩
      rw [source?_eq_some_iff.mp found, Option.bind_some, sound id definition stored]
      rfl

section

variable {σ : Type} [Store σ]

theorem load_of_source? {inputs : BuildInputs σ} {name source : String} {style : Position}
    {id : DefinitionId} (found : inputs.source? name style = some (id, source)) :
    ∃ definition, Store.load inputs.store .template id = .ok definition ∧ definition.content = source := by
  rw [source?, Option.bind_eq_bind, Option.bind_eq_some_iff] at found
  rcases found with ⟨resolved, _, loaded⟩
  split at loaded
  · next definition stored =>
      rw [Option.some.injEq, Prod.mk.injEq] at loaded
      rcases loaded with ⟨rfl, content⟩
      exact ⟨definition, stored, content⟩
  · cases loaded

/-- Learning trees does not change how anything stored is read. -/
theorem readsAs_learn (inputs : BuildInputs σ) (style : Position) (names : List String) :
    ParseMemo.ReadsAs inputs.store inputs.memo (inputs.learn style names) := by
  unfold learn
  generalize inputs.memo = memo
  induction names generalizing memo with
  | nil => exact .refl inputs.store memo
  | cons name rest inductionHypothesis =>
      rw [List.foldl_cons]
      refine .trans ?_ (inductionHypothesis _)
      split
      · next id source found =>
          rcases load_of_source? found with ⟨definition, stored, rfl⟩
          exact ParseMemo.readsAs_learn stored memo
      · exact .refl inputs.store memo

theorem readsAs_learnFrom (inputs : BuildInputs σ) (key : ArtifactKey) (outcome : Outcome) :
    ParseMemo.ReadsAs inputs.store inputs.memo (inputs.learnFrom key outcome) := by
  unfold learnFrom
  split
  · split
    · exact inputs.readsAs_learn _ _
    · exact .refl _ _
  · exact .refl _ _

variable {first second : BuildInputs σ}

/-- Compilation sees what can be loaded, how names resolve and how templates are read. -/
theorem environment_eq_of_readsAs
    (loads : ∀ kind id, Store.load second.store kind id = Store.load first.store kind id)
    (scheme : second.scheme = first.scheme)
    (reads : ParseMemo.ReadsAs first.store first.memo second.memo) :
    second.environment = first.environment := by
  have templates : second.template = first.template := by
    funext name style
    have sources : second.source? name style = first.source? name style := by
      simp only [source?, scheme, loads]
    rw [template, template, sources]
    cases found : first.source? name style with
    | none => rfl
    | some pair =>
        rcases pair with ⟨id, source⟩
        rcases load_of_source? found with ⟨definition, stored, rfl⟩
        exact congrArg (Except.map some) (reads id definition stored)
  have phrases : second.phrase? = first.phrase? := by
    funext name language
    simp only [phrase?, scheme, loads]
  simp only [environment, Compile.Environment.mk.injEq]
  exact ⟨templates, phrases, by rw [scheme]⟩

/-- So does a build. -/
theorem build_eq_of_readsAs
    (loads : ∀ kind id, Store.load second.store kind id = Store.load first.store kind id)
    (scheme : second.scheme = first.scheme) (registry : second.registry = first.registry)
    (reads : ParseMemo.ReadsAs first.store first.memo second.memo) (key : ArtifactKey) :
    second.build key = first.build key := by
  cases key with
  | phrase language name => simp only [build, buildPhrase, scheme, loads]
  | template style language name =>
      have compiled : second.compileTree = first.compileTree := by
        funext style language name tree
        simp only [compileTree, environment_eq_of_readsAs loads scheme reads, registry]
      simp only [build, buildTemplate, scheme, loads]
      split
      · cases first.scheme.templates.resolve? name style with
        | none => rfl
        | some id =>
            cases stored : Store.load first.store .template id with
            | error error => simp only [stored]
            | ok definition => simp only [stored, reads id definition stored, compiled]
      · rfl

/-- Targets are built one like the other, whatever is learnt in between. -/
theorem buildAll_eq_map_build (inputs : BuildInputs σ) (targets : List (ArtifactKey × Bool)) :
    (inputs.buildAll targets).1 =
        targets.map (fun target => (target.1, target.2, inputs.build target.1)) ∧
      ParseMemo.ReadsAs inputs.store inputs.memo (inputs.buildAll targets).2 := by
  induction targets generalizing inputs with
  | nil => exact ⟨rfl, .refl _ _⟩
  | cons target rest inductionHypothesis =>
      rcases target with ⟨key, direct⟩
      have learned := inputs.readsAs_learnFrom key (inputs.build key)
      rcases inductionHypothesis { inputs with memo := inputs.learnFrom key (inputs.build key) } with
        ⟨others, reads⟩
      have same := fun other : ArtifactKey => @build_eq_of_readsAs _ _ inputs
        { inputs with memo := inputs.learnFrom key (inputs.build key) } (fun _ _ => rfl) rfl rfl learned other
      simp only [same] at others
      exact ⟨congrArg _ others, learned.trans reads⟩

end

theorem validate_sound (sound : inputs.memo.Sound inputs.store) (name source : String)
    (style : Position) : (inputs.validate name source style).2.Sound inputs.store := by
  unfold validate
  split
  · exact sound
  · split
    · exact sound.of_readsAs (inputs.readsAs_learn _ _)
    · exact sound.of_readsAs (inputs.readsAs_learn _ _)

/-! ## Building -/

/-- What is built for a key whose own name has some content in effect. -/
def buildContent (inputs : BuildInputs MemoryStore) (content : String) : ArtifactKey → Outcome
  | .template style language name =>
      match Markup.parse content with
      | .error errors =>
          .failed ((Compile.CompileError.ofParseErrors errors).diagnostic name) Uses.none
      | .ok tree => inputs.compileTree style language name tree
  | .phrase _ _ => .built (Compile.phraseCode content) Uses.none

theorem build_eq (sound : inputs.memo.Sound inputs.store) (key : ArtifactKey) :
    inputs.build key =
      match own? inputs.store inputs.scheme key with
      | none => .unresolved
      | some (id, none) =>
          .failed (storeDiagnostic key.name (.missingDefinition key.kind id)) Uses.none
      | some (_, some content) => inputs.buildContent content key := by
  cases key with
  | template style language name =>
      have inEffect : effective? inputs.store inputs.scheme .template name style =
          (inputs.scheme.templates.resolve? name style).map fun id =>
            (id, (inputs.store.definition? .template id).map Definition.content) := rfl
      simp only [build, buildTemplate, own?, inEffect]
      split
      · cases inputs.scheme.templates.resolve? name style with
        | none => rfl
        | some id =>
            simp only [Option.map_some, Store.load]
            cases stored : inputs.store.definition? .template id with
            | none => rfl
            | some definition =>
                have parsed := sound id definition stored
                cases outcome : Markup.parse definition.content with
                | error errors => simp only [Option.map_some, buildContent, parsed, outcome]
                | ok tree => simp only [Option.map_some, buildContent, parsed, outcome]
      · rfl
  | phrase language name =>
      have inEffect : effective? inputs.store inputs.scheme .phrase name language =
          (inputs.scheme.phrases.resolve? name language).map fun id =>
            (id, (inputs.store.definition? .phrase id).map Definition.content) := rfl
      simp only [build, buildPhrase, own?, inEffect]
      cases inputs.scheme.phrases.resolve? name language with
      | none => rfl
      | some id =>
          simp only [Option.map_some, Store.load]
          cases inputs.store.definition? .phrase id <;> rfl

theorem build_eq_unresolved_iff (sound : inputs.memo.Sound inputs.store) :
    inputs.build key = .unresolved ↔ own? inputs.store inputs.scheme key = none := by
  rw [build_eq sound]
  rcases own? inputs.store inputs.scheme key with _ | ⟨id, _ | content⟩
  · simp
  · simp
  · cases key with
    | template style language name =>
        simp only [buildContent, compileTree, reduceCtorEq, iff_false]
        split
        · simp
        · split <;> simp
    | phrase language name => simp [buildContent]

/-- The names that a compilation has noted are those of its outcome. -/
theorem uses_compileTree (inputs : BuildInputs MemoryStore) (style language : Position)
    (name : String) (tree : Template) :
    (inputs.compileTree style language name tree).uses =
      Compile.usesOf (Compile.compileTemplate inputs.environment inputs.registry
        ⟨style, language, true⟩ name tree) := by
  unfold compileTree
  split
  · next compiled outcome => rw [outcome]; rfl
  · next failure outcome => rw [outcome]; rfl

/-- Two builds of one tree are the same if the same is in effect for what the first one has noted. -/
theorem compileTree_eq {first second : BuildInputs MemoryStore}
    (firstBuiltIn : first.registry = Registry.builtIn)
    (secondBuiltIn : second.registry = Registry.builtIn)
    (firstSound : first.memo.Sound first.store) (secondSound : second.memo.Sound second.store)
    {style language : Position} {name : String} {tree : Template}
    (alike : Alike first.store second.store first.scheme second.scheme
      (.template style language name) (first.compileTree style language name tree).uses) :
    second.compileTree style language name tree = first.compileTree style language name tree := by
  have same : Compile.compileTemplate second.environment Registry.builtIn ⟨style, language, true⟩
      name tree = Compile.compileTemplate first.environment Registry.builtIn ⟨style, language, true⟩
      name tree := by
    refine Compile.outcome_eq_of_after_eq ((Compile.template_follows first.environment
      second.environment ⟨style, language, true⟩ name tree).same Uses.none ?_)
    rw [uses_compileTree, firstBuiltIn, Compile.compileTemplate, Compile.usesOf_outcome] at alike
    refine ⟨fun noted member => ?_, fun noted member => ?_⟩
    · change first.template noted style = second.template noted style
      rw [template_eq firstSound, template_eq secondSound, alike.includes_eq noted member style rfl]
    · change first.phrase? noted language = second.phrase? noted language
      have inEffect := alike.phrases_eq noted member
      rw [phrase?_eq, phrase?_eq]
      exact (congrArg (fun found => Option.bind found Prod.snd) inEffect).symm
  unfold compileTree
  rw [firstBuiltIn, secondBuiltIn, same]

/--
A build depends on the store and the scheme only through what is in effect for its key and for the names
that it notes.
-/
theorem build_eq_of_alike {first second : BuildInputs MemoryStore}
    (firstBuiltIn : first.registry = Registry.builtIn)
    (secondBuiltIn : second.registry = Registry.builtIn)
    (firstSound : first.memo.Sound first.store) (secondSound : second.memo.Sound second.store)
    (alike : Alike first.store second.store first.scheme second.scheme key (first.build key).uses) :
    second.build key = first.build key := by
  rw [build_eq firstSound] at alike ⊢
  rw [build_eq secondSound, alike.own_eq]
  rcases inEffect : own? first.store first.scheme key with _ | ⟨id, _ | content⟩
  · rfl
  · rfl
  · rw [inEffect] at alike
    cases key with
    | phrase language name => rfl
    | template style language name =>
        simp only [buildContent] at alike ⊢
        cases parsed : Markup.parse content with
        | error errors => rfl
        | ok tree =>
            simp only [parsed] at alike
            exact compileTree_eq firstBuiltIn secondBuiltIn firstSound secondSound alike

variable {first second : BuildInputs MemoryStore}

/-- Two memos that are right read every stored template alike. -/
theorem readsAs_of_sound (sound : first.memo.Sound first.store) (otherSound : second.memo.Sound second.store)
    (definitions : second.store.definitions = first.store.definitions) :
    ParseMemo.ReadsAs first.store first.memo second.memo := by
  intro id definition loaded
  simp only [Store.load] at loaded
  split at loaded
  · next found stored =>
      cases loaded
      rw [sound id definition stored]
      rw [MemoryStore.definition?, ← definitions] at stored
      exact otherSound id definition stored
  · cases loaded

theorem load_of_definitions {store other : MemoryStore} (definitions : other.definitions = store.definitions)
    (kind : DefinitionKind) (id : DefinitionId) : Store.load other kind id = Store.load store kind id := by
  simp only [Store.load, MemoryStore.definition?, definitions]

/-- Compilation sees the definitions and the scheme, and trees that are remembered make no difference. -/
theorem environment_eq_of_definitions (sound : first.memo.Sound first.store)
    (otherSound : second.memo.Sound second.store)
    (definitions : second.store.definitions = first.store.definitions)
    (scheme : second.scheme = first.scheme) : second.environment = first.environment :=
  environment_eq_of_readsAs (load_of_definitions definitions) scheme
    (readsAs_of_sound sound otherSound definitions)

theorem build_eq_of_definitions (sound : first.memo.Sound first.store)
    (otherSound : second.memo.Sound second.store)
    (definitions : second.store.definitions = first.store.definitions)
    (scheme : second.scheme = first.scheme) (registry : second.registry = first.registry)
    (key : ArtifactKey) : second.build key = first.build key :=
  build_eq_of_readsAs (load_of_definitions definitions) scheme registry
    (readsAs_of_sound sound otherSound definitions) key

end BuildInputs

/-! ## Building from scratch -/

/-- What building a key gives when nothing is remembered. -/
def fresh (store : MemoryStore) (scheme : InheritanceScheme) (key : ArtifactKey) : Outcome :=
  BuildInputs.build ⟨store, scheme, Registry.builtIn, ParseMemo.empty⟩ key

theorem fresh_eq_of_alike (alike : Alike store other scheme otherScheme key
    (fresh store scheme key).uses) : fresh other otherScheme key = fresh store scheme key :=
  BuildInputs.build_eq_of_alike rfl rfl (ParseMemo.sound_empty store) (ParseMemo.sound_empty other)
    alike

theorem fresh_eq_unresolved_iff : fresh store scheme key = .unresolved ↔ own? store scheme key = none :=
  BuildInputs.build_eq_unresolved_iff (ParseMemo.sound_empty store)

namespace BuildInputs

variable {inputs : BuildInputs MemoryStore}

theorem buildAll_sound (sound : inputs.memo.Sound inputs.store)
    (targets : List (ArtifactKey × Bool)) : (inputs.buildAll targets).2.Sound inputs.store :=
  sound.of_readsAs (inputs.buildAll_eq_map_build targets).2

/-- The inputs when all trees are forgotten. -/
def forgetful (inputs : BuildInputs MemoryStore) : BuildInputs MemoryStore :=
  { inputs with memo := ParseMemo.empty }

/-- Every target has the outcome that it has when nothing is remembered. -/
theorem buildAll_eq_of_sound (sound : inputs.memo.Sound inputs.store)
    (targets : List (ArtifactKey × Bool)) :
    (inputs.buildAll targets).1 =
      targets.map fun target => (target.1, target.2, inputs.forgetful.build target.1) := by
  have soundEmpty : inputs.forgetful.memo.Sound inputs.forgetful.store :=
    ParseMemo.sound_empty inputs.store
  have forgotten := fun key => build_eq_of_definitions soundEmpty sound rfl rfl rfl key
  rw [(inputs.buildAll_eq_map_build targets).1]
  simp only [forgotten]

/-- Targets are all built as if from scratch. -/
theorem buildAll_eq_map (builtIn : inputs.registry = Registry.builtIn)
    (sound : inputs.memo.Sound inputs.store) (targets : List (ArtifactKey × Bool)) :
    (inputs.buildAll targets).1 =
      targets.map fun target => (target.1, target.2, fresh inputs.store inputs.scheme target.1) := by
  rw [buildAll_eq_of_sound sound targets, forgetful, builtIn]
  rfl

end BuildInputs

end TemplateCascade
