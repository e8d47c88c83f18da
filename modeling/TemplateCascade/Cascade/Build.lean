import TemplateCascade.Cascade.Plan
import TemplateCascade.Compile.Template
import TemplateCascade.Markup.ParseMemo
import TemplateCascade.Store.Basic

namespace TemplateCascade

/-!
# Building one artifact

What is built for a key depends on the store, the inheritance scheme, the registered functions and the
remembered trees, and on nothing else.  Building changes none of them; the trees that it has read are
remembered afterwards.
-/

open Compile (Diagnostic Environment Uses)
open Markup (ParseErrors ParseMemo Template)

/-- What comes of building the artifact for a key. -/
inductive Outcome where
  | built (code : Code) (uses : Uses)
  | failed (diagnostic : Diagnostic) (uses : Uses)
  /-- The name of the key does not resolve at its position. -/
  | unresolved

/-- The names that a build has asked for. -/
def Outcome.uses : Outcome → Uses
  | .built _ uses | .failed _ uses => uses
  | .unresolved => Uses.none

/-- Everything that builds read. -/
structure BuildInputs (σ : Type) where
  store : σ
  scheme : InheritanceScheme
  registry : Compile.Registry
  memo : ParseMemo

/-- The diagnostic of a definition that the store does not give. -/
def storeDiagnostic (name : String) (error : StoreError) : Diagnostic :=
  ⟨error.message, 0, 1, 1, name⟩

namespace BuildInputs

variable {σ : Type} [Store σ]

/-- The text of a phrase at a language, if it resolves and can be loaded. -/
def phrase? (inputs : BuildInputs σ) (name : String) (language : Position) : Option String := do
  let id ← inputs.scheme.phrases.resolve? name language
  match Store.load inputs.store .phrase id with
  | .ok definition => some definition.content
  | .error _ => none

/-- The number and source of a template at a style, if it resolves and can be loaded. -/
def source? (inputs : BuildInputs σ) (name : String) (style : Position) :
    Option (DefinitionId × String) := do
  let id ← inputs.scheme.templates.resolve? name style
  match Store.load inputs.store .template id with
  | .ok definition => some (id, definition.content)
  | .error _ => none

/-- The tree of a template at a style. -/
def template (inputs : BuildInputs σ) (name : String) (style : Position) :
    Except ParseErrors (Option Template) :=
  match inputs.source? name style with
  | none => .ok none
  | some (id, source) => (inputs.memo.read id source).map some

/-- A template that is found is one of the names that resolve somewhere. -/
theorem mem_names_of_template (inputs : BuildInputs σ) (name : String) (style : Position)
    (present : inputs.template name style ≠ .ok none) : name ∈ inputs.scheme.templates.names := by
  cases entry : inputs.scheme.templates.entries[name]? with
  | none =>
      have unresolved : inputs.scheme.templates.resolve? name style = none := by
        simp [ResolutionMap.resolve?, ResolutionMap.resolvedOf, entry]
      simp [template, source?, unresolved] at present
  | some resolved =>
      rw [ResolutionMap.names, Std.ExtTreeMap.mem_keys, Std.ExtTreeMap.mem_iff_isSome_getElem?, entry]
      rfl

/-- What compilation sees of the store. -/
def environment (inputs : BuildInputs σ) : Environment where
  template := inputs.template
  phrase := inputs.phrase?
  names := inputs.scheme.templates.names
  mem_names := inputs.mem_names_of_template

/-- Compile a template's tree for a style and a language. -/
def compileTree (inputs : BuildInputs σ) (style language : Position) (name : String)
    (tree : Template) : Outcome :=
  match Compile.compileTemplate inputs.environment inputs.registry ⟨style, language, true⟩ name tree with
  | .ok compiled => .built compiled.code compiled.uses
  | .error failure => .failed (failure.error.diagnostic name) failure.uses

/-- Build a template for a style and a language. -/
def buildTemplate (inputs : BuildInputs σ) (style language : Position) (name : String) : Outcome :=
  if inputs.scheme.languages.contains language then
    match inputs.scheme.templates.resolve? name style with
    | none => .unresolved
    | some id =>
        match Store.load inputs.store .template id with
        | .error error => .failed (storeDiagnostic name error) Uses.none
        | .ok definition =>
            match inputs.memo.read id definition.content with
            | .error errors =>
                .failed ((Compile.CompileError.ofParseErrors errors).diagnostic name) Uses.none
            | .ok tree => inputs.compileTree style language name tree
  else .unresolved

/-- Build a phrase for a language. -/
def buildPhrase (inputs : BuildInputs σ) (language : Position) (name : String) : Outcome :=
  match inputs.scheme.phrases.resolve? name language with
  | none => .unresolved
  | some id =>
      match Store.load inputs.store .phrase id with
      | .ok definition => .built (Compile.phraseCode definition.content) Uses.none
      | .error error => .failed (storeDiagnostic name error) Uses.none

/-- Build the artifact for a key. -/
def build (inputs : BuildInputs σ) : ArtifactKey → Outcome
  | .template style language name => inputs.buildTemplate style language name
  | .phrase language name => inputs.buildPhrase language name

/-- Remember the trees of some templates at a style. -/
def learn (inputs : BuildInputs σ) (style : Position) (names : List String) : ParseMemo :=
  names.foldl (fun memo name =>
    match inputs.source? name style with
    | some (id, source) => memo.learn id source
    | none => memo) inputs.memo

/-- The remembered trees after a build: with those of the template and of all that it asked for. -/
def learnFrom (inputs : BuildInputs σ) (key : ArtifactKey) (outcome : Outcome) : ParseMemo :=
  match key with
  | .template style language name =>
      if inputs.scheme.languages.contains language then
        inputs.learn style (name :: outcome.uses.includes.toList)
      else inputs.memo
  | .phrase _ _ => inputs.memo

/-- Build targets in turn, and remember the trees that were read. -/
def buildAll (inputs : BuildInputs σ) :
    List (ArtifactKey × Bool) → List (ArtifactKey × Bool × Outcome) × ParseMemo
  | [] => ([], inputs.memo)
  | (key, direct) :: rest =>
      let outcome := inputs.build key
      let (outcomes, memo) := buildAll { inputs with memo := inputs.learnFrom key outcome } rest
      ((key, direct, outcome) :: outcomes, memo)

/--
Compile a source that is to be stored, without following inclusions, for the language at the root.
The diagnostics say why it is not fit to be stored, and there are none when it is.
-/
def validate (inputs : BuildInputs σ) (name source : String) (style : Position) :
    List Diagnostic × ParseMemo :=
  match Markup.parse source with
  | .error errors => (errors.toList.map (Diagnostic.ofParseError name), inputs.memo)
  | .ok tree =>
      match Compile.compileTemplate inputs.environment inputs.registry
          ⟨style, rootPosition, false⟩ name tree with
      | .ok compiled => ([], inputs.learn style compiled.uses.includes.toList)
      | .error failure =>
          ([failure.error.diagnostic name], inputs.learn style failure.uses.includes.toList)

end BuildInputs

end TemplateCascade
