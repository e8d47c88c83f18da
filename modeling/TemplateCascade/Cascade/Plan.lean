import TemplateCascade.Artifact.Dependencies
import TemplateCascade.Inheritance.Scheme

namespace TemplateCascade

/-!
# Planning a cascade

A change affects a name at certain positions.  What has to be built again for it are the name's own
artifacts at these positions, and the artifacts at these positions that depend on the name.  The
artifacts of a template are affected at its style, for every language; those that a phrase is written
into are affected at their language.
-/

/-- A name, and the positions where a change has affected it. -/
structure Affected where
  kind : DefinitionKind
  name : String
  positions : Std.ExtTreeSet Position

/--
The keys of artifacts to build, each with whether the change is to the artifact's own name.
-/
abbrev Targets := Std.ExtTreeMap ArtifactKey Bool

namespace Targets

/-- Add a target.  It is a direct one if it was or now is. -/
def add (targets : Targets) (target : ArtifactKey × Bool) : Targets :=
  targets.insert target.1 (targets[target.1]?.getD false || target.2)

def ofList (targets : List (ArtifactKey × Bool)) : Targets :=
  targets.foldl add ∅

/-- Targets whose own names have changed. -/
def direct (keys : List ArtifactKey) : Targets :=
  ofList (keys.map fun key => (key, true))

end Targets

namespace Affected

/-- The keys of a name's own artifacts at the affected positions. -/
def ownKeys (affected : Affected) (languages : List Position) : List ArtifactKey :=
  match affected.kind with
  | .template =>
      affected.positions.toList.flatMap fun style =>
        languages.map fun language => .template style language affected.name
  | .phrase => affected.positions.toList.map fun language => .phrase language affected.name

/-- The keys of the artifacts at the affected positions that depend on the name. -/
def userKeys (affected : Affected) (dependencies : Dependencies) : List ArtifactKey :=
  match affected.kind with
  | .template =>
      (dependencies.includersOf affected.name).filter fun key =>
        key.style?.any affected.positions.contains
  | .phrase =>
      (dependencies.phraseUsersOf affected.name).filter fun key =>
        affected.positions.contains key.language

/-- What has to be built for an affected name. -/
def targets (affected : Affected) (languages : List Position) (dependencies : Dependencies) :
    List (ArtifactKey × Bool) :=
  ((affected.ownKeys languages).map fun key => (key, true)) ++
    (affected.userKeys dependencies).map fun key => (key, false)

end Affected

/-- What has to be built for affected names. -/
def plan (affected : List Affected) (languages : List Position) (dependencies : Dependencies) :
    Targets :=
  Targets.ofList (affected.flatMap fun change => change.targets languages dependencies)

namespace InheritanceScheme

/-- The keys of every template at every style where it resolves, for one language. -/
def templateKeys (scheme : InheritanceScheme) (language : Position) : List ArtifactKey :=
  scheme.templates.names.flatMap fun name =>
    (scheme.templates.positions name).map fun style => .template style language name

/-- The keys of every phrase at every language where it resolves. -/
def phraseKeys (scheme : InheritanceScheme) : List ArtifactKey :=
  scheme.phrases.names.flatMap fun name =>
    (scheme.phrases.positions name).map fun language => .phrase language name

/-- The keys of all artifacts that there should be. -/
def allKeys (scheme : InheritanceScheme) : List ArtifactKey :=
  scheme.languages.breadthFirst.flatMap scheme.templateKeys ++ scheme.phraseKeys

end InheritanceScheme

end TemplateCascade
