import TemplateCascade.Artifact.Key
import TemplateCascade.Compile.Error

namespace TemplateCascade

/-!
# What a cascade has done

A report lists what a change has led to: artifacts that were built again, artifacts that are no longer
in use and artifacts that could not be built.  Reports of one change that are made in turn are joined
in that order.
-/

/-- An artifact that could not be built. -/
structure CascadeFailure where
  key : ArtifactKey
  diagnostic : Compile.Diagnostic
  /-- Whether the change was to the artifact's own name, and not to one that it depends on. -/
  direct : Bool
deriving DecidableEq, Repr

/-- What one change has led to. -/
structure CascadeReport where
  /-- The artifacts that were built, with their new generations. -/
  recompiled : List (ArtifactKey × Nat)
  /-- The artifacts that were taken out of use because nothing calls for them any more. -/
  removed : List ArtifactKey
  failures : List CascadeFailure
deriving DecidableEq, Repr

namespace CascadeReport

def empty : CascadeReport := ⟨[], [], []⟩

/-- A report and then another one. -/
def append (first second : CascadeReport) : CascadeReport :=
  ⟨first.recompiled ++ second.recompiled, first.removed ++ second.removed,
    first.failures ++ second.failures⟩

instance : Append CascadeReport := ⟨append⟩

/-- Whether nothing has failed. -/
def isClean (report : CascadeReport) : Bool :=
  report.failures.isEmpty

def isEmpty (report : CascadeReport) : Bool :=
  report.recompiled.isEmpty && report.removed.isEmpty && report.failures.isEmpty

/-- The generation that an artifact was built in. -/
def generationOf? (report : CascadeReport) (key : ArtifactKey) : Option Nat :=
  (report.recompiled.find? fun built => built.1 == key).map Prod.snd

def wasRecompiled (report : CascadeReport) (key : ArtifactKey) : Bool :=
  (report.generationOf? key).isSome

def wasRemoved (report : CascadeReport) (key : ArtifactKey) : Bool :=
  report.removed.contains key

def failure? (report : CascadeReport) (key : ArtifactKey) : Option CascadeFailure :=
  report.failures.find? fun failure => failure.key == key

end CascadeReport

end TemplateCascade
