import TemplateCascade.Artifact.Key
import TemplateCascade.Code.Basic
import TemplateCascade.Compile.Pending

namespace TemplateCascade

/-!
# Artifacts

An artifact is the code that was generated for a key, with the names that it was generated from and the
generation it was built in.  When it cannot be built again after a change, it may stay in use as it is,
and then carries the diagnostic of the failure.
-/

/-- Whether the code of an artifact is that of the current definitions. -/
inductive ArtifactStatus where
  | current
  /-- The last compilation failed, and the code is that of the last one that did not. -/
  | stale (diagnostic : Compile.Diagnostic)
deriving DecidableEq, Repr

/-- Generated code in use. -/
structure Artifact where
  key : ArtifactKey
  code : Code
  /-- The number of the build that the code is from. -/
  generation : Nat
  status : ArtifactStatus
  /-- The names of the templates and phrases that the artifact depends on. -/
  uses : Compile.Uses

namespace Artifact

/-- The diagnostic of an artifact that is not current. -/
def staleDiagnostic? (artifact : Artifact) : Option Compile.Diagnostic :=
  match artifact.status with
  | .current => none
  | .stale diagnostic => some diagnostic

def isStale (artifact : Artifact) : Bool :=
  artifact.staleDiagnostic?.isSome

end Artifact

end TemplateCascade
