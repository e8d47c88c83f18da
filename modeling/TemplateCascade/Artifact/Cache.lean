import Std.Data.ExtTreeMap
import TemplateCascade.Artifact.Basic

namespace TemplateCascade

/-!
# The artifact cache

The cache holds one artifact for a key at most.  Every installation draws the next number of a
sequence of generations.  An artifact that has gone stale keeps the number of the build its code is
from, and depends on everything that the build and the failed attempt depend on: a change of any of it
is a reason to try again.
-/

open Compile (Diagnostic Uses)

/-- The artifacts in use, with counts of what has happened. -/
structure ArtifactCache where
  artifacts : Std.ExtTreeMap ArtifactKey Artifact
  /-- The generation that the next installation draws. -/
  nextGeneration : Nat
  compiled : Nat
  failed : Nat
  removed : Nat

namespace ArtifactCache

def empty : ArtifactCache := ⟨∅, 1, 0, 0, 0⟩

def get? (cache : ArtifactCache) (key : ArtifactKey) : Option Artifact :=
  cache.artifacts[key]?

def contains (cache : ArtifactCache) (key : ArtifactKey) : Bool :=
  cache.artifacts.contains key

def size (cache : ArtifactCache) : Nat :=
  cache.artifacts.size

/-- The keys in ascending order. -/
def keys (cache : ArtifactCache) : List ArtifactKey :=
  cache.artifacts.keys

/-- The artifact that an installation under the next generation makes. -/
def next (cache : ArtifactCache) (key : ArtifactKey) (code : Code) (uses : Uses) : Artifact :=
  ⟨key, code, cache.nextGeneration, .current, uses⟩

/-- Install freshly generated code, in place of any other under its key. -/
def install (cache : ArtifactCache) (key : ArtifactKey) (code : Code) (uses : Uses) :
    ArtifactCache × Artifact :=
  let artifact := cache.next key code uses
  ({ cache with
      artifacts := cache.artifacts.insert key artifact
      nextGeneration := cache.nextGeneration + 1
      compiled := cache.compiled + 1 }, artifact)

/-- An artifact after a failed attempt to build it again. -/
def aged (artifact : Artifact) (diagnostic : Diagnostic) (uses : Uses) : Artifact :=
  { artifact with status := .stale diagnostic, uses := uses.union artifact.uses }

/-- Count a failure. -/
def recordFailure (cache : ArtifactCache) : ArtifactCache :=
  { cache with failed := cache.failed + 1 }

/-- Count a failure, and mark as stale what is there under the key. -/
def markStale (cache : ArtifactCache) (key : ArtifactKey) (diagnostic : Diagnostic) (uses : Uses) :
    ArtifactCache × Option Artifact :=
  let counted := cache.recordFailure
  match cache.get? key with
  | none => (counted, none)
  | some previous =>
      let stale := aged previous diagnostic uses
      ({ counted with artifacts := counted.artifacts.insert key stale }, some stale)

/-- Take an artifact out of use, and count it if it was there. -/
def remove (cache : ArtifactCache) (key : ArtifactKey) : ArtifactCache × Option Artifact :=
  match cache.get? key with
  | none => (cache, none)
  | some artifact =>
      ({ cache with
          artifacts := cache.artifacts.erase key
          removed := cache.removed + 1 }, some artifact)

/-- Drop all artifacts.  The sequence of generations goes on. -/
def clear (cache : ArtifactCache) : ArtifactCache :=
  { cache with artifacts := ∅ }

/-- The highest generation of some artifacts, or zero. -/
def highestGeneration (artifacts : List Artifact) : Nat :=
  artifacts.foldl (fun highest artifact => max highest artifact.generation) 0

/--
Take artifacts over that were built before.  The sequence of generations goes on behind the highest
of theirs.
-/
def restore (cache : ArtifactCache) (artifacts : List Artifact) : ArtifactCache :=
  { cache with
    artifacts := artifacts.foldl (fun known artifact => known.insert artifact.key artifact)
      cache.artifacts
    nextGeneration := max cache.nextGeneration (highestGeneration artifacts + 1) }

end ArtifactCache

end TemplateCascade
