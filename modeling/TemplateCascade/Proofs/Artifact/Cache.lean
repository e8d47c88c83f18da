import Mathlib
import TemplateCascade.Artifact.Cache

namespace TemplateCascade

/-!
# What the cache does with a key

What a removal and a failure do depends on whether an artifact is held under their key.  Both cases of both
are given in full.
-/

open Compile (Diagnostic Uses)

namespace ArtifactCache

variable {cache : ArtifactCache} {key : ArtifactKey} {artifact : Artifact}

theorem remove_of_absent (absent : cache.get? key = none) : cache.remove key = (cache, none) := by
  rw [remove, absent]

theorem remove_of_held (held : cache.get? key = some artifact) :
    cache.remove key =
      ({ cache with
          artifacts := cache.artifacts.erase key
          removed := cache.removed + 1 }, some artifact) := by
  rw [remove, held]

theorem markStale_of_absent (absent : cache.get? key = none) (diagnostic : Diagnostic) (uses : Uses) :
    cache.markStale key diagnostic uses = (cache.recordFailure, none) := by
  rw [markStale, absent]

theorem markStale_of_held (held : cache.get? key = some artifact) (diagnostic : Diagnostic)
    (uses : Uses) :
    cache.markStale key diagnostic uses =
      ({ cache.recordFailure with
          artifacts := cache.artifacts.insert key (aged artifact diagnostic uses) },
        some (aged artifact diagnostic uses)) := by
  rw [markStale, held]
  rfl

end ArtifactCache
end TemplateCascade
