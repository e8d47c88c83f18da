import Std.Data.ExtTreeMap
import Std.Data.ExtTreeSet
import TemplateCascade.Artifact.Key
import TemplateCascade.Compile.Pending

namespace TemplateCascade

/-!
# Dependencies

The names that every artifact depends on are kept both by artifact and by name.  What an artifact
depends on is recorded with everything that it reaches through inclusions, so that the artifacts
listed under a name are all that a change of the name can affect.  A name that nothing depends on is
not listed.
-/

open Compile (Uses)

/-- The artifacts that depend on a name, by name. -/
abbrev UserIndex := Std.ExtTreeMap String (Std.ExtTreeSet ArtifactKey)

namespace UserIndex

/-- The artifacts that depend on a name. -/
def usersOf (index : UserIndex) (name : String) : Std.ExtTreeSet ArtifactKey :=
  index[name]?.getD ∅

/-- List an artifact under a name. -/
def link (key : ArtifactKey) (index : UserIndex) (name : String) : UserIndex :=
  index.insert name ((index.usersOf name).insert key)

/-- Strike an artifact from the list under a name, and the name with its last artifact. -/
def unlink (key : ArtifactKey) (index : UserIndex) (name : String) : UserIndex :=
  let users := (index.usersOf name).erase key
  if users.isEmpty then index.erase name else index.insert name users

end UserIndex

/-- What artifacts depend on, by artifact and by name. -/
structure Dependencies where
  uses : Std.ExtTreeMap ArtifactKey Uses
  includers : UserIndex
  phraseUsers : UserIndex

namespace Dependencies

def empty : Dependencies := ⟨∅, ∅, ∅⟩

/-- What an artifact depends on, if that is recorded. -/
def usesOf? (dependencies : Dependencies) (key : ArtifactKey) : Option Uses :=
  dependencies.uses[key]?

/-- Strike an artifact from the lists of the names it depends on. -/
def unlink (dependencies : Dependencies) (key : ArtifactKey) : Dependencies :=
  match dependencies.usesOf? key with
  | none => dependencies
  | some old =>
      { dependencies with
        includers := old.includes.toList.foldl (UserIndex.unlink key) dependencies.includers
        phraseUsers := old.phrases.toList.foldl (UserIndex.unlink key) dependencies.phraseUsers }

/-- Record what an artifact depends on, in place of what was recorded before. -/
def record (dependencies : Dependencies) (key : ArtifactKey) (uses : Uses) : Dependencies :=
  let cleared := dependencies.unlink key
  { uses := cleared.uses.insert key uses
    includers := uses.includes.toList.foldl (UserIndex.link key) cleared.includers
    phraseUsers := uses.phrases.toList.foldl (UserIndex.link key) cleared.phraseUsers }

/-- Forget an artifact. -/
def remove (dependencies : Dependencies) (key : ArtifactKey) : Dependencies :=
  let cleared := dependencies.unlink key
  { cleared with uses := cleared.uses.erase key }

/-- The artifacts that include a template, in ascending order. -/
def includersOf (dependencies : Dependencies) (name : String) : List ArtifactKey :=
  (dependencies.includers.usersOf name).toList

/-- The artifacts that a phrase is written into, in ascending order. -/
def phraseUsersOf (dependencies : Dependencies) (name : String) : List ArtifactKey :=
  (dependencies.phraseUsers.usersOf name).toList

/-- The number of artifacts whose dependencies are recorded. -/
def size (dependencies : Dependencies) : Nat :=
  dependencies.uses.size

end Dependencies

end TemplateCascade
