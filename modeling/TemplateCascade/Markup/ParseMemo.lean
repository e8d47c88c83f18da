import Std.Data.ExtTreeMap
import TemplateCascade.Fingerprint
import TemplateCascade.Markup.Parser.Block

namespace TemplateCascade
namespace Markup

/-!
# Remembered trees

Many artifacts include the same template.  Its tree is remembered by definition, with the fingerprint
of the source that it is from, and is used as long as the source has that fingerprint.  A source that
does not parse leaves what is remembered as it is.
-/

/-- A tree and the fingerprint of its source. -/
structure ParsedSource where
  fingerprint : UInt64
  template : Template

/-- The trees of some definitions. -/
structure ParseMemo where
  trees : Std.ExtTreeMap DefinitionId ParsedSource

namespace ParseMemo

def empty : ParseMemo := ⟨∅⟩

/-- The remembered tree of a definition, if its source has the fingerprint of this one. -/
def lookup? (memo : ParseMemo) (id : DefinitionId) (source : String) : Option Template :=
  (memo.trees[id]?.filter fun parsed =>
    parsed.fingerprint == Fingerprint.ofText .template source).map ParsedSource.template

/-- The tree of a definition's source, from memory when it is there. -/
def read (memo : ParseMemo) (id : DefinitionId) (source : String) : Except ParseErrors Template :=
  match memo.lookup? id source with
  | some template => .ok template
  | none => parse source

/-- Remember the tree of a definition's source if it has one. -/
def learn (memo : ParseMemo) (id : DefinitionId) (source : String) : ParseMemo :=
  match memo.read id source with
  | .ok template => ⟨memo.trees.insert id ⟨Fingerprint.ofText .template source, template⟩⟩
  | .error _ => memo

/-- Read a definition's source and remember its tree. -/
def parse (memo : ParseMemo) (id : DefinitionId) (source : String) :
    ParseMemo × Except ParseErrors Template :=
  (memo.learn id source, memo.read id source)

/-- Forget the tree of a definition. -/
def forget (memo : ParseMemo) (id : DefinitionId) : ParseMemo :=
  ⟨memo.trees.erase id⟩

/-- The number of remembered trees. -/
def size (memo : ParseMemo) : Nat :=
  memo.trees.size

end ParseMemo

end Markup
end TemplateCascade
