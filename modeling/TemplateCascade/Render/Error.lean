import TemplateCascade.Artifact.Key
import TemplateCascade.Code.Arithmetic

namespace TemplateCascade
namespace Render

/-!
# Why rendering fails

Rendering fails over calculations, dates and code that was never meant to be rendered, but not over
the shape of the data.
-/

/-- Why generated code has no output. -/
inductive RenderError where
  | arithmetic (error : ArithmeticError)
  /-- Code from a compilation for validation. -/
  | unexpandedInclude (name : String)
  | dateFormat (format : String)
  | timestamp (seconds : Int)
  | missingArtifact (key : ArtifactKey)
deriving DecidableEq, Repr

def RenderError.message : RenderError → String
  | .arithmetic error => error.message
  | .unexpandedInclude name => "include of '" ++ name ++ "' was not expanded"
  | .dateFormat format => "invalid date format '" ++ format ++ "'"
  | .timestamp seconds => "timestamp " ++ toString seconds ++ " is out of range"
  | .missingArtifact key => "no compiled artifact for " ++ key.text

end Render
end TemplateCascade
