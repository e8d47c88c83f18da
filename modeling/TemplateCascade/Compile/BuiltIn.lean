import TemplateCascade.Compile.Pending
import TemplateCascade.Compile.PhraseText
import TemplateCascade.Number.Reading

namespace TemplateCascade
namespace Compile

/-!
# The functions every template can call

Arguments whose value is formatted or passed on to the application compile raw, and the result is
escaped once for the place of the call.  Calculations and conditions need no escaping, the functions
that name an escaping mode replace the one of the place, and page navigation and helpers write markup
of their own.
-/

open Text (Escaping)

namespace BuiltIn

/-! ## Control -/

/-- One of two texts by a condition. -/
def choose : Function := fun _ call escaping =>
  match call.arguments with
  | [condition, body] => do
      let test ← condition.condition
      let code ← body.compile escaping
      pure (.conditional test code Code.empty)
  | [condition, body, otherwise] => do
      let test ← condition.condition
      let code ← body.compile escaping
      let alternative ← otherwise.compile escaping
      pure (.conditional test code alternative)
  | _ => call.refuseCount ⟨2, some 3⟩

/-- A markup attribute that is there when a condition holds. -/
def flag (markup : String) : Function := fun _ call _ =>
  match call.arguments with
  | [condition] => do
      let test ← condition.condition
      pure (.conditional test (.text markup) Code.empty)
  | _ => call.refuseCount ⟨1, some 1⟩

/-- The result of a calculation, worked out ahead of time when it can be. -/
def calculate : Function := fun _ call _ =>
  match call.arguments with
  | [argument] => do
      let calculation ← argument.calculation
      match calculation.fold? with
      | some amount => pure (.constant (.number amount))
      | none => pure (.arithmetic calculation)
  | _ => call.refuseCount ⟨1, some 1⟩

/-! ## Escaping -/

/-- A value under an escaping of its own. -/
def forced (mode : Escaping) : Function := fun _ call _ =>
  match call.arguments with
  | [value] => do
      let code ← value.compile .raw
      pure (.escaped mode code)
  | _ => call.refuseCount ⟨1, some 1⟩

/-- The escaping mode an argument names. -/
def modeOf (call : Call) (argument : PendingArgument) : CompileM Escaping :=
  match argument.literalText? with
  | none => failAt (.invalidArgument call.name .computedMode) argument.span
  | some name =>
      match Escaping.ofName? name with
      | none => failAt (.invalidArgument call.name (.unknownMode name)) argument.span
      | some mode => pure mode

/-- A value under the escaping that is named behind it, HTML if none is. -/
def escape : Function := fun _ call _ =>
  match call.arguments with
  | [value] => do
      let code ← value.compile .raw
      pure (.escaped .html code)
  | [value, modeName] => do
      let mode ← modeOf call modeName
      let code ← value.compile .raw
      pure (.escaped mode code)
  | _ => call.refuseCount ⟨1, some 2⟩

/-! ## Formatting -/

/-- A value in the format of the locale, with an optional argument for the format. -/
def format (kind : FormatKind) : Function := fun _ call escaping =>
  match call.arguments with
  | [value] => do
      let code ← value.compile .raw
      pure (.escaped escaping (.format kind code none))
  | [value, option] => do
      let code ← value.compile .raw
      let optionCode ← option.compile .raw
      pure (.escaped escaping (.format kind code (some optionCode)))
  | _ => call.refuseCount ⟨1, some 2⟩

/-! ## What the application supplies -/

/-- The address of something, with parameters. -/
def link : Function := fun _ call escaping =>
  match call.arguments with
  | [kind] => do
      let kindCode ← kind.compile .raw
      let parameters ← compileNamed call.named
      pure (.escaped escaping (.link kindCode none parameters))
  | [kind, data] => do
      let kindCode ← kind.compile .raw
      let dataCode ← data.compile .raw
      let parameters ← compileNamed call.named
      pure (.escaped escaping (.link kindCode (some dataCode) parameters))
  | _ => call.refuseCount ⟨1, some 2⟩

/-- A named argument that has to be there, compiled raw. -/
def required (call : Call) (name : String) : CompileM Code :=
  match entryNamed? call.named name with
  | some argument => argument.compile .raw
  | none => failAt (.invalidArgument call.name (.missing name)) call.span

/-- The named arguments of page navigation that are no parameters of its links. -/
def isPageArgument (name : String) : Bool :=
  name = "page" || name = "per_page" || name = "total"

/-- Navigation over the pages of a listing. -/
def pageNavigation : Function := fun _ call _ =>
  match call.arguments with
  | [link, data] => do
      let linkCode ← link.compile .raw
      let dataCode ← data.compile .raw
      let page ← required call "page"
      let perPage ← required call "per_page"
      let total ← required call "total"
      let parameters ← compileNamed (call.named.filter fun entry => !isPageArgument entry.1)
      pure (.pageNavigation linkCode dataCode page perPage total parameters)
  | _ => call.refuseCount ⟨2, some 2⟩

/-- A function of the application by its name. -/
def helper : Function := fun _ call _ =>
  match call.arguments with
  | name :: arguments => do
      let nameCode ← name.compile .raw
      let codes ← compileArguments arguments
      pure (.helper nameCode codes)
  | [] => call.refuseCount ⟨1, none⟩

/-! ## Phrases -/

/--
The argument that fills a placeholder: by position when it is a number, counted behind the phrase's
name from one, by name otherwise.
-/
def fillerOf? (call : Call) (placeholder : List Char) : Option PendingArgument :=
  match Number.readNatural? placeholder with
  | some 0 => none
  | some (position + 1) => call.arguments[position + 1]?
  | none => entryNamed? call.named (String.ofList placeholder)

/-- Compile the pieces of a phrase.  A placeholder without an argument stays as it is written. -/
def compilePieces (call : Call) (escaping : Escaping) : List Piece → CompileM (List Code)
  | [] => pure []
  | .text content :: rest => do
      let more ← compilePieces call escaping rest
      pure (.text (String.ofList content) :: more)
  | .placeholder name :: rest => do
      let code ←
        match fillerOf? call name with
        | some argument => argument.compile escaping
        | none => pure (.text (String.ofList (Piece.placeholder name).source))
      let more ← compilePieces call escaping rest
      pure (code :: more)

/--
The text of a phrase with its placeholders filled.  A phrase that does not exist shows as its name.
-/
def phrase : Function := fun phrases call escaping =>
  match call.arguments with
  | [] => call.refuseCount ⟨1, none⟩
  | nameArgument :: _ =>
      match nameArgument.literalText? with
      | none => failAt .computedPhraseName nameArgument.span
      | some written =>
          let name := Text.trim written
          if name = "" then
            failAt (.invalidArgument call.name .emptyPhraseName) nameArgument.span
          else do
            notePhrase name
            match phrases name with
            | none => pure (.text name)
            | some text => do
                let codes ← compilePieces call escaping (pieces text.toList)
                pure (Code.concatenate codes)

end BuiltIn

end Compile
end TemplateCascade
