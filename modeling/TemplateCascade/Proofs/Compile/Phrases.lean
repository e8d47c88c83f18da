import Mathlib
import TemplateCascade.Proofs.Code.NormalForm
import TemplateCascade.Proofs.Compile.Lawful
import TemplateCascade.Proofs.Compile.Validation
import TemplateCascade.Proofs.Number.ReadBack
import TemplateCascade.Proofs.Render.Writing

namespace TemplateCascade
namespace Compile

/-!
# Phrases and what fills them

A phrase by itself is its pieces, with one variable for every placeholder.  In a call the placeholders are filled
by arguments, by number or by name, and without any argument that fits, the phrase is the text that it is.
-/

open Markup (ArgumentOf Segment)
open Number (indexLimit)
open Render (Host Scope render write writeAll)
open Text (Escaping Span)

/-! ## A phrase by itself -/

/-- What a piece is in a phrase by itself: text as it is, or a single variable escaped as HTML. -/
def Piece.lookup : Piece → Code
  | .text content => .text (String.ofList content)
  | .placeholder name => .escape .html (.reference [String.ofList name])

/-- What a piece writes where every placeholder may have a value. -/
def Piece.output (valueOf : List Char → Option Value) : Piece → String
  | .text content => String.ofList content
  | .placeholder name => Escaping.html.apply ((valueOf name).getD .null).text

theorem phraseCode_eq_concatenate (text : String) :
    phraseCode text = Code.concatenate ((pieces text.toList).map Piece.lookup) := by
  refine congrArg Code.concatenate (List.map_congr_left fun piece _ => ?_)
  cases piece <;> rfl

/-- Nothing is joined in a phrase by itself. -/
theorem phraseCode_eq (text : String) :
    phraseCode text = Code.ofParts ((pieces text.toList).map Piece.lookup) := by
  have split := isSplit_pieces text.toList
  rw [phraseCode_eq_concatenate, Code.concatenate_eq, Code.joined_eq_self]
  · rw [List.forall_mem_map]
    intro piece _
    cases piece <;> rfl
  · intro member
    rcases List.mem_map.mp member with ⟨content | name, isPiece, isEmpty⟩
    · have isNothing : String.ofList content = "" := Code.text.inj isEmpty
      exact (split.texts content isPiece).1 (String.ofList_eq_empty_iff.mp isNothing)
    · cases isEmpty
  · rw [List.isChain_map]
    refine split.apart.imp fun left right apart => ?_
    cases left with
    | placeholder name => exact .inl rfl
    | text content =>
        cases right with
        | placeholder name => exact .inr rfl
        | text next => exact absurd rfl (apart content next rfl)

theorem writeAll_map {host : Host} {scope : Scope} {parts : List Piece} {codeOf : Piece → Code}
    {outputOf : Piece → String}
    (writes : ∀ piece ∈ parts, write host scope (codeOf piece) = .ok (outputOf piece)) :
    writeAll host scope (parts.map codeOf) = .ok (String.join (parts.map outputOf)) := by
  induction parts with
  | nil => rfl
  | cons piece rest inductionHypothesis =>
      rw [List.forall_mem_cons] at writes
      rw [List.map_cons, Render.writeAll_cons, writes.1, inductionHypothesis writes.2, List.map_cons,
        String.join_cons]
      rfl

theorem render_phraseCode (host : Host) (data : Value) (text : String) :
    render host data (phraseCode text) = .ok (String.join ((pieces text.toList).map
      (Piece.output fun name => Scope.lookup? ⟨data, []⟩ [String.ofList name]))) := by
  rw [Render.render_eq_write, phraseCode_eq_concatenate, Render.write_concatenate]
  refine writeAll_map fun piece _ => ?_
  cases piece with
  | text content => rfl
  | placeholder name =>
      rw [Piece.lookup, Render.write_escape, Render.write_reference]
      rfl

/-! ## What fills a placeholder -/

/-- A placeholder that is a number in decimal digits. -/
structure IsNumeral (placeholder : List Char) (number : Nat) : Prop where
  nonempty : placeholder ≠ []
  digits : ∀ character ∈ placeholder, character.isDigit = true
  value : Nat.ofDigitChars 10 placeholder 0 = number

/-- An argument fills a placeholder: by its position behind the name of the phrase if the placeholder is a number
from one on, by its own name if it is anything else.  A number that is too large for a word counts nothing. -/
inductive Fills {Argument : Type} (arguments : List Argument) (named : List (String × Argument))
    (placeholder : List Char) (argument : Argument) : Prop where
  | position {number : Nat} (isNumber : IsNumeral placeholder number) (counted : 1 ≤ number)
      (fits : number < indexLimit) (isThere : arguments[number]? = some argument)
  | name (isOther : ∀ number, IsNumeral placeholder number → number = 0 ∨ indexLimit ≤ number)
      (isThere : entryNamed? named (String.ofList placeholder) = some argument)

theorem readNatural?_eq_some_iff {placeholder : List Char} {number : Nat} :
    Number.readNatural? placeholder = some number ↔ IsNumeral placeholder number ∧ number < indexLimit := by
  unfold Number.readNatural?
  split
  · next refused =>
      refine ⟨nofun, fun ⟨isNumeral, _⟩ => ?_⟩
      rw [Bool.or_eq_true, List.isEmpty_iff, Bool.not_eq_true', List.all_eq_false] at refused
      rcases refused with isEmpty | ⟨character, member, notDigit⟩
      · exact absurd isEmpty isNumeral.nonempty
      · exact absurd (isNumeral.digits character member) notDigit
  · next accepted =>
      rw [Bool.or_eq_true, List.isEmpty_iff, Bool.not_eq_true', not_or, Bool.not_eq_false, List.all_eq_true]
        at accepted
      rw [Number.ofDigits_eq, Option.ite_none_right_eq_some, Option.some.injEq]
      constructor
      · rintro ⟨fits, rfl⟩
        exact ⟨⟨accepted.1, accepted.2, rfl⟩, fits⟩
      · rintro ⟨isNumeral, fits⟩
        exact ⟨isNumeral.value ▸ fits, isNumeral.value⟩

theorem fills_of_fillerOf? {call : Call} {placeholder : List Char} {argument : PendingArgument}
    (found : BuiltIn.fillerOf? call placeholder = some argument) :
    Fills call.arguments call.named placeholder argument := by
  unfold BuiltIn.fillerOf? at found
  split at found
  · cases found
  · next position isNumber =>
      rcases readNatural?_eq_some_iff.mp isNumber with ⟨isNumeral, fits⟩
      exact .position isNumeral (Nat.le_add_left 1 position) fits found
  · next notNumber =>
      refine .name (fun number isNumeral => .inr (Nat.not_lt.mp fun fits => ?_)) found
      rw [readNatural?_eq_some_iff.mpr ⟨isNumeral, fits⟩] at notNumber
      cases notNumber

theorem isDigit_eq_false_of_isIdentifierStart {character : Char}
    (isStart : Text.isIdentifierStart character = true) : character.isDigit = false := by
  rw [Bool.eq_false_iff]
  intro isDigit
  simp only [Text.isIdentifierStart, Text.isAsciiLetter, Char.isDigit, Bool.or_eq_true, Bool.and_eq_true,
    decide_eq_true_eq, beq_iff_eq, Char.le_def, UInt32.le_iff_toNat_le] at isStart isDigit
  rcases isStart with (⟨least, _⟩ | ⟨least, _⟩) | rfl
  · exact absurd (least.trans isDigit.2) (by decide)
  · exact absurd (least.trans isDigit.2) (by decide)
  · exact absurd isDigit.2 (by decide)

/-- No argument has a number for a name. -/
theorem fillerOf?_of_fills {call : Call} {placeholder : List Char} {argument : PendingArgument}
    (fills : Fills call.arguments call.named placeholder argument)
    (identifiers : ∀ entry ∈ call.named, Text.isIdentifier entry.1.toList = true) :
    BuiltIn.fillerOf? call placeholder = some argument := by
  unfold BuiltIn.fillerOf?
  cases fills with
  | position isNumber counted fits isThere =>
      rcases Nat.exists_eq_add_of_le' counted with ⟨position, rfl⟩
      rw [readNatural?_eq_some_iff.mpr ⟨isNumber, fits⟩]
      exact isThere
  | name isOther isThere =>
      split
      · next isZero =>
          rcases readNatural?_eq_some_iff.mp isZero with ⟨⟨nonempty, digits, _⟩, _⟩
          rcases List.exists_cons_of_ne_nil nonempty with ⟨first, rest, rfl⟩
          have isDigit := digits first List.mem_cons_self
          have isIdentifier := identifiers _ (mem_of_entryNamed? isThere)
          rw [String.toList_ofList, Text.isIdentifier, Bool.and_eq_true] at isIdentifier
          rw [isDigit_eq_false_of_isIdentifierStart isIdentifier.1] at isDigit
          cases isDigit
      · next position isNumber =>
          rcases readNatural?_eq_some_iff.mp isNumber with ⟨isNumeral, fits⟩
          rcases isOther _ isNumeral with isZero | tooLarge
          · cases isZero
          · exact absurd fits (Nat.not_lt.mpr tooLarge)
      · exact isThere

section Map

variable {Argument Other : Type} {arguments : List Argument} {named : List (String × Argument)}
  {placeholder : List Char}

theorem entryNamed?_map (change : Argument → Other) (name : String) :
    entryNamed? (named.map fun entry => (entry.1, change entry.2)) name = (entryNamed? named name).map change := by
  induction named with
  | nil => rfl
  | cons first rest inductionHypothesis =>
      rw [entryNamed?, entryNamed?, List.map_cons, List.lookup_cons, List.lookup_cons]
      cases name == first.1 with
      | true => rfl
      | false => exact inductionHypothesis

/-- Whatever is made of the arguments, the same ones fill a placeholder. -/
theorem fills_map_iff (change : Argument → Other) {changed : Other} :
    Fills (arguments.map change) (named.map fun entry => (entry.1, change entry.2)) placeholder changed ↔
      ∃ argument, Fills arguments named placeholder argument ∧ change argument = changed := by
  constructor
  · intro fills
    cases fills with
    | position isNumber counted fits isThere =>
        rw [List.getElem?_map, Option.map_eq_some_iff] at isThere
        rcases isThere with ⟨argument, isThere, isChanged⟩
        exact ⟨argument, .position isNumber counted fits isThere, isChanged⟩
    | name isOther isThere =>
        rw [entryNamed?_map, Option.map_eq_some_iff] at isThere
        rcases isThere with ⟨argument, isThere, isChanged⟩
        exact ⟨argument, .name isOther isThere, isChanged⟩
  · rintro ⟨argument, fills, rfl⟩
    cases fills with
    | position isNumber counted fits isThere =>
        exact .position isNumber counted fits (by rw [List.getElem?_map, isThere, Option.map_some])
    | name isOther isThere =>
        exact .name isOther (by rw [entryNamed?_map, isThere, Option.map_some])

end Map

/-! ## Calls -/

/-- A phrase is called by the text of the first argument, and there is a text for it. -/
def Resolves (phrases : Phrases) (arguments : List (ArgumentOf Segment)) (text : String) : Prop :=
  ∃ written, arguments.head?.bind ArgumentOf.literalText? = some written ∧ Text.trim written ≠ "" ∧
    phrases (Text.trim written) = some text

/-- What a piece is in a call: text as it is, or the code that a placeholder is filled with. -/
def Piece.filled (codeOf : List Char → Code) : Piece → Code
  | .text content => .text (String.ofList content)
  | .placeholder name => codeOf name

/-- Where every placeholder has its code, so has the phrase. -/
theorem compilePieces_eq_pure {call : Call} {escaping : Escaping} {codeOf : List Char → Code}
    {parts : List Piece} (filled : ∀ name, .placeholder name ∈ parts →
      BuiltIn.compileFiller call escaping name = pure (codeOf name)) :
    BuiltIn.compilePieces call escaping parts = pure (parts.map (Piece.filled codeOf)) := by
  induction parts with
  | nil => rfl
  | cons piece rest inductionHypothesis =>
      have others := inductionHypothesis fun name member => filled name (List.mem_cons_of_mem piece member)
      cases piece with
      | text content =>
          rw [BuiltIn.compilePieces, others]
          rfl
      | placeholder name =>
          rw [BuiltIn.compilePieces_placeholder, filled name List.mem_cons_self, others]
          rfl

section Calls

variable {phrases : Phrases} {inclusion : Inclusion} {arguments : List (ArgumentOf Segment)}
  {named : List (String × ArgumentOf Segment)} {span : Span} {text : String}

/-- A call of a phrase whose arguments are still to be compiled. -/
def phraseCall (phrases : Phrases) (inclusion : Inclusion) (arguments : List (ArgumentOf Segment))
    (named : List (String × ArgumentOf Segment)) (span : Span) : Call :=
  ⟨"phrase", pendingArguments Registry.builtIn phrases inclusion arguments,
    pendingNamed Registry.builtIn phrases inclusion named, span⟩

theorem pendingNamed_eq_map (named : List (String × ArgumentOf Segment)) :
    pendingNamed Registry.builtIn phrases inclusion named =
      named.map fun entry => (entry.1, pendingArgument Registry.builtIn phrases inclusion entry.2) := by
  induction named with
  | nil => rfl
  | cons entry rest inductionHypothesis => rw [pendingNamed, inductionHypothesis, List.map_cons]

/-- The arguments of the call fill a placeholder as those of the segment do. -/
theorem fills_phraseCall_iff {placeholder : List Char} {argument : PendingArgument} :
    Fills (phraseCall phrases inclusion arguments named span).arguments
        (phraseCall phrases inclusion arguments named span).named placeholder argument ↔
      ∃ written, Fills arguments named placeholder written ∧
        pendingArgument Registry.builtIn phrases inclusion written = argument := by
  rw [phraseCall, pendingArguments_eq_map, pendingNamed_eq_map]
  exact fills_map_iff _

/-- A call of a phrase compiles to its pieces, each with what fills it. -/
theorem compile_phraseCall (resolves : Resolves phrases arguments text) {escaping : Escaping}
    {codeOf : List Char → Code} (filled : ∀ name, .placeholder name ∈ pieces text.toList →
      BuiltIn.compileFiller (phraseCall phrases inclusion arguments named span) escaping name =
        pure (codeOf name)) (uses : Uses) :
    ∃ noted, ((pending Registry.builtIn phrases inclusion (.call "phrase" arguments named span)).compile
        escaping).after uses =
      (.ok (Code.concatenate ((pieces text.toList).map (Piece.filled codeOf))), noted) := by
  rcases resolves with ⟨written, isWritten, present, found⟩
  have isFunction : Registry.builtIn.function? "phrase" = some BuiltIn.phrase := rfl
  have isCall : (pending Registry.builtIn phrases inclusion (.call "phrase" arguments named span)).compile
      escaping = BuiltIn.phrase phrases (phraseCall phrases inclusion arguments named span) escaping := by
    rw [pending, Pending.compile, compileCall, isFunction]
    rfl
  rcases arguments with _ | ⟨nameArgument, others⟩
  · cases isWritten
  · have isName : (pendingArgument Registry.builtIn phrases inclusion nameArgument).literalText? = some written :=
      (literalText?_pendingArgument nameArgument).trans isWritten
    rw [isCall, BuiltIn.phrase]
    simp only [phraseCall, pendingArguments, isName, if_neg present, found]
    have compiled := compilePieces_eq_pure filled
    rw [phraseCall, pendingArguments] at compiled
    rw [compiled]
    exact ⟨_, rfl⟩

/-! ### Nothing fills anything -/

theorem concatenate_texts (texts : List String) :
    Code.concatenate (texts.map Code.text) = .text (String.join texts) := by
  have areJoined : Code.joined (texts.map Code.text) =
      if String.join texts = "" then [] else [.text (String.join texts)] := by
    induction texts with
    | nil => rfl
    | cons first rest inductionHypothesis =>
        have isFirst : Code.joined ((first :: rest).map Code.text) =
            Code.consPart (.text first) (Code.joined (rest.map Code.text)) := rfl
        rw [isFirst, inductionHypothesis, String.join_cons]
        by_cases nothing : first = ""
        · rw [nothing, Code.consPart_empty, String.empty_append]
        · rw [if_neg fun isEmpty => nothing (String.append_eq_empty_iff.mp isEmpty).1]
          split
          · next noMore =>
              rw [Code.consPart_eq_cons (fun same => nothing (Code.text.inj same)) (by simp), noMore,
                String.append_empty]
          · rw [Code.consPart_text_text nothing]
  rw [Code.concatenate_eq, areJoined]
  split
  · next isEmpty =>
      rw [isEmpty]
      rfl
  · rfl

/-- The pieces of a phrase are joined to its text. -/
theorem join_source (text : String) :
    String.join ((pieces text.toList).map fun piece => String.ofList piece.source) = text := by
  rw [← String.toList_inj, String.toList_join, List.flatMap_map]
  simp only [String.toList_ofList]
  exact flatMap_source_pieces text.toList

theorem compile_unfilled (resolves : Resolves phrases arguments text)
    (unfilled : ∀ name, .placeholder name ∈ pieces text.toList →
      ∀ argument, ¬ Fills arguments named name argument)
    (escaping : Escaping) (uses : Uses) :
    ∃ noted, ((pending Registry.builtIn phrases inclusion (.call "phrase" arguments named span)).compile
      escaping).after uses = (.ok (.text text), noted) := by
  have filled : ∀ name, .placeholder name ∈ pieces text.toList →
      BuiltIn.compileFiller (phraseCall phrases inclusion arguments named span) escaping name =
        pure (.text (String.ofList (Piece.placeholder name).source)) := by
    intro name member
    have nothing : BuiltIn.fillerOf? (phraseCall phrases inclusion arguments named span) name = none := by
      rw [Option.eq_none_iff_forall_ne_some]
      intro argument found
      rcases fills_phraseCall_iff.mp (fills_of_fillerOf? found) with ⟨argument, fills, _⟩
      exact unfilled name member argument fills
    rw [BuiltIn.compileFiller, nothing]
  have isText : (pieces text.toList).map
        (Piece.filled fun name => .text (String.ofList (Piece.placeholder name).source)) =
      ((pieces text.toList).map fun piece => String.ofList piece.source).map Code.text := by
    rw [List.map_map]
    refine List.map_congr_left fun piece _ => ?_
    cases piece <;> rfl
  rcases compile_phraseCall resolves filled uses with ⟨noted, compiled⟩
  refine ⟨noted, compiled.trans ?_⟩
  rw [isText, concatenate_texts, join_source]

end Calls

/-- A phrase text is split without loss, and in no other way.  By itself it is compiled to its texts and to one
escaped variable for each placeholder, and a call that fills none of the placeholders is compiled to the text. -/
theorem phrase_split (text : String) :
    (∀ parts, IsSplit text.toList parts ↔ parts = pieces text.toList) ∧
      phraseCode text = Code.ofParts ((pieces text.toList).map Piece.lookup) ∧
      (∀ host data, render host data (phraseCode text) = .ok (String.join ((pieces text.toList).map
        (Piece.output fun name => Scope.lookup? ⟨data, []⟩ [String.ofList name])))) ∧
      ∀ {phrases : Phrases} {inclusion : Inclusion} {arguments : List (ArgumentOf Segment)}
        {named : List (String × ArgumentOf Segment)} {span : Span}, Resolves phrases arguments text →
        (∀ name, .placeholder name ∈ pieces text.toList →
          ∀ argument, ¬ Fills arguments named name argument) →
        ∀ escaping uses, ∃ noted,
          ((pending Registry.builtIn phrases inclusion (.call "phrase" arguments named span)).compile
            escaping).after uses = (.ok (.text text), noted) :=
  ⟨fun _ => isSplit_iff, phraseCode_eq text, fun host data => render_phraseCode host data text,
    compile_unfilled⟩

/-! ### A phrase with braces that open nothing -/

def bracedPhrase : String :=
  "Hi \x7bname\x7d, \x7bnot valid\x7d \x7b1\x7d\x7b"

/-- A call of a phrase without anything to fill in. -/
def bareArguments : List (ArgumentOf Segment) :=
  [⟨[.literal " greeting " default], default, false⟩]

theorem phrase_split_braced :
    Resolves (fun name => if name = "greeting" then some bracedPhrase else none) bareArguments bracedPhrase ∧
      (∀ name, .placeholder name ∈ pieces bracedPhrase.toList →
        ∀ argument, ¬ Fills bareArguments [] name argument) ∧
      ∀ inclusion escaping uses, ∃ noted,
        ((pending Registry.builtIn (fun name => if name = "greeting" then some bracedPhrase else none) inclusion
          (.call "phrase" bareArguments [] default)).compile escaping).after uses =
            (.ok (.text bracedPhrase), noted) := by
  have trimmed : Text.trim " greeting " = "greeting" := by decide +kernel
  have resolves : Resolves (fun name => if name = "greeting" then some bracedPhrase else none) bareArguments
      bracedPhrase := by
    refine ⟨" greeting ", by decide, ?_, ?_⟩
    · rw [trimmed]
      decide
    · rw [trimmed]
      rfl
  have unfilled : ∀ name, .placeholder name ∈ pieces bracedPhrase.toList →
      ∀ argument, ¬ Fills bareArguments [] name argument := by
    intro name _ argument fills
    cases fills with
    | position isNumber counted fits isThere =>
        rw [List.getElem?_eq_none counted] at isThere
        cases isThere
    | name isOther isThere => cases isThere
  exact ⟨resolves, unfilled, fun inclusion => (phrase_split bracedPhrase).2.2.2 resolves unfilled⟩

end Compile
end TemplateCascade
