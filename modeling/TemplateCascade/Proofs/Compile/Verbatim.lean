import Mathlib
import TemplateCascade.Proofs.Compile.Following
import TemplateCascade.Proofs.Markup.Yielding
import TemplateCascade.Proofs.Render.Writing

namespace TemplateCascade
namespace Compile

/-!
# Text and variables

A source may hold any text in which no construct begins, and between such texts variables.  Every text is then
one literal and every variable one reference, because no construct can begin in a text and end behind it: it
would need a brace inside.  The literals are written as they are, and the values of the variables as HTML.
-/

open Markup (Begins DerivesBody IsPath Segment Shape Template Token)
open Render (Host render write writeAll)
open Text (Escaping Place isIdentifierPart isIdentifierStart)

/-- A text, or a variable with the names of its path. -/
inductive Passage where
  | literal (text : String)
  | reference (path : List String)
deriving DecidableEq, Repr

/-- A name in a path: it is not empty, and it is made of what identifiers are made of. -/
structure IsPathName (name : String) : Prop where
  present : name ≠ ""
  isPart : ∀ character ∈ name.toList, isIdentifierPart character = true

namespace Passage

/-- A path as it is written. -/
def joined (path : List String) : List Char :=
  ['.'].intercalate (path.map String.toList)

def source : Passage → List Char
  | literal text => text.toList
  | reference path => '\x7b' :: '$' :: (joined path ++ ['\x7d'])

def isLiteral : Passage → Bool
  | literal _ => true
  | reference _ => false

/-- Something is written, and no construct begins in it; or it is a path whose first name starts like an
identifier. -/
inductive Writable : Passage → Prop where
  | literal {text : String} (isText : text ≠ "")
      (plain : ∀ seen left, text.toList = seen ++ left → ¬ Begins left) : Writable (.literal text)
  | reference {name : String} {names : List String}
      (starts : ∀ first ∈ name.toList.head?, isIdentifierStart first = true)
      (isName : ∀ part ∈ name :: names, IsPathName part) : Writable (.reference (name :: names))

/-- What is written for a passage. -/
def output (data : Value) : Passage → String
  | literal text => text
  | reference path => Escaping.html.apply (((data.follow? path).map Value.text).getD "")

end Passage

/-- A text or a variable, if a segment is one. -/
def passage? : Segment → Option Passage
  | .literal text _ => some (.literal text)
  | .reference path _ => some (.reference path)
  | _ => none

/-- Passages one behind the other. -/
def sourceOf (passages : List Passage) : String :=
  String.ofList (passages.flatMap Passage.source)

/-! ## Where constructs begin -/

theorem notMem_of_isIdentifierStart {first : Char} (isStart : isIdentifierStart first = true) (front : List Char)
    (noBrace : '\x7b' ∉ front) : '\x7b' ∉ front ++ [first] := by
  rw [List.mem_append, not_or, List.mem_singleton]
  refine ⟨noBrace, ?_⟩
  rintro rfl
  cases isStart

/-- What begins a construct has no brace behind its first character, whatever stands behind. -/
theorem exists_of_begins {text : List Char} (begins : Begins text) :
    ∃ first front rest, text = first :: (front ++ rest) ∧ '\x7b' ∉ front ∧
      ∀ other, Begins (first :: (front ++ other)) := by
  cases begins with
  | reference isStart rest =>
      exact ⟨'\x7b', _, rest, rfl, notMem_of_isIdentifierStart isStart ['$'] (by decide),
        fun other => .reference isStart other⟩
  | call isName rest =>
      rename_i name
      refine ⟨'\x7b', name ++ ['('], rest, by rw [List.append_assoc]; rfl, ?_, fun other => ?_⟩
      · rw [List.mem_append, not_or]
        refine ⟨fun member => ?_, by decide⟩
        cases Markup.isIdentifierPart_of_mem isName member
      · rw [List.append_assoc]
        exact .call isName other
  | openingTag isStart rest =>
      exact ⟨'<', _, rest, rfl, notMem_of_isIdentifierStart isStart "tpl:".toList (by decide),
        fun other => .openingTag isStart other⟩
  | closingTag isStart rest =>
      exact ⟨'<', _, rest, rfl, notMem_of_isIdentifierStart isStart "/tpl:".toList (by decide),
        fun other => .closingTag isStart other⟩
  | comment rest => exact ⟨'<', "tpl:comment>".toList, rest, rfl, by decide, .comment⟩

/-- No construct begins in a text and ends behind it, if behind it stands nothing or a brace. -/
theorem not_begins_append {left tail : List Char} (plain : ¬ Begins left) (isLeft : left ≠ [])
    (stops : tail = [] ∨ ∃ rest, tail = '\x7b' :: rest) : ¬ Begins (left ++ tail) := by
  intro begins
  rcases exists_of_begins begins with ⟨first, front, rest, same, noBrace, begins⟩
  rcases List.exists_cons_of_ne_nil isLeft with ⟨head, more, rfl⟩
  rw [List.cons_append] at same
  rcases List.cons.inj same with ⟨rfl, sameRest⟩
  rcases List.append_eq_append_iff.mp sameRest with ⟨between, isFront, isTail⟩ | ⟨between, isMore, _⟩
  · -- What begins the construct would go on into what stands behind, where there is nothing or a brace.
    have isWhole : between = [] := by
      cases between with
      | nil => rfl
      | cons next others =>
          rcases stops with rfl | ⟨behind, rfl⟩
          · cases isTail
          · cases isTail
            exact absurd (isFront ▸ List.mem_append_right more List.mem_cons_self) noBrace
    rw [isWhole, List.append_nil] at isFront
    have here := begins []
    rw [isFront, List.append_nil] at here
    exact plain here
  · exact plain (isMore ▸ begins between)

/-! ## Tokens -/

section Paths

variable {name : String} {names : List String}

theorem splitPath_joined (isName : ∀ part ∈ name :: names, IsPathName part) :
    Markup.splitPath (Passage.joined (name :: names)) = (name :: names).map String.toList := by
  refine List.splitOn_intercalate '.' ?_ (List.cons_ne_nil _ _)
  intro written member isPoint
  rcases List.mem_map.mp member with ⟨part, isPart, rfl⟩
  cases (isName part isPart).isPart '.' isPoint

theorem joined_cons (name : String) (names : List String) :
    Passage.joined (name :: names) = name.toList ∨
      Passage.joined (name :: names) = name.toList ++ '.' :: Passage.joined names := by
  cases names with
  | nil => exact .inl List.intercalate_singleton
  | cons next names =>
      refine .inr ?_
      rw [Passage.joined, List.map_cons, List.map_cons, List.intercalate_cons_cons, List.append_assoc]
      rfl

theorem isPathPart_of_mem_joined {path : List String} (isName : ∀ part ∈ path, IsPathName part)
    {character : Char} (member : character ∈ Passage.joined path) : Markup.isPathPart character = true := by
  rw [Markup.isPathPart, Bool.or_eq_true, beq_iff_eq]
  induction path with
  | nil => cases member
  | cons name names inductionHypothesis =>
      rcases joined_cons name names with isJoined | isJoined
      · exact .inl ((isName name List.mem_cons_self).isPart character (isJoined ▸ member))
      · rw [isJoined, List.mem_append, List.mem_cons] at member
        rcases member with member | isPoint | member
        · exact .inl ((isName name List.mem_cons_self).isPart character member)
        · exact .inr isPoint
        · exact inductionHypothesis (fun part isPart => isName part (List.mem_cons_of_mem name isPart)) member

theorem isPath_joined (starts : ∀ first ∈ name.toList.head?, isIdentifierStart first = true)
    (isName : ∀ part ∈ name :: names, IsPathName part) : IsPath (Passage.joined (name :: names)) := by
  have present : ∀ part ∈ name :: names, part.toList ≠ [] := fun part member =>
    String.toList_eq_nil_iff.not.mpr (isName part member).present
  refine ⟨?_, fun character => isPathPart_of_mem_joined isName, ?_⟩
  · rcases List.exists_cons_of_ne_nil (present name List.mem_cons_self) with ⟨first, others, isFirst⟩
    rw [isFirst] at starts
    rcases joined_cons name names with isJoined | isJoined <;>
      · rw [isJoined, isFirst]
        exact starts first rfl
  · rw [splitPath_joined isName]
    intro written member
    rcases List.mem_map.mp member with ⟨part, isPart, rfl⟩
    exact present part isPart

end Paths

namespace Passage

/-- The token of a passage. -/
def shape : Passage → Shape
  | literal text => (.text, text.toList)
  | reference path => (.variableReference, '\x7b' :: '$' :: (joined path ++ ['\x7d']))

end Passage

/-- No two texts stand side by side. -/
abbrev Apart (passages : List Passage) : Prop :=
  passages.IsChain fun left right => left.isLiteral = false ∨ right.isLiteral = false

section Lexing

variable {passages : List Passage}

/-- Behind a text stands nothing, or a variable. -/
theorem begins_of_apart (writable : ∀ passage ∈ passages, passage.Writable) {text : String}
    (apart : Apart (.literal text :: passages)) :
    passages.flatMap Passage.source = [] ∨
      Begins (passages.flatMap Passage.source) ∧ ∃ rest, passages.flatMap Passage.source = '\x7b' :: rest := by
  cases apart with
  | singleton => exact .inl rfl
  | @cons_cons _ next others side _ =>
      rcases side with isLiteral | isReference
      · cases isLiteral
      · cases writable next List.mem_cons_self with
        | literal isText plain => cases isReference
        | reference starts isName =>
            have isPath := isPath_joined starts isName
            rcases Markup.startsIdentifier_iff.mp isPath.starts with ⟨first, rest, isJoined, isStart⟩
            rw [List.flatMap_cons, Passage.source, isJoined]
            exact .inr ⟨.reference isStart _, _, rfl⟩

theorem yields_passages (writable : ∀ passage ∈ passages, passage.Writable) (apart : Apart passages) :
    Markup.Yields [] (passages.flatMap Passage.source) (passages.map Passage.shape) := by
  induction passages with
  | nil => exact Markup.yields_nil
  | cons passage passages inductionHypothesis =>
      have others := fun other member => writable other (List.mem_cons_of_mem passage member)
      have more := inductionHypothesis others apart.tail
      rw [List.flatMap_cons, List.map_cons]
      cases writable passage List.mem_cons_self with
      | reference starts isName =>
          have takes := Markup.takes_variable (isPath_joined starts isName) (passages.flatMap Passage.source)
          rw [Passage.source, List.cons_append, List.cons_append, List.append_assoc]
          exact takes.yields fun _ => more
      | literal isText plain =>
          have stops := begins_of_apart others apart
          have takes := Markup.takes_text (String.toList_eq_nil_iff.not.mpr isText)
            (fun seen left split isLeft =>
              not_begins_append (plain seen left split) isLeft (stops.imp_right And.right))
            (stops.imp_right And.left)
          exact takes.yields fun _ => more

end Lexing

/-! ## Segments -/

section Reading

variable {passages : List Passage}

theorem exists_derivesBody (writable : ∀ passage ∈ passages, passage.Writable) {tokens : List Token}
    (shaped : tokens.map Token.shape = passages.map Passage.shape) :
    ∃ parts, DerivesBody tokens parts ∧ parts.map passage? = passages.map some := by
  induction passages generalizing tokens with
  | nil =>
      rw [List.map_nil, List.map_eq_nil_iff] at shaped
      subst shaped
      exact ⟨[], .nil, rfl⟩
  | cons passage passages inductionHypothesis =>
      rw [List.map_cons] at shaped
      rcases Markup.exists_of_shape_cons shaped with ⟨token, rest, rfl, isKind, isLexeme, areOthers⟩
      rcases inductionHypothesis (fun other member => writable other (List.mem_cons_of_mem passage member))
        areOthers with ⟨parts, derives, areParts⟩
      cases writable passage List.mem_cons_self with
      | literal isText plain =>
          refine ⟨_, .text isKind derives, ?_⟩
          rw [List.map_cons, List.map_cons, areParts, isLexeme, String.ofList_toList]
          rfl
      | reference starts isName =>
          refine ⟨_, .reference isKind derives, ?_⟩
          have isSplit := splitPath_joined isName
          rw [Markup.splitPath] at isSplit
          have kept : String.ofList ∘ String.toList = id := funext fun _ => String.ofList_toList
          rw [List.map_cons, List.map_cons, areParts, Markup.referenceOf, isLexeme, List.drop_succ_cons,
            List.drop_succ_cons, List.drop_zero, List.dropLast_concat, isSplit, List.map_map, kept, List.map_id]
          rfl

theorem isChain_of_apart (apart : Apart passages) {parts : List Segment}
    (areParts : parts.map passage? = passages.map some) :
    parts.IsChain fun left right => left.literal? = none ∨ right.literal? = none := by
  have chain : (parts.map passage?).IsChain fun left right =>
      left.map Passage.isLiteral = some false ∨ right.map Passage.isLiteral = some false := by
    rw [areParts, List.isChain_map]
    exact apart.imp fun left right => Or.imp (congrArg some) (congrArg some)
  have notLiteral : ∀ {part : Segment}, (passage? part).map Passage.isLiteral = some false →
      part.literal? = none := by
    intro part isOther
    cases part with
    | literal text span => cases isOther
    | _ => rfl
  exact ((List.isChain_map _).mp chain).imp fun left right => Or.imp notLiteral notLiteral

theorem exists_parse (writable : ∀ passage ∈ passages, passage.Writable) (apart : Apart passages) :
    ∃ template, Markup.parse (sourceOf passages) = .ok template ∧
      template.segments.map passage? = passages.map some := by
  have yields := yields_passages writable apart
  rw [← String.toList_ofList (l := passages.flatMap Passage.source)] at yields
  rcases yields Place.start with ⟨errorFree, shaped⟩
  rcases exists_derivesBody writable shaped with ⟨parts, derives, areParts⟩
  refine ⟨_, Markup.parse_of_derives errorFree derives, ?_⟩
  rw [Markup.joinLiterals_of_isChain (isChain_of_apart apart areParts)]
  exact areParts

end Reading

/-! ## Output -/

/-- The code of a passage. -/
def Passage.code : Passage → Code
  | .literal text => .text text
  | .reference path => .escaped .html (.reference path)

theorem compileEach_passages {registry : Registry} {phrases : Phrases} {inclusion : Inclusion}
    {segments : List Segment} {passages : List Passage}
    (areSegments : segments.map passage? = passages.map some) :
    compileEach .html (pendingAll registry phrases inclusion segments) = pure (passages.map Passage.code) := by
  induction segments generalizing passages with
  | nil =>
      rw [List.map_nil, eq_comm, List.map_eq_nil_iff] at areSegments
      rw [areSegments]
      rfl
  | cons segment segments inductionHypothesis =>
      rcases List.map_eq_cons_iff.mp areSegments.symm with ⟨passage, others, rfl, isPassage, areOthers⟩
      have compiled : (pending registry phrases inclusion segment).compile .html = pure passage.code := by
        cases segment with
        | literal text span =>
            cases isPassage
            rfl
        | reference path span =>
            cases isPassage
            rfl
        | _ => cases isPassage
      rw [pendingAll, compileEach, compiled, inductionHypothesis areOthers.symm]
      rfl

theorem compileTemplate_passages (environment : Environment) (registry : Registry) (context : Context)
    (name : String) {template : Template} {passages : List Passage}
    (areSegments : template.segments.map passage? = passages.map some) :
    compileTemplate environment registry context name template =
      .ok ⟨Code.concatenate (passages.map Passage.code), Uses.none⟩ := by
  rw [compileTemplate, compileSegments, compileParts, compileEach_passages areSegments]
  rfl

theorem write_code (host : Host) (data : Value) {passage : Passage} (writable : passage.Writable) :
    write host ⟨data, []⟩ passage.code = .ok (passage.output data) := by
  cases writable with
  | literal isText plain => exact Render.write_text _
  | reference starts isName =>
      rename_i name names
      rw [Passage.code, Render.write_escaped, Render.write_reference]
      change Except.ok (Escaping.html.apply (((data.follow? (name :: names)).getD .null).text)) = _
      rw [Passage.output]
      cases data.follow? (name :: names) <;> rfl

theorem writeAll_passages (host : Host) (data : Value) {passages : List Passage}
    (writable : ∀ passage ∈ passages, passage.Writable) :
    writeAll host ⟨data, []⟩ (passages.map Passage.code) =
      .ok (String.join (passages.map (Passage.output data))) := by
  induction passages with
  | nil => rfl
  | cons passage passages inductionHypothesis =>
      have others := fun other member => writable other (List.mem_cons_of_mem passage member)
      rw [List.map_cons, List.map_cons, Render.writeAll_cons,
        write_code host data (writable passage List.mem_cons_self), inductionHypothesis others, String.join_cons]
      rfl

/-- Texts and variables are read as what they are, and what is written for them with any data are the texts
without change and the values of the variables as HTML. -/
theorem render_passages {passages : List Passage} (writable : ∀ passage ∈ passages, passage.Writable)
    (apart : Apart passages) :
    ∃ template, Markup.parse (sourceOf passages) = .ok template ∧
      template.segments.map passage? = passages.map some ∧
      ∀ (environment : Environment) (registry : Registry) (context : Context) (name : String),
        ∃ compiled, compileTemplate environment registry context name template = .ok compiled ∧
          ∀ (host : Host) (data : Value),
            render host data compiled.code = .ok (String.join (passages.map (Passage.output data))) := by
  rcases exists_parse writable apart with ⟨template, parsed, areSegments⟩
  refine ⟨template, parsed, areSegments, fun environment registry context name => ?_⟩
  refine ⟨_, compileTemplate_passages environment registry context name areSegments, fun host data => ?_⟩
  rw [Render.render_eq_write, Render.write_concatenate, writeAll_passages host data writable]

/-! ### A name between texts that look like constructs -/

def framedName : List Passage :=
  [.literal "\x7b$ <b> \x7b1( \x7b", .reference ["user", "name"], .literal "\x7d \x7buser\x7d </tpl:\"é"]

def framedData : Value :=
  .map [("user", .map [("name", .string "A & <B>")])]

theorem render_framedName : ∃ template,
    Markup.parse "\x7b$ <b> \x7b1( \x7b\x7b$user.name\x7d\x7d \x7buser\x7d </tpl:\"é" = .ok template ∧
    ∀ environment registry context name, ∃ compiled,
      compileTemplate environment registry context name template = .ok compiled ∧
      ∀ host, render host framedData compiled.code =
        .ok "\x7b$ <b> \x7b1( \x7bA &amp; &lt;B&gt;\x7d \x7buser\x7d </tpl:\"é" := by
  have plain : ∀ {text : String}, (∀ left ∈ text.toList.tails, Markup.startsConstruct left = false) →
      ∀ seen left, text.toList = seen ++ left → ¬ Begins left := by
    intro text noConstruct seen left split begins
    have isTail := (List.mem_tails _ _).mpr (split ▸ List.suffix_append seen left)
    cases (noConstruct left isTail).symm.trans (Markup.startsConstruct_iff.mpr begins)
  have writable : ∀ passage ∈ framedName, passage.Writable := by
    rw [framedName, List.forall_mem_cons, List.forall_mem_cons, List.forall_mem_singleton]
    refine ⟨.literal (by decide) (plain (by decide +kernel)), .reference ?_ ?_,
      .literal (by decide) (plain (by decide +kernel))⟩
    · rintro first ⟨⟩
      decide
    · rw [List.forall_mem_cons, List.forall_mem_singleton]
      exact ⟨⟨by decide, List.all_eq_true.mp (by decide)⟩, ⟨by decide, List.all_eq_true.mp (by decide)⟩⟩
  have apart : Apart framedName :=
    .cons_cons (.inr rfl) (.cons_cons (.inl rfl) (.singleton _))
  rcases render_passages writable apart with ⟨template, parsed, _, renders⟩
  have isSource : sourceOf framedName =
      "\x7b$ <b> \x7b1( \x7b\x7b$user.name\x7d\x7d \x7buser\x7d </tpl:\"é" := by
    decide +kernel
  refine ⟨template, isSource ▸ parsed, fun environment registry context name => ?_⟩
  rcases renders environment registry context name with ⟨compiled, succeeded, written⟩
  refine ⟨compiled, succeeded, fun host => (written host framedData).trans (congrArg Except.ok ?_)⟩
  decide +kernel

end Compile
end TemplateCascade
