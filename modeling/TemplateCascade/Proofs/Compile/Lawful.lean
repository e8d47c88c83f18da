import Mathlib
import TemplateCascade.Proofs.Compile.Noninterference
import TemplateCascade.Proofs.Compile.Splitting
import TemplateCascade.Proofs.Entries
import TemplateCascade.Proofs.Markup.Nesting

namespace TemplateCascade
namespace Compile

/-!
# Laws of generated code

A law says something of the code that is generated under each escaping.  If the generator's own steps keep
it, then all code that the built-in functions generate obeys it, whatever the nesting of segments, arguments
and inclusions; what has to be known of a template is only which text it holds and which calls it makes.

Every function is shown to keep every such law once.  So a new law needs no more than its own steps.
-/

open Markup (ArgumentOf BranchOf ParseErrors Segment Template Throughout nested nestedAll nestedArgument
  nestedArguments nestedBranches nestedNamed nestedOtherwise)
open Text (Escaping Span)

/-! ## Compilations that succeed -/

/-- Whatever a compilation yields has a property. -/
def Yields {Result : Type} (holds : Result → Prop) (compilation : CompileM Result) : Prop :=
  ∀ uses result noted, compilation.after uses = (.ok result, noted) → holds result

namespace Yields

variable {Result Other : Type} {holds : Result → Prop} {others : Other → Prop}

theorem pure {result : Result} (held : holds result) :
    Yields holds (Pure.pure result : CompileM Result) := by
  rintro uses _ noted ⟨rfl, rfl⟩
  exact held

theorem throw (error : CompileError) :
    Yields holds (MonadExcept.throw error : CompileM Result) := by
  intro uses result noted yielded
  cases yielded

theorem failAt (cause : Cause) (span : Span) :
    Yields holds (Compile.failAt cause span : CompileM Result) :=
  throw _

theorem bind {compilation : CompileM Result} {next : Result → CompileM Other}
    (first : Yields holds compilation) (then_ : ∀ result, holds result → Yields others (next result)) :
    Yields others (compilation >>= next) := by
  intro uses result noted yielded
  rcases CompileM.exists_of_after_bind yielded with ⟨found, between, ran, goesOn⟩
  exact then_ found (first uses found between ran) between result noted goesOn

/-- Where nothing has to be known of the first result, the rest decides. -/
theorem bind_any {compilation : CompileM Result} {next : Result → CompileM Other}
    (then_ : ∀ result, Yields others (next result)) : Yields others (compilation >>= next) :=
  bind (fun _ _ _ _ => trivial : Yields (fun _ => True) compilation) fun result _ => then_ result

theorem adapt {compilation : CompileM Result} (yields : Yields holds compilation)
    (wrap : CompileError → CompileError) : Yields holds (ExceptT.adapt wrap compilation) := by
  intro uses result noted yielded
  rw [CompileM.after_adapt, Prod.mk.injEq] at yielded
  cases ran : compilation.after uses with
  | mk outcome between =>
      rw [ran] at yielded
      cases outcome with
      | error error => cases yielded.1
      | ok found =>
          have same : found = result := Except.ok.inj yielded.1
          exact same ▸ yields uses found between ran

end Yields

/-! ## Laws -/

/-- What is to be shown of generated code, and what templates may do for it. -/
structure CodeLaw where
  /-- The characters that may be written as they are. -/
  allows : Char → Prop
  /-- What holds of code that is generated under an escaping. -/
  holds : Escaping → Code → Prop
  /-- The escapings that a call may ask for by name. -/
  admits : Escaping → Prop
  /-- Whether functions may be called that write markup of their own. -/
  markup : Prop

namespace CodeLaw

variable (law : CodeLaw)

/-- A text of characters that may be written as they are. -/
def Plain (text : String) : Prop :=
  ∀ character ∈ text.toList, law.allows character

/-- A function may be called with a text as its second argument, if that is a text. -/
def Permits (function : String) (second : Option String) : Prop :=
  (function = "raw" → law.admits .raw) ∧
  (function = "pagenav" ∨ function = "helper" → law.markup) ∧
  (function = "escape" → ∀ mode, second.bind Escaping.ofName? = some mode → law.admits mode)

/-- The generator's steps keep a law. -/
structure Kept : Prop where
  text : ∀ escaping content, law.Plain content → law.holds escaping (.text content)
  concatenate : ∀ escaping codes, (∀ code ∈ codes, law.holds escaping code) →
    law.holds escaping (Code.concatenate codes)
  conditional : ∀ escaping test body otherwise, law.holds escaping body → law.holds escaping otherwise →
    law.holds escaping (.conditional test body otherwise)
  each : ∀ escaping source key value body, law.holds escaping body →
    law.holds escaping (.each source key value body)
  reference : ∀ path, law.holds .raw (.reference path)
  format : ∀ kind value option, law.holds .raw (.format kind value option)
  link : ∀ kind data parameters, law.holds .raw (.link kind data parameters)
  /-- Code without any escaping is escaped for its place, or by a mode of its own. -/
  escaped : ∀ escaping code, law.holds .raw code → law.holds escaping (.escaped escaping code)
  forced : ∀ escaping mode code, law.admits mode → law.holds .raw code →
    law.holds escaping (.escaped mode code)
  admitted : ∀ mode, mode ≠ .raw → law.admits mode
  number : ∀ escaping amount, law.holds escaping (.constant (.number amount))
  arithmetic : ∀ escaping calculation, law.holds escaping (.arithmetic calculation)
  checked : law.Plain " checked=\"checked\""
  selected : law.Plain " selected=\"selected\""
  pageNavigation : law.markup → ∀ escaping link data page perPage total parameters,
    law.holds escaping (.pageNavigation link data page perPage total parameters)
  helper : law.markup → ∀ escaping name arguments, law.holds escaping (.helper name arguments)
  inclusion : ∀ escaping name, law.holds escaping (.inclusion name)

end CodeLaw

variable {law : CodeLaw}

theorem CodeLaw.Kept.empty (kept : law.Kept) (escaping : Escaping) : law.holds escaping Code.empty :=
  kept.text escaping "" nofun

/-- A part is plain text, or whatever it compiles to obeys the law. -/
inductive PartObeys (law : CodeLaw) : Pending → Prop where
  | literal {text : String} (span : Span) (plain : law.Plain text) :
      PartObeys law (.literal text span)
  | deferred (span : Span) {compile : Escaping → CompileM Code}
      (yields : ∀ escaping, Yields (law.holds escaping) (compile escaping)) :
      PartObeys law (.deferred span compile)

/-- All parts of an argument obey the law. -/
def ArgumentObeys (law : CodeLaw) (argument : PendingArgument) : Prop :=
  ∀ part ∈ argument.parts, PartObeys law part

/-- A call that the law permits, with arguments that obey it. -/
structure CallObeys (law : CodeLaw) (call : Call) : Prop where
  arguments : ∀ argument ∈ call.arguments, ArgumentObeys law argument
  named : ∀ entry ∈ call.named, ArgumentObeys law entry.2
  permitted : law.Permits call.name (call.arguments[1]?.bind PendingArgument.literalText?)

/-- All phrases are plain. -/
def PhrasesObey (law : CodeLaw) (phrases : Phrases) : Prop :=
  ∀ name text, phrases name = some text → law.Plain text

section Parts

theorem PartObeys.compile (kept : law.Kept) {part : Pending} (obeys : PartObeys law part)
    (escaping : Escaping) : Yields (law.holds escaping) (part.compile escaping) := by
  cases obeys with
  | literal span plain => exact Yields.pure (kept.text escaping _ plain)
  | deferred span yields => exact yields escaping

theorem compileEach_yields (kept : law.Kept) {parts : List Pending}
    (obey : ∀ part ∈ parts, PartObeys law part) (escaping : Escaping) :
    Yields (fun codes => ∀ code ∈ codes, law.holds escaping code) (compileEach escaping parts) := by
  induction parts with
  | nil => exact Yields.pure nofun
  | cons part rest inductionHypothesis =>
      rw [List.forall_mem_cons] at obey
      refine (obey.1.compile kept escaping).bind fun code first => ?_
      refine (inductionHypothesis obey.2).bind fun codes others => Yields.pure ?_
      exact List.forall_mem_cons.mpr ⟨first, others⟩

theorem compileParts_yields (kept : law.Kept) {parts : List Pending}
    (obey : ∀ part ∈ parts, PartObeys law part) (escaping : Escaping) :
    Yields (law.holds escaping) (compileParts escaping parts) :=
  (compileEach_yields kept obey escaping).bind fun codes all =>
    Yields.pure (kept.concatenate escaping codes all)

theorem ArgumentObeys.compile (kept : law.Kept) {argument : PendingArgument}
    (obeys : ArgumentObeys law argument) (escaping : Escaping) :
    Yields (law.holds escaping) (argument.compile escaping) :=
  compileParts_yields kept obeys escaping

/-- The text of an argument that obeys the law is plain. -/
theorem ArgumentObeys.plain_literalText {argument : PendingArgument}
    (obeys : ArgumentObeys law argument) {written : String}
    (isText : argument.literalText? = some written) : law.Plain written := by
  rw [PendingArgument.literalText?, Option.map_eq_some_iff] at isText
  rcases isText with ⟨texts, found, rfl⟩
  have plain : ∀ text ∈ texts, law.Plain text := by
    rw [ArgumentObeys] at obeys
    generalize argument.parts = parts at obeys found
    induction parts generalizing texts with
    | nil =>
        rw [List.mapM_nil, Option.pure_def, Option.some.injEq] at found
        exact found ▸ nofun
    | cons part rest inductionHypothesis =>
        rw [List.forall_mem_cons] at obeys
        rw [List.mapM_cons, Option.bind_eq_bind, Option.bind_eq_some_iff] at found
        rcases found with ⟨text, isLiteral, more⟩
        rw [Option.bind_eq_bind, Option.bind_eq_some_iff] at more
        rcases more with ⟨others, found, same⟩
        rw [Option.pure_def, Option.some.injEq] at same
        subst same
        refine List.forall_mem_cons.mpr ⟨?_, inductionHypothesis others obeys.2 found⟩
        cases obeys.1 with
        | literal span plain => exact Option.some.inj isLiteral ▸ plain
        | deferred span yields => cases isLiteral
  intro character member
  rw [String.toList_join, List.mem_flatMap] at member
  rcases member with ⟨text, isText, isPart⟩
  exact plain text isText character isPart

/-- Both the bodies of a choice and what is there otherwise obey the law. -/
theorem compileChoice_yields (kept : law.Kept) {branches : List (BranchOf Pending)}
    {otherwise : Option (List Pending)}
    (bodies : ∀ branch ∈ branches, ∀ part ∈ branch.body, PartObeys law part)
    (last : ∀ body, otherwise = some body → ∀ part ∈ body, PartObeys law part) (escaping : Escaping) :
    Yields (law.holds escaping) (compileChoice escaping otherwise branches) := by
  induction branches with
  | nil =>
      cases otherwise with
      | none => exact Yields.pure (kept.empty escaping)
      | some body => exact compileParts_yields kept (last body rfl) escaping
  | cons branch rest inductionHypothesis =>
      rw [List.forall_mem_cons] at bodies
      refine Yields.bind_any fun test => ?_
      refine (compileParts_yields kept bodies.1 escaping).bind fun body first => ?_
      refine (inductionHypothesis bodies.2).bind fun remaining others => Yields.pure ?_
      exact kept.conditional escaping test body remaining first others

end Parts

/-! ## Functions -/

/-- A function keeps a law in calls under a name. -/
def FunctionKeeps (law : CodeLaw) (name : String) (function : Function) : Prop :=
  ∀ (phrases : Phrases) (call : Call), PhrasesObey law phrases → CallObeys law call → call.name = name →
    ∀ escaping, Yields (law.holds escaping) (function phrases call escaping)

namespace BuiltIn

variable {name : String}

theorem choose_keeps (kept : law.Kept) : FunctionKeeps law name choose := by
  intro phrases call _ obeys _ escaping
  rcases call with ⟨called, arguments, named, span⟩
  have all : ∀ argument ∈ arguments, ArgumentObeys law argument := obeys.arguments
  match arguments, all with
  | [], _ => exact Yields.failAt _ _
  | [_], _ => exact Yields.failAt _ _
  | [_, body], all =>
      refine Yields.bind_any fun test => ?_
      refine ((all body (by simp)).compile kept escaping).bind fun code first => Yields.pure ?_
      exact kept.conditional escaping test code Code.empty first (kept.empty escaping)
  | [_, body, otherwise], all =>
      refine Yields.bind_any fun test => ?_
      refine ((all body (by simp)).compile kept escaping).bind fun code first => ?_
      refine ((all otherwise (by simp)).compile kept escaping).bind fun last second => Yields.pure ?_
      exact kept.conditional escaping test code last first second
  | _ :: _ :: _ :: _ :: _, _ => exact Yields.failAt _ _

theorem flag_keeps (kept : law.Kept) {markup : String} (plain : law.Plain markup) :
    FunctionKeeps law name (flag markup) := by
  intro phrases call _ _ _ escaping
  rcases call with ⟨called, arguments, named, span⟩
  match arguments with
  | [] => exact Yields.failAt _ _
  | [_] =>
      refine Yields.bind_any fun test => Yields.pure ?_
      exact kept.conditional escaping test _ _ (kept.text escaping markup plain) (kept.empty escaping)
  | _ :: _ :: _ => exact Yields.failAt _ _

theorem calculate_keeps (kept : law.Kept) : FunctionKeeps law name calculate := by
  intro phrases call _ _ _ escaping
  rcases call with ⟨called, arguments, named, span⟩
  match arguments with
  | [] => exact Yields.failAt _ _
  | [_] =>
      refine Yields.bind_any fun calculation => ?_
      cases calculation.fold? with
      | some amount => exact Yields.pure (kept.number escaping amount)
      | none => exact Yields.pure (kept.arithmetic escaping calculation)
  | _ :: _ :: _ => exact Yields.failAt _ _

theorem forced_keeps (kept : law.Kept) {mode : Escaping}
    (admitted : law.Permits name none → law.admits mode) : FunctionKeeps law name (forced mode) := by
  intro phrases call _ obeys sameName escaping
  rcases call with ⟨called, arguments, named, span⟩
  have all : ∀ argument ∈ arguments, ArgumentObeys law argument := obeys.arguments
  have permitted : law.Permits called _ := obeys.permitted
  have called_eq : called = name := sameName
  subst called_eq
  match arguments, all with
  | [], _ => exact Yields.failAt _ _
  | [value], all =>
      refine ((all value (by simp)).compile kept .raw).bind fun code first => Yields.pure ?_
      exact kept.forced escaping mode code (admitted ⟨permitted.1, permitted.2.1, nofun⟩) first
  | _ :: _ :: _, _ => exact Yields.failAt _ _

theorem modeOf_yields {call : Call} {argument : PendingArgument} {holds : Escaping → Prop}
    (admits : ∀ mode, argument.literalText?.bind Escaping.ofName? = some mode → holds mode) :
    Yields holds (modeOf call argument) := by
  unfold modeOf
  generalize argument.literalText? = text at admits
  cases text with
  | none => exact Yields.failAt _ _
  | some written =>
      rw [Option.bind_some] at admits
      dsimp only
      generalize Escaping.ofName? written = named at admits
      cases named with
      | none => exact Yields.failAt _ _
      | some mode => exact Yields.pure (admits mode rfl)

theorem escape_keeps (kept : law.Kept) : FunctionKeeps law "escape" escape := by
  intro phrases call _ obeys sameName escaping
  rcases call with ⟨called, arguments, named, span⟩
  have all : ∀ argument ∈ arguments, ArgumentObeys law argument := obeys.arguments
  have permitted : law.Permits called (arguments[1]?.bind PendingArgument.literalText?) :=
    obeys.permitted
  match arguments, all, permitted with
  | [], _, _ => exact Yields.failAt _ _
  | [value], all, _ =>
      refine ((all value (by simp)).compile kept .raw).bind fun code first => Yields.pure ?_
      exact kept.forced escaping .html code (kept.admitted .html nofun) first
  | [value, modeName], all, permitted =>
      rw [List.getElem?_cons_succ, List.getElem?_cons_zero, Option.bind_some] at permitted
      refine (modeOf_yields (permitted.2.2 sameName)).bind fun mode admitted => ?_
      refine ((all value (by simp)).compile kept .raw).bind fun code first => Yields.pure ?_
      exact kept.forced escaping mode code admitted first
  | _ :: _ :: _ :: _, _, _ => exact Yields.failAt _ _

theorem format_keeps (kept : law.Kept) (kind : FormatKind) : FunctionKeeps law name (format kind) := by
  intro phrases call _ _ _ escaping
  rcases call with ⟨called, arguments, named, span⟩
  match arguments with
  | [] => exact Yields.failAt _ _
  | [_] =>
      refine Yields.bind_any fun code => Yields.pure ?_
      exact kept.escaped escaping _ (kept.format kind code none)
  | [_, _] =>
      refine Yields.bind_any fun code => Yields.bind_any fun option => Yields.pure ?_
      exact kept.escaped escaping _ (kept.format kind code (some option))
  | _ :: _ :: _ :: _ => exact Yields.failAt _ _

theorem link_keeps (kept : law.Kept) : FunctionKeeps law name link := by
  intro phrases call _ _ _ escaping
  rcases call with ⟨called, arguments, named, span⟩
  match arguments with
  | [] => exact Yields.failAt _ _
  | [_] =>
      refine Yields.bind_any fun kind => Yields.bind_any fun parameters => Yields.pure ?_
      exact kept.escaped escaping _ (kept.link kind none parameters)
  | [_, _] =>
      refine Yields.bind_any fun kind => Yields.bind_any fun data => ?_
      refine Yields.bind_any fun parameters => Yields.pure ?_
      exact kept.escaped escaping _ (kept.link kind (some data) parameters)
  | _ :: _ :: _ :: _ => exact Yields.failAt _ _

theorem pageNavigation_keeps (kept : law.Kept) : FunctionKeeps law "pagenav" pageNavigation := by
  intro phrases call _ obeys sameName escaping
  have markup : law.markup := obeys.permitted.2.1 (Or.inl sameName)
  rcases call with ⟨called, arguments, named, span⟩
  match arguments with
  | [] => exact Yields.failAt _ _
  | [_] => exact Yields.failAt _ _
  | [_, _] =>
      refine Yields.bind_any fun link => Yields.bind_any fun data => ?_
      refine Yields.bind_any fun page => Yields.bind_any fun perPage => ?_
      refine Yields.bind_any fun total => Yields.bind_any fun parameters => Yields.pure ?_
      exact kept.pageNavigation markup escaping link data page perPage total parameters
  | _ :: _ :: _ :: _ => exact Yields.failAt _ _

theorem helper_keeps (kept : law.Kept) : FunctionKeeps law "helper" helper := by
  intro phrases call _ obeys sameName escaping
  have markup : law.markup := obeys.permitted.2.1 (Or.inr sameName)
  rcases call with ⟨called, arguments, named, span⟩
  match arguments with
  | [] => exact Yields.failAt _ _
  | _ :: _ =>
      refine Yields.bind_any fun helperName => Yields.bind_any fun codes => Yields.pure ?_
      exact kept.helper markup escaping helperName codes

/-! ### Phrases -/

/-- What fills a placeholder is an argument of the call. -/
theorem mem_of_fillerOf? {call : Call} {placeholder : List Char} {argument : PendingArgument}
    (found : fillerOf? call placeholder = some argument) :
    argument ∈ call.arguments ∨ ∃ name, (name, argument) ∈ call.named := by
  unfold fillerOf? at found
  split at found
  · cases found
  · exact .inl (List.mem_of_getElem? found)
  · exact .inr ⟨_, mem_of_entryNamed? found⟩

theorem obeys_of_fillerOf? {call : Call} (obeys : CallObeys law call) {placeholder : List Char}
    {argument : PendingArgument} (found : fillerOf? call placeholder = some argument) :
    ArgumentObeys law argument := by
  rcases mem_of_fillerOf? found with positional | ⟨_, named⟩
  · exact obeys.arguments argument positional
  · exact obeys.named _ named

theorem compilePieces_yields (kept : law.Kept) {call : Call} (obeys : CallObeys law call)
    (escaping : Escaping) {pieces : List Piece}
    (plain : ∀ piece ∈ pieces, law.Plain (String.ofList piece.source)) :
    Yields (fun codes => ∀ code ∈ codes, law.holds escaping code)
      (compilePieces call escaping pieces) := by
  induction pieces with
  | nil => exact Yields.pure nofun
  | cons piece rest inductionHypothesis =>
      rw [List.forall_mem_cons] at plain
      have others := inductionHypothesis plain.2
      cases piece with
      | text content =>
          refine others.bind fun codes all => Yields.pure ?_
          exact List.forall_mem_cons.mpr ⟨kept.text escaping _ plain.1, all⟩
      | placeholder name =>
          rw [compilePieces]
          cases found : fillerOf? call name with
          | none =>
              refine (Yields.pure (kept.text escaping _ plain.1)).bind fun code first => ?_
              refine others.bind fun codes all => Yields.pure ?_
              exact List.forall_mem_cons.mpr ⟨first, all⟩
          | some argument =>
              refine ((obeys_of_fillerOf? obeys found).compile kept escaping).bind fun code first => ?_
              refine others.bind fun codes all => Yields.pure ?_
              exact List.forall_mem_cons.mpr ⟨first, all⟩

/-- The pieces of a plain phrase are plain. -/
theorem plain_pieces {text : String} (plain : law.Plain text) :
    ∀ piece ∈ pieces text.toList, law.Plain (String.ofList piece.source) := by
  intro piece member character inPiece
  rw [String.toList_ofList] at inPiece
  apply plain
  rw [← flatMap_source_pieces text.toList]
  exact List.mem_flatMap.mpr ⟨piece, member, inPiece⟩

/-- A text without its blank margins has no other characters. -/
theorem plain_trim {text : String} (plain : law.Plain text) : law.Plain (Text.trim text) := by
  intro character member
  rw [Text.trim, String.toList_ofList, Text.trimBlanks, Text.dropTrailingBlanks, List.mem_reverse] at member
  have kept := (List.dropWhile_suffix Text.isBlank).subset member
  rw [List.mem_reverse] at kept
  exact plain character ((List.dropWhile_suffix Text.isBlank).subset kept)

/-- A phrase is written with its placeholders filled, or as its name. -/
theorem phrase_keeps (kept : law.Kept) : FunctionKeeps law name phrase := by
  intro phrases call plainPhrases obeys _ escaping
  unfold phrase
  split
  · exact Yields.failAt _ _
  · next nameArgument others isCall =>
      have nameObeys := obeys.arguments nameArgument (isCall ▸ List.mem_cons_self)
      split
      · exact Yields.failAt _ _
      · next written isText =>
          dsimp only
          split
          · exact Yields.failAt _ _
          · refine Yields.bind_any fun _ => ?_
            split
            · exact Yields.pure (kept.text escaping _ (plain_trim (nameObeys.plain_literalText isText)))
            · next text found =>
                have plain := plain_pieces (plainPhrases _ text found)
                refine (compilePieces_yields kept obeys escaping plain).bind fun codes all => ?_
                exact Yields.pure (kept.concatenate escaping codes all)

end BuiltIn

theorem builtIn_keeps (kept : law.Kept) {name : String} {function : Function}
    (found : Registry.builtIn.function? name = some function) : FunctionKeeps law name function := by
  have member := mem_builtInFunctions found
  simp only [Registry.builtInFunctions, List.mem_cons, List.not_mem_nil, or_false, Prod.mk.injEq] at member
  rcases member with ⟨rfl, rfl⟩ | ⟨rfl, rfl⟩ | ⟨rfl, rfl⟩ | ⟨rfl, rfl⟩ | ⟨rfl, rfl⟩ | ⟨rfl, rfl⟩ |
    ⟨rfl, rfl⟩ | ⟨rfl, rfl⟩ | ⟨rfl, rfl⟩ | ⟨rfl, rfl⟩ | ⟨rfl, rfl⟩ | ⟨rfl, rfl⟩ | ⟨rfl, rfl⟩ |
    ⟨rfl, rfl⟩ | ⟨rfl, rfl⟩ | ⟨rfl, rfl⟩ | ⟨rfl, rfl⟩
  · exact BuiltIn.choose_keeps kept
  · exact BuiltIn.flag_keeps kept kept.checked
  · exact BuiltIn.flag_keeps kept kept.selected
  · exact BuiltIn.calculate_keeps kept
  · exact BuiltIn.escape_keeps kept
  · exact BuiltIn.forced_keeps kept fun permitted => permitted.1 rfl
  · exact BuiltIn.forced_keeps kept fun _ => kept.admitted .url (by decide)
  · exact BuiltIn.forced_keeps kept fun _ => kept.admitted .script (by decide)
  · exact BuiltIn.format_keeps kept _
  · exact BuiltIn.format_keeps kept _
  · exact BuiltIn.format_keeps kept _
  · exact BuiltIn.format_keeps kept _
  · exact BuiltIn.format_keeps kept _
  · exact BuiltIn.link_keeps kept
  · exact BuiltIn.pageNavigation_keeps kept
  · exact BuiltIn.helper_keeps kept
  · exact BuiltIn.phrase_keeps kept

/-! ## Segments -/

/-- A segment holds only plain text and makes only permitted calls. -/
def SegmentObeys (law : CodeLaw) : Segment → Prop
  | .literal text _ => law.Plain text
  | .call name arguments _ _ => law.Permits name (arguments[1]?.bind ArgumentOf.literalText?)
  | _ => True

/-- All of some segments obey the law. -/
abbrev AllObey (law : CodeLaw) : List Segment → Prop :=
  Throughout (SegmentObeys law)

/-- All parts of some pending parts obey the law. -/
abbrev PartsObey (law : CodeLaw) (parts : List Pending) : Prop :=
  ∀ part ∈ parts, PartObeys law part

/-- What an inclusion compiles to obeys the law. -/
def InclusionKeeps (law : CodeLaw) (inclusion : Inclusion) : Prop :=
  ∀ name span escaping, Yields (law.holds escaping) (inclusion name span escaping)

section Segments

variable {phrases : Phrases} {inclusion : Inclusion}

theorem compileCall_yields (kept : law.Kept) (plain : PhrasesObey law phrases) {call : Call}
    (obeys : CallObeys law call) (escaping : Escaping) :
    Yields (law.holds escaping) (compileCall Registry.builtIn phrases call escaping) := by
  unfold compileCall
  cases found : Registry.builtIn.function? call.name with
  | none => exact Yields.failAt _ _
  | some function => exact builtIn_keeps kept found phrases call plain obeys rfl escaping

/-- A part is literal text exactly if its segment is. -/
theorem literal?_pending (segment : Segment) :
    (pending Registry.builtIn phrases inclusion segment).literal? = segment.literal? := by
  cases segment <;> rfl

theorem literals_pendingAll (segments : List Segment) :
    (pendingAll Registry.builtIn phrases inclusion segments).mapM Pending.literal? =
      segments.mapM Segment.literal? := by
  induction segments with
  | nil => rfl
  | cons segment rest inductionHypothesis =>
      rw [pendingAll, List.mapM_cons, List.mapM_cons, literal?_pending, inductionHypothesis]

theorem literalText?_pendingArgument (argument : ArgumentOf Segment) :
    (pendingArgument Registry.builtIn phrases inclusion argument).literalText? =
      argument.literalText? := by
  rcases argument with ⟨parts, span, quoted⟩
  exact congrArg (Option.map String.join) (literals_pendingAll parts)

theorem pendingArguments_eq_map (arguments : List (ArgumentOf Segment)) :
    pendingArguments Registry.builtIn phrases inclusion arguments =
      arguments.map (pendingArgument Registry.builtIn phrases inclusion) := by
  induction arguments with
  | nil => rfl
  | cons argument rest inductionHypothesis => rw [pendingArguments, inductionHypothesis, List.map_cons]

theorem literalText?_second (arguments : List (ArgumentOf Segment)) :
    (pendingArguments Registry.builtIn phrases inclusion arguments)[1]?.bind
        PendingArgument.literalText? = arguments[1]?.bind ArgumentOf.literalText? := by
  rw [pendingArguments_eq_map, List.getElem?_map]
  cases arguments[1]? with
  | none => rfl
  | some argument => exact literalText?_pendingArgument argument

mutual

theorem pending_obeys (kept : law.Kept) (plain : PhrasesObey law phrases)
    (keeps : InclusionKeeps law inclusion) : ∀ segment : Segment, AllObey law (nested .written segment) →
      PartObeys law (pending Registry.builtIn phrases inclusion segment)
  | .literal text span, obey => .literal span obey.head
  | .reference path span, _ =>
      .deferred span fun escaping => Yields.pure (kept.escaped escaping _ (kept.reference path))
  | .call name arguments named span, obey => by
      have permitted : law.Permits name (arguments[1]?.bind ArgumentOf.literalText?) :=
        obey.head
      rw [← literalText?_second] at permitted
      exact .deferred span (compileCall_yields kept plain
        ⟨pendingArguments_obey kept plain keeps arguments obey.tail.left,
          pendingNamed_obey kept plain keeps named obey.tail.right, permitted⟩)
  | .choice branches otherwise span, obey =>
      .deferred span (compileChoice_yields kept
        (pendingBranches_obey kept plain keeps branches obey.tail.left)
        (pendingOtherwise_obeys kept plain keeps otherwise obey.tail.right))
  | .loop source value key body span, obey =>
      .deferred span fun escaping =>
        Yields.bind_any fun sourceCode =>
          (compileParts_yields kept (pendingAll_obey kept plain keeps body obey.tail.right) escaping).bind
            fun bodyCode held => Yields.pure (kept.each escaping sourceCode key value bodyCode held)
  | .inclusion name span, _ => .deferred span fun escaping => keeps name span escaping

theorem pendingAll_obey (kept : law.Kept) (plain : PhrasesObey law phrases)
    (keeps : InclusionKeeps law inclusion) : ∀ segments : List Segment,
      AllObey law (nestedAll .written segments) →
      PartsObey law (pendingAll Registry.builtIn phrases inclusion segments)
  | [], _ => nofun
  | segment :: rest, obey =>
      List.forall_mem_cons.mpr ⟨pending_obeys kept plain keeps segment obey.left,
        pendingAll_obey kept plain keeps rest obey.right⟩

theorem pendingArgument_obeys (kept : law.Kept) (plain : PhrasesObey law phrases)
    (keeps : InclusionKeeps law inclusion) : ∀ argument : ArgumentOf Segment,
      AllObey law (nestedArgument .written argument) →
      ArgumentObeys law (pendingArgument Registry.builtIn phrases inclusion argument)
  | ⟨parts, _, _⟩, obey => pendingAll_obey kept plain keeps parts obey

theorem pendingArguments_obey (kept : law.Kept) (plain : PhrasesObey law phrases)
    (keeps : InclusionKeeps law inclusion) : ∀ arguments : List (ArgumentOf Segment),
      AllObey law (nestedArguments .written arguments) →
      ∀ argument ∈ pendingArguments Registry.builtIn phrases inclusion arguments,
        ArgumentObeys law argument
  | [], _ => nofun
  | argument :: rest, obey =>
      List.forall_mem_cons.mpr ⟨pendingArgument_obeys kept plain keeps argument obey.left,
        pendingArguments_obey kept plain keeps rest obey.right⟩

theorem pendingNamed_obey (kept : law.Kept) (plain : PhrasesObey law phrases)
    (keeps : InclusionKeeps law inclusion) : ∀ named : List (String × ArgumentOf Segment),
      AllObey law (nestedNamed .written named) →
      ∀ entry ∈ pendingNamed Registry.builtIn phrases inclusion named, ArgumentObeys law entry.2
  | [], _ => nofun
  | (_, argument) :: rest, obey =>
      List.forall_mem_cons.mpr ⟨pendingArgument_obeys kept plain keeps argument obey.left,
        pendingNamed_obey kept plain keeps rest obey.right⟩

theorem pendingBranches_obey (kept : law.Kept) (plain : PhrasesObey law phrases)
    (keeps : InclusionKeeps law inclusion) : ∀ branches : List (BranchOf Segment),
      AllObey law (nestedBranches .written branches) →
      ∀ branch ∈ pendingBranches Registry.builtIn phrases inclusion branches, PartsObey law branch.body
  | [], _ => nofun
  | ⟨_, body, _⟩ :: rest, obey =>
      List.forall_mem_cons.mpr ⟨pendingAll_obey kept plain keeps body obey.right.left,
        pendingBranches_obey kept plain keeps rest obey.right.right⟩

theorem pendingOtherwise_obeys (kept : law.Kept) (plain : PhrasesObey law phrases)
    (keeps : InclusionKeeps law inclusion) : ∀ otherwise : Option (List Segment),
      AllObey law (nestedOtherwise .written otherwise) →
      ∀ body, pendingOtherwise Registry.builtIn phrases inclusion otherwise = some body →
        PartsObey law body
  | none, _ => nofun
  | some segments, obey => by
      rintro body ⟨⟩
      exact pendingAll_obey kept plain keeps segments obey

end

theorem compileSegments_yields (kept : law.Kept) (plain : PhrasesObey law phrases)
    (keeps : InclusionKeeps law inclusion) {segments : List Segment}
    (obey : AllObey law (nestedAll .written segments)) (escaping : Escaping) :
    Yields (law.holds escaping)
      (compileSegments Registry.builtIn phrases inclusion escaping segments) :=
  compileParts_yields kept (pendingAll_obey kept plain keeps segments obey) escaping

end Segments

/-! ## Templates -/

/-- An inclusion yields itself where it is not followed, and what the template yields where it is. -/
theorem includeTemplate_yields {holds : Code → Prop} {environment : Environment} {context : Context}
    {stack : List String} {name : String} {span : Span} {escaping : Escaping}
    (left : context.expandsIncludes = false → holds (.inclusion name))
    (followed : ∀ template, environment.template name context.style = .ok (some template) →
      stack.contains name = false →
      Yields holds (compileSegments Registry.builtIn (fun phrase => environment.phrase phrase context.language)
        (includeTemplate environment Registry.builtIn context (stack ++ [name])) escaping
        template.segments)) :
    Yields holds (includeTemplate environment Registry.builtIn context stack name span escaping) := by
  rw [includeTemplate_eq]
  split
  · exact Yields.failAt _ _
  · next visited =>
      refine Yields.bind_any fun _ => ?_
      cases answer : environment.template name context.style with
      | error errors =>
          simp only [includeFound]
          split
          · exact Yields.throw _
          · next stays => exact Yields.pure (left (Bool.eq_false_iff.mpr stays))
      | ok present =>
          cases present with
          | none => exact Yields.failAt _ _
          | some template =>
              simp only [includeFound]
              split
              · exact (followed template answer (Bool.eq_false_iff.mpr visited)).adapt _
              · next stays => exact Yields.pure (left (Bool.eq_false_iff.mpr stays))

/-- All templates at a style and all phrases at a language obey the law. -/
structure EnvironmentObeys (law : CodeLaw) (environment : Environment) (context : Context) : Prop where
  templates : ∀ name template, environment.template name context.style = .ok (some template) →
    AllObey law (nestedAll .written template.segments)
  phrases : PhrasesObey law fun name => environment.phrase name context.language

theorem includeTemplate_keeps (kept : law.Kept) {environment : Environment} {context : Context}
    (obeys : EnvironmentObeys law environment context) (stack : List String) :
    InclusionKeeps law (includeTemplate environment Registry.builtIn context stack) := by
  induction stack using stack_induction environment context.style with
  | step stack inductionHypothesis =>
      intro name span escaping
      refine includeTemplate_yields (fun _ => kept.inclusion escaping name) fun template found fresh => ?_
      exact compileSegments_yields kept obeys.phrases (inductionHypothesis name template found fresh)
        (obeys.templates name template found) escaping

end Compile
end TemplateCascade
