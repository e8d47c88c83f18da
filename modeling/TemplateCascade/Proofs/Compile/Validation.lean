import TemplateCascade.Proofs.Compile.Shadowing

namespace TemplateCascade
namespace Compile

/-!
# Validation agrees with full compilation

Every built-in function relates calls whose arguments keep step, and so do segments.  Only the function
for phrases looks at what the two sites have for a phrase, and only inclusions are compiled in another
way.  At one site the validation then has the error of the full compilation, unless that is in an included
template.  Of two sites it is enough that the validation fills in every placeholder that the full
compilation fills in.
-/

open Expression (Whatever)
open Markup (ArgumentOf BranchOf ParseErrors Segment Template)
open Text (Escaping Span)

/-! ## Functions -/

/-- The placeholders that a phrase has, if there is the phrase. -/
def placeholders (text : Option String) : List (List Char) :=
  (text.elim [] fun text => pieces text.toList).filterMap fun piece =>
    match piece with
    | .text _ => none
    | .placeholder name => some name

/-- What phrases are to a full compilation, and what they are to the validation: the same, or at any rate
nothing has to be filled in that the validation does not fill in. -/
structure PhrasesShadow (allowance : Allowance) (phrases quickPhrases : Phrases) : Prop where
  same : ¬ allowance.lenient → phrases = quickPhrases
  fewer : ∀ name, ∀ placeholder ∈ placeholders (phrases name), placeholder ∈ placeholders (quickPhrases name)

/-- A function does alike in calls that keep step. -/
def FunctionShadows (allowance : Allowance) (phrases quickPhrases : Phrases) (function : Function) : Prop :=
  ∀ full quick : Call, CallShadows allowance full quick → ∀ escaping,
    Shadows allowance Whatever (function phrases full escaping) (function quickPhrases quick escaping)

namespace BuiltIn

variable {allowance : Allowance} {phrases quickPhrases : Phrases}

theorem refuseCount_shadows {full quick : Call} (shadows : CallShadows allowance full quick)
    (expected : ArgumentRange) :
    Shadows allowance Whatever (full.refuseCount expected : CompileM Code)
      (quick.refuseCount expected : CompileM Code) := by
  rcases shadows with ⟨name, arguments, named, span⟩
  unfold Call.refuseCount
  rw [arguments.length_eq]
  exact Shadows.failAt span rfl

theorem choose_shadows : FunctionShadows allowance phrases quickPhrases choose := by
  intro full quick shadows escaping
  have refuse := refuseCount_shadows shadows ⟨2, some 3⟩
  rcases shadows with ⟨name, _ | ⟨condition, _ | ⟨body, _ | ⟨otherwise, _ | _⟩⟩⟩, named, span⟩
  · exact refuse
  · exact refuse
  · exact condition.condition.bind fun _ _ _ =>
      (body.compile escaping).bind fun _ _ _ => Shadows.pure trivial
  · exact condition.condition.bind fun _ _ _ => (body.compile escaping).bind fun _ _ _ =>
      (otherwise.compile escaping).bind fun _ _ _ => Shadows.pure trivial
  · exact refuse

theorem flag_shadows (markup : String) : FunctionShadows allowance phrases quickPhrases (flag markup) := by
  intro full quick shadows escaping
  have refuse := refuseCount_shadows shadows ⟨1, some 1⟩
  rcases shadows with ⟨name, _ | ⟨condition, _ | _⟩, named, span⟩
  · exact refuse
  · exact condition.condition.bind fun _ _ _ => Shadows.pure trivial
  · exact refuse

theorem calculate_shadows : FunctionShadows allowance phrases quickPhrases calculate := by
  intro full quick shadows escaping
  have refuse := refuseCount_shadows shadows ⟨1, some 1⟩
  rcases shadows with ⟨name, _ | ⟨argument, _ | _⟩, named, span⟩
  · exact refuse
  · refine argument.calculation.bind fun calculation other _ => ?_
    cases calculation.fold? <;> cases other.fold? <;> exact Shadows.pure trivial
  · exact refuse

theorem forced_shadows (mode : Escaping) : FunctionShadows allowance phrases quickPhrases (forced mode) := by
  intro full quick shadows escaping
  have refuse := refuseCount_shadows shadows ⟨1, some 1⟩
  rcases shadows with ⟨name, _ | ⟨value, _ | _⟩, named, span⟩
  · exact refuse
  · exact (value.compile .raw).bind fun _ _ _ => Shadows.pure trivial
  · exact refuse

theorem modeOf_shadows {full quick : Call} (shadows : CallShadows allowance full quick)
    {fullArgument quickArgument : PendingArgument}
    (argument : ArgumentShadows allowance fullArgument quickArgument) :
    Shadows allowance Eq (modeOf full fullArgument) (modeOf quick quickArgument) := by
  rcases shadows with ⟨name, _, _, span⟩
  unfold modeOf
  rw [argument.literalText, argument.span]
  cases quickArgument.literalText? with
  | none => exact Shadows.failAt _ rfl
  | some written =>
      dsimp only
      cases Escaping.ofName? written with
      | none => exact Shadows.failAt _ rfl
      | some mode => exact Shadows.pure rfl

theorem escape_shadows : FunctionShadows allowance phrases quickPhrases escape := by
  intro full quick shadows escaping
  have refuse := refuseCount_shadows shadows ⟨1, some 2⟩
  have modes : ∀ {first second}, ArgumentShadows allowance first second →
      Shadows allowance Eq (modeOf full first) (modeOf quick second) := modeOf_shadows shadows
  rcases shadows with ⟨name, _ | ⟨value, _ | ⟨modeName, _ | _⟩⟩, named, span⟩
  · exact refuse
  · exact (value.compile .raw).bind fun _ _ _ => Shadows.pure trivial
  · exact (modes modeName).bind fun _ _ _ =>
      (value.compile .raw).bind fun _ _ _ => Shadows.pure trivial
  · exact refuse

theorem format_shadows (kind : FormatKind) :
    FunctionShadows allowance phrases quickPhrases (format kind) := by
  intro full quick shadows escaping
  have refuse := refuseCount_shadows shadows ⟨1, some 2⟩
  rcases shadows with ⟨name, _ | ⟨value, _ | ⟨option, _ | _⟩⟩, named, span⟩
  · exact refuse
  · exact (value.compile .raw).bind fun _ _ _ => Shadows.pure trivial
  · exact (value.compile .raw).bind fun _ _ _ =>
      (option.compile .raw).bind fun _ _ _ => Shadows.pure trivial
  · exact refuse

theorem link_shadows : FunctionShadows allowance phrases quickPhrases link := by
  intro full quick shadows escaping
  have refuse := refuseCount_shadows shadows ⟨1, some 2⟩
  rcases shadows with ⟨name, _ | ⟨kind, _ | ⟨data, _ | _⟩⟩, named, span⟩
  · exact refuse
  · exact (kind.compile .raw).bind fun _ _ _ =>
      (compileNamed_shadows named).bind fun _ _ _ => Shadows.pure trivial
  · exact (kind.compile .raw).bind fun _ _ _ => (data.compile .raw).bind fun _ _ _ =>
      (compileNamed_shadows named).bind fun _ _ _ => Shadows.pure trivial
  · exact refuse

theorem entryNamed_shadows {full quick : List (String × PendingArgument)}
    (shadows : List.Forall₂ (NamedShadows allowance) full quick) (name : String) :
    Option.Rel (ArgumentShadows allowance) (entryNamed? full name) (entryNamed? quick name) :=
  entryNamed_related (fun entry => entry.related) shadows name

theorem required_shadows {full quick : Call} (shadows : CallShadows allowance full quick) (name : String) :
    Shadows allowance Whatever (required full name) (required quick name) := by
  rcases shadows with @⟨called, arguments, quickArguments, _, fullNamed, quickNamed, named, span⟩
  have entries := entryNamed_shadows named name
  unfold required
  dsimp only
  generalize entryNamed? fullNamed name = fullEntry at entries ⊢
  generalize entryNamed? quickNamed name = quickEntry at entries ⊢
  cases entries with
  | none => exact Shadows.failAt span rfl
  | some argument => exact argument.compile .raw

theorem pageNavigation_shadows : FunctionShadows allowance phrases quickPhrases pageNavigation := by
  intro full quick shadows escaping
  have refuse := refuseCount_shadows shadows ⟨2, some 2⟩
  have entry := required_shadows shadows
  rcases shadows with ⟨name, _ | ⟨link, _ | ⟨data, _ | _⟩⟩, named, span⟩
  · exact refuse
  · exact refuse
  · exact (link.compile .raw).bind fun _ _ _ => (data.compile .raw).bind fun _ _ _ =>
      (entry "page").bind fun _ _ _ => (entry "per_page").bind fun _ _ _ =>
        (entry "total").bind fun _ _ _ =>
          (compileNamed_shadows (filter_related (fun entry => entry.related) named fun name =>
            !isPageArgument name)).bind fun _ _ _ => Shadows.pure trivial
  · exact refuse

theorem helper_shadows : FunctionShadows allowance phrases quickPhrases helper := by
  intro full quick shadows escaping
  have refuse := refuseCount_shadows shadows ⟨1, none⟩
  rcases shadows with ⟨name, _ | ⟨helperName, arguments⟩, named, span⟩
  · exact refuse
  · exact (helperName.compile .raw).bind fun _ _ _ =>
      (compileArguments_shadows arguments).bind fun _ _ _ => Shadows.pure trivial

theorem fillerOf_shadows {full quick : Call} (shadows : CallShadows allowance full quick)
    (placeholder : List Char) :
    Option.Rel (ArgumentShadows allowance) (fillerOf? full placeholder)
      (fillerOf? quick placeholder) := by
  rcases shadows with ⟨_, arguments, named, _⟩
  exact fillerOf_related (fun entry => entry.related) arguments named placeholder

/-- What fills a placeholder on both sides; without an argument it stays as it is written. -/
def compileFiller (call : Call) (escaping : Escaping) (name : List Char) : CompileM Code :=
  match fillerOf? call name with
  | some argument => argument.compile escaping
  | none => pure (.text (String.ofList (Piece.placeholder name).source))

theorem compileFiller_shadows {full quick : Call} (shadows : CallShadows allowance full quick)
    (escaping : Escaping) (name : List Char) :
    Shadows allowance Whatever (compileFiller full escaping name) (compileFiller quick escaping name) := by
  have fillers := fillerOf_shadows shadows name
  unfold compileFiller
  generalize fillerOf? full name = fullFiller at fillers ⊢
  generalize fillerOf? quick name = quickFiller at fillers ⊢
  cases fillers with
  | none => exact Shadows.pure trivial
  | some argument => exact argument.compile escaping

theorem compilePieces_placeholder (call : Call) (escaping : Escaping) (name : List Char)
    (rest : List Piece) :
    compilePieces call escaping (.placeholder name :: rest) = (do
      let code ← compileFiller call escaping name
      let more ← compilePieces call escaping rest
      pure (code :: more)) := by
  rw [compilePieces, compileFiller]
  cases fillerOf? call name <;> rfl

theorem compilePieces_shadows {full quick : Call} (shadows : CallShadows allowance full quick)
    (escaping : Escaping) (pieces : List Piece) :
    Shadows allowance Whatever (compilePieces full escaping pieces)
      (compilePieces quick escaping pieces) := by
  induction pieces with
  | nil => exact Shadows.pure trivial
  | cons piece rest inductionHypothesis =>
      cases piece with
      | text content => exact inductionHypothesis.bind fun _ _ _ => Shadows.pure trivial
      | placeholder name =>
          rw [compilePieces_placeholder, compilePieces_placeholder]
          exact (compileFiller_shadows shadows escaping name).bind fun _ _ _ =>
            inductionHypothesis.bind fun _ _ _ => Shadows.pure trivial

/-- Where the pieces of a phrase have been compiled, every placeholder has been filled. -/
theorem exists_filled {call : Call} {escaping : Escaping} {pieces : List Piece} {uses noted : Uses}
    {codes : List Code} (compiled : (compilePieces call escaping pieces).after uses = (.ok codes, noted))
    {name : List Char} (member : Piece.placeholder name ∈ pieces) :
    ∃ before code after, (compileFiller call escaping name).after before = (.ok code, after) := by
  induction pieces generalizing uses noted codes with
  | nil => cases member
  | cons piece rest inductionHypothesis =>
      cases piece with
      | text content =>
          have later : Piece.placeholder name ∈ rest := by simpa using member
          rcases CompileM.exists_of_after_bind compiled with ⟨_, _, others, _⟩
          exact inductionHypothesis others later
      | placeholder first =>
          rw [compilePieces_placeholder] at compiled
          rcases CompileM.exists_of_after_bind compiled with ⟨code, after, filled, goesOn⟩
          rcases List.mem_cons.mp member with here | later
          · cases here
            exact ⟨uses, code, after, filled⟩
          · rcases CompileM.exists_of_after_bind goesOn with ⟨_, _, others, _⟩
            exact inductionHypothesis others later

/-- Pieces compile unless the filling of a placeholder fails. -/
theorem compilePieces_passes {call : Call} {escaping : Escaping} {pieces : List Piece}
    (fillers : ∀ name, Piece.placeholder name ∈ pieces →
      Passes allowance (compileFiller call escaping name)) :
    Passes allowance (compilePieces call escaping pieces) := by
  induction pieces with
  | nil => exact Passes.pure _
  | cons piece rest inductionHypothesis =>
      have others := inductionHypothesis fun name member => fillers name (List.mem_cons_of_mem _ member)
      cases piece with
      | text content => exact others.bind fun _ => Passes.pure _
      | placeholder name =>
          rw [compilePieces_placeholder]
          exact (fillers name List.mem_cons_self).bind fun _ => others.bind fun _ => Passes.pure _

/-- The code of a phrase, by its text if there is one. -/
def inlined (call : Call) (escaping : Escaping) (name : String) : Option String → CompileM Code
  | none => pure (.text name)
  | some text => do
      let codes ← compilePieces call escaping (pieces text.toList)
      pure (Code.concatenate codes)

theorem mem_placeholders {text : String} {name : List Char} :
    name ∈ placeholders (some text) ↔ Piece.placeholder name ∈ pieces text.toList := by
  simp only [placeholders, Option.elim_some, List.mem_filterMap]
  constructor
  · rintro ⟨_ | _, member, same⟩
    · cases same
    · rw [← Option.some.inj same]
      exact member
  · exact fun member => ⟨_, member, rfl⟩

/-- Where a call has filled in all the placeholders that another text has, the call for that text does not
fail by itself. -/
theorem inlined_passes (permitted : allowance.lenient) {full quick : Call}
    (shadows : CallShadows allowance full quick) {escaping : Escaping} {name : String}
    {text quickText : Option String}
    (fewer : ∀ placeholder ∈ placeholders text, placeholder ∈ placeholders quickText) {uses noted : Uses}
    {code : Code} (filledIn : (inlined quick escaping name quickText).after uses = (.ok code, noted)) :
    Passes allowance (inlined full escaping name text) := by
  cases text with
  | none => exact Passes.pure _
  | some text =>
      refine (compilePieces_passes fun filler member => ?_).bind fun _ => Passes.pure _
      have inQuick := fewer filler (mem_placeholders.mpr member)
      cases quickText with
      | none => simp [placeholders] at inQuick
      | some source =>
          rcases CompileM.exists_of_after_bind filledIn with ⟨codes, _, compiled, _⟩
          rcases exists_filled compiled (mem_placeholders.mp inQuick) with ⟨before, code, after, filled⟩
          exact (compileFiller_shadows shadows escaping filler).passes permitted filled

theorem inlined_shadows (alike : PhrasesShadow allowance phrases quickPhrases) {full quick : Call}
    (shadows : CallShadows allowance full quick) (escaping : Escaping) (name : String) :
    Shadows allowance Whatever (inlined full escaping name (phrases name))
      (inlined quick escaping name (quickPhrases name)) := by
  by_cases permitted : allowance.lenient
  · -- The two texts may have their placeholders in different orders, so that the calls cannot be followed
    -- step by step.  It only counts whether each of them fails.
    intro more fewer _
    cases ended : (inlined quick escaping name (quickPhrases name)).after fewer with
    | mk outcome noted =>
        cases outcome with
        | error error => exact .refused permitted _ error noted
        | ok code =>
            exact Ended.of_passes permitted (inlined_passes permitted shadows (alike.fewer name) ended) more _
  · rw [alike.same permitted]
    cases quickPhrases name with
    | none => exact Shadows.pure trivial
    | some text =>
        exact (compilePieces_shadows shadows escaping _).bind fun _ _ _ => Shadows.pure trivial

theorem phrase_shadows (alike : PhrasesShadow allowance phrases quickPhrases) :
    FunctionShadows allowance phrases quickPhrases phrase := by
  intro full quick shadows escaping
  have refuse := refuseCount_shadows shadows ⟨1, none⟩
  have filled := inlined_shadows alike shadows escaping
  rcases shadows with ⟨name, _ | ⟨nameArgument, rest⟩, named, span⟩
  · exact refuse
  · simp only [phrase]
    rw [nameArgument.literalText, nameArgument.span]
    split
    · exact Shadows.failAt _ rfl
    · next written _ =>
        split
        · exact Shadows.failAt _ rfl
        · refine (Shadows.notePhrase _).bind fun _ _ _ => ?_
          have inlined := filled (Text.trim written)
          cases text : phrases (Text.trim written) <;>
            cases quickText : quickPhrases (Text.trim written) <;> rw [text, quickText] at inlined <;>
            exact inlined

end BuiltIn

theorem builtIn_shadows {allowance : Allowance} {phrases quickPhrases : Phrases}
    (alike : PhrasesShadow allowance phrases quickPhrases) {name : String} {function : Function}
    (found : Registry.builtIn.function? name = some function) :
    FunctionShadows allowance phrases quickPhrases function := by
  refine function_builtIn_of_forall (FunctionShadows allowance phrases quickPhrases) ?_ found
  intro entry member
  simp only [Registry.builtInFunctions, List.mem_cons, List.not_mem_nil, or_false] at member
  rcases member with rfl | rfl | rfl | rfl | rfl | rfl | rfl | rfl | rfl | rfl | rfl | rfl | rfl |
    rfl | rfl | rfl | rfl
  · exact BuiltIn.choose_shadows
  · exact BuiltIn.flag_shadows _
  · exact BuiltIn.flag_shadows _
  · exact BuiltIn.calculate_shadows
  · exact BuiltIn.escape_shadows
  · exact BuiltIn.forced_shadows _
  · exact BuiltIn.forced_shadows _
  · exact BuiltIn.forced_shadows _
  · exact BuiltIn.format_shadows _
  · exact BuiltIn.format_shadows _
  · exact BuiltIn.format_shadows _
  · exact BuiltIn.format_shadows _
  · exact BuiltIn.format_shadows _
  · exact BuiltIn.link_shadows
  · exact BuiltIn.pageNavigation_shadows
  · exact BuiltIn.helper_shadows
  · exact BuiltIn.phrase_shadows alike

/-! ## Segments -/

/-- What inclusions compile to on both sides. -/
def InclusionShadows (allowance : Allowance) (full quick : Inclusion) : Prop :=
  ∀ name span escaping,
    Shadows allowance Whatever (full name span escaping) (quick name span escaping)

section Segments

variable {allowance : Allowance} {phrases quickPhrases : Phrases} {inclusion quickInclusion : Inclusion}

theorem compileCall_shadows (alike : PhrasesShadow allowance phrases quickPhrases) {full quick : Call}
    (shadows : CallShadows allowance full quick) (escaping : Escaping) :
    Shadows allowance Whatever (compileCall Registry.builtIn phrases full escaping)
      (compileCall Registry.builtIn quickPhrases quick escaping) := by
  have same : full.name = quick.name ∧ full.span = quick.span := by
    rcases shadows with ⟨name, _, _, span⟩
    exact ⟨rfl, rfl⟩
  unfold compileCall
  rw [same.1, same.2]
  cases found : Registry.builtIn.function? quick.name with
  | none => exact Shadows.failAt _ rfl
  | some function => exact builtIn_shadows alike found full quick shadows escaping

mutual

theorem pending_shadows (alike : PhrasesShadow allowance phrases quickPhrases)
    (includes : InclusionShadows allowance inclusion quickInclusion) :
    ∀ segment : Segment, PendingShadows allowance (pending Registry.builtIn phrases inclusion segment)
      (pending Registry.builtIn quickPhrases quickInclusion segment)
  | .literal text span => PendingShadows.literal text span
  | .reference _ span => PendingShadows.deferred span fun _ => Shadows.pure trivial
  | .call name arguments named span =>
      PendingShadows.deferred span (compileCall_shadows alike
        ⟨name, pendingArguments_shadow alike includes arguments, pendingNamed_shadow alike includes named,
          span⟩)
  | .choice branches otherwise span =>
      PendingShadows.deferred span fun escaping =>
        compileChoice_shadows (pendingBranches_shadow alike includes branches)
          (pendingOtherwise_shadow alike includes otherwise) escaping
  | .loop source _ _ body span =>
      PendingShadows.deferred span fun escaping =>
        ((pendingArgument_shadows alike includes source).compile .raw).bind fun _ _ _ =>
          ((pendingAll_shadow alike includes body).compileParts escaping).bind fun _ _ _ =>
            Shadows.pure trivial
  | .inclusion name span => PendingShadows.deferred span fun escaping => includes name span escaping

theorem pendingAll_shadow (alike : PhrasesShadow allowance phrases quickPhrases)
    (includes : InclusionShadows allowance inclusion quickInclusion) :
    ∀ segments : List Segment, PartsShadow allowance
      (pendingAll Registry.builtIn phrases inclusion segments)
      (pendingAll Registry.builtIn quickPhrases quickInclusion segments)
  | [] => List.Forall₂.nil
  | segment :: rest =>
      List.Forall₂.cons (pending_shadows alike includes segment) (pendingAll_shadow alike includes rest)

theorem pendingArgument_shadows (alike : PhrasesShadow allowance phrases quickPhrases)
    (includes : InclusionShadows allowance inclusion quickInclusion) :
    ∀ argument : ArgumentOf Segment, ArgumentShadows allowance
      (pendingArgument Registry.builtIn phrases inclusion argument)
      (pendingArgument Registry.builtIn quickPhrases quickInclusion argument)
  | ⟨parts, _, _⟩ => ⟨pendingAll_shadow alike includes parts, rfl⟩

theorem pendingArguments_shadow (alike : PhrasesShadow allowance phrases quickPhrases)
    (includes : InclusionShadows allowance inclusion quickInclusion) :
    ∀ arguments : List (ArgumentOf Segment), List.Forall₂ (ArgumentShadows allowance)
      (pendingArguments Registry.builtIn phrases inclusion arguments)
      (pendingArguments Registry.builtIn quickPhrases quickInclusion arguments)
  | [] => List.Forall₂.nil
  | argument :: rest =>
      List.Forall₂.cons (pendingArgument_shadows alike includes argument)
        (pendingArguments_shadow alike includes rest)

theorem pendingNamed_shadow (alike : PhrasesShadow allowance phrases quickPhrases)
    (includes : InclusionShadows allowance inclusion quickInclusion) :
    ∀ named : List (String × ArgumentOf Segment), List.Forall₂ (NamedShadows allowance)
      (pendingNamed Registry.builtIn phrases inclusion named)
      (pendingNamed Registry.builtIn quickPhrases quickInclusion named)
  | [] => List.Forall₂.nil
  | (name, argument) :: rest =>
      List.Forall₂.cons ⟨name, pendingArgument_shadows alike includes argument⟩
        (pendingNamed_shadow alike includes rest)

theorem pendingBranches_shadow (alike : PhrasesShadow allowance phrases quickPhrases)
    (includes : InclusionShadows allowance inclusion quickInclusion) :
    ∀ branches : List (BranchOf Segment), List.Forall₂ (BranchShadows allowance)
      (pendingBranches Registry.builtIn phrases inclusion branches)
      (pendingBranches Registry.builtIn quickPhrases quickInclusion branches)
  | [] => List.Forall₂.nil
  | ⟨condition, body, _⟩ :: rest =>
      List.Forall₂.cons
        ⟨pendingArgument_shadows alike includes condition, pendingAll_shadow alike includes body⟩
        (pendingBranches_shadow alike includes rest)

theorem pendingOtherwise_shadow (alike : PhrasesShadow allowance phrases quickPhrases)
    (includes : InclusionShadows allowance inclusion quickInclusion) :
    ∀ otherwise : Option (List Segment), Option.Rel (PartsShadow allowance)
      (pendingOtherwise Registry.builtIn phrases inclusion otherwise)
      (pendingOtherwise Registry.builtIn quickPhrases quickInclusion otherwise)
  | none => Option.Rel.none
  | some body => Option.Rel.some (pendingAll_shadow alike includes body)

end

end Segments

/-! ## Inclusions -/

/--
The site that a template is compiled for, and the one that it is validated at.  Whatever a lenient
validation finds there, apart from the template itself, is found at the other site too.
-/
structure SitesShadow (allowance : Allowance) (environment quick : Environment)
    (context quickContext : Context) (root : String) : Prop where
  expands : context.expandsIncludes = true
  looks : quickContext.expandsIncludes = false
  inside : ∀ template error uses, allowance.inside template error uses
  phrases : PhrasesShadow allowance (fun name => environment.phrase name context.language)
    fun name => quick.phrase name quickContext.language
  same : ¬ allowance.lenient → environment = quick ∧ context.style = quickContext.style
  found : ∀ name, name ≠ root → environment.template name context.style = .ok none →
    quick.template name quickContext.style = .ok none

/-- A validation is content with whatever it finds. -/
theorem includeFound_of_present {environment : Environment} {context : Context} {stack : List String}
    {name : String} {span : Span} {escaping : Escaping} {answer : Except ParseErrors (Option Template)}
    (looks : context.expandsIncludes = false) (present : answer ≠ .ok none) :
    includeFound environment Registry.builtIn context stack name span escaping answer =
      pure (.inclusion name) := by
  rcases answer with errors | (_ | template)
  · simp [includeFound, looks]
  · exact absurd rfl present
  · simp [includeFound, looks]

section Sites

variable {allowance : Allowance} {environment quick : Environment} {context quickContext : Context}
  {root : String} (sites : SitesShadow allowance environment quick context quickContext root)

include sites

theorem includeTemplate_shadows :
    InclusionShadows allowance (includeTemplate environment Registry.builtIn context [root])
      (includeTemplate quick Registry.builtIn quickContext [root]) := by
  intro name span escaping
  rw [includeTemplate_eq, includeTemplate_eq]
  split
  · exact Shadows.failAt span rfl
  · next visited =>
      have other : name ≠ root := by simpa using visited
      refine (Shadows.noteInclude name).bind fun _ _ _ => ?_
      rcases answer : environment.template name context.style with errors | (_ | template)
      · intro more fewer _
        simp only [includeFound, sites.expands, if_true]
        exact .included (sites.inside name _ more) _
      · rw [sites.found name other answer]
        by_cases permitted : allowance.lenient
        · exact fun more fewer _ => .refused permitted _ _ fewer
        · rw [includeFound, includeFound, (sites.same permitted).2]
          exact Shadows.failAt span rfl
      · by_cases there : quick.template name quickContext.style = .ok none
        · have permitted : allowance.lenient := by
            by_contra strict
            rcases sites.same strict with ⟨rfl, style⟩
            rw [style, there] at answer
            cases answer
          rw [there]
          exact fun more fewer _ => .refused permitted _ _ fewer
        · rw [includeFound_of_present sites.looks there]
          simp only [includeFound, sites.expands, if_true]
          exact Shadows.included (compileSegments_follows (includeTemplate_follows environment context
            ([root] ++ [name]) environment) escaping template.segments).adds name (sites.inside name) _

theorem compileSegments_shadows (segments : List Segment) :
    Shadows allowance Whatever
      (compileSegments Registry.builtIn (fun name => environment.phrase name context.language)
        (includeTemplate environment Registry.builtIn context [root]) .html segments)
      (compileSegments Registry.builtIn (fun name => quick.phrase name quickContext.language)
        (includeTemplate quick Registry.builtIn quickContext [root]) .html segments) :=
  (pendingAll_shadow sites.phrases (includeTemplate_shadows sites) segments).compileParts .html

end Sites

theorem after_of_failed {environment : Environment} {context : Context} {name : String}
    {template : Template} {failure : CompileFailure}
    (failed : compileTemplate environment Registry.builtIn context name template = .error failure) :
    (compileSegments Registry.builtIn (fun name => environment.phrase name context.language)
      (includeTemplate environment Registry.builtIn context [name]) .html template.segments).after
        Uses.none = (.error failure.error, failure.uses) := by
  unfold compileTemplate at failed
  rw [CompileM.after_none, failed]

/-! ## Validation agrees with full compilation -/

theorem ended_compileTemplate {allowance : Allowance} {environment quick : Environment}
    {context quickContext : Context} {name : String}
    (sites : SitesShadow allowance environment quick context quickContext name) (template : Template) :
    match compileTemplate environment Registry.builtIn context name template,
      compileTemplate quick Registry.builtIn quickContext name template with
    | .ok compiled, .ok checked => ¬ allowance.lenient → checked.uses.Within compiled.uses
    | .error failure, .ok _ => failure.error.IsIncluded
    | .error failure, .error refusal =>
        allowance.lenient ∨ failure.error.IsIncluded ∨ refusal.error.Same failure.error
    | .ok _, .error _ => allowance.lenient := by
  have ended := compileSegments_shadows sites template.segments Uses.none Uses.none
    fun _ => Uses.Within.refl Uses.none
  unfold compileTemplate CompileM.outcome
  unfold CompileM.after at ended
  generalize (compileSegments Registry.builtIn (fun name => environment.phrase name context.language)
    (includeTemplate environment Registry.builtIn context [name]) .html template.segments).run.run
    Uses.none = fullEnd at ended ⊢
  generalize (compileSegments Registry.builtIn (fun name => quick.phrase name quickContext.language)
    (includeTemplate quick Registry.builtIn quickContext [name]) .html template.segments).run.run
    Uses.none = quickEnd at ended ⊢
  cases ended with
  | ok same within => exact within
  | here span same => exact Or.inr (Or.inr (congrArg (CompileError.here · span) same.symm))
  | included inside _ =>
      rcases quickEnd with ⟨error | checked, fewer⟩
      · exact Or.inr (Or.inl trivial)
      · trivial
  | refused permitted _ error fewer =>
      rcases fullEnd with ⟨other | compiled, more⟩
      · exact Or.inl permitted
      · exact permitted

/--
A validation agrees with the full compilation at the same style and language.  Where the full compilation
succeeds so does the validation, with no name noted that the other does not note; where it fails by itself,
the validation fails with the same error; and where the validation fails, the full compilation fails with the
same error or in an included template.
-/
theorem validation_agrees (environment : Environment) (style language : Position) (name : String)
    (template : Template) :
    (∀ compiled,
      compileTemplate environment Registry.builtIn ⟨style, language, true⟩ name template = .ok compiled →
      ∃ checked,
        compileTemplate environment Registry.builtIn ⟨style, language, false⟩ name template =
          .ok checked ∧ checked.uses.Within compiled.uses) ∧
    (∀ failure,
      compileTemplate environment Registry.builtIn ⟨style, language, true⟩ name template =
        .error failure → ¬ failure.error.IsIncluded →
      ∃ refusal,
        compileTemplate environment Registry.builtIn ⟨style, language, false⟩ name template =
          .error refusal ∧ refusal.error.Same failure.error) ∧
    ∀ refusal,
      compileTemplate environment Registry.builtIn ⟨style, language, false⟩ name template =
        .error refusal →
      ∃ failure,
        compileTemplate environment Registry.builtIn ⟨style, language, true⟩ name template =
          .error failure ∧ (failure.error.Same refusal.error ∨ failure.error.IsIncluded) := by
  have sites : SitesShadow ⟨False, fun _ _ _ => True⟩ environment environment ⟨style, language, true⟩
      ⟨style, language, false⟩ name :=
    ⟨rfl, rfl, fun _ _ _ => trivial, ⟨fun _ => rfl, fun _ _ member => member⟩, fun _ => ⟨rfl, rfl⟩,
      fun _ _ missing => missing⟩
  have both := ended_compileTemplate sites template
  generalize compileTemplate environment Registry.builtIn ⟨style, language, true⟩ name template = full
    at both ⊢
  generalize compileTemplate environment Registry.builtIn ⟨style, language, false⟩ name template = quick
    at both ⊢
  refine ⟨?_, ?_, ?_⟩
  · rintro compiled rfl
    rcases quick with refusal | checked
    · exact both.elim
    · exact ⟨checked, rfl, both id⟩
  · rintro failure rfl itself
    rcases quick with refusal | checked
    · rcases both with strict | included | same
      · exact strict.elim
      · exact absurd included itself
      · exact ⟨refusal, rfl, same⟩
    · exact absurd both itself
  · rintro refusal rfl
    rcases full with failure | compiled
    · rcases both with strict | included | same
      · exact strict.elim
      · exact ⟨failure, rfl, Or.inr included⟩
      · exact ⟨failure, rfl, Or.inl same.symm⟩
    · exact both.elim

/-- A header, and a call of a function that nobody has registered. -/
def strayPage : Template :=
  ⟨[.inclusion "header" default, .call "nope" [] [] default]⟩

theorem failed_strayPage : ∃ failure,
    compileTemplate (headerSite none) Registry.builtIn ⟨0, 0, true⟩ "page" strayPage = .error failure ∧
      ¬ failure.error.IsIncluded := by
  have unknown : Registry.builtIn.function? "nope" = none := by decide +kernel
  simp only [compileTemplate, CompileM.outcome, compileSegments, strayPage, pendingAll, pending,
    compileParts, compileEach, Pending.compile, includeTemplate_eq, includeFound, headerSite, compileCall,
    unknown]
  simp
  exact ⟨_, rfl, id⟩

/-- The page fails over the call, with or without the header in place. -/
theorem validation_agrees_strayPage : ∃ failure refusal,
    compileTemplate (headerSite none) Registry.builtIn ⟨0, 0, true⟩ "page" strayPage = .error failure ∧
    ¬ failure.error.IsIncluded ∧
    compileTemplate (headerSite none) Registry.builtIn ⟨0, 0, false⟩ "page" strayPage = .error refusal ∧
    refusal.error.Same failure.error := by
  rcases failed_strayPage with ⟨failure, failed, itself⟩
  rcases (validation_agrees (headerSite none) 0 0 "page" strayPage).2.1 failure failed itself with
    ⟨refusal, refused, same⟩
  exact ⟨failure, refusal, failed, itself, refused, same⟩

/-! ## Validation at one site for others -/

/-- An environment that only has the phrases of some names. -/
def Environment.withPhrases (environment : Environment) (names : Std.ExtTreeSet String) : Environment :=
  { environment with
    phrase := fun name language => if names.contains name then environment.phrase name language else none }

/-- A compilation that fails has had no use for other phrases than those that it has noted. -/
theorem compileTemplate_withPhrases {environment : Environment} {context : Context} {name : String}
    {template : Template} {failure : CompileFailure}
    (failed : compileTemplate environment Registry.builtIn context name template = .error failure) :
    compileTemplate (environment.withPhrases failure.uses.phrases) Registry.builtIn context name template =
      .error failure := by
  rw [← failed]
  refine outcome_eq_of_after_eq ((template_follows environment
    (environment.withPhrases failure.uses.phrases) context name template).same Uses.none ?_)
  rw [after_of_failed failed]
  refine ⟨fun _ _ => rfl, fun phrase member => ?_⟩
  change environment.phrase phrase context.language = if _ then _ else _
  rw [if_pos (Std.ExtTreeSet.mem_iff_contains.mp member)]

/--
A template that has been validated at one site fails by itself at another one only over a phrase that it asks
for there, and that has a placeholder which the phrase does not have where the template was validated.
-/
theorem exists_unfilled_of_failed {environment quick : Environment}
    {style language quickStyle quickLanguage : Position} {name : String} {template : Template}
    {failure : CompileFailure} {checked : Compiled}
    (found : ∀ other, other ≠ name → environment.template other style = .ok none →
      quick.template other quickStyle = .ok none)
    (validated : compileTemplate quick Registry.builtIn ⟨quickStyle, quickLanguage, false⟩ name template =
      .ok checked)
    (failed : compileTemplate environment Registry.builtIn ⟨style, language, true⟩ name template =
      .error failure)
    (itself : ¬ failure.error.IsIncluded) :
    ∃ phrase ∈ failure.uses.phrases, ∃ placeholder ∈ placeholders (environment.phrase phrase language),
      placeholder ∉ placeholders (quick.phrase phrase quickLanguage) := by
  by_contra none
  simp only [not_exists, not_and, not_not] at none
  -- Of phrases that are never asked for nothing is known, so they are left out of the comparison.
  have sites : SitesShadow ⟨True, fun _ _ _ => True⟩ (environment.withPhrases failure.uses.phrases) quick
      ⟨style, language, true⟩ ⟨quickStyle, quickLanguage, false⟩ name := by
    refine ⟨rfl, rfl, fun _ _ _ => trivial, ⟨absurd trivial, ?_⟩, absurd trivial, found⟩
    intro phrase placeholder member
    change placeholder ∈ placeholders (if _ then _ else _) at member
    split at member
    · next listed => exact none phrase (Std.ExtTreeSet.mem_iff_contains.mpr listed) placeholder member
    · simp [placeholders] at member
  have both := ended_compileTemplate sites template
  rw [compileTemplate_withPhrases failed, validated] at both
  exact itself both

end Compile
end TemplateCascade
