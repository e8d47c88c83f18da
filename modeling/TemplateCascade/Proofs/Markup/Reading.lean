import Mathlib
import TemplateCascade.Proofs.Markup.Grammar

namespace TemplateCascade
namespace Markup

/-!
# What is read derives

Whatever the parser reads off the front of some tokens is derived by the grammar, and the tokens it leaves
are those behind the derivation.  The parts that a call or a tag is put together from are told apart here by
what the grammar asks of them.
-/

open Text

/-! ## Calls -/

theorem lastOfEach_eq_nil_iff {Entry : Type} {entries : List (String × Entry)} :
    lastOfEach entries = [] ↔ entries = [] := by
  constructor
  · intro nothing
    rw [← foldl_putEntry] at nothing
    cases entries using List.reverseRecOn with
    | nil => rfl
    | append_singleton before last =>
        rw [List.foldl_append, List.foldl_cons, List.foldl_nil] at nothing
        unfold putEntry at nothing
        split at nothing
        · cases nothing
        · split at nothing <;> cases nothing
  · rintro rfl
    rfl

theorem mem_positionalOf {read : List NamedArgument} {value : Argument} :
    value ∈ positionalOf read ↔ (none, value) ∈ read := by
  rw [positionalOf, List.mem_filterMap]
  constructor
  · rintro ⟨⟨_ | name, other⟩, member, same⟩
    · cases same
      exact member
    · cases same
  · exact fun member => ⟨_, member, rfl⟩

/-- A single argument without a name is all there is if no other one is listed. -/
theorem eq_singleton_of_positionalOf {read : List NamedArgument} {only : Argument}
    (positional : positionalOf read = [only]) (named : namedOf read = []) : read = [(none, only)] := by
  match read with
  | [] => cases positional
  | (some name, value) :: rest => cases named
  | [(none, value)] =>
      cases positional
      rfl
  | (none, value) :: (some name, other) :: rest => cases named
  | (none, value) :: (none, other) :: rest => cases positional

theorem refuseMissing_eq_ok_iff {name : String} {kept : List Argument} {byName : List (String × Argument)}
    {span : Span} {segment : Segment} (several : kept ≠ [] → 1 < kept.length + byName.length) :
    (match kept.find? ArgumentOf.isMissing with
      | some missing =>
          if 1 < kept.length + byName.length then .error ⟨.emptyArgument name, missing.span⟩
          else .ok (.call name kept byName span)
      | none => .ok (.call name kept byName span) : Except ParseError Segment) = .ok segment ↔
    kept.find? ArgumentOf.isMissing = none ∧ segment = .call name kept byName span := by
  cases found : kept.find? ArgumentOf.isMissing with
  | none =>
      dsimp only
      rw [Except.ok.injEq, eq_comm]
      exact (and_iff_right rfl).symm
  | some missing =>
      have notEmpty := List.ne_nil_of_mem (List.mem_of_find?_eq_some found)
      dsimp only
      rw [if_pos (several notEmpty)]
      exact iff_of_false nofun nofun

/-- Which arguments a call is put together from: one that is missing stands for none, and of several none
may be missing. -/
theorem assembleCall_eq_ok_iff {name : String} {read : List NamedArgument} {span : Span}
    {segment : Segment} : assembleCall name read span = .ok segment ↔
      (∃ value, read = [(none, value)] ∧ value.isMissing = true ∧ segment = .call name [] [] span) ∨
      ((∀ value, (none, value) ∈ read → value.isMissing = false) ∧
        segment = .call name (positionalOf read) (lastOfEach (namedOf read)) span) := by
  unfold assembleCall
  dsimp only
  generalize inOrder_eq : List.filterMap _ read = inOrder
  generalize byName_eq : List.foldl _ [] read = byName
  have positional : positionalOf read = inOrder := by
    rw [← inOrder_eq]
    refine List.filterMap_congr fun argument _ => ?_
    rcases argument with ⟨_ | key, value⟩ <;> rfl
  have named : lastOfEach (namedOf read) = byName := by
    rw [← byName_eq, ← foldl_putEntry, namedOf, List.foldl_filterMap]
    congr 1
    funext known argument
    rcases argument with ⟨_ | key, value⟩ <;> rfl
  have present_iff : (∀ value, (none, value) ∈ read → value.isMissing = false) ↔
      inOrder.find? ArgumentOf.isMissing = none := by
    rw [List.find?_eq_none, ← positional]
    simp only [mem_positionalOf, Bool.not_eq_true]
  rw [present_iff, positional, named]
  by_cases alone : ∃ only, inOrder = [only] ∧ byName = []
  · rcases alone with ⟨only, rfl, rfl⟩
    have whole := eq_singleton_of_positionalOf positional (lastOfEach_eq_nil_iff.mp named)
    subst whole
    have nothing : (.call name [] [] span = segment) ↔ segment = .call name [] [] span := eq_comm
    have here : (.call name [only] [] span = segment) ↔ segment = .call name [only] [] span := eq_comm
    cases missing : only.isMissing with
    | true => simp [missing, nothing]
    | false => simp [missing, here]
  · have several : ∀ value, read ≠ [(none, value)] := by
      rintro value rfl
      exact alone ⟨value, positional.symm, named.symm⟩
    simp only [several, false_and, exists_false, false_or]
    -- Nothing is dropped, and one that is missing is not the only one.
    rcases inOrder with _ | ⟨first, _ | ⟨second, rest⟩⟩
    · exact refuseMissing_eq_ok_iff (absurd rfl)
    · rcases byName with _ | ⟨entry, entries⟩
      · exact absurd ⟨first, rfl, rfl⟩ alone
      · refine refuseMissing_eq_ok_iff fun _ => ?_
        simp only [List.length_cons, List.length_nil]
        omega
    · refine refuseMissing_eq_ok_iff fun _ => ?_
      simp only [List.length_cons]
      omega

/-! ## Single tags and their attributes -/

section Attributes

variable {opening ending closing : Token} {attributes left others : Attributes} {name : String}
  {value : Argument}

theorem requireOpen_eq_ok_iff : requireOpen opening ending = .ok () ↔ ending.kind ≠ .tagSelfClose := by
  unfold requireOpen
  split
  · next isClosed => exact iff_of_false nofun fun isOpen => isOpen isClosed
  · next isOpen => exact iff_of_true rfl isOpen

theorem requireSelfClosing_eq_ok_iff :
    requireSelfClosing opening ending = .ok () ↔ ending.kind = .tagSelfClose := by
  unfold requireSelfClosing
  split
  · next isClosed => exact iff_of_true rfl isClosed
  · next isOpen => exact iff_of_false nofun isOpen

theorem requireMatching_eq_ok_iff :
    requireMatching opening closing = .ok () ↔ openedTag opening = closedTag closing := by
  unfold requireMatching
  split
  · next same => exact iff_of_true rfl same
  · next different => exact iff_of_false nofun different

theorem perm_of_entryNamed? (found : entryNamed? attributes name = some value) :
    attributes.Perm ((name, value) :: attributes.eraseP (·.1 == name)) := by
  induction attributes with
  | nil => cases found
  | cons first rest inductionHypothesis =>
      rw [entryNamed?, List.lookup_cons] at found
      by_cases same : name = first.1
      · rw [beq_iff_eq.mpr same, Option.some.injEq] at found
        have here : first = (name, value) := Prod.ext same.symm found
        subst here
        rw [List.eraseP_cons, beq_self_eq_true]
        exact .refl _
      · rw [beq_eq_false_iff_ne.mpr same] at found
        rw [List.eraseP_cons_of_neg (by simpa using Ne.symm same)]
        exact ((inductionHypothesis found).cons first).trans (.swap _ _ _)

/-- An attribute is taken out wherever it stands. -/
theorem takeRequired_eq_ok_iff : takeRequired opening attributes name = .ok (value, left) ↔
    entryNamed? attributes name = some value ∧ left = attributes.eraseP (·.1 == name) := by
  unfold takeRequired
  split
  · next found => simp [found, eq_comm]
  · next notFound => simp [notFound]

/-- An attribute that no other one is named like is found. -/
theorem entryNamed?_of_perm (entries : attributes.Perm ((name, value) :: others))
    (only : name ∉ others.map Prod.fst) : entryNamed? attributes name = some value ∧
      (attributes.eraseP (·.1 == name)).Perm others := by
  have member : (name, value) ∈ attributes := entries.mem_iff.mpr List.mem_cons_self
  have isFound : (entryNamed? attributes name).isSome = true :=
    List.lookup_isSome_iff.mpr ⟨_, member, beq_self_eq_true _⟩
  rcases Option.isSome_iff_exists.mp isFound with ⟨found, isFound⟩
  have same : found = value := by
    have foundMember := entries.mem_iff.mp (mem_of_entryNamed? isFound)
    rcases List.mem_cons.mp foundMember with here | other
    · exact congrArg Prod.snd here
    · exact absurd (List.mem_map_of_mem other) only
  subst same
  exact ⟨isFound, ((perm_of_entryNamed? isFound).symm.trans entries).cons_inv⟩

theorem refuseExtra_eq_ok_iff : refuseExtra opening attributes = .ok () ↔ attributes = [] := by
  cases attributes with
  | nil => exact iff_of_true rfl rfl
  | cons first rest => exact iff_of_false nofun nofun

/-- An attribute is the only one if nothing has to be refused behind it. -/
theorem eq_singleton_of_takeRequired (taken : takeRequired opening attributes name = .ok (value, left))
    (refused : refuseExtra opening left = .ok ()) : attributes = [(name, value)] := by
  rw [takeRequired_eq_ok_iff] at taken
  rw [refuseExtra_eq_ok_iff] at refused
  have entries := perm_of_entryNamed? taken.1
  rw [← taken.2, refused] at entries
  exact List.perm_singleton.mp entries

theorem branchCondition_eq_ok_iff :
    branchCondition opening attributes = .ok value ↔ attributes = [("is", value)] := by
  constructor
  · intro found
    rcases exists_of_bind_eq_ok found with ⟨⟨taken, left⟩, isTaken, found⟩
    rcases exists_of_bind_eq_ok found with ⟨_, refused, found⟩
    cases found
    exact eq_singleton_of_takeRequired isTaken refused
  · rintro rfl
    rfl

/-- The name of a variable that may be written with a dollar sign. -/
def unmarked : List Char → List Char
  | '$' :: name => name
  | name => name

theorem unmarked_iff {written name : List Char} :
    isIdentifier (unmarked written) = true ∧ unmarked written = name ↔
      isIdentifier name = true ∧ (written = name ∨ written = '$' :: name) := by
  unfold unmarked
  split
  · next behind =>
      constructor
      · rintro ⟨isName, rfl⟩
        exact ⟨isName, .inr rfl⟩
      · rintro ⟨isName, rfl | ⟨⟨⟩⟩⟩
        · cases isName
        · exact ⟨isName, rfl⟩
  · next notMarked =>
      constructor
      · rintro ⟨isName, rfl⟩
        exact ⟨isName, .inl rfl⟩
      · rintro ⟨isName, rfl | rfl⟩
        · exact ⟨isName, rfl⟩
        · exact (notMarked name rfl).elim

theorem trim_eq_iff {text name : String} : trim text = name ↔ trimBlanks text.toList = name.toList := by
  rw [trim, ← String.toList_inj, String.toList_ofList]

theorem loopVariable_eq_ok_iff : loopVariable value = .ok name ↔ NamesVariable value name := by
  unfold loopVariable
  dsimp only
  split
  · next notLiteral =>
      refine iff_of_false (by simp) ?_
      rintro ⟨_, text, literal, _⟩
      cases notLiteral.symm.trans literal
  · next text literal =>
      have named : NamesVariable value name ↔ isIdentifier name.toList = true ∧
          (trimBlanks text.toList = name.toList ∨ trimBlanks text.toList = '$' :: name.toList) := by
        have marked : ("$" ++ name).toList = '$' :: name.toList := by simp
        rw [← trim_eq_iff, ← marked, ← trim_eq_iff]
        constructor
        · rintro ⟨isName, other, otherLiteral, spelling⟩
          cases literal.symm.trans otherLiteral
          exact ⟨isName, spelling⟩
        · rintro ⟨isName, spelling⟩
          exact ⟨isName, text, literal, spelling⟩
      rw [named, ← unmarked_iff]
      change (if isIdentifier (unmarked (trimBlanks text.toList)) = true then
        Except.ok (String.ofList (unmarked (trimBlanks text.toList))) else _) = _ ↔ _
      rw [← String.ofList_inj, String.ofList_toList]
      split
      · next isName => rw [Except.ok.injEq, and_iff_right isName]
      · next notName => exact iff_of_false (by simp) fun isNamed => notName isNamed.1

/-- Behind what it runs over and its variable, a loop may have the attribute for its key only. -/
theorem loopHead_of_perm {source : Argument}
    (entries : attributes.Perm (("loop", source) :: ("value", value) :: others))
    (only : ("loop" :: "value" :: others.map Prod.fst).Nodup) (isVariable : NamesVariable value name) :
    ∃ behind : Attributes, behind.Perm others ∧ loopHead opening attributes = (do
      let key ← (entryNamed? behind "key").mapM loopVariable
      refuseExtra opening (behind.eraseP (·.1 == "key"))
      return ⟨source, name, key⟩) := by
  have distinct := List.nodup_cons.mp only
  rcases entryNamed?_of_perm entries distinct.1 with ⟨isSource, behind⟩
  rcases entryNamed?_of_perm behind (List.nodup_cons.mp distinct.2).1 with ⟨isValue, rest⟩
  refine ⟨_, rest, ?_⟩
  unfold loopHead
  rw [takeRequired_eq_ok_iff.mpr ⟨isSource, rfl⟩]
  dsimp only [bind, Except.bind]
  rw [takeRequired_eq_ok_iff.mpr ⟨isValue, rfl⟩]
  dsimp only
  rw [loopVariable_eq_ok_iff.mpr isVariable]

theorem loopHead_eq_ok_iff {source : Argument} {key : Option String} :
    loopHead opening attributes = .ok ⟨source, name, key⟩ ↔ LoopOf attributes source name key := by
  constructor
  · intro found
    rcases exists_of_bind_eq_ok found with ⟨⟨taken, left⟩, isTaken, found⟩
    rcases exists_of_bind_eq_ok found with ⟨⟨value, behind⟩, isValue, found⟩
    rcases exists_of_bind_eq_ok found with ⟨_, isVariable, found⟩
    rcases exists_of_bind_eq_ok found with ⟨_, isKey, found⟩
    rcases exists_of_bind_eq_ok found with ⟨_, refused, found⟩
    cases found
    rw [takeRequired_eq_ok_iff] at isTaken isValue
    rw [refuseExtra_eq_ok_iff] at refused
    rw [loopVariable_eq_ok_iff] at isVariable
    have entries : attributes.Perm (("loop", source) :: ("value", value) :: behind) := by
      refine (perm_of_entryNamed? isTaken.1).trans (.cons _ ?_)
      rw [← isTaken.2, isValue.2]
      exact perm_of_entryNamed? isValue.1
    cases keyed : entryNamed? behind "key" with
    | none =>
        rw [keyed] at isKey
        cases isKey
        have absent : ∀ entry ∈ behind, ¬ (entry.1 == "key") = true := by
          intro entry member same
          have different := List.lookup_eq_none_iff.mp keyed entry member
          rw [beq_iff_eq] at same
          simp [same] at different
        rw [List.eraseP_of_forall_not absent] at refused
        subst refused
        exact .unkeyed entries isVariable
    | some keyValue =>
        rw [keyed] at isKey
        have isRead : (loopVariable keyValue).map some = .ok _ := isKey
        rcases exists_of_map_eq_ok isRead with ⟨keyName, isNamed, rfl⟩
        have rest := perm_of_entryNamed? keyed
        rw [refused] at rest
        exact .keyed (entries.trans ((rest.cons _).cons _)) isVariable (loopVariable_eq_ok_iff.mp isNamed)
  · intro loops
    cases loops with
    | unkeyed entries isVariable =>
        rcases loopHead_of_perm entries (by simp) isVariable with ⟨behind, rest, head⟩
        rw [head, List.perm_nil.mp rest]
        rfl
    | keyed entries isVariable isKey =>
        rcases loopHead_of_perm entries (by simp) isVariable with ⟨behind, rest, head⟩
        have named : (entryNamed? [("key", _)] "key").mapM loopVariable = .ok (some _) :=
          congrArg (Except.map some) (loopVariable_eq_ok_iff.mpr isKey)
        rw [head, List.perm_singleton.mp rest, named]
        rfl

theorem parseInclusion_eq_ok_iff {segment : Segment} :
    parseInclusion opening ending attributes = .ok segment ↔
      ending.kind = .tagSelfClose ∧ ∃ value text, attributes = [("template", value)] ∧
        value.literalText? = some text ∧ trim text ≠ "" ∧
        segment = .inclusion (trim text) (opening.span.merge ending.span) := by
  constructor
  · intro found
    rcases exists_of_bind_eq_ok found with ⟨_, isClosed, found⟩
    rcases exists_of_bind_eq_ok found with ⟨⟨value, left⟩, isTaken, found⟩
    rcases exists_of_bind_eq_ok found with ⟨_, refused, found⟩
    have entries := eq_singleton_of_takeRequired isTaken refused
    split at found
    · cases found
    · next text literal =>
        split at found
        · cases found
        · next present =>
            cases found
            exact ⟨requireSelfClosing_eq_ok_iff.mp isClosed, value, text, entries, literal, present, rfl⟩
  · rintro ⟨isClosed, value, text, rfl, literal, present, rfl⟩
    unfold parseInclusion
    rw [requireSelfClosing_eq_ok_iff.mpr isClosed]
    have taken : takeRequired opening [("template", value)] "template" = .ok (value, []) := rfl
    dsimp only [bind, Except.bind]
    rw [taken]
    dsimp only [refuseExtra]
    rw [literal]
    dsimp only
    rw [if_neg present]

end Attributes

/-! ## Inline constructs -/

theorem DerivesCall.joinLiterals_eq {used : List Token} {call : Segment} (derives : DerivesCall used call)
    (parts : List Segment) : joinLiterals (call :: parts) = call :: joinLiterals parts := by
  rcases derives.opens with ⟨_, _, _, _, _, _, _, _, rfl⟩
  rfl

/-- Arguments that were read: a single one may be blank, and without it they derive. -/
structure ReadAs (tokens : List Token) (read : List NamedArgument) : Prop where
  derives : (∀ value, (none, value) ∈ read → value.isMissing = false) → DerivesArguments tokens read
  blank : ∀ value, read = [(none, value)] → value.isMissing = true → AllBlank tokens

/-- An argument without a name that was read is blank or derives. -/
structure ArgumentReadAs (tokens : List Token) (argument : NamedArgument) : Prop where
  derives : (argument.1 = none → argument.2.isMissing = false) → DerivesArgument tokens argument
  blank : argument.1 = none → argument.2.isMissing = true → AllBlank tokens

theorem ArgumentReadAs.single {tokens : List Token} {argument : NamedArgument}
    (readAs : ArgumentReadAs tokens argument) : ReadAs tokens [argument] := by
  refine ⟨fun present => .one (readAs.derives ?_), ?_⟩
  · intro unnamed
    exact present _ (List.mem_singleton.mpr (Prod.ext unnamed.symm rfl))
  · intro value only missing
    cases only
    exact readAs.blank rfl missing

theorem ArgumentReadAs.more {tokens rest : List Token} {comma : Token} {argument : NamedArgument}
    {others : List NamedArgument} (readAs : ArgumentReadAs tokens argument) (isComma : comma.kind = .comma)
    (isRead : others ≠ []) (behind : ReadAs rest others) :
    ReadAs (tokens ++ comma :: rest) (argument :: others) := by
  refine ⟨fun present => .more (readAs.derives ?_) isComma (behind.derives ?_), ?_⟩
  · intro unnamed
    exact present _ (List.mem_cons.mpr (.inl (Prod.ext unnamed.symm rfl)))
  · exact fun value member => present value (List.mem_cons_of_mem _ member)
  · intro value only
    exact absurd (List.cons.inj only).2 isRead

theorem allBlank_of_skipBlankText : ∀ {tokens : List Token} {parsed : Parsed Unit tokens},
    skipBlankText tokens = .ok parsed → ∃ used, tokens = used ++ parsed.rest ∧ AllBlank used
  | [], parsed, ran => by
      cases ran
      exact ⟨[], rfl, nofun⟩
  | token :: behind, parsed, ran => by
      rw [skipBlankText] at ran
      split at ran
      · next isText =>
          split at ran
          · next isEmpty =>
              rcases exists_of_bind_eq_ok ran with ⟨⟨_, left, shorter⟩, more, ran⟩
              rcases allBlank_of_skipBlankText more with ⟨used, split, blank⟩
              cases ran
              have isBlank := trimBlanks_eq_nil_iff.mp (List.isEmpty_iff.mp isEmpty)
              exact ⟨token :: used, congrArg (token :: ·) split,
                List.forall_mem_cons.mpr ⟨⟨isText, isBlank⟩, blank⟩⟩
          · cases ran
      · cases ran
        exact ⟨[], rfl, nofun⟩

mutual

theorem derives_of_parseCall {finish opening : Token} {tokens : List Token} {parsed : Parsed Segment tokens}
    (opens : opening.kind = .callStart) (ran : parseCall finish opening tokens = .ok parsed) :
    ∃ used, tokens = used ++ parsed.rest ∧ DerivesCall (opening :: used) parsed.result := by
  rw [parseCall] at ran
  rcases exists_of_bind_eq_ok ran with ⟨⟨⟨read, closing⟩, rest, shorter⟩, arguments, ran⟩
  rcases exists_of_bind_eq_ok ran with ⟨call, assembled, ran⟩
  rcases readAs_of_parseArguments arguments with ⟨used, last, split, closes, isLast, readAs, _⟩
  cases ran
  refine ⟨used ++ [last], by simp [split], ?_⟩
  dsimp only at isLast
  subst isLast
  rcases assembleCall_eq_ok_iff.mp assembled with ⟨value, rfl, missing, rfl⟩ | ⟨present, rfl⟩
  · exact .bare opens (readAs.blank value rfl missing) closes
  · exact .filled opens (readAs.derives present) closes
termination_by 8 * tokens.length + 4

theorem readAs_of_parseArguments {finish : Token} {name : String} {tokens : List Token}
    {parsed : Parsed (List NamedArgument × Span) tokens}
    (ran : parseArguments finish name tokens = .ok parsed) :
    ∃ used closing, tokens = used ++ closing :: parsed.rest ∧ closing.kind = .callEnd ∧
      parsed.result.2 = closing.span ∧ ReadAs used parsed.result.1 ∧ parsed.result.1 ≠ [] := by
  rw [parseArguments] at ran
  rcases exists_of_bind_eq_ok ran with ⟨⟨argument, left, shorter⟩, first, ran⟩
  rcases readAs_of_parseArgument first with ⟨used, split, readAs⟩
  dsimp only at ran split readAs
  split at ran
  · next token rest =>
      split at ran
      · next isComma =>
          rcases exists_of_bind_eq_ok ran with ⟨⟨⟨more, closing⟩, behind, shorterStill⟩, others, ran⟩
          rcases readAs_of_parseArguments others with
            ⟨usedBehind, last, splitBehind, closes, isLast, readBehind, isRead⟩
          cases ran
          dsimp only at splitBehind
          exact ⟨used ++ token :: usedBehind, last, by simp [split, splitBehind], closes, isLast,
            readAs.more isComma isRead readBehind, List.cons_ne_nil _ _⟩
      · next closes =>
          cases ran
          exact ⟨used, token, split, closes, rfl, readAs.single, List.cons_ne_nil _ _⟩
      · cases ran
  · cases ran
termination_by 8 * tokens.length + 3

theorem readAs_of_parseArgument {finish : Token} : ∀ {tokens : List Token}
    {parsed : Parsed NamedArgument tokens}, parseArgument finish tokens = .ok parsed →
      ∃ used, tokens = used ++ parsed.rest ∧ ArgumentReadAs used parsed.result
  | [], parsed, ran => by
      rw [parseArgument] at ran
      cases ran
  | token :: behind, parsed, ran => by
      rw [parseArgument] at ran
      split at ran
      · next isName =>
          rcases exists_of_bind_eq_ok ran with ⟨⟨value, rest, shorter⟩, content, ran⟩
          rcases derives_of_parseValue content with ⟨used, split, derives⟩
          cases ran
          exact ⟨token :: used, congrArg (token :: ·) split, fun _ => .named isName derives, nofun⟩
      · rcases exists_of_bind_eq_ok ran with ⟨⟨value, rest, shorter⟩, content, ran⟩
        rcases derives_of_parseValue content with ⟨used, split, derives⟩
        cases ran
        refine ⟨used, split, fun present => .positional derives ?_, fun _ => derives.isMissing_iff.mp⟩
        rw [← derives.isMissing_iff, present rfl]
        exact Bool.false_ne_true
termination_by tokens => 8 * tokens.length + 2
decreasing_by
  all_goals simp only [List.length_cons]
  all_goals omega

theorem derives_of_parseValue {finish : Token} {start : Span} : ∀ {tokens : List Token}
    {parsed : Parsed Argument tokens}, parseValue finish start tokens = .ok parsed →
      ∃ used, tokens = used ++ parsed.rest ∧ DerivesValue start used parsed.result
  | [], parsed, ran => by
      rw [parseValue] at ran
      cases ran
  | token :: behind, parsed, ran => by
      rw [parseValue] at ran
      split at ran
      · next opens =>
          rcases exists_of_bind_eq_ok ran with ⟨⟨⟨parts, closing⟩, left, shorter⟩, quoted, ran⟩
          rcases exists_of_bind_eq_ok ran with ⟨⟨_, rest, shorterStill⟩, skipped, ran⟩
          rcases derives_of_parseQuoted quoted with ⟨used, raw, last, split, closes, isLast, derives, joined⟩
          rcases allBlank_of_skipBlankText skipped with ⟨blanks, splitBehind, blank⟩
          cases ran
          dsimp only at split isLast joined splitBehind
          subst isLast joined
          exact ⟨token :: (used ++ last :: blanks), by simp [split, splitBehind],
            .quoted opens derives closes blank⟩
      · rcases exists_of_bind_eq_ok ran with ⟨⟨parts, rest, shorter⟩, plain, ran⟩
        rcases derives_of_parseParts plain with ⟨used, raw, split, derives, joined⟩
        cases ran
        dsimp only at split joined
        subst joined
        exact ⟨used, split, .plain derives⟩
termination_by tokens => 8 * tokens.length + 1
decreasing_by
  all_goals simp only [List.length_cons]
  all_goals omega

theorem derives_of_parseParts {finish : Token} : ∀ {tokens : List Token}
    {parsed : Parsed (List Segment) tokens}, parseParts finish tokens = .ok parsed →
      ∃ used raw, tokens = used ++ parsed.rest ∧ DerivesParts id used raw ∧
        parsed.result = joinLiterals raw
  | [], parsed, ran => by
      rw [parseParts] at ran
      cases ran
  | token :: behind, parsed, ran => by
      rw [parseParts] at ran
      split at ran
      · cases ran
        exact ⟨[], [], rfl, .nil, rfl⟩
      · cases ran
        exact ⟨[], [], rfl, .nil, rfl⟩
      · next isText =>
          rcases exists_of_bind_eq_ok ran with ⟨⟨parts, rest, shorter⟩, others, ran⟩
          rcases derives_of_parseParts others with ⟨used, raw, split, derives, joined⟩
          cases ran
          dsimp only at split joined
          subst joined
          exact ⟨token :: used, _, congrArg (token :: ·) split, .text isText derives, rfl⟩
      · next isReference =>
          rcases exists_of_bind_eq_ok ran with ⟨⟨parts, rest, shorter⟩, others, ran⟩
          rcases derives_of_parseParts others with ⟨used, raw, split, derives, joined⟩
          cases ran
          dsimp only at split joined
          subst joined
          exact ⟨token :: used, _, congrArg (token :: ·) split, .reference isReference derives, rfl⟩
      · next opens =>
          rcases exists_of_bind_eq_ok ran with ⟨⟨call, left, shorter⟩, first, ran⟩
          rcases exists_of_bind_eq_ok ran with ⟨⟨parts, rest, shorterStill⟩, others, ran⟩
          rcases derives_of_parseCall opens first with ⟨usedFirst, splitFirst, derivesFirst⟩
          rcases derives_of_parseParts others with ⟨used, raw, split, derives, joined⟩
          cases ran
          dsimp only at splitFirst split joined derivesFirst
          subst joined
          exact ⟨token :: usedFirst ++ used, call :: raw, by simp [splitFirst, split],
            .call derivesFirst derives, (derivesFirst.joinLiterals_eq raw).symm⟩
      · cases ran
termination_by tokens => 8 * tokens.length
decreasing_by
  all_goals simp only [List.length_cons]
  all_goals omega

theorem derives_of_parseQuoted {finish : Token} {quote : Char} : ∀ {tokens : List Token}
    {parsed : Parsed (List Segment × Span) tokens}, parseQuoted finish quote tokens = .ok parsed →
      ∃ used raw closing, tokens = used ++ closing :: parsed.rest ∧ closing.kind = .quoteClose ∧
        parsed.result.2 = closing.span ∧ DerivesParts unescape used raw ∧
        parsed.result.1 = joinLiterals raw
  | [], parsed, ran => by
      rw [parseQuoted] at ran
      cases ran
  | token :: behind, parsed, ran => by
      rw [parseQuoted] at ran
      split at ran
      · next closes =>
          cases ran
          exact ⟨[], [], token, rfl, closes, rfl, .nil, rfl⟩
      · next isText =>
          rcases exists_of_bind_eq_ok ran with ⟨⟨⟨parts, closing⟩, rest, shorter⟩, others, ran⟩
          rcases derives_of_parseQuoted others with ⟨used, raw, last, split, closes, isLast, derives, joined⟩
          cases ran
          dsimp only at split joined isLast
          subst joined
          exact ⟨token :: used, _, last, congrArg (token :: ·) split, closes, isLast, .text isText derives,
            rfl⟩
      · next isReference =>
          rcases exists_of_bind_eq_ok ran with ⟨⟨⟨parts, closing⟩, rest, shorter⟩, others, ran⟩
          rcases derives_of_parseQuoted others with ⟨used, raw, last, split, closes, isLast, derives, joined⟩
          cases ran
          dsimp only at split joined isLast
          subst joined
          exact ⟨token :: used, _, last, congrArg (token :: ·) split, closes, isLast,
            .reference isReference derives, rfl⟩
      · next opens =>
          rcases exists_of_bind_eq_ok ran with ⟨⟨call, left, shorter⟩, first, ran⟩
          rcases exists_of_bind_eq_ok ran with ⟨⟨⟨parts, closing⟩, rest, shorterStill⟩, others, ran⟩
          rcases derives_of_parseCall opens first with ⟨usedFirst, splitFirst, derivesFirst⟩
          rcases derives_of_parseQuoted others with ⟨used, raw, last, split, closes, isLast, derives, joined⟩
          cases ran
          dsimp only at splitFirst split joined isLast derivesFirst
          subst joined
          exact ⟨token :: usedFirst ++ used, call :: raw, last, by simp [splitFirst, split], closes, isLast,
            .call derivesFirst derives, (derivesFirst.joinLiterals_eq raw).symm⟩
      · cases ran
termination_by tokens => 8 * tokens.length
decreasing_by
  all_goals simp only [List.length_cons]
  all_goals omega

end

/-! ## Tags -/

theorem derives_of_parseAttributes {finish : Token} : ∀ {known : Attributes} {tokens : List Token}
    {parsed : Parsed (Attributes × Token) tokens}, parseAttributes finish known tokens = .ok parsed →
      ∃ used entries, tokens = used ++ parsed.result.2 :: parsed.rest ∧
        (parsed.result.2.kind = .tagEnd ∨ parsed.result.2.kind = .tagSelfClose) ∧
        DerivesAttributes used entries ∧
        parsed.result.1 = entries.foldl (fun known entry => putEntry known entry.1 entry.2) known
  | known, [], parsed, ran => by
      rw [parseAttributes] at ran
      cases ran
  | known, token :: behind, parsed, ran => by
      rw [parseAttributes] at ran
      split at ran
      · next isName =>
          rcases exists_of_bind_eq_ok ran with ⟨⟨⟨parts, closing⟩, left, shorter⟩, quoted, ran⟩
          rcases exists_of_bind_eq_ok ran with ⟨⟨read, rest, shorterStill⟩, others, ran⟩
          rcases derives_of_parseQuoted quoted with ⟨used, raw, last, split, closes, isLast, derives, joined⟩
          rcases derives_of_parseAttributes others with ⟨usedBehind, entries, splitBehind, ends, more, folded⟩
          cases ran
          dsimp only at split isLast joined splitBehind ends folded
          subst isLast joined
          exact ⟨token :: (used ++ last :: usedBehind), _, by simp [split, splitBehind], ends,
            .cons isName derives closes more, folded⟩
      · next ends =>
          cases ran
          exact ⟨[], [], rfl, .inl ends, .nil, rfl⟩
      · next ends =>
          cases ran
          exact ⟨[], [], rfl, .inr ends, .nil, rfl⟩
      · cases ran
termination_by _ tokens => tokens.length
decreasing_by
  all_goals simp only [List.length_cons]
  all_goals omega

theorem derivesTag_of_parseAttributes {finish opening : Token} {tokens : List Token}
    {parsed : Parsed (Attributes × Token) tokens} (opens : opening.kind = .tagStart)
    (ran : parseAttributes finish [] tokens = .ok parsed) :
    ∃ used, tokens = used ++ parsed.result.2 :: parsed.rest ∧
      (parsed.result.2.kind = .tagEnd ∨ parsed.result.2.kind = .tagSelfClose) ∧
      DerivesTag opening (openedTag opening) parsed.result.2 (opening :: (used ++ [parsed.result.2]))
        parsed.result.1 := by
  rcases derives_of_parseAttributes ran with ⟨used, entries, split, ends, derives, folded⟩
  rw [foldl_putEntry] at folded
  refine ⟨used, split, ends, ?_⟩
  rw [folded]
  exact .mk opens rfl derives

/-! ## Bodies and blocks -/

/-- A body ends here: nothing follows, or what closes a block or begins its next branch. -/
def Stops (rest : List Token) : Prop :=
  ∀ token behind, rest = token :: behind → token.kind = .tagClose ∨ isBranchTag token = true

/-- What is read behind the tag of a branch: its body, the branches behind it and the closing tag. -/
inductive BranchesReadAs (opening : Token) : Option (Argument × Span) → List Token → Branches → Prop where
  | conditional {condition : Argument} {span : Span} {tokens branchTokens lastTokens : List Token}
      {parts : List Segment} {branches : List Branch} {otherwise : Option (List Segment)} {closing : Token}
      (body : DerivesBody tokens parts) (more : DerivesBranches branchTokens branches)
      (last : DerivesOtherwise lastTokens otherwise) (closes : Closes closing (openedTag opening)) :
      BranchesReadAs opening (some (condition, span))
        (tokens ++ (branchTokens ++ (lastTokens ++ [closing])))
        (⟨condition, joinLiterals parts, span⟩ :: branches, otherwise, closing.span)
  | otherwise {tokens : List Token} {parts : List Segment} {closing : Token}
      (body : DerivesBody tokens parts) (closes : Closes closing (openedTag opening)) :
      BranchesReadAs opening none (tokens ++ [closing]) ([], some (joinLiterals parts), closing.span)

section Branches

variable {opening token ending : Token} {tag tokens used : List Token} {condition next : Argument}
  {span : Span} {parts : List Segment} {branches : List Branch} {otherwise : Option (List Segment)}
  {closing : Span}

/-- A branch with a condition goes before those that are read behind it. -/
theorem BranchesReadAs.elseif (body : DerivesBody tokens parts)
    (head : DerivesTag token "elseif" ending tag [("is", next)]) (isClosed : ending.kind = .tagSelfClose)
    (readAs : BranchesReadAs opening (some (next, token.span)) used (branches, otherwise, closing)) :
    BranchesReadAs opening (some (condition, span)) (tokens ++ (tag ++ used))
      (⟨condition, joinLiterals parts, span⟩ :: branches, otherwise, closing) := by
  cases readAs with
  | conditional inside more last closes =>
      have whole : BranchesReadAs opening (some (condition, span)) _ _ :=
        .conditional body (.cons head isClosed inside more) last closes
      simpa only [List.append_assoc] using whole

/-- The branch without a condition is the last one. -/
theorem BranchesReadAs.last (body : DerivesBody tokens parts) (head : DerivesTag token "else" ending tag [])
    (isClosed : ending.kind = .tagSelfClose)
    (readAs : BranchesReadAs opening none used (branches, otherwise, closing)) :
    BranchesReadAs opening (some (condition, span)) (tokens ++ (tag ++ used))
      (⟨condition, joinLiterals parts, span⟩ :: branches, otherwise, closing) := by
  cases readAs with
  | otherwise inside closes =>
      have whole : BranchesReadAs opening (some (condition, span)) _ _ :=
        .conditional body .nil (.some head isClosed inside) closes
      simpa only [List.append_assoc, List.nil_append] using whole

end Branches

theorem DerivesBlock.joinLiterals_eq {used : List Token} {block : Segment}
    (derives : DerivesBlock used block) (parts : List Segment) :
    joinLiterals (block :: parts) = block :: joinLiterals parts := by
  cases derives <;> rfl

mutual

theorem derives_of_parseBody {finish : Token} : ∀ {tokens : List Token}
    {parsed : Parsed (List Segment) tokens}, parseBody finish tokens = .ok parsed →
      ∃ used raw, tokens = used ++ parsed.rest ∧ DerivesBody used raw ∧
        parsed.result = joinLiterals raw ∧ Stops parsed.rest
  | [], parsed, ran => by
      rw [parseBody] at ran
      cases ran
      exact ⟨[], [], rfl, .nil, rfl, nofun⟩
  | token :: behind, parsed, ran => by
      rw [parseBody] at ran
      split at ran
      · next closes =>
          cases ran
          refine ⟨[], [], rfl, .nil, rfl, ?_⟩
          rintro _ _ ⟨⟩
          exact .inl closes
      · next opens =>
          split at ran
          · next isBranch =>
              cases ran
              refine ⟨[], [], rfl, .nil, rfl, ?_⟩
              rintro _ _ ⟨⟩
              exact .inr isBranch
          · rcases exists_of_bind_eq_ok ran with ⟨⟨block, left, shorter⟩, first, ran⟩
            rcases exists_of_bind_eq_ok ran with ⟨⟨body, rest, shorterStill⟩, others, ran⟩
            rcases derives_of_parseBlock opens first with ⟨usedFirst, splitFirst, derivesFirst⟩
            rcases derives_of_parseBody others with ⟨used, raw, split, derives, joined, stops⟩
            cases ran
            dsimp only at splitFirst split joined derivesFirst
            subst joined
            exact ⟨token :: usedFirst ++ used, block :: raw, by simp [splitFirst, split],
              .block derivesFirst derives, (derivesFirst.joinLiterals_eq raw).symm, stops⟩
      · next isText =>
          rcases exists_of_bind_eq_ok ran with ⟨⟨body, rest, shorter⟩, others, ran⟩
          rcases derives_of_parseBody others with ⟨used, raw, split, derives, joined, stops⟩
          cases ran
          dsimp only at split joined
          subst joined
          exact ⟨token :: used, _, congrArg (token :: ·) split, .text isText derives, rfl, stops⟩
      · next isReference =>
          rcases exists_of_bind_eq_ok ran with ⟨⟨body, rest, shorter⟩, others, ran⟩
          rcases derives_of_parseBody others with ⟨used, raw, split, derives, joined, stops⟩
          cases ran
          dsimp only at split joined
          subst joined
          exact ⟨token :: used, _, congrArg (token :: ·) split, .reference isReference derives, rfl, stops⟩
      · next opens =>
          rcases exists_of_bind_eq_ok ran with ⟨⟨call, left, shorter⟩, first, ran⟩
          rcases exists_of_bind_eq_ok ran with ⟨⟨body, rest, shorterStill⟩, others, ran⟩
          rcases derives_of_parseCall opens first with ⟨usedFirst, splitFirst, derivesFirst⟩
          rcases derives_of_parseBody others with ⟨used, raw, split, derives, joined, stops⟩
          cases ran
          dsimp only at splitFirst split joined derivesFirst
          subst joined
          exact ⟨token :: usedFirst ++ used, call :: raw, by simp [splitFirst, split],
            .call derivesFirst derives, (derivesFirst.joinLiterals_eq raw).symm, stops⟩
      · cases ran
termination_by tokens => 4 * tokens.length
decreasing_by
  all_goals simp only [List.length_cons]
  all_goals omega

theorem derives_of_parseBlock {finish opening : Token} {tokens : List Token}
    {parsed : Parsed Segment tokens} (opens : opening.kind = .tagStart)
    (ran : parseBlock finish opening tokens = .ok parsed) :
    ∃ used, tokens = used ++ parsed.rest ∧ DerivesBlock (opening :: used) parsed.result := by
  rw [parseBlock] at ran
  rcases exists_of_bind_eq_ok ran with ⟨⟨⟨attributes, ending⟩, left, shorter⟩, read, ran⟩
  rcases derivesTag_of_parseAttributes opens read with ⟨usedTag, splitTag, ends, tag⟩
  dsimp only at ran splitTag ends tag
  split at ran
  · next isIf =>
      rcases exists_of_bind_eq_ok ran with ⟨_, isOpen, ran⟩
      rcases exists_of_bind_eq_ok ran with ⟨condition, found, ran⟩
      rcases exists_of_bind_eq_ok ran with ⟨⟨⟨branches, otherwise, closing⟩, rest, shorterStill⟩, more, ran⟩
      rcases readAs_of_parseBranches more with ⟨used, split, readAs⟩
      cases ran
      dsimp only at split readAs ⊢
      rw [isIf, branchCondition_eq_ok_iff.mp found] at tag
      refine ⟨usedTag ++ [ending] ++ used, by simp [splitTag, split], ?_⟩
      cases readAs with
      | conditional body others last closes =>
          rw [isIf] at closes
          exact .choice tag (ends.resolve_right (requireOpen_eq_ok_iff.mp isOpen)) body others last closes
  · next isLoop =>
      rcases exists_of_bind_eq_ok ran with ⟨_, isOpen, ran⟩
      rcases exists_of_bind_eq_ok ran with ⟨head, found, ran⟩
      rcases exists_of_bind_eq_ok ran with ⟨⟨body, behind, shorterStill⟩, inside, ran⟩
      rcases derives_of_parseBody inside with ⟨used, raw, split, derives, joined, stops⟩
      dsimp only at ran
      split at ran
      · cases ran
      · next closing rest =>
          split at ran
          · next isClosing =>
              rcases exists_of_bind_eq_ok ran with ⟨_, isMatching, ran⟩
              cases ran
              dsimp only at split joined ⊢
              subst joined
              have closes : Closes closing "foreach" :=
                ⟨isClosing, (requireMatching_eq_ok_iff.mp isMatching).symm.trans isLoop⟩
              rw [isLoop] at tag
              refine ⟨usedTag ++ [ending] ++ (used ++ [closing]), by simp [splitTag, split], ?_⟩
              exact .loop tag (ends.resolve_right (requireOpen_eq_ok_iff.mp isOpen))
                (loopHead_eq_ok_iff.mp found) derives closes
          · cases ran
  · next isInclude =>
      rcases exists_of_bind_eq_ok ran with ⟨segment, found, ran⟩
      cases ran
      rcases parseInclusion_eq_ok_iff.mp found with ⟨isClosed, value, text, isTemplate, literal, present, rfl⟩
      rw [isInclude, isTemplate] at tag
      exact ⟨usedTag ++ [ending], by simp [splitTag], .inclusion tag isClosed literal present⟩
  · cases ran
termination_by 4 * tokens.length + 2

theorem readAs_of_parseBranches {finish opening : Token} {current : Option (Argument × Span)}
    {tokens : List Token} {parsed : Parsed Branches tokens}
    (ran : parseBranches finish opening current tokens = .ok parsed) :
    ∃ used, tokens = used ++ parsed.rest ∧ BranchesReadAs opening current used parsed.result := by
  rw [parseBranches] at ran
  rcases exists_of_bind_eq_ok ran with ⟨⟨body, left, shorter⟩, inside, ran⟩
  rcases derives_of_parseBody inside with ⟨usedBody, raw, splitBody, derives, joined, stops⟩
  rcases left with _ | ⟨token, behind⟩
  · cases ran
  · have shorterBehind : behind.length < tokens.length := shorter
    dsimp only at ran splitBody joined stops
    subst joined
    split at ran
    · next isClosing =>
        rcases exists_of_bind_eq_ok ran with ⟨_, isMatching, ran⟩
        cases ran
        dsimp only
        have closes : Closes token (openedTag opening) :=
          ⟨isClosing, (requireMatching_eq_ok_iff.mp isMatching).symm⟩
        refine ⟨usedBody ++ [token], by simp [splitBody], ?_⟩
        cases current with
        | none => exact .otherwise derives closes
        | some branch => exact .conditional derives .nil .none closes
    · next opens =>
        rcases exists_of_bind_eq_ok ran with ⟨⟨⟨attributes, ending⟩, next, shorterNext⟩, read, ran⟩
        rcases derivesTag_of_parseAttributes opens read with ⟨usedTag, splitTag, ends, tag⟩
        rcases exists_of_bind_eq_ok ran with ⟨_, isClosed, ran⟩
        dsimp only at splitTag tag
        have isClosed := requireSelfClosing_eq_ok_iff.mp isClosed
        split at ran
        · rcases exists_of_bind_eq_ok ran with ⟨_, failed, _⟩
          cases failed
        · next isConditional =>
            split at ran
            · next isElseif =>
                rcases exists_of_bind_eq_ok ran with ⟨condition, found, ran⟩
                rcases exists_of_bind_eq_ok ran with ⟨_, ⟨⟩, ran⟩
                rcases exists_of_bind_eq_ok ran with ⟨⟨more, rest, shorterRest⟩, others, ran⟩
                rcases readAs_of_parseBranches others with ⟨used, split, readAs⟩
                cases ran
                dsimp only at split readAs ⊢
                have isCondition : attributes = [("is", condition)] := branchCondition_eq_ok_iff.mp found
                rw [isElseif, isCondition] at tag
                refine ⟨usedBody ++ (token :: (usedTag ++ [ending]) ++ used), ?_, ?_⟩
                · simp [splitBody, splitTag, split]
                · cases current with
                  | none => exact absurd rfl isConditional
                  | some branch => exact readAs.elseif derives tag isClosed
            · next notElseif =>
                rcases exists_of_bind_eq_ok ran with ⟨_, refused, ran⟩
                rcases exists_of_bind_eq_ok ran with ⟨_, ⟨⟩, ran⟩
                rcases exists_of_bind_eq_ok ran with ⟨⟨more, rest, shorterRest⟩, others, ran⟩
                rcases readAs_of_parseBranches others with ⟨used, split, readAs⟩
                cases ran
                dsimp only at split readAs ⊢
                have isElse : openedTag token = "else" := by
                  rcases stops token behind rfl with closes | isBranch
                  · cases opens.symm.trans closes
                  · simpa [isBranchTag, opens, notElseif] using isBranch
                have isBare : attributes = [] := refuseExtra_eq_ok_iff.mp refused
                rw [isElse, isBare] at tag
                refine ⟨usedBody ++ (token :: (usedTag ++ [ending]) ++ used), ?_, ?_⟩
                · simp [splitBody, splitTag, split]
                · cases current with
                  | none => exact absurd rfl isConditional
                  | some branch => exact readAs.last derives tag isClosed
    · cases ran
termination_by 4 * tokens.length + 1

end

end Markup
end TemplateCascade
