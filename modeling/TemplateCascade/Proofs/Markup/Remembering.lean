import Mathlib
import TemplateCascade.Proofs.Cascade.Building

namespace TemplateCascade
namespace Markup

/-!
# What a memo answers

A memo keeps trees with the fingerprints of their sources and not the sources themselves.  Whatever it has
been asked to do, the tree that it keeps for a definition is that of one source, the last one that was read
anew.  As long as the sources of the definition have the fingerprint of that one, its tree is the answer,
also for a source that reads differently.
-/

/-- What a memo can be asked to do. -/
inductive MemoCall where
  | parse (id : DefinitionId) (source : String)
  | forget (id : DefinitionId)
  | clear
deriving DecidableEq, Repr

/-- The source that is read in place of one, given the source that is remembered. -/
def standIn (remembered : Option String) (source : String) : String :=
  (remembered.filter fun other =>
    Fingerprint.ofText .template other == Fingerprint.ofText .template source).getD source

/-- The source that is remembered once another one has been read.  A source that does not parse is not
remembered. -/
def rememberedAfter (remembered : Option String) (source : String) : Option String :=
  match parse (standIn remembered source) with
  | .ok _ => some (standIn remembered source)
  | .error _ => remembered

/-- What is remembered for each definition after one more call. -/
def rememberedNext (known : DefinitionId → Option String) : MemoCall → DefinitionId → Option String
  | .parse id source, asked => if asked = id then rememberedAfter (known id) source else known asked
  | .forget id, asked => if asked = id then none else known asked
  | .clear, _ => none

/-- The source whose tree is kept for each definition after some calls, the first call first. -/
def remembered (calls : List MemoCall) : DefinitionId → Option String :=
  calls.foldl rememberedNext fun _ => none

/-- A source is taken for the remembered one, which reads differently. -/
def Misread (remembered : Option String) (source : String) : Prop :=
  ∃ other, remembered = some other ∧
    Fingerprint.ofText .template other = Fingerprint.ofText .template source ∧
    parse other ≠ parse source

theorem standIn_of_ne {other source : String}
    (different : Fingerprint.ofText .template other ≠ Fingerprint.ofText .template source) :
    standIn (some other) source = source := by
  rw [standIn, Option.filter_some, if_neg (by rwa [beq_iff_eq])]
  rfl

theorem standIn_of_eq {other source : String}
    (same : Fingerprint.ofText .template other = Fingerprint.ofText .template source) :
    standIn (some other) source = other := by
  rw [standIn, Option.filter_some, if_pos (by rwa [beq_iff_eq])]
  rfl

/-- What stands in for a source has its fingerprint. -/
theorem fingerprint_standIn (remembered : Option String) (source : String) :
    Fingerprint.ofText .template (standIn remembered source) = Fingerprint.ofText .template source := by
  cases remembered with
  | none => rfl
  | some other =>
      by_cases same : Fingerprint.ofText .template other = Fingerprint.ofText .template source
      · rw [standIn_of_eq same, same]
      · rw [standIn_of_ne same]

/-- A source reads as what stands in for it exactly if it is not misread. -/
theorem parse_standIn_eq_iff {remembered : Option String} {source : String} :
    parse (standIn remembered source) = parse source ↔ ¬ Misread remembered source := by
  cases remembered with
  | none => exact iff_of_true rfl nofun
  | some other =>
      by_cases same : Fingerprint.ofText .template other = Fingerprint.ofText .template source
      · rw [standIn_of_eq same]
        constructor
        · rintro alike ⟨_, ⟨⟩, _, different⟩
          exact different alike
        · intro notMisread
          by_contra different
          exact notMisread ⟨other, rfl, same, different⟩
      · rw [standIn_of_ne same]
        refine iff_of_true rfl ?_
        rintro ⟨_, ⟨⟩, alike, _⟩
        exact same alike

namespace ParseMemo

/-- A memo when it has done what it was asked to. -/
def after (memo : ParseMemo) : MemoCall → ParseMemo
  | .parse id source => (memo.parse id source).1
  | .forget id => memo.forget id
  | .clear => empty

/-- What a memo keeps where a source is remembered: its tree, under its fingerprint. -/
inductive Kept : Option String → Option ParsedSource → Prop where
  | nothing : Kept none none
  | tree {source : String} {template : Template} (parsed : Markup.parse source = .ok template) :
      Kept (some source) (some ⟨Fingerprint.ofText .template source, template⟩)

/-- The memo keeps the trees of the remembered sources, and no others. -/
def Keeps (memo : ParseMemo) (known : DefinitionId → Option String) : Prop :=
  ∀ id, Kept (known id) memo.trees[id]?

theorem keeps_empty : empty.Keeps fun _ => none := by
  intro id
  rw [show empty.trees[id]? = none from Std.ExtTreeMap.getElem?_empty]
  exact .nothing

variable {memo : ParseMemo} {known : DefinitionId → Option String}

theorem Keeps.read_eq (keeps : memo.Keeps known) (id : DefinitionId) (source : String) :
    memo.read id source = Markup.parse (standIn (known id) source) := by
  have here := keeps id
  rw [read, lookup?]
  generalize known id = remembered at here ⊢
  generalize memo.trees[id]? = held at here ⊢
  cases here with
  | nothing => rfl
  | @tree other template parsed =>
      by_cases same : Fingerprint.ofText .template other = Fingerprint.ofText .template source
      · rw [standIn_of_eq same, parsed, Option.filter_some, if_pos (beq_iff_eq.mpr same)]
        rfl
      · rw [standIn_of_ne same, Option.filter_some, if_neg (by rwa [beq_iff_eq])]
        rfl

theorem Keeps.learn (keeps : memo.Keeps known) (id : DefinitionId) (source : String) :
    (memo.learn id source).Keeps (rememberedNext known (.parse id source)) := by
  intro asked
  have here := keeps asked
  rw [ParseMemo.learn, keeps.read_eq id source, rememberedNext, rememberedAfter]
  cases parsed : Markup.parse (standIn (known id) source) with
  | error errors =>
      dsimp only
      split
      · next same => exact same ▸ here
      · exact here
  | ok template =>
      dsimp only
      rw [getElem?_insert_eq]
      split
      · rw [← fingerprint_standIn (known id) source]
        exact .tree parsed
      · exact here

theorem Keeps.after (keeps : memo.Keeps known) (call : MemoCall) :
    (memo.after call).Keeps (rememberedNext known call) := by
  cases call with
  | parse id source => exact keeps.learn id source
  | forget id =>
      intro asked
      have here := keeps asked
      rw [ParseMemo.after, forget, getElem?_erase_eq, rememberedNext]
      split
      · exact .nothing
      · exact here
  | clear => exact keeps_empty

/-- After any calls a memo keeps the trees of what is remembered. -/
theorem keeps_remembered (calls : List MemoCall) : (calls.foldl after empty).Keeps (remembered calls) := by
  have onwards : ∀ (memo : ParseMemo) (known : DefinitionId → Option String), memo.Keeps known →
      (calls.foldl after memo).Keeps (calls.foldl rememberedNext known) := by
    induction calls with
    | nil => exact fun memo known keeps => keeps
    | cons call rest inductionHypothesis =>
        exact fun memo known keeps => inductionHypothesis _ _ (keeps.after call)
  exact onwards empty _ keeps_empty

/-- After any calls a source is answered with the tree of what stands in for it. -/
theorem parse_eq (calls : List MemoCall) (id : DefinitionId) (source : String) :
    ((calls.foldl after empty).parse id source).2 = Markup.parse (standIn (remembered calls id) source) :=
  (keeps_remembered calls).read_eq id source

end ParseMemo

end Markup
end TemplateCascade
