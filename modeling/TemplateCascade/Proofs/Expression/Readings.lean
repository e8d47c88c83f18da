import Mathlib
import TemplateCascade.Expression.Calculation

namespace TemplateCascade
namespace Expression

/-!
# Readings

What a function of a grammar reads off the front of some tokens, said as a relation between the tokens, the
result and the tokens behind it.  The functions call each other in sequence, and so their readings compose:
a sequence reads what its parts read one after the other.
-/

open Text (Span)

variable {First Second Result : Type} {tokens input behind rest : List Token} {result : Result}

/-- Reading succeeds with a result and leaves the rest of the tokens. -/
def Reads (parsed : Except Malformed (Parsed Result tokens)) (result : Result) (rest : List Token) :
    Prop :=
  ∃ shorter, parsed = .ok ⟨result, rest, shorter⟩

theorem Reads.length_le {parsed : Except Malformed (Parsed Result tokens)}
    (reads : Reads parsed result rest) : rest.length ≤ tokens.length :=
  reads.choose

theorem Reads.bind {parsed : Except Malformed (Parsed First tokens)}
    {next : Parsed First tokens → Except Malformed (Parsed Result input)} {first : First}
    (reads : Reads parsed first behind)
    (then_ : ∀ shorter, Reads (next ⟨first, behind, shorter⟩) result rest) :
    Reads (parsed >>= next) result rest := by
  rcases reads with ⟨shorter, rfl⟩
  exact then_ shorter

/-- A sequence reads with its second part what its first part leaves. -/
theorem reads_bind_iff {parsed : Except Malformed (Parsed First tokens)}
    {next : Parsed First tokens → Except Malformed (Parsed Result input)} :
    Reads (parsed >>= next) result rest ↔
      ∃ first behind, Reads parsed first behind ∧
        ∃ shorter, Reads (next ⟨first, behind, shorter⟩) result rest := by
  constructor
  · intro reads
    cases parsed with
    | error malformed =>
        rcases reads with ⟨_, impossible⟩
        cases impossible
    | ok found => exact ⟨found.result, found.rest, ⟨found.length_rest_le, rfl⟩, found.length_rest_le, reads⟩
  · rintro ⟨first, behind, reads, shorter, more⟩
    exact reads.bind fun _ => more

@[simp]
theorem reads_ok_iff {parsed : Parsed Result tokens} :
    Reads (.ok parsed) result rest ↔ parsed.result = result ∧ parsed.rest = rest := by
  constructor
  · rintro ⟨shorter, same⟩
    cases same
    exact ⟨rfl, rfl⟩
  · rintro ⟨rfl, rfl⟩
    exact ⟨parsed.length_rest_le, rfl⟩

/-- What is read and then only rewritten. -/
theorem reads_rewritten_iff (rewritten : First → Result)
    {parsed : Except Malformed (Parsed First tokens)}
    {next : Parsed First tokens → Except Malformed (Parsed Result input)}
    (plain : ∀ found, ∃ shorter, next found = .ok ⟨rewritten found.result, found.rest, shorter⟩) :
    Reads (parsed >>= next) result rest ↔ ∃ first, Reads parsed first rest ∧ rewritten first = result := by
  rw [reads_bind_iff]
  constructor
  · rintro ⟨first, behind, reads, shorter, more⟩
    rcases plain ⟨first, behind, shorter⟩ with ⟨_, same⟩
    rw [same, reads_ok_iff] at more
    rcases more with ⟨rfl, rfl⟩
    exact ⟨first, reads, rfl⟩
  · rintro ⟨first, reads, rfl⟩
    rcases plain ⟨first, rest, reads.length_le⟩ with ⟨_, same⟩
    refine ⟨first, rest, reads, reads.length_le, ?_⟩
    rw [same, reads_ok_iff]
    exact ⟨rfl, rfl⟩

/-- What is read in two parts and then only put together. -/
theorem reads_sequence_iff (second : First → (behind : List Token) → Except Malformed (Parsed Second behind))
    (together : First → Second → Result) {parsed : Except Malformed (Parsed First tokens)}
    {next : Parsed First tokens → Except Malformed (Parsed Result input)}
    (plain : ∀ first behind shorter, ∃ last, next ⟨first, behind, shorter⟩ = second first behind >>= last ∧
      ∀ found, ∃ shorter, last found = .ok ⟨together first found.result, found.rest, shorter⟩) :
    Reads (parsed >>= next) result rest ↔
      ∃ first behind, Reads parsed first behind ∧
        ∃ other, Reads (second first behind) other rest ∧ together first other = result := by
  rw [reads_bind_iff]
  refine exists_congr fun first => exists_congr fun behind => and_congr_right fun isFirst => ?_
  rw [exists_prop_of_true isFirst.length_le]
  rcases plain first behind isFirst.length_le with ⟨last, same, rewritten⟩
  rw [same]
  exact reads_rewritten_iff (together first) rewritten

/-- What is read for good only where nothing is left. -/
theorem bind_eq_ok_iff_reads_nil {parsed : Except Malformed (Parsed Result tokens)}
    {next : Parsed Result tokens → Except Malformed Result}
    (ends : ∀ found, next found = .ok result ↔ found.result = result ∧ found.rest = []) :
    parsed >>= next = .ok result ↔ Reads parsed result [] := by
  cases parsed with
  | error malformed => exact iff_of_false nofun nofun
  | ok found => exact (ends found).trans reads_ok_iff.symm

@[simp]
theorem not_reads_error {malformed : Malformed} :
    ¬ Reads (.error malformed : Except Malformed (Parsed Result tokens)) result rest := by
  rintro ⟨_, impossible⟩
  cases impossible

/-- Some tokens are there in front of the rest, and their items are in a language with the result. -/
def Takes (language : List Item → Result → Prop) (tokens : List Token) (result : Result)
    (rest : List Token) : Prop :=
  ∃ front, tokens = front ++ rest ∧ language (front.map Token.item) result

/-- What is taken behind some tokens is taken with them. -/
theorem Takes.prepend {language : List Item → Result → Prop} {tokens front behind rest : List Token}
    (isTokens : tokens = front ++ behind)
    (takes : Takes (fun more => language (front.map Token.item ++ more)) behind result rest) :
    Takes language tokens result rest := by
  rcases takes with ⟨others, isOthers, written⟩
  refine ⟨front ++ others, ?_, ?_⟩
  · rw [isTokens, isOthers, List.append_assoc]
  · rw [List.map_append]
    exact written

/-! ## Tokens of some items -/

/-- Tokens of one item. -/
theorem exists_single {tokens : List Token} {item : Item} (same : tokens.map Token.item = [item]) :
    ∃ span, tokens = [⟨item, span⟩] := by
  rcases List.map_eq_singleton_iff.mp same with ⟨⟨_, span⟩, rfl, rfl⟩
  exact ⟨span, rfl⟩

/-- Tokens of an item and some behind it. -/
theorem exists_cons {tokens : List Token} {item : Item} {items : List Item}
    (same : tokens.map Token.item = item :: items) :
    ∃ span behind, tokens = ⟨item, span⟩ :: behind ∧ behind.map Token.item = items := by
  rcases List.map_eq_cons_iff.mp same with ⟨⟨_, span⟩, behind, rfl, rfl, others⟩
  exact ⟨span, behind, rfl, others⟩

/-- Tokens of some items, one more and some behind it. -/
theorem exists_split {tokens : List Token} {left right : List Item} {item : Item}
    (same : tokens.map Token.item = left ++ item :: right) :
    ∃ front token behind, tokens = front ++ token :: behind ∧ front.map Token.item = left ∧
      token.item = item ∧ behind.map Token.item = right := by
  rcases List.map_eq_append_iff.mp same with ⟨front, others, rfl, isLeft, more⟩
  rcases List.map_eq_cons_iff.mp more with ⟨token, behind, rfl, isItem, isRight⟩
  exact ⟨front, token, behind, rfl, isLeft, isItem, isRight⟩

/-- Tokens of some items and one more at their end. -/
theorem exists_concat {tokens : List Token} {items : List Item} {item : Item}
    (same : tokens.map Token.item = items ++ [item]) :
    ∃ front span, tokens = front ++ [⟨item, span⟩] ∧ front.map Token.item = items := by
  rcases exists_split same with ⟨front, ⟨_, span⟩, behind, rfl, isItems, rfl, nothing⟩
  rw [List.map_eq_nil_iff] at nothing
  subst nothing
  exact ⟨front, span, rfl, isItems⟩

/-- There are tokens of any items. -/
theorem map_item_default (items : List Item) :
    (items.map fun item => (⟨item, default⟩ : Token)).map Token.item = items := by
  rw [List.map_map]
  exact List.map_id items

/-! ## Symbols -/

theorem exists_of_leadingSymbol {tokens : List Token} {symbol : Symbol}
    (leading : leadingSymbol? tokens = some symbol) :
    ∃ span rest, tokens = ⟨.symbol symbol, span⟩ :: rest := by
  unfold leadingSymbol? at leading
  split at leading
  · next found span rest =>
      rw [Option.some.inj leading]
      exact ⟨span, rest, rfl⟩
  · cases leading

/-- A symbol is taken off the tokens that start with it. -/
theorem reads_expectSymbol_iff {whole : Span} {mark : Symbol} :
    Reads (expectSymbol whole mark tokens) () rest ↔
      ∃ span, tokens = ⟨.symbol mark, span⟩ :: rest := by
  cases tokens with
  | nil => simp [expectSymbol]
  | cons token others =>
      rw [expectSymbol]
      split
      · next leading =>
        rcases exists_of_leadingSymbol leading with ⟨span, behind, same⟩
        rcases List.cons.inj same with ⟨rfl, rfl⟩
        simp [Parsed.single]
      · next different =>
        refine iff_of_false not_reads_error ?_
        rintro ⟨span, same⟩
        rw [same] at different
        exact different rfl

end Expression
end TemplateCascade
