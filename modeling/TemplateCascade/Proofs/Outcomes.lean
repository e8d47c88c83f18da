namespace TemplateCascade

/-!
# Outcomes

What succeeds in several steps has succeeded in each of them.
-/

section

variable {Failure Other First Second : Type}

theorem exists_of_bind_eq_ok {first : Except Failure First} {next : First → Except Failure Second}
    {result : Second} (succeeded : (first >>= next) = .ok result) :
    ∃ between, first = .ok between ∧ next between = .ok result := by
  cases first with
  | error failure => cases succeeded
  | ok between => exact ⟨between, rfl, succeeded⟩

theorem exists_of_map_eq_ok {first : Except Failure First} {change : First → Second} {result : Second}
    (succeeded : first.map change = .ok result) : ∃ before, first = .ok before ∧ change before = result := by
  cases first with
  | error failure => cases succeeded
  | ok before => exact ⟨before, rfl, Except.ok.inj succeeded⟩

theorem mapError_eq_ok_iff {outcome : Except Failure First} {change : Failure → Other} {result : First} :
    outcome.mapError change = .ok result ↔ outcome = .ok result := by
  cases outcome with
  | error failure => exact iff_of_false nofun nofun
  | ok found =>
      constructor
      · rintro ⟨⟩
        rfl
      · rintro ⟨⟩
        rfl

theorem eq_ok_get {outcome : Except Failure First} (succeeded : outcome.toOption.isSome = true) :
    outcome = .ok (outcome.toOption.get succeeded) := by
  cases outcome with
  | error failure => cases succeeded
  | ok result => rfl

end

end TemplateCascade
