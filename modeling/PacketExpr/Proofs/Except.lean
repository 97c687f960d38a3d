/-!
# Outcomes of checks

A sequence of checks succeeds if and only if each of them does.  These lemmas take such a sequence
apart, one check at a time.  A step that also changes a state is taken off the front of a sequence
once its outcome is known.
-/

namespace PacketExpr

variable {ε ε' σ α β : Type}

theorem pure_eq_ok_iff {value result : α} :
    (pure value : Except ε α) = .ok result ↔ value = result := by
  simp [pure, Except.pure]

theorem bind_eq_ok_iff {first : Except ε α} {next : α → Except ε β} {result : β} :
    (first >>= next) = .ok result ↔ ∃ value, first = .ok value ∧ next value = .ok result := by
  cases first with
  | error error => simp [bind, Except.bind]
  | ok value => simp [bind, Except.bind]

theorem check_bind_eq_ok_iff {check : Except ε Unit} {next : Unit → Except ε β} {result : β} :
    (check >>= next) = .ok result ↔ check = .ok () ∧ next () = .ok result := by
  rw [bind_eq_ok_iff]
  constructor
  · rintro ⟨⟨⟩, accepted, rest⟩
    exact ⟨accepted, rest⟩
  · rintro ⟨accepted, rest⟩
    exact ⟨(), accepted, rest⟩

theorem map_eq_ok_iff {first : Except ε α} {change : α → β} {result : β} :
    change <$> first = .ok result ↔ ∃ value, first = .ok value ∧ change value = result := by
  cases first with
  | error error => simp [Functor.map, Except.map]
  | ok value => simp [Functor.map, Except.map]

theorem mapError_eq_ok_iff {first : Except ε α} {change : ε → ε'} {result : α} :
    first.mapError change = .ok result ↔ first = .ok result := by
  cases first with
  | error error =>
      constructor
      · rintro ⟨⟩
      · rintro ⟨⟩
  | ok value =>
      constructor
      · rintro ⟨⟩
        rfl
      · rintro ⟨⟩
        rfl

theorem ite_error_eq_ok_iff {condition : Prop} [Decidable condition] {error : ε}
    {rest : Except ε α} {result : α} :
    (if condition then .error error else rest) = .ok result ↔ ¬condition ∧ rest = .ok result := by
  split
  · simp [*]
  · simp [*]

theorem bind_eq_error_iff {first : Except ε α} {next : α → Except ε β} {error : ε} :
    (first >>= next) = .error error ↔
      first = .error error ∨ ∃ value, first = .ok value ∧ next value = .error error := by
  cases first with
  | error fault => simp [bind, Except.bind]
  | ok value => simp [bind, Except.bind]

theorem map_eq_error_iff {first : Except ε α} {change : α → β} {error : ε} :
    change <$> first = .error error ↔ first = .error error := by
  cases first with
  | error fault => simp [Functor.map, Except.map]
  | ok value => simp [Functor.map, Except.map]

theorem mapError_eq_error_iff {first : Except ε α} {change : ε → ε'} {error : ε'} :
    first.mapError change = .error error ↔
      ∃ fault, first = .error fault ∧ error = change fault := by
  cases first with
  | error fault =>
      constructor
      · rintro ⟨⟩
        exact ⟨fault, rfl, rfl⟩
      · rintro ⟨_, ⟨⟩, rfl⟩
        rfl
  | ok value =>
      constructor
      · rintro ⟨⟩
      · rintro ⟨_, ⟨⟩, _⟩

section

variable {first : EStateM ε σ α} {next : α → EStateM ε σ β} {state after : σ}

theorem bind_eq_of_ok {value : α} (succeeds : first state = .ok value after) :
    (first >>= next) state = next value after := by
  simp only [bind, EStateM.bind, succeeds]

theorem bind_eq_of_error {error : ε} (fails : first state = .error error after) :
    (first >>= next) state = .error error after := by
  simp only [bind, EStateM.bind, fails]

end

end PacketExpr
