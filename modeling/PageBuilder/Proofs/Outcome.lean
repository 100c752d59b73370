/-!
Steps that can fail, one after another: how a result, or a fault, came about.
-/

namespace PageBuilder.Outcome

universe u v w

variable {Fault : Type u} {Other : Type w} {Value Result : Type v}

theorem bind_eq_ok {first : Except Fault Value} {next : Value → Except Fault Result}
    {result : Result} :
    (first >>= next) = .ok result ↔ ∃ value, first = .ok value ∧ next value = .ok result := by
  cases first with
  | error fault => simp [bind, Except.bind]
  | ok value => simp [bind, Except.bind]

theorem bind_eq_error {first : Except Fault Value} {next : Value → Except Fault Result}
    {fault : Fault} :
    (first >>= next) = .error fault ↔
      first = .error fault ∨ ∃ value, first = .ok value ∧ next value = .error fault := by
  cases first with
  | error fault => simp [bind, Except.bind]
  | ok value => simp [bind, Except.bind]

@[simp]
theorem map_error_error {change : Fault → Other} {fault : Fault} :
    (Except.error fault : Except Fault Value).mapError change = .error (change fault) := rfl

@[simp]
theorem map_error_ok {change : Fault → Other} {value : Value} :
    (Except.ok value : Except Fault Value).mapError change = .ok value := rfl

theorem map_error_eq_ok {result : Except Fault Value} {change : Fault → Other} {value : Value} :
    result.mapError change = .ok value ↔ result = .ok value := by
  cases result with
  | error fault => simp
  | ok value => simp

theorem map_error_eq_error {result : Except Fault Value} {change : Fault → Other} {other : Other} :
    result.mapError change = .error other ↔
      ∃ fault, result = .error fault ∧ change fault = other := by
  cases result with
  | error fault => simp
  | ok value => simp

theorem map_eq_ok {result : Except Fault Value} {change : Value → Result} {value : Result} :
    result.map change = .ok value ↔ ∃ before, result = .ok before ∧ change before = value := by
  cases result with
  | error fault => simp [Except.map]
  | ok value => simp [Except.map]

theorem map_eq_error {result : Except Fault Value} {change : Value → Result} {fault : Fault} :
    result.map change = .error fault ↔ result = .error fault := by
  cases result with
  | error fault => simp [Except.map]
  | ok value => simp [Except.map]

end PageBuilder.Outcome
