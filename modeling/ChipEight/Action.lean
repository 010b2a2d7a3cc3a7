import ChipEight.Fault

/-!
# Actions

An operation on a state either gives a value or an error, and leaves a state in both cases: an
operation that fails half way keeps what it has done until then. Operations that check before they
change anything are functions into `Except` instead, and become actions where they are asked for.
-/

namespace ChipEight

/-- An operation on a state of type `σ` with a value of type `α`. -/
abbrev Action (σ α : Type) : Type :=
  EStateM Error σ α

/-- An operation that can only fail by a fault. -/
def Error.ofFault {α : Type} : Except Fault α → Except Error α
  | .ok a => .ok a
  | .error f => .error (.fault f)

/-- An operation that can only fail by a misuse. -/
def Error.ofMisuse {α : Type} : Except Misuse α → Except Error α
  | .ok a => .ok a
  | .error m => .error (.misuse m)

namespace Action

variable {σ τ α : Type}

/-- A checked look at the state, which stays as it is. -/
def reading (look : σ → Except Error α) : Action σ α := fun s =>
  match look s with
  | .ok a => .ok a s
  | .error e => .error e s

/-- An action on a part of the state, given by how to take the part and how to put it back. -/
def within (part : σ → τ) (restore : τ → σ → σ) (action : Action τ α) : Action σ α := fun s =>
  match action (part s) with
  | .ok a t => .ok a (restore t s)
  | .error e t => .error e (restore t s)

/-- The state that an action leaves, whether it fails or not. -/
def after (action : Action σ α) (s : σ) : σ :=
  match action s with
  | .ok _ s' => s'
  | .error _ s' => s'

/-- What an action gives, without the state. -/
def result (action : Action σ α) (s : σ) : Except Error α :=
  match action s with
  | .ok a _ => .ok a
  | .error e _ => .error e

end Action

end ChipEight
