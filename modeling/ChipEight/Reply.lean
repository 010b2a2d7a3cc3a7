import ChipEight.Action

/-!
# Replies

What a host gets back from an operation that it asked for.
-/

namespace ChipEight

/-- The value that an operation gives to the host. -/
inductive Reply where
  | nothing
  | number (n : Int)
  | truth (b : Bool)
  | truths (bs : List Bool)
  | bytes (bytes : List UInt8)
  | texts (texts : List Text)
  /-- How many steps of several were completed, and what stopped the rest. -/
  | progress (ran : Nat) (error : Option Error)

namespace Action

variable {σ : Type}

/-- An update that always succeeds, with nothing to reply. -/
def always (update : σ → σ) : Action σ Reply := fun s =>
  .ok .nothing (update s)

/-- An update that may be refused, with nothing to reply. -/
def checked (update : σ → Except Error σ) : Action σ Reply := fun s =>
  match update s with
  | .ok s' => .ok .nothing s'
  | .error e => .error e s

/-- A reply read off the state. -/
def answer (look : σ → Reply) : Action σ Reply := fun s =>
  .ok (look s) s

end Action

end ChipEight
