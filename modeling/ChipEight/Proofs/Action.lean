import ChipEight.Reply

/-!
# Actions that keep a property

An action leaves a state whether it fails or not, so what it keeps is said of that state. The same
goes for several actions in a row: one that fails is followed by the next all the same.

* **`Action.Keeps`** — an action leaves no state without a property, whether it fails or not; one
  lemma for each way in which actions are made.
* **`Action.Keeps.afterEach`** — what each request of a list keeps, the whole list keeps. The
  induction over requests to a part of the machine is done here, once.
* **`Action.see_afterEach`** — and what the latest of them says that says anything is seen.
-/

namespace ChipEight

/-- A fault is handed on as an error, so what succeeds is what succeeded before. -/
theorem Error.ofFault_eq_ok_iff {α : Type} {x : Except Fault α} {a : α} :
    ofFault x = .ok a ↔ x = .ok a := by
  cases x <;> simp [ofFault]

namespace Action

variable {σ τ α ρ : Type}

/-- An action keeps a property: it leaves no state without it, whether it fails or not. -/
def Keeps (P : σ → Prop) (action : Action σ α) : Prop :=
  ∀ s, P s → P (action.after s)

theorem after_of_ok {action : Action σ α} {s s' : σ} {a : α} (h : action s = .ok a s') :
    action.after s = s' := by
  simp only [after, h]

/-- The state after an action that fails is the one that it leaves as well: a failure may have
changed it. -/
theorem after_of_error {action : Action σ α} {s s' : σ} {e : Error} (h : action s = .error e s') :
    action.after s = s' := by
  simp only [after, h]

/-- Reading changes nothing, whether it succeeds or not. -/
theorem after_reading (look : σ → Except Error α) (s : σ) : (reading look).after s = s := by
  simp only [after, reading]
  cases look s <;> rfl

theorem keeps_reading (P : σ → Prop) (look : σ → Except Error α) : Keeps P (reading look) := by
  intro s hs
  rwa [after_reading]

theorem keeps_answer (P : σ → Prop) (look : σ → Reply) : Keeps P (answer look) :=
  fun _ hs => hs

/-- An update that cannot fail keeps what it keeps of every state. -/
theorem keeps_always {P : σ → Prop} {update : σ → σ} (h : ∀ s, P s → P (update s)) :
    Keeps P (always update) :=
  h

/-- An update that may be refused has to keep a property only where it is not: a refusal leaves the
state as it was. -/
theorem keeps_checked {P : σ → Prop} {update : σ → Except Error σ}
    (h : ∀ s s', P s → update s = .ok s' → P s') : Keeps P (checked update) := by
  intro s hs
  simp only [after, checked]
  cases hu : update s with
  | ok s' => exact h s s' hs hu
  | error e => exact hs

/-- An action on a part leaves the whole with that part replaced. -/
theorem after_within (part : σ → τ) (restore : τ → σ → σ) (action : Action τ α) (s : σ) :
    (within part restore action).after s = restore (action.after (part s)) s := by
  simp only [after, within]
  cases action (part s) <;> rfl

/-! ## Requests in a row -/

/-- The state after a list of requests, each carried out on the state that the one before it left,
whether that one failed or not. -/
def afterEach (run : ρ → Action σ α) (requests : List ρ) (s : σ) : σ :=
  requests.foldl (fun s request => (run request).after s) s

theorem afterEach_cons (run : ρ → Action σ α) (request : ρ) (requests : List ρ) (s : σ) :
    afterEach run (request :: requests) s = afterEach run requests ((run request).after s) :=
  rfl

/-- **What each request keeps, all of them keep.** Induction on the list of requests. -/
theorem Keeps.afterEach {run : ρ → Action σ α} {P : σ → Prop} {requests : List ρ}
    (h : ∀ request ∈ requests, (run request).Keeps P) {s : σ} (hs : P s) :
    P (Action.afterEach run requests s) := by
  induction requests generalizing s with
  | nil => exact hs
  | cons request requests ih =>
    obtain ⟨hfirst, hlater⟩ := List.forall_mem_cons.mp h
    rw [afterEach_cons]
    exact ih hlater (hfirst s hs)

/-- The search from the latest request on comes to the first of all only if no later one has said
anything. -/
theorem findSome?_reverse_cons {β : Type} (given : ρ → Option β) (request : ρ) (requests : List ρ) :
    (request :: requests).reverse.findSome? given =
      (requests.reverse.findSome? given).or (given request) := by
  rw [List.reverse_cons, List.findSome?_append, List.findSome?_singleton]

/-- **What is seen of a state is what the latest request says of it that says anything.** Induction
on the list of requests: the first of them is asked only if no later one has said anything. -/
theorem see_afterEach {β : Type} {run : ρ → Action σ α} {P : σ → Prop} (see : σ → β)
    {given : ρ → Option β} {requests : List ρ}
    (hkeeps : ∀ request ∈ requests, (run request).Keeps P)
    (hgiven : ∀ request ∈ requests, ∀ s, P s →
      see ((run request).after s) = (given request).getD (see s)) {s : σ} (hs : P s) :
    see (afterEach run requests s) = (requests.reverse.findSome? given).getD (see s) := by
  induction requests generalizing s with
  | nil => rfl
  | cons request requests ih =>
    obtain ⟨hkeepsFirst, hkeepsLater⟩ := List.forall_mem_cons.mp hkeeps
    obtain ⟨hfirst, hlater⟩ := List.forall_mem_cons.mp hgiven
    rw [afterEach_cons, ih hkeepsLater hlater (hkeepsFirst s hs), hfirst s hs,
      findSome?_reverse_cons]
    cases requests.reverse.findSome? given <;> rfl

end Action

end ChipEight
