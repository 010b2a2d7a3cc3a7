import ChipEight.Keypad.Command
import ChipEight.Proofs.Action
import Mathlib.Data.Set.Basic
import Mathlib.Order.Bounds.Defs

/-!
# Pressed keys

A keypad is the set of its keys that are down, and every request to it says of each key that it is
down, that it is up, or nothing. So a key is as the latest request left it that said something of
it.

* **`pressed`** — the set.
* **`Command.Refused`**, **`Command.given?`** — the requests that are refused, and what an accepted
  one says of a key.
* **`get_after`**, **`get_afterAll`** — what a request, and a history of requests, make of a key.
* **`afterAll_presses`** — keys that are pressed one after the other come to the same in any order.
* **`firstPressed_eq_some_iff_isLeast`** — the key that is found is the least of the set.
-/

namespace ChipEight.Keypad

variable {pad : Keypad} {k : Fin 16}

/-- The keys that are down. -/
def pressed (pad : Keypad) : Set (Fin 16) :=
  {k | pad.down.get k = true}

/-- The keypad after a list of requests, refused ones among them. -/
def afterAll (pad : Keypad) (calls : List Command) : Keypad :=
  Action.afterEach Command.run calls pad

/-- Two keypads on which every key is in the same state are the same. -/
theorem ext_get {pad' : Keypad} (h : ∀ k, pad.down.get k = pad'.down.get k) : pad = pad' := by
  obtain ⟨down⟩ := pad
  obtain ⟨down'⟩ := pad'
  have hdown : down = down' := Vector.ext fun i hi => h ⟨i, hi⟩
  rw [hdown]

/-! ## What a request says of a key -/

/-- The requests that are refused, and the misuse that each is. -/
inductive Command.Refused : Command → Misuse → Prop
  | press (key : Int) (h : key < 0 ∨ 15 < key) : Refused (.press key) (.keyOutOfRange key)
  | release (key : Int) (h : key < 0 ∨ 15 < key) : Refused (.release key) (.keyOutOfRange key)
  | set (key : Int) (state : Json) (h : key < 0 ∨ 15 < key) :
      Refused (.set key state) (.keyOutOfRange key)
  | update (states : List Json) (h : states.length ≠ 16) :
      Refused (.update states) (.keyCount 16 states.length)

/-- The state that a request gives a key. It gives none if it is refused or is about other keys. -/
def Command.given? (k : Fin 16) : Command → Option Bool
  | .press key => if key = k.val then some true else none
  | .release key => if key = k.val then some false else none
  | .set key state => if key = k.val then some state.isTrue else none
  | .update states => if states.length = 16 then states[k.val]?.map Json.isTrue else none
  | .reset => some false
  | _ => none

/-- The state that a key was given last. -/
def latest? (k : Fin 16) (calls : List Command) : Option Bool :=
  calls.reverse.findSome? (Command.given? k)

/-! ## One request -/

/-- A key that exists is put into the state asked for. -/
theorem set_of_mem {key : Int} (h : 0 ≤ key ∧ key < 16) (pad : Keypad) (isDown : Bool) :
    pad.set key isDown = .ok { down := pad.down.setIfInBounds key.toNat isDown } := by
  simp only [set, key?, dif_pos h]
  rfl

/-- A key that does not exist is refused by its number. -/
theorem set_of_not_mem {key : Int} (h : ¬ (0 ≤ key ∧ key < 16)) (pad : Keypad) (isDown : Bool) :
    pad.set key isDown = .error (.keyOutOfRange key) := by
  simp only [set, key?, dif_neg h]
  rfl

theorem run_set_of_mem {key : Int} (h : 0 ≤ key ∧ key < 16) (pad : Keypad) (isDown : Bool) :
    (Action.checked fun pad : Keypad => Error.ofMisuse (pad.set key isDown)) pad =
      .ok .nothing { down := pad.down.setIfInBounds key.toNat isDown } := by
  simp only [Action.checked, set_of_mem h, Error.ofMisuse]

/-- A request for a key that does not exist leaves the keypad as it was. -/
theorem run_set_of_not_mem {key : Int} (h : ¬ (0 ≤ key ∧ key < 16)) (pad : Keypad) (isDown : Bool) :
    (Action.checked fun pad : Keypad => Error.ofMisuse (pad.set key isDown)) pad =
      .error (.misuse (.keyOutOfRange key)) pad := by
  simp only [Action.checked, set_of_not_mem h, Error.ofMisuse]

/-- A request that is about one key gives that key its state, and no other key one. -/
theorem get_after_set (pad : Keypad) (key : Int) (isDown : Bool) (k : Fin 16) :
    ((Action.checked fun pad : Keypad =>
        Error.ofMisuse (pad.set key isDown)).after pad).down.get k =
      (if key = k.val then some isDown else none).getD (pad.down.get k) := by
  by_cases hkey : 0 ≤ key ∧ key < 16
  · rw [Action.after_of_ok (run_set_of_mem hkey pad isDown)]
    show (pad.down.setIfInBounds key.toNat isDown)[k.val] = _
    rw [Vector.getElem_setIfInBounds]
    -- a key that exists is its own number, so it is this key or another one
    by_cases hk : key = k.val
    · rw [if_pos (by omega), if_pos hk, Option.getD_some]
    · rw [if_neg (by omega), if_neg hk, Option.getD_none]
      rfl
  · rw [Action.after_of_error (run_set_of_not_mem hkey pad isDown), if_neg (by omega),
      Option.getD_none]

/-- Sixteen states of whatever kind are taken as truths, key by key. -/
theorem run_update {states : List Json} (h : states.length = 16) (pad : Keypad) :
    (Command.update states).run pad =
      .ok .nothing { down := ⟨(states.map Json.isTrue).toArray, by simp [h]⟩ } := by
  have hstates : (states.map Json.isTrue).length = 16 := by rw [List.length_map, h]
  simp only [Command.run, Action.checked, update, dif_pos hstates, Error.ofMisuse]

/-- Another number of states is refused, with both numbers. -/
theorem run_update_of_ne {states : List Json} (h : states.length ≠ 16) (pad : Keypad) :
    (Command.update states).run pad = .error (.misuse (.keyCount 16 states.length)) pad := by
  simp only [Command.run, Action.checked, update, List.length_map, dif_neg h, Error.ofMisuse]
  rfl

/-- Either all keys are given a state or, where there are not as many states as keys, none is. -/
theorem get_after_update (pad : Keypad) (states : List Json) (k : Fin 16) :
    ((Command.run (.update states)).after pad).down.get k =
      ((Command.update states).given? k).getD (pad.down.get k) := by
  -- the states are counted before any of them is looked at
  by_cases hlength : states.length = 16
  · have hk : k.val < states.length := by omega
    have hstates : (states.map Json.isTrue).length = 16 := by rw [List.length_map, hlength]
    rw [Action.after_of_ok (run_update hlength pad), Command.given?, if_pos hlength,
      List.getElem?_eq_getElem hk]
    show (states.map Json.isTrue)[k.val] = _
    rw [List.getElem_map]
    rfl
  · rw [Action.after_of_error (run_update_of_ne hlength pad), Command.given?, if_neg hlength,
      Option.getD_none]

/-- **What a request makes of a key.** -/
theorem get_after (pad : Keypad) (c : Command) (k : Fin 16) :
    (c.run.after pad).down.get k = (c.given? k).getD (pad.down.get k) := by
  cases c with
  | press key => exact get_after_set pad key true k
  | release key => exact get_after_set pad key false k
  | set key state => exact get_after_set pad key state.isTrue k
  | update states => exact get_after_update pad states k
  | reset => exact Vector.getElem_replicate k.isLt
  | isPressed key => rfl
  | firstPressed => rfl
  | snapshot => rfl

/-- **What is to be refused is refused**, with its misuse, and no key has changed. -/
theorem run_of_refused {c : Command} {misuse : Misuse} (h : c.Refused misuse) (pad : Keypad) :
    c.run pad = .error (.misuse misuse) pad := by
  cases h with
  | press key h => exact run_set_of_not_mem (by omega) pad true
  | release key h => exact run_set_of_not_mem (by omega) pad false
  | set key state h => exact run_set_of_not_mem (by omega) pad state.isTrue
  | update states h => exact run_update_of_ne h pad

/-- **Every other request is carried out.** -/
theorem run_of_not_refused {c : Command} (pad : Keypad) (h : ∀ misuse, ¬ c.Refused misuse) :
    ∃ reply pad', c.run pad = .ok reply pad' := by
  -- the first four can be refused; what would refuse them does not hold here
  cases c with
  | press key =>
    have hkey : ¬ (key < 0 ∨ 15 < key) := fun hkey => h _ (.press key hkey)
    exact ⟨_, _, run_set_of_mem (by omega) pad true⟩
  | release key =>
    have hkey : ¬ (key < 0 ∨ 15 < key) := fun hkey => h _ (.release key hkey)
    exact ⟨_, _, run_set_of_mem (by omega) pad false⟩
  | set key state =>
    have hkey : ¬ (key < 0 ∨ 15 < key) := fun hkey => h _ (.set key state hkey)
    exact ⟨_, _, run_set_of_mem (by omega) pad state.isTrue⟩
  | update states =>
    have hlength : states.length = 16 :=
      Decidable.byContradiction fun hne => h _ (.update states hne)
    exact ⟨_, _, run_update hlength pad⟩
  | reset => exact ⟨_, _, rfl⟩
  | isPressed key => exact ⟨_, _, rfl⟩
  | firstPressed => exact ⟨_, _, rfl⟩
  | snapshot => exact ⟨_, _, rfl⟩

/-! ## A history of requests -/

/-- **A key is as it was given last**, or as it was if it was given nothing. -/
theorem get_afterAll (pad : Keypad) (calls : List Command) (k : Fin 16) :
    (pad.afterAll calls).down.get k = (latest? k calls).getD (pad.down.get k) :=
  Action.see_afterEach (P := fun _ => True) (fun pad => pad.down.get k) (fun _ _ _ h => h)
    (fun c _ pad _ => get_after pad c k) trivial

theorem get_create (k : Fin 16) : create.down.get k = false :=
  Vector.getElem_replicate k.isLt

/-- A key that is pressed among others has been pressed last. -/
theorem latest?_presses (k : Fin 16) (keys : List Int) :
    latest? k (keys.map .press) = if (k.val : Int) ∈ keys then some true else none := by
  induction keys with
  | nil => rfl
  | cons key keys ih =>
    rw [List.map_cons, latest?, Action.findSome?_reverse_cons, ← latest?, ih, Command.given?]
    -- what was pressed later decides, and the first press only where nothing was
    by_cases hrest : (k.val : Int) ∈ keys
    · simp [hrest]
    · by_cases hkey : key = k.val
      · simp [hrest, hkey]
      · simp [hrest, hkey, Ne.symm hkey]

/-- **Presses commute, and a key can be pressed again.** -/
theorem afterAll_presses {keys keys' : List Int} (h : ∀ key, key ∈ keys ↔ key ∈ keys')
    (pad : Keypad) : pad.afterAll (keys.map .press) = pad.afterAll (keys'.map .press) := by
  refine ext_get fun k => ?_
  rw [get_afterAll, get_afterAll, latest?_presses, latest?_presses]
  simp only [h]

/-- A new keypad has no key down, so a key is down if it was put down last. -/
theorem mem_pressed_afterAll (k : Fin 16) (calls : List Command) :
    k ∈ (create.afterAll calls).pressed ↔ latest? k calls = some true := by
  show (create.afterAll calls).down.get k = true ↔ _
  rw [get_afterAll, get_create]
  cases latest? k calls <;> simp

/-! ## Looking at the keys -/

/-- A number asks for the key of its residue by sixteen, be the number negative or large. -/
theorem isPressed_of_emod {j : Int} (h : j % 16 = k.val) : pad.isPressed j = pad.down.get k := by
  have hkey : lowNibble j = k := Fin.ext (by simp only [lowNibble, h, Int.toNat_natCast])
  rw [isPressed, hkey]

/-- **The key that is found is the least of the set.** -/
theorem firstPressed_eq_some_iff_isLeast : pad.firstPressed = some k ↔ IsLeast pad.pressed k := by
  rw [firstPressed_eq_some_iff]
  -- that no key below is down says that every key down is above, and the other way around
  constructor
  · rintro ⟨hdown, hbelow⟩
    refine ⟨hdown, fun j hj => Fin.not_lt.mp fun hlt => ?_⟩
    have hup := hbelow j hlt
    rw [show pad.down.get j = true from hj] at hup
    cases hup
  · rintro ⟨hdown, hleast⟩
    refine ⟨hdown, fun j hj => ?_⟩
    have hnot : ¬ pad.down.get j = true := fun hpressed =>
      absurd (hleast hpressed) (Fin.not_le.mpr hj)
    simpa using hnot

theorem firstPressed_eq_none_iff_empty : pad.firstPressed = none ↔ pad.pressed = ∅ := by
  rw [firstPressed_eq_none_iff, Set.eq_empty_iff_forall_notMem]
  simp [pressed]

theorem run_firstPressed_of_some (h : pad.firstPressed = some k) :
    Command.firstPressed.run pad = .ok (.number k.val) pad := by
  simp only [Command.run, Action.answer, h]

theorem run_firstPressed_of_none (h : pad.firstPressed = none) :
    Command.firstPressed.run pad = .ok .nothing pad := by
  simp only [Command.run, Action.answer, h]

/-- The reply is a number exactly if that is the least key down. -/
theorem run_firstPressed_iff_isLeast :
    Command.firstPressed.run pad = .ok (.number k.val) pad ↔ IsLeast pad.pressed k := by
  rw [← firstPressed_eq_some_iff_isLeast]
  refine ⟨fun hrun => ?_, run_firstPressed_of_some⟩
  -- a reply without a number is none, and a number tells the key apart from the others
  cases hfirst : pad.firstPressed with
  | none =>
    rw [run_firstPressed_of_none hfirst] at hrun
    cases hrun
  | some key =>
    rw [run_firstPressed_of_some hfirst] at hrun
    injection hrun with hreply
    injection hreply with hnumber
    rw [Fin.ext (Int.ofNat.inj hnumber)]

theorem run_firstPressed_iff_empty :
    Command.firstPressed.run pad = .ok .nothing pad ↔ pad.pressed = ∅ := by
  rw [← firstPressed_eq_none_iff_empty]
  refine ⟨fun hrun => ?_, run_firstPressed_of_none⟩
  cases hfirst : pad.firstPressed with
  | none => rfl
  | some key =>
    rw [run_firstPressed_of_some hfirst] at hrun
    cases hrun

end ChipEight.Keypad
