import ChipEight.Proofs.Playback.Course

/-!
# Keys of a playback

A playback presses its keys before its first frame and never looks at the list of them again, so
only the set of them matters.

* **`Session.play_keys`** — the frames do not depend on the list.
* **`playLoaded_same_keys`** — keys of the same set are pressed to the same keypad, and played
  alike.
* **`keypad_refines_key_set`** — a keypad is its set of keys, and a playback does not see more of
  it.
-/

namespace ChipEight.Playback

variable {options : Options} {keys : List Int}

theorem Session.frame_keys (options : Options) (keys : List Int) (s : Session) :
    s.frame { options with keys } = s.frame options :=
  rfl

theorem Session.outcome_keys (options : Options) (keys : List Int) (s : Session) :
    s.outcome { options with keys } = s.outcome options :=
  rfl

/-- Once the keys are pressed, the frames do not depend on the list. -/
theorem Session.play_keys (options : Options) (keys : List Int) (n : Nat) (s : Session) :
    play { options with keys } n s = play options n s := by
  -- each frame is the same, and so is whether another one follows
  induction n generalizing s with
  | zero => rfl
  | succ n ih => simp only [play, frame_keys, ih]

/-- Keys of one set leave one keypad, and from there on the playbacks are the same. -/
theorem playLoaded_same_keys (hkeys : ∀ k ∈ options.keys, 0 ≤ k ∧ k < 16)
    (hsame : ∀ k, k ∈ keys ↔ k ∈ options.keys) (m : Machine) (told : Array Notice) :
    playLoaded { options with keys } m told = playLoaded options m told := by
  have hkeys' : ∀ k ∈ keys, 0 ≤ k ∧ k < 16 := fun k hk => hkeys k ((hsame k).mp hk)
  simp only [playLoaded, pressAll_eq _ hkeys, pressAll_eq _ hkeys', Keypad.afterAll_presses hsame,
    Session.play_keys, Session.outcome_keys]

/-- A program that is refused is refused before any key is pressed. -/
theorem runWith_same_keys (hkeys : ∀ k ∈ options.keys, 0 ≤ k ∧ k < 16)
    (hsame : ∀ k, k ∈ keys ↔ k ∈ options.keys) (random : Random.Twister) (image : List UInt8) :
    runWith random image { options with keys } = runWith random image options := by
  unfold runWith
  cases (Machine.powerOn random).loadProgram image with
  | error fault => rfl
  | ok m => exact playLoaded_same_keys hkeys hsame m _

/-- **A keypad is the set of its pressed keys.** A request that names a key that does not exist, or
gives another number of states than sixteen, is refused and changes no key; every other one is
carried out. After any history of requests, a key is down exactly if the latest accepted request
that said something of it put it down. A host that asks for any number is told of the key of its low
four bits, and one that asks for the first key of the least one that is down, if one is. So
playbacks that press the same keys, in whatever order and however often, have the same outcome. -/
theorem keypad_refines_key_set :
    (∀ (c : Keypad.Command) (pad : Keypad),
      (∀ misuse, c.Refused misuse → c.run pad = .error (.misuse misuse) pad) ∧
      ((∀ misuse, ¬ c.Refused misuse) → ∃ reply pad', c.run pad = .ok reply pad')) ∧
    (∀ calls pad, pad = Keypad.create.afterAll calls →
      (∀ k, k ∈ pad.pressed ↔ Keypad.latest? k calls = some true) ∧
      (∀ (j : Int) (k : Fin 16), j % 16 = k.val → ∃ isDown,
        (Keypad.Command.isPressed j).run pad = .ok (.truth isDown) pad ∧
        (isDown = true ↔ k ∈ pad.pressed)) ∧
      (∀ k, Keypad.Command.firstPressed.run pad = .ok (.number k.val) pad ↔ IsLeast pad.pressed k) ∧
      (Keypad.Command.firstPressed.run pad = .ok .nothing pad ↔ pad.pressed = ∅)) ∧
    ∀ (image : List UInt8) (options : Options) (keys : List Int),
      (∀ k ∈ options.keys, 0 ≤ k ∧ k < 16) → (∀ k, k ∈ keys ↔ k ∈ options.keys) →
      (∀ random, runWith random image { options with keys } = runWith random image options) ∧
      ∀ chance, run chance image { options with keys } = run chance image options := by
  refine ⟨fun c pad => ⟨fun misuse h => Keypad.run_of_refused h pad, Keypad.run_of_not_refused pad⟩,
    ?keypad, fun image options keys hkeys hsame => ?playback⟩
  case keypad =>
    rintro calls pad rfl
    refine ⟨fun k => ?_, fun j k hj => ⟨_, rfl, ?_⟩, fun k => ?_, ?_⟩
    · exact Keypad.mem_pressed_afterAll k calls
    · -- the number asks for the key of its low four bits, which is `k`
      rw [Keypad.isPressed_of_emod hj]
      rfl
    · exact Keypad.run_firstPressed_iff_isLeast
    · exact Keypad.run_firstPressed_iff_empty
  case playback =>
    refine ⟨fun random => runWith_same_keys hkeys hsame random image, fun chance => ?_⟩
    rw [run_eq_runWith, run_eq_runWith]
    exact runWith_same_keys hkeys hsame _ image

/-- Key 3 is put down and up again, key 7 is put down. One request is refused, and one has no
states. -/
def mixedRequests : List Keypad.Command :=
  [.press 3, .set 7 (.integer 5), .press 16, .release 3, .update []]

/-- Key 7 is the only one that is left down, and a host may ask for it as −9. -/
theorem keypad_refines_key_set_mixed :
    Keypad.Command.Refused (.press 16) (.keyOutOfRange 16) ∧
      (Keypad.Command.press 16).run Keypad.create =
        .error (.misuse (.keyOutOfRange 16)) Keypad.create ∧
      (∃ reply pad', (Keypad.Command.press 15).run Keypad.create = .ok reply pad') ∧
      (∀ k : Fin 16, k.val = 7 →
        k ∈ (Keypad.create.afterAll mixedRequests).pressed ∧
        IsLeast (Keypad.create.afterAll mixedRequests).pressed k ∧
        (Keypad.Command.isPressed (-9)).run (Keypad.create.afterAll mixedRequests) =
          .ok (.truth true) (Keypad.create.afterAll mixedRequests)) ∧
      (∀ k ∈ ([7, 2, 7] : List Int), 0 ≤ k ∧ k < 16) ∧
      (∀ k : Int, k ∈ ([2, 7] : List Int) ↔ k ∈ ([7, 2, 7] : List Int)) ∧
      ∀ chance,
        run chance [0x12, 0x00] { keys := [2, 7] } =
          run chance [0x12, 0x00] { keys := [7, 2, 7] } := by
  obtain ⟨hone, hmany, hplayed⟩ := keypad_refines_key_set
  have hrefused : Keypad.Command.Refused (.press 16) (.keyOutOfRange 16) := .press 16 (by decide)
  have haccepted : ∀ misuse, ¬ Keypad.Command.Refused (.press 15) misuse := by
    rintro _ ⟨⟩
    omega
  have hexist : ∀ k ∈ ([7, 2, 7] : List Int), 0 ≤ k ∧ k < 16 := by decide
  have hsame : ∀ k : Int, k ∈ ([2, 7] : List Int) ↔ k ∈ ([7, 2, 7] : List Int) := fun k => by
    simp only [List.mem_cons, List.not_mem_nil, or_false]
    omega
  -- key 3 was released, 16 was refused and the empty update too
  obtain ⟨hdown, hpressed, hfirst, -⟩ := hmany mixedRequests _ rfl
  refine ⟨hrefused, (hone _ _).1 _ hrefused, (hone _ _).2 haccepted, ?_, hexist, hsame,
    (hplayed [0x12, 0x00] { keys := [7, 2, 7] } [2, 7] hexist hsame).2⟩
  rintro ⟨_, hk⟩ rfl
  have hseven := (hdown ⟨7, hk⟩).mpr rfl
  obtain ⟨isDown, hrun, hiff⟩ := hpressed (-9) ⟨7, hk⟩ rfl
  obtain rfl : isDown = true := hiff.mpr hseven
  exact ⟨hseven, (hfirst ⟨7, hk⟩).mp rfl, hrun⟩

end ChipEight.Playback
