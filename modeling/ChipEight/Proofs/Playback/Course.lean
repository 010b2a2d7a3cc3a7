import ChipEight.Playback.Session
import ChipEight.Proofs.Keypad.Pressed
import ChipEight.Proofs.Machine.Footprint

/-!
# The course of a playback

A playback begins with a new machine that a program is loaded into and whose keys are pressed, and
goes on frame by frame.

* **`runWith`** — a playback on a machine with any source of random bytes. What is said about
  playbacks is said for every source; that of `run`, which a seed or chance has decided, is among
  them (`run_eq_runWith`).
* **`prepared`**, **`runWith_of_fit`** — the machine that is played, as the outcome of a host's
  commands, and that a program that fits is played on it.
* **`frame_of_clear`**, **`frame_of_error`** — a frame whose steps are all taken, and one that is
  stopped.
* **`Session.At`** — where a session with frames of one step is. **`At.play_of_step`** and
  **`At.report_of_fault`** take it on by a frame, and **`exists_report_heldKeyProgram`** is a
  program that is followed in this way up to its fault.
-/

namespace ChipEight.Playback

open Machine (Event powerOn powerOnWith)

variable {random : Random.Twister} {image : List UInt8} {options : Options}

/-- Plays a program image on a new machine with a source of random bytes. -/
def runWith (random : Random.Twister) (image : List UInt8) (options : Options) : Outcome :=
  match (powerOn random).loadProgram image with
  | .error fault => ⟨.ok (reportOfRefusal (powerOn random) fault), #[.rejected fault.message]⟩
  | .ok m => playLoaded options m #[.loaded image.length Memory.programStart]

/-- A playback begins with the source of random bytes that its seed gives, or chance without one. -/
theorem run_eq_runWith (chance : Random.Twister) (image : List UInt8) (options : Options) :
    run chance image options = runWith (Random.seeded chance options.seed) image options :=
  rfl

/-! ## The machine that is played -/

def pressing (key : Int) : Event :=
  .command (.keypad (.press key))

/-- A new machine with a program in memory and keys pressed. -/
def prepared (random : Random.Twister) (image : List UInt8) (keys : List Int) : Machine :=
  (powerOn random).afterAll (.command (.loadProgram image) :: keys.map pressing)

/-- Keys that exist are pressed one after the other. -/
theorem pressAll_eq (pad : Keypad) {keys : List Int} (hkeys : ∀ k ∈ keys, 0 ≤ k ∧ k < 16) :
    pressAll pad keys = .ok (pad.afterAll (keys.map .press)) := by
  induction keys generalizing pad with
  | nil => rfl
  | cons key keys ih =>
    obtain ⟨hkey, hlater⟩ := List.forall_mem_cons.mp hkeys
    -- a key that exists is pressed as by a host's request
    have hpress : pad.press key = .ok ((Keypad.Command.press key).run.after pad) := by
      simp only [Keypad.press, Keypad.Command.run, Action.after, Action.checked,
        Keypad.set_of_mem hkey, Error.ofMisuse]
    rw [pressAll, hpress]
    exact ih _ hlater

/-- A key that does not exist is a misuse. -/
theorem keys_of_pressAll {pad pad' : Keypad} {keys : List Int}
    (h : pressAll pad keys = .ok pad') : ∀ k ∈ keys, 0 ≤ k ∧ k < 16 := by
  induction keys generalizing pad with
  | nil => simp
  | cons key keys ih =>
    by_cases hkey : 0 ≤ key ∧ key < 16
    · rw [pressAll, Keypad.press, Keypad.set_of_mem hkey] at h
      exact List.forall_mem_cons.mpr ⟨hkey, ih h⟩
    · rw [pressAll, Keypad.press, Keypad.set_of_not_mem hkey] at h
      cases h

/-- Nothing but the keypad takes notice of keys that are pressed. -/
theorem afterAll_pressing (m : Machine) (keys : List Int) :
    m.afterAll (keys.map pressing) =
      { m with keypad := m.keypad.afterAll (keys.map .press) } := by
  induction keys generalizing m with
  | nil => rfl
  | cons key keys ih =>
    -- the first key changes the keypad, and the rest go on from there
    have hafter : (pressing key).after m =
        { m with keypad := (Keypad.Command.press key).run.after m.keypad } := by
      simp only [pressing, Event.after, Machine.Command.run, Machine.machine_ofAction,
        Action.after_within]
    rw [List.map_cons, Machine.afterAll_cons, hafter, ih]
    rfl

/-- The machine that is played is a new one with the program, but for its keypad. -/
theorem prepared_eq (random : Random.Twister) (hfit : image.length ≤ Memory.programLimit)
    {keys : List Int} (hkeys : ∀ k ∈ keys, 0 ≤ k ∧ k < 16) :
    ∃ keypad, pressAll (powerOnWith random image).keypad keys = .ok keypad ∧
      prepared random image keys = { powerOnWith random image with keypad } := by
  have hload := Machine.loadProgram_of_sized (Machine.wellFormed_powerOn random).sized hfit
  have hloaded : (Event.command (.loadProgram image)).after (powerOn random) =
      powerOnWith random image := by
    simp only [Event.after, Machine.Command.run, Machine.Response.loading, hload]
    rfl
  exact ⟨_, pressAll_eq _ hkeys,
    by rw [prepared, Machine.afterAll_cons, hloaded, afterAll_pressing]⟩

theorem wellFormed_prepared (random : Random.Twister) (hfit : image.length ≤ Memory.programLimit)
    {keys : List Int} (hkeys : ∀ k ∈ keys, 0 ≤ k ∧ k < 16) :
    (prepared random image keys).WellFormed := by
  obtain ⟨keypad, -, heq⟩ := prepared_eq random hfit hkeys
  have h := Machine.wellFormed_powerOnWith random hfit
  rw [heq]
  exact ⟨h.processor, h.memory, h.screen⟩

theorem cycles_prepared (random : Random.Twister) (hfit : image.length ≤ Memory.programLimit)
    {keys : List Int} (hkeys : ∀ k ∈ keys, 0 ≤ k ∧ k < 16) :
    (prepared random image keys).cycles = 0 := by
  obtain ⟨keypad, -, heq⟩ := prepared_eq random hfit hkeys
  rw [heq]
  rfl

/-- **A program that fits is played on the prepared machine**, from the first frame on. -/
theorem runWith_of_fit (random : Random.Twister) (hfit : image.length ≤ Memory.programLimit)
    (hkeys : ∀ k ∈ options.keys, 0 ≤ k ∧ k < 16) :
    ∃ notices, runWith random image options =
      (Session.play options options.frames.toNat
        ⟨⟨prepared random image options.keys, 0, notices, none⟩, 0⟩).outcome options := by
  have hload := Machine.loadProgram_of_sized (Machine.wellFormed_powerOn random).sized hfit
  obtain ⟨keypad, hpress, heq⟩ := prepared_eq random hfit hkeys
  refine ⟨#[.loaded image.length Memory.programStart], ?_⟩
  rw [heq]
  simp only [runWith, hload]
  show playLoaded options (powerOnWith random image) _ = _
  simp only [playLoaded, hpress, Progress.start]

/-! ## Frame after frame -/

namespace Session

variable {s : Session}

/-- A frame whose steps are all taken ticks and is counted. -/
theorem frame_of_clear (h : (s.progress.advance (budget options s.machine.cycles)).error = none) :
    s.frame options =
      ⟨(s.progress.advance (budget options s.machine.cycles)).tick, s.frames + 1⟩ := by
  simp only [frame, h]

/-- A frame that an error stops neither ticks nor is counted. -/
theorem frame_of_error {e : Error}
    (h : (s.progress.advance (budget options s.machine.cycles)).error = some e) :
    s.frame options =
      { s with progress := s.progress.advance (budget options s.machine.cycles) } := by
  simp only [frame, h]

/-- A frame stops where its steps stop: the tick has no errors of its own. -/
theorem error_frame (options : Options) (s : Session) :
    (s.frame options).progress.error =
      (s.progress.advance (budget options s.machine.cycles)).error := by
  cases h : (s.progress.advance (budget options s.machine.cycles)).error with
  | none => rw [frame_of_clear h]; exact h
  | some e => rw [frame_of_error h]; exact h

/-- After a frame without an error the next one is tried. -/
theorem play_of_clear (hleft : s.machine.cycles < options.maxSteps)
    (h : (s.frame options).progress.error = none) (n : Nat) :
    play options (n + 1) s = play options n (s.frame options) := by
  simp only [play, if_pos hleft, h]

/-- An error ends the playback, however many frames were left. -/
theorem play_of_error (hleft : s.machine.cycles < options.maxSteps) {e : Error}
    (h : (s.frame options).progress.error = some e) (n : Nat) :
    play options (n + 1) s = s.frame options := by
  simp only [play, if_pos hleft, h]

/-- Where the steps are used up no frame is begun. -/
theorem play_of_not_lt (h : ¬ s.machine.cycles < options.maxSteps) (n : Nat) :
    play options n s = s := by
  cases n with
  | zero => rfl
  | succ n => rw [play, if_neg h]

theorem report_of_clear (h : s.progress.error = none) :
    (s.outcome options).report = .ok (reportOf options s none) := by
  simp only [outcome, h]

theorem report_of_fault {fault : Fault} (h : s.progress.error = some (.fault fault)) :
    (s.outcome options).report = .ok (reportOf options s (some fault)) := by
  simp only [outcome, h]

/-! ## Frames of a single step -/

/-- A session is under way on a machine, with some frames completed. -/
structure At (m : Machine) (frames : Nat) (s : Session) : Prop where
  machine : s.machine = m
  frames : s.frames = frames
  clear : s.progress.error = none

namespace At

variable {m m' : Machine} {frames : Nat}

/-- Where frames are of one step, a frame is that step, before anything else happens. -/
theorem advance_budget (h : s.At m frames) (hsingle : options.stepsPerFrame = 1)
    (hleft : m.cycles < options.maxSteps) :
    s.progress.advance (budget options s.machine.cycles) = s.progress.step := by
  have hbudget : budget options m.cycles = 1 := by
    unfold budget
    omega
  rw [h.machine, hbudget, Progress.advance_succ h.clear, Progress.advance]

/-- A frame whose one step is completed ticks, and the playback goes on after it. -/
theorem play_of_step (h : s.At m frames) (hsingle : options.stepsPerFrame = 1)
    (hleft : m.cycles < options.maxSteps) (hstep : m.step = .ok () m') (n : Nat) :
    ∃ s' : Session, s'.At m'.tick (frames + 1) ∧ play options (n + 1) s = play options n s' := by
  have hadvance := h.advance_budget hsingle hleft
  obtain ⟨hmachine, hnone⟩ := Progress.step_of_ok (h.machine.symm ▸ hstep)
  have hframe := frame_of_clear (s := s) (by rw [hadvance, hnone])
  rw [hadvance] at hframe
  have hclear : (s.frame options).progress.error = none := by
    rw [hframe]
    exact hnone
  refine ⟨s.frame options, ?_, play_of_clear (h.machine.symm ▸ hleft) hclear n⟩
  rw [hframe]
  exact ⟨congrArg Machine.tick hmachine, congrArg (· + 1) h.frames, hnone⟩

/-- A frame whose one step fails is not completed, and the playback ends in it. -/
theorem report_of_fault (h : s.At m frames) (hsingle : options.stepsPerFrame = 1)
    (hleft : m.cycles < options.maxSteps) {fault : Fault}
    (hstep : m.step = .error (.fault fault) m') (n : Nat) :
    ((play options (n + 1) s).outcome options).report =
      .ok (reportOf options ⟨.start m', frames⟩ (some fault)) := by
  have hadvance := h.advance_budget hsingle hleft
  obtain ⟨hmachine, hsome⟩ := Progress.step_of_error (h.machine.symm ▸ hstep)
  have hframe := frame_of_error (s := s) (by rw [hadvance, hsome])
  rw [hadvance] at hframe
  have hstop : (s.frame options).progress.error = some (.fault fault) := by
    rw [hframe]
    exact hsome
  rw [play_of_error (h.machine.symm ▸ hleft) hstop, Session.report_of_fault hstop, hframe]
  simp only [reportOf, Session.machine, Progress.start, hmachine, h.frames]

end At

end Session

/-! ## A program that is stopped in its third frame -/

/-- Names key 5, steps over the jump at 0x204 if that key is down, and returns with nothing to
return to. -/
def heldKeyProgram : List UInt8 :=
  [0x60, 0x05, 0xE0, 0x9E, 0x12, 0x04, 0x00, 0xEE]

/-- Three frames of one step each, with key 5 held down. -/
def threeFrames : Options :=
  { frames := 3, stepsPerFrame := 1, maxSteps := 3, keys := [5] }

def keyHeld (random : Random.Twister) : Machine :=
  { powerOnWith random heldKeyProgram with keypad := Keypad.create.afterAll [.press 5] }

def keyNamed (random : Random.Twister) : Machine :=
  ((keyHeld random).afterInstruction (.load Processor.offset 5)).tick

def jumpSkipped (random : Random.Twister) : Machine :=
  ((keyNamed random).afterInstruction (.skipIf (.keyDown Processor.offset))).tick

theorem length_heldKeyProgram : heldKeyProgram.length ≤ Memory.programLimit := by
  decide

theorem keys_threeFrames : ∀ k ∈ threeFrames.keys, 0 ≤ k ∧ k < 16 := by
  decide

theorem prepared_heldKeyProgram (random : Random.Twister) :
    prepared random heldKeyProgram threeFrames.keys = keyHeld random := by
  obtain ⟨keypad, hpress, heq⟩ := prepared_eq random length_heldKeyProgram keys_threeFrames
  rw [pressAll_eq _ keys_threeFrames] at hpress
  cases hpress
  exact heq

theorem performs_keyHeld (random : Random.Twister) :
    (keyHeld random).Performs (.load Processor.offset 5) :=
  Machine.performs_of_program (k := 0) Memory.wellFormed_create rfl rfl rfl rfl (by decide)
    rfl rfl rfl

theorem performs_keyNamed (random : Random.Twister) :
    (keyNamed random).Performs (.skipIf (.keyDown Processor.offset)) :=
  Machine.performs_of_program (k := 2) Memory.wellFormed_create rfl rfl rfl rfl (by decide)
    rfl rfl rfl

/-- The return is met in the third step, at the address after the jump. -/
theorem fault?_jumpSkipped (random : Random.Twister) :
    (jumpSkipped random).fault? =
      some { cause := .stackUnderflow, step := 3, address := 0x206, opcode := some 0x00EE } := by
  have hhigh : heldKeyProgram[6]? = some 0x00 := rfl
  have hlow : heldKeyProgram[6 + 1]? = some 0xEE := rfl
  have hop : (jumpSkipped random).fetch = .ok ⟨0x00EE⟩ :=
    Machine.fetch_of_program Memory.wellFormed_create rfl rfl rfl (by decide) hhigh hlow
  rw [Machine.fault?_of_fetch rfl hop rfl]
  rfl

/-- The key is found down, so the jump is stepped over, and the third frame fails in its step. -/
theorem exists_report_heldKeyProgram (random : Random.Twister) :
    ∃ report, (runWith random heldKeyProgram threeFrames).report = .ok report ∧
      report.status = "error" ∧ report.steps = 2 ∧ report.frames = 2 := by
  have hwell : (keyHeld random).WellFormed :=
    prepared_heldKeyProgram random ▸
      wellFormed_prepared random length_heldKeyProgram keys_threeFrames
  have hwell' : (keyNamed random).WellFormed :=
    Machine.kept_wellFormed.tick (by decide) _
      (hwell.afterInstruction (performs_keyHeld random) rfl)
  have hwell'' : (jumpSkipped random).WellFormed :=
    Machine.kept_wellFormed.tick (by decide) _
      (hwell'.afterInstruction (performs_keyNamed random) rfl)
  -- the run is that of a session, which is followed frame by frame
  obtain ⟨notices, hrun⟩ := runWith_of_fit random length_heldKeyProgram keys_threeFrames
  rw [prepared_heldKeyProgram] at hrun
  have hstart : Session.At (keyHeld random) 0 ⟨⟨keyHeld random, 0, notices, none⟩, 0⟩ :=
    ⟨rfl, rfl, rfl⟩
  have hsingle : threeFrames.stepsPerFrame = 1 := rfl
  have hleft : ((keyHeld random).cycles : Int) < threeFrames.maxSteps := by
    show (0 : Int) < 3
    decide
  have hleft' : ((keyNamed random).cycles : Int) < threeFrames.maxSteps := by
    show (1 : Int) < 3
    decide
  have hleft'' : ((jumpSkipped random).cycles : Int) < threeFrames.maxSteps := by
    show (2 : Int) < 3
    decide
  obtain ⟨s', hnamed, hplay⟩ := hstart.play_of_step hsingle hleft
    (Machine.step_of_performs hwell (performs_keyHeld random) rfl) 2
  obtain ⟨s'', hskipped, hplay'⟩ := hnamed.play_of_step hsingle hleft'
    (Machine.step_of_performs hwell' (performs_keyNamed random) rfl) 1
  have hreport := hskipped.report_of_fault hsingle hleft''
    (Machine.step_of_fault hwell'' (fault?_jumpSkipped random)) 0
  rw [← hplay', ← hplay] at hreport
  exact ⟨_, hrun ▸ hreport, rfl, rfl, rfl⟩

end ChipEight.Playback
