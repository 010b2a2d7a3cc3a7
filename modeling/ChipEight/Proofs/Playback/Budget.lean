import ChipEight.Proofs.Machine.Atomicity
import ChipEight.Proofs.Playback.Course

/-!
# Larger budgets

What a playback is allowed is read in two places: before a frame, and for the number of its steps.
With larger limits a frame may get more steps, but then it was the limit on all steps that cut it
short. So up to a fault the frames are the same, and in the frame of the fault the steps beyond it
are not reached with either limit.

* **`Progress.advance_of_stopped`** — once stopped, always stopped: more steps change nothing.
* **`budget_eq_or_used_up`** — a frame gets the same steps, or uses up the smaller limit.
* **`play_widened`** — the frames of two playbacks in lockstep, up to the error.
* **`fault_outlasts_budget`** — a playback that a fault ended has the same outcome with larger
  limits, on the same random bytes. **`chance_changes_report`** is why these must be the same.
-/

namespace ChipEight

namespace Progress

variable {p : Progress}

/-- Steps may be taken in two parts, since an error in the first stops the second before it
begins. -/
theorem advance_add (p : Progress) (n k : Nat) : p.advance (n + k) = (p.advance n).advance k := by
  induction n generalizing p with
  | zero => rw [Nat.zero_add, advance]
  | succ n ih =>
    cases herror : p.error with
    | none => rw [Nat.add_right_comm, advance_succ herror, advance_succ herror, ih]
    | some e => rw [advance_of_error herror, advance_of_error herror, advance_of_error herror]

/-- Where an error has stopped the steps, more of them would not have been taken. -/
theorem advance_of_stopped {n : Nat} {e : Error} (h : (p.advance n).error = some e) {larger : Nat}
    (hle : n ≤ larger) : p.advance larger = p.advance n := by
  obtain ⟨k, rfl⟩ := Nat.exists_eq_add_of_le hle
  rw [advance_add, advance_of_error h]

/-- A completed step is counted, on any machine. -/
theorem cycles_step (h : p.step.error = none) : p.step.machine.cycles = p.machine.cycles + 1 := by
  obtain ⟨m, ran, notices, error⟩ := p
  unfold step Machine.step at h ⊢
  cases hcycle : Machine.performCycle m.cycle m with
  | ok a m' => simp only [hcycle]
  | error e m' => simp only [hcycle] at h; cases h

/-- As many steps as were taken are counted, if none of them failed. -/
theorem cycles_advance {n : Nat} (h : (p.advance n).error = none) :
    (p.advance n).machine.cycles = p.machine.cycles + n := by
  induction n generalizing p with
  | zero => rfl
  | succ n ih =>
    -- no error has stopped the steps, so the first one was taken and so were the others
    cases herror : p.error with
    | some e =>
      rw [advance_of_error herror, herror] at h
      cases h
    | none =>
      rw [advance_succ herror] at h ⊢
      cases hstep : p.step.error with
      | some e =>
        rw [advance_of_error hstep, hstep] at h
        cases h
      | none =>
        rw [ih h, cycles_step hstep]
        omega

end Progress

namespace Playback

open Machine (powerOnWith)

/-- The same playback, with limits that are at least as large. -/
structure Options.Widened (small large : Options) : Prop where
  frames : small.frames ≤ large.frames
  maxSteps : small.maxSteps ≤ large.maxSteps
  stepsPerFrame : large.stepsPerFrame = small.stepsPerFrame
  keys : large.keys = small.keys
  seed : large.seed = small.seed
  includeDisplay : large.includeDisplay = small.includeDisplay

variable {small large : Options} {s : Session}

namespace Session

theorem budget_le (h : small.Widened large) (cycles : Nat) :
    budget small cycles ≤ budget large cycles := by
  have hmax := h.maxSteps
  unfold budget
  rw [h.stepsPerFrame]
  omega

/-- A frame gets as many steps with larger limits, or it uses up the smaller one. -/
theorem budget_eq_or_used_up (h : small.Widened large) {cycles : Nat}
    (hleft : (cycles : Int) < small.maxSteps) :
    budget large cycles = budget small cycles ∨
      ((cycles + budget small cycles : Nat) : Int) = small.maxSteps := by
  have hmax := h.maxSteps
  unfold budget
  rw [h.stepsPerFrame]
  omega

/-- A frame without an error has taken all the steps that it was given. -/
theorem cycles_frame {options : Options} (h : (s.frame options).progress.error = none) :
    (s.frame options).machine.cycles = s.machine.cycles + budget options s.machine.cycles := by
  rw [error_frame] at h
  rw [frame_of_clear h]
  exact Progress.cycles_advance h

/-- Limits are seen by a frame through its steps alone. -/
theorem frame_congr (h : s.progress.advance (budget large s.machine.cycles) =
    s.progress.advance (budget small s.machine.cycles)) : s.frame large = s.frame small := by
  simp only [frame, h]

/-- **Playbacks in lockstep.** Induction on the frames of the smaller one. A frame that leaves it to
go on had all its steps with both limits: had it been cut short, there would be no frame with a
fault after it. -/
theorem play_widened (h : small.Widened large) {n larger : Nat} (hn : n ≤ larger)
    (hclear : s.progress.error = none) {e : Error}
    (hstopped : (play small n s).progress.error = some e) :
    play large larger s = play small n s := by
  induction n generalizing s larger with
  | zero =>
    rw [play, hclear] at hstopped
    cases hstopped
  | succ n ih =>
    obtain ⟨larger, rfl⟩ : ∃ k, larger = k + 1 := ⟨larger - 1, by omega⟩
    by_cases hleft : (s.machine.cycles : Int) < small.maxSteps
    case neg =>
      rw [play_of_not_lt hleft, hclear] at hstopped
      cases hstopped
    have hlarge : (s.machine.cycles : Int) < large.maxSteps := Int.lt_of_lt_of_le hleft h.maxSteps
    cases hframe : (s.frame small).progress.error with
    | some e' =>
      -- the steps that a larger limit adds come after the error
      have hstop : (s.progress.advance (budget small s.machine.cycles)).error = some e' := by
        rw [← error_frame, hframe]
      have hsame : s.frame large = s.frame small :=
        frame_congr (Progress.advance_of_stopped hstop (budget_le h s.machine.cycles))
      rw [play_of_error hleft hframe, play_of_error hlarge (by rw [hsame, hframe]), hsame]
    | none =>
      rw [play_of_clear hleft hframe] at hstopped ⊢
      rcases budget_eq_or_used_up h hleft with hbudget | hused
      · have hsame : s.frame large = s.frame small := frame_congr (by rw [hbudget])
        rw [play_of_clear hlarge (by rw [hsame, hframe]), hsame]
        exact ih (by omega) hframe hstopped
      · -- no steps are left, so nothing can fail any more
        have hlast : ¬ ((s.frame small).machine.cycles : Int) < small.maxSteps := by
          rw [cycles_frame hframe]
          omega
        rw [play_of_not_lt hlast, hframe] at hstopped
        cases hstopped

/-- What is reported about a session depends on none of the limits. -/
theorem outcome_widened (h : small.Widened large) (s : Session) :
    s.outcome large = s.outcome small := by
  simp only [outcome, reportOf, h.includeDisplay]

/-- A report has the status of an error only where an error stopped the session. -/
theorem error_of_status {options : Options} {report : Report}
    (hreport : (s.outcome options).report = .ok report) (hstatus : report.status = "error") :
    ∃ e, s.progress.error = some e := by
  cases herror : s.progress.error with
  | some e => exact ⟨e, rfl⟩
  | none =>
    rw [report_of_clear herror] at hreport
    cases hreport
    have hok : (reportOf options s none).status = "ok" := rfl
    rw [hok] at hstatus
    exact absurd hstatus (by decide)

end Session

/-- The same from the pressing of the keys on. Where a key is refused, that is the outcome with any
limits. -/
theorem playLoaded_widened (h : small.Widened large) {m : Machine} {told : Array Notice}
    {report : Report} (hreport : (playLoaded small m told).report = .ok report)
    (hstatus : report.status = "error") : playLoaded large m told = playLoaded small m told := by
  have hframes := h.frames
  unfold playLoaded at hreport ⊢
  rw [h.keys]
  -- the keys are pressed before any limit is looked at
  cases hkeys : pressAll m.keypad small.keys with
  | error misuse => rfl
  | ok keypad =>
    simp only [hkeys] at hreport ⊢
    obtain ⟨e, hstopped⟩ := Session.error_of_status hreport hstatus
    rw [Session.play_widened h (Int.toNat_le_toNat hframes) rfl hstopped,
      Session.outcome_widened h]

/-- **A larger budget never hides, moves or changes a fault**, with the same random bytes. Where a
playback ends with an error, be it a fault or the refusal of its program, a playback that differs
from it by larger limits only has the same outcome: the same report, and the same notices to the
host. With a seed this is so whatever chance has in store for either of them; without one, chance
must leave both sources of random bytes in the same state. -/
theorem fault_outlasts_budget (image : List UInt8) (h : small.Widened large) :
    (∀ random report, (runWith random image small).report = .ok report →
      report.status = "error" → runWith random image large = runWith random image small) ∧
    (∀ chance report, (run chance image small).report = .ok report →
      report.status = "error" → run chance image large = run chance image small) ∧
    ∀ seed, small.seed = some seed → ∀ chance chance' report,
      (run chance image small).report = .ok report →
      report.status = "error" → run chance' image large = run chance image small := by
  have hall : ∀ random report, (runWith random image small).report = .ok report →
      report.status = "error" → runWith random image large = runWith random image small := by
    intro random report hreport hstatus
    unfold runWith at hreport ⊢
    cases hload : (Machine.powerOn random).loadProgram image with
    | error fault => rfl
    | ok m =>
      simp only [hload] at hreport ⊢
      exact playLoaded_widened h hreport hstatus
  have hsame : ∀ chance report, (run chance image small).report = .ok report →
      report.status = "error" → run chance image large = run chance image small := by
    intro chance report hreport hstatus
    rw [run_eq_runWith] at hreport
    rw [run_eq_runWith, run_eq_runWith, h.seed]
    exact hall _ report hreport hstatus
  refine ⟨hall, hsame, fun seed hseed chance chance' report hreport hstatus => ?_⟩
  -- a seed leaves nothing to chance
  have hchance : run chance' image large = run chance image large := by
    rw [run_eq_runWith, run_eq_runWith, h.seed, hseed]
    rfl
  rw [hchance]
  exact hsame chance report hreport hstatus

/-- As many frames and steps as are played without being asked for. -/
def unhurried : Options :=
  { threeFrames with frames := 60, maxSteps := 100000 }

/-- Held to three frames or not, the program stops in the third, with the same report. -/
theorem fault_outlasts_budget_heldKeyProgram :
    threeFrames.Widened unhurried ∧ ∃ report,
      (run (Random.ofSeed 0) heldKeyProgram threeFrames).report = .ok report ∧
      report.status = "error" ∧ report.steps = 2 ∧
      run (Random.ofSeed 0) heldKeyProgram unhurried =
        run (Random.ofSeed 0) heldKeyProgram threeFrames := by
  have hwidened : threeFrames.Widened unhurried := ⟨by decide, by decide, rfl, rfl, rfl, rfl⟩
  obtain ⟨report, hreport, hstatus, hsteps, -⟩ := exists_report_heldKeyProgram (Random.ofSeed 0)
  exact ⟨hwidened, report, hreport, hstatus, hsteps,
    (fault_outlasts_budget heldKeyProgram hwidened).2.1 _ report hreport hstatus⟩

/-! ## What chance decides

Without a seed two playbacks may begin with different random bytes. Then the larger budget is not
what tells them apart, but they are apart all the same.
-/

/-- Draws a random byte into register 0, and returns with nothing to return to. -/
def drawProgram : List UInt8 :=
  [0xC0, 0xFF, 0x00, 0xEE]

/-- Two frames and some more, of one step each and without a seed. -/
def unseeded (more : Nat) : Options :=
  { frames := more + 2, stepsPerFrame := 1, maxSteps := 2 }

/-- A source of random bytes with two words that are not 0, as one that nobody has seeded might
be. -/
def sparse (word : UInt32) : Random.Twister where
  words := ((Vector.replicate 624 0).setIfInBounds 623 0x80000000).setIfInBounds 396 word
  next := Fin.last 623

theorem performs_drawProgram (random : Random.Twister) :
    (powerOnWith random drawProgram).Performs (.random Processor.offset 0xFF) :=
  Machine.performs_of_program (k := 0) Memory.wellFormed_create rfl rfl rfl rfl (by decide)
    rfl rfl rfl

def byteDrawn (random : Random.Twister) : Machine :=
  ((powerOnWith random drawProgram).afterInstruction (.random Processor.offset 0xFF)).tick

theorem fault?_byteDrawn (random : Random.Twister) :
    (byteDrawn random).fault? =
      some { cause := .stackUnderflow, step := 2, address := 0x202, opcode := some 0x00EE } := by
  have hhigh : drawProgram[2]? = some 0x00 := rfl
  have hlow : drawProgram[2 + 1]? = some 0xEE := rfl
  have hop : (byteDrawn random).fetch = .ok ⟨0x00EE⟩ :=
    Machine.fetch_of_program Memory.wellFormed_create rfl rfl rfl (by decide) hhigh hlow
  rw [Machine.fault?_of_fetch rfl hop rfl]
  rfl

/-- The second frame fails in its step, and register 0 is reported with the byte that was drawn. -/
theorem exists_report_drawProgram (random : Random.Twister) (more : Nat) :
    ∃ report, (runWith random drawProgram (unseeded more)).report = .ok report ∧
      report.status = "error" ∧ report.final.v.head? = some ((Random.byte random).1 &&& 0xFF) := by
  have hfit : drawProgram.length ≤ Memory.programLimit := by decide
  have hkeys : ∀ k ∈ (unseeded more).keys, 0 ≤ k ∧ k < 16 := by simp [unseeded]
  have hwell : (powerOnWith random drawProgram).WellFormed :=
    Machine.wellFormed_powerOnWith random hfit
  have hwell' : (byteDrawn random).WellFormed :=
    Machine.kept_wellFormed.tick (by decide) _
      (hwell.afterInstruction (performs_drawProgram random) rfl)
  obtain ⟨notices, hrun⟩ := runWith_of_fit random hfit hkeys
  have hframes : (unseeded more).frames.toNat = more + 2 := by
    simp only [unseeded]
    omega
  obtain ⟨keypad, hpress, hprepared⟩ := prepared_eq random hfit hkeys
  obtain rfl : (powerOnWith random drawProgram).keypad = keypad := Except.ok.inj hpress
  rw [hprepared, hframes] at hrun
  have hstart : Session.At (powerOnWith random drawProgram) 0
      ⟨⟨powerOnWith random drawProgram, 0, notices, none⟩, 0⟩ :=
    ⟨rfl, rfl, rfl⟩
  have hleft : ((powerOnWith random drawProgram).cycles : Int) < (unseeded more).maxSteps := by
    show (0 : Int) < 2
    decide
  have hleft' : ((byteDrawn random).cycles : Int) < (unseeded more).maxSteps := by
    show (1 : Int) < 2
    decide
  -- the first frame draws its byte, and the second one meets the return
  obtain ⟨s', hdrawn, hplay⟩ := hstart.play_of_step rfl hleft
    (Machine.step_of_performs hwell (performs_drawProgram random) rfl) (more + 1)
  have hreport := hdrawn.report_of_fault rfl hleft'
    (Machine.step_of_fault hwell' (fault?_byteDrawn random)) more
  rw [← hplay] at hreport
  exact ⟨_, hrun ▸ hreport, rfl, rfl⟩

/-- With more frames, but with other random bytes too, the report about the same fault is another
one. -/
theorem chance_changes_report :
    (unseeded 0).Widened (unseeded 1) ∧ ∃ report report',
      (run (sparse 0x40000000) drawProgram (unseeded 0)).report = .ok report ∧
      report.status = "error" ∧ report.final.v.head? = some 0 ∧
      (run (sparse 0) drawProgram (unseeded 1)).report = .ok report' ∧
      report'.status = "error" ∧ report'.final.v.head? = some 136 ∧ report' ≠ report := by
  have hbyte : (Random.byte (sparse 0x40000000)).1 &&& 0xFF = 0 := by decide +kernel
  have hbyte' : (Random.byte (sparse 0)).1 &&& 0xFF = 136 := by decide +kernel
  -- the reports differ in register 0, which is what is left of the two bytes
  obtain ⟨report, hreport, hstatus, hv⟩ := exists_report_drawProgram (sparse 0x40000000) 0
  obtain ⟨report', hreport', hstatus', hv'⟩ := exists_report_drawProgram (sparse 0) 1
  rw [hbyte] at hv
  rw [hbyte'] at hv'
  refine ⟨⟨by decide, by decide, rfl, rfl, rfl, rfl⟩, report, report', hreport, hstatus, hv,
    hreport', hstatus', hv', ?_⟩
  rintro rfl
  rw [hv] at hv'
  exact absurd hv' (by decide)

end Playback

end ChipEight
