import ChipEight.Proofs.Machine.Atomicity
import ChipEight.Proofs.Playback.Course
import ChipEight.Proofs.Playback.Schedule

/-!
# The account of a playback

A playback follows its schedule to the end, or until a step fails. The invariant of both loops is
`Progress.Follows`: the machine is where the events so far lead it, each of their steps completed.

* **`Progress.Follows.advance`** — the steps of a frame are all taken, or stop at a fault.
* **`Session.Follows.frame`** — so a frame is completed with its tick, or stops without one.
* **`Session.Follows.play`** — and a playback follows the schedule to its end, or stops in one of
  its frames.
* **`exists_session`** — so does that of every program that fits.
* **`run_accounts`** — what is reported, in both cases.
-/

namespace ChipEight

/-- The next step of a machine completes. -/
def Machine.Completes (m : Machine) : Prop :=
  ∃ m', m.step = .ok () m'

open Machine (Event stepCount tickCount Completes)

variable {loaded : Machine} {events : List Event}

/-! ## The steps of a frame -/

/-- A machine on its way is where some events lead it, each step among which completed. -/
structure Progress.Follows (loaded : Machine) (events : List Event) (p : Progress) : Prop where
  machine : p.machine = loaded.afterAll events
  completes : loaded.AtSteps Completes events
  cycles : p.machine.cycles = stepCount events
  wellFormed : p.machine.WellFormed

/-- What stopped a machine is the fault that its next step meets. -/
def Progress.Stopped (p : Progress) : Prop :=
  ∃ fault, p.error = some (.fault fault) ∧ p.machine.fault? = some fault

namespace Progress.Follows

variable {p : Progress}

/-- One step more has completed, and the machine is well-formed still. -/
theorem step (h : p.Follows loaded events) (hclear : p.machine.fault? = none) :
    p.step.Follows loaded (events ++ [.oneStep]) ∧ p.step.error = none := by
  -- a machine that meets no fault completes its step
  have hstep : p.machine.step = .ok () p.machine.completed :=
    Machine.step_of_clear h.wellFormed hclear
  obtain ⟨hmachine, hnone⟩ := Progress.step_of_ok hstep
  refine ⟨⟨?machine, ?completes, ?cycles, ?wellFormed⟩, hnone⟩
  case machine =>
    rw [hmachine, Machine.afterAll_append, ← h.machine, Machine.afterAll_cons,
      Machine.after_oneStep, Action.after_of_ok hstep, Machine.afterAll_nil]
  case completes =>
    rw [Machine.atSteps_append, Machine.atSteps_cons, ← h.machine]
    exact ⟨h.completes, fun _ => ⟨_, hstep⟩, Machine.atSteps_nil⟩
  case cycles =>
    rw [hmachine, Machine.stepCount_append, ← h.cycles]
    rfl
  case wellFormed =>
    rw [hmachine]
    exact h.wellFormed.completed hclear

/-- A tick completes nothing and fails at nothing, so only the machine and the events go on. -/
theorem tick (h : p.Follows loaded events) : p.tick.Follows loaded (events ++ [.oneTick]) where
  machine := by
    rw [Machine.afterAll_append, ← h.machine, Machine.afterAll_cons, Machine.after_oneTick]
    rfl
  completes := by
    rw [Machine.atSteps_append, Machine.atSteps_cons]
    exact ⟨h.completes, by rintro ⟨⟩, Machine.atSteps_nil⟩
  cycles := by
    rw [Machine.stepCount_append, ← h.cycles]
    rfl
  wellFormed := ⟨h.wellFormed.processor.tick, h.wellFormed.memory, h.wellFormed.screen⟩

/-- **A number of steps is taken, or stops at the first fault.** Induction on the number. -/
theorem advance (h : p.Follows loaded events) (herror : p.error = none) (n : Nat) :
    (p.advance n).Follows loaded (events ++ List.replicate n .oneStep) ∧
        (p.advance n).error = none ∨
      ∃ k, k < n ∧ (p.advance n).Follows loaded (events ++ List.replicate k .oneStep) ∧
        (p.advance n).Stopped := by
  induction n generalizing p events with
  | zero =>
    left
    rw [List.replicate_zero, List.append_nil]
    exact ⟨h, herror⟩
  | succ n ih =>
    rw [Progress.advance_succ herror]
    cases hfault : p.machine.fault? with
    | none =>
      -- one step is taken, and the others follow it
      obtain ⟨hnext, hclear⟩ := h.step hfault
      have happend : ∀ k, events ++ [Event.oneStep] ++ List.replicate k .oneStep =
          events ++ List.replicate (k + 1) .oneStep := fun k => by
        rw [List.append_assoc, List.replicate_succ, List.singleton_append]
      rcases ih hnext hclear with hall | ⟨k, hk, hsome, hstopped⟩
      · left
        rwa [happend] at hall
      · right
        rw [happend] at hsome
        exact ⟨k + 1, by omega, hsome, hstopped⟩
    | some fault =>
      -- no step is taken, and the machine stays where it was
      have hstep : p.machine.step = .error (.fault fault) p.machine :=
        Machine.step_of_fault h.wellFormed hfault
      obtain ⟨hmachine, hstop⟩ := Progress.step_of_error hstep
      right
      refine ⟨0, by omega, ?_⟩
      rw [Progress.advance_of_error hstop, List.replicate_zero, List.append_nil]
      refine ⟨⟨?_, h.completes, ?_, ?_⟩, fault, hstop, ?_⟩ <;> rw [hmachine]
      · exact h.machine
      · exact h.cycles
      · exact h.wellFormed
      · exact hfault

end Progress.Follows

namespace Playback

variable {options : Options} {s : Session} {k : Nat}

/-! ## Frame after frame -/

/-- A playback has its machine follow some events, and has completed a frame for each tick. -/
structure Session.Follows (loaded : Machine) (events : List Event) (s : Session) : Prop where
  progress : s.progress.Follows loaded events
  frames : s.frames = tickCount events

namespace Session.Follows

/-- Between frames the machine has counted the steps that are due by then, and no others. -/
theorem cycles (h : s.Follows loaded (schedule options k)) :
    s.machine.cycles = stepsBy options k := by
  rw [← stepCount_schedule]
  exact h.progress.cycles

/-- **A frame is completed, or stops at the first fault**, and then it does not tick. -/
theorem frame (h : s.Follows loaded (schedule options k)) (herror : s.progress.error = none)
    (hk : k < frameCount options) :
    (s.frame options).Follows loaded (schedule options (k + 1)) ∧
        (s.frame options).progress.error = none ∨
      ∃ i, i < stepsBy options (k + 1) - stepsBy options k ∧
        (s.frame options).Follows loaded (schedule options k ++ List.replicate i .oneStep) ∧
        (s.frame options).progress.Stopped := by
  -- the steps of the frame are those that are due by its end and were not before
  have hbudget : budget options s.machine.cycles =
      stepsBy options (k + 1) - stepsBy options k := by
    rw [h.cycles]
    exact budget_eq (lt_frameCount_iff.mp hk).2
  rcases h.progress.advance herror (budget options s.machine.cycles) with
    ⟨hall, hclear⟩ | ⟨i, hi, hsome, fault, hfault, hmeets⟩
  · left
    rw [frame_of_clear hclear]
    refine ⟨⟨?_, ?_⟩, hclear⟩
    · rw [schedule, frameEvents, ← List.append_assoc, ← hbudget]
      exact hall.tick
    · rw [h.frames, tickCount_schedule, tickCount_schedule]
  · right
    rw [frame_of_error hfault]
    refine ⟨i, hbudget ▸ hi, ⟨hsome, ?_⟩, fault, hfault, hmeets⟩
    rw [Machine.tickCount_append, Machine.tickCount_replicate]
    exact h.frames

/-- **A playback follows its schedule to the end, or stops in one of its frames.** Induction on the
frames that may still be asked for: where these have run out or no steps are left, the frames of the
schedule have run out. -/
theorem play {n : Nat} (hn : k + n = options.frames.toNat) (hk : k ≤ frameCount options)
    (h : s.Follows loaded (schedule options k)) (herror : s.progress.error = none) :
    (Session.play options n s).Follows loaded (schedule options (frameCount options)) ∧
        (Session.play options n s).progress.error = none ∨
      ∃ j i, j < frameCount options ∧ i < stepsBy options (j + 1) - stepsBy options j ∧
        (Session.play options n s).Follows loaded
          (schedule options j ++ List.replicate i .oneStep) ∧
        (Session.play options n s).progress.Stopped := by
  induction n generalizing k s with
  | zero =>
    -- no frame may be asked for any more, and there are no more frames than may be asked for
    have hlast : k = frameCount options := by
      have hcount := frameCount_le options
      omega
    rw [hlast] at h
    exact Or.inl ⟨h, herror⟩
  | succ n ih =>
    by_cases hleft : (s.machine.cycles : Int) < options.maxSteps
    · have hnext : k < frameCount options :=
        lt_frameCount_iff.mpr ⟨by omega, by rwa [h.cycles] at hleft⟩
      rcases h.frame herror hnext with
        ⟨hfollows, hclear⟩ | ⟨i, hi, hfollows, fault, hfault, hmeets⟩
      · rw [play_of_clear hleft hclear]
        exact ih (by omega) hnext hfollows hclear
      · rw [play_of_error hleft hfault]
        exact Or.inr ⟨k, i, hnext, hi, hfollows, fault, hfault, hmeets⟩
    · -- the steps have run out, and with them the frames
      rw [play_of_not_lt hleft]
      rw [h.cycles] at hleft
      have hlast : k = frameCount options := by
        have hend : ¬ k < frameCount options := fun hlt => hleft (lt_frameCount_iff.mp hlt).2
        omega
      rw [hlast] at h
      exact Or.inl ⟨h, herror⟩

end Session.Follows

/-! ## What is reported -/

/-- A report gives an account of a playback that had its machine follow some events: completed steps
and ticks, as many as reported, each tick right after the steps that are due by the end of its
frame, and the machine in the end is the one reported. -/
structure Report.Accounts (options : Options) (loaded : Machine) (events : List Event)
    (report : Report) : Prop where
  only : ∀ e ∈ events, e = .oneStep ∨ e = .oneTick
  completes : loaded.AtSteps Completes events
  steps : report.steps = stepCount events
  frames : report.frames = tickCount events
  ticks : ∀ j < report.frames, ∃ before after, events = before ++ .oneTick :: after ∧
    tickCount before = j ∧
    (stepCount before : Int) = min ((j + 1) * max options.stepsPerFrame 0) options.maxSteps
  final : report.final = Summary.ofMachine (loaded.afterAll events)
  display : report.display =
    if options.includeDisplay then (loaded.afterAll events).screen.picture else []
  soundActive : report.soundActive = (loaded.afterAll events).soundActive

/-- A report about a playback that came to its end. -/
structure Report.Completed (options : Options) (report : Report) : Prop where
  status : report.status = "ok"
  error : report.error? = none
  steps : (report.steps : Int) =
    min (max options.frames 0 * max options.stepsPerFrame 0) (max options.maxSteps 0)
  frames : (report.frames : Int) =
    if options.maxSteps ≤ 0 then 0
    else if options.stepsPerFrame ≤ 0 then max options.frames 0
    else min (max options.frames 0) (-(-options.maxSteps / options.stepsPerFrame))

/-- A report about a playback that stopped, on a machine whose next step fails with a fault. -/
structure Report.StoppedBy (options : Options) (m : Machine) (fault : Fault) (report : Report) :
    Prop where
  step : m.step = .error (.fault fault) m
  status : report.status = "error"
  error : report.error? = some fault.report
  steps : (report.steps : Int) < min (options.frames * options.stepsPerFrame) options.maxSteps
  frames : (report.frames : Int) = report.steps / options.stepsPerFrame
  number : fault.report.step = report.steps + 1
  address : fault.report.address = report.final.pc

namespace Session.Follows

/-- Wherever in a frame the playback has ended, the report gives an account of the events up to
there. -/
theorem accounts {i : Nat} (h : s.Follows loaded events)
    (hevents : events = schedule options k ++ List.replicate i .oneStep)
    (hk : k ≤ frameCount options) (fault : Option Fault) :
    (reportOf options s fault).Accounts options loaded events where
  only e he := by
    rw [hevents] at he
    rcases List.mem_append.mp he with hframe | hstep
    · exact eq_of_mem_schedule hframe
    · exact Or.inl (List.eq_of_mem_replicate hstep)
  completes := h.progress.completes
  steps := h.progress.cycles
  frames := h.frames
  ticks j hj := by
    have hframes : s.frames = k := by
      rw [h.frames, hevents, tickCount_within]
    have hjk : j < k := hframes ▸ hj
    obtain ⟨before, after, hsplit, hticks, hsteps⟩ := exists_tick (List.replicate i .oneStep) hjk
    refine ⟨before, after, hevents.trans hsplit, hticks, ?_⟩
    -- as a frame began before this tick, there are steps at all
    have hleft := (lt_frameCount_iff.mp (Nat.lt_of_lt_of_le hjk hk)).2
    have hdue : (0 : Int) ≤ (j + 1 : Nat) * max options.stepsPerFrame 0 :=
      Int.mul_nonneg (by omega) (by omega)
    have hnext : ((j + 1 : Nat) : Int) = j + 1 := by omega
    rw [hsteps, stepsBy]
    rw [hnext] at hdue ⊢
    omega
  final := by rw [← h.progress.machine]; rfl
  display := by rw [← h.progress.machine]; rfl
  soundActive := by rw [← h.progress.machine]; rfl

/-- Where the schedule came to its end, steps and frames are as many as its formulas say. -/
theorem completed (h : s.Follows loaded (schedule options (frameCount options))) :
    (reportOf options s none).Completed options where
  status := rfl
  error := rfl
  steps := by
    show (s.machine.cycles : Int) = _
    rw [h.cycles, stepsBy_frameCount]
  frames := by
    show (s.frames : Int) = _
    rw [h.frames, tickCount_schedule, frameCount_eq]

/-- Where a step failed, the frame it is in is not full, so the full frames are the steps divided by
those of a frame. -/
theorem stoppedBy {i : Nat} (hk : k < frameCount options)
    (hi : i < stepsBy options (k + 1) - stepsBy options k)
    (h : s.Follows loaded (schedule options k ++ List.replicate i .oneStep)) {fault : Fault}
    (hfault : s.machine.fault? = some fault) :
    (reportOf options s (some fault)).StoppedBy options s.machine fault := by
  have hcycles : s.machine.cycles = stepsBy options k + i := by
    rw [← stepCount_within]
    exact h.progress.cycles
  have hframes : s.frames = k := by
    rw [h.frames, tickCount_within]
  -- the fault is found short of the end of its frame, which gives both inequalities
  obtain ⟨hsteps, hfull⟩ := within_frame hk hi
  obtain ⟨hnumber, haddress, -⟩ := Machine.context_of_fault? h.progress.wellFormed.memory hfault
  refine ⟨Machine.step_of_fault h.progress.wellFormed hfault, rfl, rfl, ?steps, ?frames, ?number,
    haddress⟩
  case steps =>
    show (s.machine.cycles : Int) < _
    rwa [hcycles]
  case frames =>
    show (s.frames : Int) = (s.machine.cycles : Int) / _
    rwa [hcycles, hframes]
  case number =>
    show (fault.step : Int) = (s.machine.cycles : Int) + 1
    rw [hnumber]
    rfl

end Session.Follows

/-- A program that fits is played from the prepared machine on, which follows the schedule. -/
theorem exists_session (random : Random.Twister) {image : List UInt8} (options : Options)
    (hfit : image.length ≤ Memory.programLimit) (hkeys : ∀ k ∈ options.keys, 0 ≤ k ∧ k < 16) :
    ∃ s : Session, runWith random image options = s.outcome options ∧
      (s.Follows (prepared random image options.keys) (schedule options (frameCount options)) ∧
          s.progress.error = none ∨
        ∃ k i, k < frameCount options ∧ i < stepsBy options (k + 1) - stepsBy options k ∧
          s.Follows (prepared random image options.keys)
            (schedule options k ++ List.replicate i .oneStep) ∧
          s.progress.Stopped) := by
  obtain ⟨notices, hrun⟩ := runWith_of_fit random hfit hkeys
  have hstart : Session.Follows (prepared random image options.keys) (schedule options 0)
      ⟨⟨prepared random image options.keys, 0, notices, none⟩, 0⟩ :=
    ⟨⟨rfl, Machine.atSteps_nil, cycles_prepared random hfit hkeys,
      wellFormed_prepared random hfit hkeys⟩, rfl⟩
  exact ⟨_, hrun, hstart.play (Nat.zero_add _) (Nat.zero_le _) rfl⟩

/-- Every program that fits has a report, and the report one of the two forms. -/
theorem exists_accounts (random : Random.Twister) {image : List UInt8} (options : Options)
    (hfit : image.length ≤ Memory.programLimit) (hkeys : ∀ k ∈ options.keys, 0 ≤ k ∧ k < 16) :
    ∃ report events, (runWith random image options).report = .ok report ∧
      report.Accounts options (prepared random image options.keys) events ∧
      (report.Completed options ∨
        ∃ fault, report.StoppedBy options
          ((prepared random image options.keys).afterAll events) fault) := by
  obtain ⟨s, hrun, hend⟩ := exists_session random options hfit hkeys
  rw [hrun]
  -- the two ends of a session are the two forms of a report
  rcases hend with ⟨hfollows, hclear⟩ | ⟨k, i, hk, hi, hfollows, fault, hfault, hmeets⟩
  · have haccounts := hfollows.accounts (i := 0) (List.append_nil _).symm (Nat.le_refl _) none
    exact ⟨_, _, Session.report_of_clear hclear, haccounts, Or.inl hfollows.completed⟩
  · refine ⟨_, _, Session.report_of_fault hfault,
      hfollows.accounts rfl (Nat.le_of_lt hk) (some fault), Or.inr ⟨fault, ?_⟩⟩
    rw [← hfollows.progress.machine]
    exact hfollows.stoppedBy hk hi hmeets

/-- **The account of a playback.** Every program that fits is played, with whatever source of random
bytes, and every limit may be zero or negative. Either no step fails; then steps and frames are as
many as the limits allow. Or a step fails; then the report is about the machine before it, and says
which step it was and where. In both cases the machine did what the schedule says up to there. -/
theorem run_accounts (image : List UInt8) (options : Options) (hfit : image.length ≤ 3584)
    (hkeys : ∀ k ∈ options.keys, 0 ≤ k ∧ k < 16) :
    (∀ chance, run chance image options =
      runWith (Random.seeded chance options.seed) image options) ∧
      ∀ random, ∃ report events,
        (runWith random image options).report = .ok report ∧
        report.Accounts options (prepared random image options.keys) events ∧
        (report.Completed options ∨
          ∃ fault, report.StoppedBy options
            ((prepared random image options.keys).afterAll events) fault) :=
  ⟨fun chance => run_eq_runWith chance image options,
    fun random => exists_accounts random options hfit hkeys⟩

/-- Key 5 is held down for two frames of one step each, and the third one stops in its step: two
steps and two ticks are accounted for, and the fault is that of step 3. -/
theorem run_accounts_heldKeyProgram :
    ∃ report events fault,
      (run (Random.ofSeed 0) heldKeyProgram threeFrames).report = .ok report ∧
      report.Accounts threeFrames (prepared (Random.ofSeed 0) heldKeyProgram [5]) events ∧
      report.StoppedBy threeFrames
        ((prepared (Random.ofSeed 0) heldKeyProgram [5]).afterAll events) fault ∧
      stepCount events = 2 ∧ tickCount events = 2 ∧ fault.report.step = 3 := by
  obtain ⟨hrun, hall⟩ := run_accounts heldKeyProgram threeFrames (by decide) (by decide)
  obtain ⟨report, events, hreport, haccounts, hcases⟩ := hall (Random.ofSeed 0)
  obtain ⟨played, hplayed, hstatus, hsteps, hframes⟩ :=
    exists_report_heldKeyProgram (Random.ofSeed 0)
  obtain rfl : report = played := Except.ok.inj (hreport.symm.trans hplayed)
  -- the status tells that the playback has not come to its end
  obtain ⟨fault, hstopped⟩ := hcases.resolve_left fun hcompleted => by
    rw [hcompleted.status] at hstatus
    exact absurd hstatus (by decide)
  have hnumber := hstopped.number
  rw [hsteps] at hnumber
  exact ⟨report, events, fault, (hrun _).symm ▸ hreport, haccounts, hstopped,
    haccounts.steps ▸ hsteps, haccounts.frames ▸ hframes, hnumber⟩

end Playback

end ChipEight
