import ChipEight.Proofs.Machine.Course
import ChipEight.Proofs.Machine.Footprint

/-!
# Redrawing

A host shows the screen anew only where the dirty flag tells it to. For that to be safe, whatever
changes a pixel has to set the flag, and for it to be worth while, nothing else may.

* **`Paints`** — the events that paint: an instruction that clears the screen or draws a sprite and
  completes, and the host's own clearing and drawing.
* **`Screen.Flagged`** — a screen has its flag set, or is the one it was. **`flagged_after`** says
  of every event which of the two it is, and **`flagged_afterAll`** of a history. A drawing that
  fails has not painted.
* **`no_lost_redraw`** — so between two looks at the flag a host has missed nothing.
-/

namespace ChipEight

/-- A sprite that is drawn sets the flag, be it without a lit cell. -/
theorem Screen.dirty_of_draw {s s' : Screen} {x y : Int} {sprite : Sprite} {collided : Bool}
    (h : s.draw x y sprite = .ok (collided, s')) : s'.dirty = true := by
  unfold Screen.draw at h
  split at h
  · cases h
  · cases h
    rfl

/-- A screen is the one it was, or its flag says that something was painted. -/
def Screen.Flagged (painted : Prop) (s s' : Screen) : Prop :=
  painted ∧ s'.dirty = true ∨ ¬ painted ∧ s' = s

/-- What has set the flag at first is not undone: the rest sets it again or leaves it. -/
theorem Screen.Flagged.trans {first later : Prop} {s₁ s₂ s₃ : Screen} (h : Flagged first s₁ s₂)
    (h' : Flagged later s₂ s₃) : Flagged (first ∨ later) s₁ s₃ := by
  rcases h' with ⟨hlater, hdirty⟩ | ⟨hnone, rfl⟩
  · exact Or.inl ⟨Or.inr hlater, hdirty⟩
  · rcases h with ⟨hfirst, hdirty⟩ | ⟨hnot, hsame⟩
    · exact Or.inl ⟨Or.inl hfirst, hdirty⟩
    · exact Or.inr ⟨fun h => h.elim hnot hnone, hsame⟩

/-- The two instructions that paint. -/
inductive Instruction.Paints : Instruction → Prop
  | clearScreen : Paints .clearScreen
  | draw (x y rows : Fin 16) : Paints (.draw x y rows)

namespace Machine

variable {m m' : Machine} {e : Event} {events : List Event}

/-! ## Instructions that paint -/

/-- Where an instruction that paints fails, it has not painted. -/
theorem screen_of_error {i : Instruction} (hi : i.Paints) {err : Error}
    (h : execute i m = .error err m') : m'.screen = m.screen := by
  -- clearing cannot fail; a drawing fails in reading its sprite or on a screen of no size
  cases hi with
  | clearScreen => cases h
  | draw x y rows =>
    simp only [execute, drawAtIndex] at h
    split at h
    · cases h
      rfl
    · split at h
      · cases h
        rfl
      · cases h

/-- Where an instruction that paints completes, the flag is set. -/
theorem dirty_of_execute {i : Instruction} (hi : i.Paints) {flow : Flow}
    (h : execute i m = .ok flow m') : m'.screen.dirty = true := by
  cases hi with
  | clearScreen =>
    cases h
    rfl
  -- of the three ways out of a drawing only the last one completes
  | draw x y rows =>
    simp only [execute, drawAtIndex] at h
    split at h
    · cases h
    · split at h
      · cases h
      · cases h
        exact Screen.dirty_of_draw ‹_›

/-- Every other instruction leaves the screen alone. Of the parts' operations only two touch it, and
each belongs to an instruction that paints. -/
theorem keptBy_of_not_paints {i : Instruction} (hi : ¬ i.Paints) (s : Screen) :
    KeptBy i fun m => m.screen = s where
  processor _ _ h := h
  random _ _ h := h
  store _ _ _ _ h _ := h
  clear hclear := absurd (hclear ▸ .clearScreen) hi
  draw x y rows hdraw := absurd (hdraw ▸ .draw x y rows) hi

/-- The converse of `cycle_of_performs`: the cycle of an instruction is found only where no register
waits and its word has been fetched. -/
theorem performs_of_cycle {op : Opcode} {i : Instruction} (h : m.cycle = .perform op i) :
    m.Performs i := by
  -- an instruction is found on one path only: awake, fetched and decoded
  unfold cycle at h
  split at h
  · split at h <;> cases h
  · split at h
    · cases h
    · split at h
      · cases h
        exact performs_of_decode? ‹_› ‹_› ‹_›
      · cases h

/-- What a step does with an instruction, on any machine: it follows the instruction and counts
itself, or gives the error its context. `step_of_performs` says more, but of well-formed machines
only. -/
theorem step_of_cycle {op : Opcode} {i : Instruction} (hc : m.cycle = .perform op i) :
    m.step = match execute i m with
      | .ok flow m' => .ok ()
        { m'.mapProcessor fun p => { p with pc := flow.target m.processor.pc }
          with cycles := m.cycles + 1 }
      | .error err m' =>
        .error (err.inStep (m.cycles + 1) m.processor.pc (some op.word)) m' := by
  unfold step
  simp only [hc, performCycle, follow]
  cases execute i m <;> rfl

/-! ## Events that paint -/

/-- The event paints: a step completes an instruction that paints, or the host clears the screen or
draws a sprite and is not refused. -/
inductive Paints (m : Machine) : Event → Prop
  | step (i : Instruction) (m' : Machine) (hpaints : i.Paints) (hi : m.Performs i)
      (hstep : m.step = .ok () m') : Paints m .oneStep
  | clear : Paints m (.command (.screen .clear))
  | draw (x y : Int) (sprite : Sprite) (collided : Bool) (s : Screen)
      (hdraw : m.screen.draw x y sprite = .ok (collided, s)) :
      Paints m (.command (.screen (.draw x y sprite)))

theorem Paints.kind (h : Paints m e) : e.kind = .step ∨ e.kind = .screen := by
  cases h with
  | step => exact Or.inl rfl
  | clear => exact Or.inr rfl
  | draw => exact Or.inr rfl

/-- A step paints exactly if it completes one of the two instructions. This holds of machines that
are not well-formed too, so it goes by `execute` and not by `effect`. -/
theorem flagged_after_step (m : Machine) :
    Screen.Flagged (Paints m .oneStep) m.screen (step.after m).screen := by
  by_cases hpaints : ∃ op i, m.cycle = .perform op i ∧ i.Paints
  · obtain ⟨op, i, hc, hi⟩ := hpaints
    have hstep := step_of_cycle hc
    cases hx : execute i m with
    | ok flow m' =>
      rw [hx] at hstep
      have hdirty : m'.screen.dirty = true := dirty_of_execute hi hx
      refine Or.inl ⟨.step i _ hi (performs_of_cycle hc) hstep, ?_⟩
      rw [Action.after_of_ok hstep]
      exact hdirty
    | error err m' =>
      -- the instruction would have painted, but it failed before it did
      rw [hx] at hstep
      refine Or.inr ⟨?_, ?_⟩
      · rintro ⟨i', m'', -, -, hok⟩
        cases hstep.symm.trans hok
      · rw [Action.after_of_error hstep]
        exact screen_of_error hi hx
  · refine Or.inr ⟨?_, ?_⟩
    · rintro ⟨i, m', hi, hperforms, -⟩
      obtain ⟨op, -, hc⟩ := cycle_of_performs hperforms
      exact hpaints ⟨op, i, hc, hi⟩
    · exact KeptBy.after_step (P := fun m' => m'.screen = m.screen) (fun _ _ h => h)
        (fun _ _ h => h)
        (fun op i hc => keptBy_of_not_paints (fun hi => hpaints ⟨op, i, hc, hi⟩) m.screen) rfl

theorem kept_screen (s : Screen) :
    Kept [.memory, .tick, .seed, .keypad] fun m => m.screen = s where
  load hkind := absurd hkind (by decide)
  reset hkind := absurd hkind (by decide)
  step hkind := absurd hkind (by decide)
  tick _ _ h := h
  seed _ _ _ h := h
  execute hkind := absurd hkind (by decide)
  processor hkind := absurd hkind (by decide)
  memory _ _ _ h := h
  screen hkind := absurd hkind (by decide)
  keypad _ _ _ h := h

/-- The host's own commands to the screen: those that draw set the flag, those that look do nothing.
The two excepted would lower it. -/
theorem flagged_after_command (m : Machine) {c : Screen.Command} (hflag : c ≠ .clearDirty)
    (hreset : c ≠ .reset) :
    Screen.Flagged (Paints m (.command (.screen c))) m.screen
      ((Event.command (.screen c)).after m).screen := by
  have hafter : ((Event.command (.screen c)).after m).screen = c.run.after m.screen := by
    simp only [Event.after, Command.run, machine_ofAction, Action.after_within]
  rw [hafter]
  -- five of the seven commands are left, of which two paint
  cases c with
  | clear => exact Or.inl ⟨.clear, rfl⟩
  | reset => exact absurd rfl hreset
  | clearDirty => exact absurd rfl hflag
  | draw x y sprite =>
    show Screen.Flagged _ _ ((Screen.drawing x y sprite).after m.screen)
    unfold Action.after Screen.drawing
    cases hd : m.screen.draw x y sprite with
    | ok drawn => exact Or.inl ⟨.draw x y sprite drawn.1 drawn.2 hd, Screen.dirty_of_draw hd⟩
    | error misuse =>
      refine Or.inr ⟨?_, rfl⟩
      intro hpaints
      cases hpaints with
      | draw _ _ _ _ _ hdraw => cases hd.symm.trans hdraw
  | pixel x y => exact Or.inr ⟨(by rintro ⟨⟩), Action.after_reading _ _⟩
  | rows on off => exact Or.inr ⟨(by rintro ⟨⟩), rfl⟩
  | snapshot => exact Or.inr ⟨(by rintro ⟨⟩), rfl⟩

/-- The event neither lowers the flag nor starts the screen anew. -/
def Event.KeepsFlag (e : Event) : Prop :=
  e ≠ .command (.screen .clearDirty) ∧ e ≠ .command (.screen .reset)

/-- **An event that paints sets the flag, and one that does not leaves the screen alone.** -/
theorem flagged_after (m : Machine) (hkind : e.kind ∈ Event.Kind.running) (hsingle : e.Single)
    (hflag : e.KeepsFlag) : Screen.Flagged (Paints m e) m.screen (e.after m).screen := by
  -- what has nothing to do with the screen is settled at once
  by_cases hother : e.kind ∈ [.memory, .tick, .seed, .keypad]
  · refine Or.inr ⟨?_, (kept_screen m.screen).event rfl e hother⟩
    intro hpaints
    rcases hpaints.kind with hstep | hscreen
    · rw [hstep] at hother
      exact absurd hother (by decide)
    · rw [hscreen] at hother
      exact absurd hother (by decide)
  · cases e with
    | chance random => simp [Event.kind] at hother
    | command c =>
      -- of the commands left one is the step and the others are the screen's
      cases c with
      | step count =>
        obtain rfl : count = 1 := by
          have hone := hsingle rfl
          cases hone
          rfl
        rw [after_oneStep]
        exact flagged_after_step m
      | screen c =>
        exact flagged_after_command m (fun h => hflag.1 (h ▸ rfl)) (fun h => hflag.2 (h ▸ rfl))
      | _ => simp [Event.kind, Event.kindOfCommand, Event.Kind.running, Event.Kind.peripheral] at *

/-! ## Between two looks at the flag -/

/-- An event of a history paints. -/
def Painted (m : Machine) (events : List Event) : Prop :=
  ∃ before e after, events = before ++ e :: after ∧ Paints (m.afterAll before) e

theorem not_painted_nil : ¬ m.Painted [] := by
  rintro ⟨before, e, after, hsplit, -⟩
  simp at hsplit

theorem painted_cons : m.Painted (e :: events) ↔ Paints m e ∨ (e.after m).Painted events := by
  constructor
  · rintro ⟨before, e', after, hsplit, hpaints⟩
    cases before with
    | nil =>
      obtain ⟨rfl, -⟩ := List.cons_eq_cons.mp hsplit
      exact Or.inl hpaints
    | cons first before =>
      obtain ⟨rfl, hrest⟩ := List.cons_eq_cons.mp hsplit
      exact Or.inr ⟨before, e', after, hrest, hpaints⟩
  · rintro (hpaints | ⟨before, e', after, hsplit, hpaints⟩)
    · exact ⟨[], e, events, rfl, hpaints⟩
    · exact ⟨e :: before, e', after, congrArg (e :: ·) hsplit, hpaints⟩

/-- **A history that paints ends with the flag set, and one that does not leaves the screen
alone.** -/
theorem flagged_afterAll (m : Machine) (hkinds : ∀ e ∈ events, e.kind ∈ Event.Kind.running)
    (hsingle : ∀ e ∈ events, e.Single) (hflag : ∀ e ∈ events, e.KeepsFlag) :
    Screen.Flagged (m.Painted events) m.screen (m.afterAll events).screen := by
  induction events generalizing m with
  | nil => exact Or.inr ⟨not_painted_nil, rfl⟩
  | cons e events ih =>
    obtain ⟨hkind, hkinds⟩ := List.forall_mem_cons.mp hkinds
    obtain ⟨hone, hsingle⟩ := List.forall_mem_cons.mp hsingle
    obtain ⟨hkeeps, hflag⟩ := List.forall_mem_cons.mp hflag
    -- what the first event has set, the later ones do not lower
    have hfirst := flagged_after m hkind hone hkeeps
    have hlater := ih (e.after m) hkinds hsingle hflag
    rw [painted_cons]
    exact hfirst.trans hlater

/-- **No redraw is lost, and none is asked for in vain.** A host lowers the flag of any machine.
Then, as long as it does not lower it again and nothing is loaded or reset: if the flag is still
down, no pixel has changed; and the flag is up exactly if an instruction or the host has cleared the
screen or drawn a sprite, be it one without a lit cell. -/
theorem no_lost_redraw (m : Machine) (hkinds : ∀ e ∈ events, e.kind ∈ Event.Kind.running)
    (hsingle : ∀ e ∈ events, e.Single) (hflag : ∀ e ∈ events, e.KeepsFlag) :
    let seen := (Event.command (.screen .clearDirty)).after m
    ((seen.afterAll events).screen.dirty = false →
      (seen.afterAll events).screen.pixels = seen.screen.pixels) ∧
    ((seen.afterAll events).screen.dirty = true ↔
      ∃ before e after, events = before ++ e :: after ∧ Paints (seen.afterAll before) e) := by
  intro seen
  have hlowered : seen.screen.dirty = false := rfl
  obtain ⟨hpainted, hdirty⟩ | ⟨hnone, hsame⟩ := flagged_afterAll seen hkinds hsingle hflag
  · rw [hdirty]
    exact ⟨nofun, fun _ => hpainted, fun _ => rfl⟩
  · rw [hsame, hlowered]
    exact ⟨fun _ => rfl, nofun, fun h => absurd h hnone⟩

/-- A machine whose program begins by drawing the first digit of the font. -/
def drawingDigit : Machine :=
  powerOnWith (Random.ofSeed 0) [0xD0, 0x15]

/-- The machine when the host has lowered the flag, and a tick has passed. -/
def aboutToDraw : Machine :=
  ((Event.command (.screen .clearDirty)).after drawingDigit).tick

theorem performs_aboutToDraw : aboutToDraw.Performs (.draw 0 1 5) :=
  performs_of_program (k := 0) Memory.wellFormed_create rfl rfl rfl rfl (by decide) rfl rfl rfl

/-- The tick asks for no redraw; the step does. -/
theorem no_lost_redraw_drawingDigit :
    let seen := (Event.command (.screen .clearDirty)).after drawingDigit
    let events := [Event.oneTick, .oneStep]
    (∀ e ∈ events, e.kind ∈ Event.Kind.running) ∧ (∀ e ∈ events, e.Single) ∧
      (∀ e ∈ events, e.KeepsFlag) ∧
      Paints (seen.afterAll [.oneTick]) .oneStep ∧ (seen.afterAll events).screen.dirty = true := by
  have hkinds : ∀ e ∈ [Event.oneTick, .oneStep], e.kind ∈ Event.Kind.running := by decide
  have hsingle : ∀ e ∈ [Event.oneTick, .oneStep], e.Single := by
    simp only [List.forall_mem_cons]
    exact ⟨nofun, fun _ => rfl, nofun⟩
  have hflag : ∀ e ∈ [Event.oneTick, .oneStep], e.KeepsFlag := by
    simp only [List.forall_mem_cons]
    exact ⟨⟨nofun, nofun⟩, ⟨nofun, nofun⟩, nofun⟩
  have hwell : aboutToDraw.WellFormed := by
    have hloaded : drawingDigit.WellFormed := wellFormed_powerOnWith _ (by decide)
    have hlowered := kept_wellFormed.event hloaded (.command (.screen .clearDirty)) (by decide)
    exact kept_wellFormed.tick (by decide) _ hlowered
  -- the step draws five rows from the font, which lie in memory
  have hpaints : Paints aboutToDraw .oneStep :=
    .step _ _ (.draw 0 1 5) performs_aboutToDraw
      (step_of_performs hwell performs_aboutToDraw (outOfReach_of_inRange (by decide)))
  have hlaw := no_lost_redraw drawingDigit hkinds hsingle hflag
  exact ⟨hkinds, hsingle, hflag, hpaints, hlaw.2.mpr ⟨[.oneTick], .oneStep, [], rfl, hpaints⟩⟩

end Machine

end ChipEight
