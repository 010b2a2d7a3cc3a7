import ChipEight.Proofs.Machine.FaultSet
import ChipEight.Proofs.Machine.Timers

/-!
# Stores

The font stands where addresses begin, and nothing guards it: two instructions store from the index
on, and the index may be any address. So the font is safe from everything but these stores, and a
byte of it that was stored over holds what was stored there last.

* **`Puts`** — the next step completes a store that puts a byte at a place.
* **`byteAt_of_puts`**, **`byteAt_after_step`** — what a step makes of a place.
* **`byteAt_afterAll`** — a history in which nothing is put at a place leaves it alone, and
  **`byteAt_cases`** says what a place holds at the end of any history.
* **`font_until_stored_over`** — both for the font. **`font_stored_over`** is a program that writes
  over it, so the font alone is not what memory begins with in every run.
-/

namespace ChipEight

namespace Machine

variable {m m' : Machine}

/-! ## What an instruction stores -/

/-- The bytes that an instruction stores from the index on: the digits of a register under `FX33`,
and the registers up to one under `FX55`. -/
def storedBy (m : Machine) : Instruction → List UInt8
  | .storeDecimal x => decimalDigits (m.register x)
  | .storeRegisters x => m.processor.registersUpTo x
  | _ => []

/-- All that an instruction can do to memory is to store a block at the index; most store the empty
one. -/
theorem memoryAfter_eq (m : Machine) (i : Instruction) :
    m.memoryAfter i = m.storedAtIndex (m.storedBy i) := by
  cases i <;> rfl

/-- An instruction that meets no obstacle stores inside memory. -/
theorem stored_inside (h : m.WellFormed) {i : Instruction} (hclear : m.obstacle? i = none) {d : Nat}
    (hd : d < (m.storedBy i).length) : m.processor.i + d < 4096 := by
  have hinside : ∀ length, m.outOfReach length = none → m.processor.i + length ≤ 4096 := by
    intro length hreach
    refine Int.not_lt.mp fun hpast => ?_
    cases hreach.symm.trans (outOfReach_of_past_end h hpast)
  -- the block is as long as what was checked, so no byte of it lies past the end
  cases i with
  | storeDecimal x =>
    have hlength : (m.storedBy (.storeDecimal x)).length = 3 := rfl
    have := hinside 3 hclear
    omega
  | storeRegisters x =>
    have hlength : (m.storedBy (.storeRegisters x)).length = x.val + 1 :=
      m.processor.length_registersUpTo x
    have := hinside (x.val + 1) hclear
    omega
  | _ => exact absurd hd (Nat.not_lt_zero d)

/-! ## What a step puts where -/

/-- The next step completes, and stores a byte at a place of memory. -/
def Puts (m : Machine) (k : Nat) (byte : UInt8) : Prop :=
  ∃ i m', m.Performs i ∧ m.step = .ok () m' ∧
    ∃ d : Nat, (k : Int) = m.processor.i + d ∧ (m.storedBy i)[d]? = some byte

/-- The next step completes a store over a place. -/
def StoresOver (m : Machine) (k : Nat) : Prop :=
  ∃ byte, m.Puts k byte

theorem Performs.unique {i j : Instruction} (hi : m.Performs i) (hj : m.Performs j) : i = j := by
  obtain ⟨-, op, hop, hi⟩ := hi
  obtain ⟨-, op', hop', hj⟩ := hj
  obtain rfl := Except.ok.inj (hop.symm.trans hop')
  rw [← Instruction.decode?_eq_some_iff] at hi hj
  exact Option.some.inj (hi.symm.trans hj)

/-- A step that performs an instruction stores over no place but those that the instruction does. -/
theorem not_storesOver_of_performs {i : Instruction} (hi : m.Performs i) {k : Nat}
    (haside : ∀ d < (m.storedBy i).length, (k : Int) ≠ m.processor.i + d) : ¬ m.StoresOver k := by
  rintro ⟨byte, j, m', hj, -, d, hk, hbyte⟩
  obtain rfl := hi.unique hj
  exact haside d (List.getElem?_eq_some_iff.mp hbyte).1 hk

/-- The byte that a step is to put is there after the step. -/
theorem byteAt_of_puts (h : m.WellFormed) {k : Nat} {byte : UInt8} (hputs : m.Puts k byte) :
    (step.after m).memory.byteAt k = byte := by
  obtain ⟨i, m', hi, hstep, d, hk, hbyte⟩ := hputs
  have hclear := clear_of_step h hi hstep
  obtain ⟨hd, -⟩ := List.getElem?_eq_some_iff.mp hbyte
  have hlow := h.processor.index.1
  have hinside := stored_inside h hclear hd
  -- the place is one of the block that the instruction stores
  have hplace : k = m.processor.i.toNat + d := by omega
  have hheld : m.processor.i.toNat + d < m.memory.bytes.size := by
    rw [h.memory.held, Memory.standardSize]
    omega
  rw [Action.after_of_ok (step_of_performs h hi hclear), hplace]
  show (m.memoryAfter i).byteAt (m.processor.i.toNat + d) = byte
  rw [memoryAfter_eq]
  exact Memory.byteAt_store hbyte hheld

/-- A step that completes no store over a place leaves it alone, and so does one that fails. -/
theorem byteAt_after_step (h : m.WellFormed) {k : Nat} (hnot : ¬ m.StoresOver k) :
    (step.after m).memory.byteAt k = m.memory.byteAt k := by
  obtain hsame | ⟨hf, hafter⟩ := after_step h
  · rw [hsame]
  refine Decidable.byContradiction fun hne => hnot ?_
  rw [hafter] at hne
  obtain ⟨i, hi, hne⟩ := exists_performs_of_ne h.memory (fun m => m.memory.byteAt k)
    (fun i => (m.memoryAfter i).byteAt k) (fun _ _ => rfl) (fun _ _ => rfl) (fun _ => rfl) hne
  rw [memoryAfter_eq] at hne
  obtain ⟨hfirst, hlast⟩ := Memory.byteAt_store_ne hne
  -- the place is one of those that were stored to, so it has a byte of its own
  have hd : k - m.processor.i.toNat < (m.storedBy i).length := by omega
  have hlow := h.processor.index.1
  exact ⟨_, i, _, hi, step_of_clear h hf, k - m.processor.i.toNat, by omega,
    List.getElem?_eq_getElem hd⟩

/-! ## What a history leaves at a place -/

theorem kept_memory (memory : Memory) : Kept Event.Kind.peripheral fun m => m.memory = memory where
  load hkind := absurd hkind (by decide)
  reset hkind := absurd hkind (by decide)
  step hkind := absurd hkind (by decide)
  tick _ _ h := h
  seed _ _ _ h := h
  execute hkind := absurd hkind (by decide)
  processor hkind := absurd hkind (by decide)
  memory hkind := absurd hkind (by decide)
  screen _ _ _ h := h
  keypad _ _ _ h := h

/-- **A place that nothing is stored over keeps its byte.** Induction on the history: a step stores
nothing there, and what happens beside the steps has nothing to do with memory. -/
theorem byteAt_afterAll (h : m.WellFormed) {events : List Event}
    (hkinds : ∀ e ∈ events, e.kind ∈ .step :: Event.Kind.peripheral)
    (hsingle : ∀ e ∈ events, e.Single) {k : Nat}
    (hnot : m.AtSteps (fun m => ¬ m.StoresOver k) events) :
    (m.afterAll events).memory.byteAt k = m.memory.byteAt k := by
  induction events generalizing m with
  | nil => rfl
  | cons e events ih =>
    obtain ⟨hkind, hkinds⟩ := List.forall_mem_cons.mp hkinds
    obtain ⟨hone, hsingle⟩ := List.forall_mem_cons.mp hsingle
    obtain ⟨hfirst, hlater⟩ := atSteps_cons.mp hnot
    -- the first event has not changed the place, so it is what the rest begins with
    have hnext : (e.after m).memory.byteAt k = m.memory.byteAt k := by
      by_cases hstep : e.kind = .step
      · obtain rfl := hone hstep
        rw [after_oneStep, byteAt_after_step h (hfirst rfl)]
      · have hbeside := (List.mem_cons.mp hkind).resolve_left hstep
        rw [(kept_memory m.memory).event rfl e hbeside]
    have hwell : (e.after m).WellFormed := (kept_wellFormed.mono (by decide)).event h e hkind
    rw [afterAll_cons, ih hwell hkinds hsingle hlater, hnext]

/-- **What a place holds at the end of a history**: what it held at the beginning, if nothing was
stored over it, and else what was stored there last. -/
theorem byteAt_cases (h : m.WellFormed) {events : List Event}
    (hkinds : ∀ e ∈ events, e.kind ∈ .step :: Event.Kind.peripheral)
    (hsingle : ∀ e ∈ events, e.Single) (k : Nat) :
    m.AtSteps (fun m => ¬ m.StoresOver k) events ∧
        (m.afterAll events).memory.byteAt k = m.memory.byteAt k ∨
      ∃ before after byte, events = before ++ .oneStep :: after ∧ (m.afterAll before).Puts k byte ∧
        (step.after (m.afterAll before)).AtSteps (fun m => ¬ m.StoresOver k) after ∧
        (m.afterAll events).memory.byteAt k = byte := by
  obtain hnone | ⟨before, after, rfl, ⟨byte, hputs⟩, hlast⟩ :=
    atSteps_not_or_exists_last m (fun m => m.StoresOver k) events
  · exact Or.inl ⟨hnone, byteAt_afterAll h hkinds hsingle hnone⟩
  · obtain ⟨hkindsBefore, hkindsAfter⟩ := List.forall_mem_append.mp hkinds
    obtain ⟨-, hsingleAfter⟩ := List.forall_mem_append.mp hsingle
    have hbefore : (m.afterAll before).WellFormed :=
      (kept_wellFormed.mono (by decide)).afterAll h before hkindsBefore
    -- after the last store over the place nothing more is put there
    refine Or.inr ⟨before, after, byte, rfl, hputs, hlast, ?_⟩
    rw [afterAll_append, afterAll_cons, after_oneStep,
      byteAt_afterAll (WellFormed.keeps_step _ hbefore) (List.forall_mem_cons.mp hkindsAfter).2
        (List.forall_mem_cons.mp hsingleAfter).2 hlast,
      byteAt_of_puts hbefore hputs]

/-! ## The font -/

/-- Loading a program that fits gives a new machine with that program. -/
theorem after_load (h : m.Sized) {c : Command} {image : List UInt8} (hc : c.Delivers image)
    (hfit : image.length ≤ Memory.programLimit) :
    (Event.command c).after m = powerOnWith m.random image := by
  rw [Event.after, Command.run_of_fit h hc hfit]

/-- A run begins with the font in place. -/
theorem Event.Begins.font (h : m.Sized) {e : Event} (he : e.Begins) {k : Nat}
    (hk : k < Memory.Font.bytes.length) :
    (e.after m).memory.byteAt k = Memory.Font.bytes[k] := by
  -- memory is made anew either way, and a program is placed behind the font
  cases he with
  | reset =>
    show m.reset.memory.byteAt k = _
    rw [reset_eq_powerOn h]
    exact Memory.byteAt_create _ hk
  | load c image hc hfit =>
    have hbytes := Memory.toList_placeProgram_create image
    rw [List.append_assoc, List.append_assoc] at hbytes
    rw [after_load h hc hfit]
    exact Memory.byteAt_of_toList hbytes hk

/-- **The font stands until a program stores over it.** Whatever a machine has been through, a reset
or a load begins a run; then steps complete, fail or wait, ticks come, and the host seeds the source
of random bytes, presses keys and draws, but writes no memory. At the end of any such run a byte of
the font that no completed `FX33` or `FX55` has stored over is as it was installed, and any other is
what the latest of these stores has put there. So the whole font is in place where none of them
reached below its end. -/
theorem font_until_stored_over (h : m.Reachable Event.Kind.every ∨ m.WellFormed) {first : Event}
    (hfirst : first.Begins) {events : List Event}
    (hkinds : ∀ e ∈ events, e.kind ∈ .step :: Event.Kind.peripheral)
    (hsingle : ∀ e ∈ events, e.Single) :
    (∀ k (hk : k < Memory.Font.bytes.length),
      (first.after m).AtSteps (fun m => ¬ m.StoresOver k) events ∧
          ((first.after m).afterAll events).memory.byteAt k = Memory.Font.bytes[k] ∨
        ∃ before after byte, events = before ++ .oneStep :: after ∧
          ((first.after m).afterAll before).Puts k byte ∧
          (step.after ((first.after m).afterAll before)).AtSteps (fun m => ¬ m.StoresOver k) after ∧
          ((first.after m).afterAll events).memory.byteAt k = byte) ∧
    ((∀ k < 0x50, (first.after m).AtSteps (fun m => ¬ m.StoresOver k) events) →
      ((first.after m).afterAll events).memory.block 0 0x50 = Memory.Font.bytes) := by
  have hsized : m.Sized := h.elim sized_of_reachable WellFormed.sized
  obtain ⟨hwell, -⟩ := hfirst.after hsized
  refine ⟨fun k hk => ?bytewise, fun hnone => ?whole⟩
  case bytewise =>
    have hcases := byteAt_cases hwell hkinds hsingle k
    rwa [hfirst.font hsized hk] at hcases
  case whole =>
    have hafter : ((first.after m).afterAll events).WellFormed :=
      (kept_wellFormed.mono (by decide)).afterAll hwell events hkinds
    have hlength : Memory.Font.bytes.length = 0x50 := Memory.Font.length_bytes
    -- the block is compared byte by byte with the font, as each byte is known
    rw [← hlength]
    apply Memory.block_eq_of_byteAt
    · rw [hafter.memory.held, hlength]
      decide
    · intro k hk
      rw [byteAt_afterAll hwell hkinds hsingle (hnone k (by omega)), hfirst.font hsized hk]

/-! ## A program that stores elsewhere, and one that stores over the font -/

/-- Points the index past the font, and stores registers 0 and 1 there. -/
def asideProgram : List UInt8 :=
  [0xA3, 0x00, 0xF1, 0x55]

def asideLoaded : Machine :=
  powerOnWith (Random.ofSeed 0) asideProgram

def asideReady : Machine :=
  asideLoaded.afterInstruction (.setIndex ⟨0x300, by decide⟩)

theorem performs_asideLoaded : asideLoaded.Performs (.setIndex ⟨0x300, by decide⟩) :=
  performs_of_program (k := 0) Memory.wellFormed_create rfl rfl rfl rfl (by decide) rfl rfl rfl

theorem performs_asideReady : asideReady.tick.Performs (.storeRegisters 1) :=
  performs_of_program (k := 2) Memory.wellFormed_create rfl rfl rfl rfl (by decide) rfl rfl rfl

theorem step_asideLoaded : step.after asideLoaded = asideReady := by
  have hwell : asideLoaded.WellFormed := wellFormed_powerOnWith _ (by decide)
  exact Action.after_of_ok (step_of_performs hwell performs_asideLoaded rfl)

/-- The first step stores nothing, and the last one stores past the font. -/
theorem atSteps_asideLoaded {k : Nat} (hk : k < 0x50) :
    asideLoaded.AtSteps (fun m => ¬ m.StoresOver k) [.oneStep, .oneTick, .oneStep] := by
  have hfirst : ¬ asideLoaded.StoresOver k :=
    not_storesOver_of_performs performs_asideLoaded fun d hd => absurd hd (Nat.not_lt_zero d)
  -- the index is at 0x300 by then, and `k` is below 0x50
  have hlast : ¬ asideReady.tick.StoresOver k := by
    refine not_storesOver_of_performs performs_asideReady fun d _ hd => ?_
    have hindex : asideReady.tick.processor.i = 0x300 := rfl
    omega
  have htick : Event.oneTick ≠ .oneStep := by simp
  refine atSteps_cons.mpr ⟨fun _ => hfirst, ?_⟩
  rw [after_oneStep, step_asideLoaded]
  refine atSteps_cons.mpr ⟨fun h => absurd h htick, ?_⟩
  rw [after_oneTick]
  exact atSteps_cons.mpr ⟨fun _ => hlast, atSteps_nil⟩

/-- The program stores from 0x300 on, and leaves the font in place. -/
theorem font_until_stored_over_aside :
    let first : Event := .command (.loadProgram asideProgram)
    let events : List Event := [.oneStep, .oneTick, .oneStep]
    let m := first.after (powerOn (Random.ofSeed 0))
    (powerOn (Random.ofSeed 0)).WellFormed ∧ first.Begins ∧
      (∀ e ∈ events, e.kind ∈ .step :: Event.Kind.peripheral) ∧ (∀ e ∈ events, e.Single) ∧
      (∀ k < 0x50, m.AtSteps (fun m => ¬ m.StoresOver k) events) ∧
      (m.afterAll events).memory.block 0 0x50 = Memory.Font.bytes := by
  have hstart := wellFormed_powerOn (Random.ofSeed 0)
  have hbegins : (Event.command (.loadProgram asideProgram)).Begins :=
    .load _ asideProgram (.bytes asideProgram) (by decide)
  have hkinds :
      ∀ e ∈ [Event.oneStep, .oneTick, .oneStep], e.kind ∈ .step :: Event.Kind.peripheral :=
    by decide
  have hsingle : ∀ e ∈ [Event.oneStep, .oneTick, .oneStep], e.Single := by
    simp only [List.forall_mem_cons]
    exact ⟨fun _ => rfl, nofun, fun _ => rfl, nofun⟩
  have hloaded : (Event.command (.loadProgram asideProgram)).after (powerOn (Random.ofSeed 0)) =
      asideLoaded :=
    after_load hstart.sized (.bytes asideProgram) (by decide)
  -- nothing is stored below the end of the font, so all of it is in place
  obtain ⟨-, hwhole⟩ := font_until_stored_over (.inr hstart) hbegins hkinds hsingle
  rw [hloaded] at hwhole
  simp only [hloaded]
  exact ⟨hstart, hbegins, hkinds, hsingle, fun k => atSteps_asideLoaded,
    hwhole fun k => atSteps_asideLoaded⟩

/-- Stores register 0 where the index points at power-on, which is the beginning of the font. -/
def overFontProgram : List UInt8 :=
  [0xF0, 0x55]

def overFontLoaded : Machine :=
  powerOnWith (Random.ofSeed 0) overFontProgram

theorem performs_overFontLoaded : overFontLoaded.Performs (.storeRegisters 0) :=
  performs_of_program (k := 0) Memory.wellFormed_create rfl rfl rfl rfl (by decide) rfl rfl rfl

/-- **The font is not safe from programs.** A program of two bytes writes over its first byte, so
the font does not stand throughout every run. -/
theorem font_stored_over :
    ¬ ∀ (random : Random.Twister) (image : List UInt8) (events : List Event), image.length ≤ 3584 →
      (∀ e ∈ events, e.kind ∈ .step :: Event.Kind.peripheral) →
      (((Event.command (.loadProgram image)).after (powerOn random)).afterAll events).memory.block 0
        0x50 = Memory.Font.bytes := by
  intro hstands
  have hwell : overFontLoaded.WellFormed := wellFormed_powerOnWith _ (by decide)
  have hstep := step_of_performs hwell performs_overFontLoaded (outOfReach_of_inRange (by decide))
  have hputs : overFontLoaded.Puts 0 0 :=
    ⟨_, _, performs_overFontLoaded, hstep, 0, rfl, rfl⟩
  have hzero := byteAt_of_puts hwell hputs
  have hfont := hstands (Random.ofSeed 0) overFontProgram [.oneStep] (by decide) (by decide)
  have hloaded : (Event.command (.loadProgram overFontProgram)).after (powerOn (Random.ofSeed 0)) =
      overFontLoaded :=
    after_load (wellFormed_powerOn _).sized (.bytes overFontProgram) (by decide)
  rw [hloaded, afterAll_cons, afterAll_nil, after_oneStep] at hfont
  -- what stands at the beginning of memory now is register 0, and not the font's first byte
  have hbyte : ((step.after overFontLoaded).memory.block 0 0x50).getD 0 0 = _ :=
    Memory.getD_block (by decide)
  rw [hfont, hzero] at hbyte
  exact absurd hbyte (by decide)

end Machine

end ChipEight
