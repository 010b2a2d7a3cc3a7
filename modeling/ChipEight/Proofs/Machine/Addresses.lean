import ChipEight.Proofs.Machine.Calls
import ChipEight.Proofs.Machine.KeyWait

/-!
# The addresses that a program goes to

The counter of a machine may be any word, and so may a stack slot. Where processor and direct
executions are left to the program they stay far from where words wrap around: a program jumps no
further than the last target and the largest offset together, and it calls only from where a word
can be fetched.

* **`Addressed`** — the invariant. It has to speak of all stack slots and of the wait, because a
  return goes to a slot and a key sends the program on from where it waits.
* **`Addressed.flow`**, **`Addressed.stack`** — what one instruction makes of counter and stack.
* **`kept_addressed`** — every event but an assignment to the processor and a direct execution keeps
  the invariant, host writes to memory among them.
* **`addresses_of_reachable`** — so no address of a program is ever cut to sixteen bits.
-/

namespace ChipEight.Machine

variable {m m' : Machine}

/-- An address that a call may push: even, behind a word that can be fetched. -/
def IsReturnAddress (address : Int) : Prop :=
  0x202 ≤ address ∧ address ≤ 0x1000 ∧ address % 2 = 0

/-- The addresses that a machine holds are those that its program has put there. -/
structure Addressed (m : Machine) : Prop where
  counter : 0 ≤ m.processor.pc ∧ m.processor.pc ≤ 4350
  slots : ∀ k : Fin 16, m.processor.stack.get k = 0 ∨
    IsReturnAddress (m.processor.stack.get k).toNat
  used : ∀ k : Fin 16, (k.val : Int) < m.processor.sp →
    IsReturnAddress (m.processor.stack.get k).toNat
  waiting : ∀ register, m.processor.waiting = some register →
    0x200 ≤ m.processor.pc ∧ m.processor.pc ≤ 4094 ∧ m.processor.pc % 2 = 0

/-! ## Addresses that are not cut -/

/-- An address of sixteen bits is not changed by being cut to them. -/
theorem wrapAddress_eq {n : Int} (hlow : 0 ≤ n) (hhigh : n < 65536) : wrapAddress n = n := by
  unfold wrapAddress
  omega

/-- Nor is it when it is put into a stack slot. -/
theorem toNat_lowWord_eq {n : Int} (hlow : 0 ≤ n) (hhigh : n < 65536) :
    ((lowWord n).toNat : Int) = n := by
  rw [toNat_lowWord]
  omega

theorem fetchable_iff {pc : Int} : Fetchable pc ↔ 0x200 ≤ pc ∧ pc ≤ 4094 ∧ pc % 2 = 0 :=
  Iff.rfl

/-- A jump with an offset goes at most a byte's value past the last address. -/
theorem offset_range (m : Machine) (target : Fin 4096) :
    0 ≤ (target.val : Int) + (m.register Processor.offset).toNat ∧
      (target.val : Int) + (m.register Processor.offset).toNat ≤ 4350 := by
  have hbyte := (m.register Processor.offset).toNat_lt
  omega

namespace Addressed

/-! ## One step -/

theorem create (hnew : m.processor = Processor.create start) : m.Addressed := by
  have hslot : ∀ k : Fin 16, (Processor.create start).stack.get k = 0 := by
    intro k
    show (Vector.replicate 16 (0 : UInt16))[k.val] = 0
    rw [Vector.getElem_replicate]
  -- a new processor has the start for its counter, zeros in all slots, no depth and no wait
  refine ⟨?_, ?_, ?_, ?_⟩
  · rw [hnew]
    decide
  · intro k
    rw [hnew]
    exact Or.inl (hslot k)
  · intro k hk
    rw [hnew] at hk
    have hnone : (Processor.create start).sp = 0 := rfl
    omega
  · intro register hwaiting
    rw [hnew] at hwaiting
    cases hwaiting

/-- Only the counter, the stack and the wait matter. -/
theorem congr (h : m.Addressed) (hpc : m'.processor.pc = m.processor.pc)
    (hstack : m'.processor.stack = m.processor.stack) (hsp : m'.processor.sp = m.processor.sp)
    (hwaiting : m'.processor.waiting = m.processor.waiting) : m'.Addressed := by
  refine ⟨?_, ?_, ?_, ?_⟩
  · rw [hpc]
    exact h.counter
  · rw [hstack]
    exact h.slots
  · rw [hstack, hsp]
    exact h.used
  · rw [hpc, hwaiting]
    exact h.waiting

/-- The next address is two further on and not wrapped around: the counter stays far below 65536. -/
theorem next (h : m.Addressed) : m.processor.next = m.processor.pc + 2 := by
  have hpc := h.counter
  exact wrapAddress_eq (by omega) (by omega)

theorem advance (h : m.Addressed) :
    Flow.advance.target m.processor.pc = m.processor.pc + 2 :=
  h.next

/-- **Where an instruction leads to.** From a word that can be fetched a program goes on, skips,
jumps or returns; only a jump with an offset goes past 4098. -/
theorem flow (h : m.Addressed) (hwell : m.WellFormed) (hpc : Fetchable m.processor.pc)
    {i : Instruction} (hclear : m.obstacle? i = none) :
    0 ≤ (m.flowAfter i).target m.processor.pc ∧ (m.flowAfter i).target m.processor.pc ≤ 4350 := by
  rw [fetchable_iff] at hpc
  have hadvance : 0 ≤ Flow.advance.target m.processor.pc ∧
      Flow.advance.target m.processor.pc ≤ 4350 := by
    rw [h.advance]
    omega
  -- only returns and jumps with an offset read their target off the machine
  cases i with
  | ret =>
    obtain ⟨hlow, hhigh⟩ := hwell.processor.depth
    have hsp : m.processor.sp ≠ 0 := by
      intro hsp
      rw [obstacle?, if_pos hsp] at hclear
      cases hclear
    -- the slot that is popped is in use, so a call has filled it
    obtain ⟨slot, hslot⟩ := exists_fin_eq (n := m.processor.sp - 1) (by omega) (by omega)
    have hreturn := h.used slot (by omega)
    have htop : m.processor.sp = slot.val + 1 := by omega
    rw [flowAfter_ret htop]
    unfold IsReturnAddress at hreturn
    simp only [Flow.target]
    omega
  | jump target =>
    simp only [flowAfter, Flow.target]
    omega
  | call target =>
    simp only [flowAfter, Flow.target]
    omega
  | skipIf test =>
    simp only [flowAfter]
    split
    · simp only [Flow.target]
      omega
    · exact hadvance
  | jumpOffset target =>
    have hoffset := offset_range m target
    simp only [flowAfter, Flow.target]
    rw [wrapAddress_eq (by omega) (by omega)]
    exact hoffset
  | awaitKey x =>
    simp only [flowAfter]
    split
    · exact hadvance
    · simp only [Flow.target]
      omega
  | _ => exact hadvance

/-- **What an instruction makes of the stack.** A call fills the first slot that is not in use, with
an address that a call may push; a return fills none. -/
theorem stack (h : m.Addressed) (hwell : m.WellFormed) (hpc : Fetchable m.processor.pc)
    (i : Instruction) (k : Fin 16) :
    ((m.stackAfter i).get k = 0 ∨ IsReturnAddress ((m.stackAfter i).get k).toNat) ∧
      ((k.val : Int) < m.depthAfter i → IsReturnAddress ((m.stackAfter i).get k).toNat) := by
  cases i with
  | call target =>
    obtain ⟨hlow, hhigh⟩ := hwell.processor.depth
    -- the slot at the depth is filled by this call, and any slot below it by an earlier one
    by_cases hk : (k.val : Int) = m.processor.sp
    · have hfilled := get_stackAfter_call_self target hk.symm hpc
      rw [fetchable_iff] at hpc
      have hreturn : IsReturnAddress ((m.stackAfter (.call target)).get k).toNat := by
        rw [hfilled]
        unfold IsReturnAddress
        omega
      exact ⟨Or.inr hreturn, fun _ => hreturn⟩
    · rw [get_stackAfter_call hwell target hk]
      refine ⟨h.slots k, ?_⟩
      intro hdepth
      have hdepth' : (k.val : Int) < m.processor.sp + 1 := hdepth
      exact h.used k (by omega)
  | ret =>
    refine ⟨h.slots k, ?_⟩
    intro hdepth
    have hdepth' : (k.val : Int) < m.processor.sp - 1 := hdepth
    exact h.used k (by omega)
  | _ => exact ⟨h.slots k, h.used k⟩

/-- **What a cycle makes of the addresses.** Only a cycle that performs an instruction can lead
elsewhere than to the next word, and that it does from a word that can be fetched. -/
theorem performed (h : m.Addressed) (hwell : m.WellFormed) {c : Cycle} (hc : m.Stage c)
    (hclear : m.obstacleOf? c = none) : (m.performed c).Addressed := by
  have hcounter := h.counter
  have hnext : 0 ≤ m.processor.next ∧ m.processor.next ≤ m.processor.pc + 2 := by
    rw [h.next]
    omega
  -- a waiting machine stands where a word can be fetched, so its next address is one too
  cases hc with
  | idle => exact h
  | deliver key register hwaiting =>
    have hpc := h.waiting register hwaiting
    have hcounter' : 0 ≤ m.processor.next ∧ m.processor.next ≤ 4350 := by omega
    refine ⟨hcounter', h.slots, h.used, ?_⟩
    intro register' hwaiting'
    cases hwaiting'
  | stray => exact h
  | skip op hwaiting hop =>
    have hpc := (fetch_eq_ok_iff.mp hop).1
    rw [fetchable_iff] at hpc
    have hcounter' : 0 ≤ m.processor.next ∧ m.processor.next ≤ 4350 := by omega
    refine ⟨hcounter', h.slots, h.used, ?_⟩
    intro register hwaiting'
    exact absurd (hwaiting.symm.trans hwaiting') (Option.some_ne_none register).symm
  | perform op i hwaiting hop hdecode =>
    have hpc := (fetch_eq_ok_iff.mp hop).1
    have hstack := h.stack hwell hpc i
    refine ⟨h.flow hwell hpc hclear, fun k => (hstack k).1, fun k => (hstack k).2, ?_⟩
    intro register hafter
    -- if a register waits now, this instruction made it wait, and the counter has stayed
    obtain ⟨x, rfl, hkey, -⟩ := waitingAfter_eq_some hwaiting hafter
    have hstay : (m.flowAfter (.awaitKey x)).target m.processor.pc = m.processor.pc := by
      simp only [flowAfter, hkey, Flow.target]
    show Fetchable ((m.flowAfter (.awaitKey x)).target m.processor.pc)
    rw [hstay]
    exact hpc

/-- A step that fails leaves the addresses as they were, so a step of either outcome keeps them. -/
theorem after_step (h : m.Addressed) (hwell : m.WellFormed) : (step.after m).Addressed := by
  obtain hsame | ⟨hf, hafter⟩ := Machine.after_step hwell
  · rwa [hsame]
  · rw [hafter]
    have hperformed := h.performed hwell (stage_cycle hwell.memory) (obstacleOf?_of_clear hf)
    exact hperformed.congr rfl rfl rfl rfl

end Addressed

/-! ## Whole runs -/

/-- **Addresses stay those of the program**, also where the host writes over the program. -/
theorem kept_addressed :
    Kept (.memory :: Event.Kind.driving) fun m => m.WellFormed ∧ m.Addressed where
  load _ _ _ _ h hl := ⟨h.1.loadProgram hl, .create (processor_loadProgram hl)⟩
  reset _ _ h := ⟨h.1.reset, .create rfl⟩
  step _ _ h := ⟨WellFormed.keeps_step _ h.1, h.2.after_step h.1⟩
  tick _ m h := ⟨kept_wellFormed.tick (by decide) m h.1, h.2.congr rfl rfl rfl rfl⟩
  seed _ m random h := ⟨kept_wellFormed.seed (by decide) m random h.1, h.2.congr rfl rfl rfl rfl⟩
  -- these two might push or jump wherever they like, and are left out
  execute hkind := absurd hkind (by decide)
  processor hkind := absurd hkind (by decide)
  memory _ m c h := ⟨kept_wellFormed.memory (by decide) m c h.1, h.2.congr rfl rfl rfl rfl⟩
  screen _ m c h := ⟨kept_wellFormed.screen (by decide) m c h.1, h.2.congr rfl rfl rfl rfl⟩
  keypad _ m c h := ⟨kept_wellFormed.keypad (by decide) m c h.1, h.2.congr rfl rfl rfl rfl⟩

/-- **The addresses of a program.** However programs are loaded and run, and whatever the host does
to memory, screen, keypad, clock and source of random bytes: the counter is at most 4350, the stack
holds only addresses behind words that can be fetched, and zeros where it is not in use, and a
machine that waits for a key waits where a word can be fetched. So an instruction is only performed
there, the addresses that are cut to sixteen bits, of the next word, of a return and of a jump with
an offset, have no more bits, a skip leads to 4098 at most, and where the counter allows a fetch
memory gives a word. -/
theorem addresses_of_reachable (h : m.Reachable (.memory :: Event.Kind.driving)) :
    m.Addressed ∧
      (∀ i, m.Performs i →
        0x200 ≤ m.processor.pc ∧ m.processor.pc ≤ 4094 ∧ m.processor.pc % 2 = 0) ∧
      m.processor.next = m.processor.pc + 2 ∧
      Flow.advance.target m.processor.pc = m.processor.pc + 2 ∧
      ((lowWord (m.processor.pc + 2)).toNat : Int) = m.processor.pc + 2 ∧
      (∀ target : Fin 4096,
        wrapAddress (target.val + (m.register Processor.offset).toNat) =
          target.val + (m.register Processor.offset).toNat) ∧
      (∀ test, m.Performs (.skipIf test) → m.processor.pc + 4 ≤ 4098) ∧
      (Fetchable m.processor.pc → ∃ word, m.memory.readWord m.processor.pc = .ok word) := by
  obtain ⟨hwell, haddressed⟩ := kept_addressed.reachable
    (fun random => ⟨wellFormed_powerOn random, .create rfl⟩) h
  -- from the bound of the counter on it is arithmetic: nothing comes near 65536
  have hcounter := haddressed.counter
  refine ⟨haddressed, fun i hi => fetchable_of_performs hi, haddressed.next, haddressed.advance,
    toNat_lowWord_eq (by omega) (by omega), ?offset, ?skipped, ?fetched⟩
  case offset =>
    intro target
    have hoffset := offset_range m target
    exact wrapAddress_eq (by omega) (by omega)
  case skipped =>
    intro test hi
    have hpc := fetchable_of_performs hi
    rw [fetchable_iff] at hpc
    omega
  case fetched =>
    intro hpc
    obtain ⟨word, hword, -⟩ := readWord_of_fetchable hwell.memory hpc
    exact ⟨word, hword⟩

/-- A program that calls, is written over by the host inside the call, and goes on. -/
def overwritten : Machine :=
  (powerOn (Random.ofSeed 0)).afterAll
    [.command (.loadProgram [0x22, 0x04, 0x00, 0x00, 0xB3, 0xFF]), .command (.step 1),
      .command (.memory (.write 0x204 0xF1)), .command (.keypad (.press 3)), .command (.step 2)]

/-- A host writes over the program, and the machine steps on: the addresses stay in range. -/
theorem addresses_of_reachable_overwritten :
    overwritten.Reachable (.memory :: Event.Kind.driving) ∧ overwritten.Addressed := by
  have hm : overwritten.Reachable (.memory :: Event.Kind.driving) :=
    ⟨Random.ofSeed 0, _, by decide, rfl⟩
  exact ⟨hm, (addresses_of_reachable hm).1⟩

end ChipEight.Machine
