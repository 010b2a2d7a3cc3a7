import ChipEight.Proofs.Instruction.Table
import ChipEight.Proofs.Machine.FaultSet
import ChipEight.Proofs.Machine.Footprint

/-!
# Words that are not listed

A program may come upon a word that is in no row of the instruction table. The machine tells its
host and steps over it, with an exception: a word that has the low byte of clearing the screen or of
returning, in the same group, is taken for that.

* **`run_step_of_not_decoded`** — all that comes of a word that is no instruction.
* **`unlisted_word_skipped`** — a word that is not listed is stepped over, unless it is mistaken for
  one that is; then that one is performed.
* **`unlisted_word_performed`** — which may stop the machine.
-/

namespace ChipEight.Machine

open Instruction (Listed Mistaken)

variable {m : Machine}

/-- **A word that is no instruction** moves the counter to the next one and counts the step, and the
host is told once. Nothing else comes of it. -/
theorem run_step_of_not_decoded (h : m.WellFormed) (hw : m.processor.waiting = none) {op : Opcode}
    (hop : m.fetch = .ok op) (hdecode : Instruction.decode? op = none) :
    Command.run m (.step 1) =
      ⟨{ m with
          processor := { m.processor with pc := m.processor.pc + 2 }
          cycles := m.cycles + 1 },
        .ok (.progress 1 none), #[.skipped op.word m.processor.pc]⟩ := by
  have hcycle : m.cycle = .skip op := by
    rw [cycle_of_fetch hw hop, hdecode]
  have hclear : m.fault? = none := by
    rw [fault?, hcycle]
    rfl
  have hunknown : Instruction.decode op =
      .error { cause := .unknownOpcode op.word, opcode := some op.word } := by
    rw [Instruction.decode, hdecode]
  have hstep := step_of_clear h hclear
  rw [completed_of_no_instruction hw hop hunknown] at hstep
  have hnotice : m.notice? = some (.skipped op.word m.processor.pc) := by
    rw [notice?, hcycle]
    rfl
  simp [Command.run, Response.stepping, Progress.advance, Progress.step, Progress.start, hnotice,
    hstep]

theorem fetch_of_readWord (hpc : Fetchable m.processor.pc) {w : Nat}
    (hread : m.memory.readWord m.processor.pc = .ok w) : m.fetch = .ok ⟨w⟩ :=
  fetch_eq_ok_iff.mpr ⟨hpc, w, hread, rfl⟩

/-- **A word that is not listed is stepped over.** A well-formed machine that waits for no key
comes, where a word can be fetched, upon one that no row of the instruction table lists. Then the
step completes, with one warning to the host; the counter goes on by 2 and the cycles by 1, and
nothing else changes. The exception are words of group 0 whose low byte is that of `00E0` or `00EE`:
what those do is done. -/
theorem unlisted_word_skipped (h : m.WellFormed) (hw : m.processor.waiting = none)
    (hpc : 0x200 ≤ m.processor.pc ∧ m.processor.pc ≤ 4094 ∧ m.processor.pc % 2 = 0) {w : Nat}
    (hread : m.memory.readWord m.processor.pc = .ok w) (hword : ¬ Listed w) :
    (¬ Mistaken w →
      Command.run m (.step 1) =
        ⟨{ m with
            processor := { m.processor with pc := m.processor.pc + 2 }
            cycles := m.cycles + 1 },
          .ok (.progress 1 none), #[.skipped w m.processor.pc]⟩ ∧
      (Notice.skipped w m.processor.pc).level = .warning) ∧
    (Mistaken w → m.Performs (if w % 256 = 0xE0 then .clearScreen else .ret)) := by
  have hop := fetch_of_readWord hpc hread
  have hsixteen := Memory.readWord_lt hread
  refine ⟨fun hmistaken => ⟨?skipped, rfl⟩, fun hmistaken => ?performed⟩
  case skipped =>
    exact run_step_of_not_decoded h hw hop (Instruction.decode?_eq_none hsixteen hword hmistaken)
  case performed =>
    exact performs_of_decode? hw hop (Instruction.decode?_of_mistaken hsixteen hmistaken)

/-! ## Programs of one word -/

/-- A new machine with a program of one word. -/
def oneWord (high low : UInt8) : Machine :=
  powerOnWith (Random.ofSeed 0) [high, low]

theorem wellFormed_oneWord (high low : UInt8) : (oneWord high low).WellFormed :=
  wellFormed_powerOnWith _ (show 2 ≤ Memory.programLimit by decide)

/-- The word is put together of its two bytes, the high one first. -/
theorem readWord_oneWord (high low : UInt8) :
    (oneWord high low).memory.readWord (oneWord high low).processor.pc =
      .ok (256 * high.toNat + low.toNat) := by
  have hhigh : [high, low][0]? = some high := rfl
  have hlow : [high, low][1]? = some low := rfl
  exact Memory.wellFormed_create.readWord_program (k := 0) (by decide) hhigh hlow

/-- `8008` would be a combination of registers, if there were one of that number. -/
theorem unlisted_word_skipped_combination :
    let m := oneWord 0x80 0x08
    m.WellFormed ∧ m.processor.waiting = none ∧
      (0x200 ≤ m.processor.pc ∧ m.processor.pc ≤ 4094 ∧ m.processor.pc % 2 = 0) ∧
      m.memory.readWord m.processor.pc = .ok 0x8008 ∧ ¬ Listed 0x8008 ∧ ¬ Mistaken 0x8008 ∧
      (Command.run m (.step 1)).notices = #[.skipped 0x8008 0x200] := by
  have hread := readWord_oneWord 0x80 0x08
  have hlisted : ¬ Listed 0x8008 := by decide
  have hmistaken : ¬ Mistaken 0x8008 := fun h => absurd h.1 (by decide)
  have hskipped := (unlisted_word_skipped (wellFormed_oneWord 0x80 0x08) rfl (by decide) hread
    hlisted).1 hmistaken
  refine ⟨wellFormed_oneWord _ _, rfl, by decide, hread, hlisted, hmistaken, ?_⟩
  rw [hskipped.1]
  rfl

/-- **Not every word that is not listed is stepped over.** `0FEE` is in no row of the table, and yet
a machine stops at it: it is taken for a return, and there is no call to return from. -/
theorem unlisted_word_performed :
    let m := oneWord 0x0F 0xEE
    m.WellFormed ∧ m.processor.waiting = none ∧
      (0x200 ≤ m.processor.pc ∧ m.processor.pc ≤ 4094 ∧ m.processor.pc % 2 = 0) ∧
      m.memory.readWord m.processor.pc = .ok 0x0FEE ∧ ¬ Listed 0x0FEE ∧
      ∃ fault, m.step = .error (.fault fault) m ∧ fault.kind = .stackUnderflow := by
  have hwell := wellFormed_oneWord 0x0F 0xEE
  have hread := readWord_oneWord 0x0F 0xEE
  have hop : (oneWord 0x0F 0xEE).fetch = .ok ⟨0x0FEE⟩ := fetch_of_readWord (by decide) hread
  have hmeets : (oneWord 0x0F 0xEE).Meets .stackUnderflow (some 0x0FEE) :=
    .ret ⟨0x0FEE⟩ hop (by decide) rfl
  obtain ⟨fault, hfault, hkind, -⟩ := fault?_of_meets hwell rfl hmeets
  exact ⟨hwell, rfl, by decide, hread, by decide, fault, step_of_fault hwell hfault, hkind⟩

end ChipEight.Machine
