import ChipEight.Proofs.Keypad.Pressed
import ChipEight.Proofs.Machine.Addresses
import ChipEight.Proofs.Machine.Unlisted

/-!
# Where a program goes on

An instruction says where the program goes on, or leaves that to the step, which then goes on at the
next word. Here the same is said by the fields of the word, without the decoder and without what
instructions leave to the step.

* **`Test.word`**, **`Test.opposite`** — the word of each skip, and the skip on the opposite
  condition.
* **`SkipHolds`**, **`Diverts`** — the words that do not lead on to the next one, and where they
  lead.
* **`Diverts.exists_jump`**, **`flowAfter_cases`** — these are the words whose instruction jumps.
* **`LeadsTo`**, **`OneSkips`** — what becomes of the counter with some other word at it, and of two
  words of which one skips.
* **`counter_after_step`** — where every step goes on that completes, and which skips are opposite.
-/

namespace ChipEight

/-! ## The words of skips -/

/-- The fields of a word that is put together from four digits are these digits. -/
theorem Opcode.fields_of_digits {w g : Nat} (x y n : Fin 16) (hg : g < 16)
    (hw : w = 0x1000 * g + 0x100 * x.val + 0x10 * y.val + n.val) :
    (⟨w⟩ : Opcode).group.val = g ∧ (⟨w⟩ : Opcode).x = x ∧ (⟨w⟩ : Opcode).y = y ∧
      (⟨w⟩ : Opcode).n = n := by
  have hbits : (⟨w⟩ : Opcode).bits = w := Instruction.bits_ofNat (by omega)
  simp only [group, Opcode.x, Opcode.y, Opcode.n, hbits, Fin.ext_iff]
  omega

theorem Opcode.fields_of_byte {w g : Nat} (x : Fin 16) (byte : UInt8) (hg : g < 16)
    (hw : w = 0x1000 * g + 0x100 * x.val + byte.toNat) :
    (⟨w⟩ : Opcode).group.val = g ∧ (⟨w⟩ : Opcode).x = x ∧ (⟨w⟩ : Opcode).nn = byte := by
  have hbyte := byte.toNat_lt
  have hbits : (⟨w⟩ : Opcode).bits = w := Instruction.bits_ofNat (by omega)
  simp only [group, Opcode.x, ← UInt8.toNat_inj, toNat_nn, hbits, Fin.ext_iff]
  omega

namespace Instruction.Test

/-- The word of a skip. The last digit of `5XYn` is free. -/
def word (n : Fin 16) : Instruction.Test → Nat
  | eqByte x byte => 0x3000 + 0x100 * x.val + byte.toNat
  | neByte x byte => 0x4000 + 0x100 * x.val + byte.toNat
  | eq x y => 0x5000 + 0x100 * x.val + 0x10 * y.val + n.val
  | ne x y => 0x9000 + 0x100 * x.val + 0x10 * y.val
  | keyDown x => 0xE09E + 0x100 * x.val
  | keyUp x => 0xE0A1 + 0x100 * x.val

/-- The skip with the opposite condition. -/
def opposite : Instruction.Test → Instruction.Test
  | eqByte x byte => neByte x byte
  | neByte x byte => eqByte x byte
  | eq x y => ne x y
  | ne x y => eq x y
  | keyDown x => keyUp x
  | keyUp x => keyDown x

theorem word_lt (n : Fin 16) (test : Instruction.Test) : test.word n < 65536 := by
  cases test with
  | eqByte x byte | neByte x byte =>
    have hbyte := byte.toNat_lt
    simp only [word]
    omega
  | _ =>
    simp only [word]
    omega

theorem denotes_word (n : Fin 16) (test : Instruction.Test) :
    (⟨test.word n⟩ : Opcode).Denotes (.skipIf test) := by
  cases test with
  | eqByte x byte => exact Opcode.fields_of_byte x byte (g := 0x3) (by decide) rfl
  | neByte x byte => exact Opcode.fields_of_byte x byte (g := 0x4) (by decide) rfl
  | eq x y =>
    obtain ⟨hg, hx, hy, -⟩ := Opcode.fields_of_digits x y n (g := 0x5) (by decide) rfl
    exact ⟨hg, hx, hy⟩
  | ne x y =>
    obtain ⟨hg, hx, hy, hn⟩ := Opcode.fields_of_digits x y 0 (g := 0x9) (by decide) rfl
    exact ⟨hg, congrArg Fin.val hn, hx, hy⟩
  -- `9E` and `A1` are bytes of their own, so the word is split as group, register and byte
  | keyDown x =>
    have hdigits : word n (keyDown x) = 0x1000 * 0xE + 0x100 * x.val + (0x9E : UInt8).toNat := by
      show 0xE09E + _ = _ + 0x9E
      omega
    obtain ⟨hg, hx, hnn⟩ := Opcode.fields_of_byte x 0x9E (by decide) hdigits
    exact ⟨hg, congrArg UInt8.toNat hnn, hx⟩
  | keyUp x =>
    have hdigits : word n (keyUp x) = 0x1000 * 0xE + 0x100 * x.val + (0xA1 : UInt8).toNat := by
      show 0xE0A1 + _ = _ + 0xA1
      omega
    obtain ⟨hg, hx, hnn⟩ := Opcode.fields_of_byte x 0xA1 (by decide) hdigits
    exact ⟨hg, congrArg UInt8.toNat hnn, hx⟩

end Instruction.Test

namespace Machine

variable {m m' : Machine} {op : Opcode} {target : Int}

/-! ## Words that lead elsewhere -/

/-- The key that a register names: its value modulo 16. -/
def namedKey (m : Machine) (x : Fin 16) : Fin 16 :=
  ⟨(m.register x).toNat % 16, Nat.mod_lt _ (by decide)⟩

/-- The word is one of the six skips, and its condition holds. -/
inductive SkipHolds (m : Machine) (op : Opcode) : Prop
  /-- `3XNN` -/
  | eqByte (hform : op.group.val = 0x3) (h : m.register op.x = op.nn)
  /-- `4XNN` -/
  | neByte (hform : op.group.val = 0x4) (h : m.register op.x ≠ op.nn)
  /-- `5XYn` -/
  | eq (hform : op.group.val = 0x5) (h : m.register op.x = m.register op.y)
  /-- `9XY0` -/
  | ne (hform : op.group.val = 0x9 ∧ op.n.val = 0) (h : m.register op.x ≠ m.register op.y)
  /-- `EX9E` -/
  | keyDown (hform : op.group.val = 0xE ∧ op.nn.toNat = 0x9E)
      (h : m.keypad.down.get (m.namedKey op.x) = true)
  /-- `EXA1` -/
  | keyUp (hform : op.group.val = 0xE ∧ op.nn.toNat = 0xA1)
      (h : m.keypad.down.get (m.namedKey op.x) = false)

/-- The word leads elsewhere than to the word after it. -/
inductive Diverts (m : Machine) (op : Opcode) : Int → Prop
  /-- `1NNN` and `2NNN` -/
  | jump (hform : op.group.val = 0x1 ∨ op.group.val = 0x2) : Diverts m op op.nnn.val
  /-- `BNNN` -/
  | offset (hform : op.group.val = 0xB) : Diverts m op (op.nnn.val + (m.register 0).toNat)
  /-- `00EE`, with whatever second digit: the slot of the innermost call. -/
  | ret (hform : op.group.val = 0x0 ∧ op.nn.toNat = 0xEE) (slot : Fin 16)
      (hslot : m.processor.sp = slot.val + 1) : Diverts m op (m.processor.stack.get slot).toNat
  /-- `FX0A`, as long as no key is down. -/
  | await (hform : op.group.val = 0xF ∧ op.nn.toNat = 0x0A)
      (hkeys : ∀ k, m.keypad.down.get k = false) : Diverts m op m.processor.pc
  | skip (hskip : m.SkipHolds op) : Diverts m op (m.processor.pc + 4)

/-- A register names the key of its low four bits. -/
theorem isPressed_register (m : Machine) (x : Fin 16) :
    m.keypad.isPressed (m.register x).toNat = m.keypad.down.get (m.namedKey x) := by
  refine Keypad.isPressed_of_emod ?_
  simp only [namedKey]
  omega

/-! ## Words and instructions -/

/-- Where a condition of the source holds, the word is a skip whose test holds. -/
theorem SkipHolds.exists_test (h : m.SkipHolds op) :
    ∃ test, op.Denotes (.skipIf test) ∧ m.holds test = true := by
  -- the fields of the word are the operands of its test
  cases h with
  | eqByte hform h => exact ⟨.eqByte op.x op.nn, ⟨hform, rfl, rfl⟩, by simpa [holds] using h⟩
  | neByte hform h => exact ⟨.neByte op.x op.nn, ⟨hform, rfl, rfl⟩, by simpa [holds] using h⟩
  | eq hform h => exact ⟨.eq op.x op.y, ⟨hform, rfl, rfl⟩, by simpa [holds] using h⟩
  | ne hform h => exact ⟨.ne op.x op.y, ⟨hform.1, hform.2, rfl, rfl⟩, by simpa [holds] using h⟩
  | keyDown hform h =>
    exact ⟨.keyDown op.x, ⟨hform.1, hform.2, rfl⟩, by simpa [holds, isPressed_register] using h⟩
  | keyUp hform h =>
    exact ⟨.keyUp op.x, ⟨hform.1, hform.2, rfl⟩, by simpa [holds, isPressed_register] using h⟩

/-- And the other way around, test by test. -/
theorem skipHolds_of_holds {test : Instruction.Test} (hform : op.Denotes (.skipIf test))
    (h : m.holds test = true) : m.SkipHolds op := by
  cases test with
  | eqByte x byte =>
    obtain ⟨hg, rfl, rfl⟩ := hform
    exact .eqByte hg (by simpa [holds] using h)
  | neByte x byte =>
    obtain ⟨hg, rfl, rfl⟩ := hform
    exact .neByte hg (by simpa [holds] using h)
  | eq x y =>
    obtain ⟨hg, rfl, rfl⟩ := hform
    exact .eq hg (by simpa [holds] using h)
  | ne x y =>
    obtain ⟨hg, hn, rfl, rfl⟩ := hform
    exact .ne ⟨hg, hn⟩ (by simpa [holds] using h)
  | keyDown x =>
    obtain ⟨hg, hnn, rfl⟩ := hform
    exact .keyDown ⟨hg, hnn⟩ (by simpa [holds, isPressed_register] using h)
  | keyUp x =>
    obtain ⟨hg, hnn, rfl⟩ := hform
    exact .keyUp ⟨hg, hnn⟩ (by simpa [holds, isPressed_register] using h)

/-- No jump with an offset is so far that its target would be cut. -/
theorem flowAfter_jumpOffset (m : Machine) (target : Fin 4096) :
    m.flowAfter (.jumpOffset target) = .jump (target.val + (m.register 0).toNat) := by
  obtain ⟨hlow, hhigh⟩ := m.offset_range target
  show Flow.jump (wrapAddress (target.val + (m.register Processor.offset).toNat)) = _
  rw [wrapAddress_eq hlow (by omega)]
  rfl

/-- **A word that leads elsewhere is of an instruction that jumps there.** -/
theorem Diverts.exists_jump (h : m.Diverts op target) :
    ∃ i, op.Denotes i ∧ m.flowAfter i = .jump target := by
  -- each way to lead elsewhere belongs to one instruction
  cases h with
  | jump hform =>
    rcases hform with hg | hg
    · exact ⟨.jump op.nnn, ⟨hg, rfl⟩, rfl⟩
    · exact ⟨.call op.nnn, ⟨hg, rfl⟩, rfl⟩
  | offset hform => exact ⟨.jumpOffset op.nnn, ⟨hform, rfl⟩, m.flowAfter_jumpOffset op.nnn⟩
  | ret hform slot hslot => exact ⟨.ret, hform, flowAfter_ret hslot⟩
  | await hform hkeys =>
    refine ⟨.awaitKey op.x, ⟨hform.1, hform.2, rfl⟩, ?_⟩
    simp only [flowAfter, m.keypad.firstPressed_eq_none_iff.mpr hkeys]
  | skip hskip =>
    obtain ⟨test, hform, hholds⟩ := hskip.exists_test
    refine ⟨.skipIf test, hform, ?_⟩
    simp only [flowAfter, hholds, if_true]

/-- **An instruction leaves it to the step where to go on, or its word leads elsewhere.** -/
theorem flowAfter_cases (h : m.WellFormed) {i : Instruction} (hform : op.Denotes i)
    (hclear : m.obstacle? i = none) :
    m.flowAfter i = .advance ∨ ∃ target, m.Diverts op target := by
  cases i with
  | ret =>
    obtain ⟨hlow, hhigh⟩ := h.processor.depth
    -- an empty stack is an obstacle, so there is a slot to return to
    have hsp : m.processor.sp ≠ 0 := by
      intro hsp
      rw [obstacle?, if_pos hsp] at hclear
      cases hclear
    obtain ⟨slot, hslot⟩ := exists_fin_eq (n := m.processor.sp - 1) (by omega) (by omega)
    exact Or.inr ⟨_, .ret hform slot (by omega)⟩
  | jump target => exact Or.inr ⟨_, .jump (Or.inl hform.1)⟩
  | call target => exact Or.inr ⟨_, .jump (Or.inr hform.1)⟩
  | jumpOffset target => exact Or.inr ⟨_, .offset hform.1⟩
  | skipIf test =>
    -- a skip leads elsewhere only where its condition holds
    cases hholds : m.holds test with
    | true => exact Or.inr ⟨_, .skip (skipHolds_of_holds hform hholds)⟩
    | false => exact Or.inl (by simp [flowAfter, hholds])
  | awaitKey x =>
    cases hkey : m.keypad.firstPressed with
    | some key => exact Or.inl (by simp [flowAfter, hkey])
    | none =>
      have hkeys := m.keypad.firstPressed_eq_none_iff.mp hkey
      exact Or.inr ⟨_, .await ⟨hform.1, hform.2.1⟩ hkeys⟩
  | _ => exact Or.inl rfl

/-! ## The counter after a step -/

theorem pc_of_performs (h : m.WellFormed) {i : Instruction} (hi : m.Performs i)
    (hstep : m.step = .ok () m') : m'.processor.pc = (m.flowAfter i).target m.processor.pc := by
  obtain ⟨-, rfl⟩ := completed_of_step h hstep
  rw [completed_of_performs hi]
  rfl

/-- From where a word can be fetched, the next word is two bytes on. -/
theorem target_advance {pc : Int} (hpc : Fetchable pc) : Flow.advance.target pc = pc + 2 := by
  rw [fetchable_iff] at hpc
  exact wrapAddress_eq (by omega) (by omega)

/-- **A word that leads elsewhere leads to its target**, if the step completes. -/
theorem pc_of_diverts (h : m.WellFormed) (hw : m.processor.waiting = none) (hop : m.fetch = .ok op)
    (hd : m.Diverts op target) (hstep : m.step = .ok () m') : m'.processor.pc = target := by
  obtain ⟨i, hform, hflow⟩ := hd.exists_jump
  rw [pc_of_performs h ⟨hw, op, hop, hform⟩ hstep, hflow]
  rfl

/-- **Every other word goes on with the next one**, also a word that is no instruction. -/
theorem pc_of_not_diverts (h : m.WellFormed) (hw : m.processor.waiting = none)
    (hop : m.fetch = .ok op) (hd : ¬ ∃ target, m.Diverts op target) (hstep : m.step = .ok () m') :
    m'.processor.pc = m.processor.pc + 2 := by
  cases hdecode : Instruction.decode? op with
  | none =>
    -- a word that is no instruction is stepped over
    have hunknown : Instruction.decode op =
        .error { cause := .unknownOpcode op.word, opcode := some op.word } := by
      rw [Instruction.decode, hdecode]
    obtain ⟨-, rfl⟩ := completed_of_step h hstep
    rw [completed_of_no_instruction hw hop hunknown]
  | some i =>
    have hi : m.Performs i := performs_of_decode? hw hop hdecode
    have hform := Instruction.decode?_eq_some_iff.mp hdecode
    rcases flowAfter_cases h hform (clear_of_step h hi hstep) with hadvance | hdiverts
    · rw [pc_of_performs h hi hstep, hadvance, target_advance (fetch_eq_ok_iff.mp hop).1]
    · exact absurd hdiverts hd

/-! ## Some other word at the counter -/

/-- The machine with a word of sixteen bits stored at its counter. -/
def withWord (m : Machine) (w : Nat) : Machine :=
  { m with
    memory :=
      { m.memory with
        bytes := Memory.store m.memory.bytes m.processor.pc.toNat
          [UInt8.ofNat (w / 256), UInt8.ofNat w] } }

/-- With this word at the counter, the next step completes and goes on there. -/
def LeadsTo (m : Machine) (w : Nat) (target : Int) : Prop :=
  ∃ m', (m.withWord w).step = .ok () m' ∧ m'.processor.pc = target

/-- Of two words, one steps over the word after it and the other goes on there. -/
def OneSkips (m : Machine) (w w' : Nat) : Prop :=
  m.LeadsTo w (m.processor.pc + 4) ∧ m.LeadsTo w' (m.processor.pc + 2) ∨
    m.LeadsTo w (m.processor.pc + 2) ∧ m.LeadsTo w' (m.processor.pc + 4)

section WithWord

variable {w : Nat}

/-- A word leads to one address only: both come of the same step. -/
theorem LeadsTo.unique {target' : Int} (h : m.LeadsTo w target) (h' : m.LeadsTo w target') :
    target = target' := by
  obtain ⟨m₁, hstep, rfl⟩ := h
  obtain ⟨m₂, hstep', rfl⟩ := h'
  cases hstep.symm.trans hstep'
  rfl

theorem WellFormed.withWord (h : m.WellFormed) (w : Nat) : (m.withWord w).WellFormed where
  processor := h.processor
  memory := ⟨h.memory.size, by
    show (Memory.store _ _ _).size = _
    rw [Memory.size_store, h.memory.held]⟩
  screen := h.screen

theorem fetch_withWord (h : m.WellFormed) (hpc : Fetchable m.processor.pc) (hword : w < 65536) :
    (m.withWord w).fetch = .ok ⟨w⟩ := by
  have hheld : m.processor.pc.toNat + 1 < m.memory.bytes.size := by
    rw [h.memory.held, Memory.standardSize]
    rw [fetchable_iff] at hpc
    omega
  -- memory has kept its size, so the word lies in it as the old one did
  have hrange : (m.withWord w).memory.InRange m.processor.pc 2 := by
    show 0 ≤ m.processor.pc ∧ m.processor.pc + 2 ≤ m.memory.size
    rw [h.memory.size, Memory.standardSize]
    rw [fetchable_iff] at hpc
    omega
  have hhigh : (m.withWord w).memory.byteAt m.processor.pc.toNat = UInt8.ofNat (w / 256) :=
    Memory.byteAt_store (d := 0) rfl (by omega)
  have hlow : (m.withWord w).memory.byteAt (m.processor.pc.toNat + 1) = UInt8.ofNat w :=
    Memory.byteAt_store (d := 1) rfl hheld
  refine fetch_of_readWord (m := m.withWord w) hpc ?_
  show (m.withWord w).memory.readWord m.processor.pc = .ok w
  -- the two bytes make up the word again, since it has sixteen bits
  rw [Memory.readWord_eq, if_pos hrange, hhigh, hlow, UInt8.toNat_ofNat', UInt8.toNat_ofNat']
  congr 1
  omega

/-- A skip completes, on whatever side its condition comes out. -/
theorem leadsTo_of_skip (h : m.WellFormed) (hw : m.processor.waiting = none)
    (hpc : Fetchable m.processor.pc) (n : Fin 16) (test : Instruction.Test) :
    m.LeadsTo (test.word n) (if m.holds test then m.processor.pc + 4 else m.processor.pc + 2) := by
  have hwell := h.withWord (test.word n)
  have hi : (m.withWord (test.word n)).Performs (.skipIf test) :=
    ⟨hw, _, fetch_withWord h hpc (test.word_lt n), test.denotes_word n⟩
  have hstep := step_of_performs hwell hi rfl
  -- the registers and the keys are not in memory, so the condition is the same
  have hholds : (m.withWord (test.word n)).holds test = m.holds test := by cases test <;> rfl
  refine ⟨_, hstep, ?_⟩
  rw [pc_of_performs hwell hi hstep, flowAfter, hholds]
  cases m.holds test with
  | true => rfl
  | false => exact target_advance hpc

/-- Written at the counter, the word of a skip steps over the next one exactly if its test holds. -/
theorem skips_iff (h : m.WellFormed) (hw : m.processor.waiting = none)
    (hpc : Fetchable m.processor.pc) (n : Fin 16) (test : Instruction.Test) :
    m.LeadsTo (test.word n) (m.processor.pc + 4) ↔ m.holds test = true := by
  have hleads := leadsTo_of_skip h hw hpc n test
  constructor
  · intro hskips
    have hsame := hskips.unique hleads
    split at hsame
    · assumption
    · omega
  · intro hholds
    rwa [if_pos hholds] at hleads

/-- Of a test and its opposite exactly one holds. -/
theorem holds_opposite (m : Machine) (test : Instruction.Test) :
    m.holds test.opposite = !m.holds test := by
  cases test <;> simp [holds, Instruction.Test.opposite]

/-- **Two skips on opposite conditions never both skip, and never both go on.** -/
theorem oneSkips_opposite (h : m.WellFormed) (hw : m.processor.waiting = none)
    (hpc : Fetchable m.processor.pc) (n : Fin 16) (test : Instruction.Test) :
    m.OneSkips (test.word n) (test.opposite.word n) := by
  have hleads := leadsTo_of_skip h hw hpc n test
  have hleads' := leadsTo_of_skip h hw hpc n test.opposite
  rw [holds_opposite] at hleads'
  -- whichever way the first condition comes out, the other comes out the other way
  cases hholds : m.holds test with
  | true =>
    rw [hholds] at hleads hleads'
    exact Or.inl ⟨hleads, hleads'⟩
  | false =>
    rw [hholds] at hleads hleads'
    exact Or.inr ⟨hleads, hleads'⟩

end WithWord

/-! ## The law -/

/-- **Where a program goes on.** A well-formed machine that waits for no key takes a step where a
word can be fetched, and the step completes. A jump and a call lead to their address, a jump with an
offset that much further, a return to the address in the topmost slot that is in use, a key that is
asked for while none is down nowhere, a skip whose condition holds past the next word, and every
other word to the next one, be it an instruction or not. And whatever the registers hold and
whichever keys are down, of two skips on opposite conditions exactly one skips; the key that is
looked at is the register's value modulo 16. -/
theorem counter_after_step (h : m.WellFormed) (hw : m.processor.waiting = none)
    (hpc : 0x200 ≤ m.processor.pc ∧ m.processor.pc ≤ 4094 ∧ m.processor.pc % 2 = 0) :
    (∃ w : Nat, m.memory.readWord m.processor.pc = .ok w ∧ ∀ m', m.step = .ok () m' →
      (∀ target, m.Diverts ⟨w⟩ target → m'.processor.pc = target) ∧
      ((¬ ∃ target, m.Diverts ⟨w⟩ target) → m'.processor.pc = m.processor.pc + 2)) ∧
    (∀ (x : Fin 16) (byte : UInt8),
      m.OneSkips (0x3000 + 0x100 * x.val + byte.toNat) (0x4000 + 0x100 * x.val + byte.toNat)) ∧
    (∀ x y n : Fin 16,
      m.OneSkips (0x5000 + 0x100 * x.val + 0x10 * y.val + n.val)
        (0x9000 + 0x100 * x.val + 0x10 * y.val)) ∧
    ∀ x : Fin 16, m.OneSkips (0xE09E + 0x100 * x.val) (0xE0A1 + 0x100 * x.val) ∧
      (m.LeadsTo (0xE09E + 0x100 * x.val) (m.processor.pc + 4) ↔
        m.keypad.down.get (m.namedKey x) = true) := by
  have hfetchable : Fetchable m.processor.pc := fetchable_iff.mpr hpc
  refine ⟨?counter, ?bytes, ?registers, ?keys⟩
  case counter =>
    -- memory gives a word here, and every part below is about this one
    obtain ⟨w, hread, -⟩ := readWord_of_fetchable h.memory hfetchable
    have hop := fetch_of_readWord hfetchable hread
    exact ⟨w, hread, fun m' hstep =>
      ⟨fun target hd => pc_of_diverts h hw hop hd hstep,
        fun hd => pc_of_not_diverts h hw hop hd hstep⟩⟩
  case bytes => exact fun x byte => oneSkips_opposite h hw hfetchable 0 (.eqByte x byte)
  case registers => exact fun x y n => oneSkips_opposite h hw hfetchable n (.eq x y)
  case keys =>
    intro x
    have hskips := skips_iff h hw hfetchable 0 (.keyDown x)
    rw [holds, isPressed_register] at hskips
    exact ⟨oneSkips_opposite h hw hfetchable 0 (.keyDown x), hskips⟩

/-- A jump to address 0 is a jump all the same. -/
theorem counter_after_step_zeroJump :
    let m := oneWord 0x10 0x00
    m.WellFormed ∧ m.processor.waiting = none ∧
      (0x200 ≤ m.processor.pc ∧ m.processor.pc ≤ 4094 ∧ m.processor.pc % 2 = 0) ∧
      (∃ m', m.step = .ok () m' ∧ m'.processor.pc = 0) ∧ m.OneSkips 0x3A07 0x4A07 := by
  have hwell := wellFormed_oneWord 0x10 0x00
  have hread := readWord_oneWord 0x10 0x00
  have hop := fetch_of_readWord (show Fetchable (oneWord 0x10 0x00).processor.pc by decide) hread
  have hstep := step_of_performs hwell (i := .jump 0) ⟨rfl, _, hop, by decide, by decide⟩ rfl
  obtain ⟨⟨w, hword, hcounter⟩, hbytes, -⟩ := counter_after_step hwell rfl (by decide)
  obtain rfl : 0x1000 = w := Except.ok.inj (hread.symm.trans hword)
  have hzero := (hcounter _ hstep).1 0 (.jump (Or.inl rfl))
  exact ⟨hwell, rfl, by decide, ⟨_, hstep, hzero⟩, hbytes 10 7⟩

end Machine

end ChipEight
