import ChipEight.Instruction.Decode

/-!
# Instruction forms

Decoding goes from a word to an instruction. This module goes the other way: `Opcode.Denotes` lists,
form by form, the fields that a word of an instruction has, and does so without the two levels of
look-up that decoding takes.

* **`decode?_eq_some_iff`** — a word decodes to an instruction exactly when it has the fields of its
  form. Statements about words and statements about instructions are exchanged by it.
* **`word_of_denotes_awaitKey`** — the one word of the instruction that waits for a key.
-/

namespace ChipEight

namespace Instruction

/-- The low four bits of the words that combine two registers. -/
def Alu.code : Alu → Nat
  | copy => 0x0
  | or => 0x1
  | and => 0x2
  | xor => 0x3
  | add => 0x4
  | sub => 0x5
  | shiftRight => 0x6
  | subFrom => 0x7
  | shiftLeft => 0xE

/-- A code names exactly one way of combining registers. -/
theorem Alu.ofNat?_eq_some_iff {n : Nat} {alu : Alu} : ofNat? n = some alu ↔ n = alu.code := by
  constructor
  · intro h
    unfold ofNat? at h
    split at h <;> cases h <;> rfl
  · rintro rfl
    cases alu <;> rfl

end Instruction

/-- The fields that a word of an instruction has: its group, what else decides the form, and the
operands. -/
def Opcode.Denotes (op : Opcode) : Instruction → Prop
  | .clearScreen => op.group.val = 0x0 ∧ op.nn.toNat = 0xE0
  | .ret => op.group.val = 0x0 ∧ op.nn.toNat = 0xEE
  | .jump target => op.group.val = 0x1 ∧ op.nnn = target
  | .call target => op.group.val = 0x2 ∧ op.nnn = target
  | .skipIf (.eqByte x byte) => op.group.val = 0x3 ∧ op.x = x ∧ op.nn = byte
  | .skipIf (.neByte x byte) => op.group.val = 0x4 ∧ op.x = x ∧ op.nn = byte
  | .skipIf (.eq x y) => op.group.val = 0x5 ∧ op.x = x ∧ op.y = y
  | .load x byte => op.group.val = 0x6 ∧ op.x = x ∧ op.nn = byte
  | .addByte x byte => op.group.val = 0x7 ∧ op.x = x ∧ op.nn = byte
  | .combine alu x y => op.group.val = 0x8 ∧ op.n.val = alu.code ∧ op.x = x ∧ op.y = y
  | .skipIf (.ne x y) => op.group.val = 0x9 ∧ op.n.val = 0x0 ∧ op.x = x ∧ op.y = y
  | .setIndex target => op.group.val = 0xA ∧ op.nnn = target
  | .jumpOffset target => op.group.val = 0xB ∧ op.nnn = target
  | .random x mask => op.group.val = 0xC ∧ op.x = x ∧ op.nn = mask
  | .draw x y rows => op.group.val = 0xD ∧ op.x = x ∧ op.y = y ∧ op.n = rows
  | .skipIf (.keyDown x) => op.group.val = 0xE ∧ op.nn.toNat = 0x9E ∧ op.x = x
  | .skipIf (.keyUp x) => op.group.val = 0xE ∧ op.nn.toNat = 0xA1 ∧ op.x = x
  | .readDelay x => op.group.val = 0xF ∧ op.nn.toNat = 0x07 ∧ op.x = x
  | .awaitKey x => op.group.val = 0xF ∧ op.nn.toNat = 0x0A ∧ op.x = x
  | .setDelay x => op.group.val = 0xF ∧ op.nn.toNat = 0x15 ∧ op.x = x
  | .setSound x => op.group.val = 0xF ∧ op.nn.toNat = 0x18 ∧ op.x = x
  | .addIndex x => op.group.val = 0xF ∧ op.nn.toNat = 0x1E ∧ op.x = x
  | .pointGlyph x => op.group.val = 0xF ∧ op.nn.toNat = 0x29 ∧ op.x = x
  | .storeDecimal x => op.group.val = 0xF ∧ op.nn.toNat = 0x33 ∧ op.x = x
  | .storeRegisters x => op.group.val = 0xF ∧ op.nn.toNat = 0x55 ∧ op.x = x
  | .loadRegisters x => op.group.val = 0xF ∧ op.nn.toNat = 0x65 ∧ op.x = x

namespace Instruction

/-! ## From the decoder to the form

One lemma for each table of the second level, then the first level by its groups. -/

/-- The second level of group 0, which is looked up by the low byte alone. -/
theorem denotes_of_system? {op : Opcode} {i : Instruction} (hg : op.group.val = 0x0)
    (h : system? op.nn.toNat = some i) : op.Denotes i := by
  unfold system? at h
  split at h <;> cases h <;> exact ⟨hg, ‹_›⟩

theorem denotes_of_keyTest? {op : Opcode} {i : Instruction} (hg : op.group.val = 0xE)
    (h : keyTest? op.x op.nn.toNat = some i) : op.Denotes i := by
  unfold keyTest? at h
  split at h <;> cases h <;> exact ⟨hg, ‹_›, rfl⟩

theorem denotes_of_device? {op : Opcode} {i : Instruction} (hg : op.group.val = 0xF)
    (h : device? op.x op.nn.toNat = some i) : op.Denotes i := by
  unfold device? at h
  split at h <;> cases h <;> exact ⟨hg, ‹_›, rfl⟩

/-- A word that decodes to an instruction has the fields of its form. The cases are the rows of the
first level, in their order. -/
theorem denotes_of_decode? {op : Opcode} {i : Instruction} (h : decode? op = some i) :
    op.Denotes i := by
  unfold decode? at h
  split at h
  case h_1 hg => exact denotes_of_system? hg h
  case h_2 hg => cases h; exact ⟨hg, rfl⟩
  case h_3 hg => cases h; exact ⟨hg, rfl⟩
  case h_4 hg => cases h; exact ⟨hg, rfl, rfl⟩
  case h_5 hg => cases h; exact ⟨hg, rfl, rfl⟩
  case h_6 hg => cases h; exact ⟨hg, rfl, rfl⟩
  case h_7 hg => cases h; exact ⟨hg, rfl, rfl⟩
  case h_8 hg => cases h; exact ⟨hg, rfl, rfl⟩
  case h_9 hg =>
    obtain ⟨alu, halu, rfl⟩ := Option.map_eq_some_iff.mp h
    exact ⟨hg, Alu.ofNat?_eq_some_iff.mp halu, rfl, rfl⟩
  case h_10 hg =>
    split at h
    · cases h; exact ⟨hg, ‹_›, rfl, rfl⟩
    · cases h
  case h_11 hg => cases h; exact ⟨hg, rfl⟩
  case h_12 hg => cases h; exact ⟨hg, rfl⟩
  case h_13 hg => cases h; exact ⟨hg, rfl, rfl⟩
  case h_14 hg => cases h; exact ⟨hg, rfl, rfl, rfl⟩
  case h_15 hg => exact denotes_of_keyTest? hg h
  case h_16 hg => exact denotes_of_device? hg h
  case h_17 => cases h

/-- A word with the fields of a form decodes to the instruction: the fields decide both levels of
the look-up. -/
theorem decode?_of_denotes {op : Opcode} {i : Instruction} (h : op.Denotes i) :
    decode? op = some i := by
  cases i with
  | skipIf test => cases test <;> simp_all [Opcode.Denotes, decode?, keyTest?]
  | combine alu x y =>
    obtain ⟨hg, hn, rfl, rfl⟩ := h
    simp [decode?, hg, Alu.ofNat?_eq_some_iff.mpr hn]
  | _ => simp_all [Opcode.Denotes, decode?, system?, device?]

/-- **Decoding, form by form.** A word decodes to an instruction exactly when it has the fields of
the instruction's form. -/
theorem decode?_eq_some_iff {op : Opcode} {i : Instruction} :
    decode? op = some i ↔ op.Denotes i :=
  ⟨denotes_of_decode?, decode?_of_denotes⟩

/-! ## Words of sixteen bits

A word that was fetched has sixteen bits, so its fields are plain quotients and residues. -/

/-- A word that was fetched has no bits beyond its sixteen. -/
theorem bits_ofNat {w : Nat} (hw : w < 65536) : (⟨w⟩ : Opcode).bits = w := by
  simp only [Opcode.bits]
  omega

/-- The only word of sixteen bits that lets register `x` wait for a key is `FX0A`. -/
theorem word_of_denotes_awaitKey {w : Nat} {x : Fin 16} (hw : w < 65536)
    (h : (⟨w⟩ : Opcode).Denotes (.awaitKey x)) : w = 0xF00A + 0x100 * x.val := by
  obtain ⟨hg, hnn, rfl⟩ := h
  simp only [Opcode.toNat_nn] at hnn
  simp only [Opcode.group, Opcode.x, bits_ofNat hw] at hg hnn ⊢
  omega

theorem denotes_awaitKey (x : Fin 16) :
    (⟨(0xF00A + 0x100 * x.val : Nat)⟩ : Opcode).Denotes (.awaitKey x) := by
  have hbits : (⟨(0xF00A + 0x100 * x.val : Nat)⟩ : Opcode).bits = 0xF00A + 0x100 * x.val :=
    bits_ofNat (by omega)
  refine ⟨?_, ?_, Fin.ext ?_⟩
  · simp only [Opcode.group, hbits]
    omega
  · rw [Opcode.toNat_nn, hbits]
    omega
  · simp only [Opcode.x, hbits]
    omega

end Instruction

end ChipEight
