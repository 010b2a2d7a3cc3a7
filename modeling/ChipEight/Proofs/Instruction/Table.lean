import ChipEight.Proofs.Instruction.Form

/-!
# The instruction table

The forms of instructions as they are documented: thirty-four rows, each of which fixes some of the
four digits of a word and leaves the others to operands. `Denotes` says what decoding makes of the
fields of a word; the table knows nothing of fields, so the two can be held against each other.

* **`table`**, **`Listed`** — the rows, and the words that match one of them.
* **`Mistaken`** — the words that no row lists and that are decoded all the same: `0XE0` and `0XEE`,
  where X is not 0. Decoding does not look at that digit.
* **`decode?_eq_none`**, **`decode?_of_mistaken`** — all other words that are not listed are no
  instructions; those words clear the screen or return.
-/

namespace ChipEight.Instruction

/-- A row of the instruction table, by the digits that it fixes. -/
inductive Row where
  /-- All four digits, as in `00E0`. -/
  | word (w : Nat)
  /-- The first digit, as in `1NNN`. -/
  | group (g : Nat)
  /-- The first digit and the last, as in `8XY4`. -/
  | ends (g n : Nat)
  /-- The first digit and the last two, as in `FX33`. -/
  | byte (g nn : Nat)
  deriving DecidableEq

/-- A word has the digits that a row fixes. -/
def Row.Matches (w : Nat) : Row → Prop
  | word v => w = v
  | group g => w / 4096 = g
  | ends g n => w / 4096 = g ∧ w % 16 = n
  | byte g nn => w / 4096 = g ∧ w % 256 = nn

instance (w : Nat) (row : Row) : Decidable (row.Matches w) :=
  match row with
  | .word v => inferInstanceAs (Decidable (w = v))
  | .group g => inferInstanceAs (Decidable (w / 4096 = g))
  | .ends g n => inferInstanceAs (Decidable (w / 4096 = g ∧ w % 16 = n))
  | .byte g nn => inferInstanceAs (Decidable (w / 4096 = g ∧ w % 256 = nn))

/-- The instruction table. The last digit of `5XYN` is free, that of `9XY0` is not. -/
def table : List Row :=
  [.word 0x00E0, .word 0x00EE, .group 0x1, .group 0x2, .group 0x3, .group 0x4, .group 0x5,
    .group 0x6, .group 0x7, .ends 0x8 0x0, .ends 0x8 0x1, .ends 0x8 0x2, .ends 0x8 0x3,
    .ends 0x8 0x4, .ends 0x8 0x5, .ends 0x8 0x6, .ends 0x8 0x7, .ends 0x8 0xE, .ends 0x9 0x0,
    .group 0xA, .group 0xB, .group 0xC, .group 0xD, .byte 0xE 0x9E, .byte 0xE 0xA1, .byte 0xF 0x07,
    .byte 0xF 0x0A, .byte 0xF 0x15, .byte 0xF 0x18, .byte 0xF 0x1E, .byte 0xF 0x29, .byte 0xF 0x33,
    .byte 0xF 0x55, .byte 0xF 0x65]

/-- A word is listed in the instruction table. -/
def Listed (w : Nat) : Prop :=
  ∃ row ∈ table, row.Matches w

instance (w : Nat) : Decidable (Listed w) :=
  inferInstanceAs (Decidable (∃ row ∈ table, row.Matches w))

/-- A word of group 0 that ends as `00E0` or `00EE` does, but is neither. -/
def Mistaken (w : Nat) : Prop :=
  w / 4096 = 0 ∧ w / 256 ≠ 0 ∧ (w % 256 = 0xE0 ∨ w % 256 = 0xEE)

/-- The row of an instruction. -/
def row : Instruction → Row
  | .clearScreen => .word 0x00E0
  | .ret => .word 0x00EE
  | .jump _ => .group 0x1
  | .call _ => .group 0x2
  | .skipIf (.eqByte _ _) => .group 0x3
  | .skipIf (.neByte _ _) => .group 0x4
  | .skipIf (.eq _ _) => .group 0x5
  | .load _ _ => .group 0x6
  | .addByte _ _ => .group 0x7
  | .combine alu _ _ => .ends 0x8 alu.code
  | .skipIf (.ne _ _) => .ends 0x9 0x0
  | .setIndex _ => .group 0xA
  | .jumpOffset _ => .group 0xB
  | .random _ _ => .group 0xC
  | .draw _ _ _ => .group 0xD
  | .skipIf (.keyDown _) => .byte 0xE 0x9E
  | .skipIf (.keyUp _) => .byte 0xE 0xA1
  | .readDelay _ => .byte 0xF 0x07
  | .awaitKey _ => .byte 0xF 0x0A
  | .setDelay _ => .byte 0xF 0x15
  | .setSound _ => .byte 0xF 0x18
  | .addIndex _ => .byte 0xF 0x1E
  | .pointGlyph _ => .byte 0xF 0x29
  | .storeDecimal _ => .byte 0xF 0x33
  | .storeRegisters _ => .byte 0xF 0x55
  | .loadRegisters _ => .byte 0xF 0x65

/-- Every instruction has a row of the table. -/
theorem row_mem_table (i : Instruction) : i.row ∈ table := by
  cases i with
  | skipIf test => cases test <;> simp [row, table]
  | combine alu x y => cases alu <;> simp [row, table, Alu.code]
  | _ => simp [row, table]

variable {w : Nat} {i : Instruction}

/-- A word of group 0 with the low byte of a row of that group is the row's, if the rest of it
is 0. -/
theorem eq_or_mistaken {nn : Nat} (hnn : nn = 0xE0 ∨ nn = 0xEE) (hg : w / 4096 = 0)
    (hlow : w % 256 = nn) : w = nn ∨ Mistaken w := by
  by_cases hdigit : w / 256 = 0
  · exact Or.inl (by omega)
  · exact Or.inr ⟨hg, hdigit, by omega⟩

/-- **A word that is decoded matches the row of its instruction, or is mistaken for a word that
does.** -/
theorem matches_row_or_mistaken (hw : w < 65536) (h : (⟨w⟩ : Opcode).Denotes i) :
    i.row.Matches w ∨ Mistaken w := by
  have hbits := bits_ofNat hw
  have hgroup : w / 4096 = (⟨w⟩ : Opcode).group.val := congrArg (· / 4096) hbits.symm
  have hlast : w % 16 = (⟨w⟩ : Opcode).n.val := congrArg (· % 16) hbits.symm
  have hbyte : w % 256 = (⟨w⟩ : Opcode).nn.toNat := by rw [Opcode.toNat_nn, hbits]
  -- only the two rows of group 0 fix a digit that decoding does not look at
  cases i with
  | clearScreen => exact eq_or_mistaken (.inl rfl) (hgroup.trans h.1) (hbyte.trans h.2)
  | ret => exact eq_or_mistaken (.inr rfl) (hgroup.trans h.1) (hbyte.trans h.2)
  | skipIf test =>
    cases test with
    | eqByte | neByte | eq => exact Or.inl (hgroup.trans h.1)
    | ne => exact Or.inl ⟨hgroup.trans h.1, hlast.trans h.2.1⟩
    | keyDown | keyUp => exact Or.inl ⟨hgroup.trans h.1, hbyte.trans h.2.1⟩
  | combine => exact Or.inl ⟨hgroup.trans h.1, hlast.trans h.2.1⟩
  | jump | call | load | addByte | setIndex | jumpOffset | random | draw =>
    exact Or.inl (hgroup.trans h.1)
  | _ => exact Or.inl ⟨hgroup.trans h.1, hbyte.trans h.2.1⟩

/-- Words that are neither listed nor mistaken for listed ones are no instructions. -/
theorem decode?_eq_none (hw : w < 65536) (hlisted : ¬ Listed w) (hmistaken : ¬ Mistaken w) :
    decode? ⟨w⟩ = none := by
  cases hdecode : decode? ⟨w⟩ with
  | none => rfl
  | some i =>
    rcases matches_row_or_mistaken hw (denotes_of_decode? hdecode) with hmatches | hagain
    · exact absurd ⟨i.row, row_mem_table i, hmatches⟩ hlisted
    · exact absurd hagain hmistaken

/-- What a word is mistaken for: `00E0` or `00EE`, by its low byte. -/
theorem decode?_of_mistaken (hw : w < 65536) (h : Mistaken w) :
    decode? ⟨w⟩ = some (if w % 256 = 0xE0 then .clearScreen else .ret) := by
  obtain ⟨hg, -, hnn⟩ := h
  have hbits := bits_ofNat hw
  have hgroup : (⟨w⟩ : Opcode).group.val = 0 := (congrArg (· / 4096) hbits).trans hg
  have hbyte : (⟨w⟩ : Opcode).nn.toNat = w % 256 := by rw [Opcode.toNat_nn, hbits]
  apply decode?_of_denotes
  rcases hnn with hclear | hret
  · rw [if_pos hclear]
    exact ⟨hgroup, hbyte.trans hclear⟩
  · rw [if_neg (by omega)]
    exact ⟨hgroup, hbyte.trans hret⟩

end ChipEight.Instruction
