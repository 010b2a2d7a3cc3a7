import ChipEight.Proofs.Machine.Effect
import ChipEight.Proofs.Screen.Counting

/-!
# Drawing by an instruction

`DXYN` draws a sprite of at most fifteen rows on a screen of thirty-two, so the sprite never lies on
itself: the flag says exactly whether pixels were erased, and with the number of lit pixels one can
tell how many.

* **`blockAtIndex_eq`** — the sprite is what memory holds from the index on, row by row.
* **`draw_eq_effect`** — the instruction draws where its two registers said before it.
* **`flag_effect_draw`** — and leaves in the flag whether it collided.
* **`draw_counts_erased`** — the pixels lit and erased, the flag, and where pixels have changed.
-/

namespace ChipEight.Machine

variable {m : Machine} {x y rows : Fin 16}

/-- The number of bits set in the bytes from the index on. -/
def bitsAtIndex (m : Machine) (length : Nat) : Nat :=
  Sprite.setBits ((List.range length).map fun k => m.memory.byteAt (m.processor.i.toNat + k))

/-- The sprite of an instruction, byte by byte. A block is cut short at the end of memory, so this
needs all of its rows to lie in memory. -/
theorem blockAtIndex_eq (h : m.WellFormed) {length : Nat} (hreach : m.processor.i + length ≤ 4096) :
    m.blockAtIndex length = (List.range length).map fun k =>
      m.memory.byteAt (m.processor.i.toNat + k) := by
  have hlow := h.processor.index.1
  refine Memory.block_eq_map ?_
  rw [h.memory.held, Memory.standardSize]
  omega

/-- The screen afterwards is the screen before with the sprite drawn at the registers' places. -/
theorem draw_eq_effect (h : m.WellFormed) (x y rows : Fin 16) :
    m.screen.draw (m.register x).toNat (m.register y).toNat (m.blockAtIndex rows.val) =
      .ok ((m.drawn x y rows).2, (m.effect (.draw x y rows)).screen) :=
  h.screen.framed.draw_eq _ _ _

/-- The flag is set last, so it tells the collision also where one of the two registers named is the
flag itself. -/
theorem flag_effect_draw (m : Machine) (x y rows : Fin 16) :
    (m.effect (.draw x y rows)).register Processor.flag =
      if (m.drawn x y rows).2 then 1 else 0 := by
  show (m.processor.setRegister Processor.flag _).register Processor.flag = _
  rw [Processor.register_setRegister, if_pos rfl]

/-- On a machine's screen a sprite of an instruction never lies on itself, wherever it is drawn. -/
theorem nodup_targets_blockAtIndex (h : m.WellFormed) (rows : Fin 16) (px py : Int) :
    (m.screen.targets px py (m.blockAtIndex rows.val)).Nodup := by
  have hlength := m.memory.length_block_le m.processor.i.toNat rows.val
  refine h.screen.framed.nodup_targets ?_ ?_ px py
  · rw [h.screen.width]
    decide
  · rw [h.screen.height, Screen.standardHeight, blockAtIndex]
    omega

/-- **The flag of a drawing counts erased pixels exactly.** On a well-formed machine any `DXYN`
whose sprite lies in memory completes. Its registers, which may be one and the same and may be the
flag register, say where it draws by what they held before. The lit pixels become as many more as
bits are set in the sprite, less twice the pixels erased; the flag is 1 if a pixel was erased and 0
otherwise, so it is 0 exactly if every bit set lit a pixel. Only pixels in the sprite's rows and
columns, wrapped around the screen, have changed. -/
theorem draw_counts_erased (h : m.WellFormed) {op : Opcode} (hop : op.Denotes (.draw x y rows))
    (hreach : m.processor.i + rows.val ≤ 4096) :
    ∃ m', executeWord op m = .ok .advance m' ∧
      (m'.screen.litCount : Int) = m.screen.litCount + m.bitsAtIndex rows.val -
        2 * m.screen.erasedCount m'.screen ∧
      m'.register Processor.flag = (if 0 < m.screen.erasedCount m'.screen then 1 else 0) ∧
      (m'.register Processor.flag = 0 ↔
        m'.screen.litCount = m.screen.litCount + m.bitsAtIndex rows.val) ∧
      (∃ collided, m.screen.draw (m.register x).toNat (m.register y).toNat
        (m.blockAtIndex rows.val) = .ok (collided, m'.screen)) ∧
      ∀ px py, m.screen.Has px py → m'.screen.pixel px py ≠ m.screen.pixel px py →
        ∃ row column : Nat, row < rows.val ∧ column < 8 ∧
          px = ((m.register x).toNat % 64 + column) % 64 ∧
          py = ((m.register y).toNat % 32 + row) % 32 := by
  have hframed := h.screen.framed
  have hd := draw_eq_effect h x y rows
  have hnodup := nodup_targets_blockAtIndex h rows (m.register x).toNat (m.register y).toNat
  have hclear : m.obstacle? (.draw x y rows) = none :=
    outOfReach_of_fits h hreach
  -- from here on the counts of the screen are all that is needed
  have hcount := hframed.litCount_draw hnodup hd
  rw [blockAtIndex_eq h hreach, ← bitsAtIndex] at hcount
  have hflag : (m.effect (.draw x y rows)).register Processor.flag =
      if 0 < m.screen.erasedCount (m.effect (.draw x y rows)).screen then 1 else 0 := by
    rw [flag_effect_draw]
    simp only [hframed.collided_iff_erased hnodup hd]
  refine ⟨_, executeWord_of_clear h hop hclear, by omega, hflag, ?unerased, ⟨_, hd⟩, ?changed⟩
  case unerased =>
    rw [hflag]
    by_cases herased : 0 < m.screen.erasedCount (m.effect (.draw x y rows)).screen
    · -- where something was erased there are fewer lit pixels than bits were added
      rw [if_pos herased]
      exact iff_of_false (by decide) (by omega)
    · rw [if_neg herased]
      exact iff_of_true rfl (by omega)
  case changed =>
    intro px py hplace hchanged
    -- a place that has changed lies under a cell of the sprite
    obtain ⟨row, hrow, column, hcolumn, hpx, hpy⟩ :=
      hframed.exists_cell_of_changed hd hplace hchanged
    have hlength := m.memory.length_block_le m.processor.i.toNat rows.val
    rw [h.screen.width, Screen.standardWidth, Int.fmod_eq_emod_of_nonneg _ (by decide)] at hpx
    rw [h.screen.height, Screen.standardHeight, Int.fmod_eq_emod_of_nonneg _ (by decide)] at hpy
    exact ⟨row, column, Nat.lt_of_lt_of_le hrow hlength, hcolumn, by omega, by omega⟩

/-! ## A digit over a bar -/

/-- A sprite of one row, whose left half is lit. -/
def bar : Sprite :=
  [0xF0]

/-- The first digit of the font, which is where the index points at power-on. -/
def digit : Sprite :=
  [0xF0, 0x90, 0x90, 0x90, 0xF0]

/-- A new machine on whose screen the host has drawn the bar. -/
def barDrawn : Machine :=
  { powerOn (Random.ofSeed 0) with
    screen := (Screen.Command.draw 0 0 bar).run.after (powerOn (Random.ofSeed 0)).screen }

theorem draw_bar : ∃ collided,
    (powerOn (Random.ofSeed 0)).screen.draw 0 0 bar = .ok (collided, barDrawn.screen) := by
  have hd := (wellFormed_powerOn (Random.ofSeed 0)).screen.framed.draw_eq 0 0 bar
  simp only [barDrawn, Screen.Command.run, Action.after, Screen.drawing, hd]
  exact ⟨_, rfl⟩

theorem wellFormed_barDrawn : barDrawn.WellFormed := by
  have h := wellFormed_powerOn (Random.ofSeed 0)
  obtain ⟨collided, hbar⟩ := draw_bar
  exact ⟨h.processor, h.memory, h.screen.draw hbar⟩

/-- The font is read from memory through its list of bytes, which evaluates where a whole memory
would not. -/
theorem blockAtIndex_barDrawn : barDrawn.blockAtIndex digit.length = digit := by
  have hfont : ∀ k ∈ List.range digit.length,
      barDrawn.memory.byteAt (0 + k) = Memory.Font.bytes.getD k 0 := by
    intro k hk
    have hlength : k < Memory.Font.bytes.length :=
      Nat.lt_trans (List.mem_range.mp hk) (by decide)
    rw [Nat.zero_add, List.getD_eq_getElem?_getD, List.getElem?_eq_getElem hlength]
    exact Memory.byteAt_create _ hlength
  rw [blockAtIndex_eq wellFormed_barDrawn (by decide)]
  show ((List.range digit.length).map fun k => Memory.byteAt _ (0 + k)) = digit
  rw [List.map_congr_left hfont]
  decide

/-- The pixels under the bar are the lit ones. -/
theorem getD_barDrawn (k : Nat) :
    barDrawn.screen.pixels.getD k false = decide ((k : Int) ∈ [0, 1, 2, 3]) := by
  have hblank := (wellFormed_powerOn (Random.ofSeed 0)).screen.framed
  obtain ⟨collided, hbar⟩ := draw_bar
  have hunlit : (powerOn (Random.ofSeed 0)).screen.pixels.getD k false = false :=
    Screen.getD_create _ _ k
  have hplaces : (powerOn (Random.ofSeed 0)).screen.targets 0 0 bar = [0, 1, 2, 3] := by decide
  rw [hblank.getD_draw_of_nodup (hplaces ▸ by decide) hbar, hunlit, hplaces, Bool.false_xor]

/-- The cells that the digit at the upper left lights or erases, row by row. -/
theorem targets_digit : barDrawn.screen.targets 0 0 digit =
    [0, 1, 2, 3, 64, 67, 128, 131, 192, 195, 256, 257, 258, 259] := by
  have h := wellFormed_barDrawn.screen
  rw [Screen.targets_congr (s := (powerOn (Random.ofSeed 0)).screen) h.width h.height]
  decide

/-- The digit covers the bar: of its fourteen cells four come to lie on lit pixels, and erase them.
Both coordinates come from the flag register here. -/
theorem draw_counts_erased_digit :
    barDrawn.WellFormed ∧ (⟨0xDFF5⟩ : Opcode).Denotes (.draw 15 15 5) ∧
      barDrawn.processor.i + (5 : Fin 16).val ≤ 4096 ∧
      ∃ m', executeWord ⟨0xDFF5⟩ barDrawn = .ok .advance m' ∧
        barDrawn.screen.litCount = 4 ∧ barDrawn.screen.erasedCount m'.screen = 4 ∧
        m'.screen.litCount = 10 ∧ m'.register Processor.flag = 1 := by
  have hop : (⟨0xDFF5⟩ : Opcode).Denotes (.draw 15 15 5) :=
    ⟨by decide, by decide, by decide, by decide⟩
  obtain ⟨m', hrun, hcount, hflag, -, ⟨collided, hd⟩, -⟩ :=
    draw_counts_erased wellFormed_barDrawn hop (by decide)
  have hframed := wellFormed_barDrawn.screen.framed
  have hsize : barDrawn.screen.pixels.size = 2048 := by
    rw [hframed.pixels, wellFormed_barDrawn.screen.width, wellFormed_barDrawn.screen.height]
    rfl
  -- the pixels are known one by one, so they are counted by their numbers
  have hlit : barDrawn.screen.litCount = 4 := by
    rw [Screen.litCount_eq_countP, hsize]
    simp only [getD_barDrawn]
    decide +kernel
  have hdigit : barDrawn.screen.draw 0 0 digit = .ok (collided, m'.screen) :=
    blockAtIndex_barDrawn ▸ hd
  have herased : barDrawn.screen.erasedCount m'.screen = 4 := by
    rw [hframed.erasedCount_eq (targets_digit ▸ by decide) hdigit, hsize, targets_digit]
    simp only [getD_barDrawn]
    decide +kernel
  have hbits : barDrawn.bitsAtIndex (5 : Fin 16).val = 14 := by
    rw [bitsAtIndex, ← blockAtIndex_eq wellFormed_barDrawn (by decide)]
    exact (congrArg Sprite.setBits blockAtIndex_barDrawn).trans (by decide)
  -- four were lit, fourteen bits came and four were erased: ten are left
  rw [hlit, herased, hbits] at hcount
  rw [herased] at hflag
  exact ⟨wellFormed_barDrawn, hop, by decide, m', hrun, hlit, herased, by omega, hflag⟩

end ChipEight.Machine
