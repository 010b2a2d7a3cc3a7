import ChipEight.Proofs.Machine.Effect

/-!
# Transfers between registers and memory

`FX55` stores the registers up to `VX` from the index on, `FX65` loads them from there, and `FX33`
stores the decimal digits of one. The index stays where it is, so a load after a store, or a store
after a load, is about the same bytes.

* **`Memory.AgreeOutside`** — two memories that differ at most in some consecutive places.
* **`executeWord_store`**, **`executeWord_load`**, **`executeWord_digits`** — the three as
  equations, with what they leave in memory and in the registers place by place.
* **`store_loaded`** — storing what was just loaded.
* **`registers_transfer`** — store and load undo one another, digits make up the number, and a range
  that does not fit is refused as a whole.
-/

namespace ChipEight

/-- Two memories of the same size have the same bytes but for `length` places from `first` on. -/
structure Memory.AgreeOutside (first length : Nat) (m m' : Memory) : Prop where
  size : m'.size = m.size
  held : m'.bytes.size = m.bytes.size
  outside : ∀ place, place < first ∨ first + length ≤ place → m'.byteAt place = m.byteAt place

/-- Registers that were set to as many values hold these values. -/
theorem Processor.registersUpTo_setRegisters (p : Processor) {x : Fin 16} {values : List UInt8}
    (hlength : values.length = x.val + 1) : (p.setRegisters values).registersUpTo x = values := by
  apply List.ext_getElem?
  intro k
  -- a place among the values is that of a register, and there are no others
  by_cases hk : k < values.length
  · obtain ⟨r, rfl⟩ : ∃ r : Fin 16, r.val = k := ⟨⟨k, by omega⟩, rfl⟩
    have hvalue : ((p.setRegisters values).registersUpTo x)[r.val]? = some _ :=
      (p.setRegisters values).getElem?_registersUpTo (Fin.le_def.mpr (by omega))
    rw [hvalue, register_setRegisters, List.getElem?_eq_getElem hk, Option.getD_some]
  · have hstored := (p.setRegisters values).length_registersUpTo x
    rw [List.getElem?_eq_none (by omega), List.getElem?_eq_none (by omega)]

/-- The digits of a byte are digits, and it is the number that they write. -/
theorem decimalDigits_spec (value : UInt8) :
    (∀ digit ∈ decimalDigits value, digit.toNat ≤ 9) ∧
      100 * (value / 100).toNat + 10 * (value / 10 % 10).toNat + (value % 10).toNat =
        value.toNat := by
  have hvalue := value.toNat_lt
  have hhundreds : (value / 100).toNat = value.toNat / 100 := UInt8.toNat_div value 100
  have htens : (value / 10 % 10).toNat = value.toNat / 10 % 10 := by
    rw [UInt8.toNat_mod, UInt8.toNat_div]
    rfl
  have hunits : (value % 10).toNat = value.toNat % 10 := UInt8.toNat_mod value 10
  -- the digits by division and remainder, in numbers instead of bytes
  constructor
  · intro digit hdigit
    simp only [decimalDigits, List.mem_cons, List.not_mem_nil, or_false] at hdigit
    rcases hdigit with rfl | rfl | rfl <;> omega
  · omega

namespace Machine

variable {m : Machine} {x : Fin 16} {op : Opcode}

/-! ## What is stored at the index -/

theorem WellFormed.withRegisters (h : m.WellFormed) (v : Vector UInt8 16) :
    (m.withRegisters v).WellFormed :=
  ⟨⟨h.processor.index, h.processor.counter, h.processor.depth, h.processor.waiting⟩, h.memory,
    h.screen⟩

theorem storedAtIndex_blockAtIndex (m : Machine) (length : Nat) :
    m.storedAtIndex (m.blockAtIndex length) = m.memory := by
  rw [storedAtIndex, blockAtIndex, Memory.store_block]

/-- A block touches the bytes from the index on, and no more of them than it has. -/
theorem agreeOutside_storedAtIndex (m : Machine) (block : List UInt8) :
    m.memory.AgreeOutside m.processor.i.toNat block.length (m.storedAtIndex block) where
  size := rfl
  held := Memory.size_store _ _ _
  outside _ houtside := Memory.byteAt_store_outside houtside

/-- A block that ends in memory is found there afterwards, byte by byte. -/
theorem byteAt_storedAtIndex (h : m.WellFormed) {block : List UInt8}
    (hfits : m.processor.i + block.length ≤ 4096) {d : Nat} {byte : UInt8}
    (hd : block[d]? = some byte) :
    (m.storedAtIndex block).byteAt (m.processor.i.toNat + d) = byte := by
  obtain ⟨hlength, -⟩ := List.getElem?_eq_some_iff.mp hd
  have hlow := h.processor.index.1
  refine Memory.byteAt_store hd ?_
  rw [h.memory.held, Memory.standardSize]
  omega

/-! ## The three instructions -/

/-- `FX55` puts the registers up to VX from the index on, and leaves the index. -/
theorem executeWord_store (h : m.WellFormed) (hop : op.Denotes (.storeRegisters x))
    (hfits : m.processor.i + (x.val + 1 : Nat) ≤ 4096) :
    executeWord op m =
        .ok .advance { m with memory := m.storedAtIndex (m.processor.registersUpTo x) } ∧
      ∀ r ≤ x, (m.storedAtIndex (m.processor.registersUpTo x)).byteAt
        (m.processor.i.toNat + r.val) = m.register r := by
  refine ⟨executeWord_of_clear h hop (outOfReach_of_fits h hfits), fun r hr => ?_⟩
  refine byteAt_storedAtIndex h ?_ (m.processor.getElem?_registersUpTo hr)
  rwa [m.processor.length_registersUpTo]

/-- `FX65` takes as many bytes into the registers up to VX, and leaves the others. -/
theorem executeWord_load (h : m.WellFormed) (hop : op.Denotes (.loadRegisters x))
    (hfits : m.processor.i + (x.val + 1 : Nat) ≤ 4096) :
    executeWord op m =
        .ok .advance (m.withRegisters (m.processor.setRegisters (m.blockAtIndex (x.val + 1))).v) ∧
      ∀ r, (m.processor.setRegisters (m.blockAtIndex (x.val + 1))).v.get r =
        if r ≤ x then m.memory.byteAt (m.processor.i.toNat + r.val) else m.register r := by
  refine ⟨executeWord_of_clear h hop (outOfReach_of_fits h hfits), fun r => ?_⟩
  have hlow := h.processor.index.1
  have hheld : m.memory.bytes.size = 4096 := h.memory.held
  have hget : (m.processor.setRegisters (m.blockAtIndex (x.val + 1))).v.get r = _ :=
    m.processor.register_setRegisters _ r
  rw [hget]
  -- up to `VX` there is a byte for the register, and past it the block has ended
  by_cases hr : r ≤ x
  · have hplace : r.val < x.val + 1 := Nat.lt_succ_of_le hr
    rw [if_pos hr, blockAtIndex, Memory.getElem?_block hplace, Memory.getElem?_bytes (by omega),
      Option.getD_some]
  · have hlength : (m.blockAtIndex (x.val + 1)).length ≤ x.val + 1 := Memory.length_block_le _ _ _
    have hpast : x.val < r.val := Nat.lt_of_not_le hr
    rw [if_neg hr, List.getElem?_eq_none (by omega), Option.getD_none]
    rfl

/-- `FX33` puts the three digits from the index on. -/
theorem executeWord_digits (h : m.WellFormed) (hop : op.Denotes (.storeDecimal x))
    (hfits : m.processor.i + (3 : Nat) ≤ 4096) :
    executeWord op m =
        .ok .advance { m with memory := m.storedAtIndex (decimalDigits (m.register x)) } ∧
      ∀ d : Nat, ∀ digit, (decimalDigits (m.register x))[d]? = some digit →
        (m.storedAtIndex (decimalDigits (m.register x))).byteAt (m.processor.i.toNat + d) =
          digit := by
  have hdigits : m.processor.i + (decimalDigits (m.register x)).length ≤ 4096 := hfits
  exact ⟨executeWord_of_clear h hop (outOfReach_of_fits h hfits),
    fun _ _ hd => byteAt_storedAtIndex h hdigits hd⟩

/-- Registers that were just loaded are stored over the very same bytes. -/
theorem store_loaded (h : m.WellFormed) (hop : op.Denotes (.storeRegisters x))
    (hfits : m.processor.i + (x.val + 1 : Nat) ≤ 4096) :
    executeWord op
        (m.withRegisters (m.processor.setRegisters (m.blockAtIndex (x.val + 1))).v) =
      .ok .advance
        (m.withRegisters (m.processor.setRegisters (m.blockAtIndex (x.val + 1))).v) := by
  have hlow := h.processor.index.1
  have hlength : (m.blockAtIndex (x.val + 1)).length = x.val + 1 := by
    refine Memory.length_block ?_
    rw [h.memory.held, Memory.standardSize]
    omega
  generalize hloaded : m.processor.setRegisters (m.blockAtIndex (x.val + 1)) = loaded
  have hsame : (m.withRegisters loaded.v).processor.registersUpTo x =
      (m.withRegisters loaded.v).blockAtIndex (x.val + 1) := by
    show loaded.registersUpTo x = m.blockAtIndex (x.val + 1)
    rw [← hloaded, Processor.registersUpTo_setRegisters _ hlength]
  -- the index is still the one that was loaded from, so the block goes back where it stood
  obtain ⟨hrun, -⟩ := executeWord_store (h.withRegisters loaded.v) hop hfits
  rw [hrun, hsame, storedAtIndex_blockAtIndex]

/-! ## Store and load -/

/-- **Store and load undo one another.** Let the registers up to `VX` fit into memory from the index
on. `FX55` puts each of them at its place and changes no other; whatever is then done to the
registers, `FX65` brings them back and leaves the later ones as they are. `FX65` followed by `FX55`
leaves memory as it was, byte for byte. If three bytes fit, `FX33` writes three digits that make up
the number in `VX` and changes no other place. The index stays in every case, and where a range does
not fit nothing changes at all. -/
theorem registers_transfer (h : m.WellFormed) {store load digits : Opcode}
    (hstore : store.Denotes (.storeRegisters x)) (hload : load.Denotes (.loadRegisters x))
    (hdigits : digits.Denotes (.storeDecimal x)) :
    (m.processor.i + x.val + 1 ≤ 4096 →
      (∃ memory, executeWord store m = .ok .advance { m with memory } ∧
        m.memory.AgreeOutside m.processor.i.toNat (x.val + 1) memory ∧
        (∀ r ≤ x, memory.byteAt (m.processor.i.toNat + r.val) = m.register r) ∧
        ∀ v, ∃ restored,
          executeWord load ({ m with memory }.withRegisters v) =
            .ok .advance ({ m with memory }.withRegisters restored) ∧
          ∀ r, restored.get r = if r ≤ x then m.register r else v.get r) ∧
      ∃ loaded, executeWord load m = .ok .advance (m.withRegisters loaded) ∧
        (∀ r, loaded.get r =
          if r ≤ x then m.memory.byteAt (m.processor.i.toNat + r.val) else m.register r) ∧
        executeWord store (m.withRegisters loaded) = .ok .advance (m.withRegisters loaded)) ∧
    (m.processor.i + 3 ≤ 4096 →
      ∃ memory, executeWord digits m = .ok .advance { m with memory } ∧
        m.memory.AgreeOutside m.processor.i.toNat 3 memory ∧
        (∀ d : Nat, d < 3 → (memory.byteAt (m.processor.i.toNat + d)).toNat ≤ 9) ∧
        100 * (memory.byteAt m.processor.i.toNat).toNat +
            10 * (memory.byteAt (m.processor.i.toNat + 1)).toNat +
            (memory.byteAt (m.processor.i.toNat + 2)).toNat = (m.register x).toNat) ∧
    (¬ m.processor.i + x.val + 1 ≤ 4096 →
      executeWord store m = .error (.fault (Memory.outOfRange m.processor.i)) m ∧
        executeWord load m = .error (.fault (Memory.outOfRange m.processor.i)) m) ∧
    (¬ m.processor.i + 3 ≤ 4096 →
      executeWord digits m = .error (.fault (Memory.outOfRange m.processor.i)) m) := by
  refine ⟨fun hfits => ⟨?stored, ?loaded⟩, ?digits, ?refused, ?undigits⟩
  case stored =>
    obtain ⟨hrun, hplaces⟩ := executeWord_store h hstore (by omega)
    have houtside := m.agreeOutside_storedAtIndex (m.processor.registersUpTo x)
    rw [m.processor.length_registersUpTo] at houtside
    refine ⟨_, hrun, houtside, hplaces, fun v => ?_⟩
    have hwell : { m with memory := m.storedAtIndex (m.processor.registersUpTo x) }.WellFormed :=
      ⟨h.processor, h.storedAtIndex _, h.screen⟩
    have hreach : m.processor.i + (x.val + 1 : Nat) ≤ 4096 := by omega
    obtain ⟨hback, hrestored⟩ := executeWord_load (hwell.withRegisters v) hload hreach
    refine ⟨_, hback, fun r => ?_⟩
    -- up to `VX` the bytes read are the registers stored, past it the registers are not touched
    rw [hrestored r]
    by_cases hr : r ≤ x
    · rw [if_pos hr, if_pos hr]
      exact hplaces r hr
    · rw [if_neg hr, if_neg hr]
      rfl
  case loaded =>
    obtain ⟨hrun, hregisters⟩ := executeWord_load h hload (by omega)
    exact ⟨_, hrun, hregisters, store_loaded h hstore (by omega)⟩
  case digits =>
    intro hfits
    obtain ⟨hrun, hplaces⟩ := executeWord_digits h hdigits hfits
    obtain ⟨hsmall, hnumber⟩ := decimalDigits_spec (m.register x)
    refine ⟨_, hrun, m.agreeOutside_storedAtIndex (decimalDigits (m.register x)),
      fun d hd => ?_, ?_⟩
    · have hdigit : (decimalDigits (m.register x))[d]? = some _ :=
        List.getElem?_eq_getElem (l := decimalDigits (m.register x)) hd
      rw [hplaces d _ hdigit]
      exact hsmall _ (List.getElem_mem _)
    · have hhundreds : (m.storedAtIndex (decimalDigits (m.register x))).byteAt
          m.processor.i.toNat = _ := hplaces 0 _ rfl
      rw [hhundreds, hplaces 1 _ rfl, hplaces 2 _ rfl]
      exact hnumber
  case refused =>
    intro hpast
    have hreach : m.outOfReach (x.val + 1) = some _ := outOfReach_of_past_end h (by omega)
    exact ⟨executeWord_of_obstacle h hstore hreach, executeWord_of_obstacle h hload hreach⟩
  case undigits =>
    intro hpast
    exact executeWord_of_obstacle h hdigits (outOfReach_of_past_end h (by omega))

/-- A machine whose index leaves room for two bytes. -/
def nearTheEnd : Machine :=
  { powerOn (Random.ofSeed 0) with
    processor := { Processor.create 512 with v := Vector.replicate 16 7, i := 4094 } }

/-- Two registers fit up to the very last byte, three digits do not. -/
theorem registers_transfer_near_the_end :
    nearTheEnd.WellFormed ∧ (⟨0xF155⟩ : Opcode).Denotes (.storeRegisters 1) ∧
      (⟨0xF165⟩ : Opcode).Denotes (.loadRegisters 1) ∧
      (⟨0xF133⟩ : Opcode).Denotes (.storeDecimal 1) ∧
      (∃ memory restored,
        executeWord ⟨0xF155⟩ nearTheEnd = .ok .advance { nearTheEnd with memory } ∧
        executeWord ⟨0xF165⟩ ({ nearTheEnd with memory }.withRegisters (Vector.replicate 16 9)) =
          .ok .advance ({ nearTheEnd with memory }.withRegisters restored) ∧
        memory.byteAt 4095 = 7 ∧ restored.get 1 = 7 ∧ restored.get 2 = 9) ∧
      executeWord ⟨0xF133⟩ nearTheEnd = .error (.fault (Memory.outOfRange 4094)) nearTheEnd := by
  have hwell : nearTheEnd.WellFormed :=
    ⟨⟨by decide, by decide, by decide, by simp [nearTheEnd, Processor.create]⟩,
      (wellFormed_powerOn (Random.ofSeed 0)).memory, (wellFormed_powerOn (Random.ofSeed 0)).screen⟩
  have hstore : (⟨0xF155⟩ : Opcode).Denotes (.storeRegisters 1) := ⟨by decide, by decide, by decide⟩
  have hload : (⟨0xF165⟩ : Opcode).Denotes (.loadRegisters 1) := ⟨by decide, by decide, by decide⟩
  have hdigits : (⟨0xF133⟩ : Opcode).Denotes (.storeDecimal 1) := ⟨by decide, by decide, by decide⟩
  -- at 4094 two bytes are left: enough for V0 and V1, and one too few for the digits
  obtain ⟨hfit, -, -, hrefused⟩ := registers_transfer hwell hstore hload hdigits
  obtain ⟨⟨memory, hstored, -, hplaces, hback⟩, -⟩ := hfit (by decide)
  obtain ⟨restored, hloaded, hregisters⟩ := hback (Vector.replicate 16 9)
  exact ⟨hwell, hstore, hload, hdigits,
    ⟨memory, restored, hstored, hloaded, hplaces 1 (by decide), hregisters 1, hregisters 2⟩,
    hrefused (by decide)⟩

end Machine

end ChipEight
