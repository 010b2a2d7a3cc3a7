import ChipEight.Proofs.Memory.Access

/-!
# Blocks of memory

A block is a run of bytes from a place on. Where all of its bytes are held, reading a block gives
what stands there byte by byte, storing one replaces as many bytes as it has, and the two undo each
other.

* **`Covered`** — every address inside the nominal size has a byte.
* **`Covered.readBlock_eq`** — then no end of a block that is read is counted from the end.
* **`byteAt_store`**, **`byteAt_store_ne`** — a place after a block was stored.
* **`store_eq_lay`** — storing lays a block over the bytes held, where there are as many.
* **`store_block`** — a block that is read and stored where it was read.
-/

namespace ChipEight.Memory

/-- Every address inside the nominal size has a byte. -/
def Covered (m : Memory) : Prop :=
  m.size ≤ m.bytes.size

/-- The bytes held from a place on. -/
def block (m : Memory) (start length : Nat) : List UInt8 :=
  (m.bytes.extract start (start + length)).toList

variable {m : Memory} {start length : Nat}

/-- A block that begins near the end of memory may come out shorter than asked for. -/
theorem length_block_le (m : Memory) (start length : Nat) :
    (m.block start length).length ≤ length := by
  rw [block, Array.length_toList, Array.size_extract]
  omega

theorem length_block (hheld : start + length ≤ m.bytes.size) :
    (m.block start length).length = length := by
  rw [block, Array.length_toList, Array.size_extract]
  omega

theorem getElem?_block {k : Nat} (hk : k < length) :
    (m.block start length)[k]? = m.bytes[start + k]? := by
  rw [block, Array.getElem?_toList, Array.getElem?_extract]
  by_cases hheld : start + k < m.bytes.size
  · rw [if_pos (by omega)]
  · rw [if_neg (by omega), Array.getElem?_eq_none (by omega)]

theorem getD_block {k : Nat} (hk : k < length) :
    (m.block start length).getD k 0 = m.byteAt (start + k) := by
  rw [List.getD_eq_getElem?_getD, getElem?_block hk, byteAt, Array.getD_eq_getD_getElem?]

/-- A place that is held has the byte that is read there. -/
theorem getElem?_bytes {k : Nat} (hk : k < m.bytes.size) : m.bytes[k]? = some (m.byteAt k) := by
  rw [byteAt, Array.getD_eq_getD_getElem?, Array.getElem?_eq_getElem hk, Option.getD_some]

theorem block_eq_map (hheld : start + length ≤ m.bytes.size) :
    m.block start length = (List.range length).map fun k => m.byteAt (start + k) := by
  apply List.ext_getElem?
  intro k
  by_cases hk : k < length
  · rw [getElem?_block hk, List.getElem?_map, List.getElem?_range hk, Option.map_some,
      getElem?_bytes (by omega)]
  · have hlength := m.length_block_le start length
    have hrange : ((List.range length).map fun k => m.byteAt (start + k)).length = length := by
      rw [List.length_map, List.length_range]
    rw [List.getElem?_eq_none (by omega), List.getElem?_eq_none (by omega)]

/-- The first bytes of a memory are a list if they are so one by one. -/
theorem block_eq_of_byteAt {bytes : List UInt8} (hheld : bytes.length ≤ m.bytes.size)
    (h : ∀ k (hk : k < bytes.length), m.byteAt k = bytes[k]) : m.block 0 bytes.length = bytes := by
  rw [block_eq_map (by omega)]
  apply List.ext_getElem
  · rw [List.length_map, List.length_range]
  · intro k _ hk
    rw [List.getElem_map, List.getElem_range, Nat.zero_add, h k hk]

/-- Inside a covered memory, a block that is read is what stands there. -/
theorem Covered.readBlock_eq (h : m.Covered) {address : Int} (hr : m.InRange address length) :
    m.readBlock address length = .ok (m.block address.toNat length) := by
  obtain ⟨hlow, hhigh⟩ := hr
  unfold Covered at h
  -- both ends lie between 0 and the number of bytes held, so neither is counted from the end
  have hstart : Position.cut m.bytes.size address = address.toNat :=
    Position.cut_of_mem (by omega)
  have hend : Position.cut m.bytes.size (address + length) = address.toNat + length := by
    rw [Position.cut_of_mem (by omega)]
    omega
  rw [Memory.readBlock_eq, if_pos ⟨hlow, hhigh⟩, hstart, hend]
  rfl

/-! ## Storing a block -/

section Store

variable {values : List UInt8}

/-- A place that was stored to holds the stored byte. -/
theorem byteAt_store {d : Nat} {byte : UInt8} (hd : values[d]? = some byte)
    (hheld : start + d < m.bytes.size) :
    ({ m with bytes := store m.bytes start values } : Memory).byteAt (start + d) = byte := by
  obtain ⟨hlength, -⟩ := List.getElem?_eq_some_iff.mp hd
  have hstored : start ≤ start + d ∧ start + d < start + values.length ∧ start + d < m.bytes.size :=
    ⟨by omega, by omega, hheld⟩
  have hplace : start + d - start = d := by omega
  rw [byteAt, Array.getD_eq_getD_getElem?, getElem?_store, if_pos hstored, hplace, hd,
    Option.getD_some]

/-- A byte that has changed lies where something was stored. -/
theorem byteAt_store_ne {k : Nat}
    (hne : ({ m with bytes := store m.bytes start values } : Memory).byteAt k ≠ m.byteAt k) :
    start ≤ k ∧ k < start + values.length := by
  refine Decidable.byContradiction fun houtside => hne ?_
  have hheld : ¬ (start ≤ k ∧ k < start + values.length ∧ k < m.bytes.size) := fun hk =>
    houtside ⟨hk.1, hk.2.1⟩
  simp only [byteAt, Array.getD_eq_getD_getElem?, getElem?_store, if_neg hheld]

/-- A place outside the block that was stored is as before. -/
theorem byteAt_store_outside {k : Nat} (houtside : k < start ∨ start + values.length ≤ k) :
    ({ m with bytes := store m.bytes start values } : Memory).byteAt k = m.byteAt k := by
  refine Decidable.byContradiction fun hne => ?_
  obtain ⟨hfirst, hlast⟩ := byteAt_store_ne hne
  omega

/-- Storing lays a block over the bytes held, where there are as many as the block has. -/
theorem store_eq_lay {bytes : Array UInt8} (hheld : start + values.length ≤ bytes.size) :
    store bytes start values = lay bytes start values := by
  apply Array.ext_getElem?
  intro k
  rw [getElem?_store, getElem?_lay (by omega)]
  by_cases hk : start ≤ k ∧ k < start + values.length
  · rw [if_pos ⟨hk.1, hk.2, by omega⟩, if_pos hk]
  · rw [if_neg fun hin => hk ⟨hin.1, hin.2.1⟩, if_neg hk]

end Store

/-- Storing what stands at a place changes nothing. -/
theorem store_block (m : Memory) (start length : Nat) :
    store m.bytes start (m.block start length) = m.bytes := by
  have hlength := m.length_block_le start length
  apply Array.ext_getElem?
  intro k
  rw [getElem?_store]
  by_cases hk : start ≤ k ∧ k < start + (m.block start length).length ∧ k < m.bytes.size
  · have hplace : start + (k - start) = k := by omega
    rw [if_pos hk, getElem?_block (by omega), hplace]
  · rw [if_neg hk]

end ChipEight.Memory
