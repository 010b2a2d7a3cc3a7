import ChipEight.Memory.Basic

/-!
# Memory access

Every access to a memory is checked before it is made. One equation for each access says what
comes of it: `if` the bytes lie inside the memory its value, `else` the fault that names the first
address.

* **`read_eq`**, **`readWord_eq`**, **`readBlock_eq`**, **`write_eq`**, **`writeBlock_eq`** — the
  accesses.
* **`loadProgram_eq`** — the same for a program image, which is checked by its length.
* **`getElem?_lay`** — a place after the font or an image was laid down.
* **`toList_placeProgram_create`** — a new memory with a program, from its first byte to its last.
-/

namespace ChipEight

namespace Memory

/-- The fault of an access that does not lie inside the memory. -/
def outOfRange (address : Int) : Fault :=
  { cause := .addressOutOfRange address, address }

/-- Every access begins with the check of its range, and goes no further where it fails. The
equations of the accesses follow from this one. -/
theorem checkRange_bind {α : Type} (m : Memory) (address length : Int)
    (next : Unit → Except Fault α) :
    (m.checkRange address length >>= next) =
      if m.InRange address length then next () else .error (outOfRange address) := by
  unfold checkRange
  split <;> rfl

theorem read_eq (m : Memory) (address : Int) :
    m.read address =
      if m.InRange address 1 then .ok (m.byteAt address.toNat)
      else .error (outOfRange address) :=
  checkRange_bind m address 1 _

theorem readWord_eq (m : Memory) (address : Int) :
    m.readWord address =
      if m.InRange address 2 then
        .ok (256 * (m.byteAt address.toNat).toNat + (m.byteAt (address.toNat + 1)).toNat)
      else .error (outOfRange address) :=
  checkRange_bind m address 2 _

/-- A block is cut out of memory as slices are: where memory is shorter than its size says, fewer
bytes come. -/
theorem readBlock_eq (m : Memory) (address length : Int) :
    m.readBlock address length =
      if m.InRange address length then
        .ok (m.bytes.extract (Position.cut m.bytes.size address)
          (Position.cut m.bytes.size (address + length))).toList
      else .error (outOfRange address) :=
  checkRange_bind m address length _

/-- A byte outside the range is not written, and one in range takes the place of the old one. -/
theorem write_eq (m : Memory) (address : Int) (value : UInt8) :
    m.write address value =
      if m.InRange address 1 then
        .ok { m with bytes := m.bytes.setIfInBounds address.toNat value }
      else .error (outOfRange address) :=
  checkRange_bind m address 1 _

/-- A block is written as a whole or refused as a whole. -/
theorem writeBlock_eq (m : Memory) (address : Int) (block : List UInt8) :
    m.writeBlock address block =
      if m.InRange address block.length then
        .ok { m with bytes := store m.bytes address.toNat block }
      else .error (outOfRange address) :=
  checkRange_bind m address block.length _

/-- A program is measured against the limit and not against the memory it goes to. -/
theorem loadProgram_eq (m : Memory) (image : List UInt8) :
    m.loadProgram image =
      if programLimit < image.length then
        .error { cause := .programTooLarge image.length programLimit, address := programStart }
      else .ok (m.placeProgram image) := by
  unfold loadProgram checkProgram
  split <;> rfl

/-- Two bytes make a 16-bit word. -/
theorem readWord_lt {m : Memory} {address : Int} {word : Nat}
    (h : m.readWord address = .ok word) : word < 65536 := by
  rw [readWord_eq] at h
  split at h
  · cases h
    have hhigh := (m.byteAt address.toNat).toNat_lt
    have hlow := (m.byteAt (address.toNat + 1)).toNat_lt
    omega
  · cases h

/-! ## The font and programs -/

/-- What is laid down from a place inside on holds there, and what was there before holds
elsewhere. -/
theorem getElem?_lay {bytes : Array UInt8} {start : Nat} {block : List UInt8}
    (h : start ≤ bytes.size) (k : Nat) :
    (lay bytes start block)[k]? =
      if start ≤ k ∧ k < start + block.length then block[k - start]? else bytes[k]? := by
  have hbefore : (bytes.extract 0 start).size = start := by
    rw [Array.size_extract]
    omega
  have hblock : block.toArray.size = block.length := List.size_toArray
  -- the place lies in one of the three pieces that are laid end to end
  unfold lay
  rw [Array.append_assoc]
  by_cases hfirst : k < start
  · rw [if_neg (by omega), Array.getElem?_append_left (by omega), Array.getElem?_extract,
      if_pos (by omega), Nat.zero_add]
  rw [Array.getElem?_append_right (by omega), hbefore]
  by_cases hsecond : k < start + block.length
  · rw [if_pos ⟨by omega, hsecond⟩, Array.getElem?_append_left (by omega), List.getElem?_toArray]
  · have hplace : start + block.length + (k - start - block.length) = k := by omega
    rw [if_neg (by omega), Array.getElem?_append_right (by omega), hblock, Array.getElem?_extract,
      hplace]
    by_cases hheld : k < bytes.size
    · rw [if_pos (by omega)]
    · rw [if_neg (by omega), Array.getElem?_eq_none (by omega)]

/-- A program image stands from the start of programs on. -/
theorem byteAt_placeProgram {m : Memory} {image : List UInt8} (h : programStart ≤ m.bytes.size)
    {k : Nat} (hk : k < image.length) :
    (m.placeProgram image).byteAt (programStart + k) = image[k] := by
  have hplace : programStart + k - programStart = k := by omega
  rw [byteAt, placeProgram, Array.getD_eq_getD_getElem?, getElem?_lay h,
    if_pos ⟨by omega, by omega⟩, hplace, List.getElem?_eq_getElem hk, Option.getD_some]

/-- A word of a program image, by its place in the image. -/
theorem readWord_placeProgram {m : Memory} {image : List UInt8} {k : Nat} {high low : UInt8}
    (hhigh : image[k]? = some high) (hlow : image[k + 1]? = some low)
    (hheld : programStart ≤ m.bytes.size) (hsize : programStart + k + 2 ≤ m.size) :
    (m.placeProgram image).readWord (programStart + k : Nat) =
      .ok (256 * high.toNat + low.toNat) := by
  have hr : (m.placeProgram image).InRange (programStart + k : Nat) 2 := by
    show 0 ≤ ((programStart + k : Nat) : Int) ∧ ((programStart + k : Nat) : Int) + 2 ≤ m.size
    omega
  obtain ⟨hk, rfl⟩ := List.getElem?_eq_some_iff.mp hhigh
  obtain ⟨hk', rfl⟩ := List.getElem?_eq_some_iff.mp hlow
  rw [readWord_eq, if_pos hr, Int.toNat_natCast, byteAt_placeProgram hheld hk, Nat.add_assoc,
    byteAt_placeProgram hheld hk']

/-! ## From the first byte to the last -/

/-- What is laid down stands between what was before its place and what was after its end. -/
theorem toList_lay (bytes : Array UInt8) (start : Nat) (block : List UInt8) :
    (lay bytes start block).toList =
      bytes.toList.take start ++ block ++ bytes.toList.drop (start + block.length) := by
  have hafter : (bytes.extract (start + block.length) bytes.size).toList =
      bytes.toList.drop (start + block.length) := by
    rw [Array.toList_extract, List.extract_eq_take_drop, ← Array.length_toList,
      ← List.length_drop, List.take_length]
  rw [lay, Array.toList_append, Array.toList_append, hafter, Array.toList_extract,
    List.extract_eq_take_drop, Nat.sub_zero, List.drop_zero]

/-- A new memory holds the font and zeros. -/
theorem toList_create (size : Nat) :
    (create size).bytes.toList = Font.bytes ++ List.replicate (size - 80) 0 := by
  have hfont : Font.bytes.length = 80 := Font.length_bytes
  rw [create, installFont, toList_lay, List.take_zero, List.nil_append, Nat.zero_add, hfont, blank,
    Array.toList_replicate, List.drop_replicate]

/-- A new memory with a program holds the font, zeros up to the program, the program, and zeros up
to the end. -/
theorem toList_placeProgram_create (image : List UInt8) :
    ((create standardSize).placeProgram image).bytes.toList =
      Font.bytes ++ List.replicate (0x200 - 80) 0 ++ image ++
        List.replicate (0x1000 - (0x200 + image.length)) 0 := by
  have hfont : Font.bytes.length = 80 := Font.length_bytes
  have hafter : 0x1000 - 80 - (0x200 + image.length - 80) = 0x1000 - (0x200 + image.length) := by
    omega
  have hbefore : min (0x200 - 80) (0x1000 - 80) = 0x200 - 80 := by decide
  rw [placeProgram, toList_lay, toList_create, programStart, standardSize]
  -- the font ends before programs begin, so both cuts fall among the zeros
  rw [List.take_append, List.drop_append, hfont, List.take_of_length_le (by rw [hfont]; decide),
    List.drop_eq_nil_of_le (by rw [hfont]; omega), List.take_replicate, List.drop_replicate, hafter,
    hbefore, List.nil_append]

/-- The bytes that a memory begins with, one by one. -/
theorem byteAt_of_toList {m : Memory} {front rest : List UInt8}
    (h : m.bytes.toList = front ++ rest) {k : Nat} (hk : k < front.length) :
    m.byteAt k = front[k] := by
  rw [byteAt, Array.getD_eq_getD_getElem?, ← Array.getElem?_toList, h,
    List.getElem?_append_left hk, List.getElem?_eq_getElem hk, Option.getD_some]

theorem byteAt_create (size : Nat) {k : Nat} (hk : k < Font.bytes.length) :
    (create size).byteAt k = Font.bytes[k] :=
  byteAt_of_toList (toList_create size) hk

end Memory

end ChipEight
