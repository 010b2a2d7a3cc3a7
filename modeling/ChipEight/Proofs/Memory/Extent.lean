import ChipEight.Memory.Command
import ChipEight.Proofs.Action
import ChipEight.Proofs.Memory.Block

/-!
# The extent of a memory

Accesses are checked against the nominal size alone, while the font and program images are laid down
unchecked and may lengthen what is held. So size and number of bytes drift apart: a memory smaller
than the font holds the font, and one that ends before programs begin grows by every program it is
given. They drift one way only, which is why the check is enough.

* **`Extent`** — a memory's nominal size, and how the number of its bytes relates to it.
* **`Extent.laid`** — whatever is laid down keeps it. **`Extent.keeps_run`**, **`Extent.afterAll`**
  — so does a request, and any number of requests.
* **`Backed`** — every access inside the nominal size is made to bytes that are held.
* **`bounds_checks_suffice`** — a memory that has come about by any requests is backed, and one with
  room for programs holds exactly the bytes of its size.
-/

namespace ChipEight.Memory

/-- The memory after a list of requests, refused ones among them. -/
def afterAll (m : Memory) (requests : List Command) : Memory :=
  Action.afterEach Command.run requests m

/-- A memory comes about from a new one of some size by requests. -/
def Reachable (m : Memory) : Prop :=
  ∃ size requests, m = (create size).afterAll requests

variable {m m' : Memory} {n : Nat}

/-! ## How many bytes are held -/

/-- A memory of nominal size `n` holds at least `n` bytes, and no more where the font and every
program image have room. -/
structure Extent (n : Nat) (m : Memory) : Prop where
  size : m.size = n
  covered : m.Covered
  exact : standardSize ≤ n → m.bytes.size = n

/-- Laying a block over memory can lengthen it and never shortens it. -/
theorem le_size_lay (bytes : Array UInt8) (start : Nat) (block : List UInt8) :
    bytes.size ≤ (lay bytes start block).size := by
  rw [size_lay]
  omega

theorem size_lay_of_room {bytes : Array UInt8} {start : Nat} {block : List UInt8}
    (hroom : start + block.length ≤ bytes.size) : (lay bytes start block).size = bytes.size := by
  rw [size_lay]
  omega

namespace Extent

/-- What is laid down never shortens a memory, and lengthens none with room for it. -/
theorem laid (h : Extent n m) {start : Nat} {block : List UInt8}
    (hroom : start + block.length ≤ standardSize) :
    Extent n { m with bytes := lay m.bytes start block } where
  size := h.size
  covered := Nat.le_trans h.covered (le_size_lay m.bytes start block)
  exact hn := by
    have hheld := h.exact hn
    show (lay m.bytes start block).size = n
    rw [size_lay_of_room (by omega), hheld]

theorem installFont (h : Extent n m) : Extent n m.installFont :=
  h.laid (by decide)

/-- A new memory holds as many bytes as its size says, or the font where that is longer. -/
theorem create (n : Nat) : Extent n (create n) := by
  have hblank : Extent n (blank n) := by
    have hheld : (blank n).bytes.size = n := Array.size_replicate
    exact ⟨rfl, Nat.le_of_eq hheld.symm, fun _ => hheld⟩
  exact hblank.installFont

/-- A write replaces as many bytes as it has. -/
theorem stored (h : Extent n m) {bytes : Array UInt8} (hsize : bytes.size = m.bytes.size) :
    Extent n { m with bytes } where
  size := h.size
  covered := Nat.le_trans h.covered (Nat.le_of_eq hsize.symm)
  exact hn := hsize.trans (h.exact hn)

theorem write (h : Extent n m) {address : Int} {value : UInt8}
    (hw : m.write address value = .ok m') : Extent n m' := by
  rw [write_eq] at hw
  split at hw
  · cases hw
    exact h.stored Array.size_setIfInBounds
  · cases hw

/-- A block was in range, so there was room for it. -/
theorem writeBlock (h : Extent n m) {address : Int} {block : List UInt8}
    (hw : m.writeBlock address block = .ok m') : Extent n m' := by
  rw [writeBlock_eq] at hw
  split at hw
  · cases hw
    exact h.stored (size_store _ _ _)
  · cases hw

/-- A program image within the limit ends where a memory of standard size does, at the latest. -/
theorem placeProgram (h : Extent n m) {image : List UInt8} (hfit : ¬ programLimit < image.length) :
    Extent n (m.placeProgram image) := by
  refine h.laid ?_
  simp only [programLimit, programStart, standardSize] at *
  omega

/-- A program may make a small memory grow, but never makes one shrink. -/
theorem loadProgram (h : Extent n m) {image : List UInt8} (hl : m.loadProgram image = .ok m') :
    Extent n m' := by
  rw [loadProgram_eq] at hl
  split at hl
  · cases hl
  · cases hl
    exact h.placeProgram ‹_›

/-- A reset makes a memory anew from its nominal size, and so forgets how far it has grown. -/
theorem reset (h : Extent n m) : Extent n m.reset := by
  rw [Memory.reset, h.size]
  exact create n

theorem keeps_run (n : Nat) (c : Command) : c.run.Keeps (Extent n) := by
  -- the two checked writes replace bytes, and the others lay something down or only read
  cases c with
  | write address value =>
    exact Action.keeps_checked fun m m' h hw => h.write (Error.ofFault_eq_ok_iff.mp hw)
  | writeBlock address values =>
    exact Action.keeps_checked fun m m' h hw => h.writeBlock (Error.ofFault_eq_ok_iff.mp hw)
  | installFont => exact Action.keeps_always fun m h => h.installFont
  | loadProgram image =>
    exact Action.keeps_checked fun m m' h hl => h.loadProgram (Error.ofFault_eq_ok_iff.mp hl)
  | reset => exact Action.keeps_always fun m h => h.reset
  | snapshot => exact Action.keeps_answer _ _
  | _ => exact Action.keeps_reading _ _

theorem afterAll (h : Extent n m) (requests : List Command) : Extent n (m.afterAll requests) :=
  Action.Keeps.afterEach (fun c _ => keeps_run n c) h

end Extent

/-! ## Accesses to bytes that are held -/

/-- Every access inside the nominal size is made to bytes that are held: none is read that is not
there, a block that is read has all of its bytes, and what is written takes the place of as many
bytes. -/
structure Backed (m : Memory) : Prop where
  read : ∀ address, m.InRange address 1 →
    ∃ byte, m.bytes[address.toNat]? = some byte ∧ m.read address = .ok byte
  readWord : ∀ address, m.InRange address 2 →
    ∃ high low, m.bytes[address.toNat]? = some high ∧ m.bytes[address.toNat + 1]? = some low ∧
      m.readWord address = .ok (256 * high.toNat + low.toNat)
  readBlock : ∀ address (length : Nat), m.InRange address length →
    ∃ block, m.readBlock address length = .ok block ∧ block.length = length ∧
      ∀ k < length, ∃ byte, m.bytes[address.toNat + k]? = some byte ∧ block[k]? = some byte
  write : ∀ address value, m.InRange address 1 →
    address.toNat + 1 ≤ m.bytes.size ∧
      m.write address value = .ok { m with bytes := lay m.bytes address.toNat [value] } ∧
      (lay m.bytes address.toNat [value]).size = m.bytes.size
  writeBlock : ∀ address (block : List UInt8), m.InRange address block.length →
    address.toNat + block.length ≤ m.bytes.size ∧
      m.writeBlock address block = .ok { m with bytes := lay m.bytes address.toNat block } ∧
      (lay m.bytes address.toNat block).size = m.bytes.size

/-- A byte is written as a block of one. -/
theorem write_eq_writeBlock (m : Memory) (address : Int) (value : UInt8) :
    m.write address value = m.writeBlock address [value] :=
  rfl

namespace Covered

/-- So a range that was checked against the size is there. -/
theorem held (h : m.Covered) {address : Int} {length : Nat} (hr : m.InRange address length) :
    address.toNat + length ≤ m.bytes.size := by
  obtain ⟨hlow, hhigh⟩ := hr
  unfold Covered at h
  omega

/-- An accepted write is a slice assignment, and the slice is there as a whole. -/
theorem writeBlock_eq_lay (h : m.Covered) {address : Int} {block : List UInt8}
    (hr : m.InRange address block.length) :
    m.writeBlock address block = .ok { m with bytes := lay m.bytes address.toNat block } := by
  rw [writeBlock_eq, if_pos hr, store_eq_lay (h.held hr)]

/-- Every access that passes its check finds all the bytes it asks for. -/
theorem backed (h : m.Covered) : m.Backed where
  read address hr := by
    -- a range inside the nominal size is held, and the access is then what its equation says
    have hheld : address.toNat + 1 ≤ m.bytes.size := h.held hr
    exact ⟨_, getElem?_bytes hheld, by rw [read_eq, if_pos hr]⟩
  readWord address hr := by
    have hheld : address.toNat + 2 ≤ m.bytes.size := h.held hr
    refine ⟨_, _, getElem?_bytes (by omega), getElem?_bytes (by omega), ?_⟩
    rw [readWord_eq, if_pos hr]
  readBlock address length hr := by
    have hheld := h.held hr
    refine ⟨_, h.readBlock_eq hr, length_block hheld, fun k hk => ?_⟩
    have hplace : m.bytes[address.toNat + k]? = some _ := getElem?_bytes (by omega)
    exact ⟨_, hplace, by rw [getElem?_block hk, hplace]⟩
  write address value hr := by
    have hheld : address.toNat + 1 ≤ m.bytes.size := h.held hr
    rw [write_eq_writeBlock, h.writeBlock_eq_lay hr]
    exact ⟨hheld, rfl, size_lay_of_room hheld⟩
  writeBlock address block hr :=
    ⟨h.held hr, h.writeBlock_eq_lay hr, size_lay_of_room (h.held hr)⟩

end Covered

/-! ## Program images -/

theorem loadProgram_accepted_iff {image : List UInt8} :
    (∃ m', m.loadProgram image = .ok m') ↔ image.length ≤ 3584 := by
  have hlimit : programLimit = 3584 := rfl
  rw [loadProgram_eq, hlimit]
  by_cases hfit : 3584 < image.length
  · rw [if_pos hfit]
    exact iff_of_false (by rintro ⟨m', ⟨⟩⟩) (by omega)
  · rw [if_neg hfit]
    exact iff_of_true ⟨_, rfl⟩ (by omega)

/-- **Bounds checks against the nominal size are enough.** Whatever its size and whatever it is
asked to do, a memory keeps its size and holds at least as many bytes, so every access that the
check lets through is made to bytes that are held, and a write leaves as many as there were. A
memory no smaller than the standard one holds exactly its size in bytes, and an accepted program
stands where programs begin, with every other byte as it was. -/
theorem bounds_checks_suffice (n : Nat) (requests : List Command) :
    let m := (create n).afterAll requests
    m.size = n ∧ n ≤ m.bytes.size ∧ m.Backed ∧
      (4096 ≤ n → m.bytes.size = n ∧
        ∀ image, ((∃ m', m.loadProgram image = .ok m') ↔ image.length ≤ 3584) ∧
          ∀ m', m.loadProgram image = .ok m' →
            (∀ k < image.length, m'.bytes[0x200 + k]? = image[k]?) ∧
              ∀ place, place < 0x200 ∨ 0x200 + image.length ≤ place →
                m'.bytes[place]? = m.bytes[place]?) := by
  intro m
  have hextent : Extent n m := (Extent.create n).afterAll requests
  have hcovered : m.Covered := hextent.covered
  have hheld : n ≤ m.bytes.size := by
    rw [← hextent.size]
    exact hcovered
  refine ⟨hextent.size, hheld, hcovered.backed, fun hn => ⟨hextent.exact hn, fun image => ?_⟩⟩
  refine ⟨loadProgram_accepted_iff, fun m' hl => ?_⟩
  -- programs begin inside this memory, so the image is laid over its bytes and not after them
  have hstart : programStart ≤ m.bytes.size := by
    rw [programStart]
    omega
  have hplaced : m' = m.placeProgram image := by
    rw [loadProgram_eq] at hl
    split at hl
    · cases hl
    · exact (Except.ok.inj hl).symm
  subst hplaced
  constructor
  · intro k hk
    have hplace : 0x200 + k - 0x200 = k := by omega
    show (lay m.bytes programStart image)[0x200 + k]? = image[k]?
    rw [getElem?_lay hstart, programStart, if_pos ⟨by omega, by omega⟩, hplace]
  · intro place haside
    show (lay m.bytes programStart image)[place]? = m.bytes[place]?
    rw [getElem?_lay hstart, programStart, if_neg (by omega)]

/-- A memory too small for anything grows by each program, and shrinks back to the font. -/
example :
    ((create 3).afterAll [.loadProgram [1, 2], .loadProgram [3]]).bytes.size = 83 ∧
      ((create 3).afterAll [.loadProgram [1, 2], .reset]).bytes.size = 80 := by
  decide +kernel

end ChipEight.Memory
