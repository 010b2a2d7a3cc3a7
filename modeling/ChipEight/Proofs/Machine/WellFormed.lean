import ChipEight.Machine.Execute
import ChipEight.Proofs.Memory.Extent
import ChipEight.Proofs.Screen.Drawing
import ChipEight.Proofs.Screen.Rows

/-!
# Well-formed machines

A program keeps index and counter below 2¹⁶, the depth of the stack between 0 and 16, a waiting
register among the sixteen, and memory and screen of their size; a host may assign the processor
anything. The registers, the stack slots, the bytes held, the pixels and the keys are in range by
their types, so nothing is said about them here.

* **`Processor.WellFormed`**, **`Memory.WellFormed`**, **`Screen.WellFormed`** — the ranges of the
  three parts; the keypad and the source of random bytes are never out of range.
* **`Machine.WellFormed`** — the parts together.
* **`Machine.Representable`** — the timers are bytes too.

The lemmas go part by part as well, and say of each operation of a part that it keeps the range.
-/

namespace ChipEight

/-- Wrapping keeps the low 16 bits, also of a negative number. -/
theorem wrapAddress_range (n : Int) : 0 ≤ wrapAddress n ∧ wrapAddress n < 65536 := by
  unfold wrapAddress
  omega

/-! ## The processor

Most operations touch neither index nor counter, depth or wait, so the fields of the old processor
are those of the new one. -/

namespace Processor

/-- The processor is as a program leaves it. -/
structure WellFormed (p : Processor) : Prop where
  index : 0 ≤ p.i ∧ p.i < 65536
  counter : 0 ≤ p.pc ∧ p.pc < 65536
  depth : 0 ≤ p.sp ∧ p.sp ≤ 16
  waiting : ∀ register, p.waiting = some register → 0 ≤ register ∧ register < 16

/-- Both timers are bytes. -/
structure TimersFit (p : Processor) : Prop where
  delay : 0 ≤ p.delay ∧ p.delay < 256
  sound : 0 ≤ p.sound ∧ p.sound < 256

theorem wellFormed_create {start : Int} (h : 0 ≤ start ∧ start < 65536) :
    (create start).WellFormed where
  index := by simp [create]
  counter := h
  depth := by simp [create]
  waiting := by simp [create]

theorem timersFit_create (start : Int) : (create start).TimersFit where
  delay := by simp [create]
  sound := by simp [create]

/-- A tick lowers a timer unless it is at 0, so it stays a byte. -/
theorem lowered_range {timer : Int} (h : 0 ≤ timer ∧ timer < 256) :
    0 ≤ lowered timer ∧ lowered timer < 256 := by
  unfold lowered
  split <;> omega

theorem TimersFit.tick {p : Processor} (h : p.TimersFit) : p.tick.TimersFit where
  delay := lowered_range h.delay
  sound := lowered_range h.sound

namespace WellFormed

variable {p : Processor}

theorem tick (h : p.WellFormed) : p.tick.WellFormed :=
  ⟨h.index, h.counter, h.depth, h.waiting⟩

/-- The counter may be set to any 16-bit address. What a program does with it then is for the next
fetch. -/
theorem jump (h : p.WellFormed) {target : Int} (ht : 0 ≤ target ∧ target < 65536) :
    { p with pc := target }.WellFormed :=
  ⟨h.index, ht, h.depth, h.waiting⟩

theorem endWait (h : p.WellFormed) : { p with waiting := none }.WellFormed :=
  ⟨h.index, h.counter, h.depth, by simp⟩

/-- A wait names one of the sixteen registers. -/
theorem beginWait (h : p.WellFormed) (x : Fin 16) :
    { p with waiting := some (x.val : Int) }.WellFormed := by
  refine ⟨h.index, h.counter, h.depth, ?_⟩
  rintro register ⟨⟩
  omega

end WellFormed

end Processor

/-! ## The memory -/

namespace Memory

/-- The memory is a machine's: of its size, and holding that many bytes. -/
structure WellFormed (m : Memory) : Prop where
  size : m.size = standardSize
  held : m.bytes.size = standardSize

/-- It has the extent of a memory with room for the font and every program, so it keeps that
extent. -/
theorem wellFormed_iff_extent {m : Memory} : m.WellFormed ↔ Extent standardSize m :=
  ⟨fun h => ⟨h.size, Nat.le_of_eq (h.size.trans h.held.symm), fun _ => h.held⟩,
    fun h => ⟨h.size, h.exact (Nat.le_refl _)⟩⟩

theorem wellFormed_create : (create standardSize).WellFormed :=
  wellFormed_iff_extent.mpr (Extent.create standardSize)

namespace WellFormed

variable {m m' : Memory}

/-- A memory of the standard size is a case of memories of any size. -/
theorem extent (h : m.WellFormed) : Extent standardSize m :=
  wellFormed_iff_extent.mp h

theorem reset (h : m.WellFormed) : m.reset.WellFormed :=
  wellFormed_iff_extent.mpr h.extent.reset

/-- A program that fits leaves memory its size; a longer one would have made it grow. -/
theorem placeProgram (h : m.WellFormed) {image : List UInt8}
    (hfit : ¬ programLimit < image.length) : (m.placeProgram image).WellFormed :=
  wellFormed_iff_extent.mpr (h.extent.placeProgram hfit)

theorem writeBlock (h : m.WellFormed) {address : Int} {block : List UInt8}
    (hw : m.writeBlock address block = .ok m') : m'.WellFormed :=
  wellFormed_iff_extent.mpr (h.extent.writeBlock hw)

/-- A host's requests to a memory keep it in range. -/
theorem keeps_run (c : Command) : c.run.Keeps WellFormed := fun m h =>
  wellFormed_iff_extent.mpr (Extent.keeps_run standardSize c m h.extent)

/-- A word of a program that was placed in a machine's memory, by its place in the program. -/
theorem readWord_program (h : m.WellFormed) {image : List UInt8} {k : Nat} {high low : UInt8}
    (hfit : k + 2 ≤ programLimit) (hhigh : image[k]? = some high)
    (hlow : image[k + 1]? = some low) :
    (m.placeProgram image).readWord (programStart + k : Nat) =
      .ok (256 * high.toNat + low.toNat) := by
  have hheld : programStart ≤ m.bytes.size := by
    rw [h.held]
    decide
  have hsize : programStart + k + 2 ≤ m.size := by
    rw [h.size]
    simp only [programLimit, programStart, standardSize] at *
    omega
  exact readWord_placeProgram hhigh hlow hheld hsize

end WellFormed

end Memory

/-! ## The screen -/

namespace Screen

/-- The screen is a machine's: of its width and height, with a pixel for each place. -/
structure WellFormed (s : Screen) : Prop where
  width : s.width = standardWidth
  height : s.height = standardHeight
  pixels : s.pixels.size = 2048

/-- Its sizes are kept as those of every screen are. -/
theorem wellFormed_iff_spans {s : Screen} : s.WellFormed ↔ s.Spans 64 32 :=
  ⟨fun h => ⟨h.pixels, h.width, h.height⟩, fun h => ⟨h.width, h.height, h.pixels⟩⟩

theorem wellFormed_create : (create standardWidth standardHeight).WellFormed :=
  wellFormed_iff_spans.mpr (Spans.create 64 32)

namespace WellFormed

variable {s : Screen}

/-- A screen of the standard size is a case of screens of any size. -/
theorem spans (h : s.WellFormed) : s.Spans 64 32 :=
  wellFormed_iff_spans.mp h

theorem reset (h : s.WellFormed) : s.reset.WellFormed :=
  wellFormed_iff_spans.mpr h.spans.reset

theorem clear (h : s.WellFormed) : s.clear.WellFormed :=
  wellFormed_iff_spans.mpr h.spans.clear

/-- A sprite changes cells and not how many there are. -/
theorem draw (h : s.WellFormed) {x y : Int} {sprite : Sprite} {collided : Bool} {s' : Screen}
    (hd : s.draw x y sprite = .ok (collided, s')) : s'.WellFormed :=
  wellFormed_iff_spans.mpr (h.spans.draw hd)

/-- On such a screen every cell that a sprite hits exists. -/
theorem framed (h : s.WellFormed) : s.Framed where
  width := by rw [h.width]; decide
  height := by rw [h.height]; decide
  pixels := by rw [h.width, h.height, h.pixels]; decide

end WellFormed

end Screen

/-! ## The machine -/

namespace Machine

/-- The machine is as a program leaves it, apart from its timers. -/
structure WellFormed (m : Machine) : Prop where
  processor : m.processor.WellFormed
  memory : m.memory.WellFormed
  screen : m.screen.WellFormed

/-- Every part of the machine is in range. -/
structure Representable (m : Machine) : Prop extends m.WellFormed where
  timers : m.processor.TimersFit

theorem start_range : 0 ≤ start ∧ start < 65536 := by
  decide

/-- A new machine is well-formed, whatever the source of random bytes. -/
theorem wellFormed_powerOn (random : Random.Twister) : (powerOn random).WellFormed where
  processor := Processor.wellFormed_create start_range
  memory := Memory.wellFormed_create
  screen := Screen.wellFormed_create

theorem representable_powerOn (random : Random.Twister) : (powerOn random).Representable :=
  ⟨wellFormed_powerOn random, Processor.timersFit_create start⟩

variable {m m' : Machine}

/-- Memory and screen are made anew at their sizes, and the processor at the start. -/
theorem WellFormed.reset (h : m.WellFormed) : m.reset.WellFormed where
  processor := Processor.wellFormed_create start_range
  memory := h.memory.reset
  screen := h.screen.reset

/-- Loading is a reset with the image laid down afterwards, unless the image is too large. -/
theorem loadProgram_eq (m : Machine) (image : List UInt8) :
    m.loadProgram image =
      if Memory.programLimit < image.length then
        .error { cause := .programTooLarge image.length Memory.programLimit,
                 address := Memory.programStart }
      else .ok { m.reset with memory := m.reset.memory.placeProgram image } := by
  unfold loadProgram Memory.checkProgram
  split <;> rfl

/-- A load is accepted exactly if the program fits, and then it is a reset with the program
placed. -/
theorem loadProgram_eq_ok_iff {image : List UInt8} :
    m.loadProgram image = .ok m' ↔
      ¬ Memory.programLimit < image.length ∧
        m' = { m.reset with memory := m.reset.memory.placeProgram image } := by
  rw [loadProgram_eq]
  split
  · simp [*]
  · simp [*, eq_comm]

theorem WellFormed.loadProgram (h : m.WellFormed) {image : List UInt8}
    (hl : m.loadProgram image = .ok m') : m'.WellFormed := by
  obtain ⟨hfit, rfl⟩ := loadProgram_eq_ok_iff.mp hl
  exact ⟨h.reset.processor, h.reset.memory.placeProgram hfit, h.reset.screen⟩

theorem processor_loadProgram {image : List UInt8} (hl : m.loadProgram image = .ok m') :
    m'.processor = Processor.create start := by
  obtain ⟨-, rfl⟩ := loadProgram_eq_ok_iff.mp hl
  rfl

end Machine

end ChipEight
