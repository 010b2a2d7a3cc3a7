import ChipEight.Proofs.Screen.Cells

/-!
# Counting lit pixels

A sprite that is neither wider nor higher than a screen does not come to lie on itself, however it
is wrapped around. Then every lit cell inverts a pixel of its own, and the lit pixels can be
counted: each cell lights one pixel more, or erases one, which makes one fewer.

* **`Sprite.nodup_cells`**, **`Sprite.length_cells`** — the lit cells are all different, and as many
  as bits are set.
* **`Framed.nodup_targets`** — they come to lie on different positions.
* **`Framed.getD_draw_of_nodup`** — so a drawing inverts the pixels under them, and no others.
* **`Framed.litCount_draw`** — as many pixels are lit more as there are lit cells, less twice the
  pixels that were erased.
* **`Framed.collided_iff_erased`** — a drawing collides exactly if it erases a pixel.
-/

namespace ChipEight

namespace Sprite

/-- The number of bits set in some bytes. -/
def setBits (bytes : List UInt8) : Nat :=
  (bytes.flatMap fun bits => (List.range width).map bits.toNat.testBit).count true

/-- Columns are numbered against the bits, and reversing a list does not change a count. -/
theorem length_litColumns (bits : UInt8) :
    (litColumns bits).length = ((List.range width).map bits.toNat.testBit).count true := by
  have hlit : lit bits = bits.toNat.testBit ∘ (width - 1 - ·) := rfl
  -- columns are numbered from the left and bits from the right
  have hcolumns : (List.range width).map (width - 1 - ·) = (List.range width).reverse := by decide
  rw [litColumns, ← List.countP_eq_length_filter, hlit, ← List.countP_map, hcolumns,
    List.countP_reverse, List.count_eq_countP, List.countP_map]
  simp [Function.comp_def]

/-- As many lit cells as bits are set, row by row. -/
theorem length_cellsFrom (top : Nat) (sprite : Sprite) :
    (cellsFrom top sprite).length = setBits sprite := by
  induction sprite generalizing top with
  | nil => rfl
  | cons bits rest ih =>
    rw [cellsFrom, List.length_append, List.length_map, length_litColumns, ih, setBits, setBits,
      List.flatMap_cons, List.count_append]

/-- A sprite has as many lit cells as bits set. -/
theorem length_cells (sprite : Sprite) : sprite.cells.length = setBits sprite :=
  length_cellsFrom 0 sprite

/-- Cells differ in their row or in their column. -/
theorem nodup_grid (sprite : Sprite) : sprite.grid.Nodup := by
  refine List.pairwise_flatMap.mpr ⟨fun row _ => ?columns, ?rows⟩
  case columns =>
    refine List.Pairwise.map (fun column => (row, column)) (fun column column' hne heq => ?_)
      List.nodup_range
    exact hne (Prod.mk.inj heq).2
  case rows =>
    refine List.nodup_range.imp fun hne cell hcell cell' hcell' heq => hne ?_
    obtain ⟨column, -, rfl⟩ := List.mem_map.mp hcell
    obtain ⟨column', -, rfl⟩ := List.mem_map.mp hcell'
    exact (Prod.mk.inj heq).1

theorem nodup_cells (sprite : Sprite) : sprite.cells.Nodup := by
  rw [cells_eq_filter]
  exact (nodup_grid sprite).filter _

end Sprite

/-- Numbers that are less than `n` apart have different remainders by `n`. -/
theorem eq_of_fmod_eq {n a b : Int} (hn : 0 ≤ n) (hab : (a - b).natAbs < n.natAbs)
    (h : a.fmod n = b.fmod n) : a = b := by
  rw [Int.fmod_eq_emod_of_nonneg _ hn, Int.fmod_eq_emod_of_nonneg _ hn,
    Int.emod_eq_emod_iff_emod_sub_eq_zero] at h
  exact Int.sub_eq_zero.mp
    (Int.eq_zero_of_dvd_of_natAbs_lt_natAbs (Int.dvd_of_emod_eq_zero h) hab)

/-- What is of exactly one of two kinds, and twice what is of both, make up both kinds. -/
theorem countP_xor_add {α : Type} (p q : α → Bool) (l : List α) :
    l.countP (fun a => p a ^^ q a) + 2 * l.countP (fun a => p a && q a) =
      l.countP p + l.countP q := by
  induction l with
  | nil => rfl
  | cons a l ih =>
    simp only [List.countP_cons]
    cases p a <;> cases q a <;> simp <;> omega

namespace Screen

/-- The number of lit pixels. -/
def litCount (s : Screen) : Nat :=
  s.pixels.count true

/-- How many pixels are lit on one screen and unlit on another. -/
def erasedCount (s s' : Screen) : Nat :=
  (List.range s.pixels.size).countP fun k => s.pixels.getD k false && !s'.pixels.getD k false

/-- The lit pixels counted by their numbers. Counts before and after a drawing are compared in this
form. -/
theorem litCount_eq_countP (s : Screen) :
    s.litCount = (List.range s.pixels.size).countP fun k => s.pixels.getD k false := by
  have hpixels :
      s.pixels.toList = (List.range s.pixels.size).map fun k => s.pixels.getD k false := by
    apply List.ext_getElem
    · simp
    · intro k hk _
      have hheld : k < s.pixels.size := by simpa using hk
      simp [Array.getD, hheld]
  rw [litCount, ← Array.count_toList, hpixels, List.count_eq_countP, List.countP_map]
  simp [Function.comp_def]

/-- Every pixel of a new screen is unlit. -/
theorem getD_create (width height : Int) (k : Nat) :
    (create width height).pixels.getD k false = false := by
  rw [create, blank, Array.getD_eq_getD_getElem?, Array.getElem?_replicate]
  split <;> rfl

namespace Framed

variable {s s' : Screen} {x y : Int} {sprite : Sprite} {collided : Bool}

/-! ## Different cells on different pixels -/

/-- Every position under a sprite is the number of a pixel, so no rule about negative positions
comes in. -/
theorem exists_eq_of_mem_targets (h : s.Framed) {place : Int}
    (hplace : place ∈ s.targets x y sprite) :
    ∃ slot : Fin s.pixels.size, place = slot.val ∧
      Position.resolve? s.pixels.size place = some slot := by
  obtain ⟨cell, -, rfl⟩ := List.mem_map.mp hplace
  obtain ⟨slot, hvalue, hslot⟩ := h.resolve?_position (h.has_fmod (x + cell.2) (y + cell.1))
  exact ⟨slot, hvalue.symm, hslot⟩

/-- **The lit cells of a sprite that fits on the screen come to lie on different positions.** -/
theorem nodup_targets (h : s.Framed) (hwidth : Sprite.width ≤ s.width)
    (hheight : sprite.length ≤ s.height) (x y : Int) : (s.targets x y sprite).Nodup := by
  refine List.pairwise_map.mpr (List.Pairwise.imp_of_mem ?_ sprite.nodup_cells)
  intro cell cell' hcell hcell' hne heq
  rw [Sprite.cells_eq_filter] at hcell hcell'
  obtain ⟨hrow, hcolumn⟩ := Sprite.mem_grid.mp (List.mem_filter.mp hcell).1
  obtain ⟨hrow', hcolumn'⟩ := Sprite.mem_grid.mp (List.mem_filter.mp hcell').1
  obtain ⟨hsameColumn, hsameRow⟩ := position_inj (h.has_fmod _ _) (h.has_fmod _ _) heq
  -- columns and rows of one sprite are too close to wrap around to the same place
  have hcolumns := eq_of_fmod_eq (by omega) (by omega) hsameColumn
  have hrows := eq_of_fmod_eq (by omega) (by omega) hsameRow
  exact hne (Prod.ext (by omega) (by omega))

/-- A pixel is hit once if its position is one of those under the sprite, and else not at all. -/
theorem hits_of_nodup (h : s.Framed) (hnodup : (s.targets x y sprite).Nodup) (k : Nat) :
    hits s.pixels.size (s.targets x y sprite) k =
      if (k : Int) ∈ s.targets x y sprite then 1 else 0 := by
  have hcount :
      hits s.pixels.size (s.targets x y sprite) k = (s.targets x y sprite).count (k : Int) := by
    rw [hits, List.count_eq_countP]
    apply List.countP_congr
    intro place hplace
    obtain ⟨slot, rfl, hslot⟩ := h.exists_eq_of_mem_targets hplace
    rw [hslot, Option.map_some, decide_eq_true_eq, Option.some.injEq, beq_iff_eq, Int.ofNat_inj]
  rw [hcount, hnodup.count]

/-- **A sprite that does not lie on itself inverts the pixels under its lit cells.** -/
theorem getD_draw_of_nodup (h : s.Framed) (hnodup : (s.targets x y sprite).Nodup)
    (hd : s.draw x y sprite = .ok (collided, s')) (k : Nat) :
    s'.pixels.getD k false =
      (s.pixels.getD k false ^^ decide ((k : Int) ∈ s.targets x y sprite)) := by
  rw [h.getD_draw hd, h.hits_of_nodup hnodup]
  by_cases hmem : (k : Int) ∈ s.targets x y sprite <;> simp [hmem]

/-- As many pixels lie under the sprite as it has positions. -/
theorem countP_mem_targets (h : s.Framed) (hnodup : (s.targets x y sprite).Nodup) :
    (List.range s.pixels.size).countP (fun k : Nat => decide ((k : Int) ∈ s.targets x y sprite)) =
      (s.targets x y sprite).length := by
  have hslots : (((List.range s.pixels.size).filter fun k : Nat =>
      decide ((k : Int) ∈ s.targets x y sprite)).map Int.ofNat).Nodup :=
    List.Pairwise.map _ (fun k k' hne heq => hne (Int.ofNat.inj heq)) (List.nodup_range.filter _)
  -- two lists without repetition and with the same members are as long as each other
  have hperm := (List.perm_ext_iff_of_nodup hslots hnodup).mpr fun place => ?same
  case same =>
    simp only [List.mem_map, List.mem_filter, List.mem_range, decide_eq_true_eq]
    constructor
    · rintro ⟨k, ⟨-, hk⟩, rfl⟩
      exact hk
    · intro hplace
      obtain ⟨slot, rfl, -⟩ := h.exists_eq_of_mem_targets hplace
      exact ⟨slot.val, ⟨slot.isLt, hplace⟩, rfl⟩
  have hlength := hperm.length_eq
  rwa [List.length_map, ← List.countP_eq_length_filter] at hlength

/-! ## The count of a drawing -/

/-- The pixels erased are the lit ones under the sprite. -/
theorem erasedCount_eq (h : s.Framed) (hnodup : (s.targets x y sprite).Nodup)
    (hd : s.draw x y sprite = .ok (collided, s')) :
    s.erasedCount s' = (List.range s.pixels.size).countP fun k =>
      s.pixels.getD k false && decide ((k : Int) ∈ s.targets x y sprite) := by
  rw [erasedCount]
  apply List.countP_congr
  intro k _
  rw [h.getD_draw_of_nodup hnodup hd]
  cases s.pixels.getD k false <;> simp

/-- **A drawing lights as many pixels as the sprite has bits set, less those it erases, which count
twice**: such a cell lights nothing, and puts a light out. -/
theorem litCount_draw (h : s.Framed) (hnodup : (s.targets x y sprite).Nodup)
    (hd : s.draw x y sprite = .ok (collided, s')) :
    s'.litCount + 2 * s.erasedCount s' = s.litCount + Sprite.setBits sprite := by
  have hafter : s'.litCount = (List.range s.pixels.size).countP fun k =>
      s.pixels.getD k false ^^ decide ((k : Int) ∈ s.targets x y sprite) := by
    rw [litCount_eq_countP, h.size_draw hd]
    simp only [h.getD_draw_of_nodup hnodup hd]
  rw [hafter, h.erasedCount_eq hnodup hd, countP_xor_add, ← litCount_eq_countP,
    h.countP_mem_targets hnodup, targets, List.length_map, Sprite.length_cells]

/-- **A drawing collides exactly if it erases a pixel.** -/
theorem collided_iff_erased (h : s.Framed) (hnodup : (s.targets x y sprite).Nodup)
    (hd : s.draw x y sprite = .ok (collided, s')) :
    collided = true ↔ 0 < s.erasedCount s' := by
  rw [h.erasedCount_eq hnodup hd, List.countP_pos_iff, h.collided_iff_hits hd]
  constructor
  · -- no pixel is hit twice here, so a collision is a lit pixel under the sprite
    rintro ⟨k, hk⟩
    have hhit : 0 < hits s.pixels.size (s.targets x y sprite) k := by omega
    refine ⟨k, List.mem_range.mpr (lt_size_of_hits_pos hhit), ?_⟩
    rw [h.hits_of_nodup hnodup] at hk
    by_cases hmem : (k : Int) ∈ s.targets x y sprite
    · simpa [hmem] using hk
    · simp [hmem] at hk
  · rintro ⟨k, -, hk⟩
    obtain ⟨hlit, hmem⟩ := Bool.and_eq_true_iff.mp hk
    refine ⟨k, .inl ⟨?_, hlit⟩⟩
    rw [h.hits_of_nodup hnodup, if_pos (of_decide_eq_true hmem)]
    exact Nat.one_pos

end Framed

end Screen

end ChipEight
