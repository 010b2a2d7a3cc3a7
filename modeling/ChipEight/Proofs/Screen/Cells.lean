import ChipEight.Proofs.Screen.Drawing
import ChipEight.Screen.Command

/-!
# Cells and places

A screen keeps its pixels in one sequence, and a drawing inverts positions of it. A host sees
columns and rows. On a screen with columns and rows these come to the same: every pixel has one
place, so what a drawing does can be said place by place.

* **`Sprite.cells_eq_filter`** — the lit cells are those of the sprite's rows and columns that are
  lit.
* **`position_inj`**, **`Framed.exists_position_eq`** — places and pixels correspond.
* **`Framed.hits_targets`** — a pixel is hit as often as cells come to lie on its place.
* **`draw_by_places`** — so a drawing inverts the places that an odd number of cells lie on, and
  collides where a cell lies on a lit place, or two on any.
-/

namespace ChipEight

namespace Sprite

/-- The cells of a sprite, lit or not, as pairs of row and column. -/
def grid (sprite : Sprite) : List (Nat × Nat) :=
  (List.range sprite.length).flatMap fun row =>
    (List.range width).map fun column => (row, column)

/-- Whether a cell of a sprite is lit. -/
def litAt (sprite : Sprite) (cell : Nat × Nat) : Bool :=
  lit (sprite.getD cell.1 0) cell.2

/-- The lit cells row by row, whichever row the sprite begins in. Induction on the rows. -/
theorem cellsFrom_eq (top : Nat) (sprite : Sprite) :
    cellsFrom top sprite = (List.range sprite.length).flatMap fun row =>
      (litColumns (sprite.getD row 0)).map fun column => (top + row, column) := by
  induction sprite generalizing top with
  | nil => rfl
  | cons bits rest ih =>
    rw [cellsFrom, ih, List.length_cons, List.range_succ_eq_map, List.flatMap_cons,
      List.flatMap_map]
    congr 2
    -- the rows of the rest are counted one further down
    funext row
    rw [List.getD_cons_succ, Nat.add_right_comm, Nat.add_assoc]

theorem cells_eq (sprite : Sprite) :
    sprite.cells = (List.range sprite.length).flatMap fun row =>
      (litColumns (sprite.getD row 0)).map fun column => (row, column) := by
  rw [cells, cellsFrom_eq]
  simp only [Nat.zero_add]

/-- **The lit cells are the cells that are lit.** -/
theorem cells_eq_filter (sprite : Sprite) : sprite.cells = sprite.grid.filter sprite.litAt := by
  rw [cells_eq, grid, List.filter_flatMap]
  congr 1
  funext row
  rw [List.filter_map]
  rfl

theorem mem_grid {sprite : Sprite} {cell : Nat × Nat} :
    cell ∈ sprite.grid ↔ cell.1 < sprite.length ∧ cell.2 < width := by
  obtain ⟨row, column⟩ := cell
  simp [grid]

end Sprite

namespace Screen

variable {s s' : Screen} {px py : Int}

/-- Whether a cell of a sprite that is drawn with its corner at `x` and `y` comes to lie in a column
and a row. -/
def liesOn (s : Screen) (x y px py : Int) (cell : Nat × Nat) : Bool :=
  (x + cell.2).fmod s.width = px ∧ (y + cell.1).fmod s.height = py

/-- How many lit cells of a sprite come to lie in a column and a row. -/
def coverage (s : Screen) (x y : Int) (sprite : Sprite) (px py : Int) : Nat :=
  sprite.grid.countP fun cell => sprite.litAt cell && s.liesOn x y px py cell

/-- What lies on a place may be counted over all cells or over the lit ones. -/
theorem coverage_eq_countP_cells (s : Screen) (x y : Int) (sprite : Sprite) (px py : Int) :
    s.coverage x y sprite px py = sprite.cells.countP (s.liesOn x y px py) := by
  rw [Sprite.cells_eq_filter, List.countP_filter, coverage]
  simp only [Bool.and_comm]

/-! ## Places and pixels -/

/-- Two places of a screen have different positions. -/
theorem position_inj {qx qy : Int} (h : s.Has px py) (h' : s.Has qx qy)
    (heq : s.position px py = s.position qx qy) : px = qx ∧ py = qy := by
  have hpositive : 0 < s.width := Int.lt_of_le_of_lt h.left h.right
  rw [position, position, Int.add_comm, Int.add_comm (qy * s.width)] at heq
  -- the column is the remainder, and the row the quotient
  have hcolumn := congrArg (· % s.width) heq
  have hrow := congrArg (· / s.width) heq
  simp only [Int.add_mul_emod_self_right, Int.emod_eq_of_lt h.left h.right,
    Int.emod_eq_of_lt h'.left h'.right] at hcolumn
  simp only [Int.add_mul_ediv_right _ _ (Int.ne_of_gt hpositive),
    Int.ediv_eq_zero_of_lt h.left h.right, Int.ediv_eq_zero_of_lt h'.left h'.right,
    Int.zero_add] at hrow
  exact ⟨hcolumn, hrow⟩

namespace Framed

/-- A place of the screen can be asked for, and answers with the pixel at its position. -/
theorem pixel_eq (h : s.Framed) (hplace : s.Has px py) :
    s.pixel px py = .ok (s.pixels.getD (s.position px py).toNat false) := by
  obtain ⟨slot, hvalue, hslot⟩ := h.resolve?_position hplace
  have hnumber : (s.position px py).toNat = slot.val := by omega
  rw [pixel, hslot, hnumber, Array.getD, dif_pos slot.isLt]
  rfl

/-- Every pixel has a place. -/
theorem exists_position_eq (h : s.Framed) {k : Nat} (hk : k < s.pixels.size) :
    ∃ px py, s.Has px py ∧ s.position px py = k := by
  have hwidth := h.width
  have hsize := h.pixels
  have hpositive : 0 < s.width := by omega
  have hbound : (k : Int) < s.height * s.width := by
    rw [Int.mul_comm]
    omega
  -- the column is the remainder by the width, and the row the quotient
  refine ⟨k % s.width, k / s.width, ⟨Int.emod_nonneg _ (by omega), Int.emod_lt_of_pos _ hpositive,
    Int.ediv_nonneg (by omega) (by omega), Int.ediv_lt_of_lt_mul hpositive hbound⟩, ?_⟩
  rw [position, Int.mul_comm]
  exact Int.mul_ediv_add_emod _ _

/-! ## A drawing place by place -/

/-- **A pixel is hit as often as lit cells come to lie on its place.** -/
theorem hits_targets (h : s.Framed) (hplace : s.Has px py) (x y : Int) (sprite : Sprite) :
    hits s.pixels.size (s.targets x y sprite) (s.position px py).toNat =
      s.coverage x y sprite px py := by
  rw [coverage_eq_countP_cells, hits, targets, List.countP_map]
  apply List.countP_congr
  intro cell _
  obtain ⟨slot, hvalue, -⟩ := h.resolve?_position hplace
  obtain ⟨slot', hvalue', hslot'⟩ := h.resolve?_position (h.has_fmod (x + cell.2) (y + cell.1))
  simp only [Function.comp_apply, target, hslot', Option.map_some, Option.some.injEq, liesOn,
    decide_eq_true_eq]
  -- a cell hits the pixel if it lies on its place: positions tell places apart
  constructor
  · intro hsame
    exact position_inj (h.has_fmod _ _) hplace (by omega)
  · rintro ⟨hcolumn, hrow⟩
    rw [hcolumn, hrow] at hvalue'
    omega

section Drawn

variable {x y : Int} {sprite : Sprite} {collided : Bool}

/-- Each place is inverted as often as cells lie on it, so the parity decides. -/
theorem pixel_draw (h : s.Framed) (hd : s.draw x y sprite = .ok (collided, s'))
    (hplace : s.Has px py) :
    ∃ old, s.pixel px py = .ok old ∧
      s'.pixel px py = .ok (old ^^ decide (s.coverage x y sprite px py % 2 = 1)) := by
  obtain ⟨hwidth, hheight⟩ : s'.width = s.width ∧ s'.height = s.height := by
    rw [h.draw_eq] at hd
    cases hd
    exact ⟨rfl, rfl⟩
  -- the screen has kept its size, so the place is one of it afterwards as well
  have hplace' : s'.Has px py :=
    ⟨hplace.left, hwidth ▸ hplace.right, hplace.top, hheight ▸ hplace.bottom⟩
  refine ⟨_, h.pixel_eq hplace, ?_⟩
  rw [(h.draw hd).pixel_eq hplace', position, hwidth, ← position, h.getD_draw hd,
    h.hits_targets hplace]

/-- The collision by places: those that were hit correspond to pixels that there are. -/
theorem collided_iff (h : s.Framed) (hd : s.draw x y sprite = .ok (collided, s')) :
    collided = true ↔ ∃ px py, s.Has px py ∧
      (1 ≤ s.coverage x y sprite px py ∧ s.pixel px py = .ok true ∨
        2 ≤ s.coverage x y sprite px py) := by
  rw [h.collided_iff_hits hd]
  constructor
  · rintro ⟨k, hk⟩
    -- only pixels that there are get hit, so there is a place for the one that was
    have hhit : 0 < hits s.pixels.size (s.targets x y sprite) k := by omega
    obtain ⟨px, py, hplace, hposition⟩ := h.exists_position_eq (lt_size_of_hits_pos hhit)
    have hnumber : (s.position px py).toNat = k := by omega
    rw [← hnumber, h.hits_targets hplace] at hk
    refine ⟨px, py, hplace, hk.imp (fun ⟨honce, hlit⟩ => ⟨honce, ?_⟩) id⟩
    rw [h.pixel_eq hplace, hlit]
  · rintro ⟨px, py, hplace, hcovered⟩
    refine ⟨(s.position px py).toNat, ?_⟩
    rw [h.hits_targets hplace]
    refine hcovered.imp (fun ⟨honce, hlit⟩ => ⟨honce, ?_⟩) id
    rw [h.pixel_eq hplace] at hlit
    exact Except.ok.inj hlit

/-- A place that a drawing has changed lies under the sprite. -/
theorem exists_cell_of_changed (h : s.Framed) (hd : s.draw x y sprite = .ok (collided, s'))
    (hplace : s.Has px py) (hchanged : s'.pixel px py ≠ s.pixel px py) :
    ∃ row < sprite.length, ∃ column < Sprite.width,
      px = (x + column).fmod s.width ∧ py = (y + row).fmod s.height := by
  obtain ⟨old, hold, hnew⟩ := h.pixel_draw hd hplace
  -- a place on which no cell lies is inverted no times, and has not changed
  have hcovered : 0 < s.coverage x y sprite px py := by
    refine Nat.pos_of_ne_zero fun hzero => hchanged ?_
    rw [hnew, hold, hzero]
    simp
  obtain ⟨⟨row, column⟩, hcell, hlies⟩ := List.countP_pos_iff.mp hcovered
  obtain ⟨hrow, hcolumn⟩ := Sprite.mem_grid.mp hcell
  obtain ⟨hx, hy⟩ := of_decide_eq_true (Bool.and_eq_true_iff.mp hlies).2
  exact ⟨row, hrow, column, hcolumn, hx.symm, hy.symm⟩

end Drawn

end Framed

/-- **A drawing, place by place.** Let any sprite be drawn anywhere on a screen with columns and
rows, of whatever sizes. Each place is inverted if an odd number of lit cells come to lie on it, and
is left alone otherwise. The drawing collides exactly if a lit cell came to lie on a place that was
lit, or two of them on one place. The screen has something new to show, and nothing else about it
has changed. A screen without columns or without rows refuses the sprite and stays as it is. -/
theorem draw_by_places (s : Screen) (x y : Int) (sprite : Sprite) :
    (s.Framed → ∃ collided s', (Command.draw x y sprite).run s = .ok (.truth collided) s' ∧
      (∀ px py, s.Has px py → ∃ old, s.pixel px py = .ok old ∧
        s'.pixel px py = .ok (old ^^ decide (s.coverage x y sprite px py % 2 = 1))) ∧
      (collided = true ↔ ∃ px py, s.Has px py ∧
        (1 ≤ s.coverage x y sprite px py ∧ s.pixel px py = .ok true ∨
          2 ≤ s.coverage x y sprite px py)) ∧
      s'.dirty = true ∧ s' = { s with pixels := s'.pixels, dirty := s'.dirty } ∧ s'.Framed) ∧
    (s.width = 0 ∨ s.height = 0 →
      (Command.draw x y sprite).run s = .error (.misuse .emptyScreen) s) := by
  refine ⟨fun h => ?drawn, fun hempty => ?refused⟩
  case drawn =>
    obtain ⟨collided, s', hd, hparts⟩ : ∃ collided s', s.draw x y sprite = .ok (collided, s') ∧
        s' = { s with pixels := s'.pixels, dirty := true } :=
      ⟨_, _, h.draw_eq x y sprite, rfl⟩
    have hdirty : s'.dirty = true := by rw [hparts]
    refine ⟨collided, s', ?_, fun px py => h.pixel_draw hd, h.collided_iff hd, hdirty, ?_,
      h.draw hd⟩
    · rw [Command.run, drawing, hd]
    · rw [hdirty]
      exact hparts
  case refused =>
    -- the size is looked at before the sprite
    rw [Command.run, drawing, Screen.draw, if_pos hempty]

/-- Eight lit cells in a row of three pixels: two of them lie on the one in the middle, so the
drawing collides on a blank screen. -/
theorem draw_by_places_narrow :
    (create 3 2).Framed ∧ (create 3 2).Has 0 1 ∧ (create 3 2).Has 1 1 ∧
      (∃ s', (Command.draw (-1) 5 [0xFF]).run (create 3 2) = .ok (.truth true) s' ∧
        s'.pixel 0 1 = .ok true ∧ s'.pixel 1 1 = .ok false) ∧
      (create 0 2).width = 0 ∧
      (Command.draw (-1) 5 [0xFF]).run (create 0 2) =
        .error (.misuse .emptyScreen) (create 0 2) := by
  have hframed : (create 3 2).Framed := ⟨by decide, by decide, by decide⟩
  have hside : (create 3 2).Has 0 1 := ⟨by decide, by decide, by decide, by decide⟩
  have hmiddle : (create 3 2).Has 1 1 := ⟨by decide, by decide, by decide, by decide⟩
  obtain ⟨hdrawn, -⟩ := draw_by_places (create 3 2) (-1) 5 [0xFF]
  obtain ⟨-, hrefused⟩ := draw_by_places (create 0 2) (-1) 5 [0xFF]
  obtain ⟨collided, s', hrun, hplaces, hcollided, -⟩ := hdrawn hframed
  obtain ⟨old, hold, hnew⟩ := hplaces 0 1 hside
  obtain ⟨old', hold', hnew'⟩ := hplaces 1 1 hmiddle
  obtain rfl : old = false := Except.ok.inj (hold.symm.trans rfl)
  obtain rfl : old' = false := Except.ok.inj (hold'.symm.trans rfl)
  obtain rfl : collided = true := hcollided.mpr ⟨1, 1, hmiddle, .inr (by decide)⟩
  -- three cells lie on the place at the side, and two on the one in the middle
  exact ⟨hframed, hside, hmiddle,
    ⟨s', hrun, hnew.trans (congrArg _ (by decide)), hnew'.trans (congrArg _ (by decide))⟩, rfl,
    hrefused (.inl rfl)⟩

end Screen

end ChipEight
