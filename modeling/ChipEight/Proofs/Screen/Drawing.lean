import ChipEight.Proofs.Screen.Hits

/-!
# Drawing several sprites

A screen with columns and rows, of whatever sizes, takes any number of sprites at any places, also
sprites that are wider or taller than it is.

* **`Framed.draw_eq`** — on such a screen every sprite is drawn.
* **`targets_shift`** — a place may be moved by whole widths and heights.
* **`Framed.drawAll_eq`** — after several sprites the picture is that of all their hits together, so
  it does not depend on their order.
* **`Framed.draw_twice`** — a sprite drawn twice hits every pixel an even number of times. One of
  the two drawings finds a lit pixel, unless the sprite hits none.
-/

namespace ChipEight

namespace Sprite

/-- A row has a lit cell if its byte is not zero. The columns are the bits in reverse. -/
theorem exists_lit_iff {bits : UInt8} : (∃ column, column < width ∧ lit bits column = true) ↔
    bits ≠ 0 := by
  constructor
  · rintro ⟨column, -, hlit⟩ rfl
    simp [lit] at hlit
  · intro hbits
    have hne : bits.toNat ≠ 0 := fun h => hbits (UInt8.toNat_inj.mp h)
    obtain ⟨i, hi⟩ := Nat.exists_testBit_of_ne_zero hne
    -- a byte has no bits from the eighth on
    have hlow : i < width := by
      refine Decidable.byContradiction fun hhigh => ?_
      have hlarge := Nat.ge_two_pow_of_testBit hi
      have hpow := Nat.pow_le_pow_right (n := 2) (by decide) (Nat.not_lt.mp hhigh)
      have hbyte := bits.toNat_lt
      simp only [width] at hpow
      omega
    refine ⟨width - 1 - i, by omega, ?_⟩
    have hback : width - 1 - (width - 1 - i) = i := by omega
    rw [lit, hback, hi]

/-- A sprite has a lit cell exactly when one of its rows has a bit set. -/
theorem exists_mem_cells_iff {sprite : Sprite} :
    (∃ cell, cell ∈ sprite.cells) ↔ ∃ bits ∈ sprite, bits ≠ 0 := by
  constructor
  · rintro ⟨⟨row, column⟩, hcell⟩
    obtain ⟨-, hcolumn, bits, hbits, hlit⟩ := mem_cellsFrom.mp hcell
    exact ⟨bits, List.mem_of_getElem? hbits, exists_lit_iff.mp ⟨column, hcolumn, hlit⟩⟩
  · rintro ⟨bits, hbits, hne⟩
    obtain ⟨column, hcolumn, hlit⟩ := exists_lit_iff.mpr hne
    obtain ⟨row, hrow⟩ := List.mem_iff_getElem?.mp hbits
    exact ⟨(row, column), mem_cellsFrom.mpr ⟨Nat.zero_le row, hcolumn, bits, hrow, hlit⟩⟩

end Sprite

namespace Screen

/-- The screen has columns and rows, and a pixel for each place. -/
structure Framed (s : Screen) : Prop where
  width : 1 ≤ s.width
  height : 1 ≤ s.height
  pixels : s.pixels.size = (s.width * s.height).toNat

/-- The screen has this column and this row. -/
structure Has (s : Screen) (px py : Int) : Prop where
  left : 0 ≤ px
  right : px < s.width
  top : 0 ≤ py
  bottom : py < s.height

/-- A sprite and where its corner is drawn. -/
structure Stamp where
  x : Int
  y : Int
  sprite : Sprite

/-- Draws several sprites, one after the other. -/
def drawAll (s : Screen) : List Stamp → Except Misuse Screen
  | [] => .ok s
  | stamp :: rest => do
    let (_, s') ← s.draw stamp.x stamp.y stamp.sprite
    s'.drawAll rest

variable {s s' : Screen}

/-! ## The positions under a sprite -/

/-- Where a sprite comes to lie depends on the screen's size alone. -/
theorem targets_congr (hwidth : s'.width = s.width) (hheight : s'.height = s.height) (x y : Int)
    (sprite : Sprite) : s'.targets x y sprite = s.targets x y sprite := by
  have htarget : s'.target x y = s.target x y := by
    funext cell
    rw [target, target, position, position, hwidth, hheight]
  rw [targets, targets, htarget]

/-- **A sprite that is moved by whole widths and heights comes to the same positions.** -/
theorem targets_shift (s : Screen) (x y a b : Int) (sprite : Sprite) :
    s.targets (x + a * s.width) (y + b * s.height) sprite = s.targets x y sprite := by
  have htarget : s.target (x + a * s.width) (y + b * s.height) = s.target x y := by
    funext cell
    have hx : x + a * s.width + cell.2 = x + cell.2 + a * s.width := by omega
    have hy : y + b * s.height + cell.1 = y + cell.1 + b * s.height := by omega
    rw [target, target, hx, hy, Int.add_mul_fmod_self_right, Int.add_mul_fmod_self_right]
  rw [targets, targets, htarget]

/-- So does the drawing, whose collision is read off the same positions. -/
theorem draw_shift (s : Screen) (x y a b : Int) (sprite : Sprite) :
    s.draw (x + a * s.width) (y + b * s.height) sprite = s.draw x y sprite := by
  unfold draw
  rw [targets_shift]

namespace Framed

/-- A place of the screen is the place of one of its pixels. -/
theorem resolve?_position (h : s.Framed) {px py : Int} (hplace : s.Has px py) :
    ∃ slot : Fin s.pixels.size, slot.val = s.position px py ∧
      Position.resolve? s.pixels.size (s.position px py) = some slot := by
  have hwidth := h.width
  have hlow : 0 ≤ s.position px py :=
    Int.add_nonneg (Int.mul_nonneg hplace.top (by omega)) hplace.left
  -- the rows up to this one and this one together are no more than all rows
  have hhigh : s.position px py < s.width * s.height := by
    have hrows : (py + 1) * s.width ≤ s.height * s.width :=
      Int.mul_le_mul_of_nonneg_right hplace.bottom (by omega)
    rw [Int.add_mul, Int.one_mul, Int.mul_comm s.height] at hrows
    have hright := hplace.right
    rw [position]
    omega
  have hsize := h.pixels
  obtain ⟨k, hk⟩ := Int.eq_ofNat_of_zero_le hlow
  have hheld : k < s.pixels.size := by omega
  exact ⟨⟨k, hheld⟩, hk.symm, hk ▸ Position.resolve?_ofNat hheld⟩

/-- Whatever place a host names, it is one of the screen's when it is wrapped around. -/
theorem has_fmod (h : s.Framed) (x y : Int) : s.Has (x.fmod s.width) (y.fmod s.height) where
  left := Int.fmod_nonneg_of_pos x h.width
  right := Int.fmod_lt_of_pos x h.width
  top := Int.fmod_nonneg_of_pos y h.height
  bottom := Int.fmod_lt_of_pos y h.height

/-- Every cell of a sprite comes to lie on a pixel. -/
theorem exists_slot (h : s.Framed) (x y : Int) (cell : Nat × Nat) :
    ∃ slot, Position.resolve? s.pixels.size (s.target x y cell) = some slot :=
  have ⟨slot, _, hslot⟩ := h.resolve?_position (h.has_fmod (x + cell.2) (y + cell.1))
  ⟨slot, hslot⟩

/-! ## One sprite -/

/-- A sprite is refused only by a screen without columns or without rows. -/
theorem draw_eq (h : s.Framed) (x y : Int) (sprite : Sprite) :
    s.draw x y sprite =
      .ok (((s.targets x y sprite).foldl invert (s.pixels, false)).2,
        { s with
          pixels := ((s.targets x y sprite).foldl invert (s.pixels, false)).1,
          dirty := true }) := by
  have hwidth := h.width
  have hheight := h.height
  rw [draw, if_neg (by omega)]

theorem draw (h : s.Framed) {x y : Int} {sprite : Sprite} {collided : Bool}
    (hd : s.draw x y sprite = .ok (collided, s')) : s'.Framed := by
  rw [h.draw_eq] at hd
  cases hd
  exact ⟨h.width, h.height, by rw [size_foldl_invert, h.pixels]⟩

section Drawn

variable {x y : Int} {sprite : Sprite} {collided : Bool}

theorem size_draw (h : s.Framed) (hd : s.draw x y sprite = .ok (collided, s')) :
    s'.pixels.size = s.pixels.size := by
  rw [h.draw_eq] at hd
  cases hd
  exact size_foldl_invert _ _

/-- A drawing inverts the pixels that the sprite hits an odd number of times. -/
theorem getD_draw (h : s.Framed) (hd : s.draw x y sprite = .ok (collided, s')) (k : Nat) :
    s'.pixels.getD k false =
      (s.pixels.getD k false ^^ decide (hits s.pixels.size (s.targets x y sprite) k % 2 = 1)) := by
  rw [h.draw_eq] at hd
  cases hd
  exact getD_foldl_invert _ _ _ k

/-- It collides when it hits a lit pixel, or any pixel twice. -/
theorem collided_iff_hits (h : s.Framed) (hd : s.draw x y sprite = .ok (collided, s')) :
    collided = true ↔
      ∃ k, 0 < hits s.pixels.size (s.targets x y sprite) k ∧ s.pixels.getD k false = true ∨
        1 < hits s.pixels.size (s.targets x y sprite) k := by
  rw [h.draw_eq] at hd
  cases hd
  rw [collided_foldl_invert_iff, or_iff_right Bool.false_ne_true]

end Drawn

/-- A sprite without a bit set hits nothing, any other hits a pixel. -/
theorem exists_hit_iff (h : s.Framed) {x y : Int} {sprite : Sprite} :
    (∃ k, 0 < hits s.pixels.size (s.targets x y sprite) k) ↔ ∃ bits ∈ sprite, bits ≠ 0 := by
  rw [← Sprite.exists_mem_cells_iff]
  constructor
  · rintro ⟨k, hk⟩
    obtain ⟨place, hplace, -⟩ := List.countP_pos_iff.mp hk
    obtain ⟨cell, hcell, -⟩ := List.mem_map.mp hplace
    exact ⟨cell, hcell⟩
  · rintro ⟨cell, hcell⟩
    -- on a screen with columns and rows every lit cell has a pixel to hit
    obtain ⟨slot, hslot⟩ := h.exists_slot x y cell
    exact ⟨slot, hits_pos (List.mem_map_of_mem hcell) hslot⟩

/-- **A sprite drawn twice leaves the picture as it was**, and one of the two drawings collides
unless the sprite is empty. -/
theorem draw_twice (h : s.Framed) (x y : Int) (sprite : Sprite) :
    ∃ first second t t', s.draw x y sprite = .ok (first, t) ∧ t.draw x y sprite = .ok (second, t') ∧
      t'.pixels = s.pixels ∧
      ((first = true ∨ second = true) ↔ ∃ bits ∈ sprite, bits ≠ 0) := by
  obtain ⟨t, hfirst, hwidth, hheight, hpixels⟩ : ∃ t, s.draw x y sprite =
      .ok (((s.targets x y sprite).foldl invert (s.pixels, false)).2, t) ∧ t.width = s.width ∧
        t.height = s.height ∧
        t.pixels = ((s.targets x y sprite).foldl invert (s.pixels, false)).1 :=
    ⟨_, h.draw_eq x y sprite, rfl, rfl, rfl⟩
  have hsize : t.pixels.size = s.pixels.size := by rw [hpixels, size_foldl_invert]
  have hsecond := (h.draw hfirst).draw_eq x y sprite
  rw [targets_congr hwidth hheight] at hsecond
  refine ⟨_, _, t, _, hfirst, hsecond, ?restored, ?collides⟩
  case restored =>
    apply eq_of_getD
    · rw [size_foldl_invert, hsize]
    · intro k
      show ((s.targets x y sprite).foldl invert (t.pixels, false)).1.getD k false = _
      rw [getD_foldl_invert, hsize, hpixels, getD_foldl_invert, Bool.xor_assoc, Bool.xor_self,
        Bool.xor_false]
  case collides =>
    rw [collided_foldl_invert_iff, collided_foldl_invert_iff, hsize,
      ← h.exists_hit_iff (x := x) (y := y)]
    constructor
    · rintro ((hfalse | ⟨k, hk⟩) | (hfalse | ⟨k, hk⟩))
      · cases hfalse
      · exact ⟨k, by omega⟩
      · cases hfalse
      · exact ⟨k, by omega⟩
    · rintro ⟨k, hk⟩
      by_cases htwice : 1 < hits s.pixels.size (s.targets x y sprite) k
      · exact Or.inl (Or.inr ⟨k, Or.inr htwice⟩)
      cases hlit : s.pixels.getD k false with
      | true => exact Or.inl (Or.inr ⟨k, Or.inl ⟨hk, hlit⟩⟩)
      | false =>
        -- hit once, an unlit pixel is lit when the sprite comes again
        have honce : hits s.pixels.size (s.targets x y sprite) k = 1 := by omega
        have hlit' : t.pixels.getD k false = true := by
          rw [hpixels, getD_foldl_invert, hlit, honce]
          rfl
        exact Or.inr (Or.inr ⟨k, Or.inl ⟨hk, hlit'⟩⟩)

/-! ## Several sprites -/

/-- **The picture after several sprites is that of all their positions together.** Induction on the
sprites; drawing one does not move the others. -/
theorem drawAll_eq (h : s.Framed) (stamps : List Stamp) :
    ∃ t, s.drawAll stamps = .ok t ∧
      t.pixels = ((stamps.flatMap fun stamp => s.targets stamp.x stamp.y stamp.sprite).foldl invert
        (s.pixels, false)).1 := by
  induction stamps generalizing s with
  | nil => exact ⟨s, rfl, rfl⟩
  | cons stamp stamps ih =>
    obtain ⟨t, ht, hpixels⟩ := ih (h.draw (h.draw_eq stamp.x stamp.y stamp.sprite))
    refine ⟨t, ?_, ?_⟩
    · rw [drawAll, h.draw_eq]
      exact ht
    · rw [hpixels, List.flatMap_cons, List.foldl_append]
      -- what was hit before decides the picture, whether it collided or not
      exact foldl_invert_congr _ _ fun k => rfl

end Framed

/-- **Drawings commute, wrap around and cancel.** On a screen with columns and rows, several sprites
give the same picture in every order; a sprite that is moved by whole widths and heights is the same
drawing; and a sprite drawn twice in a row restores every pixel, with a collision in one of the two
drawings exactly when it has a bit set. -/
theorem draws_commute_and_cancel (h : s.Framed) :
    (∀ stamps stamps' : List Stamp, stamps.Perm stamps' →
      ∃ t t', s.drawAll stamps = .ok t ∧ s.drawAll stamps' = .ok t' ∧ t'.pixels = t.pixels) ∧
    (∀ x y a b sprite,
      s.draw (x + a * s.width) (y + b * s.height) sprite = s.draw x y sprite) ∧
    ∀ x y sprite, ∃ first second t t',
      s.draw x y sprite = .ok (first, t) ∧ t.draw x y sprite = .ok (second, t') ∧
        t'.pixels = s.pixels ∧
        ((first = true ∨ second = true) ↔ ∃ bits ∈ sprite, bits ≠ 0) := by
  refine ⟨fun stamps stamps' hperm => ?_, draw_shift s, h.draw_twice⟩
  obtain ⟨t, ht, hpixels⟩ := h.drawAll_eq stamps
  obtain ⟨t', ht', hpixels'⟩ := h.drawAll_eq stamps'
  refine ⟨t, t', ht, ht', ?_⟩
  rw [hpixels, hpixels']
  exact foldl_invert_congr _ _ fun k => by rw [hits_perm (hperm.flatMap_right _)]

/-- A sprite of eight columns that wraps onto itself on a screen of three, and another one. -/
theorem draws_commute_and_cancel_narrow :
    (create 3 2).Framed ∧
      (∃ t t', (create 3 2).drawAll [⟨-1, 5, [0xFF]⟩, ⟨1, 0, [0x80, 0x81, 0x01]⟩] = .ok t ∧
        (create 3 2).drawAll [⟨1, 0, [0x80, 0x81, 0x01]⟩, ⟨-1, 5, [0xFF]⟩] = .ok t' ∧
        t'.pixels = t.pixels) ∧
      (create 3 2).draw (-1 + 7 * 3) (5 + -4 * 2) [0xFF] = (create 3 2).draw (-1) 5 [0xFF] ∧
      ∃ first second t t', (create 3 2).draw (-1) 5 [0xFF] = .ok (first, t) ∧
        t.draw (-1) 5 [0xFF] = .ok (second, t') ∧ t'.pixels = (create 3 2).pixels ∧
        (first = true ∨ second = true) := by
  have hframed : (create 3 2).Framed := ⟨by decide, by decide, by decide⟩
  obtain ⟨hperm, hshift, htwice⟩ := draws_commute_and_cancel hframed
  obtain ⟨first, second, t, t', hfirst, hsecond, hpixels, hcollides⟩ := htwice (-1) 5 [0xFF]
  exact ⟨hframed, hperm _ _ (List.Perm.swap _ _ []), hshift (-1) 5 7 (-4) [0xFF], first, second, t,
    t', hfirst, hsecond, hpixels, hcollides.mpr ⟨0xFF, by simp, by decide⟩⟩

end Screen

end ChipEight
