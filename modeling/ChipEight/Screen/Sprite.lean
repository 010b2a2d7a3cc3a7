/-!
# Sprites

A sprite is a list of bytes, one for each row, eight columns wide, the most significant bit of a
byte at the left.
-/

namespace ChipEight

/-- The rows of a sprite, from the top. -/
abbrev Sprite : Type :=
  List UInt8

namespace Sprite

def width : Nat := 8

def lit (bits : UInt8) (column : Nat) : Bool :=
  bits.toNat.testBit (width - 1 - column)

/-- The lit columns of a row, from the left. -/
def litColumns (bits : UInt8) : List Nat :=
  (List.range width).filter (lit bits)

/-- The lit cells of a sprite whose top row has number `top`, as pairs of row and column, row after
row. -/
def cellsFrom (top : Nat) : Sprite → List (Nat × Nat)
  | [] => []
  | bits :: rest => (litColumns bits).map (fun column => (top, column)) ++ cellsFrom (top + 1) rest

def cells (sprite : Sprite) : List (Nat × Nat) :=
  cellsFrom 0 sprite

/-- A cell is lit when its row has that bit. -/
theorem mem_cellsFrom {top row column : Nat} {sprite : Sprite} :
    (row, column) ∈ cellsFrom top sprite ↔
      top ≤ row ∧ column < width ∧
        ∃ bits, sprite[row - top]? = some bits ∧ lit bits column = true := by
  induction sprite generalizing top with
  | nil => simp [cellsFrom]
  | cons bits rest ih =>
    simp only [cellsFrom, List.mem_append, List.mem_map, litColumns, List.mem_filter,
      List.mem_range, Prod.mk.injEq, ih]
    constructor
    · rintro (⟨c, ⟨hc, hl⟩, rfl, rfl⟩ | ⟨ht, hc, b, hb, hl⟩)
      · exact ⟨Nat.le_refl _, hc, bits, by simp, hl⟩
      · refine ⟨by omega, hc, b, ?_, hl⟩
        rw [show row - top = (row - (top + 1)) + 1 by omega]
        simpa using hb
    · rintro ⟨ht, hc, b, hb, hl⟩
      by_cases he : row = top
      · subst he
        simp only [Nat.sub_self, List.getElem?_cons_zero, Option.some.injEq] at hb
        subst hb
        exact Or.inl ⟨column, ⟨hc, hl⟩, rfl, rfl⟩
      · refine Or.inr ⟨by omega, hc, b, ?_, hl⟩
        rw [show row - top = (row - (top + 1)) + 1 by omega] at hb
        simpa using hb

end Sprite

end ChipEight
