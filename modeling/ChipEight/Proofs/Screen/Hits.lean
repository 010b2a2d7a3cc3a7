import ChipEight.Screen.Basic

/-!
# Hits

A sprite is drawn by inverting one position after the other, and a sprite that wraps onto itself
comes to the same pixel more than once. All that the final picture and the collision depend on is
how often each pixel was hit, and whether it was lit before.

* **`getD_foldl_invert`** — a pixel ends up inverted when it was hit an odd number of times.
* **`collided_foldl_invert_iff`** — a lit pixel was turned off on the way when a lit pixel was hit,
  or any pixel twice.
* **`foldl_invert_congr`** — so the order of the positions makes no difference to the picture.
-/

namespace ChipEight.Screen

/-- How many of the positions name pixel `k` of `size` pixels. -/
def hits (size : Nat) (places : List Int) (k : Nat) : Nat :=
  places.countP fun place => decide ((Position.resolve? size place).map Fin.val = some k)

section Hits

variable {size : Nat} {place : Int} {places : List Int} {pixels : Array Bool} {collided : Bool}

theorem hits_nil (size k : Nat) : hits size [] k = 0 :=
  rfl

/-- A position that names no pixel counts for none. -/
theorem hits_cons_of_none (h : Position.resolve? size place = none) (k : Nat) :
    hits size (place :: places) k = hits size places k := by
  rw [hits, List.countP_cons_of_neg]
  · rfl
  · simp [h]

/-- A position that names a pixel is one hit more on it and none on any other. With the case before,
this is what inductions on the positions use. -/
theorem hits_cons_of_some {slot : Fin size} (h : Position.resolve? size place = some slot)
    (k : Nat) :
    hits size (place :: places) k = hits size places k + if slot.val = k then 1 else 0 := by
  rw [hits, List.countP_cons, h]
  simp only [Option.map_some, Option.some.injEq, decide_eq_true_eq]
  rfl

/-- The order of the positions does not matter to how often each pixel is hit. -/
theorem hits_perm {places' : List Int} (h : places.Perm places') (k : Nat) :
    hits size places k = hits size places' k :=
  h.countP_eq _

theorem hits_pos {slot : Fin size} (hmem : place ∈ places)
    (h : Position.resolve? size place = some slot) : 0 < hits size places slot.val := by
  apply List.countP_pos_iff.mpr
  exact ⟨place, hmem, by simp [h]⟩

/-- Only pixels that there are get hit. -/
theorem lt_size_of_hits_pos {k : Nat} (h : 0 < hits size places k) : k < size := by
  obtain ⟨place, -, hplace⟩ := List.countP_pos_iff.mp h
  rw [decide_eq_true_eq, Option.map_eq_some_iff] at hplace
  obtain ⟨slot, -, rfl⟩ := hplace
  exact slot.isLt

theorem invert_of_none (h : Position.resolve? pixels.size place = none) :
    invert (pixels, collided) place = (pixels, collided) := by
  simp only [invert, h]

/-- A position that names a pixel inverts it, and collides if the pixel was lit. Positions are not
resolved again after this: both parts are said by the pixel's number. -/
theorem invert_of_some {slot : Fin pixels.size}
    (h : Position.resolve? pixels.size place = some slot) :
    invert (pixels, collided) place =
      (pixels.setIfInBounds slot.val (!pixels.getD slot.val false),
        collided || pixels.getD slot.val false) := by
  have hlit : pixels.getD slot.val false = pixels[slot] := by
    rw [Array.getD, dif_pos slot.isLt]
    rfl
  rw [hlit, Array.setIfInBounds, dif_pos slot.isLt]
  simp only [invert, h]

/-- One pixel inverted, seen from any pixel. -/
theorem getD_setIfInBounds_not (pixels : Array Bool) (slot : Fin pixels.size) (k : Nat) :
    (pixels.setIfInBounds slot.val (!pixels.getD slot.val false)).getD k false =
      (pixels.getD k false ^^ decide (slot.val = k)) := by
  rw [Array.getD_eq_getD_getElem?, Array.getD_eq_getD_getElem?, Array.getElem?_setIfInBounds]
  by_cases hk : slot.val = k
  · subst hk
    simp
  · simp [hk]

/-- **A pixel is inverted when it was hit an odd number of times.** Induction on the positions, each
of which inverts one pixel or, where it names none, nothing. -/
theorem getD_foldl_invert (places : List Int) (pixels : Array Bool) (collided : Bool) (k : Nat) :
    (places.foldl invert (pixels, collided)).1.getD k false =
      (pixels.getD k false ^^ decide (hits pixels.size places k % 2 = 1)) := by
  induction places generalizing pixels collided with
  | nil => simp [hits_nil]
  | cons place places ih =>
    rw [List.foldl_cons]
    -- the first position inverts its pixel, and the rest are counted on what that leaves
    cases h : Position.resolve? pixels.size place with
    | none => rw [invert_of_none h, ih, hits_cons_of_none h]
    | some slot =>
      rw [invert_of_some h, ih, Array.size_setIfInBounds, getD_setIfInBounds_not,
        hits_cons_of_some h]
      by_cases hk : slot.val = k
      · -- one hit more changes the parity
        have hparity : decide ((hits pixels.size places k + 1) % 2 = 1) =
            !decide (hits pixels.size places k % 2 = 1) := by
          rw [← decide_not]
          congr 1
          apply propext
          omega
        rw [if_pos hk, hparity]
        cases pixels.getD k false <;> simp [hk]
      · simp [hk]

/-- **A lit pixel was turned off when a lit one was hit, or any one twice.** Of two hits on a pixel
one finds it lit. -/
theorem collided_foldl_invert_iff (places : List Int) (pixels : Array Bool) (collided : Bool) :
    (places.foldl invert (pixels, collided)).2 = true ↔
      collided = true ∨
        ∃ k, 0 < hits pixels.size places k ∧ pixels.getD k false = true ∨
          1 < hits pixels.size places k := by
  induction places generalizing pixels collided with
  | nil => simp [hits_nil]
  | cons place places ih =>
    rw [List.foldl_cons]
    -- the pixels that the rest find are those with the first one inverted
    cases h : Position.resolve? pixels.size place with
    | none => simp only [invert_of_none h, ih, hits_cons_of_none h]
    | some slot =>
      rw [invert_of_some h, ih]
      simp only [Array.size_setIfInBounds, getD_setIfInBounds_not, hits_cons_of_some h,
        Bool.or_eq_true]
      constructor
      · rintro ((hc | hlit) | ⟨k, ⟨hhit, hlit⟩ | htwice⟩)
        · exact Or.inl hc
        · exact Or.inr ⟨slot, Or.inl ⟨by simp, hlit⟩⟩
        · -- if this pixel is hit again later on, it is hit twice
          by_cases hk : slot.val = k
          · exact Or.inr ⟨k, Or.inr (by rw [if_pos hk]; omega)⟩
          · exact Or.inr ⟨k, Or.inl ⟨by omega, by simpa [hk] using hlit⟩⟩
        · exact Or.inr ⟨k, Or.inr (by omega)⟩
      · rintro (hc | ⟨k, hk⟩)
        · exact Or.inl (Or.inl hc)
        by_cases hsame : slot.val = k
        · subst hsame
          rw [if_pos rfl] at hk
          by_cases hlit : pixels.getD slot.val false = true
          · exact Or.inl (Or.inr hlit)
          · -- an unlit pixel is hit twice: the second time it is lit
            have hunlit : pixels.getD slot.val false = false := by simpa using hlit
            have hagain : 0 < hits pixels.size places slot.val := by simp_all
            exact Or.inr ⟨slot, Or.inl ⟨hagain, by simp [hunlit]⟩⟩
        · rw [if_neg hsame] at hk
          exact Or.inr ⟨k, by simpa [hsame] using hk⟩

/-- Inverting changes pixels and not how many there are. -/
theorem size_foldl_invert (places : List Int) (state : Array Bool × Bool) :
    (places.foldl invert state).1.size = state.1.size := by
  induction places generalizing state with
  | nil => rfl
  | cons place places ih => rw [List.foldl_cons, ih, size_invert]

theorem eq_of_getD {pixels' : Array Bool} (hsize : pixels.size = pixels'.size)
    (h : ∀ k, pixels.getD k false = pixels'.getD k false) : pixels = pixels' := by
  apply Array.ext hsize
  intro k hk hk'
  have hpixel := h k
  rw [Array.getD_eq_getD_getElem?, Array.getD_eq_getD_getElem?, Array.getElem?_eq_getElem hk,
    Array.getElem?_eq_getElem hk'] at hpixel
  exact hpixel

/-- **The picture depends on the parity of the hits alone**, pixel by pixel. -/
theorem foldl_invert_congr {places' : List Int} (collided collided' : Bool)
    (h : ∀ k, hits pixels.size places k % 2 = hits pixels.size places' k % 2) :
    (places.foldl invert (pixels, collided)).1 = (places'.foldl invert (pixels, collided')).1 := by
  apply eq_of_getD
  · rw [size_foldl_invert, size_foldl_invert]
  · intro k
    rw [getD_foldl_invert, getD_foldl_invert, h k]

end Hits

end ChipEight.Screen
