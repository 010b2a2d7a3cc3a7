import ChipEight.Proofs.Action
import ChipEight.Proofs.Screen.Hits
import ChipEight.Screen.Command

/-!
# Rows and pixels

A host looks at a screen as rows of symbols, as the bytes of all pixels, or pixel by pixel. The
bytes lie row after row, so pixel `x` of row `y` is byte `y * width + x`, and the rows put together
are the pixels again, read off by which symbol is which.

* **`Spans`**, **`Spans.afterAll`** — no request changes how large a screen is.
* **`Spans.rows_eq`**, **`Spans.getElem?_rows`** — the rows, and a symbol of one.
* **`Spans.flatten_rows`** — the rows put together are the pixels.
* **`Spans.pixels_of_rows`**, **`Spans.rows_inj`** — so nothing is lost, where the two symbols
  differ.
* **`Shown`**, **`Spans.lit_iff`** — the three ways in which a host looks at a screen agree.
-/

namespace ChipEight.Screen

variable {α : Type} {width height x y : Nat} {s s' : Screen} {on off : α}

/-- The screen after a list of requests, refused ones among them. -/
def afterAll (s : Screen) (calls : List Command) : Screen :=
  Action.afterEach Command.run calls s

/-- A screen of so many columns and rows, with a pixel for each place. -/
structure Spans (width height : Nat) (s : Screen) : Prop where
  pixels : s.pixels.size = width * height
  width : s.width = width
  height : s.height = height

/-! ## Requests to a screen -/

/-- A refused drawing changes nothing, so only one that is carried out is looked at. -/
theorem keeps_drawing {P : Screen → Prop} (x y : Int) (sprite : Sprite)
    (h : ∀ s s' collided, P s → s.draw x y sprite = .ok (collided, s') → P s') :
    (drawing x y sprite).Keeps P := by
  intro s hs
  -- the request replies with the collision, or is refused and leaves the screen as it was
  cases hd : s.draw x y sprite with
  | ok drawn =>
    obtain ⟨collided, s'⟩ := drawn
    have hafter : drawing x y sprite s = .ok (.truth collided) s' := by simp only [drawing, hd]
    rw [Action.after_of_ok hafter]
    exact h s s' collided hs hd
  | error misuse =>
    have hafter : drawing x y sprite s = .error (.misuse misuse) s := by simp only [drawing, hd]
    rwa [Action.after_of_error hafter]

theorem size_blank (width height : Nat) : (blank width height).size = width * height := by
  rw [blank, Array.size_replicate, ← Int.natCast_mul, Int.toNat_natCast]

namespace Spans

theorem create (width height : Nat) : (create width height).Spans width height :=
  ⟨size_blank width height, rfl, rfl⟩

theorem clear (h : s.Spans width height) : s.clear.Spans width height := by
  refine ⟨?_, h.width, h.height⟩
  show (blank s.width s.height).size = _
  rw [h.width, h.height, size_blank]

/-- A reset makes the screen anew at the size it has. -/
theorem reset (h : s.Spans width height) : s.reset.Spans width height := by
  show (Screen.create s.width s.height).Spans width height
  rw [h.width, h.height]
  exact create width height

theorem clearDirty (h : s.Spans width height) : s.clearDirty.Spans width height :=
  ⟨h.pixels, h.width, h.height⟩

theorem draw (h : s.Spans width height) {x y : Int} {sprite : Sprite} {collided : Bool}
    (hd : s.draw x y sprite = .ok (collided, s')) : s'.Spans width height := by
  unfold Screen.draw at hd
  split at hd
  · cases hd
  · cases hd
    exact ⟨by rw [size_foldl_invert, h.pixels], h.width, h.height⟩

/-- No request changes the size, whether it is refused or not. -/
theorem keeps_run (c : Command) : c.run.Keeps (Spans width height) := by
  cases c with
  | clear => exact Action.keeps_always fun s h => h.clear
  | reset => exact Action.keeps_always fun s h => h.reset
  | clearDirty => exact Action.keeps_always fun s h => h.clearDirty
  | draw x y sprite => exact keeps_drawing x y sprite fun s s' collided h => h.draw
  | pixel x y => exact Action.keeps_reading _ _
  | rows on off => exact Action.keeps_answer _ _
  | snapshot => exact Action.keeps_answer _ _

theorem afterAll (h : s.Spans width height) (calls : List Command) :
    (s.afterAll calls).Spans width height :=
  Action.Keeps.afterEach (fun c _ => keeps_run c) h

/-! ## Rows -/

/-- The rows by their numbers, as a table of columns and rows. -/
theorem rows_eq (h : s.Spans width height) (on off : α) :
    s.rows [on] [off] = (List.range height).map fun y => (List.range width).map fun x =>
      if s.pixels.getD (y * width + x) false then on else off := by
  rw [rows, h.width, h.height, Int.toNat_natCast, Int.toNat_natCast]
  refine List.map_congr_left fun y _ => ?_
  rw [List.map_eq_flatMap]
  congr 1
  funext x
  split <;> rfl

theorem length_rows (h : s.Spans width height) : (s.rows [on] [off]).length = height := by
  rw [h.rows_eq, List.length_map, List.length_range]

/-- Every row is as long as the screen is wide, and of the two symbols alone. -/
theorem of_mem_rows (h : s.Spans width height) {row : List α} (hrow : row ∈ s.rows [on] [off]) :
    row.length = width ∧ ∀ c ∈ row, c = on ∨ c = off := by
  rw [h.rows_eq] at hrow
  obtain ⟨y, -, rfl⟩ := List.mem_map.mp hrow
  refine ⟨by rw [List.length_map, List.length_range], fun c hc => ?_⟩
  obtain ⟨x, -, rfl⟩ := List.mem_map.mp hc
  split <;> simp

theorem getElem?_rows (h : s.Spans width height) (on off : α) (hx : x < width) (hy : y < height) :
    ∃ row, (s.rows [on] [off])[y]? = some row ∧
      row[x]? = some (if s.pixels.getD (y * width + x) false then on else off) := by
  rw [h.rows_eq, List.getElem?_map, List.getElem?_range hy]
  refine ⟨_, rfl, ?_⟩
  rw [List.getElem?_map, List.getElem?_range hx]
  rfl

/-! ## Rows put together -/

/-- Counting row by row is counting up. Induction on the number of rows. -/
theorem flatten_map_range (f : Nat → α) (width height : Nat) :
    ((List.range height).map fun y => (List.range width).map fun x => f (y * width + x)).flatten =
      (List.range (height * width)).map f := by
  induction height with
  | zero => simp
  | succ height ih =>
    rw [List.range_succ, List.map_append, List.flatten_append, ih, Nat.succ_mul, List.range_add,
      List.map_append, List.map_map]
    simp [Function.comp_def]

/-- **The rows put together are the pixels.** -/
theorem flatten_rows (h : s.Spans width height) (on off : α) :
    (s.rows [on] [off]).flatten = s.pixels.toList.map fun lit => if lit then on else off := by
  rw [h.rows_eq, flatten_map_range fun k => if s.pixels.getD k false then on else off]
  apply List.ext_getElem
  · simp [h.pixels, Nat.mul_comm]
  · intro k hk hk'
    have hheld : k < s.pixels.size := by simpa using hk'
    simp [hheld]

section Apart

variable [DecidableEq α]

/-- Where the two symbols differ, the rows give the pixels back. -/
theorem pixels_of_rows (h : s.Spans width height) (hne : on ≠ off) :
    (s.rows [on] [off]).flatten.map (fun c => decide (c = on)) = s.pixels.toList := by
  rw [h.flatten_rows, List.map_map]
  have hback : ((fun c => decide (c = on)) ∘ fun lit : Bool => if lit then on else off) = id := by
    funext lit
    cases lit <;> simp [hne.symm]
  rw [hback, List.map_id]

/-- So screens of one size with the same rows have the same pixels. -/
theorem rows_inj (h : s.Spans width height) (h' : s'.Spans width height) (hne : on ≠ off) :
    s.rows [on] [off] = s'.rows [on] [off] ↔ s.pixels = s'.pixels := by
  constructor
  · intro hrows
    apply Array.toList_inj.mp
    rw [← h.pixels_of_rows hne, ← h'.pixels_of_rows hne, hrows]
  · intro hpixels
    rw [h.rows_eq, h'.rows_eq, hpixels]

end Apart

end Spans

/-! ## Bytes and single pixels -/

/-- The pixels as bytes. -/
def snapshot (s : Screen) : List UInt8 :=
  s.pixels.toList.map fun lit => if lit then 1 else 0

/-- The bytes give the pixels back as well. -/
theorem snapshot_inj : s.snapshot = s'.snapshot ↔ s.pixels = s'.pixels := by
  have hbytes : ∀ lit lit' : Bool,
      (if lit then (1 : UInt8) else 0) = (if lit' then 1 else 0) → lit = lit' := by decide
  rw [snapshot, snapshot, List.map_inj_right hbytes, Array.toList_inj]

namespace Spans

/-- A column and a row of the screen have a pixel. Multiplication is why this is not left to
arithmetic alone. -/
theorem lt_size (h : s.Spans width height) (hx : x < width) (hy : y < height) :
    y * width + x < s.pixels.size := by
  have hrows : (y + 1) * width ≤ height * width := Nat.mul_le_mul_right width hy
  rw [Nat.succ_mul] at hrows
  rw [h.pixels, Nat.mul_comm width]
  omega

theorem pixel_eq (h : s.Spans width height) (hx : x < width) (hy : y < height) :
    s.pixel x y = .ok (s.pixels.getD (y * width + x) false) := by
  have hposition : s.position x y = ((y * width + x : Nat) : Int) := by
    rw [position, h.width, Int.natCast_add, Int.natCast_mul]
  have hheld := h.lt_size hx hy
  rw [pixel, hposition, Position.resolve?_ofNat hheld, Array.getD, dif_pos hheld]
  rfl

theorem getElem?_snapshot (h : s.Spans width height) (hx : x < width) (hy : y < height) :
    s.snapshot[y * width + x]? =
      some (if s.pixels.getD (y * width + x) false then 1 else 0) := by
  have hheld := h.lt_size hx hy
  rw [snapshot, List.getElem?_map, Array.getElem?_toList, Array.getElem?_eq_getElem hheld,
    Array.getD, dif_pos hheld]
  rfl

end Spans

/-! ## What a host is shown -/

/-- A host is given these rows of two symbols and these bytes. -/
structure Shown (s : Screen) (on off : Text.Symbol) (lines : List Text) (bytes : List UInt8) :
    Prop where
  rows : (Command.rows [on] [off]).run s = .ok (.texts lines) s
  snapshot : Command.snapshot.run s = .ok (.bytes bytes) s

theorem shown (s : Screen) (on off : Text.Symbol) : s.Shown on off (s.rows [on] [off]) s.snapshot :=
  ⟨rfl, rfl⟩

/-- What a host is given is what the screen has, and asking changes nothing. -/
theorem Shown.eq {on off : Text.Symbol} {lines : List Text} {bytes : List UInt8}
    (h : s.Shown on off lines bytes) : lines = s.rows [on] [off] ∧ bytes = s.snapshot := by
  obtain ⟨hrows, hsnapshot⟩ := h
  cases hrows
  cases hsnapshot
  exact ⟨rfl, rfl⟩

namespace Spans

/-- A pixel is lit in one view of the screen if it is in the others. -/
theorem lit_iff (h : s.Spans width height) (hne : on ≠ off) (hx : x < width) (hy : y < height) :
    ∃ row, (s.rows [on] [off])[y]? = some row ∧
      (row[x]? = some on ↔ (Command.pixel x y).run s = .ok (.number 1) s) ∧
      ((Command.pixel x y).run s = .ok (.number 1) s ↔
        s.snapshot[y * width + x]? = some 1) := by
  obtain ⟨row, hrow, hsymbol⟩ := h.getElem?_rows on off hx hy
  refine ⟨row, hrow, ?_⟩
  have hpixel : (Command.pixel x y).run s =
      .ok (.number (s.pixels.getD (y * width + x) false).toNat) s := by
    simp only [Command.run, Action.reading, h.pixel_eq hx hy, Except.map, Error.ofMisuse]
  rw [hsymbol, hpixel, h.getElem?_snapshot hx hy]
  cases s.pixels.getD (y * width + x) false <;> simp [hne.symm]

/-- The rows, read symbol by symbol, are the bytes. -/
theorem snapshot_of_rows [DecidableEq α] (h : s.Spans width height) (hne : on ≠ off) :
    (s.rows [on] [off]).flatten.map (fun c => if c = on then 1 else 0) = s.snapshot := by
  rw [snapshot, ← h.pixels_of_rows hne, List.map_map]
  simp [Function.comp_def]

end Spans

end ChipEight.Screen
