import ChipEight.Proofs.Playback.Accounting

/-!
# The reported screen

A report shows the screen as rows of text. The machine that is played stays of its size, so nothing
is lost on the way: the rows give back every pixel.

* **`keys_of_report`** — there is a report only where all keys exist.
* **`screen_of_picture`** — the screen of a well-formed machine from its rows and its flag.
* **`display_loses_nothing`** — for any screen after any requests, and for every playback.
-/

namespace ChipEight.Playback

variable {random : Random.Twister} {image : List UInt8} {options : Options} {report : Report}

/-- A key that does not exist leaves no report, so a report tells that they all do. -/
theorem keys_of_report (hfit : image.length ≤ Memory.programLimit)
    (h : (runWith random image options).report = .ok report) :
    ∀ k ∈ options.keys, 0 ≤ k ∧ k < 16 := by
  have hload := Machine.loadProgram_of_sized (Machine.wellFormed_powerOn random).sized hfit
  simp only [runWith, hload, playLoaded] at h
  split at h
  · cases h
  · next keypad hpress => exact keys_of_pressAll hpress

/-- The pixels that rows of text show. -/
def decodePicture (display : List String) : Array Bool :=
  ((display.flatMap String.toList).map fun c => decide (c = Screen.defaultOn)).toArray

/-- The rows put together and read symbol by symbol are the pixels. The rest of the screen is its
size, which is known, and its flag. -/
theorem screen_of_picture {s : Screen} (h : s.WellFormed) :
    s = { width := 64, height := 32, pixels := decodePicture s.picture, dirty := s.dirty } := by
  -- the strings of the picture are the rows, symbol by symbol
  have hchars : s.picture.flatMap String.toList =
      (s.rows [Screen.defaultOn] [Screen.defaultOff]).flatten := by
    rw [Screen.picture, List.flatMap_map]
    simp only [String.toList_ofList, List.flatMap_id']
  have hpixels : decodePicture s.picture = s.pixels := by
    rw [decodePicture, hchars, h.spans.pixels_of_rows (by decide)]
  rw [hpixels]
  obtain ⟨width, height, pixels, dirty⟩ := s
  obtain rfl : width = 64 := h.width
  obtain rfl : height = 32 := h.height
  rfl

/-- A picture has as many rows and columns as the screen. -/
theorem length_picture {s : Screen} (h : s.WellFormed) :
    s.picture.length = 32 ∧ ∀ row ∈ s.picture, row.length = 64 := by
  constructor
  · rw [Screen.picture, List.length_map, h.spans.length_rows]
  · intro row hrow
    obtain ⟨line, hline, rfl⟩ := List.mem_map.mp hrow
    rw [String.length_ofList]
    exact (h.spans.of_mem_rows hline).1

/-- Steps and ticks keep the screen of the machine that is played in range. -/
theorem wellFormed_screen_of_accounts (hfit : image.length ≤ Memory.programLimit)
    (hkeys : ∀ k ∈ options.keys, 0 ≤ k ∧ k < 16) {events : List Machine.Event}
    (h : report.Accounts options (prepared random image options.keys) events) :
    ((prepared random image options.keys).afterAll events).screen.WellFormed := by
  have hkinds : ∀ e ∈ events, e.kind ∈ Machine.Event.Kind.foreign := by
    intro e he
    rcases h.only e he with rfl | rfl <;> decide
  exact (Machine.kept_wellFormed.afterAll (wellFormed_prepared random hfit hkeys) events
    hkinds).screen

/-- **What is shown of a screen loses nothing.** Let a screen of any sizes have had any requests.
Its rows are as many as it has, each as long as it is wide, of the two symbols alone. A symbol is
the one for a lit pixel exactly if the pixel is 1, and exactly if its byte is. So the rows, read
symbol by symbol, give the bytes, and two screens of the same sizes have the same rows exactly if
they have the same bytes. And the display that is reported about a playback gives the screen of the
machine at the end. -/
theorem display_loses_nothing :
    (∀ (width height : Nat) (on off : Text.Symbol) (calls : List Screen.Command) (s : Screen),
      on ≠ off → s = (Screen.create width height).afterAll calls →
      ∃ rows bytes, s.Shown on off rows bytes ∧ rows.length = height ∧
        (∀ row ∈ rows, row.length = width ∧ ∀ c ∈ row, c = on ∨ c = off) ∧
        (∀ x y : Nat, x < width → y < height → ∃ row, rows[y]? = some row ∧
          (row[x]? = some on ↔ (Screen.Command.pixel x y).run s = .ok (.number 1) s) ∧
          ((Screen.Command.pixel x y).run s = .ok (.number 1) s ↔
            bytes[y * width + x]? = some 1)) ∧
        rows.flatten.map (fun c => if c = on then 1 else 0) = bytes ∧
        ∀ calls' rows' bytes',
          ((Screen.create width height).afterAll calls').Shown on off rows' bytes' →
          (rows = rows' ↔ bytes = bytes')) ∧
    ∀ (image : List UInt8) (options : Options), image.length ≤ 3584 →
      options.includeDisplay = true →
      (∀ chance, run chance image options =
        runWith (Random.seeded chance options.seed) image options) ∧
      ∀ random report, (runWith random image options).report = .ok report → ∃ events,
        report.Accounts options (prepared random image options.keys) events ∧
        report.display.length = 32 ∧ (∀ row ∈ report.display, row.length = 64) ∧
        ((prepared random image options.keys).afterAll events).screen =
          { width := 64, height := 32, pixels := decodePicture report.display,
            dirty := report.final.dirty } := by
  refine ⟨fun width height on off calls s hne hs => ?screen,
    fun image options hfit hdisplay =>
      ⟨fun chance => run_eq_runWith chance image options, fun random report hreport => ?playback⟩⟩
  case screen =>
    -- requests do not change the size, so both screens have the same one
    have hspans : ∀ calls, ((Screen.create width height).afterAll calls).Spans width height :=
      (Screen.Spans.create width height).afterAll
    have h : s.Spans width height := hs ▸ hspans calls
    refine ⟨_, _, s.shown on off, h.length_rows, fun row => h.of_mem_rows,
      fun x y => h.lit_iff hne, h.snapshot_of_rows hne, fun calls' rows' bytes' h' => ?_⟩
    obtain ⟨rfl, rfl⟩ := h'.eq
    rw [h.rows_inj (hspans calls') hne, Screen.snapshot_inj]
  case playback =>
    have hkeys := keys_of_report hfit hreport
    -- the report is accounted for, so its display is that of the machine at the end
    obtain ⟨accounted, events, hsame, haccounts, -⟩ := exists_accounts random options hfit hkeys
    obtain rfl : accounted = report := Except.ok.inj (hsame.symm.trans hreport)
    have hscreen := wellFormed_screen_of_accounts hfit hkeys haccounts
    have hpicture := haccounts.display
    rw [if_pos hdisplay] at hpicture
    obtain ⟨hlength, hrows⟩ := length_picture hscreen
    refine ⟨events, haccounts, ?_⟩
    rw [haccounts.final, hpicture]
    exact ⟨hlength, hrows, screen_of_picture hscreen⟩

/-- A screen of three columns and two rows, on which two pixels are drawn over its edge. -/
def narrowScreen : Screen :=
  (Screen.create 3 2).afterAll [.draw 2 1 [0xC0]]

/-- The drawing shows in the lower row, and a program that jumps to itself is reported with its
screen. -/
theorem display_loses_nothing_narrow :
    Text.Symbol.char '#' ≠ .char ' ' ∧
      narrowScreen.Shown (.char '#') (.char ' ')
        [[.char ' ', .char ' ', .char ' '], [.char '#', .char ' ', .char '#']] [0, 0, 0, 1, 0, 1] ∧
      (Screen.Command.pixel 0 1).run narrowScreen = .ok (.number 1) narrowScreen ∧
      ([0x12, 0x00] : List UInt8).length ≤ 3584 ∧
      ∀ chance, ∃ report, (run chance [0x12, 0x00] { frames := 2 }).report = .ok report ∧
        report.display.length = 32 := by
  have hne : Text.Symbol.char '#' ≠ .char ' ' := by decide
  have hfit : ([0x12, 0x00] : List UInt8).length ≤ 3584 := by decide
  obtain ⟨hscreens, hplaybacks⟩ := display_loses_nothing
  obtain ⟨rows, bytes, hshown, -, -, hplaces, -⟩ :=
    hscreens 3 2 _ _ [.draw 2 1 [0xC0]] narrowScreen hne rfl
  obtain ⟨hrows, hbytes⟩ := hshown.eq
  have hpixels : narrowScreen.pixels = #[false, false, false, true, false, true] := by decide
  obtain rfl : bytes = [0, 0, 0, 1, 0, 1] := by
    rw [hbytes, Screen.snapshot, hpixels]
    rfl
  -- the second pixel of the sprite wraps around to the first column
  obtain rfl : rows = [[.char ' ', .char ' ', .char ' '], [.char '#', .char ' ', .char '#']] := by
    rw [hrows]
    decide
  obtain ⟨_, -, -, hpixel⟩ := hplaces 0 1 (by decide) (by decide)
  refine ⟨hne, hshown, hpixel.mpr rfl, hfit, fun chance => ?_⟩
  obtain ⟨hrun, hreports⟩ := hplaybacks [0x12, 0x00] { frames := 2 } hfit rfl
  obtain ⟨report, -, hreport, -⟩ := exists_accounts chance { frames := 2 } hfit (by decide)
  obtain ⟨events, -, hlength, -⟩ := hreports _ report hreport
  exact ⟨report, (hrun chance).symm ▸ hreport, hlength⟩

end ChipEight.Playback
