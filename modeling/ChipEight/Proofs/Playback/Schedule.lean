import ChipEight.Playback.Session
import ChipEight.Proofs.Machine.Course

/-!
# Schedules

What a playback has its machine do is laid down by three numbers, as long as nothing fails: frame
after frame some steps and a tick. The steps run out in the middle of a frame at most once, and that
frame is the last.

* **`stepsBy`** — how many steps the first frames have together. A frame gets what is due by its end
  and was not due before (`budget_eq`).
* **`frameCount`** — how many frames there are. **`lt_frameCount_iff`** reads it as the two
  conditions on which a playback goes on to the next frame.
* **`schedule`** — the first frames as events, with **`stepCount_schedule`**,
  **`tickCount_schedule`** and **`exists_tick`** for what is where in it.

All numbers may be zero or negative, and then there are no frames, or frames without steps.
-/

namespace ChipEight.Playback

open Machine (Event stepCount tickCount)

/-- How many steps the first `k` frames have together. -/
def stepsBy (options : Options) (k : Nat) : Nat :=
  (min (k * max options.stepsPerFrame 0) options.maxSteps).toNat

/-- How many frames there are: none without steps to run, else those asked for or as many as it
takes to use up the steps, if these are fewer. -/
def frameCount (options : Options) : Nat :=
  if options.maxSteps ≤ 0 then 0
  else if options.stepsPerFrame ≤ 0 then options.frames.toNat
  else (min options.frames (-(-options.maxSteps / options.stepsPerFrame))).toNat

/-- The events of frame `k`, the first of which has number 0. -/
def frameEvents (options : Options) (k : Nat) : List Event :=
  List.replicate (stepsBy options (k + 1) - stepsBy options k) .oneStep ++ [.oneTick]

/-- The events of the first frames. -/
def schedule (options : Options) : Nat → List Event
  | 0 => []
  | k + 1 => schedule options k ++ frameEvents options k

variable {options : Options} {k : Nat}

/-! ## Frames and their steps -/

theorem succ_mul (k : Nat) (n : Int) : ((k + 1 : Nat) : Int) * n = k * n + n := by
  rw [Int.natCast_add, Int.add_mul, Int.natCast_one, Int.one_mul]

/-- A number is below a quotient that is rounded up if its multiple is below what is divided. -/
theorem lt_quotient_iff {k m n : Int} (h : 0 < n) : k < -(-m / n) ↔ k * n < m := by
  have hflip : -m / n < -k ↔ -m < -k * n := Int.ediv_lt_iff_lt_mul h
  rw [Int.neg_mul] at hflip
  omega

theorem stepsBy_of_frame_empty (h : options.stepsPerFrame ≤ 0) (k : Nat) :
    stepsBy options k = 0 := by
  have hnone : max options.stepsPerFrame 0 = 0 := by omega
  rw [stepsBy, hnone, Int.mul_zero]
  omega

theorem stepsBy_of_frame_pos (h : 0 < options.stepsPerFrame) (k : Nat) :
    stepsBy options k = (min (k * options.stepsPerFrame) options.maxSteps).toNat := by
  have hsome : max options.stepsPerFrame 0 = options.stepsPerFrame := by omega
  rw [stepsBy, hsome]

/-- A frame never takes steps back. -/
theorem stepsBy_le_succ (options : Options) (k : Nat) :
    stepsBy options k ≤ stepsBy options (k + 1) := by
  have hframe : (0 : Int) ≤ max options.stepsPerFrame 0 := by omega
  rw [stepsBy, stepsBy, succ_mul]
  omega

/-- A frame that begins before the steps are used up gets what is due by its end. -/
theorem budget_eq (hleft : (stepsBy options k : Int) < options.maxSteps) :
    Session.budget options (stepsBy options k) = stepsBy options (k + 1) - stepsBy options k := by
  unfold Session.budget
  -- a frame without steps gets none, and any other what the limit on all steps leaves of its own
  by_cases h : options.stepsPerFrame ≤ 0
  · rw [stepsBy_of_frame_empty h, stepsBy_of_frame_empty h]
    omega
  · have hpos : 0 < options.stepsPerFrame := by omega
    have hdone : (0 : Int) ≤ k * options.stepsPerFrame := Int.mul_nonneg (by omega) (by omega)
    rw [stepsBy_of_frame_pos hpos] at hleft
    rw [stepsBy_of_frame_pos hpos, stepsBy_of_frame_pos hpos, succ_mul]
    omega

/-- **A playback has another frame as long as frames are asked for and steps are left.** -/
theorem lt_frameCount_iff :
    k < frameCount options ↔
      k < options.frames.toNat ∧ (stepsBy options k : Int) < options.maxSteps := by
  unfold frameCount
  split
  · omega
  split
  · rw [stepsBy_of_frame_empty ‹_›]
    omega
  · have hpos : 0 < options.stepsPerFrame := by omega
    have hdone : (0 : Int) ≤ k * options.stepsPerFrame := Int.mul_nonneg (by omega) (by omega)
    -- the quotient is rounded up, so a frame that is cut short counts as one
    have hround : (k : Int) < -(-options.maxSteps / options.stepsPerFrame) ↔
        k * options.stepsPerFrame < options.maxSteps := lt_quotient_iff hpos
    rw [stepsBy_of_frame_pos hpos]
    omega

/-- The number of frames as a host would write it, with numbers that may be negative. -/
theorem frameCount_eq (options : Options) :
    (frameCount options : Int) =
      if options.maxSteps ≤ 0 then 0
      else if options.stepsPerFrame ≤ 0 then max options.frames 0
      else min (max options.frames 0) (-(-options.maxSteps / options.stepsPerFrame)) := by
  unfold frameCount
  split
  · rfl
  split
  · omega
  · have hpos : 0 < options.stepsPerFrame := by omega
    -- some steps take some frames
    have hsome : 0 < -(-options.maxSteps / options.stepsPerFrame) := by
      rw [lt_quotient_iff hpos, Int.zero_mul]
      omega
    omega

theorem frameCount_le (options : Options) : frameCount options ≤ options.frames.toNat := by
  unfold frameCount
  split
  · omega
  split <;> omega

/-- **All frames together have as many steps as frames and steps allow.** -/
theorem stepsBy_frameCount (options : Options) :
    (stepsBy options (frameCount options) : Int) =
      min (max options.frames 0 * max options.stepsPerFrame 0) (max options.maxSteps 0) := by
  have hframes : (options.frames.toNat : Int) = max options.frames 0 := by omega
  by_cases hsteps : options.maxSteps ≤ 0
  · have hnone : (0 : Int) ≤ max options.frames 0 * max options.stepsPerFrame 0 :=
      Int.mul_nonneg (by omega) (by omega)
    rw [stepsBy]
    omega
  by_cases h : options.stepsPerFrame ≤ 0
  · have hnone : max options.stepsPerFrame 0 = 0 := by omega
    rw [stepsBy_of_frame_empty h, hnone, Int.mul_zero]
    omega
  · have hsome : max options.stepsPerFrame 0 = options.stepsPerFrame := by omega
    have hdone : (0 : Int) ≤ frameCount options * options.stepsPerFrame :=
      Int.mul_nonneg (by omega) (by omega)
    have hle : (frameCount options : Int) * options.stepsPerFrame ≤
        options.frames.toNat * options.stepsPerFrame := by
      have hcount := frameCount_le options
      exact Int.mul_le_mul_of_nonneg_right (by omega) (by omega)
    -- after the last frame either all frames are done or all steps are used up
    have hend : ¬ frameCount options < frameCount options := Nat.lt_irrefl _
    rw [lt_frameCount_iff] at hend
    rw [hsome, ← hframes]
    by_cases hall : frameCount options < options.frames.toNat
    · have hused : ¬ (stepsBy options (frameCount options) : Int) < options.maxSteps := fun hlt =>
        hend ⟨hall, hlt⟩
      rw [stepsBy_of_frame_pos (by omega)] at hused ⊢
      omega
    · have hcount : frameCount options = options.frames.toNat :=
        Nat.le_antisymm (frameCount_le options) (Nat.not_lt.mp hall)
      rw [stepsBy_of_frame_pos (by omega)]
      rw [hcount] at hdone ⊢
      omega

/-- **Short of the end of a frame.** Some of the steps of a frame and all before it are fewer than
all there are, and as many frames are full as come before. -/
theorem within_frame {j i : Nat} (hj : j < frameCount options)
    (hi : i < stepsBy options (j + 1) - stepsBy options j) :
    ((stepsBy options j + i : Nat) : Int) <
        min (options.frames * options.stepsPerFrame) options.maxSteps ∧
      (j : Int) = ((stepsBy options j + i : Nat) : Int) / options.stepsPerFrame := by
  obtain ⟨hframes, hleft⟩ := lt_frameCount_iff.mp hj
  -- a frame without steps has none to stop short of
  have hpos : 0 < options.stepsPerFrame := by
    refine Int.not_le.mp fun hempty => ?_
    rw [stepsBy_of_frame_empty hempty, stepsBy_of_frame_empty hempty] at hi
    omega
  have hdone : (0 : Int) ≤ j * options.stepsPerFrame := Int.mul_nonneg (by omega) (by omega)
  have hle : ((j + 1 : Nat) : Int) * options.stepsPerFrame ≤
      options.frames * options.stepsPerFrame :=
    Int.mul_le_mul_of_nonneg_right (by omega) (by omega)
  rw [stepsBy_of_frame_pos hpos] at hleft
  rw [stepsBy_of_frame_pos hpos, stepsBy_of_frame_pos hpos] at hi
  rw [stepsBy_of_frame_pos hpos]
  rw [succ_mul] at hi hle
  have hsteps : (((min (j * options.stepsPerFrame) options.maxSteps).toNat + i : Nat) : Int) =
      i + options.stepsPerFrame * j := by
    rw [Int.mul_comm options.stepsPerFrame]
    omega
  rw [hsteps, Int.add_mul_ediv_left _ _ (by omega), Int.ediv_eq_zero_of_lt (by omega) (by omega)]
  rw [Int.mul_comm options.stepsPerFrame]
  omega

/-! ## The schedule -/

/-- The first frames have the steps that are due by their end. Induction on the frames. -/
theorem stepCount_schedule (options : Options) (k : Nat) :
    stepCount (schedule options k) = stepsBy options k := by
  induction k with
  | zero => simp [schedule, stepsBy, stepCount]; omega
  | succ k ih =>
    have hle := stepsBy_le_succ options k
    rw [schedule, frameEvents, Machine.stepCount_append, Machine.stepCount_append, ih,
      Machine.stepCount_replicate, Machine.stepCount_oneTick]
    omega

theorem tickCount_schedule (options : Options) (k : Nat) : tickCount (schedule options k) = k := by
  induction k with
  | zero => rfl
  | succ k ih =>
    rw [schedule, frameEvents, Machine.tickCount_append, Machine.tickCount_append, ih,
      Machine.tickCount_replicate, Machine.tickCount_oneTick, Nat.zero_add]

/-- Within a frame, the steps of the frames before and those taken since. -/
theorem stepCount_within (options : Options) (k i : Nat) :
    stepCount (schedule options k ++ List.replicate i .oneStep) = stepsBy options k + i := by
  rw [Machine.stepCount_append, stepCount_schedule, Machine.stepCount_replicate]

/-- Within a frame, the ticks of the frames before: its own is still to come. -/
theorem tickCount_within (options : Options) (k i : Nat) :
    tickCount (schedule options k ++ List.replicate i .oneStep) = k := by
  rw [Machine.tickCount_append, tickCount_schedule, Machine.tickCount_replicate, Nat.add_zero]

/-- The first frames are the beginning of any longer schedule. -/
theorem schedule_prefix {n : Nat} (h : k ≤ n) :
    ∃ rest, schedule options n = schedule options k ++ rest := by
  induction n with
  | zero => exact ⟨[], by rw [Nat.le_zero.mp h, List.append_nil]⟩
  | succ n ih =>
    by_cases hk : k = n + 1
    · exact ⟨[], by rw [hk, List.append_nil]⟩
    · obtain ⟨rest, hrest⟩ := ih (by omega)
      exact ⟨rest ++ frameEvents options n, by rw [schedule, hrest, List.append_assoc]⟩

/-- **Where the ticks are.** The tick of a frame comes after all the steps that are due by its
end. -/
theorem exists_tick (later : List Event) {j : Nat} (h : j < k) :
    ∃ before after, schedule options k ++ later = before ++ .oneTick :: after ∧
      tickCount before = j ∧ stepCount before = stepsBy options (j + 1) := by
  have hle := stepsBy_le_succ options j
  obtain ⟨rest, hrest⟩ : ∃ rest, schedule options k = schedule options (j + 1) ++ rest :=
    schedule_prefix h
  -- what comes before the tick are the frames before and the steps of this one
  refine ⟨schedule options j ++
    List.replicate (stepsBy options (j + 1) - stepsBy options j) .oneStep, rest ++ later,
    ?_, ?_, ?_⟩
  · rw [hrest, schedule, frameEvents]
    simp only [List.append_assoc, List.cons_append, List.nil_append]
  · exact tickCount_within options j _
  · rw [stepCount_within]
    omega

/-- A schedule has steps and ticks and nothing else. -/
theorem eq_of_mem_schedule {e : Event} (he : e ∈ schedule options k) :
    e = .oneStep ∨ e = .oneTick := by
  induction k with
  | zero => cases he
  | succ k ih =>
    rw [schedule, frameEvents, List.mem_append, List.mem_append] at he
    rcases he with hearlier | hstep | htick
    · exact ih hearlier
    · exact Or.inl (List.eq_of_mem_replicate hstep)
    · exact Or.inr (List.mem_singleton.mp htick)

end ChipEight.Playback
