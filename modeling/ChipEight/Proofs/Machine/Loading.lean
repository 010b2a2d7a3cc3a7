import ChipEight.Proofs.Machine.Invariant
import ChipEight.Proofs.Machine.Parts

/-!
# Loading forgets

A program is loaded into a machine as if the machine were new. What the machine has been through is
forgotten, except by the source of random bytes, which loading leaves alone. An image that is
refused is refused before anything is forgotten.

* **`kept_sized`** — whatever a host does, and be it to the processor, memory and screen stay of
  their size. That is all that loading relies on.
* **`loadProgram_of_sized`** — a load that fits leaves the machine that power-on and the image lead
  to.
* **`Command.Delivers`**, **`Command.Refused`** — the images that a host's loads deliver, and the
  loads that are refused, each with its error. There are no other loads
  (`Command.delivers_or_refused`).
* **`load_forgets`** — the two together, and what a host sees of everything that follows.
-/

namespace ChipEight.Machine

variable {m m' : Machine}

/-! ## Memory and screen keep their size -/

/-- Memory and screen are of a machine's size. Nothing is said about the processor. -/
structure Sized (m : Machine) : Prop where
  memory : m.memory.WellFormed
  screen : m.screen.WellFormed

theorem WellFormed.sized (h : m.WellFormed) : m.Sized :=
  ⟨h.memory, h.screen⟩

/-- Instructions keep the sizes whatever the processor holds: a block that does not fit is refused,
and a sprite is drawn on the cells there are. -/
theorem keptBy_sized (i : Instruction) : KeptBy i Sized where
  processor _ _ h := ⟨h.memory, h.screen⟩
  random _ _ h := ⟨h.memory, h.screen⟩
  store _ _ _ _ h hw := ⟨h.memory.writeBlock hw, h.screen⟩
  clear _ _ h := ⟨h.memory, h.screen.clear⟩
  draw _ _ _ _ _ _ _ _ _ _ h hd := ⟨h.memory, h.screen.draw hd⟩

/-- **Memory and screen keep their size**, whatever happens. -/
theorem kept_sized : Kept Event.Kind.every Sized where
  load _ m m' image h hl := by
    obtain ⟨hfit, rfl⟩ := loadProgram_eq_ok_iff.mp hl
    exact ⟨h.memory.reset.placeProgram hfit, h.screen.reset⟩
  reset _ _ h := ⟨h.memory.reset, h.screen.reset⟩
  step _ _ h := KeptBy.after_step (fun _ _ h => ⟨h.memory, h.screen⟩)
    (fun _ _ h => ⟨h.memory, h.screen⟩) (fun _ i _ => keptBy_sized i) h
  tick _ _ h := ⟨h.memory, h.screen⟩
  seed _ _ _ h := ⟨h.memory, h.screen⟩
  execute _ op := KeptBy.executeWord keptBy_sized op
  -- the processor may become anything here, since nothing is asked of it
  processor _ _ _ h := ⟨h.memory, h.screen⟩
  memory _ _ c h := ⟨Memory.WellFormed.keeps_run c _ h.memory, h.screen⟩
  screen _ _ c h := ⟨h.memory, Screen.keeps_run c _ h.screen⟩
  keypad _ _ _ h := ⟨h.memory, h.screen⟩

/-- Even a host that assigns to the processor cannot change the sizes. -/
theorem sized_of_reachable (h : m.Reachable Event.Kind.every) : m.Sized :=
  kept_sized.reachable (fun random => (wellFormed_powerOn random).sized) h

/-! ## What a load leaves -/

/-- A reset is power-on with the source of random bytes kept: memory and screen are made anew at
their old sizes, and these are the sizes that new ones have. -/
theorem reset_eq_powerOn (h : m.Sized) : m.reset = powerOn m.random := by
  have hmemory : m.memory.reset = Memory.create Memory.standardSize := by
    rw [Memory.reset, h.memory.size]
  have hscreen :
      m.screen.reset = Screen.create Screen.standardWidth Screen.standardHeight := by
    rw [Screen.reset, h.screen.width, h.screen.height]
  rw [reset, hmemory, hscreen]
  rfl

/-- A new machine with a program in memory. -/
def powerOnWith (random : Random.Twister) (image : List UInt8) : Machine :=
  { powerOn random with memory := (Memory.create Memory.standardSize).placeProgram image }

/-- A program that fits leaves memory its size. -/
theorem wellFormed_powerOnWith (random : Random.Twister) {image : List UInt8}
    (hfit : image.length ≤ Memory.programLimit) : (powerOnWith random image).WellFormed where
  processor := Processor.wellFormed_create start_range
  memory := Memory.wellFormed_create.placeProgram (Nat.not_lt_of_le hfit)
  screen := Screen.wellFormed_create

/-- **A load leaves a new machine with the program**, and the source of random bytes as it was. -/
theorem loadProgram_of_sized (h : m.Sized) {image : List UInt8}
    (hfit : image.length ≤ Memory.programLimit) :
    m.loadProgram image = .ok (powerOnWith m.random image) := by
  rw [loadProgram_eq, if_neg (Nat.not_lt_of_le hfit), reset_eq_powerOn h]
  rfl

/-! ## Loads -/

theorem lowByte_toNat (b : UInt8) : lowByte b.toNat = b := by
  have hbyte := b.toNat_lt
  have hresidue : ((b.toNat : Int) % 256).toNat = b.toNat := by omega
  rw [lowByte, hresidue, UInt8.ofNat_toNat]

/-- The numbers of an image give the image back. -/
theorem imageOfNumbers_map_toNat (image : List UInt8) :
    imageOfNumbers (image.map fun b => (b.toNat : Int)) = .ok image := by
  have hall : (image.map fun b => (b.toNat : Int)).all (fun n => 0 ≤ n ∧ n < 256) = true := by
    rw [List.all_eq_true]
    intro n hn
    obtain ⟨b, -, rfl⟩ := List.mem_map.mp hn
    have hbyte := b.toNat_lt
    simp only [decide_eq_true_eq]
    omega
  -- the numbers pass the check because they come from bytes, and give these bytes back
  have hback : (image.map fun b => (b.toNat : Int)).map lowByte = image := by
    rw [List.map_map]
    exact List.map_id'' lowByte_toNat image
  rw [imageOfNumbers, if_pos hall, hback]

/-- Numbers that are all bytes are the numbers of the image they give. -/
theorem map_toNat_map_lowByte {values : List Int}
    (hall : values.all (fun n => 0 ≤ n ∧ n < 256) = true) :
    (values.map lowByte).map (fun b => (b.toNat : Int)) = values := by
  have hback : ∀ n ∈ values, ((lowByte n).toNat : Int) = n := by
    intro n hn
    have hbyte := List.all_eq_true.mp hall n hn
    simp only [decide_eq_true_eq] at hbyte
    rw [toNat_lowByte]
    omega
  rw [List.map_map]
  exact (List.map_congr_left hback).trans (List.map_id values)

/-- One number that is no byte is enough for the whole image to be refused. -/
theorem imageOfNumbers_of_mem {values : List Int} {n : Int} (hn : n ∈ values)
    (hrange : n < 0 ∨ 255 < n) : imageOfNumbers values = .error .notAByte := by
  have hall : ¬ values.all (fun n => 0 ≤ n ∧ n < 256) = true := by
    intro hall
    have hbyte := List.all_eq_true.mp hall n hn
    simp only [decide_eq_true_eq] at hbyte
    omega
  rw [imageOfNumbers, if_neg hall]

namespace Command

/-- A command that loads an image: given as bytes, as the numbers of these bytes, or by the name of
a file that can be read. -/
inductive Delivers : Command → List UInt8 → Prop
  | bytes (image : List UInt8) : Delivers (.loadProgram image) image
  | numbers (image : List UInt8) :
    Delivers (.loadNumbers (image.map fun b => (b.toNat : Int))) image
  | file (name : Text) (file : File.Image) (image : List UInt8)
      (hread : file.read name = .ok image) : Delivers (.loadFile name file) image

/-- A load that is refused, and the error it is refused with. -/
inductive Refused : Command → Error → Prop
  /-- The image has more than 3584 bytes. -/
  | tooLarge (c : Command) (image : List UInt8) (hc : c.Delivers image)
      (hsize : 3584 < image.length) :
      Refused c (.fault { cause := .programTooLarge image.length 3584, address := 0x200 })
  /-- One of the numbers is no byte. -/
  | notAByte (values : List Int) (n : Int) (hn : n ∈ values) (hrange : n < 0 ∨ 255 < n) :
      Refused (.loadNumbers values) (.misuse .notAByte)
  /-- The file cannot be read. -/
  | unreadable (name : Text) (file : File.Image) (e : Error) (hread : file.read name = .error e) :
      Refused (.loadFile name file) e

/-- **A load delivers an image that fits or is refused.** -/
theorem delivers_or_refused {c : Command} (hkind : Event.kindOfCommand c = .load) :
    (∃ image, c.Delivers image ∧ image.length ≤ 3584) ∨ ∃ e, c.Refused e := by
  have hsized : ∀ image, c.Delivers image →
      (∃ image, c.Delivers image ∧ image.length ≤ 3584) ∨ ∃ e, c.Refused e := by
    intro image hc
    by_cases hsize : 3584 < image.length
    · exact Or.inr ⟨_, .tooLarge c image hc hsize⟩
    · exact Or.inl ⟨image, hc, Nat.not_lt.mp hsize⟩
  -- bytes need only fit; numbers have to be bytes first, and a file has to be read first
  cases c with
  | loadProgram image => exact hsized image (.bytes image)
  | loadNumbers values =>
    cases hall : values.all fun n => 0 ≤ n ∧ n < 256 with
    | true =>
      have hc := Delivers.numbers (values.map lowByte)
      rw [map_toNat_map_lowByte hall] at hc
      exact hsized _ hc
    | false =>
      obtain ⟨n, hn, hrange⟩ := List.all_eq_false.mp hall
      simp only [decide_eq_true_eq] at hrange
      exact Or.inr ⟨_, .notAByte values n hn (by omega)⟩
  | loadFile name file =>
    cases hread : file.read name with
    | ok image => exact hsized image (.file name file image hread)
    | error e => exact Or.inr ⟨e, .unreadable name file e hread⟩
  | _ => cases hkind

/-- However the image comes, it is loaded the same way. -/
theorem run_of_delivers {c : Command} {image : List UInt8} (hc : c.Delivers image) (m : Machine) :
    c.run m = Response.loading image m := by
  cases hc with
  | bytes => rfl
  | numbers => simp only [run, imageOfNumbers_map_toNat]
  | file name file image hread => simp only [run, hread]

/-- An image that fits is loaded, on a machine whatever it has been through, and the notice tells
how many bytes and where. -/
theorem run_of_fit (h : m.Sized) {c : Command} {image : List UInt8} (hc : c.Delivers image)
    (hfit : image.length ≤ Memory.programLimit) :
    c.run m =
      ⟨powerOnWith m.random image, .ok .nothing,
        #[.loaded image.length Memory.programStart]⟩ := by
  rw [run_of_delivers hc, Response.loading, loadProgram_of_sized h hfit]

/-- A load that is refused changes nothing, whatever the machine. -/
theorem run_of_refused {c : Command} {e : Error} (hc : c.Refused e) (m : Machine) :
    c.run m = ⟨m, .error e, #[]⟩ := by
  cases hc with
  | tooLarge c image hc hsize =>
    have hlimit : Memory.programLimit < image.length := hsize
    rw [run_of_delivers hc, Response.loading, loadProgram_eq, if_pos hlimit]
    rfl
  | notAByte values n hn hrange => simp only [run, imageOfNumbers_of_mem hn hrange]
  | unreadable name file e hread => simp only [run, hread]

end Command

/-! ## What a host sees -/

/-- What comes of an event: the machine, the reply or the error, and what the host is told. -/
def Event.response (m : Machine) : Event → Response
  | command c => c.run m
  | chance random => ⟨{ m with random }, .ok .nothing, #[]⟩

/-- What comes of the events of a history, one after the other. -/
def trace (m : Machine) : List Event → List Response
  | [] => []
  | e :: events => e.response m :: trace (e.after m) events

/-- **Loading forgets the past.** Whatever has happened to a machine, and on any well-formed one, a
load of at most 3584 bytes gives the machine that the same load gives on a new one, except for the
source of random bytes, which stays; memory then holds the font, zeros, the program and zeros. So
after seeding and loading nothing that a host ever sees tells the machine from a new one of that
seed. A load that is refused changes nothing. -/
theorem load_forgets (h : m.Reachable Event.Kind.every ∨ m.WellFormed) :
    (∀ (c : Command) image, c.Delivers image → image.length ≤ 3584 →
      (c.run m).reply = .ok .nothing ∧
      (∀ random, (c.run m).machine = { (c.run (powerOn random)).machine with random := m.random }) ∧
      (c.run m).machine.memory.bytes.toList =
        Memory.Font.bytes ++ List.replicate (0x200 - 80) 0 ++ image ++
          List.replicate (0x1000 - (0x200 + image.length)) 0) ∧
    (∀ (c : Command) image, c.Delivers image → image.length ≤ 3584 →
      ∀ seed events chance chance',
        (m.afterAll [.command (.seed chance (some seed)), .command c]).trace events =
          ((create chance' (some seed)).afterAll [.command c]).trace events) ∧
    (∀ (c : Command) e, c.Refused e → c.run m = ⟨m, .error e, #[]⟩) := by
  have hsized : m.Sized := h.elim sized_of_reachable WellFormed.sized
  refine ⟨?loaded, ?later, ?refused⟩
  case loaded =>
    intro c image hc hfit
    rw [Command.run_of_fit hsized hc hfit]
    refine ⟨rfl, fun random => ?_, Memory.toList_placeProgram_create image⟩
    rw [Command.run_of_fit (wellFormed_powerOn random).sized hc hfit]
    rfl
  case later =>
    intro c image hc hfit seed events chance chance'
    -- the seed is the only thing that the two machines have in common before the load
    have hseeded : (m.reseed chance (some seed)).Sized :=
      kept_sized.seed (by decide) m (Random.ofSeed seed) hsized
    have hnew : (create chance' (some seed)).Sized :=
      (wellFormed_powerOn (Random.ofSeed seed)).sized
    have hsame : (c.run (m.reseed chance (some seed))).machine =
        (c.run (create chance' (some seed))).machine := by
      rw [Command.run_of_fit hseeded hc hfit, Command.run_of_fit hnew hc hfit]
      rfl
    show ((c.run (m.reseed chance (some seed))).machine).trace events = _
    rw [hsame]
    rfl
  case refused => exact fun c e hc => Command.run_of_refused hc m

/-! ## A machine that has been through much -/

/-- A machine that waits for a key, with a key down, a sprite on the screen, a byte of the font
written over and a counter that no program gives it. -/
def misused : Machine :=
  (powerOn (Random.ofSeed 3)).afterAll
    [.command (.loadProgram [0xF5, 0x0A]), .command (.step 1), .command (.keypad (.press 5)),
      .command (.screen (.draw 60 30 [0xFF])), .command (.memory (.write 4 7)),
      .command (.processor (.assignPc 99999))]

theorem reachable_misused : misused.Reachable Event.Kind.every :=
  ⟨Random.ofSeed 3, _, by decide, rfl⟩

/-- The refusal of a file that the host may not read. -/
def denied : Fault.Unreadable where
  number := 13
  reason := "Permission denied"

/-- It is loaded as if it were new, and goes on as if it were new. A number that is no byte is
refused, and so is a file that cannot be read. -/
theorem load_forgets_misused :
    misused.Reachable Event.Kind.every ∧
      (Command.run misused (.loadNumbers [0x12, 0x00])).reply = .ok .nothing ∧
      (∀ chance chance',
        (misused.afterAll
          [.command (.seed chance (some 9)), .command (.loadNumbers [0x12, 0x00])]).trace
            [.command (.step 3), .command (.tick 1)] =
          ((create chance' (some 9)).afterAll [.command (.loadNumbers [0x12, 0x00])]).trace
            [.command (.step 3), .command (.tick 1)]) ∧
      Command.run misused (.loadNumbers [256]) = ⟨misused, .error (.misuse .notAByte), #[]⟩ ∧
      ∃ fault : Fault,
        fault.message = .ofString "Cannot read ROM maze: [Errno 13] Permission denied: 'maze'" ∧
        Command.run misused (.loadFile (.ofString "maze") (.refused denied)) =
          ⟨misused, .error (.fault fault), #[]⟩ := by
  obtain ⟨hloaded, hlater, hrefused⟩ := load_forgets (Or.inl reachable_misused)
  have hc : Command.Delivers (.loadNumbers [0x12, 0x00]) [0x12, 0x00] := .numbers [0x12, 0x00]
  have hread : (File.Image.refused denied).read (.ofString "maze") = .error
      (.fault { cause := .programUnreadable (.ofString "maze") (.ofString "maze") denied }) := by
    rfl
  exact ⟨reachable_misused, (hloaded _ _ hc (by decide)).1, hlater _ _ hc (by decide) 9 _,
    hrefused _ _ (.notAByte [256] 256 (by decide) (by decide)), _, by decide +kernel,
    hrefused _ _ (.unreadable _ _ _ hread)⟩

end ChipEight.Machine
