import ChipEight.Proofs.Memory.Extent

/-!
# The last write wins

Read by its addresses, a memory is a map from the numbers below its nominal size to bytes, and a
history of writes changes it address by address: what is read is the low byte of the value that was
given last, whatever was refused, overlapped or was empty on the way.

* **`Command.written?`** — the values that a write gives, and to which addresses. A single byte is a
  block of one.
* **`Command.run_of_written`** — one equation for both writes.
* **`Command.valueAt?`**, **`latest?`** — the value that a write gives an address if it is accepted,
  and the value that the latest such write has given.
* **`byteAt_after_write`**, **`byteAt_afterAll`** — what a write, and a history of writes, make of a
  place.
* **`last_write_wins`** — what is accepted, what is refused and what is read after any history of
  writes.
-/

namespace ChipEight.Memory

variable {m : Memory} {n place : Nat}

/-! ## Writes -/

/-- The first address that a write gives a value to, and the values that it gives from there on. -/
def Command.written? : Command → Option (Int × List Int)
  | .write address value => some (address, [value])
  | .writeBlock address values => some (address, values)
  | _ => none

/-- Writes of a byte, a word and a block are one kind of request: values stored from an address on,
if they are in range. -/
theorem Command.run_of_written {c : Command} {address : Int} {values : List Int}
    (hc : c.written? = some (address, values)) (m : Memory) :
    c.run m =
      if m.InRange address values.length then
        .ok .nothing { m with bytes := store m.bytes address.toNat (values.map lowByte) }
      else .error (.fault (outOfRange address)) m := by
  -- a single byte is written as a block of one, so the block is the only case
  have hblock : ∀ values : List Int,
      (Command.writeBlock address values).run m =
        if m.InRange address values.length then
          .ok .nothing { m with bytes := store m.bytes address.toNat (values.map lowByte) }
        else .error (.fault (outOfRange address)) m := by
    intro values
    simp only [Command.run, Action.checked, writeBlock_eq, List.length_map]
    by_cases hr : m.InRange address values.length
    · rw [if_pos hr, if_pos hr]
      rfl
    · rw [if_neg hr, if_neg hr]
      rfl
  cases c with
  | write address value =>
    cases hc
    exact hblock [value]
  | writeBlock address values =>
    cases hc
    exact hblock values
  | _ => cases hc

/-- The value that a request gives a place in a memory of nominal size `size`. It gives none if it
is no write, if it is refused, or if it does not reach the place. -/
def Command.valueAt? (size place : Nat) (c : Command) : Option Int :=
  c.written?.bind fun write =>
    if 0 ≤ write.1 ∧ write.1 + write.2.length ≤ size ∧ write.1 ≤ place then
      write.2[(place - write.1).toNat]?
    else none

/-- The value that a place was given last. -/
def latest? (size place : Nat) (requests : List Command) : Option Int :=
  requests.reverse.findSome? (Command.valueAt? size place)

/-! ## What writes make of a place -/

/-- A write that is accepted and reaches a place leaves the low byte of its value there, and any
other leaves the place alone. -/
theorem byteAt_after_write (h : Extent n m) {c : Command} (hc : c.written?.isSome)
    (hplace : place < n) :
    (c.run.after m).byteAt place = ((c.valueAt? n place).map lowByte).getD (m.byteAt place) := by
  obtain ⟨⟨address, values⟩, hwritten⟩ := Option.isSome_iff_exists.mp hc
  have hsize := h.size
  have hvalue : c.valueAt? n place =
      if 0 ≤ address ∧ address + values.length ≤ n ∧ address ≤ place then
        values[(place - address).toNat]?
      else none := by
    rw [Command.valueAt?, hwritten, Option.bind_some]
  by_cases hr : m.InRange address values.length
  case neg =>
    -- the write is refused, so it gives the place nothing either
    have hrefused : c.run m = .error (.fault (outOfRange address)) m := by
      rw [Command.run_of_written hwritten, if_neg hr]
    have hnone : ¬ (0 ≤ address ∧ address + values.length ≤ n ∧ address ≤ place) := fun hin =>
      hr ⟨hin.1, by rw [hsize]; exact hin.2.1⟩
    rw [Action.after_of_error hrefused, hvalue, if_neg hnone, Option.map_none, Option.getD_none]
  case pos =>
    have hstored := Command.run_of_written hwritten m
    rw [if_pos hr] at hstored
    obtain ⟨hlow, hhigh⟩ := hr
    have hcovered := h.covered
    unfold Covered at hcovered
    rw [Action.after_of_ok hstored, hvalue]
    by_cases hreached : address ≤ place ∧ place < address + values.length
    · -- the value is found as far into the block as the place is from its first address
      obtain ⟨hfirst, hlast⟩ := hreached
      have hd : (place - address).toNat < values.length := by omega
      have hsplit : place = address.toNat + (place - address).toNat := by omega
      have hgiven : (values.map lowByte)[(place - address).toNat]? =
          some (lowByte values[(place - address).toNat]) := by
        rw [List.getElem?_map, List.getElem?_eq_getElem hd, Option.map_some]
      rw [if_pos ⟨hlow, by omega, hfirst⟩, List.getElem?_eq_getElem hd, Option.map_some,
        Option.getD_some]
      conv => lhs; rw [hsplit]
      exact byteAt_store hgiven (by omega)
    · have hnone : (if 0 ≤ address ∧ address + values.length ≤ n ∧ address ≤ place then
          values[(place - address).toNat]? else none) = none := by
        split
        · exact List.getElem?_eq_none (by omega)
        · rfl
      rw [hnone, Option.map_none, Option.getD_none, byteAt_store_outside]
      rw [List.length_map]
      omega

/-- **What a history of writes makes of a place**: the low byte of the value given last, or what was
there if none was given. -/
theorem byteAt_afterAll (h : Extent n m) {calls : List Command}
    (hcalls : ∀ c ∈ calls, c.written?.isSome) (hplace : place < n) :
    (m.afterAll calls).byteAt place =
      ((latest? n place calls).map lowByte).getD (m.byteAt place) := by
  have hkeeps : ∀ c ∈ calls, c.run.Keeps (Extent n) := fun c _ => Extent.keeps_run n c
  rw [latest?, List.map_findSome?]
  exact Action.see_afterEach (fun m => m.byteAt place) hkeeps
    (fun c hc m h => byteAt_after_write h (hcalls c hc) hplace) h

/-! ## Words and blocks -/

/-- Words and blocks are read where every byte of theirs can be, and are made of these bytes. -/
structure ReadsBytewise (m : Memory) : Prop where
  word : ∀ address : Int, 0 ≤ address ∧ address + 2 ≤ m.size →
    ∃ high low, m.read address = .ok high ∧ m.read (address + 1) = .ok low ∧
      m.readWord address = .ok (256 * high.toNat + low.toNat)
  wordRefused : ∀ address : Int, ¬ (0 ≤ address ∧ address + 2 ≤ m.size) →
    m.readWord address = .error (outOfRange address)
  block : ∀ (address : Int) (length : Nat), 0 ≤ address ∧ address + length ≤ m.size →
    ∃ block, m.readBlock address length = .ok block ∧ block.length = length ∧
      ∀ k : Nat, k < length → ∃ byte, block[k]? = some byte ∧ m.read (address + k) = .ok byte
  blockRefused : ∀ (address : Int) (length : Nat), ¬ (0 ≤ address ∧ address + length ≤ m.size) →
    m.readBlock address length = .error (outOfRange address)

/-- A covered memory reads words and blocks as it reads their bytes. -/
theorem Covered.readsBytewise (h : m.Covered) : m.ReadsBytewise where
  word address hr := by
    have hin : m.InRange address 2 := hr
    -- no address in range is negative, so the next one is the next byte
    have hnext : (address + 1).toNat = address.toNat + 1 := by omega
    refine ⟨m.byteAt address.toNat, m.byteAt (address.toNat + 1), ?_, ?_, ?_⟩
    · rw [read_eq, if_pos ⟨hr.1, by omega⟩]
    · rw [read_eq, if_pos ⟨by omega, by omega⟩, hnext]
    · rw [readWord_eq, if_pos hin]
  wordRefused address hr := by
    have hout : ¬ m.InRange address 2 := hr
    rw [readWord_eq, if_neg hout]
  block address length hr := by
    have hheld := h.held hr
    refine ⟨m.block address.toNat length, h.readBlock_eq hr, length_block hheld, fun k hk => ?_⟩
    have hnext : (address + k).toNat = address.toNat + k := by omega
    refine ⟨m.byteAt (address.toNat + k), ?_, ?_⟩
    · rw [getElem?_block hk, getElem?_bytes (by omega)]
    · rw [read_eq, if_pos ⟨by omega, by omega⟩, hnext]
  blockRefused address length hr := by
    have hout : ¬ m.InRange address length := hr
    rw [Memory.readBlock_eq, if_neg hout]

/-! ## The law -/

/-- **The last write wins.** A memory, of whatever size and with whatever contents it has come
about, is given any writes of any values at any addresses. Each is accepted exactly if it lies
between address 0 and the nominal size, and otherwise is a fault at its address that changes
nothing. Afterwards every address inside reads as the low byte of the value that the latest accepted
write has given it, in two's complement, or as before if none has given it one; and words and blocks
are read as the bytes they are made of. -/
theorem last_write_wins (h : m.Reachable) {calls : List Command}
    (hcalls : ∀ c ∈ calls, c.written?.isSome) :
    (∀ before c after (address : Int) (values : List Int), calls = before ++ c :: after →
      c.written? = some (address, values) →
      ((∃ m', c.run (m.afterAll before) = .ok .nothing m') ↔
          0 ≤ address ∧ address + values.length ≤ m.size) ∧
        (¬ (0 ≤ address ∧ address + values.length ≤ m.size) →
          ∃ fault, c.run (m.afterAll before) = .error (.fault fault) (m.afterAll before) ∧
            fault.kind = .memoryAccess ∧ fault.address = address)) ∧
    (∀ place : Nat, place < m.size →
      ∃ byte, (m.afterAll calls).read place = .ok byte ∧
        (∀ value, latest? m.size place calls = some value → (byte.toNat : Int) = value % 256) ∧
        (latest? m.size place calls = none → m.read place = .ok byte)) ∧
    (m.afterAll calls).size = m.size ∧ (m.afterAll calls).ReadsBytewise := by
  obtain ⟨n, requests, rfl⟩ := h
  have hextent : Extent n ((create n).afterAll requests) := (Extent.create n).afterAll requests
  -- how the memory has come about matters no more: only its extent does
  generalize (create n).afterAll requests = m at hextent ⊢
  have hafter : Extent n (m.afterAll calls) := hextent.afterAll calls
  rw [hextent.size]
  refine ⟨?accepted, ?read, hafter.size, hafter.covered.readsBytewise⟩
  case accepted =>
    intro before c after address values _ hwritten
    have hsize : (m.afterAll before).size = n := (hextent.afterAll before).size
    have hrange : (m.afterAll before).InRange address values.length ↔
        0 ≤ address ∧ address + values.length ≤ n := by
      rw [InRange, hsize]
    have hrun := Command.run_of_written hwritten (m.afterAll before)
    -- the nominal size is the same after any writes, so the check is too
    by_cases hr : (m.afterAll before).InRange address values.length
    · rw [if_pos hr] at hrun
      exact ⟨iff_of_true ⟨_, hrun⟩ (hrange.mp hr), fun hnot => absurd (hrange.mp hr) hnot⟩
    · rw [if_neg hr] at hrun
      refine ⟨iff_of_false ?_ (mt hrange.mpr hr), fun _ => ⟨_, hrun, rfl, rfl⟩⟩
      rintro ⟨m', hok⟩
      cases hrun.symm.trans hok
  case read =>
    intro place hplace
    -- a place inside the size can be read before and after
    have hread : ∀ s : Memory, s.size = n → s.read place = .ok (s.byteAt place) := by
      intro s hs
      rw [read_eq, if_pos ⟨by omega, by omega⟩, Int.toNat_natCast]
    refine ⟨_, hread _ hafter.size, ?_, ?_⟩
    · intro value hlatest
      rw [byteAt_afterAll hextent hcalls hplace, hlatest, Option.map_some, Option.getD_some,
        toNat_lowByte]
    · intro hlatest
      rw [byteAt_afterAll hextent hcalls hplace, hlatest, Option.map_none, Option.getD_none,
        hread m hextent.size]

/-- Writes of one byte and of several, to a memory of four: two overlap, two are refused and one is
empty. -/
def mixedWrites : List Command :=
  [.write 1 300, .writeBlock 0 [-1, 2, 3, 4, 5], .writeBlock 2 [7, -2], .writeBlock 4 [],
    .write 4 9, .writeBlock 1 [513]]

theorem last_write_wins_mixed :
    (create 4).Reachable ∧ (∀ c ∈ mixedWrites, c.written?.isSome) ∧
      (∃ byte, ((create 4).afterAll mixedWrites).read 3 = .ok byte ∧ (byte.toNat : Int) = 254) ∧
      (∃ byte, ((create 4).afterAll mixedWrites).read 1 = .ok byte ∧ (byte.toNat : Int) = 1) ∧
      ((create 4).afterAll mixedWrites).read 0 = (create 4).read 0 := by
  have hreachable : (create 4).Reachable := ⟨4, [], rfl⟩
  have hcalls : ∀ c ∈ mixedWrites, c.written?.isSome := by decide
  obtain ⟨-, hread, -, -⟩ := last_write_wins hreachable hcalls
  -- place 3 is given −2 last, place 1 is given 513, and place 0 nothing that is accepted
  obtain ⟨third, hthird, hgiven, -⟩ := hread 3 (by decide)
  obtain ⟨first, hfirst, hoverwritten, -⟩ := hread 1 (by decide)
  obtain ⟨zeroth, hzeroth, -, huntouched⟩ := hread 0 (by decide)
  refine ⟨hreachable, hcalls, ⟨third, hthird, (hgiven (-2) (by decide)).trans (by decide)⟩,
    ⟨first, hfirst, (hoverwritten 513 (by decide)).trans (by decide)⟩, ?_⟩
  exact hzeroth.trans (huntouched (by decide)).symm

end ChipEight.Memory
