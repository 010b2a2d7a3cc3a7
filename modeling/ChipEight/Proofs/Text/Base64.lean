import ChipEight.Text.Base64

/-!
# Base64 there and back

The reader takes more texts than the writer makes, but it reads whatever the writer makes, and as
what it was made from.

* **`value?_letter`** — the two tables of the alphabet agree.
* **`decode_encode`** — every byte string is read back from its text.
* **`length_encode`** — the length of the text: four characters for three bytes, rounded up.
-/

namespace ChipEight.Text.Base64

/-! ## The alphabet -/

/-- The table for reading undoes the one for writing, checked letter by letter. -/
theorem value?_letter (n : Nat) : value? (letter n) = some (n % 64) := by
  have htable : ∀ k : Fin 64, value? (alphabet.getD k 'A') = some k.val := by decide +kernel
  exact htable ⟨n % 64, by omega⟩

/-- No letter can be taken for the padding, so a full group is never read as one that is not. -/
theorem letter_ne_pad (n : Nat) : letter n ≠ pad := by
  intro h
  have hpad : value? pad = none := by decide
  rw [← h, value?_letter] at hpad
  cases hpad

/-! ## Groups -/

theorem ofNat_eq {n : Nat} {b : UInt8} (h : n = b.toNat) : UInt8.ofNat n = b := by
  rw [h, UInt8.ofNat_toNat]

/-- **The groups of a text are read back.** Induction on the bytes, three at a time. Where a group
is not full, the bits that are missing were written as zeros and are not looked at. -/
theorem decodeGroups_encode (bytes : List UInt8) : decodeGroups (encode bytes) = some bytes := by
  induction bytes using encode.induct with
  | case1 => rfl
  | case2 a =>
    have ha := a.toNat_lt
    -- the bits of a byte lie in two letters, and are put together again
    have hfirst : UInt8.ofNat (a.toNat / 4 % 64 * 4 + a.toNat % 4 * 16 % 64 / 16) = a :=
      ofNat_eq (by omega)
    simp only [encode, decodeGroups, letter_ne_pad, value?_letter, hfirst, if_false, if_true,
      and_self]
  | case3 a b =>
    have ha := a.toNat_lt
    have hb := b.toNat_lt
    have hfirst : UInt8.ofNat
        (a.toNat / 4 % 64 * 4 + (a.toNat % 4 * 16 + b.toNat / 16) % 64 / 16) = a :=
      ofNat_eq (by omega)
    have hsecond : UInt8.ofNat
        ((a.toNat % 4 * 16 + b.toNat / 16) % 64 % 16 * 16 + b.toNat % 16 * 4 % 64 / 4) = b :=
      ofNat_eq (by omega)
    simp only [encode, decodeGroups, letter_ne_pad, value?_letter, hfirst, hsecond, if_false,
      if_true]
  | case4 a b c rest ih =>
    have ha := a.toNat_lt
    have hb := b.toNat_lt
    have hc := c.toNat_lt
    have hfirst : UInt8.ofNat
        (a.toNat / 4 % 64 * 4 + (a.toNat % 4 * 16 + b.toNat / 16) % 64 / 16) = a :=
      ofNat_eq (by omega)
    have hsecond : UInt8.ofNat
        ((a.toNat % 4 * 16 + b.toNat / 16) % 64 % 16 * 16 +
          (b.toNat % 16 * 4 + c.toNat / 64) % 64 / 4) = b :=
      ofNat_eq (by omega)
    have hthird : UInt8.ofNat
        ((b.toNat % 16 * 4 + c.toNat / 64) % 64 % 4 * 64 + c.toNat % 64 % 64) = c :=
      ofNat_eq (by omega)
    simp only [encode, decodeGroups, letter_ne_pad, value?_letter, hfirst, hsecond, hthird, ih,
      if_false]

/-- **A byte string is read back from its text.** -/
theorem decode_encode (bytes : List UInt8) : decode (encode bytes) = some bytes := by
  have hhead : (encode bytes).head? ≠ some pad := by
    cases bytes using encode.fun_cases <;> simp [encode, letter_ne_pad]
  rw [decode, if_neg hhead, decodeGroups_encode]

theorem length_encode (bytes : List UInt8) :
    (encode bytes).length = (bytes.length + 2) / 3 * 4 := by
  induction bytes using encode.induct with
  | case1 => rfl
  | case2 a => simp [encode]
  | case3 a b => simp [encode]
  | case4 a b c rest ih =>
    simp only [encode, List.length_cons, ih]
    omega

end ChipEight.Text.Base64
