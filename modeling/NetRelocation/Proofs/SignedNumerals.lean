import NetRelocation.Proofs.Numerals

/-!
# Signed numerals

A text denotes an integer if it has one or more decimal digits and at most a sign before them
(`Denotes`).

**Theorem (`readInt_eq_ok_iff`).** A reader of signed numerals accepts exactly the texts that denote
an integer of its range, and reads them as that integer. For words of thirty-two bits the range is
that of the words (`readInt32_eq_ok_iff`).

**Theorem (`denotes_pos_iff`).** A positive number is denoted by its digits behind any zeros, by the
same behind a plus sign, and by nothing else.

The value of digits is the one that the library of natural numbers gives them (`fold_decimal_iff`).
A reader gives up at the first digit that takes it past its limit, and loses nothing by that, since
no later digit would take it back.
-/

namespace NetRelocation.Text.Numeral

variable {limit acc n : Nat} {cs ds : List Char} {i : Int}

/-! ## Digits -/

/-- One or more decimal digits, and the number that they come to. -/
structure DigitsOf (ds : List Char) (n : Nat) : Prop where
  nonempty : ds ≠ []
  digits : ∀ d ∈ ds, d.isDigit = true
  value : Nat.ofDigitChars 10 ds 0 = n

/-- A text of digits with an optional sign before them, and the integer that it stands for. -/
inductive Denotes : List Char → Int → Prop
  | unsigned {ds : List Char} {n : Nat} (h : DigitsOf ds n) : Denotes ds n
  | plus {ds : List Char} {n : Nat} (h : DigitsOf ds n) : Denotes ('+' :: ds) n
  | minus {ds : List Char} {n : Nat} (h : DigitsOf ds n) : Denotes ('-' :: ds) (-n)

theorem digit?_eq_some_iff {c : Char} {d : Nat} :
    digit? c = some d ↔ c.isDigit = true ∧ c.toNat - '0'.toNat = d := by
  have hclass : c.isDigit = true ↔ '0' ≤ c ∧ c ≤ '9' := by
    simp [Char.isDigit, Char.le_def]
  have hzero : '0'.toNat = 48 := rfl
  rw [hclass, hzero, digit?]
  split
  · rename_i hc
    simp [hc]
  · rename_i hc
    simp [hc]

theorem fold_decimal_iff :
    fold 10 digit? acc ds = some n ↔
      (∀ d ∈ ds, d.isDigit = true) ∧ Nat.ofDigitChars 10 ds acc = n := by
  induction ds generalizing acc with
  | nil => simp [fold]
  | cons c ds ih =>
    rw [fold, Nat.ofDigitChars_cons, List.forall_mem_cons]
    cases hc : digit? c with
    | none =>
      have hdigit : c.isDigit ≠ true := fun hdigit => by
        rw [digit?_eq_some_iff.2 ⟨hdigit, rfl⟩] at hc
        cases hc
      simp [hdigit]
    | some d =>
      obtain ⟨hdigit, rfl⟩ := digit?_eq_some_iff.1 hc
      rw [Nat.mul_comm 10 acc]
      simp [hdigit, ih]

theorem digitsOf_iff : DigitsOf ds n ↔ ds ≠ [] ∧ fold 10 digit? 0 ds = some n := by
  rw [fold_decimal_iff]
  exact ⟨fun ⟨hne, hdigits, hvalue⟩ => ⟨hne, hdigits, hvalue⟩,
    fun ⟨hne, hdigits, hvalue⟩ => ⟨hne, hdigits, hvalue⟩⟩

theorem readDigits_decimal_iff (hds : ds ≠ []) :
    readDigits 10 limit digit? 0 ds = .ok n ↔ DigitsOf ds n ∧ n < limit := by
  rw [readDigits_eq_ok_iff (by decide) hds, digitsOf_iff, and_iff_right hds]

theorem DigitsOf.ne_sign {c : Char} (h : DigitsOf (c :: ds) n) : c ≠ '+' ∧ c ≠ '-' := by
  have hdigit : c.isDigit = true := h.digits c List.mem_cons_self
  constructor
  · rintro rfl
    cases hdigit
  · rintro rfl
    cases hdigit

theorem denotes_plus_iff : Denotes ('+' :: ds) i ↔ ∃ n : Nat, DigitsOf ds n ∧ i = n := by
  constructor
  · intro h
    cases h with
    | unsigned h => exact absurd rfl h.ne_sign.1
    | plus h => exact ⟨_, h, rfl⟩
  · rintro ⟨n, h, rfl⟩
    exact .plus h

theorem denotes_minus_iff : Denotes ('-' :: ds) i ↔ ∃ n : Nat, DigitsOf ds n ∧ i = -n := by
  constructor
  · intro h
    cases h with
    | unsigned h => exact absurd rfl h.ne_sign.2
    | minus h => exact ⟨_, h, rfl⟩
  · rintro ⟨n, h, rfl⟩
    exact .minus h

theorem denotes_unsigned_iff (hplus : ∀ ds, cs ≠ '+' :: ds) (hminus : ∀ ds, cs ≠ '-' :: ds) :
    Denotes cs i ↔ ∃ n : Nat, DigitsOf cs n ∧ i = n := by
  constructor
  · intro h
    cases h with
    | unsigned h => exact ⟨_, h, rfl⟩
    | plus h => exact absurd rfl (hplus _)
    | minus h => exact absurd rfl (hminus _)
  · rintro ⟨n, h, rfl⟩
    exact .unsigned h

theorem not_digitsOf_nil : ¬ DigitsOf [] n := fun h => h.nonempty rfl

theorem map_readDigits_eq_ok_iff (hds : ds ≠ []) :
    (readDigits 10 limit digit? 0 ds).map Int.ofNat = .ok i ↔
      (∃ n : Nat, DigitsOf ds n ∧ i = n) ∧ -(limit : Int) ≤ i ∧ i < limit := by
  constructor
  · intro h
    cases hread : readDigits 10 limit digit? 0 ds with
    | error fault =>
      rw [hread] at h
      cases h
    | ok n =>
      rw [hread] at h
      obtain rfl : (n : Int) = i := Except.ok.inj h
      obtain ⟨hn, hlimit⟩ := (readDigits_decimal_iff hds).1 hread
      exact ⟨⟨n, hn, rfl⟩, by omega, by omega⟩
  · rintro ⟨⟨n, hn, rfl⟩, -, hlimit⟩
    rw [(readDigits_decimal_iff hds).2 ⟨hn, Int.ofNat_lt.1 hlimit⟩]
    rfl

/-- **Signed numerals.** What is accepted is what stands for an integer of the range. -/
theorem readInt_eq_ok_iff (hlimit : 0 < limit) :
    readInt limit cs = .ok i ↔ Denotes cs i ∧ -(limit : Int) ≤ i ∧ i < limit := by
  unfold readInt
  split
  -- without digits nothing is accepted, and nothing denoted
  · rw [denotes_unsigned_iff (by simp) (by simp)]
    simp [not_digitsOf_nil]
  · simp [denotes_plus_iff, not_digitsOf_nil]
  · simp [denotes_minus_iff, not_digitsOf_nil]
  -- behind a minus sign the limit itself is allowed
  · rename_i ds hds
    rw [denotes_minus_iff]
    constructor
    · intro h
      cases hread : readDigits 10 (limit + 1) digit? 0 ds with
      | error fault => cases fault <;> simp [hread] at h
      | ok n =>
        simp only [hread, Except.ok.injEq] at h
        obtain ⟨hn, hle⟩ := (readDigits_decimal_iff hds).1 hread
        exact ⟨⟨n, hn, h.symm⟩, by omega, by omega⟩
    · rintro ⟨⟨n, hn, rfl⟩, hle, -⟩
      rw [(readDigits_decimal_iff hds).2 ⟨hn, by omega⟩]
  · rename_i ds hds
    rw [denotes_plus_iff]
    exact map_readDigits_eq_ok_iff hds
  · rename_i hne _ _ hminus hplus
    rw [denotes_unsigned_iff hplus hminus]
    exact map_readDigits_eq_ok_iff hne

/-- A word of thirty-two bits holds every integer of its range, so that what is accepted is what
stands for one of them. -/
theorem readInt32_eq_ok_iff {number : Int32} :
    readInt32 cs = .ok number ↔ Denotes cs number.toInt := by
  have hrange : 0 < Nat.pow 2 31 := by decide
  constructor
  · intro h
    rw [readInt32] at h
    cases hread : readInt (Nat.pow 2 31) cs with
    | error fault =>
      rw [hread] at h
      cases h
    | ok i =>
      rw [hread] at h
      cases h
      obtain ⟨hi, hle, hlt⟩ := (readInt_eq_ok_iff hrange).1 hread
      rwa [Int32.toInt_ofInt_of_le hle hlt]
  · intro h
    have hread : readInt (Nat.pow 2 31) cs = .ok number.toInt :=
      (readInt_eq_ok_iff hrange).2 ⟨h, number.le_toInt, number.toInt_lt⟩
    rw [readInt32, hread, Except.map, Int32.ofInt_toInt]

/-- No text denotes two integers: they would both be read of it. -/
theorem Denotes.unique {j : Int} (hi : Denotes cs i) (hj : Denotes cs j) : i = j := by
  have hlimit : 0 < i.natAbs + j.natAbs + 1 := by omega
  have hread := (readInt_eq_ok_iff hlimit).2 ⟨hi, by omega, by omega⟩
  rw [(readInt_eq_ok_iff hlimit).2 ⟨hj, by omega, by omega⟩] at hread
  exact (Except.ok.inj hread).symm

theorem Denotes.ne_nil (h : Denotes cs i) : cs ≠ [] := by
  cases h with
  | unsigned h => exact h.nonempty
  | plus h => exact List.cons_ne_nil _ _
  | minus h => exact List.cons_ne_nil _ _

/-! ## Leading zeros -/

theorem digitsOf_padded (zeros n : Nat) :
    DigitsOf (List.replicate zeros '0' ++ decimalDigits n) n where
  nonempty h := Nat.toDigits_ne_nil (List.append_eq_nil_iff.1 h).2
  digits d hd := by
    rcases List.mem_append.1 hd with hd | hd
    · rw [List.eq_of_mem_replicate hd]
      rfl
    · exact isDigit_of_mem_decimalDigits hd
  value := by
    rw [Nat.ofDigitChars_append, Nat.ofDigitChars_replicate_zero, Nat.mul_zero, decimalDigits,
      Nat.ofDigitChars_ten_toDigits]

theorem exists_eq_digitChar {c : Char} (h : c.isDigit = true) : ∃ d < 10, c = d.digitChar := by
  obtain ⟨hlow, hhigh⟩ := Char.isDigit_iff_toNat.1 h
  have hzero : '0'.toNat = 48 := rfl
  have hnine : '9'.toNat = 57 := rfl
  have hd : c.toNat - 48 < 10 := by omega
  refine ⟨c.toNat - 48, hd, Char.toNat_inj.1 ?_⟩
  rw [Nat.toNat_digitChar_of_lt_ten hd]
  omega

theorem decimalDigits_append (hacc : 0 < acc) (hdigits : ∀ d ∈ ds, d.isDigit = true) :
    decimalDigits acc ++ ds = decimalDigits (Nat.ofDigitChars 10 ds acc) := by
  induction ds generalizing acc with
  | nil => rw [List.append_nil, Nat.ofDigitChars_nil]
  | cons c ds ih =>
    obtain ⟨hc, hds⟩ := List.forall_mem_cons.1 hdigits
    obtain ⟨d, hd, rfl⟩ := exists_eq_digitChar hc
    have hnext : decimalDigits acc ++ [d.digitChar] = decimalDigits (10 * acc + d) := by
      rw [← Nat.toDigits_of_lt_base hd]
      exact Nat.toDigits_append_toDigits (by decide) hacc hd
    rw [Nat.ofDigitChars_cons_digitChar_of_lt_ten hd, ← ih (by omega) hds, ← hnext,
      List.append_assoc]
    rfl

/-- The digits that come to a positive number are its own, behind zeros. -/
theorem eq_padded (hn : 0 < n) (hdigits : ∀ d ∈ ds, d.isDigit = true)
    (hvalue : Nat.ofDigitChars 10 ds 0 = n) :
    ∃ zeros, ds = List.replicate zeros '0' ++ decimalDigits n := by
  induction ds with
  | nil =>
    rw [Nat.ofDigitChars_nil] at hvalue
    omega
  | cons c ds ih =>
    obtain ⟨hc, hds⟩ := List.forall_mem_cons.1 hdigits
    obtain ⟨d, hd, rfl⟩ := exists_eq_digitChar hc
    rw [Nat.ofDigitChars_cons_digitChar_of_lt_ten hd, Nat.mul_zero, Nat.zero_add] at hvalue
    cases d with
    | zero =>
      obtain ⟨zeros, hzeros⟩ := ih hds hvalue
      exact ⟨zeros + 1, by rw [hzeros]; rfl⟩
    | succ d =>
      refine ⟨0, ?_⟩
      have hdigits := decimalDigits_append d.succ_pos hds
      rw [hvalue, decimalDigits, Nat.toDigits_of_lt_base hd] at hdigits
      exact hdigits

/-- **Leading zeros.** A positive number is denoted by its digits with zeros before them, and by the
same with a plus sign. -/
theorem denotes_pos_iff (hn : 0 < n) :
    Denotes cs n ↔ ∃ zeros, cs = List.replicate zeros '0' ++ decimalDigits n ∨
      cs = '+' :: (List.replicate zeros '0' ++ decimalDigits n) := by
  constructor
  · intro h
    generalize hi : (n : Int) = i at h
    cases h with
    | unsigned h =>
      cases Int.ofNat.inj hi
      obtain ⟨zeros, hcs⟩ := eq_padded hn h.digits h.value
      exact ⟨zeros, .inl hcs⟩
    | plus h =>
      cases Int.ofNat.inj hi
      obtain ⟨zeros, hcs⟩ := eq_padded hn h.digits h.value
      exact ⟨zeros, .inr (hcs ▸ rfl)⟩
    | minus h => omega
  · rintro ⟨zeros, rfl | rfl⟩
    · exact .unsigned (digitsOf_padded zeros n)
    · exact .plus (digitsOf_padded zeros n)

end NetRelocation.Text.Numeral
