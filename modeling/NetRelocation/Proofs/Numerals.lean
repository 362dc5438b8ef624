import NetRelocation.Text.Numeral

/-!
# Numerals that were written

**Theorem (`fold_toDigits`).** The digits of a number in a base, read from the left, come to the
number. Readers that keep to a range accept them if the number is in the range (`readNat_of_fold`),
and no numeral starts with a zero but that of zero (`head_toDigits`).

Digits are written by an induction that puts the last one at the end, so what is shown about them
goes by induction on the number divided by the base.
-/

namespace NetRelocation.Text.Numeral

variable {base limit acc n : Nat} {digit : Char → Option Nat} {cs : List Char}

/-! ## Reading digits -/

/-- A reader of digits knows those of a base, and no sign. -/
structure Knows (digit : Char → Option Nat) (base : Nat) : Prop where
  digitChar : ∀ d < base, digit d.digitChar = some d
  plus : digit '+' = none
  minus : digit '-' = none

theorem knows_decimal : Knows digit? 10 := ⟨by decide, by decide, by decide⟩

theorem knows_hex : Knows hexDigit? 16 := ⟨by decide, by decide, by decide⟩

theorem fold_append (l m : List Char) :
    fold base digit acc (l ++ m) = (fold base digit acc l).bind (fold base digit · m) := by
  induction l generalizing acc with
  | nil => rfl
  | cons c l ih =>
    rw [List.cons_append, fold, fold]
    cases digit c with
    | none => rfl
    | some d => exact ih

theorem fold_toDigits (hbase : 1 < base) (h : Knows digit base) (n : Nat) :
    fold base digit 0 (Nat.toDigits base n) = some n := by
  induction n using Nat.strongRecOn with
  | ind n ih =>
    have hbase' : 0 < base := Nat.lt_trans Nat.zero_lt_one hbase
    rw [Nat.toDigits_eq_if hbase]
    split
    · rename_i hn
      simp [fold, h.digitChar n hn]
    · rename_i hn
      have hlast := h.digitChar (n % base) (Nat.mod_lt n hbase')
      have hdiv : n / base < n := Nat.div_lt_self (by omega) hbase
      rw [fold_append, ih (n / base) hdiv]
      simp [fold, hlast, Nat.div_add_mod']

theorem le_of_fold (hbase : 0 < base) (h : fold base digit acc cs = some n) : acc ≤ n := by
  induction cs generalizing acc with
  | nil =>
    cases h
    exact Nat.le_refl _
  | cons c cs ih =>
    rw [fold] at h
    cases hc : digit c with
    | none => simp [hc] at h
    | some d =>
      rw [hc] at h
      have hacc : acc ≤ acc * base := Nat.le_mul_of_pos_right acc hbase
      have hnext : acc * base + d ≤ n := ih h
      omega

theorem readDigits_of_fold (hbase : 0 < base) (h : fold base digit acc cs = some n)
    (hn : n < limit) : readDigits base limit digit acc cs = .ok n := by
  induction cs generalizing acc with
  | nil =>
    cases h
    rfl
  | cons c cs ih =>
    rw [fold] at h
    rw [readDigits]
    cases hc : digit c with
    | none => simp [hc] at h
    | some d =>
      rw [hc] at h
      have hnext : acc * base + d ≤ n := le_of_fold hbase h
      dsimp only
      rw [if_pos (Nat.lt_of_le_of_lt hnext hn)]
      exact ih h

/-- A reader of numerals accepts digits of a number in its range. -/
theorem readNat_of_fold (hbase : 0 < base) (hknows : Knows digit base) (hcs : cs ≠ [])
    (h : fold base digit 0 cs = some n) (hn : n < limit) :
    readNat base limit digit cs = .ok n := by
  have hread := readDigits_of_fold hbase h hn
  unfold readNat
  split
  · exact absurd rfl hcs
  · simp [fold, hknows.plus] at h
  · simp [fold, hknows.minus] at h
  · simp [fold, hknows.plus] at h
  · exact hread

theorem readNat_plus (hcs : cs ≠ []) :
    readNat base limit digit ('+' :: cs) = readDigits base limit digit 0 cs := by
  cases cs with
  | nil => exact absurd rfl hcs
  | cons c cs => rfl

theorem fold_of_readDigits (h : readDigits base limit digit acc cs = .ok n) :
    fold base digit acc cs = some n := by
  induction cs generalizing acc with
  | nil =>
    cases h
    rfl
  | cons c cs ih =>
    rw [readDigits] at h
    rw [fold]
    cases hc : digit c with
    | none => simp [hc] at h
    | some d =>
      simp only [hc] at h
      split at h
      · exact ih h
      · cases h

theorem lt_of_readDigits (hacc : acc < limit ∨ cs ≠ [])
    (h : readDigits base limit digit acc cs = .ok n) : n < limit := by
  induction cs generalizing acc with
  | nil =>
    cases h
    exact hacc.resolve_right fun hne => hne rfl
  | cons c cs ih =>
    rw [readDigits] at h
    cases hc : digit c with
    | none => simp [hc] at h
    | some d =>
      simp only [hc] at h
      split at h
      · rename_i hnext
        exact ih (.inl hnext) h
      · cases h

theorem readDigits_eq_ok_iff (hbase : 0 < base) (hcs : cs ≠ []) :
    readDigits base limit digit acc cs = .ok n ↔
      fold base digit acc cs = some n ∧ n < limit :=
  ⟨fun h => ⟨fold_of_readDigits h, lt_of_readDigits (.inr hcs) h⟩,
    fun h => readDigits_of_fold hbase h.1 h.2⟩

/-- A numeral that was accepted has digits, and at most a plus sign before them. -/
theorem fold_of_readNat (h : readNat base limit digit cs = .ok n) :
    ∃ ds, (cs = ds ∨ cs = '+' :: ds) ∧ fold base digit 0 ds = some n := by
  unfold readNat at h
  split at h
  · cases h
  · cases h
  · cases h
  · exact ⟨_, .inr rfl, fold_of_readDigits h⟩
  · exact ⟨_, .inl rfl, fold_of_readDigits h⟩

theorem readNat_toDigits (hbase : 1 < base) (hknows : Knows digit base) (hn : n < limit) :
    readNat base limit digit (Nat.toDigits base n) = .ok n :=
  readNat_of_fold (by omega) hknows Nat.toDigits_ne_nil (fold_toDigits hbase hknows n) hn

/-! ## Decimal digits -/

theorem isDigit_of_mem_decimalDigits {c : Char} (h : c ∈ decimalDigits n) : c.isDigit = true :=
  Nat.isDigit_of_mem_toDigits (by decide) (by decide) h

theorem head_toDigits (hbase : 1 < base) (hbase' : base ≤ 16) (hn : 0 < n) :
    ∃ c cs, Nat.toDigits base n = c :: cs ∧ c ≠ '0' := by
  induction n using Nat.strongRecOn with
  | ind n ih =>
    rw [Nat.toDigits_eq_if hbase]
    split
    · have hdigit : ∀ d < 16, 0 < d → d.digitChar ≠ '0' := by decide
      exact ⟨n.digitChar, [], rfl, hdigit n (by omega) hn⟩
    · have hdiv : n / base < n := Nat.div_lt_self hn hbase
      obtain ⟨c, cs, hcs, hc⟩ := ih (n / base) hdiv (Nat.div_pos (by omega) (by omega))
      exact ⟨c, cs ++ [(n % base).digitChar], by rw [hcs]; rfl, hc⟩

theorem decimalDigits_ne_zero_cons {c : Char} : decimalDigits n ≠ '0' :: c :: cs := by
  intro h
  cases n with
  | zero => cases h
  | succ n =>
    obtain ⟨c', cs', hdigits, hc'⟩ := head_toDigits (show 1 < 10 by decide) (by decide) n.succ_pos
    rw [decimalDigits, hdigits] at h
    exact hc' (List.cons.inj h).1

end NetRelocation.Text.Numeral
