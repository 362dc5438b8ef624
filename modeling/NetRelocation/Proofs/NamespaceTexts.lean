import NetRelocation.Namespace.Ref
import NetRelocation.Proofs.SignedNumerals

/-!
# Texts of namespaces

A namespace is given as the number of a process or as the path of a file.

**Theorem (`numerals_and_paths`).** A numeral of a positive number is the process of that number,
whatever zeros stand before it and with or without a plus sign, and leads to that process's file. A
numeral of any other number is refused, and a text that is no numeral is a path. This is so as long
as the number has thirty-two bits; the numeral of a longer one is a path (`long_number_is_path`).

What a numeral of thirty-two bits is read as does not depend on its spelling (`parse_of_number`).
All other texts are paths (`parse_of_no_number`), since the reader of numerals refuses a number that
is too long as it refuses a text without a number.
-/

namespace NetRelocation.NamespaceRef

open Text.Numeral (Denotes decimal digitsOf_padded readInt32_eq_ok_iff denotes_pos_iff)

/-! ## Numbers of thirty-two bits -/

/-- An integer that takes more than thirty-two bits. -/
def TooLong (n : Int) : Prop := n < Int32.minValue.toInt ∨ Int32.maxValue.toInt < n

instance (n : Int) : Decidable (TooLong n) := inferInstanceAs (Decidable (_ ∨ _))

theorem not_tooLong (number : Int32) : ¬ TooLong number.toInt := by
  rintro (h | h)
  · exact absurd number.minValue_le_toInt (Int.not_le.2 h)
  · exact absurd number.toInt_le (Int.not_le.2 h)

theorem toInt_ofInt {n : Int} (h : ¬ TooLong n) : (Int32.ofInt n).toInt = n := by
  have hmin : Int32.minValue.toInt = -2 ^ 31 := rfl
  have hmax : Int32.maxValue.toInt = 2 ^ 31 - 1 := rfl
  rw [TooLong, hmin, hmax] at h
  exact Int32.toInt_ofInt_of_le (by omega) (by omega)

/-! ## What texts are read as -/

theorem ne_empty_of_denotes {s : String} {n : Int} (h : Denotes s.toList n) : s ≠ "" :=
  fun hs => h.ne_nil (congrArg String.toList hs)

/-- A numeral of thirty-two bits is read as the process of its number, which has to be positive. -/
theorem parse_of_number {s : String} {number : Int32} (h : Denotes s.toList number.toInt) :
    parse s = if 0 < number then .ok (.process number) else .error (.namespaceProcess s) := by
  rw [parse, if_neg (ne_empty_of_denotes h), readInt32_eq_ok_iff.2 h]

theorem parse_of_no_number {s : String} (hs : s ≠ "")
    (h : ∀ number : Int32, ¬ Denotes s.toList number.toInt) : parse s = .ok (.path s) := by
  rw [parse, if_neg hs]
  split
  · rename_i number hread
    exact absurd (readInt32_eq_ok_iff.1 hread) (h number)
  · rfl

/-- What a numeral is read as. -/
theorem parse_of_denotes {s : String} {n : Int} (h : Denotes s.toList n) :
    parse s =
      if TooLong n then .ok (.path s)
      else if 0 < n then .ok (.process (.ofInt n))
      else .error (.namespaceProcess s) := by
  split
  · rename_i hlong
    refine parse_of_no_number (ne_empty_of_denotes h) fun number hnumber => ?_
    exact not_tooLong number (h.unique hnumber ▸ hlong)
  · rename_i hfits
    have hn := toInt_ofInt hfits
    have hpos : 0 < Int32.ofInt n ↔ 0 < n := by
      rw [Int32.lt_iff_toInt_lt, hn]
      rfl
    rw [parse_of_number (hn.symm ▸ h)]
    simp only [hpos]

/-! ## Processes -/

theorem file_process {number : Int32} (h : 0 < number) :
    (process number).file = "/proc/" ++ decimal number.toInt.toNat ++ "/ns/net" := by
  have hpos : 0 < number.toInt := Int32.lt_iff_toInt_lt.1 h
  have habs : number.toInt.natAbs = number.toInt.toNat := by omega
  rw [file, Text.Numeral.signed, if_neg (by omega), habs]

/-- A positive number behind zeros, and behind a plus sign, is the process of that number. -/
theorem parse_of_padded {s : String} {number : Int32} {zeros : Nat} (hpos : 0 < number)
    (h : s = Text.replicate zeros '0' ++ decimal number.toInt.toNat ∨
      s = "+" ++ Text.replicate zeros '0' ++ decimal number.toInt.toNat) :
    parse s = .ok (.process number) := by
  have hint : 0 < number.toInt := Int32.lt_iff_toInt_lt.1 hpos
  have hnat : (number.toInt.toNat : Int) = number.toInt := Int.toNat_of_nonneg (by omega)
  have hdenotes : Denotes s.toList number.toInt := by
    rw [← hnat, denotes_pos_iff (by omega)]
    refine ⟨zeros, ?_⟩
    rcases h with rfl | rfl
    · exact .inl (by simp [Text.replicate, decimal])
    · exact .inr (by simp [Text.replicate, decimal])
  rw [parse_of_number hdenotes, if_pos hpos]

/-! ## Numerals and paths -/

/-- Numerals and paths are told apart: a numeral is the process of its number, if a process can have
that number, and is refused otherwise, and any other text is a path. -/
structure ToldApart (s : String) : Prop where
  numeral : ∀ n, Denotes s.toList n → parse s =
    if 0 < n ∧ n ≤ Int32.maxValue.toInt then .ok (.process (.ofInt n))
    else .error (.namespaceProcess s)
  other : (∀ n, ¬ Denotes s.toList n) → parse s = .ok (.path s)

/-- **Numerals and paths.** A text that is not empty is a process, is refused or is a path as its
number is positive, is not, or is none, where a number that is too long counts as none. A positive
number leads to the file of its process, however it is padded. So numerals and paths are told apart
exactly as long as the text is not a numeral of a number that is too long. -/
theorem numerals_and_paths (s : String) (hs : s ≠ "") :
    (∀ n, Denotes s.toList n → parse s =
      if TooLong n then .ok (.path s)
      else if 0 < n then .ok (.process (.ofInt n))
      else .error (.namespaceProcess s)) ∧
    ((∀ n, ¬ Denotes s.toList n) → parse s = .ok (.path s)) ∧
    (∀ (number : Int32) (zeros : Nat), 0 < number →
      s = Text.replicate zeros '0' ++ decimal number.toInt.toNat ∨
        s = "+" ++ Text.replicate zeros '0' ++ decimal number.toInt.toNat →
      (parse s).map file = .ok ("/proc/" ++ decimal number.toInt.toNat ++ "/ns/net")) ∧
    (ToldApart s ↔ ¬ ∃ n, Denotes s.toList n ∧ TooLong n) := by
  have hother : (∀ n, ¬ Denotes s.toList n) → parse s = .ok (.path s) := fun h =>
    parse_of_no_number hs fun number => h number.toInt
  refine ⟨fun n => parse_of_denotes, hother, fun number zeros hpos h => ?_, ?_, ?_⟩
  · rw [parse_of_padded hpos h, Except.map, file_process hpos]
  · rintro htold ⟨n, hn, hlong⟩
    have hread := htold.numeral n hn
    rw [parse_of_denotes hn, if_pos hlong] at hread
    split at hread
    · cases hread
    · cases hread
  · intro h
    refine ⟨fun n hn => ?_, hother⟩
    have hfits : ¬ TooLong n := fun hlong => h ⟨n, hn, hlong⟩
    have hmax : n ≤ Int32.maxValue.toInt := Int.not_lt.1 fun hlt => hfits (.inr hlt)
    rw [parse_of_denotes hn, if_neg hfits]
    simp only [hmax, and_true]

/-- A padded number, a number that no process has, and a text with more than a number in it. -/
theorem padded_refused_and_path :
    (parse "+0042").map file = .ok "/proc/42/ns/net" ∧
    parse "-0" = .error (.namespaceProcess "-0") ∧
    ToldApart "4.2" := by
  have hzero : Denotes "-0".toList (-(0 : Nat)) := .minus (digitsOf_padded 0 0)
  have hpoint : ¬ ∃ n, Denotes "4.2".toList n ∧ TooLong n := by
    rintro ⟨n, h | h | h, -⟩
    exact absurd (h.digits '.' (by decide)) (by decide)
  refine ⟨?_, ?_, ?_⟩
  · exact (numerals_and_paths "+0042" (by decide)).2.2.1 42 2 (by decide) (.inr rfl)
  · exact (numerals_and_paths "-0" (by decide)).1 _ hzero
  · exact (numerals_and_paths "4.2" (by decide)).2.2.2.2 hpoint

/-- The first number that is too long is a path. -/
theorem long_number_is_path :
    Denotes "2147483648".toList 2147483648 ∧
    parse "2147483648" = .ok (.path "2147483648") ∧ ¬ ToldApart "2147483648" := by
  have hdenotes : Denotes "2147483648".toList (2147483648 : Nat) :=
    .unsigned ⟨by decide, by simp, rfl⟩
  have hpath : parse "2147483648" = .ok (.path "2147483648") := rfl
  refine ⟨hdenotes, hpath, fun h => ?_⟩
  have hread := h.numeral _ hdenotes
  rw [hpath, if_neg (by decide)] at hread
  cases hread

end NetRelocation.NamespaceRef
