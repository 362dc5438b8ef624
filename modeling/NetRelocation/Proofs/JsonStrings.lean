import Mathlib.Tactic.SplitIfs
import NetRelocation.Json.Read

/-!
# The texts of a string

A character of a string may be written as itself, as an escape of one letter, or by its number as
one escape or two (`CharText`). The reader takes all these forms (`CharText.read`,
`StringText.read`), and the form that is written is one of them (`stringText_stringChars`).
-/

namespace NetRelocation.Json

open Value (escapeChar stringChars)

/-! ## The forms -/

/-- How a character may be written in a string. -/
inductive CharText (c : Char) : List Char → Prop
  | plain (quote : c ≠ '"') (slash : c ≠ '\\') (control : 0x20 ≤ c.toNat) : CharText c [c]
  | short {x : Char} (pair : (x, c) ∈ [('"', '"'), ('\\', '\\'), ('/', '/'), ('b', Char.ofNat 8),
      ('f', Char.ofNat 12), ('n', '\n'), ('r', '\r'), ('t', '\t')]) : CharText c ['\\', x]
  | code {w x y z : Char} (digits : hex4? w x y z = some c.toNat) :
    CharText c ['\\', 'u', w, x, y, z]
  | surrogates {w x y z w' x' y' z' : Char} {high low : Nat}
    (first : hex4? w x y z = some high) (second : hex4? w' x' y' z' = some low)
    (highRange : 0xD800 ≤ high ∧ high ≤ 0xDBFF) (lowRange : 0xDC00 ≤ low ∧ low ≤ 0xDFFF)
    (code : c.toNat = (high - 0xD800) * 1024 + (low - 0xDC00) + 0x10000) :
    CharText c ['\\', 'u', w, x, y, z, '\\', 'u', w', x', y', z']

/-- The texts of characters one after another. -/
inductive CharsText : List Char → List Char → Prop
  | nil : CharsText [] []
  | cons {c : Char} {l cs rest : List Char} (first : CharText c cs) (more : CharsText l rest) :
    CharsText (c :: l) (cs ++ rest)

inductive StringText (s : String) : List Char → Prop
  | quoted {cs : List Char} (chars : CharsText s.toList cs) : StringText s ('"' :: cs ++ ['"'])

/-! ## Reading -/

theorem not_surrogate (c : Char) : ¬(0xDC00 ≤ c.toNat ∧ c.toNat ≤ 0xDFFF) ∧
    ¬(0xD800 ≤ c.toNat ∧ c.toNat ≤ 0xDBFF) := by
  have hvalid : c.toNat < 0xD800 ∨ 0xDFFF < c.toNat ∧ c.toNat < 0x110000 := c.valid
  omega

theorem readHex4_of {w x y z : Char} {n : Nat} (h : hex4? w x y z = some n) (cs : List Char) :
    readHex4 (w :: x :: y :: z :: cs) = .ok (n, cs) := by
  simp only [readHex4, h]

theorem readChars_escape {cs rest : List Char} {c : Char} (h : readEscape cs = .ok (c, rest))
    (fuel : Nat) : readChars (fuel + 1) ('\\' :: cs) =
      (readChars fuel rest).map fun r => (c :: r.1, r.2) := by
  rw [readChars, if_neg (by decide), if_pos rfl, h]

theorem CharText.read {c : Char} {cs : List Char} (h : CharText c cs) (fuel : Nat)
    (rest : List Char) : readChars (fuel + 1) (cs ++ rest) =
      (readChars fuel rest).map fun r => (c :: r.1, r.2) := by
  cases h with
  | plain hquote hslash hcontrol =>
    rw [List.singleton_append, readChars, if_neg hquote, if_neg hslash,
      if_neg (Nat.not_lt.2 hcontrol)]
  | @short x hpair =>
    have hall : ∀ p ∈ [('"', '"'), ('\\', '\\'), ('/', '/'), ('b', Char.ofNat 8),
        ('f', Char.ofNat 12), ('n', '\n'), ('r', '\r'), ('t', '\t')],
        shortEscape? p.1 = some p.2 ∧ p.1 ≠ 'u' := by decide
    obtain ⟨hshort, hu⟩ := hall _ hpair
    have hescape : readEscape (x :: rest) = .ok (c, rest) := by
      rw [readEscape]
      · simp only [hshort]
      · exact fun h => absurd h hu
    exact readChars_escape hescape fuel
  | @code w x y z hdigits =>
    obtain ⟨hlow, hhigh⟩ := not_surrogate c
    have hescape : readEscape ('u' :: w :: x :: y :: z :: rest) = .ok (c, rest) := by
      simp only [readEscape, readHex4_of hdigits, hlow, hhigh, if_false, Char.ofNat_toNat]
    exact readChars_escape hescape fuel
  | @surrogates w x y z w' x' y' z' high low hfirst hsecond hhigh hlow hcode =>
    have hnot : ¬(0xDC00 ≤ high ∧ high ≤ 0xDFFF) := by omega
    have hsecondHalf : readLowSurrogate high ('\\' :: 'u' :: w' :: x' :: y' :: z' :: rest) =
        .ok (c, rest) := by
      rw [readLowSurrogate, readHex4_of hsecond]
      simp only [hlow, and_self, if_true, ← hcode, Char.ofNat_toNat]
    have hescape : readEscape ('u' :: w :: x :: y :: z :: '\\' :: 'u' :: w' :: x' :: y' :: z' ::
        rest) = .ok (c, rest) := by
      simp only [readEscape, readHex4_of hfirst, hnot, hhigh, if_false, and_self, if_true,
        hsecondHalf]
    exact readChars_escape hescape fuel

theorem CharText.ne_nil {c : Char} {cs : List Char} (h : CharText c cs) : 1 ≤ cs.length := by
  cases h <;> simp

theorem CharsText.length_le {l cs : List Char} (h : CharsText l cs) : l.length ≤ cs.length := by
  induction h with
  | nil => simp
  | cons hfirst _ ih =>
    have hone := hfirst.ne_nil
    simp only [List.length_cons, List.length_append]
    omega

theorem CharsText.read {l cs : List Char} (h : CharsText l cs) (rest : List Char) {fuel : Nat}
    (hfuel : l.length < fuel) : readChars fuel (cs ++ '"' :: rest) = .ok (l, rest) := by
  induction h generalizing fuel with
  | nil =>
    cases fuel with
    | zero => simp at hfuel
    | succ fuel => rfl
  | cons hfirst _ ih =>
    cases fuel with
    | zero => simp at hfuel
    | succ fuel =>
      rw [List.append_assoc, hfirst.read, ih (Nat.lt_of_succ_lt_succ hfuel)]
      rfl

theorem CharsText.readString {s : String} {cs : List Char} (h : CharsText s.toList cs)
    (rest : List Char) : readString (cs ++ '"' :: rest) = .ok (s, rest) := by
  have hlength : s.toList.length < (cs ++ '"' :: rest).length + 1 := by
    have hle := h.length_le
    rw [List.length_append]
    omega
  rw [Json.readString, h.read rest hlength]
  simp [Except.map]

theorem StringText.read {s : String} {cs : List Char} (h : StringText s cs) (rest : List Char) :
    ∃ tail, cs ++ rest = '"' :: tail ∧ readString tail = .ok (s, rest) := by
  obtain @⟨cs, hchars⟩ := h
  exact ⟨cs ++ '"' :: rest, by simp, hchars.readString rest⟩

/-! ## Strings as they are written -/

theorem hex4?_control : ∀ n < 0x20,
    hex4? '0' '0' (Text.Numeral.hexDigit ((UInt8.ofNat n).toNat / 16))
      (Text.Numeral.hexDigit ((UInt8.ofNat n).toNat % 16)) = some n := by
  decide

theorem charText_escapeChar (c : Char) : CharText c (escapeChar c) := by
  unfold escapeChar
  split_ifs with hquote hslash hn hr ht hb hf hcontrol
  · rw [hquote]
    exact .short (by decide)
  · rw [hslash]
    exact .short (by decide)
  · rw [hn]
    exact .short (by decide)
  · rw [hr]
    exact .short (by decide)
  · rw [ht]
    exact .short (by decide)
  -- two more control characters have an escape of one letter, all others their number
  · have hc : c = Char.ofNat 8 := by rw [← hb, Char.ofNat_toNat]
    rw [hc]
    exact .short (by decide)
  · have hc : c = Char.ofNat 12 := by rw [← hf, Char.ofNat_toNat]
    rw [hc]
    exact .short (by decide)
  · exact .code (hex4?_control c.toNat hcontrol)
  · exact .plain hquote hslash (Nat.not_lt.1 hcontrol)

theorem charsText_flatMap (l : List Char) : CharsText l (l.flatMap escapeChar) := by
  induction l with
  | nil => exact .nil
  | cons c l ih => exact .cons (charText_escapeChar c) ih

theorem stringText_stringChars (s : String) : StringText s (stringChars s) :=
  .quoted (charsText_flatMap s.toList)

end NetRelocation.Json
