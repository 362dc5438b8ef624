import NetRelocation.Proofs.JsonText

/-!
# The texts of a value

A writer of JSON is free in much: blanks may stand around everything, a character of a string may be
itself or an escape, and a number has many forms. `ValueText` says which texts a value has when so
many levels of containers may be used. It knows the readers in one place only: which double a number
stands for is what its reader says.

**Numbers.** A number is read as far as its grammar goes, whatever stands behind, and only its range
can keep it from being read (`takes_numeral`).
-/

namespace NetRelocation.Json

open Text.Numeral (decimalDigits)

/-! ## The grammar -/

def Blank (pad : List Char) : Prop := ∀ c ∈ pad, c ∈ [' ', '\t', '\n', '\r']

instance (pad : List Char) : Decidable (Blank pad) := List.decidableBAll _ _

/-- What may stand behind a value: the end, a blank, a comma, or the end of a container. -/
def Stops (rest : List Char) : Prop :=
  ∀ c ∈ rest.head?, c ∈ [' ', '\t', '\n', '\r', ',', ']', '}']

/-- One digit or more. -/
def Digits (ds : List Char) : Prop := ds ≠ [] ∧ ∀ c ∈ ds, c.isDigit = true

/-- The digits before the point: no zero leads others. -/
def Whole (ds : List Char) : Prop := Digits ds ∧ (ds.head? = some '0' → ds = ['0'])

/-- A fraction, if there is one. -/
inductive Fraction : List Char → Prop
  | none : Fraction []
  | some {ds : List Char} (digits : Digits ds) : Fraction ('.' :: ds)

/-- An exponent, if there is one. -/
inductive Exponent : List Char → Prop
  | none : Exponent []
  | some {mark : Char} {sign ds : List Char} (marked : mark = 'e' ∨ mark = 'E')
    (signed : sign = [] ∨ sign = ['+'] ∨ sign = ['-']) (digits : Digits ds) :
    Exponent (mark :: (sign ++ ds))

/-- A number without its sign. -/
def Numeral (cs : List Char) : Prop :=
  ∃ whole fraction exponent, Whole whole ∧ Fraction fraction ∧ Exponent exponent ∧
    cs = whole ++ (fraction ++ exponent)

def minus (negative : Bool) : List Char := if negative then ['-'] else []

section

variable {α : Type}

/-- A text with blanks around it. -/
def Padded (text : α → List Char → Prop) (a : α) (cs : List Char) : Prop :=
  ∃ before body after, Blank before ∧ text a body ∧ Blank after ∧ cs = before ++ (body ++ after)

/-- Texts with commas between them. -/
inductive Listed (text : α → List Char → Prop) : List α → List Char → Prop
  | last {a : α} {cs : List Char} (first : text a cs) : Listed text [a] cs
  | more {a : α} {as : List α} {cs rest : List Char} (first : text a cs)
    (others : Listed text as rest) : Listed text (a :: as) (cs ++ ',' :: rest)

/-- What stands between the brackets of a container. -/
inductive Inside (text : α → List Char → Prop) : List α → List Char → Prop
  | none {cs : List Char} (blank : Blank cs) : Inside text [] cs
  | some {as : List α} {cs : List Char} (listed : Listed text as cs) : Inside text as cs

end

/-- A key and a value with a colon between them. -/
def MemberText (text : Value → List Char → Prop) (m : String × Value) (cs : List Char) : Prop :=
  ∃ key value, Padded StringText m.1 key ∧ Padded text m.2 value ∧ cs = key ++ ':' :: value

/-- The texts of values that hold no others. -/
inductive ScalarText : Value → List Char → Prop
  | null : ScalarText .null ['n', 'u', 'l', 'l']
  | true : ScalarText (.bool true) ['t', 'r', 'u', 'e']
  | false : ScalarText (.bool false) ['f', 'a', 'l', 's', 'e']
  | integer {n : Int} (range : InRange n) : ScalarText (.integer n) (Value.integerChars n)
  | number {x : Number} {cs : List Char} (negative : Bool) (shape : Numeral cs)
    (value : readNumber negative cs = .ok (x, [])) : ScalarText x.toValue (minus negative ++ cs)
  | string {s : String} {cs : List Char} (text : StringText s cs) : ScalarText (.string s) cs

/-- The texts of values, given the texts of what they hold. -/
inductive HolderText (text : Value → List Char → Prop) : Value → List Char → Prop
  | scalar {v : Value} {cs : List Char} (scalar : ScalarText v cs) : HolderText text v cs
  | array {vs : List Value} {cs : List Char} (items : Inside (Padded text) vs cs) :
    HolderText text (.array vs) ('[' :: cs ++ [']'])
  | object {ms : List (String × Value)} {cs : List Char}
    (members : Inside (MemberText text) ms cs) : HolderText text (.object ms) ('{' :: cs ++ ['}'])

/-- The texts of values with so many levels of containers. -/
def ValueText : Nat → Value → List Char → Prop
  | 0 => ScalarText
  | depth + 1 => HolderText (ValueText depth)

/-! ## Blanks -/

theorem blank_nil : Blank [] := nofun

theorem Blank.isSpace {pad : List Char} (h : Blank pad) : ∀ c ∈ pad, isSpace c = true := by
  have hall : [' ', '\t', '\n', '\r'].all Json.isSpace = true := by decide
  exact fun c hc => List.all_eq_true.1 hall c (h c hc)

theorem skipSpace_append {pad : List Char} (h : Blank pad) (cs : List Char) :
    skipSpace (pad ++ cs) = skipSpace cs :=
  List.dropWhile_append_of_pos h.isSpace

theorem skipSpace_blank {pad : List Char} (h : Blank pad) : skipSpace pad = [] := by
  have hskip := skipSpace_append h []
  rwa [List.append_nil] at hskip

theorem Stops.blank_append {pad rest : List Char} (hpad : Blank pad) (h : Stops rest) :
    Stops (pad ++ rest) := by
  cases pad with
  | nil => exact h
  | cons c pad =>
    rintro d ⟨⟩
    exact List.mem_append_left [',', ']', '}'] (hpad c List.mem_cons_self)

theorem stops_comma (rest : List Char) : Stops (',' :: rest) := by
  rintro c ⟨⟩
  decide

theorem stops_bracket (rest : List Char) : Stops (']' :: rest) := by
  rintro c ⟨⟩
  decide

theorem stops_brace (rest : List Char) : Stops ('}' :: rest) := by
  rintro c ⟨⟩
  decide

theorem stops_nil : Stops [] := nofun

theorem Stops.not_digit {rest : List Char} (h : Stops rest) :
    ∀ c ∈ rest.head?, c.isDigit = false := by
  have hall : [' ', '\t', '\n', '\r', ',', ']', '}'].all (!Char.isDigit ·) = true := by decide
  exact fun c hc => by simpa using List.all_eq_true.1 hall c (h c hc)

/-! ## Numbers -/

/-- A reader of numbers takes a text to its end, whatever stands behind, if the number is in
range. -/
def Takes (read : List Char → Step Number) (cs : List Char) : Prop :=
  ∃ r : Except Fault Number, (∀ e, r = .error e → e = .malformed .numberOutOfRange) ∧
    ∀ rest, Stops rest → read (cs ++ rest) = r.map (·, rest)

theorem float?_error {negative : Bool} {significand : Nat} {e : Int} {fault : Fault}
    (h : float? negative significand e = .error fault) : fault = .malformed .numberOutOfRange := by
  unfold float? at h
  split at h
  · cases h
  · cases h
    rfl

/-- What a number with an exponent comes to, given the value of the exponent's digits. -/
def scaled (negative : Bool) (significand : Nat) (start : Int) (down : Bool) (n : Nat) :
    Except Fault Number :=
  if Nat.pow 2 31 ≤ n then
    if significand ≠ 0 ∧ ¬down then .error (.malformed .numberOutOfRange)
    else .ok (.float (if negative then -0 else 0))
  else float? negative significand (clamp (if down then start - n else start + n))

theorem scaled_error {negative : Bool} {significand : Nat} {start : Int} {down : Bool} {n : Nat}
    {fault : Fault} (h : scaled negative significand start down n = .error fault) :
    fault = .malformed .numberOutOfRange := by
  unfold scaled at h
  split_ifs at h
  · cases h
    rfl
  · exact float?_error h
  · exact float?_error h

theorem Exponent.not_digit {exponent : List Char} (h : Exponent exponent) {rest : List Char}
    (hrest : Stops rest) : ∀ c ∈ (exponent ++ rest).head?, c.isDigit = false := by
  cases h with
  | none => exact hrest.not_digit
  | @some mark sign ds hmark hsign hds =>
    rintro c ⟨⟩
    rcases hmark with rfl | rfl
    · rfl
    · rfl

theorem Fraction.not_digit {fraction text : List Char} (h : Fraction fraction)
    (htext : ∀ c ∈ text.head?, c.isDigit = false) :
    ∀ c ∈ (fraction ++ text).head?, c.isDigit = false := by
  cases h with
  | none => exact htext
  | some hds =>
    rintro c ⟨⟩
    rfl

section

variable (negative : Bool) (significand : Nat) (start : Int)

theorem readExponent_signed (down : Bool) {ds rest : List Char} (hds : Digits ds)
    (hrest : ∀ c ∈ rest.head?, c.isDigit = false) :
    readExponent negative significand start ((if down then '-' else '+') :: (ds ++ rest)) =
      (scaled negative significand start down
        ((Text.Numeral.fold 10 Text.Numeral.digit? 0 ds).getD 0)).map (·, rest) := by
  obtain ⟨hne, hdigits⟩ := hds
  obtain ⟨d, tail, rfl⟩ := List.exists_cons_of_ne_nil hne
  obtain ⟨htake, hdrop⟩ := digits_before hdigits hrest
  cases down with
  | false =>
    simp only [readExponent, Bool.false_eq_true, if_false, htake, hdrop, scaled]
    split_ifs <;> rfl
  | true =>
    simp only [readExponent, if_true, htake, hdrop, scaled]
    split_ifs <;> rfl

/-- An exponent without a sign counts as one with a plus. -/
theorem readExponent_unsigned {c : Char} (hc : c.isDigit = true) (cs : List Char) :
    readExponent negative significand start (c :: cs) =
      readExponent negative significand start ('+' :: c :: cs) := by
  have hplus : c ≠ '+' := by
    rintro rfl
    cases hc
  have hminus : c ≠ '-' := by
    rintro rfl
    cases hc
  unfold readExponent
  split
  rename_i heq
  split at heq
  · rename_i hcons
    exact absurd (List.cons.inj hcons).1 hplus
  · rename_i hcons
    exact absurd (List.cons.inj hcons).1 hminus
  · cases heq
    rfl

theorem takes_exponent {sign ds : List Char} (hsign : sign = [] ∨ sign = ['+'] ∨ sign = ['-'])
    (hds : Digits ds) :
    Takes (readExponent negative significand start) (sign ++ ds) := by
  refine ⟨scaled negative significand start (sign = ['-'])
    ((Text.Numeral.fold 10 Text.Numeral.digit? 0 ds).getD 0), fun _ => scaled_error,
    fun rest hrest => ?_⟩
  have hsigned (down : Bool) := readExponent_signed negative significand start down hds
    hrest.not_digit
  rw [List.append_assoc]
  rcases hsign with rfl | rfl | rfl
  · obtain ⟨d, tail, rfl⟩ := List.exists_cons_of_ne_nil hds.1
    rw [List.nil_append, List.cons_append,
      readExponent_unsigned _ _ _ (hds.2 d List.mem_cons_self)]
    exact hsigned false
  · exact hsigned false
  · exact hsigned true

/-- The reader of a fraction behind its digits. -/
theorem readFraction_digits {ds : List Char} (hds : Digits ds) (text : List Char) :
    (∀ c ∈ text.head?, c.isDigit = false) →
      readFraction negative significand start (ds ++ text) =
        let n := (absorb significand ds).1
        let e := start - ((ds.length - (absorb significand ds).2.length : Nat) : Int)
        match text with
        | 'e' :: cs => readExponent negative n e cs
        | 'E' :: cs => readExponent negative n e cs
        | _ => (float? negative n e).map (·, text) := by
  intro htext
  obtain ⟨htake, hdrop⟩ := digits_before hds.2 htext
  obtain ⟨hne, -⟩ := hds
  unfold readFraction
  rw [htake, hdrop]
  dsimp only
  split
  · contradiction
  · contradiction
  · rfl

/-- The reader of a number behind the digits before its point. -/
theorem readNumber_whole {ds : List Char} (hds : Whole ds) (text : List Char) :
    (∀ c ∈ text.head?, c.isDigit = false) →
      readNumber negative (ds ++ text) =
        let n := (absorb 0 ds).1
        let long := (absorb 0 ds).2
        match text with
        | '.' :: cs => readFraction negative n long.length cs
        | 'e' :: cs => readExponent negative n long.length cs
        | 'E' :: cs => readExponent negative n long.length cs
        | _ =>
          if long.isEmpty then .ok (integer negative n, text)
          else (float? negative n long.length).map (·, text) := by
  intro htext
  obtain ⟨⟨hne, hdigits⟩, hzero⟩ := hds
  obtain ⟨htake, hdrop⟩ := digits_before hdigits htext
  unfold readNumber
  rw [htake, hdrop]
  dsimp only
  split
  · contradiction
  · contradiction
  · cases hzero rfl
  · rfl

theorem takes_fraction {ds exponent : List Char} (hds : Digits ds)
    (hexponent : Exponent exponent) :
    Takes (readFraction negative significand start) (ds ++ exponent) := by
  have hread {rest : List Char} (hrest : Stops rest) :=
    readFraction_digits negative significand start hds _ (hexponent.not_digit hrest)
  cases hexponent with
  | none =>
    let n := (absorb significand ds).1
    let e := start - ((ds.length - (absorb significand ds).2.length : Nat) : Int)
    refine ⟨float? negative n e, fun _ => float?_error, fun rest hrest => ?_⟩
    rw [List.append_assoc, hread hrest]
    dsimp only [List.nil_append]
    split
    · exact absurd (hrest 'e' rfl) (by decide)
    · exact absurd (hrest 'E' rfl) (by decide)
    · rfl
  | some hmark hsign hds' =>
    obtain ⟨r, hr, htaken⟩ := takes_exponent negative _ _ hsign hds'
    refine ⟨r, hr, fun rest hrest => ?_⟩
    rw [List.append_assoc, hread hrest, ← htaken rest hrest]
    rcases hmark with rfl | rfl
    · rfl
    · rfl

theorem takes_numeral {cs : List Char} (h : Numeral cs) : Takes (readNumber negative) cs := by
  obtain ⟨whole, fraction, exponent, hwhole, hfraction, hexponent, rfl⟩ := h
  have hread {rest : List Char} (hrest : Stops rest) :=
    readNumber_whole negative hwhole _ (hfraction.not_digit (hexponent.not_digit hrest))
  cases hfraction with
  | some hds =>
    obtain ⟨r, hr, htaken⟩ := takes_fraction negative _ _ hds hexponent
    refine ⟨r, hr, fun rest hrest => ?_⟩
    rw [List.append_assoc, List.append_assoc, hread hrest, ← htaken rest hrest, List.append_assoc]
    rfl
  | none =>
    cases hexponent with
    | some hmark hsign hds =>
      obtain ⟨r, hr, htaken⟩ := takes_exponent negative _ _ hsign hds
      refine ⟨r, hr, fun rest hrest => ?_⟩
      rw [List.append_assoc, List.append_assoc, hread hrest, ← htaken rest hrest]
      rcases hmark with rfl | rfl
      · rfl
      · rfl
    | none =>
      refine ⟨if (absorb 0 whole).2.isEmpty then .ok (integer negative (absorb 0 whole).1)
        else float? negative (absorb 0 whole).1 (absorb 0 whole).2.length, fun e he => ?_,
        fun rest hrest => ?_⟩
      · split_ifs at he
        exact float?_error he
      · rw [List.append_assoc, List.append_assoc, hread hrest]
        dsimp only [List.nil_append]
        split
        · exact absurd (hrest '.' rfl) (by decide)
        · exact absurd (hrest 'e' rfl) (by decide)
        · exact absurd (hrest 'E' rfl) (by decide)
        · split_ifs
          · rfl
          · rfl

end

theorem numeral_decimalDigits (n : Nat) : Numeral (decimalDigits n) := by
  refine ⟨decimalDigits n, [], [], ⟨⟨Nat.toDigits_ne_nil, fun c hc =>
    Text.Numeral.isDigit_of_mem_decimalDigits hc⟩, fun hzero => ?_⟩, .none, .none, by simp⟩
  cases hdigits : decimalDigits n with
  | nil => exact absurd hdigits Nat.toDigits_ne_nil
  | cons c cs =>
    rw [hdigits] at hzero
    cases hzero
    cases cs with
    | nil => rfl
    | cons d cs => exact absurd hdigits Text.Numeral.decimalDigits_ne_zero_cons

theorem readNumber_takes {negative : Bool} {cs rest : List Char} {x : Number} (h : Numeral cs)
    (hx : readNumber negative cs = .ok (x, [])) (hrest : Stops rest) :
    readNumber negative (cs ++ rest) = .ok (x, rest) := by
  obtain ⟨r, -, hread⟩ := takes_numeral negative h
  have halone := hread [] stops_nil
  rw [List.append_nil, hx] at halone
  cases r with
  | error e => cases halone
  | ok y =>
    cases halone
    exact hread rest hrest

theorem Numeral.leads {cs : List Char} (h : Numeral cs) :
    ∃ c tail, cs = c :: tail ∧ c.isDigit = true := by
  obtain ⟨whole, fraction, exponent, ⟨⟨hne, hdigits⟩, -⟩, -, -, rfl⟩ := h
  obtain ⟨c, tail, rfl⟩ := List.exists_cons_of_ne_nil hne
  exact ⟨c, _, rfl, hdigits c List.mem_cons_self⟩

end NetRelocation.Json
