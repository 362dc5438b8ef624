import NetRelocation.Proofs.JsonTrees

/-!
# Values that are passed over

A member that no field asks for is passed over, whatever its value is. Its text need not stand for a
value at all: an escape may be half of a character, and a number may be too large for any type.

**Theorem (`skipValue_text`).** Every text of the grammar of JSON (`AnyText`) is passed to its end,
however deep its containers are nested.

The reader holds the containers that are open in a list and closes them later, so a value is passed
when it leaves the reader where it goes on behind a value (`skipOn`), whatever is open (`Passed`).
-/

namespace NetRelocation.Json

/-! ## The grammar -/

/-- One character of a string or one escape. -/
inductive AnyChar : List Char → Prop
  | plain {c : Char} (quote : c ≠ '"') (slash : c ≠ '\\') (control : 0x20 ≤ c.toNat) : AnyChar [c]
  | short {x : Char} (letter : x ∈ ['"', '\\', '/', 'b', 'f', 'n', 'r', 't']) : AnyChar ['\\', x]
  | code {w x y z : Char} {n : Nat} (digits : hex4? w x y z = some n) :
    AnyChar ['\\', 'u', w, x, y, z]

/-- Characters and escapes between quotes. -/
inductive AnyString : List Char → Prop
  | quoted {pieces : List (List Char)} (chars : ∀ p ∈ pieces, AnyChar p) :
    AnyString ('"' :: pieces.flatten ++ ['"'])

/-- A text without containers. -/
inductive AnyScalar : List Char → Prop
  | null : AnyScalar ['n', 'u', 'l', 'l']
  | true : AnyScalar ['t', 'r', 'u', 'e']
  | false : AnyScalar ['f', 'a', 'l', 's', 'e']
  | number {cs : List Char} (negative : Bool) (shape : Numeral cs) :
    AnyScalar (minus negative ++ cs)
  | string {cs : List Char} (text : AnyString cs) : AnyScalar cs

/-- A member, given by the texts of its key and of its value. -/
def AnyMember (m : List Char × List Char) (cs : List Char) : Prop :=
  ∃ key value, Padded Eq m.1 key ∧ Padded Eq m.2 value ∧ cs = key ++ ':' :: value

/-- A text, given what the texts in its containers are. -/
inductive AnyHolder (text : List Char → Prop) : List Char → Prop
  | scalar {cs : List Char} (scalar : AnyScalar cs) : AnyHolder text cs
  | array {items : List (List Char)} {cs : List Char} (inside : Inside (Padded Eq) items cs)
    (each : ∀ item ∈ items, text item) : AnyHolder text ('[' :: cs ++ [']'])
  | object {members : List (List Char × List Char)} {cs : List Char}
    (inside : Inside AnyMember members cs) (each : ∀ m ∈ members, AnyString m.1 ∧ text m.2) :
    AnyHolder text ('{' :: cs ++ ['}'])

/-- The texts with so many levels of containers. -/
def AnyTextTo : Nat → List Char → Prop
  | 0 => AnyScalar
  | depth + 1 => AnyHolder (AnyTextTo depth)

def AnyText (cs : List Char) : Prop := ∃ depth, AnyTextTo depth cs

/-! ## Strings -/

theorem AnyChar.skip {p : List Char} (h : AnyChar p) (fuel : Nat) (rest : List Char) :
    skipString (fuel + 1) (p ++ rest) = skipString fuel rest := by
  cases h with
  | plain hquote hslash hcontrol =>
    rw [List.singleton_append, skipString.eq_def]
    dsimp only
    rw [if_neg hquote, if_neg hslash, if_neg (Nat.not_lt.2 hcontrol)]
  | @short x hletter =>
    have hall : (['"', '\\', '/', 'b', 'f', 'n', 'r', 't'].all fun x =>
        (shortEscape? x).isSome && decide (x ≠ 'u')) = true := by decide
    obtain ⟨hsome, hu⟩ := Bool.and_eq_true_iff.1 (List.all_eq_true.1 hall x hletter)
    obtain ⟨c, hc⟩ := Option.isSome_iff_exists.1 hsome
    rw [List.cons_append, List.singleton_append, skipString, if_neg (by decide), if_pos rfl, hc]
    exact fun h => absurd h (of_decide_eq_true hu)
  | code hdigits =>
    have htext (w x y z : Char) : ['\\', 'u', w, x, y, z] ++ rest =
        '\\' :: 'u' :: w :: x :: y :: z :: rest := rfl
    rw [htext, skipString, if_neg (by decide), if_pos rfl, readHex4_of hdigits]

theorem AnyChar.length_pos {p : List Char} (h : AnyChar p) : 0 < p.length := by
  cases h <;> simp

theorem skipString_flatten {pieces : List (List Char)} (h : ∀ p ∈ pieces, AnyChar p)
    (rest : List Char) {fuel : Nat} (hfuel : pieces.flatten.length < fuel) :
    skipString fuel (pieces.flatten ++ '"' :: rest) = .ok rest := by
  induction pieces generalizing fuel with
  | nil =>
    obtain ⟨fuel, rfl⟩ : ∃ f, fuel = f + 1 := ⟨fuel - 1, by simp at hfuel; omega⟩
    rw [List.flatten_nil, List.nil_append, skipString.eq_def]
    rfl
  | cons p pieces ih =>
    obtain ⟨hp, hpieces⟩ := List.forall_mem_cons.1 h
    have hpos := hp.length_pos
    rw [List.flatten_cons, List.length_append] at hfuel
    obtain ⟨fuel, rfl⟩ : ∃ f, fuel = f + 1 := ⟨fuel - 1, by omega⟩
    rw [List.flatten_cons, List.append_assoc, hp.skip]
    exact ih hpieces (by omega)

/-- A string is passed to its end, behind its opening quote. -/
theorem AnyString.skip {cs : List Char} (h : AnyString cs) (rest : List Char) :
    ∃ tail, cs ++ rest = '"' :: tail ∧ skipString (tail.length + 1) tail = .ok rest := by
  obtain @⟨pieces, hpieces⟩ := h
  refine ⟨pieces.flatten ++ '"' :: rest, by simp, skipString_flatten hpieces rest ?_⟩
  rw [List.length_append]
  omega

/-! ## Numbers -/

theorem skipExponent_unsigned {c : Char} (hc : c.isDigit = true) (cs : List Char) :
    skipExponent (c :: cs) = skipExponent ('+' :: c :: cs) := by
  unfold skipExponent
  dsimp only
  split
  · rename_i heq
    rw [(List.cons.inj heq).1] at hc
    exact absurd hc (by decide)
  · rename_i heq
    rw [(List.cons.inj heq).1] at hc
    exact absurd hc (by decide)
  · rfl

theorem skipExponent_of {sign ds rest : List Char}
    (hsign : sign = [] ∨ sign = ['+'] ∨ sign = ['-']) (hds : Digits ds)
    (hrest : ∀ c ∈ rest.head?, c.isDigit = false) :
    skipExponent (sign ++ (ds ++ rest)) = .ok rest := by
  obtain ⟨hne, hdigits⟩ := hds
  obtain ⟨htake, hdrop⟩ := digits_before hdigits hrest
  have hsigned (c : Char) (hc : c = '+' ∨ c = '-') :
      skipExponent (c :: (ds ++ rest)) = .ok rest := by
    have hskip : skipExponent (c :: (ds ++ rest)) =
        if ((ds ++ rest).takeWhile Char.isDigit).isEmpty then .error (.malformed .invalidNumber)
        else .ok ((ds ++ rest).dropWhile Char.isDigit) := by
      rcases hc with rfl | rfl
      · rfl
      · rfl
    rw [hskip, htake, hdrop, if_neg (by simpa using hne)]
  rcases hsign with rfl | rfl | rfl
  · obtain ⟨d, tail, rfl⟩ := List.exists_cons_of_ne_nil hne
    rw [List.nil_append, List.cons_append, skipExponent_unsigned (hdigits d List.mem_cons_self)]
    exact hsigned '+' (.inl rfl)
  · exact hsigned '+' (.inl rfl)
  · exact hsigned '-' (.inr rfl)

/-- What is passed of a number behind its digits, before the exponent or the end. -/
theorem skipExponent_text {exponent rest : List Char} (h : Exponent exponent) (hrest : Stops rest) :
    (match exponent ++ rest with
      | 'e' :: cs => skipExponent cs
      | 'E' :: cs => skipExponent cs
      | _ => .ok (exponent ++ rest)) = .ok rest := by
  cases h with
  | none =>
    rw [List.nil_append]
    split
    · exact absurd (hrest 'e' rfl) (by decide)
    · exact absurd (hrest 'E' rfl) (by decide)
    · rfl
  | some hmark hsign hds =>
    have hskip := skipExponent_of hsign hds hrest.not_digit
    rw [List.cons_append, List.append_assoc]
    rcases hmark with rfl | rfl
    · exact hskip
    · exact hskip

theorem skipNumber_numeral {cs rest : List Char} (h : Numeral cs) (hrest : Stops rest) :
    skipNumber (cs ++ rest) = .ok rest := by
  obtain ⟨whole, fraction, exponent, ⟨⟨hne, hdigits⟩, hzero⟩, hfraction, hexponent, rfl⟩ := h
  obtain ⟨htake, hdrop⟩ := digits_before hdigits
    (hfraction.not_digit (hexponent.not_digit hrest))
  have hend := skipExponent_text hexponent hrest
  rw [List.append_assoc, List.append_assoc]
  unfold skipNumber
  rw [htake, hdrop]
  dsimp only
  split
  · contradiction
  · cases hzero rfl
  · cases hfraction with
    | some hds =>
      obtain ⟨htake, hdrop⟩ := digits_before hds.2 (hexponent.not_digit hrest)
      simp only [List.cons_append, htake, hdrop, List.isEmpty_eq_false_iff.2 hds.1]
      exact hend
    | none =>
      cases hexponent with
      | none =>
        rw [List.nil_append, List.nil_append]
        split
        · exact absurd (hrest '.' rfl) (by decide)
        · exact absurd (hrest 'e' rfl) (by decide)
        · exact absurd (hrest 'E' rfl) (by decide)
        · rfl
      | some hmark hsign hds =>
        rcases hmark with rfl | rfl
        · exact hend
        · exact hend

/-! ## Scalars and keys -/

theorem skipScalar_blank {pad : List Char} (hpad : Blank pad) (cs : List Char) :
    skipScalar (pad ++ cs) = skipScalar cs := by
  unfold skipScalar
  rw [skipSpace_append hpad]

theorem skipScalar_digit {c : Char} (h : c.isDigit = true) (cs : List Char) :
    skipScalar (c :: cs) = (skipNumber (c :: cs)).map (none, ·) := by
  have hne (d : Char) (ds : List Char) (hd : d.isDigit = false) : c :: cs ≠ d :: ds := by
    rintro heq
    obtain ⟨rfl, -⟩ := List.cons.inj heq
    exact Bool.noConfusion (hd.symm.trans h)
  rw [skipScalar, skipSpace_cons (Leads.not_space (.inr h))]
  split
  · contradiction
  iterate 7
    · rename_i heq
      exact absurd heq (hne _ _ rfl)
  · rename_i heq
    obtain ⟨rfl, rfl⟩ := List.cons.inj heq
    exact if_pos h

theorem AnyScalar.skip {cs rest : List Char} (h : AnyScalar cs) (hrest : Stops rest) :
    skipScalar (cs ++ rest) = .ok (none, rest) := by
  cases h with
  | null => rfl
  | true => rfl
  | false => rfl
  | @number cs negative hshape =>
    have hskip := skipNumber_numeral hshape hrest
    rw [List.append_assoc]
    cases negative with
    | true => exact congrArg (Except.map (none, ·)) hskip
    | false =>
      obtain ⟨c, tail, rfl, hc⟩ := hshape.leads
      exact (skipScalar_digit hc (tail ++ rest)).trans (congrArg (Except.map (none, ·)) hskip)
  | string htext =>
    obtain ⟨tail, htail, hskip⟩ := htext.skip rest
    rw [htail]
    exact congrArg (Except.map (none, ·)) hskip

theorem AnyScalar.leads {cs : List Char} (h : AnyScalar cs) :
    ∃ c tail, cs = c :: tail ∧ Leads c := by
  cases h with
  | null => exact ⟨'n', _, rfl, by decide⟩
  | true => exact ⟨'t', _, rfl, by decide⟩
  | false => exact ⟨'f', _, rfl, by decide⟩
  | number negative hshape => exact minus_leads negative hshape
  | string htext =>
    cases htext
    exact ⟨'"', _, rfl, by decide⟩

theorem skipKey_padded {key : List Char} (hkey : AnyString key) {before after : List Char}
    (hbefore : Blank before) (hafter : Blank after) (cs : List Char) :
    skipKey (before ++ (key ++ (after ++ ':' :: cs))) = .ok cs := by
  obtain ⟨tail, htail, hskip⟩ := hkey.skip (after ++ ':' :: cs)
  have hspace : skipSpace (before ++ '"' :: tail) = '"' :: tail := skipSpace_append hbefore _
  rw [htail, skipKey, hspace]
  simp only [hskip]
  exact readColon_blank hafter cs

/-! ## Closing containers -/

/-- The character that closes a container. -/
def Frame.close : Frame → Char
  | .list => ']'
  | .object => '}'

theorem stops_close (frame : Frame) (rest : List Char) : Stops (frame.close :: rest) := by
  cases frame with
  | list => exact stops_bracket rest
  | object => exact stops_brace rest

theorem skipClosers_blank {pad : List Char} (hpad : Blank pad) (fuel : Nat) (comma : Bool)
    (frame : Frame) (frames : List Frame) (cs : List Char) :
    skipClosers fuel comma (frame :: frames) (pad ++ cs) =
      skipClosers fuel comma (frame :: frames) cs := by
  cases fuel with
  | zero => rfl
  | succ fuel => simp only [skipClosers, skipSpace_append hpad]

theorem skipClosers_close (fuel : Nat) (comma : Bool) (frame : Frame) (frames : List Frame)
    (rest : List Char) :
    skipClosers (fuel + 1) comma (frame :: frames) (frame.close :: rest) =
      skipClosers fuel true frames rest := by
  cases frame with
  | list => rfl
  | object => rfl

theorem skipClosers_comma (fuel : Nat) (frame : Frame) (frames : List Frame) (rest : List Char) :
    skipClosers (fuel + 1) true (frame :: frames) (',' :: rest) = .ok (frame :: frames, rest) := by
  cases frame with
  | list => rfl
  | object => rfl

theorem skipClosers_first {c : Char} (h : Leads c) (fuel : Nat) (frame : Frame)
    (frames : List Frame) (cs : List Char) :
    skipClosers (fuel + 1) false (frame :: frames) (c :: cs) = .ok (frame :: frames, c :: cs) := by
  have hbracket : c ≠ ']' := h.ne (by decide)
  have hbrace : c ≠ '}' := h.ne (by decide)
  rw [skipClosers.eq_def]
  simp only [skipSpace_cons h.not_space]
  split
  · contradiction
  · contradiction
  · rename_i heq
    exact absurd (List.cons.inj heq).1 hbracket
  · rename_i heq
    exact absurd (List.cons.inj heq).1 hbrace
  · rename_i heq _ _
    rw [if_neg Bool.false_ne_true, heq]

/-- Before an entry the container stays open. -/
theorem skipClosers_opens {first : Bool} {lead pad : List Char} {c : Char} (h : Opens first lead)
    (hpad : Blank pad) (hc : Leads c) (fuel : Nat) (frame : Frame) (frames : List Frame)
    (cs : List Char) : ∃ gap, Blank gap ∧
      skipClosers (fuel + 1) (!first) (frame :: frames) (lead ++ (pad ++ c :: cs)) =
        .ok (frame :: frames, gap ++ c :: cs) := by
  cases h with
  | first =>
    refine ⟨[], blank_nil, ?_⟩
    rw [List.nil_append, skipClosers_blank hpad]
    exact skipClosers_first hc fuel frame frames cs
  | other hbefore =>
    refine ⟨pad, hpad, ?_⟩
    rw [List.append_assoc, skipClosers_blank hbefore]
    exact skipClosers_comma fuel frame frames _

/-- One step per open container is enough. -/
theorem skipClosers_fuel {fuel : Nat} {frames : List Frame} (h : frames.length < fuel)
    (comma : Bool) (cs : List Char) :
    skipClosers fuel comma frames cs = skipClosers (frames.length + 1) comma frames cs := by
  induction frames generalizing fuel comma cs with
  | nil =>
    obtain ⟨fuel, rfl⟩ : ∃ f, fuel = f + 1 := ⟨fuel - 1, by omega⟩
    rfl
  | cons frame frames ih =>
    obtain ⟨fuel, rfl⟩ : ∃ f, fuel = f + 1 := ⟨fuel - 1, by omega⟩
    have hmore := ih (Nat.lt_of_succ_lt_succ h)
    simp only [skipClosers, List.length_cons, hmore]

/-! ## Going on -/

/-- What happens behind a value or behind an opening bracket: containers are closed, and the next
entry is passed if one is still open. -/
def skipOn (fuel : Nat) (comma : Bool) (frames : List Frame) (cs : List Char) :
    Except Fault (List Char) :=
  match skipClosers (frames.length + 1) comma frames cs with
  | .error e => .error e
  | .ok ([], cs) => .ok cs
  | .ok (.list :: frames, cs) => skipFrom fuel (.list :: frames) cs
  | .ok (.object :: frames, cs) =>
    match skipKey cs with
    | .error e => .error e
    | .ok cs => skipFrom fuel (.object :: frames) cs

theorem skipFrom_scalar {opened : Option Frame} {cs rest : List Char}
    (h : skipScalar cs = .ok (opened, rest)) (fuel : Nat) (frames : List Frame) :
    skipFrom (fuel + 1) frames cs =
      skipOn fuel opened.isNone (opened.toList ++ frames) rest := by
  have hfuel (n : Nat) : n < rest.length + n + 1 := by omega
  rw [skipFrom, h]
  dsimp only
  rw [skipClosers_fuel (hfuel _)]
  rfl

theorem skipOn_nil (fuel : Nat) (rest : List Char) : skipOn fuel true [] rest = .ok rest := rfl

theorem skipOn_blank {pad : List Char} (hpad : Blank pad) (fuel : Nat) (comma : Bool)
    (frame : Frame) (frames : List Frame) (cs : List Char) :
    skipOn fuel comma (frame :: frames) (pad ++ cs) = skipOn fuel comma (frame :: frames) cs := by
  unfold skipOn
  rw [skipClosers_blank hpad]

theorem skipOn_close (fuel : Nat) (comma : Bool) (frame : Frame) (frames : List Frame)
    (rest : List Char) :
    skipOn fuel comma (frame :: frames) (frame.close :: rest) = skipOn fuel true frames rest := by
  unfold skipOn
  rw [List.length_cons, skipClosers_close]

/-- A text is passed if it leaves the reader where it goes on behind a value. -/
def Passed (cs : List Char) : Prop :=
  ∃ steps ≤ cs.length, ∀ ⦃pad⦄, Blank pad → ∀ fuel frames ⦃rest⦄, Stops rest →
    skipFrom (fuel + steps) frames (pad ++ (cs ++ rest)) = skipOn fuel true frames rest

/-- An entry of a container is passed if it leaves the container open. -/
def PassedEntry (frame : Frame) (cs : List Char) : Prop :=
  ∃ steps ≤ cs.length, ∀ ⦃first lead⦄, Opens first lead → ∀ fuel frames ⦃rest⦄, Stops rest →
    skipOn (fuel + steps) (!first) (frame :: frames) (lead ++ (cs ++ rest)) =
      skipOn fuel true (frame :: frames) rest

theorem AnyScalar.passed {cs : List Char} (h : AnyScalar cs) : Passed cs := by
  obtain ⟨c, tail, hcs, -⟩ := h.leads
  refine ⟨1, by simp [hcs], fun pad hpad fuel frames rest hrest => ?_⟩
  exact skipFrom_scalar ((skipScalar_blank hpad _).trans (h.skip hrest)) fuel frames

theorem passedEntry_item {item cs : List Char} (hitem : Passed item)
    (hled : ∃ c tail, item = c :: tail ∧ Leads c) (h : Padded Eq item cs) :
    PassedEntry .list cs := by
  obtain ⟨before, _, after, hbefore, rfl, hafter, rfl⟩ := h
  obtain ⟨steps, hsteps, hpass⟩ := hitem
  obtain ⟨c, tail, rfl, hc⟩ := hled
  refine ⟨steps, by simp only [List.length_append]; omega,
    fun first lead hlead fuel frames rest hrest => ?_⟩
  -- before the first entry the blanks are gone, behind a comma they are still there
  obtain ⟨gap, hgap, hopen⟩ := skipClosers_opens hlead hbefore hc (frames.length + 1) .list frames
    (tail ++ (after ++ rest))
  have hfrom := hpass hgap fuel (.list :: frames) (hrest.blank_append hafter)
  rw [skipOn_blank hafter] at hfrom
  rw [← hfrom, skipOn]
  simp only [List.append_assoc, List.cons_append, List.length_cons, hopen]

theorem passedEntry_member {m : List Char × List Char} {cs : List Char} (hkey : AnyString m.1)
    (hvalue : Passed m.2) (h : AnyMember m cs) : PassedEntry .object cs := by
  obtain ⟨_, _, ⟨before, _, gap, hbefore, rfl, hgap, rfl⟩,
    ⟨pad, _, after, hpad, rfl, hafter, rfl⟩, rfl⟩ := h
  obtain ⟨steps, hsteps, hpass⟩ := hvalue
  obtain ⟨tail, htail, -⟩ := hkey.skip (gap ++ ':' :: (pad ++ (m.2 ++ after)))
  refine ⟨steps, by simp only [List.length_append, List.length_cons]; omega,
    fun first lead hlead fuel frames rest hrest => ?_⟩
  obtain ⟨lead', hlead', hopen⟩ := skipClosers_opens hlead hbefore (by decide : Leads '"')
    (frames.length + 1) .object frames (tail ++ rest)
  have hskip := skipKey_padded hkey hlead' hgap (pad ++ (m.2 ++ (after ++ rest)))
  have hfrom := hpass hpad fuel (.object :: frames) (hrest.blank_append hafter)
  rw [skipOn_blank hafter] at hfrom
  have hbehind : '"' :: (tail ++ rest) =
      m.1 ++ (gap ++ ':' :: (pad ++ (m.2 ++ (after ++ rest)))) := by
    rw [← List.cons_append, ← htail]
    simp
  rw [hbehind] at hopen
  rw [← hfrom, skipOn]
  simp only [List.append_assoc, List.cons_append, List.length_cons, hopen, hskip]

/-- Entries that are each passed are passed together, with what closes their container. -/
theorem passed_listed {α : Type} {text : α → List Char → Prop} {frame : Frame} {as : List α}
    {cs : List Char} (h : Listed text as cs)
    (hentry : ∀ a ∈ as, ∀ ⦃cs⦄, text a cs → PassedEntry frame cs) :
    ∃ steps ≤ cs.length, ∀ ⦃first lead⦄, Opens first lead → ∀ fuel frames rest,
      skipOn (fuel + steps) (!first) (frame :: frames) (lead ++ (cs ++ frame.close :: rest)) =
        skipOn fuel true frames rest := by
  -- the steps of the entries add up, and each entry costs no more than its length
  induction h with
  | last hfirst =>
    obtain ⟨steps, hsteps, hpass⟩ := hentry _ List.mem_cons_self hfirst
    refine ⟨steps, hsteps, fun first lead hlead fuel frames rest => ?_⟩
    rw [hpass hlead fuel frames (stops_close frame rest), skipOn_close]
  | @more a as cs more hfirst hothers ih =>
    obtain ⟨ha, has⟩ := List.forall_mem_cons.1 hentry
    obtain ⟨steps, hsteps, hpass⟩ := ha hfirst
    obtain ⟨steps', hsteps', hpass'⟩ := ih has
    refine ⟨steps' + steps, by simp only [List.length_append, List.length_cons]; omega,
      fun first lead hlead fuel frames rest => ?_⟩
    have hbehind := hpass hlead (fuel + steps') frames (stops_comma (more ++ frame.close :: rest))
    rw [List.append_assoc, List.cons_append, ← Nat.add_assoc, hbehind]
    exact hpass' (.other blank_nil) fuel frames rest

/-- A container is passed if its entries are. -/
theorem passed_container {α : Type} {text : α → List Char → Prop} (frame : Frame) {as : List α}
    {c : Char} {cs : List Char} (hopened : ∀ cs, skipScalar (c :: cs) = .ok (some frame, cs))
    (h : Inside text as cs) (hentry : ∀ a ∈ as, ∀ ⦃cs⦄, text a cs → PassedEntry frame cs) :
    Passed (c :: cs ++ [frame.close]) := by
  have hopen {pad : List Char} (hpad : Blank pad) (fuel : Nat) (frames : List Frame)
      (rest : List Char) : skipFrom (fuel + 1) frames (pad ++ (c :: cs ++ [frame.close] ++ rest)) =
        skipOn fuel false (frame :: frames) (cs ++ frame.close :: rest) := by
    have htext : c :: cs ++ [frame.close] ++ rest = c :: (cs ++ frame.close :: rest) := by simp
    rw [htext]
    exact skipFrom_scalar ((skipScalar_blank hpad _).trans (hopened _)) fuel frames
  cases h with
  | none hblank =>
    refine ⟨1, by simp, fun pad hpad fuel frames rest _ => ?_⟩
    rw [hopen hpad, skipOn_blank hblank, skipOn_close]
  | some hlisted =>
    obtain ⟨steps, hsteps, hpass⟩ := passed_listed hlisted hentry
    refine ⟨steps + 1, by simp; omega, fun pad hpad fuel frames rest _ => ?_⟩
    rw [← Nat.add_assoc, hopen hpad]
    exact hpass .first fuel frames rest

/-! ## Texts -/

theorem AnyTextTo.leads {depth : Nat} {cs : List Char} (h : AnyTextTo depth cs) :
    ∃ c tail, cs = c :: tail ∧ Leads c := by
  cases depth with
  | zero => exact AnyScalar.leads h
  | succ depth =>
    cases h with
    | scalar h => exact h.leads
    | array _ _ => exact ⟨'[', _, rfl, by decide⟩
    | object _ _ => exact ⟨'{', _, rfl, by decide⟩

theorem AnyTextTo.passed {depth : Nat} {cs : List Char} (h : AnyTextTo depth cs) : Passed cs := by
  induction depth generalizing cs with
  | zero => exact AnyScalar.passed h
  | succ depth ih =>
    cases h with
    | scalar h => exact h.passed
    | array hinside heach =>
      exact passed_container .list (fun _ => rfl) hinside fun item hitem _ hcs =>
        passedEntry_item (ih (heach item hitem)) (heach item hitem).leads hcs
    | object hinside heach =>
      exact passed_container .object (fun _ => rfl) hinside fun m hm _ hcs =>
        passedEntry_member (heach m hm).1 (ih (heach m hm).2) hcs

/-- Every text of the grammar is passed to its end. -/
theorem skipValue_text {cs pad rest : List Char} (h : AnyText cs) (hpad : Blank pad)
    (hrest : Stops rest) : skipValue (pad ++ (cs ++ rest)) = .ok rest := by
  obtain ⟨depth, h⟩ := h
  obtain ⟨steps, hsteps, hpass⟩ := h.passed
  have hfuel : (pad ++ (cs ++ rest)).length + 1 =
      (pad ++ (cs ++ rest)).length + 1 - steps + steps := by
    simp only [List.length_append]
    omega
  rw [skipValue, hfuel, hpass hpad _ [] hrest, skipOn_nil]

end NetRelocation.Json
