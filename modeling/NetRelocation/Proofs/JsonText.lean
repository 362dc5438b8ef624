import NetRelocation.Proofs.JsonStrings
import NetRelocation.Proofs.Numerals

/-!
# Text that was written

What `Value.chars` writes is read back, also from the middle of a longer text, as long as behind the
value the text ends, has a comma or closes a container (`Ends`): a number would go on otherwise.

**Strings** (`readString_escaped`). A string between quotes is read as itself, whatever characters
it has, since what is written of a character is one of its forms (`charText_escapeChar`).

**Numbers** (`readNumber_natAbs`). An integer that fits into sixty-four bits, with a sign or
without, is read as itself.

**Containers** (`readArray_itemChars`, `readMembers_memberChars`). The two loops over the entries of
a container do not know what an entry is. `ItemsTo` and `MembersTo` say of a loop's step that it
takes the entries one after another; the loop then reads the container.

**Trees** (`Value.Plain`). Of a tree it is kept that it is read back and how many levels it needs;
that it starts as a value does, so that it is not taken for a blank or for the end of a container;
and that only null starts with an n, because an optional value is told from null by that.
-/

namespace NetRelocation.Json

open Text.Numeral (decimalDigits)
open Value (escapeChar stringChars integerChars itemChars memberChars)

/-! ## What stands around a value -/

theorem skipSpace_cons {c : Char} {cs : List Char} (h : isSpace c = false) :
    skipSpace (c :: cs) = c :: cs := by
  simp [skipSpace, h]

/-- What may stand behind a value: the end, a comma, or the end of a container. -/
def Ends (rest : List Char) : Prop := ∀ c ∈ rest.head?, c = ',' ∨ c = ']' ∨ c = '}'

theorem ends_nil : Ends [] := by simp [Ends]

theorem ends_comma (rest : List Char) : Ends (',' :: rest) := by simp [Ends]

theorem ends_bracket (rest : List Char) : Ends (']' :: rest) := by simp [Ends]

theorem ends_brace (rest : List Char) : Ends ('}' :: rest) := by simp [Ends]

theorem readColon_cons (cs : List Char) : readColon (':' :: cs) = .ok cs := rfl

/-! ## Strings -/

theorem readString_escaped (s : String) (rest : List Char) :
    readString (s.toList.flatMap escapeChar ++ '"' :: rest) = .ok (s, rest) :=
  (charsText_flatMap s.toList).readString rest

theorem stringChars_append (s : String) (rest : List Char) :
    stringChars s ++ rest = '"' :: (s.toList.flatMap escapeChar ++ '"' :: rest) := by
  simp [stringChars]

/-! ## Numbers -/

/-- Digits within sixty-four bits are taken in whole. -/
theorem absorb_of_fold {acc n : Nat} {cs : List Char}
    (h : Text.Numeral.fold 10 Text.Numeral.digit? acc cs = some n) (hn : n < UInt64.size) :
    absorb acc cs = (n, []) := by
  induction cs generalizing acc with
  | nil =>
    cases h
    rfl
  | cons c cs ih =>
    rw [Text.Numeral.fold] at h
    cases hc : Text.Numeral.digit? c with
    | none => simp [hc] at h
    | some d =>
      rw [hc] at h
      have hd : c.toNat - 48 = d := by
        unfold Text.Numeral.digit? at hc
        split at hc
        · exact Option.some.inj hc
        · cases hc
      have hnext : acc * 10 + d ≤ n := Text.Numeral.le_of_fold (by decide) h
      rw [absorb, hd, if_pos (Nat.lt_of_le_of_lt hnext hn)]
      exact ih h

theorem digits_before {ds rest : List Char} (h : ∀ c ∈ ds, c.isDigit = true)
    (hrest : ∀ c ∈ rest.head?, c.isDigit = false) :
    (ds ++ rest).takeWhile Char.isDigit = ds ∧ (ds ++ rest).dropWhile Char.isDigit = rest := by
  have hstop : rest.takeWhile Char.isDigit = [] ∧ rest.dropWhile Char.isDigit = rest := by
    cases rest with
    | nil => exact ⟨rfl, rfl⟩
    | cons c rest => simp [hrest c rfl]
  rw [List.takeWhile_append_of_pos h, List.dropWhile_append_of_pos h, hstop.1, hstop.2,
    List.append_nil]
  exact ⟨rfl, rfl⟩

theorem digits_append (n : Nat) {rest : List Char} (h : Ends rest) :
    (decimalDigits n ++ rest).takeWhile Char.isDigit = decimalDigits n ∧
      (decimalDigits n ++ rest).dropWhile Char.isDigit = rest := by
  refine digits_before (fun c hc => Text.Numeral.isDigit_of_mem_decimalDigits hc) fun c hc => ?_
  obtain rfl | rfl | rfl := h c hc
  · rfl
  · rfl
  · rfl

/-- The digits of a number of sixty-four bits are read back, up to the sign. -/
theorem readNumber_decimalDigits (negative : Bool) {n : Nat} (hn : n < UInt64.size)
    {rest : List Char} (h : Ends rest) :
    readNumber negative (decimalDigits n ++ rest) = .ok (integer negative n, rest) := by
  obtain ⟨htake, hdrop⟩ := digits_append n h
  have habsorb : absorb 0 (decimalDigits n) = (n, []) :=
    absorb_of_fold (Text.Numeral.fold_toDigits (by decide) Text.Numeral.knows_decimal n) hn
  unfold readNumber
  rw [htake, hdrop]
  dsimp only
  rw [habsorb]
  split
  · exact absurd (by assumption : decimalDigits n = []) Nat.toDigits_ne_nil
  · exact absurd (by assumption : decimalDigits n = []) Nat.toDigits_ne_nil
  · rename_i hdigits
    exact absurd hdigits Text.Numeral.decimalDigits_ne_zero_cons
  · dsimp only
    split
    · exact absurd (h '.' rfl) (by decide)
    · exact absurd (h 'e' rfl) (by decide)
    · exact absurd (h 'E' rfl) (by decide)
    · rfl

theorem decimalDigits_eq_cons (n : Nat) :
    ∃ c cs, decimalDigits n = c :: cs ∧ c.isDigit = true := by
  cases hdigits : decimalDigits n with
  | nil => exact absurd hdigits Nat.toDigits_ne_nil
  | cons c cs =>
    refine ⟨c, cs, rfl, Text.Numeral.isDigit_of_mem_decimalDigits (n := n) ?_⟩
    rw [hdigits]
    exact List.mem_cons_self

/-- The integers that a text can hold. -/
def InRange (n : Int) : Prop := Int64.minValue.toInt ≤ n ∧ n < UInt64.size

theorem inRange_iff {n : Int} :
    InRange n ↔ -9223372036854775808 ≤ n ∧ n < 18446744073709551616 := Iff.rfl

/-- An integer is read back, its sign first. -/
theorem readNumber_natAbs {n : Int} (hn : InRange n) {rest : List Char} (h : Ends rest) :
    readNumber (decide (n < 0)) (decimalDigits n.natAbs ++ rest) = .ok (.integer n, rest) := by
  obtain ⟨hlow, hhigh⟩ := inRange_iff.1 hn
  have hsize : n.natAbs < UInt64.size := by
    simp only [UInt64.size]
    omega
  rw [readNumber_decimalDigits _ hsize h, integer]
  -- a number with a sign is an integer if it is not below the least one of sixty-four bits
  by_cases hneg : n < 0
  · have hsmall : ¬(n.natAbs = 0 ∨ Nat.pow 2 63 < n.natAbs) := by
      simp only [Nat.pow_eq]
      omega
    rw [if_pos (by simpa using hneg), if_neg hsmall]
    congr 3
    omega
  · rw [if_neg (by simpa using hneg)]
    congr 3
    omega

/-! ## Entries -/

/-- The first character of a value. -/
def Leads (c : Char) : Prop :=
  c ∈ ['n', 't', 'f', '-', '"', '[', '{'] ∨ c.isDigit = true

instance (c : Char) : Decidable (Leads c) := inferInstanceAs (Decidable (_ ∨ _))

theorem Leads.ne {c d : Char} (h : Leads c) (hd : ¬ Leads d) : c ≠ d := by
  rintro rfl
  exact hd h

theorem Leads.not_space {c : Char} (h : Leads c) : isSpace c = false := by
  have hspace : c ≠ ' ' := h.ne (by decide)
  have hline : c ≠ '\n' := h.ne (by decide)
  have htab : c ≠ '\t' := h.ne (by decide)
  have hreturn : c ≠ '\r' := h.ne (by decide)
  simp [isSpace, hspace, hline, htab, hreturn]

theorem nextItem_first {c : Char} (h : Leads c) (cs : List Char) :
    nextItem true (c :: cs) = .ok (some (c :: cs)) := by
  have hend : c ≠ ']' := h.ne (by decide)
  rw [nextItem, skipSpace_cons h.not_space]
  split
  · contradiction
  · rename_i heq
    exact absurd (List.cons.inj heq).1 hend
  · rename_i heq
    rw [if_pos rfl, heq]

theorem nextItem_comma {c : Char} (h : Leads c) {text cs : List Char}
    (htext : skipSpace text = c :: cs) :
    nextItem false (',' :: text) = .ok (some (c :: cs)) := by
  have hend : c ≠ ']' := h.ne (by decide)
  rw [nextItem, skipSpace_cons (by decide)]
  split
  · contradiction
  · rename_i heq
    exact absurd (List.cons.inj heq).1 (by decide)
  · rename_i heq
    obtain ⟨rfl, rfl⟩ := List.cons.inj heq
    rw [if_neg (by decide), if_pos rfl, htext]
    split
    · contradiction
    · rename_i heq
      exact absurd (List.cons.inj heq).1 hend
    · rfl

/-- A value starts with a character of its own. -/
def Value.Starts (v : Value) : Prop := ∃ c cs, v.chars = c :: cs ∧ Leads c

section

variable {σ : Type} {item : σ → List Char → Step σ} {member : σ → String → List Char → Step σ}

/-- What a step for the elements of an array makes of values one after another. -/
inductive ItemsTo (item : σ → List Char → Step σ) : σ → List Value → σ → Prop
  | nil (s : σ) : ItemsTo item s [] s
  | cons {s u w : σ} {v : Value} {vs : List Value} (starts : v.Starts)
    (first : ∀ rest, Ends rest → item s (v.chars ++ rest) = .ok (u, rest))
    (more : ItemsTo item u vs w) : ItemsTo item s (v :: vs) w

/-- What a step for the members of an object makes of members one after another. -/
inductive MembersTo (member : σ → String → List Char → Step σ) :
    σ → List (String × Value) → σ → Prop
  | nil (s : σ) : MembersTo member s [] s
  | cons {s u w : σ} {key : String} {v : Value} {ms : List (String × Value)}
    (first : ∀ rest, Ends rest → member s key (':' :: (v.chars ++ rest)) = .ok (u, rest))
    (more : MembersTo member u ms w) : MembersTo member s ((key, v) :: ms) w

/-- Elements behind the first, with a comma before each. -/
def moreItems (vs : List Value) : List Char := vs.flatMap fun v => ',' :: v.chars

theorem itemChars_cons (v : Value) (vs : List Value) :
    itemChars (v :: vs) = v.chars ++ moreItems vs := by
  induction vs generalizing v with
  | nil => simp [itemChars, moreItems]
  | cons w vs ih =>
    rw [itemChars, ih]
    · rfl
    · simp

/-- Members behind the first, with a comma before each. -/
def moreMembers (ms : List (String × Value)) : List Char :=
  ms.flatMap fun m => ',' :: (stringChars m.1 ++ ':' :: m.2.chars)

theorem memberChars_cons (m : String × Value) (ms : List (String × Value)) :
    memberChars (m :: ms) = stringChars m.1 ++ ':' :: m.2.chars ++ moreMembers ms := by
  induction ms generalizing m with
  | nil => simp [memberChars, moreMembers]
  | cons m' ms ih =>
    rw [memberChars, ih]
    · simp [moreMembers]
    · simp

theorem ends_moreItems (vs : List Value) (rest : List Char) :
    Ends (moreItems vs ++ ']' :: rest) := by
  cases vs with
  | nil => exact ends_bracket rest
  | cons v vs => exact ends_comma _

theorem ends_moreMembers (ms : List (String × Value)) (rest : List Char) :
    Ends (moreMembers ms ++ '}' :: rest) := by
  cases ms with
  | nil => exact ends_brace rest
  | cons m ms => exact ends_comma _

theorem length_le_moreItems (vs : List Value) : vs.length ≤ (moreItems vs).length := by
  induction vs with
  | nil => simp
  | cons v vs ih =>
    simp only [moreItems, List.flatMap_cons, List.length_append, List.length_cons] at ih ⊢
    omega

theorem length_le_moreMembers (ms : List (String × Value)) :
    ms.length ≤ (moreMembers ms).length := by
  induction ms with
  | nil => simp
  | cons m ms ih =>
    simp only [moreMembers, List.flatMap_cons, List.length_append, List.length_cons] at ih ⊢
    omega

theorem readItems_more {s s' : σ} {vs : List Value} (h : ItemsTo item s vs s') (rest : List Char)
    {fuel : Nat} (hfuel : vs.length < fuel) :
    readItems item fuel false s (moreItems vs ++ ']' :: rest) = .ok (s', ']' :: rest) := by
  induction h generalizing fuel with
  | nil s =>
    cases fuel with
    | zero => simp at hfuel
    | succ fuel => rfl
  | @cons s s' s'' v vs starts first more ih =>
    cases fuel with
    | zero => simp at hfuel
    | succ fuel =>
      obtain ⟨c, cs, hc, hleads⟩ := starts
      have hnext : nextItem false (moreItems (v :: vs) ++ ']' :: rest) =
          .ok (some (v.chars ++ (moreItems vs ++ ']' :: rest))) := by
        rw [moreItems, List.flatMap_cons, ← moreItems, hc]
        simpa using nextItem_comma hleads (skipSpace_cons hleads.not_space)
      rw [readItems, hnext]
      dsimp only
      rw [first _ (ends_moreItems vs rest)]
      exact ih (Nat.lt_of_succ_lt_succ hfuel)

theorem readArray_itemChars {s s' : σ} {vs : List Value} (h : ItemsTo item s vs s')
    (rest : List Char) : readArray item s (itemChars vs ++ ']' :: rest) = .ok (s', rest) := by
  have hread : readItems item ((itemChars vs ++ ']' :: rest).length + 1) true s
      (itemChars vs ++ ']' :: rest) = .ok (s', ']' :: rest) := by
    cases h with
    | nil => rfl
    | @cons _ s₁ _ v vs starts first more =>
      obtain ⟨c, cs, hc, hleads⟩ := starts
      have hnext : nextItem true (v.chars ++ (moreItems vs ++ ']' :: rest)) =
          .ok (some (v.chars ++ (moreItems vs ++ ']' :: rest))) := by
        rw [hc]
        exact nextItem_first hleads _
      have hfuel : vs.length < (v.chars ++ (moreItems vs ++ ']' :: rest)).length := by
        have hmore := length_le_moreItems vs
        simp only [List.length_append, List.length_cons]
        omega
      rw [itemChars_cons, List.append_assoc, readItems, hnext]
      dsimp only
      rw [first _ (ends_moreItems vs rest)]
      exact readItems_more more rest hfuel
  rw [readArray, hread]
  rfl

theorem readMembers_more {s s' : σ} {ms : List (String × Value)} (h : MembersTo member s ms s')
    (rest : List Char) {fuel : Nat} (hfuel : ms.length < fuel) :
    readMembers member fuel false s (moreMembers ms ++ '}' :: rest) = .ok (s', '}' :: rest) := by
  induction h generalizing fuel with
  | nil s =>
    cases fuel with
    | zero => simp at hfuel
    | succ fuel => rfl
  | @cons s s' s'' key v ms first more ih =>
    cases fuel with
    | zero => simp at hfuel
    | succ fuel =>
      have htext : moreMembers ((key, v) :: ms) ++ '}' :: rest = ',' :: '"' ::
          (key.toList.flatMap escapeChar ++ '"' ::
            (':' :: (v.chars ++ (moreMembers ms ++ '}' :: rest)))) := by
        simp [moreMembers, stringChars]
      have hnext (cs : List Char) : nextKey false (',' :: '"' :: cs) = .ok (some cs) := rfl
      rw [readMembers, htext, hnext]
      dsimp only
      rw [readString_escaped]
      dsimp only
      rw [first _ (ends_moreMembers ms rest)]
      exact ih (Nat.lt_of_succ_lt_succ hfuel)

/-- The members of an object are read one by one, up to the closing brace. -/
theorem readMembers_memberChars {s s' : σ} {ms : List (String × Value)}
    (h : MembersTo member s ms s') (rest : List Char) :
    readMembers member ((memberChars ms ++ '}' :: rest).length + 1) true s
      (memberChars ms ++ '}' :: rest) = .ok (s', '}' :: rest) := by
  cases h with
  | nil => rfl
  | @cons _ s₁ _ key v ms first more =>
    have htext : memberChars ((key, v) :: ms) ++ '}' :: rest = '"' ::
        (key.toList.flatMap escapeChar ++ '"' ::
          (':' :: (v.chars ++ (moreMembers ms ++ '}' :: rest)))) := by
      simp [memberChars_cons, stringChars]
    have hnext (cs : List Char) : nextKey true ('"' :: cs) = .ok (some cs) := rfl
    have hfuel : ms.length < (memberChars ((key, v) :: ms) ++ '}' :: rest).length := by
      have hmore := length_le_moreMembers ms
      rw [memberChars_cons]
      simp only [List.length_append, List.length_cons]
      omega
    rw [readMembers]
    simp only [htext, hnext, readString_escaped]
    rw [first _ (ends_moreMembers ms rest)]
    dsimp only
    rw [← htext]
    exact readMembers_more more rest hfuel

theorem readObject_memberChars {s s' : σ} {ms : List (String × Value)}
    (h : MembersTo member s ms s') (rest : List Char) :
    readObject member s (memberChars ms ++ '}' :: rest) = .ok (s', rest) := by
  rw [readObject, readMembers_memberChars h rest]
  rfl

end

/-! ## Trees -/

namespace Value

/-- A value that is read as it was written wherever so many levels of containers are left. -/
structure Plain (v : Value) (height : Nat) : Prop where
  starts : v.Starts
  null : v.chars.head? = some 'n' → v = .null
  read : ∀ depth rest, height ≤ depth → Ends rest →
    Value.read depth (v.chars ++ rest) = .ok (v, rest)

theorem Plain.mono {v : Value} {height height' : Nat} (h : v.Plain height)
    (hle : height ≤ height') : v.Plain height' where
  starts := h.starts
  null := h.null
  read depth rest hdepth := h.read depth rest (Nat.le_trans hle hdepth)

theorem plain_null : Plain .null 0 where
  starts := ⟨'n', _, rfl, by decide⟩
  null _ := rfl
  read depth rest _ _ := by
    rw [Value.read]
    rfl

theorem plain_bool (b : Bool) : Plain (.bool b) 0 := by
  cases b with
  | true =>
    refine ⟨⟨'t', _, rfl, by decide⟩, fun h => by simp [chars] at h, fun depth rest _ _ => ?_⟩
    rw [Value.read]
    rfl
  | false =>
    refine ⟨⟨'f', _, rfl, by decide⟩, fun h => by simp [chars] at h, fun depth rest _ _ => ?_⟩
    rw [Value.read]
    rfl

theorem plain_string (s : String) : Plain (.string s) 0 := by
  refine ⟨⟨'"', _, rfl, by decide⟩, fun h => by simp [chars, stringChars] at h,
    fun depth rest _ _ => ?_⟩
  have hquote (cs : List Char) : Value.read depth ('"' :: cs) =
      (readString cs).map fun r => (.string r.1, r.2) := by
    rw [Value.read]
    rfl
  rw [chars, stringChars_append, hquote, readString_escaped]
  rfl

theorem read_digit {c : Char} (h : c.isDigit = true) (depth : Nat) (cs : List Char) :
    Value.read depth (c :: cs) =
      (readNumber false (c :: cs)).map fun r => (r.1.toValue, r.2) := by
  have hleads : Leads c := .inr h
  have hne (d : Char) (ds : List Char) (hd : d.isDigit = false) : c :: cs ≠ d :: ds := by
    rintro heq
    obtain ⟨rfl, -⟩ := List.cons.inj heq
    exact Bool.noConfusion (hd.symm.trans h)
  rw [Value.read, skipSpace_cons hleads.not_space]
  split
  · contradiction
  iterate 7
    · rename_i heq
      exact absurd heq (hne _ _ rfl)
  · rename_i heq
    obtain ⟨rfl, rfl⟩ := List.cons.inj heq
    exact if_pos h

theorem plain_integer {n : Int} (hn : InRange n) : Plain (.integer n) 0 := by
  obtain ⟨c, cs, hdigits, hc⟩ := decimalDigits_eq_cons n.natAbs
  by_cases hneg : n < 0
  · have hchars : (Value.integer n).chars = '-' :: decimalDigits n.natAbs := by
      rw [chars, integerChars, if_pos hneg]
    refine ⟨⟨'-', _, hchars, by decide⟩, fun h => by simp [hchars] at h,
      fun depth rest _ hends => ?_⟩
    have hminus (cs : List Char) : Value.read depth ('-' :: cs) =
        (readNumber true cs).map fun r => (r.1.toValue, r.2) := by
      rw [Value.read]
      rfl
    have hread := readNumber_natAbs hn hends
    rw [decide_eq_true hneg] at hread
    rw [hchars, List.cons_append, hminus, hread]
    rfl
  · have hchars : (Value.integer n).chars = decimalDigits n.natAbs := by
      rw [chars, integerChars, if_neg hneg]
    refine ⟨⟨c, cs, by rw [hchars, hdigits], .inr hc⟩, fun h => ?_, fun depth rest _ hends => ?_⟩
    · rw [hchars, hdigits] at h
      cases h
      cases hc
    · have hread := readNumber_natAbs hn hends
      rw [decide_eq_false hneg] at hread
      rw [hchars, hdigits, List.cons_append, read_digit hc, ← List.cons_append, ← hdigits, hread]
      rfl

/-- The elements of an array are read in their order. -/
theorem itemsTo_read {vs : List Value} {height depth : Nat} (h : ∀ v ∈ vs, v.Plain height)
    (hdepth : height ≤ depth) (done : List Value) :
    ItemsTo (fun items cs => (Value.read depth cs).map fun r => (r.1 :: items, r.2)) done vs
      (vs.reverse ++ done) := by
  induction vs generalizing done with
  | nil => exact .nil done
  | cons v vs ih =>
    obtain ⟨hv, hvs⟩ := List.forall_mem_cons.1 h
    refine .cons (u := v :: done) hv.starts (fun rest hends => ?_) ?_
    · rw [hv.read depth rest hdepth hends]
      rfl
    · rw [List.reverse_cons, List.append_assoc]
      exact ih hvs (v :: done)

theorem plain_array {vs : List Value} {height : Nat} (h : ∀ v ∈ vs, v.Plain height) :
    Plain (.array vs) (height + 1) := by
  refine ⟨⟨'[', _, rfl, by decide⟩, fun h => by simp [chars] at h, fun depth rest hle _ => ?_⟩
  obtain ⟨depth, rfl⟩ : ∃ d, depth = d + 1 := ⟨depth - 1, by omega⟩
  have hitems := readArray_itemChars (itemsTo_read h (Nat.le_of_succ_le_succ hle) []) rest
  have hchars : (Value.array vs).chars ++ rest = '[' :: (itemChars vs ++ ']' :: rest) := by
    simp [chars]
  have hbracket (cs : List Char) : Value.read (depth + 1) ('[' :: cs) =
      (readArray (fun items cs => (Value.read depth cs).map fun r => (r.1 :: items, r.2)) [] cs).map
        fun r => (.array r.1.reverse, r.2) := by
    rw [Value.read]
    rfl
  rw [hchars, hbracket, hitems]
  simp [Except.map]

/-- The members of an object are read in their order. -/
theorem membersTo_read {ms : List (String × Value)} {height depth : Nat}
    (h : ∀ m ∈ ms, m.2.Plain height) (hdepth : height ≤ depth) (done : List (String × Value)) :
    MembersTo (fun members key cs =>
      match readColon cs with
      | .error e => .error e
      | .ok cs => (Value.read depth cs).map fun r => ((key, r.1) :: members, r.2)) done ms
      (ms.reverse ++ done) := by
  induction ms generalizing done with
  | nil => exact .nil done
  | cons m ms ih =>
    obtain ⟨hm, hms⟩ := List.forall_mem_cons.1 h
    refine .cons (u := m :: done) (fun rest hends => ?_) ?_
    · rw [readColon_cons]
      dsimp only
      rw [hm.read depth rest hdepth hends]
      rfl
    · rw [List.reverse_cons, List.append_assoc]
      exact ih hms (m :: done)

theorem plain_object {ms : List (String × Value)} {height : Nat}
    (h : ∀ m ∈ ms, m.2.Plain height) : Plain (.object ms) (height + 1) := by
  refine ⟨⟨'{', _, rfl, by decide⟩, fun h => by simp [chars] at h, fun depth rest hle _ => ?_⟩
  obtain ⟨depth, rfl⟩ : ∃ d, depth = d + 1 := ⟨depth - 1, by omega⟩
  have hmembers := readObject_memberChars (membersTo_read h (Nat.le_of_succ_le_succ hle) []) rest
  have hchars : (Value.object ms).chars ++ rest = '{' :: (memberChars ms ++ '}' :: rest) := by
    simp [chars]
  have hbrace (cs : List Char) : Value.read (depth + 1) ('{' :: cs) =
      (readObject (fun members key cs =>
        match readColon cs with
        | .error e => .error e
        | .ok cs => (Value.read depth cs).map fun r => ((key, r.1) :: members, r.2)) [] cs).map
        fun r => (.object r.1.reverse, r.2) := by
    rw [Value.read]
    rfl
  rw [hchars, hbrace, hmembers]
  simp [Except.map]

end Value

end NetRelocation.Json
