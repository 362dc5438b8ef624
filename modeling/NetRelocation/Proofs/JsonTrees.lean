import NetRelocation.Proofs.JsonGrammar

/-!
# Reading the texts of a value

**Theorem (`ValueText.read`).** Each text of a value is read as the value, wherever it stands.

The readers of containers do not know what an entry is. What a reader's step has to do with an
entry is said of the step alone (`TakesItem`, `TakesMember`). The loop over the entries makes of
each of them what the step does, with all that stands before it (`Walks`), and so a run over the
entries is an induction over the list between the brackets (`Walks.listed`). The step for members
may refuse some of them: it answers for the members that `next` accepts.
-/

namespace NetRelocation.Json

open Text.Numeral (decimalDigits)
open Value (stringChars)

/-! ## Between the entries -/

/-- What stands before an entry: nothing before the first, a comma before all others. -/
inductive Opens : Bool → List Char → Prop
  | first : Opens true []
  | other {pad : List Char} (blank : Blank pad) : Opens false (pad ++ [','])

theorem nextItem_blank {pad : List Char} (hpad : Blank pad) (first : Bool) (cs : List Char) :
    nextItem first (pad ++ cs) = nextItem first cs := by
  simp only [nextItem, skipSpace_append hpad]

theorem nextItem_opens {first : Bool} {lead pad : List Char} {c : Char} (h : Opens first lead)
    (hpad : Blank pad) (hc : Leads c) (cs : List Char) :
    nextItem first (lead ++ (pad ++ c :: cs)) = .ok (some (c :: cs)) := by
  cases h with
  | first => exact (nextItem_blank hpad true _).trans (nextItem_first hc cs)
  | other hbefore =>
    rw [List.append_assoc, nextItem_blank hbefore]
    exact nextItem_comma hc ((skipSpace_append hpad _).trans (skipSpace_cons hc.not_space))

theorem nextItem_end {pad : List Char} (hpad : Blank pad) (first : Bool) (rest : List Char) :
    nextItem first (pad ++ ']' :: rest) = .ok none := nextItem_blank hpad first _

theorem nextKey_blank {pad : List Char} (hpad : Blank pad) (first : Bool) (cs : List Char) :
    nextKey first (pad ++ cs) = nextKey first cs := by
  simp only [nextKey, skipSpace_append hpad]

theorem nextKey_comma {text cs : List Char} (h : skipSpace text = '"' :: cs) :
    nextKey false (',' :: text) = .ok (some cs) := by
  rw [nextKey, skipSpace_cons (by decide)]
  split
  · contradiction
  · rename_i heq
    exact absurd (List.cons.inj heq).1 (by decide)
  · rename_i heq
    obtain ⟨rfl, rfl⟩ := List.cons.inj heq
    rw [if_neg (by decide), if_pos rfl, h]
    rfl

theorem nextKey_opens {first : Bool} {lead pad : List Char} (h : Opens first lead)
    (hpad : Blank pad) (cs : List Char) :
    nextKey first (lead ++ (pad ++ '"' :: cs)) = .ok (some cs) := by
  cases h with
  | first => exact nextKey_blank hpad true _
  | other hbefore =>
    rw [List.append_assoc, nextKey_blank hbefore]
    exact nextKey_comma (skipSpace_append hpad _)

theorem nextKey_end {pad : List Char} (hpad : Blank pad) (first : Bool) (rest : List Char) :
    nextKey first (pad ++ '}' :: rest) = .ok none := nextKey_blank hpad first _

theorem readColon_blank {pad : List Char} (hpad : Blank pad) (cs : List Char) :
    readColon (pad ++ ':' :: cs) = .ok cs := by
  simp only [readColon, skipSpace_append hpad,
    skipSpace_cons (show isSpace ':' = false by decide)]

theorem endItems_blank {pad : List Char} (hpad : Blank pad) (rest : List Char) :
    endItems (pad ++ ']' :: rest) = .ok rest := by
  simp only [endItems, skipSpace_append hpad,
    skipSpace_cons (show isSpace ']' = false by decide)]

theorem endMembers_blank {pad : List Char} (hpad : Blank pad) (rest : List Char) :
    endMembers (pad ++ '}' :: rest) = .ok rest := by
  simp only [endMembers, skipSpace_append hpad,
    skipSpace_cons (show isSpace '}' = false by decide)]

theorem Listed.length_le {α : Type} {text : α → List Char → Prop} {as : List α} {cs : List Char}
    (h : Listed text as cs) : as.length ≤ cs.length + 1 := by
  induction h with
  | last _ => simp
  | more _ _ ih =>
    simp only [List.length_cons, List.length_append]
    omega

/-! ## Loops over the entries -/

section

variable {α σ : Type}

/-- What a step makes of entries one after another. -/
inductive Steps (step : σ → α → σ → Prop) : σ → List α → σ → Prop
  | nil (s : σ) : Steps step s [] s
  | cons {s u w : σ} {a : α} {as : List α} (first : step s a u) (more : Steps step u as w) :
    Steps step s (a :: as) w

theorem steps_of_foldlM {next : σ → α → Option σ} {as : List α} {s s' : σ}
    (h : as.foldlM next s = some s') : Steps (fun s a u => next s a = some u) s as s' := by
  induction as generalizing s with
  | nil =>
    cases h
    exact .nil _
  | cons a as ih =>
    rw [List.foldlM_cons] at h
    obtain ⟨u, hu, hmore⟩ := Option.bind_eq_some_iff.1 h
    exact .cons hu (ih hmore)

/-- A loop makes of each entry what the step does, and ends before the character that closes the
container. -/
structure Walks (text : α → List Char → Prop) (step : σ → α → σ → Prop)
    (loop : Nat → Bool → σ → List Char → Step σ) (close : Char) : Prop where
  stops (rest : List Char) : Stops (close :: rest)
  ends {pad : List Char} (blank : Blank pad) (fuel : Nat) (first : Bool) (s : σ)
    (rest : List Char) :
    loop (fuel + 1) first s (pad ++ close :: rest) = .ok (s, pad ++ close :: rest)
  one {s u : σ} {a : α} (h : step s a u) {first : Bool} {cs lead : List Char}
    (opens : Opens first lead) (shown : text a cs) (fuel : Nat) :
    ∃ pad, Blank pad ∧ ∀ behind, Stops behind →
      loop (fuel + 1) first s (lead ++ (cs ++ behind)) = loop fuel false u (pad ++ behind)

variable {text : α → List Char → Prop} {step : σ → α → σ → Prop}
  {loop : Nat → Bool → σ → List Char → Step σ} {close : Char}

/-- Entries are read one by one up to the blanks before the end. -/
theorem Walks.listed (hloop : Walks text step loop close) {as : List α} {cs : List Char}
    (h : Listed text as cs) (rest : List Char) {first : Bool} {lead : List Char}
    (hlead : Opens first lead) {s s' : σ} (hsteps : Steps step s as s') {fuel : Nat}
    (hfuel : as.length < fuel) :
    ∃ pad, Blank pad ∧ loop fuel first s (lead ++ (cs ++ close :: rest)) =
      .ok (s', pad ++ close :: rest) := by
  induction h generalizing first lead s fuel with
  | last hfirst =>
    obtain ⟨fuel, rfl⟩ : ∃ f, fuel = f + 2 := ⟨fuel - 2, by simp at hfuel; omega⟩
    cases hsteps with
    | cons hu hmore =>
      cases hmore
      obtain ⟨pad, hpad, hread⟩ := hloop.one hu hlead hfirst (fuel + 1)
      exact ⟨pad, hpad, (hread _ (hloop.stops rest)).trans (hloop.ends hpad fuel _ _ rest)⟩
  | more hfirst hothers ih =>
    obtain ⟨fuel, rfl⟩ : ∃ f, fuel = f + 1 := ⟨fuel - 1, by omega⟩
    cases hsteps with
    | cons hu hmore =>
      obtain ⟨after, hafter, hread⟩ := hloop.one hu hlead hfirst fuel
      obtain ⟨pad, hpad, hrest⟩ := ih (.other hafter) hmore (Nat.lt_of_succ_lt_succ hfuel)
      refine ⟨pad, hpad, ?_⟩
      rw [List.append_assoc, List.cons_append, hread _ (stops_comma _)]
      rw [List.append_assoc] at hrest
      exact hrest

/-- All entries are read, up to the blanks before the end. -/
theorem Walks.inside (hloop : Walks text step loop close) {as : List α} {cs : List Char}
    (h : Inside text as cs) (rest : List Char) {s s' : σ} (hsteps : Steps step s as s') :
    ∃ pad, Blank pad ∧ loop ((cs ++ close :: rest).length + 1) true s (cs ++ close :: rest) =
      .ok (s', pad ++ close :: rest) := by
  cases h with
  | none hblank =>
    cases hsteps
    exact ⟨cs, hblank, hloop.ends hblank _ true _ rest⟩
  | some hlisted =>
    have hfuel : as.length < (cs ++ close :: rest).length + 1 := by
      have hle := hlisted.length_le
      simp only [List.length_append, List.length_cons]
      omega
    exact hloop.listed hlisted rest .first hsteps hfuel

/-- The loop over the elements of an array, if the step reads their texts. -/
theorem walks_items {item : σ → List Char → Step σ}
    (hled : ∀ a cs, text a cs → ∃ c tail, cs = c :: tail ∧ Leads c)
    (hitem : ∀ ⦃s a u⦄, step s a u → ∀ ⦃cs rest⦄, text a cs → Stops rest →
      item s (cs ++ rest) = .ok (u, rest)) :
    Walks (Padded text) step (readItems item) ']' where
  stops := stops_bracket
  ends hpad fuel first s rest := by rw [readItems, nextItem_end hpad]
  one hu first cs lead hlead ha fuel := by
    obtain ⟨before, body, after, hbefore, hbody, hafter, rfl⟩ := ha
    obtain ⟨c, tail, rfl, hc⟩ := hled _ body hbody
    refine ⟨after, hafter, fun behind hbehind => ?_⟩
    have hnext := nextItem_opens hlead hbefore hc (tail ++ (after ++ behind))
    have hread := hitem hu hbody (hbehind.blank_append hafter)
    simp only [List.append_assoc, List.cons_append] at hread ⊢
    rw [readItems, hnext]
    dsimp only
    rw [hread]

/-- An array is read element by element. -/
theorem readArray_walked {item : σ → List Char → Step σ}
    (hloop : Walks (Padded text) step (readItems item) ']') {as : List α} {cs : List Char}
    (h : Inside (Padded text) as cs) (rest : List Char) {s s' : σ}
    (hsteps : Steps step s as s') : readArray item s (cs ++ ']' :: rest) = .ok (s', rest) := by
  obtain ⟨pad, hpad, hread⟩ := hloop.inside h rest hsteps
  rw [readArray, hread]
  dsimp only
  rw [endItems_blank hpad]
  rfl

/-- The loop over the members of an object gives the key to the step. -/
theorem readMembers_key {key : String} {quoted lead : List Char} {first : Bool}
    (hlead : Opens first lead) (hkey : Padded StringText key quoted) :
    ∃ gap, Blank gap ∧ ∀ (member : σ → String → List Char → Step σ) fuel s rest,
      readMembers member (fuel + 1) first s (lead ++ (quoted ++ ':' :: rest)) =
        match member s key (gap ++ ':' :: rest) with
        | .error e => .error e
        | .ok (s, cs) => readMembers member fuel false s cs := by
  obtain ⟨before, body, gap, hbefore, hbody, hgap, rfl⟩ := hkey
  refine ⟨gap, hgap, fun member fuel s rest => ?_⟩
  obtain ⟨tail, htail, hstring⟩ := hbody.read (gap ++ ':' :: rest)
  have hnext := nextKey_opens hlead hbefore tail
  rw [List.append_assoc, List.append_assoc, htail, readMembers, hnext]
  dsimp only
  exact hstring ▸ rfl

/-- The loop over the members of an object, if the step reads them behind their keys. -/
theorem walks_members {β : Type} (text : β → List Char → Prop) {step : σ → String × β → σ → Prop}
    {member : σ → String → List Char → Step σ}
    (hmember : ∀ ⦃s m u⦄, step s m u → ∀ ⦃gap pad cs rest⦄, Blank gap → Blank pad →
      text m.2 cs → Stops rest →
        member s m.1 (gap ++ ':' :: (pad ++ (cs ++ rest))) = .ok (u, rest)) :
    Walks (fun m cs => ∃ key value, Padded StringText m.1 key ∧ Padded text m.2 value ∧
      cs = key ++ ':' :: value) step (readMembers member) '}' where
  stops := stops_brace
  ends hpad fuel first s rest := by rw [readMembers, nextKey_end hpad]
  one hu first cs lead hlead hm fuel := by
    obtain ⟨quoted, value, hkey, ⟨pad, body, after, hpad, hbody, hafter, rfl⟩, rfl⟩ := hm
    obtain ⟨gap, hgap, hread⟩ := readMembers_key (σ := σ) hlead hkey
    refine ⟨after, hafter, fun behind hbehind => ?_⟩
    have hstep := hmember hu hgap hpad hbody (hbehind.blank_append hafter)
    simp only [List.append_assoc, List.cons_append]
    rw [hread, hstep]

end

/-! ## Entries -/

/-- Every text of a value starts as a value does. -/
def Led (text : Value → List Char → Prop) : Prop :=
  ∀ v cs, text v cs → ∃ c tail, cs = c :: tail ∧ Leads c

/-- A step for elements puts each before those that were read. -/
def TakesItem (text : Value → List Char → Prop)
    (item : List Value → List Char → Step (List Value)) : Prop :=
  ∀ done ⦃v cs rest⦄, text v cs → Stops rest → item done (cs ++ rest) = .ok (v :: done, rest)

/-- A step for members goes where `next` says. -/
def TakesMember {σ : Type} (text : Value → List Char → Prop)
    (member : σ → String → List Char → Step σ) (next : σ → String × Value → Option σ) : Prop :=
  ∀ ⦃s m u gap pad cs rest⦄, next s m = some u → Blank gap → Blank pad → text m.2 cs →
    Stops rest → member s m.1 (gap ++ ':' :: (pad ++ (cs ++ rest))) = .ok (u, rest)

/-- Entries that are put before those already read end up in reverse. -/
theorem foldlM_prepend {α : Type} (as done : List α) :
    as.foldlM (fun done a => some (a :: done)) done = some (as.reverse ++ done) := by
  induction as generalizing done with
  | nil => rfl
  | cons a as ih =>
    rw [List.foldlM_cons, List.reverse_cons, List.append_assoc]
    exact ih (a :: done)

/-- An array of values is read element by element. -/
theorem readArray_inside {text : Value → List Char → Prop}
    {item : List Value → List Char → Step (List Value)} (hled : Led text)
    (hitem : TakesItem text item) {vs : List Value} {cs : List Char}
    (h : Inside (Padded text) vs cs) (rest : List Char) :
    readArray item [] (cs ++ ']' :: rest) = .ok (vs.reverse, rest) := by
  have hsteps := steps_of_foldlM (foldlM_prepend vs [])
  rw [List.append_nil] at hsteps
  refine readArray_walked (walks_items hled ?_) h rest hsteps
  rintro done v _ ⟨⟩ cs rest hv hrest
  exact hitem done hv hrest

/-- The members of an object of values are read, up to the blanks before the closing brace. -/
theorem readMembers_inside {σ : Type} {text : Value → List Char → Prop}
    {member : σ → String → List Char → Step σ} {next : σ → String × Value → Option σ}
    (hmember : TakesMember text member next) {ms : List (String × Value)} {cs : List Char}
    (h : Inside (MemberText text) ms cs) (rest : List Char) {s s' : σ}
    (hfold : ms.foldlM next s = some s') :
    ∃ pad, Blank pad ∧ readMembers member ((cs ++ '}' :: rest).length + 1) true s
      (cs ++ '}' :: rest) = .ok (s', pad ++ '}' :: rest) := by
  refine (walks_members text ?_).inside h rest (steps_of_foldlM hfold)
  intro s m u hu gap pad cs rest
  exact hmember hu

/-! ## Values -/

theorem minus_leads (negative : Bool) {cs : List Char} (h : Numeral cs) :
    ∃ c tail, minus negative ++ cs = c :: tail ∧ Leads c := by
  cases negative with
  | true => exact ⟨'-', cs, rfl, by decide⟩
  | false =>
    obtain ⟨c, tail, rfl, hc⟩ := h.leads
    exact ⟨c, tail, rfl, .inr hc⟩

theorem integerChars_eq (n : Int) :
    Value.integerChars n = minus (decide (n < 0)) ++ decimalDigits n.natAbs := by
  by_cases hneg : n < 0
  · rw [Value.integerChars, if_pos hneg, decide_eq_true hneg]
    rfl
  · rw [Value.integerChars, if_neg hneg, decide_eq_false hneg]
    rfl

namespace Value

theorem read_blank {pad : List Char} (hpad : Blank pad) (depth : Nat) (cs : List Char) :
    Value.read depth (pad ++ cs) = Value.read depth cs := by
  rw [Value.read, Value.read, skipSpace_append hpad]

theorem read_number (negative : Bool) {cs : List Char} (h : Numeral cs) (depth : Nat)
    (rest : List Char) : Value.read depth (minus negative ++ (cs ++ rest)) =
      (readNumber negative (cs ++ rest)).map fun r => (r.1.toValue, r.2) := by
  cases negative with
  | true =>
    rw [Value.read]
    rfl
  | false =>
    obtain ⟨c, tail, rfl, hc⟩ := h.leads
    exact read_digit hc depth (tail ++ rest)

/-- The step of a tree's reader over the elements of an array. -/
def takeItem (depth : Nat) (items : List Value) (cs : List Char) : Step (List Value) :=
  (Value.read depth cs).map fun r => (r.1 :: items, r.2)

/-- The step of a tree's reader over the members of an object. -/
def takeMember (depth : Nat) (members : List (String × Value)) (key : String) (cs : List Char) :
    Step (List (String × Value)) :=
  match readColon cs with
  | .error e => .error e
  | .ok cs => (Value.read depth cs).map fun r => ((key, r.1) :: members, r.2)

theorem read_bracket (depth : Nat) (cs : List Char) : Value.read (depth + 1) ('[' :: cs) =
    (readArray (takeItem depth) [] cs).map fun r => (.array r.1.reverse, r.2) := by
  rw [Value.read]
  rfl

theorem read_brace (depth : Nat) (cs : List Char) : Value.read (depth + 1) ('{' :: cs) =
    (readObject (takeMember depth) [] cs).map fun r => (.object r.1.reverse, r.2) := by
  rw [Value.read]
  rfl

end Value

theorem ScalarText.read {v : Value} {cs : List Char} (h : ScalarText v cs) (depth : Nat)
    {rest : List Char} (hrest : Stops rest) : Value.read depth (cs ++ rest) = .ok (v, rest) := by
  have hnumber {x : Number} {cs : List Char} (negative : Bool) (hshape : Numeral cs)
      (hx : readNumber negative cs = .ok (x, [])) :
      Value.read depth (minus negative ++ cs ++ rest) = .ok (x.toValue, rest) := by
    rw [List.append_assoc, Value.read_number negative hshape, readNumber_takes hshape hx hrest]
    rfl
  cases h with
  | null =>
    rw [Value.read]
    rfl
  | true =>
    rw [Value.read]
    rfl
  | false =>
    rw [Value.read]
    rfl
  | @integer n hn =>
    have hvalue := readNumber_natAbs hn ends_nil
    rw [List.append_nil] at hvalue
    rw [integerChars_eq]
    exact hnumber _ (numeral_decimalDigits _) hvalue
  | number negative hshape hx => exact hnumber negative hshape hx
  | string htext =>
    obtain ⟨tail, htail, hstring⟩ := htext.read rest
    rw [htail, Value.read]
    exact congrArg (Except.map fun r => (Value.string r.1, r.2)) hstring

theorem ScalarText.led : Led ScalarText := by
  intro v cs h
  cases h with
  | null => exact ⟨'n', _, rfl, by decide⟩
  | true => exact ⟨'t', _, rfl, by decide⟩
  | false => exact ⟨'f', _, rfl, by decide⟩
  | @integer n _ =>
    rw [integerChars_eq]
    exact minus_leads _ (numeral_decimalDigits _)
  | number negative hshape _ => exact minus_leads negative hshape
  | string htext =>
    cases htext
    exact ⟨'"', _, rfl, by decide⟩

theorem ValueText.led (depth : Nat) : Led (ValueText depth) := by
  cases depth with
  | zero => exact ScalarText.led
  | succ depth =>
    intro v cs h
    cases h with
    | scalar h => exact ScalarText.led _ _ h
    | array items => exact ⟨'[', _, rfl, by decide⟩
    | object members => exact ⟨'{', _, rfl, by decide⟩

/-- Every text of a value is read as the value. -/
theorem ValueText.read {depth : Nat} {v : Value} {cs : List Char} (h : ValueText depth v cs)
    {rest : List Char} (hrest : Stops rest) : Value.read depth (cs ++ rest) = .ok (v, rest) := by
  induction depth generalizing v cs rest with
  | zero => exact ScalarText.read h 0 hrest
  | succ depth ih =>
    cases h with
    | scalar h => exact h.read (depth + 1) hrest
    | @array vs cs items =>
      have hitem : TakesItem (ValueText depth) (Value.takeItem depth) := by
        intro done v cs rest hv hrest
        rw [Value.takeItem, ih hv hrest]
        rfl
      have htext : '[' :: cs ++ [']'] ++ rest = '[' :: (cs ++ ']' :: rest) := by simp
      rw [htext, Value.read_bracket, readArray_inside (ValueText.led depth) hitem items rest]
      simp [Except.map]
    | @object ms cs members =>
      have hmember : TakesMember (ValueText depth) (Value.takeMember depth)
          fun done m => some (m :: done) := by
        rintro done m _ gap pad cs rest ⟨⟩ hgap hpad hcs hrest
        rw [Value.takeMember, readColon_blank hgap]
        dsimp only
        rw [Value.read_blank hpad, ih hcs hrest]
        rfl
      obtain ⟨pad, hpad, hmembers⟩ := readMembers_inside hmember members rest (foldlM_prepend ms [])
      have htext : '{' :: cs ++ ['}'] ++ rest = '{' :: (cs ++ '}' :: rest) := by simp
      rw [htext, Value.read_brace, readObject, hmembers]
      dsimp only
      rw [endMembers_blank hpad]
      simp [Except.map]

theorem padded_self {α : Type} {text : α → List Char → Prop} {a : α} {cs : List Char}
    (h : text a cs) : Padded text a cs :=
  ⟨[], cs, [], blank_nil, h, blank_nil, by simp⟩

theorem memberText_stringChars {text : Value → List Char → Prop} (key : String) {v : Value}
    {cs : List Char} (hv : text v cs) : MemberText text (key, v) (stringChars key ++ ':' :: cs) :=
  ⟨_, _, padded_self (stringText_stringChars key), padded_self hv, rfl⟩

theorem ScalarText.value {v : Value} {cs : List Char} (h : ScalarText v cs) (depth : Nat) :
    ValueText depth v cs := by
  cases depth with
  | zero => exact h
  | succ depth => exact HolderText.scalar h

end NetRelocation.Json
