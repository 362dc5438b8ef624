import NetRelocation.Event
import NetRelocation.Proofs.Decoded

/-!
# Outside of strings

A JSON text has brackets, commas, colons, words, numbers and blanks outside of its strings, all of
them ASCII characters.

**Theorem (`DriverEvent.ascii_of_parse`).** If a text is read as an event, its characters outside of
strings (`Json.outside`) are ASCII characters.

A reader that leaves `rest` of `cs` passes ASCII characters and whole strings (`Passes cs rest`).
Readers that follow one another pass what each of them passes, so there is one lemma for each
reader; the one for a loop asks the same of its step.
-/

namespace NetRelocation.Json

variable {α σ : Type}

/-! ## The characters outside -/

/-- Where a character of a text stands. -/
inductive Place where
  | outside
  | inside
  /-- Inside a string and behind a backslash. -/
  | escaped
  deriving DecidableEq

/-- Where the next character stands. -/
def Place.next : Place → Char → Place
  | outside, c => if c = '"' then inside else outside
  | inside, c => if c = '"' then outside else if c = '\\' then escaped else inside
  | escaped, _ => inside

/-- The characters outside of strings of a text that begins at a place; quotes count as inside. -/
def outsideFrom : Place → List Char → List Char
  | _, [] => []
  | place, c :: cs =>
    if place = .outside ∧ c ≠ '"' then c :: outsideFrom (place.next c) cs
    else outsideFrom (place.next c) cs

/-- The characters of a text outside of its strings. -/
def outside (cs : List Char) : List Char := outsideFrom .outside cs

theorem outside_cons {c : Char} (hc : c ≠ '"') (cs : List Char) :
    outside (c :: cs) = c :: outside cs := by
  simp [outside, outsideFrom, Place.next, hc]

theorem outside_quote (cs : List Char) : outside ('"' :: cs) = outsideFrom .inside cs := rfl

theorem outsideFrom_inside_quote (cs : List Char) :
    outsideFrom .inside ('"' :: cs) = outside cs := rfl

theorem outsideFrom_inside_escape (c : Char) (cs : List Char) :
    outsideFrom .inside ('\\' :: c :: cs) = outsideFrom .inside cs := rfl

theorem outsideFrom_inside {c : Char} (hquote : c ≠ '"') (hescape : c ≠ '\\') (cs : List Char) :
    outsideFrom .inside (c :: cs) = outsideFrom .inside cs := by
  simp [outsideFrom, Place.next, hquote, hescape]

/-! ## What is passed -/

/-- Outside of strings, what stands before `rest` are ASCII characters. -/
def Passes (cs rest : List Char) : Prop := ∀ c ∈ outside cs, c.toNat < 0x80 ∨ c ∈ outside rest

theorem Passes.refl (cs : List Char) : Passes cs cs := fun _ hc => .inr hc

theorem Passes.trans {cs ds es : List Char} (h : Passes cs ds) (h' : Passes ds es) :
    Passes cs es := fun c hc => (h c hc).elim .inl (h' c)

/-- A character that may stand outside of strings. -/
def Bare (c : Char) : Prop := c.toNat < 0x80 ∧ c ≠ '"'

instance (c : Char) : Decidable (Bare c) := instDecidableAnd

theorem Bare.passes {c : Char} (h : Bare c) (cs : List Char) : Passes (c :: cs) cs := by
  intro d hd
  rw [outside_cons h.2] at hd
  obtain rfl | hd := List.mem_cons.1 hd
  · exact .inl h.1
  · exact .inr hd

theorem passes_dropWhile {p : Char → Bool} (hp : ∀ c, p c = true → Bare c) (cs : List Char) :
    Passes cs (cs.dropWhile p) := by
  induction cs with
  | nil => exact .refl []
  | cons c cs ih =>
    rw [List.dropWhile_cons]
    split_ifs with hc
    · exact ((hp c hc).passes cs).trans ih
    · exact .refl _

theorem passes_skipSpace (cs : List Char) : Passes cs (skipSpace cs) := by
  refine passes_dropWhile (fun c hc => ?_) cs
  simp only [isSpace, Bool.or_eq_true, decide_eq_true_eq] at hc
  obtain ((rfl | rfl) | rfl) | rfl := hc <;> decide

theorem bare_of_isDigit {c : Char} (hc : c.isDigit = true) : Bare c := by
  refine ⟨?_, by rintro rfl; cases hc⟩
  simp only [Char.isDigit, Bool.and_eq_true, decide_eq_true_eq] at hc
  have hle : c.toNat ≤ 57 := UInt32.le_iff_toNat_le.1 hc.2
  omega

theorem passes_digits (cs : List Char) : Passes cs (cs.dropWhile Char.isDigit) :=
  passes_dropWhile (fun _ => bare_of_isDigit) cs

theorem passes_of_skipSpace {c : Char} {cs rest : List Char} (h : skipSpace cs = c :: rest)
    (hc : Bare c) : Passes cs rest :=
  (h ▸ passes_skipSpace cs).trans (hc.passes rest)

/-! ## Words and numbers -/

theorem passes_of_readWord {ws cs rest : List Char} (hws : ws.all (decide <| Bare ·) = true)
    (h : readWord ws cs = .ok rest) : Passes cs rest := by
  induction ws generalizing cs with
  | nil =>
    cases h
    exact .refl _
  | cons w ws ih =>
    cases cs with
    | nil => cases h
    | cons c cs =>
      rw [readWord] at h
      split_ifs at h with hc
      subst hc
      rw [List.all_cons, Bool.and_eq_true, decide_eq_true_eq] at hws
      exact (hws.1.passes cs).trans (ih hws.2 h)

theorem passes_of_map {β : Type} {r : Except Fault α} {f : α → β} {cs ds rest : List Char} {b : β}
    (hds : Passes cs ds) (h : r.map (fun a => (f a, ds)) = .ok (b, rest)) : Passes cs rest := by
  obtain ⟨a, -, ha⟩ := ok_of_map h
  cases ha
  exact hds

theorem passes_of_readExponent {negative : Bool} {n : Nat} {e : Int} {cs rest : List Char}
    {number : Number} (h : readExponent negative n e cs = .ok (number, rest)) :
    Passes cs rest := by
  unfold readExponent at h
  split at h
  rename_i down ds hsign
  have hds : Passes cs ds := by
    split at hsign <;> cases hsign
    · exact Bare.passes (by decide) _
    · exact Bare.passes (by decide) _
    · exact .refl _
  have hdigits : Passes cs (ds.dropWhile Char.isDigit) := hds.trans (passes_digits ds)
  dsimp only at h
  split at h
  · cases h
  · cases h
  · split at h
    · split at h
      · cases h
      · cases h
        exact hdigits
    · exact passes_of_map hdigits h

theorem passes_of_readFraction {negative : Bool} {n : Nat} {e : Int} {cs rest : List Char}
    {number : Number} (h : readFraction negative n e cs = .ok (number, rest)) :
    Passes cs rest := by
  have hdigits := passes_digits cs
  unfold readFraction at h
  dsimp only at h
  split at h
  · cases h
  · cases h
  · split at h
    · rename_i hrest
      exact (hrest ▸ hdigits).trans ((Bare.passes (by decide) _).trans (passes_of_readExponent h))
    · rename_i hrest
      exact (hrest ▸ hdigits).trans ((Bare.passes (by decide) _).trans (passes_of_readExponent h))
    · exact passes_of_map hdigits h

theorem passes_of_readNumber {negative : Bool} {cs rest : List Char} {number : Number}
    (h : readNumber negative cs = .ok (number, rest)) : Passes cs rest := by
  have hdigits := passes_digits cs
  unfold readNumber at h
  dsimp only at h
  split at h
  · cases h
  · cases h
  · cases h
  · split at h
    · rename_i hrest
      exact (hrest ▸ hdigits).trans ((Bare.passes (by decide) _).trans (passes_of_readFraction h))
    · rename_i hrest
      exact (hrest ▸ hdigits).trans ((Bare.passes (by decide) _).trans (passes_of_readExponent h))
    · rename_i hrest
      exact (hrest ▸ hdigits).trans ((Bare.passes (by decide) _).trans (passes_of_readExponent h))
    · split at h
      · cases h
        exact hdigits
      · exact passes_of_map hdigits h

/-! ## Strings -/

theorem outsideFrom_hexDigit {c : Char} {d : Nat} (h : Text.Numeral.hexDigit? c = some d)
    (cs : List Char) : outsideFrom .inside (c :: cs) = outsideFrom .inside cs := by
  refine outsideFrom_inside ?_ ?_ cs
  · rintro rfl
    cases h
  · rintro rfl
    cases h

theorem inside_of_readHex4 {cs rest : List Char} {n : Nat} (h : readHex4 cs = .ok (n, rest)) :
    outsideFrom .inside cs = outsideFrom .inside rest := by
  unfold readHex4 at h
  split at h
  · split at h
    · rename_i hhex
      cases h
      unfold hex4? at hhex
      split at hhex
      · rename_i ha hb hc hd
        rw [outsideFrom_hexDigit ha, outsideFrom_hexDigit hb, outsideFrom_hexDigit hc,
          outsideFrom_hexDigit hd]
      · cases hhex
    · cases h
  · split_ifs at h

theorem inside_of_readLowSurrogate {high : Nat} {cs rest : List Char} {x : Char}
    (h : readLowSurrogate high cs = .ok (x, rest)) :
    outsideFrom .inside cs = outsideFrom .inside rest := by
  unfold readLowSurrogate at h
  split at h
  · cases h
  · cases h
  · split at h
    · cases h
    · rename_i hread
      split_ifs at h
      obtain rfl : _ = rest := congrArg Prod.snd (Except.ok.inj h)
      rw [outsideFrom_inside_escape, inside_of_readHex4 hread]
  · cases h

theorem inside_of_readEscape {cs rest : List Char} {x : Char} (h : readEscape cs = .ok (x, rest)) :
    outsideFrom .inside ('\\' :: cs) = outsideFrom .inside rest := by
  unfold readEscape at h
  split at h
  · cases h
  · rw [outsideFrom_inside_escape]
    split at h
    · cases h
    · rename_i hread
      rw [inside_of_readHex4 hread]
      split_ifs at h
      · exact inside_of_readLowSurrogate h
      · cases h
        rfl
  · rw [outsideFrom_inside_escape]
    split at h
    · cases h
      rfl
    · cases h

theorem inside_of_readChars {fuel : Nat} {cs text rest : List Char}
    (h : readChars fuel cs = .ok (text, rest)) : outsideFrom .inside cs = outside rest := by
  induction fuel generalizing cs text with
  | zero => cases h
  | succ fuel ih =>
    cases cs with
    | nil => cases h
    | cons c cs =>
      rw [readChars] at h
      split_ifs at h with hquote hescape
      · cases h
        rw [hquote, outsideFrom_inside_quote]
      · split at h
        · cases h
        · rename_i hread
          obtain ⟨r, hr, hrest⟩ := ok_of_map h
          cases hrest
          rw [hescape, inside_of_readEscape hread, ih hr]
      · obtain ⟨r, hr, hrest⟩ := ok_of_map h
        cases hrest
        rw [outsideFrom_inside hquote hescape, ih hr]

theorem passes_of_readString {cs rest : List Char} {s : String}
    (h : readString cs = .ok (s, rest)) : Passes ('"' :: cs) rest := by
  obtain ⟨r, hr, hrest⟩ := ok_of_map h
  cases hrest
  intro c hc
  rw [outside_quote, inside_of_readChars hr] at hc
  exact .inr hc

/-! ## Containers -/

theorem passes_of_nextItem {first : Bool} {cs rest : List Char}
    (h : nextItem first cs = .ok (some rest)) : Passes cs rest := by
  have hspace := passes_skipSpace cs
  unfold nextItem at h
  split at h
  · cases h
  · cases h
  · rename_i hcs
    split_ifs at h with hfirst hcomma
    · cases h
      exact hcs ▸ hspace
    · subst hcomma
      have hcomma := passes_of_skipSpace hcs (by decide)
      split at h
      · cases h
      · cases h
      · cases h
        exact hcomma.trans (passes_skipSpace _)

theorem passes_of_endItems {cs rest : List Char} (h : endItems cs = .ok rest) :
    Passes cs rest := by
  unfold endItems at h
  split at h
  · cases h
  · rename_i hcs
    cases h
    exact passes_of_skipSpace hcs (by decide)
  · split at h <;> cases h
  · cases h

theorem passes_of_nextKey {first : Bool} {cs rest : List Char}
    (h : nextKey first cs = .ok (some rest)) : Passes cs ('"' :: rest) := by
  have hspace := passes_skipSpace cs
  unfold nextKey at h
  split at h
  · cases h
  · cases h
  · rename_i hcs
    split_ifs at h with hfirst hquote hcomma
    · cases h
      exact hquote ▸ hcs ▸ hspace
    · subst hcomma
      have hcomma := passes_of_skipSpace hcs (by decide)
      split at h
      · cases h
      · rename_i hrest
        cases h
        exact hcomma.trans (hrest ▸ passes_skipSpace _)
      · cases h
      · cases h

theorem passes_of_endMembers {cs rest : List Char} (h : endMembers cs = .ok rest) :
    Passes cs rest := by
  unfold endMembers at h
  split at h
  · cases h
  · rename_i hcs
    cases h
    exact passes_of_skipSpace hcs (by decide)
  · cases h
  · cases h

theorem passes_of_readColon {cs rest : List Char} (h : readColon cs = .ok rest) :
    Passes cs rest := by
  unfold readColon at h
  split at h
  · cases h
  · rename_i hcs
    cases h
    exact passes_of_skipSpace hcs (by decide)
  · cases h

theorem passes_of_readItems {item : σ → List Char → Step σ}
    (hitem : ∀ s cs s' rest, item s cs = .ok (s', rest) → Passes cs rest) {fuel : Nat}
    {first : Bool} {s s' : σ} {cs rest : List Char}
    (h : readItems item fuel first s cs = .ok (s', rest)) : Passes cs rest := by
  induction fuel generalizing first s cs with
  | zero => cases h
  | succ fuel ih =>
    rw [readItems] at h
    split at h
    · cases h
    · cases h
      exact .refl _
    · rename_i hnext
      split at h
      · cases h
      · rename_i hread
        exact (passes_of_nextItem hnext).trans ((hitem _ _ _ _ hread).trans (ih h))

theorem passes_of_readMembers {member : σ → String → List Char → Step σ}
    (hmember : ∀ s key cs s' rest, member s key cs = .ok (s', rest) → Passes cs rest) {fuel : Nat}
    {first : Bool} {s s' : σ} {cs rest : List Char}
    (h : readMembers member fuel first s cs = .ok (s', rest)) : Passes cs rest := by
  induction fuel generalizing first s cs with
  | zero => cases h
  | succ fuel ih =>
    rw [readMembers] at h
    split at h
    · cases h
    · cases h
      exact .refl _
    · rename_i hnext
      split at h
      · cases h
      · rename_i hkey
        split at h
        · cases h
        · rename_i hread
          exact (passes_of_nextKey hnext).trans ((passes_of_readString hkey).trans
            ((hmember _ _ _ _ _ hread).trans (ih h)))

/-! ## Values -/

theorem passes_of_readArray {item : σ → List Char → Step σ}
    (hitem : ∀ s cs s' rest, item s cs = .ok (s', rest) → Passes cs rest) {s s' : σ}
    {cs rest : List Char} (h : readArray item s cs = .ok (s', rest)) : Passes cs rest := by
  unfold readArray at h
  split at h
  · cases h
  · rename_i hitems
    obtain ⟨ds, hend, hrest⟩ := ok_of_map h
    cases hrest
    exact (passes_of_readItems hitem hitems).trans (passes_of_endItems hend)

theorem passes_of_readObject {member : σ → String → List Char → Step σ}
    (hmember : ∀ s key cs s' rest, member s key cs = .ok (s', rest) → Passes cs rest) {s s' : σ}
    {cs rest : List Char} (h : readObject member s cs = .ok (s', rest)) : Passes cs rest := by
  unfold readObject at h
  split at h
  · cases h
  · rename_i hmembers
    obtain ⟨ds, hend, hrest⟩ := ok_of_map h
    cases hrest
    exact (passes_of_readMembers hmember hmembers).trans (passes_of_endMembers hend)

theorem passes_of_word {ws cs ds rest : List Char} {v v' : Value} (hcs : Passes cs ds)
    (hws : ws.all (decide <| Bare ·) = true) (h : (readWord ws ds).map (v, ·) = .ok (v', rest)) :
    Passes cs rest := by
  obtain ⟨es, hword, hrest⟩ := ok_of_map h
  cases hrest
  exact hcs.trans (passes_of_readWord hws hword)

/-- A number behind what was looked at before. -/
theorem passes_of_number {negative : Bool} {cs ds rest : List Char} {v : Value}
    (hcs : Passes cs ds)
    (h : (readNumber negative ds).map (fun r => (r.1.toValue, r.2)) = .ok (v, rest)) :
    Passes cs rest := by
  obtain ⟨r, hnumber, hrest⟩ := ok_of_map h
  cases hrest
  exact hcs.trans (passes_of_readNumber hnumber)

theorem passes_of_readValue {depth : Nat} {cs rest : List Char} {v : Value}
    (h : Value.read depth cs = .ok (v, rest)) : Passes cs rest := by
  induction depth using Nat.strongRecOn generalizing cs rest v with
  | ind depth ih =>
    unfold Value.read at h
    split at h
    · cases h
    · rename_i hcs
      exact passes_of_word (passes_of_skipSpace hcs (by decide)) (by decide) h
    · rename_i hcs
      exact passes_of_word (passes_of_skipSpace hcs (by decide)) (by decide) h
    · rename_i hcs
      exact passes_of_word (passes_of_skipSpace hcs (by decide)) (by decide) h
    · rename_i hcs
      obtain ⟨r, hstring, hrest⟩ := ok_of_map h
      cases hrest
      exact (hcs ▸ passes_skipSpace _).trans (passes_of_readString hstring)
    · rename_i hcs
      exact passes_of_number (passes_of_skipSpace hcs (by decide)) h
    · rename_i hcs
      split at h
      · cases h
      · rename_i depth
        obtain ⟨r, harray, hrest⟩ := ok_of_map h
        cases hrest
        refine (passes_of_skipSpace hcs (by decide)).trans (passes_of_readArray ?_ harray)
        intro items ds items' rest hitem
        obtain ⟨r, hread, hrest⟩ := ok_of_map hitem
        cases hrest
        exact ih depth (Nat.lt_succ_self depth) hread
    · rename_i hcs
      split at h
      · cases h
      · rename_i depth
        obtain ⟨r, hobject, hrest⟩ := ok_of_map h
        cases hrest
        refine (passes_of_skipSpace hcs (by decide)).trans (passes_of_readObject ?_ hobject)
        intro members key ds members' rest hmember
        split at hmember
        · cases hmember
        · rename_i hcolon
          obtain ⟨r, hread, hrest⟩ := ok_of_map hmember
          cases hrest
          exact (passes_of_readColon hcolon).trans (ih depth (Nat.lt_succ_self depth) hread)
    · rename_i hcs
      split_ifs at h
      exact passes_of_number (hcs ▸ passes_skipSpace _) h

/-! ## Tagged unions -/

theorem passes_of_readTaggedName {ts : List (Tagged α)} {t : Tagged α} {cs rest : List Char}
    (h : readTaggedName ts cs = .ok (t, rest)) : Passes cs rest := by
  unfold readTaggedName at h
  split at h
  · rename_i hcs
    split at h
    · cases h
    · rename_i hstring
      split at h
      · cases h
        exact (hcs ▸ passes_skipSpace cs).trans (passes_of_readString hstring)
      · cases h
  · cases h

theorem passes_of_taggedMember {tag : String} {ts : List (Tagged α)} {depth : Nat}
    {s s' : Option (Tagged α) × List (String × Value)} {key : String} {cs rest : List Char}
    (h : taggedMember tag ts depth s key cs = .ok (s', rest)) : Passes cs rest := by
  unfold taggedMember at h
  split_ifs at h with hkey
  · split at h
    · cases h
    · split at h
      · cases h
      · rename_i hcolon
        obtain ⟨r, hname, hrest⟩ := ok_of_map h
        cases hrest
        exact (passes_of_readColon hcolon).trans (passes_of_readTaggedName hname)
  · split at h
    · cases h
    · rename_i hcolon
      obtain ⟨r, hread, hrest⟩ := ok_of_map h
      cases hrest
      exact (passes_of_readColon hcolon).trans (passes_of_readValue hread)

theorem passes_of_readTagged {tag label : String} {ts : List (Tagged α)} {depth : Nat}
    {cs rest : List Char} {a : α} (h : readTagged tag label ts depth cs = .ok (a, rest)) :
    Passes cs rest := by
  unfold readTagged at h
  dsimp only at h
  split at h
  · cases h
  · cases h
  · rename_i hcs
    have hopen := passes_of_skipSpace hcs (by decide)
    split at h
    · cases h
    · cases h
    · rename_i hmembers
      split at h
      · cases h
      · rename_i hend
        exact passes_of_map (hopen.trans ((passes_of_readMembers
          (fun _ _ _ _ _ => passes_of_taggedMember) hmembers).trans (passes_of_endMembers hend))) h
  · rename_i hcs
    have hopen := passes_of_skipSpace hcs (by decide)
    split at h
    · cases h
    · cases h
    · rename_i hnext
      split at h
      · cases h
      · rename_i hname
        split at h
        · cases h
        · rename_i hitems
          split at h
          · cases h
          · rename_i hend
            refine passes_of_map (hopen.trans ((passes_of_nextItem hnext).trans
              ((passes_of_readTaggedName hname).trans ((passes_of_readItems ?_ hitems).trans
                (passes_of_endItems hend))))) h
            intro items ds items' rest hitem
            obtain ⟨r, hread, hrest⟩ := ok_of_map hitem
            cases hrest
            exact passes_of_readValue hread
  · cases h

theorem ascii_of_finish {cs rest : List Char} {a b : α} (hpasses : Passes cs rest)
    (h : finish (a, rest) = .ok b) : ∀ c ∈ outside cs, c.toNat < 0x80 := by
  intro c hc
  obtain hascii | hrest := hpasses c hc
  · exact hascii
  · obtain hascii | hnone := passes_skipSpace rest c hrest
    · exact hascii
    · rw [finish] at h
      split at h
      · rename_i hspace
        rw [hspace] at hnone
        cases hnone
      · cases h

end NetRelocation.Json

namespace NetRelocation.DriverEvent

/-- **ASCII outside of strings.** -/
theorem ascii_of_parse {s : String} {event : DriverEvent} (h : parse s = .ok event) :
    ∀ c ∈ Json.outside s.toList, c.toNat < 0x80 := by
  unfold parse at h
  split at h
  · cases h
  · rename_i r hread
    exact Json.ascii_of_finish (Json.passes_of_readTagged hread) h

end NetRelocation.DriverEvent
