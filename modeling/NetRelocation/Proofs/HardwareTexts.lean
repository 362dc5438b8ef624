import Mathlib.Tactic.Choose
import NetRelocation.Proofs.AddressText

/-!
# The texts of a hardware address

A hardware address is written as groups of two hexadecimal digits with single colons between them.

**What is read** (`texts_read`). A group is read as a numeral of two bytes of text, and the reader
of numerals takes a plus sign. So there are two kinds of groups that are read: two digits (`Pair`),
and a plus sign with one digit (`Signed`). What is read is written again in lower case, with a zero
for each sign. A text is therefore read as it should be exactly if it is not both read and signed;
`sign_is_read` is a text that is.

**What was written** (`written_read_back`). Between one byte and thirty-two an address is read as it
was written, and any other is refused. No two addresses are written alike, whatever their lengths:
only the empty text has no byte in it, and else the groups are found again.

Both directions go group by group: a group is one numeral (`byte?_eq_some`, `exists_byte?_iff`), and
the groups stand to the bytes as a list to a list.
-/

namespace NetRelocation

theorem Text.map_joinChars {f : Char → Char} {sep : Char} (h : f sep = sep)
    (ps : List (List Char)) : (joinChars sep ps).map f = joinChars sep (ps.map (List.map f)) := by
  induction ps with
  | nil => rfl
  | cons p ps ih =>
    cases ps with
    | nil => rfl
    | cons q ps =>
      rw [List.map_cons] at ih
      rw [joinChars_two, List.map_append, List.map_cons, ih, h, List.map_cons, List.map_cons,
        joinChars_two]

theorem Text.mem_joinChars_of_mem {sep c : Char} {p : List Char} {ps : List (List Char)}
    (hp : p ∈ ps) (hc : c ∈ p) : c ∈ joinChars sep ps := by
  induction ps with
  | nil => cases hp
  | cons q ps ih =>
    cases ps with
    | nil =>
      cases List.mem_singleton.1 hp
      exact hc
    | cons r ps =>
      rw [joinChars_two, List.mem_append, List.mem_cons]
      rcases List.mem_cons.1 hp with rfl | hp
      · exact .inl hc
      · exact .inr (.inr (ih hp))

namespace HardwareAddr

open Text.Numeral (hexDigit hexDigit? hexByte readNat fold)

/-! ## Digits -/

/-- A hexadecimal digit of either case. -/
def HexDigit (c : Char) : Prop := '0' ≤ c ∧ c ≤ '9' ∨ 'a' ≤ c ∧ c ≤ 'f' ∨ 'A' ≤ c ∧ c ≤ 'F'

theorem HexDigit.toNat_lt {c : Char} (h : HexDigit c) : c.toNat < 128 := by
  have hbound {d : Char} (hd : d.toNat < 128) (hc : c ≤ d) : c.toNat < 128 :=
    Nat.lt_of_le_of_lt hc hd
  rcases h with ⟨-, h⟩ | ⟨-, h⟩ | ⟨-, h⟩
  · exact hbound (by decide) h
  · exact hbound (by decide) h
  · exact hbound (by decide) h

theorem HexDigit.utf8Size {c : Char} (h : HexDigit c) : c.utf8Size = 1 :=
  Char.utf8Size_eq_one_iff.2 (UInt32.le_iff_toNat_le.2 (Nat.le_of_lt_succ h.toNat_lt))

theorem hexDigit_iff {c : Char} : HexDigit c ↔ ∃ d, hexDigit? c = some d := by
  unfold HexDigit hexDigit?
  by_cases h0 : '0' ≤ c ∧ c ≤ '9'
  · simp [h0]
  · by_cases ha : 'a' ≤ c ∧ c ≤ 'f'
    · simp [h0, ha]
    · by_cases hA : 'A' ≤ c ∧ c ≤ 'F'
      · simp [h0, ha, hA]
      · simp [h0, ha, hA]

theorem hexDigit_value {c : Char} {d : Nat} (h : hexDigit? c = some d) :
    d < 16 ∧ hexDigit d = c.toLower := by
  have hall : ∀ n < 128, ∀ d ∈ hexDigit? (Char.ofNat n),
      d < 16 ∧ hexDigit d = (Char.ofNat n).toLower := by
    decide +kernel
  have hc := hall c.toNat (hexDigit_iff.2 ⟨d, h⟩).toNat_lt d
  rw [Char.ofNat_toNat] at hc
  exact hc h

theorem HexDigit.ne_plus {c : Char} (h : HexDigit c) : c ≠ '+' := by
  rintro rfl
  unfold HexDigit at h
  exact absurd h (by decide)

theorem HexDigit.ne_colon {c : Char} (h : HexDigit c) : c ≠ ':' := by
  rintro rfl
  unfold HexDigit at h
  exact absurd h (by decide)

/-! ## Groups -/

/-- Two hexadecimal digits. -/
inductive Pair : List Char → Prop
  | mk {high low} (hhigh : HexDigit high) (hlow : HexDigit low) : Pair [high, low]

/-- A plus sign in the place of the first digit. -/
inductive Signed : List Char → Prop
  | mk {low} (hlow : HexDigit low) : Signed ['+', low]

/-- A character as it is written again. -/
def plain (c : Char) : Char := if c = '+' then '0' else c.toLower

theorem plain_of_digit {c : Char} {d : Nat} (h : hexDigit? c = some d) : plain c = hexDigit d := by
  rw [plain, if_neg (hexDigit_iff.2 ⟨d, h⟩).ne_plus, (hexDigit_value h).2]

theorem byteLength_cons (c : Char) (cs : List Char) :
    Text.Utf8.byteLength (c :: cs) = c.utf8Size + Text.Utf8.byteLength cs := by
  have hadd (cs : List Char) (n : Nat) :
      cs.foldl (fun n c => n + c.utf8Size) n = n + cs.foldl (fun n c => n + c.utf8Size) 0 := by
    induction cs generalizing n with
    | nil => rfl
    | cons c cs ih => rw [List.foldl_cons, List.foldl_cons, ih (n + _), ih (0 + _)]; omega
  rw [Text.Utf8.byteLength, List.foldl_cons, hadd, Nat.zero_add, Text.Utf8.byteLength]

theorem byteLength_digits {cs : List Char} (h : ∀ c ∈ cs, HexDigit c) :
    Text.Utf8.byteLength cs = cs.length := by
  induction cs with
  | nil => rfl
  | cons c cs ih =>
    obtain ⟨hc, hcs⟩ := List.forall_mem_cons.1 h
    rw [byteLength_cons, hc.utf8Size, ih hcs, List.length_cons, Nat.add_comm]

theorem hexByte_of_values {x y : Nat} (hx : x < 16) (hy : y < 16) :
    hexByte (UInt8.ofNat (x * 16 + y)) = [hexDigit x, hexDigit y] := by
  have hbyte : (UInt8.ofNat (x * 16 + y)).toNat = x * 16 + y := by
    rw [UInt8.toNat_ofNat']
    omega
  have hhigh : (x * 16 + y) / 16 = x := by omega
  have hlow : (x * 16 + y) % 16 = y := by omega
  rw [hexByte, hbyte, hhigh, hlow]

theorem byte?_pair {high low : Char} {x y : Nat} (hx : hexDigit? high = some x)
    (hy : hexDigit? low = some y) : byte? [high, low] = some (UInt8.ofNat (x * 16 + y)) := by
  have hlength : Text.Utf8.byteLength [high, low] = 2 := by
    refine byteLength_digits ?_
    simp [hexDigit_iff, hx, hy]
  have hfold : fold 16 hexDigit? 0 [high, low] = some (x * 16 + y) := by
    simp [fold, hx, hy]
  have hsmall : x * 16 + y < 256 := by
    have := (hexDigit_value hx).1
    have := (hexDigit_value hy).1
    omega
  rw [byte?, if_pos hlength, Text.Numeral.readNat_of_fold (by decide) Text.Numeral.knows_hex
    (List.cons_ne_nil _ _) hfold hsmall]

theorem byte?_signed {low : Char} {y : Nat} (hy : hexDigit? low = some y) :
    byte? ['+', low] = some (UInt8.ofNat y) := by
  have hlength : Text.Utf8.byteLength ['+', low] = 2 := by
    rw [byteLength_cons, byteLength_digits (by simp [hexDigit_iff, hy])]
    rfl
  have hfold : fold 16 hexDigit? 0 [low] = some y := by simp [fold, hy]
  have hsmall : y < 256 := Nat.lt_trans (hexDigit_value hy).1 (by decide)
  rw [byte?, if_pos hlength, Text.Numeral.readNat_plus (List.cons_ne_nil _ _),
    Text.Numeral.readDigits_of_fold (by decide) hfold hsmall]

/-- A group that is read is of one of the two kinds, for the group has two bytes and its digits have
one each. -/
theorem kind_of_byte? {cs : List Char} {b : UInt8} (h : byte? cs = some b) :
    Pair cs ∨ Signed cs := by
  unfold byte? at h
  split at h
  · rename_i hlength
    cases hread : readNat 16 256 hexDigit? cs with
    | error fault => simp [hread] at h
    | ok n =>
      obtain ⟨ds, hds, hfold⟩ := Text.Numeral.fold_of_readNat hread
      have hdigits : ∀ c ∈ ds, HexDigit c := fun c hc =>
        hexDigit_iff.2 (Option.ne_none_iff_exists'.1 (Text.Numeral.digit_of_fold hfold hc))
      rcases hds with rfl | rfl
      · rw [byteLength_digits hdigits] at hlength
        obtain ⟨high, low, rfl⟩ := List.length_eq_two.1 hlength
        exact .inl ⟨hdigits high (by simp), hdigits low (by simp)⟩
      · have hplus : '+'.utf8Size = 1 := rfl
        rw [byteLength_cons, byteLength_digits hdigits, hplus] at hlength
        obtain ⟨low, rfl⟩ := List.length_eq_one_iff.1 (Nat.add_left_cancel hlength)
        exact .inr ⟨hdigits low (by simp)⟩
  · cases h

/-- **What a group is read as** is written again in lower case, with a zero for the sign. -/
theorem byte?_eq_some {cs : List Char} (h : Pair cs ∨ Signed cs) :
    ∃ b, byte? cs = some b ∧ hexByte b = cs.map plain := by
  rcases h with ⟨hhigh, hlow⟩ | @⟨low, hlow⟩
  · obtain ⟨x, hx⟩ := hexDigit_iff.1 hhigh
    obtain ⟨y, hy⟩ := hexDigit_iff.1 hlow
    refine ⟨_, byte?_pair hx hy, ?_⟩
    rw [hexByte_of_values (hexDigit_value hx).1 (hexDigit_value hy).1, ← plain_of_digit hx,
      ← plain_of_digit hy]
    rfl
  · obtain ⟨y, hy⟩ := hexDigit_iff.1 hlow
    refine ⟨_, byte?_signed hy, ?_⟩
    have hzero := hexByte_of_values (by decide : 0 < 16) (hexDigit_value hy).1
    rw [Nat.zero_mul, Nat.zero_add, ← plain_of_digit hy] at hzero
    exact hzero

/-- The groups that are read. -/
theorem exists_byte?_iff {cs : List Char} : (∃ b, byte? cs = some b) ↔ Pair cs ∨ Signed cs :=
  ⟨fun ⟨_, h⟩ => kind_of_byte? h, fun h => (byte?_eq_some h).imp fun _ h => h.1⟩

theorem hexByte_of_byte? {cs : List Char} {b : UInt8} (h : byte? cs = some b) :
    hexByte b = cs.map plain := by
  obtain ⟨b', hb', hplain⟩ := byte?_eq_some (kind_of_byte? h)
  rw [h] at hb'
  cases hb'
  exact hplain

theorem colon_not_mem_group {cs : List Char} (h : Pair cs ∨ Signed cs) : ':' ∉ cs := by
  rcases h with ⟨hhigh, hlow⟩ | @⟨low, hlow⟩
  · simp [hhigh.ne_colon.symm, hlow.ne_colon.symm]
  · simp [hlow.ne_colon.symm]

theorem plus_not_mem_pair {cs : List Char} (h : Pair cs) : '+' ∉ cs := by
  obtain ⟨hhigh, hlow⟩ := h
  simp [hhigh.ne_plus.symm, hlow.ne_plus.symm]

/-! ## Texts -/

/-- A text of 1 to 32 groups with single colons between them. -/
def Grouped (group : List Char → Prop) (s : String) : Prop :=
  ∃ groups : List (List Char), 1 ≤ groups.length ∧ groups.length ≤ 32 ∧ (∀ g ∈ groups, group g) ∧
    s.toList = [':'].intercalate groups

theorem Grouped.mono {group group' : List Char → Prop} {s : String} (h : Grouped group s)
    (hgroup : ∀ g, group g → group' g) : Grouped group' s := by
  obtain ⟨groups, hsome, hfew, hall, htext⟩ := h
  exact ⟨groups, hsome, hfew, fun g hg => hgroup g (hall g hg), htext⟩

/-- The groups of an address that is read, with their bytes. -/
theorem parse_eq_ok_iff {s : String} {addr : HardwareAddr} :
    parse s = .ok addr ↔
      List.Forall₂ (fun p b => byte? p = some b) (Text.splitChars ':' s.toList) addr.bytes ∧
        addr.bytes.length ≤ 32 := by
  rw [← mapM_eq_some_iff]
  unfold parse bytes?
  cases (Text.splitChars ':' s.toList).mapM byte? with
  | none => simp
  | some bytes =>
    obtain ⟨bytes'⟩ := addr
    simp only [Option.some.injEq]
    by_cases hfew : bytes.length ≤ maxLength
    · rw [if_pos hfew]
      simp only [Except.ok.injEq, mk.injEq, iff_self_and]
      rintro rfl
      exact hfew
    · rw [if_neg hfew]
      simp only [reduceCtorEq, false_iff, not_and]
      rintro rfl
      exact hfew

theorem eq_of_parse_error {s : String} {cause : Invalid} (h : parse s = .error cause) :
    cause = .hardwareAddr s := by
  unfold parse at h
  split at h
  · cases h
  · cases h
    rfl

theorem exists_parse_iff {s : String} :
    (∃ addr, parse s = .ok addr) ↔ Grouped (fun g => Pair g ∨ Signed g) s := by
  constructor
  · rintro ⟨addr, h⟩
    obtain ⟨hgroups, hfew⟩ := parse_eq_ok_iff.1 h
    have hsome := List.length_pos_iff.2 (Text.splitChars_ne_nil ':' s.toList)
    have hkinds := hgroups.imp fun p b (hb : byte? p = some b) => And.intro (kind_of_byte? hb) hb
    refine ⟨Text.splitChars ':' s.toList, hsome, hgroups.length_eq ▸ hfew,
      ((List.forall₂_and_left _ _).1 hkinds).1, ?_⟩
    rw [← Text.joinChars_eq_intercalate, Text.joinChars_splitChars]
  · rintro ⟨groups, hsome, hfew, hgroups, htext⟩
    have hpieces : Text.splitChars ':' s.toList = groups := by
      rw [htext, ← Text.joinChars_eq_intercalate, Text.splitChars_joinChars]
      · exact List.length_pos_iff.1 hsome
      · exact fun g hg => colon_not_mem_group (hgroups g hg)
    choose! byte hbyte using fun g hg => exists_byte?_iff.2 (hgroups g hg)
    refine ⟨⟨groups.map byte⟩, parse_eq_ok_iff.2 ⟨?_, ?_⟩⟩
    · rw [hpieces, List.forall₂_map_right_iff, List.forall₂_same]
      exact hbyte
    · rw [List.length_map]
      exact hfew

/-- What is read is written again character by character. -/
theorem display_of_parse {s : String} {addr : HardwareAddr} (h : parse s = .ok addr) :
    addr.display = s.map plain := by
  have hgroups := (parse_eq_ok_iff.1 h).1
  have hplain := hgroups.imp fun p b (hb : byte? p = some b) => (hexByte_of_byte? hb).symm
  rw [← List.forall₂_map_right_iff, ← List.forall₂_map_left_iff, List.forall₂_eq_eq_eq] at hplain
  apply String.toList_injective
  rw [display, String.toList_ofList, ← hplain, ← Text.map_joinChars (by decide),
    Text.joinChars_splitChars, String.toList_map]

theorem Grouped.unsigned {s : String} (h : Grouped Pair s) :
    (∃ addr, parse s = .ok addr) ∧ '+' ∉ s.toList := by
  refine ⟨exists_parse_iff.2 (h.mono fun _ => .inl), ?_⟩
  obtain ⟨groups, -, -, hpairs, htext⟩ := h
  rw [htext, ← Text.joinChars_eq_intercalate]
  intro hplus
  obtain hcolon | ⟨g, hg, hmem⟩ := Text.mem_joinChars hplus
  · exact absurd hcolon (by decide)
  · exact plus_not_mem_pair (hpairs g hg) hmem

theorem grouped_of_parse {s : String} {addr : HardwareAddr} (h : parse s = .ok addr)
    (hplus : '+' ∉ s.toList) : Grouped Pair s := by
  obtain ⟨groups, hsome, hfew, hgroups, htext⟩ := exists_parse_iff.1 ⟨addr, h⟩
  refine ⟨groups, hsome, hfew, fun g hg => ?_, htext⟩
  refine (hgroups g hg).resolve_right fun ⟨_⟩ => hplus ?_
  rw [htext, ← Text.joinChars_eq_intercalate]
  exact Text.mem_joinChars_of_mem hg List.mem_cons_self

/-- **What is read.** A text is read exactly if it has 1 to 32 groups of two digits or of a sign and
a digit, and what was read is written again in lower case with a zero for each sign; any other text
is named by the error. So a text is read exactly as it should be, as groups of two digits that are
written again in lower case, unless it is read and has a sign. -/
theorem texts_read (s : String) :
    ((∃ addr, parse s = .ok addr) ↔ Grouped (fun g => Pair g ∨ Signed g) s) ∧
      (∀ addr, parse s = .ok addr →
        addr.display = s.map fun c => if c = '+' then '0' else c.toLower) ∧
      (∀ cause, parse s = .error cause → cause = .hardwareAddr s) ∧
      ((((∃ addr, parse s = .ok addr) ↔ Grouped Pair s) ∧
          ∀ addr, parse s = .ok addr → addr.display = s.toLower) ↔
        ¬ ((∃ addr, parse s = .ok addr) ∧ '+' ∈ s.toList)) := by
  refine ⟨exists_parse_iff, fun addr => display_of_parse, fun cause => eq_of_parse_error, ?_⟩
  constructor
  · rintro ⟨hgrammar, -⟩ ⟨hread, hplus⟩
    exact (hgrammar.1 hread).unsigned.2 hplus
  · intro hunsigned
    refine ⟨⟨fun ⟨addr, h⟩ => ?_, fun h => h.unsigned.1⟩, fun addr h => ?_⟩
    · exact grouped_of_parse h fun hplus => hunsigned ⟨⟨addr, h⟩, hplus⟩
    · have hplus : '+' ∉ s.toList := fun hplus => hunsigned ⟨⟨addr, h⟩, hplus⟩
      have hlower : s.toLower = s.map Char.toLower := rfl
      rw [display_of_parse h, hlower]
      apply String.toList_injective
      rw [String.toList_map, String.toList_map]
      refine List.map_congr_left fun c hc => if_neg ?_
      rintro rfl
      exact hplus hc

/-- A plus sign stands for a digit. -/
theorem sign_is_read :
    parse "+f" = .ok ⟨[15]⟩ ∧ ¬ Grouped Pair "+f" ∧ display ⟨[15]⟩ ≠ "+f".toLower :=
  ⟨rfl, fun h => h.unsigned.2 (by decide), by decide +kernel⟩

/-! ## Written addresses -/

/-- No two addresses are written alike. The empty text is that of no bytes, and no byte is found in
it. -/
theorem display_injective : Function.Injective display := by
  rintro ⟨bytes⟩ ⟨others⟩ h
  have hnone : (Text.splitChars ':' (display ⟨[]⟩).toList).mapM byte? = none := by decide
  by_cases hbytes : bytes = []
  · by_cases hothers : others = []
    · rw [hbytes, hothers]
    · have hread := mapM_display hothers
      rw [← h, hbytes, hnone] at hread
      cases hread
  · have hread := mapM_display hbytes
    by_cases hothers : others = []
    · rw [h, hothers, hnone] at hread
      cases hread
    · rw [h, mapM_display hothers, Option.some.injEq] at hread
      rw [hread]

/-- **What was written.** Of the addresses those of 1 to 32 bytes are read as they were written, and
the text of any other is refused. Two addresses that are written alike are the same. -/
theorem written_read_back (bytes : List UInt8) :
    parse (display ⟨bytes⟩) =
        (if 1 ≤ bytes.length ∧ bytes.length ≤ 32 then .ok ⟨bytes⟩
          else .error (.hardwareAddr (display ⟨bytes⟩))) ∧
      ∀ others, display ⟨bytes⟩ = display ⟨others⟩ → bytes = others := by
  refine ⟨?_, fun others h => congrArg HardwareAddr.bytes (display_injective h)⟩
  split
  · rename_i hreadable
    exact parse_display hreadable
  · rename_i hlength
    by_cases hbytes : bytes = []
    · subst hbytes
      rfl
    · have hmany : ¬ bytes.length ≤ maxLength := fun hfew =>
        hlength ⟨List.length_pos_iff.2 hbytes, hfew⟩
      rw [parse, bytes?, mapM_display hbytes]
      dsimp only
      rw [if_neg hmany]

end HardwareAddr

end NetRelocation
