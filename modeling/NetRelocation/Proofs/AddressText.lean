import Mathlib.Data.List.Forall2
import NetRelocation.Address.Hardware
import NetRelocation.Address.Network
import NetRelocation.Proofs.Numerals

/-!
# Addresses that were written

**Hardware addresses** (`HardwareAddr.parse_display`). An address with at least one byte and not too
many is read as it was written, and each address that was read is such a one
(`HardwareAddr.readable_of_parse`).

**Networks** (`Network.parse_display`). An address of either kind with a length is read as it was
written. For an IPv6 address three ways of writing it are to be told apart (`IPv6.display_cases`):
with an IPv4 address at the end, with a gap for the longest run of zeros, and in full. In each the
reader finds the gap where it was left, and puts as many zeros there as were left out
(`IPv6.groups_around`).

All pieces are found again because no piece holds the character that stands between them.
-/

namespace NetRelocation

/-! ## Pieces -/

namespace Text

variable {sep : Char} {p cs : List Char} {ps : List (List Char)}

theorem splitChars_of_not_mem (h : sep ∉ p) : splitChars sep p = [p] := by
  induction p with
  | nil => rfl
  | cons c p ih =>
    have hc : c ≠ sep := fun hc => h (hc ▸ List.mem_cons_self)
    rw [splitChars, if_neg hc, ih fun hp => h (List.mem_cons_of_mem c hp)]

theorem splitChars_append (h : sep ∉ p) :
    splitChars sep (p ++ sep :: cs) = p :: splitChars sep cs := by
  induction p with
  | nil => rw [List.nil_append, splitChars, if_pos rfl]
  | cons c p ih =>
    have hc : c ≠ sep := fun hc => h (hc ▸ List.mem_cons_self)
    rw [List.cons_append, splitChars, if_neg hc, ih fun hp => h (List.mem_cons_of_mem c hp)]

theorem joinChars_two (sep : Char) (p q : List Char) (ps : List (List Char)) :
    joinChars sep (p :: q :: ps) = p ++ sep :: joinChars sep (q :: ps) := by
  rw [joinChars]
  simp

/-- Pieces without the separator are found again. -/
theorem splitChars_joinChars (hne : ps ≠ []) (h : ∀ p ∈ ps, sep ∉ p) :
    splitChars sep (joinChars sep ps) = ps := by
  induction ps with
  | nil => exact absurd rfl hne
  | cons p ps ih =>
    obtain ⟨hp, hps⟩ := List.forall_mem_cons.1 h
    cases ps with
    | nil => exact splitChars_of_not_mem hp
    | cons q ps => rw [joinChars_two, splitChars_append hp, ih (List.cons_ne_nil q ps) hps]

theorem mem_joinChars {c : Char} (h : c ∈ joinChars sep ps) : c = sep ∨ ∃ p ∈ ps, c ∈ p := by
  induction ps with
  | nil => cases h
  | cons p ps ih =>
    cases ps with
    | nil => exact .inr ⟨p, List.mem_cons_self, h⟩
    | cons q ps =>
      rw [joinChars_two, List.mem_append, List.mem_cons] at h
      rcases h with hp | rfl | hrest
      · exact .inr ⟨p, List.mem_cons_self, hp⟩
      · exact .inl rfl
      · exact (ih hrest).imp_right fun ⟨r, hr, hc⟩ => ⟨r, List.mem_cons_of_mem p hr, hc⟩

theorem joinChars_eq_intercalate (sep : Char) (ps : List (List Char)) :
    joinChars sep ps = [sep].intercalate ps := by
  induction ps with
  | nil => rfl
  | cons p ps ih =>
    cases ps with
    | nil => rw [List.intercalate_singleton, joinChars]
    | cons q ps =>
      rw [joinChars_two, ih, List.intercalate_cons_cons, List.append_assoc]
      rfl

theorem toList_join (sep : Char) (ss : List String) :
    (join (String.singleton sep) ss).toList = joinChars sep (ss.map String.toList) := by
  rw [join, String.toList_intercalate, joinChars_eq_intercalate, String.toList_singleton]

end Text

/-! ## Hardware addresses -/

namespace HardwareAddr

/-- An address that can be read: there is a byte, and there are not too many. -/
def Readable (addr : HardwareAddr) : Prop :=
  1 ≤ addr.bytes.length ∧ addr.bytes.length ≤ 32

theorem byte?_hexByte (b : UInt8) : byte? (Text.Numeral.hexByte b) = some b := by
  have hall : ∀ n < 256, byte? (Text.Numeral.hexByte (UInt8.ofNat n)) = some (UInt8.ofNat n) := by
    decide +kernel
  simpa using hall b.toNat b.toNat_lt

theorem colon_not_mem_hexByte (b : UInt8) : ':' ∉ Text.Numeral.hexByte b := by
  have hall : ∀ n < 256, ':' ∉ Text.Numeral.hexByte (UInt8.ofNat n) := by decide +kernel
  simpa using hall b.toNat b.toNat_lt

theorem mapM_byte? (bytes : List UInt8) :
    (bytes.map Text.Numeral.hexByte).mapM byte? = some bytes := by
  induction bytes with
  | nil => rfl
  | cons b bytes ih =>
    rw [List.map_cons, List.mapM_cons, byte?_hexByte, ih]
    rfl

theorem mapM_display {bytes : List UInt8} (hsome : bytes ≠ []) :
    (Text.splitChars ':' (display ⟨bytes⟩).toList).mapM byte? = some bytes := by
  have hne : bytes.map Text.Numeral.hexByte ≠ [] := fun hnil => hsome (List.map_eq_nil_iff.1 hnil)
  have hpieces : ∀ p ∈ bytes.map Text.Numeral.hexByte, ':' ∉ p := by
    intro p hp
    obtain ⟨b, -, rfl⟩ := List.mem_map.1 hp
    exact colon_not_mem_hexByte b
  rw [display, String.toList_ofList, Text.splitChars_joinChars hne hpieces, mapM_byte?]

/-- **Hardware addresses.** What is written of an address that can be read is read as the
address. -/
theorem parse_display {addr : HardwareAddr} (h : addr.Readable) :
    parse addr.display = .ok addr := by
  obtain ⟨hsome, hfew⟩ := h
  rw [parse, bytes?, mapM_display (List.length_pos_iff.1 hsome)]
  dsimp only
  rw [maxLength, if_pos hfew]

theorem mapM_eq_some_iff {f : List Char → Option UInt8} {pieces : List (List Char)}
    {bytes : List UInt8} :
    pieces.mapM f = some bytes ↔ List.Forall₂ (fun p b => f p = some b) pieces bytes := by
  induction pieces generalizing bytes with
  | nil => simp [eq_comm]
  | cons p pieces ih =>
    rw [List.mapM_cons, List.forall₂_cons_left_iff]
    cases hp : f p with
    | none => simp
    | some b =>
      cases hps : pieces.mapM f with
      | none => simp [← ih, hps]
      | some bs => simp [← ih, hps, eq_comm]

theorem readable_of_parse {s : String} {addr : HardwareAddr} (h : parse s = .ok addr) :
    addr.Readable := by
  unfold parse at h
  cases hbytes : bytes? s.toList with
  | none => simp [hbytes] at h
  | some bytes =>
    rw [hbytes] at h
    cases h
    unfold bytes? at hbytes
    cases hmap : (Text.splitChars ':' s.toList).mapM byte? with
    | none => simp [hmap] at hbytes
    | some bytes' =>
      rw [hmap] at hbytes
      dsimp only at hbytes
      split at hbytes
      · rename_i hfew
        cases hbytes
        have hlength := (mapM_eq_some_iff.1 hmap).length_eq
        have hsome := List.length_pos_iff.2 (Text.splitChars_ne_nil ':' s.toList)
        exact ⟨hlength ▸ hsome, hfew⟩
      · cases hbytes

end HardwareAddr

/-! ## IPv4 addresses -/

namespace Text.Numeral

theorem digit_of_fold {base acc n : Nat} {digit : Char → Option Nat} {cs : List Char}
    (h : fold base digit acc cs = some n) {c : Char} (hc : c ∈ cs) : digit c ≠ none := by
  induction cs generalizing acc with
  | nil => cases hc
  | cons c' cs ih =>
    rw [fold] at h
    cases hd : digit c' with
    | none => simp [hd] at h
    | some d =>
      rw [hd] at h
      rcases List.mem_cons.1 hc with rfl | hc
      · simp [hd]
      · exact ih h hc

theorem not_mem_toDigits {base : Nat} {digit : Char → Option Nat} (hbase : 1 < base)
    (h : Knows digit base) {c : Char} (hc : digit c = none) (n : Nat) :
    c ∉ Nat.toDigits base n :=
  fun hmem => digit_of_fold (fold_toDigits hbase h n) hmem hc

theorem not_mem_decimalDigits {c : Char} (hc : digit? c = none) (n : Nat) :
    c ∉ decimalDigits n := not_mem_toDigits (by decide) knows_decimal hc n

theorem not_mem_hexDigits {c : Char} (hc : hexDigit? c = none) (n : Nat) : c ∉ hexDigits n :=
  not_mem_toDigits (by decide) knows_hex hc n

end Text.Numeral

open Text.Numeral (decimalDigits hexDigits not_mem_decimalDigits not_mem_hexDigits)

namespace IPv4

theorem octet?_decimalDigits (o : UInt8) : octet? (decimalDigits o.toNat) = some o := by
  have hfold := Text.Numeral.fold_toDigits (by decide) Text.Numeral.knows_decimal o.toNat
  unfold octet?
  split
  · rename_i hdigits
    exact absurd hdigits Nat.toDigits_ne_nil
  · rename_i hdigits
    exact absurd hdigits Text.Numeral.decimalDigits_ne_zero_cons
  · rw [decimalDigits, hfold]
    dsimp only
    rw [if_pos o.toNat_lt]
    simp

theorem toList_display (ip : IPv4) :
    ip.display.toList = Text.joinChars '.' (ip.octets.map fun o => decimalDigits o.toNat) := by
  have hdot : "." = String.singleton '.' := rfl
  rw [display, hdot, Text.toList_join, List.map_map]
  congr 2
  funext o
  exact String.toList_ofList

theorem ofChars?_display (ip : IPv4) : ofChars? ip.display.toList = some ip := by
  have hpieces : ∀ p ∈ ip.octets.map fun o => decimalDigits o.toNat, '.' ∉ p := by
    intro p hp
    obtain ⟨o, -, rfl⟩ := List.mem_map.1 hp
    exact not_mem_decimalDigits rfl _
  rw [toList_display, ofChars?, Text.splitChars_joinChars (by simp [octets]) hpieces]
  simp only [octets, List.map_cons, List.map_nil, octet?_decimalDigits]

/-- Only digits and dots are read. -/
theorem ofChars?_eq_none {cs : List Char} {c : Char} (hc : c ∈ cs) (hdot : c ≠ '.')
    (hdigit : Text.Numeral.digit? c = none) : ofChars? cs = none := by
  have hoctet : ∀ p : List Char, c ∈ p → octet? p = none := by
    intro p hp
    unfold octet?
    split
    · rfl
    · rfl
    · cases hfold : Text.Numeral.fold 10 Text.Numeral.digit? 0 p with
      | none => rfl
      | some n => exact absurd hdigit (Text.Numeral.digit_of_fold hfold hp)
  have hmem : ∃ p ∈ Text.splitChars '.' cs, c ∈ p := by
    rw [← Text.joinChars_splitChars '.' cs] at hc
    exact (Text.mem_joinChars hc).resolve_left hdot
  unfold ofChars?
  split
  · rename_i p q r s hsplit
    rw [hsplit] at hmem
    obtain ⟨x, hx, hcx⟩ := hmem
    have hnone := hoctet x hcx
    split
    · simp only [List.mem_cons, List.not_mem_nil, or_false] at hx
      rcases hx with rfl | rfl | rfl | rfl <;> simp_all
    · rfl
  · rfl

theorem ofChars?_eq_none_of_no_dot {cs : List Char} (h : '.' ∉ cs) : ofChars? cs = none := by
  rw [ofChars?, Text.splitChars_of_not_mem h]

theorem not_mem_display {c : Char} (hdot : c ≠ '.') (hdigit : Text.Numeral.digit? c = none)
    (ip : IPv4) : c ∉ ip.display.toList := by
  intro h
  rw [toList_display] at h
  obtain hc | ⟨p, hp, hc⟩ := Text.mem_joinChars h
  · exact hdot hc
  · obtain ⟨o, -, rfl⟩ := List.mem_map.1 hp
    exact not_mem_decimalDigits hdigit _ hc

theorem colon_not_mem_display (ip : IPv4) : ':' ∉ ip.display.toList :=
  not_mem_display (by decide) rfl ip

theorem slash_not_mem_display (ip : IPv4) : '/' ∉ ip.display.toList :=
  not_mem_display (by decide) rfl ip

end IPv4

/-! ## IPv6 addresses -/

namespace IPv6

def pieces (gs : List UInt16) : List (List Char) := gs.map fun g => hexDigits g.toNat

theorem group?_hexDigits (g : UInt16) : group? (hexDigits g.toNat) = some g := by
  have hg : g.toNat < 16 ^ 4 := g.toNat_lt
  have hlength : (hexDigits g.toNat).length ≤ 4 :=
    (Nat.length_toDigits_le_iff (by decide) (by decide)).2 hg
  have hne : hexDigits g.toNat ≠ [] := Nat.toDigits_ne_nil
  have hfold : Text.Numeral.fold 16 Text.Numeral.hexDigit? 0 (hexDigits g.toNat) = some g.toNat :=
    Text.Numeral.fold_toDigits (by decide) Text.Numeral.knows_hex g.toNat
  rw [group?, if_neg, hfold]
  · simp
  · rw [List.isEmpty_iff]
    rintro (hnil | hlong)
    · exact hne hnil
    · omega

theorem groupsOfPieces?_pieces {gs : List UInt16} : groupsOfPieces? (pieces gs) = some gs := by
  induction gs with
  | nil => rfl
  | cons g gs ih =>
    cases gs with
    | nil =>
      have hdot : '.' ∉ hexDigits g.toNat := not_mem_hexDigits rfl _
      rw [pieces, List.map_singleton, groupsOfPieces?, IPv4.ofChars?_eq_none_of_no_dot hdot]
      simp [group?_hexDigits]
    | cons h gs =>
      have hcons : pieces (g :: h :: gs) = hexDigits g.toNat :: pieces (h :: gs) := rfl
      rw [hcons, groupsOfPieces?, group?_hexDigits, ih]
      simp [pieces]

theorem piece_facts {gs : List UInt16} {p : List Char} (hp : p ∈ pieces gs) :
    p ≠ [] ∧ ':' ∉ p ∧ '.' ∉ p ∧ '/' ∉ p := by
  obtain ⟨g, -, rfl⟩ := List.mem_map.1 hp
  exact ⟨Nat.toDigits_ne_nil, not_mem_hexDigits rfl _, not_mem_hexDigits rfl _,
    not_mem_hexDigits rfl _⟩

theorem joinChars_pieces_eq_cons (g : UInt16) (gs : List UInt16) :
    ∃ c cs, Text.joinChars ':' (pieces (g :: gs)) = c :: cs ∧ c ≠ ':' := by
  have hcolon : ':' ∉ hexDigits g.toNat := not_mem_hexDigits rfl _
  cases hg : hexDigits g.toNat with
  | nil => exact absurd hg Nat.toDigits_ne_nil
  | cons c cs =>
    rw [hg] at hcolon
    have hc : c ≠ ':' := fun hc => hcolon (hc ▸ List.mem_cons_self)
    cases gs with
    | nil => exact ⟨c, cs, hg, hc⟩
    | cons h gs =>
      have hjoin : Text.joinChars ':' (pieces (g :: h :: gs)) =
          hexDigits g.toNat ++ ':' :: Text.joinChars ':' (pieces (h :: gs)) :=
        Text.joinChars_two ':' _ _ _
      exact ⟨c, _, by rw [hjoin, hg]; rfl, hc⟩

theorem groups?_pieces (gs : List UInt16) :
    groups? (Text.joinChars ':' (pieces gs)) = some gs := by
  cases gs with
  | nil => rfl
  | cons g gs =>
    have hne : Text.joinChars ':' (pieces (g :: gs)) ≠ [] := by
      obtain ⟨c, cs, hcs, -⟩ := joinChars_pieces_eq_cons g gs
      simp [hcs]
    have hsplit : Text.splitChars ':' (Text.joinChars ':' (pieces (g :: gs))) = pieces (g :: gs) :=
      Text.splitChars_joinChars (by simp [pieces]) fun p hp => (piece_facts hp).2.1
    rw [groups?, if_neg (by simpa using hne), hsplit, groupsOfPieces?_pieces]

/-! ### The gap -/

theorem cutAtGap_append {p : List Char} (hp : ':' ∉ p) (cs : List Char) :
    cutAtGap (p ++ cs) = (cutAtGap cs).map fun r => (p ++ r.1, r.2) := by
  induction p with
  | nil => simp
  | cons c p ih =>
    have hc : c ≠ ':' := fun hc => hp (hc ▸ List.mem_cons_self)
    rw [List.cons_append, cutAtGap, ih fun hmem => hp (List.mem_cons_of_mem c hmem)]
    · simp [Function.comp_def]
    · exact fun _ h => absurd h hc

theorem cutAtGap_colon {c : Char} (hc : c ≠ ':') (cs : List Char) :
    cutAtGap (':' :: c :: cs) = (cutAtGap (c :: cs)).map fun r => (':' :: r.1, r.2) := by
  rw [cutAtGap]
  exact fun _ _ h => absurd (List.cons.inj h).1 hc

/-- Groups between colons have no gap in them. -/
theorem cutAtGap_pieces (gs : List UInt16) (cs : List Char) :
    cutAtGap (Text.joinChars ':' (pieces gs) ++ cs) =
      (cutAtGap cs).map fun r => (Text.joinChars ':' (pieces gs) ++ r.1, r.2) := by
  induction gs with
  | nil => simp [pieces, Text.joinChars]
  | cons g gs ih =>
    have hg : ':' ∉ hexDigits g.toNat := not_mem_hexDigits rfl _
    cases gs with
    | nil => exact cutAtGap_append hg cs
    | cons h gs =>
      have hjoin : Text.joinChars ':' (pieces (g :: h :: gs)) =
          hexDigits g.toNat ++ ':' :: Text.joinChars ':' (pieces (h :: gs)) :=
        Text.joinChars_two ':' _ _ _
      obtain ⟨c, rest, hrest, hc⟩ := joinChars_pieces_eq_cons h gs
      have hcolon := cutAtGap_colon hc (rest ++ cs)
      rw [← List.cons_append, ← hrest, ih] at hcolon
      rw [hjoin, List.append_assoc, cutAtGap_append hg, List.cons_append, hcolon]
      simp [Function.comp_def]

/-! ### The groups left out -/

/-- What is known of a run: from its start on there are so many zero groups. -/
theorem longestRun_le (gs full : List UInt16) (i : Nat) (best : Nat × Nat)
    (hfull : full.drop i = gs) (hbest : best.2 ≤ zeros (full.drop best.1)) :
    (longestRun best i gs).2 ≤ zeros (full.drop (longestRun best i gs).1) := by
  induction gs generalizing i best with
  | nil => exact hbest
  | cons g gs ih =>
    have hnext : full.drop (i + 1) = gs := by
      rw [← List.drop_drop, hfull]
      rfl
    rw [longestRun]
    refine ih (i + 1) _ hnext ?_
    split
    · exact Nat.le_of_eq (congrArg zeros hfull.symm)
    · exact hbest

theorem take_of_le_zeros {gs : List UInt16} {size : Nat} (h : size ≤ zeros gs) :
    gs.take size = List.replicate size 0 := by
  induction gs generalizing size with
  | nil =>
    have hsize : size = 0 := Nat.le_zero.1 h
    rw [hsize]
    rfl
  | cons g gs ih =>
    cases size with
    | zero => rfl
    | succ size =>
      by_cases hg : g = 0
      · have hzeros : zeros (g :: gs) = zeros gs + 1 := by simp [zeros, hg]
        rw [hzeros] at h
        rw [List.take_succ_cons, ih (Nat.le_of_succ_le_succ h), hg, List.replicate_succ]
      · have hzeros : zeros (g :: gs) = 0 := by simp [zeros, hg]
        omega

theorem groups_around (gs : List UInt16) (start size : Nat) (h : size ≤ zeros (gs.drop start)) :
    gs.take start ++ List.replicate size 0 ++ gs.drop (start + size) = gs := by
  have hrun : (gs.drop start).take size = List.replicate size 0 := take_of_le_zeros h
  rw [← hrun, List.append_assoc, ← List.drop_drop, List.take_append_drop, List.take_append_drop]

theorem toList_displayGroups (gs : List UInt16) :
    (displayGroups gs).toList = Text.joinChars ':' (pieces gs) := by
  have hcolon : ":" = String.singleton ':' := rfl
  rw [displayGroups, hcolon, Text.toList_join, List.map_map]
  congr 2
  funext g
  exact String.toList_ofList

theorem dot_not_mem_pieces (gs : List UInt16) : '.' ∉ Text.joinChars ':' (pieces gs) := by
  intro h
  obtain hdot | ⟨p, hp, hc⟩ := Text.mem_joinChars h
  · cases hdot
  · exact (piece_facts hp).2.2.1 hc

theorem slash_not_mem_pieces (gs : List UInt16) : '/' ∉ Text.joinChars ':' (pieces gs) := by
  intro h
  obtain hslash | ⟨p, hp, hc⟩ := Text.mem_joinChars h
  · cases hslash
  · exact (piece_facts hp).2.2.2 hc

theorem ofChars?_pieces {gs : List UInt16} (h : gs.length = 8) :
    ofChars? (Text.joinChars ':' (pieces gs)) = some ⟨gs, h⟩ := by
  have hgap : cutAtGap (Text.joinChars ':' (pieces gs)) = none := by
    have hcut := cutAtGap_pieces gs []
    rwa [List.append_nil] at hcut
  rw [ofChars?, hgap]
  dsimp only
  rw [groups?_pieces, Option.bind_some, ofGroups?, dif_pos h]

/-- Groups around a gap are read, with zeros for the gap. -/
theorem ofChars?_gap {gs hs ts : List UInt16} {size : Nat} {tail : List Char}
    (h : gs.length = 8) (htail : groups? tail = some ts) (hsize : 1 ≤ size)
    (hgs : hs ++ List.replicate size 0 ++ ts = gs) :
    ofChars? (Text.joinChars ':' (pieces hs) ++ ':' :: ':' :: tail) = some ⟨gs, h⟩ := by
  have hgap : cutAtGap (Text.joinChars ':' (pieces hs) ++ ':' :: ':' :: tail) =
      some (Text.joinChars ':' (pieces hs), tail) := by
    rw [cutAtGap_pieces, cutAtGap]
    simp
  have hlength : hs.length + size + ts.length = 8 := by
    rw [← h, ← hgs]
    simp [Nat.add_assoc]
  have hfew : hs.length + ts.length ≤ 7 := by omega
  have hmissing : 8 - (hs.length + ts.length) = size := by omega
  rw [ofChars?, hgap]
  dsimp only
  rw [if_neg (by simpa using dot_not_mem_pieces hs), groups?_pieces, htail]
  dsimp only
  rw [if_pos hfew, hmissing, hgs, ofGroups?, dif_pos h]

/-- The address that two groups hold. -/
def held (g h : UInt16) : IPv4 :=
  ⟨UInt8.ofNat (g.toNat / 256), UInt8.ofNat (g.toNat % 256), UInt8.ofNat (h.toNat / 256),
    UInt8.ofNat (h.toNat % 256)⟩

theorem embedded_held (g h : UInt16) : embedded (held g h) = [g, h] := by
  have hone (g : UInt16) : UInt16.ofNat ((UInt8.ofNat (g.toNat / 256)).toNat * 256 +
      (UInt8.ofNat (g.toNat % 256)).toNat) = g := by
    have hg := g.toNat_lt
    have hhigh : (UInt8.ofNat (g.toNat / 256)).toNat = g.toNat / 256 := by
      rw [UInt8.toNat_ofNat']
      omega
    have hlow : (UInt8.ofNat (g.toNat % 256)).toNat = g.toNat % 256 := by
      rw [UInt8.toNat_ofNat']
      omega
    rw [hhigh, hlow, Nat.div_add_mod']
    simp
  simp only [embedded, held, hone]

/-- Groups that hold an address of the other kind are read. -/
theorem groups?_held (g h : UInt16) :
    groups? (['f', 'f', 'f', 'f'] ++ ':' :: (held g h).display.toList) =
      some [0xFFFF, g, h] := by
  have hffff : group? ['f', 'f', 'f', 'f'] = some 0xFFFF := by decide
  have hlast : groupsOfPieces? [(held g h).display.toList] = some [g, h] := by
    rw [groupsOfPieces?, IPv4.ofChars?_display]
    exact congrArg some (embedded_held g h)
  rw [groups?, if_neg (by simp), Text.splitChars_append (by decide),
    Text.splitChars_of_not_mem (IPv4.colon_not_mem_display _), groupsOfPieces?, hffff, hlast]
  simp

/-- How an address is written: with a gap for zero groups, or all of it. -/
theorem display_cases (ip : IPv6) :
    (∃ hs ts size tail,
      ip.display.toList = Text.joinChars ':' (pieces hs) ++ ':' :: ':' :: tail ∧
      groups? tail = some ts ∧ '/' ∉ tail ∧ 1 ≤ size ∧
      hs ++ List.replicate size 0 ++ ts = ip.groups) ∨
    ip.display.toList = Text.joinChars ':' (pieces ip.groups) := by
  obtain ⟨gs, hgs⟩ := ip
  unfold display
  dsimp only
  split
  · rename_i g h
    refine .inl ⟨[], [0xFFFF, g, h], 5, _, ?_, groups?_held g h, ?_, by decide, rfl⟩
    · rw [String.toList_append]
      rfl
    · have hslash := IPv4.slash_not_mem_display (held g h)
      simpa using hslash
  · have hrun := longestRun_le gs gs 0 (0, 0) rfl (Nat.zero_le _)
    generalize longestRun (0, 0) 0 gs = run at hrun
    obtain ⟨start, size⟩ := run
    dsimp only at hrun ⊢
    split
    · rename_i hsize
      refine .inl ⟨gs.take start, gs.drop (start + size), size, _, ?_, groups?_pieces _,
        slash_not_mem_pieces _, Nat.le_of_lt hsize, groups_around gs start size hrun⟩
      rw [String.toList_append, String.toList_append, toList_displayGroups, toList_displayGroups,
        List.append_assoc]
      rfl
    · exact .inr (toList_displayGroups gs)

/-- **IPv6 addresses.** What is written of an address is read as the address. -/
theorem ofChars?_display (ip : IPv6) : ofChars? ip.display.toList = some ip := by
  obtain ⟨hs, ts, size, tail, hchars, htail, -, hsize, hgs⟩ | hchars := display_cases ip
  · rw [hchars]
    exact ofChars?_gap ip.size_eq htail hsize hgs
  · rw [hchars]
    exact ofChars?_pieces ip.size_eq

theorem slash_not_mem_display (ip : IPv6) : '/' ∉ ip.display.toList := by
  obtain ⟨hs, ts, size, tail, hchars, -, hslash, -, -⟩ | hchars := display_cases ip
  · rw [hchars]
    simp [hslash, slash_not_mem_pieces]
  · rw [hchars]
    exact slash_not_mem_pieces _

/-- An address has a colon. -/
theorem colon_mem_display (ip : IPv6) : ':' ∈ ip.display.toList := by
  obtain ⟨hs, ts, size, tail, hchars, -, -, -, -⟩ | hchars := display_cases ip
  · rw [hchars]
    simp
  · obtain ⟨gs, hgs⟩ := ip
    rw [hchars]
    match gs, hgs with
    | g :: h :: gs, _ =>
      have hjoin : Text.joinChars ':' (pieces (g :: h :: gs)) =
          hexDigits g.toNat ++ ':' :: Text.joinChars ':' (pieces (h :: gs)) :=
        Text.joinChars_two ':' _ _ _
      simp [hjoin]

end IPv6

/-! ## Networks -/

namespace Network

theorem length?_decimalDigits {max n : Nat} (hn : n < max + 1) (hmax : max < 256) :
    length? max (decimalDigits n) = some ⟨n, hn⟩ := by
  have hread : Text.Numeral.readNat 10 UInt8.size Text.Numeral.digit? (decimalDigits n) = .ok n :=
    Text.Numeral.readNat_toDigits (by decide) Text.Numeral.knows_decimal (by
      simp only [UInt8.size]
      omega)
  have hsmall : (UInt8.ofNat n).toNat = n := by
    rw [UInt8.toNat_ofNat']
    omega
  simp only [length?, Text.Numeral.readUInt8, hread, Except.map, hsmall, hn, dif_pos]

theorem slash_not_mem_host (net : Network) : '/' ∉ net.host.toList := by
  cases net with
  | v4 ip length => exact IPv4.slash_not_mem_display ip
  | v6 ip length => exact IPv6.slash_not_mem_display ip

theorem cutAtSlash?_display (net : Network) :
    cutAtSlash? net.display.toList = some (net.host.toList, some (decimalDigits net.bits)) := by
  have hchars : net.display.toList = net.host.toList ++ '/' :: decimalDigits net.bits := by
    simp [display, Text.Numeral.decimal]
  rw [hchars, cutAtSlash?, Text.splitChars_append (slash_not_mem_host net),
    Text.splitChars_of_not_mem (not_mem_decimalDigits rfl _)]

/-- **Networks.** What is written of an address with a length is read as both. -/
theorem parse_display (net : Network) : parse net.display = .ok net := by
  have hread : ofString? net.display = some net := by
    rw [ofString?, cutAtSlash?_display]
    dsimp only
    cases net with
    | v4 ip length =>
      have hmask : IPv4.ofChars? (decimalDigits length) = none :=
        IPv4.ofChars?_eq_none_of_no_dot (not_mem_decimalDigits rfl _)
      have hlength := length?_decimalDigits length.isLt (by decide)
      simp only [host, bits, readV4?, IPv4.ofChars?_display, hmask, hlength, Option.map_some,
        Option.some_or]
    | v6 ip length =>
      have hother : IPv4.ofChars? ip.display.toList = none :=
        IPv4.ofChars?_eq_none (IPv6.colon_mem_display ip) (by decide) rfl
      have hlength := length?_decimalDigits length.isLt (by decide)
      simp only [host, bits, readV4?, hother, readV6?, IPv6.ofChars?_display, hlength,
        Option.map_some, Option.none_or]
  rw [parse, hread]

end Network

end NetRelocation
