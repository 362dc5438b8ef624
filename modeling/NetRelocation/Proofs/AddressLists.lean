import Mathlib.Data.List.Forall2
import NetRelocation.Proofs.Grants
import NetRelocation.Proofs.HardwareTexts
import NetRelocation.Proofs.Trimming

/-!
# Lists of addresses

The addresses of a device are one attribute, a text with commas between its items.

**Theorem (`address_lists_read`).** Addresses that are written in order, with blanks around them and
blank items among them (`Entries`), are read as these addresses, and a device that is prepared gets
them. A text cannot be read exactly if one of its items is refused, that is, is neither blank nor an
address without the blanks around it, and then the first such item is blamed.

The items are found again because a comma is neither a blank nor in an address
(`Entries.addressItems_eq`). The blanks around an address are all that trimming takes away
(`Text.trim_eq_iff`), since the address has none. A text is read up to the first item that is
refused (`parseAddressList_eq_error_iff`).
-/

namespace NetRelocation

/-! ## Pieces and blanks -/

namespace Text

/-- Texts without the separator are found again between separators. -/
theorem split_join {sep : Char} {items : List String} (hne : items ≠ [])
    (h : ∀ item ∈ items, sep ∉ item.toList) :
    split sep (join (String.singleton sep) items) = items := by
  have hpieces : ∀ p ∈ items.map String.toList, sep ∉ p := by
    intro p hp
    obtain ⟨item, hitem, rfl⟩ := List.mem_map.1 hp
    exact h item hitem
  rw [split, toList_join, splitChars_joinChars (by simpa using hne) hpieces, List.map_map]
  simp [Function.comp_def]

theorem comma_not_mem_of_blank {s : String} (h : isBlankText s = true) : ',' ∉ s.toList := by
  intro hcomma
  have hblank := isBlankText_iff.1 h ',' hcomma
  cases hblank

namespace Numeral

theorem digit?_of_hexDigit? {c : Char} (h : hexDigit? c = none) : digit? c = none := by
  unfold hexDigit? at h
  unfold digit?
  split at h
  · cases h
  · rename_i hc
    exact if_neg hc

theorem hexDigit?_of_blank {c : Char} (h : isBlank c = true) : hexDigit? c = none := by
  have hall : ∀ n < 128, isBlank (Char.ofNat n) = true → hexDigit? (Char.ofNat n) = none := by
    decide +kernel
  cases hd : hexDigit? c with
  | none => rfl
  | some d =>
    have hc := hall c.toNat (HardwareAddr.hexDigit_iff.2 ⟨d, hd⟩).toNat_lt
    rw [Char.ofNat_toNat, hd] at hc
    exact hc h

end Numeral

end Text

/-! ## What written addresses are made of -/

open Text.Numeral (hexDigit? decimal digit?_of_hexDigit? hexDigit?_of_blank
  not_mem_decimalDigits not_mem_hexDigits)

theorem IPv6.not_mem_display {c : Char} (hcolon : c ≠ ':') (hdot : c ≠ '.')
    (hhex : hexDigit? c = none) (ip : IPv6) : c ∉ ip.display.toList := by
  have hgroups (gs : List UInt16) : c ∉ (displayGroups gs).toList := by
    intro h
    rw [toList_displayGroups] at h
    obtain h | ⟨p, hp, hc⟩ := Text.mem_joinChars h
    · exact hcolon h
    · obtain ⟨g, -, rfl⟩ := List.mem_map.1 hp
      exact not_mem_hexDigits hhex _ hc
  have hf : c ≠ 'f' := by
    rintro rfl
    cases hhex
  unfold display
  split
  · rw [String.toList_append, List.mem_append, not_or]
    exact ⟨by simp [hcolon, hf], IPv4.not_mem_display hdot (digit?_of_hexDigit? hhex) _⟩
  · dsimp only
    split
    · rw [String.toList_append, String.toList_append, List.mem_append, List.mem_append, not_or,
        not_or]
      exact ⟨⟨hgroups _, by simp [hcolon]⟩, hgroups _⟩
    · exact hgroups _

namespace Network

theorem not_mem_display {c : Char} (hcolon : c ≠ ':') (hdot : c ≠ '.') (hslash : c ≠ '/')
    (hhex : hexDigit? c = none) (net : Network) : c ∉ net.display.toList := by
  have hhost : c ∉ net.host.toList := by
    cases net with
    | v4 ip length => exact IPv4.not_mem_display hdot (digit?_of_hexDigit? hhex) ip
    | v6 ip length => exact IPv6.not_mem_display hcolon hdot hhex ip
  have hbits := not_mem_decimalDigits (digit?_of_hexDigit? hhex) net.bits
  simp [display, decimal, hhost, hslash, hbits]

theorem comma_not_mem_display (net : Network) : ',' ∉ net.display.toList :=
  not_mem_display (by decide) (by decide) (by decide) rfl net

theorem not_blank_of_mem_display (net : Network) :
    ∀ c ∈ net.display.toList, Text.isBlank c = false := by
  intro c hc
  by_contra hblank
  rw [Bool.not_eq_false] at hblank
  have hne {d : Char} (hd : Text.isBlank d = false) : c ≠ d := by
    rintro rfl
    rw [hd] at hblank
    cases hblank
  exact not_mem_display (hne rfl) (hne rfl) (hne rfl) (hexDigit?_of_blank hblank) net hc

theorem trimmed_display (net : Network) : Text.Trimmed net.display.toList :=
  Text.trimmed_of_no_blank net.not_blank_of_mem_display

theorem display_ne_empty (net : Network) : net.display ≠ "" := by
  intro h
  have hslash : '/' ∈ net.display.toList := by simp [display]
  simp [h] at hslash

theorem parse_eq_ok_iff {s : String} {net : Network} :
    parse s = .ok net ↔ ofString? s = some net := by
  unfold parse
  split
  · rename_i found hfound
    simp [hfound]
  · rename_i hnone
    simp [hnone]

theorem parse_eq_error_iff {s fault : String} :
    parse s = .error fault ↔ ofString? s = none ∧ fault = "invalid address: " ++ s := by
  unfold parse
  split
  · rename_i found hfound
    simp [hfound]
  · rename_i hnone
    simp [hnone, eq_comm]

end Network

/-! ## Items -/

/-- The items that addresses may be written as: the addresses in order, each with blanks around it,
and any items of blanks among them. -/
inductive Entries : List Network → List String → Prop
  | nil : Entries [] []
  | blank {nets items item} (hitem : Text.isBlankText item = true) (rest : Entries nets items) :
    Entries nets (item :: items)
  | address {nets items lead trail} (net : Network) (hlead : Text.isBlankText lead = true)
    (htrail : Text.isBlankText trail = true) (rest : Entries nets items) :
    Entries (net :: nets) ((lead ++ net.display ++ trail) :: items)

namespace Entries

variable {nets : List Network} {items : List String}

theorem comma_not_mem (h : Entries nets items) : ∀ item ∈ items, ',' ∉ item.toList := by
  induction h with
  | nil => nofun
  | blank hitem _ ih => exact List.forall_mem_cons.2 ⟨Text.comma_not_mem_of_blank hitem, ih⟩
  | address net hlead htrail _ ih =>
    refine List.forall_mem_cons.2 ⟨?_, ih⟩
    simp [Text.comma_not_mem_of_blank hlead, Text.comma_not_mem_of_blank htrail,
      net.comma_not_mem_display]

theorem filter_trim (h : Entries nets items) :
    (items.map Text.trim).filter (· ≠ "") = nets.map Network.display := by
  induction h with
  | nil => rfl
  | blank hitem _ ih =>
    rw [List.map_cons, Text.trim_of_blank hitem, List.filter_cons_of_neg (by simp), ih]
  | @address _ _ lead trail net hlead htrail _ ih =>
    have htrim : Text.trim (lead ++ net.display ++ trail) = net.display :=
      Text.trim_eq_iff.2 ⟨net.trimmed_display, lead, trail, hlead, htrail, rfl⟩
    rw [List.map_cons, htrim, List.filter_cons_of_pos (by simpa using net.display_ne_empty), ih,
      List.map_cons]

theorem displays (nets : List Network) : Entries nets (nets.map Network.display) := by
  induction nets with
  | nil => exact .nil
  | cons net nets ih =>
    have hwritten : "" ++ net.display ++ "" = net.display := by simp
    have haddress : Entries (net :: nets) (("" ++ net.display ++ "") :: nets.map Network.display) :=
      .address net rfl rfl ih
    rwa [hwritten] at haddress

theorem addressItems_eq (h : Entries nets items) :
    addressItems (Text.join "," items) = nets.map Network.display := by
  by_cases hne : items = []
  · subst hne
    cases h
    rfl
  · have hcomma : "," = String.singleton ',' := rfl
    rw [addressItems, hcomma, Text.split_join hne h.comma_not_mem, h.filter_trim]

end Entries

/-! ## Reading addresses -/

/-- A list is read if each of its items is, as the addresses of the items. -/
theorem parseAddresses_eq_ok_iff {items : List String} {nets : List Network} :
    parseAddresses items = .ok nets ↔
      List.Forall₂ (fun item net => Network.parse item = .ok net) items nets := by
  simp only [Network.parse_eq_ok_iff]
  induction items generalizing nets with
  | nil => simp [parseAddresses, eq_comm]
  | cons item items ih =>
    rw [parseAddresses, List.forall₂_cons_left_iff]
    cases Network.ofString? item with
    | none => simp
    | some net =>
      simp only [← ih, Option.some.injEq]
      cases parseAddresses items with
      | error cause => simp [Except.map]
      | ok rest => simp [Except.map, eq_comm]

/-- If not, the first item that is no address is blamed. -/
theorem parseAddresses_eq_error_iff {items : List String} {cause : Invalid} :
    parseAddresses items = .error cause ↔
      ∃ item, items.find? (fun item => (Network.ofString? item).isNone) = some item ∧
        cause = .address item := by
  induction items with
  | nil => simp [parseAddresses]
  | cons item items ih =>
    rw [parseAddresses]
    cases hitem : Network.ofString? item with
    | none => simp [hitem, eq_comm]
    | some net =>
      rw [List.find?_cons_of_neg (by simp [hitem]), ← ih]
      cases parseAddresses items with
      | error cause => simp [Except.map]
      | ok nets => simp [Except.map]

theorem Entries.parseAddressList_eq {nets : List Network} {items : List String}
    (h : Entries nets items) : parseAddressList (Text.join "," items) = .ok nets := by
  rw [parseAddressList, h.addressItems_eq, parseAddresses_eq_ok_iff, List.forall₂_map_left_iff,
    List.forall₂_same]
  exact fun net _ => net.parse_display

/-- A device that is prepared has the addresses of its attribute. -/
theorem addresses_of_ofAllocation {device : AllocatedDevice} {prepared : PreparedDevice}
    (h : PreparedDevice.ofAllocation device = .ok prepared) :
    PreparedDevice.readAttribute device Attribute.addresses [] parseAddressList =
      .ok prepared.addresses := by
  obtain ⟨name, mtu, hardwareAddr, addresses, -, -, -, haddresses, rfl⟩ := eq_of_ofAllocation h
  exact haddresses

/-! ## Items that are refused -/

/-- An item that, without the blanks around it, is neither empty nor an address. -/
def Refused (item : String) : Prop :=
  Text.trim item ≠ "" ∧ ∀ net, Network.parse (Text.trim item) ≠ .ok net

theorem refused_iff {item : String} :
    Refused item ↔ Text.trim item ≠ "" ∧ (Network.ofString? (Text.trim item)).isNone = true := by
  refine and_congr_right fun _ => ?_
  simp [Network.parse_eq_ok_iff, Option.eq_none_iff_forall_ne_some]

instance (item : String) : Decidable (Refused item) := decidable_of_iff _ refused_iff.symm

/-- The first item that is refused is blamed. -/
theorem parseAddressList_eq_error_iff {text : String} {cause : Invalid} :
    parseAddressList text = .error cause ↔
      ∃ item, (Text.split ',' text).find? (Refused ·) = some item ∧
        cause = .address (Text.trim item) := by
  have hfind : (addressItems text).find? (fun item => (Network.ofString? item).isNone) =
      ((Text.split ',' text).find? (Refused ·)).map Text.trim := by
    rw [addressItems, List.find?_filter, List.find?_map]
    congr 2
    funext item
    simp [refused_iff]
  rw [parseAddressList, parseAddresses_eq_error_iff, hfind]
  constructor
  · rintro ⟨_, hsome, rfl⟩
    obtain ⟨item, hitem, rfl⟩ := Option.map_eq_some_iff.1 hsome
    exact ⟨item, hitem, rfl⟩
  · rintro ⟨item, hitem, rfl⟩
    exact ⟨_, congrArg (Option.map Text.trim) hitem, rfl⟩

/-- The blame quotes an item that is refused and says what is wrong with it. -/
theorem message_of_refused {item : String} (h : Refused item) :
    ∃ fault, Network.parse (Text.trim item) = .error fault ∧
      (Invalid.address (Text.trim item)).message =
        "Invalid address " ++ Text.quoted (Text.trim item) ++ ": " ++ fault := by
  have hnone := Option.isNone_iff_eq_none.1 (refused_iff.1 h).2
  have hmessage (t : String) : (Invalid.address t).message =
      "Invalid address " ++ Text.quoted t ++ (": " ++ "invalid address: ") ++ t := rfl
  refine ⟨"invalid address: " ++ Text.trim item, Network.parse_eq_error_iff.2 ⟨hnone, rfl⟩, ?_⟩
  rw [hmessage]
  simp only [String.append_assoc]

/-- **Lists of addresses.** Addresses in whatever items are read as they were written, and so are
those of a device that is prepared. A text cannot be read exactly if one of its items is refused,
and then the first of these is blamed, without the blanks around it. -/
theorem address_lists_read :
    (∀ nets items, Entries nets items →
      parseAddressList (Text.join "," items) = .ok nets ∧
      ∀ device prepared, device.attributes.get? "addresses" = some (Text.join "," items) →
        PreparedDevice.ofAllocation device = .ok prepared → prepared.addresses = nets) ∧
    ∀ text,
      ((∃ cause, parseAddressList text = .error cause) ↔
        ∃ item ∈ Text.split ',' text, Refused item) ∧
      ∀ cause, parseAddressList text = .error cause →
        ∃ before item after fault,
          Text.split ',' text = before ++ item :: after ∧ (∀ i ∈ before, ¬ Refused i) ∧
          Refused item ∧ cause = .address (Text.trim item) ∧
          Network.parse (Text.trim item) = .error fault ∧
          cause.message = "Invalid address " ++ Text.quoted (Text.trim item) ++ ": " ++ fault := by
  refine ⟨fun nets items hitems => ⟨hitems.parseAddressList_eq, ?_⟩, fun text => ⟨?_, ?_⟩⟩
  · intro device prepared hattribute hprepared
    have hread := addresses_of_ofAllocation hprepared
    rw [PreparedDevice.readAttribute, Attribute.addresses, hattribute] at hread
    dsimp only at hread
    rw [hitems.parseAddressList_eq] at hread
    exact (Except.ok.inj hread).symm
  · have hsome : ((Text.split ',' text).find? (Refused ·)).isSome = true ↔
        ∃ item ∈ Text.split ',' text, Refused item := by
      rw [List.find?_isSome]
      simp only [decide_eq_true_eq]
    rw [← hsome, Option.isSome_iff_exists]
    constructor
    · rintro ⟨cause, h⟩
      exact (parseAddressList_eq_error_iff.1 h).imp fun item h => h.1
    · rintro ⟨item, hitem⟩
      exact ⟨_, parseAddressList_eq_error_iff.2 ⟨item, hitem, rfl⟩⟩
  · intro cause h
    obtain ⟨item, hfind, rfl⟩ := parseAddressList_eq_error_iff.1 h
    obtain ⟨hrefused, before, after, hsplit, hbefore⟩ := List.find?_eq_some_iff_append.1 hfind
    have hitem : Refused item := of_decide_eq_true hrefused
    obtain ⟨fault, hfault, hmessage⟩ := message_of_refused hitem
    exact ⟨before, item, after, fault, hsplit, by simpa using hbefore, hitem, rfl, hfault, hmessage⟩

/-- An address that stands in a list twice, among items of blanks, and a list of which one item is
refused. -/
theorem blanks_passed_over :
    parseAddressList "\u3000,169.254.169.13/32\t,, fd00::13/128,169.254.169.13/32 ," =
      .ok [.v4 ⟨169, 254, 169, 13⟩ 32, .v6 ⟨[0xfd00, 0, 0, 0, 0, 0, 0, 0x13], rfl⟩ 128,
        .v4 ⟨169, 254, 169, 13⟩ 32] ∧
    ∃ cause, parseAddressList " ,10.0.0.1/99 ,10.0.0.1" = .error cause := by
  let a : Network := .v4 ⟨169, 254, 169, 13⟩ 32
  let b : Network := .v6 ⟨[0xfd00, 0, 0, 0, 0, 0, 0, 0x13], rfl⟩ 128
  have hentries : Entries [a, b, a] ["\u3000", "" ++ a.display ++ "\t", "", " " ++ b.display ++ "",
      "" ++ a.display ++ " ", ""] :=
    .blank rfl <| .address a rfl rfl <| .blank rfl <| .address b rfl rfl <| .address a rfl rfl <|
      .blank rfl .nil
  have htext : Text.join "," ["\u3000", "" ++ a.display ++ "\t", "", " " ++ b.display ++ "",
      "" ++ a.display ++ " ", ""] =
        "\u3000,169.254.169.13/32\t,, fd00::13/128,169.254.169.13/32 ," := by
    decide +kernel
  refine ⟨?_, ?_⟩
  · rw [← htext]
    exact (address_lists_read.1 _ _ hentries).1
  · exact (address_lists_read.2 _).1.2 ⟨"10.0.0.1/99 ", by decide +kernel, by decide +kernel⟩

end NetRelocation
