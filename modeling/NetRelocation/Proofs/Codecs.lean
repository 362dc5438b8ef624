import NetRelocation.Json.Codec
import NetRelocation.Proofs.JsonText

/-!
# Codecs that read what they write

**The notion** (`Codec.Carries`). A codec carries a value if it reads back what it writes of it:
from text, whatever may stand behind, wherever enough levels of containers are left, and from a
tree. What is written has to be readable as a tree as well, since values can be set aside first.

**How it is shown.** Each way of making a codec from others has one lemma, which asks for the values
inside: lists, maps, optional values, values with a grammar of their own, records
(`Codec.carries_record`) and the alternatives of a union (`Codec.carries_bare`,
`Codec.carries_carrying`, `readTagged_object`). For a record the names of its fields have to differ;
then a member fills its own field and leaves the others alone (`Fields.membersTo_known`).

**Whole texts** (`Codec.Carries.decode_encode`). If a codec carries a value, decoding the text of
the value gives the value.
-/

namespace NetRelocation

/-! ## Pairs of a map -/

section

variable {κ α : Type} [KeyOrder κ]

theorem SortedList.insert_last {k : κ} {v : α} {l : List (κ × α)} (h : ∀ p ∈ l, p.1 < k) :
    SortedList.insert k v l = l ++ [(k, v)] := by
  induction l with
  | nil => rfl
  | cons p l ih =>
    obtain ⟨hp, hl⟩ := List.forall_mem_cons.1 h
    rw [SortedList.insert, if_neg (KeyOrder.asymm hp), if_pos hp, ih hl]
    rfl

theorem SortedMap.entries_foldl_insert (l : List (κ × α)) (m : SortedMap κ α)
    (h : SortedList.Sorted (m.entries ++ l)) :
    (l.foldl (fun m p => m.insert p.1 p.2) m).entries = m.entries ++ l := by
  induction l generalizing m with
  | nil => exact (List.append_nil _).symm
  | cons p l ih =>
    -- the keys that are left are above those in the map, so each goes to the end
    have hp : ∀ q ∈ m.entries, q.1 < p.1 := fun q hq =>
      (List.pairwise_append.1 h).2.2 q hq p List.mem_cons_self
    have hentries : (m.insert p.1 p.2).entries = m.entries ++ [p] := SortedList.insert_last hp
    have happend : m.entries ++ p :: l = (m.insert p.1 p.2).entries ++ l := by
      rw [hentries, List.append_assoc]
      rfl
    rw [List.foldl_cons, ih (m.insert p.1 p.2) (happend ▸ h), happend]

/-- A map is what its pairs make. -/
theorem SortedMap.ofList_toList (m : SortedMap κ α) : SortedMap.ofList m.toList = m := by
  have hentries : (SortedMap.ofList m.toList).entries = m.entries :=
    SortedMap.entries_foldl_insert m.entries .empty m.sorted
  generalize SortedMap.ofList m.toList = made at hentries
  cases m
  cases made
  cases hentries
  rfl

end

namespace Json

open Value (Plain itemChars memberChars escapeChar stringChars)

variable {α β γ : Type}

/-- A codec carries a value: what it writes of the value it reads back, from text with so many
levels of containers left and from a tree. -/
structure Codec.Carries (c : Codec α) (a : α) (height : Nat) : Prop where
  plain : (c.write a).Plain height
  read : ∀ depth rest, height ≤ depth → Ends rest →
    c.read depth ((c.write a).chars ++ rest) = .ok (a, rest)
  view : ∀ style, c.view style (c.write a) = .ok a

namespace Codec

theorem Carries.mono {c : Codec α} {a : α} {height height' : Nat} (h : c.Carries a height)
    (hle : height ≤ height') : c.Carries a height' where
  plain := h.plain.mono hle
  read depth rest hdepth := h.read depth rest (Nat.le_trans hle hdepth)
  view := h.view

/-- The whole text of a value that is carried decodes to it. -/
theorem Carries.decode_encode {c : Codec α} {a : α} {height : Nat} (h : c.Carries a height)
    (hheight : height ≤ maxDepth) : c.decode (c.encode a) = .ok a := by
  have hread := h.read maxDepth [] hheight ends_nil
  rw [List.append_nil] at hread
  rw [decode, encode, Value.compact, String.toList_ofList, hread]
  rfl

/-! ## Scalars -/

theorem read_text (expected : String) (depth : Nat) (s : String) (rest : List Char) :
    (text expected).read depth ((Value.string s).chars ++ rest) = .ok (s, rest) := by
  have hquote (cs : List Char) : (text expected).read depth ('"' :: cs) = readString cs := rfl
  rw [Value.chars, stringChars_append, hquote, readString_escaped]

theorem carries_text (expected s : String) : (text expected).Carries s 0 where
  plain := Value.plain_string s
  read depth rest _ _ := read_text expected depth s rest
  view _ := rfl

theorem carries_bool (b : Bool) : bool.Carries b 0 := by
  refine ⟨Value.plain_bool b, fun depth rest _ _ => ?_, fun style => rfl⟩
  cases b with
  | true => rfl
  | false => rfl

theorem carries_ranged {toInt : α → Int} {ofInt? : Int → Option α} (expected : String) {a : α}
    (hrange : InRange (toInt a)) (hback : ofInt? (toInt a) = some a) :
    (ranged toInt ofInt? expected).Carries a 0 := by
  have hnumber : fromNumber ofInt? expected (.integer (toInt a)) = .ok a := by
    simp [fromNumber, hback]
  refine ⟨Value.plain_integer hrange, fun depth rest _ hends => ?_, fun _ => hnumber⟩
  have hread := readNumber_natAbs hrange hends
  have hwritten : ((ranged toInt ofInt? expected).write a).chars =
      Value.integerChars (toInt a) := rfl
  rw [hwritten, Value.integerChars]
  by_cases hneg : toInt a < 0
  · rw [decide_eq_true hneg] at hread
    rw [if_pos hneg, List.cons_append]
    simp only [ranged, skipSpace_cons (show isSpace '-' = false by decide), hread, hnumber]
    rfl
  · obtain ⟨c, cs, hdigits, hc⟩ := decimalDigits_eq_cons (toInt a).natAbs
    have hleads : Leads c := .inr hc
    rw [decide_eq_false hneg, hdigits, List.cons_append] at hread
    rw [if_neg hneg, hdigits, List.cons_append]
    simp only [ranged, skipSpace_cons hleads.not_space]
    split
    · rename_i heq
      obtain ⟨rfl, -⟩ := List.cons.inj heq
      cases hc
    · rename_i heq
      obtain ⟨rfl, rfl⟩ := List.cons.inj heq
      simp only [hc, hread, hnumber, if_true]
      rfl
    · contradiction

theorem carries_uint32 (n : UInt32) : uint32.Carries n 0 := by
  have hn := n.toNat_lt
  refine carries_ranged "u32" ?_ ?_
  · rw [inRange_iff]
    omega
  · rw [if_pos (by simp only [UInt32.size]; omega)]
    simp

theorem carries_uint64 (n : UInt64) : uint64.Carries n 0 := by
  have hn := n.toNat_lt
  refine carries_ranged "u64" ?_ ?_
  · rw [inRange_iff]
    omega
  · rw [if_pos (by simp only [UInt64.size]; omega)]
    simp

theorem carries_int32 (n : Int32) : int32.Carries n 0 := by
  have hlow := n.minValue_le_toInt
  have hhigh := n.toInt_le
  refine carries_ranged "i32" ?_ ?_
  · have hmin : Int32.minValue.toInt = -2 ^ 31 := rfl
    have hmax : Int32.maxValue.toInt = 2 ^ 31 - 1 := rfl
    rw [inRange_iff]
    omega
  · rw [if_pos ⟨hlow, hhigh⟩, Int32.ofInt_toInt]

/-! ## Derived codecs -/

theorem carries_parsed {display : α → String} {parse : String → Except String α} {a : α}
    (h : parse (display a) = .ok a) : (parsed display parse).Carries a 0 := by
  refine ⟨Value.plain_string _, fun depth rest _ _ => ?_, fun style => ?_⟩
  · have hread := read_text "a string" depth (display a) rest
    simp only [parsed]
    rw [string, hread]
    simp only [h]
  · simp only [parsed, string, text, h]

theorem carries_option {c : Codec α} (hnull : ∀ a, c.write a ≠ .null) {o : Option α} {height : Nat}
    (h : ∀ a ∈ o, c.Carries a height) : c.option.Carries o height := by
  cases o with
  | none =>
    refine ⟨Value.plain_null.mono (Nat.zero_le _), fun depth rest _ _ => rfl, fun _ => rfl⟩
  | some a =>
    have ha := h a rfl
    refine ⟨ha.plain, fun depth rest hdepth hends => ?_, fun style => ?_⟩
    · obtain ⟨first, cs, hchars, hleads⟩ := ha.plain.starts
      have hread := ha.read depth rest hdepth hends
      -- the reader takes whatever starts with an n for null, and only null does
      have hn : first ≠ 'n' := by
        rintro rfl
        exact hnull a (ha.plain.null (by rw [hchars]; rfl))
      have hwritten : (c.option.write (some a)).chars = (c.write a).chars := rfl
      rw [hwritten]
      rw [hchars, List.cons_append] at hread ⊢
      simp only [option, skipSpace_cons hleads.not_space]
      split
      · rename_i heq
        exact absurd (List.cons.inj heq).1 hn
      · rw [hread]
        rfl
    · have hview := ha.view style
      have hwritten : c.option.write (some a) = c.write a := rfl
      rw [hwritten]
      simp only [option]
      split
      · rename_i heq
        exact absurd heq (hnull a)
      · rw [hview]
        rfl

theorem itemsTo_list {c : Codec α} {l : List α} {height depth : Nat}
    (h : ∀ a ∈ l, c.Carries a height) (hdepth : height ≤ depth) (done : List α) :
    ItemsTo (fun items cs => (c.read depth cs).map fun r => (r.1 :: items, r.2)) done
      (l.map c.write) (l.reverse ++ done) := by
  induction l generalizing done with
  | nil => exact .nil done
  | cons a l ih =>
    obtain ⟨ha, hl⟩ := List.forall_mem_cons.1 h
    refine .cons (u := a :: done) ha.plain.starts (fun rest hends => ?_) ?_
    · rw [ha.read depth rest hdepth hends]
      rfl
    · rw [List.reverse_cons, List.append_assoc]
      exact ih hl (a :: done)

theorem carries_list {c : Codec α} {l : List α} {height : Nat}
    (h : ∀ a ∈ l, c.Carries a height) : c.list.Carries l (height + 1) := by
  refine ⟨Value.plain_array ?_, fun depth rest hdepth _ => ?_, fun style => ?_⟩
  · intro v hv
    obtain ⟨a, ha, rfl⟩ := List.mem_map.1 hv
    exact (h a ha).plain
  · obtain ⟨depth, rfl⟩ : ∃ d, depth = d + 1 := ⟨depth - 1, by omega⟩
    have hitems := readArray_itemChars (itemsTo_list h (Nat.le_of_succ_le_succ hdepth) []) rest
    have hchars : (c.list.write l).chars ++ rest =
        '[' :: (itemChars (l.map c.write) ++ ']' :: rest) := by
      simp [list, Value.chars]
    have hbracket (cs : List Char) : c.list.read (depth + 1) ('[' :: cs) =
        (readArray (fun items cs => (c.read depth cs).map fun r => (r.1 :: items, r.2)) [] cs).map
          fun r => (r.1.reverse, r.2) := rfl
    rw [hchars, hbracket, hitems]
    simp [Except.map]
  · -- from a tree the elements come in order, and nothing is reversed
    have hall : viewAll c style (l.map c.write) = .ok l := by
      induction l with
      | nil => rfl
      | cons a l ih =>
        obtain ⟨ha, hl⟩ := List.forall_mem_cons.1 h
        rw [List.map_cons, viewAll, ha.view style]
        dsimp only
        rw [ih hl]
        rfl
    exact hall

theorem membersTo_map {c : Codec α} {l : List (String × α)} {height depth : Nat}
    (h : ∀ p ∈ l, c.Carries p.2 height) (hdepth : height ≤ depth) (m : SortedMap String α) :
    MembersTo (fun m key cs =>
      match readColon cs with
      | .error e => .error e
      | .ok cs => (c.read depth cs).map fun r => (m.insert key r.1, r.2)) m
      (l.map fun p => (p.1, c.write p.2)) (l.foldl (fun m p => m.insert p.1 p.2) m) := by
  induction l generalizing m with
  | nil => exact .nil m
  | cons p l ih =>
    obtain ⟨hp, hl⟩ := List.forall_mem_cons.1 h
    refine .cons (fun rest hends => ?_) (ih hl (m.insert p.1 p.2))
    rw [readColon_cons]
    dsimp only
    rw [hp.read depth rest hdepth hends]
    rfl

/-- A map is read back, since its keys come in order and none twice. -/
theorem carries_map {c : Codec α} {m : SortedMap String α} {height : Nat}
    (h : ∀ p ∈ m.toList, c.Carries p.2 height) : c.map.Carries m (height + 1) := by
  have hmade := SortedMap.ofList_toList m
  refine ⟨Value.plain_object ?_, fun depth rest hdepth _ => ?_, fun style => ?_⟩
  · intro member hmember
    obtain ⟨p, hp, rfl⟩ := List.mem_map.1 hmember
    exact (h p hp).plain
  · obtain ⟨depth, rfl⟩ : ∃ d, depth = d + 1 := ⟨depth - 1, by omega⟩
    have hmembers := readObject_memberChars
      (membersTo_map h (Nat.le_of_succ_le_succ hdepth) .empty) rest
    have hchars : (c.map.write m).chars ++ rest =
        '{' :: (memberChars (m.toList.map fun p => (p.1, c.write p.2)) ++ '}' :: rest) := by
      simp [map, Value.chars]
    have hbrace (cs : List Char) : c.map.read (depth + 1) ('{' :: cs) =
        readObject (fun m key cs =>
          match readColon cs with
          | .error e => .error e
          | .ok cs => (c.read depth cs).map fun r => (m.insert key r.1, r.2)) .empty cs := rfl
    rw [hchars, hbrace, hmembers]
    exact congrArg (fun m => Except.ok (m, rest)) hmade
  · have hentries (l : List (String × α)) (m : SortedMap String α)
        (h : ∀ p ∈ l, c.Carries p.2 height) :
        viewEntries c style m (l.map fun p => (p.1, c.write p.2)) =
          .ok (l.foldl (fun m p => m.insert p.1 p.2) m) := by
      induction l generalizing m with
      | nil => rfl
      | cons p l ih =>
        obtain ⟨hp, hl⟩ := List.forall_mem_cons.1 h
        rw [List.map_cons, viewEntries, hp.view style]
        exact ih (m.insert p.1 p.2) hl
    exact (hentries m.toList .empty h).trans (congrArg Except.ok hmade)

end Codec

/-! ## Records -/

namespace Fields

def names : {αs : List Type} → Fields αs → List String
  | _, nil => []
  | _, cons name _ _ rest => name :: rest.names

def known : {αs : List Type} → Fields αs → Tuple αs → Slots αs
  | _, nil, _ => ()
  | _, cons _ _ _ rest, (a, as) => (some a, rest.known as)

/-- Every field carries its value. -/
def Carry : {αs : List Type} → Fields αs → Tuple αs → Nat → Prop
  | _, nil, _, _ => True
  | _, cons _ codec _ rest, (a, as), height => codec.Carries a height ∧ rest.Carry as height

theorem mem_names_of_mem_write {αs : List Type} (fields : Fields αs) (t : Tuple αs)
    {m : String × Value} (hm : m ∈ fields.write t) : m.1 ∈ fields.names := by
  induction fields with
  | nil => cases hm
  | cons name codec absent rest ih =>
    obtain ⟨a, as⟩ := t
    rcases List.mem_cons.1 hm with rfl | hm
    · exact List.mem_cons_self
    · exact List.mem_cons_of_mem _ (ih as hm)

theorem complete_known {αs : List Type} (fields : Fields αs) (t : Tuple αs) :
    fields.complete (fields.known t) = .ok t := by
  induction fields with
  | nil => rfl
  | cons name codec absent rest ih =>
    obtain ⟨a, as⟩ := t
    have hrest := ih as
    cases absent <;> simp only [known, complete, hrest] <;> rfl

theorem plain_write {αs : List Type} (fields : Fields αs) (t : Tuple αs) {height : Nat}
    (h : fields.Carry t height) : ∀ m ∈ fields.write t, m.2.Plain height := by
  induction fields with
  | nil => exact fun _ hm => by cases hm
  | cons name codec absent rest ih =>
    obtain ⟨a, as⟩ := t
    exact List.forall_mem_cons.2 ⟨h.1.plain, ih as h.2⟩

/-- Members of other names leave a field alone. -/
theorem membersTo_lift {α : Type} {αs : List Type} {name : String} (codec : Codec α)
    (absent : Absent α) {rest : Fields αs} {depth : Nat} {s s' : Slots αs}
    {ms : List (String × Value)} (slot : Option α) (hname : ∀ m ∈ ms, m.1 ≠ name)
    (h : MembersTo (fun s key cs => rest.member depth key s cs) s ms s') :
    MembersTo (fun s key cs => (cons name codec absent rest).member depth key s cs) (slot, s) ms
      (slot, s') := by
  induction h with
  | nil s => exact .nil _
  | cons first more ih =>
    obtain ⟨hkey, hms⟩ := List.forall_mem_cons.1 hname
    refine .cons (fun text hends => ?_) (ih hms)
    simp only [member, if_neg hkey, first text hends]
    rfl

/-- The members that were written fill the fields. -/
theorem membersTo_known {αs : List Type} (fields : Fields αs) (hnames : fields.names.Nodup)
    (t : Tuple αs) {height depth : Nat} (h : fields.Carry t height) (hdepth : height ≤ depth) :
    MembersTo (fun s key cs => fields.member depth key s cs) fields.blank (fields.write t)
      (fields.known t) := by
  induction fields with
  | nil => exact .nil _
  | cons name codec absent rest ih =>
    obtain ⟨a, as⟩ := t
    obtain ⟨hname, hrest⟩ := List.nodup_cons.1 hnames
    have hothers : ∀ m ∈ rest.write as, m.1 ≠ name := by
      rintro m hm rfl
      exact hname (mem_names_of_mem_write rest as hm)
    refine .cons (u := (some a, rest.blank)) (fun text hends => ?_)
      (membersTo_lift codec absent (some a) hothers (ih hrest as h.2))
    simp only [member, blank, if_true, readColon_cons, h.1.read depth text hdepth hends]
    rfl

theorem viewMembers_cons {αs : List Type} (fields : Fields αs) (style : TreeStyle) (s : Slots αs)
    (key : String) (v : Value) (ms : List (String × Value)) :
    fields.viewMembers style s ((key, v) :: ms) =
      match fields.viewMember style key v s with
      | .error e => .error e
      | .ok s => fields.viewMembers style s ms := by
  cases fields <;> rfl

/-- Trees of other names leave a field alone. -/
theorem viewMembers_lift {α : Type} {αs : List Type} {name : String} (codec : Codec α)
    (absent : Absent α) (rest : Fields αs) (style : TreeStyle) (slot : Option α) (s : Slots αs)
    (ms : List (String × Value)) (hname : ∀ m ∈ ms, m.1 ≠ name) :
    (cons name codec absent rest).viewMembers style (slot, s) ms =
      (rest.viewMembers style s ms).map (slot, ·) := by
  induction ms generalizing s with
  | nil => rfl
  | cons m ms ih =>
    obtain ⟨key, v⟩ := m
    obtain ⟨hkey, hms⟩ := List.forall_mem_cons.1 hname
    have hmember : (cons name codec absent rest).viewMember style key v (slot, s) =
        (rest.viewMember style key v s).map (slot, ·) := if_neg hkey
    rw [viewMembers_cons rest]
    refine (viewMembers_cons (cons name codec absent rest) style (slot, s) key v ms).trans ?_
    cases hv : rest.viewMember style key v s with
    | error e =>
      rw [hv] at hmember
      rw [hmember]
      rfl
    | ok s' =>
      rw [hv] at hmember
      rw [hmember]
      exact ih s' hms

/-- The trees that were written fill the fields. -/
theorem viewMembers_write {αs : List Type} (fields : Fields αs) (hnames : fields.names.Nodup)
    (t : Tuple αs) {height : Nat} (h : fields.Carry t height) (style : TreeStyle) :
    fields.viewMembers style fields.blank (fields.write t) = .ok (fields.known t) := by
  induction fields with
  | nil => rfl
  | cons name codec absent rest ih =>
    obtain ⟨a, as⟩ := t
    obtain ⟨hname, hrest⟩ := List.nodup_cons.1 hnames
    have hothers : ∀ m ∈ rest.write as, m.1 ≠ name := by
      rintro m hm rfl
      exact hname (mem_names_of_mem_write rest as hm)
    have hlift := viewMembers_lift codec absent rest style (some a) rest.blank _ hothers
    rw [ih hrest as h.2] at hlift
    have hmember : (cons name codec absent rest).viewMember style name (codec.write a)
        (none, rest.blank) = .ok (some a, rest.blank) := by
      simp only [viewMember, if_true, h.1.view style]
      rfl
    refine (viewMembers_cons (cons name codec absent rest) style (none, rest.blank) name
      (codec.write a) (rest.write as)).trans ?_
    rw [hmember]
    exact hlift

/-- A record that was written is read back from its tree. -/
theorem view_object {αs : List Type} (fields : Fields αs) (hnames : fields.names.Nodup)
    (t : Tuple αs) {height : Nat} (h : fields.Carry t height) (style : TreeStyle)
    (label : String) : fields.view style label (.object (fields.write t)) = .ok t := by
  rw [view, viewMembers_write fields hnames t h style]
  exact complete_known fields t

/-- A record that was written is read back from its text. -/
theorem read_object {αs : List Type} (fields : Fields αs) (hnames : fields.names.Nodup)
    (t : Tuple αs) {height depth : Nat} (h : fields.Carry t height) (hdepth : height ≤ depth)
    (label : String) (rest : List Char) :
    fields.read label (depth + 1) ((Value.object (fields.write t)).chars ++ rest) =
      .ok (t, rest) := by
  have hmembers := readMembers_memberChars (membersTo_known fields hnames t h hdepth) rest
  have hchars : (Value.object (fields.write t)).chars ++ rest =
      '{' :: (memberChars (fields.write t) ++ '}' :: rest) := by
    simp [Value.chars]
  rw [hchars]
  simp only [Fields.read, skipSpace_cons (show isSpace '{' = false by decide), hmembers,
    complete_known]
  rfl

end Fields

/-- A record is read back if its fields have different names and each carries its value. -/
theorem Codec.carries_record {β : Type} {αs : List Type} {fields : Fields αs}
    {toTuple : β → Tuple αs} {ofTuple : Tuple αs → β} (label : String)
    (hnames : fields.names.Nodup) {b : β} (hback : ofTuple (toTuple b) = b) {height : Nat}
    (h : fields.Carry (toTuple b) height) :
    (Codec.record label fields toTuple ofTuple).Carries b (height + 1) := by
  refine ⟨Value.plain_object (fields.plain_write _ h), fun depth rest hdepth _ => ?_,
    fun style => ?_⟩
  · obtain ⟨depth, rfl⟩ : ∃ d, depth = d + 1 := ⟨depth - 1, by omega⟩
    have hread := fields.read_object hnames _ h (Nat.le_of_succ_le_succ hdepth) label rest
    simp only [record, hread]
    exact congrArg (fun b => Except.ok (b, rest)) hback
  · have hview := fields.view_object hnames _ h style label
    simp only [record, hview]
    exact congrArg Except.ok hback

/-! ## Unions -/

section

variable {write : α → Value} {vs : List (Variant α)} {a : α} {name : String} {v : Variant α}

theorem Codec.carries_bare (hwrite : write a = .string name)
    (hfind : findVariant vs name = .ok v) (hbare : v.bare = .ok a) :
    (Codec.union write vs).Carries a 0 := by
  have hwritten : (Codec.union write vs).write a = .string name := hwrite
  refine ⟨?_, fun depth rest _ _ => ?_, fun style => ?_⟩
  · rw [hwritten]
    exact Value.plain_string name
  · rw [hwritten, Value.chars, stringChars_append]
    simp only [union, skipSpace_cons (show isSpace '"' = false by decide), readName,
      readString_escaped, hfind, Except.map, hbare]
  · rw [hwritten]
    simp only [union, hfind, hbare]

/-- An alternative that is written as an object with its name as the key. -/
theorem Codec.carries_carrying {c : Codec γ} {mk : γ → α} {x : γ} {height : Nat}
    (hwrite : write (mk x) = .object [(name, c.write x)])
    (hfind : findVariant vs name = .ok (.carrying name c mk)) (h : c.Carries x height) :
    (Codec.union write vs).Carries (mk x) (height + 1) := by
  have hwritten : (Codec.union write vs).write (mk x) = .object [(name, c.write x)] := hwrite
  refine ⟨?_, fun depth rest hdepth _ => ?_, fun style => ?_⟩
  · rw [hwritten]
    refine Value.plain_object fun m hm => ?_
    cases List.mem_singleton.1 hm
    exact h.plain
  · obtain ⟨depth, rfl⟩ : ∃ d, depth = d + 1 := ⟨depth - 1, by omega⟩
    have hchars : (Value.object [(name, c.write x)]).chars ++ rest =
        '{' :: '"' :: (name.toList.flatMap escapeChar ++ '"' :: (':' :: ((c.write x).chars ++
          '}' :: rest))) := by
      simp [Value.chars, Value.memberChars, stringChars]
    have hread := h.read depth ('}' :: rest) (Nat.le_of_succ_le_succ hdepth) (ends_brace rest)
    have htag (cs : List Char) : readTag vs ('"' :: cs) = readName vs cs := rfl
    rw [hwritten, hchars]
    simp only [union, skipSpace_cons (show isSpace '{' = false by decide), htag, readName,
      readString_escaped, hfind, Except.map, readColon_cons, Variant.carrying, hread,
      skipSpace_cons (show isSpace '}' = false by decide)]
  · rw [hwritten]
    simp only [union, hfind, Variant.carrying, h.view style, Except.map]

end

section

variable {tag : String} {ts : List (Tagged α)} {t : Tagged α} {height depth : Nat}

theorem readTaggedName_string {name : String} (hfind : ts.find? (·.name = name) = some t)
    (rest : List Char) : readTaggedName ts ((Value.string name).chars ++ rest) = .ok (t, rest) := by
  rw [Value.chars, stringChars_append]
  simp only [readTaggedName, skipSpace_cons (show isSpace '"' = false by decide),
    readString_escaped, hfind]

/-- An alternative that was written is read back from its members. -/
theorem Tagged.view_record {αs : List Type} {fields : Fields αs} {mk : Tuple αs → α}
    (name label : String) (hnames : fields.names.Nodup) (t : Tuple αs)
    (h : fields.Carry t height) :
    (Tagged.record name label fields mk).view (.object (fields.write t)) = .ok (mk t) := by
  have hview := fields.view_object hnames t h .buffered label
  rw [record]
  dsimp only
  rw [hview]
  rfl

/-- Members other than the tag are set aside. -/
theorem membersTo_setAside {ms : List (String × Value)} (htag : ∀ m ∈ ms, m.1 ≠ tag)
    (h : ∀ m ∈ ms, m.2.Plain height) (hdepth : height ≤ depth) (found : Option (Tagged α))
    (done : List (String × Value)) :
    MembersTo (taggedMember tag ts depth) (found, done) ms (found, ms.reverse ++ done) := by
  induction ms generalizing done with
  | nil => exact .nil _
  | cons m ms ih =>
    obtain ⟨hkey, hothers⟩ := List.forall_mem_cons.1 htag
    obtain ⟨hm, hms⟩ := List.forall_mem_cons.1 h
    refine .cons (u := (found, m :: done)) (fun rest hends => ?_) ?_
    · rw [taggedMember, if_neg hkey, readColon_cons]
      dsimp only
      rw [hm.read depth rest hdepth hends]
      rfl
    · rw [List.reverse_cons, List.append_assoc]
      exact ih hothers hms (m :: done)

/-- An object whose first member is its tag is read as the alternative of that name. -/
theorem readTagged_object {name : String} {ms : List (String × Value)}
    (hfind : ts.find? (·.name = name) = some t) (htag : ∀ m ∈ ms, m.1 ≠ tag)
    (h : ∀ m ∈ ms, m.2.Plain height) (hdepth : height ≤ depth) (label : String)
    (rest : List Char) :
    readTagged tag label ts (depth + 1)
        ((Value.object ((tag, .string name) :: ms)).chars ++ rest) =
      (t.view (.object ms)).map (·, rest) := by
  have hfirst (rest : List Char) : taggedMember tag ts depth (none, []) tag
      (':' :: ((Value.string name).chars ++ rest)) = .ok ((some t, []), rest) := by
    rw [taggedMember, if_pos rfl]
    dsimp only
    rw [readColon_cons]
    dsimp only
    rw [readTaggedName_string hfind]
    rfl
  have hmembers : MembersTo (taggedMember tag ts depth) (none, []) ((tag, .string name) :: ms)
      (some t, ms.reverse) := by
    refine .cons (u := (some t, [])) (fun rest _ => hfirst rest) ?_
    simpa using membersTo_setAside htag h hdepth (some t) []
  have hchars : (Value.object ((tag, .string name) :: ms)).chars ++ rest =
      '{' :: (memberChars ((tag, .string name) :: ms) ++ '}' :: rest) := by
    simp [Value.chars]
  have hend : endMembers ('}' :: rest) = .ok rest := rfl
  rw [hchars]
  simp only [readTagged, skipSpace_cons (show isSpace '{' = false by decide),
    readMembers_memberChars hmembers, hend, List.reverse_reverse]

end

end Json

end NetRelocation
