import NetRelocation.Proofs.AnyJson
import NetRelocation.Proofs.AnyOrder

/-!
# Records from their texts

A record that a person writes gives its members in any order, leaves some out, and may have others
that nobody asked for. Of those nothing is known but that they are JSON, so the members of an object
are told apart by their keys and the texts of their values (`ObjectText`).

**Theorem (`Fields.read_objectText`).** If of each field's name there is one member, whose text the
field's codec reads, or none (`Fields.Held`), and all members of other names have any text of JSON,
then the record is read as the fields that are given make it.

The reader goes through the members in their order, while what is known is said field by field. Both
are brought together by an induction on the fields: a run of the other fields over the members of
other names is a run of all the fields (`Fields.steps_given`, `Fields.steps_absent`).
-/

namespace NetRelocation.Json

open Text.Numeral (decimalDigits)

variable {α : Type}

/-! ## The texts of some types -/

/-- The texts of a value that may be missing. -/
inductive NullableText (text : α → List Char → Prop) : Option α → List Char → Prop
  | null : NullableText text none ['n', 'u', 'l', 'l']
  | some {a : α} {cs : List Char} (given : text a cs) : NullableText text (some a) cs

inductive ListText (text : α → List Char → Prop) (as : List α) : List Char → Prop
  | brackets {cs : List Char} (inside : Inside (Padded text) as cs) :
    ListText text as ('[' :: cs ++ [']'])

/-- A member, given by its key and the text of its value. -/
def RawMember (m : String × List Char) (cs : List Char) : Prop :=
  ∃ key value, Padded StringText m.1 key ∧ Padded Eq m.2 value ∧ cs = key ++ ':' :: value

/-- The texts of an object with these members. -/
inductive ObjectText (ms : List (String × List Char)) : List Char → Prop
  | braces {cs : List Char} (inside : Inside RawMember ms cs) : ObjectText ms ('{' :: cs ++ ['}'])

theorem rawMember_stringChars (key : String) (raw : List Char) :
    RawMember (key, raw) (Value.stringChars key ++ ':' :: raw) :=
  ⟨_, _, padded_self (stringText_stringChars key), padded_self rfl, rfl⟩

/-- What the members say under a name: nothing, or one value. -/
def Holds (text : α → List Char → Prop) (name : String) (slot : Option α)
    (ms : List (String × List Char)) : Prop :=
  match slot with
  | none => ∀ m ∈ ms, m.1 ≠ name
  | some a => ∃ raw, text a raw ∧ ms.filter (·.1 = name) = [(name, raw)]

/-! ## Reading them -/

namespace Codec

/-- A codec reads a text as a value, wherever the text stands. -/
def Reads (c : Codec α) (depth : Nat) (a : α) (cs : List Char) : Prop :=
  ∀ ⦃pad rest⦄, Blank pad → Stops rest → c.read depth (pad ++ (cs ++ rest)) = .ok (a, rest)

theorem reads_text (expected : String) (depth : Nat) {s : String} {cs : List Char}
    (h : StringText s cs) : (text expected).Reads depth s cs := by
  intro pad rest hpad _
  obtain ⟨tail, htail, hstring⟩ := h.read rest
  have hspace : skipSpace (pad ++ '"' :: tail) = '"' :: tail := skipSpace_append hpad _
  rw [htail]
  simp only [text, hspace]
  exact hstring

theorem reads_natural {toInt : α → Int} {ofInt? : Int → Option α} (expected : String) {a : α}
    {n : Nat} (hrange : InRange n) (hback : ofInt? n = some a) (depth : Nat) :
    (ranged toInt ofInt? expected).Reads depth a (decimalDigits n) := by
  intro pad rest hpad hrest
  have hshape := numeral_decimalDigits n
  have halone := readNumber_natAbs hrange ends_nil
  rw [List.append_nil, decide_eq_false (by omega), Int.natAbs_natCast] at halone
  have hread := readNumber_takes hshape halone hrest
  obtain ⟨c, cs, hdigits, hc⟩ := hshape.leads
  rw [hdigits, List.cons_append] at hread ⊢
  have hspace : skipSpace (pad ++ c :: (cs ++ rest)) = c :: (cs ++ rest) :=
    (skipSpace_append hpad _).trans (skipSpace_cons (Leads.not_space (.inr hc)))
  simp only [ranged, hspace]
  split
  · rename_i heq
    obtain ⟨rfl, -⟩ := List.cons.inj heq
    cases hc
  · rename_i heq
    obtain ⟨rfl, rfl⟩ := List.cons.inj heq
    simp only [hc, hread, fromNumber, hback, if_true]
    rfl
  · contradiction

theorem reads_uint32 (depth : Nat) (n : UInt32) :
    uint32.Reads depth n (decimalDigits n.toNat) := by
  have hn := n.toNat_lt
  refine reads_natural "u32" ?_ ?_ depth
  · rw [inRange_iff]
    omega
  · rw [if_pos (by simp only [UInt32.size]; omega)]
    simp

theorem reads_uint64 (depth : Nat) (n : UInt64) :
    uint64.Reads depth n (decimalDigits n.toNat) := by
  have hn := n.toNat_lt
  refine reads_natural "u64" ?_ ?_ depth
  · rw [inRange_iff]
    omega
  · rw [if_pos (by simp only [UInt64.size]; omega)]
    simp

/-- An optional value is read as it is or as null, if its texts cannot be taken for null. -/
theorem reads_option {c : Codec α} {text : α → List Char → Prop} {depth : Nat}
    (hled : ∀ a cs, text a cs → ∃ first tail, cs = first :: tail ∧ Leads first ∧ first ≠ 'n')
    (hread : ∀ a cs, text a cs → c.Reads depth a cs) {o : Option α} {cs : List Char}
    (h : NullableText text o cs) : c.option.Reads depth o cs := by
  intro pad rest hpad hrest
  cases h with
  | null =>
    have hspace : skipSpace (pad ++ ('n' :: 'u' :: 'l' :: 'l' :: rest)) = _ :=
      skipSpace_append hpad _
    simp only [option, List.cons_append, List.nil_append, hspace]
    rfl
  | @some a cs htext =>
    obtain ⟨first, tail, rfl, hfirst, hn⟩ := hled a cs htext
    have hspace : skipSpace (pad ++ first :: (tail ++ rest)) = first :: (tail ++ rest) :=
      (skipSpace_append hpad _).trans (skipSpace_cons hfirst.not_space)
    have hinner := hread a _ htext blank_nil hrest
    rw [List.nil_append, List.cons_append] at hinner
    simp only [option, List.cons_append, hspace]
    split
    · rename_i heq
      exact absurd (List.cons.inj heq).1 hn
    · rw [hinner]
      rfl

/-- A list is read element by element. -/
theorem reads_list {c : Codec α} {text : α → List Char → Prop} {depth : Nat}
    (hled : ∀ a cs, text a cs → ∃ first tail, cs = first :: tail ∧ Leads first)
    (hread : ∀ a cs, text a cs → c.Reads depth a cs) {as : List α} {cs : List Char}
    (h : ListText text as cs) : c.list.Reads (depth + 1) as cs := by
  intro pad rest hpad _
  obtain ⟨hinside⟩ := h
  rename_i cs
  have hsteps := steps_of_foldlM (foldlM_prepend as [])
  have harray : readArray (fun items cs => (c.read depth cs).map fun r => (r.1 :: items, r.2)) []
      (cs ++ ']' :: rest) = .ok (as.reverse ++ [], rest) := by
    refine readArray_walked (walks_items hled ?_) hinside rest hsteps
    rintro done a _ ⟨⟩ cs rest ha hrest
    have hitem := hread a cs ha blank_nil hrest
    rw [List.nil_append] at hitem
    rw [hitem]
    rfl
  have hspace : skipSpace (pad ++ '[' :: (cs ++ ']' :: rest)) = _ := skipSpace_append hpad _
  have htext : '[' :: cs ++ [']'] ++ rest = '[' :: (cs ++ ']' :: rest) := by simp
  rw [htext]
  simp only [list, hspace]
  refine (congrArg (Except.map fun r => (r.1.reverse, r.2)) harray).trans ?_
  simp [Except.map]

end Codec

/-! ## Records -/

namespace Fields

variable {αs : List Type}

/-- What members say of the fields, if each codec reads what stands under its name. -/
def Held (depth : Nat) : {αs : List Type} → Fields αs → Slots αs → List (String × List Char) → Prop
  | _, nil, _, _ => True
  | _, cons name codec _ rest, (slot, slots), ms =>
    Holds (codec.Reads depth) name slot ms ∧ rest.Held depth slots ms

/-- One member takes the record from one state to another, wherever it stands. -/
def Takes (depth : Nat) (fields : Fields αs) (s : Slots αs) (m : String × List Char)
    (u : Slots αs) : Prop :=
  ∀ ⦃gap pad rest⦄, Blank gap → Blank pad → Stops rest →
    fields.member depth m.1 s (gap ++ ':' :: (pad ++ (m.2 ++ rest))) = .ok (u, rest)

theorem takes_unknown (depth : Nat) (fields : Fields αs) {m : String × List Char}
    (hname : m.1 ∉ fields.names) (htext : AnyText m.2) (s : Slots αs) :
    fields.Takes depth s m s := by
  intro gap pad rest hgap hpad hrest
  induction fields with
  | nil =>
    rw [member, readColon_blank hgap]
    dsimp only
    rw [skipValue_text htext hpad hrest]
    rfl
  | cons name codec absent others ih =>
    obtain ⟨slot, slots⟩ := s
    obtain ⟨hne, hothers⟩ := not_or.1 (mt List.mem_cons.2 hname)
    have hmember := ih hothers slots
    simp only [member, if_neg hne, hmember]
    rfl

variable {name : String} {codec : Codec α} {absent : Absent α} {others : Fields αs}

/-- A member of another name leaves the field alone. -/
theorem Takes.lift {depth : Nat} {s u : Slots αs} {m : String × List Char}
    (h : others.Takes depth s m u) (hne : m.1 ≠ name) (slot : Option α) :
    (cons name codec absent others).Takes depth (slot, s) m (slot, u) := by
  intro gap pad rest hgap hpad hrest
  have hmember := h hgap hpad hrest
  simp only [member, if_neg hne, hmember]
  rfl

/-- The first member of a field's name fills it. -/
theorem takes_fill {depth : Nat} {a : α} {raw : List Char} (h : codec.Reads depth a raw)
    (s : Slots αs) :
    (cons name codec absent others).Takes depth (none, s) (name, raw) (some a, s) := by
  intro gap pad rest hgap hpad hrest
  have hread := h hpad hrest
  simp only [member, if_true, readColon_blank hgap, hread]
  rfl

theorem steps_absent {depth : Nat} {ms : List (String × List Char)} {s u : Slots αs}
    (h : Steps (others.Takes depth) s ms u) (hne : ∀ m ∈ ms, m.1 ≠ name) (slot : Option α) :
    Steps ((cons name codec absent others).Takes depth) (slot, s) ms (slot, u) := by
  induction h with
  | nil s => exact .nil _
  | cons hfirst _ ih =>
    obtain ⟨hm, hms⟩ := List.forall_mem_cons.1 hne
    exact .cons (hfirst.lift hm slot) (ih hms)

/-- The one member of a field's name fills it, wherever it stands. -/
theorem steps_given {depth : Nat} {ms : List (String × List Char)} {s u : Slots αs} {a : α}
    {raw : List Char} (h : Steps (others.Takes depth) s (ms.filter (·.1 ≠ name)) u)
    (hread : codec.Reads depth a raw) (hfound : ms.filter (·.1 = name) = [(name, raw)]) :
    Steps ((cons name codec absent others).Takes depth) (none, s) ms (some a, u) := by
  induction ms generalizing s with
  | nil => cases hfound
  | cons m ms ih =>
    by_cases hm : m.1 = name
    · rw [List.filter_cons_of_pos (by simpa using hm)] at hfound
      obtain ⟨rfl, hnone⟩ := List.cons.inj hfound
      have hne := named_eq_nil_iff.1 hnone
      rw [List.filter_cons_of_neg (by simp), List.filter_eq_self.2 (by simpa using hne)] at h
      exact .cons (takes_fill hread s) (steps_absent h hne (some a))
    · rw [List.filter_cons_of_neg (by simpa using hm)] at hfound
      rw [List.filter_cons_of_pos (by simpa using hm)] at h
      cases h with
      | cons hfirst hmore => exact .cons (hfirst.lift hm none) (ih hmore hfound)

end Fields

/-- What is said in one kind of text is said in another, if each of the one is one of the other. -/
theorem Holds.map {β : Type} {text : α → List Char → Prop} {text' : β → List Char → Prop}
    {name : String} {slot : Option α} {ms : List (String × List Char)}
    (h : Holds text name slot ms) (f : α → β) (hread : ∀ a raw, text a raw → text' (f a) raw) :
    Holds text' name (slot.map f) ms := by
  cases slot with
  | none => exact h
  | some a =>
    obtain ⟨raw, hraw, hfound⟩ := h
    exact ⟨raw, hread a raw hraw, hfound⟩

theorem Holds.mono {text text' : α → List Char → Prop} {name : String} {slot : Option α}
    {ms : List (String × List Char)} (h : Holds text name slot ms)
    (hread : ∀ a raw, text a raw → text' a raw) : Holds text' name slot ms := by
  have hsame := h.map id hread
  rwa [Option.map_id_fun] at hsame

theorem Holds.filter_ne {text : α → List Char → Prop} {name other : String} {slot : Option α}
    {ms : List (String × List Char)} (h : Holds text name slot ms) (hne : name ≠ other) :
    Holds text name slot (ms.filter (·.1 ≠ other)) := by
  cases slot with
  | none => exact fun m hm => h m (List.mem_of_mem_filter hm)
  | some a =>
    obtain ⟨raw, hraw, hfound⟩ := h
    refine ⟨raw, hraw, ?_⟩
    rw [List.filter_filter, ← hfound]
    refine List.filter_congr fun m _ => ?_
    by_cases hm : m.1 = name
    · simp [hm, hne]
    · simp [hm]

namespace Fields

variable {αs : List Type}

theorem Held.filter_ne {depth : Nat} {fields : Fields αs} {t : Slots αs}
    {ms : List (String × List Char)} (h : fields.Held depth t ms) {other : String}
    (hother : other ∉ fields.names) : fields.Held depth t (ms.filter (·.1 ≠ other)) := by
  induction fields with
  | nil => trivial
  | cons name codec absent rest ih =>
    obtain ⟨slot, slots⟩ := t
    obtain ⟨hslot, hslots⟩ := h
    obtain ⟨hne, hrest⟩ := not_or.1 (mt List.mem_cons.2 hother)
    exact ⟨hslot.filter_ne (Ne.symm hne), ih hslots hrest⟩

/-- The members take the record to what they say of its fields. -/
theorem Held.steps {depth : Nat} {fields : Fields αs} (hnames : fields.names.Nodup) {t : Slots αs}
    {ms : List (String × List Char)} (h : fields.Held depth t ms)
    (hunknown : ∀ m ∈ ms, m.1 ∉ fields.names → AnyText m.2) :
    Steps (fields.Takes depth) fields.blank ms t := by
  induction fields generalizing ms with
  | nil =>
    induction ms with
    | nil => exact .nil _
    | cons m ms ih =>
      obtain ⟨hm, hms⟩ := List.forall_mem_cons.1 hunknown
      have hfirst := takes_unknown depth nil List.not_mem_nil (hm List.not_mem_nil) ()
      exact .cons hfirst (ih trivial hms)
  | cons name codec absent rest ih =>
    obtain ⟨slot, slots⟩ := t
    obtain ⟨hslot, hslots⟩ := h
    obtain ⟨hname, hrest⟩ := List.nodup_cons.1 hnames
    -- for the other fields a member of this name would be one that nobody asked for, and nothing
    -- says that its text is JSON, so it is taken out
    have hothers : Steps (rest.Takes depth) rest.blank (ms.filter (·.1 ≠ name)) slots := by
      refine ih hrest (hslots.filter_ne hname) fun m hm hunnamed => ?_
      obtain ⟨hmem, hne⟩ := List.mem_filter.1 hm
      exact hunknown m hmem (not_or.2 ⟨by simpa using hne, hunnamed⟩ ∘ List.mem_cons.1)
    cases slot with
    | none =>
      rw [List.filter_eq_self.2 fun m hm => by simpa using hslot m hm] at hothers
      exact steps_absent hothers hslot none
    | some a =>
      obtain ⟨raw, hread, hfound⟩ := hslot
      exact steps_given hothers hread hfound

/-- A record is read from any text of an object that gives its fields. -/
theorem read_objectText {depth : Nat} {fields : Fields αs} (hnames : fields.names.Nodup)
    {s : Slots αs} {t : Tuple αs} {ms : List (String × List Char)} (h : fields.Held depth s ms)
    (hunknown : ∀ m ∈ ms, m.1 ∉ fields.names → AnyText m.2) (hcomplete : fields.complete s = .ok t)
    {cs : List Char} (htext : ObjectText ms cs) (label : String) {pad rest : List Char}
    (hpad : Blank pad) :
    fields.read label (depth + 1) (pad ++ (cs ++ rest)) = .ok (t, rest) := by
  obtain ⟨hinside⟩ := htext
  rename_i cs
  have hloop : Walks RawMember (fields.Takes depth)
      (readMembers fun s key cs => fields.member depth key s cs) '}' := by
    refine walks_members Eq ?_
    rintro s m u hu gap pad _ rest hgap hpad rfl hrest
    exact hu hgap hpad hrest
  obtain ⟨after, hafter, hmembers⟩ := hloop.inside hinside rest (h.steps hnames hunknown)
  have hspace : skipSpace (pad ++ '{' :: (cs ++ '}' :: rest)) = _ := skipSpace_append hpad _
  have hobject : '{' :: cs ++ ['}'] ++ rest = '{' :: (cs ++ '}' :: rest) := by simp
  rw [hobject]
  simp only [read, hspace, skipSpace_cons (show isSpace '{' = false by decide), hmembers,
    hcomplete, endMembers_blank hafter]
  rfl

end Fields

/-- A field with a default has it where nothing is given. -/
theorem Fields.complete_defaulted {αs : List Type} {name : String} {codec : Codec α} (default : α)
    {rest : Fields αs} (slot : Option α) {slots : Slots αs} {t : Tuple αs}
    (h : rest.complete slots = .ok t) :
    (cons name codec (.defaulted default) rest).complete (slot, slots) =
      .ok (slot.getD default, t) := by
  cases slot with
  | none => exact congrArg (Except.map (default, ·)) h
  | some a => exact congrArg (Except.map (a, ·)) h

/-- A text with blanks around it is decoded if it is read. -/
theorem Codec.decode_padded {β : Type} {c : Codec α} {text : β → List Char → Prop} {b : β} {a : α}
    {s : String} (hread : ∀ cs, text b cs → c.Reads maxDepth a cs) (h : Padded text b s.toList) :
    c.decode s = .ok a := by
  obtain ⟨before, body, after, hbefore, hbody, hafter, htext⟩ := h
  have hstops : Stops after := by
    have hstops := stops_nil.blank_append hafter
    rwa [List.append_nil] at hstops
  rw [decode, htext, hread body hbody hbefore hstops]
  dsimp only
  rw [finish, skipSpace_blank hafter]

/-- A record's codec reads any text of an object that gives its fields. -/
theorem Codec.reads_record {β : Type} {αs : List Type} {depth : Nat} {fields : Fields αs}
    (label : String) {toTuple : β → Tuple αs} {ofTuple : Tuple αs → β}
    (hnames : fields.names.Nodup) {s : Slots αs} {t : Tuple αs} {ms : List (String × List Char)}
    (h : fields.Held depth s ms) (hunknown : ∀ m ∈ ms, m.1 ∉ fields.names → AnyText m.2)
    (hcomplete : fields.complete s = .ok t) {cs : List Char} (htext : ObjectText ms cs) :
    (Codec.record label fields toTuple ofTuple).Reads (depth + 1) (ofTuple t) cs := by
  intro pad rest hpad _
  exact congrArg (Except.map fun r => (ofTuple r.1, r.2))
    (Fields.read_objectText hnames h hunknown hcomplete htext label hpad)

end NetRelocation.Json
