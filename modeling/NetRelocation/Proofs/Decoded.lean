import NetRelocation.Proofs.Codecs

/-!
# Values that were decoded

A codec need not carry every value, but it may carry all that it reads (`Codec.Closed`). Then
decoding undoes encoding for each value that was decoded from any text, of whatever form
(`Codec.Closed.decode_encode`).

Records are closed if their fields are (`Codec.closed_record`). They are read from objects, with the
members in any order, from arrays, and with fields left out, so the values that fields stand for
when they are not given have to be carried too (`Fields.Closed`).
-/

namespace NetRelocation.Json

variable {α β σ : Type}

/-! ## Entries -/

/-- What a step for the elements of an array keeps, the whole array keeps. -/
theorem readItems_keeps {item : σ → List Char → Step σ} {P : σ → Prop}
    (hitem : ∀ s cs s' rest, P s → item s cs = .ok (s', rest) → P s') {fuel : Nat} {first : Bool}
    {s s' : σ} {cs rest : List Char} (hs : P s)
    (h : readItems item fuel first s cs = .ok (s', rest)) : P s' := by
  induction fuel generalizing first s cs with
  | zero => cases h
  | succ fuel ih =>
    rw [readItems] at h
    split at h
    · cases h
    · cases h
      exact hs
    · split at h
      · cases h
      · rename_i hread
        exact ih (hitem _ _ _ _ hs hread) h

/-- What a step for the members of an object keeps, the whole object keeps. -/
theorem readMembers_keeps {member : σ → String → List Char → Step σ} {P : σ → Prop}
    (hmember : ∀ s key cs s' rest, P s → member s key cs = .ok (s', rest) → P s') {fuel : Nat}
    {first : Bool} {s s' : σ} {cs rest : List Char} (hs : P s)
    (h : readMembers member fuel first s cs = .ok (s', rest)) : P s' := by
  induction fuel generalizing first s cs with
  | zero => cases h
  | succ fuel ih =>
    rw [readMembers] at h
    split at h
    · cases h
    · cases h
      exact hs
    · split at h
      · cases h
      · split at h
        · cases h
        · rename_i hread
          exact ih (hmember _ _ _ _ _ hs hread) h

theorem ok_of_map {ε : Type} {f : α → β} {r : Except ε α} {b : β} (h : r.map f = .ok b) :
    ∃ a, r = .ok a ∧ f a = b := by
  cases r with
  | error e => cases h
  | ok a =>
    cases h
    exact ⟨a, rfl, rfl⟩

/-! ## Codecs -/

/-- A codec carries what it reads: it can be written and read again. -/
def Codec.Closed (c : Codec α) (height : Nat) : Prop :=
  ∀ depth cs a rest, c.read depth cs = .ok (a, rest) → c.Carries a height

namespace Codec

/-- What was decoded is decoded again from its own text. -/
theorem Closed.decode_encode {c : Codec α} {height : Nat} (h : c.Closed height)
    (hheight : height ≤ maxDepth) {s : String} {a : α} (hs : c.decode s = .ok a) :
    c.decode (c.encode a) = .ok a := by
  unfold decode at hs
  split at hs
  · cases hs
  · rename_i r hread
    obtain ⟨b, rest⟩ := r
    unfold finish at hs
    dsimp only at hs
    split at hs
    · cases hs
      exact (h _ _ _ _ hread).decode_encode hheight
    · cases hs

theorem closed_of_forall {c : Codec α} {height : Nat} (h : ∀ a, c.Carries a height) :
    c.Closed height := fun _ _ a _ _ => h a

theorem closed_parsed {display : α → String} {parse : String → Except String α}
    (h : ∀ s a, parse s = .ok a → parse (display a) = .ok a) :
    (parsed display parse).Closed 0 := by
  intro depth cs a rest hread
  simp only [parsed] at hread
  split at hread
  · cases hread
  · split at hread
    · rename_i hparse
      cases hread
      exact carries_parsed (h _ _ hparse)
    · cases hread

theorem closed_option {c : Codec α} (hnull : ∀ a, c.write a ≠ .null) {height : Nat}
    (h : c.Closed height) : c.option.Closed height := by
  intro depth cs o rest hread
  refine carries_option hnull fun a ha => ?_
  simp only [option] at hread
  split at hread
  · obtain ⟨_, -, hnone⟩ := ok_of_map hread
    cases hnone
    cases ha
  · obtain ⟨r, hvalue, hsome⟩ := ok_of_map hread
    cases hsome
    cases ha
    exact h _ _ _ _ hvalue

theorem closed_list {c : Codec α} {height : Nat} (h : c.Closed height) :
    c.list.Closed (height + 1) := by
  intro depth cs l rest hread
  refine carries_list fun a ha => ?_
  simp only [list] at hread
  split at hread
  · cases hread
  · rename_i cs' depth' _
    obtain ⟨⟨items, rest'⟩, harray, hitems⟩ := ok_of_map hread
    cases hitems
    unfold readArray at harray
    split at harray
    · cases harray
    · rename_i items' cs'' hread
      obtain ⟨_, -, hend⟩ := ok_of_map harray
      cases hend
      have hall : ∀ b ∈ items, c.Carries b height := by
        refine readItems_keeps (P := fun l => ∀ b ∈ l, c.Carries b height) ?_ (by simp) hread
        intro done cs done' rest hdone hitem
        obtain ⟨r, hread, hcons⟩ := ok_of_map hitem
        cases hcons
        exact List.forall_mem_cons.2 ⟨h _ _ _ _ hread, hdone⟩
      exact hall a (List.mem_reverse.1 ha)
  · cases hread

end Codec

/-! ## Records -/

/-- What an absent field stands for. -/
def Absent.value? : Absent α → Option α
  | .required => none
  | .implied a => some a
  | .defaulted a => some a

namespace Fields

/-- Every field carries what it reads, and what it stands for when it is not given. -/
def Closed : {αs : List Type} → Fields αs → Nat → Prop
  | _, nil, _ => True
  | _, cons _ codec absent rest, height =>
    codec.Closed height ∧ (∀ a ∈ absent.value?, codec.Carries a height) ∧ rest.Closed height

section

variable {αs : List Type} {name : String} {codec : Codec α} {rest : Fields αs} {height : Nat}

theorem Closed.cons_of_forall {absent : Absent α} (h : ∀ a, codec.Carries a height)
    (hrest : rest.Closed height) : (cons name codec absent rest).Closed height :=
  ⟨Codec.closed_of_forall h, fun a _ => h a, hrest⟩

theorem Closed.cons_required (h : codec.Closed height) (hrest : rest.Closed height) :
    (cons name codec .required rest).Closed height := ⟨h, nofun, hrest⟩

theorem Closed.cons_optional (hnull : ∀ a, codec.write a ≠ .null) (h : codec.Closed height)
    (hrest : rest.Closed height) :
    (cons name codec.option (.implied none) rest).Closed height := by
  refine ⟨Codec.closed_option hnull h, fun o ho => ?_, hrest⟩
  cases ho
  exact Codec.carries_option hnull nofun

end

/-- Every field carries its value, as far as it is known. -/
def CarrySlots : {αs : List Type} → Fields αs → Slots αs → Nat → Prop
  | _, nil, _, _ => True
  | _, cons _ codec _ rest, (slot, slots), height =>
    (∀ a ∈ slot, codec.Carries a height) ∧ rest.CarrySlots slots height

theorem carrySlots_blank {αs : List Type} (fields : Fields αs) (height : Nat) :
    fields.CarrySlots fields.blank height := by
  induction fields with
  | nil => trivial
  | cons name codec absent rest ih => exact ⟨nofun, ih⟩

theorem carrySlots_member {αs : List Type} {fields : Fields αs} {height depth : Nat}
    (h : fields.Closed height) {s s' : Slots αs} {key : String} {cs rest : List Char}
    (hs : fields.CarrySlots s height) (hread : fields.member depth key s cs = .ok (s', rest)) :
    fields.CarrySlots s' height := by
  induction fields with
  | nil => trivial
  | cons name codec absent fields ih =>
    obtain ⟨slot, slots⟩ := s
    simp only [member] at hread
    split at hread
    · split at hread
      · cases hread
      · split at hread
        · cases hread
        · obtain ⟨r, hvalue, hslot⟩ := ok_of_map hread
          cases hslot
          refine ⟨fun a ha => ?_, hs.2⟩
          cases ha
          exact h.1 _ _ _ _ hvalue
    · obtain ⟨r, hvalue, hslot⟩ := ok_of_map hread
      cases hslot
      exact ⟨hs.1, ih h.2.2 hs.2 hvalue⟩

theorem carry_complete {αs : List Type} {fields : Fields αs} {height : Nat}
    (h : fields.Closed height) {s : Slots αs} {t : Tuple αs} (hs : fields.CarrySlots s height)
    (hcomplete : fields.complete s = .ok t) : fields.Carry t height := by
  induction fields with
  | nil => trivial
  | cons name codec absent fields ih =>
    obtain ⟨slot, slots⟩ := s
    cases slot with
    | some a =>
      obtain ⟨as, has, ht⟩ :=
        ok_of_map (show (fields.complete slots).map (a, ·) = .ok t from hcomplete)
      cases ht
      exact ⟨hs.1 a rfl, ih h.2.2 hs.2 has⟩
    | none =>
      cases absent with
      | required => cases hcomplete
      | implied a =>
        obtain ⟨as, has, ht⟩ :=
          ok_of_map (show (fields.complete slots).map (a, ·) = .ok t from hcomplete)
        cases ht
        exact ⟨h.2.1 a rfl, ih h.2.2 hs.2 has⟩
      | defaulted a =>
        obtain ⟨as, has, ht⟩ :=
          ok_of_map (show (fields.complete slots).map (a, ·) = .ok t from hcomplete)
        cases ht
        exact ⟨h.2.1 a rfl, ih h.2.2 hs.2 has⟩

theorem carry_items {αs : List Type} {fields : Fields αs} {height depth : Nat}
    (h : fields.Closed height) {expected : String} {done : Nat} {t : Tuple αs}
    {cs rest : List Char} (hread : fields.items depth expected done cs = .ok (t, rest)) :
    fields.Carry t height := by
  induction fields generalizing done cs with
  | nil => trivial
  | cons name codec absent fields ih =>
    simp only [items] at hread
    split at hread
    · cases hread
    · split at hread
      · cases hread
      · rename_i hvalue
        obtain ⟨r, hmore, ht⟩ := ok_of_map hread
        cases ht
        exact ⟨h.1 _ _ _ _ hvalue, ih h.2.2 hmore⟩
    · split at hread
      · obtain ⟨r, hmore, ht⟩ := ok_of_map hread
        cases ht
        exact ⟨h.2.1 _ rfl, ih h.2.2 hmore⟩
      · cases hread

/-- The fields of a record that was read, from an object or an array, carry their values. -/
theorem carry_read {αs : List Type} {fields : Fields αs} {height depth : Nat}
    (h : fields.Closed height) {label : String} {t : Tuple αs} {cs rest : List Char}
    (hread : fields.read label depth cs = .ok (t, rest)) : fields.Carry t height := by
  unfold Fields.read at hread
  split at hread
  · cases hread
  · cases hread
  · split at hread
    · cases hread
    · rename_i s cs' hmembers
      split at hread
      · cases hread
      · rename_i t' hcomplete
        obtain ⟨_, -, ht⟩ := ok_of_map hread
        cases ht
        -- members come in any order, so the invariant is about the fields filled so far
        have hslots : fields.CarrySlots s height :=
          readMembers_keeps (P := fun s => fields.CarrySlots s height)
            (fun _ _ _ _ _ hs hmember => carrySlots_member h hs hmember)
            (carrySlots_blank fields height) hmembers
        exact carry_complete h hslots hcomplete
  · split at hread
    · cases hread
    · rename_i hitems
      obtain ⟨_, -, ht⟩ := ok_of_map hread
      cases ht
      exact carry_items h hitems
  · cases hread

end Fields

/-- A record whose fields carry what they read carries what it reads. -/
theorem Codec.closed_record {αs : List Type} {fields : Fields αs} {toTuple : β → Tuple αs}
    {ofTuple : Tuple αs → β} (label : String) (hnames : fields.names.Nodup)
    (hto : ∀ t, toTuple (ofTuple t) = t) (hof : ∀ b, ofTuple (toTuple b) = b) {height : Nat}
    (h : fields.Closed height) :
    (Codec.record label fields toTuple ofTuple).Closed (height + 1) := by
  intro depth cs b rest hread
  obtain ⟨r, hfields, hb⟩ := ok_of_map hread
  cases hb
  refine carries_record label hnames (hof _) ?_
  rw [hto]
  exact Fields.carry_read h hfields

end NetRelocation.Json
