import Mathlib.Data.List.Forall2
import NetRelocation.Proofs.Decoded
import NetRelocation.Proofs.JsonTrees

/-!
# Objects in any order

Records, maps and tagged unions are read from the members of an object. A writer may give them in
any order, may leave out a member that stands for its value when it is missing, and may add members
of other names.

**Records** (`Fields.view_arranged`). `Arranged` says of members that those of the known names are
the given ones, in any order and with any others between them, and `Fields.Given` that the given
ones give the fields their values. A record looks at its members one after another, each in the
light of what was filled before; what counts in the end is that of each field's name there is one
member or none (`viewMembers_given`, by induction on the fields).

**Maps** (`Codec.view_map`). The last member of a key counts.

**Tagged unions** (`readTagged_text`). The tag may stand anywhere among the members. The others are
set aside in their order (`foldlM_setAside`), whatever text the object had, and the alternative
reads them as a record.
-/

namespace NetRelocation.Json

/-! ## Objects -/

/-- Members in any order, and anywhere between them members of names that are not known. -/
def Arranged (known : List String) (given members : List (String × Value)) : Prop :=
  ∃ others, (∀ m ∈ others, m.1 ∉ known) ∧ members.Perm (given ++ others)

theorem named_eq_nil_iff {β : Type} {name : String} {members : List (String × β)} :
    members.filter (·.1 = name) = [] ↔ ∀ m ∈ members, m.1 ≠ name := by
  simp only [List.filter_eq_nil_iff, decide_eq_true_eq, ne_eq]

/-- Of a known name there are the members that are given. -/
theorem Arranged.named {known : List String} {given members : List (String × Value)}
    (h : Arranged known given members) {name : String} (hname : name ∈ known) :
    (members.filter (·.1 = name)).Perm (given.filter (·.1 = name)) := by
  obtain ⟨others, hothers, hperm⟩ := h
  have hnone : others.filter (·.1 = name) = [] :=
    named_eq_nil_iff.2 fun m hm heq => hothers m hm (heq ▸ hname)
  have hfilter := hperm.filter (·.1 = name)
  rwa [List.filter_append, hnone, List.append_nil] at hfilter

/-- A name that is given once is there once. -/
theorem Arranged.once {name : String} {known : List String} {v : Value}
    {given members : List (String × Value)} (hname : name ∉ known)
    (hgiven : ∀ m ∈ given, m.1 ∈ known)
    (h : Arranged (name :: known) ((name, v) :: given) members) :
    members.filter (·.1 = name) = [(name, v)] := by
  have hnone : given.filter (·.1 = name) = [] :=
    named_eq_nil_iff.2 fun m hm heq => hname (heq ▸ hgiven m hm)
  have hfilter := h.named List.mem_cons_self
  rw [List.filter_cons_of_pos (by simp), hnone] at hfilter
  exact hfilter.eq_singleton

/-- Without one of the names the other members are still in any order. -/
theorem Arranged.without {name : String} {known : List String} {v : Value}
    {given members : List (String × Value)} (hname : name ∉ known)
    (hgiven : ∀ m ∈ given, m.1 ∈ known)
    (h : Arranged (name :: known) ((name, v) :: given) members) :
    Arranged known given (members.filter (·.1 ≠ name)) := by
  obtain ⟨others, hothers, hperm⟩ := h
  have hkept (ms : List (String × Value)) (hms : ∀ m ∈ ms, m.1 ≠ name) :
      ms.filter (·.1 ≠ name) = ms :=
    List.filter_eq_self.2 fun m hm => by simpa using hms m hm
  refine ⟨others, fun m hm hk => hothers m hm (List.mem_cons_of_mem _ hk), ?_⟩
  have hfilter := hperm.filter (·.1 ≠ name)
  rw [List.cons_append, List.filter_cons_of_neg (by simp), List.filter_append, hkept given,
    hkept others] at hfilter
  · exact hfilter
  · exact fun m hm heq => hothers m hm (heq ▸ List.mem_cons_self)
  · rintro m hm rfl
    exact hname (hgiven m hm)

/-- A member that may be left out if its value is the one that a missing member stands for. -/
def Optional (name : String) (shown : Value → Prop) (default : Prop)
    (given : List (String × Value)) : Prop :=
  (∃ v, shown v ∧ given = [(name, v)]) ∨ (default ∧ given = [])

/-! ## Records -/

namespace Fields

/-- Members that give the fields their values. -/
def Given : {αs : List Type} → Fields αs → Tuple αs → List (String × Value) → Prop
  | _, nil, _, given => given = []
  | _, cons name codec absent rest, (a, as), given =>
    ∃ own more, given = own ++ more ∧ rest.Given as more ∧
      Optional name (fun v => ∀ style, codec.view style v = .ok a) (absent.value? = some a) own

theorem Given.name_mem {αs : List Type} {fields : Fields αs} {t : Tuple αs}
    {given : List (String × Value)} (h : fields.Given t given) {m : String × Value}
    (hm : m ∈ given) : m.1 ∈ fields.names := by
  induction fields generalizing given with
  | nil =>
    cases h
    cases hm
  | cons name codec absent rest ih =>
    obtain ⟨a, as⟩ := t
    obtain ⟨own, more, rfl, hmore, hown⟩ := h
    rcases List.mem_append.1 hm with hm | hm
    · obtain ⟨v, -, rfl⟩ | ⟨-, rfl⟩ := hown
      · cases List.mem_singleton.1 hm
        exact List.mem_cons_self
      · cases hm
    · exact List.mem_cons_of_mem _ (ih hmore hm)

theorem viewMembers_nil (style : TreeStyle) (members : List (String × Value)) :
    nil.viewMembers style () members = .ok () := by
  induction members with
  | nil => rfl
  | cons m members ih => exact ih

/-- A member that is no field is passed over. -/
theorem viewMember_unknown {αs : List Type} (fields : Fields αs) (style : TreeStyle) {key : String}
    (hkey : key ∉ fields.names) (v : Value) (s : Slots αs) :
    fields.viewMember style key v s = .ok s := by
  induction fields with
  | nil => rfl
  | cons name codec absent rest ih =>
    obtain ⟨slot, slots⟩ := s
    obtain ⟨hne, hrest⟩ := not_or.1 (mt List.mem_cons.2 hkey)
    have hview := ih hrest slots
    simp only [viewMember, if_neg hne, hview]
    rfl

/-- The one member of a field's name fills it, wherever it stands. -/
theorem viewMembers_found {α : Type} {αs : List Type} {name : String} {codec : Codec α}
    (absent : Absent α) {rest : Fields αs} {style : TreeStyle} (hname : name ∉ rest.names)
    {v : Value} {a : α} (hv : codec.view style v = .ok a) {members : List (String × Value)}
    (hfound : members.filter (·.1 = name) = [(name, v)]) {s s' : Slots αs}
    (hrest : rest.viewMembers style s members = .ok s') :
    (cons name codec absent rest).viewMembers style (none, s) members = .ok (some a, s') := by
  induction members generalizing s with
  | nil => cases hfound
  | cons m members ih =>
    obtain ⟨key, w⟩ := m
    rw [viewMembers_cons] at hrest
    refine (viewMembers_cons (cons name codec absent rest) style (none, s) key w members).trans ?_
    by_cases hkey : key = name
    · subst hkey
      rw [List.filter_cons_of_pos (by simp)] at hfound
      obtain ⟨hw, hnone⟩ := List.cons.inj hfound
      cases hw
      rw [viewMember_unknown rest style hname] at hrest
      dsimp only at hrest
      have hfill : (cons key codec absent rest).viewMember style key v (none, s) =
          .ok (some a, s) := by
        simp only [viewMember, if_true, hv]
        rfl
      rw [hfill]
      dsimp only
      rw [viewMembers_lift codec absent rest style (some a) s members
        (named_eq_nil_iff.1 hnone), hrest]
      rfl
    · rw [List.filter_cons_of_neg (by simpa using hkey)] at hfound
      have hpass : (cons name codec absent rest).viewMember style key w (none, s) =
          (rest.viewMember style key w s).map (none, ·) := if_neg hkey
      cases hview : rest.viewMember style key w s with
      | error e =>
        rw [hview] at hrest
        cases hrest
      | ok s₁ =>
        rw [hview] at hrest hpass
        rw [hpass]
        exact ih hfound hrest

/-- The fields are filled as far as they are given, and the others stand for their values. -/
theorem viewMembers_given {αs : List Type} {fields : Fields αs} (hnames : fields.names.Nodup)
    {t : Tuple αs} {given members : List (String × Value)} (h : fields.Given t given)
    (hmembers : ∀ name ∈ fields.names,
      (members.filter (·.1 = name)).Perm (given.filter (·.1 = name))) (style : TreeStyle) :
    ∃ s, fields.viewMembers style fields.blank members = .ok s ∧ fields.complete s = .ok t := by
  induction fields generalizing given with
  | nil => exact ⟨(), viewMembers_nil style members, rfl⟩
  | cons name codec absent rest ih =>
    obtain ⟨a, as⟩ := t
    obtain ⟨own, more, rfl, hmore, hown⟩ := h
    obtain ⟨hname, hrest⟩ := List.nodup_cons.1 hnames
    have hnone : more.filter (·.1 = name) = [] :=
      named_eq_nil_iff.2 fun m hm heq => hname (heq ▸ hmore.name_mem hm)
    have hown_names : ∀ m ∈ own, m.1 = name := by
      obtain ⟨v, -, rfl⟩ | ⟨-, rfl⟩ := hown
      · exact fun m hm => congrArg Prod.fst (List.mem_singleton.1 hm)
      · exact nofun
    have hothers : ∀ other ∈ rest.names,
        (members.filter (·.1 = other)).Perm (more.filter (·.1 = other)) := by
      intro other hother
      have hfilter := hmembers other (List.mem_cons_of_mem _ hother)
      have hskip : own.filter (·.1 = other) = [] :=
        named_eq_nil_iff.2 fun m hm heq => hname (hown_names m hm ▸ heq ▸ hother)
      rwa [List.filter_append, hskip, List.nil_append] at hfilter
    have hself := hmembers name List.mem_cons_self
    rw [List.filter_append, hnone, List.append_nil] at hself
    obtain ⟨s, hview, hcomplete⟩ := ih hrest hmore hothers
    obtain ⟨v, hv, rfl⟩ | ⟨hdefault, rfl⟩ := hown
    · rw [List.filter_cons_of_pos (by simp), List.filter_nil] at hself
      refine ⟨(some a, s), viewMembers_found absent hname (hv style) (hself.eq_singleton) hview, ?_⟩
      cases absent <;> simp only [complete, hcomplete] <;> rfl
    · have hunnamed := named_eq_nil_iff.1 hself.eq_nil
      refine ⟨(none, s), ?_, ?_⟩
      · refine (viewMembers_lift codec absent rest style none _ members hunnamed).trans ?_
        rw [hview]
        rfl
      · cases absent with
        | required => cases hdefault
        | implied _ =>
          cases hdefault
          simp only [complete, hcomplete]
          rfl
        | defaulted _ =>
          cases hdefault
          simp only [complete, hcomplete]
          rfl

/-- A record is read from its members in any order, and members of other names do not count. -/
theorem view_arranged {αs : List Type} {fields : Fields αs} (hnames : fields.names.Nodup)
    {t : Tuple αs} {given members : List (String × Value)} (h : fields.Given t given)
    (hmembers : Arranged fields.names given members) (style : TreeStyle) (label : String) :
    fields.view style label (.object members) = .ok t := by
  obtain ⟨s, hview, hcomplete⟩ := viewMembers_given hnames h (fun _ => hmembers.named) style
  rw [view, hview]
  exact hcomplete

end Fields

/-- A record's codec reads its members in any order. -/
theorem Codec.view_record {β : Type} {αs : List Type} {fields : Fields αs}
    {toTuple : β → Tuple αs} {ofTuple : Tuple αs → β} (label : String)
    (hnames : fields.names.Nodup) {t : Tuple αs} {given members : List (String × Value)}
    (h : fields.Given t given) (hmembers : Arranged fields.names given members)
    (style : TreeStyle) :
    (Codec.record label fields toTuple ofTuple).view style (.object members) = .ok (ofTuple t) := by
  have hview := fields.view_arranged hnames h hmembers style label
  simp only [record, hview]
  rfl

/-- An alternative reads the members of its record in any order. -/
theorem Tagged.view_arranged {α : Type} {αs : List Type} {fields : Fields αs} {mk : Tuple αs → α}
    (name label : String) (hnames : fields.names.Nodup) {t : Tuple αs}
    {given members : List (String × Value)} (h : fields.Given t given)
    (hmembers : Arranged fields.names given members) :
    (Tagged.record name label fields mk).view (.object members) = .ok (mk t) := by
  have hview := fields.view_arranged hnames h hmembers .buffered label
  simp only [record, hview]
  rfl

/-! ## Lists and maps -/

namespace Codec

variable {α : Type}

theorem viewAll_forall₂ {c : Codec α} {style : TreeStyle} {as : List α} {vs : List Value}
    (h : List.Forall₂ (fun a v => c.view style v = .ok a) as vs) :
    viewAll c style vs = .ok as := by
  induction h with
  | nil => rfl
  | cons hfirst _ ih =>
    rw [viewAll, hfirst]
    dsimp only
    rw [ih]
    rfl

/-- The last value of a key. -/
def lastOf (key : String) (l : List (String × α)) : Option α :=
  (l.reverse.find? (·.1 = key)).map (·.2)

theorem lastOf_cons (key : String) (p : String × α) (l : List (String × α)) :
    lastOf key (p :: l) = (lastOf key l).or (if p.1 = key then some p.2 else none) := by
  unfold lastOf
  rw [List.reverse_cons, List.find?_append]
  cases l.reverse.find? (·.1 = key) with
  | some q => rfl
  | none => by_cases hp : p.1 = key <;> simp [hp]

theorem get?_foldl_insert (l : List (String × α)) (m : SortedMap String α) (key : String) :
    (l.foldl (fun m p => m.insert p.1 p.2) m).get? key = (lastOf key l).or (m.get? key) := by
  induction l generalizing m with
  | nil => rfl
  | cons p l ih =>
    rw [List.foldl_cons, ih, lastOf_cons, Option.or_assoc]
    congr 1
    by_cases hp : p.1 = key
    · subst hp
      simp
    · rw [SortedMap.get?_insert_ne _ _ (Ne.symm hp)]
      simp [hp]

theorem viewEntries_map {c : Codec α} {style : TreeStyle} {write : α → Value}
    (hview : ∀ a, c.view style (write a) = .ok a) (l : List (String × α))
    (m : SortedMap String α) :
    viewEntries c style m (l.map fun p => (p.1, write p.2)) =
      .ok (l.foldl (fun m p => m.insert p.1 p.2) m) := by
  induction l generalizing m with
  | nil => rfl
  | cons p l ih =>
    rw [List.map_cons, viewEntries, hview]
    exact ih (m.insert p.1 p.2)

/-- A map is read from members in any order; of several with one key the last counts. -/
theorem view_map {c : Codec α} {style : TreeStyle} {write : α → Value}
    (hview : ∀ a, c.view style (write a) = .ok a) {l : List (String × α)}
    {m : SortedMap String α} (h : ∀ key, m.get? key = lastOf key l) :
    c.map.view style (.object (l.map fun p => (p.1, write p.2))) = .ok m := by
  refine (viewEntries_map hview l .empty).trans (congrArg Except.ok ?_)
  refine SortedMap.ext_get? fun key => ?_
  rw [get?_foldl_insert, h key, SortedMap.get?_empty, Option.or_none]

end Codec

/-! ## Unions tagged from inside -/

section

variable {α : Type} {tag : String} {ts : List (Tagged α)} {t : Tagged α}

/-- What the reader of a tagged object makes of a member: the tag picks the alternative, all others
are set aside. -/
def setAside (tag : String) (ts : List (Tagged α)) (s : Option (Tagged α) × List (String × Value))
    (m : String × Value) : Option (Option (Tagged α) × List (String × Value)) :=
  if m.1 = tag then
    match s.1, m.2 with
    | none, .string name => (ts.find? (·.name = name)).map fun t => (some t, s.2)
    | _, _ => none
  else some (s.1, m :: s.2)

theorem foldlM_setAside_others {others : List (String × Value)} (h : ∀ m ∈ others, m.1 ≠ tag)
    (found : Option (Tagged α)) (done : List (String × Value)) :
    others.foldlM (setAside tag ts) (found, done) = some (found, others.reverse ++ done) := by
  induction others generalizing done with
  | nil => rfl
  | cons m others ih =>
    obtain ⟨hm, hothers⟩ := List.forall_mem_cons.1 h
    rw [List.foldlM_cons, setAside, if_neg hm, List.reverse_cons, List.append_assoc]
    exact ih hothers (m :: done)

/-- With one tag among them, the other members are set aside in order. -/
theorem foldlM_setAside {name : String} (hfind : ts.find? (·.name = name) = some t)
    {members : List (String × Value)}
    (htag : members.filter (·.1 = tag) = [(tag, .string name)]) (done : List (String × Value)) :
    members.foldlM (setAside tag ts) (none, done) =
      some (some t, (members.filter (·.1 ≠ tag)).reverse ++ done) := by
  induction members generalizing done with
  | nil => cases htag
  | cons m members ih =>
    by_cases hm : m.1 = tag
    · rw [List.filter_cons_of_pos (by simpa using hm)] at htag
      obtain ⟨rfl, hnone⟩ := List.cons.inj htag
      have hothers := named_eq_nil_iff.1 hnone
      have hkept : members.filter (·.1 ≠ tag) = members :=
        List.filter_eq_self.2 fun m hm => by simpa using hothers m hm
      have hpick : setAside tag ts (none, done) (tag, .string name) = some (some t, done) := by
        simp only [setAside, if_true, hfind]
        rfl
      rw [List.foldlM_cons, hpick, List.filter_cons_of_neg (by simp), hkept]
      exact foldlM_setAside_others hothers (some t) done
    · rw [List.filter_cons_of_neg (by simpa using hm)] at htag
      rw [List.foldlM_cons, setAside, if_neg hm, List.filter_cons_of_pos (by simpa using hm),
        List.reverse_cons, List.append_assoc]
      exact ih htag (m :: done)

theorem stringText_of_value {depth : Nat} {s : String} {cs : List Char}
    (h : ValueText depth (.string s) cs) : StringText s cs := by
  have hscalar {v : Value} (hv : v = .string s) (h : ScalarText v cs) : StringText s cs := by
    cases h with
    | string htext =>
      cases hv
      exact htext
    | @number x _ _ _ _ => cases x <;> cases hv
    | _ => cases hv
  cases depth with
  | zero => exact hscalar rfl h
  | succ depth =>
    cases h with
    | scalar h => exact hscalar rfl h

theorem exists_inside_of_value {depth : Nat} {members : List (String × Value)} {cs : List Char}
    (h : ValueText (depth + 1) (.object members) cs) :
    ∃ inside, Inside (MemberText (ValueText depth)) members inside ∧
      cs = '{' :: inside ++ ['}'] := by
  have hscalar {v : Value} (hv : v = .object members) (h : ScalarText v cs) : False := by
    cases h with
    | @number x _ _ _ _ => cases x <;> cases hv
    | _ => cases hv
  cases h with
  | scalar h => exact (hscalar rfl h).elim
  | object h => exact ⟨_, h, rfl⟩

theorem readTaggedName_text {name : String} (hfind : ts.find? (·.name = name) = some t)
    {pad cs : List Char} (hpad : Blank pad) (hcs : StringText name cs) (rest : List Char) :
    readTaggedName ts (pad ++ (cs ++ rest)) = .ok (t, rest) := by
  obtain ⟨tail, htail, hstring⟩ := hcs.read rest
  rw [htail]
  simp only [readTaggedName, skipSpace_append hpad,
    skipSpace_cons (show isSpace '"' = false by decide), hstring, hfind]

theorem takesMember_taggedMember (depth : Nat) :
    TakesMember (ValueText depth) (taggedMember tag ts depth) (setAside tag ts) := by
  intro s m u gap pad cs rest hu hgap hpad hcs hrest
  obtain ⟨found, done⟩ := s
  obtain ⟨key, v⟩ := m
  by_cases hkey : key = tag
  · rw [setAside, if_pos hkey] at hu
    obtain ⟨rfl, name, rfl, t, hfind, rfl⟩ : found = none ∧ ∃ name, v = .string name ∧
        ∃ t, ts.find? (·.name = name) = some t ∧ u = (some t, done) := by
      cases found with
      | some t => cases hu
      | none =>
        cases v with
        | string name =>
          obtain ⟨t, hfind, ht⟩ := Option.map_eq_some_iff.1 hu
          exact ⟨rfl, name, rfl, t, hfind, ht.symm⟩
        | _ => cases hu
    rw [taggedMember, if_pos hkey, readColon_blank hgap]
    dsimp only
    rw [readTaggedName_text hfind hpad (stringText_of_value hcs)]
    rfl
  · rw [setAside, if_neg hkey] at hu
    cases hu
    rw [taggedMember, if_neg hkey, readColon_blank hgap]
    dsimp only
    rw [Value.read_blank hpad, hcs.read hrest]
    rfl

/-- A tagged object is read as the alternative that its tag names, wherever the tag stands. -/
theorem readTagged_text {depth : Nat} {name : String}
    (hfind : ts.find? (·.name = name) = some t) {members : List (String × Value)}
    (htag : members.filter (·.1 = tag) = [(tag, .string name)]) {pad cs : List Char}
    (hpad : Blank pad) (hcs : ValueText (depth + 1) (.object members) cs) (label : String)
    (rest : List Char) :
    readTagged tag label ts (depth + 1) (pad ++ (cs ++ rest)) =
      (t.view (.object (members.filter (·.1 ≠ tag)))).map (·, rest) := by
  obtain ⟨inside, hinside, rfl⟩ := exists_inside_of_value hcs
  obtain ⟨after, hafter, hmembers⟩ := readMembers_inside (takesMember_taggedMember depth) hinside
    rest (foldlM_setAside hfind htag [])
  have htext : pad ++ ('{' :: inside ++ ['}'] ++ rest) = pad ++ '{' :: (inside ++ '}' :: rest) := by
    simp
  rw [htext]
  simp only [readTagged, skipSpace_append hpad,
    skipSpace_cons (show isSpace '{' = false by decide), hmembers, endMembers_blank hafter,
    List.append_nil, List.reverse_reverse]

end

end NetRelocation.Json
