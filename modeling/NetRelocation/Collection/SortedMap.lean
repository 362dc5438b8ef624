/-!
# Sorted maps and sets

A map from an ordered key type is a list of pairs with strictly increasing keys. The order is
part of the value, so two maps that agree on every key are equal (**`SortedMap.ext_get?`**), and
the listing order is the key order.
-/

namespace NetRelocation

/-- A strict linear order with decidable comparison. -/
class KeyOrder (κ : Type) extends LT κ where
  decLt : DecidableLT κ
  irrefl : ∀ a : κ, ¬ a < a
  trans : ∀ {a b c : κ}, a < b → b < c → a < c
  trichotomy : ∀ a b : κ, a < b ∨ a = b ∨ b < a

namespace KeyOrder

instance {κ : Type} [KeyOrder κ] : DecidableLT κ := KeyOrder.decLt

instance : KeyOrder String where
  decLt := inferInstance
  irrefl := String.lt_irrefl
  trans := String.lt_trans
  trichotomy _ _ := Std.Trichotomous.rel_or_eq_or_rel_swap

theorem asymm {κ : Type} [KeyOrder κ] {a b : κ} (h : a < b) : ¬ b < a :=
  fun h' => irrefl a (trans h h')

end KeyOrder

/-! ## Lists of pairs -/

namespace SortedList

variable {κ α : Type} [KeyOrder κ]

/-- Put `v` under `k`, replacing what was there. -/
def insert (k : κ) (v : α) : List (κ × α) → List (κ × α)
  | [] => [(k, v)]
  | (k', v') :: rest =>
    if k < k' then (k, v) :: (k', v') :: rest
    else if k' < k then (k', v') :: insert k v rest
    else (k, v) :: rest

/-- The value under `k`. -/
def get? (k : κ) : List (κ × α) → Option α
  | [] => none
  | (k', v') :: rest =>
    if k < k' then none
    else if k' < k then get? k rest
    else some v'

/-- Drop the pair of `k`. -/
def erase (k : κ) : List (κ × α) → List (κ × α)
  | [] => []
  | (k', v') :: rest =>
    if k < k' then (k', v') :: rest
    else if k' < k then (k', v') :: erase k rest
    else rest

/-- Keys strictly increase. -/
abbrev Sorted (l : List (κ × α)) : Prop := l.Pairwise (·.1 < ·.1)

theorem mem_insert {k : κ} {v : α} {p : κ × α} :
    {l : List (κ × α)} → p ∈ insert k v l → p = (k, v) ∨ p ∈ l
  | [], h => by simpa [insert] using h
  | (k', v') :: rest, h => by
    unfold insert at h
    split at h
    · simpa using h
    · split at h
      · rcases List.mem_cons.1 h with h | h
        · exact .inr (h ▸ List.mem_cons_self)
        · exact (mem_insert h).imp_right (List.mem_cons_of_mem _)
      · rcases List.mem_cons.1 h with h | h
        · exact .inl h
        · exact .inr (List.mem_cons_of_mem _ h)

theorem sorted_insert (k : κ) (v : α) : {l : List (κ × α)} → Sorted l → Sorted (insert k v l)
  | [], _ => by simp [insert, Sorted]
  | (k', v') :: rest, h => by
    have hrest := (List.pairwise_cons.1 h).2
    have hhead := (List.pairwise_cons.1 h).1
    unfold insert
    split
    · rename_i hlt
      refine List.pairwise_cons.2 ⟨fun p hp => ?_, h⟩
      rcases List.mem_cons.1 hp with rfl | hp
      · exact hlt
      · exact KeyOrder.trans hlt (hhead p hp)
    · split
      · rename_i hgt
        refine List.pairwise_cons.2 ⟨fun p hp => ?_, sorted_insert k v hrest⟩
        rcases mem_insert hp with rfl | hp
        · exact hgt
        · exact hhead p hp
      · rename_i hnlt hngt
        have : k = k' := by
          rcases KeyOrder.trichotomy k k' with h | h | h
          · exact absurd h hnlt
          · exact h
          · exact absurd h hngt
        subst this
        exact List.pairwise_cons.2 ⟨hhead, hrest⟩

theorem get?_insert_self (k : κ) (v : α) : (l : List (κ × α)) → get? k (insert k v l) = some v
  | [] => by simp [insert, get?, KeyOrder.irrefl]
  | (k', v') :: rest => by
    unfold insert
    split
    · simp [get?, KeyOrder.irrefl]
    · split
      · rename_i h1 h2
        simp [get?, h1, h2, get?_insert_self k v rest]
      · simp [get?, KeyOrder.irrefl]

theorem get?_insert_ne {k j : κ} (v : α) (hne : j ≠ k) :
    (l : List (κ × α)) → get? j (insert k v l) = get? j l
  | [] => by
    rcases KeyOrder.trichotomy j k with h | h | h
    · simp [insert, get?, h]
    · exact absurd h hne
    · simp [insert, get?, h]
  | (k', v') :: rest => by
    unfold insert
    split
    · rename_i hk
      rcases KeyOrder.trichotomy j k with h | h | h
      · simp [get?, h, KeyOrder.trans h hk]
      · exact absurd h hne
      · simp [get?, h, KeyOrder.asymm h]
    · split
      · simp only [get?]
        rw [get?_insert_ne v hne rest]
      · rename_i hnlt hngt
        have : k = k' := by
          rcases KeyOrder.trichotomy k k' with h | h | h
          · exact absurd h hnlt
          · exact h
          · exact absurd h hngt
        subst this
        rcases KeyOrder.trichotomy j k with h | h | h
        · simp [get?, h]
        · exact absurd h hne
        · simp [get?, h, KeyOrder.asymm h]

theorem get?_eq_none_of_below {k : κ} : {l : List (κ × α)} → (∀ p ∈ l, k < p.1) → get? k l = none
  | [], _ => rfl
  | (k', v') :: rest, h => by simp [get?, h (k', v') List.mem_cons_self]

theorem sublist_erase (k : κ) : (l : List (κ × α)) → (erase k l).Sublist l
  | [] => List.Sublist.refl _
  | (k', v') :: rest => by
    unfold erase
    split
    · exact List.Sublist.refl _
    · split
      · exact (sublist_erase k rest).cons_cons _
      · exact List.sublist_cons_self _ _

theorem get?_erase_self {k : κ} : {l : List (κ × α)} → Sorted l → get? k (erase k l) = none
  | [], _ => rfl
  | (k', v') :: rest, h => by
    have h' := List.pairwise_cons.1 h
    unfold erase
    split
    · rename_i hlt
      simp [get?, hlt]
    · split
      · rename_i h1 h2
        simp [get?, h1, h2, get?_erase_self h'.2]
      · rename_i hnlt hngt
        have : k = k' := by
          rcases KeyOrder.trichotomy k k' with h | h | h
          · exact absurd h hnlt
          · exact h
          · exact absurd h hngt
        subst this
        exact get?_eq_none_of_below h'.1

theorem get?_erase_ne {k j : κ} (hne : j ≠ k) :
    {l : List (κ × α)} → Sorted l → get? j (erase k l) = get? j l
  | [], _ => rfl
  | (k', v') :: rest, h => by
    have h' := List.pairwise_cons.1 h
    unfold erase
    split
    · rfl
    · split
      · simp only [get?]
        rw [get?_erase_ne hne h'.2]
      · rename_i hnlt hngt
        have : k = k' := by
          rcases KeyOrder.trichotomy k k' with h | h | h
          · exact absurd h hnlt
          · exact h
          · exact absurd h hngt
        subst this
        rcases KeyOrder.trichotomy j k with hj | hj | hj
        · rw [get?_eq_none_of_below fun p hp => KeyOrder.trans hj (h'.1 p hp)]
          simp [get?, hj]
        · exact absurd hj hne
        · simp [get?, hj, KeyOrder.asymm hj]

theorem eq_of_get? : {l m : List (κ × α)} → Sorted l → Sorted m →
    (∀ k, get? k l = get? k m) → l = m
  | [], [], _, _, _ => rfl
  | [], (k, v) :: m, _, _, h => by simpa [get?, KeyOrder.irrefl] using h k
  | (k, v) :: l, [], _, _, h => by simpa [get?, KeyOrder.irrefl] using h k
  | (k, v) :: l, (j, w) :: m, hl, hm, h => by
    have hl' := List.pairwise_cons.1 hl
    have hm' := List.pairwise_cons.1 hm
    have hkj : k = j := by
      rcases KeyOrder.trichotomy k j with hlt | heq | hlt
      · have := h k
        simp [get?, KeyOrder.irrefl, hlt] at this
      · exact heq
      · have := h j
        simp [get?, KeyOrder.irrefl, hlt] at this
    subst hkj
    have hv : v = w := by simpa [get?, KeyOrder.irrefl] using h k
    subst hv
    congr 1
    refine eq_of_get? hl'.2 hm'.2 fun i => ?_
    rcases KeyOrder.trichotomy i k with hi | hi | hi
    · rw [get?_eq_none_of_below fun p hp => KeyOrder.trans hi (hl'.1 p hp),
        get?_eq_none_of_below fun p hp => KeyOrder.trans hi (hm'.1 p hp)]
    · subst hi
      rw [get?_eq_none_of_below hl'.1, get?_eq_none_of_below hm'.1]
    · simpa [get?, hi, KeyOrder.asymm hi] using h i

end SortedList

/-! ## Maps -/

/-- A finite map whose listing is ordered by key. -/
structure SortedMap (κ α : Type) [KeyOrder κ] where
  entries : List (κ × α)
  sorted : SortedList.Sorted entries

namespace SortedMap

variable {κ α : Type} [KeyOrder κ]

instance [DecidableEq κ] [DecidableEq α] : DecidableEq (SortedMap κ α) := fun a b =>
  decidable_of_iff (a.entries = b.entries) <| by
    cases a; cases b; simp

/-- The map without keys. -/
def empty : SortedMap κ α := ⟨[], List.Pairwise.nil⟩

instance : Inhabited (SortedMap κ α) := ⟨empty⟩

/-- The value under a key. -/
def get? (m : SortedMap κ α) (k : κ) : Option α := SortedList.get? k m.entries

/-- Put a value under a key, replacing what was there. -/
def insert (m : SortedMap κ α) (k : κ) (v : α) : SortedMap κ α :=
  ⟨SortedList.insert k v m.entries, SortedList.sorted_insert k v m.sorted⟩

def erase (m : SortedMap κ α) (k : κ) : SortedMap κ α :=
  ⟨SortedList.erase k m.entries, m.sorted.sublist (SortedList.sublist_erase k m.entries)⟩

def size (m : SortedMap κ α) : Nat := m.entries.length

/-- The map of a list of pairs; of pairs with one key the last one counts. -/
def ofList (l : List (κ × α)) : SortedMap κ α := l.foldl (fun m p => m.insert p.1 p.2) empty

/-- The pairs in key order. -/
def toList (m : SortedMap κ α) : List (κ × α) := m.entries

@[simp] theorem get?_empty (k : κ) : (empty : SortedMap κ α).get? k = none := rfl

@[simp] theorem get?_insert_self (m : SortedMap κ α) (k : κ) (v : α) :
    (m.insert k v).get? k = some v := SortedList.get?_insert_self k v m.entries

theorem get?_insert_ne (m : SortedMap κ α) {k j : κ} (v : α) (h : j ≠ k) :
    (m.insert k v).get? j = m.get? j := SortedList.get?_insert_ne v h m.entries

@[simp] theorem get?_erase_self (m : SortedMap κ α) (k : κ) : (m.erase k).get? k = none :=
  SortedList.get?_erase_self m.sorted

theorem get?_erase_ne (m : SortedMap κ α) {k j : κ} (h : j ≠ k) :
    (m.erase k).get? j = m.get? j := SortedList.get?_erase_ne h m.sorted

/-- A map is determined by what it holds under each key. -/
theorem ext_get? {a b : SortedMap κ α} (h : ∀ k, a.get? k = b.get? k) : a = b := by
  have : a.entries = b.entries := SortedList.eq_of_get? a.sorted b.sorted h
  cases a; cases b; simpa using this

end SortedMap

/-! ## Sets -/

/-- A finite set listed in increasing order. -/
structure SortedSet (κ : Type) [KeyOrder κ] where
  elements : List κ
  sorted : elements.Pairwise (· < ·)

namespace SortedSet

variable {κ : Type} [KeyOrder κ]

instance [DecidableEq κ] : DecidableEq (SortedSet κ) := fun a b =>
  decidable_of_iff (a.elements = b.elements) <| by
    cases a; cases b; simp

/-- The set without elements. -/
def empty : SortedSet κ := ⟨[], List.Pairwise.nil⟩

instance : Inhabited (SortedSet κ) := ⟨empty⟩

instance : Membership κ (SortedSet κ) := ⟨fun s k => k ∈ s.elements⟩

instance [DecidableEq κ] (k : κ) (s : SortedSet κ) : Decidable (k ∈ s) :=
  inferInstanceAs (Decidable (k ∈ s.elements))

/-- Add `k` to an increasing list. -/
def insertInto (k : κ) : List κ → List κ
  | [] => [k]
  | j :: rest =>
    if k < j then k :: j :: rest
    else if j < k then j :: insertInto k rest
    else j :: rest

theorem mem_insertInto {k j : κ} : {l : List κ} → (j ∈ insertInto k l ↔ j = k ∨ j ∈ l)
  | [] => by simp [insertInto]
  | i :: rest => by
    unfold insertInto
    split
    · simp
    · split
      · simp only [List.mem_cons, mem_insertInto]
        grind
      · rename_i h1 h2
        have : k = i := by
          rcases KeyOrder.trichotomy k i with h | h | h
          · exact absurd h h1
          · exact h
          · exact absurd h h2
        subst this
        simp

theorem sorted_insertInto (k : κ) : {l : List κ} → l.Pairwise (· < ·) →
    (insertInto k l).Pairwise (· < ·)
  | [], _ => by simp [insertInto]
  | i :: rest, h => by
    have h' := List.pairwise_cons.1 h
    unfold insertInto
    split
    · rename_i hlt
      refine List.pairwise_cons.2 ⟨fun j hj => ?_, h⟩
      rcases List.mem_cons.1 hj with rfl | hj
      · exact hlt
      · exact KeyOrder.trans hlt (h'.1 j hj)
    · split
      · rename_i hgt
        refine List.pairwise_cons.2 ⟨fun j hj => ?_, sorted_insertInto k h'.2⟩
        rcases mem_insertInto.1 hj with rfl | hj
        · exact hgt
        · exact h'.1 j hj
      · exact h

def insert (s : SortedSet κ) (k : κ) : SortedSet κ :=
  ⟨insertInto k s.elements, sorted_insertInto k s.sorted⟩

/-- Keep the elements that satisfy `p`. -/
def filter (s : SortedSet κ) (p : κ → Bool) : SortedSet κ :=
  ⟨s.elements.filter p, s.sorted.filter p⟩

def erase [DecidableEq κ] (s : SortedSet κ) (k : κ) : SortedSet κ := s.filter (· ≠ k)

/-- The elements in increasing order. -/
def toList (s : SortedSet κ) : List κ := s.elements

@[simp] theorem not_mem_empty (k : κ) : k ∉ (empty : SortedSet κ) := List.not_mem_nil

@[simp] theorem mem_insert {s : SortedSet κ} {k j : κ} : j ∈ s.insert k ↔ j = k ∨ j ∈ s :=
  mem_insertInto

@[simp] theorem mem_filter {s : SortedSet κ} {p : κ → Bool} {k : κ} :
    k ∈ s.filter p ↔ k ∈ s ∧ p k = true := List.mem_filter

@[simp] theorem mem_erase [DecidableEq κ] {s : SortedSet κ} {k j : κ} :
    j ∈ s.erase k ↔ j ∈ s ∧ j ≠ k := by
  simp [erase]

theorem eq_empty_of_forall_not_mem {s : SortedSet κ} (h : ∀ k, k ∉ s) : s = empty := by
  obtain ⟨elements, sorted⟩ := s
  obtain rfl : elements = [] := List.eq_nil_iff_forall_not_mem.2 h
  rfl

@[simp] theorem mem_toList {s : SortedSet κ} {k : κ} : k ∈ s.toList ↔ k ∈ s := Iff.rfl

end SortedSet

end NetRelocation
