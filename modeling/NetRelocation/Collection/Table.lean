/-!
# Tables

A table maps keys with decidable equality to values and lists them in the order in which the
keys first came in. Each key occurs once (`Table.nodup`), so the number of entries is the number
of keys.
-/

namespace NetRelocation

/-! ## Lists of rows -/

namespace Rows

variable {κ α : Type} [DecidableEq κ]

/-- The value in the row of `k`. -/
def get? (k : κ) : List (κ × α) → Option α
  | [] => none
  | (k', v) :: rest => if k' = k then some v else get? k rest

/-- Replace the value in the row of `k`, or add a row at the end. -/
def put (k : κ) (v : α) : List (κ × α) → List (κ × α)
  | [] => [(k, v)]
  | (k', v') :: rest => if k' = k then (k, v) :: rest else (k', v') :: put k v rest

def drop (k : κ) (l : List (κ × α)) : List (κ × α) := l.filter (·.1 ≠ k)

theorem keys_put (k : κ) (v : α) : (l : List (κ × α)) →
    (put k v l).map (·.1) = if k ∈ l.map (·.1) then l.map (·.1) else l.map (·.1) ++ [k]
  | [] => by simp [put]
  | (k', v') :: rest => by
    unfold put
    split
    · rename_i h
      subst h
      simp
    · rename_i h
      simp only [List.map_cons, keys_put k v rest, List.mem_cons, List.cons_append]
      have : k ≠ k' := fun e => h e.symm
      by_cases hk : k ∈ rest.map (·.1) <;> simp [hk, this]

theorem nodup_put {k : κ} {v : α} {l : List (κ × α)} (h : (l.map (·.1)).Nodup) :
    ((put k v l).map (·.1)).Nodup := by
  rw [keys_put]
  split
  · exact h
  · rename_i hk
    exact List.nodup_append.2 ⟨h, by simp, by
      intro a ha b hb
      rw [List.mem_singleton.1 hb]
      exact fun e => hk (e ▸ ha)⟩

theorem get?_put_self (k : κ) (v : α) : (l : List (κ × α)) → get? k (put k v l) = some v
  | [] => by simp [put, get?]
  | (k', v') :: rest => by
    unfold put
    split
    · simp [get?]
    · rename_i h
      simp [get?, h, get?_put_self k v rest]

theorem get?_put_ne {k j : κ} (v : α) (h : j ≠ k) :
    (l : List (κ × α)) → get? j (put k v l) = get? j l
  | [] => by simp [put, get?, h.symm]
  | (k', v') :: rest => by
    unfold put
    split
    · rename_i hk
      subst hk
      simp [get?, h.symm]
    · simp only [get?]
      rw [get?_put_ne v h rest]

theorem get?_drop_self (k : κ) : (l : List (κ × α)) → get? k (drop k l) = none
  | [] => rfl
  | (k', v') :: rest => by
    have ih := get?_drop_self k rest
    unfold drop at ih ⊢
    by_cases h : k' = k
    · simpa [h] using ih
    · simp only [List.filter_cons, h, ne_eq, not_false_eq_true, decide_true, if_true, get?,
        if_false]
      exact ih

theorem get?_drop_ne {k j : κ} (h : j ≠ k) :
    (l : List (κ × α)) → get? j (drop k l) = get? j l
  | [] => rfl
  | (k', v') :: rest => by
    have ih := get?_drop_ne h rest
    unfold drop at ih ⊢
    by_cases hk : k' = k
    · subst hk
      simpa [get?, h.symm] using ih
    · simp only [List.filter_cons, hk, ne_eq, not_false_eq_true, decide_true, if_true, get?]
      rw [ih]

theorem get?_eq_none_iff {k : κ} : {l : List (κ × α)} → (get? k l = none ↔ k ∉ l.map (·.1))
  | [] => by simp [get?]
  | (k', v') :: rest => by
    simp only [get?, List.map_cons, List.mem_cons, not_or]
    by_cases h : k' = k
    · simp [h]
    · have : k ≠ k' := fun e => h e.symm
      simp [h, this, get?_eq_none_iff (l := rest)]

theorem put_of_get? {k : κ} {v : α} : {l : List (κ × α)} → get? k l = some v → put k v l = l
  | [], h => by simp [get?] at h
  | (k', v') :: rest, h => by
    unfold get? at h
    unfold put
    split at h
    · rename_i hk
      simp only [Option.some.injEq] at h
      simp [hk, h]
    · rename_i hk
      simp [hk, put_of_get? h]

theorem put_put (k : κ) (v w : α) : (l : List (κ × α)) → put k w (put k v l) = put k w l
  | [] => by simp [put]
  | (k', v') :: rest => by
    by_cases h : k' = k
    · simp [put, h]
    · simp [put, h, put_put k v w rest]

theorem drop_of_get? {k : κ} {l : List (κ × α)} (h : get? k l = none) : drop k l = l := by
  have := get?_eq_none_iff.1 h
  refine List.filter_eq_self.2 fun p hp => ?_
  have : p.1 ≠ k := fun e => this (e ▸ List.mem_map_of_mem hp)
  simpa using this

end Rows

/-! ## Tables -/

/-- A finite map whose keys are listed in the order of their first entry. -/
structure Table (κ α : Type) where
  rows : List (κ × α)
  nodup : (rows.map (·.1)).Nodup

namespace Table

variable {κ α : Type}

instance [DecidableEq κ] [DecidableEq α] : DecidableEq (Table κ α) := fun a b =>
  decidable_of_iff (a.rows = b.rows) <| by
    cases a; cases b; simp

/-- The table without rows. -/
def empty : Table κ α := ⟨[], List.nodup_nil⟩

instance : Inhabited (Table κ α) := ⟨empty⟩

def size (t : Table κ α) : Nat := t.rows.length

/-- The rows in the order of their first entry. -/
def toList (t : Table κ α) : List (κ × α) := t.rows

variable [DecidableEq κ]

/-- The value under a key. -/
def get? (t : Table κ α) (k : κ) : Option α := Rows.get? k t.rows

/-- Whether a key has a row. -/
def contains (t : Table κ α) (k : κ) : Bool := (t.get? k).isSome

/-- Put a value under a key, replacing what was there. -/
def insert (t : Table κ α) (k : κ) (v : α) : Table κ α :=
  ⟨Rows.put k v t.rows, Rows.nodup_put t.nodup⟩

def erase (t : Table κ α) (k : κ) : Table κ α :=
  ⟨Rows.drop k t.rows, t.nodup.sublist (List.filter_sublist.map _)⟩

/-- Change the value under a key, if there is one. -/
def modify (t : Table κ α) (k : κ) (f : α → α) : Table κ α :=
  match t.get? k with
  | some v => t.insert k (f v)
  | none => t

@[simp] theorem get?_insert_self (t : Table κ α) (k : κ) (v : α) : (t.insert k v).get? k = some v :=
  Rows.get?_put_self k v t.rows

theorem get?_insert_ne (t : Table κ α) {k j : κ} (v : α) (h : j ≠ k) :
    (t.insert k v).get? j = t.get? j := Rows.get?_put_ne v h t.rows

@[simp] theorem get?_erase_self (t : Table κ α) (k : κ) : (t.erase k).get? k = none :=
  Rows.get?_drop_self k t.rows

theorem get?_erase_ne (t : Table κ α) {k j : κ} (h : j ≠ k) : (t.erase k).get? j = t.get? j :=
  Rows.get?_drop_ne h t.rows

@[simp] theorem get?_modify_self (t : Table κ α) (k : κ) (f : α → α) :
    (t.modify k f).get? k = (t.get? k).map f := by
  unfold modify
  split
  · rename_i v h
    simp [h]
  · rename_i h
    simp [h]

theorem get?_modify_ne (t : Table κ α) {k j : κ} (f : α → α) (h : j ≠ k) :
    (t.modify k f).get? j = t.get? j := by
  unfold modify
  split
  · exact get?_insert_ne t _ h
  · rfl

theorem insert_of_get? {t : Table κ α} {k : κ} {v : α} (h : t.get? k = some v) :
    t.insert k v = t := by
  have : Rows.put k v t.rows = t.rows := Rows.put_of_get? h
  cases t
  simpa [insert] using this

@[simp] theorem insert_insert (t : Table κ α) (k : κ) (v w : α) :
    (t.insert k v).insert k w = t.insert k w := by
  simp [insert, Rows.put_put]

theorem erase_of_get? {t : Table κ α} {k : κ} (h : t.get? k = none) : t.erase k = t := by
  have : Rows.drop k t.rows = t.rows := Rows.drop_of_get? h
  cases t
  simpa [erase] using this

@[simp] theorem modify_id (t : Table κ α) (k : κ) : t.modify k (fun v => v) = t := by
  unfold modify
  split
  · rename_i v h
    exact insert_of_get? h
  · rfl

theorem modify_modify (t : Table κ α) (k : κ) (f g : α → α) :
    (t.modify k f).modify k g = t.modify k fun v => g (f v) := by
  cases h : t.get? k with
  | none => simp [modify, h]
  | some v => simp [modify, h]

end Table

end NetRelocation
