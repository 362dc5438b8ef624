import NetRelocation.Proofs.FeedEvents

/-!
# Texts and bytes

The bytes of a text are decoded to the text (`decode?_encode`), character by character
(`run_encodeChar`). Bytes that are no text are decoded to one with a mark for each invalid part
(`replacement_mem_decodeLossy`). Bytes that are in no text cannot be told from each other then:
wherever one of them stands, another one reads the same (`decodeLossy_stray`).
-/

namespace NetRelocation.Text

namespace Utf8

/-! ## Texts as bytes -/

theorem run_cons (s : State) (b : UInt8) (bs : List UInt8) :
    run s (b :: bs) = (step s b.toNat).1 ++ run (step s b.toNat).2 bs := by
  cases s <;> rfl

theorem run_ofNat_cons (s : State) {n : Nat} (hn : n < 256) (bs : List UInt8) :
    run s (UInt8.ofNat n :: bs) = (step s n).1 ++ run (step s n).2 bs := by
  rw [run_cons, UInt8.toNat_ofNat_of_lt' hn]

theorem first_of_two {x : Nat} (hlow : 2 ≤ x) (hhigh : x < 0x20) :
    first (0xC0 + x) = ([], .within 0 x 0x80 0xBF) := by
  revert x
  decide

theorem first_of_three {x : Nat} (hx : x < 0x10) : first (0xE0 + x) =
    ([], .within 1 x (if x = 0 then 0xA0 else 0x80) (if x = 0xD then 0x9F else 0xBF)) := by
  revert x
  decide

theorem first_of_four {x : Nat} (hx : x < 5) : first (0xF0 + x) =
    ([], .within 2 x (if x = 0 then 0x90 else 0x80) (if x = 4 then 0x8F else 0xBF)) := by
  revert x
  decide

theorem step_within {owed bits low high x : Nat} (hlow : low ≤ 0x80 + x) (hhigh : 0x80 + x ≤ high) :
    step (.within (owed + 1) bits low high) (0x80 + x) =
      ([], .within owed (bits * 64 + x) 0x80 0xBF) := by
  simp [step, hlow, hhigh]

theorem step_last {bits low high x : Nat} (hlow : low ≤ 0x80 + x) (hhigh : 0x80 + x ≤ high) :
    step (.within 0 bits low high) (0x80 + x) = ([some (Char.ofNat (bits * 64 + x))], .start) := by
  simp [step, hlow, hhigh]

/-- The bytes of a character are read as this character. -/
theorem run_encodeChar (c : Char) (bs : List UInt8) :
    run .start (encodeChar c ++ bs) = some c :: run .start bs := by
  have hvalid : c.toNat < 0xD800 ∨ 0xDFFF < c.toNat ∧ c.toNat < 0x110000 := c.valid
  have hchar : Char.ofNat c.toNat = c := Char.ofNat_toNat c
  unfold encodeChar
  dsimp only
  generalize c.toNat = n at hvalid hchar
  have hrest : n % 64 < 64 := Nat.mod_lt n (by decide)
  split_ifs with hone htwo hthree
  · rw [List.singleton_append, run_ofNat_cons _ (by omega), step, first_of_ascii hone, hchar]
    rfl
  · have hbits : n / 64 * 64 + n % 64 = n := Nat.div_add_mod' n 64
    rw [List.cons_append, List.singleton_append, run_ofNat_cons _ (by omega), step,
      first_of_two (by omega) (by omega), List.nil_append, run_ofNat_cons _ (by omega),
      step_last (by omega) (by omega), hbits, hchar]
    rfl
  · have hbits : (n / 4096 * 64 + n / 64 % 64) * 64 + n % 64 = n := by omega
    simp only [List.cons_append, List.nil_append]
    rw [run_ofNat_cons _ (by omega), step,
      first_of_three (by omega), List.nil_append, run_ofNat_cons _ (by omega),
      step_within (by split_ifs <;> omega) (by split_ifs <;> omega), List.nil_append,
      run_ofNat_cons _ (by omega), step_last (by omega) (by omega), hbits, hchar]
    rfl
  · have hbits : ((n / 262144 * 64 + n / 4096 % 64) * 64 + n / 64 % 64) * 64 + n % 64 = n := by
      omega
    simp only [List.cons_append, List.nil_append]
    rw [run_ofNat_cons _ (by omega), step,
      first_of_four (by omega), List.nil_append, run_ofNat_cons _ (by omega),
      step_within (by split_ifs <;> omega) (by split_ifs <;> omega), List.nil_append,
      run_ofNat_cons _ (by omega), step_within (by omega) (by omega), List.nil_append,
      run_ofNat_cons _ (by omega), step_last (by omega) (by omega), hbits, hchar]
    rfl

theorem run_encode (cs : List Char) : run .start (encode cs) = cs.map some := by
  induction cs with
  | nil => rfl
  | cons c cs ih =>
    rw [encode, List.flatMap_cons, run_encodeChar, List.map_cons]
    exact congrArg (some c :: ·) ih

theorem decode?_encode (cs : List Char) : decode? (encode cs) = some cs := by
  rw [decode?, run_encode, List.mapM_map]
  induction cs with
  | nil => rfl
  | cons c cs ih => simp_all

theorem decodeLossy_encode (cs : List Char) : decodeLossy (encode cs) = cs := by
  simp [decodeLossy, run_encode]

/-! ## Invalid parts -/

/-- What stands for an invalid part. -/
def replacement : Char := Char.ofNat 0xFFFD

theorem none_mem_of_decode? {bs : List UInt8} (h : decode? bs = none) : none ∈ run .start bs := by
  rw [decode?] at h
  generalize run .start bs = out at h
  induction out with
  | nil => cases h
  | cons part out ih =>
    cases part with
    | none => exact List.mem_cons_self
    | some c =>
      cases hrest : out.mapM id with
      | none => exact List.mem_cons_of_mem _ (ih hrest)
      | some cs => simp [hrest] at h

theorem replacement_mem_decodeLossy {bs : List UInt8} (h : decode? bs = none) :
    replacement ∈ decodeLossy bs :=
  List.mem_map.2 ⟨none, none_mem_of_decode? h, rfl⟩

/-- A byte that neither begins a character nor continues one. -/
def Stray (b : UInt8) : Prop := b.toNat = 0xC0 ∨ b.toNat = 0xC1 ∨ 0xF5 ≤ b.toNat

instance (b : UInt8) : Decidable (Stray b) := instDecidableOr

theorem Stray.first {b : UInt8} (h : Stray b) : first b.toNat = ([none], .start) := by
  unfold Utf8.first
  obtain h | h | h := h
  · simp [h]
  · simp [h]
  · have hne : ¬ b.toNat < 0xF4 := by omega
    split_ifs <;> first | rfl | omega

/-- Every byte that continues a character lies below 0xC0. -/
def State.Narrow : State → Prop
  | .start => True
  | .within _ _ _ high => high ≤ 0xBF

theorem narrow_first (b : Nat) : (first b).2.Narrow := by
  unfold first
  split_ifs <;> simp [State.Narrow]

theorem narrow_step {s : State} (b : Nat) : (step s b).2.Narrow := by
  cases s with
  | start => exact narrow_first b
  | within owed bits low high =>
    by_cases hb : low ≤ b ∧ b ≤ high
    · cases owed <;> simp [step, hb, State.Narrow]
    · simpa [step, hb] using narrow_first b

/-- A stray byte ends what is unfinished, whichever it is. -/
theorem Stray.step {b c : UInt8} (hb : Stray b) (hc : Stray c) {s : State} (hs : s.Narrow) :
    step s b.toNat = step s c.toNat := by
  have hhigh {d : UInt8} (hd : Stray d) : 0xC0 ≤ d.toNat := by
    obtain h | h | h := hd <;> omega
  cases s with
  | start => rw [Utf8.step, Utf8.step, hb.first, hc.first]
  | within owed bits low high =>
    have hout {d : UInt8} (hd : Stray d) : ¬ (low ≤ d.toNat ∧ d.toNat ≤ high) := fun h =>
      absurd (Nat.le_trans (hhigh hd) (Nat.le_trans h.2 hs)) (by decide)
    simp only [Utf8.step, if_neg (hout hb), if_neg (hout hc), hb.first, hc.first]

theorem run_stray {b c : UInt8} (hb : Stray b) (hc : Stray c) {s : State} (hs : s.Narrow)
    (before after : List UInt8) : run s (before ++ b :: after) = run s (before ++ c :: after) := by
  induction before generalizing s with
  | nil => rw [List.nil_append, List.nil_append, run_cons, run_cons, hb.step hc hs]
  | cons a before ih => rw [List.cons_append, List.cons_append, run_cons, run_cons,
      ih (narrow_step _)]

/-- One stray byte reads like another. -/
theorem decodeLossy_stray {b c : UInt8} (hb : Stray b) (hc : Stray c) (before after : List UInt8) :
    decodeLossy (before ++ b :: after) = decodeLossy (before ++ c :: after) := by
  rw [decodeLossy, decodeLossy, run_stray hb hc (s := .start) trivial]

end Utf8

end NetRelocation.Text
