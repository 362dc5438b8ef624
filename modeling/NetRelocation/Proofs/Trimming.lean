import NetRelocation.Text.Split

/-!
# Trimming

**Theorem (`trim_eq_iff`).** A text is trimmed to the one text that stands between blanks in it and
has no blank at either end.

So a text without blanks is not trimmed at all (`trim_of_no_blank`), blanks that are added at the end
are trimmed off (`trimChars_append_blank`), and nothing but blanks is (`mem_trimChars`).
-/

namespace NetRelocation.Text

variable {cs ds lead trail : List Char}

/-! ## Characters -/

/-- Characters without a blank at either end. -/
def Trimmed (cs : List Char) : Prop :=
  (∀ c ∈ cs.head?, isBlank c = false) ∧ ∀ c ∈ cs.getLast?, isBlank c = false

theorem dropWhile_blanks (hlead : ∀ c ∈ lead, isBlank c = true)
    (hcs : ∀ c ∈ cs.head?, isBlank c = false) : (lead ++ cs).dropWhile isBlank = cs := by
  rw [List.dropWhile_append_of_pos hlead]
  cases cs with
  | nil => rfl
  | cons c cs => rw [List.dropWhile_cons_of_neg (by simpa using hcs c rfl)]

theorem not_blank_of_head?_dropWhile (cs : List Char) :
    ∀ c ∈ (cs.dropWhile isBlank).head?, isBlank c = false := by
  intro c hc
  have hhead := List.head?_dropWhile_not isBlank cs
  rwa [Option.mem_def.1 hc] at hhead

/-- Blanks are dropped at both ends. -/
theorem trimChars_between (hlead : ∀ c ∈ lead, isBlank c = true)
    (htrail : ∀ c ∈ trail, isBlank c = true) (hcs : Trimmed cs) :
    trimChars (lead ++ (cs ++ trail)) = cs := by
  rw [trimChars]
  cases cs with
  | nil =>
    have hall : ∀ c ∈ lead ++ trail, isBlank c = true := fun c hc =>
      (List.mem_append.1 hc).elim (hlead c) (htrail c)
    rw [List.nil_append, ← List.append_nil (lead ++ trail), dropWhile_blanks hall (by simp)]
    rfl
  | cons c cs =>
    have hhead : ∀ d ∈ (c :: cs ++ trail).head?, isBlank d = false := hcs.1
    have hlast : ∀ d ∈ (c :: cs).reverse.head?, isBlank d = false := by
      rw [List.head?_reverse]
      exact hcs.2
    have htrail' : ∀ d ∈ trail.reverse, isBlank d = true := fun d hd =>
      htrail d (List.mem_reverse.1 hd)
    rw [dropWhile_blanks hlead hhead, List.reverse_append, dropWhile_blanks htrail' hlast,
      List.reverse_reverse]

theorem dropWhile_eq_trimChars_append (cs : List Char) :
    ∃ trail, (∀ c ∈ trail, isBlank c = true) ∧ cs.dropWhile isBlank = trimChars cs ++ trail := by
  refine ⟨((cs.dropWhile isBlank).reverse.takeWhile isBlank).reverse, fun c hc => ?_, ?_⟩
  · exact List.all_eq_true.1 List.all_takeWhile c (List.mem_reverse.1 hc)
  · rw [trimChars, ← List.reverse_append, List.takeWhile_append_dropWhile, List.reverse_reverse]

theorem trimmed_trimChars (cs : List Char) : Trimmed (trimChars cs) := by
  constructor
  · intro c hc
    obtain ⟨trail, -, hdrop⟩ := dropWhile_eq_trimChars_append cs
    refine not_blank_of_head?_dropWhile cs c ?_
    rw [hdrop, List.head?_append, Option.mem_def.1 hc]
    rfl
  · intro c hc
    rw [trimChars, List.getLast?_reverse] at hc
    exact not_blank_of_head?_dropWhile _ c hc

theorem trimChars_eq_iff :
    trimChars cs = ds ↔ Trimmed ds ∧ ∃ lead trail, (∀ c ∈ lead, isBlank c = true) ∧
      (∀ c ∈ trail, isBlank c = true) ∧ cs = lead ++ (ds ++ trail) := by
  constructor
  · rintro rfl
    obtain ⟨trail, htrail, hdrop⟩ := dropWhile_eq_trimChars_append cs
    refine ⟨trimmed_trimChars cs, cs.takeWhile isBlank, trail,
      List.all_eq_true.1 List.all_takeWhile, htrail, ?_⟩
    rw [← hdrop, List.takeWhile_append_dropWhile]
  · rintro ⟨hds, lead, trail, hlead, htrail, rfl⟩
    exact trimChars_between hlead htrail hds

theorem trimChars_append_blank (cs : List Char) {c : Char} (hc : isBlank c = true) :
    trimChars (cs ++ [c]) = trimChars cs := by
  obtain ⟨htrimmed, lead, trail, hlead, htrail, hcs⟩ := trimChars_eq_iff.1 (Eq.refl (trimChars cs))
  refine trimChars_eq_iff.2 ⟨htrimmed, lead, trail ++ [c], hlead, ?_, ?_⟩
  · exact List.forall_mem_append.2 ⟨htrail, List.forall_mem_singleton.2 hc⟩
  · rw [← List.append_assoc, ← List.append_assoc, List.append_assoc lead, ← hcs]

theorem mem_trimChars {c : Char} (hmem : c ∈ cs) (hc : isBlank c = false) : c ∈ trimChars cs := by
  obtain ⟨-, lead, trail, hlead, htrail, hcs⟩ := trimChars_eq_iff.1 (Eq.refl (trimChars cs))
  rw [hcs, List.mem_append, List.mem_append] at hmem
  rcases hmem with hmem | hmem | hmem
  · rw [hlead c hmem] at hc
    cases hc
  · exact hmem
  · rw [htrail c hmem] at hc
    cases hc

/-! ## Texts -/

theorem isBlankText_iff {s : String} :
    isBlankText s = true ↔ ∀ c ∈ s.toList, isBlank c = true := List.all_eq_true

/-- **Trimming.** The trimmed text is the one between blanks that has no blank at its ends. -/
theorem trim_eq_iff {s t : String} :
    trim s = t ↔ Trimmed t.toList ∧ ∃ lead trail, isBlankText lead = true ∧
      isBlankText trail = true ∧ s = lead ++ t ++ trail := by
  have hchars : trim s = t ↔ trimChars s.toList = t.toList := by
    rw [trim, ← String.toList_inj, String.toList_ofList]
  rw [hchars, trimChars_eq_iff]
  refine and_congr_right fun _ => ?_
  constructor
  · rintro ⟨lead, trail, hlead, htrail, hs⟩
    refine ⟨String.ofList lead, String.ofList trail, ?_, ?_, String.toList_injective ?_⟩
    · rwa [isBlankText_iff, String.toList_ofList]
    · rwa [isBlankText_iff, String.toList_ofList]
    · simpa using hs
  · rintro ⟨lead, trail, hlead, htrail, rfl⟩
    exact ⟨lead.toList, trail.toList, isBlankText_iff.1 hlead, isBlankText_iff.1 htrail, by simp⟩

theorem trimmed_of_no_blank (h : ∀ c ∈ cs, isBlank c = false) : Trimmed cs :=
  ⟨fun c hc => h c (List.mem_of_mem_head? hc), fun c hc => h c (List.mem_of_getLast? hc)⟩

theorem trim_of_no_blank {s : String} (h : ∀ c ∈ s.toList, isBlank c = false) : trim s = s :=
  trim_eq_iff.2 ⟨trimmed_of_no_blank h, "", "", rfl, rfl, by simp⟩

theorem trim_of_blank {s : String} (h : isBlankText s = true) : trim s = "" :=
  trim_eq_iff.2 ⟨⟨nofun, nofun⟩, s, "", h, rfl, by simp⟩

end NetRelocation.Text
