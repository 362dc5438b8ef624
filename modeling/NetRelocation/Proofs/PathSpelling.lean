import Mathlib.Logic.Relation
import NetRelocation.Namespace.Ref
import NetRelocation.Proofs.AddressText

/-!
# Spelling of paths

**Theorem (`same_path_iff`).** Two paths are the same exactly if one comes from the other by writing
slashes once or more often and by adding or leaving out single dots, where a slash or a dot may also
be the last thing of a path but not the first (`Respelling`).

Each change keeps the components (`ofString_respelling`). The other way round, every path comes to
the one path that spells its components (`respells_spell`): from the left to the right, the pieces
without a meaning are taken out behind a part that is not empty, so that a leading slash is left.

What counts is shown by two statements: a dot in front makes another path, unless one is there
already (`leading_dot_iff`), and a name with two dots behind it is not taken back
(`two_dots_count`).
-/

namespace NetRelocation

/-! ## Pieces -/

namespace Text

theorem splitChars_append_cons (sep : Char) (cs ds : List Char) :
    splitChars sep (cs ++ sep :: ds) = splitChars sep cs ++ splitChars sep ds := by
  induction cs with
  | nil => simp [splitChars]
  | cons c cs ih =>
    rw [List.cons_append, splitChars, splitChars, ih]
    split
    · rfl
    · cases hcs : splitChars sep cs with
      | nil => exact absurd hcs (splitChars_ne_nil sep cs)
      | cons piece pieces => rfl

theorem split_slash (a b : String) :
    split '/' (a ++ "/" ++ b) = split '/' a ++ split '/' b := by
  have hchars : (a ++ "/" ++ b).toList = a.toList ++ '/' :: b.toList := by simp
  rw [split, hchars, splitChars_append_cons, List.map_append]
  rfl

theorem split_ne_nil (s : String) : split '/' s ≠ [] := by
  simp [split, splitChars_ne_nil]

theorem split_of_no_slash {s : String} (h : '/' ∉ s.toList) : split '/' s = [s] := by
  rw [split, splitChars_of_not_mem h]
  simp

theorem join_split (s : String) : join "/" (split '/' s) = s := by
  have hslash : "/" = String.singleton '/' := rfl
  apply String.toList_injective
  rw [hslash, toList_join, split, List.map_map]
  simp [Function.comp_def, joinChars_splitChars]

end Text

open Text (split split_slash split_ne_nil split_of_no_slash)

namespace PathKey

/-- A piece that is a component wherever it stands. -/
def Named (p : String) : Prop := p ≠ "" ∧ p ≠ "."

instance (p : String) : Decidable (Named p) := inferInstanceAs (Decidable (_ ∧ _))

theorem decide_named (p : String) : decide (Named p) = decide (p ≠ "" ∧ p ≠ ".") := rfl

def ofPieces : List String → PathKey
  | [] => ⟨false, []⟩
  | p :: ps => ⟨p = "" ∧ ps ≠ [], (if p = "" then [] else [p]) ++ ps.filter (Named ·)⟩

theorem ofString_eq (s : String) : ofString s = ofPieces (split '/' s) := by
  unfold ofString
  dsimp only
  generalize hps : split '/' s = pieces
  cases pieces with
  | nil => exact absurd hps (split_ne_nil s)
  | cons p ps =>
    simp only [ofPieces, decide_named]
    split
    · rename_i heq
      cases heq
      simp
    · rename_i heq
      cases heq
      simp
    · rename_i hrooted hdot
      by_cases hp : p = ""
      · subst hp
        cases ps with
        | nil => simp
        | cons q qs => exact absurd rfl (hrooted q qs)
      · have hdot' : p ≠ "." := fun h => hdot ps (h ▸ rfl)
        simp [hp, hdot']

/-- Pieces without a meaning do not count behind a piece, unless the path would be empty or end with
a leading slash without them. -/
theorem ofPieces_append {xs : List String} (ys zs : List String) (hxs : xs ≠ [])
    (hys : ys.filter (Named ·) = []) (h : zs ≠ [] ∨ xs ≠ [""]) :
    ofPieces (xs ++ (ys ++ zs)) = ofPieces (xs ++ zs) := by
  cases xs with
  | nil => exact absurd rfl hxs
  | cons p ps =>
    have hrooted : (p = "" ∧ ps ++ (ys ++ zs) ≠ []) ↔ (p = "" ∧ ps ++ zs ≠ []) := by
      refine and_congr_right fun hp => ?_
      have hrest : ps ++ zs ≠ [] := by
        intro hnil
        obtain ⟨rfl, rfl⟩ := List.append_eq_nil_iff.1 hnil
        rcases h with h | h
        · exact h rfl
        · exact h (by rw [hp])
      refine ⟨fun _ => hrest, fun _ hnil => hrest ?_⟩
      simp only [List.append_eq_nil_iff] at hnil ⊢
      exact ⟨hnil.1, hnil.2.2⟩
    simp only [List.cons_append, ofPieces, List.filter_append, hys, List.nil_append,
      decide_eq_decide.2 hrooted]

end PathKey

/-! ## Changes of the spelling -/

/-- A change of the spelling of a path. -/
inductive Respelling : String → String → Prop
  | slash (a b : String) : Respelling (a ++ "//" ++ b) (a ++ "/" ++ b)
  | lastSlash (a : String) (nonempty : a ≠ "") : Respelling (a ++ "/") a
  | dot (a b : String) : Respelling (a ++ "/./" ++ b) (a ++ "/" ++ b)
  | lastDot (a : String) (nonempty : a ≠ "") : Respelling (a ++ "/.") a

namespace PathKey

theorem split_ne_blank {a : String} (ha : a ≠ "") : split '/' a ≠ [""] := by
  intro h
  have hjoin := Text.join_split a
  rw [h] at hjoin
  exact ha hjoin.symm

theorem ofString_respelling {s t : String} (h : Respelling s t) : ofString s = ofString t := by
  have hblank : split '/' "" = [""] := rfl
  have hdot : split '/' "." = ["."] := by decide
  rw [ofString_eq, ofString_eq]
  cases h with
  | slash a b =>
    have hpieces : a ++ "//" ++ b = a ++ "/" ++ "" ++ "/" ++ b := by
      apply String.toList_injective
      simp
    rw [hpieces, split_slash, split_slash, split_slash, hblank, List.append_assoc]
    exact ofPieces_append _ _ (split_ne_nil a) rfl (.inl (split_ne_nil b))
  | lastSlash _ hne =>
    have hpieces : t ++ "/" = t ++ "/" ++ "" := String.append_empty.symm
    rw [hpieces, split_slash, hblank]
    simpa using ofPieces_append [""] [] (split_ne_nil t) rfl (.inr (split_ne_blank hne))
  | dot a b =>
    have hpieces : a ++ "/./" ++ b = a ++ "/" ++ "." ++ "/" ++ b := by
      apply String.toList_injective
      simp
    rw [hpieces, split_slash, split_slash, split_slash, hdot, List.append_assoc]
    exact ofPieces_append _ _ (split_ne_nil a) rfl (.inl (split_ne_nil b))
  | lastDot _ hne =>
    have hpieces : t ++ "/." = t ++ "/" ++ "." := by
      apply String.toList_injective
      simp
    rw [hpieces, split_slash, hdot]
    simpa using ofPieces_append ["."] [] (split_ne_nil t) rfl (.inr (split_ne_blank hne))

/-! ## The one path of some components -/

def behind : List String → String
  | [] => ""
  | p :: ps => "/" ++ p ++ behind ps

/-- The path that spells components with no more slashes than needed. -/
def spell : PathKey → String
  | ⟨true, []⟩ => "/"
  | ⟨true, p :: ps⟩ => behind (p :: ps)
  | ⟨false, []⟩ => ""
  | ⟨false, p :: ps⟩ => p ++ behind ps

open Relation (EqvGen)

theorem append_behind_cons (a p : String) (ps : List String) :
    a ++ behind (p :: ps) = a ++ "/" ++ p ++ behind ps := by
  simp [behind, String.append_assoc]

theorem respells_inner {p : String} (hp : ¬ Named p) (a q : String) (qs : List String) :
    EqvGen Respelling (a ++ behind (p :: q :: qs)) (a ++ behind (q :: qs)) := by
  have hnext : a ++ behind (q :: qs) = a ++ "/" ++ (q ++ behind qs) := by
    simp [behind, String.append_assoc]
  obtain rfl | rfl : p = "" ∨ p = "." := by
    simpa [Named, Classical.or_iff_not_imp_left] using hp
  · have hthis : a ++ behind ("" :: q :: qs) = a ++ "//" ++ (q ++ behind qs) := by
      apply String.toList_injective
      simp [behind]
    rw [hthis, hnext]
    exact .rel _ _ (.slash a _)
  · have hthis : a ++ behind ("." :: q :: qs) = a ++ "/./" ++ (q ++ behind qs) := by
      apply String.toList_injective
      simp [behind]
    rw [hthis, hnext]
    exact .rel _ _ (.dot a _)

/-- Behind a path that is not empty only the components count. -/
theorem respells_behind {a : String} (ha : a ≠ "") (ps : List String) :
    EqvGen Respelling (a ++ behind ps) (a ++ behind (ps.filter (Named ·))) := by
  induction ps generalizing a with
  | nil => exact .refl _
  | cons p ps ih =>
    by_cases hp : Named p
    · have hne : a ++ "/" ++ p ≠ "" := by
        intro h
        simpa using congrArg String.toList h
      rw [List.filter_cons_of_pos (by simpa using hp), append_behind_cons, append_behind_cons]
      exact ih hne
    · rw [List.filter_cons_of_neg (by simpa using hp)]
      cases ps with
      | nil =>
        have hlast : a ++ behind [p] = a ++ "/" ++ p := by simp [behind, String.append_assoc]
        rw [hlast]
        obtain rfl | rfl : p = "" ∨ p = "." := by
          simpa [Named, Classical.or_iff_not_imp_left] using hp
        · simpa [behind] using EqvGen.rel _ _ (.lastSlash a ha)
        · simpa [behind, String.append_assoc] using EqvGen.rel _ _ (.lastDot a ha)
      | cons q qs => exact (respells_inner hp a q qs).trans _ _ _ (ih ha)

theorem respells_rooted (p : String) (ps : List String) :
    EqvGen Respelling (behind (p :: ps)) (spell ⟨true, (p :: ps).filter (Named ·)⟩) := by
  induction ps generalizing p with
  | nil =>
    by_cases hp : Named p
    · rw [List.filter_cons_of_pos (by simpa using hp)]
      exact .refl _
    · rw [List.filter_cons_of_neg (by simpa using hp)]
      obtain rfl | rfl : p = "" ∨ p = "." := by
        simpa [Named, Classical.or_iff_not_imp_left] using hp
      · exact .refl _
      · exact ((EqvGen.rel _ _ (.lastSlash "/." (by decide))).symm).trans _ _ _
          (.rel _ _ (.dot "" ""))
  | cons q qs ih =>
    by_cases hp : Named p
    · have hne : "/" ++ p ≠ "" := by
        intro h
        simpa using congrArg String.toList h
      rw [List.filter_cons_of_pos (by simpa using hp)]
      exact respells_behind hne (q :: qs)
    · rw [List.filter_cons_of_neg (by simpa using hp)]
      have hinner := respells_inner hp "" q qs
      rw [String.empty_append, String.empty_append] at hinner
      exact hinner.trans _ _ _ (ih q)

theorem join_eq_behind (p : String) (ps : List String) :
    Text.join "/" (p :: ps) = p ++ behind ps := by
  induction ps generalizing p with
  | nil => simp [Text.join, behind]
  | cons q qs ih =>
    have hrest := ih q
    rw [Text.join] at hrest ⊢
    rw [String.intercalate_cons_cons, hrest]
    simp [behind, String.append_assoc]

theorem respells_spell (s : String) : EqvGen Respelling s (ofString s).spell := by
  rw [ofString_eq]
  have hs := Text.join_split s
  cases hps : split '/' s with
  | nil => exact absurd hps (split_ne_nil s)
  | cons p ps =>
    rw [hps, join_eq_behind] at hs
    subst hs
    unfold ofPieces
    by_cases hp : p = ""
    · subst hp
      rw [String.empty_append]
      cases ps with
      | nil => exact .refl _
      | cons q qs => simpa using respells_rooted q qs
    · simpa [hp, spell] using respells_behind hp ps

end PathKey

namespace NamespaceRef

open Relation (EqvGen)

/-! ## References -/

/-- **Spelling of paths.** -/
theorem same_path_iff {s t : String} :
    (path s).Same (path t) ↔ EqvGen Respelling s t := by
  have hkey : (path s).Same (path t) ↔ PathKey.ofString s = PathKey.ofString t :=
    ⟨fun h => NamespaceKey.path.inj h, fun h => congrArg NamespaceKey.path h⟩
  rw [hkey]
  clear hkey
  constructor
  · intro h
    exact (PathKey.respells_spell s).trans _ _ _ (h ▸ (PathKey.respells_spell t).symm)
  · intro h
    induction h with
    | rel s t h => exact PathKey.ofString_respelling h
    | refl s => rfl
    | symm s t _ ih => exact ih.symm
    | trans s t u _ _ ih₁ ih₂ => exact ih₁.trans ih₂

theorem same_equivalence : Equivalence Same :=
  ⟨fun _ => rfl, fun h => h.symm, fun h₁ h₂ => h₁.trans h₂⟩

theorem not_same_process_path (number : Int32) (s : String) :
    ¬ (process number).Same (path s) := fun h => by cases h

/-- A dot in front makes another path, unless one stands there already. -/
theorem leading_dot_iff (s : String) :
    (path ("./" ++ s)).Same (path s) ↔ s = "." ∨ ∃ t, s = "./" ++ t := by
  constructor
  · intro h
    have hkey : PathKey.ofString ("./" ++ s) = PathKey.ofString s := NamespaceKey.path.inj h
    have hsplit : split '/' ("./" ++ s) = "." :: split '/' s := by
      have hdot : split '/' "." = ["."] := by decide
      have hpieces : "./" ++ s = "." ++ "/" ++ s := by
        apply String.toList_injective
        simp
      rw [hpieces, split_slash, hdot]
      rfl
    have hs := Text.join_split s
    rw [PathKey.ofString_eq, PathKey.ofString_eq, hsplit] at hkey
    cases hps : split '/' s with
    | nil => exact absurd hps (split_ne_nil s)
    | cons p ps =>
      rw [hps, PathKey.join_eq_behind] at hs
      rw [hps] at hkey
      -- the dot in front is one component more, unless the first piece is a dot, which is none here
      have hlength := congrArg (·.parts.length) hkey
      have hp : p = "." := by
        by_contra hp
        by_cases hblank : p = ""
        · simp [PathKey.ofPieces, PathKey.decide_named, hblank] at hlength
        · simp [PathKey.ofPieces, PathKey.decide_named, hblank, hp] at hlength
      subst hp
      cases ps with
      | nil => exact .inl hs.symm
      | cons q qs =>
        refine .inr ⟨q ++ PathKey.behind qs, ?_⟩
        rw [← hs]
        apply String.toList_injective
        simp [PathKey.behind]
  · rintro (rfl | ⟨t, rfl⟩)
    · decide
    · refine same_path_iff.2 ?_
      have hdots : "./" ++ ("./" ++ t) = "." ++ "/./" ++ t := by
        apply String.toList_injective
        simp
      have hdot : "./" ++ t = "." ++ "/" ++ t := by
        apply String.toList_injective
        simp
      rw [hdots, hdot]
      exact .rel _ _ (.dot "." t)

/-- A name with two dots behind it is not taken back. -/
theorem two_dots_count (a b : String) {p : String} (hp : PathKey.Named p)
    (hslash : '/' ∉ p.toList) :
    ¬ (path (a ++ "/" ++ p ++ "/../" ++ b)).Same (path (a ++ "/" ++ b)) := by
  intro h
  have hkey : PathKey.ofString (a ++ "/" ++ p ++ "/../" ++ b) = PathKey.ofString (a ++ "/" ++ b) :=
    NamespaceKey.path.inj h
  have hsplit : split '/' (a ++ "/" ++ p ++ "/../" ++ b) =
      split '/' a ++ p :: ".." :: split '/' b := by
    have hup : split '/' ".." = [".."] := by decide
    have hpieces : a ++ "/" ++ p ++ "/../" ++ b = a ++ "/" ++ p ++ "/" ++ ".." ++ "/" ++ b := by
      apply String.toList_injective
      simp
    rw [hpieces, split_slash, split_slash, split_slash, split_of_no_slash hslash, hup]
    simp
  rw [PathKey.ofString_eq, PathKey.ofString_eq, hsplit, split_slash] at hkey
  have hlength := congrArg (·.parts.length) hkey
  cases hps : split '/' a with
  | nil => exact split_ne_nil a hps
  | cons x xs =>
    have hmore : (p :: ".." :: split '/' b).filter (PathKey.Named ·) =
        p :: ".." :: (split '/' b).filter (PathKey.Named ·) := by
      rw [List.filter_cons_of_pos (by simpa using hp), List.filter_cons_of_pos (by decide)]
    simp only [hps, List.cons_append, PathKey.ofPieces, List.filter_append, hmore,
      List.length_append, List.length_cons] at hlength
    omega

end NamespaceRef

end NetRelocation
