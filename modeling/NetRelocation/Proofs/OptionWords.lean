import NetRelocation.CommandLine.Scan

/-!
# Words that give options their values

A value is given to a long option by one word, after an equals sign, or by a word of its own, which
must not be taken for an option (`Spells`).

**Theorem (`scan_settings`).** Let the words give several options their values, so that none but a
repeatable one gets two. Reading the words does to the draft what the values do one after the other,
and nothing else: the first value that is refused decides.

A value that stands apart is looked at when the next option starts. So reading goes on with an
option that is still open, and what holds of the words of several options holds whichever option
was open before them (`scan_words`). That an option is not taken for a repeated one is carried by
the list of those given, in which it does not stand before its turn (`foldlM_apply`).
-/

namespace NetRelocation.CommandLine

variable {β : Type}

/-! ## The words of one value -/

/-- Words that give an option a value. -/
inductive Spells (o : ValueOption β) (value : String) : List String → Prop
  | attached : Spells o value ["--" ++ o.long ++ "=" ++ value]
  | apart (plain : Word.ofString value = .plain) : Spells o value ["--" ++ o.long, value]

/-- Words that give options their values, in order. -/
inductive SpellsAll : List (ValueOption β × String) → List String → Prop
  | nil : SpellsAll [] []
  | cons {o : ValueOption β} {value : String} {ws ws' : List String}
      {rest : List (ValueOption β × String)} (first : Spells o value ws)
      (others : SpellsAll rest ws') : SpellsAll ((o, value) :: rest) (ws ++ ws')

/-- A command knows an option by its long name. -/
structure Options.Knows (options : Options β) (o : ValueOption β) : Prop where
  named : o.long ≠ ""
  noEquals : '=' ∉ o.long.toList
  noSwitch : options.switches.find? (·.long = o.long) = none
  known : options.values.find? (·.long = o.long) = some o

theorem ofString_long {w : String} {cs : List Char} (hw : w.toList = '-' :: '-' :: cs)
    (hcs : cs ≠ []) : Word.ofString w = .long cs := by
  rw [Word.ofString, hw]
  cases cs with
  | nil => exact absurd rfl hcs
  | cons c cs => rfl

theorem takeWhile_ne_append {cs : List Char} (h : '=' ∉ cs) (ds : List Char) :
    (cs ++ ds).takeWhile (· ≠ '=') = cs ++ ds.takeWhile (· ≠ '=') :=
  List.takeWhile_append_of_pos fun _ hc => decide_eq_true fun heq => h (heq ▸ hc)

theorem splitLong_bare {long : String} (h : '=' ∉ long.toList) :
    splitLong long.toList = (long, none) := by
  have hname := takeWhile_ne_append h []
  rw [List.append_nil, List.takeWhile_nil, List.append_nil] at hname
  rw [splitLong, hname, List.drop_length]
  simp

theorem splitLong_attached {long : String} (h : '=' ∉ long.toList) (value : String) :
    splitLong (long.toList ++ '=' :: value.toList) = (long, some value) := by
  have hname := takeWhile_ne_append h ('=' :: value.toList)
  rw [List.takeWhile_cons_of_neg (by simp), List.append_nil] at hname
  rw [splitLong, hname, List.drop_left]
  simp

variable {options : Options β}

/-- What a word does that names an option the command knows. -/
theorem scan_known {o : ValueOption β} (ho : options.Knows o) {w : String} {cs : List Char}
    {attached : Option String} (hw : w.toList = '-' :: '-' :: cs) (hcs : cs ≠ [])
    (hsplit : splitLong cs = (o.long, attached)) (ws : List String) (pending : Pending β)
    (reading : Reading β) :
    scan options (w :: ws) pending reading =
      start options o attached pending reading >>= fun r => scan options ws r.1 r.2 := by
  have hlong : readLong options (fun _ => none) cs pending reading =
      start options o attached pending reading := by
    rw [readLong, hsplit]
    dsimp only
    rw [ho.noSwitch, ho.known]
  rw [scan.eq_def]
  dsimp only
  rw [ofString_long hw hcs]
  dsimp only
  rw [hlong]
  cases start options o attached pending reading <;> rfl

/-! ## The words of several values -/

/-- Whichever option was open before them, the words of several values give the options their
values one after the other. -/
theorem scan_words {settings : List (ValueOption β × String)} {ws : List String}
    (h : SpellsAll settings ws) (hknown : ∀ s ∈ settings, options.Knows s.1)
    (pending : Pending β) (reading : Reading β) :
    scan options ws pending reading =
      resolve options pending reading >>=
        settings.foldlM fun reading s => s.1.apply options s.2 reading := by
  induction h generalizing pending reading with
  | nil =>
    rw [scan.eq_def]
    exact (bind_pure _).symm
  | @cons o value ws ws' rest first _ ih =>
    obtain ⟨ho, hknown⟩ := List.forall_mem_cons.1 hknown
    cases first with
    | attached =>
      have hchars : ("--" ++ o.long ++ "=" ++ value).toList =
          '-' :: '-' :: (o.long.toList ++ '=' :: value.toList) := by
        simp
      rw [List.singleton_append, scan_known ho hchars (by simp) (splitLong_attached ho.noEquals _)]
      cases hopen : resolve options pending reading with
      | error e => simp [start, hopen, bind, Except.bind]
      | ok reading =>
        simp only [start, hopen, List.foldlM_cons, bind, Except.bind, pure, Except.pure]
        cases o.apply options value reading with
        | error e => rfl
        | ok reading => exact ih hknown none reading
    | apart plain =>
      have hchars : ("--" ++ o.long).toList = '-' :: '-' :: o.long.toList := by simp
      rw [List.cons_append, List.singleton_append,
        scan_known ho hchars (by simpa using ho.named) (splitLong_bare ho.noEquals)]
      cases hopen : resolve options pending reading with
      | error e => simp [start, hopen, bind, Except.bind]
      | ok reading =>
        have hvalue : scan options (value :: ws') (some (o, none)) reading =
            scan options ws' (some (o, some value)) reading := by
          rw [scan.eq_def]
          dsimp only
          rw [plain]
        simp only [start, hopen, bind, Except.bind, pure, Except.pure, hvalue]
        exact ih hknown (some (o, some value)) reading

/-! ## What the values do -/

/-- An option with the values that it is given. -/
structure Setting (β : Type) where
  option : ValueOption β
  values : List String

namespace Setting

/-- The values one by one, each with its option. -/
def each (s : Setting β) : List (ValueOption β × String) := s.values.map (s.option, ·)

def refusal (o : ValueOption β) (value : String) : ValueFault → UsageError
  | .missing => .missingValue o.display
  | .invalid reason => .invalidValue value o.display reason

/-- What the values do to a draft, one after the other. -/
def effect (s : Setting β) (draft : β) : Except UsageError β :=
  s.values.foldlM (fun draft value => (s.option.set value draft).mapError (refusal s.option value))
    draft

/-- What messages show of the option, once for each value. -/
def given (s : Setting β) : List String := s.values.map fun _ => s.option.display

/-- The option is given no more often than it may be. -/
def Sparing (s : Setting β) : Prop := s.option.repeatable = false → s.values.length ≤ 1

end Setting

/-- A value for an option that may be given does what it does to the draft. -/
theorem ValueOption.apply_of_free {o : ValueOption β} {reading : Reading β}
    (h : o.repeatable = false → o.display ∉ reading.given) (value : String) :
    o.apply options value reading =
      ((o.set value reading.draft).mapError (Setting.refusal o value)).map
        (⟨reading.given ++ [o.display], ·⟩) := by
  have hfree : (decide (o.display ∈ reading.given) && !o.repeatable) = false := by
    cases hr : o.repeatable with
    | true => simp
    | false => simp [h hr]
  rw [ValueOption.apply, if_neg (by simp [hfree])]
  cases o.set value reading.draft with
  | ok draft => rfl
  | error fault => cases fault <;> rfl

/-- The values of one option that was not given before. -/
theorem foldlM_apply_each {s : Setting β} (hs : s.Sparing) {given : List String}
    (hgiven : s.option.display ∉ given) (draft : β) :
    s.each.foldlM (fun reading t => t.1.apply options t.2 reading) ⟨given, draft⟩ =
      (s.effect draft).map (⟨given ++ s.given, ·⟩) := by
  obtain ⟨o, values⟩ := s
  -- an option that may be repeated stands among those given when its second value is read
  replace hgiven : o.repeatable = false → values ≠ [] → o.display ∉ given := fun _ _ => hgiven
  induction values generalizing given draft with
  | nil => simp [Setting.each, Setting.effect, Setting.given, Except.map, pure, Except.pure]
  | cons value values ih =>
    have hfree : o.repeatable = false → o.display ∉ given := fun hr => hgiven hr (by simp)
    have hrest : o.repeatable = false → values = [] := fun hr =>
      List.length_eq_zero_iff.1 (Nat.le_zero.1 (Nat.le_of_succ_le_succ (hs hr)))
    have heach : (⟨o, value :: values⟩ : Setting β).each =
        (o, value) :: (⟨o, values⟩ : Setting β).each := rfl
    rw [heach, List.foldlM_cons, ValueOption.apply_of_free hfree]
    simp only [Setting.effect, List.foldlM_cons]
    cases (o.set value draft).mapError (Setting.refusal o value) with
    | error e => rfl
    | ok next =>
      have hlater : o.repeatable = false → values ≠ [] → o.display ∉ given ++ [o.display] :=
        fun hr hne => absurd (hrest hr) hne
      refine (ih next (fun hr => by simp [hrest hr]) hlater).trans ?_
      rw [List.append_assoc]
      rfl

/-- The values of several options, none of which was given before. -/
theorem foldlM_apply {settings : List (Setting β)} (hsparing : ∀ s ∈ settings, s.Sparing)
    (hdistinct : (settings.map (·.option.display)).Nodup) {given : List String}
    (hgiven : ∀ s ∈ settings, s.option.display ∉ given) (draft : β) :
    (settings.flatMap Setting.each).foldlM (fun reading t => t.1.apply options t.2 reading)
        ⟨given, draft⟩ =
      (settings.foldlM (fun draft (s : Setting β) => s.effect draft) draft).map
        (⟨given ++ settings.flatMap Setting.given, ·⟩) := by
  induction settings generalizing given draft with
  | nil => simp [Except.map, pure, Except.pure]
  | cons s settings ih =>
    obtain ⟨hsparse, hsparing⟩ := List.forall_mem_cons.1 hsparing
    obtain ⟨hfree, hgiven⟩ := List.forall_mem_cons.1 hgiven
    rw [List.map_cons, List.nodup_cons] at hdistinct
    obtain ⟨hfirst, hdistinct⟩ := hdistinct
    rw [List.flatMap_cons, List.foldlM_append, foldlM_apply_each hsparse hfree, List.foldlM_cons]
    cases s.effect draft with
    | error e => rfl
    | ok next =>
      have hlater : ∀ t ∈ settings, t.option.display ∉ given ++ s.given := by
        intro t ht hmem
        rcases List.mem_append.1 hmem with hmem | hmem
        · exact hgiven t ht hmem
        · obtain ⟨_, -, heq⟩ := List.mem_map.1 hmem
          exact hfirst (heq ▸ List.mem_map_of_mem (f := (·.option.display)) ht)
      refine (ih hsparing hdistinct hlater next).trans ?_
      rw [List.flatMap_cons, List.append_assoc]
      rfl

/-- **Words that give options their values.** The words of several options do to the draft what
their values do in order. -/
theorem scan_settings {settings : List (Setting β)} {ws : List String}
    (h : SpellsAll (settings.flatMap Setting.each) ws)
    (hknown : ∀ s ∈ settings, options.Knows s.option) (hsparing : ∀ s ∈ settings, s.Sparing)
    (hdistinct : (settings.map (·.option.display)).Nodup) (draft : β) :
    scan options ws none ⟨[], draft⟩ =
      (settings.foldlM (fun draft (s : Setting β) => s.effect draft) draft).map
        (⟨settings.flatMap Setting.given, ·⟩) := by
  have hall : ∀ t ∈ settings.flatMap Setting.each, options.Knows t.1 := by
    intro t ht
    obtain ⟨s, hs, ht⟩ := List.mem_flatMap.1 ht
    obtain ⟨_, -, rfl⟩ := List.mem_map.1 ht
    exact hknown s hs
  rw [scan_words h hall]
  exact foldlM_apply hsparing hdistinct (fun _ _ => List.not_mem_nil) draft

end NetRelocation.CommandLine
