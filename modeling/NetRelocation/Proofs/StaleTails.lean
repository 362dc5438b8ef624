import NetRelocation.Proofs.ExactlyOnce

/-!
# Unfinished lines and cuts

A run that came to the end of a file keeps the beginning of an unfinished line and goes on where it
stopped taking bytes. Whether the file was cut meanwhile is told from the offset alone: a cut below
the offset ends the run, while a cut that goes below what the run has taken, and not below the
offset, stays unnoticed. What the run keeps is then no longer what the file holds.

**Theorem (`line_of_file_iff`).** Let every cut be followed by a look at the end before the file
grows. A line that is read after the look consists of what the run kept of an unfinished line and
of the bytes of the file from there on up to the next newline. It is the line that the file has at
the offset exactly if the file still begins there with what was kept. This is so as long as each cut
goes below the line that is looked for or spares all that the run has taken.

**Counterexample (`glued_across_cut`).** Otherwise bytes from before and after a cut are glued.

The proof carries through every step where the bytes that the run holds came from (`Holds`): those
not looked at stand in the file after every look, and the unfinished line does unless a cut took it.
-/

namespace NetRelocation.Feed

open Following

/-- The bytes of a file from an offset up to and including the next newline. -/
def lineAt (content : List UInt8) (offset : Nat) : Option (List UInt8) :=
  (completeLines (content.drop offset)).head?

variable {σ : Type}

/-- Where the line begins that is looked for next. -/
def Following.lineStart (s : Following σ) : Nat := s.offset + s.standing.pending.flatten.length

theorem Following.lineStart_of_pending {s : Following σ} (h : s.standing.pending = []) :
    s.lineStart = s.offset := by
  rw [lineStart, h]
  rfl

/-! ## What is known of the cuts -/

/-- What became of the cuts so far. -/
structure Watch where
  /-- The file was cut since the last look at its end. -/
  waiting : Bool
  /-- No cut took a part of what the run had taken and left all that was handled. -/
  spared : Bool
  deriving DecidableEq, Repr

namespace Watch

/-- There was no cut. -/
def blank : Watch := ⟨false, true⟩

/-- Whether a cut goes below the line that is looked for or spares all that the run has taken. -/
def spares (s : Following σ) (length : Nat) : Bool :=
  s.standing.reader?.all fun reader => length < s.lineStart || reader.position ≤ length

/-- What is known after a step. A new run has not taken anything. -/
def after (v : Watch) (s : Following σ) : Happening → Watch
  | .cut length => ⟨true, v.spared && spares s length⟩
  | .start =>
    match s.standing with
    | .closed => { v with spared := true }
    | _ => v
  | .look =>
    match s.standing with
    | .atEnd _ => { v with waiting := false }
    | _ => v
  | _ => v

/-- The file does not grow between a cut and the next look at its end. -/
def Admits (v : Watch) : Happening → Prop
  | .append _ => v.waiting = false
  | _ => True

end Watch

/-- What a feed can come to when every cut is followed by a look at the end before the file
grows. -/
inductive Watched (r : Relocator σ) (origin : Following σ) : Following σ → Watch → Prop where
  | origin : Watched r origin origin .blank
  | step {s : Following σ} {v : Watch} (h : Watched r origin s v) (x : Happening)
      (hx : v.Admits x) : Watched r origin (s.step r x) (v.after s x)

/-! ## Bytes that stand in a file -/

section Prefixes

variable {content front rest bytes : List UInt8} {k length : Nat}

theorem prefix_drop_append (h : front <+: content.drop k) (bytes : List UInt8) :
    front <+: (content ++ bytes).drop k := by
  rw [List.drop_append]
  exact h.trans (List.prefix_append _ _)

theorem prefix_drop_add (h : front ++ rest <+: content.drop k) :
    rest <+: content.drop (k + front.length) := by
  obtain ⟨after, hafter⟩ := h
  refine ⟨after, ?_⟩
  rw [← List.drop_drop, ← hafter, List.append_assoc, List.drop_left]

theorem append_prefix_drop (hfront : front <+: content.drop k)
    (hrest : rest <+: content.drop (k + front.length)) : front ++ rest <+: content.drop k := by
  obtain ⟨after, hafter⟩ := hfront
  rw [← List.drop_drop, ← hafter, List.drop_left] at hrest
  rw [← hafter]
  exact List.prefix_append_right_inj front |>.2 hrest

theorem prefix_drop_take (h : front <+: content.drop k) (hlen : k + front.length ≤ length) :
    front <+: (content.take length).drop k := by
  rw [List.drop_take]
  exact List.prefix_take_iff.2 ⟨h, by omega⟩

theorem length_le_of_prefix_drop (h : front <+: content.drop k) (hfront : front ≠ []) :
    k + front.length ≤ content.length := by
  have hlen := h.length_le
  have hpos := List.length_pos_iff.2 hfront
  rw [List.length_drop] at hlen
  omega

end Prefixes

/-! ## Where the bytes of a run come from -/

/-- What a reader holds: an unfinished line that starts where the next line begins, and bytes that
were not looked at. These stand in the file unless a cut waits to be noticed, and so does the
unfinished line if the cuts spared it. -/
structure Holds (content : List UInt8) (start : Nat) (v : Watch) (reader : FileReader) : Prop where
  position : reader.position = start + reader.buffer.line.length + reader.buffer.ahead.length
  unfinished : newline ∉ reader.buffer.line
  inside : v.waiting = false → start ≤ content.length
  ahead : v.waiting = false →
    reader.buffer.ahead <+: content.drop (start + reader.buffer.line.length)
  spared : v.spared = true → content.length < start ∨
    reader.buffer.line ++ reader.buffer.ahead <+: content.drop start

theorem holds_startingAt {content : List UInt8} {start : Nat} (h : start ≤ content.length)
    (v : Watch) : Holds content start v (.startingAt start) :=
  ⟨rfl, List.not_mem_nil, fun _ => h, fun _ => List.nil_prefix, fun _ => .inr List.nil_prefix⟩

namespace Holds

variable {content : List UInt8} {start : Nat} {v : Watch} {reader next : FileReader}

theorem append (h : Holds content start v reader) (hv : v.waiting = false) (bytes : List UInt8) :
    Holds (content ++ bytes) start v reader := by
  have hinside := h.inside hv
  refine ⟨h.position, h.unfinished, fun _ => ?_, fun _ => prefix_drop_append (h.ahead hv) bytes,
    fun hspared => ?_⟩
  · rw [List.length_append]
    omega
  · obtain hlt | htail := h.spared hspared
    · omega
    · exact .inr (prefix_drop_append htail bytes)

theorem cut (h : Holds content start v reader) {length : Nat} {spares : Bool}
    (hspares : spares = true → length < start ∨ reader.position ≤ length) :
    Holds (content.take length) start ⟨true, v.spared && spares⟩ reader := by
  refine ⟨h.position, h.unfinished, nofun, nofun, fun hboth => ?_⟩
  obtain ⟨hspared, hlength⟩ := Bool.and_eq_true_iff.1 hboth
  rw [List.length_take]
  obtain hlt | htail := h.spared hspared
  · exact .inl (by omega)
  · obtain hlow | hhigh := hspares hlength
    · exact .inl (by omega)
    · refine .inr (prefix_drop_take htail ?_)
      have hposition := h.position
      rw [List.length_append]
      omega

/-- A complete line consists of the unfinished one and of bytes that were not looked at, and the
next line begins after it. -/
theorem of_step_line {file line : List UInt8} (h : Holds content start v reader)
    (hs : reader.step file = .line line next) : Holds content (start + line.length) v next := by
  obtain ⟨front, rest, hcut, rfl, rfl⟩ := hs ▸ reader.step_spec file
  obtain ⟨hfront, hahead⟩ := eq_append_of_cutLine hcut
  have hposition := h.position
  rw [hahead, List.length_append] at hposition
  rw [List.length_append, ← Nat.add_assoc]
  refine ⟨?_, List.not_mem_nil, fun hv => ?_, fun hv => ?_, fun hspared => ?_⟩
  · show reader.position = _ + 0 + rest.length
    omega
  · have hprefix := h.ahead hv
    rw [hahead] at hprefix
    exact length_le_of_prefix_drop ((List.prefix_append front rest).trans hprefix)
      (List.length_pos_iff.1 hfront.length_pos)
  · have hprefix := h.ahead hv
    rw [hahead] at hprefix
    show rest <+: content.drop (start + reader.buffer.line.length + front.length)
    exact prefix_drop_add hprefix
  · obtain hlt | htail := h.spared hspared
    · exact .inl (by omega)
    · rw [hahead, ← List.append_assoc] at htail
      have hrest := prefix_drop_add htail
      rw [List.length_append, ← Nat.add_assoc] at hrest
      exact .inr hrest

theorem not_mem_absorb (h : Holds content start v reader)
    (hcut : cutLine reader.buffer.ahead = none) :
    newline ∉ reader.buffer.line ++ reader.buffer.ahead := by
  rw [List.mem_append, not_or]
  exact ⟨h.unfinished, cutLine_eq_none_iff.1 hcut⟩

theorem of_step_filled (h : Holds content start v reader)
    (hs : reader.step content = .filled next) : Holds content start v next := by
  obtain ⟨hcut, -, rfl⟩ := hs ▸ reader.step_spec content
  have hposition := h.position
  have hportion : reader.available content <+:
      content.drop (start + (reader.buffer.line ++ reader.buffer.ahead).length) := by
    rw [List.length_append, ← Nat.add_assoc, ← hposition]
    exact List.take_prefix _ _
  refine ⟨?_, h.not_mem_absorb hcut, h.inside, fun _ => hportion, fun hspared => ?_⟩
  · simp only [LineBuffer.fill, LineBuffer.absorb, List.length_append]
    omega
  · exact (h.spared hspared).imp_right fun htail => append_prefix_drop htail hportion

theorem of_step_idle {file : List UInt8} (h : Holds content start v reader)
    (hs : reader.step file = .idle next) :
    Holds content start v next ∧ next.buffer.ahead = [] := by
  obtain ⟨hcut, -, rfl⟩ := hs ▸ reader.step_spec file
  have hposition := h.position
  refine ⟨⟨?_, h.not_mem_absorb hcut, h.inside, fun _ => List.nil_prefix, fun hspared => ?_⟩, rfl⟩
  · simp only [LineBuffer.absorb, List.length_append, List.length_nil]
    omega
  · refine (h.spared hspared).imp_right fun htail => ?_
    show reader.buffer.line ++ reader.buffer.ahead ++ [] <+: _
    rw [List.append_nil]
    exact htail

theorem noticed (h : Holds content start v reader) (hahead : reader.buffer.ahead = [])
    (hstart : start ≤ content.length) :
    Holds content start { v with waiting := false } reader := by
  refine ⟨h.position, h.unfinished, fun _ => hstart, fun _ => ?_, h.spared⟩
  rw [hahead]
  exact List.nil_prefix

end Holds

/-- What is known of the run, if there is one. -/
structure Held (s : Following σ) (v : Watch) : Prop where
  holds : ∀ reader, s.standing.reader? = some reader → Holds s.content s.lineStart v reader
  exhausted : ∀ reader, s.standing = .atEnd reader → reader.buffer.ahead = []

namespace Held

variable {r : Relocator σ} {s : Following σ} {v : Watch}

theorem of_none (hnone : s.standing.reader? = none) : Held s v where
  holds reader hreader := by
    rw [hnone] at hreader
    cases hreader
  exhausted reader hend := by
    rw [hend] at hnone
    cases hnone

/-- Of a run that is not at the end of the file the bytes that it holds are to be known. -/
theorem of_reader {reader : FileReader} (hreader : s.standing.reader? = some reader)
    (hend : ∀ other, s.standing ≠ .atEnd other) (h : Holds s.content s.lineStart v reader) :
    Held s v where
  holds other hother := by
    rw [hreader] at hother
    cases hother
    exact h
  exhausted other hother := absurd hother (hend other)

theorem append (h : Held s v) (hv : v.waiting = false) (bytes : List UInt8) :
    Held (s.step r (.append bytes)) v :=
  ⟨fun reader hreader => (h.holds reader hreader).append hv bytes, h.exhausted⟩

theorem cut (h : Held s v) (length : Nat) :
    Held (s.step r (.cut length)) (v.after s (.cut length)) := by
  refine ⟨fun reader hreader => (h.holds reader hreader).cut fun hspares => ?_, h.exhausted⟩
  have hreader : s.standing.reader? = some reader := hreader
  simpa [Watch.spares, hreader] using hspares

theorem start (h : Held s v) : Held (s.step r .start) (v.after s .start) := by
  cases hs : s.standing with
  | closed =>
    by_cases hlen : s.content.length < s.offset
    · rw [Following.step, start_of_short s hs hlen]
      exact of_reader rfl (by simp) (holds_startingAt (Nat.zero_le _) _)
    · rw [Following.step, start_of_long s hs hlen]
      exact of_reader rfl (by simp) (holds_startingAt (Nat.le_of_not_lt hlen) _)
  | _ => simpa only [Following.step, Following.start, Watch.after, hs] using h

theorem read (h : Held s v) : Held (s.step r .read) (v.after s .read) := by
  cases hs : s.standing with
  | reading reader =>
    have hreader := h.holds reader (by rw [hs]; rfl)
    rw [lineStart_of_pending (by rw [hs]; rfl)] at hreader
    simp only [Following.step, Following.read, Watch.after, hs]
    cases hstep : reader.step s.content with
    | line line next =>
      have hnext := hreader.of_step_line hstep
      rw [← List.flatten_singleton (l := line)] at hnext
      exact of_reader rfl (by simp) hnext
    | filled next =>
      exact of_reader rfl (by simp) (hreader.of_step_filled hstep)
    | idle next =>
      obtain ⟨hnext, hahead⟩ := hreader.of_step_idle hstep
      refine ⟨?_, ?_⟩
      · rintro _ ⟨⟩
        exact hnext
      · rintro _ ⟨⟩
        exact hahead
  | _ => simpa only [Following.step, Following.read, Watch.after, hs] using h

theorem finish (h : Held s v) : Held (s.step r .finish) (v.after s .finish) := by
  cases hs : s.standing with
  | handling line reader =>
    have hreader := h.holds reader (by rw [hs]; rfl)
    have hstart : s.lineStart = s.offset + line.length := by
      rw [lineStart, hs]
      exact congrArg _ (congrArg _ List.flatten_singleton)
    rw [hstart] at hreader
    simp only [Following.step, Following.finish, Watch.after, hs]
    exact of_reader rfl (by simp) hreader
  | _ => simpa only [Following.step, Following.finish, Watch.after, hs] using h

theorem look (h : Held s v) : Held (s.step r .look) (v.after s .look) := by
  cases hs : s.standing with
  | atEnd reader =>
    have hreader := h.holds reader (by rw [hs]; rfl)
    rw [lineStart_of_pending (by rw [hs]; rfl)] at hreader
    by_cases hlen : s.content.length < s.offset
    · rw [Following.step, look_of_short s hs hlen]
      exact of_none rfl
    · rw [Following.step, look_of_long s hs hlen]
      simp only [Watch.after, hs]
      exact of_reader rfl (by simp)
        (hreader.noticed (h.exhausted reader hs) (Nat.le_of_not_lt hlen))
  | _ => simpa only [Following.step, Following.look, Watch.after, hs] using h

theorem stop (h : Held s v) : Held (s.step r .stop) (v.after s .stop) := by
  cases hs : s.standing with
  | handling line reader => simpa only [Following.step, Following.stop, Watch.after, hs] using h
  | _ =>
    simp only [Following.step, Following.stop, Watch.after, hs]
    exact of_none rfl

/-- Every step that is admitted keeps what is known of the run. -/
theorem step (h : Held s v) {x : Happening} (hx : v.Admits x) :
    Held (s.step r x) (v.after s x) := by
  cases x with
  | append bytes => exact h.append hx bytes
  | cut length => exact h.cut length
  | start => exact h.start
  | read => exact h.read
  | finish => exact h.finish
  | look => exact h.look
  | stop => exact h.stop

end Held

variable {r : Relocator σ} {path : String} {pollMs : Nat} {content : List UInt8} {w : World σ}
variable {s : Following σ} {v : Watch}

theorem held_of_watched (h : Watched r (untouched path pollMs content w) s v) : Held s v := by
  induction h with
  | origin => exact .of_none rfl
  | step _ x hx ih => exact ih.step hx

/-! ## Lines and what they were made of -/

theorem lineAt_of_prefix {content line : List UInt8} {offset : Nat} (hline : IsLine line)
    (h : line <+: content.drop offset) : lineAt content offset = some line := by
  obtain ⟨rest, hrest⟩ := h
  rw [lineAt, ← hrest, completeLines_line_append hline, List.head?_cons]

theorem prefix_of_lineAt {content line : List UInt8} {offset : Nat}
    (h : lineAt content offset = some line) : line <+: content.drop offset := by
  obtain ⟨lines, hlines⟩ := List.head?_eq_some_iff.1 h
  obtain ⟨-, rest, -, hbytes⟩ := completeLines_spec (content.drop offset)
  rw [hbytes, hlines, List.flatten_cons, List.append_assoc]
  exact List.prefix_append _ _

/-- **Lines of the file.** Every cut is followed by a look at the end before the file grows. Then a
line that is read while no cut waits to be noticed is what the run kept of an unfinished line
followed by the bytes that the file has from there on up to the next newline. It is the line that
the file has at the offset exactly if what was kept still stands there, and so it is if every cut
went below the line that was looked for or spared all that the run had taken. -/
theorem line_of_file_iff (h : Watched r (untouched path pollMs content w) s v)
    (hv : v.waiting = false) {reader next : FileReader} {line : List UInt8}
    (hs : s.standing = .reading reader) (hstep : reader.step s.content = .line line next) :
    (∃ front, line = reader.buffer.line ++ front ∧
      lineAt s.content (s.offset + reader.buffer.line.length) = some front) ∧
    (lineAt s.content s.offset = some line ↔ reader.buffer.line <+: s.content.drop s.offset) ∧
    (v.spared = true → lineAt s.content s.offset = some line) := by
  have hreader := (held_of_watched h).holds reader (by rw [hs]; rfl)
  rw [lineStart_of_pending (by rw [hs]; rfl)] at hreader
  obtain ⟨front, rest, hcut, rfl, -⟩ := hstep ▸ reader.step_spec s.content
  obtain ⟨hfront, hahead⟩ := eq_append_of_cutLine hcut
  have hprefix : front <+: s.content.drop (s.offset + reader.buffer.line.length) := by
    have htaken := hreader.ahead hv
    rw [hahead] at htaken
    exact (List.prefix_append front rest).trans htaken
  have hiff : lineAt s.content s.offset = some (reader.buffer.line ++ front) ↔
      reader.buffer.line <+: s.content.drop s.offset := by
    constructor
    · intro hline
      exact (List.prefix_append _ _).trans (prefix_of_lineAt hline)
    · intro htail
      exact lineAt_of_prefix (hfront.append hreader.unfinished) (append_prefix_drop htail hprefix)
  refine ⟨⟨front, rfl, lineAt_of_prefix hfront hprefix⟩, hiff, fun hspared => hiff.2 ?_⟩
  obtain hlt | htail := hreader.spared hspared
  · have hinside := hreader.inside hv
    omega
  · exact (List.prefix_append _ _).trans htail

/-- An unfinished line is kept over a cut that spares it, and finished with bytes that were written
after the cut was noticed. -/
theorem line_of_file_across_cut :
    ∃ (s : Following Memory) (v : Watch) (reader next : FileReader),
      Watched Memory.relocator (untouched "feed" 250 [120, 10, 121, 121] ⟨.empty, .empty⟩) s v ∧
      v.waiting = false ∧ v.spared = true ∧ s.standing = .reading reader ∧
      reader.step s.content = .line [121, 121, 122, 10] next ∧
      lineAt s.content s.offset = some [121, 121, 122, 10] := by
  have blank : Watched Memory.relocator
      (untouched "feed" 250 [120, 10, 121, 121] ⟨.empty, .empty⟩) _ _ := .origin
  have waits := (((((blank.step .start trivial).step .read trivial).step .read trivial).step
    .finish trivial).step .read trivial).step .look trivial
  have cut := (waits.step (.append [122, 122]) rfl).step (.cut 5) trivial
  have noticed := ((cut.step .read trivial).step .read trivial).step .look trivial
  have grown := (noticed.step (.append [10]) (by cbv)).step .read trivial
  refine ⟨_, _, _, _, grown, by cbv, by cbv, by cbv, by cbv, ?_⟩
  exact (line_of_file_iff grown (by cbv) (by cbv) (by cbv)).2.2 (by cbv)

/-- The file holds one byte of a line when it is cut to nothing, and after a look at its end another
line is written. The run hands over a line that the file never had. -/
theorem glued_across_cut :
    ∃ (s : Following Memory) (v : Watch) (reader next : FileReader),
      Watched Memory.relocator (untouched "feed" 250 [121] ⟨.empty, .empty⟩) s v ∧
      v.waiting = false ∧ s.standing = .reading reader ∧ s.content = [122, 10] ∧
      lineAt s.content s.offset = some [122, 10] ∧
      reader.step s.content = .line [121, 10] next := by
  have blank : Watched Memory.relocator (untouched "feed" 250 [121] ⟨.empty, .empty⟩) _ _ := .origin
  have waits := (((blank.step .start trivial).step .read trivial).step .read trivial).step
    .look trivial
  have noticed := ((waits.step (.cut 0) trivial).step .read trivial).step .look trivial
  have grown := (noticed.step (.append [122, 10]) (by cbv)).step .read trivial
  exact ⟨_, _, _, _, grown, by cbv, by cbv, by cbv, by cbv, by cbv⟩

end NetRelocation.Feed
