import Mathlib
import NetRelocation.Proofs.Following
import NetRelocation.Relocation.Memory

/-!
# Every line once

A log is extended at its end and now and then cut and begun anew. What it holds between two cuts is
an *epoch*. A feed that follows it is read by one run after another, each step of which can fall
between any two changes of the file (`Following.step`). A cut has to go below what was handled and
to be noticed, by a look at the end or by the start of a run, before the file is as long again
(`Account.Admits`); until then the run is still about the epoch before, and may have taken lines of
it that it has not handled.

**Theorem (`followed_exactly_once`).** In every epoch the lines given to `dispatch` are the first
complete lines of the epoch, in order and each once; after a look at the end that found nothing new
they are all of them; and unless a line is being handled, the offset is the length of the lines of
the epoch and the world is what handling all lines in order leads to.

The account (`Account`) is kept beside the feed and is not read by it. The proof carries through
every step that the reader goes on in its epoch after the lines of the account (`Accounted`).
-/

namespace NetRelocation.Feed

open Following

/-! ## The account -/

/-- What a file held between two cuts, and the lines of it that were given to `dispatch`. -/
structure Epoch where
  content : List UInt8
  lines : List (List UInt8)
  deriving DecidableEq, Repr

/-- What was handled so far. -/
structure Account where
  /-- The epochs that are over, with what the file held at their ends. -/
  ended : List Epoch
  /-- The lines given to `dispatch` in this epoch. -/
  lines : List (List UInt8)
  /-- What the file held when it was cut, until the cut is noticed. -/
  lost : Option (List UInt8)
  /-- The file was not changed since a run came to its end. -/
  still : Bool
  /-- The file was not changed since a run came to its end, and found then that it was not cut. -/
  settled : Bool
  deriving DecidableEq, Repr

namespace Account

/-- Nothing was handled. -/
def blank : Account := ⟨[], [], none, false, false⟩

/-- What the file held in this epoch, given what it holds now. -/
def held (a : Account) (content : List UInt8) : List UInt8 := a.lost.getD content

theorem held_of_lost {a : Account} (h : a.lost = none) (content : List UInt8) :
    a.held content = content := by
  rw [held, h]
  rfl

/-- All epochs, given what the file holds now. -/
def epochs (a : Account) (content : List UInt8) : List Epoch :=
  a.ended ++ [⟨a.held content, a.lines⟩]

/-- All lines given to `dispatch`, in order. -/
def handed (a : Account) : List (List UInt8) := a.ended.flatMap Epoch.lines ++ a.lines

/-- A cut is noticed, and a new epoch begins. -/
def turn (a : Account) (content : List UInt8) : Account :=
  ⟨a.ended ++ [⟨a.held content, a.lines⟩], [], none, false, false⟩

variable {σ : Type}

/-- The account after a step. -/
def after (a : Account) (s : Following σ) : Happening → Account
  | .append _ => { a with still := false, settled := false }
  | .cut _ => { a with lost := some (a.held s.content), still := false, settled := false }
  | .start =>
    match s.standing with
    | .closed => if s.content.length < s.offset then a.turn s.content else a
    | _ => a
  | .read =>
    match s.standing with
    | .reading reader =>
      match reader.step s.content with
      | .line line _ => { a with lines := a.lines ++ [line] }
      | .filled _ => a
      | .idle _ => { a with still := true }
    | _ => a
  | .look =>
    match s.standing with
    | .atEnd _ =>
      if s.content.length < s.offset then a.turn s.content else { a with settled := a.still }
    | _ => a
  | .finish => a
  | .stop => a

/-- A cut goes below what was handled, and until it is noticed the file stays shorter than that. -/
def Admits (a : Account) (s : Following σ) : Happening → Prop
  | .append bytes => a.lost.isSome = true → (s.content ++ bytes).length < s.offset
  | .cut length => length < s.offset
  | _ => True

instance (a : Account) (s : Following σ) : (x : Happening) → Decidable (a.Admits s x)
  | .append bytes =>
    inferInstanceAs (Decidable (a.lost.isSome = true → (s.content ++ bytes).length < s.offset))
  | .cut length => inferInstanceAs (Decidable (length < s.offset))
  | .start => isTrue trivial
  | .read => isTrue trivial
  | .finish => isTrue trivial
  | .look => isTrue trivial
  | .stop => isTrue trivial

end Account

/-- What a feed can come to, with the account of what was handled. -/
inductive Reached {σ : Type} (r : Relocator σ) (origin : Following σ) :
    Following σ → Account → Prop where
  | origin : Reached r origin origin .blank
  | step {s : Following σ} {a : Account} (h : Reached r origin s a) (x : Happening)
      (hx : a.Admits s x) : Reached r origin (s.step r x) (a.after s x)

/-! ## What every step keeps -/

variable {σ : Type} {r : Relocator σ} {path : String} {w : World σ}

theorem run_dispatchAll_append (path : String) (lines : List (List UInt8)) (line : List UInt8)
    (w : World σ) :
    ((dispatchAll path (lines ++ [line])).run r w).world =
      ((dispatch path line).run r ((dispatchAll path lines).run r w).world).world := by
  induction lines generalizing w with
  | nil =>
    show ((dispatch path line >>= fun _ => Program.done ()).run r w).world = _
    rw [Program.run_bind]
    rfl
  | cons first lines ih =>
    show ((dispatch path first >>= fun _ => dispatchAll path (lines ++ [line])).run r w).world =
      ((dispatch path line).run r
        ((dispatch path first >>= fun _ => dispatchAll path lines).run r w).world).world
    rw [Program.run_bind, Program.run_bind]
    exact ih _

/-- The feed is where its account says. -/
structure Accounted (r : Relocator σ) (path : String) (w : World σ) (s : Following σ)
    (a : Account) : Prop where
  path_eq : s.progress.feed.path = path
  lines : ∀ line ∈ a.lines, IsLine line
  ended : ∀ e ∈ a.ended, e.lines <+: completeLines e.content
  handed_prefix : a.lines.flatten <+: a.held s.content
  continues : ∀ reader, s.standing.reader? = some reader →
    reader.Continues (a.held s.content) a.lines.flatten
  offset : s.offset + s.standing.pending.flatten.length = a.lines.flatten.length
  behind : a.lost.isSome = true → s.content.length < s.offset
  still : a.still = true → a.lost = none → a.lines = completeLines s.content
  settled : a.settled = true → a.lost = none ∧ a.lines = completeLines s.content
  world : ∃ handled, a.handed = handled ++ s.standing.pending ∧
    s.progress.world = ((dispatchAll path handled).run r w).world

namespace Accounted

variable {s : Following σ} {a : Account}

theorem lost_eq_none (h : Accounted r path w s a) (hlen : s.offset ≤ s.content.length) :
    a.lost = none := by
  cases hl : a.lost with
  | none => rfl
  | some content =>
    have hbehind := h.behind (by rw [hl]; rfl)
    omega

theorem ended_turn (h : Accounted r path w s a) :
    ∀ e ∈ (a.turn s.content).ended, e.lines <+: completeLines e.content := by
  intro e he
  rw [Account.turn, List.mem_append, List.mem_singleton] at he
  obtain he | rfl := he
  · exact h.ended e he
  · exact prefix_completeLines h.lines h.handed_prefix

theorem handed_turn (a : Account) (content : List UInt8) : (a.turn content).handed = a.handed := by
  simp [Account.turn, Account.handed]

theorem append (h : Accounted r path w s a) {bytes : List UInt8}
    (hx : a.Admits s (.append bytes)) :
    Accounted r path w (s.step r (.append bytes)) (a.after s (.append bytes)) := by
  have hheld : ∃ more, a.held (s.content ++ bytes) = a.held s.content ++ more := by
    unfold Account.held
    cases a.lost with
    | none => exact ⟨bytes, rfl⟩
    | some content => exact ⟨[], (List.append_nil content).symm⟩
  obtain ⟨more, hmore⟩ := hheld
  refine ⟨h.path_eq, h.lines, h.ended, ?_, ?_, h.offset, hx, nofun, nofun, h.world⟩
  · show _ <+: a.held (s.content ++ bytes)
    rw [hmore]
    exact h.handed_prefix.trans (List.prefix_append _ _)
  · intro reader hreader
    show reader.Continues (a.held (s.content ++ bytes)) _
    rw [hmore]
    exact (h.continues reader hreader).append more

theorem cut (h : Accounted r path w s a) {length : Nat} (hx : a.Admits s (.cut length)) :
    Accounted r path w (s.step r (.cut length)) (a.after s (.cut length)) := by
  refine ⟨h.path_eq, h.lines, h.ended, h.handed_prefix, h.continues, h.offset, fun _ => ?_, nofun,
    nofun, h.world⟩
  show (s.content.take length).length < s.offset
  have hlength : length < s.offset := hx
  rw [List.length_take]
  omega

theorem start (h : Accounted r path w s a) :
    Accounted r path w (s.step r .start) (a.after s .start) := by
  have hworld := h.world
  have hoffset := h.offset
  cases hs : s.standing with
  | closed =>
    rw [hs] at hworld hoffset
    by_cases hlen : s.content.length < s.offset
    · -- the run starts anew in the epoch that it finds
      simp only [Following.step, start_of_short s hs hlen, Account.after, hs, if_pos hlen]
      refine ⟨h.path_eq, ?_, h.ended_turn, List.nil_prefix, ?_, rfl, ?_, ?_, ?_, ?_⟩
      · intro line hline
        cases hline
      · intro reader hreader
        cases hreader
        exact FileReader.continues_startingAt List.nil_prefix
      · rintro ⟨⟩
      · rintro ⟨⟩
      · rintro ⟨⟩
      · rw [handed_turn]
        exact hworld
    · simp only [Following.step, start_of_long s hs hlen, Account.after, hs, if_neg hlen]
      refine ⟨h.path_eq, h.lines, h.ended, h.handed_prefix, ?_, hoffset, h.behind, h.still,
        h.settled, hworld⟩
      intro reader hreader
      cases hreader
      rw [show s.offset = a.lines.flatten.length from hoffset]
      exact FileReader.continues_startingAt h.handed_prefix
  | _ => simpa only [Following.step, Following.start, Account.after, hs] using h

/-- The next line of a reader is the next line of the epoch, which was not exhausted. -/
theorem read_line (h : Accounted r path w s a) {reader next : FileReader} {line : List UInt8}
    (hs : s.standing = .reading reader) (hstep : reader.step s.content = .line line next) :
    Accounted r path w { s with standing := .handling line next }
      { a with lines := a.lines ++ [line] } := by
  obtain ⟨hline, hnext⟩ := (h.continues reader (by rw [hs]; rfl)).of_step_line hstep
  have hflatten : (a.lines ++ [line]).flatten = a.lines.flatten ++ line := by simp
  rw [← hflatten] at hnext
  have hlines : ∀ l ∈ a.lines ++ [line], IsLine l := by
    intro l hl
    rw [List.mem_append, List.mem_singleton] at hl
    obtain hl | rfl := hl
    · exact h.lines l hl
    · exact hline
  have hmore : a.lost = none → a.lines ≠ completeLines s.content := by
    intro hl hall
    have hprefix := prefix_completeLines hlines hnext.read_prefix
    have hlen := hprefix.length_le
    rw [Account.held_of_lost hl, ← hall, List.length_append, List.length_singleton] at hlen
    omega
  obtain ⟨handled, hhanded, hworld⟩ := h.world
  have hoffset := h.offset
  rw [hs] at hhanded hoffset
  refine ⟨h.path_eq, hlines, h.ended, hnext.read_prefix, ?_, ?_, h.behind, ?_, ?_, handled, ?_,
    hworld⟩
  · intro reader hreader
    cases hreader
    exact hnext
  · show s.offset + [line].flatten.length = _
    rw [hflatten, List.length_append, ← hoffset]
    simp [Standing.pending]
  · intro hstill hl
    exact absurd (h.still hstill hl) (hmore hl)
  · intro hsettled
    obtain ⟨hl, hall⟩ := h.settled hsettled
    exact absurd hall (hmore hl)
  · show a.ended.flatMap Epoch.lines ++ (a.lines ++ [line]) = handled ++ [line]
    rw [← List.append_assoc]
    exact congrArg (· ++ [line]) (hhanded.trans (List.append_nil handled))

theorem read_filled (h : Accounted r path w s a) {reader next : FileReader}
    (hs : s.standing = .reading reader) (hstep : reader.step s.content = .filled next) :
    Accounted r path w { s with standing := .reading next } a := by
  have hreader := h.continues reader (by rw [hs]; rfl)
  have hl : a.lost = none := by
    -- a file that was cut ends before the reader, which takes nothing of it
    refine h.lost_eq_none (Nat.le_of_not_lt fun hlen => ?_)
    have hread := hreader.length_read_le
    have hoffset := h.offset
    exact FileReader.not_filled_of_length_le (by omega) hstep
  have hheld := Account.held_of_lost hl s.content
  have hworld := h.world
  have hoffset := h.offset
  rw [hs] at hworld hoffset
  refine ⟨h.path_eq, h.lines, h.ended, h.handed_prefix, ?_, hoffset, h.behind, h.still, h.settled,
    hworld⟩
  intro reader hnext
  cases hnext
  rw [hheld] at hreader
  show next.Continues (a.held s.content) _
  rw [hheld]
  exact hreader.of_step_filled hstep

theorem read_idle (h : Accounted r path w s a) {reader next : FileReader}
    (hs : s.standing = .reading reader) (hstep : reader.step s.content = .idle next) :
    Accounted r path w { s with standing := .atEnd next } { a with still := true } := by
  obtain ⟨hnext, hahead, hend⟩ := (h.continues reader (by rw [hs]; rfl)).of_step_idle hstep
  have hworld := h.world
  have hoffset := h.offset
  rw [hs] at hworld hoffset
  refine ⟨h.path_eq, h.lines, h.ended, h.handed_prefix, ?_, hoffset, h.behind, ?_, h.settled,
    hworld⟩
  · intro reader hreader
    cases hreader
    exact hnext
  · intro _ (hl : a.lost = none)
    rw [Account.held_of_lost hl] at hnext
    exact (hnext.completeLines_eq h.lines hahead hend).symm

theorem read (h : Accounted r path w s a) :
    Accounted r path w (s.step r .read) (a.after s .read) := by
  cases hs : s.standing with
  | reading reader =>
    simp only [Following.step, Following.read, Account.after, hs]
    cases hstep : reader.step s.content with
    | line line next => exact h.read_line hs hstep
    | filled next => exact h.read_filled hs hstep
    | idle next => exact h.read_idle hs hstep
  | _ => simpa only [Following.step, Following.read, Account.after, hs] using h

theorem finish (h : Accounted r path w s a) :
    Accounted r path w (s.step r .finish) (a.after s .finish) := by
  obtain ⟨content, ⟨feed, world⟩, standing⟩ := s
  cases standing with
  | handling line reader =>
    obtain ⟨handled, hhanded, hworld⟩ := h.world
    have hoffset : feed.offset + [line].flatten.length = a.lines.flatten.length := h.offset
    have hpath : feed.path = path := h.path_eq
    have hlen : (feed.advance line).offset = a.lines.flatten.length := by
      rw [← hoffset]
      simp [advance]
    refine ⟨h.path_eq, h.lines, h.ended, h.handed_prefix, h.continues, hlen, ?_, h.still, h.settled,
      a.handed, (List.append_nil _).symm, ?_⟩
    · intro hl
      have hbehind : content.length < feed.offset := h.behind hl
      show content.length < feed.offset + line.length
      omega
    · show ((dispatch feed.path line).run r world).world = _
      rw [show a.handed = handled ++ [line] from hhanded, run_dispatchAll_append, hpath]
      exact congrArg (fun w => ((dispatch path line).run r w).world) hworld
  | _ => exact h

theorem look (h : Accounted r path w s a) :
    Accounted r path w (s.step r .look) (a.after s .look) := by
  have hworld := h.world
  have hoffset := h.offset
  cases hs : s.standing with
  | atEnd reader =>
    rw [hs] at hworld hoffset
    by_cases hlen : s.content.length < s.offset
    · simp only [Following.step, look_of_short s hs hlen, Account.after, hs, if_pos hlen]
      refine ⟨h.path_eq, ?_, h.ended_turn, List.nil_prefix, ?_, rfl, ?_, ?_, ?_, ?_⟩
      · intro line hline
        cases hline
      · intro reader hreader
        cases hreader
      · rintro ⟨⟩
      · rintro ⟨⟩
      · rintro ⟨⟩
      · rw [handed_turn]
        exact hworld
    · have hl := h.lost_eq_none (Nat.le_of_not_lt hlen)
      have hcontinues := h.continues
      rw [hs] at hcontinues
      simp only [Following.step, look_of_long s hs hlen, Account.after, hs, if_neg hlen]
      exact ⟨h.path_eq, h.lines, h.ended, h.handed_prefix, hcontinues, hoffset, h.behind, h.still,
        fun hstill => ⟨hl, h.still hstill hl⟩, hworld⟩
  | _ => simpa only [Following.step, Following.look, Account.after, hs] using h

theorem stop (h : Accounted r path w s a) :
    Accounted r path w (s.step r .stop) (a.after s .stop) := by
  obtain ⟨content, progress, standing⟩ := s
  cases standing with
  | handling line reader => exact h
  | _ =>
    exact ⟨h.path_eq, h.lines, h.ended, h.handed_prefix, nofun, h.offset, h.behind, h.still,
      h.settled, h.world⟩

/-- Every step that is admitted keeps the account. -/
theorem step (h : Accounted r path w s a) {x : Happening} (hx : a.Admits s x) :
    Accounted r path w (s.step r x) (a.after s x) := by
  cases x with
  | append bytes => exact h.append hx
  | cut length => exact h.cut hx
  | start => exact h.start
  | read => exact h.read
  | finish => exact h.finish
  | look => exact h.look
  | stop => exact h.stop

end Accounted

/-! ## The lines of every epoch -/

/-- A feed of which nothing was handled, with no run. -/
def untouched (path : String) (pollMs : Nat) (content : List UInt8) (w : World σ) : Following σ :=
  ⟨content, ⟨⟨path, pollMs, 0⟩, w⟩, .closed⟩

variable {pollMs : Nat} {content : List UInt8} {s : Following σ} {a : Account}

theorem accounted_untouched : Accounted r path w (untouched path pollMs content w) .blank :=
  ⟨rfl, nofun, nofun, List.nil_prefix, nofun, rfl, nofun, nofun, nofun, [], rfl, rfl⟩

theorem accounted_of_reached (h : Reached r (untouched path pollMs content w) s a) :
    Accounted r path w s a := by
  induction h with
  | origin => exact accounted_untouched
  | step _ x hx ih => exact ih.step hx

/-- **Every line once.** Whatever happens to a file and to the runs that follow it, as long as every
cut goes below what was handled and is noticed while the file is still shorter than that: in every
epoch the lines given to `dispatch` are its first complete lines, none of them unfinished; they are
all of them once a look at the end found no cut and nothing was written since the end was reached;
and unless a line is being handled, the offset is their length and the world is the one that
handling all lines in order leads to. -/
theorem followed_exactly_once (h : Reached r (untouched path pollMs content w) s a) :
    (∀ e ∈ a.epochs s.content, e.lines <+: completeLines e.content ∧
      ∀ line ∈ e.lines, IsLine line) ∧
    (a.settled = true → a.lost = none ∧ a.lines = completeLines s.content) ∧
    (s.standing.pending = [] → s.offset = (a.lines.map List.length).sum ∧
      s.progress.world = ((dispatchAll path a.handed).run r w).world) := by
  have hacc := accounted_of_reached h
  have hepochs : ∀ e ∈ a.epochs s.content, e.lines <+: completeLines e.content := hacc.ended_turn
  refine ⟨fun e he => ⟨hepochs e he, fun line hline => ?_⟩, hacc.settled, fun hpending => ⟨?_, ?_⟩⟩
  · exact (completeLines_spec e.content).1 line ((hepochs e he).subset hline)
  · have hoffset := hacc.offset
    rw [hpending] at hoffset
    exact hoffset.trans List.length_flatten
  · obtain ⟨handled, hhanded, hworld⟩ := hacc.world
    rw [hhanded, hpending, List.append_nil]
    exact hworld

/-- A line is handled, the file is cut while the run waits at its end, and the next run handles a
line of the new epoch. -/
theorem followed_exactly_once_across_cut :
    ∃ (s : Following Memory) (a : Account),
      Reached Memory.relocator (untouched "feed" 250 [120, 10, 121] ⟨.empty, .empty⟩) s a ∧
      a.epochs s.content = [⟨[120, 10, 121], [[120, 10]]⟩, ⟨[122, 10], [[122, 10]]⟩] ∧
      a.settled = true ∧
      a.lines = completeLines s.content ∧ s.offset = (a.lines.map List.length).sum := by
  have blank : Reached Memory.relocator
      (untouched "feed" 250 [120, 10, 121] ⟨.empty, .empty⟩) _ _ := .origin
  have handled := ((((blank.step .start trivial).step .read trivial).step .read trivial).step
    .finish trivial).step .read trivial
  have cut := ((handled.step .look trivial).step (.cut 0) (by decide +kernel)).step (.append [122])
    (by decide +kernel)
  have noticed := ((cut.step .read trivial).step .look trivial).step .start trivial
  have again := (((noticed.step (.append [10]) (by decide +kernel)).step .read trivial).step
    .read trivial).step .finish trivial
  have settled := (again.step .read trivial).step .look trivial
  have once := followed_exactly_once settled
  exact ⟨_, _, settled, by cbv, by cbv, (once.2.1 (by cbv)).2, (once.2.2 (by cbv)).1⟩

end NetRelocation.Feed
