import NetRelocation.Proofs.Calls
import NetRelocation.Proofs.Lines
import NetRelocation.Subscription.Feed

/-!
# Following a file step by step

A feed is read while its file is written. What a run does to the file takes many steps: it opens the
file, takes portions, handles lines, finds the end and looks whether the file was cut. Between any
two of them the file can be extended or cut and, unless a line is being handled, the run can be
stopped. `Following.step` is one such step.

**Theorem (`exists_steps_follow`).** Reading a file to its end without interruption
(`Feed.follow`) is some of these steps.
-/

namespace NetRelocation.Feed

/-- Where a run stands. -/
inductive Standing where
  /-- There is no run. -/
  | closed
  /-- The next line is looked for. -/
  | reading (reader : FileReader)
  /-- A line is being handled. -/
  | handling (line : List UInt8) (reader : FileReader)
  /-- There was nothing to take. -/
  | atEnd (reader : FileReader)
  deriving DecidableEq, Repr

namespace Standing

def reader? : Standing → Option FileReader
  | .closed => none
  | .reading reader => some reader
  | .handling _ reader => some reader
  | .atEnd reader => some reader

/-- The line that is being handled. -/
def pending : Standing → List (List UInt8)
  | .handling line _ => [line]
  | _ => []

/-- A run goes on from what it came to at the end of the file. -/
def ofHalt : Halt → Standing
  | .waiting reader => .reading reader
  | .truncated => .closed

end Standing

/-- A file and the run that follows it. -/
structure Following (σ : Type) where
  content : List UInt8
  progress : Progress σ
  standing : Standing

/-- What can happen next. -/
inductive Happening where
  /-- The file is extended. -/
  | append (bytes : List UInt8)
  /-- The file is cut to a length. -/
  | cut (length : Nat)
  /-- A run opens the file. -/
  | start
  /-- The run looks for a line in what it has taken, or takes a portion. -/
  | read
  /-- A line was handled. -/
  | finish
  /-- At the end the run looks whether the file was cut; if it was not, the run goes on later. -/
  | look
  /-- The run is cancelled or fails. -/
  | stop
  deriving DecidableEq, Repr

namespace Following

variable {σ : Type} (r : Relocator σ) (s : Following σ)

/-- The number of bytes that were handled. -/
def offset : Nat := s.progress.feed.offset

/-- A run opens the file where the last one came to. -/
def start : Following σ :=
  match s.standing with
  | .closed =>
    let feed := (s.progress.feed.resume s.content.length).1
    { s with
      progress := { s.progress with feed := feed }
      standing := .reading (.startingAt feed.offset) }
  | _ => s

def read : Following σ :=
  match s.standing with
  | .reading reader =>
    match reader.step s.content with
    | .line line next => { s with standing := .handling line next }
    | .filled next => { s with standing := .reading next }
    | .idle next => { s with standing := .atEnd next }
  | _ => s

/-- A line was handled. -/
def finish : Following σ :=
  match s.standing with
  | .handling line reader =>
    { s with
      progress := ⟨s.progress.feed.advance line,
        ((dispatch s.progress.feed.path line).run r s.progress.world).world⟩
      standing := .reading reader }
  | _ => s

/-- The run looks at the end of the file. -/
def look : Following σ :=
  match s.standing with
  | .atEnd reader =>
    let o := lookAtEnd s.content reader s.progress
    { s with progress := o.world, standing := .ofHalt o.value }
  | _ => s

/-- The run ends, unless it is handling a line. -/
def stop : Following σ :=
  match s.standing with
  | .handling _ _ => s
  | _ => { s with standing := .closed }

/-- One step; what cannot happen changes nothing. -/
def step : Happening → Following σ
  | .append bytes => { s with content := s.content ++ bytes }
  | .cut length => { s with content := s.content.take length }
  | .start => s.start
  | .read => s.read
  | .finish => s.finish r
  | .look => s.look
  | .stop => s.stop

/-- A file that became shorter than what was handled is read from its start. -/
theorem start_of_short (hs : s.standing = .closed) (hlen : s.content.length < s.offset) :
    s.start = ⟨s.content, ⟨{ s.progress.feed with offset := 0 }, s.progress.world⟩,
      .reading (.startingAt 0)⟩ := by
  unfold offset at hlen
  simp only [start, hs, resume, if_pos hlen]

theorem start_of_long (hs : s.standing = .closed) (hlen : ¬ s.content.length < s.offset) :
    s.start = { s with standing := .reading (.startingAt s.offset) } := by
  unfold offset at hlen
  simp only [start, hs, resume, if_neg hlen, offset]

theorem look_of_short {reader : FileReader} (hs : s.standing = .atEnd reader)
    (hlen : s.content.length < s.offset) :
    s.look = ⟨s.content, ⟨{ s.progress.feed with offset := 0 }, s.progress.world⟩, .closed⟩ := by
  unfold offset at hlen
  simp only [look, hs, lookAtEnd, if_pos hlen, Standing.ofHalt]

theorem look_of_long {reader : FileReader} (hs : s.standing = .atEnd reader)
    (hlen : ¬ s.content.length < s.offset) :
    s.look = { s with standing := .reading reader } := by
  unfold offset at hlen
  simp only [look, hs, lookAtEnd, if_neg hlen, Standing.ofHalt]

def steps : Following σ → List Happening → Following σ := List.foldl (step r)

/-! ## Reading to the end -/

/-- What is left to be done by a reader: each byte is taken once and looked at once. -/
def effort (content : List UInt8) (reader : FileReader) : Nat :=
  2 * (content.length - reader.position) + reader.buffer.ahead.length

variable {reader next : FileReader} {content : List UInt8}

theorem effort_of_step_line {line : List UInt8} (hs : reader.step content = .line line next) :
    effort content next < effort content reader := by
  obtain ⟨front, rest, hcut, -, rfl⟩ := hs ▸ reader.step_spec content
  obtain ⟨hfront, hahead⟩ := eq_append_of_cutLine hcut
  have hpos := hfront.length_pos
  simp only [effort, hahead, List.length_append]
  omega

theorem effort_of_step_filled (hs : reader.step content = .filled next) :
    effort content next < effort content reader := by
  obtain ⟨-, hbytes, rfl⟩ := hs ▸ reader.step_spec content
  have hpos := List.length_pos_iff.2 hbytes
  have hlen := reader.length_available_le content
  simp only [effort, LineBuffer.fill]
  omega

/-- The steps that are granted suffice. -/
theorem effort_lt_drainSteps (content : List UInt8) (reader : FileReader) :
    effort content reader < drainSteps content reader := by
  unfold effort drainSteps
  omega

/-- With enough steps granted, draining a file is some of the steps of a run. -/
theorem exists_steps_drain (fuel : Nat) (reader : FileReader) (p : Progress σ)
    (hfuel : effort content reader < fuel) :
    ∃ l, steps r ⟨content, p, .reading reader⟩ l =
      ⟨content, (drain r content fuel reader p).world,
        .ofHalt (drain r content fuel reader p).value⟩ := by
  induction fuel generalizing reader p with
  | zero => omega
  | succ fuel ih =>
    have hread : step r ⟨content, p, .reading reader⟩ .read =
        match reader.step content with
        | .line line next => ⟨content, p, .handling line next⟩
        | .filled next => ⟨content, p, .reading next⟩
        | .idle next => ⟨content, p, .atEnd next⟩ := by
      simp only [step, read]
    rw [drain]
    cases hs : reader.step content with
    | line line next =>
      rw [hs] at hread
      have heffort := effort_of_step_line hs
      obtain ⟨l, hl⟩ := ih next ⟨p.feed.advance line,
        ((dispatch p.feed.path line).run r p.world).world⟩ (by omega)
      refine ⟨.read :: .finish :: l, ?_⟩
      show steps r (step r (step r _ .read) .finish) l = _
      rw [hread]
      exact hl
    | filled next =>
      rw [hs] at hread
      have heffort := effort_of_step_filled hs
      obtain ⟨l, hl⟩ := ih next p (by omega)
      refine ⟨.read :: l, ?_⟩
      show steps r (step r _ .read) l = _
      rw [hread]
      exact hl
    | idle next =>
      rw [hs] at hread
      refine ⟨[.read, .look], ?_⟩
      show step r (step r _ .read) .look = _
      rw [hread]
      rfl

/-- **Reading to the end.** What an uninterrupted run does is some of its steps. -/
theorem exists_steps_follow (reader : FileReader) (p : Progress σ) :
    ∃ l, steps r ⟨content, p, .reading reader⟩ l =
      ⟨content, (follow r content reader p).world, .ofHalt (follow r content reader p).value⟩ :=
  exists_steps_drain r _ reader p (effort_lt_drainSteps content reader)

end Following

end NetRelocation.Feed
