import NetRelocation.Proofs.Following
import NetRelocation.Proofs.Redelivery
import NetRelocation.Proofs.Trimming
import NetRelocation.Subscription.Task

/-!
# What a feed means

A feed brings bytes, in portions of any size; the coordinator handles events. Which events some
bytes stand for can be said without a reader (`Feed.eventsOf`): the bytes are cut at the newlines,
each piece is decoded and trimmed, and pieces that are blank or no events are dropped.

**Theorem (`feed_means_its_events`).** A stream leaves the record, what moves the devices, and the
requests that were made as if the events of its bytes had been handled in order, however the bytes
were cut into portions. So does a file of the same bytes that is followed, if it ends in a newline;
one is added where it is missing. The offset of the stream stays, and that of the file is its
length, no matter how often the end of the file is looked at afterwards.

A stream is read by a loop over what has been taken and what will be written; its events are those
of the bytes that remain, whatever was cut where (`world_drainStream`). A file is read up to its
last complete line and no further (`drain_reads`). The two ends meet because a newline at the end of
a piece is a blank (`textOf_append_newline`): the decoder completes it even behind half a character.
The requests are noted by a relocator that answers like the other (`run_recorded`).
-/

namespace NetRelocation

variable {α σ : Type}

/-! ## Requests that are noted -/

/-- A relocator that notes what it was asked for and what it answered. -/
def Relocator.recorded (r : Relocator σ) : Relocator (σ × List Call) where
  attach device target config addresses s :=
    let answer := r.attach device target config addresses s.1
    let call : Call := ⟨.attach device target config addresses, answer.result⟩
    ⟨answer.result, answer.notices, (answer.state, s.2 ++ [call])⟩
  detach source device restore s :=
    let answer := r.detach source device restore s.1
    let call : Call := ⟨.detach source device restore, answer.result⟩
    ⟨answer.result, answer.notices, (answer.state, s.2 ++ [call])⟩

/-- A world in which some requests were noted. -/
def World.noting (world : World σ) (calls : List Call) : World (σ × List Call) :=
  ⟨world.store, (world.relocator, calls)⟩

variable (r : Relocator σ)

theorem Relocator.answer_recorded (request : Relocation) (s : σ) (calls : List Call) :
    r.recorded.answer request (s, calls) =
      ⟨(r.answer request s).result, (r.answer request s).notices,
        ((r.answer request s).state, calls ++ [⟨request, (r.answer request s).result⟩])⟩ := by
  cases request <;> rfl

/-- **Noting changes nothing else.** -/
theorem run_recorded (p : Program α) (world : World σ) (calls : List Call) :
    p.run r.recorded (world.noting calls) =
      ⟨(p.run r world).value, (p.run r world).notices,
        (p.run r world).world.noting (calls ++ p.calls r world)⟩ := by
  induction p generalizing world calls with
  | done a => simp [Program.run, Program.calls]
  | store action next ih => exact ih _ { world with store := action.apply world.store } calls
  | relocate request next ih =>
    have hanswer := r.answer_recorded request world.relocator calls
    have hnext := ih (r.answer request world.relocator).result
      ⟨world.store, (r.answer request world.relocator).state⟩
      (calls ++ [⟨request, (r.answer request world.relocator).result⟩])
    simp only [World.noting] at hnext
    simp [Program.run, Program.calls, World.noting, hanswer, hnext, Outcome.after]
  | note notice next ih =>
    have hnext := ih world calls
    simp [Program.run, Program.calls, hnext, Outcome.after]

theorem Lifecycle.handleAll_recorded (events : List DriverEvent) (world : World σ)
    (calls : List Call) :
    (handleAll r.recorded events (world.noting calls)).2 =
      (handleAll r events world).2.noting
        (calls ++ (handleAll r events world).1.flatMap (·.calls)) := by
  induction events generalizing world calls with
  | nil => simp [handleAll]
  | cons event events ih =>
    simp only [handleAll, run_recorded, ih, List.flatMap_cons, List.append_assoc]

/-! ## A newline at the end -/

namespace Text

namespace Utf8

/-- A byte below 0x80 continues no character. -/
def State.RefusesAscii : State → Prop
  | .start => True
  | .within _ _ low _ => 0x80 ≤ low

theorem refusesAscii_first (b : Nat) : (first b).2.RefusesAscii := by
  unfold first
  split_ifs <;> simp [State.RefusesAscii]

theorem refusesAscii_step {s : State} (b : Nat) : (step s b).2.RefusesAscii := by
  cases s with
  | start => exact refusesAscii_first b
  | within owed bits low high =>
    by_cases hb : low ≤ b ∧ b ≤ high
    · cases owed <;> simp [step, hb, State.RefusesAscii]
    · simpa [step, hb] using refusesAscii_first b

theorem first_of_ascii {b : Nat} (hb : b < 0x80) : first b = ([some (Char.ofNat b)], .start) :=
  if_pos hb

/-- Where a byte below 0x80 stands the decoder begins anew. -/
theorem run_append_ascii {s : State} (hs : s.RefusesAscii) (bs cs : List UInt8) {b : UInt8}
    (hb : b.toNat < 0x80) :
    run s (bs ++ b :: cs) = run s bs ++ some (Char.ofNat b.toNat) :: run .start cs := by
  induction bs generalizing s with
  | nil =>
    cases s with
    | start => simp [run, step, first_of_ascii hb]
    | within owed bits low high =>
      have hlow : ¬ (low ≤ b.toNat ∧ b.toNat ≤ high) := fun h =>
        absurd (Nat.lt_of_lt_of_le hb hs) (Nat.not_lt.2 h.1)
      simp [run, step, hlow, first_of_ascii hb]
  | cons a bs ih =>
    have hrun (l : List UInt8) :
        run s (a :: l) = (step s a.toNat).1 ++ run (step s a.toNat).2 l := by
      cases s <;> rfl
    rw [List.cons_append, hrun, hrun, ih (refusesAscii_step _), List.append_assoc]

theorem decodeLossy_append_ascii (bs cs : List UInt8) {b : UInt8} (hb : b.toNat < 0x80) :
    decodeLossy (bs ++ b :: cs) = decodeLossy bs ++ Char.ofNat b.toNat :: decodeLossy cs := by
  simp [decodeLossy, run_append_ascii (s := .start) trivial bs cs hb]

end Utf8

end Text

namespace Feed

theorem textOf_append_newline (piece : List UInt8) :
    textOf (piece ++ [newline]) = textOf piece := by
  have hdecode := Text.Utf8.decodeLossy_append_ascii piece [] (b := newline) (by decide)
  have hblank : Text.isBlank (Char.ofNat newline.toNat) = true := by decide
  rw [textOf, textOf, hdecode]
  exact congrArg String.ofList (Text.trimChars_append_blank _ hblank)

/-! ## Events of bytes -/

/-- The event that a piece stands for, if it does: the one of its text, in which invalid bytes were
replaced, without the blanks around it. -/
def eventOf? (piece : List UInt8) : Option DriverEvent :=
  let text := Text.trim (String.ofList (Text.Utf8.decodeLossy piece))
  if text = "" then none else (DriverEvent.parse text).toOption

/-- The events of some bytes: of their pieces between newlines, those that stand for one. -/
def eventsOf (bytes : List UInt8) : List DriverEvent :=
  (bytes.splitOn newline).filterMap eventOf?

/-- Some bytes with a newline at their end. -/
def completed (bytes : List UInt8) : List UInt8 :=
  if bytes.getLast? = some newline then bytes else bytes ++ [newline]

theorem trim_decodeLossy (piece : List UInt8) :
    Text.trim (String.ofList (Text.Utf8.decodeLossy piece)) = textOf piece := by
  rw [Text.trim, String.toList_ofList, textOf]

theorem eventOf?_eq (piece : List UInt8) :
    eventOf? piece =
      if textOf piece = "" then none else (DriverEvent.parse (textOf piece)).toOption := by
  rw [eventOf?, trim_decodeLossy]

theorem eventOf?_append_newline (piece : List UInt8) :
    eventOf? (piece ++ [newline]) = eventOf? piece := by
  rw [eventOf?_eq, eventOf?_eq, textOf_append_newline]

theorem eventOf?_nil : eventOf? [] = none := rfl

theorem filterMap_eventOf?_cons (line : List UInt8) (lines : List (List UInt8)) :
    (line :: lines).filterMap eventOf? = (eventOf? line).toList ++ lines.filterMap eventOf? := by
  rw [List.filterMap_cons]
  cases eventOf? line <;> rfl

theorem eventsOf_of_not_mem {bytes : List UInt8} (h : newline ∉ bytes) :
    eventsOf bytes = (eventOf? bytes).toList := by
  have hsplit : bytes.splitOn newline = [bytes] := by
    refine List.splitOnP_eq_singleton fun b hb => ?_
    rw [beq_eq_false_iff_ne]
    exact fun heq => h (heq ▸ hb)
  rw [eventsOf, hsplit, filterMap_eventOf?_cons, List.filterMap_nil, List.append_nil]

theorem eventsOf_line_append {line : List UInt8} (h : IsLine line) (rest : List UInt8) :
    eventsOf (line ++ rest) = (eventOf? line).toList ++ eventsOf rest := by
  obtain ⟨body, hbody, rfl⟩ := h
  have hsplit : (body ++ newline :: rest).splitOn newline =
      body.splitOn newline ++ rest.splitOn newline :=
    List.splitOnP_append_cons body rest (beq_self_eq_true newline)
  rw [eventOf?_append_newline, ← eventsOf_of_not_mem hbody, List.append_assoc,
    List.singleton_append, eventsOf, hsplit, List.filterMap_append]
  rfl

theorem eventsOf_flatten_append {lines : List (List UInt8)} (h : ∀ line ∈ lines, IsLine line)
    (rest : List UInt8) :
    eventsOf (lines.flatten ++ rest) = lines.filterMap eventOf? ++ eventsOf rest := by
  induction lines with
  | nil => rfl
  | cons line lines ih =>
    have hlines := ih fun l hl => h l (List.mem_cons_of_mem _ hl)
    rw [List.flatten_cons, List.append_assoc, eventsOf_line_append (h line List.mem_cons_self),
      hlines, filterMap_eventOf?_cons, List.append_assoc]

/-- Bytes that end in a newline are lines. -/
theorem flatten_completeLines_completed (bytes : List UInt8) :
    (completeLines (completed bytes)).flatten = completed bytes := by
  obtain ⟨-, rest, hrest, hbytes⟩ := completeLines_spec (completed bytes)
  have hlast : (completed bytes).getLast? = some newline := by
    unfold completed
    split_ifs with h
    · exact h
    · simp
  have hnone : rest = [] := by
    by_contra hne
    rw [hbytes, List.getLast?_append_of_ne_nil _ hne] at hlast
    exact hrest (List.mem_of_getLast? hlast)
  rw [hnone, List.append_nil] at hbytes
  exact hbytes.symm

theorem eventsOf_completed (bytes : List UInt8) : eventsOf (completed bytes) = eventsOf bytes := by
  unfold completed
  split_ifs with h
  · rfl
  · obtain ⟨hlines, rest, hrest, hbytes⟩ := completeLines_spec bytes
    have hline : IsLine (rest ++ [newline]) := ⟨rest, hrest, rfl⟩
    have hend : eventsOf (rest ++ [newline]) = (eventOf? rest).toList := by
      rw [← List.append_nil (rest ++ [newline]), eventsOf_line_append hline,
        eventOf?_append_newline, eventsOf_of_not_mem List.not_mem_nil, eventOf?_nil,
        Option.toList_none, List.append_nil]
    rw [hbytes, List.append_assoc, eventsOf_flatten_append hlines, eventsOf_flatten_append hlines,
      hend, eventsOf_of_not_mem hrest]

theorem filterMap_completeLines_completed (bytes : List UInt8) :
    (completeLines (completed bytes)).filterMap eventOf? = eventsOf bytes := by
  have hlines := (completeLines_spec (completed bytes)).1
  rw [← eventsOf_completed bytes, ← flatten_completeLines_completed bytes,
    ← List.append_nil (completeLines (completed bytes)).flatten, eventsOf_flatten_append hlines,
    completeLines_flatten_append hlines, eventsOf_of_not_mem List.not_mem_nil, eventOf?_nil]
  simp [completeLines]

/-- Handling a line is handling its event. -/
theorem world_dispatch (path : String) (line : List UInt8) (world : World σ) :
    ((dispatch path line).run r world).world =
      (Lifecycle.handleAll r (eventOf? line).toList world).2 := by
  by_cases htext : textOf line = ""
  · simp [dispatch, eventOf?_eq, htext, Program.run, Lifecycle.handleAll]
  · cases hevent : DriverEvent.parse (textOf line) with
    | error fault =>
      simp [dispatch, eventOf?_eq, htext, hevent, Program.ofNotice, Program.run, Except.toOption,
        Lifecycle.handleAll]
    | ok event =>
      have hdispatch : dispatch path line = deliver event := by
        simp only [dispatch, if_neg htext, hevent]
      have hlist : (eventOf? line).toList = [event] := by
        rw [eventOf?_eq, if_neg htext, hevent]
        rfl
      rw [hdispatch, hlist, deliver, Program.run_bind, Outcome.world_after, Lifecycle.handleAll]
      cases ((Lifecycle.handle event).run r world).value <;> rfl

/-! ## Streams -/

variable {r}

/-- **What remains of a stream.** The loop handles the events of the line that has begun, of what
has not been looked at and of what is still to be written. -/
theorem world_drainStream (fuel : Nat) (b : LineBuffer) (portions : List (List UInt8))
    (p : Progress σ) (hline : newline ∉ b.line)
    (hfuel : b.ahead.length + portions.flatten.length + portions.length < fuel) :
    (drainStream r fuel b portions p).world =
      ⟨p.feed,
        (Lifecycle.handleAll r (eventsOf (b.line ++ b.ahead ++ portions.flatten)) p.world).2⟩ := by
  induction fuel generalizing b portions p with
  | zero => omega
  | succ fuel ih =>
    unfold drainStream LineBuffer.next?
    cases hcut : cutLine b.ahead with
    | some cut =>
      obtain ⟨front, rest⟩ := cut
      obtain ⟨hfront, hahead⟩ := eq_append_of_cutLine hcut
      have hpos := hfront.length_pos
      have hlen := congrArg List.length hahead
      rw [List.length_append] at hlen
      have hrest := ih ⟨[], rest⟩ portions (handleLine r p (b.line ++ front)).world
        List.not_mem_nil (by simp only; omega)
      have hbytes : b.line ++ b.ahead ++ portions.flatten =
          b.line ++ front ++ (rest ++ portions.flatten) := by
        simp [hahead]
      simp only [Option.map_some, Outcome.world_after, hrest]
      rw [hbytes, eventsOf_line_append (hfront.append hline), Lifecycle.handleAll_append,
        ← world_dispatch r p.feed.path]
      rfl
    | none =>
      have habsorb : newline ∉ b.absorb.line := by
        rw [LineBuffer.absorb, List.mem_append, not_or]
        exact ⟨hline, cutLine_eq_none_iff.1 hcut⟩
      cases portions with
      | cons bytes portions =>
        have hfill := ih (b.fill bytes) portions p habsorb (by
          simp only [List.flatten_cons, List.length_append, List.length_cons] at hfuel
          simp only [LineBuffer.fill]
          omega)
        simp only [Option.map_none, hfill]
        rw [LineBuffer.fill, LineBuffer.absorb, List.flatten_cons]
        simp only [List.append_assoc]
      | nil =>
        simp only [Option.map_none, List.flatten_nil, List.append_nil]
        rw [eventsOf_of_not_mem (show newline ∉ b.line ++ b.ahead from habsorb)]
        split_ifs with hnone
        · rw [show b.line ++ b.ahead = [] from hnone, eventOf?_nil]
          rfl
        · rw [← world_dispatch r p.feed.path]
          rfl

/-- **A stream is its events.** -/
theorem world_readStream (portions : List (List UInt8)) (p : Progress σ) :
    (readStream r portions p).world =
      ⟨p.feed, (Lifecycle.handleAll r (eventsOf portions.flatten) p.world).2⟩ := by
  refine world_drainStream _ .empty portions p List.not_mem_nil ?_
  simp only [streamSteps, LineBuffer.empty, List.length_nil]
  omega

/-! ## Files -/

/-- **Up to the last complete line.** A reader that has handled some lines of a file handles the
rest of them, counts their bytes and waits behind them. -/
theorem drain_reads {content : List UInt8} {lines rest : List (List UInt8)}
    (hlines : completeLines content = lines ++ rest) (fuel : Nat) (reader : FileReader)
    (p : Progress σ) (hreader : reader.Continues content lines.flatten)
    (hoffset : p.feed.offset = lines.flatten.length)
    (hfuel : Following.effort content reader < fuel) :
    ∃ next : FileReader, next.Continues content (completeLines content).flatten ∧
      (drain r content fuel reader p).value = .waiting next ∧
      (drain r content fuel reader p).world =
        ⟨{ p.feed with offset := (completeLines content).flatten.length },
          (Lifecycle.handleAll r (rest.filterMap eventOf?) p.world).2⟩ := by
  induction fuel generalizing lines rest reader p with
  | zero => omega
  | succ fuel ih =>
    rw [drain]
    cases hs : reader.step content with
    | line line next =>
      have heffort := Following.effort_of_step_line hs
      obtain ⟨hnext, rest, rfl⟩ := hreader.rest_eq_cons hlines hs
      have hlines' : completeLines content = (lines ++ [line]) ++ rest := by simp [hlines]
      obtain ⟨last, hlast, hvalue, hworld⟩ := ih hlines' next
        ⟨p.feed.advance line, ((dispatch p.feed.path line).run r p.world).world⟩ hnext
        (by simp [advance, hoffset]) (by omega)
      refine ⟨last, hlast, hvalue, ?_⟩
      rw [Outcome.world_after, hworld, world_dispatch, filterMap_eventOf?_cons,
        Lifecycle.handleAll_append]
      rfl
    | filled next =>
      have heffort := Following.effort_of_step_filled hs
      exact ih hlines next p (hreader.of_step_filled hs) hoffset (by omega)
    | idle next =>
      obtain ⟨hnext, rfl⟩ := hreader.rest_eq_nil hlines hs
      rw [List.append_nil] at hlines
      have hlong : ¬ content.length < p.feed.offset := by
        rw [hoffset]
        exact Nat.not_lt.2 hnext.read_prefix.length_le
      simp only [lookAtEnd, if_neg hlong]
      refine ⟨next, hlines.symm ▸ hnext, rfl, ?_⟩
      rw [hlines, ← hoffset]
      rfl

end Feed

namespace FeedTask

/-- Wake a task at one time after another. -/
def wakes (r : Relocator σ) : List Nat → FeedTask → Scene σ → FeedTask × Scene σ
  | [], task, scene => (task, scene)
  | now :: times, task, scene =>
    let o := task.wake r now scene
    wakes r times o.value o.world

/-- A run that waits at the end of a file goes on with the same file. -/
theorem read_waiting {r : Relocator σ} (task : FeedTask) (number now : Nat) (scene : Scene σ)
    {reader next : FileReader} {p : Feed.Progress σ}
    (hvalue : (Feed.follow r (scene.file.content number) reader scene.progress).value =
      .waiting next)
    (hworld : (Feed.follow r (scene.file.content number) reader scene.progress).world = p) :
    (∃ t, (task.read r number reader now scene).value.stage = .following number next t) ∧
      (task.read r number reader now scene).world = ⟨scene.file, p⟩ := by
  rw [read, hvalue, hworld]
  exact ⟨⟨_, rfl⟩, rfl⟩

end FeedTask

namespace Feed

variable {r}

/-- A reader that has handled every complete line of a file. -/
structure Done (content : List UInt8) (reader : FileReader) (feed : Feed) : Prop where
  continues : reader.Continues content (completeLines content).flatten
  offset : feed.offset = (completeLines content).flatten.length

variable {content : List UInt8} {reader : FileReader}

/-- Another look at a file that was read changes nothing. -/
theorem Done.follow {p : Progress σ} (h : Done content reader p.feed) :
    ∃ next, Done content next p.feed ∧ (follow r content reader p).value = .waiting next ∧
      (follow r content reader p).world = p := by
  obtain ⟨next, hnext, hvalue, hworld⟩ := drain_reads (r := r)
    (List.append_nil (completeLines content)).symm (drainSteps content reader) reader p h.continues
    h.offset (Following.effort_lt_drainSteps content reader)
  refine ⟨next, ⟨hnext, h.offset⟩, hvalue, hworld.trans ?_⟩
  rw [← h.offset]
  rfl

/-- A task whose run has handled every complete line changes nothing, whenever it is woken. -/
theorem Done.wakes {task : FeedTask} {number t : Nat} (scene : Scene σ)
    (h : Done content reader scene.progress.feed) (hcontent : scene.file.content number = content)
    (hstage : task.stage = .following number reader t) (times : List Nat) :
    (task.wakes r times scene).2 = scene := by
  induction times generalizing task reader t with
  | nil => rfl
  | cons now times ih =>
    subst hcontent
    obtain ⟨next, hnext, hvalue, hworld⟩ := h.follow (r := r)
    have hwake : task.wake r now scene = task.read r number reader now scene := by
      rw [FeedTask.wake, hstage]
    obtain ⟨⟨t', hstage'⟩, hscene⟩ := task.read_waiting number now scene hvalue hworld
    rw [FeedTask.wakes, hwake, hscene]
    exact ih hnext hstage'

/-- **A file is the events of its complete lines.** -/
theorem progress_wakes (content : List UInt8) (path : String) (pollMs : Nat) (world : World σ)
    (policy : Option RestartPolicy) (now : Nat) (times : List Nat) :
    ((FeedTask.startingAt now policy).wakes r (now :: times)
        ⟨LogFile.absent.write content, ⟨⟨path, pollMs, 0⟩, world⟩⟩).2.progress =
      ⟨⟨path, pollMs, (completeLines content).flatten.length⟩,
        (Lifecycle.handleAll r ((completeLines content).filterMap eventOf?) world).2⟩ := by
  let task := FeedTask.startingAt now policy
  let scene : Scene σ := ⟨LogFile.absent.write content, ⟨⟨path, pollMs, 0⟩, world⟩⟩
  let done : Progress σ := ⟨⟨path, pollMs, (completeLines content).flatten.length⟩,
    (Lifecycle.handleAll r ((completeLines content).filterMap eventOf?) world).2⟩
  have hwake : task.wake r now scene =
      (task.read r 0 (.startingAt 0) now scene).after [.feedOpened path true 0] := rfl
  have hstart : (FileReader.startingAt 0).Continues content [] :=
    FileReader.continues_startingAt (List.nil_prefix (l := content))
  obtain ⟨next, hnext, hvalue, hworld⟩ : ∃ next : FileReader,
      next.Continues content (completeLines content).flatten ∧
      (follow r content (.startingAt 0) scene.progress).value = .waiting next ∧
      (follow r content (.startingAt 0) scene.progress).world = done :=
    drain_reads (List.nil_append (completeLines content)).symm _ _ scene.progress hstart rfl
      (Following.effort_lt_drainSteps content _)
  obtain ⟨⟨t, hstage⟩, hscene⟩ := task.read_waiting 0 now scene hvalue hworld
  have hdone : Done content next done.feed := ⟨hnext, rfl⟩
  rw [FeedTask.wakes, hwake, Outcome.value_after, Outcome.world_after, hscene,
    hdone.wakes ⟨scene.file, done⟩ rfl hstage times]

/-- **A feed means its events.** Let some bytes be written to a stream, in any portions, or be a
file that is followed, with a newline at its end. Either way the events of the bytes are handled in
order, whatever comes of each, with the same requests and answers; the stream keeps its offset, and
the whole file is counted. -/
theorem feed_means_its_events (r : Relocator σ) (portions : List (List UInt8)) (path : String)
    (pollMs offset : Nat) (world : World σ) (policy : Option RestartPolicy) (now : Nat)
    (times : List Nat) :
    let bytes := portions.flatten
    let folded := Lifecycle.handleAll r (eventsOf bytes) world
    let after := folded.2.noting (folded.1.flatMap (·.calls))
    (readStream r.recorded portions ⟨⟨path, pollMs, offset⟩, world.noting []⟩).world =
        ⟨⟨path, pollMs, offset⟩, after⟩ ∧
      ((FeedTask.startingAt now policy).wakes r.recorded (now :: times)
        ⟨LogFile.absent.write (completed bytes), ⟨⟨path, pollMs, 0⟩, world.noting []⟩⟩).2.progress =
        ⟨⟨path, pollMs, (completed bytes).length⟩, after⟩ := by
  intro bytes folded after
  have hfold : (Lifecycle.handleAll r.recorded (eventsOf bytes) (world.noting [])).2 = after :=
    Lifecycle.handleAll_recorded r (eventsOf bytes) world []
  constructor
  · rw [world_readStream, hfold]
  · rw [progress_wakes, flatten_completeLines_completed, filterMap_completeLines_completed, hfold]

end Feed

end NetRelocation
