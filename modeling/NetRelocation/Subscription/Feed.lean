import NetRelocation.Coordination.Lifecycle
import NetRelocation.Subscription.Reader
import NetRelocation.Text.Utf8

/-!
# Feeds of events

A feed has one event per line. A regular file is followed: at its end the reader waits for more, and
a later run goes on after the last line that was handled. A stream is read to its end.

A line that is no event is reported and passed over, and so is an event whose handling fails.
-/

namespace NetRelocation

/-- A feed with the progress made on it. -/
structure Feed where
  path : String
  /-- The time between two looks at the end of a followed file, in milliseconds. -/
  pollMs : Nat
  /-- The number of bytes of the followed file that were handled. -/
  offset : Nat
  deriving DecidableEq, Repr

namespace Feed

open Program

/-- The name of the source in notices. -/
def source : String := "json-lines"

/-- The time between two looks, unless another one is asked for. -/
def standardPollMs : Nat := 250

/-- A feed of which nothing was handled. -/
def atPath (path : String) : Feed := ⟨path, standardPollMs, 0⟩

/-! ## One line -/

/-- The text of a line without blanks at its ends. -/
def textOf (line : List UInt8) : String :=
  String.ofList (Text.trimChars (Text.Utf8.decodeLossy line))

/-- Handle an event; a failure is reported. -/
def deliver (event : DriverEvent) : Program Unit := do
  match ← Lifecycle.handle event with
  | .ok _ => done ()
  | .error e => ofNotice (.eventFailed event e)

def dispatch (path : String) (line : List UInt8) : Program Unit :=
  let text := textOf line
  if text = "" then done ()
  else
    match DriverEvent.parse text with
    | .error fault => ofNotice (.malformedEvent path fault)
    | .ok event => deliver event

/-- Handle lines in order. -/
def dispatchAll (path : String) : List (List UInt8) → Program Unit
  | [] => done ()
  | line :: lines => do
    dispatch path line
    dispatchAll path lines

/-! ## Followed files -/

/-- Where a run starts that finds a file of the given length, with what it reports. A file that is
shorter than what was handled is read from the start. -/
def resume (feed : Feed) (length : Nat) : Feed × List Notice :=
  if length < feed.offset then
    ({ feed with offset := 0 }, [.feedShrank feed.path feed.offset length])
  else (feed, [])

/-- Note that a line was handled. -/
def advance (feed : Feed) (line : List UInt8) : Feed :=
  { feed with offset := feed.offset + line.length }

/-- What a reader comes to at the end of a file. -/
inductive Halt where
  /-- It waits for more. -/
  | waiting (reader : FileReader)
  /-- The file is shorter than what was handled. -/
  | truncated
  deriving DecidableEq, Repr

/-- A feed on the way, with the world that its events change. -/
structure Progress (σ : Type) where
  feed : Feed
  world : World σ

def lookAtEnd {σ : Type} (content : List UInt8) (reader : FileReader) (p : Progress σ) :
    Outcome Halt (Progress σ) :=
  if content.length < p.feed.offset then
    ⟨.truncated, [.feedTruncated p.feed.path], { p with feed := { p.feed with offset := 0 } }⟩
  else ⟨.waiting reader, [], p⟩

/-- Read a file with the given content to its end, handling each line before the next is looked for.
At most the given number of steps is made. -/
def drain {σ : Type} (r : Relocator σ) (content : List UInt8) :
    Nat → FileReader → Progress σ → Outcome Halt (Progress σ)
  | 0, reader, p => ⟨.waiting reader, [], p⟩
  | fuel + 1, reader, p =>
    match reader.step content with
    | .line line next =>
      let o := (dispatch p.feed.path line).run r p.world
      (drain r content fuel next ⟨p.feed.advance line, o.world⟩).after o.notices
    | .filled next => drain r content fuel next p
    | .idle next => lookAtEnd content next p

/-- The steps that suffice to read a file to its end. -/
def drainSteps (content : List UInt8) (reader : FileReader) : Nat :=
  2 * content.length + reader.buffer.ahead.length + 1

/-- Read a file with the given content to its end. -/
def follow {σ : Type} (r : Relocator σ) (content : List UInt8) (reader : FileReader)
    (p : Progress σ) : Outcome Halt (Progress σ) :=
  drain r content (drainSteps content reader) reader p

/-! ## Streams -/

/-- Handle a line of a stream, whose bytes are not counted. -/
def handleLine {σ : Type} (r : Relocator σ) (p : Progress σ) (line : List UInt8) :
    Outcome Unit (Progress σ) :=
  let o := (dispatch p.feed.path line).run r p.world
  ⟨(), o.notices, { p with world := o.world }⟩

/-- Read portions until there are no more, handling each line before the next is looked for. What is
left at the end counts as a line unless it is empty. At most the given number of steps is made. -/
def drainStream {σ : Type} (r : Relocator σ) :
    Nat → LineBuffer → List (List UInt8) → Progress σ → Outcome Unit (Progress σ)
  | 0, _, _, p => ⟨(), [], p⟩
  | fuel + 1, b, portions, p =>
    match b.next? with
    | some (line, rest) =>
      let o := handleLine r p line
      (drainStream r fuel rest portions o.world).after o.notices
    | none =>
      match portions with
      | bytes :: portions => drainStream r fuel (b.fill bytes) portions p
      | [] => if b.absorb.line = [] then ⟨(), [], p⟩ else handleLine r p b.absorb.line

/-- Read a stream of portions until its writer closes it. -/
def readStream {σ : Type} (r : Relocator σ) (portions : List (List UInt8)) (p : Progress σ) :
    Outcome Unit (Progress σ) :=
  (drainStream r (streamSteps portions) .empty portions p).after [.feedOpened p.feed.path false 0]

/-- Read a directory, which can be opened and not be read. -/
def readDirectory (path : String) : Except Error Unit × List Notice :=
  (.error (.io (.errno Errno.isDirectory)), [.feedOpened path false 0])

end Feed

end NetRelocation
