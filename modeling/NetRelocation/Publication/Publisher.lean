import NetRelocation.Publication.Sink
import NetRelocation.Timer

/-!
# Publication

A publisher lists the devices of the host again and again and hands the offers to a sink. A listing
or a delivery that fails is reported and tried again at the next tick; the sink keeps what it has.

A tick follows the one before by the interval. When a tick comes more than five milliseconds late,
because the work before it took long, the next one follows it by the interval. No tick is due
later than the longest wait of the timer allows.
-/

namespace NetRelocation

structure Publisher where
  policy : DevicePolicy
  pool : String
  intervalMs : Nat
  deriving DecidableEq, Repr

/-- One listing of the devices of the host. -/
structure Enumeration where
  takesMs : Nat
  result : Except Error (List Device)

/-- A publisher at work. -/
structure Publishing (σ : Type) where
  /-- When devices were listed. -/
  calls : List Nat
  now : Nat
  notices : List Notice
  sink : σ

namespace Publishing

/-- A publisher that has done nothing yet. -/
def start {σ : Type} (sink : σ) : Publishing σ := ⟨[], 0, [], sink⟩

/-- The number of listings so far. -/
def count {σ : Type} (w : Publishing σ) : Nat := w.calls.length

def report {σ : Type} (w : Publishing σ) (notices : List Notice) : Publishing σ :=
  { w with notices := w.notices ++ notices }

end Publishing

namespace Publisher

/-- The interval without a configuration. -/
def standardIntervalMs : Nat := 5000

/-- The lateness of a tick that shifts the ticks after it. -/
def toleranceMs : Nat := 5

/-- Publish what a listing found; gives the number of devices on offer. -/
def publishOnce {σ : Type} (p : Publisher) (sink : Sink σ) (found : Except Error (List Device))
    (s : σ) : Outcome (Except Error Nat) σ :=
  match found with
  | .error e => ⟨.error e, [], s⟩
  | .ok devices =>
    let offers := p.policy.offers devices
    let o := sink p.pool offers s
    ⟨o.value.map fun _ => offers.length, o.notices, o.world⟩

/-- List the devices and publish what was found. -/
def once {σ : Type} (p : Publisher) (sink : Sink σ) (source : Nat → Enumeration)
    (w : Publishing σ) : Except Error Nat × Publishing σ :=
  let listing := source w.count
  let o := p.publishOnce sink listing.result w.sink
  (o.value,
   { calls := w.calls ++ [w.now]
     now := w.now + listing.takesMs
     notices := w.notices ++ o.notices
     sink := o.world })

/-- When the tick after one is due that was due at `due` and came at `now`. -/
def nextTick (p : Publisher) (due now : Nat) : Nat :=
  let next := if due + toleranceMs < now then now + p.intervalMs else due + p.intervalMs
  min next (now + Timer.longestMs)

/-- What is reported about a publication beyond what the sink reports. -/
def failureNotices (p : Publisher) : Except Error Nat → List Notice
  | .ok _ => []
  | .error e => [.publicationFailed p.pool e]

/-- Publish at every tick from the one due at `due` on until it is cancelled; a tick at the time of
the cancellation comes before it. At most the given number of ticks is served. -/
def ticks {σ : Type} (p : Publisher) (sink : Sink σ) (source : Nat → Enumeration)
    (cancelAt : Nat) : Nat → (due : Nat) → Publishing σ → Publishing σ
  | 0, _, w => { w with now := max w.now cancelAt }
  | fuel + 1, due, w =>
    let tick := max due w.now
    if cancelAt < tick then { w with now := max w.now cancelAt }
    else
      let (result, next) := p.once sink source { w with now := tick }
      let next := next.report (p.failureNotices result)
      p.ticks sink source cancelAt fuel (p.nextTick due tick) next

/-- Publish at once and at every tick until it is cancelled after the given time. -/
def run {σ : Type} (p : Publisher) (sink : Sink σ) (source : Nat → Enumeration)
    (cancelAfter : Nat) (w : Publishing σ) : Publishing σ :=
  let started := w.report [.publicationStarted p.pool (p.intervalMs / 1000)]
  (p.ticks sink source (w.now + cancelAfter) (cancelAfter + 1) w.now started).report
    [.publicationStopped p.pool]

/-! ## How a publisher is shown -/

/-- The digits of a fraction of thousandths without the zeros at its end. -/
def thousandths (n : Nat) : String :=
  let digits := [n / 100, n / 10 % 10, n % 10].map Nat.digitChar
  String.ofList (digits.reverse.dropWhile (· = '0')).reverse

/-- A time in the largest unit that gives a whole part. -/
def displayMs (ms : Nat) : String :=
  if ms = 0 then "0ns"
  else if ms < 1000 then Text.Numeral.decimal ms ++ "ms"
  else if ms % 1000 = 0 then Text.Numeral.decimal (ms / 1000) ++ "s"
  else Text.Numeral.decimal (ms / 1000) ++ "." ++ thousandths (ms % 1000) ++ "s"

/-- A publisher with its settings. -/
def summary (p : Publisher) : String :=
  "DevicePublisher \x7b pool: " ++ Text.quoted p.pool ++ ", interval: " ++ displayMs p.intervalMs ++
  ", policy: DevicePolicy \x7b excluded_prefixes: " ++ Text.quotedList p.policy.exclusions ++
  " \x7d, .. \x7d"

end Publisher

end NetRelocation
