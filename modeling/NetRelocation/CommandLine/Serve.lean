import NetRelocation.CommandLine.Session
import NetRelocation.CommandLine.Settings
import NetRelocation.Publication.Publisher
import NetRelocation.Subscription.Feed
import NetRelocation.Subscription.Supervision

/-!
# The driver

The driver publishes the devices of the host and follows a feed of events. It works until a signal
arrives, which lets the work in progress finish, or until a feed that cannot be followed has failed
too often; meanwhile it publishes at every tick (`Driver.publishAmong`). Without a signal it stops
when there is nothing left to do.
-/

namespace NetRelocation

open CommandM

namespace Driver

/-! ## Publication -/

def publisher (config : DriverConfig) (node : String) : Publisher where
  policy := .ofConfig config
  pool := node
  intervalMs := config.publishIntervalSecs.toNat * 1000

/-- Publish once; gives what has been published. -/
def publish (p : Publisher) (published : Snapshots) : CommandM Snapshots := do
  let found ← attempt Move.listDevices
  let o := p.publishOnce Snapshots.sink found published
  reportAll (o.notices ++ p.failureNotices o.value)
  return o.world

/-- Publish for the first time. -/
def publishFirst (p : Publisher) : CommandM Snapshots := do
  report (.publicationStarted p.pool (p.intervalMs / 1000))
  publish p Snapshots.empty

/-- Whether a report with its time comes before the publication of a tick. A restart is reported at
once, while a run that starts at the time of a tick comes after it. -/
def isBefore (tick : Nat) : Nat × Notice → Bool
  | (time, .subscriptionRestarting ..) => time ≤ tick
  | (time, _) => time < tick

/-- Report something, with its times, and publish at every tick in between from the one due at `due`
on up to the given end. At most the given number of ticks is served. -/
def publishAmong (p : Publisher) (endsAt : Nat) :
    Nat → (due : Nat) → List (Nat × Notice) → Snapshots → CommandM Unit
  | 0, _, reports, _ => reportAll (reports.map (·.2))
  | ticks + 1, due, reports, published =>
    if endsAt < due then reportAll (reports.map (·.2))
    else do
      let (earlier, later) := reports.span (isBefore due)
      reportAll (earlier.map (·.2))
      publishAmong p endsAt ticks (p.nextTick due due) later (← publish p published)

/-- A number of publications after which nothing changes: the answers of the kernel are used up. -/
def lastingTicks (kernel : Kernel) : Nat := kernel.dumps.length + kernel.sockets.length + 1

/-! ## The feed -/

/-- The run of a feed that is not followed; gives nothing for one that is. -/
def unfollowed? (files : FileTree) (path : String) : Option SubscriptionRun :=
  match files.openFile path with
  | .error cause => some ⟨0, .error (.io cause), true, []⟩
  | .ok (_, .directory) =>
    let (result, notices) := Feed.readDirectory path
    some ⟨0, result, true, notices⟩
  | .ok (_, .device) => some ⟨0, .ok (), true, [.feedOpened path false 0]⟩
  | .ok (_, .hostNamespace) =>
    some ⟨0, .error (.io (.errno Errno.invalidArgument)), true, [.feedOpened path true 0]⟩
  | .ok _ => none

/-- The supervision of a feed that ends whenever it is started. -/
def superviseFailing (policy : RestartPolicy) (run : SubscriptionRun) (stopped : Bool) :
    Option Supervised :=
  supervise .limited Feed.source policy (fun _ => run) (if stopped then some 0 else none)
    (policy.maxAttempts.toNat + 1) 0 0 0

/-- Handle lines in order until a signal has arrived. -/
def handleLines (path : String) :
    List (List UInt8) → World Kernel → Outcome Unit (World Kernel)
  | [], world => ⟨(), [], world⟩
  | line :: lines, world =>
    if world.relocator.signalled then ⟨(), [], world⟩
    else
      let o := (Feed.dispatch path line).run Kernel.relocator world
      (handleLines path lines o.world).after o.notices

/-- A notice with what else is reported at once: publication stops when a signal arrives. -/
def publicationStops (p : Publisher) (notice : Notice) : List Notice :=
  match notice with
  | .signalReceived => [notice, .publicationStopped p.pool]
  | _ => [notice]

/-- Follow a feed with the given content; gives the record of workloads. Publication stops as soon
as a signal arrives. -/
def follow (p : Publisher) (path : String) (content : List UInt8) : CommandM Store := do
  report (.feedOpened path true 0)
  let s ← get
  let o := handleLines path (wholeLines content) ⟨.empty, s.kernel⟩
  set { s with kernel := o.world.relocator }
  reportAll (o.notices.flatMap (publicationStops p))
  return o.world.store

/-! ## From start to end -/

/-- What is reported when a feed that is followed is stopped. -/
def feedStopped : List Notice :=
  [.subscriptionEnded Feed.source, .supervisionStopped Feed.source]

def runWithoutFeed (p : Publisher) : CommandM Unit := do
  report .noFeed
  let _ ← publishFirst p
  reportAll [.publicationStopped p.pool, .driverStopped 0]

/-- Work with a feed that cannot be followed. -/
def runUnfollowed (p : Publisher) (policy : RestartPolicy) (run : SubscriptionRun)
    (published : Snapshots) : CommandM Unit := do
  let kernel := (← get).kernel
  match superviseFailing policy run kernel.signalled with
  | none => return ()
  | some supervised =>
    publishAmong p supervised.endsAt (lastingTicks kernel) (p.nextTick 0 0) supervised.reports
      published
    reportAll [.publicationStopped p.pool, .driverStopped 0]
    match supervised.result with
    | .ok _ => return ()
    | .error e => throw (.feedLost e)

/-- Work with a feed that is followed. -/
def runFollowed (p : Publisher) (path : String) : CommandM Unit := do
  let kernel := (← get).kernel
  if kernel.signalled then
    reportAll (feedStopped ++ [.publicationStopped p.pool, .driverStopped 0])
  else
    let store ← follow p path ((kernel.files.readFile path).toOption.getD [])
    reportAll (feedStopped ++ [.driverStopped store.size])

/-- What the driver does once it has its settings, the name of the machine and a publisher. -/
def start (config : DriverConfig) (node : String) (p : Publisher) : CommandM Unit := do
  report (.starting config.driverName node config.publishIntervalSecs)
  match config.eventsPath with
  | none => runWithoutFeed p
  | some path =>
    let published ← publishFirst p
    match unfollowed? (← get).kernel.files path with
    | some run => runUnfollowed p config.restart run published
    | none => runFollowed p path

def serve (machine : Machine) (args : ServeArgs) : CommandM Unit := do
  let config ← orFail (args.settings (← get).kernel.files)
  let node ← orFail (config.resolveNode machine)
  start config node (publisher config node)

end Driver

end NetRelocation
