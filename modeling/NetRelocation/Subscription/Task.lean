import NetRelocation.Subscription.Feed
import NetRelocation.Subscription.LogFile
import NetRelocation.Subscription.Supervision

/-!
# Following a feed in the background

A task follows a file in time: it opens the file, reads what there is, and looks again after each
poll interval. Reading takes no time. Under supervision a run that ends is followed by another one
after the delay of the policy. `FeedTask.wake` does what is due at one time.
-/

namespace NetRelocation

/-- Where a task stands. -/
inductive Stage where
  /-- A run is about to open the file. -/
  | starting
  /-- A run has the file with this number open and looks at it again at a time. -/
  | following (number : Nat) (reader : FileReader) (wakeAt : Nat)
  /-- The next run starts at a time. -/
  | resting (wakeAt : Nat)
  /-- There are no more runs. -/
  | finished (result : Except Error Unit)

/-- A task that follows a feed. -/
structure FeedTask where
  /-- The policy, if the task is supervised. -/
  policy : Option RestartPolicy
  /-- The failures counted so far. -/
  attempt : Nat
  /-- When the current run started. -/
  startedAt : Nat
  stage : Stage

/-- What a task works on. -/
structure Scene (σ : Type) where
  file : LogFile
  progress : Feed.Progress σ

namespace FeedTask

def startingAt (now : Nat) (policy : Option RestartPolicy) : FeedTask := ⟨policy, 0, now, .starting⟩

/-- When the task has something to do. -/
def due (task : FeedTask) : Option Nat :=
  match task.stage with
  | .starting => some task.startedAt
  | .following _ _ wakeAt => some wakeAt
  | .resting wakeAt => some wakeAt
  | .finished _ => none

def result? (task : FeedTask) : Option (Except Error Unit) :=
  match task.stage with
  | .finished result => some result
  | _ => none

/-- The task after a run that ended at a time. -/
def endRun (task : FeedTask) (result : Except Error Unit) (now : Nat) : FeedTask × List Notice :=
  match task.policy with
  | none => ({ task with stage := .finished result }, [])
  | some policy =>
    let uptime := now - task.startedAt
    let verdict := policy.afterRun task.attempt uptime
    let notices := runEnded Feed.source result :: decided Feed.source policy uptime verdict
    match verdict with
    | .giveUp attempts =>
      ({ task with stage := .finished (.error (.restartsExhausted attempts)) }, notices)
    | .restart attempt =>
      let wakeAt := now + Timer.limited policy.delayMs
      ({ task with attempt := attempt, stage := .resting wakeAt }, notices)

/-- Read an open file to its end. -/
def read {σ : Type} (r : Relocator σ) (task : FeedTask) (number : Nat) (reader : FileReader)
    (now : Nat) (scene : Scene σ) : Outcome FeedTask (Scene σ) :=
  let o := Feed.follow r (scene.file.content number) reader scene.progress
  let scene := { scene with progress := o.world }
  match o.value with
  | .waiting reader =>
    let wakeAt := now + Timer.limited scene.progress.feed.pollMs
    ⟨{ task with stage := .following number reader wakeAt }, o.notices, scene⟩
  | .truncated =>
    let (task, notices) := task.endRun (.ok ()) now
    ⟨task, o.notices ++ notices, scene⟩

/-- Start a run. -/
def openFile {σ : Type} (r : Relocator σ) (task : FeedTask) (now : Nat) (scene : Scene σ) :
    Outcome FeedTask (Scene σ) :=
  match scene.file.current with
  | none =>
    let (task, notices) := task.endRun (.error (.io (.errno Errno.noEntry))) now
    ⟨task, notices, scene⟩
  | some number =>
    let (feed, notices) := scene.progress.feed.resume (scene.file.content number).length
    let scene := { scene with progress := { scene.progress with feed := feed } }
    (task.read r number (.startingAt feed.offset) now scene).after
      (notices ++ [.feedOpened feed.path true feed.offset])

/-- Do what is due at a time. -/
def wake {σ : Type} (r : Relocator σ) (task : FeedTask) (now : Nat) (scene : Scene σ) :
    Outcome FeedTask (Scene σ) :=
  match task.stage with
  | .starting => task.openFile r now scene
  | .following number reader _ => task.read r number reader now scene
  | .resting _ =>
    let restarting :=
      match task.policy with
      | some policy => [.subscriptionRestarting Feed.source task.attempt policy.maxAttempts]
      | none => []
    ({ task with startedAt := now }.openFile r now scene).after restarting
  | .finished _ => ⟨task, [], scene⟩

/-- The number of things that can be due in a span of time: at each moment every attempt that the
policy grants. -/
def steps (task : FeedTask) (span : Nat) : Nat :=
  (span + 1) * (task.policy.elim 1 fun policy => policy.maxAttempts.toNat + 2)

def cancel (task : FeedTask) : FeedTask × List Notice :=
  let stopped : FeedTask := { task with stage := .finished (.ok ()) }
  match task.stage, task.policy with
  | .finished _, _ => (task, [])
  | _, none => (stopped, [])
  | .resting _, some _ => (stopped, [.supervisionStopped Feed.source])
  | _, some _ =>
    (stopped, [.subscriptionEnded Feed.source, .supervisionStopped Feed.source])

end FeedTask

end NetRelocation
