import NetRelocation.Subscription.Task

/-!
# Tasks on one feed

Tasks on one feed share the progress made on it, while each has the file open for itself. A line
that several of them read is handled by each, and its bytes count each time; a task that then finds
the file shorter than what was handled takes it for truncated. `Followers.runUntil` does everything
that is due before a time, the earliest first; of equals, the task that was started first goes
first.
-/

namespace NetRelocation

/-- A feed and the tasks on it in the order in which they were started. -/
structure Followers where
  feed : Feed
  tasks : List FeedTask

/-- A task that has something to do at a time, between the tasks started before and after it. -/
structure DueTask where
  time : Nat
  before : List FeedTask
  task : FeedTask
  after : List FeedTask

namespace DueTask

/-- All tasks, once the due one has become another. -/
def tasks (d : DueTask) (task : FeedTask) : List FeedTask := d.before ++ task :: d.after

/-- The due task with one more task started before it. -/
def startedAfter (d : DueTask) (task : FeedTask) : DueTask := { d with before := task :: d.before }

/-- The task that has something to do first. -/
def first? : List FeedTask → Option DueTask
  | [] => none
  | task :: tasks =>
    match task.due, first? tasks with
    | some t, some d => some (if t ≤ d.time then ⟨t, [], task, tasks⟩ else d.startedAfter task)
    | some t, none => some ⟨t, [], task, tasks⟩
    | none, later => later.map (·.startedAfter task)

end DueTask

namespace Followers

/-- A feed with no task yet, and the time between two looks if another one is wanted. -/
def onFeed (path : String) (pollMs : Option Nat) : Followers :=
  let feed := Feed.atPath path
  ⟨{ feed with pollMs := pollMs.getD feed.pollMs }, []⟩

/-- The task that was started last. -/
def latest? (f : Followers) : Option FeedTask := f.tasks.getLast?

/-- Start one more task at a time. -/
def start (f : Followers) (now : Nat) (policy : Option RestartPolicy) : Followers :=
  { f with tasks := f.tasks ++ [.startingAt now policy] }

/-- Cancel the task that was started last. -/
def cancelLatest (f : Followers) : Followers × List Notice :=
  match f.latest? with
  | some task =>
    let (task, notices) := task.cancel
    ({ f with tasks := f.tasks.dropLast ++ [task] }, notices)
  | none => (f, [])

/-- Do what is due before a time, at most so many things. -/
def advance {σ : Type} (r : Relocator σ) (limit : Nat) :
    Nat → List FeedTask → Scene σ → Outcome (List FeedTask) (Scene σ)
  | 0, tasks, scene => ⟨tasks, [], scene⟩
  | fuel + 1, tasks, scene =>
    match DueTask.first? tasks with
    | some d =>
      if d.time < limit then
        let o := d.task.wake r d.time scene
        (advance r limit fuel (d.tasks o.value) o.world).after o.notices
      else ⟨tasks, [], scene⟩
    | none => ⟨tasks, [], scene⟩

/-- Do what is due before a time, from another time on. -/
def runUntil {σ : Type} (r : Relocator σ) (f : Followers) (now limit : Nat) (file : LogFile)
    (world : World σ) : Outcome Followers (World σ) :=
  let fuel := f.tasks.foldl (fun n task => n + task.steps (limit - now)) 0
  let o := advance r limit fuel f.tasks ⟨file, ⟨f.feed, world⟩⟩
  ⟨⟨o.world.progress.feed, o.value⟩, o.notices, o.world.progress.world⟩

end Followers

end NetRelocation
