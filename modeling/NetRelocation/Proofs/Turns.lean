import NetRelocation.Proofs.Calls
import Mathlib.Data.List.Induction
import Mathlib.Logic.Function.Basic

/-!
# Programs that take turns

Several programs share one record of workloads and one thing that moves devices. A step of a program
is one operation on the record, one request or one notice, and any number of steps of the others come
between two steps of one. A *schedule* lists whose turn it is; a program that is done lets its turn
pass. A program that is never given another turn has been dropped, and one that starts late has its
first turn late.

**What was done makes the record** (`store_turns`). The record is the fold of the operations on it,
whoever did them.

**What was done was a turn** (`exists_turns_of_past`). Each thing that was done was done by a step of
its task, at a moment when the things before it had been done. Facts about a past follow from facts
about single steps. Turns in a row are a run of the task alone (`exists_turns_run`).
-/

namespace NetRelocation

variable {α β σ ι κ : Type}

/-! ## Steps -/

/-- One thing that a program did. -/
inductive Act where
  | stored (action : StoreAction) (response : action.Response)
  | called (call : Call)
  | noted (notice : Notice)

/-- The operation on the record, if it was one. -/
def Act.action? : Act → Option StoreAction
  | stored action _ => some action
  | called _ => none
  | noted _ => none

/-- A program after one of its steps. -/
structure Stepped (α σ : Type) where
  act : Act
  rest : Program α
  world : World σ

/-- Do the first step of a program, if it has one. -/
def Program.step (r : Relocator σ) : Program α → World σ → Option (Stepped α σ)
  | .done _, _ => none
  | .store action next, world =>
    let response := action.answer world.store
    some ⟨.stored action response, next response,
      { world with store := action.apply world.store }⟩
  | .relocate request next, world =>
    let answer := r.answer request world.relocator
    some ⟨.called ⟨request, answer.result⟩, next answer.result,
      { world with relocator := answer.state }⟩
  | .note notice next, world => some ⟨.noted notice, next, world⟩

/-! ## Turns -/

/-- Programs that share a world, with what each of them has done so far. -/
structure Shared (ι σ : Type) where
  tasks : ι → Program Unit
  world : World σ
  past : List (ι × Act)

/-- The record after some operations. -/
def Store.afterAll (store : Store) (actions : List StoreAction) : Store :=
  actions.foldl (fun store action => action.apply store) store

@[simp] theorem Store.afterAll_nil (store : Store) : store.afterAll [] = store := rfl

theorem Store.afterAll_append (store : Store) (l m : List StoreAction) :
    store.afterAll (l ++ m) = (store.afterAll l).afterAll m := List.foldl_append

@[simp] theorem Store.afterAll_singleton (store : Store) (action : StoreAction) :
    store.afterAll [action] = action.apply store := rfl

/-- The workload whose record an operation is about. -/
def StoreAction.workload : StoreAction → WorkloadId
  | recordPrepared w _ _ => w
  | read w => w
  | clearPrepared w => w
  | markAttached w _ => w
  | markDetached w _ => w
  | markNetworkDetached w => w
  | purge w => w

theorem StoreAction.read_apply_of_ne {action : StoreAction} {w : WorkloadId}
    (h : w ≠ action.workload) (store : Store) : (action.apply store).read w = store.read w := by
  cases action with
  | recordPrepared v devices artifact => exact Store.read_put_ne _ _ h
  | read v => rfl
  | clearPrepared v => exact Store.read_modify_ne _ _ h
  | markAttached v device => exact Store.read_modify_ne _ _ h
  | markDetached v device => exact Store.read_modify_ne _ _ h
  | markNetworkDetached v => exact Store.read_modify_ne _ _ h
  | purge v => exact Store.read_purge_ne _ h

/-- The operations on the record among what was done. -/
def actions (past : List (ι × Act)) : List StoreAction := past.filterMap (·.2.action?)

@[simp] theorem actions_nil : actions ([] : List (ι × Act)) = [] := rfl

theorem actions_append (l m : List (ι × Act)) : actions (l ++ m) = actions l ++ actions m :=
  List.filterMap_append

@[simp] theorem actions_stored (i : ι) (action : StoreAction) (response : action.Response)
    (l : List (ι × Act)) : actions ((i, .stored action response) :: l) = action :: actions l := rfl

theorem actions_append_stored (l : List (ι × Act)) (i : ι) (action : StoreAction)
    (response : action.Response) (m : List (ι × Act)) :
    actions (l ++ (i, .stored action response) :: m) = actions l ++ action :: actions m := by
  rw [actions_append, actions_stored]

namespace Shared

/-- Tasks that have not done anything. -/
def start (tasks : ι → Program Unit) (world : World σ) : Shared ι σ := ⟨tasks, world, []⟩

variable [DecidableEq ι] (r : Relocator σ)

/-- One task has taken a step. -/
def take (state : Shared ι σ) (i : ι) (s : Stepped Unit σ) : Shared ι σ :=
  ⟨Function.update state.tasks i s.rest, s.world, state.past ++ [(i, s.act)]⟩

def turn (state : Shared ι σ) (i : ι) : Shared ι σ :=
  match (state.tasks i).step r state.world with
  | some s => state.take i s
  | none => state

/-- One turn after another. -/
def turns (schedule : List ι) (state : Shared ι σ) : Shared ι σ := schedule.foldl (turn r) state

variable {r} {state : Shared ι σ}

theorem turns_concat (schedule : List ι) (i : ι) :
    state.turns r (schedule ++ [i]) = (state.turns r schedule).turn r i := by
  simp [turns]

/-- **What a turn keeps, turns keep.** -/
theorem turns_induction {P : Shared ι σ → Prop} (h : P state)
    (hstep : ∀ (state : Shared ι σ) i s, P state → (state.tasks i).step r state.world = some s →
      P (state.take i s)) (schedule : List ι) : P (state.turns r schedule) := by
  induction schedule generalizing state with
  | nil => exact h
  | cons i schedule ih =>
    refine ih ?_
    unfold turn
    split
    · exact hstep state i _ h ‹_›
    · exact h

end Shared

/-! ## Looking back -/

theorem concat_eq_append_cons {l before after : List α} {a x : α} :
    l ++ [a] = before ++ x :: after ↔
      (∃ after', after = after' ++ [a] ∧ l = before ++ x :: after') ∨
        (after = [] ∧ x = a ∧ l = before) := by
  rcases List.eq_nil_or_concat after with rfl | ⟨after', b, rfl⟩
  · rw [List.append_singleton_inj]
    simp only [List.nil_eq, List.append_eq_nil_iff, List.cons_ne_self, and_false, false_and,
      exists_false, false_or, true_and]
    exact ⟨fun ⟨hl, ha⟩ => ⟨ha.symm, hl⟩, fun ⟨hx, hl⟩ => ⟨hl, hx.symm⟩⟩
  · rw [List.concat_eq_append, ← List.cons_append, ← List.append_assoc, List.append_singleton_inj]
    constructor
    · rintro ⟨hl, rfl⟩
      exact .inl ⟨after', rfl, hl⟩
    · rintro (⟨after'', ha, hl⟩ | ⟨ha, -, -⟩)
      · obtain ⟨rfl, rfl⟩ := List.append_singleton_inj.1 ha
        exact ⟨hl, rfl⟩
      · simp at ha

namespace Program

variable {r : Relocator σ} {p : Program α} {world : World σ} {s : Stepped α σ}

theorem store_of_step (h : p.step r world = some s) :
    s.world.store = world.store.afterAll (actions [((), s.act)]) := by
  cases p <;> cases h <;> rfl

theorem response_of_step {action : StoreAction} {response : action.Response}
    (h : p.step r world = some s) (hact : s.act = .stored action response) :
    response = action.answer world.store := by
  cases p <;> cases h <;> cases hact
  rfl

end Program

namespace Shared

variable [DecidableEq ι] {r : Relocator σ} {tasks : ι → Program Unit} {world : World σ}

/-- **Everything that was done was some task's turn.** Before it there was the past before it. -/
theorem exists_turns_of_past {schedule : List ι} {before after : List (ι × Act)} {i : ι} {act : Act}
    (h : ((start tasks world).turns r schedule).past = before ++ (i, act) :: after) :
    ∃ earlier s, ((start tasks world).turns r earlier).past = before ∧
      (((start tasks world).turns r earlier).tasks i).step r
        ((start tasks world).turns r earlier).world = some s ∧ s.act = act := by
  induction schedule using List.reverseRecOn generalizing before after with
  | nil => simp [turns, start] at h
  | append_singleton schedule j ih =>
    rw [turns_concat, turn] at h
    split at h
    · rename_i s hs
      rcases concat_eq_append_cons.1 h with ⟨after', -, hpast⟩ | ⟨-, hx, hpast⟩
      · exact ih hpast
      · cases hx
        exact ⟨schedule, s, hpast, hs, rfl⟩
    · exact ih h

/-- **The record is what was done to it.** -/
theorem store_turns (schedule : List ι) :
    ((start tasks world).turns r schedule).world.store =
      world.store.afterAll (actions ((start tasks world).turns r schedule).past) := by
  refine turns_induction (P := fun state => state.world.store = world.store.afterAll
    (actions state.past)) rfl (fun state i s h hs => ?_) schedule
  rw [take, actions_append, Store.afterAll_append, ← h, Program.store_of_step hs]
  rfl

/-- An operation on the record was answered from the record of its time. -/
theorem response_of_past {schedule : List ι} {before after : List (ι × Act)} {i : ι}
    {action : StoreAction} {response : action.Response}
    (h : ((start tasks world).turns r schedule).past =
      before ++ (i, .stored action response) :: after) :
    response = action.answer (world.store.afterAll (actions before)) := by
  obtain ⟨earlier, s, rfl, hs, hact⟩ := exists_turns_of_past h
  rw [← store_turns]
  exact Program.response_of_step hs hact

end Shared

/-! ## Turns in a row -/

namespace Shared

variable [DecidableEq ι] (r : Relocator σ)

/-- **Turns in a row are a run.** A task that alone is given turns does what it does when it is run
alone. -/
theorem exists_turns_run (i : ι) (p : Program Unit) (state : Shared ι σ) (hp : state.tasks i = p) :
    ∃ n, ((state.turns r (List.replicate n i)).tasks i) = .done () ∧
      (state.turns r (List.replicate n i)).world = (p.run r state.world).world := by
  induction p generalizing state with
  | done a => exact ⟨0, hp, rfl⟩
  | store action next ih =>
    obtain ⟨n, hdone, hworld⟩ := ih (action.answer state.world.store)
      (state.turn r i) (by simp [turn, hp, Program.step, take])
    refine ⟨n + 1, hdone, hworld.trans ?_⟩
    simp [turn, hp, Program.step, take, Program.run]
  | relocate request next ih =>
    obtain ⟨n, hdone, hworld⟩ := ih (r.answer request state.world.relocator).result
      (state.turn r i) (by simp [turn, hp, Program.step, take])
    refine ⟨n + 1, hdone, hworld.trans ?_⟩
    simp [turn, hp, Program.step, take, Program.run]
  | note notice next ih =>
    obtain ⟨n, hdone, hworld⟩ := ih (state.turn r i) (by simp [turn, hp, Program.step, take])
    refine ⟨n + 1, hdone, hworld.trans ?_⟩
    simp [turn, hp, Program.step, take, Program.run]

end Shared

end NetRelocation
