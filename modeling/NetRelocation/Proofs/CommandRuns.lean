import NetRelocation.CommandLine.Session

/-!
# Running commands

A command is run step by step: each step starts from what the one before it left, and the first that
fails ends it (`run_bind`).
-/

namespace NetRelocation.CommandM

variable {α β : Type}

/-- Do some work from a session on. -/
def run (work : CommandM α) (s : Session) : Except Failure α × Session := work s

theorem run_bind (work : CommandM α) (f : α → CommandM β) (s : Session) :
    (work >>= f).run s =
      match work.run s with
      | (.ok a, s') => (f a).run s'
      | (.error failure, s') => (.error failure, s') := by
  unfold run
  simp only [bind, ExceptT.bind, ExceptT.mk, StateT.bind, ExceptT.bindCont]
  obtain ⟨result, s'⟩ := work s
  cases result <;> rfl

/-- A command asks the kernel and fails as the kernel does. -/
theorem run_askKernel (work : KernelM α) (failure : Error → Failure) (s : Session) :
    (askKernel work failure).run s =
      ((s.kernel.perform work).1.mapError failure,
        { s with kernel := (s.kernel.perform work).2 }) := by
  have hattempt : (attempt work).run s =
      (.ok (s.kernel.perform work).1, { s with kernel := (s.kernel.perform work).2 }) := rfl
  rw [askKernel, run_bind, hattempt]
  dsimp only
  cases (s.kernel.perform work).1 <;> rfl

theorem run_orFail (result : Except Failure α) (s : Session) :
    (orFail result).run s = (result, s) := by
  cases result <;> rfl

end NetRelocation.CommandM
