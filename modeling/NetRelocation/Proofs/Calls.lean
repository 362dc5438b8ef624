import NetRelocation.Coordination.Lifecycle

/-!
# The requests of a run

A run of a program asks for relocations; each request together with its answer is a `Call`, and
`Program.calls` lists the calls of a run in order. What a run does when one program follows another
is what the first does and then what the second does, from where the first ended (`run_bind`,
`calls_bind`).
-/

namespace NetRelocation

/-- A request with its answer. -/
structure Call where
  request : Relocation
  response : request.Response

/-- Whether a device changed its namespace, up or not. -/
def moved {α : Type} : Except Error α → Bool
  | .ok _ => true
  | .error e => e.deviceMoved

theorem returned_eq_moved (outcome : DetachOutcome) : outcome.returned = moved outcome.result := by
  cases outcome with
  | mk device result => cases result <;> rfl

variable {α β σ : Type}

namespace Outcome

variable {ω : Type}

@[simp] theorem value_after (l : List Notice) (o : Outcome α ω) : (o.after l).value = o.value := rfl

@[simp] theorem world_after (l : List Notice) (o : Outcome α ω) : (o.after l).world = o.world := rfl

@[simp] theorem notices_after (l : List Notice) (o : Outcome α ω) :
    (o.after l).notices = l ++ o.notices := rfl

@[simp] theorem after_nil (o : Outcome α ω) : o.after [] = o := rfl

theorem after_after (k l : List Notice) (o : Outcome α ω) :
    (o.after l).after k = o.after (k ++ l) := by
  simp [Outcome.after]

end Outcome

namespace Program

variable (r : Relocator σ)

/-- The calls of a run, in order. -/
def calls : Program α → World σ → List Call
  | .done _, _ => []
  | .store action next, world =>
    (next (action.answer world.store)).calls { world with store := action.apply world.store }
  | .relocate request next, world =>
    let answer := r.answer request world.relocator
    ⟨request, answer.result⟩ :: (next answer.result).calls { world with relocator := answer.state }
  | .note _ next, world => next.calls world

/-! ## One program after another -/

theorem bind_eq (p : Program α) (f : α → Program β) : p >>= f = p.andThen f := rfl

theorem pure_eq (a : α) : (pure a : Program α) = done a := rfl

/-- **The run of one program after another.** -/
theorem run_bind (p : Program α) (f : α → Program β) (world : World σ) :
    (p >>= f).run r world =
      ((f (p.run r world).value).run r (p.run r world).world).after (p.run r world).notices := by
  rw [bind_eq]
  induction p generalizing world with
  | done a => rfl
  | store action next ih => exact ih _ _
  | relocate request next ih =>
    simp only [andThen, run, ih, Outcome.after_after]
    rfl
  | note notice next ih =>
    simp only [andThen, run, ih, Outcome.after_after]
    rfl

/-- **The calls of one program after another.** -/
theorem calls_bind (p : Program α) (f : α → Program β) (world : World σ) :
    (p >>= f).calls r world =
      p.calls r world ++ (f (p.run r world).value).calls r (p.run r world).world := by
  rw [bind_eq]
  induction p generalizing world with
  | done a => rfl
  | store action next ih => exact ih _ _
  | relocate request next ih =>
    simp only [andThen, calls, run, ih, List.cons_append]
    rfl
  | note notice next ih => exact ih _

/-! ## Notices change nothing -/

@[simp] theorem run_ofNotices (l : List Notice) (world : World σ) :
    (ofNotices l).run r world = ⟨(), l, world⟩ := by
  induction l with
  | nil => rfl
  | cons notice l ih => simp [ofNotices, run, ih, Outcome.after]

@[simp] theorem calls_ofNotices (l : List Notice) (world : World σ) :
    (ofNotices l).calls r world = [] := by
  induction l with
  | nil => rfl
  | cons notice l ih => exact ih

end Program

end NetRelocation
