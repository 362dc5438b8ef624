import NetRelocation.Proofs.Conversation
import NetRelocation.Relocation.Netlink

/-!
# What was reported earlier

**Theorem (`perform_eq_answer`).** The kernel does for whoever asks it directly what it does as
something that moves devices: the result and the requests are the same, and the notices are those of
the answer after the earlier ones.

Work with the kernel adds notices and never looks at them, so it does the same whatever was
reported before (`Heedless`). That is kept by putting work together, and each function that makes
requests has one lemma about itself.
-/

namespace NetRelocation

namespace Kernel

variable {α β : Type}

/-- A kernel at which something else was reported earlier. -/
def reporting (k : Kernel) (earlier : List Notice) : Kernel :=
  { k with notices := earlier ++ k.notices }

/-- Work that does the same whatever was reported earlier. -/
def Heedless (work : KernelM α) : Prop :=
  ∀ (k : Kernel) (earlier : List Notice), (k.reporting earlier).perform work =
    ((k.perform work).1, (k.perform work).2.reporting earlier)

/-! ## Putting work together -/

theorem heedless_pure (a : α) : Heedless (pure a : KernelM α) := fun _ _ => rfl

theorem heedless_throw (e : Error) : Heedless (throw e : KernelM α) := fun _ _ => rfl

theorem Heedless.bind {work : KernelM α} {f : α → KernelM β} (h : Heedless work)
    (hf : ∀ a, Heedless (f a)) : Heedless (work >>= f) := by
  intro k earlier
  rw [perform_bind, perform_bind, h k earlier]
  obtain ⟨result, k'⟩ := k.perform work
  cases result with
  | ok a => exact hf a k' earlier
  | error e => rfl

theorem Heedless.tryCatch {work : KernelM α} {f : Error → KernelM α} (h : Heedless work)
    (hf : ∀ e, Heedless (f e)) : Heedless (tryCatch work f) := by
  intro k earlier
  rw [perform_tryCatch, perform_tryCatch, h k earlier]
  obtain ⟨result, k'⟩ := k.perform work
  cases result with
  | ok a => rfl
  | error e => exact hf e k' earlier

theorem heedless_report (notice : Notice) : Heedless (report notice) := by
  intro k earlier
  have hnotices : earlier ++ k.notices ++ [notice] = earlier ++ (k.notices ++ [notice]) :=
    List.append_assoc _ _ _
  exact congrArg (fun notices => (Except.ok (), { k with notices := notices })) hnotices

theorem Heedless.reportError {work : KernelM α} (h : Heedless work) (notice : Error → Notice) :
    Heedless (reportError work notice) :=
  h.tryCatch fun _ => (heedless_report _).bind fun _ => heedless_throw _

/-! ## Sockets and namespaces -/

theorem heedless_openSocket (place : Place) : Heedless (openSocket place) := by
  intro k earlier
  rw [perform_openSocket, perform_openSocket]
  rfl

theorem heedless_openNamespace (path : String) : Heedless (openNamespace path) := by
  intro k earlier
  rw [perform_openNamespace, perform_openNamespace]
  rfl

theorem heedless_ask (socket : Socket) (request : Request) : Heedless (ask socket request) := by
  intro k earlier
  have hheard (arrives : Bool) :
      (if arrives then earlier ++ k.notices ++ [.signalReceived] else earlier ++ k.notices) =
        earlier ++ if arrives then k.notices ++ [.signalReceived] else k.notices := by
    cases arrives with
    | true => exact List.append_assoc _ _ _
    | false => rfl
  cases request with
  | dump => exact congrArg (fun notices => (_, Kernel.mk _ _ _ _ _ _ _ _ notices)) (hheard _)
  | _ => exact congrArg (fun notices => (_, Kernel.mk _ _ _ _ _ _ _ _ notices)) (hheard _)

theorem heedless_openSocketIn (file : NamespaceFile) : Heedless (openSocketIn file) := by
  have hrest (errno : Int) : Heedless (
      if errno ≠ 0 then do
        report (.notEntered file.path errno)
        throw (.namespaceFailed (.notEntered file.path errno))
      else pure ()) := by
    split
    · exact (heedless_report _).bind fun _ => heedless_throw _
    · exact heedless_pure _
  have henter : Heedless (enter file) := by
    intro k earlier
    rw [perform_enter, perform_enter]
    exact hrest (k.entries.head?.getD 0) { k with entries := _, trace := _ } earlier
  exact henter.bind fun _ => heedless_openSocket _

end Kernel

/-! ## Requests -/

namespace Socket

open Kernel

variable (socket : Socket)

theorem heedless_lookUp (name : String) (n : Nat) : Heedless (socket.lookUp name n) := by
  induction n with
  | zero => exact heedless_throw _
  | succ n ih =>
    refine (heedless_ask socket (.get name)).bind fun reply => ?_
    cases Reply.link reply with
    | ok link =>
      cases link with
      | some link => exact heedless_pure link
      | none => exact heedless_throw _
    | error e =>
      dsimp only
      split
      · exact heedless_throw _
      · split
        · exact ih
        · exact heedless_throw _

theorem heedless_change (index : UInt32) (up : Option Bool) (attributes : List LinkAttribute) :
    Heedless (socket.change index up attributes) :=
  (heedless_ask socket _).bind fun _ => heedless_pure _

theorem heedless_flag (index : UInt32) (up : Bool) (operation : Operation) :
    Heedless (do
      match ← socket.change index (some up) [] with
      | .ok _ => return ()
      | .error e => throw (rejected operation e)) := by
  refine (socket.heedless_change index (some up) []).bind fun result => ?_
  cases result with
  | ok _ => exact heedless_pure _
  | error e => exact heedless_throw _

end Socket

namespace Move

open Kernel

theorem heedless_execute (socket : Socket) (index : UInt32) (attributes : List LinkAttribute)
    (device : DeviceName) (ns : NamespaceRef) :
    Heedless (execute socket index attributes device ns) := by
  refine (socket.heedless_change index none attributes).bind fun result => ?_
  cases result with
  | ok _ => exact heedless_pure _
  | error e =>
    dsimp only
    split
    · exact heedless_pure _
    · exact (heedless_report _).bind fun _ => heedless_throw _

theorem heedless_addAddresses (socket : Socket) (index : UInt32) (target : NamespaceRef)
    (addresses : List Network) : Heedless (addAddresses socket index target addresses) := by
  induction addresses with
  | nil => exact heedless_pure _
  | cons address addresses ih =>
    have hadd : Heedless (socket.addAddress index address) :=
      (heedless_ask socket _).bind fun _ => heedless_pure _
    refine hadd.bind fun result => ?_
    cases result with
    | ok _ => exact ih
    | error e => exact heedless_throw _

/-- Moving a device into a namespace does not depend on what was reported earlier. -/
theorem heedless_attach (device : DeviceName) (target : NamespaceRef) (config : LinkConfig)
    (addresses : List Network) : Heedless (attach device target config addresses) := by
  refine (heedless_openSocket .host).bind fun host => ?_
  refine (host.heedless_lookUp _ _).bind fun link => ?_
  refine (host.heedless_flag link.index false _).bind fun _ => ?_
  refine (heedless_openNamespace target.file).bind fun file => ?_
  refine (heedless_execute host link.index _ device target).bind fun _ => ?_
  refine (heedless_openSocketIn file).bind fun inside => ?_
  refine ((inside.heedless_lookUp _ _).reportError _).bind fun moved => ?_
  refine (heedless_addAddresses inside moved.index target addresses).bind fun _ => ?_
  have hup : Heedless (enable (config.name.getD device).text target.display
      (inside.setUp moved.index)) :=
    (inside.heedless_flag moved.index true _).tryCatch fun _ =>
      (heedless_report _).bind fun _ => heedless_throw _
  exact hup.bind fun _ => (heedless_report _).bind fun _ => heedless_pure _

end Move

namespace Kernel

/-! ## The kernel as something that moves devices -/

/-- **What was reported earlier.** Work that is done directly has the result of the answer, and the
notices of the answer come after the earlier ones. -/
theorem perform_eq_answer {α : Type} {work : KernelM α} (h : Heedless work) (k : Kernel) :
    k.perform work = ((k.answer work).result,
      { (k.answer work).state with notices := k.notices ++ (k.answer work).notices }) := by
  have hall := h { k with notices := [] } k.notices
  have hkernel : { k with notices := [] }.reporting k.notices = k := by
    simp [reporting]
  rw [hkernel] at hall
  exact hall

end Kernel

end NetRelocation
