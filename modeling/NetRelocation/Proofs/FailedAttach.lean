import Mathlib
import NetRelocation.Proofs.Conversation

/-!
# What the error of a failed attach says about the device

An error says whether the device changed its namespace before it arose (`Error.deviceMoved`), and
the coordinator takes back only devices of which it was told so. An attach can fail before the
request that moves the device, at it, and at several points after it.

**Theorem (`attach_deviceMoved_iff`).** The error of a failed attach says that the device moved
exactly when the request to move it was carried out and the look-up inside the namespace then gave a
link. So it is right about the device exactly unless, after the move, the namespace could not be
entered, no socket could be opened in it, or the look-up there gave no link
(`attach_denies_move` is such a run).

The conversation of an attach has three parts. Up to the move nothing is moved and every error says
so; up to the look-up nothing is found and every error denies the move; from then on every error
admits it.
-/

namespace NetRelocation

namespace Exchange

/-- Whether a look-up gave a link after a link was moved. -/
def foundAfterMove : List Exchange → Bool
  | [] => false
  | x :: t => x.moves && t.any finds || foundAfterMove t

theorem foundAfterMove_append {t u : List Exchange} (h : ∀ x ∈ t, x.moves = false) :
    foundAfterMove (t ++ u) = foundAfterMove u := by
  induction t with
  | nil => rfl
  | cons x t ih =>
    have hx := h x List.mem_cons_self
    simp [foundAfterMove, hx, ih fun y hy => h y (List.mem_cons_of_mem _ hy)]

theorem any_moves_of_foundAfterMove {t : List Exchange} (h : foundAfterMove t = true) :
    t.any moves = true := by
  induction t with
  | nil => cases h
  | cons x t ih =>
    simp only [foundAfterMove, Bool.or_eq_true, Bool.and_eq_true] at h
    simp only [List.any_cons, Bool.or_eq_true]
    exact h.imp (fun h => h.1) ih

theorem any_finds_of_foundAfterMove {t : List Exchange} (h : foundAfterMove t = true) :
    t.any finds = true := by
  induction t with
  | nil => cases h
  | cons x t ih =>
    simp only [foundAfterMove, Bool.or_eq_true, Bool.and_eq_true] at h
    simp only [List.any_cons, Bool.or_eq_true]
    exact h.elim (fun h => .inr h.2) fun h => .inr (ih h)

end Exchange

namespace Move

open Kernel Exchange

variable {files : FileTree} {α β : Type} {work : KernelM α} {f : α → KernelM β}

/-! ## What an error says -/

/-- The error, if there is one, says of the device what `fact` says of the trace. -/
def Tells (fact : List Exchange → Bool) (res : Except Error α) (t : List Exchange) : Prop :=
  ∀ e, res = .error e → e.deviceMoved = fact t

/-- Work that moves nothing, and whose error says so. -/
def Still (files : FileTree) (work : KernelM α) : Prop :=
  Converses files work fun res t =>
    (∀ x ∈ t, x.moves = false) ∧ ∀ e, res = .error e → e.deviceMoved = false

/-- Work whose error says that the device moved. -/
def Admits (files : FileTree) (work : KernelM α) : Prop :=
  Converses files work fun res _ => ∀ e, res = .error e → e.deviceMoved = true

/-- Work that adds nothing to the fact, and whose error denies it, leaves it to the rest. -/
theorem tells_bind {fact : List Exchange → Bool} {p : Exchange → Bool} (hnil : fact [] = false)
    (hfact : ∀ t u, (∀ x ∈ t, p x = false) → fact (t ++ u) = fact u)
    (h : Converses files work fun res t =>
      (∀ x ∈ t, p x = false) ∧ ∀ e, res = .error e → e.deviceMoved = false)
    (hf : ∀ a, Converses files (f a) (Tells fact)) :
    Converses files (work >>= f) (Tells fact) := by
  refine h.bind (fun a t ⟨ht, _⟩ => (hf a).mono fun res u hu e he => ?_) fun e t ⟨ht, hm⟩ => ?_
  · rw [hfact t u ht, hu e he]
  · intro e' he
    cases he
    rw [hm e rfl, ← List.append_nil t, hfact t [] ht, hnil]

theorem Still.bind (h : Still files work) (hf : ∀ a, Converses files (f a) (Tells foundAfterMove)) :
    Converses files (work >>= f) (Tells foundAfterMove) :=
  tells_bind rfl (fun _ _ => foundAfterMove_append) h hf

theorem Admits.bind (h : Admits files work) (hf : ∀ a, Admits files (f a)) :
    Admits files (work >>= f) :=
  Converses.bind h (fun a _ _ => hf a) fun e _ he _ he' => by cases he'; exact he e rfl

theorem Admits.after (h : Admits files work) {t : List Exchange} (ht : t.any finds = true) :
    Converses files work fun res u => Tells (·.any finds) res (t ++ u) := by
  refine Converses.mono h fun res u hu e he => ?_
  simp only [hu e he, List.any_append, ht, Bool.true_or]

theorem tells_after (h : Converses files work (Tells (·.any finds))) {x : Exchange}
    (hx : x.moves = true) :
    Converses files work fun res u => Tells foundAfterMove res ([x] ++ u) := by
  refine h.mono fun res u hu e he => ?_
  rw [hu e he]
  cases hf : foundAfterMove u with
  | false => simp [foundAfterMove, hx, hf]
  | true => simp [foundAfterMove, hf, any_finds_of_foundAfterMove hf]

/-! ## The parts of an attach -/

theorem admits_addAddresses (socket : Socket) (index : UInt32) (target : NamespaceRef)
    (addresses : List Network) : Admits files (addAddresses socket index target addresses) := by
  induction addresses with
  | nil => exact converses_pure nofun
  | cons address addresses ih =>
    refine socket.converses_addAddress index address fun reply => ?_
    cases Reply.changed reply with
    | ok _ => exact ih
    | error e => exact converses_throw fun _ he => by cases he; rfl

theorem admits_enable {device place : String} {work : KernelM Unit}
    {post : Except Error Unit → List Exchange → Prop} (h : Converses files work post) :
    Admits files (enable device place work) := by
  refine h.tryCatch (fun _ _ _ => nofun) fun e t _ => ?_
  refine (converses_report _).bind (fun _ u _ => ?_) fun _ _ hu => by cases hu.1
  exact converses_throw fun _ he => by cases he; rfl

theorem admits_report (notice : Notice) : Admits files (report notice) := by
  refine (converses_report notice).mono fun res t hr e he => ?_
  rw [hr.1] at he
  cases he

theorem still_openSocket (place : Place) : Still files (openSocket place) := by
  refine (converses_openSocket place).mono fun res t ht => ?_
  obtain ⟨rfl, rfl | ⟨n, rfl⟩⟩ := ht
  · exact ⟨nofun, nofun⟩
  · exact ⟨nofun, fun e he => by cases he; rfl⟩

theorem still_openNamespace (path : String) : Still files (openNamespace path) := by
  refine (converses_openNamespace path).mono fun res t ht => ?_
  obtain ⟨rfl, rfl⟩ := ht
  refine ⟨nofun, fun e he => ?_⟩
  cases ho : files.openFile path with
  | ok found =>
    rw [ho] at he
    cases he
  | error cause =>
    rw [ho] at he
    cases he
    exact deviceMoved_openError path cause

theorem still_linkByName (socket : Socket) (name : String) :
    Still files (socket.linkByName name) := by
  refine (socket.converses_lookUp name Socket.attempts).mono fun res t ht => ⟨fun x hx => ?_, ?_⟩
  · obtain ⟨reply, rfl⟩ := ht.1 x hx
    rfl
  · intro e he
    subst he
    exact ht.2.1

theorem still_setDown (socket : Socket) (index : UInt32) : Still files (socket.setDown index) := by
  refine (socket.converses_setDown index).mono fun res t ht => ?_
  obtain ⟨reply, rfl, rfl⟩ := ht
  refine ⟨by simp [moves], fun e he => ?_⟩
  cases hc : Reply.changed reply with
  | ok _ =>
    rw [hc] at he
    cases he
  | error cause =>
    rw [hc] at he
    cases he
    rfl

/-! ## The whole attach -/

/-- What is done after the move: the error denies the move unless the device was found. -/
theorem tells_inside (file : NamespaceFile) (device name : DeviceName) (target : NamespaceRef)
    (addresses : List Network) :
    Converses files
      (do
        let inside ← openSocketIn file
        let moved ← reportError (inside.linkByName name.text) (.movedDeviceMissing name target)
        addAddresses inside moved.index target addresses
        enable name.text target.display (inside.setUp moved.index)
        let interface := moved.name?.getD name.text
        report (.attached device interface target addresses.length)
        return (⟨interface, (moved.hardwareAddr?.map (·.display)).getD "",
          addresses.map (·.host)⟩ : NetworkDeviceData))
      (Tells (·.any finds)) := by
  have hany : ∀ t u : List Exchange, (∀ x ∈ t, x.finds = false) →
      (t ++ u).any finds = u.any finds := by
    intro t u h
    rw [List.any_append, List.any_eq_false.2 (by simpa using h), Bool.false_or]
  refine tells_bind rfl hany ((converses_openSocketIn file).mono fun res t ht => ?_)
    fun inside => ?_
  · obtain ⟨⟨errno, rfl⟩, hres⟩ := ht
    refine ⟨by simp [finds], fun e he => ?_⟩
    obtain rfl | ⟨e', rfl, hm⟩ := hres
    · cases he
    · cases he
      exact hm
  · refine ((inside.converses_lookUp name.text Socket.attempts).reportError _).bind
      (fun moved t ht => ?_) fun e t ht e' he => ?_
    · obtain ⟨-, init, reply, rfl, hl⟩ := ht
      refine Admits.after ?_ (by simp [finds, hl])
      refine (admits_addAddresses inside moved.index target addresses).bind fun _ => ?_
      refine (admits_enable (inside.converses_setUp moved.index)).bind fun _ => ?_
      exact (admits_report _).bind fun _ => converses_pure fun _ he => by cases he
    · cases he
      rw [ht.2.1, eq_comm, List.any_eq_false]
      simpa using ht.2.2

theorem tells_attach (device : DeviceName) (target : NamespaceRef) (config : LinkConfig)
    (addresses : List Network) :
    Converses files (attach device target config addresses) (Tells foundAfterMove) := by
  refine (still_openSocket .host).bind fun host => ?_
  refine (still_linkByName host device.text).bind fun link => ?_
  refine (still_setDown host link.index).bind fun _ => ?_
  refine (still_openNamespace target.file).bind fun file => ?_
  refine (converses_execute host link.index _ device target).bind (fun _ t ht => ?_)
    fun e t ht e' he => ?_
  · obtain ⟨reply, rfl, hr⟩ := ht
    refine tells_after ?_ (by simp [moves, moveAttributes, hr])
    exact tells_inside file device (config.name.getD device) target addresses
  · obtain ⟨reply, rfl, hr, cause, -, rfl⟩ := ht
    cases he
    simp [foundAfterMove, moves, hr, Socket.rejected, Error.deviceMoved]

/-- An error that tells whether the device was found after its move is right about the device
exactly when a device that moved was found. -/
theorem right_iff_of_tells (h : Converses files work (Tells foundAfterMove)) (k : Kernel)
    (hk : k.files = files) :
    ∃ t, (k.perform work).2.trace = k.trace ++ t ∧
      ∀ e, (k.perform work).1 = .error e →
        (e.deviceMoved = true ↔ foundAfterMove t = true) ∧
        ((e.deviceMoved = true ↔ t.any moves = true) ↔
          (t.any moves = true → foundAfterMove t = true)) := by
  obtain ⟨t, ht, htells⟩ := h.trace k hk
  refine ⟨t, ht, fun e he => ?_⟩
  rw [htells e he]
  exact ⟨Iff.rfl, fun h => h.2, fun h => ⟨any_moves_of_foundAfterMove, h⟩⟩

/-- **What the error of an attach says.** It says that the device moved exactly when the device was
found after its move; so it is right about the device exactly when a device that moved was found. -/
theorem attach_deviceMoved_iff (device : DeviceName) (target : NamespaceRef) (config : LinkConfig)
    (addresses : List Network) (k : Kernel) :
    ∃ t, (k.perform (attach device target config addresses)).2.trace = k.trace ++ t ∧
      ∀ e, (k.perform (attach device target config addresses)).1 = .error e →
        (e.deviceMoved = true ↔ foundAfterMove t = true) ∧
        ((e.deviceMoved = true ↔ t.any moves = true) ↔
          (t.any moves = true → foundAfterMove t = true)) :=
  right_iff_of_tells (tells_attach device target config addresses) k rfl

/-- A kernel that finds `eth0` up, puts it down and moves it, and does not let a thread enter the
namespace. -/
def barredKernel : Kernel :=
  { quiet ((FileTree.system.addPath "ns" .directory).addPath "ns/w1" .namespaceFile) with
    replies := [.links [⟨4, [.up], [.name "eth0"]⟩] none, .done, .done]
    entries := [1] }

/-- A device that moved is denied: nobody could enter its namespace after it. -/
theorem attach_denies_move :
    ∃ (device : DeviceName) (e : Error),
      let o := barredKernel.perform (attach device (.path "ns/w1") .empty [])
      o.1 = .error e ∧ e.deviceMoved = false ∧ o.2.trace.any moves = true := by
  refine ⟨⟨"eth0", by decide, by decide, by decide, by decide⟩,
    .namespaceFailed (.notEntered "ns/w1" 1), ?_, ?_, ?_⟩
  · cbv
  · cbv
  · cbv

end Move

end NetRelocation
