import NetRelocation.Proofs.Configurations
import NetRelocation.Proofs.Protocol

/-!
# The protocol of an attach

An attach knows the device twice: on the host under one index, and in the namespace, where it has to
be found anew, under another. Requests on the host are about the first and requests in the namespace
about the second, and after a step that fails nothing more is asked.

**Theorem (`attach_protocol`).** What an attach asks is a course of its plan (`attachPlan`), and its
result is the one of the course. One request of the plan moves the device, and carries its new name,
the namespace and the configuration. Which of the results it is can be read off the conversation:

* it succeeds exactly if the device was brought up, and then it got all its addresses, in order;
* it fails with an address exactly if an address was refused; it names the first such, all addresses
  before it were accepted, and none after it was asked for;
* it fails to bring the device up exactly if that was asked for and refused.

The first part goes through the attach line by line (`follows_attach`). The rest is about courses
alone (`ensures_attachPlan`). Everything before the addresses is *preparatory*: it adds no address,
brings nothing up, and its errors are of another kind. The addresses are an induction over their
list (`ensures_additions`), at whose end the device is brought up or is not.
-/

namespace NetRelocation

open Kernel

namespace Move

/-! ## The plan -/

/-- Give a link addresses, one after another. -/
def additions {α : Type} (place : Place) (index : UInt32) (target : NamespaceRef) :
    List Network → Plan α → Plan α
  | [], next => next
  | address :: addresses, next =>
    .ask place (.addAddress index address) Reply.accepted
      (fun e => .addressAssignment address.display target.display e.message) <|
    additions place index target addresses next

/-- What an attach asks. The device is found on the host, taken down and moved, all in one request
with its new name and its configuration; it is found again in the namespace, given its addresses and
brought up. -/
def attachPlan (device : DeviceName) (target : NamespaceRef) (config : LinkConfig)
    (addresses : List Network) : Plan NetworkDeviceData :=
  let name := (config.name.getD device).text
  .openSocket 0 <|
  .find .host device.text fun link =>
  .ask .host (.set link.index (some false) []) Reply.accepted
    (Socket.rejected (.setDown link.index)) <|
  .openFile target.file fun place =>
  .ask .host (.set link.index none (.name name :: .netns place :: config.normalized.parts))
    Reply.carriedOut (Socket.rejected (.move device.text target)) <|
  .enter ⟨target.file, place⟩ <|
  .openSocket 1 <|
  .find place name fun moved =>
  additions place moved.index target addresses <|
  .blaming (fun e => .enableFailed name target.display e.message) <|
  .ask place (.set moved.index (some true) []) Reply.accepted
    (Socket.rejected (.setUp moved.index)) <|
  .finish ⟨moved.name?.getD name, (moved.hardwareAddr?.map (·.display)).getD "",
    addresses.map (·.host)⟩

variable {script : Kernel} {n : Nat}

theorem follows_addAddresses {α : Type} {socket : Socket} {index : UInt32} {target : NamespaceRef}
    {addresses : List Network} {f : Unit → KernelM α} {next : Plan α}
    (h : Follows script n (f ()) next) :
    Follows script n (addAddresses socket index target addresses >>= f)
      (additions socket.place index target addresses next) := by
  induction addresses with
  | nil => exact h
  | cons address addresses ih =>
    rw [addAddresses, bind_assoc]
    refine Socket.runs_addAddress fun reply => ?_
    cases hc : Reply.changed reply with
    | ok _ => exact ih.mono fun _ _ hcourse => .granted (by simp [Reply.accepted, hc]) hcourse
    | error e => exact runs_throw (.refused (by simp [Reply.accepted, hc]) hc)

/-- **An attach keeps to its plan.** -/
theorem follows_attach (script : Kernel) (device : DeviceName) (target : NamespaceRef)
    (config : LinkConfig) (addresses : List Network) :
    Follows script 0 (attach device target config addresses)
      (attachPlan device target config addresses) := by
  refine follows_openSocket (Socket.follows_linkByName fun link => ?_)
  refine (Socket.makes_setDown link.index).follows ?_
  refine follows_openNamespace fun place => ?_
  have hrequest : moveAttributes (config.name.getD device).text place config.attributes =
      .name (config.name.getD device).text :: .netns place :: config.normalized.parts := by
    rw [moveAttributes, config.attributes_eq_parts]
  refine (makes_execute hrequest link.index device target).follows ?_
  refine follows_openSocketIn (Socket.follows_reportError_linkByName fun moved => ?_)
  refine follows_addAddresses (follows_enable ?_)
  exact (Socket.makes_setUp moved.index).follows (follows_pure _)

/-! ## How an attach ends -/

/-- The address that a link was to get, and whether it got it. -/
def addition? : Exchange → Option (Network × Bool)
  | .asked _ (.addAddress _ address) reply => some (address, Reply.accepted reply)
  | _ => none

/-- Whether a link that was to be brought up was. -/
def rise? : Exchange → Option Bool
  | .asked _ (.set _ (some true) _) reply => some (Reply.accepted reply)
  | _ => none

section

variable (place : Place) (index : UInt32) (reply : Option Reply)

@[simp] theorem addition?_addAddress (address : Network) :
    addition? (.asked place (.addAddress index address) reply) =
      some (address, Reply.accepted reply) := rfl

@[simp] theorem addition?_set (up : Option Bool) (attributes : List LinkAttribute) :
    addition? (.asked place (.set index up attributes) reply) = none := rfl

@[simp] theorem rise?_addAddress (address : Network) :
    rise? (.asked place (.addAddress index address) reply) = none := rfl

@[simp] theorem rise?_up (attributes : List LinkAttribute) :
    rise? (.asked place (.set index (some true) attributes) reply) =
      some (Reply.accepted reply) := rfl

end

variable {target : NamespaceRef} {name : String} {ips : List String} {addresses : List Network}

/-- How an attach ends once the device is found in the namespace, in view of the addresses that were
asked for and of whether the device was brought up. -/
inductive Arrives (target : NamespaceRef) (name : String) (ips : List String)
    (addresses : List Network) :
    Except Error NetworkDeviceData → List (Network × Bool) → List Bool → Prop
  | up {data} (h : data.ips = ips) :
      Arrives target name ips addresses (.ok data) (addresses.map (·, true)) [true]
  | down {reason} :
      Arrives target name ips addresses (.error (.enableFailed name target.display reason))
        (addresses.map (·, true)) [false]
  | lacking {before address after reason} (h : addresses = before ++ address :: after) :
      Arrives target name ips addresses
        (.error (.addressAssignment address.display target.display reason))
        (before.map (·, true) ++ [(address, false)]) []

inductive AttachEnds (target : NamespaceRef) (name : String) (ips : List String)
    (addresses : List Network) :
    Except Error NetworkDeviceData → List (Network × Bool) → List Bool → Prop
  | arrived {res additions rises} (h : Arrives target name ips addresses res additions rises) :
      AttachEnds target name ips addresses res additions rises
  | early {e} (h : e.deviceMoved = false) : AttachEnds target name ips addresses (.error e) [] []

/-- One more address that a device got. -/
theorem Arrives.cons {res : Except Error NetworkDeviceData} {additions : List (Network × Bool)}
    {rises : List Bool} (h : Arrives target name ips addresses res additions rises)
    (address : Network) :
    Arrives target name ips (address :: addresses) res ((address, true) :: additions) rises := by
  cases h with
  | up h => exact .up h
  | down => exact .down
  | @lacking before refused after reason h =>
    refine @Arrives.lacking target name ips _ (address :: before) refused after reason ?_
    rw [h, List.cons_append]

/-- The device gets its addresses up to the first that is refused, and then is brought up or not. -/
theorem ensures_additions {place : Place} {index : UInt32} {operation : Operation}
    {data : NetworkDeviceData} (addresses : List Network) :
    Plan.Ensures script
      (additions place index target addresses <|
        .blaming (fun e => .enableFailed name target.display e.message) <|
        .ask place (.set index (some true) []) Reply.accepted (Socket.rejected operation) <|
        .finish data)
      fun res t => Arrives target name data.ips addresses res (t.filterMap addition?)
        (t.filterMap rise?) := by
  induction addresses with
  | nil =>
    intro t res hc
    cases hc with
    | blaming hc =>
      cases hc with
      | granted hreply hc =>
        cases hc with
        | finish =>
          simp only [List.filterMap_cons, List.filterMap_nil, addition?_set, rise?_up, hreply]
          exact .up rfl
      | refused hreply _ =>
        simp only [List.filterMap_cons, List.filterMap_nil, addition?_set, rise?_up, hreply]
        exact .down
  | cons address addresses ih =>
    intro t res hc
    cases hc with
    | granted hreply hc =>
      simp only [List.filterMap_cons, addition?_addAddress, rise?_addAddress, hreply]
      exact (ih _ _ hc).cons address
    | refused hreply _ =>
      simp only [List.filterMap_cons, List.filterMap_nil, addition?_addAddress, rise?_addAddress,
        hreply]
      exact .lacking (List.nil_append _).symm

/-- An exchange that is about no address and does not bring up a link. -/
def Preparatory (x : Exchange) : Prop := addition? x = none ∧ rise? x = none

theorem passes_attachEnds :
    Plan.Passes Preparatory fun res t =>
      AttachEnds target name ips addresses res (t.filterMap addition?) (t.filterMap rise?) := by
  have hquiet {t : List Exchange} (h : ∀ x ∈ t, Preparatory x) :
      t.filterMap addition? = [] ∧ t.filterMap rise? = [] :=
    ⟨List.filterMap_eq_nil_iff.2 fun x hx => (h x hx).1,
      List.filterMap_eq_nil_iff.2 fun x hx => (h x hx).2⟩
  constructor
  · intro e t he ht
    rw [(hquiet ht).1, (hquiet ht).2]
    exact .early he
  · intro res t u ht hu
    rwa [List.filterMap_append, List.filterMap_append, (hquiet ht).1, (hquiet ht).2]

/-- **How an attach ends** is decided by the addresses and by bringing the device up. -/
theorem ensures_attachPlan (script : Kernel) (device : DeviceName) (target : NamespaceRef)
    (config : LinkConfig) (addresses : List Network) :
    Plan.Ensures script (attachPlan device target config addresses) fun res t =>
      AttachEnds target (config.name.getD device).text (addresses.map (·.host)) addresses res
        (t.filterMap addition?) (t.filterMap rise?) := by
  have hquiet : Plan.Passes Preparatory fun res t =>
      AttachEnds target (config.name.getD device).text (addresses.map (·.host)) addresses res
        (t.filterMap addition?) (t.filterMap rise?) := passes_attachEnds
  refine hquiet.openSocket (hquiet.find (fun _ => ⟨rfl, rfl⟩) fun link => ?_)
  refine hquiet.ask (fun _ => ⟨rfl, rfl⟩) (fun _ => rfl) ?_
  refine hquiet.openFile fun place => ?_
  refine hquiet.ask (fun _ => ⟨rfl, rfl⟩) (fun _ => rfl) ?_
  refine hquiet.enter (fun _ => ⟨rfl, rfl⟩) (hquiet.openSocket ?_)
  refine hquiet.find (fun _ => ⟨rfl, rfl⟩) fun moved => ?_
  exact fun t res hc => .arrived (ensures_additions addresses t res hc)

namespace AttachEnds

variable {additions : List (Network × Bool)} {rises : List Bool}

theorem of_ok {data : NetworkDeviceData}
    (h : AttachEnds target name ips addresses (.ok data) additions rises) :
    data.ips = ips ∧ additions = addresses.map (·, true) := by
  cases h with
  | arrived h =>
    cases h with
    | up h => exact ⟨h, rfl⟩

theorem of_addressAssignment {address place reason : String}
    (h : AttachEnds target name ips addresses (.error (.addressAssignment address place reason))
      additions rises) :
    ∃ before first after, addresses = before ++ first :: after ∧ address = first.display ∧
      place = target.display ∧ additions = before.map (·, true) ++ [(first, false)] := by
  cases h with
  | arrived h =>
    cases h with
    | lacking h => exact ⟨_, _, _, h, rfl, rfl, rfl⟩
  | early h => cases h

theorem of_enableFailed {device place reason : String}
    (h : AttachEnds target name ips addresses (.error (.enableFailed device place reason))
      additions rises) :
    device = name ∧ place = target.display := by
  cases h with
  | arrived h =>
    cases h with
    | down => exact ⟨rfl, rfl⟩
  | early h => cases h

variable {res : Except Error NetworkDeviceData}
  (h : AttachEnds target name ips addresses res additions rises)
include h

theorem isOk_iff : (∃ data, res = .ok data) ↔ rises = [true] := by
  cases h with
  | arrived h => cases h <;> simp
  | early h => simp

theorem addressAssignment_iff :
    (∃ address place reason, res = .error (.addressAssignment address place reason)) ↔
      ∃ address, (address, false) ∈ additions := by
  cases h with
  | arrived h => cases h <;> simp
  | @early e h => cases e <;> simp_all [Error.deviceMoved]

theorem enableFailed_iff :
    (∃ device place reason, res = .error (.enableFailed device place reason)) ↔
      rises = [false] := by
  cases h with
  | arrived h => cases h <;> simp
  | @early e h => cases e <;> simp_all [Error.deviceMoved]

end AttachEnds

/-- **The protocol of an attach.** What an attach asks is a course of its plan, and its result is the
one of the course. It succeeds exactly if it got to bring the device up and that was accepted; then
it got all addresses, and tells them. It fails with an address exactly if one was refused: the first,
after which none was asked for. It fails to bring the device up exactly if that was refused. -/
theorem attach_protocol (device : DeviceName) (target : NamespaceRef) (config : LinkConfig)
    (addresses : List Network) (k : Kernel) :
    let o := k.perform (attach device target config addresses)
    ∃ t, o.2.trace = k.trace ++ t ∧ (attachPlan device target config addresses).Course k t o.1 ∧
      ((∃ data, o.1 = .ok data) ↔ t.filterMap rise? = [true]) ∧
      (∀ data, o.1 = .ok data → data.ips = addresses.map (·.host) ∧
        t.filterMap addition? = addresses.map (·, true)) ∧
      ((∃ address place reason, o.1 = .error (.addressAssignment address place reason)) ↔
        ∃ address, (address, false) ∈ t.filterMap addition?) ∧
      (∀ address place reason, o.1 = .error (.addressAssignment address place reason) →
        ∃ before first after, addresses = before ++ first :: after ∧ address = first.display ∧
          place = target.display ∧
          t.filterMap addition? = before.map (·, true) ++ [(first, false)]) ∧
      ((∃ name place reason, o.1 = .error (.enableFailed name place reason)) ↔
        t.filterMap rise? = [false]) ∧
      ∀ name place reason, o.1 = .error (.enableFailed name place reason) →
        name = (config.name.getD device).text ∧ place = target.display := by
  intro o
  obtain ⟨t, ht, hcourse⟩ := follows_attach k device target config addresses k rfl rfl
  have hends := ensures_attachPlan k device target config addresses t o.1 hcourse
  refine ⟨t, ht, hcourse, hends.isOk_iff, ?_, hends.addressAssignment_iff, ?_,
    hends.enableFailed_iff, ?_⟩
  · intro data hdata
    exact AttachEnds.of_ok (hdata ▸ hends)
  · intro address place reason he
    exact AttachEnds.of_addressAssignment (he ▸ hends)
  · intro name place reason he
    exact AttachEnds.of_enableFailed (he ▸ hends)

end Move

end NetRelocation
