import Mathlib
import NetRelocation.Proofs.AttachProtocol
import NetRelocation.Proofs.DetachProtocol

/-!
# Devices that are left down

A device is taken down before it moves. In both directions two steps stand between that and the
move: the file of the other namespace is opened, and the request to move the device may be refused.
Neither step takes back what was done before it.

**Departing** (`departure`). An attach and a detach have the same steps up to the move: a link is
found, taken down, and moved into the namespace behind a file. What comes before (a socket, a
namespace that is entered) is about no link, and what comes after is about a device that has moved.

**Theorem (`left_down_iff_late`).** Let an attach or a detach fail without a move. Then it brought
nothing up. The link that it found up is left down exactly if the error came late (`Late`), from one
of the two steps; any other error leaves it up. `eth0_left_down` is an attach whose namespace does
not exist: it takes the device down for good, although the kernel would let it be brought up again.

Whether a link is up after a conversation is decided by the last accepted request about that
(`upAfter`). The proof goes through the cases of a course of a departure (`ensures_departure`).
-/

namespace NetRelocation

open Kernel

/-! ## Links that are up -/

namespace Exchange

/-- The link that a look-up gave, with the namespace that it was looked up in. -/
def located? : Exchange → Option (Place × Link)
  | .asked place request reply => (found? (.asked place request reply)).map (place, ·)
  | .entered _ _ => none

/-- Whether a link was brought up or taken down, if either was asked for and accepted. -/
def flagged? (place : Place) (index : UInt32) : Exchange → Option Bool
  | .asked here (.set changed (some up) _) reply =>
    if here = place ∧ changed = index ∧ Reply.accepted reply = true then some up else none
  | _ => none

/-- Whether this is the wish to enter a namespace. -/
def Enters (x : Exchange) : Prop := ∃ place errno, x = .entered place errno

theorem eq_none_of_enters {β : Type} {f : Exchange → Option β} {t : List Exchange}
    (hf : ∀ place errno, f (.entered place errno) = none) (ht : ∀ x ∈ t, x.Enters) :
    ∀ x ∈ t, f x = none := by
  intro x hx
  obtain ⟨place, errno, rfl⟩ := ht x hx
  exact hf place errno

theorem located?_eq_none {x : Exchange} (h : x.finds = false) : x.located? = none := by
  cases x with
  | asked place request reply => rw [located?, found?_eq_none h, Option.map_none]
  | entered _ _ => rfl

end Exchange

/-- Whether a link that was found is up after a conversation: what was accepted last counts, and
where nothing was, how it was found. -/
def upAfter (place : Place) (link : Link) (t : List Exchange) : Bool :=
  ((t.filterMap (·.flagged? place link.index)).getLast?).getD (decide (.up ∈ link.flags))

theorem upAfter_append {place : Place} {link : Link} {t : List Exchange}
    (h : ∀ x ∈ t, x.flagged? place link.index = none) (u : List Exchange) :
    upAfter place link (t ++ u) = upAfter place link u := by
  rw [upAfter, List.filterMap_append, List.filterMap_eq_nil_iff.2 h, List.nil_append, upAfter]

namespace LookUp

variable (lookUp : LookUp) (place : Place) (name : String)

theorem findSome?_located :
    (lookUp.exchanges place name).findSome? Exchange.located? =
      ((lookUp.exchanges place name).findSome? Exchange.found?).map (place, ·) := by
  rw [exchanges, List.findSome?_map, List.findSome?_map, List.map_findSome?]
  rfl

end LookUp

namespace Move

/-! ## Departing -/

/-- The errors of the steps between taking a device down and moving it: the file of the other
namespace cannot be opened, or the move is refused. -/
def Late (path : String) (operation : Operation) (e : Error) : Prop :=
  (∃ cause, e = openError path cause) ∨ ∃ cause, e = Socket.rejected operation cause

/-- An error without a move: nothing was brought up, and the first link that was found, if it was
up, is down exactly if the error is a late one. -/
def LeavesDown {α : Type} (late : Error → Prop) (res : Except Error α) (t : List Exchange) : Prop :=
  ∀ e, res = .error e → t.any Exchange.moves = false →
    (∀ x ∈ t, rise? x = none) ∧
    ∀ place link, t.findSome? Exchange.located? = some (place, link) → .up ∈ link.flags →
      (upAfter place link t = false ↔ late e)

/-- Find a link, take it down and move it into the namespace behind a file. -/
def departure {α : Type} (place : Place) (name path : String) (operation : Operation)
    (outgoing : Link → String) (more : List LinkAttribute) (rest : Link → Place → Plan α) :
    Plan α :=
  .find place name fun link =>
  .ask place (.set link.index (some false) []) Reply.accepted
    (Socket.rejected (.setDown link.index)) <|
  .openFile path fun target =>
  .ask place (.set link.index none (.name (outgoing link) :: .netns target :: more))
    Reply.carriedOut (Socket.rejected operation) <|
  rest link target

variable {α : Type} {script : Kernel}

theorem openError_ne_rejected (path : String) (cause : IoCause) (operation : Operation)
    (e : NetlinkError) : openError path cause ≠ Socket.rejected operation e := by
  unfold openError
  split <;> nofun

theorem not_late_setDown {path : String} {operation : Operation} {index : UInt32}
    (h : operation ≠ .setDown index) (e : NetlinkError) :
    ¬Late path operation (Socket.rejected (.setDown index) e) := by
  rintro (⟨cause, he⟩ | ⟨cause, he⟩)
  · exact openError_ne_rejected path cause _ e he.symm
  · injection he with hoperation _
    exact h hoperation.symm

/-- What comes of a link that was found decides. -/
theorem leavesDown_found {late : Error → Prop} {res : Except Error α} {place : Place}
    {name : String} {link : Link} {lookUp : LookUp} (hlawful : lookUp.Lawful 3)
    (hlink : Reply.link lookUp.last = .ok (some link)) {t : List Exchange}
    (h : ∀ e, res = .error e → t.any Exchange.moves = false →
      (∀ x ∈ t, rise? x = none) ∧
        (.up ∈ link.flags → (upAfter place link t = false ↔ late e))) :
    LeavesDown late res (lookUp.exchanges place name ++ t) := by
  intro e he hmoves
  rw [List.any_append, Bool.or_eq_false_iff] at hmoves
  obtain ⟨hrise, hdown⟩ := h e he hmoves.2
  refine ⟨List.forall_mem_append.2 ⟨lookUp.forall_exchanges fun _ => rfl, hrise⟩, ?_⟩
  intro place' link' hlocated hup
  rw [List.findSome?_append, lookUp.findSome?_located, hlawful.findSome?_exchanges place name hlink]
    at hlocated
  cases hlocated
  rw [upAfter_append (lookUp.forall_exchanges fun _ => rfl)]
  exact hdown hup

/-- **A departure that fails** leaves a link down exactly if it fails late. -/
theorem ensures_departure {place : Place} {name path : String} {operation : Operation}
    {outgoing : Link → String} {more : List LinkAttribute} {rest : Link → Place → Plan α}
    (hoperation : ∀ index, operation ≠ .setDown index) :
    Plan.Ensures script (departure place name path operation outgoing more rest)
      (LeavesDown (Late path operation)) := by
  intro t res hc
  cases hc with
  | @notFound _ _ _ lookUp hfails =>
    intro e _ _
    refine ⟨lookUp.forall_exchanges fun _ => rfl, ?_⟩
    intro place' link hlocated
    rw [List.findSome?_eq_none_iff.2 fun x hx =>
      Exchange.located?_eq_none (hfails.finds place name x hx)] at hlocated
    cases hlocated
  | found hlawful hlink hc =>
    refine leavesDown_found hlawful hlink ?_
    cases hc with
    | refused hreply _ =>
      rintro _ ⟨⟩ -
      refine ⟨by simp [rise?], fun hup => iff_of_false ?_ (not_late_setDown (hoperation _) _)⟩
      simp [upAfter, Exchange.flagged?, hreply, hup]
    | granted hreply hc =>
      cases hc with
      | @noFile _ _ cause _ =>
        rintro _ ⟨⟩ -
        refine ⟨by simp [rise?], fun _ => iff_of_true ?_ (.inl ⟨cause, rfl⟩)⟩
        simp [upAfter, Exchange.flagged?, hreply]
      | file _ hc =>
        cases hc with
        | @refused _ _ _ _ _ _ cause _ _ =>
          rintro _ ⟨⟩ -
          refine ⟨by simp [rise?], fun _ => iff_of_true ?_ (.inr ⟨cause, rfl⟩)⟩
          simp [upAfter, Exchange.flagged?, hreply]
        | granted hmoved _ =>
          intro e _ hmoves
          simp [Exchange.moves, hmoved] at hmoves

theorem passes_leavesDown (late : Error → Prop) :
    Plan.Passes Exchange.Enters (LeavesDown (α := α) late) := by
  constructor
  · intro e t _ ht _ _ _
    refine ⟨Exchange.eq_none_of_enters (fun _ _ => rfl) ht, ?_⟩
    intro place link hlocated
    rw [List.findSome?_eq_none_iff.2 (Exchange.eq_none_of_enters (fun _ _ => rfl) ht)] at hlocated
    cases hlocated
  · intro res t u ht hu e he hmoves
    rw [List.any_append, Bool.or_eq_false_iff] at hmoves
    obtain ⟨hrise, hdown⟩ := hu e he hmoves.2
    refine ⟨List.forall_mem_append.2
      ⟨Exchange.eq_none_of_enters (fun _ _ => rfl) ht, hrise⟩, ?_⟩
    intro place link hlocated
    rw [List.findSome?_append,
      List.findSome?_eq_none_iff.2 (Exchange.eq_none_of_enters (fun _ _ => rfl) ht),
      Option.none_or] at hlocated
    rw [upAfter_append (Exchange.eq_none_of_enters (fun _ _ => rfl) ht)]
    exact hdown place link hlocated

/-! ## Both directions -/

theorem leavesDown_attachPlan (device : DeviceName) (target : NamespaceRef) (config : LinkConfig)
    (addresses : List Network) :
    Plan.Ensures script (attachPlan device target config addresses)
      (LeavesDown (Late target.file (.move device.text target))) :=
  (passes_leavesDown _).openSocket (ensures_departure nofun)

theorem leavesDown_detachPlan (source : NamespaceRef) (device : DeviceName)
    (restore : Option DeviceName) :
    Plan.Ensures script (detachPlan source device restore)
      (LeavesDown (Late "/proc/self/ns/net" (.move device.text source))) := by
  have hpasses := passes_leavesDown (α := Unit)
    (Late "/proc/self/ns/net" (.move device.text source))
  refine hpasses.openFile fun place => hpasses.enter (fun errno => ⟨_, errno, rfl⟩) ?_
  exact hpasses.openSocket (ensures_departure nofun)

/-- **A relocation that fails without a move.** It brings nothing up. The link that it found up is
left down exactly if the error came late: the file of the other namespace could not be opened, or
the move was refused. -/
theorem left_down_iff_late (device : DeviceName) (ns : NamespaceRef) (config : LinkConfig)
    (addresses : List Network) (restore : Option DeviceName) (k : Kernel) :
    let attached := k.perform (attach device ns config addresses)
    let detached := k.perform (detach ns device restore)
    (∃ t, attached.2.trace = k.trace ++ t ∧
      LeavesDown (Late ns.file (.move device.text ns)) attached.1 t) ∧
    ∃ t, detached.2.trace = k.trace ++ t ∧
      LeavesDown (Late "/proc/self/ns/net" (.move device.text ns)) detached.1 t := by
  intro attached detached
  constructor
  · obtain ⟨t, ht, hcourse⟩ := follows_attach k device ns config addresses k rfl rfl
    exact ⟨t, ht, leavesDown_attachPlan device ns config addresses t _ hcourse⟩
  · obtain ⟨t, ht, hcourse⟩ := follows_detach k ns device restore k rfl rfl
    exact ⟨t, ht, leavesDown_detachPlan ns device restore t _ hcourse⟩

/-- A kernel that finds `eth0` up and lets it be taken down and brought up. -/
def willingKernel : Kernel :=
  { quiet FileTree.system with
    replies := [.links [⟨4, [.up], [.name "eth0"]⟩] none, .done, .done] }

/-- A device is left down for a namespace that does not exist: it was found up and did not move, and
it could be brought up again. -/
theorem eth0_left_down :
    ∃ (device : DeviceName) (link : Link),
      let o := willingKernel.perform (attach device (.path "ns/w1") .empty [])
      device.text = "eth0" ∧ o.1 = .error (.notFound .namespaceFile "ns/w1") ∧
      o.2.trace.any Exchange.moves = false ∧
      o.2.trace.findSome? Exchange.located? = some (.host, link) ∧ .up ∈ link.flags ∧
      upAfter .host link o.2.trace = false ∧
      (o.2.perform (Socket.setUp ⟨.host⟩ link.index)).1.isOk = true := by
  refine ⟨⟨"eth0", by decide, by decide, by decide, by decide⟩, ⟨4, [.up], [.name "eth0"]⟩,
    rfl, ?_, ?_, ?_, ?_, ?_, ?_⟩
  · cbv
  · decide +kernel
  · decide +kernel
  · decide
  · decide +kernel
  · decide +kernel

end Move

end NetRelocation
