import NetRelocation.Proofs.Protocol

/-!
# The protocol of a detach

A detach moves a device from a namespace back to the host and then brings it up there. What fails
before the move leaves the device in the namespace; what fails after it leaves the device on the
host, down. The coordinator has to know which, because it goes on asking for devices that are still
inside and for no others.

**Theorem (`detach_protocol`).** What a detach asks is a course of its plan (`detachPlan`). When it
fails, its error says that the device moved exactly if the request to move it was carried out. Such
an error is always that the device could not be brought up on the host, under the name that the first
link that was found gets there (`nameOnHost`). Where the file of the own namespace is that of the
host, the device is moved to the host and nowhere else.

On both sides of the move, all errors say the same about the device: before it they deny the move,
and everything after it is blamed on bringing the device up (`ensures_restorePlan`); the request in
between decides (`ensures_move`). The name is fixed by a look-up before the move. So the course is
cut there: up to the look-up nothing is found, and from then on the name is known.
-/

namespace NetRelocation

open Kernel

/-! ## What look-ups give -/

namespace Exchange

/-- The link that a look-up gave. -/
def found? : Exchange → Option Link
  | .asked _ (.get _) reply => (Reply.link reply).toOption.join
  | _ => none

/-- The namespaces that a request moves a link to. -/
def targets : Exchange → List Place
  | .asked _ (.set _ _ attributes) _ => attributes.filterMap fun
    | .netns target => some target
    | _ => none
  | _ => []

theorem found?_eq_none {x : Exchange} (h : x.finds = false) : x.found? = none := by
  cases x with
  | entered _ _ => rfl
  | asked _ request reply =>
    cases request with
    | get _ =>
      cases hr : Reply.link reply with
      | error _ => simp [found?, hr, Except.toOption]
      | ok link =>
        cases link with
        | none => simp [found?, hr, Except.toOption]
        | some _ => simp [finds, hr] at h
    | _ => rfl

end Exchange

namespace LookUp

theorem moves_exchanges (lookUp : LookUp) (place : Place) (name : String) :
    ∀ x ∈ lookUp.exchanges place name, x.moves = false :=
  lookUp.forall_exchanges fun _ => rfl

/-- The link that a look-up ends with is the first that it gives. -/
theorem Lawful.findSome?_exchanges {lookUp : LookUp} {attempts : Nat} {link : Link}
    (h : lookUp.Lawful attempts) (place : Place) (name : String)
    (hlink : Reply.link lookUp.last = .ok (some link)) :
    (lookUp.exchanges place name).findSome? Exchange.found? = some link := by
  have hrepeated : (lookUp.repeated.map (.asked place (.get name) ·)).findSome?
      Exchange.found? = none := by
    refine List.findSome?_eq_none_iff.2 fun x hx => ?_
    obtain ⟨reply, hreply, rfl⟩ := List.mem_map.1 hx
    exact Exchange.found?_eq_none (h.finds_repeated reply hreply place name)
  rw [exchanges, List.map_append, List.findSome?_append, hrepeated]
  simp [Exchange.found?, hlink, Except.toOption]

end LookUp

/-! ## Aliases -/

/-- The aliases of a link, in the order in which it has them. -/
def Link.aliases (link : Link) : List String :=
  link.attributes.filterMap fun
    | .aliasName s => some s
    | _ => none

theorem Link.aliasName?_eq (link : Link) :
    link.aliasName? = link.aliases.find? (· ≠ "") := by
  obtain ⟨index, flags, attributes⟩ := link
  rw [aliasName?, aliases]
  dsimp only
  induction attributes with
  | nil => rfl
  | cons a attributes ih =>
    cases a with
    | aliasName s => by_cases hs : s = "" <;> simp [hs, ih]
    | _ => simp [ih]

namespace Move

/-! ## The name on the host -/

/-- The name that a device is to have on the host: the wanted one; without one, the first alias of
its link that is not empty; without that, the name that it has. -/
def nameOnHost (link : Link) (device : DeviceName) (restore : Option DeviceName) : String :=
  match restore with
  | some wanted => wanted.text
  | none =>
    match link.aliases.find? (· ≠ "") with
    | some other => other
    | none => device.text

theorem outgoingName_eq (link : Link) (device : DeviceName) (restore : Option DeviceName) :
    outgoingName link device restore = nameOnHost link device restore := by
  cases restore with
  | some wanted => rfl
  | none =>
    rw [outgoingName, nameOnHost, link.aliasName?_eq]
    cases link.aliases.find? (· ≠ "") with
    | some other => rfl
    | none => rfl

/-! ## The plan -/

/-- What a detach asks on the host, once the device was moved there. -/
def restorePlan (name : String) : Plan Unit :=
  .blaming (fun e => .enableFailed name "host" e.message) <|
  .openSocket 1 <|
  .find .host name fun restored =>
  .ask .host (.set restored.index (some true) []) Reply.accepted
    (Socket.rejected (.setUp restored.index)) <|
  .finish ()

/-- What a detach asks. The device is found in its namespace, taken down and moved, in one request
with the name that it is to have on the host; it is found again there and brought up. -/
def detachPlan (source : NamespaceRef) (device : DeviceName) (restore : Option DeviceName) :
    Plan Unit :=
  .openFile source.file fun place =>
  .enter ⟨source.file, place⟩ <|
  .openSocket 0 <|
  .find place device.text fun link =>
  .ask place (.set link.index (some false) []) Reply.accepted
    (Socket.rejected (.setDown link.index)) <|
  .openFile "/proc/self/ns/net" fun home =>
  .ask place (.set link.index none [.name (nameOnHost link device restore), .netns home])
    Reply.carriedOut (Socket.rejected (.move device.text source)) <|
  restorePlan (nameOnHost link device restore)

variable {script : Kernel}

theorem follows_bringUpOnHost (name : String) :
    Follows script 1 (bringUpOnHost name >>= fun _ => pure ())
      (.openSocket 1 <| .find .host name fun restored =>
        .ask .host (.set restored.index (some true) []) Reply.accepted
          (Socket.rejected (.setUp restored.index)) (.finish ())) := by
  simp only [bringUpOnHost, bind_assoc]
  refine follows_openSocket (Socket.follows_linkByName fun restored => ?_)
  exact (Socket.makes_setUp restored.index).follows (follows_pure ())

/-- **A detach keeps to its plan.** -/
theorem follows_detach (script : Kernel) (source : NamespaceRef) (device : DeviceName)
    (restore : Option DeviceName) :
    Follows script 0 (detach source device restore) (detachPlan source device restore) := by
  refine follows_openNamespace fun place => ?_
  refine follows_openSocketIn (Socket.follows_linkByName fun link => ?_)
  rw [← outgoingName_eq link device restore]
  refine (Socket.makes_setDown link.index).follows ?_
  refine follows_openNamespace fun home => ?_
  refine (makes_execute rfl link.index device source).follows ?_
  have hreport : report (.detached device (outgoingName link device restore) source) =
      report (.detached device (outgoingName link device restore) source) >>= fun _ => pure () :=
    (bind_pure_unit).symm
  rw [hreport]
  exact follows_enable (follows_bringUpOnHost _)

/-! ## What errors say -/

/-- After the move, every error is that the device could not be brought up on the host. -/
theorem ensures_restorePlan (name : String) :
    Plan.Ensures script (restorePlan name) fun res _ =>
      ∀ e, res = .error e → ∃ reason, e = .enableFailed name "host" reason := by
  intro t res hc
  cases hc with
  | @blaming _ _ _ res hc =>
    rintro e he
    cases res with
    | error cause =>
      cases he
      exact ⟨cause.message, rfl⟩
    | ok _ => cases he

/-- An error says that the device moved exactly if a request to move it was carried out. Then it is
that the device could not be brought up on the host under a name that fits what was asked. -/
def Classifies (fits : String → List Exchange → Prop) (res : Except Error Unit)
    (t : List Exchange) : Prop :=
  ∀ e, res = .error e → (e.deviceMoved = true ↔ t.any Exchange.moves = true) ∧
    (e.deviceMoved = true → ∃ name reason, fits name t ∧ e = .enableFailed name "host" reason)

theorem passes_classifies {quiet : Exchange → Prop} {fits : String → List Exchange → Prop}
    (hquiet : ∀ x, quiet x → x.moves = false)
    (hfits : ∀ name t u, (∀ x ∈ t, quiet x) → fits name u → fits name (t ++ u)) :
    Plan.Passes quiet (Classifies fits) := by
  have hmoves {t : List Exchange} (ht : ∀ x ∈ t, quiet x) : t.any Exchange.moves = false :=
    List.any_eq_false.2 fun x hx => by simp [hquiet x (ht x hx)]
  constructor
  · rintro e t he ht _ ⟨⟩
    simp [he, hmoves ht]
  · intro res t u ht hu e he
    obtain ⟨hiff, hname⟩ := hu e he
    refine ⟨by rw [List.any_append, hmoves ht, Bool.false_or, hiff], fun hmoved => ?_⟩
    obtain ⟨name, reason, hfit, rfl⟩ := hname hmoved
    exact ⟨name, reason, hfits _ _ _ ht hfit, rfl⟩

/-- The request that moves the device decides what the errors from then on say. -/
theorem ensures_move {place home : Place} {index : UInt32} {name : String} {operation : Operation} :
    Plan.Ensures script
      (.ask place (.set index none [.name name, .netns home]) Reply.carriedOut
        (Socket.rejected operation) (restorePlan name))
      (Classifies fun outgoing _ => outgoing = name) := by
  intro t res hc
  cases hc with
  | granted hreply hc =>
    intro e he
    obtain ⟨reason, rfl⟩ := ensures_restorePlan name _ _ hc e he
    refine ⟨iff_of_true rfl ?_, fun _ => ⟨name, reason, rfl, rfl⟩⟩
    simp [Exchange.moves, hreply]
  | refused hreply _ =>
    rintro _ ⟨⟩
    refine ⟨iff_of_false (by simp [Socket.rejected, Error.deviceMoved]) ?_, nofun⟩
    simp [Exchange.moves, hreply]

/-- An exchange that neither moves a link nor gives one. -/
def Approaching (x : Exchange) : Prop := x.moves = false ∧ x.found? = none

/-- **What the error of a detach says**, in view of what was asked. -/
theorem ensures_detachPlan (script : Kernel) (source : NamespaceRef) (device : DeviceName)
    (restore : Option DeviceName) :
    Plan.Ensures script (detachPlan source device restore)
      (Classifies fun name t => ∃ link, t.findSome? Exchange.found? = some link ∧
        name = nameOnHost link device restore) := by
  have happroach : Plan.Passes Approaching (Classifies fun name t =>
      ∃ link, t.findSome? Exchange.found? = some link ∧
        name = nameOnHost link device restore) := by
    refine passes_classifies (fun x hx => hx.1) ?_
    rintro name t u ht ⟨link, hlink, hname⟩
    refine ⟨link, ?_, hname⟩
    rw [List.findSome?_append, List.findSome?_eq_none_iff.2 fun x hx => (ht x hx).2]
    exact hlink
  refine happroach.openFile fun place => happroach.enter (fun _ => ⟨rfl, rfl⟩) ?_
  refine happroach.openSocket fun t res hc => ?_
  cases hc with
  | @notFound _ _ _ lookUp hfails =>
    refine happroach.error _ _ (Reply.deviceMoved_fruitless _ _) fun x hx => ?_
    exact ⟨lookUp.moves_exchanges place _ x hx,
      Exchange.found?_eq_none (hfails.finds place _ x hx)⟩
  | @found _ _ _ u _ lookUp link hlawful hlink hc =>
    -- from here on the link is known, and with it the name on the host
    have hlater : Plan.Passes (·.moves = false)
        (Classifies fun name _ => name = nameOnHost link device restore) :=
      passes_classifies (fun _ h => h) fun _ _ _ _ h => h
    have hrest := hlater.ask (fun _ => rfl) (fun _ => rfl)
      (hlater.openFile fun home => ensures_move) _ _ hc
    have hwhole := hlater.step _ _ _ (lookUp.moves_exchanges place device.text) hrest
    intro e he
    obtain ⟨hiff, hname⟩ := hwhole e he
    refine ⟨hiff, fun hmoved => ?_⟩
    obtain ⟨_, reason, rfl, rfl⟩ := hname hmoved
    refine ⟨_, reason, ⟨link, ?_, rfl⟩, rfl⟩
    rw [List.findSome?_append, hlawful.findSome?_exchanges place device.text hlink]
    rfl

/-! ## Where a device is moved -/

/-- An exchange that moves no link to another namespace than that of the host. -/
def TargetsHost (x : Exchange) : Prop := ∀ target ∈ x.targets, target = .host

theorem passes_targetsHost :
    Plan.Passes TargetsHost fun (_ : Except Error Unit) t => ∀ x ∈ t, TargetsHost x where
  error _ _ _ ht := ht
  step _ _ _ ht hu := List.forall_mem_append.2 ⟨ht, hu⟩

/-- Where the file of the own namespace is that of the host, the device is moved there. -/
theorem targetsHost_detachPlan (source : NamespaceRef) (device : DeviceName)
    (restore : Option DeviceName) {path : List String}
    (hhost : script.files.openFile "/proc/self/ns/net" = .ok (path, .hostNamespace)) :
    Plan.Ensures script (detachPlan source device restore) fun _ t => ∀ x ∈ t, TargetsHost x := by
  have hpasses := passes_targetsHost
  refine hpasses.openFile fun place => hpasses.enter (fun _ => nofun) (hpasses.openSocket ?_)
  refine hpasses.find (fun _ => nofun) fun link => ?_
  refine hpasses.ask (fun _ => nofun) (fun _ => rfl) fun t res hc => ?_
  cases hc with
  | noFile _ => nofun
  | file hfile hc =>
    obtain rfl := Except.ok.inj (hfile.symm.trans hhost)
    refine hc.forall_mem ⟨fun reply => ?_, fun _ => nofun, fun restored => ?_⟩
    · exact List.forall_mem_singleton.2 rfl
    · exact ⟨fun _ => nofun, trivial⟩

/-- **The protocol of a detach.** What a detach asks is a course of its plan, and its result is the
one of the course. Its error says that the device moved exactly if a request to move it was carried
out; then it is that the device could not be brought up on the host, under the name that it got from
the first link that was found. If the file of the own namespace is that of the host, the device is
moved to the host and nowhere else. -/
theorem detach_protocol (source : NamespaceRef) (device : DeviceName) (restore : Option DeviceName)
    (k : Kernel) :
    let o := k.perform (detach source device restore)
    ∃ t, o.2.trace = k.trace ++ t ∧ (detachPlan source device restore).Course k t o.1 ∧
      (∀ path, k.files.openFile "/proc/self/ns/net" = .ok (path, .hostNamespace) →
        ∀ x ∈ t, ∀ target ∈ x.targets, target = .host) ∧
      ∀ e, o.1 = .error e →
        (e.deviceMoved = true ↔ t.any Exchange.moves = true) ∧
        (e.deviceMoved = true → ∃ link reason, t.findSome? Exchange.found? = some link ∧
          e = .enableFailed (nameOnHost link device restore) "host" reason) := by
  intro o
  obtain ⟨t, ht, hcourse⟩ := follows_detach k source device restore k rfl rfl
  refine ⟨t, ht, hcourse, fun path hhost => ?_, fun e he => ?_⟩
  · exact targetsHost_detachPlan source device restore hhost t o.1 hcourse
  · obtain ⟨hiff, hname⟩ := ensures_detachPlan k source device restore t o.1 hcourse e he
    refine ⟨hiff, fun hmoved => ?_⟩
    obtain ⟨_, reason, ⟨link, hfound, rfl⟩, rfl⟩ := hname hmoved
    exact ⟨link, reason, hfound, rfl⟩

end Move

end NetRelocation
