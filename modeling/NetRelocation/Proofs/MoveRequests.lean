import NetRelocation.Proofs.OutgoingNames

/-!
# What a request to move a device carries

A configuration that is to be applied goes into the request that moves the device, behind the name
and the target.

**Theorem (`request_carries_configuration`).** A configuration adds at most one attribute of each
kind, and only those that it asks for, and what it adds is read back. The name is not among the
attributes that are added: it stands in the request in any case, as the configured one or as the one
the device has. So a whole request is read back as well, as what the configuration comes to for the
device (`LinkConfig.effective`).

That an attach makes no other request to move is read off its plan (`moveRequests_attachPlan`).
-/

namespace NetRelocation

open Kernel

namespace LinkConfig

/-! ## Whole requests -/

/-- The attributes of the request that moves a device: its name and its target, and behind them the
configuration. -/
def request (config : LinkConfig) (device : DeviceName) (target : Place) : List LinkAttribute :=
  [.name (config.name.getD device).text, .netns target] ++ config.attributes

/-- What a configuration comes to for a device. -/
def effective (config : LinkConfig) (device : DeviceName) : LinkConfig :=
  { config.normalized with name := some (config.name.getD device) }

/-- **A request is read back** as what the configuration comes to. -/
theorem ofAttributes_request (config : LinkConfig) (device : DeviceName) (target : Place) :
    ofAttributes (config.request device target) = config.effective device := by
  have hname : ofAttributes (config.request device target) =
      { ofAttributes config.attributes with
        name := (DeviceName.parse (config.name.getD device).text).toOption } := rfl
  rw [hname, ofAttributes_attributes, DeviceName.parse_text]
  rfl

theorem request_eq_iff {config other : LinkConfig} {device : DeviceName} {target : Place} :
    config.request device target = other.request device target ↔
      config.effective device = other.effective device := by
  constructor
  · intro h
    rw [← ofAttributes_request config device target, h, ofAttributes_request]
  · intro h
    have hname : config.name.getD device = other.name.getD device :=
      Option.some.inj (congrArg LinkConfig.name h)
    have hrest : config.normalized = { other.normalized with name := config.name } :=
      congrArg (fun c : LinkConfig => { c with name := config.name }) h
    rw [request, request, hname, attributes_eq_iff.2 hrest]

end LinkConfig

/-! ## Requests to move -/

/-- The attributes of a request that changes more than a flag. -/
def Exchange.moveRequest? : Exchange → Option (List LinkAttribute)
  | .asked _ (.set _ none attributes) _ => some attributes
  | _ => none

namespace Move

/-- An exchange that makes no other request to move than with these attributes. -/
def RequestsOnly (attributes : List LinkAttribute) (x : Exchange) : Prop :=
  ∀ a ∈ x.moveRequest?, a = attributes

variable {α : Type} {script : Kernel}

theorem passes_moveRequests {p : List LinkAttribute → Prop} :
    Plan.Passes (fun x => x.moveRequest? = none) fun (_ : Except Error α) t =>
      ∀ attributes ∈ t.filterMap Exchange.moveRequest?, p attributes := by
  constructor
  · intro e t _ ht
    rw [List.filterMap_eq_nil_iff.2 ht]
    nofun
  · intro res t u ht hu
    rwa [List.filterMap_append, List.filterMap_eq_nil_iff.2 ht]

theorem requestsOnly_additions {attributes : List LinkAttribute} {place : Place}
    {index : UInt32} {target : NamespaceRef} {next : Plan α}
    (h : next.Respects (RequestsOnly attributes)) (addresses : List Network) :
    (additions place index target addresses next).Respects (RequestsOnly attributes) := by
  induction addresses with
  | nil => exact h
  | cons address addresses ih => exact ⟨fun _ => nofun, ih⟩

/-- **The request of an attach.** It gives the name and the target that was opened, and carries the
configuration behind them. -/
theorem moveRequests_attachPlan (device : DeviceName) (target : NamespaceRef)
    (config : LinkConfig) (addresses : List Network) :
    Plan.Ensures script (attachPlan device target config addresses) fun _ t =>
      ∀ attributes ∈ t.filterMap Exchange.moveRequest?,
        ∃ found, script.files.openFile target.file = .ok found ∧
          attributes = config.request device (placeOf found) := by
  refine passes_moveRequests.openSocket (passes_moveRequests.find (fun _ => rfl) fun link => ?_)
  refine passes_moveRequests.ask (fun _ => rfl) (fun _ => rfl) ?_
  intro t res hc attributes hmem
  cases hc with
  | noFile _ => cases hmem
  | @file _ _ found _ _ hfile hc =>
    have hrequests : ∀ x ∈ t, RequestsOnly (config.request device (placeOf found)) x := by
      refine hc.forall_mem ⟨fun reply a ha => ?_, fun _ => nofun, fun _ => nofun, fun moved => ?_⟩
      · rw [LinkConfig.request, config.attributes_eq_parts]
        exact (Option.some.inj ha).symm
      · refine requestsOnly_additions ?_ addresses
        exact ⟨fun _ => nofun, trivial⟩
    obtain ⟨x, hx, hrequest⟩ := List.mem_filterMap.1 hmem
    exact ⟨found, hfile, hrequests x hx attributes hrequest⟩

end Move

/-- **What a request carries.** A configuration adds each kind of attribute at most once, and only
what it asks for. What it adds is read back as the configuration without its name, where zero and an
empty address count as nothing; so two configurations add the same exactly if they agree in what
counts. With the name, which stands before, a whole request is read back as what the configuration
comes to for the device, and this decides the request. An attach makes no other request to move. -/
theorem LinkConfig.request_carries_configuration (config : LinkConfig) :
    (config.attributes.map LinkAttribute.number).Sublist [4, 1, 41, 58, 63, 64] ∧
      (∀ a, a ∈ config.attributes ↔ config.Asks a) ∧
      ofAttributes config.attributes = { config.normalized with name := none } ∧
      (∀ other : LinkConfig, config.attributes = other.attributes ↔
        config.normalized = { other.normalized with name := config.name }) ∧
      ∀ device,
        (∀ target, ofAttributes (config.request device target) = config.effective device) ∧
        (∀ (other : LinkConfig) target,
          config.request device target = other.request device target ↔
            config.effective device = other.effective device) ∧
        ∀ ns addresses k,
          ∃ t, (Kernel.perform k (Move.attach device ns config addresses)).2.trace = k.trace ++ t ∧
            ∀ attributes ∈ t.filterMap Exchange.moveRequest?,
              ∃ found, k.files.openFile ns.file = .ok found ∧
                attributes = config.request device (placeOf found) := by
  refine ⟨config.numbers_sublist, fun _ => mem_attributes_iff, ofAttributes_attributes config,
    fun _ => attributes_eq_iff, fun device => ⟨ofAttributes_request config device,
    fun _ _ => request_eq_iff, fun ns addresses k => ?_⟩⟩
  obtain ⟨t, ht, hcourse⟩ := Move.follows_attach k device ns config addresses k rfl rfl
  exact ⟨t, ht, Move.moveRequests_attachPlan device ns config addresses t _ hcourse⟩

end NetRelocation
