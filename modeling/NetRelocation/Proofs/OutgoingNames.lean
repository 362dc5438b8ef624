import NetRelocation.Proofs.LeftDown

/-!
# The names that links get

A link gets its name in the request that moves it. On the way in, the name is the configured one or
the one on the host, and both are names of devices. On the way out, it is the wanted name, else the
first alias of the link that is not empty, else the name inside. An alias is free text: whoever set
it on the link was not held to the rules for names.

**Theorem (`outgoing_names_legal_or_alias`).** Every name in a request of an attach is the one name
that the device is to have, which is legal. Every name in a request of a detach is the one that the
link which was found is to have on the host (`nameOnHost`). It is legal, except that it may be an
alias where no name is wanted: `alias_with_blank_is_sent` is an alias that is no name and is sent as
it is.

Both directions have one departure in them, in which a link is found, taken down and moved. The name
comes up in the request of the move, after the look-up has fixed the link (`ensures_namesFirst`).
That no other request gives a name is read off the plans (`Plan.Respects`), by induction on their
courses (`Plan.Course.forall_mem`).
-/

namespace NetRelocation

open Kernel

/-! ## Names in requests -/

/-- A text that can be read as a name. -/
def DeviceName.Legal (s : String) : Prop := ∃ name, DeviceName.parse s = .ok name

theorem DeviceName.legal_text (name : DeviceName) : Legal name.text := ⟨name, name.parse_text⟩

/-- A legal name has 1 to 15 bytes, is neither one nor two dots, and has allowed characters only. -/
theorem DeviceName.legal_iff {s : String} :
    Legal s ↔ (s ≠ "" ∧ s.utf8ByteSize ≤ 15) ∧ (s ≠ "." ∧ s ≠ "..") ∧
      ∀ c ∈ s.toList, allowedInName c := by
  constructor
  · rintro ⟨name, hname⟩
    unfold parse at hname
    split at hname
    · rename_i hsize
      split at hname
      · rename_i hreserved
        split at hname
        · rename_i hclean
          exact ⟨hsize, hreserved, hclean⟩
        · cases hname
      · cases hname
    · cases hname
  · intro h
    exact legal_text ⟨s, h.1.1, h.1.2, h.2.1, h.2.2⟩

def LinkAttribute.name? : LinkAttribute → Option String
  | .name s => some s
  | _ => none

/-- The names that a request gives to a link. -/
def Exchange.names : Exchange → List String
  | .asked _ (.set _ _ attributes) _ => attributes.filterMap (·.name?)
  | _ => []

namespace LinkConfig

theorem name?_map {α : Type} {value : Option α} {mk : α → LinkAttribute}
    (hmk : ∀ a, (mk a).name? = none) : ∀ a ∈ value.toList.map mk, a.name? = none :=
  List.forall_mem_map.2 fun a _ => hmk a

theorem name?_parts (config : LinkConfig) : ∀ a ∈ config.parts, a.name? = none := by
  simp only [parts, List.forall_mem_append]
  refine ⟨⟨⟨⟨⟨?_, ?_⟩, ?_⟩, ?_⟩, ?_⟩, ?_⟩
  all_goals exact name?_map fun _ => rfl

end LinkConfig

/-- A request to move a link gives it one name. -/
theorem Exchange.names_move {place home : Place} {index : UInt32} {name : String}
    {more : List LinkAttribute} {reply : Option Reply} (h : ∀ a ∈ more, a.name? = none) :
    (Exchange.asked place (.set index none (.name name :: .netns home :: more)) reply).names =
      [name] := by
  simp only [names, List.filterMap_cons, List.filterMap_eq_nil_iff.2 h]
  rfl

namespace Move

/-! ## Departures -/

/-- An exchange that gives a link no other name. -/
def GivesOnly (name : String) (x : Exchange) : Prop := ∀ s ∈ x.names, s = name

/-- Every name that was given is the one for the first link that was found. -/
def NamesFirst (outgoing : Link → String) (t : List Exchange) : Prop :=
  ∀ x ∈ t, ∀ s ∈ x.names, ∃ link, t.findSome? Exchange.found? = some link ∧ s = outgoing link

variable {α : Type} {script : Kernel} {outgoing : Link → String}

theorem passes_namesFirst :
    Plan.Passes Exchange.Enters fun (_ : Except Error α) t => NamesFirst outgoing t := by
  have hnames {t : List Exchange} (ht : ∀ x ∈ t, x.Enters) : ∀ x ∈ t, x.names = [] := by
    intro x hx
    obtain ⟨place, errno, rfl⟩ := ht x hx
    rfl
  constructor
  · intro e t _ ht x hx s hs
    rw [hnames ht x hx] at hs
    cases hs
  · intro res t u ht hu x hx s hs
    rcases List.mem_append.1 hx with hx | hx
    · rw [hnames ht x hx] at hs
      cases hs
    · obtain ⟨link, hlink, hname⟩ := hu x hx s hs
      refine ⟨link, ?_, hname⟩
      rw [List.findSome?_append,
        List.findSome?_eq_none_iff.2 (Exchange.eq_none_of_enters (fun _ _ => rfl) ht)]
      exact hlink

/-- **A departure gives the link that it found its name**, and no other, unless what comes after it
does. -/
theorem ensures_namesFirst {place : Place} {name path : String} {operation : Operation}
    {more : List LinkAttribute} {rest : Link → Place → Plan α} (hmore : ∀ a ∈ more, a.name? = none)
    (hrest : ∀ link target, (rest link target).Respects (GivesOnly (outgoing link))) :
    Plan.Ensures script (departure place name path operation outgoing more rest)
      fun _ t => NamesFirst outgoing t := by
  intro t res hc
  cases hc with
  | @notFound _ _ _ lookUp _ =>
    intro x hx s hs
    rw [lookUp.forall_exchanges (p := (·.names = [])) (fun _ => rfl) x hx] at hs
    cases hs
  | @found _ _ _ u _ lookUp link hlawful hlink hc =>
    have hgiven : ∀ x ∈ u, GivesOnly (outgoing link) x := by
      refine hc.forall_mem ⟨fun _ => nofun, fun target => ⟨fun reply => ?_, hrest link target⟩⟩
      intro s hs
      rw [Exchange.names_move hmore] at hs
      exact List.mem_singleton.1 hs
    have hall : ∀ x ∈ lookUp.exchanges place name ++ u, GivesOnly (outgoing link) x :=
      List.forall_mem_append.2 ⟨lookUp.forall_exchanges fun _ => nofun, hgiven⟩
    intro x hx s hs
    refine ⟨link, ?_, hall x hx s hs⟩
    rw [List.findSome?_append, hlawful.findSome?_exchanges place name hlink]
    rfl

/-! ## Both directions -/

theorem respects_additions {name : String} {place : Place} {index : UInt32} {target : NamespaceRef}
    {next : Plan α} (h : next.Respects (GivesOnly name)) (addresses : List Network) :
    (additions place index target addresses next).Respects (GivesOnly name) := by
  induction addresses with
  | nil => exact h
  | cons address addresses ih => exact ⟨fun _ => nofun, ih⟩

theorem namesFirst_attachPlan (device : DeviceName) (target : NamespaceRef) (config : LinkConfig)
    (addresses : List Network) :
    Plan.Ensures script (attachPlan device target config addresses)
      fun _ t => NamesFirst (fun _ => (config.name.getD device).text) t := by
  refine passes_namesFirst.openSocket (ensures_namesFirst config.normalized.name?_parts ?_)
  intro link place
  refine ⟨fun _ => nofun, fun _ => nofun, fun moved => respects_additions ?_ addresses⟩
  exact ⟨fun _ => nofun, trivial⟩

theorem namesFirst_detachPlan (source : NamespaceRef) (device : DeviceName)
    (restore : Option DeviceName) :
    Plan.Ensures script (detachPlan source device restore)
      fun _ t => NamesFirst (nameOnHost · device restore) t := by
  refine passes_namesFirst.openFile fun place => ?_
  refine passes_namesFirst.enter (fun errno => ⟨_, errno, rfl⟩) (passes_namesFirst.openSocket ?_)
  refine ensures_namesFirst (fun a ha => absurd ha List.not_mem_nil) fun link home => ?_
  exact ⟨fun _ => nofun, fun restored => ⟨fun _ => nofun, trivial⟩⟩

/-- A name on the host is legal, except that it may be an alias where no name is wanted. -/
theorem legal_nameOnHost (link : Link) (device : DeviceName) (restore : Option DeviceName) :
    DeviceName.Legal (nameOnHost link device restore) ∨
      restore = none ∧
        link.aliases.find? (· ≠ "") = some (nameOnHost link device restore) := by
  cases restore with
  | some wanted => exact .inl wanted.legal_text
  | none =>
    cases halias : link.aliases.find? (· ≠ "") with
    | some other => exact .inr ⟨rfl, by simp only [nameOnHost, halias]⟩
    | none =>
      simp only [nameOnHost, halias]
      exact .inl device.legal_text

/-- **The names in requests.** An attach gives the device the one name that it is to have, which is
legal. A detach gives it the name on the host of the link that was found, which is legal unless it
is an alias of the link and no name is wanted. -/
theorem outgoing_names_legal_or_alias (device : DeviceName) (ns : NamespaceRef)
    (config : LinkConfig) (addresses : List Network) (restore : Option DeviceName) (k : Kernel) :
    let attached := k.perform (attach device ns config addresses)
    let detached := k.perform (detach ns device restore)
    (∃ t, attached.2.trace = k.trace ++ t ∧
      ∀ x ∈ t, ∀ s ∈ x.names, s = (config.name.getD device).text ∧ DeviceName.Legal s) ∧
    ∃ t, detached.2.trace = k.trace ++ t ∧
      ∀ x ∈ t, ∀ s ∈ x.names, ∃ link, t.findSome? Exchange.found? = some link ∧
        s = nameOnHost link device restore ∧
        (DeviceName.Legal s ∨ restore = none ∧ link.aliases.find? (· ≠ "") = some s) := by
  intro attached detached
  constructor
  · obtain ⟨t, ht, hcourse⟩ := follows_attach k device ns config addresses k rfl rfl
    refine ⟨t, ht, fun x hx s hs => ?_⟩
    obtain ⟨-, -, rfl⟩ := namesFirst_attachPlan device ns config addresses t _ hcourse x hx s hs
    exact ⟨rfl, DeviceName.legal_text _⟩
  · obtain ⟨t, ht, hcourse⟩ := follows_detach k ns device restore k rfl rfl
    refine ⟨t, ht, fun x hx s hs => ?_⟩
    obtain ⟨link, hlink, rfl⟩ := namesFirst_detachPlan ns device restore t _ hcourse x hx s hs
    exact ⟨link, hlink, rfl, legal_nameOnHost link device restore⟩

/-- A kernel that finds `net1` in a namespace, with an alias that has a blank, and refuses to move
it. -/
def aliasKernel : Kernel :=
  { quiet ((FileTree.system.addPath "ns" .directory).addPath "ns/w1" .namespaceFile) with
    replies :=
      [.links [⟨7, [.up], [.name "net1", .aliasName "uplink 0"]⟩] none, .done, .refused 22] }

/-- An alias that is no name is sent as it is. -/
theorem alias_with_blank_is_sent :
    ∃ device : DeviceName,
      let o := aliasKernel.perform (detach (.path "ns/w1") device none)
      device.text = "net1" ∧ (∃ x ∈ o.2.trace, "uplink 0" ∈ x.names) ∧
      ¬DeviceName.Legal "uplink 0" := by
  refine ⟨⟨"net1", by decide, by decide, by decide, by decide⟩, rfl, ?_, ?_⟩
  · decide +kernel
  · rw [DeviceName.legal_iff]
    decide

end Move

end NetRelocation
