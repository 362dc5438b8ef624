import Mathlib.Tactic.NormNum
import NetRelocation.Kernel.Socket

/-!
# Configurations as attributes

A configuration is asked for by attributes: one for each property that is given and counts. Zero and
an empty address do not count (`LinkConfig.normalized`).

* The attributes are those of the properties, in a fixed order (`LinkConfig.attributes_eq_parts`),
  and no others (`LinkConfig.mem_attributes_iff`).
* Each kind of attribute is there at most once (`LinkConfig.numbers_sublist`).
* Reading them back gives the configuration (`LinkConfig.ofAttributes_attributes`), so two
  configurations have the same attributes exactly if they agree on what counts
  (`LinkConfig.attributes_eq_iff`).

Each property is one optional value and becomes a list of at most one attribute
(`LinkConfig.parts`). A reader that looks for one kind passes over the lists of all others.
-/

namespace NetRelocation

open Kernel

/-! ## Numbers in octets -/

/-- The number of thirty-two bits in octets of this machine. -/
def word? (bytes : List UInt8) : Option UInt32 :=
  if bytes.length = 4 then some (UInt32.ofNat (Form.numberOf bytes)) else none

theorem LinkConfig.numberOf_littleEndian (n : UInt32) :
    Form.numberOf (littleEndian n) = n.toNat := by
  have hn := n.toNat_lt
  simp only [Form.numberOf, littleEndian, List.range, List.range.loop, List.map_cons, List.map_nil,
    List.foldr_cons, List.foldr_nil, UInt8.toNat_ofNat']
  norm_num
  omega

theorem word?_littleEndian (n : UInt32) : word? (LinkConfig.littleEndian n) = some n := by
  have hlength : (LinkConfig.littleEndian n).length = 4 := by simp [LinkConfig.littleEndian]
  rw [word?, if_pos hlength, LinkConfig.numberOf_littleEndian]
  simp

/-! ## Kinds of attributes -/

/-- The number by which the kernel knows the kind of an attribute. -/
def LinkAttribute.number : LinkAttribute → Nat
  | .name _ => nameNumber
  | .aliasName _ => aliasNumber
  | .mtu _ => mtuNumber
  | .address _ => addressNumber
  | .info _ => infoNumber
  | .netns _ => 28
  | .other number _ => number

/-- The first limit of a kind. -/
def Link.limit? (number : Nat) (link : Link) : Option UInt32 :=
  link.attributes.findSome? fun
    | .other kind bytes => if kind = number then word? bytes else none
    | _ => none

namespace LinkConfig

/-- The configuration that attributes stand for, as a link with these attributes is read. -/
def ofAttributes (attributes : List LinkAttribute) : LinkConfig :=
  let link : Link := ⟨0, [], attributes⟩
  { name := link.name?.bind fun s => (DeviceName.parse s).toOption
    mtu := link.mtu?
    hardwareAddr := link.hardwareAddr?
    gsoMaxSize := link.limit? 41
    groMaxSize := link.limit? 58
    gsoIPv4MaxSize := link.limit? 63
    groIPv4MaxSize := link.limit? 64 }

/-- A configuration in which zero and an empty address count as nothing asked. -/
def normalized (config : LinkConfig) : LinkConfig :=
  { config with
    mtu := config.mtu.filter (0 < ·)
    hardwareAddr := config.hardwareAddr.filter (·.bytes ≠ [])
    gsoMaxSize := config.gsoMaxSize.filter (0 < ·)
    groMaxSize := config.groMaxSize.filter (0 < ·)
    gsoIPv4MaxSize := config.gsoIPv4MaxSize.filter (0 < ·)
    groIPv4MaxSize := config.groIPv4MaxSize.filter (0 < ·) }

inductive Asks (config : LinkConfig) : LinkAttribute → Prop
  | mtu {n} (h : config.mtu = some n) (hn : 0 < n) : config.Asks (.mtu n)
  | address {addr} (h : config.hardwareAddr = some addr) (hne : addr.bytes ≠ []) :
      config.Asks (.address addr.bytes)
  | gso {n} (h : config.gsoMaxSize = some n) (hn : 0 < n) : config.Asks (.other 41 (littleEndian n))
  | gro {n} (h : config.groMaxSize = some n) (hn : 0 < n) : config.Asks (.other 58 (littleEndian n))
  | gsoIPv4 {n} (h : config.gsoIPv4MaxSize = some n) (hn : 0 < n) :
      config.Asks (.other 63 (littleEndian n))
  | groIPv4 {n} (h : config.groIPv4MaxSize = some n) (hn : 0 < n) :
      config.Asks (.other 64 (littleEndian n))

/-! ## One property after another -/

/-- The attributes for all that is given, zero or not. -/
def parts (config : LinkConfig) : List LinkAttribute :=
  config.mtu.toList.map LinkAttribute.mtu ++
  config.hardwareAddr.toList.map (fun addr => LinkAttribute.address addr.bytes) ++
  config.gsoMaxSize.toList.map (fun n => LinkAttribute.other 41 (littleEndian n)) ++
  config.groMaxSize.toList.map (fun n => LinkAttribute.other 58 (littleEndian n)) ++
  config.gsoIPv4MaxSize.toList.map (fun n => LinkAttribute.other 63 (littleEndian n)) ++
  config.groIPv4MaxSize.toList.map (fun n => LinkAttribute.other 64 (littleEndian n))

theorem positive_eq (value : Option UInt32) (mk : UInt32 → LinkAttribute) :
    positive value mk = (value.filter (0 < ·)).toList.map mk := by
  cases value with
  | none => rfl
  | some n => by_cases hn : 0 < n <;> simp [positive, Option.filter, hn]

theorem givenAddress_eq (value : Option HardwareAddr) :
    givenAddress value = (value.filter (·.bytes ≠ [])).toList.map (.address ·.bytes) := by
  cases value with
  | none => rfl
  | some addr => by_cases hne : addr.bytes = [] <;> simp [givenAddress, Option.filter, hne]

/-- **What is added** is what is given and counts. -/
theorem attributes_eq_parts (config : LinkConfig) :
    config.attributes = config.normalized.parts := by
  simp only [attributes, limit, positive_eq, givenAddress_eq]
  rfl

theorem mem_attributes_iff {config : LinkConfig} {a : LinkAttribute} :
    a ∈ config.attributes ↔ config.Asks a := by
  simp only [attributes_eq_parts, parts, normalized, List.mem_append, List.mem_map,
    Option.mem_toList, Option.filter_eq_some_iff, decide_eq_true_eq]
  constructor
  · rintro (((((⟨n, ⟨h, hn⟩, rfl⟩ | ⟨addr, ⟨h, hne⟩, rfl⟩) | ⟨n, ⟨h, hn⟩, rfl⟩) |
      ⟨n, ⟨h, hn⟩, rfl⟩) | ⟨n, ⟨h, hn⟩, rfl⟩) | ⟨n, ⟨h, hn⟩, rfl⟩)
    · exact .mtu h hn
    · exact .address h hne
    · exact .gso h hn
    · exact .gro h hn
    · exact .gsoIPv4 h hn
    · exact .groIPv4 h hn
  · rintro (⟨h, hn⟩ | ⟨h, hne⟩ | ⟨h, hn⟩ | ⟨h, hn⟩ | ⟨h, hn⟩ | ⟨h, hn⟩)
    · simp [h, hn]
    · simp [h, hne]
    · simp [h, hn]
    · simp [h, hn]
    · simp [h, hn]
    · simp [h, hn]

theorem map_number_sublist {α : Type} (value : Option α) {mk : α → LinkAttribute} {number : Nat}
    (h : ∀ a, (mk a).number = number) :
    ((value.toList.map mk).map LinkAttribute.number).Sublist [number] := by
  cases value with
  | none => exact List.nil_sublist _
  | some a => simp [h]

/-- **Each kind is added at most once**, and no other. -/
theorem numbers_sublist (config : LinkConfig) :
    (config.attributes.map LinkAttribute.number).Sublist [4, 1, 41, 58, 63, 64] := by
  have hkinds : [4, 1, 41, 58, 63, 64] = [4] ++ [1] ++ [41] ++ [58] ++ [63] ++ [64] := rfl
  rw [attributes_eq_parts, parts, hkinds]
  simp only [List.map_append]
  refine .append (.append (.append (.append (.append ?_ ?_) ?_) ?_) ?_) ?_
  all_goals exact map_number_sublist _ fun _ => rfl

/-! ## Reading back -/

theorem findSome?_toList_map {α β γ : Type} (o : Option α) (mk : α → β) (f : β → Option γ) :
    (o.toList.map mk).findSome? f = o.bind fun a => f (mk a) := by
  cases o <;> simp

theorem bind_address (config : LinkConfig) :
    (config.normalized.hardwareAddr.bind fun addr =>
      if addr.bytes = [] then none else some ⟨addr.bytes⟩) = config.normalized.hardwareAddr := by
  cases haddr : config.normalized.hardwareAddr with
  | none => rfl
  | some addr =>
    have hne : addr.bytes ≠ [] := by simpa using (Option.filter_eq_some_iff.1 haddr).2
    exact if_neg hne

/-- **What is added is read back.** -/
theorem ofAttributes_attributes (config : LinkConfig) :
    ofAttributes config.attributes = { config.normalized with name := none } := by
  rw [attributes_eq_parts]
  simp only [ofAttributes, Link.name?, Link.mtu?, Link.hardwareAddr?, Link.limit?, parts,
    List.findSome?_append, findSome?_toList_map, word?_littleEndian, bind_address]
  simp

/-- Two configurations add the same attributes if they agree on what counts. -/
theorem attributes_eq_iff {config other : LinkConfig} :
    config.attributes = other.attributes ↔
      config.normalized = { other.normalized with name := config.name } := by
  constructor
  · intro h
    have hread := congrArg ofAttributes h
    rw [ofAttributes_attributes, ofAttributes_attributes] at hread
    exact congrArg (fun c : LinkConfig => { c with name := config.name }) hread
  · intro h
    rw [attributes_eq_parts, attributes_eq_parts, h]
    rfl

end LinkConfig

end NetRelocation
