import Mathlib.Data.List.Forall2
import NetRelocation.Device.Prepared

/-!
# What preparing makes of a grant

Preparing looks at the attributes of each granted device and keeps its name. The devices of an
artifact are therefore the granted ones, in the order of the grant (`hostNames_ofAllocation`).

A device can be prepared exactly if each of its attributes can be read, as far as it has them
(`exists_ofAllocation_iff`). A grant can be prepared exactly if there is a device in it and all can
be; otherwise it fails as its first device does that cannot (`settles_ofAllocation`).
-/

namespace NetRelocation

theorem bind_eq_ok {ε α β : Type} {x : Except ε α} {f : α → Except ε β} {b : β} :
    x >>= f = .ok b ↔ ∃ a, x = .ok a ∧ f a = .ok b := by
  cases x with
  | error e => exact ⟨nofun, nofun⟩
  | ok a =>
    refine ⟨fun h => ⟨a, rfl, h⟩, ?_⟩
    rintro ⟨a', ha, h⟩
    cases ha
    exact h

/-- A grant that can be prepared has attributes that can all be read. -/
theorem eq_of_ofAllocation {device : AllocatedDevice} {prepared : PreparedDevice}
    (h : PreparedDevice.ofAllocation device = .ok prepared) :
    ∃ name mtu hardwareAddr addresses,
      PreparedDevice.readAttribute device Attribute.interfaceName device.name DeviceName.parse =
        .ok name ∧
      PreparedDevice.readAttribute device Attribute.mtu none
        (PreparedDevice.readMtu device.name) = .ok mtu ∧
      PreparedDevice.readAttribute device Attribute.hardwareAddress none
        (fun text => (HardwareAddr.parse (Text.trim text)).map some) = .ok hardwareAddr ∧
      PreparedDevice.readAttribute device Attribute.addresses [] parseAddressList =
        .ok addresses ∧
      prepared = ⟨device.name, { LinkConfig.empty with name := some name, mtu, hardwareAddr },
        addresses⟩ := by
  obtain ⟨name, hname, h⟩ := bind_eq_ok.1 h
  obtain ⟨mtu, hmtu, h⟩ := bind_eq_ok.1 h
  obtain ⟨hardwareAddr, hhardware, h⟩ := bind_eq_ok.1 h
  obtain ⟨addresses, haddresses, h⟩ := bind_eq_ok.1 h
  cases h
  exact ⟨name, mtu, hardwareAddr, addresses, hname, hmtu, hhardware, haddresses, rfl⟩

theorem hostName_ofAllocation {device : AllocatedDevice} {prepared : PreparedDevice}
    (h : PreparedDevice.ofAllocation device = .ok prepared) : prepared.hostName = device.name := by
  obtain ⟨name, mtu, hardwareAddr, addresses, -, -, -, -, rfl⟩ := eq_of_ofAllocation h
  rfl

namespace PreparedArtifact

/-- The entries of an artifact stand to the devices of the grant one to one. -/
theorem prepareAll_eq_ok_iff {devices : List AllocatedDevice} {prepared : List PreparedDevice} :
    prepareAll devices = .ok prepared ↔
      List.Forall₂ (fun d p => PreparedDevice.ofAllocation d = .ok p) devices prepared := by
  induction devices generalizing prepared with
  | nil => simp [prepareAll, eq_comm]
  | cons device devices ih =>
    rw [List.forall₂_cons_left_iff, prepareAll]
    cases PreparedDevice.ofAllocation device with
    | error cause => simp
    | ok first =>
      simp only [← ih, Except.ok.injEq]
      cases prepareAll devices with
      | error cause => simp [Except.map]
      | ok rest => simp [Except.map, eq_comm]

theorem ofAllocation_of_ne_nil {devices : List AllocatedDevice} (h : devices ≠ []) :
    ofAllocation devices = match prepareAll devices with
      | .ok prepared => .ok ⟨prepared⟩
      | .error cause => .error (.invalid cause) := by
  cases devices with
  | nil => exact absurd rfl h
  | cons device devices => rfl

theorem ofAllocation_eq_ok_iff {devices : List AllocatedDevice} {artifact : PreparedArtifact} :
    ofAllocation devices = .ok artifact ↔
      devices ≠ [] ∧ prepareAll devices = .ok artifact.devices := by
  obtain ⟨prepared⟩ := artifact
  by_cases h : devices = []
  · simp [h, ofAllocation]
  · rw [ofAllocation_of_ne_nil h]
    cases prepareAll devices <;> simp [h]

theorem entries_ofAllocation {devices : List AllocatedDevice} {artifact : PreparedArtifact}
    (h : ofAllocation devices = .ok artifact) :
    List.Forall₂ (fun d p => PreparedDevice.ofAllocation d = .ok p) devices artifact.devices :=
  prepareAll_eq_ok_iff.1 (ofAllocation_eq_ok_iff.1 h).2

end PreparedArtifact

theorem hostNames_ofAllocation {devices : List AllocatedDevice} {artifact : PreparedArtifact}
    (h : PreparedArtifact.ofAllocation devices = .ok artifact) :
    artifact.hostNames = devices.map (·.name) := by
  have hnames := (PreparedArtifact.entries_ofAllocation h).imp fun d p hp => hostName_ofAllocation hp
  rw [PreparedArtifact.hostNames, ← List.forall₂_eq_eq_eq, List.forall₂_map_left_iff,
    List.forall₂_map_right_iff]
  exact hnames.flip

/-! ## Grants that can be prepared -/

/-- A device whose attributes can be read, as far as it has them. -/
structure AllocatedDevice.Readable (device : AllocatedDevice) : Prop where
  name : ∀ text, device.attributes.get? "interface-name" = some text →
    ∃ name, DeviceName.parse text = .ok name
  mtu : ∀ text, device.attributes.get? "mtu" = some text →
    ∃ n, Text.Numeral.readUInt32 (Text.trim text).toList = .ok n
  hardwareAddr : ∀ text, device.attributes.get? "hardware-address" = some text →
    ∃ addr, HardwareAddr.parse (Text.trim text) = .ok addr
  addresses : ∀ text, device.attributes.get? "addresses" = some text →
    ∀ item ∈ addressItems text, ∃ net, Network.ofString? item = some net

theorem exists_parseAddresses_iff {items : List String} :
    (∃ nets, parseAddresses items = .ok nets) ↔
      ∀ item ∈ items, ∃ net, Network.ofString? item = some net := by
  induction items with
  | nil => simp [parseAddresses]
  | cons item items ih =>
    rw [List.forall_mem_cons, ← ih, parseAddresses]
    cases Network.ofString? item with
    | none => simp
    | some net => cases parseAddresses items <;> simp [Except.map]

namespace PreparedDevice

variable {device : AllocatedDevice}

theorem exists_readAttribute_iff {α : Type} {key : String} {absent : α}
    {read : String → Except Invalid α} :
    (∃ a, readAttribute device key absent read = .ok a) ↔
      ∀ text, device.attributes.get? key = some text → ∃ a, read text = .ok a := by
  unfold readAttribute
  cases device.attributes.get? key with
  | none => simp
  | some text => simp

theorem exists_readMtu_iff {name : DeviceName} {text : String} :
    (∃ mtu, readMtu name text = .ok mtu) ↔
      ∃ n, Text.Numeral.readUInt32 (Text.trim text).toList = .ok n := by
  unfold readMtu
  cases Text.Numeral.readUInt32 (Text.trim text).toList <;> simp

theorem exists_readHardwareAddr_iff {text : String} :
    (∃ addr, (HardwareAddr.parse (Text.trim text)).map some = .ok addr) ↔
      ∃ addr, HardwareAddr.parse (Text.trim text) = .ok addr := by
  cases HardwareAddr.parse (Text.trim text) <;> simp [Except.map]

/-- The attributes can be read one by one. -/
theorem readable_iff :
    device.Readable ↔
      (∃ name, readAttribute device Attribute.interfaceName device.name DeviceName.parse =
        .ok name) ∧
      (∃ mtu, readAttribute device Attribute.mtu none (readMtu device.name) = .ok mtu) ∧
      (∃ addr, readAttribute device Attribute.hardwareAddress none
        (fun text => (HardwareAddr.parse (Text.trim text)).map some) = .ok addr) ∧
      ∃ nets, readAttribute device Attribute.addresses [] parseAddressList = .ok nets := by
  simp only [exists_readAttribute_iff, exists_readMtu_iff, exists_readHardwareAddr_iff,
    parseAddressList, exists_parseAddresses_iff]
  exact ⟨fun h => ⟨h.name, h.mtu, h.hardwareAddr, h.addresses⟩,
    fun ⟨hname, hmtu, hhardware, haddresses⟩ => ⟨hname, hmtu, hhardware, haddresses⟩⟩

/-- **A device can be prepared** exactly if its attributes can be read. -/
theorem exists_ofAllocation_iff : (∃ p, ofAllocation device = .ok p) ↔ device.Readable := by
  rw [readable_iff]
  constructor
  · rintro ⟨p, h⟩
    obtain ⟨name, mtu, hardwareAddr, addresses, hname, hmtu, hhardware, haddresses, -⟩ :=
      eq_of_ofAllocation h
    exact ⟨⟨name, hname⟩, ⟨mtu, hmtu⟩, ⟨hardwareAddr, hhardware⟩, ⟨addresses, haddresses⟩⟩
  · rintro ⟨⟨name, hname⟩, ⟨mtu, hmtu⟩, ⟨hardwareAddr, hhardware⟩, ⟨addresses, haddresses⟩⟩
    rw [ofAllocation, hname, hmtu, hhardware, haddresses]
    exact ⟨_, rfl⟩

theorem exists_error_of_not_readable (h : ¬ device.Readable) :
    ∃ cause, ofAllocation device = .error cause := by
  cases hd : ofAllocation device with
  | error cause => exact ⟨cause, rfl⟩
  | ok p => exact absurd (exists_ofAllocation_iff.1 ⟨p, hd⟩) h

end PreparedDevice

namespace PreparedArtifact

theorem exists_prepareAll_iff {devices : List AllocatedDevice} :
    (∃ prepared, prepareAll devices = .ok prepared) ↔ ∀ d ∈ devices, d.Readable := by
  induction devices with
  | nil => simp [prepareAll]
  | cons device devices ih =>
    rw [List.forall_mem_cons, ← ih, ← PreparedDevice.exists_ofAllocation_iff, prepareAll]
    cases PreparedDevice.ofAllocation device with
    | error cause => simp
    | ok first => cases prepareAll devices <;> simp [Except.map]

/-- The first device that cannot be prepared decides. -/
theorem prepareAll_append_cons {before after : List AllocatedDevice} {device : AllocatedDevice}
    {cause : Invalid} (hbefore : ∀ d ∈ before, d.Readable)
    (hdevice : PreparedDevice.ofAllocation device = .error cause) :
    prepareAll (before ++ device :: after) = .error cause := by
  induction before with
  | nil => rw [List.nil_append, prepareAll, hdevice]
  | cons first before ih =>
    obtain ⟨hfirst, hbefore⟩ := List.forall_mem_cons.1 hbefore
    obtain ⟨p, hp⟩ := PreparedDevice.exists_ofAllocation_iff.2 hfirst
    rw [List.cons_append, prepareAll, hp, ih hbefore]
    rfl

/-- What preparing the devices of a grant comes to. -/
structure Settles (devices : List AllocatedDevice) (result : Except Error PreparedArtifact) :
    Prop where
  accepted : (∃ artifact, result = .ok artifact) ↔ devices ≠ [] ∧ ∀ d ∈ devices, d.Readable
  entries : ∀ artifact, result = .ok artifact →
    List.Forall₂ (fun d p => p.hostName = d.name ∧ PreparedDevice.ofAllocation d = .ok p) devices
      artifact.devices
  nothing : devices = [] → result = .error (.precondition .nothingGranted)
  first : ∀ before device after, devices = before ++ device :: after →
    (∀ d ∈ before, d.Readable) → ¬ device.Readable →
      ∃ cause, PreparedDevice.ofAllocation device = .error cause ∧ result = .error (.invalid cause)

/-- **A grant is prepared** as a whole, or fails as its first device that cannot be prepared. -/
theorem settles_ofAllocation (devices : List AllocatedDevice) :
    Settles devices (ofAllocation devices) := by
  refine ⟨?_, fun artifact h => ?_, ?_, ?_⟩
  · rw [← exists_prepareAll_iff]
    constructor
    · rintro ⟨artifact, h⟩
      obtain ⟨hne, hall⟩ := ofAllocation_eq_ok_iff.1 h
      exact ⟨hne, _, hall⟩
    · rintro ⟨hne, prepared, hall⟩
      exact ⟨⟨prepared⟩, ofAllocation_eq_ok_iff.2 ⟨hne, hall⟩⟩
  · exact (entries_ofAllocation h).imp fun d p hp => ⟨hostName_ofAllocation hp, hp⟩
  · rintro rfl
    rfl
  · rintro before device after rfl hbefore hdevice
    obtain ⟨cause, hcause⟩ := PreparedDevice.exists_error_of_not_readable hdevice
    refine ⟨cause, hcause, ?_⟩
    rw [ofAllocation_of_ne_nil (by simp), prepareAll_append_cons hbefore hcause]

end PreparedArtifact

end NetRelocation
