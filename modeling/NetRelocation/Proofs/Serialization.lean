import NetRelocation.Config
import NetRelocation.Device.Basic
import NetRelocation.Device.Prepared
import NetRelocation.Event
import NetRelocation.Proofs.AddressText
import NetRelocation.Proofs.Decoded
import NetRelocation.Proofs.Grants

/-!
# Serialized values are read back

**What is written** is the text of `Codec.encode`, or `DriverEvent.encode` for an event, whose
object names its kind in a member. **What reads it** is `Codec.decode`, or `DriverEvent.parse`.

**One fact per type.** `Codec.Carries` says of a codec and a value that the value is read back
wherever its text stands; it goes from the fields of a record to the record
(`Codec.carries_record`), so that each type takes one step over the types of its fields. The only
values that are not carried are hardware addresses without bytes or with too many: hence
`Readable`, for an address and for what holds one.

**Decoded values** are carried as well: a codec of a record is closed if the codecs of its fields
are (`Codec.closed_record`), and a hardware address that was read can be read
(`HardwareAddr.readable_of_parse`). The same holds of a prepared artifact, whose hardware addresses
were read from attributes.

**Theorem (`serialized_values_are_read_back`).** Decoding undoes encoding for every serialized
type.
-/

namespace NetRelocation

open Json (Codec Value)

/-! ## Identifiers and addresses -/

theorem WorkloadId.parse_text (w : WorkloadId) : parse w.text = .ok w := by
  obtain ⟨text, hnonempty, hshort, hclean⟩ := w
  rw [parse, dif_neg hnonempty, dif_pos hshort, dif_pos hclean]

theorem WorkloadId.carries (w : WorkloadId) (height : Nat) : codec.Carries w height :=
  (Codec.carries_parsed (by rw [parse_text]; rfl)).mono (Nat.zero_le height)

theorem DeviceName.carries (name : DeviceName) (height : Nat) : codec.Carries name height :=
  (Codec.carries_parsed (by rw [parse_text]; rfl)).mono (Nat.zero_le height)

theorem DeviceName.carries_optional (height : Nat) (o : Option DeviceName) :
    codec.option.Carries o height :=
  Codec.carries_option nofun fun name _ => name.carries height

theorem Network.carries (net : Network) (height : Nat) : codec.Carries net height :=
  (Codec.carries_parsed net.parse_display).mono (Nat.zero_le height)

namespace HardwareAddr

theorem carries {addr : HardwareAddr} (h : addr.Readable) (height : Nat) :
    codec.Carries addr height :=
  (Codec.carries_parsed (by rw [parse_display h]; rfl)).mono (Nat.zero_le height)

theorem closed : codec.Closed 0 := by
  refine Codec.closed_parsed fun s addr h => ?_
  cases hs : parse s with
  | error cause =>
    rw [hs] at h
    cases h
  | ok addr' =>
    rw [hs] at h
    cases h
    rw [parse_display (readable_of_parse hs)]
    rfl

end HardwareAddr

/-! ## Fields of several types -/

section

variable (height : Nat)

theorem carries_string (s : String) : Codec.string.Carries s height :=
  (Codec.carries_text _ s).mono (Nat.zero_le height)

theorem carries_optional_string (o : Option String) : Codec.string.option.Carries o height :=
  Codec.carries_option nofun fun s _ => carries_string height s

theorem carries_optional_uint32 (o : Option UInt32) : Codec.uint32.option.Carries o height :=
  Codec.carries_option nofun fun n _ => (Codec.carries_uint32 n).mono (Nat.zero_le height)

theorem carries_strings (l : List String) : Codec.string.list.Carries l (height + 1) :=
  Codec.carries_list fun s _ => carries_string height s

theorem carries_optional_addr {o : Option HardwareAddr} (h : ∀ addr ∈ o, addr.Readable) :
    HardwareAddr.codec.option.Carries o height :=
  Codec.carries_option nofun fun addr haddr => HardwareAddr.carries (h addr haddr) height

end

/-! ## Namespaces, grants and events -/

theorem NamespaceRef.carries (ns : NamespaceRef) : codec.Carries ns 1 := by
  cases ns with
  | path file => exact Codec.carries_carrying rfl rfl (Codec.carries_text _ file)
  | process number => exact Codec.carries_carrying rfl rfl (Codec.carries_int32 number)

theorem NamespaceRef.carries_optional (o : Option NamespaceRef) : codec.option.Carries o 1 := by
  refine Codec.carries_option (fun ns => ?_) fun ns _ => ns.carries
  cases ns with
  | path file => exact nofun
  | process number => exact nofun

theorem AllocatedDevice.carries (device : AllocatedDevice) : codec.Carries device 2 :=
  Codec.carries_record _ (by decide) rfl
    ⟨device.name.carries 1, carries_string 1 device.pool, carries_string 1 device.request,
      Codec.carries_map fun p _ => carries_string 0 p.2, trivial⟩

namespace DriverEvent

theorem carry_allocated (w : WorkloadId) (devices : List AllocatedDevice) :
    allocatedFields.Carry (w, devices, ()) 3 :=
  ⟨w.carries 3, Codec.carries_list fun device _ => device.carries, trivial⟩

theorem carry_workload (w : WorkloadId) : workloadFields.Carry (w, ()) 3 := ⟨w.carries 3, trivial⟩

theorem carry_namespace (w : WorkloadId) (ns : Option NamespaceRef) :
    namespaceFields.Carry (w, ns, ()) 3 :=
  ⟨w.carries 3, (NamespaceRef.carries_optional ns).mono (by decide), trivial⟩

/-- An event whose members are the fields of its kind is read back. -/
theorem parse_encode_of_kind {event : DriverEvent} {αs : List Type} {fields : Json.Fields αs}
    {mk : Json.Tuple αs → DriverEvent} {label : String} {t : Json.Tuple αs}
    (hnames : (tag :: fields.names).Nodup) (h : fields.Carry t 3)
    (hkind : kinds.find? (·.name = event.name) = some (.record event.name label fields mk))
    (hmembers : event.members = fields.write t) (hevent : mk t = event) :
    parse event.encode = .ok event := by
  obtain ⟨htag, hnames⟩ := List.nodup_cons.1 hnames
  -- no field has the name of the tag, so all members behind it are set aside for the kind
  have hothers : ∀ m ∈ fields.write t, m.1 ≠ tag := by
    intro m hm hkey
    exact htag (hkey ▸ fields.mem_names_of_mem_write t hm)
  have hread := Json.readTagged_object hkind hothers (fields.plain_write t h)
    (show 3 ≤ 126 by decide) "internally tagged enum DriverEvent" []
  rw [Json.Tagged.view_record _ _ hnames t h, hevent, List.append_nil] at hread
  have htext : event.encode.toList =
      (Value.object ((tag, .string event.name) :: fields.write t)).chars := by
    rw [encode, write, hmembers, Value.compact, String.toList_ofList]
  have hdepth : Json.maxDepth = 126 + 1 := rfl
  rw [parse, htext, hdepth, hread]
  rfl

/-- **Events.** What is written of an event of any kind is read as the event. -/
theorem parse_encode (event : DriverEvent) : parse event.encode = .ok event := by
  cases event with
  | allocated w devices =>
    exact parse_encode_of_kind (by decide) (carry_allocated w devices) rfl rfl rfl
  | released w => exact parse_encode_of_kind (by decide) (carry_workload w) rfl rfl rfl
  | networkReady w ns => exact parse_encode_of_kind (by decide) (carry_namespace w ns) rfl rfl rfl
  | stopping w ns => exact parse_encode_of_kind (by decide) (carry_namespace w ns) rfl rfl rfl
  | removed w => exact parse_encode_of_kind (by decide) (carry_workload w) rfl rfl rfl

end DriverEvent

/-! ## Devices and what they are given -/

theorem DeviceKind.carries (kind : DeviceKind) (height : Nat) : codec.Carries kind height := by
  refine Codec.Carries.mono ?_ (Nat.zero_le height)
  cases kind with
  | physical => exact Codec.carries_bare rfl rfl rfl
  | virtual => exact Codec.carries_bare rfl rfl rfl
  | loopback => exact Codec.carries_bare rfl rfl rfl

/-- A device whose hardware address can be read. -/
def Device.Readable (device : Device) : Prop := ∀ addr ∈ device.hardwareAddr, addr.Readable

/-- Properties whose hardware address can be read. -/
def LinkConfig.Readable (config : LinkConfig) : Prop :=
  ∀ addr ∈ config.hardwareAddr, addr.Readable

/-- A prepared device whose hardware address can be read. -/
def PreparedDevice.Readable (device : PreparedDevice) : Prop := device.config.Readable

/-- An artifact whose hardware addresses can be read. -/
def PreparedArtifact.Readable (artifact : PreparedArtifact) : Prop :=
  ∀ device ∈ artifact.devices, device.Readable

namespace Device

theorem names_fields : fields.names.Nodup := by decide

theorem carries {device : Device} (h : device.Readable) : codec.Carries device 1 :=
  Codec.carries_record _ names_fields rfl
    ⟨Codec.carries_uint32 device.index, carries_string 0 device.name, carries_optional_addr 0 h,
      carries_optional_uint32 0 device.mtu, Codec.carries_bool device.up, device.kind.carries 0,
      trivial⟩

theorem closed : codec.Closed 1 := by
  refine Codec.closed_record _ names_fields (fun _ => rfl) (fun _ => rfl) ?_
  refine .cons_of_forall Codec.carries_uint32 ?_
  refine .cons_of_forall (carries_string 0) ?_
  refine .cons_optional nofun HardwareAddr.closed ?_
  refine .cons_of_forall (carries_optional_uint32 0) ?_
  refine .cons_of_forall Codec.carries_bool ?_
  exact .cons_of_forall (fun kind => kind.carries 0) trivial

end Device

namespace LinkConfig

theorem names_fields : fields.names.Nodup := by decide

theorem carries {config : LinkConfig} (h : config.Readable) : codec.Carries config 1 :=
  Codec.carries_record _ names_fields rfl
    ⟨DeviceName.carries_optional 0 config.name, carries_optional_uint32 0 config.mtu,
      carries_optional_addr 0 h, carries_optional_uint32 0 config.gsoMaxSize,
      carries_optional_uint32 0 config.groMaxSize, carries_optional_uint32 0 config.gsoIPv4MaxSize,
      carries_optional_uint32 0 config.groIPv4MaxSize, trivial⟩

theorem closed : codec.Closed 1 := by
  refine Codec.closed_record _ names_fields (fun _ => rfl) (fun _ => rfl) ?_
  refine .cons_of_forall (DeviceName.carries_optional 0) ?_
  refine .cons_of_forall (carries_optional_uint32 0) ?_
  refine .cons_optional nofun HardwareAddr.closed ?_
  refine .cons_of_forall (carries_optional_uint32 0) ?_
  refine .cons_of_forall (carries_optional_uint32 0) ?_
  refine .cons_of_forall (carries_optional_uint32 0) ?_
  exact .cons_of_forall (carries_optional_uint32 0) trivial

end LinkConfig

/-! ## Prepared devices -/

namespace PreparedDevice

theorem names_fields : fields.names.Nodup := by decide

theorem carries {device : PreparedDevice} (h : device.Readable) : codec.Carries device 2 :=
  Codec.carries_record _ names_fields rfl
    ⟨device.hostName.carries 1, LinkConfig.carries h, Codec.carries_list fun net _ => net.carries 0,
      trivial⟩

theorem closed : codec.Closed 2 := by
  refine Codec.closed_record _ names_fields (fun _ => rfl) (fun _ => rfl) ?_
  refine .cons_of_forall (fun name => name.carries 1) ?_
  refine .cons_required LinkConfig.closed ?_
  exact .cons_of_forall (fun _ => Codec.carries_list fun net _ => net.carries 0) trivial

end PreparedDevice

namespace PreparedArtifact

theorem names_fields : fields.names.Nodup := by decide

theorem carries {artifact : PreparedArtifact} (h : artifact.Readable) : codec.Carries artifact 4 :=
  Codec.carries_record _ names_fields rfl
    ⟨Codec.carries_list fun device hdevice => PreparedDevice.carries (h device hdevice), trivial⟩

theorem closed : codec.Closed 4 :=
  Codec.closed_record _ names_fields (fun _ => rfl) (fun _ => rfl)
    (.cons_required (Codec.closed_list PreparedDevice.closed) trivial)

end PreparedArtifact

theorem NetworkDeviceData.carries (data : NetworkDeviceData) : codec.Carries data 2 :=
  Codec.carries_record _ (by decide) rfl
    ⟨carries_string 1 data.interfaceName, carries_string 1 data.hardwareAddress,
      carries_strings 0 data.ips, trivial⟩

/-! ## Configuration -/

theorem RestartPolicy.carries (policy : RestartPolicy) : codec.Carries policy 1 :=
  Codec.carries_record _ (by decide) rfl
    ⟨Codec.carries_uint32 policy.maxAttempts, Codec.carries_uint64 policy.delaySecs,
      Codec.carries_uint64 policy.stabilitySecs, trivial⟩

theorem DriverConfig.carries (config : DriverConfig) : codec.Carries config 2 :=
  Codec.carries_record _ (by decide) rfl
    ⟨carries_string 1 config.driverName, carries_optional_string 1 config.nodeName,
      (Codec.carries_uint64 config.publishIntervalSecs).mono (by decide),
      carries_strings 0 config.exclusions, config.restart.carries,
      Codec.carries_option nofun fun s _ => (Codec.carries_text _ s).mono (Nat.zero_le 1), trivial⟩

/-! ## Preparing -/

theorem PreparedDevice.readable_of_allocation {device : AllocatedDevice}
    {prepared : PreparedDevice} (h : ofAllocation device = .ok prepared) : prepared.Readable := by
  obtain ⟨name, mtu, hardwareAddr, addresses, -, -, haddr, -, rfl⟩ := eq_of_ofAllocation h
  intro addr hsome
  cases hsome
  unfold readAttribute at haddr
  split at haddr
  · obtain ⟨addr', hparse, haddr⟩ := Json.ok_of_map haddr
    cases haddr
    exact HardwareAddr.readable_of_parse hparse
  · cases haddr

/-- The hardware addresses of an artifact that was prepared can be read. -/
theorem PreparedArtifact.readable_of_allocation {devices : List AllocatedDevice}
    {artifact : PreparedArtifact} (h : ofAllocation devices = .ok artifact) :
    artifact.Readable := by
  have hentries := (entries_ofAllocation h).flip.imp fun p d hp =>
    And.intro (PreparedDevice.readable_of_allocation hp) hp
  exact ((List.forall₂_and_left _ _).1 hentries).1

/-! ## All types -/

/-- Decoding undoes encoding for every value. -/
def Json.Codec.Faithful {α : Type} (c : Codec α) : Prop := ∀ a, c.decode (c.encode a) = .ok a

/-- Decoding undoes encoding for every value of a kind, and for every value that was decoded. -/
structure Json.Codec.FaithfulOn {α : Type} (c : Codec α) (P : α → Prop) : Prop where
  decode_encode : ∀ a, P a → c.decode (c.encode a) = .ok a
  decoded : ∀ s a, c.decode s = .ok a → c.decode (c.encode a) = .ok a

theorem Json.Codec.faithful_of_carries {α : Type} {c : Codec α} {height : Nat}
    (h : ∀ a, c.Carries a height) (hheight : height ≤ maxDepth) : c.Faithful :=
  fun a => (h a).decode_encode hheight

theorem Json.Codec.faithfulOn_of_carries {α : Type} {c : Codec α} {P : α → Prop} {height : Nat}
    (h : ∀ a, P a → c.Carries a height) (hclosed : c.Closed height) (hheight : height ≤ maxDepth) :
    c.FaithfulOn P where
  decode_encode a ha := (h a ha).decode_encode hheight
  decoded _ _ hs := hclosed.decode_encode hheight hs

/-- **Serialized values are read back.** For each type of the format, decoding the text of a value
gives the value: every value of a type without hardware addresses, every value whose hardware
addresses have from one to thirty-two bytes, every value that was decoded from any text, and every
artifact that was prepared. -/
theorem serialized_values_are_read_back :
    WorkloadId.codec.Faithful ∧
    DeviceName.codec.Faithful ∧
    HardwareAddr.codec.FaithfulOn HardwareAddr.Readable ∧
    NamespaceRef.codec.Faithful ∧
    (∀ event : DriverEvent, DriverEvent.parse event.encode = .ok event) ∧
    AllocatedDevice.codec.Faithful ∧
    Device.codec.FaithfulOn Device.Readable ∧
    DeviceKind.codec.Faithful ∧
    LinkConfig.codec.FaithfulOn LinkConfig.Readable ∧
    PreparedDevice.codec.FaithfulOn PreparedDevice.Readable ∧
    PreparedArtifact.codec.FaithfulOn PreparedArtifact.Readable ∧
    NetworkDeviceData.codec.Faithful ∧
    RestartPolicy.codec.Faithful ∧
    DriverConfig.codec.Faithful ∧
    ∀ devices artifact, PreparedArtifact.ofAllocation devices = .ok artifact →
      PreparedArtifact.codec.decode (PreparedArtifact.codec.encode artifact) = .ok artifact := by
  have hartifact := Codec.faithfulOn_of_carries (fun _ => PreparedArtifact.carries)
    PreparedArtifact.closed (by decide)
  refine ⟨?workload, ?name, ?addr, ?ns, DriverEvent.parse_encode, ?allocated, ?device, ?kind,
    ?config, ?prepared, hartifact, ?data, ?policy, ?driver, ?allocation⟩
  case workload => exact Codec.faithful_of_carries (fun w => w.carries 0) (by decide)
  case name => exact Codec.faithful_of_carries (fun name => name.carries 0) (by decide)
  case addr =>
    exact Codec.faithfulOn_of_carries (fun _ h => HardwareAddr.carries h 0) HardwareAddr.closed
      (by decide)
  case ns => exact Codec.faithful_of_carries NamespaceRef.carries (by decide)
  case allocated => exact Codec.faithful_of_carries AllocatedDevice.carries (by decide)
  case device =>
    exact Codec.faithfulOn_of_carries (fun _ => Device.carries) Device.closed (by decide)
  case kind => exact Codec.faithful_of_carries (fun kind => kind.carries 0) (by decide)
  case config =>
    exact Codec.faithfulOn_of_carries (fun _ => LinkConfig.carries) LinkConfig.closed (by decide)
  case prepared =>
    exact Codec.faithfulOn_of_carries (fun _ => PreparedDevice.carries) PreparedDevice.closed
      (by decide)
  case data => exact Codec.faithful_of_carries NetworkDeviceData.carries (by decide)
  case policy => exact Codec.faithful_of_carries RestartPolicy.carries (by decide)
  case driver => exact Codec.faithful_of_carries DriverConfig.carries (by decide)
  case allocation =>
    intro devices artifact h
    exact hartifact.decode_encode artifact (PreparedArtifact.readable_of_allocation h)

/-- An address that was decoded from a text of another form, and an artifact with it that was
prepared. -/
theorem prepared_artifact_is_read_back :
    let addr : HardwareAddr := ⟨[2, 170]⟩
    let eth0 : DeviceName := ⟨"eth0", by decide, by decide, by decide, by decide⟩
    let grant : AllocatedDevice :=
      ⟨eth0, "", "", SortedMap.empty.insert Attribute.hardwareAddress "+2:AA"⟩
    let artifact : PreparedArtifact :=
      ⟨[⟨eth0, ⟨some eth0, none, some addr, none, none, none, none⟩, []⟩]⟩
    (addr.Readable ∧ artifact.Readable ∧ HardwareAddr.codec.decode "\"+2:AA\"" = .ok addr ∧
      PreparedArtifact.ofAllocation [grant] = .ok artifact) ∧
    HardwareAddr.codec.decode (HardwareAddr.codec.encode addr) = .ok addr ∧
      PreparedArtifact.codec.decode (PreparedArtifact.codec.encode artifact) = .ok artifact := by
  intro addr eth0 grant artifact
  have hdecoded : HardwareAddr.codec.decode "\"+2:AA\"" = .ok addr := by rfl
  have hprepared : PreparedArtifact.ofAllocation [grant] = .ok artifact := by rfl
  obtain ⟨-, -, haddr, -, -, -, -, -, -, -, -, -, -, -, hallocation⟩ :=
    serialized_values_are_read_back
  have hreadable : addr.Readable := ⟨by decide, by decide⟩
  exact ⟨⟨hreadable, PreparedArtifact.readable_of_allocation hprepared, hdecoded, hprepared⟩,
    haddr.decoded _ addr hdecoded, hallocation [grant] artifact hprepared⟩

end NetRelocation
