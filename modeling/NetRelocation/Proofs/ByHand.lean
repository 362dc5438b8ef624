import NetRelocation.CommandLine.Execute
import NetRelocation.Proofs.AddressLists
import NetRelocation.Proofs.CommandRuns
import NetRelocation.Proofs.Earlier
import NetRelocation.Proofs.OptionWords
import NetRelocation.Proofs.SignedNumerals

/-!
# Devices attached by hand

**Theorem (`by_hand_as_granted`).** Let the words of a command line give the options of an attach
their values, and let a grant carry the same values as attributes. Then the command asks the kernel
what the driver asks for the prepared grant, comes to the same result, and prints the same data;
or both refuse the hardware address, since it is too long or empty, for the same reason.

Two readers look at each value. None stumbles over how values are written: a numeral is read by
both (`mtuValue_decimal`, `readMtu_decimal`), and addresses with commas between them are read like
single ones (`Entries.displays`).

The requests agree although the driver always names the device, since the name that is not given
by hand is the device's own (`attach_named`).
-/

namespace NetRelocation

open CommandLine

/-! ## What written values are made of -/

namespace Text.Numeral

theorem not_blank_of_mem_decimal {n : Nat} : ∀ c ∈ (decimal n).toList, isBlank c = false := by
  intro c hc
  rw [decimal, String.toList_ofList] at hc
  by_contra hblank
  rw [Bool.not_eq_false] at hblank
  exact not_mem_decimalDigits (digit?_of_hexDigit? (hexDigit?_of_blank hblank)) n hc

theorem readInt_decimalDigits {n limit : Nat} (hn : n < limit) :
    readInt limit (decimalDigits n) = .ok n := by
  have hdenotes : Denotes (decimalDigits n) n := .unsigned (digitsOf_padded 0 n)
  exact (readInt_eq_ok_iff (Nat.zero_lt_of_lt hn)).2 ⟨hdenotes, by omega, by omega⟩

end Text.Numeral

open Text.Numeral (decimal)

theorem HardwareAddr.not_blank_of_mem_display {addr : HardwareAddr} :
    ∀ c ∈ addr.display.toList, Text.isBlank c = false := by
  have hdigit : ∀ n < 16, Text.isBlank (Text.Numeral.hexDigit n) = false := by decide
  intro c hc
  rw [display, String.toList_ofList] at hc
  obtain rfl | ⟨p, hp, hc⟩ := Text.mem_joinChars hc
  · rfl
  · obtain ⟨b, -, rfl⟩ := List.mem_map.1 hp
    have hhigh : b.toNat / 16 < 16 := Nat.div_lt_of_lt_mul b.toNat_lt
    have hlow : b.toNat % 16 < 16 := Nat.mod_lt _ (by decide)
    rw [Text.Numeral.hexByte] at hc
    obtain rfl | hc := List.mem_cons.1 hc
    · exact hdigit _ hhigh
    · rw [List.mem_singleton.1 hc]
      exact hdigit _ hlow

theorem HardwareAddr.parse_display_of_not_readable {addr : HardwareAddr} (h : ¬ addr.Readable) :
    parse addr.display = .error (.hardwareAddr addr.display) := by
  obtain ⟨bytes⟩ := addr
  by_cases hbytes : bytes = []
  · subst hbytes
    rfl
  · have hmany : ¬ bytes.length ≤ maxLength := fun hfew => h ⟨List.length_pos_iff.2 hbytes, hfew⟩
    rw [parse, bytes?, mapM_display hbytes]
    dsimp only
    rw [if_neg hmany]

/-! ## Attributes of a grant -/

namespace PreparedDevice

theorem readMtu_decimal (device : DeviceName) (mtu : UInt32) :
    readMtu device (decimal mtu.toNat) = .ok (some mtu) := by
  have hread : Text.Numeral.readNat 10 UInt32.size Text.Numeral.digit?
      (decimal mtu.toNat).toList = .ok mtu.toNat := by
    rw [decimal, String.toList_ofList]
    exact Text.Numeral.readNat_toDigits (by decide) Text.Numeral.knows_decimal mtu.toNat_lt
  rw [readMtu, Text.trim_of_no_blank Text.Numeral.not_blank_of_mem_decimal,
    Text.Numeral.readUInt32, hread]
  simp [Except.map]

end PreparedDevice

/-- A grant that carries the values of an attach as attributes, as far as they are given. -/
structure AllocatedDevice.Carries (device : AllocatedDevice) (args : AttachArgs) : Prop where
  name : device.name = args.device
  interfaceName : device.attributes.get? "interface-name" = args.name.map (·.text)
  mtu : device.attributes.get? "mtu" = args.mtu.map fun mtu => decimal mtu.toNat
  hardwareAddress :
    device.attributes.get? "hardware-address" = args.hardwareAddress.map (·.display)
  addresses :
    device.attributes.get? "addresses" =
      if args.addresses = [] then none
      else some (Text.join "," (args.addresses.map (·.display)))

/-- The properties that a prepared grant gets: those of an attach by hand, with a name. -/
def AttachArgs.namedConfig (args : AttachArgs) : LinkConfig :=
  { args.linkConfig with name := some (args.name.getD args.device) }

/-- The properties of a prepared grant. -/
theorem AllocatedDevice.Carries.ofAllocation_eq {device : AllocatedDevice} {args : AttachArgs}
    (h : device.Carries args) :
    PreparedDevice.ofAllocation device =
      (PreparedDevice.readAttribute device Attribute.hardwareAddress none
        fun text => (HardwareAddr.parse (Text.trim text)).map some).map fun hardwareAddr =>
          ⟨args.device, { args.namedConfig with hardwareAddr }, args.addresses⟩ := by
  have hname : PreparedDevice.readAttribute device Attribute.interfaceName device.name
      DeviceName.parse = .ok (args.name.getD args.device) := by
    rw [PreparedDevice.readAttribute, Attribute.interfaceName, h.interfaceName, h.name]
    cases args.name with
    | none => rfl
    | some name => exact name.parse_text
  have hmtu : PreparedDevice.readAttribute device Attribute.mtu none
      (PreparedDevice.readMtu device.name) = .ok args.mtu := by
    rw [PreparedDevice.readAttribute, Attribute.mtu, h.mtu]
    cases args.mtu with
    | none => rfl
    | some mtu => exact PreparedDevice.readMtu_decimal _ mtu
  have haddresses : PreparedDevice.readAttribute device Attribute.addresses [] parseAddressList =
      .ok args.addresses := by
    rw [PreparedDevice.readAttribute, Attribute.addresses, h.addresses]
    by_cases hnil : args.addresses = []
    · rw [if_pos hnil, hnil]
    · rw [if_neg hnil]
      dsimp only
      exact (Entries.displays args.addresses).parseAddressList_eq
  rw [PreparedDevice.ofAllocation, hname, hmtu, haddresses, h.name]
  generalize PreparedDevice.readAttribute device Attribute.hardwareAddress none
    (fun text => (HardwareAddr.parse (Text.trim text)).map some) = hardwareAddr
  cases hardwareAddr <;> rfl

/-- A hardware address that can be read is prepared with the rest. -/
theorem AllocatedDevice.Carries.ofAllocation_of_readable {device : AllocatedDevice}
    {args : AttachArgs} (h : device.Carries args)
    (hreadable : ∀ addr ∈ args.hardwareAddress, addr.Readable) :
    PreparedDevice.ofAllocation device = .ok ⟨args.device, args.namedConfig, args.addresses⟩ := by
  rw [h.ofAllocation_eq, PreparedDevice.readAttribute, Attribute.hardwareAddress,
    h.hardwareAddress]
  cases haddr : args.hardwareAddress with
  | none => simp [Except.map, AttachArgs.namedConfig, AttachArgs.linkConfig, haddr]
  | some addr =>
    dsimp only [Option.map_some]
    rw [Text.trim_of_no_blank HardwareAddr.not_blank_of_mem_display,
      HardwareAddr.parse_display (hreadable addr haddr)]
    simp [Except.map, AttachArgs.namedConfig, AttachArgs.linkConfig, haddr]

/-- Any other hardware address is refused. -/
theorem AllocatedDevice.Carries.ofAllocation_of_not_readable {device : AllocatedDevice}
    {args : AttachArgs} (h : device.Carries args) {addr : HardwareAddr}
    (haddr : addr ∈ args.hardwareAddress) (hreadable : ¬ addr.Readable) :
    PreparedDevice.ofAllocation device = .error (.hardwareAddr addr.display) := by
  rw [h.ofAllocation_eq, PreparedDevice.readAttribute, Attribute.hardwareAddress,
    h.hardwareAddress, Option.mem_def.1 haddr]
  dsimp only [Option.map_some]
  rw [Text.trim_of_no_blank HardwareAddr.not_blank_of_mem_display,
    HardwareAddr.parse_display_of_not_readable hreadable]
  rfl

/-! ## Words of a command line -/

namespace CommandLine

theorem mtuValue_decimal (mtu : UInt32) : mtuValue (decimal mtu.toNat) = .ok mtu := by
  have hsmall : mtu.toNat < UInt32.size := mtu.toNat_lt
  have hread : Text.Numeral.readInt (Nat.pow 2 63) (decimal mtu.toNat).toList =
      .ok (mtu.toNat : Int) := by
    rw [decimal, String.toList_ofList]
    exact Text.Numeral.readInt_decimalDigits (Nat.lt_trans hsmall (by decide))
  rw [mtuValue, hread]
  dsimp only
  rw [if_pos ⟨Int.natCast_nonneg _, Int.ofNat_lt.2 hsmall⟩]
  simp

namespace Draft

/-- Several addresses are kept with the last one first. -/
theorem effect_addresses (nets : List Network) (draft : Draft) :
    (⟨addressOption, nets.map Network.display⟩ : Setting Draft).effect draft =
      .ok { draft with addresses := nets.reverse ++ draft.addresses } := by
  induction nets generalizing draft with
  | nil => rfl
  | cons net nets ih =>
    have hset : (addressOption.set net.display draft).mapError
        (Setting.refusal addressOption net.display) =
        .ok { draft with addresses := net :: draft.addresses } := by
      simp [addressOption, option, networkValue, net.parse_display, Except.mapError, Except.map]
    have hrest := ih { draft with addresses := net :: draft.addresses }
    rw [Setting.effect] at hrest ⊢
    rw [List.map_cons, List.foldlM_cons, hset]
    refine hrest.trans ?_
    simp

end Draft

end CommandLine

open Draft in
/-- The options of an attach with the values that they are given: one for each address, and none
for what is absent. The namespace is given as a text. -/
def AttachArgs.settings (args : AttachArgs) (netns : String) : List (Setting Draft) :=
  [⟨deviceOption, [args.device.text]⟩, ⟨netnsOption, [netns]⟩,
    ⟨nameOption, (args.name.map (·.text)).toList⟩,
    ⟨mtuOption, (args.mtu.map fun mtu => decimal mtu.toNat).toList⟩,
    ⟨hardwareAddressOption, (args.hardwareAddress.map (·.display)).toList⟩,
    ⟨addressOption, args.addresses.map (·.display)⟩]

/-- The words of a command line that attaches a device. -/
def AttachArgs.Typed (args : AttachArgs) (netns : String) (words : List String) : Prop :=
  ∃ ws, words = "attach" :: ws ∧ SpellsAll ((args.settings netns).flatMap Setting.each) ws

namespace CommandLine

theorem parse_attach (ws : List String) :
    Invocation.parse ("attach" :: ws) = attachSpec.parse false ws := by
  rw [Invocation.parse, parseFrom.eq_def]
  rfl

theorem knows_attachOptions (args : AttachArgs) (netns : String) :
    ∀ s ∈ args.settings netns, attachSpec.options.Knows s.option := by
  simp only [AttachArgs.settings, List.forall_mem_cons]
  exact ⟨⟨by decide, by decide, rfl, rfl⟩, ⟨by decide, by decide, rfl, rfl⟩,
    ⟨by decide, by decide, rfl, rfl⟩, ⟨by decide, by decide, rfl, rfl⟩,
    ⟨by decide, by decide, rfl, rfl⟩, ⟨by decide, by decide, rfl, rfl⟩, nofun⟩

theorem sparing_settings (args : AttachArgs) (netns : String) :
    ∀ s ∈ args.settings netns, s.Sparing := by
  simp only [AttachArgs.settings, List.forall_mem_cons]
  refine ⟨fun _ => Nat.le_refl 1, fun _ => Nat.le_refl 1, fun _ => ?_, fun _ => ?_, fun _ => ?_,
    nofun, nofun⟩
  · exact Option.length_toList_le
  · exact Option.length_toList_le
  · exact Option.length_toList_le

theorem distinct_settings (args : AttachArgs) (netns : String) :
    ((args.settings netns).map (·.option.display)).Nodup := by
  have hdisplays : (args.settings netns).map (·.option.display) =
      Draft.attachOptions.map (·.display) := rfl
  rw [hdisplays]
  decide

/-- Words whose values are all accepted. -/
theorem parse_of_ok {args : AttachArgs} {netns : String} {words : List String}
    (h : args.Typed netns words) {draft : Draft} {command : Command}
    (hdraft : (args.settings netns).foldlM (fun draft (s : Setting Draft) => s.effect draft)
      Draft.empty = .ok draft) (hcommand : draft.attach = some command) :
    Invocation.parse words = .ok ⟨draft.verbose, command⟩ := by
  obtain ⟨ws, rfl, hws⟩ := h
  have hfinish : attachSpec.finish draft = some command := hcommand
  rw [parse_attach, CommandSpec.parse, scan_settings hws (knows_attachOptions args netns)
    (sparing_settings args netns) (distinct_settings args netns), hdraft]
  simp only [Except.map, bind, Except.bind, hfinish, Bool.false_or]
  rfl

/-- Words one of whose values is refused. -/
theorem parse_of_error {args : AttachArgs} {netns : String} {words : List String}
    (h : args.Typed netns words) {e : UsageError}
    (hdraft : (args.settings netns).foldlM (fun draft (s : Setting Draft) => s.effect draft)
      Draft.empty = .error e) :
    Invocation.parse words = .error e := by
  obtain ⟨ws, rfl, hws⟩ := h
  rw [parse_attach, CommandSpec.parse, scan_settings hws (knows_attachOptions args netns)
    (sparing_settings args netns) (distinct_settings args netns), hdraft]
  rfl

/-- An option that is given at most once, with a value that is accepted. -/
theorem Setting.effect_of_set {α : Type} {o : ValueOption Draft} (write : α → String)
    (put : Draft → α → Draft) (value : Option α) (draft : Draft)
    (h : ∀ a ∈ value, o.set (write a) draft = .ok (put draft a)) :
    (⟨o, (value.map write).toList⟩ : Setting Draft).effect draft =
      .ok (value.elim draft (put draft)) := by
  cases value with
  | none => rfl
  | some a =>
    simp [Setting.effect, h a rfl, Except.mapError, pure, Except.pure, bind, Except.bind]

theorem parsedValue_of_ok {α : Type} {read : String → Except Invalid α} {text : String} {a : α}
    (h : read text = .ok a) : parsedValue read text = .ok a := by
  rw [parsedValue, h]
  rfl

/-- The draft of an attach before the hardware address. -/
def Draft.ofPlace (args : AttachArgs) : Draft :=
  { empty with
    device := some args.device, netns := some args.netns, name := args.name, mtu := args.mtu }

/-- All values but the hardware address are accepted. -/
theorem foldlM_settings {args : AttachArgs} {netns : String}
    (hnetns : NamespaceRef.parse netns = .ok args.netns) :
    (args.settings netns).foldlM (fun draft (s : Setting Draft) => s.effect draft) Draft.empty =
      (⟨Draft.hardwareAddressOption, (args.hardwareAddress.map (·.display)).toList⟩ :
          Setting Draft).effect (.ofPlace args) >>=
        fun draft => .ok { draft with addresses := args.addresses.reverse ++ draft.addresses } := by
  have hdevice : (⟨Draft.deviceOption, [args.device.text]⟩ : Setting Draft).effect .empty =
      .ok { Draft.empty with device := some args.device } :=
    Setting.effect_of_set _ (fun d v => { d with device := some v }) (some args.device) _
      fun a _ => congrArg (Except.map _) (parsedValue_of_ok a.parse_text)
  have hplace (d : Draft) : (⟨Draft.netnsOption, [netns]⟩ : Setting Draft).effect d =
      .ok { d with netns := some args.netns } := by
    refine Setting.effect_of_set (fun _ => netns) (fun d v => { d with netns := some v })
      (some args.netns) d fun a ha => ?_
    cases ha
    exact congrArg (Except.map _) (parsedValue_of_ok hnetns)
  have hname (d : Draft) (hd : d.name = none) :
      (⟨Draft.nameOption, (args.name.map (·.text)).toList⟩ : Setting Draft).effect d =
        .ok { d with name := args.name } := by
    rw [Setting.effect_of_set _ (fun d v => { d with name := some v }) args.name d
      fun a _ => congrArg (Except.map _) (parsedValue_of_ok a.parse_text)]
    cases args.name with
    | none => exact congrArg Except.ok (show d = { d with name := none } by rw [← hd])
    | some name => rfl
  have hmtu (d : Draft) (hd : d.mtu = none) :
      (⟨Draft.mtuOption, (args.mtu.map fun mtu => decimal mtu.toNat).toList⟩ :
        Setting Draft).effect d = .ok { d with mtu := args.mtu } := by
    rw [Setting.effect_of_set _ (fun d v => { d with mtu := some v }) args.mtu d
      fun a _ => congrArg (Except.map _) (mtuValue_decimal a)]
    cases args.mtu with
    | none => exact congrArg Except.ok (show d = { d with mtu := none } by rw [← hd])
    | some mtu => rfl
  simp only [AttachArgs.settings, List.foldlM_cons, List.foldlM_nil, Draft.effect_addresses,
    hdevice, hplace, bind, Except.bind, pure, Except.pure]
  rw [hname _ rfl]
  dsimp only
  rw [hmtu _ rfl]
  rfl

/-- With a hardware address that can be read, the words are the command. -/
theorem parse_of_readable {args : AttachArgs} {netns : String} {words : List String}
    (hnetns : NamespaceRef.parse netns = .ok args.netns) (h : args.Typed netns words)
    (hreadable : ∀ addr ∈ args.hardwareAddress, addr.Readable) :
    Invocation.parse words = .ok ⟨false, .attach args⟩ := by
  have haddr : (⟨Draft.hardwareAddressOption, (args.hardwareAddress.map (·.display)).toList⟩ :
      Setting Draft).effect (.ofPlace args) =
      .ok { Draft.ofPlace args with hardwareAddress := args.hardwareAddress } := by
    rw [Setting.effect_of_set _ (fun d v => { d with hardwareAddress := some v })
      args.hardwareAddress _ fun a ha =>
        congrArg (Except.map _) (parsedValue_of_ok (HardwareAddr.parse_display (hreadable a ha)))]
    cases args.hardwareAddress <;> rfl
  refine parse_of_ok h (foldlM_settings hnetns |>.trans (by rw [haddr]; rfl)) ?_
  simp [Draft.attach, Draft.ofPlace, Draft.empty]

/-- Any other hardware address is refused. -/
theorem parse_of_not_readable {args : AttachArgs} {netns : String} {words : List String}
    (hnetns : NamespaceRef.parse netns = .ok args.netns) (h : args.Typed netns words)
    {addr : HardwareAddr} (haddr : addr ∈ args.hardwareAddress) (hreadable : ¬ addr.Readable) :
    Invocation.parse words =
      .error (.invalidValue addr.display Draft.hardwareAddressOption.display
        (Invalid.hardwareAddr addr.display).report) := by
  refine parse_of_error h ((foldlM_settings hnetns).trans ?_)
  rw [Option.mem_def.1 haddr]
  simp [Setting.effect, Draft.hardwareAddressOption, Draft.option, parsedValue, Setting.refusal,
    HardwareAddr.parse_display_of_not_readable hreadable, Except.mapError, Except.map, bind,
    Except.bind]

end CommandLine

/-! ## Requests -/

/-- The properties of a prepared grant ask for the same requests: a name that is not given is the
device's own. -/
theorem AttachArgs.attach_named (args : AttachArgs) :
    Move.attach args.device args.netns args.namedConfig args.addresses = args.move := rfl

/-- How a command ends that has been given the answer of the kernel. -/
def AttachArgs.ending (args : AttachArgs) (kernel : Kernel)
    (answer : Answer NetworkDeviceData Kernel) : Execution :=
  let after := { answer.state with
    notices := kernel.notices ++
      .attaching args.device args.netns args.addresses.length :: answer.notices }
  match answer.result with
  | .ok data => ⟨.ok (), after, (NetworkDeviceData.codec.write data).pretty ++ "\n"⟩
  | .error e => ⟨.error (.notAttached args.device args.netns e), after, ""⟩

/-- What is reported before the kernel is asked. -/
def AttachArgs.announced (args : AttachArgs) (kernel : Kernel) : Kernel :=
  { kernel with
    notices := kernel.notices ++ [.attaching args.device args.netns args.addresses.length] }

/-- The command asks the kernel what the driver asks. -/
theorem AttachArgs.run_attach (args : AttachArgs) (around : Surroundings) :
    (Command.attach args).run around =
      args.ending around.kernel (around.kernel.answer args.move) := by
  have hrun : args.execute.run ⟨around.kernel, ""⟩ =
      match (args.announced around.kernel).perform args.move with
      | (.ok data, after) =>
        (.ok (), ⟨after, (NetworkDeviceData.codec.write data).pretty ++ "\n"⟩)
      | (.error e, after) => (.error (.notAttached args.device args.netns e), ⟨after, ""⟩) := by
    have hreport : (CommandM.report (.attaching args.device args.netns args.addresses.length)).run
        ⟨around.kernel, ""⟩ = (.ok (), ⟨args.announced around.kernel, ""⟩) := rfl
    rw [execute, CommandM.run_bind, hreport]
    dsimp only
    rw [CommandM.run_bind, CommandM.run_askKernel]
    obtain ⟨result, after⟩ := (args.announced around.kernel).perform args.move
    cases result with
    | ok data =>
      have hprint : "" ++ ((NetworkDeviceData.codec.write data).pretty ++ "\n") =
          (NetworkDeviceData.codec.write data).pretty ++ "\n" := String.empty_append
      exact congrArg (fun output => (Except.ok (), Session.mk after output)) hprint
    | error e => rfl
  -- the answer is the same whatever was reported before, but for the notices that it gives back
  have hsame : (args.announced around.kernel).answer args.move =
      { around.kernel.answer args.move with
        state := { (around.kernel.answer args.move).state with
          notices := (args.announced around.kernel).notices } } := rfl
  have hnotices (l : List Notice) : (args.announced around.kernel).notices ++ l =
      around.kernel.notices ++ .attaching args.device args.netns args.addresses.length :: l := by
    simp [announced]
  have hmove : Kernel.Heedless args.move := Move.heedless_attach _ _ _ _
  rw [Kernel.perform_eq_answer hmove, hsame] at hrun
  dsimp only at hrun
  rw [hnotices] at hrun
  have hexecution : (Command.attach args).run around =
      ⟨(args.execute.run ⟨around.kernel, ""⟩).1, (args.execute.run ⟨around.kernel, ""⟩).2⟩ := rfl
  rw [hexecution, hrun, ending]
  cases (around.kernel.answer args.move).result <;> rfl

/-- **Devices attached by hand.** What is given by hand and what a grant carries comes to the same
requests, the same kernel and the same result. A hardware address that cannot be read is refused in
both places, before anything is asked. -/
theorem by_hand_as_granted (args : AttachArgs) (netns : String) (words : List String)
    (device : AllocatedDevice) (hnetns : NamespaceRef.parse netns = .ok args.netns)
    (hwords : args.Typed netns words) (hdevice : device.Carries args) :
    ((∀ addr ∈ args.hardwareAddress, addr.Readable) →
      Invocation.parse words = .ok ⟨false, .attach args⟩ ∧
      ∃ prepared, PreparedDevice.ofAllocation device = .ok prepared ∧
        ∀ around : Surroundings,
          let driven := Kernel.relocator.answer
            (.attach prepared.hostName args.netns prepared.config prepared.addresses) around.kernel
          let byHand := (Command.attach args).run around
          byHand.session.kernel =
              { driven.state with
                notices := around.kernel.notices ++
                  .attaching args.device args.netns args.addresses.length :: driven.notices } ∧
            match driven.result with
            | .ok data =>
              byHand.result = .ok () ∧
                byHand.session.output = (NetworkDeviceData.codec.write data).pretty ++ "\n"
            | .error e =>
              byHand.result = .error (.notAttached args.device args.netns e) ∧
                byHand.session.output = "") ∧
    ∀ addr ∈ args.hardwareAddress, ¬ addr.Readable →
      Invocation.parse words =
        .error (.invalidValue addr.display Draft.hardwareAddressOption.display
          (Invalid.hardwareAddr addr.display).report) ∧
      PreparedDevice.ofAllocation device = .error (.hardwareAddr addr.display) := by
  refine ⟨fun hreadable => ?_, fun addr haddr hreadable => ?_⟩
  · refine ⟨parse_of_readable hnetns hwords hreadable, _,
      hdevice.ofAllocation_of_readable hreadable, fun around => ?_⟩
    have hdriven : Kernel.relocator.answer
        (.attach args.device args.netns args.namedConfig args.addresses) around.kernel =
        around.kernel.answer args.move := congrArg around.kernel.answer args.attach_named
    dsimp only
    rw [hdriven, args.run_attach around, AttachArgs.ending]
    cases (around.kernel.answer args.move).result with
    | ok data => exact ⟨rfl, rfl, rfl⟩
    | error e => exact ⟨rfl, rfl, rfl⟩
  · exact ⟨parse_of_not_readable hnetns hwords haddr hreadable,
      hdevice.ofAllocation_of_not_readable haddr hreadable⟩

/-- An attach with another name, a packet size, two addresses and a hardware address that may be
unreadable. -/
def typedAttach (device : DeviceName) (hardwareAddress : HardwareAddr) : AttachArgs where
  device := device
  netns := .process 42
  name := some ⟨"net0", by decide, by decide, by decide, by decide⟩
  mtu := some 1400
  hardwareAddress := some hardwareAddress
  addresses := [.v4 ⟨10, 1, 0, 2⟩ (Fin.last 32), .v4 ⟨10, 1, 0, 3⟩ (Fin.last 32)]

/-- The grant that carries its values. -/
def typedGrant (device : DeviceName) (hardwareAddress : HardwareAddr) : AllocatedDevice :=
  ((((AllocatedDevice.plain device "node" "net").withAttribute
    "interface-name" "net0").withAttribute "mtu" "1400").withAttribute
    "hardware-address" hardwareAddress.display).withAttribute
    "addresses" "10.1.0.2/32,10.1.0.3/32"

/-- The words of a command line that gives them, each in one of the two ways. -/
def typedWords (device hardwareAddress : String) : List String :=
  ["attach", "--device=" ++ device, "--netns=42", "--name=net0", "--mtu=1400",
    "--hardware-address=" ++ hardwareAddress, "--address", "10.1.0.2/32", "--address=10.1.0.3/32"]

theorem typedWords_typed (device : DeviceName) (hardwareAddress : HardwareAddr) :
    (typedAttach device hardwareAddress).Typed "42"
      (typedWords device.text hardwareAddress.display) :=
  have hplain : Word.ofString "10.1.0.2/32" = .plain := by decide
  ⟨_, rfl, .cons .attached <| .cons .attached <| .cons .attached <| .cons .attached <|
    .cons .attached <| .cons (.apart hplain) <| .cons .attached .nil⟩

theorem typedGrant_carries (device : DeviceName) (hardwareAddress : HardwareAddr) :
    (typedGrant device hardwareAddress).Carries (typedAttach device hardwareAddress) where
  name := rfl
  interfaceName := rfl
  mtu := rfl
  hardwareAddress := rfl
  addresses := rfl

/-- A machine without devices. -/
def bareMachine : Surroundings := ⟨⟨0, .ok []⟩, .quiet .system⟩

/-- Two of them. On a machine without devices the one asks for its link by hand as it does when it
is granted, and in vain; a text of no address is refused. -/
theorem typed_and_granted :
    let eth0 : DeviceName := ⟨"eth0", by decide, by decide, by decide, by decide⟩
    let readable := typedAttach eth0 ⟨[2, 0, 0, 0, 0, 1]⟩
    (Invocation.parse (typedWords "eth0" "02:00:00:00:00:01") = .ok ⟨false, .attach readable⟩ ∧
      ((Command.attach readable).run bareMachine).session.kernel.trace =
        [.asked .host (.get "eth0") none] ∧
      ((Command.attach readable).run bareMachine).session.output = "") ∧
    Invocation.parse (typedWords "eth0" "") =
        .error (.invalidValue "" "--hardware-address <HARDWARE_ADDRESS>"
          "Invalid configuration: Invalid hardware address: \"\"") := by
  intro eth0 readable
  have hnetns : NamespaceRef.parse "42" = .ok (.process 42) := rfl
  have hreadable : ∀ addr ∈ readable.hardwareAddress, addr.Readable := by
    intro addr haddr
    cases haddr
    exact ⟨by decide, by decide⟩
  obtain ⟨hparse, prepared, hprepared, hrun⟩ := (by_hand_as_granted readable "42" _ _ hnetns
    (typedWords_typed _ _) (typedGrant_carries _ _)).1 hreadable
  refine ⟨⟨hparse, ?_, ?_⟩, ?_⟩
  · cases hprepared
    rw [(hrun bareMachine).1]
    rfl
  · cases hprepared
    exact (hrun bareMachine).2.2
  · exact ((by_hand_as_granted (typedAttach eth0 ⟨[]⟩) "42" _ _ hnetns (typedWords_typed _ _)
      (typedGrant_carries _ _)).2 ⟨[]⟩ rfl fun h => absurd h.1 (by decide)).1

end NetRelocation
