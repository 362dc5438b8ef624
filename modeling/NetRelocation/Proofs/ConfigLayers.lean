import NetRelocation.CommandLine.Serve
import NetRelocation.Proofs.CommandRuns
import NetRelocation.Proofs.RecordTexts

/-!
# The layers of the settings

A field of the settings has up to three layers: an option of the command line, a key of the file,
and a default. The strongest layer that gives a value counts (`layered`), for each field by itself
and in the restarts for each key by itself (`ConfigFile.merged`).

**What a file gives** (`ConfigFile.Text`). An object that has some of the known keys, in any order,
each with a text of a value of its type, and any other keys with any texts of JSON.

**Theorem (`ServeArgs.resolve_by_layers`).** The settings before they are checked are the merged
layers. They are accepted just if these are usable, and are these then. Usable they are if in each
field the strongest layer is, so that an option makes up for its own field of the file and for no
other. The driver does nothing at all before its settings are accepted, and so it never publishes
without pauses.
-/

namespace NetRelocation

open Json
open Text.Numeral (decimalDigits)

/-! ## What a file gives -/

/-- What a file gives of the restarts. -/
structure RestartKeys where
  maxAttempts : Option UInt32
  delaySecs : Option UInt64
  stabilitySecs : Option UInt64

/-- What a file gives. -/
structure ConfigFile where
  driverName : Option String
  nodeName : Option (Option String)
  publishIntervalSecs : Option UInt64
  exclusions : Option (List String)
  restart : Option RestartKeys
  eventsPath : Option (Option String)

/-- The members of an object that gives these keys of the restarts. -/
structure RestartKeys.Shown (keys : RestartKeys) (ms : List (String × List Char)) : Prop where
  maxAttempts : Holds (fun n cs => cs = decimalDigits n.toNat) "max_attempts" keys.maxAttempts ms
  delaySecs : Holds (fun n cs => cs = decimalDigits n.toNat) "delay_secs" keys.delaySecs ms
  stabilitySecs : Holds (fun n cs => cs = decimalDigits n.toNat) "stability_threshold_secs"
    keys.stabilitySecs ms
  others : ∀ m ∈ ms, m.1 ∉ ["max_attempts", "delay_secs", "stability_threshold_secs"] →
    AnyText m.2

/-- The texts that give these keys of the restarts. -/
def RestartKeys.Text (keys : RestartKeys) (cs : List Char) : Prop :=
  ∃ ms, ObjectText ms cs ∧ keys.Shown ms

namespace ConfigFile

/-- A file that gives nothing. -/
def empty : ConfigFile := ⟨none, none, none, none, none, none⟩

/-- The members of an object that gives these keys. -/
structure Shown (file : ConfigFile) (ms : List (String × List Char)) : Prop where
  driverName : Holds StringText "driver_name" file.driverName ms
  nodeName : Holds (NullableText StringText) "node_name" file.nodeName ms
  publishIntervalSecs : Holds (fun n cs => cs = decimalDigits n.toNat) "publish_interval_secs"
    file.publishIntervalSecs ms
  exclusions : Holds (ListText StringText) "excluded_prefixes" file.exclusions ms
  restart : Holds RestartKeys.Text "restart" file.restart ms
  eventsPath : Holds (NullableText StringText) "events_path" file.eventsPath ms
  others : ∀ m ∈ ms, m.1 ∉ ["driver_name", "node_name", "publish_interval_secs",
    "excluded_prefixes", "restart", "events_path"] → AnyText m.2

/-- The texts that give these keys. -/
def Text (file : ConfigFile) (cs : List Char) : Prop := ∃ ms, ObjectText ms cs ∧ file.Shown ms

end ConfigFile

/-- What the file of the arguments gives: nothing, if they name none. -/
def ServeArgs.Finds (args : ServeArgs) (files : FileTree) (file : ConfigFile) : Prop :=
  match args.config with
  | none => file = .empty
  | some path => ∃ text, files.readText path = .ok text ∧ Padded ConfigFile.Text file text.toList

/-! ## Layers -/

/-- The option's value if the option is given, else the file's if its key is there, else the
default. -/
def layered {α : Type} (option file : Option α) (default : α) : α :=
  (option.or file).getD default

/-- The policy of a file: what is not given has its default. -/
def RestartKeys.policy (keys : RestartKeys) : RestartPolicy where
  maxAttempts := layered none keys.maxAttempts RestartPolicy.standard.maxAttempts
  delaySecs := layered none keys.delaySecs RestartPolicy.standard.delaySecs
  stabilitySecs := layered none keys.stabilitySecs RestartPolicy.standard.stabilitySecs

namespace ConfigFile

/-- The settings of a file and of arguments, each field by itself. -/
def merged (file : ConfigFile) (args : ServeArgs) : DriverConfig where
  driverName := layered none file.driverName DriverConfig.standard.driverName
  nodeName := layered (args.nodeName.map some) file.nodeName DriverConfig.standard.nodeName
  publishIntervalSecs := layered args.publishInterval file.publishIntervalSecs
    DriverConfig.standard.publishIntervalSecs
  exclusions := layered none file.exclusions DriverConfig.standard.exclusions
  restart := (file.restart.getD ⟨none, none, none⟩).policy
  eventsPath := layered (args.events.map some) file.eventsPath DriverConfig.standard.eventsPath

/-- In each field the strongest layer that gives a value gives one that can be used. -/
structure Accepted (file : ConfigFile) (args : ServeArgs) : Prop where
  driverName : ∀ name ∈ file.driverName, Text.isBlankText name = false
  nodeName : ∀ name ∈ args.nodeName.or file.nodeName.join, Text.isBlankText name = false
  publishInterval : ∀ secs ∈ args.publishInterval.or file.publishIntervalSecs, 0 < secs
  maxAttempts : ∀ keys ∈ file.restart, ∀ n ∈ keys.maxAttempts, 0 < n
  exclusions : ∀ names ∈ file.exclusions, "" ∉ names

end ConfigFile

/-- What settings have to be. -/
structure DriverConfig.Usable (config : DriverConfig) : Prop where
  driverName : Text.isBlankText config.driverName = false
  nodeName : ∀ name ∈ config.nodeName, Text.isBlankText name = false
  publishInterval : 0 < config.publishIntervalSecs
  maxAttempts : 0 < config.restart.maxAttempts
  exclusions : "" ∉ config.exclusions

/-! ## Reading a file -/

theorem stringText_leads (s : String) {cs : List Char} (h : StringText s cs) :
    ∃ first tail, cs = first :: tail ∧ Leads first ∧ first ≠ 'n' := by
  cases h
  exact ⟨'"', _, rfl, by decide, by decide⟩

theorem reads_nullable_text (expected : String) (depth : Nat) {o : Option String} {cs : List Char}
    (h : NullableText StringText o cs) : (Codec.text expected).option.Reads depth o cs :=
  Codec.reads_option (fun s _ => stringText_leads s) (fun _ _ => Codec.reads_text expected depth) h

namespace RestartKeys

theorem Shown.held {keys : RestartKeys} {ms : List (String × List Char)} (h : keys.Shown ms)
    (depth : Nat) : RestartPolicy.fields.Held depth
      (keys.maxAttempts, keys.delaySecs, keys.stabilitySecs, ()) ms :=
  ⟨h.maxAttempts.mono fun n _ heq => heq ▸ Codec.reads_uint32 depth n,
    h.delaySecs.mono fun n _ heq => heq ▸ Codec.reads_uint64 depth n,
    h.stabilitySecs.mono fun n _ heq => heq ▸ Codec.reads_uint64 depth n, trivial⟩

theorem complete (keys : RestartKeys) :
    RestartPolicy.fields.complete (keys.maxAttempts, keys.delaySecs, keys.stabilitySecs, ()) =
      .ok (keys.policy.maxAttempts, keys.policy.delaySecs, keys.policy.stabilitySecs, ()) := by
  exact Fields.complete_defaulted _ _
    (Fields.complete_defaulted _ _ (Fields.complete_defaulted _ _ rfl))

/-- The object of the restarts is read as its keys and defaults make it. -/
theorem Text.reads {keys : RestartKeys} {cs : List Char} (h : keys.Text cs) (depth : Nat) :
    RestartPolicy.codec.Reads (depth + 1) keys.policy cs := by
  obtain ⟨ms, htext, hshown⟩ := h
  exact Codec.reads_record _ (by decide) (hshown.held depth) hshown.others keys.complete htext

end RestartKeys

namespace ConfigFile

theorem Shown.held {file : ConfigFile} {ms : List (String × List Char)} (h : file.Shown ms)
    (depth : Nat) : DriverConfig.fields.Held (depth + 1)
      (file.driverName, file.nodeName, file.publishIntervalSecs, file.exclusions,
        file.restart.map RestartKeys.policy, file.eventsPath, ()) ms :=
  ⟨h.driverName.mono fun _ _ => Codec.reads_text _ _,
    h.nodeName.mono fun _ _ => reads_nullable_text _ _,
    h.publishIntervalSecs.mono fun n _ heq => heq ▸ Codec.reads_uint64 _ n,
    h.exclusions.mono fun _ _ => Codec.reads_list
      (fun s _ hs => (stringText_leads s hs).imp fun _ => .imp fun _ => .imp_right And.left)
      fun _ _ => Codec.reads_text _ _,
    h.restart.map _ fun _ _ hkeys => hkeys.reads depth,
    h.eventsPath.mono fun _ _ => reads_nullable_text _ _, trivial⟩

theorem complete (file : ConfigFile) :
    DriverConfig.fields.complete (file.driverName, file.nodeName, file.publishIntervalSecs,
        file.exclusions, file.restart.map RestartKeys.policy, file.eventsPath, ()) =
      let config := file.merged ⟨none, none, none, none⟩
      .ok (config.driverName, config.nodeName, config.publishIntervalSecs, config.exclusions,
        config.restart, config.eventsPath, ()) := by
  have hrestart : (file.restart.map RestartKeys.policy).getD DriverConfig.standard.restart =
      (file.restart.getD ⟨none, none, none⟩).policy :=
    Option.getD_map RestartKeys.policy ⟨none, none, none⟩ file.restart
  refine Eq.trans (Fields.complete_defaulted _ _ (Fields.complete_defaulted _ _
    (Fields.complete_defaulted _ _ (Fields.complete_defaulted _ _
    (Fields.complete_defaulted _ _ (Fields.complete_defaulted _ _ rfl)))))) ?_
  rw [hrestart]
  rfl

theorem Text.decode {file : ConfigFile} {text : String} (h : Padded Text file text.toList) :
    DriverConfig.codec.decode text = .ok (file.merged ⟨none, none, none, none⟩) := by
  refine Codec.decode_padded (fun cs hfile => ?_) h
  obtain ⟨ms, htext, hshown⟩ := hfile
  exact Codec.reads_record _ (by decide) (hshown.held 125) hshown.others file.complete htext

end ConfigFile

/-! ## Laying the options over it -/

theorem ConfigFile.overlay_merged (file : ConfigFile) (args : ServeArgs) :
    args.overlay (file.merged ⟨none, none, none, none⟩) = file.merged args := by
  obtain ⟨config, nodeName, events, publishInterval⟩ := args
  cases nodeName <;> cases events <;> cases publishInterval <;> rfl

theorem ServeArgs.Finds.base {args : ServeArgs} {files : FileTree} {file : ConfigFile}
    (h : args.Finds files file) :
    args.base files = .ok (file.merged ⟨none, none, none, none⟩) := by
  obtain ⟨config, nodeName, events, publishInterval⟩ := args
  cases config with
  | none =>
    obtain rfl : file = .empty := h
    rfl
  | some path =>
    obtain ⟨text, hread, htext⟩ := h
    have hdecode := ConfigFile.Text.decode htext
    simp only [ServeArgs.base, DriverConfig.load, DriverConfig.ofText, hread, hdecode]
    rfl

/-! ## The check -/

theorem DriverConfig.fault?_eq_none_iff (config : DriverConfig) :
    config.fault? = none ↔ config.Usable := by
  have hnode : ¬ config.nodeName.any Text.isBlankText = true ↔
      ∀ name ∈ config.nodeName, Text.isBlankText name = false := by
    simp only [Option.any_eq_true, not_exists, not_and, Bool.not_eq_true, Option.mem_def]
  have hinterval : ¬ config.publishIntervalSecs = 0 ↔ 0 < config.publishIntervalSecs :=
    UInt64.pos_iff_ne_zero.symm
  have hattempts : ¬ config.restart.maxAttempts = 0 ↔ 0 < config.restart.maxAttempts :=
    UInt32.pos_iff_ne_zero.symm
  have hexclusions : ¬ config.exclusions.any (· = "") = true ↔ "" ∉ config.exclusions := by
    simp
  constructor
  · intro h
    unfold fault? at h
    split_ifs at h with h₁ h₂ h₃ h₄ h₅
    exact ⟨Bool.eq_false_iff.2 h₁, hnode.1 h₂, hinterval.1 h₃, hattempts.1 h₄, hexclusions.1 h₅⟩
  · rintro ⟨h₁, h₂, h₃, h₄, h₅⟩
    rw [fault?, if_neg (Bool.eq_false_iff.1 h₁), if_neg (hnode.2 h₂), if_neg (hinterval.2 h₃),
      if_neg (hattempts.2 h₄), if_neg (hexclusions.2 h₅)]

/-- Where the default is right, a value is right if the strongest layer that gives one is. -/
theorem layered_iff {α : Type} (right : α → Prop) {default : α} (hdefault : right default)
    (option file : Option α) :
    right (layered option file default) ↔ ∀ a ∈ option.or file, right a := by
  unfold layered
  cases option.or file with
  | none => exact ⟨fun _ => nofun, fun _ => hdefault⟩
  | some a => exact ⟨fun h => by rintro _ ⟨⟩; exact h, fun h => h a rfl⟩

theorem layered_optional {α : Type} (option : Option α) (file : Option (Option α)) :
    layered (option.map some) file none = option.or file.join := by
  cases option with
  | some a => rfl
  | none =>
    cases file with
    | none => rfl
    | some o => rfl

theorem ConfigFile.usable_merged_iff (file : ConfigFile) (args : ServeArgs) :
    (file.merged args).Usable ↔ file.Accepted args := by
  have hdriver := layered_iff (fun name => Text.isBlankText name = false)
    (show Text.isBlankText DriverConfig.standard.driverName = false by decide) none file.driverName
  have hnode : (file.merged args).nodeName = args.nodeName.or file.nodeName.join :=
    layered_optional args.nodeName file.nodeName
  have hinterval := layered_iff (0 < ·)
    (show 0 < DriverConfig.standard.publishIntervalSecs by decide) args.publishInterval
    file.publishIntervalSecs
  have hattempts : 0 < (file.merged args).restart.maxAttempts ↔
      ∀ keys ∈ file.restart, ∀ n ∈ keys.maxAttempts, 0 < n := by
    have hkeys (keys : RestartKeys) := layered_iff (0 < ·)
      (show 0 < RestartPolicy.standard.maxAttempts by decide) none keys.maxAttempts
    unfold merged
    cases file.restart with
    | none => exact ⟨fun _ => nofun, fun _ => (hkeys _).2 nofun⟩
    | some keys =>
      have hpolicy : 0 < keys.policy.maxAttempts ↔ _ := hkeys keys
      simpa using hpolicy
  have hexclusions := layered_iff ("" ∉ ·)
    (show "" ∉ DriverConfig.standard.exclusions by decide) none file.exclusions
  constructor
  · intro h
    exact ⟨hdriver.1 h.driverName, hnode ▸ h.nodeName, hinterval.1 h.publishInterval,
      hattempts.1 h.maxAttempts, hexclusions.1 h.exclusions⟩
  · intro h
    exact ⟨hdriver.2 h.driverName, hnode ▸ h.nodeName, hinterval.2 h.publishInterval,
      hattempts.2 h.maxAttempts, hexclusions.2 h.exclusions⟩

namespace ServeArgs

/-- Settings are what the options make of those below them, if that is usable. -/
theorem settings_of_base {args : ServeArgs} {files : FileTree} {base : DriverConfig}
    (h : args.base files = .ok base) (config : DriverConfig) :
    args.settings files = .ok config ↔ config = args.overlay base ∧ config.Usable := by
  have hcheck := (args.overlay base).fault?_eq_none_iff
  rw [settings, h]
  simp only [DriverConfig.check]
  cases hfault : (args.overlay base).fault? with
  | none =>
    have husable := hcheck.1 hfault
    refine ⟨?_, ?_⟩
    · rintro ⟨⟩
      exact ⟨rfl, husable⟩
    · rintro ⟨rfl, -⟩
      rfl
  | some cause =>
    refine ⟨nofun, ?_⟩
    rintro ⟨rfl, husable⟩
    rw [hcheck.2 husable] at hfault
    cases hfault

theorem usable_of_settings {args : ServeArgs} {files : FileTree} {config : DriverConfig}
    (h : args.settings files = .ok config) : config.Usable := by
  cases hbase : args.base files with
  | error failure =>
    rw [settings, hbase] at h
    cases h
  | ok base => exact ((settings_of_base hbase config).1 h).2

end ServeArgs

/-! ## The driver -/

namespace Driver

open CommandM

/-- The driver fails before it does anything, or starts with settings that were accepted. -/
theorem run_serve (machine : Machine) (args : ServeArgs) (s : Session) :
    (serve machine args).run s =
      match args.settings s.kernel.files with
      | .error failure => (.error failure, s)
      | .ok config =>
        match config.resolveNode machine with
        | .error failure => (.error failure, s)
        | .ok node => (start config node (publisher config node)).run s := by
  have hget : (get : CommandM Session).run s = (.ok s, s) := rfl
  rw [serve, run_bind, hget]
  dsimp only
  rw [run_bind, run_orFail]
  cases args.settings s.kernel.files with
  | error failure => rfl
  | ok config =>
    dsimp only
    rw [run_bind, run_orFail]
    cases config.resolveNode machine with
    | error failure => rfl
    | ok node => rfl

theorem intervalMs_pos {config : DriverConfig} (h : config.Usable) (node : String) :
    0 < (publisher config node).intervalMs := by
  have hsecs : 0 < config.publishIntervalSecs.toNat := h.publishInterval
  simp only [publisher]
  omega

end Driver

/-! ## The layers -/

/-- **Settings are resolved field by field, and a driver runs only with settings that are usable.**
Before the check each field has the value of its strongest layer. The check accepts just what is
usable, so an option makes up for its own field of the file and for nothing else. Without settings
or a node the driver does nothing, and with both it starts with a publisher that pauses. -/
theorem ServeArgs.resolve_by_layers {args : ServeArgs} {files : FileTree} {file : ConfigFile}
    (h : args.Finds files file) :
    (args.base files).map args.overlay = .ok (file.merged args) ∧
    (∀ config, args.settings files = .ok config ↔
      config = file.merged args ∧ config.Usable) ∧
    ((file.merged args).Usable ↔ file.Accepted args) ∧
    ∀ machine s,
      (∀ failure, (args.settings s.kernel.files).bind (·.resolveNode machine) = .error failure →
        (Driver.serve machine args).run s = (.error failure, s)) ∧
      ∀ config node, args.settings s.kernel.files = .ok config →
        config.resolveNode machine = .ok node →
          0 < (Driver.publisher config node).intervalMs ∧
          (Driver.serve machine args).run s =
            (Driver.start config node (Driver.publisher config node)).run s := by
  have hmerged := file.overlay_merged args
  refine ⟨?_, fun config => ?_, file.usable_merged_iff args, fun machine s => ⟨?_, ?_⟩⟩
  · rw [h.base, ← hmerged]
    rfl
  · rw [settings_of_base h.base, hmerged]
  · intro failure hfailure
    rw [Driver.run_serve]
    cases hsettings : args.settings s.kernel.files with
    | error e =>
      rw [hsettings] at hfailure
      cases hfailure
      rfl
    | ok config =>
      rw [hsettings] at hfailure
      have hnode : config.resolveNode machine = .error failure := hfailure
      simp only [hnode]
  · intro config node hsettings hnode
    refine ⟨Driver.intervalMs_pos (usable_of_settings hsettings) node, ?_⟩
    rw [Driver.run_serve, hsettings]
    simp only [hnode]

/-- An interval of zero in a file counts for nothing once there is an option for it, and the driver
starts; the file has members of other names that stand for no value. -/
theorem option_replaces_interval :
    let text := "\x7b\"x\":1e999,\"publish_interval_secs\":0,\"restart\":" ++
      "\x7b\"y\":[\"\\ud800\"],\"max_attempts\":3\x7d,\"node_name\":null\x7d\n"
    let files := FileTree.system.addPath "/etc/d.json"
      (.regular (Text.Utf8.encode text.toList))
    let file : ConfigFile := ⟨none, some none, some 0, none, some ⟨some 3, none, none⟩, none⟩
    let args : ServeArgs := ⟨some "/etc/d.json", none, none, some 7⟩
    let config : DriverConfig := ⟨"hostdevice.hostnet.dev", none, 7, ["veth", "docker", "cni"],
      ⟨3, 5, 300⟩, none⟩
    args.Finds files file ∧ args.settings files = .ok config ∧
      (∀ other, { args with publishInterval := none }.settings files ≠ .ok other) ∧
      ∀ s : Session, s.kernel.files = files → (Driver.serve ⟨0, .ok [104]⟩ args).run s =
        (Driver.start config "h" (Driver.publisher config "h")).run s := by
  intro text files file args config
  have hread : files.readText "/etc/d.json" = .ok text := by decide +kernel
  have hhalf : AnyString ('"' :: [['\\', 'u', 'd', '8', '0', '0']].flatten ++ ['"']) :=
    .quoted (List.forall_mem_singleton.2 (.code (n := 0xD800) (by decide)))
  have hlone : AnyText ['[', '"', '\\', 'u', 'd', '8', '0', '0', '"', ']'] :=
    ⟨1, AnyHolder.array (.some (.last (padded_self rfl)))
      (List.forall_mem_singleton.2 (AnyScalar.string hhalf))⟩
  have hone : Digits ['1'] := ⟨by decide, List.all_eq_true.1 (by decide)⟩
  have hnines : Digits ['9', '9', '9'] := ⟨by decide, List.all_eq_true.1 (by decide)⟩
  have hhuge : AnyText ['1', 'e', '9', '9', '9'] :=
    ⟨0, AnyScalar.number false ⟨['1'], [], _, ⟨hone, by decide⟩, .none,
      .some (.inl rfl) (.inl rfl) hnines, rfl⟩⟩
  let restart : List Char := '{' :: (Value.stringChars "y" ++ ':' ::
    ['[', '"', '\\', 'u', 'd', '8', '0', '0', '"', ']'] ++ ',' ::
    (Value.stringChars "max_attempts" ++ ':' :: ['3'])) ++ ['}']
  have hrestart : RestartKeys.Text ⟨some 3, none, none⟩ restart :=
    ⟨[("y", ['[', '"', '\\', 'u', 'd', '8', '0', '0', '"', ']']), ("max_attempts", ['3'])],
      .braces (.some (.more (rawMember_stringChars _ _) (.last (rawMember_stringChars _ _)))),
      { maxAttempts := ⟨['3'], by decide, by decide⟩
        delaySecs := by simp [Holds]
        stabilitySecs := by simp [Holds]
        others := by simp [hlone] }⟩
  have hfile : file.Text _ :=
    ⟨[("x", ['1', 'e', '9', '9', '9']), ("publish_interval_secs", ['0']), ("restart", restart),
        ("node_name", ['n', 'u', 'l', 'l'])],
      .braces (.some (.more (rawMember_stringChars _ _) (.more (rawMember_stringChars _ _)
        (.more (rawMember_stringChars _ _) (.last (rawMember_stringChars _ _)))))),
      { driverName := by simp [file, Holds]
        nodeName := ⟨_, .null, by decide⟩
        publishIntervalSecs := ⟨['0'], by decide, by decide⟩
        exclusions := by simp [file, Holds]
        restart := ⟨_, hrestart, by decide⟩
        eventsPath := by simp [file, Holds]
        others := by simp [hhuge] }⟩
  have htext : Padded ConfigFile.Text file text.toList :=
    ⟨[], _, ['\n'], by decide, hfile, by decide, by decide⟩
  have hfinds (args : ServeArgs) (hpath : args.config = some "/etc/d.json") :
      args.Finds files file := by
    rw [ServeArgs.Finds, hpath]
    exact ⟨text, hread, htext⟩
  obtain ⟨-, hsettings, haccepted, hserve⟩ := ServeArgs.resolve_by_layers (hfinds args rfl)
  have hinterval : ∀ secs ∈ args.publishInterval.or file.publishIntervalSecs, 0 < secs := by
    rintro _ ⟨⟩
    decide
  have hattempts : ∀ keys ∈ file.restart, ∀ n ∈ keys.maxAttempts, 0 < n := by
    rintro _ ⟨⟩ _ ⟨⟩
    decide
  have husable : config.Usable := haccepted.2 ⟨nofun, nofun, hinterval, hattempts, nofun⟩
  have hconfig : args.settings files = .ok config := (hsettings config).2 ⟨rfl, husable⟩
  have hnode : config.resolveNode ⟨0, .ok [104]⟩ = .ok "h" := rfl
  refine ⟨hfinds args rfl, hconfig, fun other h => ?_, fun s hs => ?_⟩
  · have hwithout := hfinds { args with publishInterval := none } rfl
    obtain ⟨-, hsettings, -, -⟩ := ServeArgs.resolve_by_layers hwithout
    obtain ⟨rfl, husable⟩ := (hsettings other).1 h
    exact absurd husable.publishInterval (by decide)
  · exact ((hserve _ s).2 config "h" (hs ▸ hconfig) hnode).2

end NetRelocation
