import NetRelocation.Proofs.AnyOrder
import NetRelocation.Proofs.Serialization

/-!
# The texts of an event

**What shows an event** (`DriverEvent.Shown`). An object, among whose members one names the kind of
the event and the others give its fields; a granted device is an object of the same sort. Members
may come in any order and with any members of other names between them. Those with a default may be
left out when they have it. All this is said about trees; how a tree may be written is the grammar
(`ValueText`).

**Theorem (`read_in_any_order`).** Each text of each tree that shows an event is read as the event.
-/

namespace NetRelocation

open Json

/-! ## Trees that show a value -/

/-- The trees of an optional reference to a namespace. -/
inductive NamespaceShown : Option NamespaceRef → Value → Prop
  | absent : NamespaceShown none .null
  | path (file : String) : NamespaceShown (some (.path file)) (.object [("path", .string file)])
  | process (number : Int32) :
    NamespaceShown (some (.process number)) (.object [("process", .integer number.toInt)])

/-- The trees of attributes: the last member with a key has its value. -/
def AttributesShown (attributes : SortedMap String String) (v : Value) : Prop :=
  ∃ l : List (String × String), (∀ key, attributes.get? key = Codec.lastOf key l) ∧
    v = .object (l.map fun p => (p.1, .string p.2))

/-- The trees of a granted device. -/
inductive AllocatedDevice.Shown (device : AllocatedDevice) : Value → Prop
  | object {pool request attributes members : List (String × Value)}
    (pool_given : Optional "pool" (· = .string device.pool) (device.pool = "") pool)
    (request_given : Optional "request" (· = .string device.request) (device.request = "") request)
    (attributes_given : Optional "attributes" (AttributesShown device.attributes)
      (device.attributes = .empty) attributes)
    (arranged : Arranged ["name", "pool", "request", "attributes"]
      (("name", .string device.name.text) :: (pool ++ (request ++ attributes))) members) :
    Shown device (.object members)

namespace DriverEvent

def fieldNames : DriverEvent → List String
  | allocated .. => ["workload", "devices"]
  | networkReady .. => ["workload", "namespace"]
  | stopping .. => ["workload", "namespace"]
  | released _ => ["workload"]
  | removed _ => ["workload"]

/-- The members that give an event its fields. -/
inductive Given : DriverEvent → List (String × Value) → Prop
  | allocated {w : WorkloadId} {devices : List AllocatedDevice} {trees : List Value}
    (shown : List.Forall₂ AllocatedDevice.Shown devices trees) :
    Given (.allocated w devices) [("workload", .string w.text), ("devices", .array trees)]
  | released {w : WorkloadId} : Given (.released w) [("workload", .string w.text)]
  | networkReady {w : WorkloadId} {ns : Option NamespaceRef} {own : List (String × Value)}
    (shown : Optional "namespace" (NamespaceShown ns) (ns = none) own) :
    Given (.networkReady w ns) (("workload", .string w.text) :: own)
  | stopping {w : WorkloadId} {ns : Option NamespaceRef} {own : List (String × Value)}
    (shown : Optional "namespace" (NamespaceShown ns) (ns = none) own) :
    Given (.stopping w ns) (("workload", .string w.text) :: own)
  | removed {w : WorkloadId} : Given (.removed w) [("workload", .string w.text)]

/-- The trees of an event: among its members, in any order, one names its kind. -/
inductive Shown (event : DriverEvent) : Value → Prop
  | object {given members : List (String × Value)} (fields_given : event.Given given)
    (arranged : Arranged ("type" :: event.fieldNames) (("type", .string event.name) :: given)
      members) : Shown event (.object members)

end DriverEvent

/-! ## What the codecs make of them -/

namespace Json.Fields

variable {α : Type} {αs : List Type} {name : String} {codec : Codec α} {absent : Absent α}
  {rest : Fields αs} {a : α} {as : Tuple αs} {own more : List (String × Value)}

theorem given_member {v : Value} (hv : ∀ style, codec.view style v = .ok a)
    (hmore : rest.Given as more) :
    (cons name codec absent rest).Given (a, as) ((name, v) :: more) :=
  ⟨[(name, v)], more, rfl, hmore, .inl ⟨v, hv, rfl⟩⟩

theorem given_optional {shown : Value → Prop} {default : Prop}
    (hown : Optional name shown default own)
    (hshown : ∀ v, shown v → ∀ style, codec.view style v = .ok a)
    (hdefault : default → absent.value? = some a) (hmore : rest.Given as more) :
    (cons name codec absent rest).Given (a, as) (own ++ more) :=
  ⟨own, more, rfl, hmore, hown.imp (fun ⟨v, hv, heq⟩ => ⟨v, hshown v hv, heq⟩)
    fun ⟨hd, heq⟩ => ⟨hdefault hd, heq⟩⟩

end Json.Fields

theorem WorkloadId.view_text (w : WorkloadId) (style : TreeStyle) :
    codec.view style (.string w.text) = .ok w := (w.carries 0).view style

theorem DeviceName.view_text (name : DeviceName) (style : TreeStyle) :
    codec.view style (.string name.text) = .ok name := (name.carries 0).view style

theorem NamespaceShown.view {ns : Option NamespaceRef} {v : Value} (h : NamespaceShown ns v)
    (style : TreeStyle) : NamespaceRef.codec.option.view style v = .ok ns := by
  cases h with
  | absent => exact (NamespaceRef.carries_optional none).view style
  | path file => exact (NamespaceRef.carries_optional (some (.path file))).view style
  | process number => exact (NamespaceRef.carries_optional (some (.process number))).view style

theorem AttributesShown.view {attributes : SortedMap String String} {v : Value}
    (h : AttributesShown attributes v) (style : TreeStyle) :
    Codec.string.map.view style v = .ok attributes := by
  obtain ⟨l, hlast, rfl⟩ := h
  exact Codec.view_map (fun _ => rfl) hlast

theorem AllocatedDevice.Shown.view {device : AllocatedDevice} {v : Value} (h : device.Shown v)
    (style : TreeStyle) : codec.view style v = .ok device := by
  obtain ⟨hpool, hrequest, hattributes, harranged⟩ := h
  have hgiven : fields.Given (device.name, device.pool, device.request, device.attributes, ()) _ :=
    Fields.given_member device.name.view_text
      (Fields.given_optional hpool (fun v hv style => hv ▸ rfl) (fun h => congrArg some h.symm)
      (Fields.given_optional hrequest (fun v hv style => hv ▸ rfl) (fun h => congrArg some h.symm)
      (Fields.given_optional hattributes (fun v hv => hv.view) (fun h => congrArg some h.symm)
        rfl)))
  rw [List.append_nil] at hgiven
  exact Codec.view_record _ (by decide) hgiven harranged style

theorem AllocatedDevice.view_list {devices : List AllocatedDevice} {trees : List Value}
    (h : List.Forall₂ Shown devices trees) (style : TreeStyle) :
    codec.list.view style (.array trees) = .ok devices :=
  Codec.viewAll_forall₂ (h.imp fun _ _ hshown => hshown.view style)

namespace DriverEvent

theorem Given.name_mem {event : DriverEvent} {given : List (String × Value)}
    (h : event.Given given) : ∀ m ∈ given, m.1 ∈ event.fieldNames := by
  have hnamespace {w : WorkloadId} {ns : Option NamespaceRef} {own : List (String × Value)}
      (hown : Optional "namespace" (NamespaceShown ns) (ns = none) own) :
      ∀ m ∈ ("workload", Value.string w.text) :: own, m.1 ∈ ["workload", "namespace"] := by
    obtain ⟨v, -, rfl⟩ | ⟨-, rfl⟩ := hown
    · simp
    · simp
  cases h with
  | allocated _ => simp [fieldNames]
  | released => simp [fieldNames]
  | networkReady hown => exact hnamespace hown
  | stopping hown => exact hnamespace hown
  | removed => simp [fieldNames]

/-- The alternative of an event's name reads the event from its fields in any order. -/
theorem Given.exists_kind {event : DriverEvent} {given : List (String × Value)}
    (h : event.Given given) : ∃ kind, kinds.find? (·.name = event.name) = some kind ∧
      ∀ members, Arranged event.fieldNames given members →
        kind.view (.object members) = .ok event := by
  have hworkload (w : WorkloadId) : workloadFields.Given (w, ()) [("workload", .string w.text)] :=
    Fields.given_member w.view_text rfl
  have hnamespace {w : WorkloadId} {ns : Option NamespaceRef} {own : List (String × Value)}
      (hown : Optional "namespace" (NamespaceShown ns) (ns = none) own) :
      namespaceFields.Given (w, ns, ()) (("workload", .string w.text) :: own) := by
    have hgiven : namespaceFields.Given (w, ns, ()) (("workload", .string w.text) :: (own ++ [])) :=
      Fields.given_member w.view_text (Fields.given_optional hown (fun _ hv => hv.view)
        (fun hnone => congrArg some hnone.symm) rfl)
    rwa [List.append_nil] at hgiven
  cases h with
  | @allocated w devices trees hshown =>
    have hgiven : allocatedFields.Given (w, devices, ())
        [("workload", .string w.text), ("devices", .array trees)] :=
      Fields.given_member w.view_text
        (Fields.given_member (AllocatedDevice.view_list hshown) rfl)
    exact ⟨_, rfl, fun _ => Tagged.view_arranged _ _ (by decide) hgiven⟩
  | @released w => exact ⟨_, rfl, fun _ => Tagged.view_arranged _ _ (by decide) (hworkload w)⟩
  | networkReady hown =>
    exact ⟨_, rfl, fun _ => Tagged.view_arranged _ _ (by decide) (hnamespace hown)⟩
  | stopping hown =>
    exact ⟨_, rfl, fun _ => Tagged.view_arranged _ _ (by decide) (hnamespace hown)⟩
  | @removed w => exact ⟨_, rfl, fun _ => Tagged.view_arranged _ _ (by decide) (hworkload w)⟩

theorem tag_not_mem_fieldNames (event : DriverEvent) : tag ∉ event.fieldNames := by
  cases event <;> simp [fieldNames, tag]

/-- **An event is read from any of its texts**: the order of its members does not count, nor do
members of other names. -/
theorem read_in_any_order {event : DriverEvent} {v : Value} {text : String}
    (hshown : event.Shown v) (htext : Padded (ValueText maxDepth) v text.toList) :
    parse text = .ok event := by
  obtain ⟨hgiven, harranged⟩ := hshown
  obtain ⟨before, body, after, hbefore, hbody, hafter, htext⟩ := htext
  obtain ⟨kind, hkind, hview⟩ := hgiven.exists_kind
  have htag := harranged.once (tag_not_mem_fieldNames event) hgiven.name_mem
  have hfields := harranged.without (tag_not_mem_fieldNames event) hgiven.name_mem
  have hread : readTagged tag "internally tagged enum DriverEvent" kinds maxDepth
      (before ++ (body ++ after)) = .ok (event, after) := by
    refine (readTagged_text hkind htag hbefore hbody _ after).trans ?_
    rw [hview _ hfields]
    rfl
  rw [parse, htext, hread]
  dsimp only
  rw [finish, skipSpace_blank hafter]

/-- A grant with its tag in the middle, a name with an escape, a default left out, and members of
another name, one of them twice. -/
theorem scrambled_grant_is_read :
    let w : WorkloadId := ⟨"w1", by decide, by decide, by decide⟩
    let eth0 : DeviceName := ⟨"eth0", by decide, by decide, by decide, by decide⟩
    let event : DriverEvent := .allocated w [.plain eth0 "" "nic"]
    let device := [("x", Value.integer 1), ("request", .string "nic"), ("name", .string "eth0")]
    let members := [("x", .array []), ("devices", .array [.object device]),
      ("type", .string "allocated"), ("x", .null), ("workload", .string "w1")]
    let text := "\x7b\"x\":[ ],\"devices\":[ \x7b\"x\":1,\"request\":\"nic\",\"name\":" ++
      "\"eth\\u0030\"\x7d],\"type\":\"allocated\",\"x\":null,\"workload\":\"w1\"\x7d\n"
    (event.Shown (.object members) ∧
      Padded (ValueText maxDepth) (.object members) text.toList) ∧
      parse text = .ok event := by
  intro w eth0 event device members text
  have hdeviceOrder : [0, 1, 2].Perm [2, 1, 0] := by decide
  have hdevice : AllocatedDevice.Shown (.plain eth0 "" "nic") (.object device) :=
    .object (.inr ⟨rfl, rfl⟩) (.inl ⟨_, rfl, rfl⟩) (.inr ⟨rfl, rfl⟩)
      ⟨[("x", .integer 1)], by decide, hdeviceOrder.map (device.getD · ("", .null))⟩
  have horder : [0, 1, 2, 3, 4].Perm [2, 4, 1, 0, 3] := by decide
  have hshown : event.Shown (.object members) :=
    .object (.allocated (.cons hdevice .nil)) ⟨[("x", .array []), ("x", .null)], by decide,
      horder.map (members.getD · ("", .null))⟩
  have hname : StringText "eth0" "\"eth\\u0030\"".toList :=
    .quoted (s := "eth0") (.cons (charText_escapeChar 'e') (.cons (charText_escapeChar 't')
      (.cons (charText_escapeChar 'h') (.cons (.code (c := '0') (w := '0') (x := '0') (y := '3')
        (z := '0') (by decide)) .nil))))
  have hstring (s : String) (depth : Nat) :=
    (ScalarText.string (stringText_stringChars s)).value depth
  have hone : ScalarText (.integer 1) ['1'] := .integer (inRange_iff.2 (by decide))
  have hdeviceText : ValueText 125 (.object device) _ := HolderText.object (.some
    (.more (memberText_stringChars _ (hone.value _))
    (.more (memberText_stringChars _ (hstring _ _))
    (.last (memberText_stringChars _ ((ScalarText.string hname).value _))))))
  have hdevices : ValueText 126 (.array [.object device]) _ :=
    HolderText.array (.some (.last ⟨[' '], _, [], by decide, hdeviceText, by decide, rfl⟩))
  have hempty : ValueText 126 (.array []) _ := HolderText.array (.none (show Blank [' '] by decide))
  have hmembers : ValueText 127 (.object members) _ := HolderText.object (.some
    (.more (memberText_stringChars _ hempty)
    (.more (memberText_stringChars _ hdevices)
    (.more (memberText_stringChars _ (hstring _ _))
    (.more (memberText_stringChars _ (ScalarText.null.value _))
    (.last (memberText_stringChars _ (hstring _ _))))))))
  have htext : Padded (ValueText maxDepth) (.object members) text.toList :=
    ⟨[], _, ['\n'], by decide, hmembers, by decide, by decide⟩
  exact ⟨⟨hshown, htext⟩, read_in_any_order hshown htext⟩

end DriverEvent

end NetRelocation
