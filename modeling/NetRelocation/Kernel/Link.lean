import NetRelocation.Device.Basic
import NetRelocation.Device.LinkConfig

/-!
# Links as the kernel describes them

A link is described by its index, its flags, and a list of attributes, in which the first of a kind
counts. A request to change a link carries attributes of the same form (`moveAttributes`).
-/

namespace NetRelocation

/-- A network namespace as the kernel knows it. -/
inductive Place where
  | host
  /-- The namespace behind a file. -/
  | file (path : String)
  deriving DecidableEq, Repr

/-- Places are shown by the path of their file. -/
def Place.display : Place → String
  | host => "host"
  | file path => path

inductive LinkFlag where
  | up
  | loopback
  /-- A flag without meaning here. -/
  | other (name : String)
  deriving DecidableEq, Repr

def LinkFlag.ofWord : String → LinkFlag
  | "up" => up
  | "loopback" => loopback
  | word => other word

inductive LinkAttribute where
  | name (s : String)
  | aliasName (s : String)
  | mtu (n : UInt32)
  | address (bytes : List UInt8)
  /-- What a software link is. -/
  | info (kind : Option String)
  /-- The namespace that the link is to move to. -/
  | netns (target : Place)
  | other (number : Nat) (bytes : List UInt8)
  deriving DecidableEq, Repr

/-- A link as the kernel describes it. -/
structure Link where
  index : UInt32
  flags : List LinkFlag
  attributes : List LinkAttribute
  deriving DecidableEq, Repr

namespace Link

/-! ## What a link is -/

def name? (link : Link) : Option String :=
  link.attributes.findSome? fun
    | .name s => some s
    | _ => none

/-- The first alias that is not empty. -/
def aliasName? (link : Link) : Option String :=
  link.attributes.findSome? fun
    | .aliasName s => if s = "" then none else some s
    | _ => none

/-- The first hardware address that is not empty. -/
def hardwareAddr? (link : Link) : Option HardwareAddr :=
  link.attributes.findSome? fun
    | .address bytes => if bytes = [] then none else some ⟨bytes⟩
    | _ => none

def mtu? (link : Link) : Option UInt32 :=
  link.attributes.findSome? fun
    | .mtu n => some n
    | _ => none

def isVirtual (link : Link) : Bool :=
  link.attributes.any fun
    | .info _ => true
    | _ => false

/-- What stands behind the link. -/
def kind (link : Link) : DeviceKind :=
  if .loopback ∈ link.flags then .loopback
  else if link.isVirtual then .virtual
  else .physical

def toDevice? (link : Link) : Option Device :=
  link.name?.map fun name =>
    { index := link.index
      name := name
      hardwareAddr := link.hardwareAddr?
      mtu := link.mtu?
      up := decide (.up ∈ link.flags)
      kind := link.kind }

end Link

/-! ## What a link is to become -/

namespace LinkConfig

/-- The numbers of the attributes without a form of their own. -/
def gsoMaxSizeNumber : Nat := 41

/-- The number of the attribute for received segments. -/
def groMaxSizeNumber : Nat := 58

/-- The number of the attribute for segments of IPv4. -/
def gsoIPv4MaxSizeNumber : Nat := 63

/-- The number of the attribute for received segments of IPv4. -/
def groIPv4MaxSizeNumber : Nat := 64

/-- The bytes of a number, the least first. -/
def littleEndian (n : UInt32) : List UInt8 :=
  (List.range 4).map fun i => UInt8.ofNat (n.toNat / Nat.pow 256 i)

/-- The attribute for a number that is given and positive. -/
def positive (value : Option UInt32) (mk : UInt32 → LinkAttribute) : List LinkAttribute :=
  match value with
  | some n => if 0 < n then [mk n] else []
  | none => []

/-- The attribute for a hardware address that is given and not empty. -/
def givenAddress (value : Option HardwareAddr) : List LinkAttribute :=
  match value with
  | some addr => if addr.bytes = [] then [] else [.address addr.bytes]
  | none => []

def limit (number : Nat) (value : Option UInt32) : List LinkAttribute :=
  positive value fun n => .other number (littleEndian n)

/-- The attributes for everything but the name. -/
def attributes (config : LinkConfig) : List LinkAttribute :=
  positive config.mtu .mtu ++ givenAddress config.hardwareAddr ++
  limit gsoMaxSizeNumber config.gsoMaxSize ++ limit groMaxSizeNumber config.groMaxSize ++
  limit gsoIPv4MaxSizeNumber config.gsoIPv4MaxSize ++
  limit groIPv4MaxSizeNumber config.groIPv4MaxSize

end LinkConfig

/-- The attributes that rename a link and take it to a namespace. -/
def moveAttributes (name : String) (target : Place) (more : List LinkAttribute) :
    List LinkAttribute :=
  .name name :: .netns target :: more

end NetRelocation
