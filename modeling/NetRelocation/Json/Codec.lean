import NetRelocation.Json.Read

/-!
# Codecs

A codec describes the JSON form of a type once and serves three purposes: it writes a value as a
tree, it reads one straight from text, reporting the first problem in text order, and it reads one
from a tree.

Records are described by their list of fields. They are written as objects in field order and read
from objects in any order, where unknown members are passed over, or from arrays of the fields in
order.
-/

namespace NetRelocation.Json

/-- What an array with too many elements for a record is blamed for. -/
inductive TreeStyle where
  /-- The value stands by itself. -/
  | plain
  /-- The value was set aside while a larger one was read. -/
  | buffered
  deriving DecidableEq, Repr

/-- The JSON form of a type. -/
structure Codec (α : Type) where
  /-- The tree of a value. -/
  write : α → Value
  /-- Read a value from text, with so many levels of containers left. -/
  read : Nat → List Char → Step α
  /-- Read a value from a tree. -/
  view : TreeStyle → Value → Except Fault α

/-- A mismatch between what stands in a tree and what is expected. -/
def wrongType {α : Type} (v : Value) (expected : String) : Except Fault α :=
  .error (.mismatch (.invalidType v.found expected))

/-- The fault of a text whose next value is not of the expected type. A scalar is read to its end
first. -/
def unexpected (expected : String) (cs : List Char) : Fault :=
  let blame (found : Found) : Fault := .mismatch (.invalidType found expected)
  let either {β : Type} (r : Except Fault β) (found : β → Found) : Fault :=
    match r with
    | .error e => e
    | .ok b => blame (found b)
  match skipSpace cs with
  | [] => .unfinished .value
  | 'n' :: cs => either (readWord ['u', 'l', 'l'] cs) fun _ => .null
  | 't' :: cs => either (readWord ['r', 'u', 'e'] cs) fun _ => .bool true
  | 'f' :: cs => either (readWord ['a', 'l', 's', 'e'] cs) fun _ => .bool false
  | '"' :: cs => either (readString cs) fun r => .string r.1
  | '-' :: cs => either (readNumber true cs) fun r => r.1.found
  | '[' :: _ => blame .sequence
  | '{' :: _ => blame .map
  | c :: cs =>
    if c.isDigit then either (readNumber false (c :: cs)) fun r => r.1.found
    else .malformed .expectedValue

namespace Codec

/-- Decode a whole text. -/
def decode {α : Type} (c : Codec α) (s : String) : Except Fault α :=
  match c.read maxDepth s.toList with
  | .error e => .error e
  | .ok r => finish r

/-- The compact text of a value. -/
def encode {α : Type} (c : Codec α) (a : α) : String := (c.write a).compact

/-! ## Scalars -/

/-- Strings, under the name that messages give them. -/
def text (expected : String) : Codec String where
  write s := .string s
  read _ cs :=
    match skipSpace cs with
    | '"' :: cs => readString cs
    | cs => .error (unexpected expected cs)
  view _
    | .string s => .ok s
    | v => wrongType v expected

def string : Codec String := text "a string"

def path : Codec String := text "path string"

def bool : Codec Bool where
  write b := .bool b
  read _ cs :=
    match skipSpace cs with
    | 't' :: cs => (readWord ['r', 'u', 'e'] cs).map (true, ·)
    | 'f' :: cs => (readWord ['a', 'l', 's', 'e'] cs).map (false, ·)
    | cs => .error (unexpected "a boolean" cs)
  view _
    | .bool b => .ok b
    | v => wrongType v "a boolean"

/-- An integer of a range, from a number of either kind. -/
def fromNumber {α : Type} (ofInt? : Int → Option α) (expected : String) : Number → Except Fault α
  | .integer n =>
    match ofInt? n with
    | some a => .ok a
    | none => .error (.mismatch (.invalidValue (.integer n) expected))
  | .float x => .error (.mismatch (.invalidType (.float x) expected))

def ranged {α : Type} (toInt : α → Int) (ofInt? : Int → Option α) (expected : String) :
    Codec α where
  write a := .integer (toInt a)
  read _ cs :=
    let number (r : Step Number) : Step α :=
      match r with
      | .error e => .error e
      | .ok (n, rest) => (fromNumber ofInt? expected n).map (·, rest)
    match skipSpace cs with
    | '-' :: cs => number (readNumber true cs)
    | c :: cs =>
      if c.isDigit then number (readNumber false (c :: cs))
      else .error (unexpected expected (c :: cs))
    | [] => .error (.unfinished .value)
  view _
    | .integer n => fromNumber ofInt? expected (.integer n)
    | .float x => fromNumber ofInt? expected (.float x)
    | v => wrongType v expected

/-- Unsigned integers of 32 bits. -/
def uint32 : Codec UInt32 :=
  ranged (fun n => n.toNat)
    (fun n => if 0 ≤ n ∧ n < UInt32.size then some (UInt32.ofNat n.toNat) else none) "u32"

/-- Unsigned integers of 64 bits. -/
def uint64 : Codec UInt64 :=
  ranged (fun n => n.toNat)
    (fun n => if 0 ≤ n ∧ n < UInt64.size then some (UInt64.ofNat n.toNat) else none) "u64"

/-- Signed integers of 32 bits. -/
def int32 : Codec Int32 :=
  ranged (fun n => n.toInt)
    (fun n => if Int32.minValue.toInt ≤ n ∧ n ≤ Int32.maxValue.toInt then some (Int32.ofInt n)
      else none) "i32"

/-! ## Derived codecs -/

/-- Values that are written as strings of a grammar of their own. -/
def parsed {α : Type} (display : α → String) (parse : String → Except String α) : Codec α where
  write a := .string (display a)
  read depth cs :=
    match string.read depth cs with
    | .error e => .error e
    | .ok (s, rest) =>
      match parse s with
      | .ok a => .ok (a, rest)
      | .error message => .error (.mismatch (.refused message))
  view style v :=
    match string.view style v with
    | .error e => .error e
    | .ok s =>
      match parse s with
      | .ok a => .ok a
      | .error message => .error (.mismatch (.refused message))

/-- Values that may be missing, written as null. -/
def option {α : Type} (c : Codec α) : Codec (Option α) where
  write
    | some a => c.write a
    | none => .null
  read depth cs :=
    match skipSpace cs with
    | 'n' :: cs => (readWord ['u', 'l', 'l'] cs).map (none, ·)
    | cs => (c.read depth cs).map fun r => (some r.1, r.2)
  view style
    | .null => .ok none
    | v => (c.view style v).map some

/-- Read every tree of a list. -/
def viewAll {α : Type} (c : Codec α) (style : TreeStyle) : List Value → Except Fault (List α)
  | [] => .ok []
  | v :: vs =>
    match c.view style v with
    | .error e => .error e
    | .ok a => (viewAll c style vs).map (a :: ·)

/-- Lists, written as arrays. -/
def list {α : Type} (c : Codec α) : Codec (List α) where
  write l := .array (l.map c.write)
  read depth cs :=
    match skipSpace cs, depth with
    | '[' :: _, 0 => .error (.malformed .recursionLimit)
    | '[' :: cs, depth + 1 =>
      (readArray (fun items cs => (c.read depth cs).map fun r => (r.1 :: items, r.2)) [] cs).map
        fun r => (r.1.reverse, r.2)
    | cs, _ => .error (unexpected "a sequence" cs)
  view style
    | .array items => viewAll c style items
    | v => wrongType v "a sequence"

/-- Read the members of a tree into a map. -/
def viewEntries {α : Type} (c : Codec α) (style : TreeStyle) :
    SortedMap String α → List (String × Value) → Except Fault (SortedMap String α)
  | m, [] => .ok m
  | m, (k, v) :: rest =>
    match c.view style v with
    | .error e => .error e
    | .ok a => viewEntries c style (m.insert k a) rest

/-- Maps from strings, written as objects; of several members with one key the last counts. -/
def map {α : Type} (c : Codec α) : Codec (SortedMap String α) where
  write m := .object (m.toList.map fun p => (p.1, c.write p.2))
  read depth cs :=
    match skipSpace cs, depth with
    | '{' :: _, 0 => .error (.malformed .recursionLimit)
    | '{' :: cs, depth + 1 =>
      readObject (fun m key cs =>
        match readColon cs with
        | .error e => .error e
        | .ok cs => (c.read depth cs).map fun r => (m.insert key r.1, r.2)) SortedMap.empty cs
    | cs, _ => .error (unexpected "a map" cs)
  view style
    | .object members => viewEntries c style .empty members
    | v => wrongType v "a map"

end Codec

/-! ## Records -/

/-- What a field that is not given stands for. -/
inductive Absent (α : Type) where
  /-- The field has to be given. -/
  | required
  /-- A missing member of an object stands for this value. -/
  | implied (a : α)
  /-- A missing member of an object or a missing element of an array stands for this value. -/
  | defaulted (a : α)

/-- The fields of a record with the types of their values. -/
inductive Fields : List Type → Type 1 where
  | nil : Fields []
  | cons {α : Type} {αs : List Type} (name : String) (codec : Codec α) (absent : Absent α)
      (rest : Fields αs) : Fields (α :: αs)

/-- One value per type. -/
def Tuple : List Type → Type
  | [] => Unit
  | α :: αs => α × Tuple αs

/-- One value per type, as far as they are known. -/
def Slots : List Type → Type
  | [] => Unit
  | α :: αs => Option α × Slots αs

namespace Fields

/-- No field is known. -/
def blank : {αs : List Type} → Fields αs → Slots αs
  | _, nil => ()
  | _, cons _ _ _ rest => (none, rest.blank)

def size : {αs : List Type} → Fields αs → Nat
  | _, nil => 0
  | _, cons _ _ _ rest => rest.size + 1

/-- The members of a record in field order. -/
def write : {αs : List Type} → Fields αs → Tuple αs → List (String × Value)
  | _, nil, _ => []
  | _, cons name codec _ rest, (a, as) => (name, codec.write a) :: rest.write as

/-- Read the member with a key: into its field, or past it when there is none. -/
def member (depth : Nat) (key : String) :
    {αs : List Type} → Fields αs → Slots αs → List Char → Step (Slots αs)
  | _, nil, s, cs =>
    match readColon cs with
    | .error e => .error e
    | .ok cs => (skipValue cs).map (s, ·)
  | _, cons name codec _ rest, (slot, slots), cs =>
    if key = name then
      match slot with
      | some _ => .error (.mismatch (.duplicateField name))
      | none =>
        match readColon cs with
        | .error e => .error e
        | .ok cs => (codec.read depth cs).map fun r => ((some r.1, slots), r.2)
    else (rest.member depth key slots cs).map fun r => ((slot, r.1), r.2)

/-- Put the tree of the member with a key into its field, if there is one. -/
def viewMember (style : TreeStyle) (key : String) (v : Value) :
    {αs : List Type} → Fields αs → Slots αs → Except Fault (Slots αs)
  | _, nil, s => .ok s
  | _, cons name codec _ rest, (slot, slots) =>
    if key = name then
      match slot with
      | some _ => .error (.mismatch (.duplicateField name))
      | none => (codec.view style v).map fun a => (some a, slots)
    else (rest.viewMember style key v slots).map (slot, ·)

/-- Put the trees of all members into their fields. -/
def viewMembers (style : TreeStyle) {αs : List Type} (fields : Fields αs) :
    Slots αs → List (String × Value) → Except Fault (Slots αs)
  | s, [] => .ok s
  | s, (k, v) :: rest =>
    match fields.viewMember style k v s with
    | .error e => .error e
    | .ok s => fields.viewMembers style s rest

/-- The values of an object's fields, once all members are read. -/
def complete : {αs : List Type} → Fields αs → Slots αs → Except Fault (Tuple αs)
  | _, nil, _ => .ok ()
  | _, cons name _ absent rest, (slot, slots) =>
    match slot, absent with
    | some a, _ => (rest.complete slots).map (a, ·)
    | none, .implied a => (rest.complete slots).map (a, ·)
    | none, .defaulted a => (rest.complete slots).map (a, ·)
    | none, .required => .error (.mismatch (.missingField name))

/-- Read the elements of an array into the fields in order; `done` fields were read before. -/
def items (depth : Nat) (expected : String) (done : Nat) :
    {αs : List Type} → Fields αs → List Char → Step (Tuple αs)
  | _, nil, cs => .ok ((), cs)
  | _, cons _ codec absent rest, cs =>
    match nextItem (done == 0) cs with
    | .error e => .error e
    | .ok (some cs) =>
      match codec.read depth cs with
      | .error e => .error e
      | .ok (a, cs) => (rest.items depth expected (done + 1) cs).map fun r => ((a, r.1), r.2)
    | .ok none =>
      match absent with
      | .defaulted a => (rest.items depth expected (done + 1) cs).map fun r => ((a, r.1), r.2)
      | _ => .error (.mismatch (.invalidLength done expected))

/-- Put the trees of an array into the fields in order; gives the trees that are left as well. -/
def viewItems (style : TreeStyle) (expected : String) (done : Nat) :
    {αs : List Type} → Fields αs → List Value → Except Fault (Tuple αs × List Value)
  | _, nil, vs => .ok ((), vs)
  | _, cons _ _ absent rest, [] =>
    match absent with
    | .defaulted a => (rest.viewItems style expected (done + 1) []).map fun r => ((a, r.1), r.2)
    | _ => .error (.mismatch (.invalidLength done expected))
  | _, cons _ codec _ rest, v :: vs =>
    match codec.view style v with
    | .error e => .error e
    | .ok a => (rest.viewItems style expected (done + 1) vs).map fun r => ((a, r.1), r.2)

def view (style : TreeStyle) (label : String) {αs : List Type} (fields : Fields αs) :
    Value → Except Fault (Tuple αs)
  | .object members =>
    match fields.viewMembers style fields.blank members with
    | .error e => .error e
    | .ok s => fields.complete s
  | .array vs =>
    match fields.viewItems style (label ++ " with " ++ elements fields.size) 0 vs with
    | .error e => .error e
    | .ok (t, []) => .ok t
    | .ok (_, _ :: _) =>
      .error (.mismatch (.invalidLength vs.length
        (match style with
        | .plain => "fewer elements in array"
        | .buffered => elements fields.size ++ " in sequence")))
  | v => wrongType v label

def read (label : String) {αs : List Type} (fields : Fields αs) (depth : Nat) (cs : List Char) :
    Step (Tuple αs) :=
  match skipSpace cs, depth with
  | '{' :: _, 0 => .error (.malformed .recursionLimit)
  | '[' :: _, 0 => .error (.malformed .recursionLimit)
  | '{' :: cs, depth + 1 =>
    match readMembers (fun s key cs => fields.member depth key s cs) (cs.length + 1) true
        fields.blank cs with
    | .error e => .error e
    | .ok (s, cs) =>
      match fields.complete s with
      | .error e => .error e
      | .ok t => (endMembers cs).map (t, ·)
  | '[' :: cs, depth + 1 =>
    match fields.items depth (label ++ " with " ++ elements fields.size) 0 cs with
    | .error e => .error e
    | .ok (t, cs) => (endItems cs).map (t, ·)
  | cs, _ => .error (unexpected label cs)

end Fields

/-- The codec of a record with a label for messages. -/
def Codec.record {β : Type} {αs : List Type} (label : String) (fields : Fields αs)
    (toTuple : β → Tuple αs) (ofTuple : Tuple αs → β) : Codec β where
  write b := .object (fields.write (toTuple b))
  read depth cs := (fields.read label depth cs).map fun r => (ofTuple r.1, r.2)
  view style v := (fields.view style label v).map ofTuple

/-! ## Unions tagged from outside -/

/-- One alternative of a union. -/
structure Variant (α : Type) where
  name : String
  /-- The alternative when its name stands alone. -/
  bare : Except Fault α
  /-- Read what the alternative carries from text. -/
  read : Nat → List Char → Step α
  /-- Read what the alternative carries from a tree. -/
  view : TreeStyle → Value → Except Fault α

/-- An alternative without contents. -/
def Variant.plain {α : Type} (name : String) (a : α) : Variant α where
  name := name
  bare := .ok a
  read _ cs :=
    match skipSpace cs with
    | 'n' :: cs => (readWord ['u', 'l', 'l'] cs).map (a, ·)
    | cs => .error (unexpected "unit" cs)
  view _
    | .null => .ok a
    | v => wrongType v "unit"

/-- An alternative that carries a value. -/
def Variant.carrying {α γ : Type} (name : String) (c : Codec γ) (mk : γ → α) : Variant α where
  name := name
  bare := .error (.mismatch (.invalidType .unitVariant "newtype variant"))
  read depth cs := (c.read depth cs).map fun r => (mk r.1, r.2)
  view style v := (c.view style v).map mk

/-- The alternative with a name. -/
def findVariant {α : Type} (vs : List (Variant α)) (name : String) : Except Fault (Variant α) :=
  match vs.find? (·.name = name) with
  | some v => .ok v
  | none => .error (.mismatch (.unknownVariant name (vs.map (·.name))))

/-- Read the name of an alternative after its opening quote. -/
def readName {α : Type} (vs : List (Variant α)) (cs : List Char) : Step (Variant α) :=
  match readString cs with
  | .error e => .error e
  | .ok (name, rest) => (findVariant vs name).map (·, rest)

/-- Read the only key of an object: the name of an alternative. -/
def readTag {α : Type} (vs : List (Variant α)) (cs : List Char) : Step (Variant α) :=
  match skipSpace cs with
  | [] => .error (.unfinished .object)
  | '"' :: cs => readName vs cs
  | '}' :: _ => .error (.malformed .expectedValue)
  | _ => .error (.malformed .keyMustBeString)

/-- Unions written as a name, or as an object with the name as its only key. -/
def Codec.union {α : Type} (write : α → Value) (vs : List (Variant α)) : Codec α where
  write := write
  read depth cs :=
    match skipSpace cs, depth with
    | [], _ => .error (.unfinished .value)
    | '{' :: _, 0 => .error (.malformed .recursionLimit)
    | '{' :: cs, depth + 1 =>
      match readTag vs cs with
      | .error e => .error e
      | .ok (v, cs) =>
        match readColon cs with
        | .error e => .error e
        | .ok cs =>
          match v.read depth cs with
          | .error e => .error e
          | .ok (a, cs) =>
            match skipSpace cs with
            | [] => .error (.unfinished .object)
            | '}' :: rest => .ok (a, rest)
            | _ => .error (.malformed .expectedValue)
    | '"' :: cs, _ =>
      match readName vs cs with
      | .error e => .error e
      | .ok (v, rest) => v.bare.map (·, rest)
    | _, _ => .error (.malformed .expectedValue)
  view style
    | .string name =>
      match findVariant vs name with
      | .error e => .error e
      | .ok v => v.bare
    | .object [(name, value)] =>
      match findVariant vs name with
      | .error e => .error e
      | .ok v => v.view style value
    | .object _ => .error (.mismatch (.invalidValue .map "map with a single key"))
    | v => wrongType v "string or map"

/-! ## Unions tagged from inside -/

/-- One alternative of a union whose objects name it in a member. -/
structure Tagged (α : Type) where
  name : String
  /-- Read the alternative from the members, or elements, other than its tag. -/
  view : Value → Except Fault α

/-- An alternative with the fields of a record. -/
def Tagged.record {α : Type} {αs : List Type} (name label : String) (fields : Fields αs)
    (mk : Tuple αs → α) : Tagged α where
  name := name
  view v := (fields.view .buffered label v).map mk

def readTaggedName {α : Type} (ts : List (Tagged α)) (cs : List Char) : Step (Tagged α) :=
  match skipSpace cs with
  | '"' :: cs =>
    match readString cs with
    | .error e => .error e
    | .ok (name, rest) =>
      match ts.find? (·.name = name) with
      | some t => .ok (t, rest)
      | none => .error (.mismatch (.unknownVariant name (ts.map (·.name))))
  | cs => .error (unexpected "variant identifier" cs)

/-- Read a member of a tagged object: the tag picks the alternative, all others are set aside. -/
def taggedMember {α : Type} (tag : String) (ts : List (Tagged α)) (depth : Nat)
    (s : Option (Tagged α) × List (String × Value)) (key : String) (cs : List Char) :
    Step (Option (Tagged α) × List (String × Value)) :=
  if key = tag then
    match s.1 with
    | some _ => .error (.mismatch (.duplicateField tag))
    | none =>
      match readColon cs with
      | .error e => .error e
      | .ok cs => (readTaggedName ts cs).map fun r => ((some r.1, s.2), r.2)
  else
    match readColon cs with
    | .error e => .error e
    | .ok cs => (Value.read depth cs).map fun r => ((s.1, (key, r.1) :: s.2), r.2)

/-- Read a union tagged from inside: the whole value is read before its alternative is looked at.
An array has the tag as its first element. -/
def readTagged {α : Type} (tag label : String) (ts : List (Tagged α)) (depth : Nat)
    (cs : List Char) : Step α :=
  let missing {β : Type} : Except Fault β := .error (.mismatch (.missingField tag))
  match skipSpace cs, depth with
  | '{' :: _, 0 => .error (.malformed .recursionLimit)
  | '[' :: _, 0 => .error (.malformed .recursionLimit)
  | '{' :: cs, depth + 1 =>
    match readMembers (taggedMember tag ts depth) (cs.length + 1) true (none, []) cs with
    | .error e => .error e
    | .ok ((none, _), _) => missing
    | .ok ((some t, members), cs) =>
      match endMembers cs with
      | .error e => .error e
      | .ok rest => (t.view (.object members.reverse)).map (·, rest)
  | '[' :: cs, depth + 1 =>
    match nextItem true cs with
    | .error e => .error e
    | .ok none => missing
    | .ok (some cs) =>
      match readTaggedName ts cs with
      | .error e => .error e
      | .ok (t, cs) =>
        match readItems (fun items cs => (Value.read depth cs).map fun r => (r.1 :: items, r.2))
            (cs.length + 1) false [] cs with
        | .error e => .error e
        | .ok (items, cs) =>
          match endItems cs with
          | .error e => .error e
          | .ok rest => (t.view (.array items.reverse)).map (·, rest)
  | cs, _ => .error (unexpected label cs)

end NetRelocation.Json
