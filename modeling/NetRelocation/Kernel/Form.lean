import NetRelocation.Text.Utf8

/-!
# Forms of octets

What comes over a socket is octets, and their place asks for a form (`Form.check`). A sequence of
attributes holds numbers with octets, one after the other (`entries`); the number of an entry
decides the form of its octets. A form that can stand inside itself is called by a name, and what
a name stands for is given to the check.
-/

namespace NetRelocation

/-- Why octets do not have a form. -/
inductive Misfit where
  /-- They have another form. -/
  | malformed
  /-- They end too soon for a reader that does not look for the end. -/
  | overrun
  deriving DecidableEq, Repr

inductive Form (Name : Type) where
  /-- Any octets. -/
  | any
  /-- Text in UTF-8, which a zero octet may end. -/
  | text
  /-- So many octets. -/
  | exactly (size : Nat)
  /-- Octets of a form, so many of which are read without looking for the end. -/
  | taking (size : Nat) (form : Form Name)
  /-- A sequence of attributes, with the form for each number. -/
  | sequence (entry : Nat → Form Name)
  /-- A sequence of attributes whose reader trusts the length of the first one. -/
  | trusting (entry : Nat → Form Name)
  /-- An attribute; what comes after it is passed over. -/
  | leading (entry : Nat → Form Name)
  /-- A head of so many octets, and the rest, whose form the head decides. -/
  | headed (size : Nat) (rest : List UInt8 → Form Name)
  /-- Octets of a form, and at least one. -/
  | filled (form : Form Name)
  /-- The form that a name stands for. -/
  | named (name : Name)

namespace Form

variable {Name : Type}

/-! ## Octets -/

def textOf? (bytes : List UInt8) : Option String :=
  let content := if bytes.getLast? = some 0 then bytes.dropLast else bytes
  (Text.Utf8.decode? content).map String.ofList

/-- The number in octets, the least first. -/
def numberOf (bytes : List UInt8) : Nat := bytes.foldr (fun b n => b.toNat + 256 * n) 0

/-- Above the number of an attribute stand two marks. -/
def numberBound : Nat := Nat.pow 2 14

/-- The attributes in octets, and whether nothing else is left. An attribute has two octets of
length, which counts four octets of head, and two octets of number; it fills up a multiple of four.
At most the given number of attributes is read. -/
def entries : Nat → List UInt8 → List (Nat × List UInt8) × Bool
  | _, [] => ([], true)
  | fuel + 1, a :: b :: c :: d :: rest =>
    let length := numberOf [a, b]
    if 4 ≤ length ∧ length ≤ rest.length + 4 then
      let (later, whole) := entries fuel (rest.drop ((length + 3) / 4 * 4 - 4))
      ((numberOf [c, d] % numberBound, rest.take (length - 4)) :: later, whole)
    else ([], false)
  | _, _ => ([], false)

/-! ## Checking -/

/-- Something that octets must have. -/
def demand (holds : Bool) : Except Misfit Unit := if holds then .ok () else .error .malformed

/-- Something that a reader takes for granted. -/
def assume (holds : Bool) : Except Misfit Unit := if holds then .ok () else .error .overrun

/-- Check that octets have a form, where names are checked as given; the first entry of a sequence
that does not fit counts. -/
def check (inside : Name → List UInt8 → Except Misfit Unit) :
    Form Name → List UInt8 → Except Misfit Unit
  | any, _ => .ok ()
  | text, bytes => demand (textOf? bytes).isSome
  | exactly size, bytes => demand (bytes.length == size)
  | taking size form, bytes => do
    assume (size ≤ bytes.length)
    form.check inside bytes
  | sequence entry, bytes => do
    let (found, whole) := entries bytes.length bytes
    found.forM fun e => (entry e.1).check inside e.2
    demand whole
  | trusting entry, bytes => do
    let (found, whole) := entries bytes.length bytes
    assume (whole || !found.isEmpty)
    found.forM fun e => (entry e.1).check inside e.2
    demand whole
  | leading entry, bytes => do
    let (found, _) := entries 1 bytes
    demand (!found.isEmpty)
    found.forM fun e => (entry e.1).check inside e.2
  | headed size rest, bytes => do
    demand (size ≤ bytes.length)
    (rest (bytes.take size)).check inside (bytes.drop size)
  | filled form, bytes => do
    demand (!bytes.isEmpty)
    form.check inside bytes
  | named name, bytes => inside name bytes

/-! ## Common forms -/

/-- A record of so many octets; what comes after it is passed over. -/
def record (size : Nat) : Form Name := taking size any

/-- Attributes of any form. -/
def loose : Form Name := sequence fun _ => any

/-- The forms for numbers that ask for a size, from the sizes with their numbers. -/
def sized (sizes : List (Nat × List Nat)) (number : Nat) : Form Name :=
  match sizes.find? (·.2.contains number) with
  | some (size, _) => exactly size
  | none => any

end Form

end NetRelocation
