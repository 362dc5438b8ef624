import NetRelocation.Collection.SortedMap
import NetRelocation.Invalid
import NetRelocation.Json.Codec

/-!
# Names of devices

The kernel accepts an interface name of 1 to 15 bytes that is neither one nor two dots and has no
slash, colon, blank or control character.
-/

namespace NetRelocation

/-- Whether a character may stand in an interface name. -/
def allowedInName (c : Char) : Bool :=
  !(c == '/' || c == ':' || Text.isBlank c || Text.isControl c)

/-- The name of a network interface. -/
structure DeviceName where
  text : String
  nonempty : text ≠ ""
  short : text.utf8ByteSize ≤ 15
  notReserved : text ≠ "." ∧ text ≠ ".."
  clean : ∀ c ∈ text.toList, allowedInName c

namespace DeviceName

/-- The largest number of bytes of a name. -/
def maxLength : Nat := 15

theorem ext_text {a b : DeviceName} (h : a.text = b.text) : a = b := by
  cases a; cases b; simp_all

instance : DecidableEq DeviceName := fun a b =>
  decidable_of_iff (a.text = b.text) ⟨ext_text, fun h => h ▸ rfl⟩

/-- Names are ordered as texts. -/
instance : KeyOrder DeviceName where
  lt a b := a.text < b.text
  decLt a b := inferInstanceAs (Decidable (a.text < b.text))
  irrefl a := KeyOrder.irrefl a.text
  trans {a b c} := KeyOrder.trans (a := a.text) (b := b.text) (c := c.text)
  trichotomy a b :=
    (KeyOrder.trichotomy a.text b.text).imp_right fun h => h.imp_left ext_text

/-- The characters of a text are looked at one by one. -/
instance (s : String) : Decidable (∀ c ∈ s.toList, allowedInName c) := List.decidableBAll _ _

def parse (s : String) : Except Invalid DeviceName :=
  if hs : s ≠ "" ∧ s.utf8ByteSize ≤ 15 then
    if hr : s ≠ "." ∧ s ≠ ".." then
      if hc : ∀ c ∈ s.toList, allowedInName c then .ok ⟨s, hs.1, hs.2, hr, hc⟩
      else .error (.deviceNameCharacters s)
    else .error (.deviceNameReserved s)
  else .error (.deviceNameSize s maxLength)

theorem parse_text (name : DeviceName) : parse name.text = .ok name := by
  obtain ⟨text, hnonempty, hshort, hreserved, hclean⟩ := name
  rw [parse, dif_pos ⟨hnonempty, hshort⟩, dif_pos hreserved, dif_pos hclean]

/-- Names are written as strings. -/
def codec : Json.Codec DeviceName :=
  .parsed text fun s => (parse s).mapError Invalid.report

end DeviceName

end NetRelocation
