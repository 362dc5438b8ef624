import NetRelocation.Collection.SortedMap
import NetRelocation.Invalid
import NetRelocation.Json.Codec

/-!
# Identifiers of workloads

A workload is known by one identifier, which joins what was granted to it with what happens to it.
An identifier has 1 to 128 bytes and neither blanks nor control characters.
-/

namespace NetRelocation

structure WorkloadId where
  text : String
  nonempty : text ≠ ""
  short : text.utf8ByteSize ≤ 128
  clean : ∀ c ∈ text.toList, ¬ (Text.isBlank c ∨ Text.isControl c)

namespace WorkloadId

/-- The largest number of bytes of an identifier. -/
def maxLength : Nat := 128

theorem ext_text {a b : WorkloadId} (h : a.text = b.text) : a = b := by
  cases a; cases b; simp_all

instance : DecidableEq WorkloadId := fun a b =>
  decidable_of_iff (a.text = b.text) ⟨ext_text, fun h => h ▸ rfl⟩

/-- The characters of a text are looked at one by one. -/
instance (s : String) : Decidable (∀ c ∈ s.toList, ¬ (Text.isBlank c ∨ Text.isControl c)) :=
  List.decidableBAll _ _

def parse (s : String) : Except Invalid WorkloadId :=
  if hn : s = "" then .error .emptyWorkload
  else if hs : s.utf8ByteSize ≤ 128 then
    if hc : ∀ c ∈ s.toList, ¬ (Text.isBlank c ∨ Text.isControl c) then .ok ⟨s, hn, hs, hc⟩
    else .error .workloadCharacters
  else .error (.longWorkload maxLength)

/-- Identifiers are written as strings. -/
def codec : Json.Codec WorkloadId :=
  .parsed text fun s => (parse s).mapError Invalid.report

end WorkloadId

end NetRelocation
