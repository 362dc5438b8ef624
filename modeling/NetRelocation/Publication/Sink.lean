import NetRelocation.Coordination.Program
import NetRelocation.Publication.Device

/-!
# Where offers go

A sink takes the offers of a pool. `Snapshots` keeps the last list of each pool and reports when it
changes.
-/

namespace NetRelocation

/-- Something that takes the offers of a pool and has states of type `σ`. -/
abbrev Sink (σ : Type) : Type :=
  String → List PublishedDevice → σ → Outcome (Except Error Unit) σ

/-- The last offers of every pool. -/
structure Snapshots where
  pools : SortedMap String (List PublishedDevice)
  deriving DecidableEq

namespace Snapshots

/-- Nothing has been offered. -/
def empty : Snapshots := ⟨.empty⟩

/-- The last offers of a pool. -/
def get? (s : Snapshots) (pool : String) : Option (List PublishedDevice) := s.pools.get? pool

/-- Take the offers of a pool; a list like the last one changes nothing. -/
def publish (pool : String) (devices : List PublishedDevice) (s : Snapshots) :
    Outcome (Except Error Unit) Snapshots :=
  if s.get? pool = some devices then ⟨.ok (), [], s⟩
  else
    ⟨.ok (), [.publicationChanged pool (devices.map (·.name))], ⟨s.pools.insert pool devices⟩⟩

/-- The sink that keeps the last offers. -/
def sink : Sink Snapshots := publish

end Snapshots

/-- A sink that counts its calls and refuses some of them. -/
def Sink.refusing {σ : Type} (refuses : Nat → Bool) (sink : Sink σ) : Sink (Nat × σ) :=
  fun pool devices (n, s) =>
    if refuses n then ⟨.error (.permissionDenied ("publish " ++ pool)), [], (n + 1, s)⟩
    else
      let o := sink pool devices s
      ⟨o.value, o.notices, (n + 1, o.world)⟩

end NetRelocation
