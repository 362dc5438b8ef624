import NetRelocation.Publication.Publisher

/-!
# What a pool has on offer

A publisher lists the devices of the host again and again and publishes the offers of what it found
into the sink that keeps the last offers of every pool.

**Theorem (`snapshot_follows_last_listing`).** After any number of calls the pool has the offers of
the last listing that succeeded; as long as none did, it has what it had before. A call answers with
the number of offers or with the error of its listing, and it reports a change exactly if its
listing succeeded and its offers differ from those that the pool had. Other pools keep what they
have.

What is offered is said without the code (`DevicePolicy.Image`): in the order of the listing, one
offer for every device that may be offered. One call is `get?_once` with `value_once` and
`notices_once`; the run is an induction over the calls (`get?_afterCalls`).
-/

namespace NetRelocation

/-! ## Offers -/

/-- A device that may be offered. -/
structure DevicePolicy.Offerable (policy : DevicePolicy) (device : Device) : Prop where
  up : device.up = true
  noLoopback : device.kind ≠ .loopback
  notExcluded : ∀ lead ∈ policy.exclusions, ¬lead.toList <+: device.name.toList

/-- The offer of a device has its name, and its name and hardware address as attributes. -/
structure PublishedDevice.Offers (offer : PublishedDevice) (device : Device) : Prop where
  name : offer.name = device.name
  interfaceName : offer.attributes.get? "interface-name" = some device.name
  macAddress : offer.attributes.get? "mac-address" =
    some (match device.hardwareAddr with
      | some addr => addr.display
      | none => "")
  others : ∀ key, key ≠ "interface-name" → key ≠ "mac-address" → offer.attributes.get? key = none

/-- The offers of a list of devices: one for each that may be offered, in their order. -/
inductive DevicePolicy.Image (policy : DevicePolicy) : List Device → List PublishedDevice → Prop
  | nil : Image policy [] []
  | offered {device devices offer offers} (may : policy.Offerable device)
    (made : offer.Offers device) (more : Image policy devices offers) :
      Image policy (device :: devices) (offer :: offers)
  | passed {device devices offers} (mayNot : ¬policy.Offerable device)
    (more : Image policy devices offers) : Image policy (device :: devices) offers

namespace PublishedDevice

theorem attributes_ofDevice (device : Device) :
    (ofDevice device).attributes =
      (SortedMap.empty.insert "interface-name" device.name).insert "mac-address"
        ((device.hardwareAddr.map (·.display)).getD "") := rfl

theorem offers_ofDevice (device : Device) : (ofDevice device).Offers device where
  name := rfl
  interfaceName := by
    rw [attributes_ofDevice, SortedMap.get?_insert_ne _ _ (by decide), SortedMap.get?_insert_self]
  macAddress := by
    rw [attributes_ofDevice, SortedMap.get?_insert_self]
    cases device.hardwareAddr <;> rfl
  others key hname haddr := by
    rw [attributes_ofDevice, SortedMap.get?_insert_ne _ _ haddr, SortedMap.get?_insert_ne _ _ hname,
      SortedMap.get?_empty]

end PublishedDevice

namespace DevicePolicy

variable (policy : DevicePolicy)

theorem allows_iff {device : Device} : policy.allows device = true ↔ policy.Offerable device := by
  simp only [allows, Text.startsWith, Bool.and_eq_true, bne_iff_ne, Bool.not_eq_true',
    List.any_eq_false, List.isPrefixOf_iff_prefix]
  exact ⟨fun h => ⟨h.1.2, h.1.1, h.2⟩, fun h => ⟨⟨h.noLoopback, h.up⟩, h.notExcluded⟩⟩

theorem image_offers (devices : List Device) : policy.Image devices (policy.offers devices) := by
  induction devices with
  | nil => exact .nil
  | cons device devices ih =>
    unfold offers keep at ih ⊢
    by_cases h : policy.allows device = true
    · rw [List.filter_cons_of_pos h]
      exact .offered (policy.allows_iff.1 h) (PublishedDevice.offers_ofDevice device) ih
    · rw [List.filter_cons_of_neg h]
      exact .passed (fun hmay => h (policy.allows_iff.2 hmay)) ih

end DevicePolicy

/-! ## The sink -/

namespace Snapshots

variable (pool : String) (offers : List PublishedDevice) (s : Snapshots)

theorem get?_publish_self : (publish pool offers s).world.get? pool = some offers := by
  unfold publish
  split
  · assumption
  · exact SortedMap.get?_insert_self ..

theorem get?_publish_ne {other : String} (h : other ≠ pool) :
    (publish pool offers s).world.get? other = s.get? other := by
  unfold publish
  split
  · rfl
  · exact SortedMap.get?_insert_ne _ _ h

theorem value_publish : (publish pool offers s).value = .ok () := by
  unfold publish
  split <;> rfl

theorem notices_publish :
    (publish pool offers s).notices =
      if s.get? pool = some offers then []
      else [.publicationChanged pool (offers.map (·.name))] := by
  unfold publish
  split <;> rfl

end Snapshots

/-! ## One call -/

namespace Publisher

variable (p : Publisher) (source : Nat → Enumeration) (w : Publishing Snapshots)

/-- What the next call lists. -/
def listing : Except Error (List Device) := (source w.count).result

/-- What a call leaves in the sink. -/
theorem sink_once :
    (p.once Snapshots.sink source w).2.sink =
      match listing source w with
      | .ok devices => (Snapshots.publish p.pool (p.policy.offers devices) w.sink).world
      | .error _ => w.sink := by
  show (p.publishOnce Snapshots.sink (listing source w) w.sink).world = _
  cases listing source w <;> rfl

/-- **A call that lists devices** leaves their offers in its pool, and any other leaves the sink. -/
theorem get?_once :
    (p.once Snapshots.sink source w).2.sink.get? p.pool =
      match listing source w with
      | .ok devices => some (p.policy.offers devices)
      | .error _ => w.sink.get? p.pool := by
  rw [sink_once]
  cases listing source w with
  | ok devices => exact Snapshots.get?_publish_self ..
  | error e => rfl

theorem get?_once_ne {pool : String} (h : pool ≠ p.pool) :
    (p.once Snapshots.sink source w).2.sink.get? pool = w.sink.get? pool := by
  rw [sink_once]
  cases listing source w with
  | ok devices => exact Snapshots.get?_publish_ne _ _ _ h
  | error e => rfl

theorem value_once :
    (p.once Snapshots.sink source w).1 =
      (listing source w).map fun devices => (p.policy.offers devices).length := by
  show (p.publishOnce Snapshots.sink (listing source w) w.sink).value = _
  cases listing source w with
  | ok devices =>
    show (Snapshots.publish p.pool (p.policy.offers devices) w.sink).value.map _ = _
    rw [Snapshots.value_publish]
    rfl
  | error e => rfl

theorem notices_once :
    (p.once Snapshots.sink source w).2.notices = w.notices ++
      match listing source w with
      | .ok devices =>
        if w.sink.get? p.pool = some (p.policy.offers devices) then []
        else [.publicationChanged p.pool ((p.policy.offers devices).map (·.name))]
      | .error _ => [] := by
  show w.notices ++ (p.publishOnce Snapshots.sink (listing source w) w.sink).notices = _
  cases listing source w with
  | ok devices => exact congrArg (w.notices ++ ·) (Snapshots.notices_publish ..)
  | error e => rfl

/-! ## Many calls -/

def afterCalls (p : Publisher) (source : Nat → Enumeration) :
    Nat → Publishing Snapshots → Publishing Snapshots
  | 0, w => w
  | n + 1, w => (p.once Snapshots.sink source (p.afterCalls source n w)).2

/-- What so many calls list, in their order. -/
def listings (n : Nat) : List (Except Error (List Device)) :=
  (List.range n).map fun i => (source (w.count + i)).result

/-- The last listing that succeeded. -/
def lastGood (found : List (Except Error (List Device))) : Option (List Device) :=
  (found.filterMap Except.toOption).getLast?

theorem lastGood_concat_ok (found : List (Except Error (List Device))) (devices : List Device) :
    lastGood (found ++ [.ok devices]) = some devices := by
  rw [lastGood, List.filterMap_append]
  exact List.getLast?_concat

theorem lastGood_concat_error (found : List (Except Error (List Device))) (e : Error) :
    lastGood (found ++ [.error e]) = lastGood found := by
  rw [lastGood, List.filterMap_append]
  exact congrArg List.getLast? (List.append_nil _)

theorem count_afterCalls (n : Nat) : (p.afterCalls source n w).count = w.count + n := by
  induction n with
  | zero => rfl
  | succ n ih =>
    have honce (u : Publishing Snapshots) :
        (p.once Snapshots.sink source u).2.count = u.count + 1 := List.length_append
    rw [afterCalls, honce, ih, Nat.add_assoc]

theorem listings_succ (n : Nat) :
    listings source w (n + 1) =
      listings source w n ++ [listing source (p.afterCalls source n w)] := by
  rw [listings, List.range_succ, List.map_append, listing, count_afterCalls]
  rfl

/-- **A pool has the offers of the last listing that succeeded.** -/
theorem get?_afterCalls (n : Nat) :
    (p.afterCalls source n w).sink.get? p.pool =
      ((lastGood (listings source w n)).map p.policy.offers).or (w.sink.get? p.pool) := by
  induction n with
  | zero => rfl
  | succ n ih =>
    rw [afterCalls, get?_once, listings_succ]
    cases listing source (p.afterCalls source n w) with
    | ok devices =>
      rw [lastGood_concat_ok]
      rfl
    | error e =>
      rw [lastGood_concat_error]
      exact ih

theorem get?_afterCalls_ne {pool : String} (h : pool ≠ p.pool) (n : Nat) :
    (p.afterCalls source n w).sink.get? pool = w.sink.get? pool := by
  induction n with
  | zero => rfl
  | succ n ih => rw [afterCalls, get?_once_ne p source _ h, ih]

/-- **The snapshot of a pool follows the last good listing.** What stands in the pool after any
number of calls are the offers of the last listing that succeeded, and the next call reports a
change exactly if it lists devices with other offers. A pool that had nothing is without offers up
to the first listing that succeeds, and that one is reported whatever it found. -/
theorem snapshot_follows_last_listing (n : Nat) :
    (∀ devices, p.policy.Image devices (p.policy.offers devices)) ∧
    let before := p.afterCalls source n w
    let o := p.once Snapshots.sink source before
    before.sink.get? p.pool =
      ((lastGood (listings source w n)).map p.policy.offers).or (w.sink.get? p.pool) ∧
    (∀ pool, pool ≠ p.pool → before.sink.get? pool = w.sink.get? pool) ∧
    o.1 = (listing source before).map (fun devices => (p.policy.offers devices).length) ∧
    o.2.notices = before.notices ++
      (match listing source before with
      | .ok devices =>
        if before.sink.get? p.pool = some (p.policy.offers devices) then []
        else [.publicationChanged p.pool ((p.policy.offers devices).map (·.name))]
      | .error _ => []) ∧
    (w.sink.get? p.pool = none → lastGood (listings source w n) = none →
      before.sink.get? p.pool = none ∧
      ∀ devices, listing source before = .ok devices → o.2.notices = before.notices ++
        [.publicationChanged p.pool ((p.policy.offers devices).map (·.name))]) := by
  refine ⟨p.policy.image_offers, ?_⟩
  intro before o
  refine ⟨p.get?_afterCalls source w n, fun _ h => p.get?_afterCalls_ne source w h n,
    p.value_once source before, p.notices_once source before, fun hnew hnone => ?_⟩
  have habsent : before.sink.get? p.pool = none := by
    rw [p.get?_afterCalls source w n, hnew, hnone]
    rfl
  refine ⟨habsent, fun devices hdevices => ?_⟩
  rw [p.notices_once source before, hdevices]
  simp [habsent]

end Publisher

end NetRelocation
