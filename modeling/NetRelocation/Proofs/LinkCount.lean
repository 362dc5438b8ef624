import Mathlib.Tactic.ByCases
import NetRelocation.Proofs.LinkMoves

/-!
# How many links there are

A request takes its link out of one table and puts it into another. The tables are maps, so a link
that already stands in the berth that the request aims at is *displaced*: nothing holds it any more.

**Theorem (`links_kept_iff`).** The links that are left after a run and those that it displaced are
as many as there were before. So the number of links stays the same throughout the run exactly if
none is displaced. `lost_under_taken_name` is the shortest run that displaces one.

One request is settled by the cases of the code and the sizes of the two tables
(`linkCount_afterRequest`), a run by induction (`linkCount_afterRequests`).
-/

namespace NetRelocation

/-! ## Sizes -/

section

variable {κ α : Type} [KeyOrder κ] {k : κ} {v : α}

theorem SortedList.length_insert (k : κ) (v : α) (l : List (κ × α)) :
    (insert k v l).length = l.length + if (get? k l).isSome then 0 else 1 := by
  induction l with
  | nil => rfl
  | cons p l ih =>
    obtain ⟨k', v'⟩ := p
    by_cases hlt : k < k'
    · simp [insert, get?, hlt]
    · by_cases hgt : k' < k
      · simp only [insert, get?, hlt, hgt, if_true, if_false, List.length_cons, ih]
        omega
      · simp [insert, get?, hlt, hgt]

theorem SortedList.length_erase (k : κ) (l : List (κ × α)) :
    (erase k l).length + (if (get? k l).isSome then 1 else 0) = l.length := by
  induction l with
  | nil => rfl
  | cons p l ih =>
    obtain ⟨k', v'⟩ := p
    by_cases hlt : k < k'
    · simp [erase, get?, hlt]
    · by_cases hgt : k' < k
      · simp only [erase, get?, hlt, hgt, if_true, if_false, List.length_cons]
        omega
      · simp [erase, get?, hlt, hgt]

theorem SortedMap.size_insert (m : SortedMap κ α) (k : κ) (v : α) :
    (m.insert k v).size = m.size + if (m.get? k).isSome then 0 else 1 :=
  SortedList.length_insert k v m.entries

theorem SortedMap.size_erase {m : SortedMap κ α} (h : m.get? k = some v) :
    (m.erase k).size + 1 = m.size := by
  have hlength := SortedList.length_erase k m.entries
  have hget : SortedList.get? k m.entries = some v := h
  rwa [hget] at hlength

end

section

variable {κ α : Type}

/-- The sum of a measure over the values of rows. -/
def Rows.total (measure : α → Nat) : List (κ × α) → Nat
  | [] => 0
  | row :: rows => measure row.2 + total measure rows

/-- The sum of a measure over the values of a table. -/
def Table.total (measure : α → Nat) (t : Table κ α) : Nat := Rows.total measure t.toList

variable [DecidableEq κ] {k : κ} {v : α}

theorem Rows.total_put (measure : α → Nat) (w : α) {rows : List (κ × α)}
    (h : get? k rows = some v) :
    total measure (put k w rows) + measure v = total measure rows + measure w := by
  induction rows with
  | nil => cases h
  | cons row rows ih =>
    obtain ⟨k', v'⟩ := row
    by_cases hkey : k' = k
    · rw [get?, if_pos hkey] at h
      cases h
      simp only [put, if_pos hkey, total]
      omega
    · rw [get?, if_neg hkey] at h
      have hrest := ih h
      simp only [put, if_neg hkey, total]
      omega

/-- A value that takes the place of another changes the sum by their difference. -/
theorem Table.total_insert (measure : α → Nat) (w : α) {t : Table κ α} (h : t.get? k = some v) :
    (t.insert k w).total measure + measure v = t.total measure + measure w :=
  Rows.total_put measure w h

end

namespace Memory

/-- The number of links at all sites. -/
def linkCount (m : Memory) : Nat := m.host.size + m.namespaces.total SortedMap.size

/-- The berth that a request wants to put its link into. -/
def aim? (m : Memory) : Relocation → Option Berth
  | .attach device target config _ => some ⟨.inside target.key, (config.name.getD device).text⟩
  | .detach source device restore =>
    (m.namespaceLink source device.text).map fun link => ⟨.host, outgoingName link device restore⟩

/-- The link that a request puts its own in place of. -/
def displaced? (m : Memory) (request : Relocation) : Option MemoryLink :=
  if moved (relocator.answer request m).result then (m.aim? request).bind m.link? else none

/-- The tables after a request. -/
def afterRequest (m : Memory) (request : Relocation) : Memory := (relocator.answer request m).state

/-- The tables after several requests. -/
def afterRequests (m : Memory) (requests : List Relocation) : Memory :=
  requests.foldl afterRequest m

/-- The links that several requests displace, in their order. -/
def displaced : Memory → List Relocation → List MemoryLink
  | _, [] => []
  | m, request :: requests =>
    (m.displaced? request).toList ++ (m.afterRequest request).displaced requests

variable (m : Memory)

/-- A move between two tables of links, from a key to another. -/
theorem size_move {a : LinkTable} (b : LinkTable) {name : String} (newName : String)
    {link : MemoryLink} (link' : MemoryLink) (h : a.get? name = some link) :
    (a.erase name).size + (b.insert newName link').size + (b.get? newName).toList.length =
      a.size + b.size := by
  have herase := SortedMap.size_erase h
  have hinsert := b.size_insert newName link'
  cases hget : b.get? newName with
  | none =>
    rw [hget] at hinsert
    simp at hinsert ⊢
    omega
  | some old =>
    rw [hget] at hinsert
    simp at hinsert ⊢
    omega

theorem displaced?_of_moved {request : Relocation}
    (h : moved (relocator.answer request m).result = true) :
    m.displaced? request = (m.aim? request).bind m.link? := if_pos h

theorem displaced?_of_not_moved {request : Relocation}
    (h : moved (relocator.answer request m).result = false) : m.displaced? request = none :=
  if_neg (by simp [h])

/-- **A request loses the link that it displaces**, and no other. -/
theorem linkCount_afterRequest (request : Relocation) :
    (m.afterRequest request).linkCount + (m.displaced? request).toList.length = m.linkCount := by
  cases request with
  | attach device target config addresses =>
    have hanswer : relocator.answer (.attach device target config addresses) m =
        silent (m.attach device target config addresses) := rfl
    obtain ⟨e, -, he, ho⟩ | ⟨link, links, applied, up, answer, hlink, hlinks, -, hlanding, ho⟩ :=
      m.attach_cases device target config addresses
    · rw [ho] at hanswer
      rw [displaced?_of_not_moved m (by rw [hanswer]; exact he), afterRequest, hanswer]
      rfl
    · rw [ho] at hanswer
      rw [displaced?_of_moved m (by rw [hanswer]; exact hlanding.moved), afterRequest, hanswer]
      have hmove := size_move links (config.name.getD device).text
        (configure link config applied up) hlink
      have htotal := Table.total_insert SortedMap.size
        (links.insert (config.name.getD device).text (configure link config applied up)) hlinks
      simp only [silent, aim?, Option.bind_some, link?, links?, hlinks, linkCount]
      omega
  | detach source device restore =>
    have hanswer : relocator.answer (.detach source device restore) m =
        silent (m.detach source device restore) := rfl
    obtain ⟨e, -, he, ho⟩ | ⟨link, links, up, answer, hlinks, hlink, -, hcoming, ho⟩ :=
      m.detach_cases source device restore
    · rw [ho] at hanswer
      rw [displaced?_of_not_moved m (by rw [hanswer]; exact he), afterRequest, hanswer]
      rfl
    · rw [ho] at hanswer
      rw [displaced?_of_moved m (by rw [hanswer]; exact hcoming.moved), afterRequest, hanswer]
      have hmove := size_move m.host (outgoingName link device restore)
        { link with addresses := [], up := up } hlink
      have htotal := Table.total_insert SortedMap.size (links.erase device.text) hlinks
      simp only [silent, aim?, namespaceLink, hlinks, hlink, Option.bind_some, Option.map_some,
        link?, links?, linkCount]
      omega

theorem displaced_append (requests more : List Relocation) :
    m.displaced (requests ++ more) =
      m.displaced requests ++ (m.afterRequests requests).displaced more := by
  induction requests generalizing m with
  | nil => rfl
  | cons request requests ih =>
    rw [List.cons_append, displaced, displaced, ih, List.append_assoc]
    rfl

/-- **The links that are left and the displaced ones are as many as there were.** -/
theorem linkCount_afterRequests (requests : List Relocation) :
    (m.afterRequests requests).linkCount + (m.displaced requests).length = m.linkCount := by
  induction requests generalizing m with
  | nil => rfl
  | cons request requests ih =>
    have hfirst := m.linkCount_afterRequest request
    have hothers := ih (m.afterRequest request)
    rw [displaced, List.length_append]
    rw [afterRequests, List.foldl_cons, ← afterRequests]
    omega

/-- A request that displaces a link carries its own to the berth of that link. -/
theorem carried_of_displaced {request : Relocation} {other : MemoryLink}
    (h : m.displaced? request = some other) :
    ∃ source destination link link',
      Carried m (m.afterRequest request) source destination link link' ∧
      m.link? destination = some other := by
  obtain ⟨hmoved, haim⟩ := Option.ite_none_right_eq_some.1 h
  obtain ⟨berth, hberth, hother⟩ := Option.bind_eq_some_iff.1 haim
  cases request with
  | attach device target config addresses =>
    cases hberth
    obtain ⟨link, applied, up, -, hcarried⟩ := carried_attach hmoved
    exact ⟨_, _, link, _, hcarried, hother⟩
  | detach source device restore =>
    obtain ⟨link, up, -, hcarried⟩ := carried_detach hmoved
    have hfound : m.namespaceLink source device.text = some link := hcarried.found
    rw [aim?, hfound] at hberth
    cases hberth
    exact ⟨_, _, link, _, hcarried, hother⟩

/-- **Links are kept as long as none is displaced.** The number of links stays the same throughout a
run exactly if no request of it displaces a link; each that is displaced is missing afterwards, and
another stands in its berth. -/
theorem links_kept_iff (requests : List Relocation) :
    ((∀ n, (m.afterRequests (requests.take n)).linkCount = m.linkCount) ↔
      m.displaced requests = []) ∧
    (m.afterRequests requests).linkCount + (m.displaced requests).length = m.linkCount ∧
    ∀ request other, m.displaced? request = some other →
      ∃ source destination link link',
        Carried m (m.afterRequest request) source destination link link' ∧
        m.link? destination = some other := by
  refine ⟨⟨fun h => ?_, fun h n => ?_⟩, m.linkCount_afterRequests requests,
    fun request other => m.carried_of_displaced⟩
  · have hcount := m.linkCount_afterRequests requests
    have hall := h requests.length
    rw [List.take_length] at hall
    exact List.length_eq_zero_iff.1 (by omega)
  · have hcount := m.linkCount_afterRequests (requests.take n)
    have hsplit := m.displaced_append (requests.take n) (requests.drop n)
    rw [List.take_append_drop, h] at hsplit
    rw [(List.append_eq_nil_iff.1 hsplit.symm).1] at hcount
    exact hcount

/-- `eth0` and `eth1` are moved into a namespace under one name, and `eth0` is lost. -/
theorem lost_under_taken_name :
    ∃ eth0 eth1 net0 : DeviceName,
      let m := ((empty.addHostDevice "eth0").addHostDevice "eth1").addNamespace (.path "ns/w1")
      let enter device := Relocation.attach device (.path "ns/w1")
        { LinkConfig.empty with name := some net0 } []
      let m' := m.afterRequests [enter eth0, enter eth1]
      eth0.text = "eth0" ∧ eth1.text = "eth1" ∧ net0.text = "net0" ∧
      m.linkCount = 2 ∧ m'.linkCount = 1 ∧
      (m.afterRequest (enter eth0)).displaced? (enter eth1) = m.host.get? "eth0" ∧
      m'.namespaceLink (.path "ns/w1") "net0" = m.host.get? "eth1" :=
  ⟨⟨"eth0", by decide, by decide, by decide, by decide⟩,
    ⟨"eth1", by decide, by decide, by decide, by decide⟩,
    ⟨"net0", by decide, by decide, by decide, by decide⟩,
    rfl, rfl, rfl, rfl, rfl, rfl, rfl⟩

end Memory

end NetRelocation
