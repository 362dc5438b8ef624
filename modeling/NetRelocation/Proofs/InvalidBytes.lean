import Mathlib
import NetRelocation.Proofs.OutsideStrings
import NetRelocation.Proofs.TextBytes
import NetRelocation.Relocation.Memory

/-!
# Lines that are no text

The lines of a feed are bytes. A line that is no UTF-8 is not refused as such: it is read with a
mark in place of each invalid part, like its repaired line (`repaired`).

**Theorem (`invalid_line_unseen_iff`).** So nobody sees such a line exactly if the repaired line is
no event, and then the line is reported as malformed, or an event that asks for nothing. If it is an
event, every mark stands within a string of it.

**Counterexample (`invalid_bytes_remove`).** Otherwise a line that is no text is an event, and lines
with different bytes are about one workload.

That a run is not seen means that it leaves every world as it is and makes no request
(`Program.Unseen`); which events are of this kind can be read off them (`unseen_handle_iff`).
-/

namespace NetRelocation

/-! ## Programs that nobody sees -/

namespace Program

variable {α β : Type}

/-- A program whose run leaves every world as it is and makes no request. -/
def Unseen (p : Program α) : Prop :=
  ∀ (σ : Type) (r : Relocator σ) (world : World σ),
    (p.run r world).world = world ∧ p.calls r world = []

theorem unseen_done (a : α) : (done a).Unseen := fun _ _ _ => ⟨rfl, rfl⟩

theorem unseen_note (notice : Notice) (p : Program α) : (note notice p).Unseen ↔ p.Unseen := Iff.rfl

theorem unseen_bind_iff {p : Program α} {f : α → Program β} (hf : ∀ a, (f a).Unseen) :
    (p >>= f).Unseen ↔ p.Unseen := by
  have hrun (σ : Type) (r : Relocator σ) (world : World σ) :
      ((p >>= f).run r world).world = (p.run r world).world := by
    rw [run_bind, Outcome.world_after, (hf _ σ r _).1]
  have hcalls (σ : Type) (r : Relocator σ) (world : World σ) :
      (p >>= f).calls r world = p.calls r world := by
    rw [calls_bind, (hf _ σ r _).2, List.append_nil]
  unfold Unseen
  simp only [hrun, hcalls]

theorem Unseen.read {p : Program α} (h : p.Unseen) (w : WorkloadId) (world : World Memory) :
    (p.run Memory.relocator world).world.store.read w = world.store.read w := by
  rw [(h Memory Memory.relocator world).1]

end Program

namespace Lifecycle

open Program

variable (w : WorkloadId)

/-- A world in which a workload waits with an artifact for its namespace. -/
def waiting (artifact : PreparedArtifact) : World Memory :=
  ⟨Store.empty.put w ⟨[], some artifact, .prepared, .empty⟩, .empty⟩

theorem read_waiting (artifact : PreparedArtifact) :
    (waiting w artifact).store.read w = some ⟨[], some artifact, .prepared, .empty⟩ :=
  Store.read_put_self _ _ _

theorem unseen_prepare_iff {devices : List AllocatedDevice} :
    (prepare w devices).Unseen ↔
      ∀ artifact, PreparedArtifact.ofAllocation devices ≠ .ok artifact := by
  cases hprepare : PreparedArtifact.ofAllocation devices with
  | error e =>
    have hunseen : (prepare w devices).Unseen := fun σ r world =>
      ⟨by rw [run_prepare_error r w hprepare], calls_prepare r w devices world⟩
    simp [hunseen]
  | ok artifact =>
    have hseen : ¬ (prepare w devices).Unseen := by
      intro h
      have hread := h.read w ⟨.empty, .empty⟩
      rw [run_prepare_ok Memory.relocator w hprepare] at hread
      simp [Store.recordPrepared] at hread
    simp [hseen]

theorem seen_unprepare : ¬ (unprepare w).Unseen := by
  intro h
  have hread := h.read w (waiting w ⟨[]⟩)
  rw [store_unprepare, Store.clearPrepared, Store.read_modify_self, read_waiting] at hread
  simp [Entry.unprepare] at hread

theorem unseen_networkReady_iff {ns : Option NamespaceRef} :
    (networkReady w ns).Unseen ↔ ns = none := by
  constructor
  · intro h
    by_contra hns
    obtain ⟨ns, rfl⟩ := Option.ne_none_iff_exists'.1 hns
    let eth0 : DeviceName := ⟨"eth0", by decide, by decide, by decide, by decide⟩
    have hcalls := (h Memory Memory.relocator (waiting w ⟨[⟨eth0, .empty, []⟩]⟩)).2
    rw [calls_networkReady_of_prepared _ w ns (read_waiting w _) rfl] at hcalls
    simp [attachAll, calls] at hcalls
  · rintro rfl
    exact unseen_done _

theorem unseen_stopping_iff {ns : Option NamespaceRef} : (stopping w ns).Unseen ↔ ns = none := by
  constructor
  · intro h
    by_contra hns
    obtain ⟨ns, rfl⟩ := Option.ne_none_iff_exists'.1 hns
    have hread := h.read w (waiting w ⟨[]⟩)
    rw [run_stopping_of_read _ w ns (read_waiting w _) rfl] at hread
    simp [detachAll, run, Store.markNetworkDetached, read_waiting, Entry.leave] at hread
  · rintro rfl σ r world
    simp only [stopping, run, calls, StoreAction.answer, StoreAction.apply]
    cases world.store.read w with
    | none => exact ⟨rfl, rfl⟩
    | some entry => cases hprepared : entry.prepared <;> simp [hprepared, run, calls]

theorem seen_removed : ¬ (removed w).Unseen := by
  intro h
  have hread := h.read w (waiting w ⟨[]⟩)
  rw [store_removed, Store.read_purge_self, read_waiting] at hread
  cases hread

end Lifecycle

/-- An event without a namespace, or with a grant that cannot be prepared. -/
def DriverEvent.AsksNothing : DriverEvent → Prop
  | allocated _ devices => ∀ artifact, PreparedArtifact.ofAllocation devices ≠ .ok artifact
  | released _ => False
  | networkReady _ ns => ns = none
  | stopping _ ns => ns = none
  | removed _ => False

/-- **Which events nobody sees.** -/
theorem Lifecycle.unseen_handle_iff {event : DriverEvent} :
    (handle event).Unseen ↔ event.AsksNothing := by
  rw [handle, Program.unseen_note]
  cases event with
  | allocated w devices =>
    exact (Program.unseen_bind_iff fun _ => Program.unseen_done _).trans (unseen_prepare_iff w)
  | released w =>
    exact (Program.unseen_bind_iff fun _ => Program.unseen_done _).trans
      (iff_false_intro (seen_unprepare w))
  | networkReady w ns =>
    exact (Program.unseen_bind_iff fun _ => Program.unseen_done _).trans
      (unseen_networkReady_iff w)
  | stopping w ns =>
    refine (Program.unseen_bind_iff fun report => ?_).trans (unseen_stopping_iff w)
    dsimp only
    split
    · exact (Program.unseen_note _ _).2 (Program.unseen_done _)
    · exact Program.unseen_done _
  | removed w =>
    exact (Program.unseen_bind_iff fun _ => Program.unseen_done _).trans
      (iff_false_intro (seen_removed w))

namespace Feed

/-- The bytes of the text that is made of a line. -/
def repaired (line : List UInt8) : List UInt8 := Text.Utf8.encode (Text.Utf8.decodeLossy line)

theorem textOf_repaired (line : List UInt8) : textOf (repaired line) = textOf line := by
  rw [textOf, repaired, Text.Utf8.decodeLossy_encode, textOf]

theorem replacement_mem_textOf {line : List UInt8} (h : Text.Utf8.decode? line = none) :
    Text.Utf8.replacement ∈ (textOf line).toList := by
  rw [textOf, String.toList_ofList]
  exact Text.mem_trimChars (Text.Utf8.replacement_mem_decodeLossy h) (by decide)

theorem unseen_deliver_iff {event : DriverEvent} : (deliver event).Unseen ↔ event.AsksNothing := by
  refine (Program.unseen_bind_iff fun result => ?_).trans Lifecycle.unseen_handle_iff
  cases result with
  | ok a => exact Program.unseen_done _
  | error e => exact (Program.unseen_note _ _).2 (Program.unseen_done _)

/-- A line that is no text is reported, or its repaired text is an event. -/
theorem dispatch_of_invalid (path : String) {line : List UInt8}
    (h : Text.Utf8.decode? line = none) :
    (eventOf? line = none ∧
      ∃ fault, dispatch path line = Program.ofNotice (.malformedEvent path fault)) ∨
    ∃ event, eventOf? line = some event ∧ dispatch path line = deliver event ∧
      Text.Utf8.replacement ∉ Json.outside (textOf line).toList := by
  have htext : textOf line ≠ "" := by
    intro hempty
    have hmem := replacement_mem_textOf h
    rw [hempty] at hmem
    cases hmem
  rw [eventOf?_eq]
  unfold dispatch
  simp only [if_neg htext]
  cases hevent : DriverEvent.parse (textOf line) with
  | error fault => exact .inl ⟨rfl, fault, rfl⟩
  | ok event =>
    refine .inr ⟨event, rfl, rfl, fun hmem => ?_⟩
    exact absurd (DriverEvent.ascii_of_parse hevent _ hmem) (by decide)

theorem unseen_dispatch_iff (path : String) {line : List UInt8}
    (h : Text.Utf8.decode? line = none) :
    (dispatch path line).Unseen ↔ ∀ event, eventOf? line = some event → event.AsksNothing := by
  obtain ⟨hnone, fault, hdispatch⟩ | ⟨event, hevent, hdispatch, -⟩ := dispatch_of_invalid path h
  · rw [hdispatch, hnone]
    exact iff_of_true ((Program.unseen_note _ _).2 (Program.unseen_done ())) nofun
  · rw [hdispatch, unseen_deliver_iff, hevent]
    exact ⟨fun hnothing e he => Option.some.inj he ▸ hnothing, fun hall => hall event rfl⟩

/-- Lines that differ in a byte of no text are handled alike. -/
theorem dispatch_stray (path : String) {b c : UInt8} (hb : Text.Utf8.Stray b)
    (hc : Text.Utf8.Stray c) (before after : List UInt8) :
    dispatch path (before ++ b :: after) = dispatch path (before ++ c :: after) := by
  have htext : textOf (before ++ b :: after) = textOf (before ++ c :: after) := by
    rw [textOf, textOf, Text.Utf8.decodeLossy_stray hb hc]
  unfold dispatch
  rw [htext]

/-- **Lines that are no text.** A line of bytes that are no UTF-8 is handled like its repaired line.
Nobody sees it exactly if the repaired line is no event, and then it is reported, or an event that
asks for nothing. If it is an event, every invalid part of the line stands within a string. -/
theorem invalid_line_unseen_iff (path : String) {line : List UInt8}
    (hinvalid : Text.Utf8.decode? line = none) :
    (repaired line ≠ line ∧
      Text.Utf8.decode? (repaired line) = some (Text.Utf8.decodeLossy line) ∧
      dispatch path line = dispatch path (repaired line)) ∧
    ((dispatch path line).Unseen ↔
      ∀ event, eventOf? (repaired line) = some event → event.AsksNothing) ∧
    (eventOf? (repaired line) = none →
      ∃ fault, dispatch path line = Program.ofNotice (.malformedEvent path fault)) ∧
    ∀ event, eventOf? (repaired line) = some event →
      let text := Text.trim (String.ofList (Text.Utf8.decodeLossy line))
      dispatch path line = deliver event ∧ Text.Utf8.replacement ∈ text.toList ∧
        Text.Utf8.replacement ∉ Json.outside text.toList := by
  have hvalid : Text.Utf8.decode? (repaired line) = some (Text.Utf8.decodeLossy line) :=
    Text.Utf8.decode?_encode _
  have hne : repaired line ≠ line := by
    intro h
    rw [h, hinvalid] at hvalid
    cases hvalid
  have hdispatch : dispatch path line = dispatch path (repaired line) := by
    rw [dispatch, dispatch, textOf_repaired]
  have hevent : eventOf? (repaired line) = eventOf? line := by
    rw [eventOf?_eq, eventOf?_eq, textOf_repaired]
  refine ⟨⟨hne, hvalid, hdispatch⟩, ?_, fun hnone => ?_, fun event hsome => ?_⟩
  · rw [hevent]
    exact unseen_dispatch_iff path hinvalid
  · rw [hevent] at hnone
    obtain ⟨-, hreported⟩ | ⟨event, hsome, -⟩ := dispatch_of_invalid path hinvalid
    · exact hreported
    · rw [hnone] at hsome
      cases hsome
  · rw [hevent] at hsome
    obtain ⟨hnone, -⟩ | ⟨event', hsome', hdeliver, hinside⟩ := dispatch_of_invalid path hinvalid
    · rw [hnone] at hsome
      cases hsome
    · rw [hsome] at hsome'
      cases hsome'
      rw [trim_decodeLossy]
      exact ⟨hdeliver, replacement_mem_textOf hinvalid, hinside⟩

/-- A line that removes a workload whose identifier has a byte in it. -/
def removing (b : UInt8) : List UInt8 :=
  Text.Utf8.encode "\x7b\"type\":\"removed\",\"workload\":\"w".toList ++
    b :: Text.Utf8.encode "\"\x7d\n".toList

/-- A byte of no text outside of strings makes a line malformed, and it is reported. -/
theorem reported_before_brace :
    Text.Utf8.decode? (0xFF :: removing 119) = none ∧
      (dispatch "feed" (0xFF :: removing 119)).Unseen ∧
      ∃ fault, dispatch "feed" (0xFF :: removing 119) =
        Program.ofNotice (.malformedEvent "feed" fault) := by
  have hinvalid : Text.Utf8.decode? (0xFF :: removing 119) = none := by cbv
  have hnone : eventOf? (repaired (0xFF :: removing 119)) = none :=
    Option.isNone_iff_eq_none.1 (by decide +kernel)
  obtain ⟨-, hunseen, hreported, -⟩ := invalid_line_unseen_iff "feed" hinvalid
  refine ⟨hinvalid, hunseen.2 fun event hevent => ?_, hreported hnone⟩
  rw [hnone] at hevent
  cases hevent

/-- **Taken for an event.** Lines with a byte of no text in an identifier remove a workload, and two
of them the same one. -/
theorem invalid_bytes_remove :
    (Text.Utf8.decode? (removing 0xFF) = none ∧ Text.Utf8.decode? (removing 0xFE) = none ∧
      removing 0xFF ≠ removing 0xFE) ∧
    ¬ (dispatch "feed" (removing 0xFF)).Unseen ∧
    dispatch "feed" (removing 0xFF) = dispatch "feed" (removing 0xFE) := by
  have hinvalid : Text.Utf8.decode? (removing 0xFF) = none := by cbv
  have hremoved : (eventOf? (removing 0xFF)).any (·.name = "removed") = true := by decide +kernel
  refine ⟨⟨hinvalid, by cbv, by decide⟩, fun hunseen => ?_,
    dispatch_stray "feed" (by decide) (by decide) _ _⟩
  obtain ⟨event, hevent, hname⟩ := (Option.any_eq_true _ _).1 hremoved
  have hnothing := (unseen_dispatch_iff "feed" hinvalid).1 hunseen event hevent
  cases event with
  | removed w => exact hnothing
  | _ => simp [DriverEvent.name] at hname

end Feed

end NetRelocation
