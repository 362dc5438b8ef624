import NetRelocation.Proofs.Bookkeeping
import NetRelocation.Proofs.Grants

/-!
# Batches of grants

Several grants are prepared one after another, and one that fails does not keep the others from
being prepared.

**Theorem (`failed_claims_invisible`).** The results of a batch are those of its claims, each for
itself, in the order of the claims. What the batch leaves behind is what its accepted claims leave
when they alone are prepared, in the same order. So a claim that fails is seen in its own result and
nowhere else, also when it stands between two accepted claims of the same workload.

Preparing one claim either records it or leaves everything as it was (`afterClaim_of_error`); a
batch is these steps in a row (`run_prepareBatch`), from which those that do nothing can be left out.
-/

namespace NetRelocation

theorem foldl_eq_foldl_filter {α β : Type} {f : β → α → β} {p : α → Bool} {l : List α}
    (h : ∀ a ∈ l, p a = false → ∀ b, f b a = b) (b : β) : l.foldl f b = (l.filter p).foldl f b := by
  rw [List.foldl_filter]
  refine List.foldl_ext f _ b fun b a ha => ?_
  cases hp : p a with
  | false => simpa using h a ha hp b
  | true => rfl

namespace Lifecycle

open Program

variable {σ : Type} (r : Relocator σ)

/-- What preparing the devices of a claim comes to. -/
def Claim.result (claim : Claim) : Except Error PreparedArtifact :=
  PreparedArtifact.ofAllocation claim.devices

/-- What is left behind when a claim is prepared alone. -/
def afterClaim (world : World σ) (claim : Claim) : World σ :=
  ((prepare claim.workload claim.devices).run r world).world

theorem value_prepare (w : WorkloadId) (devices : List AllocatedDevice) (world : World σ) :
    ((prepare w devices).run r world).value = PreparedArtifact.ofAllocation devices := by
  cases h : PreparedArtifact.ofAllocation devices with
  | error e => rw [run_prepare_error r w h]
  | ok artifact => rw [run_prepare_ok r w h]

/-! ## One claim -/

theorem afterClaim_of_error {claim : Claim} (h : claim.result.isOk = false) (world : World σ) :
    afterClaim r world claim = world := by
  cases hresult : claim.result with
  | error e => rw [afterClaim, run_prepare_error r _ hresult]
  | ok artifact =>
    rw [hresult] at h
    cases h

theorem relocator_afterClaim (world : World σ) (claim : Claim) :
    (afterClaim r world claim).relocator = world.relocator := by
  cases hresult : claim.result with
  | error e => rw [afterClaim, run_prepare_error r _ hresult]
  | ok artifact => rw [afterClaim, run_prepare_ok r _ hresult]

theorem read_afterClaim_ne {claim : Claim} {w : WorkloadId} (h : w ≠ claim.workload)
    (world : World σ) : (afterClaim r world claim).store.read w = world.store.read w := by
  cases hresult : claim.result with
  | error e => rw [afterClaim, run_prepare_error r _ hresult]
  | ok artifact =>
    rw [afterClaim, run_prepare_ok r _ hresult]
    exact Store.read_put_ne _ _ h

/-! ## All claims -/

/-- **A batch** prepares its claims one after another, each in the world that those before left. -/
theorem run_prepareBatch (claims : List Claim) (world : World σ) :
    ((prepareBatch claims).run r world).value =
        claims.map (fun claim => (claim.workload, claim.result)) ∧
      ((prepareBatch claims).run r world).world = claims.foldl (afterClaim r) world := by
  induction claims generalizing world with
  | nil => exact ⟨rfl, rfl⟩
  | cons claim claims ih =>
    obtain ⟨hvalue, hworld⟩ := ih (afterClaim r world claim)
    simp only [prepareBatch, run_bind, Outcome.value_after, Outcome.world_after, pure_eq, run,
      value_prepare]
    exact ⟨congrArg _ hvalue, hworld⟩

theorem relocator_foldl_afterClaim (claims : List Claim) (world : World σ) :
    (claims.foldl (afterClaim r) world).relocator = world.relocator := by
  induction claims generalizing world with
  | nil => rfl
  | cons claim claims ih => rw [List.foldl_cons, ih, relocator_afterClaim]

theorem read_foldl_afterClaim {claims : List Claim} {w : WorkloadId}
    (h : ∀ claim ∈ claims, claim.workload = w → claim.result.isOk = false) (world : World σ) :
    (claims.foldl (afterClaim r) world).store.read w = world.store.read w := by
  induction claims generalizing world with
  | nil => rfl
  | cons claim claims ih =>
    obtain ⟨hclaim, hclaims⟩ := List.forall_mem_cons.1 h
    rw [List.foldl_cons, ih hclaims]
    by_cases hw : claim.workload = w
    · rw [afterClaim_of_error r (hclaim hw)]
    · exact read_afterClaim_ne r (Ne.symm hw) world

/-- **Failed claims are invisible.** A batch gives each claim the result that its devices have by
themselves: an artifact with an entry for each device exactly if there is a device and the
attributes of all can be read, and else the failure of the first that cannot be prepared. It leaves
what its accepted claims leave when they alone are prepared. A claim that fails leaves everything as
it was, so the record of a workload with no accepted claim stays. -/
theorem failed_claims_invisible (claims : List Claim) (world : World σ) :
    let o := (prepareBatch claims).run r world
    o.value = claims.map (fun claim => (claim.workload, claim.result)) ∧
      (∀ claim ∈ claims, PreparedArtifact.Settles claim.devices claim.result) ∧
      o.world = (claims.filter (·.result.isOk)).foldl (afterClaim r) world ∧
      o.world.relocator = world.relocator ∧
      (∀ claim ∈ claims, claim.result.isOk = false →
        ∀ world, afterClaim r world claim = world) ∧
      ∀ w, (∀ claim ∈ claims, claim.workload = w → claim.result.isOk = false) →
        o.world.store.read w = world.store.read w := by
  intro o
  obtain ⟨hvalue, hworld⟩ := run_prepareBatch r claims world
  have hstay : ∀ claim ∈ claims, claim.result.isOk = false →
      ∀ world, afterClaim r world claim = world := fun claim _ => afterClaim_of_error r
  refine ⟨hvalue, fun claim _ => PreparedArtifact.settles_ofAllocation claim.devices, ?_, ?_,
    hstay, fun w hw => ?_⟩
  · exact hworld.trans (foldl_eq_foldl_filter hstay world)
  · exact hworld ▸ relocator_foldl_afterClaim r claims world
  · exact hworld ▸ read_foldl_afterClaim r hw world

end Lifecycle

end NetRelocation
