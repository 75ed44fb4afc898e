import TyprCompanion.Management.AccessRuns
import TyprCompanion.Management.ProviderManager

/-!
# Failed writes of the management state

What a failed write does to the later ones, for the access store and the provider manager alike.

* **`writes_recover`** — the writes of a store recover from failures exactly when no failed write comes
  before one that would succeed.
* `failure_skips_writes` — after one failed write the store never writes again.
-/

namespace Typr

open Core

/-- **Recovery**, in every state of every run of a store: it takes that no failed write precedes one
that would succeed.  The file of the provider manager holds its state only where the paths of the
executables are portable, too. -/
theorem writes_recover (p : AccessPlatform) (platform : Platform)
    {catalog : List ManagedProviderDefinition} (hcatalog : WellNamed catalog) :
    (∀ (found : Option SavedState) (state : AccessState), AccessStore.openState found = .ok state →
      ∀ s, (AccessStore.system p true found state).Reachable (fun _ _ => True) s →
        (WriteQueue.Recovers true SavedState.decode s.state s.queue ↔
          WriteQueue.NoFailureBefore true s.queue)) ∧
    (∀ (found : Option Json) (isFile : InstalledProviderRecord → Bool)
      (failure : WriteOp → Option Errno) (m : ProviderManager),
      ProviderManager.openManager platform catalog found isFile failure = .ok m →
      ∀ s, (ProviderManager.system platform catalog m).Reachable (fun _ _ => True) s →
        (WriteQueue.Recovers false (validateProviderState platform catalog) s.state s.queue ↔
          WriteQueue.NoFailureBefore false s.queue ∧
            (s.queue.Idle → (∃ w, s.queue.tasks.getLast? = some w ∧ w.Succeeds false) →
              s.state.Portable))) := by
  constructor
  · intro found state hopen s hs
    obtain ⟨hstored, _, hkeeps⟩ := AccessStore.keeps hopen hs
    rw [hkeeps.recovers_iff]
    have hdecode : SavedState.decode ⟨s.state.toJson, s.log⟩ = .ok s.state :=
      validateState_toJson hstored
    exact and_iff_left fun _ _ => hdecode
  · intro found isFile failure m hopen s hs
    obtain ⟨hvalid, hkeeps⟩ := ProviderManager.keeps hcatalog hopen hs
    rw [hkeeps.recovers_iff, validateProviderState_toJson_iff hcatalog hvalid]

/-! ## Runs -/

/-- A platform, for runs that need no digest, no case mapping and no date. -/
def idlePlatform : AccessPlatform := ⟨fun _ => [], id, fun _ => none⟩

/-- A full disk refuses the text. -/
def diskFull (op : WriteOp) : Option Errno := if op = .writeFile then some .fault else none

/-- A call that persists the state, and so many steps of the writes. -/
def persisted (failure : WriteOp → Option Errno) (steps : Nat) : List AccessEvent :=
  .call (.setRequireApiKeys false) failure :: List.replicate steps .advance

/-- A new store after these events. -/
def storeAfter (events : List AccessEvent) : AccessStore :=
  (AccessStore.system idlePlatform true none emptyState).after (fun _ _ => true) events

theorem reachable_storeAfter (events : List AccessEvent) :
    (AccessStore.system idlePlatform true none emptyState).Reachable (fun _ _ => True)
      (storeAfter events) :=
  System.reachable_after (fun _ _ _ => trivial) _

/-- Two calls, written one after the other. -/
def twoWrites : AccessStore :=
  storeAfter (persisted (fun _ => none) 5 ++ persisted (fun _ => none) 5)

/-- Two calls, and only the write of the first one fails. -/
def failedWrite : AccessStore := storeAfter (persisted diskFull 3 ++ persisted (fun _ => none) 1)

/-- A manager whose state was written once. -/
def managerAfter : ProviderManager :=
  (ProviderManager.system .posix CURATED_PROVIDER_CATALOG ⟨⟨none, []⟩, .resolved (.found none)⟩).after
    (fun _ _ => true) (.activate (js "system-tex") (fun _ => none) :: List.replicate 4 .advance)

theorem writes_recover_idle :
    WriteQueue.Recovers true SavedState.decode twoWrites.state twoWrites.queue ∧
    WriteQueue.Recovers false (validateProviderState .posix CURATED_PROVIDER_CATALOG)
      managerAfter.state managerAfter.queue := by
  constructor
  · refine ((writes_recover idlePlatform .posix curated_wellNamed).1 none emptyState rfl _
      (reachable_storeAfter _)).mpr ?_
    unfold WriteQueue.NoFailureBefore
    decide +kernel
  · refine ((writes_recover idlePlatform .posix curated_wellNamed).2 none (fun _ => true)
      (fun _ => none) _ rfl _ (System.reachable_after (fun _ _ _ => trivial) _)).mpr ⟨?_, fun _ _ => ?_⟩
    · unfold WriteQueue.NoFailureBefore
      decide +kernel
    · show managerAfter.state.Portable
      unfold ProviderState.Portable
      decide +kernel

/-- A write that fails once, and the next one, which would succeed, is skipped. -/
theorem failure_skips_writes : ¬ ∀ (p : AccessPlatform) (found : Option SavedState)
    (state : AccessState), AccessStore.openState found = .ok state →
    ∀ s, (AccessStore.system p true found state).Reachable (fun _ _ => True) s →
      WriteQueue.Recovers true SavedState.decode s.state s.queue := by
  intro h
  have hrecovers := h idlePlatform none emptyState rfl failedWrite (reachable_storeAfter _)
  have hskipped : ∃ entry ∈ failedWrite.queue.settled,
      entry.1.Succeeds true ∧ entry.2.isOk = false := by
    decide +kernel
  obtain ⟨entry, hentry, hsucceeds, hrejected⟩ := hskipped
  rw [hrecovers.resolves entry hentry hsucceeds] at hrejected
  exact absurd hrejected (by decide)

end Typr
