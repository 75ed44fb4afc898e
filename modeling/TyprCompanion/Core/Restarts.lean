import Mathlib.Logic.Relation
import TyprCompanion.Core.Program

/-!
# Programs that are killed and started again

A process may be killed before, in the middle of or after any operation of its program; what is on the disk
then is what the next process starts with.

* `Prog.Killed` — the stores a program may leave.
* `Prog.Restarts` — the stores any number of starts may leave.
* **`Prog.Restarts.invariant`** — what every start keeps wherever it is killed, any number of starts keep.
-/

namespace Core

namespace Prog

variable {Op : Type} {Reply : Op → Type} {ε α S : Type}

/-- The stores a program may leave when it is killed; `during` are those in the middle of an operation.  A
program that has ended leaves its last one. -/
def Killed (exec : (op : Op) → S → Reply op → S → Prop) (during : Op → S → S → Prop) :
    Prog Op Reply ε α → S → S → Prop
  | .pure _, s, t => t = s
  | .throw _, s, t => t = s
  | .perform op next, s, t => t = s ∨ during op s t ∨
      ∃ reply u, exec op s reply u ∧ (next reply).Killed exec during u t

/-- The stores that starts of these programs, one after another, may leave. -/
def Restarts (exec : (op : Op) → S → Reply op → S → Prop) (during : Op → S → S → Prop)
    (starts : Set (Prog Op Reply ε α)) : S → S → Prop :=
  Relation.ReflTransGen fun s t => ∃ p ∈ starts, p.Killed exec during s t

variable {exec : (op : Op) → S → Reply op → S → Prop} {during : Op → S → S → Prop}
  {allowed : S → Op → Prop} {I : S → Prop}

/-- **Crash safety.**  If the invariant holds whenever an operation is allowed, and in the middle of it, then
it holds wherever the program is killed. -/
theorem Killed.of_wp (hbefore : ∀ s op, allowed s op → I s)
    (hduring : ∀ s op t, allowed s op → during op s t → I t) {p : Prog Op Reply ε α} {s t : S}
    (hwp : p.wp exec allowed (fun _ => I) s) (h : p.Killed exec during s t) : I t := by
  induction p generalizing s with
  | pure a =>
      obtain rfl : t = s := h
      exact hwp
  | throw e =>
      obtain rfl : t = s := h
      exact hwp
  | perform op next ih =>
      rcases h with rfl | h | ⟨reply, u, hexec, h⟩
      · exact hbefore t op hwp.1
      · exact hduring s op t hwp.1 h
      · exact ih reply (hwp.2 reply u hexec) h

/-- **Invariants of restarts.** -/
theorem Restarts.invariant {starts : Set (Prog Op Reply ε α)} (hbefore : ∀ s op, allowed s op → I s)
    (hduring : ∀ s op t, allowed s op → during op s t → I t)
    (hstarts : ∀ p ∈ starts, ∀ s, I s → p.wp exec allowed (fun _ => I) s) {s t : S}
    (h : Restarts exec during starts s t) (hs : I s) : I t := by
  induction h with
  | refl => exact hs
  | tail _ hstep ih =>
      obtain ⟨p, hp, hkilled⟩ := hstep
      exact hkilled.of_wp hbefore hduring (hstarts p hp _ ih)

end Prog

end Core
