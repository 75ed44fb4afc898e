import Mathlib.Tactic.Common

/-!
# Runs of event-driven systems

A system reacts to events; an event that cannot occur in a state has no successor.

* `System`, `System.Reachable` — the states runs lead to whose steps all meet a condition.
* **`System.Reachable.invariant`** — what one step preserves, a whole run preserves.
* `System.run`, `System.reachable_after` — executing a list of events.
* `System.Trace`, `System.trace_after` — the steps a run consists of.
-/

namespace Core

/-- A deterministic system: events that may occur in a state, and the state after each. -/
structure System (S E : Type) where
  init : S
  step : S → E → Option S

namespace System

variable {S E : Type} {system : System S E}

/-- **Reachability** by runs in which every event occurs in a state where it is `permitted`. -/
inductive Reachable (system : System S E) (permitted : S → E → Prop) : S → Prop
  | init : Reachable system permitted system.init
  | step {s t : S} {e : E} : Reachable system permitted s → permitted s e →
      system.step s e = some t → Reachable system permitted t

variable {permitted : S → E → Prop}

/-- **Invariants of runs.**  The step may use that its state is reached by such a run. -/
theorem Reachable.invariant {I : S → Prop} (hinit : I system.init)
    (hstep : ∀ s e t, system.Reachable permitted s → permitted s e → I s →
      system.step s e = some t → I t)
    {s : S} (h : system.Reachable permitted s) : I s := by
  induction h with
  | init => exact hinit
  | step hreach hpermitted hs ih => exact hstep _ _ _ hreach hpermitted ih hs

/-- A weaker condition permits more runs. -/
theorem Reachable.mono {permitted' : S → E → Prop}
    (himp : ∀ s e, permitted s e → permitted' s e) {s : S}
    (h : system.Reachable permitted s) : system.Reachable permitted' s := by
  induction h with
  | init => exact .init
  | step _ hpermitted hs ih => exact .step ih (himp _ _ hpermitted) hs

/-- Execute events; `none` when one of them cannot occur or is not permitted. -/
def run (system : System S E) (permitted : S → E → Bool) (s : S) : List E → Option S
  | [] => some s
  | e :: rest =>
      if permitted s e then (system.step s e).bind fun t => system.run permitted t rest else none

theorem reachable_of_run_from {check : S → E → Bool}
    (hcheck : ∀ s e, check s e = true → permitted s e) {events : List E} {s t : S}
    (hs : system.Reachable permitted s) (h : system.run check s events = some t) :
    system.Reachable permitted t := by
  induction events generalizing s with
  | nil =>
      obtain rfl : s = t := by simpa [run] using h
      exact hs
  | cons e rest ih =>
      simp only [run, Option.ite_none_right_eq_some, Option.bind_eq_some_iff] at h
      obtain ⟨hpermitted, u, hu, hrest⟩ := h
      exact ih (.step hs (hcheck s e hpermitted) hu) hrest

/-- The state after these events; the initial one when they cannot occur. -/
def after (system : System S E) (permitted : S → E → Bool) (events : List E) : S :=
  (system.run permitted system.init events).getD system.init

/-- **Traces**: the steps of a run, the last one first, each with the state it begins in. -/
inductive Trace (system : System S E) : List (S × E) → S → Prop
  | init : Trace system [] system.init
  | step {steps : List (S × E)} {s t : S} {e : E} : Trace system steps s →
      system.step s e = some t → Trace system ((s, e) :: steps) t

/-- A run whose steps are all permitted leads to a reachable state. -/
theorem Trace.reachable {steps : List (S × E)} {s : S} (h : system.Trace steps s)
    (hpermitted : ∀ step ∈ steps, permitted step.1 step.2) : system.Reachable permitted s := by
  induction h with
  | init => exact .init
  | step _ hs ih =>
      exact .step (ih fun step hmem => hpermitted step (List.mem_cons_of_mem _ hmem))
        (hpermitted _ (List.mem_cons_self ..)) hs

/-- The steps events lead through; those from the first on that cannot occur are left out. -/
def stepsFrom (system : System S E) (s : S) : List E → List (S × E)
  | [] => []
  | e :: rest => match system.step s e with
    | some t => system.stepsFrom t rest ++ [(s, e)]
    | none => []

/-- The state these events lead to. -/
def stateFrom (system : System S E) (s : S) : List E → S
  | [] => s
  | e :: rest => match system.step s e with
    | some t => system.stateFrom t rest
    | none => s

theorem Trace.events {steps : List (S × E)} {s : S} (h : system.Trace steps s) (events : List E) :
    system.Trace (system.stepsFrom s events ++ steps) (system.stateFrom s events) := by
  induction events generalizing steps s with
  | nil => exact h
  | cons e rest ih =>
      rw [stepsFrom, stateFrom]
      cases hs : system.step s e with
      | none => exact h
      | some t =>
          have hrest := ih (.step h hs)
          rwa [List.append_assoc]

/-- Events make a trace. -/
theorem trace_after (system : System S E) (events : List E) :
    system.Trace (system.stepsFrom system.init events) (system.stateFrom system.init events) := by
  have hinit : system.Trace [] system.init := .init
  have htrace := hinit.events events
  rwa [List.append_nil] at htrace

/-- What a list of events leads to is reachable. -/
theorem reachable_after {check : S → E → Bool} (hcheck : ∀ s e, check s e = true → permitted s e)
    (events : List E) : system.Reachable permitted (system.after check events) := by
  unfold after
  cases h : system.run check system.init events with
  | none => exact .init
  | some t => exact reachable_of_run_from hcheck .init h

end System

end Core
