import Mathlib.Data.List.Induction
import Mathlib.Tactic.Common

/-!
# Tasks chained through one promise

`chain = chain.then(task)`: the tasks run one after another, in the order in which they were
appended, and a task is skipped when the promise before it is rejected.

* `Tasks` — the operations of a task, whether each succeeds, and what it does to a world.
* `PromiseChain`, `PromiseChain.advance` — the chain, one operation or one reaction at a time.
* **`PromiseChain.Lawful`** — the promises that settled are those of `cascade`; kept by every step.
* **`fulfilled_cascade_iff`** — a promise is fulfilled if and only if no task up to its own fails.
* `PromiseChain.idle_advanceBy`, `Lawful.drained` — a chain left alone settles all its promises.
-/

namespace Core

/-- What a task does: its operations in order, whether each of them succeeds for it, and the effect
of those that do. -/
structure Tasks (T Op ε W : Type) where
  ops : List Op
  result : T → Op → Except ε Unit
  effect : T → Op → W → W

/-- The promises that settled, with their tasks; the running task and the operations it has left; and
the tasks that wait. -/
structure PromiseChain (T Op ε W : Type) where
  world : W
  settled : List (T × Except ε Unit)
  running : Option (T × List Op)
  waiting : List T

variable {T Op ε W : Type}

namespace Tasks

variable (k : Tasks T Op ε W)

/-- The first error of these operations. -/
def outcomeOf (t : T) : List Op → Except ε Unit
  | [] => .ok ()
  | op :: rest => match k.result t op with
      | .ok () => outcomeOf t rest
      | .error e => .error e

/-- How a task that runs ends. -/
def outcome (t : T) : Except ε Unit := k.outcomeOf t k.ops

/-- No operation of the task fails. -/
def Succeeds (t : T) : Prop := k.outcome t = .ok ()

theorem outcomeOf_eq_ok_iff (t : T) (ops : List Op) :
    k.outcomeOf t ops = .ok () ↔ ∀ op ∈ ops, k.result t op = .ok () := by
  induction ops with
  | nil => simp [outcomeOf]
  | cons op rest ih =>
      rw [outcomeOf, List.forall_mem_cons]
      cases k.result t op with
      | ok u => simp [ih]
      | error e => simp

/-- The promises of these tasks, chained to one that settled so: the first error is passed on. -/
def cascade : Except ε Unit → List T → List (T × Except ε Unit)
  | _, [] => []
  | .ok (), t :: rest => (t, k.outcome t) :: cascade (k.outcome t) rest
  | .error e, t :: rest => (t, .error e) :: cascade (.error e) rest

/-- The last promise of these tasks. -/
def last : Except ε Unit → List T → Except ε Unit
  | r, [] => r
  | .ok (), t :: rest => last (k.outcome t) rest
  | .error e, _ :: _ => .error e

@[simp] theorem last_error (e : ε) (ts : List T) : k.last (.error e) ts = .error e := by
  cases ts <;> rfl

theorem cascade_append (r : Except ε Unit) (ts us : List T) :
    k.cascade r (ts ++ us) = k.cascade r ts ++ k.cascade (k.last r ts) us := by
  induction ts generalizing r with
  | nil => rfl
  | cons t ts ih =>
      cases r with
      | ok u => simp only [List.cons_append, cascade, ih, last]
      | error e => simp only [List.cons_append, cascade, ih, last_error]

theorem last_append (r : Except ε Unit) (ts us : List T) :
    k.last r (ts ++ us) = k.last (k.last r ts) us := by
  induction ts generalizing r with
  | nil => rfl
  | cons t ts ih =>
      cases r with
      | ok u => exact ih _
      | error e => simp only [last_error]

/-- The last promise is fulfilled when no task fails. -/
theorem last_eq_ok_iff (ts : List T) :
    k.last (.ok ()) ts = .ok () ↔ ∀ t ∈ ts, k.Succeeds t := by
  induction ts with
  | nil => simp [last]
  | cons t ts ih =>
      rw [last, List.forall_mem_cons]
      cases h : k.outcome t with
      | ok u => simp [Succeeds, h, ih]
      | error e => simp [Succeeds, h]

theorem map_fst_cascade (r : Except ε Unit) (ts : List T) :
    (k.cascade r ts).map Prod.fst = ts := by
  induction ts generalizing r with
  | nil => rfl
  | cons t ts ih => cases r with
      | ok u => simp [cascade, ih]
      | error e => simp [cascade, ih]

/-- **A promise is fulfilled if and only if its own task and those before it do not fail.** -/
theorem fulfilled_cascade_iff {ts : List T} {i : Nat} {t : T} {r : Except ε Unit}
    (h : (k.cascade (.ok ()) ts)[i]? = some (t, r)) :
    r = .ok () ↔ ∀ u ∈ ts.take (i + 1), k.Succeeds u := by
  have hi : i < ts.length := by
    have hlen := congrArg List.length (k.map_fst_cascade (.ok ()) ts)
    rw [List.length_map] at hlen
    exact hlen ▸ (List.getElem?_eq_some_iff.mp h).1
  have hsplit : ts = ts.take i ++ ts[i] :: ts.drop (i + 1) := by
    rw [← List.drop_eq_getElem_cons hi, List.take_append_drop]
  have hlength : (k.cascade (.ok ()) (ts.take i)).length = i := by
    rw [← List.length_map Prod.fst, map_fst_cascade, List.length_take, Nat.min_eq_left (Nat.le_of_lt hi)]
  rw [hsplit, cascade_append, List.getElem?_append_right (Nat.le_of_eq hlength), hlength, Nat.sub_self] at h
  rw [List.take_succ_eq_append_getElem hi, List.forall_mem_append, ← last_eq_ok_iff,
    List.forall_mem_singleton]
  cases hlast : k.last (.ok ()) (ts.take i) with
  | ok u =>
      rw [hlast, cascade, List.getElem?_cons_zero, Option.some.injEq, Prod.mk.injEq] at h
      rw [← h.2, eq_self_iff_true, true_and]
      exact Iff.rfl
  | error e =>
      rw [hlast, cascade, List.getElem?_cons_zero, Option.some.injEq, Prod.mk.injEq] at h
      rw [← h.2]
      simp

end Tasks

namespace PromiseChain

variable (k : Tasks T Op ε W)

/-- The resolved promise a chain starts from. -/
def resolved (world : W) : PromiseChain T Op ε W := ⟨world, [], none, []⟩

/-- How the last promise that settled did. -/
def outcome (c : PromiseChain T Op ε W) : Except ε Unit :=
  match c.settled.getLast? with
  | none => .ok ()
  | some (_, r) => r

/-- `chain = chain.then(task)` -/
def append (t : T) (c : PromiseChain T Op ε W) : PromiseChain T Op ε W :=
  { c with waiting := c.waiting ++ [t] }

/-- The promise of the task that runs, or that is skipped, settles. -/
def settle (t : T) (r : Except ε Unit) (c : PromiseChain T Op ε W) : PromiseChain T Op ε W :=
  { c with settled := c.settled ++ [(t, r)], running := none }

/-- The running task performs its next operation or ends; where none runs, the next one is started, or
skipped when the chain is rejected. -/
def advance (c : PromiseChain T Op ε W) : Option (PromiseChain T Op ε W) :=
  match c.running with
  | some (t, []) => some (c.settle t (.ok ()))
  | some (t, op :: rest) => match k.result t op with
      | .ok () => some { c with world := k.effect t op c.world, running := some (t, rest) }
      | .error e => some (c.settle t (.error e))
  | none => match c.waiting with
      | [] => none
      | t :: rest => match c.outcome with
          | .ok () => some { c with running := some (t, k.ops), waiting := rest }
          | .error e => some { c.settle t (.error e) with waiting := rest }

/-- Every task ever appended, in order. -/
def tasks (c : PromiseChain T Op ε W) : List T :=
  c.settled.map Prod.fst ++ ((c.running.map Prod.fst).toList ++ c.waiting)

@[simp] theorem tasks_append (t : T) (c : PromiseChain T Op ε W) :
    (c.append t).tasks = c.tasks ++ [t] := by
  simp [tasks, append]

@[simp] theorem settled_append (t : T) (c : PromiseChain T Op ε W) :
    (c.append t).settled = c.settled := rfl

@[simp] theorem running_append (t : T) (c : PromiseChain T Op ε W) :
    (c.append t).running = c.running := rfl

@[simp] theorem world_append (t : T) (c : PromiseChain T Op ε W) :
    (c.append t).world = c.world := rfl

/-- What advancing a chain can do. -/
theorem advance_cases {c d : PromiseChain T Op ε W} (h : advance k c = some d) :
    (∃ t, c.running = some (t, []) ∧ d = c.settle t (.ok ())) ∨
    (∃ t op rest, c.running = some (t, op :: rest) ∧ k.result t op = .ok () ∧
      d = { c with world := k.effect t op c.world, running := some (t, rest) }) ∨
    (∃ t op rest e, c.running = some (t, op :: rest) ∧ k.result t op = .error e ∧
      d = c.settle t (.error e)) ∨
    (∃ t rest, c.running = none ∧ c.waiting = t :: rest ∧ c.outcome = .ok () ∧
      d = { c with running := some (t, k.ops), waiting := rest }) ∨
    (∃ t rest e, c.running = none ∧ c.waiting = t :: rest ∧ c.outcome = .error e ∧
      d = { c.settle t (.error e) with waiting := rest }) := by
  unfold advance at h
  split at h
  next t hrun => exact .inl ⟨t, hrun, (Option.some.inj h).symm⟩
  next t op rest hrun =>
    split at h
    next hresult => exact .inr (.inl ⟨t, op, rest, hrun, hresult, (Option.some.inj h).symm⟩)
    next e hresult =>
      exact .inr (.inr (.inl ⟨t, op, rest, e, hrun, hresult, (Option.some.inj h).symm⟩))
  next hrun =>
    split at h
    next => exact absurd h (by simp)
    next t rest hwaiting =>
      split at h
      next hout =>
        exact .inr (.inr (.inr (.inl ⟨t, rest, hrun, hwaiting, hout, (Option.some.inj h).symm⟩)))
      next e hout =>
        exact .inr (.inr (.inr (.inr ⟨t, rest, e, hrun, hwaiting, hout, (Option.some.inj h).symm⟩)))

/-- Advancing appends no task. -/
theorem tasks_advance {c d : PromiseChain T Op ε W} (h : advance k c = some d) :
    d.tasks = c.tasks := by
  obtain ⟨t, hrun, rfl⟩ | ⟨t, op, rest, hrun, -, rfl⟩ | ⟨t, op, rest, e, hrun, -, rfl⟩ |
    ⟨t, rest, hrun, hwaiting, -, rfl⟩ | ⟨t, rest, e, hrun, hwaiting, -, rfl⟩ := advance_cases k h
  · simp [tasks, settle, hrun]
  · simp [tasks, hrun]
  · simp [tasks, settle, hrun]
  · simp [tasks, hrun, hwaiting]
  · simp [tasks, settle, hrun, hwaiting]

/-- The tasks whose promises settled come first. -/
theorem settled_advance (c : PromiseChain T Op ε W) : c.settled.map Prod.fst <+: c.tasks :=
  List.prefix_append _ _

/-! ## The promises that settled -/

/-- **Lawful chains**: the promises settled as `cascade` says, and a task runs only behind a fulfilled
promise, with the operations left that decide its outcome. -/
structure Lawful (c : PromiseChain T Op ε W) : Prop where
  settled : c.settled = k.cascade (.ok ()) (c.settled.map Prod.fst)
  running : ∀ t rest, c.running = some (t, rest) →
    k.last (.ok ()) (c.settled.map Prod.fst) = .ok () ∧ k.outcomeOf t rest = k.outcome t

theorem Lawful.resolved (world : W) : Lawful k (resolved world) where
  settled := rfl
  running _ _ h := nomatch h

/-- The last promise that settled. -/
theorem Lawful.outcome_eq {c : PromiseChain T Op ε W} (h : Lawful k c) :
    c.outcome = k.last (.ok ()) (c.settled.map Prod.fst) := by
  have hs := h.settled
  unfold outcome
  generalize c.settled.map Prod.fst = ts at hs
  rw [hs]
  clear h hs
  induction ts using List.reverseRecOn with
  | nil => rfl
  | append_singleton ts t ih =>
      rw [k.cascade_append, k.last_append]
      cases k.last (.ok ()) ts with
      | ok u => simp [Tasks.cascade, Tasks.last]
      | error e => simp [Tasks.cascade]

theorem Lawful.append {c : PromiseChain T Op ε W} (h : Lawful k c) (t : T) :
    Lawful k (c.append t) := ⟨h.settled, h.running⟩

/-- A promise settles behind the others. -/
theorem Lawful.settle {c : PromiseChain T Op ε W} (h : Lawful k c) {t : T} {r : Except ε Unit}
    (hr : k.cascade (k.last (.ok ()) (c.settled.map Prod.fst)) [t] = [(t, r)]) :
    Lawful k (c.settle t r) where
  settled := by
    have hs := h.settled
    simp only [PromiseChain.settle, List.map_append, List.map_cons, List.map_nil]
    rw [k.cascade_append, hr, ← hs]
  running _ _ hrun := nomatch hrun

/-- **Every step keeps a chain lawful.** -/
theorem Lawful.advance {c d : PromiseChain T Op ε W} (hc : Lawful k c)
    (h : advance k c = some d) : Lawful k d := by
  obtain ⟨t, hrun, rfl⟩ | ⟨t, op, rest, hrun, hresult, rfl⟩ | ⟨t, op, rest, e, hrun, hresult, rfl⟩ |
    ⟨t, rest, hrun, hwaiting, hout, rfl⟩ | ⟨t, rest, e, hrun, hwaiting, hout, rfl⟩ :=
      advance_cases k h
  · obtain ⟨hlast, howes⟩ := hc.running t [] hrun
    refine hc.settle k ?_
    rw [hlast, Tasks.cascade, ← howes]
    rfl
  · refine ⟨hc.settled, fun u left hu => ?_⟩
    obtain ⟨rfl, rfl⟩ : t = u ∧ rest = left := by simpa using hu
    obtain ⟨hlast, howes⟩ := hc.running t (op :: rest) hrun
    rw [Tasks.outcomeOf, hresult] at howes
    exact ⟨hlast, howes⟩
  · obtain ⟨hlast, howes⟩ := hc.running t (op :: rest) hrun
    rw [Tasks.outcomeOf, hresult] at howes
    refine hc.settle k ?_
    rw [hlast, Tasks.cascade, ← howes]
    rfl
  · refine ⟨hc.settled, fun u left hu => ?_⟩
    obtain ⟨rfl, rfl⟩ : t = u ∧ k.ops = left := by simpa using hu
    exact ⟨hc.outcome_eq k ▸ hout, rfl⟩
  · have hsettle : Lawful k (c.settle t (.error e)) := by
      refine hc.settle k ?_
      rw [← hc.outcome_eq k, hout]
      rfl
    exact ⟨hsettle.settled, fun _ _ hu => nomatch hu⟩

/-- How the promise of a task settled, in terms of the tasks alone. -/
theorem Lawful.fulfilled_iff {c : PromiseChain T Op ε W} (hc : Lawful k c) {i : Nat} {t : T}
    {r : Except ε Unit} (h : c.settled[i]? = some (t, r)) :
    r = .ok () ↔ ∀ u ∈ (c.settled.map Prod.fst).take (i + 1), k.Succeeds u := by
  have hs := hc.settled
  generalize c.settled.map Prod.fst = ts at hs ⊢
  exact k.fulfilled_cascade_iff (hs ▸ h)

/-! ## Progress -/

/-- Steps that are left. -/
def remaining (c : PromiseChain T Op ε W) : Nat :=
  (c.running.elim 0 fun entry => entry.2.length + 1) + c.waiting.length * (k.ops.length + 2)

/-- Nothing runs and nothing waits. -/
def Idle (c : PromiseChain T Op ε W) : Prop := c.running = none ∧ c.waiting = []

theorem advance_eq_none_iff {c : PromiseChain T Op ε W} : advance k c = none ↔ c.Idle := by
  unfold advance Idle
  constructor
  · intro h
    split at h
    next => exact absurd h (by simp)
    next => split at h <;> exact absurd h (by simp)
    next hrun =>
      split at h
      next hwaiting => exact ⟨hrun, hwaiting⟩
      next => split at h <;> exact absurd h (by simp)
  · rintro ⟨hrun, hwaiting⟩
    rw [hrun, hwaiting]

theorem remaining_advance {c d : PromiseChain T Op ε W} (h : advance k c = some d) :
    remaining k d < remaining k c := by
  obtain ⟨t, hrun, rfl⟩ | ⟨t, op, rest, hrun, -, rfl⟩ | ⟨t, op, rest, e, hrun, -, rfl⟩ |
    ⟨t, rest, hrun, hwaiting, -, rfl⟩ | ⟨t, rest, e, hrun, hwaiting, -, rfl⟩ := advance_cases k h
  · simp [remaining, settle, hrun]
  · simp [remaining, hrun]
  · simp [remaining, settle, hrun]
  · simp only [remaining, hrun, hwaiting, Option.elim, List.length_cons, Nat.succ_mul]
    omega
  · simp only [remaining, settle, hrun, hwaiting, Option.elim, List.length_cons, Nat.succ_mul]
    omega

/-- So many steps; a chain with nothing left stays. -/
def advanceBy : Nat → PromiseChain T Op ε W → PromiseChain T Op ε W
  | 0, c => c
  | n + 1, c => match advance k c with
      | some d => advanceBy n d
      | none => c

/-- **Every promise settles**: a chain left alone becomes idle. -/
theorem idle_advanceBy {c : PromiseChain T Op ε W} {n : Nat} (h : remaining k c ≤ n) :
    (advanceBy k n c).Idle := by
  induction n generalizing c with
  | zero =>
      rw [← advance_eq_none_iff k]
      cases hadvance : advance k c with
      | none => exact hadvance
      | some d =>
          have := remaining_advance k hadvance
          omega
  | succ n ih =>
      unfold advanceBy
      cases hadvance : advance k c with
      | none => exact (advance_eq_none_iff k).mp hadvance
      | some d =>
          have := remaining_advance k hadvance
          exact ih (by omega)

theorem tasks_advanceBy (n : Nat) (c : PromiseChain T Op ε W) :
    (advanceBy k n c).tasks = c.tasks := by
  induction n generalizing c with
  | zero => rfl
  | succ n ih =>
      unfold advanceBy
      cases hadvance : advance k c with
      | none => rfl
      | some d => exact (ih d).trans (tasks_advance k hadvance)

theorem Lawful.advanceBy {c : PromiseChain T Op ε W} (h : Lawful k c) (n : Nat) :
    Lawful k (advanceBy k n c) := by
  induction n generalizing c with
  | zero => exact h
  | succ n ih =>
      unfold PromiseChain.advanceBy
      cases hadvance : PromiseChain.advance k c with
      | none => exact h
      | some d => exact ih (h.advance k hadvance)

/-- Where no task fails, the promises that settled are fulfilled. -/
theorem Lawful.fulfilled {c : PromiseChain T Op ε W} (h : Lawful k c)
    (hsucceed : ∀ t ∈ c.tasks, k.Succeeds t) {i : Nat} {t : T} {r : Except ε Unit}
    (hi : c.settled[i]? = some (t, r)) : r = .ok () :=
  (h.fulfilled_iff k hi).mpr fun u hu =>
    hsucceed u ((settled_advance c).subset (List.mem_of_mem_take hu))

/-- The chain when it is left alone. -/
def drain (c : PromiseChain T Op ε W) : PromiseChain T Op ε W := advanceBy k (remaining k c) c

/-- Every promise of a chain left alone settles, in the order of the tasks. -/
theorem settled_drain (c : PromiseChain T Op ε W) :
    (drain k c).settled.map Prod.fst = c.tasks := by
  unfold drain
  have hidle := idle_advanceBy k (Nat.le_refl (remaining k c))
  have htasks := tasks_advanceBy k (remaining k c) c
  generalize PromiseChain.advanceBy k (remaining k c) c = d at hidle htasks ⊢
  rw [← htasks, tasks, hidle.1, hidle.2]
  exact (List.append_nil _).symm

theorem exists_settled_drain {c : PromiseChain T Op ε W} {i : Nat} {t : T}
    (hi : c.tasks[i]? = some t) : ∃ r, (drain k c).settled[i]? = some (t, r) := by
  rw [← settled_drain k, List.getElem?_map] at hi
  obtain ⟨⟨u, r⟩, hentry, rfl⟩ := Option.map_eq_some_iff.mp hi
  exact ⟨r, hentry⟩

/-- **Every promise of a chain left alone is fulfilled**, where no task fails. -/
theorem Lawful.drained {c : PromiseChain T Op ε W} (h : Lawful k c)
    (hsucceed : ∀ t ∈ c.tasks, k.Succeeds t) {i : Nat} {t : T} (hi : c.tasks[i]? = some t) :
    (drain k c).settled[i]? = some (t, .ok ()) := by
  obtain ⟨r, hentry⟩ := exists_settled_drain k hi
  have htasks : (drain k c).tasks = c.tasks := tasks_advanceBy k _ c
  rw [hentry, (h.advanceBy k _).fulfilled k (htasks ▸ hsucceed) hentry]

end PromiseChain

end Core
