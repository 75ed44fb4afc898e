import TyprCompanion.Core.Mutex

/-!
# A program that takes no lock

One program performs its operations while the calls behind a lock perform theirs.  Nothing keeps
them apart: between two operations of the program any number of steps of the others may fall.

* `Overlap`, `Overlap.Run` — that system, and its runs; a condition on the program's operations
  restricts the runs considered.
* `Amid` — the semantics of the program alone, when the store may drift before each operation.
* **`Overlap.Run.wp`** — what is proved about the program amid the drift holds in every run.
* `Overlap.proceed`, `Overlap.settling` — executing a run.
-/

namespace Core

/-- The system behind the lock, what is left of the program beside it, and the program's operations
so far, each with the store it met. -/
structure Overlap (Call Op : Type) (Reply : Op → Type) (ε α β S : Type) where
  system : Mutex Call Op Reply ε α S
  reader : Prog Op Reply ε β
  looks : List (S × Op)

/-- The outcomes of an operation of the program: the store has drifted, the operation meets the
condition, and it is recorded. -/
def Amid {Op : Type} {Reply : Op → Type} {S : Type} (drifts : S → S → Prop)
    (meets : List (S × Op) → S → Op → Prop) (exec : (op : Op) → S → Reply op → S → Prop)
    (op : Op) (v : S × List (S × Op)) (reply : Reply op) (w : S × List (S × Op)) : Prop :=
  ∃ u, drifts v.1 u ∧ meets v.2 u op ∧ exec op u reply w.1 ∧ w.2 = v.2 ++ [(u, op)]

namespace Overlap

variable {Call Op : Type} {Reply : Op → Type} {ε α β S : Type}
variable (exec : (op : Op) → S → Reply op → S → Prop) (body : Call → Prog Op Reply ε α)
variable (meets : List (S × Op) → S → Op → Prop)

/-- **The runs** in which each operation of the program meets the condition. -/
inductive Run (m : Mutex Call Op Reply ε α S) (p : Prog Op Reply ε β) :
    Overlap Call Op Reply ε α β S → Prop
  | start : Run m p ⟨m, p, []⟩
  /-- A step of the system behind the lock. -/
  | mutate {o : Overlap Call Op Reply ε α β S} {m' : Mutex Call Op Reply ε α S} :
      Run m p o → Mutex.Step exec body o.system m' → Run m p { o with system := m' }
  /-- The program performs its next operation. -/
  | look {o : Overlap Call Op Reply ε α β S} {op : Op} {next : Reply op → Prog Op Reply ε β}
      {reply : Reply op} {t : S} : Run m p o → o.reader = .perform op next →
      meets o.looks o.system.store op → exec op o.system.store reply t →
      Run m p ⟨{ o.system with store := t }, next reply, o.looks ++ [(o.system.store, op)]⟩

variable {exec body meets}

section Rely

variable {drifts : S → S → Prop} {looks : Op → Prop} {s : S} {m : Mutex Call Op Reply ε α S}
  {p : Prog Op Reply ε β} {o : Overlap Call Op Reply ε α β S}

/-- Beside a program that changes nothing the system goes through its own states. -/
theorem Run.reachable (hlooks : ∀ op s reply t, looks op → exec op s reply t → t = s)
    (hm : Mutex.Reachable exec body s m) (hp : p.Only looks) (h : Run exec body meets m p o) :
    Mutex.Reachable exec body s o.system ∧ o.reader.Only looks := by
  induction h with
  | start => exact ⟨hm, hp⟩
  | mutate _ hstep ih => exact ⟨.step ih.1 hstep, ih.2⟩
  | look _ hreader _ hexec ih =>
      obtain ⟨hsystem, honly⟩ := ih
      rw [hreader] at honly
      rw [hlooks _ _ _ _ honly.1 hexec]
      exact ⟨hsystem, honly.2 _⟩

/-- **Reliance.**  When every step of the system is a drift, what holds of the program amid drifts
holds of what is left of it in every run. -/
theorem Run.wp {post : Except ε β → S × List (S × Op) → Prop} (hrefl : ∀ s, drifts s s)
    (htrans : ∀ {s t u}, drifts s t → drifts t u → drifts s u)
    (hsystem : ∀ m m', Mutex.Reachable exec body s m → Mutex.Step exec body m m' →
      drifts m.store m'.store)
    (hlooks : ∀ op s reply t, looks op → exec op s reply t → t = s)
    (hm : Mutex.Reachable exec body s m) (hp : p.Only looks)
    (hwp : p.wp (Amid drifts meets exec) (fun _ _ => True) post (m.store, []))
    (h : Run exec body meets m p o) :
    ∃ t, drifts t o.system.store ∧
      o.reader.wp (Amid drifts meets exec) (fun _ _ => True) post (t, o.looks) := by
  induction h with
  | start => exact ⟨m.store, hrefl _, hwp⟩
  | mutate hrun hstep ih =>
      obtain ⟨t, hdrift, hrest⟩ := ih
      have hreach := (hrun.reachable hlooks hm hp).1
      exact ⟨t, htrans hdrift (hsystem _ _ hreach hstep), hrest⟩
  | look _ hreader hmeets hexec ih =>
      obtain ⟨t, hdrift, hrest⟩ := ih
      rw [hreader] at hrest
      exact ⟨_, hrefl _, hrest.2 _ (_, _) ⟨_, hdrift, hmeets, hexec, rfl⟩⟩

end Rely

/-- **How a call beside the lock fares.**  It can always be finished, and when it is, its result is
as described. -/
def Fares (exec : (op : Op) → S → Reply op → S → Prop)
    (post : Except ε β → List (S × Op) → Prop) (o : Overlap Call Op Reply ε α β S) : Prop :=
  (∃ r t, o.reader.Eval exec o.system.store r t) ∧
    ∀ r, o.reader = Prog.ofExcept r → post r o.looks

/-- When nobody else is at work, a call behind the lock runs to its end between two operations of
the program. -/
theorem Run.settle {m : Mutex Call Op Reply ε α S} {p q : Prog Op Reply ε β} {s t : S}
    {log : List (Call × Except ε α)} {looks : List (S × Op)} {c : Call} {r : Except ε α}
    (h : Run exec body meets m p ⟨⟨s, [], log⟩, q, looks⟩) (heval : (body c).Eval exec s r t) :
    Run exec body meets m p ⟨⟨t, [], log ++ [(c, r)]⟩, q, looks⟩ := by
  suffices hrun : ∀ (rest : Prog Op Reply ε α) (s : S),
      Run exec body meets m p ⟨⟨s, [(c, rest)], log⟩, q, looks⟩ → rest.Eval exec s r t →
        Run exec body meets m p ⟨⟨t, [], log ++ [(c, r)]⟩, q, looks⟩ from
    hrun (body c) s (h.mutate (.invoke _ c)) heval
  intro rest
  induction rest with
  | pure a =>
      rintro s hrun ⟨rfl, rfl⟩
      exact hrun.mutate (.finish rfl)
  | throw e =>
      rintro s hrun ⟨rfl, rfl⟩
      exact hrun.mutate (.fail rfl)
  | perform op next ih =>
      rintro s hrun ⟨reply, v, hexec, hrest⟩
      exact ih reply v (hrun.mutate (.advance rfl hexec)) hrest

/-- The program performs its next operations as an interpreter does. -/
def proceed (step : (op : Op) → S → Reply op × S) :
    Nat → Overlap Call Op Reply ε α β S → Overlap Call Op Reply ε α β S
  | 0, o => o
  | n + 1, ⟨system, .perform op next, looks⟩ => proceed step n
      ⟨{ system with store := (step op system.store).2 }, next (step op system.store).1,
        looks ++ [(system.store, op)]⟩
  | _ + 1, o => o

/-- A call behind the lock runs to its end. -/
def settling (step : (op : Op) → S → Reply op × S) (body : Call → Prog Op Reply ε α) (c : Call)
    (o : Overlap Call Op Reply ε α β S) : Overlap Call Op Reply ε α β S :=
  { o with system := ⟨((body c).run step o.system.store).2, [],
      o.system.settled ++ [(c, ((body c).run step o.system.store).1)]⟩ }

section Interpreted

variable {step : (op : Op) → S → Reply op × S} {m : Mutex Call Op Reply ε α S} {p : Prog Op Reply ε β}
  {o : Overlap Call Op Reply ε α β S}

theorem Run.proceed (hstep : ∀ op s, exec op s (step op s).1 (step op s).2)
    (hmeets : ∀ looks s op, meets looks s op) (n : Nat) (h : Run exec body meets m p o) :
    Run exec body meets m p (o.proceed step n) := by
  induction n generalizing o with
  | zero => exact h
  | succ n ih =>
      obtain ⟨system, reader, looks⟩ := o
      cases reader with
      | pure a => exact h
      | throw e => exact h
      | perform op next => exact ih (h.look rfl (hmeets _ _ _) (hstep op system.store))

/-- The program leaves the queue alone. -/
theorem queue_proceed (n : Nat) (o : Overlap Call Op Reply ε α β S) :
    (o.proceed step n).system.queue = o.system.queue := by
  induction n generalizing o with
  | zero => rfl
  | succ n ih =>
      obtain ⟨system, reader, looks⟩ := o
      cases reader with
      | pure a => rfl
      | throw e => rfl
      | perform op next => exact ih _

theorem Run.settling (hstep : ∀ op s, exec op s (step op s).1 (step op s).2) (c : Call)
    (hidle : o.system.queue = []) (h : Run exec body meets m p o) :
    Run exec body meets m p (o.settling step body c) := by
  obtain ⟨⟨store, queue, settled⟩, reader, looks⟩ := o
  obtain rfl : queue = [] := hidle
  exact h.settle (Prog.eval_run hstep (body c) store)

end Interpreted

end Overlap

end Core
