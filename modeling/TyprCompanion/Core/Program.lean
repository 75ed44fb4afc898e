import Mathlib.Tactic.Common

/-!
# Sequential programs over a store

A program performs operations one at a time and may throw.  What an operation answers, and what
it does to the store, is not the program's business: a semantics `exec` relates the store before
an operation to its reply and the store after.  The relation may be nondeterministic, so that
faults injected by the environment are part of it.

* `Prog` — the programs: the free monad over a set of operations, with exceptions.
* `Prog.run` — the interpreter, for a semantics that is a function.
* `Prog.Eval` — every outcome a program can have, for a semantics that is a relation.
* `Prog.wp` — the weakest precondition: `allowed` holds at each operation performed, and the
  postcondition at the end.  The rules below compute it through the control flow.
* `Prog.Only` — footprints: which operations a program can perform at all.
-/

namespace Core

/-- A sequential program: it ends with a value, throws, or performs an operation and goes on with
the reply. -/
inductive Prog (Op : Type) (Reply : Op → Type) (ε α : Type) where
  | pure (a : α)
  | throw (e : ε)
  | perform (op : Op) (next : Reply op → Prog Op Reply ε α)

namespace Prog

variable {Op : Type} {Reply : Op → Type} {ε α β S : Type}

/-! ## Control flow -/

/-- Sequencing: an exception of the first program skips the second. -/
def bind : Prog Op Reply ε α → (α → Prog Op Reply ε β) → Prog Op Reply ε β
  | .pure a, f => f a
  | .throw e, _ => .throw e
  | .perform op next, f => .perform op fun reply => (next reply).bind f

/-- `try … catch …`: the handler runs on whatever the body throws. -/
def tryCatch : Prog Op Reply ε α → (ε → Prog Op Reply ε α) → Prog Op Reply ε α
  | .pure a, _ => .pure a
  | .throw e, handler => handler e
  | .perform op next, handler => .perform op fun reply => (next reply).tryCatch handler

instance : Monad (Prog Op Reply ε) where
  pure := .pure
  bind := .bind

instance : MonadExceptOf ε (Prog Op Reply ε) where
  throw := .throw
  tryCatch := .tryCatch

/-- Perform one operation and return its reply. -/
def call (op : Op) : Prog Op Reply ε (Reply op) := .perform op .pure

/-- The value of an `Except`, or its exception thrown. -/
def ofExcept : Except ε α → Prog Op Reply ε α
  | .ok a => .pure a
  | .error e => .throw e

/-- Run `cleanup` when the body throws, then throw the body's exception again. -/
def onError (p : Prog Op Reply ε α) (cleanup : Prog Op Reply ε Unit) : Prog Op Reply ε α :=
  p.tryCatch fun e => cleanup.bind fun _ => .throw e

/-- `try … finally …`: the cleanup runs in any case, and an exception of its own wins. -/
def ensuring (p : Prog Op Reply ε α) (cleanup : Prog Op Reply ε Unit) : Prog Op Reply ε α :=
  (p.onError cleanup).bind fun a => cleanup.bind fun _ => .pure a

/-- Throw when the condition holds. -/
def throwIf (c : Prop) [Decidable c] (e : ε) : Prog Op Reply ε Unit :=
  if c then .throw e else .pure ()

/-! ## Outcomes -/

/-- The outcome of a program when each operation has one result. -/
def run (exec : (op : Op) → S → Reply op × S) : Prog Op Reply ε α → S → Except ε α × S
  | .pure a, s => (.ok a, s)
  | .throw e, s => (.error e, s)
  | .perform op next, s => (next (exec op s).1).run exec (exec op s).2

section Run

variable (exec : (op : Op) → S → Reply op × S)

/-- A sequence after its first half. -/
def thenRun (f : α → Prog Op Reply ε β) : Except ε α × S → Except ε β × S
  | (.ok a, t) => (f a).run exec t
  | (.error e, t) => (.error e, t)

/-- A protected body after it has run. -/
def catchRun (handler : ε → Prog Op Reply ε α) : Except ε α × S → Except ε α × S
  | (.ok a, t) => (.ok a, t)
  | (.error e, t) => (handler e).run exec t

theorem run_bind (p : Prog Op Reply ε α) (f : α → Prog Op Reply ε β) (s : S) :
    (p >>= f).run exec s = thenRun exec f (p.run exec s) := by
  induction p generalizing s with
  | pure a => rfl
  | throw e => rfl
  | perform op next ih => exact ih _ _

theorem run_tryCatch (p : Prog Op Reply ε α) (handler : ε → Prog Op Reply ε α) (s : S) :
    (p.tryCatch handler).run exec s = catchRun exec handler (p.run exec s) := by
  induction p generalizing s with
  | pure a => rfl
  | throw e => rfl
  | perform op next ih => exact ih _ _

theorem run_ofExcept (r : Except ε α) (s : S) :
    (ofExcept r : Prog Op Reply ε α).run exec s = (r, s) := by
  cases r <;> rfl

end Run

/-- `p.Eval exec s r t`: from the store `s` the program can end with `r`, leaving `t`. -/
def Eval (exec : (op : Op) → S → Reply op → S → Prop) :
    Prog Op Reply ε α → S → Except ε α → S → Prop
  | .pure a, s, r, t => r = .ok a ∧ t = s
  | .throw e, s, r, t => r = .error e ∧ t = s
  | .perform op next, s, r, t => ∃ reply u, exec op s reply u ∧ (next reply).Eval exec u r t

/-- **The weakest precondition.**  From `s`, every operation the program performs is `allowed` in
the store it meets, and every outcome satisfies `post`. -/
def wp (exec : (op : Op) → S → Reply op → S → Prop) (allowed : S → Op → Prop)
    (post : Except ε α → S → Prop) : Prog Op Reply ε α → S → Prop
  | .pure a, s => post (.ok a) s
  | .throw e, s => post (.error e) s
  | .perform op next, s =>
      allowed s op ∧ ∀ reply t, exec op s reply t → (next reply).wp exec allowed post t

section Rules

variable {exec : (op : Op) → S → Reply op → S → Prop} {allowed : S → Op → Prop}

/-! ## The rules of the weakest precondition -/

@[simp] theorem wp_pure (post : Except ε α → S → Prop) (a : α) (s : S) :
    (Pure.pure a : Prog Op Reply ε α).wp exec allowed post s ↔ post (.ok a) s := Iff.rfl

@[simp] theorem wp_throw (post : Except ε α → S → Prop) (e : ε) (s : S) :
    (MonadExcept.throw e : Prog Op Reply ε α).wp exec allowed post s ↔ post (.error e) s := Iff.rfl

@[simp] theorem wp_perform (post : Except ε α → S → Prop) (op : Op)
    (next : Reply op → Prog Op Reply ε α) (s : S) :
    (Prog.perform op next).wp exec allowed post s ↔
      allowed s op ∧ ∀ reply t, exec op s reply t → (next reply).wp exec allowed post t := Iff.rfl

@[simp] theorem wp_call (post : Except ε (Reply op) → S → Prop) (s : S) :
    (call op : Prog Op Reply ε (Reply op)).wp exec allowed post s ↔
      allowed s op ∧ ∀ reply t, exec op s reply t → post (.ok reply) t := Iff.rfl

theorem wp_ofExcept (post : Except ε α → S → Prop) (r : Except ε α) (s : S) :
    (ofExcept r : Prog Op Reply ε α).wp exec allowed post s ↔ post r s := by
  cases r <;> exact Iff.rfl

/-- What is left to prove after the first half of a sequence. -/
def afterBind (exec : (op : Op) → S → Reply op → S → Prop) (allowed : S → Op → Prop)
    (post : Except ε β → S → Prop) (f : α → Prog Op Reply ε β) : Except ε α → S → Prop
  | .ok a, t => (f a).wp exec allowed post t
  | .error e, t => post (.error e) t

@[simp] theorem afterBind_ok (post : Except ε β → S → Prop) (f : α → Prog Op Reply ε β) (a : α)
    (t : S) : afterBind exec allowed post f (.ok a) t ↔ (f a).wp exec allowed post t := Iff.rfl

@[simp] theorem afterBind_error (post : Except ε β → S → Prop) (f : α → Prog Op Reply ε β) (e : ε)
    (t : S) : afterBind exec allowed post f (.error e) t ↔ post (.error e) t := Iff.rfl

@[simp] theorem wp_bind (post : Except ε β → S → Prop) (p : Prog Op Reply ε α)
    (f : α → Prog Op Reply ε β) (s : S) :
    (p >>= f).wp exec allowed post s ↔ p.wp exec allowed (afterBind exec allowed post f) s := by
  induction p generalizing s with
  | pure a => exact Iff.rfl
  | throw e => exact Iff.rfl
  | perform op next ih =>
      show (allowed s op ∧ ∀ reply t, exec op s reply t →
        ((next reply) >>= f).wp exec allowed post t) ↔ _
      simp only [ih, wp_perform]

@[simp] theorem wp_map (post : Except ε β → S → Prop) (p : Prog Op Reply ε α) (f : α → β) (s : S) :
    (f <$> p).wp exec allowed post s ↔
      p.wp exec allowed (afterBind exec allowed post fun a => .pure (f a)) s :=
  wp_bind post p (fun a => Prog.pure (f a)) s

/-- What is left to prove after a protected body. -/
def afterTry (exec : (op : Op) → S → Reply op → S → Prop) (allowed : S → Op → Prop)
    (post : Except ε α → S → Prop) (handler : ε → Prog Op Reply ε α) : Except ε α → S → Prop
  | .ok a, t => post (.ok a) t
  | .error e, t => (handler e).wp exec allowed post t

@[simp] theorem afterTry_ok (post : Except ε α → S → Prop) (handler : ε → Prog Op Reply ε α)
    (a : α) (t : S) : afterTry exec allowed post handler (.ok a) t ↔ post (.ok a) t := Iff.rfl

@[simp] theorem afterTry_error (post : Except ε α → S → Prop) (handler : ε → Prog Op Reply ε α)
    (e : ε) (t : S) :
    afterTry exec allowed post handler (.error e) t ↔ (handler e).wp exec allowed post t := Iff.rfl

@[simp] theorem wp_tryCatch (post : Except ε α → S → Prop) (p : Prog Op Reply ε α)
    (handler : ε → Prog Op Reply ε α) (s : S) :
    (p.tryCatch handler).wp exec allowed post s ↔
      p.wp exec allowed (afterTry exec allowed post handler) s := by
  induction p generalizing s with
  | pure a => exact Iff.rfl
  | throw e => exact Iff.rfl
  | perform op next ih =>
      show (allowed s op ∧ ∀ reply t, exec op s reply t →
        ((next reply).tryCatch handler).wp exec allowed post t) ↔ _
      simp only [ih, wp_perform]

/-- What is left to prove after a body with a cleanup. -/
def afterCleanup (exec : (op : Op) → S → Reply op → S → Prop) (allowed : S → Op → Prop)
    (post : Except ε α → S → Prop) (cleanup : Prog Op Reply ε Unit) : Except ε α → S → Prop
  | .ok a, t => post (.ok a) t
  | .error e, t =>
      cleanup.wp exec allowed (fun r u => match r with
        | .ok _ => post (.error e) u
        | .error e' => post (.error e') u) t

@[simp] theorem afterCleanup_ok (post : Except ε α → S → Prop) (cleanup : Prog Op Reply ε Unit)
    (a : α) (t : S) : afterCleanup exec allowed post cleanup (.ok a) t ↔ post (.ok a) t := Iff.rfl

theorem wp_onError (post : Except ε α → S → Prop) (p : Prog Op Reply ε α)
    (cleanup : Prog Op Reply ε Unit) (s : S) :
    (p.onError cleanup).wp exec allowed post s ↔
      p.wp exec allowed (afterCleanup exec allowed post cleanup) s := by
  have hafter : afterTry exec allowed post (fun e => cleanup.bind fun _ => .throw e)
      = afterCleanup exec allowed post cleanup := by
    funext r t
    cases r with
    | ok a => rfl
    | error e =>
        refine propext ((wp_bind post cleanup (fun _ => Prog.throw e) t).trans ?_)
        show cleanup.wp exec allowed (afterBind exec allowed post fun _ => Prog.throw e) t ↔
          cleanup.wp exec allowed _ t
        refine iff_of_eq (congrArg (fun post => cleanup.wp exec allowed post t) ?_)
        funext r u
        cases r <;> rfl
  rw [onError, wp_tryCatch, hafter]

theorem wp_ensuring (post : Except ε α → S → Prop) (p : Prog Op Reply ε α)
    (cleanup : Prog Op Reply ε Unit) (s : S) :
    (p.ensuring cleanup).wp exec allowed post s ↔
      p.wp exec allowed (fun r t => cleanup.wp exec allowed (fun r' u => match r' with
        | .ok _ => post r u
        | .error e => post (.error e) u) t) s := by
  have hafter : afterCleanup exec allowed
      (afterBind exec allowed post fun a => cleanup.bind fun _ => .pure a) cleanup
      = fun r t => cleanup.wp exec allowed (fun r' u => match r' with
        | .ok _ => post r u
        | .error e => post (.error e) u) t := by
    funext r t
    cases r with
    | ok a =>
        refine propext ((wp_bind post cleanup (fun _ => Prog.pure a) t).trans ?_)
        refine iff_of_eq (congrArg (fun post => cleanup.wp exec allowed post t) ?_)
        funext r u
        cases r <;> rfl
    | error e =>
        refine congrArg (fun post => cleanup.wp exec allowed post t) ?_
        funext r u
        cases r <;> rfl
  refine (wp_bind post (p.onError cleanup) (fun a => cleanup.bind fun _ => .pure a) s).trans ?_
  rw [wp_onError, hafter]

theorem wp_throwIf (post : Except ε Unit → S → Prop) (c : Prop) [Decidable c] (e : ε) (s : S) :
    (throwIf c e : Prog Op Reply ε Unit).wp exec allowed post s ↔
      (c → post (.error e) s) ∧ (¬ c → post (.ok ()) s) := by
  by_cases h : c
  · simp only [throwIf, h, if_true, not_true_eq_false, false_implies, and_true, true_implies]
    exact Iff.rfl
  · simp only [throwIf, h, if_false, not_false_eq_true, false_implies, true_and, true_implies]
    exact Iff.rfl

/-- A weaker postcondition and a weaker guard are easier to meet. -/
theorem wp_mono {allowed' : S → Op → Prop} {post post' : Except ε α → S → Prop}
    (hallowed : ∀ s op, allowed s op → allowed' s op) (hpost : ∀ r t, post r t → post' r t)
    {p : Prog Op Reply ε α} {s : S} (h : p.wp exec allowed post s) :
    p.wp exec allowed' post' s := by
  induction p generalizing s with
  | pure a => exact hpost _ _ h
  | throw e => exact hpost _ _ h
  | perform op next ih => exact ⟨hallowed _ _ h.1, fun reply t ht => ih reply (h.2 reply t ht)⟩

theorem wp_post {post post' : Except ε α → S → Prop} (hpost : ∀ r t, post r t → post' r t)
    {p : Prog Op Reply ε α} {s : S} (h : p.wp exec allowed post s) :
    p.wp exec allowed post' s :=
  wp_mono (fun _ _ h => h) hpost h

theorem wp_and {post post' : Except ε α → S → Prop} {p : Prog Op Reply ε α} {s : S}
    (h : p.wp exec allowed post s) (h' : p.wp exec allowed post' s) :
    p.wp exec allowed (fun r t => post r t ∧ post' r t) s := by
  induction p generalizing s with
  | pure a => exact ⟨h, h'⟩
  | throw e => exact ⟨h, h'⟩
  | perform op next ih =>
      exact ⟨h.1, fun reply t ht => ih reply (h.2 reply t ht) (h'.2 reply t ht)⟩

/-- Two guards and two postconditions, established separately. -/
theorem wp_both {allowed' : S → Op → Prop} {post post' : Except ε α → S → Prop}
    {p : Prog Op Reply ε α} {s : S} (h : p.wp exec allowed post s)
    (h' : p.wp exec allowed' post' s) :
    p.wp exec (fun s op => allowed s op ∧ allowed' s op) (fun r t => post r t ∧ post' r t) s := by
  induction p generalizing s with
  | pure a => exact ⟨h, h'⟩
  | throw e => exact ⟨h, h'⟩
  | perform op next ih =>
      exact ⟨⟨h.1, h'.1⟩, fun reply t ht => ih reply (h.2 reply t ht) (h'.2 reply t ht)⟩

/-- What is allowed at each operation may be assumed when a second guard is established. -/
theorem wp_assuming {allowed' : S → Op → Prop} {post post' : Except ε α → S → Prop}
    {p : Prog Op Reply ε α} {s : S} (h : p.wp exec allowed post s)
    (h' : p.wp (fun op s reply t => allowed s op ∧ exec op s reply t) allowed' post' s) :
    p.wp exec (fun s op => allowed s op ∧ allowed' s op) (fun r t => post r t ∧ post' r t) s := by
  induction p generalizing s with
  | pure a => exact ⟨h, h'⟩
  | throw e => exact ⟨h, h'⟩
  | perform op next ih =>
      exact ⟨⟨h.1, h'.1⟩, fun reply t ht => ih reply (h.2 reply t ht) (h'.2 reply t ⟨h.1, ht⟩)⟩

/-- **Simulation.**  A semantics that refines another one, up to a view of its store, has every
guarantee of it. -/
theorem wp_simulation {T : Type} {exec' : (op : Op) → T → Reply op → T → Prop} (view : T → S)
    (hexec : ∀ op s reply t, exec' op s reply t → exec op (view s) reply (view t))
    {post : Except ε α → S → Prop} {p : Prog Op Reply ε α} {s : T}
    (h : p.wp exec allowed post (view s)) :
    p.wp exec' (fun s op => allowed (view s) op) (fun r t => post r (view t)) s := by
  induction p generalizing s with
  | pure a => exact h
  | throw e => exact h
  | perform op next ih =>
      exact ⟨h.1, fun reply t ht => ih reply (h.2 reply (view t) (hexec op s reply t ht))⟩

/-- Where everything is allowed, nothing goes wrong. -/
theorem wp_of_allowed (hallowed : ∀ s op, allowed s op) {p : Prog Op Reply ε α} {s : S} :
    p.wp exec allowed (fun _ _ => True) s := by
  induction p generalizing s with
  | pure a => exact trivial
  | throw e => exact trivial
  | perform op next ih => exact ⟨hallowed s op, fun reply t _ => ih reply⟩

/-- **Frames.**  What every allowed operation does to the store, a whole program does. -/
theorem wp_frame {R : S → S → Prop} (hrefl : ∀ s, R s s)
    (htrans : ∀ {s t u}, R s t → R t u → R s u)
    (hstep : ∀ s op reply t, allowed s op → exec op s reply t → R s t)
    {post : Except ε α → S → Prop} {p : Prog Op Reply ε α} {s : S}
    (h : p.wp exec allowed post s) : p.wp exec allowed (fun r t => post r t ∧ R s t) s := by
  induction p generalizing s with
  | pure a => exact ⟨h, hrefl s⟩
  | throw e => exact ⟨h, hrefl s⟩
  | perform op next ih =>
      refine ⟨h.1, fun reply t ht => ?_⟩
      exact wp_post (fun _ _ hpost => ⟨hpost.1, htrans (hstep s op reply t h.1 ht) hpost.2⟩)
        (ih reply (h.2 reply t ht))

/-- **Invariants.**  If every allowed operation keeps `I`, then `I` holds at every operation of the
program and at its end. -/
theorem wp_invariant {I : S → Prop}
    (hstep : ∀ s op, allowed s op → ∀ reply t, exec op s reply t → I s → I t)
    {post : Except ε α → S → Prop} {p : Prog Op Reply ε α} {s : S}
    (h : p.wp exec allowed post s) (hs : I s) :
    p.wp exec (fun s op => allowed s op ∧ I s) (fun r t => post r t ∧ I t) s := by
  induction p generalizing s with
  | pure a => exact ⟨h, hs⟩
  | throw e => exact ⟨h, hs⟩
  | perform op next ih =>
      exact ⟨⟨h.1, hs⟩, fun reply t ht => ih reply (h.2 reply t ht) (hstep s op h.1 reply t ht hs)⟩

/-- **Soundness.**  What the weakest precondition promises holds of every outcome. -/
theorem wp_sound {post : Except ε α → S → Prop} {p : Prog Op Reply ε α} {s : S}
    (h : p.wp exec allowed post s) {r : Except ε α} {t : S} (heval : p.Eval exec s r t) :
    post r t := by
  induction p generalizing s with
  | pure a => obtain ⟨rfl, rfl⟩ := heval; exact h
  | throw e => obtain ⟨rfl, rfl⟩ := heval; exact h
  | perform op next ih =>
      obtain ⟨reply, u, hexec, hrest⟩ := heval
      exact ih reply (h.2 reply u hexec) hrest

end Rules

/-! ## Footprints -/

/-- Every operation the program performs, whatever it is answered, is one of `A`. -/
def Only (A : Op → Prop) : Prog Op Reply ε α → Prop
  | .pure _ => True
  | .throw _ => True
  | .perform op next => A op ∧ ∀ reply, (next reply).Only A

section Footprints

variable {A B : Op → Prop}

@[simp] theorem only_pure (a : α) : (Pure.pure a : Prog Op Reply ε α).Only A := trivial

@[simp] theorem only_throw (e : ε) :
    (MonadExcept.throw e : Prog Op Reply ε α).Only A := trivial

theorem only_ofExcept (r : Except ε α) : (ofExcept r : Prog Op Reply ε α).Only A := by
  cases r <;> exact trivial

theorem only_call {op : Op} (h : A op) : (call op : Prog Op Reply ε (Reply op)).Only A :=
  ⟨h, fun _ => trivial⟩

/-- An operation whose reply is a result or an exception. -/
theorem only_perform {op : Op} {next : Reply op → Prog Op Reply ε α} (h : A op)
    (hnext : ∀ reply, (next reply).Only A) : (Prog.perform op next).Only A :=
  ⟨h, hnext⟩

theorem only_bind {p : Prog Op Reply ε α} {f : α → Prog Op Reply ε β} (hp : p.Only A)
    (hf : ∀ a, (f a).Only A) : (p >>= f).Only A := by
  induction p with
  | pure a => exact hf a
  | throw e => exact trivial
  | perform op next ih => exact ⟨hp.1, fun reply => ih reply (hp.2 reply)⟩

theorem only_tryCatch {p : Prog Op Reply ε α} {handler : ε → Prog Op Reply ε α} (hp : p.Only A)
    (hhandler : ∀ e, (handler e).Only A) : (p.tryCatch handler).Only A := by
  induction p with
  | pure a => exact trivial
  | throw e => exact hhandler e
  | perform op next ih => exact ⟨hp.1, fun reply => ih reply (hp.2 reply)⟩

theorem Only.mono (h : ∀ op, A op → B op) {p : Prog Op Reply ε α} (hp : p.Only A) : p.Only B := by
  induction p with
  | pure a => exact trivial
  | throw e => exact trivial
  | perform op next ih => exact ⟨h op hp.1, fun reply => ih reply (hp.2 reply)⟩

/-- What every operation of the footprint is allowed, the program is allowed in every run. -/
theorem Only.wp {exec : (op : Op) → S → Reply op → S → Prop} {allowed : S → Op → Prop}
    (h : ∀ s op, A op → allowed s op) {p : Prog Op Reply ε α} (hp : p.Only A) (s : S) :
    p.wp exec allowed (fun _ _ => True) s := by
  induction p generalizing s with
  | pure a => exact trivial
  | throw e => exact trivial
  | perform op next ih => exact ⟨h s op hp.1, fun reply t _ => ih reply (hp.2 reply) t⟩

/-- What every operation of the footprint keeps holds at each operation and at the end. -/
theorem Only.wp_keeps {exec : (op : Op) → S → Reply op → S → Prop} {I : S → Prop}
    (h : ∀ op, A op → ∀ s reply t, exec op s reply t → I s → I t) {p : Prog Op Reply ε α}
    (hp : p.Only A) {s : S} (hs : I s) : p.wp exec (fun s _ => I s) (fun _ t => I t) s := by
  induction p generalizing s with
  | pure a => exact hs
  | throw e => exact hs
  | perform op next ih =>
      exact ⟨hs, fun reply t ht => ih reply (hp.2 reply) (h op hp.1 s reply t ht hs)⟩

/-- After a program within its footprint the rest runs from any store. -/
theorem Only.wp_bind {exec : (op : Op) → S → Reply op → S → Prop} {allowed : S → Op → Prop}
    {post : Except ε β → S → Prop} (h : ∀ s op, A op → allowed s op) {p : Prog Op Reply ε α}
    (hp : p.Only A) {f : α → Prog Op Reply ε β} (hthrow : ∀ e t, post (.error e) t)
    (hf : ∀ a t, (f a).wp exec allowed post t) (s : S) : (p >>= f).wp exec allowed post s := by
  refine (Prog.wp_bind post p f s).mpr (wp_post ?_ (hp.wp h s))
  intro r t _
  cases r with
  | ok a => exact hf a t
  | error e => exact hthrow e t

end Footprints

/-- The interpreter computes an outcome of the relation it is a function for. -/
theorem eval_run {exec : (op : Op) → S → Reply op → S → Prop}
    {step : (op : Op) → S → Reply op × S} (hstep : ∀ op s, exec op s (step op s).1 (step op s).2)
    (p : Prog Op Reply ε α) (s : S) : p.Eval exec s (p.run step s).1 (p.run step s).2 := by
  induction p generalizing s with
  | pure a => exact ⟨rfl, rfl⟩
  | throw e => exact ⟨rfl, rfl⟩
  | perform op next ih => exact ⟨_, _, hstep op s, ih _ _⟩

/-- The operations of a run, each with the store it meets. -/
def trace (step : (op : Op) → S → Reply op × S) : Prog Op Reply ε α → S → List (S × Op)
  | .pure _, _ => []
  | .throw _, _ => []
  | .perform op next, s => (s, op) :: (next (step op s).1).trace step (step op s).2

/-- What is allowed in every run is allowed in the run of an interpreter. -/
theorem wp_trace {exec : (op : Op) → S → Reply op → S → Prop} {allowed : S → Op → Prop}
    {post : Except ε α → S → Prop} {step : (op : Op) → S → Reply op × S}
    (hstep : ∀ op s, exec op s (step op s).1 (step op s).2) {p : Prog Op Reply ε α} {s : S}
    (h : p.wp exec allowed post s) : ∀ e ∈ p.trace step s, allowed e.1 e.2 := by
  induction p generalizing s with
  | pure a => exact List.forall_mem_nil _
  | throw e => exact List.forall_mem_nil _
  | perform op next ih =>
      refine List.forall_mem_cons.mpr ⟨h.1, ?_⟩
      exact ih _ (h.2 _ _ (hstep op s))

end Prog

end Core
