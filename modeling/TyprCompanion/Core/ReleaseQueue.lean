import TyprCompanion.Core.Program

/-!
# Calls that await the release of the one before

The queue of `const previous = queue; queue = new Promise(release => …); await previous; try { … }
finally { release(); }`: a call proceeds once the promise of the call before it is resolved, and
resolves its own when its body ends, however it ends.

* `QueuedCall`, `ReleaseQueue` — the calls with the promises they await, and the promise the next
  one will await.
* `ReleaseQueue.start`, `ReleaseQueue.advance` — a call gets its turn; an operation of it is answered.
* **`ReleaseQueue.Lawful`** — a call has its turn only when those before it ended, and each call that
  ended was released once; kept by every step.
* `Lawful.exclusive`, `Lawful.exists_step` — one call at a time, and the queue never gets stuck.
-/

namespace Core

variable {Op : Type} {Reply : Op → Type} {ε α : Type}

/-- The program returned or threw. -/
def Prog.isDone : Prog Op Reply ε α → Bool
  | .perform _ _ => false
  | _ => true

/-- A call: the promise it awaits, whether it still awaits it, what is left of its body, and how
often its own promise was resolved. -/
structure QueuedCall (Op : Type) (Reply : Op → Type) (ε α : Type) where
  previous : Option Nat
  awaiting : Bool
  left : Prog Op Reply ε α
  releases : Nat

namespace QueuedCall

variable (c : QueuedCall Op Reply ε α)

/-- The body has begun and not ended. -/
def inProgress : Bool := !c.awaiting && !c.left.isDone

/-- The body has ended. -/
def finished : Bool := !c.awaiting && c.left.isDone

/-- The body goes on with the program; the `finally` releases when it has ended. -/
def proceed (p : Prog Op Reply ε α) : QueuedCall Op Reply ε α :=
  { c with awaiting := false, left := p, releases := c.releases + if p.isDone then 1 else 0 }

@[simp] theorem previous_proceed (p : Prog Op Reply ε α) : (c.proceed p).previous = c.previous := rfl

@[simp] theorem awaiting_proceed (p : Prog Op Reply ε α) : (c.proceed p).awaiting = false := rfl

@[simp] theorem finished_proceed (p : Prog Op Reply ε α) : (c.proceed p).finished = p.isDone := rfl

end QueuedCall

/-- The calls in the order they came, and the promise the next one awaits; a promise is named by the
call that resolves it, and `none` is the resolved promise the queue starts with. -/
structure ReleaseQueue (Op : Type) (Reply : Op → Type) (ε α : Type) where
  calls : List (QueuedCall Op Reply ε α)
  tail : Option Nat

namespace ReleaseQueue

/-- No call has come. -/
def empty : ReleaseQueue Op Reply ε α := ⟨[], none⟩

variable (q : ReleaseQueue Op Reply ε α)

/-- A call comes. -/
def append (body : Prog Op Reply ε α) : ReleaseQueue Op Reply ε α :=
  ⟨q.calls ++ [⟨q.tail, true, body, 0⟩], some q.calls.length⟩

/-- The promise is resolved. -/
def resolved : Option Nat → Bool
  | none => true
  | some i => q.calls[i]?.any fun c => 0 < c.releases

/-- `await previous` is over. -/
def start (i : Nat) : Option (ReleaseQueue Op Reply ε α) :=
  match q.calls[i]? with
  | some c =>
      if c.awaiting = true ∧ q.resolved c.previous = true then
        some { q with calls := q.calls.set i (c.proceed c.left) }
      else none
  | none => none

/-- The operation the call waits for is answered. -/
def advance (i : Nat) (answer : (op : Op) → Reply op) : Option (ReleaseQueue Op Reply ε α) :=
  match q.calls[i]? with
  | some c => match c.awaiting, c.left with
      | false, .perform op next =>
          some { q with calls := q.calls.set i (c.proceed (next (answer op))) }
      | _, _ => none
  | none => none

/-- The call before a call. -/
def predecessor : Nat → Option Nat
  | 0 => none
  | i + 1 => some i

/-- **Lawful queues**: every call awaits the one before it, has its turn when all before it ended,
and is released exactly when its body ended, and then once. -/
structure Lawful : Prop where
  tail : q.tail = predecessor q.calls.length
  previous : ∀ (i : Nat) (c : QueuedCall Op Reply ε α), q.calls[i]? = some c → c.previous = predecessor i
  order : ∀ (i j : Nat) (c e : QueuedCall Op Reply ε α), i < j → q.calls[i]? = some c → q.calls[j]? = some e →
    e.awaiting = false → c.finished = true
  released : ∀ (i : Nat) (c : QueuedCall Op Reply ε α), q.calls[i]? = some c →
    c.releases = if c.finished = true then 1 else 0

variable {q} {q' : ReleaseQueue Op Reply ε α} {i : Nat}

/-- What a turn, or an answer, does to a queue. -/
theorem start_cases (h : q.start i = some q') :
    ∃ c, q.calls[i]? = some c ∧ c.awaiting = true ∧ q.resolved c.previous = true ∧
      q' = { q with calls := q.calls.set i (c.proceed c.left) } := by
  rw [start] at h
  split at h
  next c hc =>
    split at h
    next hturn => exact ⟨c, hc, hturn.1, hturn.2, (Option.some.inj h).symm⟩
    next => cases h
  next => cases h

theorem advance_cases {answer : (op : Op) → Reply op} (h : q.advance i answer = some q') :
    ∃ c op next, q.calls[i]? = some c ∧ c.awaiting = false ∧ c.left = .perform op next ∧
      q' = { q with calls := q.calls.set i (c.proceed (next (answer op))) } := by
  rw [advance] at h
  split at h
  next c hc =>
    split at h
    next op next hawaiting hleft =>
      exact ⟨c, op, next, hc, hawaiting, hleft, (Option.some.inj h).symm⟩
    next => cases h
  next => cases h

/-- Nothing happens to calls that have all ended. -/
theorem start_eq_none (h : ∀ c ∈ q.calls, c.finished = true) (i : Nat) : q.start i = none := by
  cases hstep : q.start i with
  | none => rfl
  | some q' =>
      obtain ⟨c, hc, hawaiting, -, -⟩ := start_cases hstep
      have hfinished := h c (List.mem_of_getElem? hc)
      simp [QueuedCall.finished, hawaiting] at hfinished

theorem advance_eq_none (h : ∀ c ∈ q.calls, c.finished = true) (i : Nat)
    (answer : (op : Op) → Reply op) : q.advance i answer = none := by
  cases hstep : q.advance i answer with
  | none => rfl
  | some q' =>
      obtain ⟨c, op, next, hc, -, hleft, -⟩ := advance_cases hstep
      have hfinished := h c (List.mem_of_getElem? hc)
      simp [QueuedCall.finished, hleft, Prog.isDone] at hfinished

theorem length_start (h : q.start i = some q') : q'.calls.length = q.calls.length := by
  obtain ⟨c, -, -, -, rfl⟩ := start_cases h
  exact List.length_set

theorem length_advance {answer : (op : Op) → Reply op} (h : q.advance i answer = some q') :
    q'.calls.length = q.calls.length := by
  obtain ⟨c, op, next, -, -, -, rfl⟩ := advance_cases h
  exact List.length_set

theorem Lawful.empty : Lawful (empty : ReleaseQueue Op Reply ε α) where
  tail := rfl
  previous _ _ h := nomatch h
  order _ _ _ _ _ h := nomatch h
  released _ _ h := nomatch h

theorem getElem?_append_call {body : Prog Op Reply ε α} {j : Nat} {c : QueuedCall Op Reply ε α}
    (h : (q.append body).calls[j]? = some c) :
    q.calls[j]? = some c ∨ (j = q.calls.length ∧ c = ⟨q.tail, true, body, 0⟩) := by
  rw [append, List.getElem?_append] at h
  split at h
  next => exact .inl h
  next hlt =>
    rw [List.getElem?_singleton] at h
    split at h
    next heq => exact .inr ⟨by omega, (Option.some.inj h).symm⟩
    next => cases h

/-- A new call awaits the last one. -/
theorem Lawful.append (h : Lawful q) (body : Prog Op Reply ε α) : Lawful (q.append body) where
  tail := by
    rw [ReleaseQueue.append, List.length_append]
    rfl
  previous j c hc := by
    rcases getElem?_append_call hc with hc | ⟨rfl, rfl⟩
    · exact h.previous j c hc
    · exact h.tail
  order j k c e hjk hc he hawaiting := by
    rcases getElem?_append_call he with he | ⟨-, rfl⟩
    · rcases getElem?_append_call hc with hc | ⟨rfl, -⟩
      · exact h.order j k c e hjk hc he hawaiting
      · have hlt := (List.getElem?_eq_some_iff.mp he).1
        omega
    · cases hawaiting
  released j c hc := by
    rcases getElem?_append_call hc with hc | ⟨-, rfl⟩
    · exact h.released j c hc
    · rfl

/-- The calls before one that goes on have ended, if they had when its turn came. -/
theorem Lawful.proceed (h : Lawful q) {c : QueuedCall Op Reply ε α} (hc : q.calls[i]? = some c)
    (hopen : c.finished = false) (hbefore : ∀ j e, j < i → q.calls[j]? = some e → e.finished = true)
    (p : Prog Op Reply ε α) : Lawful { q with calls := q.calls.set i (c.proceed p) } := by
  have hlt := (List.getElem?_eq_some_iff.mp hc).1
  have hset : ∀ j e, (q.calls.set i (c.proceed p))[j]? = some e →
      (j = i ∧ e = c.proceed p) ∨ (j ≠ i ∧ q.calls[j]? = some e) := by
    intro j e he
    rw [List.getElem?_set] at he
    by_cases heq : i = j
    · rw [if_pos heq, if_pos (heq ▸ hlt)] at he
      exact .inl ⟨heq.symm, (Option.some.inj he).symm⟩
    · rw [if_neg heq] at he
      exact .inr ⟨Ne.symm heq, he⟩
  refine ⟨by rw [List.length_set]; exact h.tail, ?_, ?_, ?_⟩
  · intro j e he
    rcases hset j e he with ⟨rfl, rfl⟩ | ⟨-, he⟩
    · exact h.previous j c hc
    · exact h.previous j e he
  · intro j k e f hjk he hf hawaiting
    rcases hset k f hf with ⟨rfl, rfl⟩ | ⟨-, hf'⟩
    · rcases hset j e he with ⟨rfl, -⟩ | ⟨-, he'⟩
      · omega
      · exact hbefore j e hjk he'
    · rcases hset j e he with ⟨rfl, rfl⟩ | ⟨-, he'⟩
      -- a call behind an open one does not have its turn
      · rw [h.order j k c f hjk hc hf' hawaiting] at hopen
        cases hopen
      · exact h.order j k e f hjk he' hf' hawaiting
  · intro j e he
    rcases hset j e he with ⟨rfl, rfl⟩ | ⟨-, he⟩
    · have hreleases : c.releases = 0 := by
        rw [h.released j c hc, hopen]
        rfl
      rw [QueuedCall.finished_proceed, QueuedCall.proceed, hreleases, Nat.zero_add]
    · exact h.released j e he

/-- The promise of a call is resolved when it has ended. -/
theorem Lawful.resolved_iff (h : Lawful q) {c : QueuedCall Op Reply ε α}
    (hc : q.calls[i]? = some c) : q.resolved (some i) = true ↔ c.finished = true := by
  rw [resolved, hc, Option.any_some, decide_eq_true_iff, h.released i c hc]
  split
  next hfinished => simp [hfinished]
  next hopen => simp [hopen]

/-- Once the promise a call awaits is resolved, every call before it has ended. -/
theorem Lawful.finished_before (h : Lawful q) {c : QueuedCall Op Reply ε α}
    (hc : q.calls[i]? = some c) (hresolved : q.resolved c.previous = true) :
    ∀ j e, j < i → q.calls[j]? = some e → e.finished = true := by
  intro j e hj he
  cases i with
  | zero => omega
  | succ k =>
      rw [h.previous _ c hc] at hresolved
      have hk : k < q.calls.length := by
        have := (List.getElem?_eq_some_iff.mp hc).1
        omega
      have hlast := (h.resolved_iff (List.getElem?_eq_getElem hk)).mp hresolved
      rcases Nat.lt_or_eq_of_le (Nat.le_of_lt_succ hj) with hlt | rfl
      · refine h.order j k e _ hlt he (List.getElem?_eq_getElem hk) ?_
        simp only [QueuedCall.finished, Bool.and_eq_true, Bool.not_eq_true'] at hlast
        exact hlast.1
      · rw [List.getElem?_eq_getElem hk] at he
        exact Option.some.inj he ▸ hlast

theorem Lawful.start (h : Lawful q) (hstep : q.start i = some q') : Lawful q' := by
  obtain ⟨c, hc, hawaiting, hresolved, rfl⟩ := start_cases hstep
  exact h.proceed hc (by simp [QueuedCall.finished, hawaiting]) (h.finished_before hc hresolved) _

theorem Lawful.advance (h : Lawful q) {answer : (op : Op) → Reply op}
    (hstep : q.advance i answer = some q') : Lawful q' := by
  obtain ⟨c, op, next, hc, hawaiting, hleft, rfl⟩ := advance_cases hstep
  refine h.proceed hc (by simp [QueuedCall.finished, hleft, Prog.isDone]) ?_ _
  exact fun j e hj he => h.order j i e c hj he hc hawaiting

/-- **One call at a time.** -/
theorem Lawful.exclusive (h : Lawful q) {j : Nat} {c e : QueuedCall Op Reply ε α}
    (hc : q.calls[i]? = some c) (he : q.calls[j]? = some e) (hcp : c.inProgress = true)
    (hep : e.inProgress = true) : i = j := by
  simp only [QueuedCall.inProgress, Bool.and_eq_true, Bool.not_eq_true'] at hcp hep
  rcases Nat.lt_trichotomy i j with hlt | heq | hgt
  · have hfinished := h.order i j c e hlt hc he hep.1
    simp [QueuedCall.finished, hcp.2] at hfinished
  · exact heq
  · have hfinished := h.order j i e c hgt he hc hcp.1
    simp [QueuedCall.finished, hep.2] at hfinished

/-- **The queue never gets stuck**: while a call has not ended, some call can go on. -/
theorem Lawful.exists_step (h : Lawful q) {c : QueuedCall Op Reply ε α}
    (hc : q.calls[i]? = some c) (hopen : c.finished = false) :
    ∃ j, (q.start j).isSome = true ∨ ∀ answer, (q.advance j answer).isSome = true := by
  -- the first call that has not ended goes on
  induction i using Nat.strongRecOn generalizing c with
  | ind i ih =>
      by_cases hbefore : ∃ j e, j < i ∧ q.calls[j]? = some e ∧ e.finished = false
      · obtain ⟨j, e, hj, he, hopen'⟩ := hbefore
        exact ih j hj he hopen'
      · refine ⟨i, ?_⟩
        cases hawaiting : c.awaiting with
        | true =>
            have hresolved : q.resolved c.previous = true := by
              rw [h.previous i c hc]
              cases i with
              | zero => rfl
              | succ k =>
                  have hk : k < q.calls.length := by
                    have := (List.getElem?_eq_some_iff.mp hc).1
                    omega
                  refine (h.resolved_iff (List.getElem?_eq_getElem hk)).mpr ?_
                  by_contra hfinished
                  exact hbefore ⟨k, _, Nat.lt_succ_self k, List.getElem?_eq_getElem hk,
                    Bool.eq_false_iff.mpr hfinished⟩
            left
            rw [ReleaseQueue.start, hc]
            simp [hawaiting, hresolved]
        | false =>
            right
            intro answer
            rw [ReleaseQueue.advance, hc]
            cases hleft : c.left with
            | pure a => simp [QueuedCall.finished, hawaiting, hleft, Prog.isDone] at hopen
            | throw e => simp [QueuedCall.finished, hawaiting, hleft, Prog.isDone] at hopen
            | perform op next => simp [hawaiting, hleft]

end ReleaseQueue

end Core
