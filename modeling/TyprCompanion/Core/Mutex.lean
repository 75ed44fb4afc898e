import TyprCompanion.Core.Program

/-!
# Programs behind a first-in first-out lock

Calls arrive at any time and queue for one lock.  The head of the queue holds it and performs its
operations one at a time; the others wait; between any two operations new calls may arrive.

* `Mutex.Step` — one step of that system: an arrival, an operation of the holder, a release.
* **`Mutex.Reachable.serial`** — whatever the interleaving, the settled calls are those of running
  the calls one after another in the order they queued.
* `Mutex.Serial.reachable` — and every serial run is one interleaving.
* `Mutex.Reachable.invariant` — a property of the store that every operation of every call keeps
  holds in every reachable state, also in the middle of a call.
* `Mutex.Reachable.guarded` — every change of the store is a guarded operation of some call.
-/

namespace Core

/-- The store, the queue for the lock with what is left of each call, and the settled calls. -/
structure Mutex (Call Op : Type) (Reply : Op → Type) (ε α S : Type) where
  store : S
  queue : List (Call × Prog Op Reply ε α)
  settled : List (Call × Except ε α)

namespace Mutex

variable {Call Op : Type} {Reply : Op → Type} {ε α S : Type}
variable (exec : (op : Op) → S → Reply op → S → Prop) (body : Call → Prog Op Reply ε α)

/-- No call has arrived yet. -/
def idle (s : S) : Mutex Call Op Reply ε α S := ⟨s, [], []⟩

/-- One step of the system. -/
inductive Step : Mutex Call Op Reply ε α S → Mutex Call Op Reply ε α S → Prop
  /-- A call arrives and queues behind the others. -/
  | invoke (m) (c : Call) : Step m { m with queue := m.queue ++ [(c, body c)] }
  /-- The holder of the lock performs its next operation. -/
  | advance {m} {c : Call} {op : Op} {next : Reply op → Prog Op Reply ε α}
      {rest : List (Call × Prog Op Reply ε α)} {reply : Reply op} {t : S}
      (hold : m.queue = (c, .perform op next) :: rest) (hexec : exec op m.store reply t) :
      Step m { m with store := t, queue := (c, next reply) :: rest }
  /-- The holder returns and releases the lock. -/
  | finish {m} {c : Call} {a : α} {rest : List (Call × Prog Op Reply ε α)}
      (hold : m.queue = (c, .pure a) :: rest) :
      Step m { m with queue := rest, settled := m.settled ++ [(c, .ok a)] }
  /-- The holder throws and releases the lock. -/
  | fail {m} {c : Call} {e : ε} {rest : List (Call × Prog Op Reply ε α)}
      (hold : m.queue = (c, .throw e) :: rest) :
      Step m { m with queue := rest, settled := m.settled ++ [(c, .error e)] }

/-- The states an idle system can get to. -/
inductive Reachable (s : S) : Mutex Call Op Reply ε α S → Prop
  | idle : Reachable s (idle s)
  | step {m m' : Mutex Call Op Reply ε α S} :
      Reachable s m → Step exec body m m' → Reachable s m'

/-- **Running calls one at a time.**  `Serial s log t`: from `s`, the calls of `log` executed in
this order, each alone, have the logged outcomes and leave `t`. -/
def Serial : S → List (Call × Except ε α) → S → Prop
  | s, [], t => t = s
  | s, (c, r) :: log, t => ∃ u, (body c).Eval exec s r u ∧ Serial u log t

variable {exec body}

theorem Serial.append {s t u : S} {log : List (Call × Except ε α)} {c : Call} {r : Except ε α}
    (h : Serial exec body s log t) (hcall : (body c).Eval exec t r u) :
    Serial exec body s (log ++ [(c, r)]) u := by
  induction log generalizing s with
  | nil =>
      obtain rfl : t = s := h
      exact ⟨u, hcall, rfl⟩
  | cons entry log ih =>
      obtain ⟨v, hv, hrest⟩ := h
      exact ⟨v, hv, ih hrest⟩

/-- Executing calls one at a time against an abstract state: the outcomes in order, and the state
they leave. -/
def sequential {A O : Type} (spec : Call → A → O × A) : A → List Call → List O × A
  | a, [] => ([], a)
  | a, c :: calls =>
      let (o, a') := spec c a
      let (os, a'') := sequential spec a' calls
      (o :: os, a'')

/-- **Refinement of a serial run.**  If every call, run alone from a store with `I`, has the
outcome and the effect the abstract operation gives it, then so has every serial run. -/
theorem Serial.refines {A O : Type} (I : S → Prop) (abs : S → A) (out : Call → Except ε α → O)
    (spec : Call → A → O × A)
    (hcall : ∀ c s r u, I s → (body c).Eval exec s r u →
      I u ∧ spec c (abs s) = (out c r, abs u))
    {s t : S} {log : List (Call × Except ε α)} (hs : I s) (h : Serial exec body s log t) :
    I t ∧ sequential spec (abs s) (log.map Prod.fst)
      = (log.map fun entry => out entry.1 entry.2, abs t) := by
  induction log generalizing s with
  | nil =>
      obtain rfl : t = s := h
      exact ⟨hs, rfl⟩
  | cons entry log ih =>
      obtain ⟨c, r⟩ := entry
      obtain ⟨u, hu, hrest⟩ := h
      obtain ⟨hIu, hspec⟩ := hcall c s r u hs hu
      obtain ⟨hIt, hseq⟩ := ih hIu hrest
      refine ⟨hIt, ?_⟩
      simp only [List.map_cons, sequential, hspec, hseq]

/-- What the queue looks like when the settled calls left the store `t`: the holder is somewhere
inside its call started in `t`, the others have not begun. -/
def InProgress (exec : (op : Op) → S → Reply op → S → Prop) (body : Call → Prog Op Reply ε α)
    (t : S) (m : Mutex Call Op Reply ε α S) : Prop :=
  match m.queue with
  | [] => m.store = t
  | (c, p) :: rest =>
      (∀ r u, p.Eval exec m.store r u → (body c).Eval exec t r u) ∧
        ∀ entry ∈ rest, entry.2 = body entry.1

/-- When the holder releases, the next call starts in the store it left. -/
theorem inProgress_next {t : S} {m : Mutex Call Op Reply ε α S}
    {rest : List (Call × Prog Op Reply ε α)} {log : List (Call × Except ε α)}
    (hrest : ∀ entry ∈ rest, entry.2 = body entry.1) (hstore : m.store = t) :
    InProgress exec body t { m with queue := rest, settled := log } := by
  cases rest with
  | nil => exact hstore
  | cons head rest =>
      obtain ⟨c, p⟩ := head
      have hp : p = body c := hrest _ (List.mem_cons_self ..)
      refine ⟨fun r u heval => ?_, fun entry hentry => hrest _ (List.mem_cons_of_mem _ hentry)⟩
      rw [hp] at heval
      exact hstore ▸ heval

/-- **Serial equivalence.**  In every reachable state the settled calls are a serial run from the
initial store, in the order the calls queued, and the holder continues that run. -/
theorem Reachable.serial {s : S} {m : Mutex Call Op Reply ε α S}
    (h : Reachable exec body s m) :
    ∃ t, Serial exec body s m.settled t ∧ InProgress exec body t m := by
  induction h with
  | idle => exact ⟨s, rfl, rfl⟩
  | @step m m' _ hstep ih =>
      obtain ⟨t, hserial, hprog⟩ := ih
      cases hstep with
      | invoke c =>
          refine ⟨t, hserial, ?_⟩
          unfold InProgress at hprog ⊢
          cases hq : m.queue with
          | nil =>
              simp only [hq] at hprog
              refine ⟨fun r u heval => hprog ▸ heval, fun entry hentry => ?_⟩
              simp at hentry
          | cons head rest =>
              simp only [hq] at hprog
              refine ⟨hprog.1, fun entry hentry => ?_⟩
              rcases List.mem_append.mp hentry with hentry | hentry
              · exact hprog.2 entry hentry
              · rw [List.mem_singleton.mp hentry]
      | advance hold hexec =>
          refine ⟨t, hserial, ?_⟩
          unfold InProgress at hprog ⊢
          simp only [hold] at hprog
          exact ⟨fun r u heval => hprog.1 r u ⟨_, _, hexec, heval⟩, hprog.2⟩
      | finish hold =>
          unfold InProgress at hprog
          simp only [hold] at hprog
          exact ⟨m.store, hserial.append (hprog.1 _ _ ⟨rfl, rfl⟩), inProgress_next hprog.2 rfl⟩
      | fail hold =>
          unfold InProgress at hprog
          simp only [hold] at hprog
          exact ⟨m.store, hserial.append (hprog.1 _ _ ⟨rfl, rfl⟩), inProgress_next hprog.2 rfl⟩

/-- Once every call has settled, the store is the one the serial run leaves. -/
theorem Reachable.serial_of_settled {s : S} {m : Mutex Call Op Reply ε α S}
    (h : Reachable exec body s m) (hidle : m.queue = []) :
    Serial exec body s m.settled m.store := by
  obtain ⟨t, hserial, hprog⟩ := h.serial
  simp only [InProgress, hidle] at hprog
  exact hprog ▸ hserial

/-- The lock's holder, when nobody waits behind it, can run its call to the end. -/
theorem Reachable.settle {s t u : S} {c : Call} {p : Prog Op Reply ε α} {r : Except ε α}
    {log : List (Call × Except ε α)} (h : Reachable exec body s ⟨t, [(c, p)], log⟩)
    (heval : p.Eval exec t r u) : Reachable exec body s ⟨u, [], log ++ [(c, r)]⟩ := by
  induction p generalizing t with
  | pure a =>
      obtain ⟨rfl, rfl⟩ := heval
      exact .step h (.finish rfl)
  | throw e =>
      obtain ⟨rfl, rfl⟩ := heval
      exact .step h (.fail rfl)
  | perform op next ih =>
      obtain ⟨reply, v, hexec, hrest⟩ := heval
      exact ih reply (.step h (.advance rfl hexec)) hrest

/-- Every serial run is a run of the system. -/
theorem Serial.reachable {s t : S} {log : List (Call × Except ε α)}
    (h : Serial exec body s log t) : Reachable exec body s ⟨t, [], log⟩ := by
  suffices hrun : ∀ (rest : List (Call × Except ε α)) (before : List (Call × Except ε α)) (v : S),
      Reachable exec body s ⟨v, [], before⟩ → Serial exec body v rest t →
        Reachable exec body s ⟨t, [], before ++ rest⟩ from hrun log [] s .idle h
  intro rest
  induction rest with
  | nil =>
      rintro before v hreach hserial
      obtain rfl : t = v := hserial
      simpa using hreach
  | cons entry rest ih =>
      rintro before v hreach ⟨u, heval, hserial⟩
      obtain ⟨c, r⟩ := entry
      have hcall := Reachable.settle (.step hreach (.invoke _ c)) heval
      simpa using ih (before ++ [(c, r)]) u hcall hserial

/-- **The holder keeps its guarantee.**  If every call, started in a store with `I`, performs guarded
operations only and leaves `I`, and the guard includes `I`, then in every reachable state the store
has `I`, what is left of the holder's call is guarded, and the others have not begun. -/
theorem Reachable.holder {I : S → Prop} {guard : S → Op → Prop} (hguard : ∀ s op, guard s op → I s)
    (hbody : ∀ c s, I s → (body c).wp exec guard (fun _ t => I t) s)
    {s : S} (hs : I s) {m : Mutex Call Op Reply ε α S} (h : Reachable exec body s m) :
    I m.store ∧ ∀ c p rest, m.queue = (c, p) :: rest →
      p.wp exec guard (fun _ t => I t) m.store ∧ ∀ entry ∈ rest, entry.2 = body entry.1 := by
  have hnext : ∀ (t : S) (rest : List (Call × Prog Op Reply ε α)), I t →
      (∀ entry ∈ rest, entry.2 = body entry.1) → ∀ c p rest', rest = (c, p) :: rest' →
        p.wp exec guard (fun _ t => I t) t ∧ ∀ entry ∈ rest', entry.2 = body entry.1 := by
    intro t rest ht hrest c p rest' heq
    subst heq
    have hp : p = body c := hrest _ (List.mem_cons_self ..)
    exact ⟨hp ▸ hbody c t ht, fun entry hentry => hrest _ (List.mem_cons_of_mem _ hentry)⟩
  induction h with
  | idle => exact ⟨hs, fun c p rest hq => by simp [Mutex.idle] at hq⟩
  | @step m m' _ hstep ih =>
      obtain ⟨hI, hqueue⟩ := ih
      cases hstep with
      | invoke c =>
          refine ⟨hI, fun c' p rest hq => ?_⟩
          cases hq' : m.queue with
          | nil =>
              simp only [hq', List.nil_append, List.cons.injEq, Prod.mk.injEq] at hq
              obtain ⟨⟨rfl, rfl⟩, rfl⟩ := hq
              exact ⟨hbody c m.store hI, by simp⟩
          | cons head tail =>
              simp only [hq', List.cons_append, List.cons.injEq] at hq
              obtain ⟨rfl, rfl⟩ := hq
              obtain ⟨hwp, htail⟩ := hqueue _ _ _ hq'
              refine ⟨hwp, fun entry hentry => ?_⟩
              rcases List.mem_append.mp hentry with hentry | hentry
              · exact htail entry hentry
              · rw [List.mem_singleton.mp hentry]
      | @advance c op next rest reply t hold hexec =>
          obtain ⟨hwp, hrest⟩ := hqueue _ _ _ hold
          have hnextwp := hwp.2 reply t hexec
          refine ⟨?_, fun c' p rest' hq => ?_⟩
          · show I t
            revert hnextwp
            cases next reply with
            | pure a => exact id
            | throw e => exact id
            | perform op' next' => exact fun h => hguard _ _ h.1
          · simp only [List.cons.injEq, Prod.mk.injEq] at hq
            obtain ⟨⟨rfl, rfl⟩, rfl⟩ := hq
            exact ⟨hnextwp, hrest⟩
      | finish hold =>
          obtain ⟨-, hrest⟩ := hqueue _ _ _ hold
          exact ⟨hI, hnext _ _ hI hrest⟩
      | fail hold =>
          obtain ⟨-, hrest⟩ := hqueue _ _ _ hold
          exact ⟨hI, hnext _ _ hI hrest⟩

/-- **Invariants under any interleaving.**  If every call keeps `I` at each of its operations when
started in a store with `I`, then `I` holds of the store in every reachable state. -/
theorem Reachable.invariant {I : S → Prop}
    (hbody : ∀ c s, I s → (body c).wp exec (fun s _ => I s) (fun _ t => I t) s)
    {s : S} (hs : I s) {m : Mutex Call Op Reply ε α S} (h : Reachable exec body s m) :
    I m.store :=
  have hguard : ∀ s (op : Op), (fun s (_ : Op) => I s) s op → I s := fun _ _ h => h
  (h.holder hguard hbody hs).1

/-- **One step of the system** leaves the store alone or is a guarded operation. -/
theorem Reachable.guarded {I : S → Prop} {guard : S → Op → Prop} (hguard : ∀ s op, guard s op → I s)
    (hbody : ∀ c s, I s → (body c).wp exec guard (fun _ t => I t) s)
    {s : S} (hs : I s) {m m' : Mutex Call Op Reply ε α S} (h : Reachable exec body s m)
    (hstep : Step exec body m m') :
    m'.store = m.store ∨ ∃ op reply, guard m.store op ∧ exec op m.store reply m'.store := by
  cases hstep with
  | invoke c => exact .inl rfl
  | advance hold hexec =>
      exact .inr ⟨_, _, ((h.holder hguard hbody hs).2 _ _ _ hold).1.1, hexec⟩
  | finish hold => exact .inl rfl
  | fail hold => exact .inl rfl

end Mutex

end Core
