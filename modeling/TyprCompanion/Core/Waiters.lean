import Mathlib.Data.List.Nodup
import Mathlib.Tactic.Common

/-!
# Waiters for an answer

A promise that waits for an answer: it stands in a set with an armed timer until something resolves or
rejects it.  Sets keep the order of insertion, so the first waiter of a kind is the oldest.

* `Waiters` — the waiters made, the set, the armed timers, and the calls of `resolve` and `reject`.
* `add`, `clearTimeout`, `delete`, `settle` — the steps everything else is made of.
* `answerOldest`, `answerAll`, `expire`, `failAll` — an answer, a broadcast, a timer, a failure.
* **`Waiters.Kept`** — a waiter is in the set exactly while it is unsettled and its timer armed, and
  none is settled twice; kept by every operation.
* `queue` — the waiters of a kind, the oldest first; an answer takes the first of them.
-/

namespace Core

/-- Waiters for something of type `O`, each made for a `W`; a waiter is named by its number. -/
structure Waiters (W O : Type) where
  made : List W
  waiting : List (Nat × W)
  armed : List Nat
  settled : List (Nat × O)

namespace Waiters

variable {W O : Type}

/-- Nothing waits yet. -/
def empty : Waiters W O := ⟨[], [], [], []⟩

/-- A waiter is made: its timer is armed, and it is put into the set. -/
def add (w : W) (ws : Waiters W O) : Waiters W O :=
  { ws with
    made := ws.made ++ [w]
    waiting := ws.waiting ++ [(ws.made.length, w)]
    armed := ws.armed ++ [ws.made.length] }

/-- `clearTimeout(waiter.timeout)` -/
def clearTimeout (id : Nat) (ws : Waiters W O) : Waiters W O :=
  { ws with armed := ws.armed.filter (· ≠ id) }

/-- `set.delete(waiter)` -/
def delete (id : Nat) (ws : Waiters W O) : Waiters W O :=
  { ws with waiting := ws.waiting.filter (·.1 ≠ id) }

/-- `waiter.resolve(…)`, or `waiter.reject(…)` -/
def settle (id : Nat) (o : O) (ws : Waiters W O) : Waiters W O :=
  { ws with settled := ws.settled ++ [(id, o)] }

/-- A waiter gets its answer. -/
def answer (id : Nat) (o : O) (ws : Waiters W O) : Waiters W O :=
  ((ws.clearTimeout id).delete id).settle id o

/-- The first waiter of a kind in the order of the set. -/
def oldest? (p : W → Bool) (ws : Waiters W O) : Option (Nat × W) :=
  ws.waiting.find? fun waiter => p waiter.2

/-- The first waiter of a kind gets an answer, when there is one. -/
def answerOldest (p : W → Bool) (result : W → O) (ws : Waiters W O) : Waiters W O :=
  match ws.oldest? p with
  | some waiter => ws.answer waiter.1 (result waiter.2)
  | none => ws

/-- Every waiter of a kind gets the answer. -/
def answerAll (p : W → Bool) (o : O) (ws : Waiters W O) : Waiters W O :=
  (ws.waiting.filter fun waiter => p waiter.2).foldl (fun ws waiter => ws.answer waiter.1 o) ws

/-- The timer of a waiter fires; it is not armed any more, and the waiter is rejected. -/
def expire (id : Nat) (o : O) (ws : Waiters W O) : Option (Waiters W O) :=
  if id ∈ ws.armed then
    some (({ ws with armed := ws.armed.filter (· ≠ id) }.delete id).settle id o)
  else none

/-- Every waiter is rejected, and the set is cleared. -/
def failAll (o : O) (ws : Waiters W O) : Waiters W O :=
  { ws.waiting.foldl (fun ws waiter => (ws.clearTimeout waiter.1).settle waiter.1 o) ws with
    waiting := [] }

/-- The waiter is in the set. -/
def Waits (ws : Waiters W O) (id : Nat) : Prop := id ∈ ws.waiting.map Prod.fst

/-- The promise of the waiter is resolved or rejected. -/
def Settled (ws : Waiters W O) (id : Nat) : Prop := id ∈ ws.settled.map Prod.fst

/-- The waiters of a kind, the oldest first. -/
def queue (p : W → Bool) (ws : Waiters W O) : List Nat :=
  (ws.waiting.filter fun waiter => p waiter.2).map Prod.fst

/-- The oldest waiter of a kind. -/
structure Oldest (ws : Waiters W O) (p : W → Bool) (waiter : Nat × W) : Prop where
  mem : waiter ∈ ws.waiting
  kind : p waiter.2 = true
  least : ∀ other ∈ ws.waiting, p other.2 = true → waiter.1 ≤ other.1

/-- **Bookkeeping**: a waiter is in the set exactly while it is unsettled, and exactly while its timer is
armed; none is settled twice, and the set is in the order the waiters were made. -/
structure Kept (ws : Waiters W O) : Prop where
  waits_iff_not_settled : ∀ id < ws.made.length, (ws.Waits id ↔ ¬ws.Settled id)
  waits_iff_armed : ∀ id, ws.Waits id ↔ id ∈ ws.armed
  once : (ws.settled.map Prod.fst).Nodup
  made_of_waiting : ∀ waiter ∈ ws.waiting, ws.made[waiter.1]? = some waiter.2
  made_of_settled : ∀ id, ws.Settled id → id < ws.made.length
  ordered : ws.waiting.Pairwise (·.1 < ·.1)

/-! ## The operations -/

variable {ws : Waiters W O} {id : Nat} {o : O} {p : W → Bool}

theorem waits_add (w : W) (other : Nat) :
    (ws.add w).Waits other ↔ ws.Waits other ∨ other = ws.made.length := by
  simp [Waits, add]

theorem waits_answer (other : Nat) : (ws.answer id o).Waits other ↔ ws.Waits other ∧ other ≠ id := by
  simp only [Waits, answer, clearTimeout, delete, settle, List.mem_map, List.mem_filter,
    decide_eq_true_eq]
  constructor
  · rintro ⟨waiter, ⟨hmem, hne⟩, rfl⟩
    exact ⟨⟨waiter, hmem, rfl⟩, hne⟩
  · rintro ⟨⟨waiter, hmem, rfl⟩, hne⟩
    exact ⟨waiter, ⟨hmem, hne⟩, rfl⟩

theorem settled_answer (other : Nat) :
    (ws.answer id o).Settled other ↔ ws.Settled other ∨ other = id := by
  simp [Settled, answer, clearTimeout, delete, settle]

theorem made_add (w : W) (ws : Waiters W O) : (ws.add w).made[ws.made.length]? = some w := by
  simp [add]

theorem made_add_of_eq_some {w w' : W} (h : ws.made[id]? = some w') :
    (ws.add w).made[id]? = some w' :=
  (List.getElem?_append_left (List.getElem?_eq_some_iff.mp h).1).trans h

theorem waiting_answer_of_nil (h : ws.waiting = []) : (ws.answer id o).waiting = [] := by
  rw [answer, clearTimeout, delete, settle, h, List.filter_nil]

@[simp] theorem made_answer : (ws.answer id o).made = ws.made := rfl

theorem made_answerOldest (result : W → O) : (ws.answerOldest p result).made = ws.made := by
  unfold answerOldest
  split <;> rfl

theorem settled_subset_answerOldest (result : W → O) :
    ws.settled ⊆ (ws.answerOldest p result).settled := by
  unfold answerOldest
  split
  · exact List.subset_append_left _ _
  · exact List.Subset.refl _

theorem made_foldl_answer (l : List (Nat × W)) (ws : Waiters W O) :
    (l.foldl (fun ws waiter => ws.answer waiter.1 o) ws).made = ws.made := by
  induction l generalizing ws with
  | nil => rfl
  | cons waiter rest ih => exact ih _

theorem made_answerAll : (ws.answerAll p o).made = ws.made := made_foldl_answer _ _

/-- A timer that fires leaves what an answer leaves. -/
theorem expire_eq_some {t : Waiters W O} :
    ws.expire id o = some t ↔ id ∈ ws.armed ∧ t = ws.answer id o := by
  simp only [expire, Option.ite_none_right_eq_some, Option.some.injEq]
  exact and_congr_right fun _ => eq_comm

theorem foldl_fail (l : List (Nat × W)) (ws : Waiters W O) :
    l.foldl (fun ws waiter => (ws.clearTimeout waiter.1).settle waiter.1 o) ws
      = { ws with
          armed := ws.armed.filter fun id => id ∉ l.map Prod.fst
          settled := ws.settled ++ l.map fun waiter => (waiter.1, o) } := by
  induction l generalizing ws with
  | nil => simp
  | cons waiter rest ih =>
      rw [List.foldl_cons, ih]
      have harmed : ((ws.armed.filter (· ≠ waiter.1)).filter fun id => id ∉ rest.map Prod.fst)
          = ws.armed.filter fun id => id ∉ (waiter :: rest).map Prod.fst := by
        rw [List.filter_filter]
        refine List.filter_congr fun id _ => ?_
        simp only [List.map_cons, List.mem_cons, not_or, ne_eq, Bool.decide_and, Bool.and_comm]
      simp only [clearTimeout, settle, harmed, List.append_assoc, List.map_cons, List.singleton_append]

theorem failAll_eq (o : O) (ws : Waiters W O) :
    ws.failAll o = { ws with
      waiting := []
      armed := ws.armed.filter fun id => id ∉ ws.waiting.map Prod.fst
      settled := ws.settled ++ ws.waiting.map fun waiter => (waiter.1, o) } := by
  rw [failAll, foldl_fail]

theorem settled_failAll (other : Nat) :
    (ws.failAll o).Settled other ↔ ws.Settled other ∨ ws.Waits other := by
  simp [failAll_eq, Settled, Waits]

theorem settled_subset_failAll : ws.settled ⊆ (ws.failAll o).settled := by
  rw [failAll_eq]
  exact List.subset_append_left _ _

theorem mem_settled_failAll {w : W} (h : (id, w) ∈ ws.waiting) : (id, o) ∈ (ws.failAll o).settled := by
  rw [failAll_eq]
  exact List.mem_append_right _ (List.mem_map.mpr ⟨_, h, rfl⟩)

@[simp] theorem waiting_failAll : (ws.failAll o).waiting = [] := rfl

@[simp] theorem made_failAll : (ws.failAll o).made = ws.made := by rw [failAll_eq]

/-! ## Bookkeeping -/

namespace Kept

theorem empty : Kept (Waiters.empty : Waiters W O) where
  waits_iff_not_settled := nofun
  waits_iff_armed := by simp [Waits, Waiters.empty]
  once := List.nodup_nil
  made_of_waiting := nofun
  made_of_settled := nofun
  ordered := .nil

theorem lt_of_waits (h : ws.Kept) (hwaits : ws.Waits id) : id < ws.made.length := by
  obtain ⟨waiter, hmem, rfl⟩ := List.mem_map.mp hwaits
  exact (List.getElem?_eq_some_iff.mp (h.made_of_waiting waiter hmem)).1

theorem not_settled_of_waits (h : ws.Kept) (hwaits : ws.Waits id) : ¬ws.Settled id :=
  (h.waits_iff_not_settled id (h.lt_of_waits hwaits)).mp hwaits

theorem add (h : ws.Kept) (w : W) : (ws.add w).Kept where
  waits_iff_not_settled := by
    intro id hlt
    have hlt' : id < ws.made.length ∨ id = ws.made.length := by
      simp only [Waiters.add, List.length_append, List.length_singleton] at hlt
      omega
    rw [waits_add]
    rcases hlt' with hlt | rfl
    · simp only [Nat.ne_of_lt hlt, or_false]
      exact h.waits_iff_not_settled id hlt
    · simp only [or_true, true_iff]
      intro hsettled
      exact absurd (h.made_of_settled _ hsettled) (Nat.lt_irrefl _)
  waits_iff_armed := by
    intro id
    rw [waits_add, h.waits_iff_armed]
    simp [Waiters.add]
  once := h.once
  made_of_waiting := by
    intro waiter hmem
    rcases List.mem_append.mp hmem with hmem | hmem
    · exact made_add_of_eq_some (h.made_of_waiting waiter hmem)
    · obtain rfl := List.mem_singleton.mp hmem
      exact made_add w ws
  made_of_settled := by
    intro id hsettled
    have hlt := h.made_of_settled id hsettled
    simp only [Waiters.add, List.length_append]
    omega
  ordered := by
    refine List.pairwise_append.mpr ⟨h.ordered, List.pairwise_singleton _ _, ?_⟩
    intro waiter hmem other hother
    obtain rfl := List.mem_singleton.mp hother
    exact h.lt_of_waits (List.mem_map_of_mem hmem)

theorem answer (h : ws.Kept) (hwaits : ws.Waits id) (o : O) : (ws.answer id o).Kept where
  waits_iff_not_settled := by
    intro other hlt
    rw [waits_answer, settled_answer, h.waits_iff_not_settled other hlt, not_or]
  waits_iff_armed := by
    intro other
    rw [waits_answer, h.waits_iff_armed]
    simp [Waiters.answer, clearTimeout, delete, settle]
  once := by
    have hnodup := h.once.concat (h.not_settled_of_waits hwaits)
    rw [List.concat_eq_append] at hnodup
    rwa [Waiters.answer, clearTimeout, delete, settle, List.map_append]
  made_of_waiting := by
    intro waiter hmem
    exact h.made_of_waiting waiter (List.mem_filter.mp hmem).1
  made_of_settled := by
    intro other hsettled
    rcases (settled_answer other).mp hsettled with hsettled | rfl
    · exact h.made_of_settled other hsettled
    · exact h.lt_of_waits hwaits
  ordered := h.ordered.filter _

theorem expire (h : ws.Kept) {t : Waiters W O} (ht : ws.expire id o = some t) : t.Kept := by
  obtain ⟨harmed, rfl⟩ := expire_eq_some.mp ht
  exact h.answer ((h.waits_iff_armed id).mpr harmed) o

/-- The timer of a waiter in the set can fire. -/
theorem isSome_expire (h : ws.Kept) (hwaits : ws.Waits id) (o : O) : (ws.expire id o).isSome = true := by
  rw [Waiters.expire, if_pos ((h.waits_iff_armed id).mp hwaits)]
  rfl

theorem nodup (h : ws.Kept) : (ws.waiting.map Prod.fst).Nodup :=
  (List.pairwise_map.mpr h.ordered).imp fun hlt => Nat.ne_of_lt hlt

theorem answerOldest (h : ws.Kept) (p : W → Bool) (result : W → O) :
    (ws.answerOldest p result).Kept := by
  unfold Waiters.answerOldest
  split
  · next waiter hfind =>
      exact h.answer (List.mem_map_of_mem (List.mem_of_find?_eq_some hfind)) _
  · exact h

/-- Waiters of the set get the answer one after the other. -/
theorem foldl_answer (h : ws.Kept) {l : List (Nat × W)} (hnodup : (l.map Prod.fst).Nodup)
    (hwaits : ∀ waiter ∈ l, ws.Waits waiter.1) (o : O) :
    (l.foldl (fun ws waiter => ws.answer waiter.1 o) ws).Kept := by
  induction l generalizing ws with
  | nil => exact h
  | cons waiter rest ih =>
      obtain ⟨hnotMem, hrest⟩ := List.nodup_cons.mp hnodup
      refine ih (h.answer (hwaits _ (List.mem_cons_self ..)) o) hrest ?_
      intro other hmem
      refine (waits_answer other.1).mpr ⟨hwaits _ (List.mem_cons_of_mem _ hmem), ?_⟩
      rintro heq
      exact hnotMem (heq ▸ List.mem_map_of_mem hmem)

theorem answerAll (h : ws.Kept) (p : W → Bool) (o : O) : (ws.answerAll p o).Kept := by
  refine h.foldl_answer (h.nodup.sublist (List.filter_sublist.map _)) ?_ o
  intro waiter hmem
  exact List.mem_map_of_mem (List.mem_filter.mp hmem).1

theorem failAll (h : ws.Kept) (o : O) : (ws.failAll o).Kept where
  waits_iff_not_settled := by
    intro id hlt
    rw [settled_failAll]
    have hone := h.waits_iff_not_settled id (by rwa [failAll_eq] at hlt)
    simp only [Waits, waiting_failAll, List.map_nil, List.not_mem_nil, false_iff, not_not]
    by_cases hsettled : ws.Settled id
    · exact .inl hsettled
    · exact .inr (hone.mpr hsettled)
  waits_iff_armed := by
    intro id
    have harmed := h.waits_iff_armed id
    simp only [failAll_eq, Waits, List.map_nil, List.not_mem_nil, List.mem_filter,
      decide_eq_true_eq, false_iff, not_and, not_not]
    exact harmed.mpr
  once := by
    simp only [failAll_eq, List.map_append, List.map_map]
    refine h.once.append h.nodup ?_
    intro id hsettled hwaits
    exact h.not_settled_of_waits hwaits hsettled
  made_of_waiting := nofun
  made_of_settled := by
    intro id hsettled
    rw [settled_failAll] at hsettled
    rw [failAll_eq]
    exact hsettled.elim (h.made_of_settled id) h.lt_of_waits
  ordered := .nil

end Kept

/-! ## The order of waiters -/

theorem mem_queue : id ∈ ws.queue p ↔ ∃ w, (id, w) ∈ ws.waiting ∧ p w = true := by
  simp [queue]

theorem queue_add (w : W) :
    (ws.add w).queue p = ws.queue p ++ if p w = true then [ws.made.length] else [] := by
  by_cases h : p w = true <;> simp [queue, add, h]

theorem queue_answer : (ws.answer id o).queue p = (ws.queue p).filter (· ≠ id) := by
  simp only [queue, answer, clearTimeout, delete, settle, List.filter_map, List.filter_filter]
  congr 1
  refine List.filter_congr fun waiter _ => ?_
  simp [Bool.and_comm]

theorem queue_failAll : (ws.failAll o).queue p = [] := rfl

/-- Who waits in a queue was made for something of its kind. -/
theorem Kept.made_of_mem_queue (h : ws.Kept) (hmem : id ∈ ws.queue p) :
    ∃ w, ws.made[id]? = some w ∧ p w = true := by
  obtain ⟨w, hw, hkind⟩ := mem_queue.mp hmem
  exact ⟨w, h.made_of_waiting _ hw, hkind⟩

theorem Kept.nodup_queue (h : ws.Kept) : (ws.queue p).Nodup :=
  h.nodup.sublist (List.filter_sublist.map _)

/-- An answer for another leaves a queue alone. -/
theorem queue_answer_of_not_mem (hnot : id ∉ ws.queue p) : (ws.answer id o).queue p = ws.queue p := by
  rw [queue_answer, List.filter_eq_self]
  intro other hmem
  rw [decide_eq_true_eq]
  rintro rfl
  exact hnot hmem

/-- The first waiter of a kind is the oldest. -/
theorem Kept.oldest?_eq_some_iff (h : ws.Kept) {waiter : Nat × W} :
    ws.oldest? p = some waiter ↔ ws.Oldest p waiter := by
  constructor
  · intro hfind
    obtain ⟨hkind, before, after, hwaiting, hbefore⟩ := List.find?_eq_some_iff_append.mp hfind
    refine ⟨List.mem_of_find?_eq_some hfind, hkind, ?_⟩
    intro other hmem hother
    have hordered := h.ordered
    rw [hwaiting] at hmem hordered
    rcases List.mem_append.mp hmem with hmem | hmem
    · have hnot := hbefore other hmem
      simp [hother] at hnot
    · rcases List.mem_cons.mp hmem with rfl | hmem
      · exact Nat.le_refl _
      · exact Nat.le_of_lt ((List.pairwise_cons.mp (List.pairwise_append.mp hordered).2.1).1 other hmem)
  · intro hold
    cases hfind : ws.oldest? p with
    | none =>
        have hnone := List.find?_eq_none.mp hfind waiter hold.mem
        exact absurd hold.kind hnone
    | some first =>
        have hmem := List.mem_of_find?_eq_some hfind
        obtain ⟨hkind, before, after, hwaiting, hbefore⟩ := List.find?_eq_some_iff_append.mp hfind
        have hordered := h.ordered
        have hin := hold.mem
        rw [hwaiting] at hordered hin
        rcases List.mem_append.mp hin with hin | hin
        · have hnot := hbefore waiter hin
          simp [hold.kind] at hnot
        · rcases List.mem_cons.mp hin with rfl | hin
          · rfl
          · have hlt := (List.pairwise_cons.mp (List.pairwise_append.mp hordered).2.1).1 waiter hin
            exact absurd (hold.least first hmem hkind) (Nat.not_le.mpr hlt)

theorem Kept.answerOldest_of_oldest (h : ws.Kept) {waiter : Nat × W} (hold : ws.Oldest p waiter)
    (result : W → O) : ws.answerOldest p result = ws.answer waiter.1 (result waiter.2) := by
  rw [Waiters.answerOldest, h.oldest?_eq_some_iff.mpr hold]

/-- Without a waiter of the kind nobody gets the answer. -/
theorem answerOldest_of_none (hnone : ∀ waiter ∈ ws.waiting, p waiter.2 = false) (result : W → O) :
    ws.answerOldest p result = ws := by
  have hfind : ws.oldest? p = none :=
    List.find?_eq_none.mpr fun waiter hmem => by simp [hnone waiter hmem]
  rw [Waiters.answerOldest, hfind]

/-- **First come, first served**: an answer goes to the first of the queue. -/
theorem Kept.answerOldest_queue (h : ws.Kept) {rest : List Nat} (hqueue : ws.queue p = id :: rest)
    (result : W → O) :
    ∃ w, ws.made[id]? = some w ∧ ws.answerOldest p result = ws.answer id (result w) ∧
      (ws.answerOldest p result).queue p = rest := by
  obtain ⟨first, tail, hfilter, hfirst, -⟩ := List.map_eq_cons_iff.mp hqueue
  have hfind : ws.oldest? p = some first := by
    rw [oldest?, ← List.head?_filter, hfilter]
    rfl
  have hanswer : ws.answerOldest p result = ws.answer id (result first.2) := by
    rw [Waiters.answerOldest, hfind, ← hfirst]
  have hnodup := h.nodup_queue (p := p)
  rw [hqueue] at hnodup
  refine ⟨first.2, ?_, hanswer, ?_⟩
  · have hmade := h.made_of_waiting first (List.mem_of_find?_eq_some hfind)
    rwa [hfirst] at hmade
  · rw [hanswer, queue_answer, hqueue, List.filter_cons_of_neg (by simp), List.filter_eq_self]
    intro other hmem
    rw [decide_eq_true_eq]
    rintro rfl
    exact (List.nodup_cons.mp hnodup).1 hmem

/-- The first waiter of the kind leaves the set. -/
theorem Kept.waiting_answerOldest (h : ws.Kept) (p : W → Bool) (result : W → O) :
    (ws.answerOldest p result).waiting = ws.waiting.eraseP fun waiter => p waiter.2 := by
  unfold Waiters.answerOldest
  split
  · next waiter hfind =>
      obtain ⟨hkind, before, after, hwaiting, hbefore⟩ := List.find?_eq_some_iff_append.mp hfind
      have hnodup := h.nodup
      simp only [hwaiting, List.map_append, List.map_cons] at hnodup
      have hothers := List.nodup_middle.mp hnodup
      have hkeep (l : List (Nat × W)) (hl : ∀ other ∈ l, other.1 ≠ waiter.1) :
          l.filter (·.1 ≠ waiter.1) = l := by
        refine List.filter_eq_self.mpr fun other hmem => ?_
        simpa using hl other hmem
      have hne : ∀ other ∈ before ++ after, other.1 ≠ waiter.1 := by
        intro other hmem heq
        refine (List.nodup_cons.mp hothers).1 ?_
        rw [← heq, ← List.map_append]
        exact List.mem_map_of_mem hmem
      have herase : ws.waiting.eraseP (fun waiter => p waiter.2) = before ++ after := by
        rw [hwaiting, List.eraseP_append_right _ fun other hmem => by simpa using hbefore other hmem,
          List.eraseP_cons_of_pos (by exact hkind)]
      rw [herase, Waiters.answer, clearTimeout, delete, settle, hwaiting, List.filter_append,
        List.filter_cons_of_neg (by simp),
        hkeep before fun other hmem => hne other (List.mem_append_left _ hmem),
        hkeep after fun other hmem => hne other (List.mem_append_right _ hmem)]
  · next hfind => exact (List.eraseP_of_forall_not (List.find?_eq_none.mp hfind)).symm

/-- Every waiter of the kind leaves the set. -/
theorem waiting_foldl_answer (l : List (Nat × W)) (ws : Waiters W O) :
    (l.foldl (fun ws waiter => ws.answer waiter.1 o) ws).waiting
      = ws.waiting.filter fun waiter => waiter.1 ∉ l.map Prod.fst := by
  induction l generalizing ws with
  | nil => simp
  | cons waiter rest ih =>
      rw [List.foldl_cons, ih, answer, clearTimeout, delete, settle, List.filter_filter]
      refine List.filter_congr fun other _ => ?_
      simp only [List.map_cons, List.mem_cons, not_or, ne_eq, Bool.decide_and, Bool.and_comm]

theorem Kept.waiting_answerAll (h : ws.Kept) (p : W → Bool) (o : O) :
    (ws.answerAll p o).waiting = ws.waiting.filter fun waiter => !p waiter.2 := by
  rw [Waiters.answerAll, waiting_foldl_answer]
  refine List.filter_congr fun waiter hmem => ?_
  by_cases hkind : p waiter.2 = true
  · have hin : waiter.1 ∈ (ws.waiting.filter fun waiter => p waiter.2).map Prod.fst :=
      List.mem_map_of_mem (List.mem_filter.mpr ⟨hmem, hkind⟩)
    rw [decide_eq_false (not_not.mpr hin), hkind]
    rfl
  · have hout : waiter.1 ∉ (ws.waiting.filter fun waiter => p waiter.2).map Prod.fst := by
      intro hin
      obtain ⟨other, hother, heq⟩ := List.mem_map.mp hin
      obtain ⟨hmem', hkind'⟩ := List.mem_filter.mp hother
      obtain rfl := (List.inj_on_of_nodup_map h.nodup) hmem' hmem heq
      exact hkind hkind'
    rw [decide_eq_true hout]
    simp [hkind]

/-- An answer for one kind leaves the queue of another alone. -/
theorem Kept.answerOldest_queue_of_disjoint (h : ws.Kept) {q : W → Bool}
    (hdisjoint : ∀ w, p w = true → q w = false) (result : W → O) :
    (ws.answerOldest p result).queue q = ws.queue q := by
  unfold Waiters.answerOldest
  split
  · next waiter hfind =>
      refine queue_answer_of_not_mem fun hmem => ?_
      obtain ⟨w, hmade, hkind⟩ := h.made_of_mem_queue hmem
      have hfirst := h.made_of_waiting waiter (List.mem_of_find?_eq_some hfind)
      obtain rfl := Option.some.inj (hmade.symm.trans hfirst)
      have hfound : p waiter.2 = true := (List.find?_eq_some_iff_append.mp hfind).1
      rw [hdisjoint _ hfound] at hkind
      cases hkind
  · rfl

end Waiters

end Core
