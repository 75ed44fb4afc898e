import TyprCompanion.Core.FileSystem
import TyprCompanion.Core.PromiseChain

/-!
# State files

How the access store and the provider manager keep their state: each call of `persist` appends a write
of the whole state to `this.writeQueue`.

* `Write` — a call of `persist`: the text it writes, and which of its own file operations fail.
* `StateFile`, `WriteQueue` — the file with what it held, and the chain of the writes.
* `Filed` — what the file holds, read off the writes that were fulfilled.
* **`Recovers`** — no write is affected by another one's failure, and the file follows the state.
* **`Keeps.recovers_iff`** — it holds if and only if no write that fails precedes one that would succeed.
-/

namespace Typr

open Core

/-! ## Writes -/

/-- The file operations of `persist`. -/
inductive WriteOp where
  | mkdir
  | writeFile
  | rename
  deriving DecidableEq

/-- A call of `persist`: the text, and the operations of its own that fail. -/
structure Write (α : Type) where
  serialized : α
  failure : WriteOp → Option Errno

/-- What `statePath` names, the temporary file of the write that runs, and what was renamed to
`statePath` so far. -/
structure StateFile (α : Type) where
  file : Option α
  temporary : Option α
  contents : List α

variable {α : Type}

namespace StateFile

/-- A file as a store finds it. -/
def found (file : Option α) : StateFile α := ⟨file, none, []⟩

/-- `rename(temporary, statePath)` -/
def rename (f : StateFile α) : StateFile α :=
  match f.temporary with
  | none => f
  | some text => ⟨some text, none, f.contents ++ [text]⟩

/-- The effect of an operation. -/
def perform (w : Write α) (op : WriteOp) (f : StateFile α) : StateFile α :=
  match op with
  | .mkdir => f
  | .writeFile => { f with temporary := some w.serialized }
  | .rename => f.rename

end StateFile

/-- The tasks `persist` chains; only the access store creates the directory again. -/
def persistTasks (makesDirectory : Bool) : Tasks (Write α) WriteOp Errno (StateFile α) where
  ops := if makesDirectory then [.mkdir, .writeFile, .rename] else [.writeFile, .rename]
  result w op := match w.failure op with
    | none => .ok ()
    | some e => .error e
  effect := StateFile.perform

/-- `this.writeQueue`, with the file. -/
abbrev WriteQueue (α : Type) := PromiseChain (Write α) WriteOp Errno (StateFile α)

namespace Write

/-- The mkdir, write and rename of the call would succeed. -/
abbrev Succeeds (makesDirectory : Bool) (w : Write α) : Prop := (persistTasks makesDirectory).Succeeds w

theorem succeeds_iff (makesDirectory : Bool) (w : Write α) : w.Succeeds makesDirectory ↔
    ∀ op ∈ (persistTasks makesDirectory : Tasks (Write α) _ _ _).ops, w.failure op = none := by
  refine ((persistTasks makesDirectory).outcomeOf_eq_ok_iff w _).trans ?_
  refine forall₂_congr fun op _ => ?_
  show (match w.failure op with | none => Except.ok () | some e => .error e) = .ok () ↔ _
  cases w.failure op <;> simp

instance (makesDirectory : Bool) (w : Write α) : Decidable (w.Succeeds makesDirectory) :=
  decidable_of_iff _ (succeeds_iff makesDirectory w).symm

/-- No operation of the call fails. -/
def flawless (text : α) : Write α := ⟨text, fun _ => none⟩

theorem flawless_succeeds (makesDirectory : Bool) (text : α) :
    (flawless text).Succeeds makesDirectory := by
  cases makesDirectory <;> rfl

end Write

namespace WriteQueue

/-! ## What the file holds -/

/-- The texts of the promises that are fulfilled. -/
def fulfilled (settled : List (Write α × Except Errno Unit)) : List α :=
  settled.filterMap fun entry => match entry.2 with
    | .ok () => some entry.1.serialized
    | .error _ => none

/-- What the running write has done to the file already. -/
def inPlace : Option (Write α × List WriteOp) → List α
  | some (w, []) => [w.serialized]
  | _ => []

/-- The temporary file holds the text of the running write before it is renamed. -/
def Prepared (running : Option (Write α × List WriteOp)) (temporary : Option α) : Prop :=
  ∀ w rest, running = some (w, rest) →
    rest = [.mkdir, .writeFile, .rename] ∨ rest = [.writeFile, .rename] ∨
      (rest = [.rename] ∧ temporary = some w.serialized) ∨ rest = []

/-- **The file**: what was renamed to it is what the fulfilled writes wrote, in their order, and it
holds the last of them. -/
structure Filed (found : Option α) (q : WriteQueue α) : Prop where
  contents : q.world.contents = fulfilled q.settled ++ inPlace q.running
  file : q.world.file = q.world.contents.getLast?.or found
  prepared : Prepared q.running q.world.temporary

theorem Filed.resolved (found : Option α) : Filed found (PromiseChain.resolved (.found found)) where
  contents := rfl
  file := rfl
  prepared _ _ h := absurd h.symm (Option.some_ne_none _)

theorem Filed.append {found : Option α} {q : WriteQueue α} (h : Filed found q) (w : Write α) :
    Filed found (q.append w) := ⟨h.contents, h.file, h.prepared⟩

theorem fulfilled_append (settled : List (Write α × Except Errno Unit)) (w : Write α)
    (r : Except Errno Unit) :
    fulfilled (settled ++ [(w, r)])
      = fulfilled settled ++ (match r with | .ok () => [w.serialized] | .error _ => []) := by
  cases r <;> simp [fulfilled]

/-- **Every step keeps the file in line with the promises.** -/
theorem Filed.advance {makesDirectory : Bool} {found : Option α} {q q' : WriteQueue α}
    (hq : Filed found q) (h : PromiseChain.advance (persistTasks makesDirectory) q = some q') :
    Filed found q' := by
  obtain ⟨w, hrun, rfl⟩ | ⟨w, op, rest, hrun, hresult, rfl⟩ | ⟨w, op, rest, e, hrun, hresult, rfl⟩ |
    ⟨w, rest, hrun, hwaiting, hout, rfl⟩ | ⟨w, rest, e, hrun, hwaiting, hout, rfl⟩ :=
      PromiseChain.advance_cases _ h
  · refine ⟨?_, hq.file, fun _ _ hnone => absurd hnone.symm (Option.some_ne_none _)⟩
    have hcontents := hq.contents
    rw [hrun] at hcontents
    simpa [PromiseChain.settle, fulfilled_append, inPlace] using hcontents
  · have hcontents := hq.contents
    have hprepared := hq.prepared w (op :: rest) hrun
    rw [hrun] at hcontents
    simp only [inPlace, List.append_nil] at hcontents
    rcases hprepared with hops | hops | ⟨hops, htemporary⟩ | hops
    · -- mkdir
      obtain ⟨rfl, rfl⟩ := List.cons.inj hops
      refine ⟨by simpa [persistTasks, StateFile.perform, inPlace] using hcontents, hq.file, ?_⟩
      intro v left hv
      obtain ⟨rfl, rfl⟩ : w = v ∧ [.writeFile, .rename] = left := by simpa using hv
      exact .inr (.inl rfl)
    · -- writeFile
      obtain ⟨rfl, rfl⟩ := List.cons.inj hops
      refine ⟨by simpa [persistTasks, StateFile.perform, inPlace] using hcontents, hq.file, ?_⟩
      intro v left hv
      obtain ⟨rfl, rfl⟩ : w = v ∧ [.rename] = left := by simpa using hv
      exact .inr (.inr (.inl ⟨rfl, rfl⟩))
    · -- rename
      obtain ⟨rfl, rfl⟩ := List.cons.inj hops
      simp only [persistTasks, StateFile.perform, StateFile.rename, htemporary]
      refine ⟨by simpa [inPlace] using hcontents, by simp, ?_⟩
      intro v left hv
      obtain ⟨rfl, rfl⟩ : w = v ∧ [] = left := by simpa using hv
      exact .inr (.inr (.inr rfl))
    · exact absurd hops (by simp)
  · refine ⟨?_, hq.file, fun _ _ hnone => absurd hnone.symm (Option.some_ne_none _)⟩
    have hcontents := hq.contents
    rw [hrun] at hcontents
    simpa [PromiseChain.settle, fulfilled_append, inPlace] using hcontents
  · refine ⟨?_, hq.file, ?_⟩
    · have hcontents := hq.contents
      rw [hrun] at hcontents
      cases makesDirectory <;> simpa [inPlace, persistTasks] using hcontents
    · intro v left hv
      obtain ⟨rfl, rfl⟩ : w = v ∧ (persistTasks makesDirectory : Tasks (Write α) _ _ _).ops = left := by
        simpa using hv
      cases makesDirectory
      · exact .inr (.inl rfl)
      · exact .inl rfl
  · refine ⟨?_, hq.file, fun _ _ hnone => absurd hnone.symm (Option.some_ne_none _)⟩
    have hcontents := hq.contents
    rw [hrun] at hcontents
    simpa [PromiseChain.settle, fulfilled_append, inPlace] using hcontents

theorem fulfilled_sublist (settled : List (Write α × Except Errno Unit)) :
    (fulfilled settled).Sublist ((settled.map Prod.fst).map Write.serialized) := by
  induction settled with
  | nil => exact .slnil
  | cons entry rest ih =>
      obtain ⟨w, r⟩ := entry
      cases r with
      | ok u => exact ih.cons_cons w.serialized
      | error e => exact ih.cons w.serialized

theorem mem_fulfilled {settled : List (Write α × Except Errno Unit)} {w : Write α}
    (h : (w, .ok ()) ∈ settled) : w.serialized ∈ fulfilled settled :=
  List.mem_filterMap.mpr ⟨_, h, rfl⟩

/-- The texts reach the file in the order of the writes. -/
theorem Filed.contents_sublist {found : Option α} {q : WriteQueue α} (h : Filed found q) :
    q.world.contents.Sublist (q.tasks.map Write.serialized) := by
  have hrunning : (inPlace q.running).Sublist
      ((q.running.map Prod.fst).toList.map Write.serialized) := by
    cases hrun : q.running with
    | none => exact List.nil_sublist _
    | some entry =>
        obtain ⟨w, rest⟩ := entry
        cases rest with
        | nil => exact List.Sublist.refl _
        | cons op rest => exact List.nil_sublist _
  rw [h.contents, PromiseChain.tasks, List.map_append, List.map_append]
  exact (fulfilled_sublist q.settled).append (hrunning.trans (List.sublist_append_left _ _))

/-- What was renamed to the file stays in its history. -/
theorem contents_advance {makesDirectory : Bool} {q q' : WriteQueue α}
    (h : PromiseChain.advance (persistTasks makesDirectory) q = some q') :
    q.world.contents ⊆ q'.world.contents := by
  obtain ⟨w, -, rfl⟩ | ⟨w, op, rest, -, -, rfl⟩ | ⟨w, op, rest, e, -, -, rfl⟩ |
    ⟨w, rest, -, -, -, rfl⟩ | ⟨w, rest, e, -, -, -, rfl⟩ := PromiseChain.advance_cases _ h
  · exact List.Subset.refl _
  · show q.world.contents ⊆ (StateFile.perform w op q.world).contents
    cases op with
    | mkdir => exact List.Subset.refl _
    | writeFile => exact List.Subset.refl _
    | rename =>
        unfold StateFile.perform StateFile.rename
        dsimp only
        split
        · exact List.Subset.refl _
        · exact List.subset_append_left _ _
  · exact List.Subset.refl _
  · exact List.Subset.refl _
  · exact List.Subset.refl _

/-! ## Recovery -/

/-- The settled promises are fulfilled for the writes that succeed by themselves. -/
theorem fulfilled_eq {makesDirectory : Bool} {settled : List (Write α × Except Errno Unit)}
    (h : ∀ entry ∈ settled, entry.2 = .ok () ↔ entry.1.Succeeds makesDirectory) :
    fulfilled settled = ((settled.map Prod.fst).filter
      fun w => decide (w.Succeeds makesDirectory)).map Write.serialized := by
  induction settled with
  | nil => rfl
  | cons entry rest ih =>
      obtain ⟨hentry, hrest⟩ := List.forall_mem_cons.mp h
      have hfulfilled := ih hrest
      obtain ⟨w, r⟩ := entry
      cases r with
      | ok u =>
          have hw : w.Succeeds makesDirectory := hentry.mp rfl
          rw [List.map_cons, List.filter_cons_of_pos (by simpa using hw), List.map_cons, ← hfulfilled]
          rfl
      | error e =>
          have hw : ¬ w.Succeeds makesDirectory := fun hw => nomatch hentry.mpr hw
          rw [List.map_cons, List.filter_cons_of_neg (by simpa using hw), ← hfulfilled]
          rfl

/-- **Recovery** from failed writes: a call of `persist` whose own operations succeed is fulfilled,
whatever the others did.  When nothing is on its way, the successful writes were renamed to the file
in their order, and after a successful last write the file decodes to the state. -/
structure Recovers {E S : Type} (makesDirectory : Bool) (decode : α → Except E S) (state : S)
    (q : WriteQueue α) : Prop where
  resolves : ∀ entry ∈ q.settled, entry.1.Succeeds makesDirectory → entry.2 = .ok ()
  writes : q.Idle → q.world.contents
    = (q.tasks.filter fun w => decide (w.Succeeds makesDirectory)).map Write.serialized
  decodes : q.Idle → ∀ w, q.tasks.getLast? = some w → w.Succeeds makesDirectory →
    ∃ text, q.world.file = some text ∧ decode text = .ok state

/-- No write that would succeed follows one that failed. -/
def NoFailureBefore (makesDirectory : Bool) (q : WriteQueue α) : Prop :=
  (q.settled.map Prod.fst).Pairwise fun w v => v.Succeeds makesDirectory → w.Succeeds makesDirectory

/-- What a chain of writes of a store satisfies in every run: its promises, its file, and that the last
write is of the current text. -/
structure Keeps (makesDirectory : Bool) (found : Option α) (text : α) (q : WriteQueue α) : Prop where
  lawful : PromiseChain.Lawful (persistTasks makesDirectory) q
  filed : Filed found q
  latest : ∀ w, q.tasks.getLast? = some w → w.serialized = text

section Keeps

variable {E S : Type} {makesDirectory : Bool} {decode : α → Except E S} {found : Option α} {text : α}
  {state : S} {q : WriteQueue α}

theorem Keeps.resolved : Keeps makesDirectory found text (PromiseChain.resolved (.found found)) where
  lawful := .resolved _ _
  filed := .resolved found
  latest w h := absurd h (by simp [PromiseChain.tasks, PromiseChain.resolved])

/-- A new text is persisted. -/
theorem Keeps.persist (h : Keeps makesDirectory found text q) (w : Write α) :
    Keeps makesDirectory found w.serialized (q.append w) where
  lawful := h.lawful.append _ w
  filed := h.filed.append w
  latest v hv := by
    rw [PromiseChain.tasks_append, List.getLast?_concat] at hv
    exact congrArg Write.serialized (Option.some.inj hv).symm

theorem Keeps.advance (h : Keeps makesDirectory found text q) {q' : WriteQueue α}
    (hq : PromiseChain.advance (persistTasks makesDirectory) q = some q') :
    Keeps makesDirectory found text q' where
  lawful := h.lawful.advance _ hq
  filed := h.filed.advance hq
  latest := by
    rw [PromiseChain.tasks_advance _ hq]
    exact h.latest

/-- Where no failure precedes it, a promise is fulfilled exactly when its own write succeeds. -/
theorem Keeps.fulfilled_iff (h : Keeps makesDirectory found text q)
    (hno : NoFailureBefore makesDirectory q) :
    ∀ entry ∈ q.settled, entry.2 = .ok () ↔ entry.1.Succeeds makesDirectory := by
  intro entry hentry
  obtain ⟨i, hi, hget⟩ := List.getElem_of_mem hentry
  have hlookup : q.settled[i]? = some (entry.1, entry.2) :=
    List.getElem?_eq_some_iff.mpr ⟨hi, hget⟩
  rw [h.lawful.fulfilled_iff _ hlookup]
  have hlen : i < (q.settled.map Prod.fst).length := by rwa [List.length_map]
  have hself : (q.settled.map Prod.fst)[i] = entry.1 := by rw [List.getElem_map, hget]
  constructor
  · intro hall
    exact hall _ (List.mem_take_iff_getElem.mpr ⟨i, by omega, hself⟩)
  · intro hw u hu
    obtain ⟨j, hj, rfl⟩ := List.getElem_of_mem hu
    rw [List.length_take] at hj
    rw [List.getElem_take]
    rcases Nat.lt_or_ge j i with hji | hji
    · exact List.pairwise_iff_getElem.mp hno j i (by omega) hlen hji (hself ▸ hw)
    · obtain rfl : j = i := by omega
      exact hself ▸ hw

/-- An idle chain has settled the promises of all its tasks. -/
theorem settled_eq_tasks (hidle : q.Idle) : q.settled.map Prod.fst = q.tasks := by
  unfold PromiseChain.tasks
  rw [hidle.1, hidle.2]
  simp

/-- **The writes of a store recover if and only if no failed write precedes a successful one**, and the
text of the state decodes to it where it was written. -/
theorem Keeps.recovers_iff (h : Keeps makesDirectory found text q) :
    Recovers makesDirectory decode state q ↔ NoFailureBefore makesDirectory q ∧
      (q.Idle → (∃ w, q.tasks.getLast? = some w ∧ w.Succeeds makesDirectory) →
        decode text = .ok state) := by
  have hfile : NoFailureBefore makesDirectory q → q.Idle → q.world.contents
      = (q.tasks.filter fun w => decide (w.Succeeds makesDirectory)).map Write.serialized := by
    intro hno hidle
    rw [h.filed.contents, fulfilled_eq (h.fulfilled_iff hno), settled_eq_tasks hidle, hidle.1]
    exact List.append_nil _
  have hlast : NoFailureBefore makesDirectory q → q.Idle → ∀ w, q.tasks.getLast? = some w →
      w.Succeeds makesDirectory → q.world.file = some text := by
    intro hno hidle w hlast hsucceeds
    obtain ⟨earlier, htasks⟩ := List.getLast?_eq_some_iff.mp hlast
    rw [h.filed.file, hfile hno hidle, htasks, List.filter_append,
      List.filter_cons_of_pos (by simpa using hsucceeds), List.filter_nil, List.map_append,
      ← h.latest w hlast]
    simp
  constructor
  · intro hrecovers
    have hno : NoFailureBefore makesDirectory q := by
      refine List.pairwise_iff_getElem.mpr fun i j hi hj hij hsucceeds => ?_
      rw [List.length_map] at hi hj
      rw [List.getElem_map] at hsucceeds ⊢
      have hok := hrecovers.resolves _ (List.getElem_mem hj) hsucceeds
      have hlookup : q.settled[j]? = some (q.settled[j].1, .ok ()) :=
        List.getElem?_eq_some_iff.mpr ⟨hj, Prod.ext rfl hok⟩
      have hall := (h.lawful.fulfilled_iff _ hlookup).mp rfl
      refine hall _ (List.mem_take_iff_getElem.mpr ⟨i, ?_, List.getElem_map _⟩)
      rw [List.length_map]
      omega
    refine ⟨hno, ?_⟩
    rintro hidle ⟨w, hw, hsucceeds⟩
    obtain ⟨written, hwritten, hdecode⟩ := hrecovers.decodes hidle w hw hsucceeds
    rw [hlast hno hidle w hw hsucceeds] at hwritten
    exact Option.some.inj hwritten ▸ hdecode
  · rintro ⟨hno, hdecode⟩
    refine ⟨fun entry hentry => (h.fulfilled_iff hno entry hentry).mpr, hfile hno, ?_⟩
    intro hidle w hw hsucceeds
    exact ⟨text, hlast hno hidle w hw hsucceeds, hdecode hidle ⟨w, hw, hsucceeds⟩⟩

end Keeps

end WriteQueue

end Typr
