import TyprCompanion.Workspace.CompareAndSwap

/-!
# No update is lost

What the preconditions of the store are for: clients that read, change and write back, or delete, do
not undo what they have not seen.

* `Mutation.expects`, `Mutation.leaves` — the etag a call asks for at its path, and the one there after it.
* `successes` — the successful calls about a path, in their order.
* `Follows` — each call expects what the one before it left.
* `follows_sequential`, `stale_sequential` — the map executes calls in this way.
* **`WorkspaceStore.updates_follow`** — so does the store, however the calls are interleaved.
-/

namespace Typr

open Core

namespace Mutation

variable {store : WorkspaceStore}

/-- What the precondition of a call asks for: no file, or one with this etag. -/
def expects : Mutation store → Option JSString
  | write _ _ .create => none
  | write _ _ (.update etag) => some etag
  | delete _ expectedEtag => some expectedEtag

/-- What a successful call leaves at its path. -/
def leaves : Mutation store → Option JSString
  | write _ content _ => some (store.createEtag content.val)
  | delete _ _ => none

/-- The call is about a path. -/
def isAbout (path : Location) (call : Mutation store) : Bool :=
  relativeLocation call.path.text = path

end Mutation

/-- The outcome is a success. -/
def MutationOutcome.isSuccess : MutationOutcome → Bool
  | written _ | deleted => true
  | refused _ | failed => false

section Log

variable {store : WorkspaceStore}

/-- The successful calls about a path. -/
def successes (path : Location) (log : List (Mutation store × MutationOutcome)) :
    List (Mutation store) :=
  (log.filter fun entry => entry.2.isSuccess && entry.1.isAbout path).map Prod.fst

/-- **Each call expects what the one before it left**, the first one what is there. -/
def Follows : Option JSString → List (Mutation store) → Prop
  | _, [] => True
  | current, call :: rest => call.expects = current ∧ Follows call.leaves rest

/-- What is at a path after calls that succeeded. -/
def leftBy (current : Option JSString) (calls : List (Mutation store)) : Option JSString :=
  calls.foldl (fun _ call => call.leaves) current

/-- The etag at a path. -/
def FileMap.etagAt (store : WorkspaceStore) (m : FileMap) (path : Location) : Option JSString :=
  (m.files.lookup path).map store.createEtag

variable {m : FileMap} {path : Location} {call : Mutation store}

/-- **One call on the map**: it succeeds only where its path holds what it expects; it is refused with
412 only where it does not. -/
theorem spec_expects (call : Mutation store) (m : FileMap) :
    ((call.spec m).1.isSuccess = true →
      call.expects = m.etagAt store (relativeLocation call.path.text)) ∧
    ((call.spec m).1 = .refused 412 →
      call.expects ≠ m.etagAt store (relativeLocation call.path.text)) := by
  cases call with
  | write target content precondition =>
      have hexpects {current : Option JSString} : precondition.Holds current ↔
          Mutation.expects (.write target content precondition) = current := by
        cases precondition <;> exact eq_comm
      simp only [Mutation.spec, FileMap.write]
      split
      · simp [MutationOutcome.isSuccess]
      split
      · next hfails =>
          exact ⟨fun h => Bool.noConfusion h, fun _ heq => hfails (hexpects.mpr heq)⟩
      next hholds =>
        have hmet := hexpects.mp (not_not.mp hholds)
        split
        · simp [MutationOutcome.isSuccess]
        split
        · simp [MutationOutcome.isSuccess]
        · exact ⟨fun _ => hmet, by simp⟩
  | delete target expectedEtag =>
      simp only [Mutation.spec, FileMap.delete]
      split
      · simp [MutationOutcome.isSuccess]
      split
      · next hdiffers =>
          exact ⟨fun h => Bool.noConfusion h, fun _ heq => hdiffers heq.symm⟩
      · next hsame => exact ⟨fun _ => (not_not.mp hsame).symm, by simp⟩

theorem write_not_deleted (target : WorkspacePath store.platform)
    (content : {bytes : Bytes // bytes.length ≤ store.limits.maxFileBytes})
    (precondition : WorkspaceWritePrecondition) (m : FileMap) :
    (Mutation.spec (.write target content precondition) m).1 ≠ .deleted := by
  simp only [Mutation.spec, FileMap.write]
  split
  · simp
  split
  · simp
  split
  · simp
  split <;> simp

theorem delete_not_written (target : WorkspacePath store.platform) (expectedEtag etag : JSString)
    (m : FileMap) : (Mutation.spec (.delete target expectedEtag) m).1 ≠ .written etag := by
  simp only [Mutation.spec, FileMap.delete]
  split
  · simp
  split <;> simp

/-- What a call leaves at a path: at its own when it succeeds, and nothing changes elsewhere. -/
theorem etagAt_spec (call : Mutation store) (m : FileMap) (path : Location) :
    (call.spec m).2.etagAt store path
      = if ((call.spec m).1.isSuccess && call.isAbout path) = true then call.leaves
        else m.etagAt store path := by
  rw [FileMap.etagAt, lookup_spec]
  cases call with
  | write target content precondition =>
      cases houtcome : (Mutation.spec (.write target content precondition) m).1 with
      | written etag =>
          by_cases h : relativeLocation target.text = path
          · simp [Mutation.contentAfter, MutationOutcome.isSuccess, Mutation.isAbout, Mutation.path,
              Mutation.leaves, h]
          · simp [Mutation.contentAfter, MutationOutcome.isSuccess, Mutation.isAbout, Mutation.path, h,
              FileMap.etagAt]
      | deleted => exact absurd houtcome (write_not_deleted target content precondition m)
      | refused status | failed => rfl
  | delete target expectedEtag =>
      cases houtcome : (Mutation.spec (.delete target expectedEtag) m).1 with
      | written etag => exact absurd houtcome (delete_not_written target expectedEtag etag m)
      | deleted =>
          by_cases h : relativeLocation target.text = path
          · simp [Mutation.contentAfter, MutationOutcome.isSuccess, Mutation.isAbout, Mutation.path,
              Mutation.leaves, h]
          · simp [Mutation.contentAfter, MutationOutcome.isSuccess, Mutation.isAbout, Mutation.path, h,
              FileMap.etagAt]
      | refused status | failed => rfl

theorem successes_cons (path : Location) (call : Mutation store) (outcome : MutationOutcome)
    (log : List (Mutation store × MutationOutcome)) :
    successes path ((call, outcome) :: log)
      = if (outcome.isSuccess && call.isAbout path) = true then call :: successes path log
        else successes path log := by
  rw [successes, List.filter_cons]
  split <;> rfl

/-- **Calls one at a time** follow each other at every path, and leave what the last of them left. -/
theorem follows_sequential (calls : List (Mutation store)) (m : FileMap) (path : Location) :
    Follows (m.etagAt store path)
        (successes path (calls.zip (Mutex.sequential Mutation.spec m calls).1)) ∧
      (Mutex.sequential Mutation.spec m calls).2.etagAt store path
        = leftBy (m.etagAt store path)
          (successes path (calls.zip (Mutex.sequential Mutation.spec m calls).1)) := by
  induction calls generalizing m with
  | nil => exact ⟨trivial, rfl⟩
  | cons call calls ih =>
      obtain ⟨hfollows, hleft⟩ := ih (call.spec m).2
      simp only [Mutex.sequential, List.zip_cons_cons, successes_cons]
      rw [etagAt_spec] at hfollows hleft
      by_cases hsuccess : ((call.spec m).1.isSuccess && call.isAbout path) = true
      · rw [if_pos hsuccess] at hfollows hleft ⊢
        obtain ⟨hmet, habout⟩ := Bool.and_eq_true_iff.mp hsuccess
        obtain rfl : relativeLocation call.path.text = path := of_decide_eq_true habout
        exact ⟨⟨(spec_expects call m).1 hmet, hfollows⟩, hleft⟩
      · rw [if_neg hsuccess] at hfollows hleft ⊢
        exact ⟨hfollows, hleft⟩

/-- **A call refused with 412** expected something else than what the successful calls before it left. -/
theorem stale_sequential {calls : List (Mutation store)} {m : FileMap}
    {before after : List (Mutation store × MutationOutcome)} {call : Mutation store}
    (h : calls.zip (Mutex.sequential Mutation.spec m calls).1
      = before ++ (call, .refused 412) :: after) :
    call.expects ≠ leftBy (m.etagAt store (relativeLocation call.path.text))
      (successes (relativeLocation call.path.text) before) := by
  induction calls generalizing m before with
  | nil => simp at h
  | cons first calls ih =>
      simp only [Mutex.sequential, List.zip_cons_cons] at h
      cases before with
      | nil =>
          obtain ⟨⟨rfl, houtcome⟩, -⟩ := by simpa using h
          exact (spec_expects first m).2 houtcome
      | cons entry before =>
          obtain ⟨rfl, hrest⟩ := List.cons.inj h
          have hexpects := ih hrest
          rw [etagAt_spec] at hexpects
          rw [successes_cons]
          split
          next hsuccess => rwa [if_pos hsuccess] at hexpects
          next hno => rwa [if_neg hno] at hexpects

end Log

/-- **No update is lost.**  Let writes and deletions run concurrently on a workspace in good order,
interleaved in any way.  At every path the successful ones follow each other: each of them expected
exactly what the one before it had left.  A call refused with 412 expected something else than what
was there in its turn.  Once all calls are settled, `read` gives the etag the next update has to
name, or there is no file. -/
theorem WorkspaceStore.updates_follow (store : WorkspaceStore) {d : Disk FileName}
    (hgood : store.Good d) {system : StoreSystem store}
    (hreachable : Mutex.Reachable (StoreOp.Exec false) Mutation.body d system) (path : Location) :
    Follows ((store.fileMap d).etagAt store path)
      (successes path (system.settled.map fun entry => (entry.1, Mutation.outcome entry.2))) ∧
    (∀ before call after, (system.settled.map fun entry => (entry.1, Mutation.outcome entry.2))
        = before ++ (call, .refused 412) :: after → relativeLocation call.path.text = path →
      call.expects ≠ leftBy ((store.fileMap d).etagAt store path) (successes path before)) ∧
    (system.queue = [] → ∀ text r t, IsWorkspacePath store.platform text →
      relativeLocation text = path → (store.read text).Eval (StoreOp.Exec false) system.store r t →
      (r.toOption.map fun response => response.etag) = leftBy ((store.fileMap d).etagAt store path)
        (successes path (system.settled.map fun entry => (entry.1, Mutation.outcome entry.2)))) := by
  obtain ⟨t, hserial, hprogress⟩ := hreachable.serial
  obtain ⟨hgood', hsequential⟩ := Mutex.Serial.refines store.Good store.fileMap
    (fun _ r => Mutation.outcome r) Mutation.spec (fun call s r u hs heval => call.refines hs heval)
    hgood hserial
  have hlog : (system.settled.map Prod.fst).zip
      (Mutex.sequential Mutation.spec (store.fileMap d) (system.settled.map Prod.fst)).1
      = system.settled.map fun entry => (entry.1, Mutation.outcome entry.2) := by
    rw [hsequential, List.zip_map']
  obtain ⟨hfollows, hleft⟩ :=
    follows_sequential (system.settled.map Prod.fst) (store.fileMap d) path
  rw [hlog] at hfollows hleft
  refine ⟨hfollows, ?_, ?_⟩
  · rintro before call after hsplit rfl
    exact stale_sequential (hlog.trans hsplit)
  · intro hidle text r u hvalid htext heval
    obtain rfl : system.store = t := by simpa [Mutex.InProgress, hidle] using hprogress
    obtain ⟨-, -, hreads⟩ := Prog.wp_sound (hgood'.read text) heval
    rw [← hleft, hsequential]
    have hreads := hreads hvalid
    rw [htext] at hreads
    show _ = (((store.fileMap system.store).files.lookup path).map store.createEtag)
    cases hlookup : (store.fileMap system.store).files.lookup path with
    | some content =>
        rw [hlookup] at hreads
        obtain ⟨response, rfl, -, -, -, hetag⟩ := hreads
        exact congrArg some hetag
    | none =>
        rw [hlookup] at hreads
        by_cases hconflict : (store.fileMap system.store).Conflict path
        · obtain ⟨w, rfl, -⟩ := hreads.1 hconflict
          rfl
        · obtain ⟨w, rfl, -⟩ := hreads.2 hconflict
          rfl

namespace EmptyWorkspace

theorem isWorkspacePath : IsWorkspacePath papers.platform (js "a.tex") := by decide

theorem twoBytes_fit : ([111, 107] : Bytes).length ≤ papers.limits.maxFileBytes := by decide

/-- An update of the file the first call created, for two bytes with this etag. -/
def update : Mutation papers :=
  .write ⟨js "a.tex", isWorkspacePath⟩ ⟨[111, 107], twoBytes_fit⟩ (.update (js "\"sha256-aGk=\""))

/-- The result of the update, and the disk after it. -/
def updated : Except StoreFailure (Option WorkspaceFileMetadata) × Disk FileName :=
  update.body.run (StoreOp.plain 0 uuid) created.2

/-- The same update once more: the file changed since. -/
def stale : Except StoreFailure (Option WorkspaceFileMetadata) × Disk FileName :=
  update.body.run (StoreOp.plain 0 uuid) updated.2

/-- The three calls have settled. -/
def updates : StoreSystem papers :=
  ⟨stale.2, [], [(create, created.1), (update, updated.1), (update, stale.1)]⟩

theorem updates_reachable : Mutex.Reachable (StoreOp.Exec false) Mutation.body disk updates := by
  refine Mutex.Serial.reachable ⟨created.2, ?_, updated.2, ?_, stale.2, ?_, rfl⟩
  · exact Prog.eval_run (StoreOp.exec_plain 0 uuid) _ _
  · exact Prog.eval_run (StoreOp.exec_plain 0 uuid) _ _
  · exact Prog.eval_run (StoreOp.exec_plain 0 uuid) _ _

end EmptyWorkspace

open EmptyWorkspace in
/-- Two clients update the version of a file that a third one created: the first one follows the
creation, and the second one is refused. -/
theorem WorkspaceStore.updates_follow_stale :
    (updates.settled.map fun entry => Mutation.outcome entry.2)
        = [.written (js "\"sha256-aGk=\""), .written (js "\"sha256-b2s=\""), .refused 412] ∧
      Follows ((papers.fileMap disk).etagAt papers [fileName (js "a.tex")])
        (successes [fileName (js "a.tex")]
          (updates.settled.map fun entry => (entry.1, Mutation.outcome entry.2))) := by
  have houtcomes : (updates.settled.map fun entry => Mutation.outcome entry.2)
      = [.written (js "\"sha256-aGk=\""), .written (js "\"sha256-b2s=\""), .refused 412] := by
    decide +kernel
  exact ⟨houtcomes, (papers.updates_follow good updates_reachable [fileName (js "a.tex")]).1⟩

end Typr
