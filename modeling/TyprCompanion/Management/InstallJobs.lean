import TyprCompanion.Core.ReleaseQueue
import TyprCompanion.Core.TransitionSystem
import TyprCompanion.Management.FailedInstalls
import TyprCompanion.Management.ProviderRuns

/-!
# Install jobs side by side

`startInstall` of `providerManager.ts` starts jobs that overlap with each other and with activations.

* `JobProgress`, `JobOp.Due` — how far a job is, and when each of its operations has its turn.
* `ProviderJobs`, `ProviderJobs.step` — the manager with its jobs; one is started, or what it waits for
  is answered.
* `ProviderJob.Kept`, `ProviderJobs.Invariant` — what a job may still do, and what the jobs share.
* **`ProviderJobs.install_exclusive`** — no provider is installed twice at once, and no job goes back.
-/

namespace Typr

open Core

/-! ## The progress of a job -/

/-- The place of a status in the life of a job. -/
def ProviderJobStatus.rank : ProviderJobStatus → Nat
  | queued => 0
  | downloading => 1
  | installing => 2
  | completed | failed => 3

/-- `["completed", "failed"].includes(job.status)` -/
def ProviderJobStatus.isFinished : ProviderJobStatus → Bool
  | completed | failed => true
  | _ => false

/-- The status of a job, and whether the record of its installation was pushed. -/
structure JobProgress where
  status : ProviderJobStatus
  recorded : Bool

/-- The status moves on, and stays once the job is finished. -/
structure JobProgress.Forward (p q : JobProgress) : Prop where
  rank : p.status.rank ≤ q.status.rank
  stays : p.status.isFinished = true → q.status = p.status

namespace JobOp

/-- It is not awaited. -/
def isAssignment : JobOp → Bool
  | setStatus _ | update _ | applyEnvironment => true
  | _ => false

/-- It does not throw. -/
def isCertain : JobOp → Bool
  | setStatus _ | update _ => true
  | _ => false

/-- It removes or replaces the tree at the destination. -/
def replaces : JobOp → Bool
  | removePrevious | renameExtracted => true
  | _ => false

/-- The progress after an operation. -/
def after : JobOp → JobProgress → JobProgress
  | setStatus status, p => { p with status }
  | update _, p => { p with recorded := true }
  | _, p => p

/-- **When an operation has its turn.** -/
def Due (p : JobProgress) : JobOp → Prop
  | mkdirStaging | setStatus .downloading => p.status = .queued
  | download | setStatus .installing => p.status = .downloading
  | setStatus .queued => False
  | setStatus .completed => p.status = .installing ∧ p.recorded = true
  | setStatus .failed => p.status.isFinished = false
  | removeStaging => p.status.isFinished = true
  | _ => p.status = .installing

/-- Any reply may come, except that assignments do not throw. -/
def Exec (op : JobOp) (p : JobProgress) (reply : op.Reply) (q : JobProgress) : Prop :=
  (op.isCertain = true → ∃ a, reply = .ok a) ∧ q = op.after p

end JobOp

/-- A program that settles leaves a finished job. -/
def MayInstall (left : JobProg Unit) (p : JobProgress) : Prop :=
  left.wp JobOp.Exec JobOp.Due (fun _ q => q.status.isFinished = true) p

namespace ManagedProviderDefinition

section Program

variable {p : JobProgress} (definition : ManagedProviderDefinition) (platform : Platform)

theorem wp_await {op : JobOp} {post : Except JSString op.Result → JobProgress → Prop} :
    (await op).wp JobOp.Exec JobOp.Due post p ↔
      op.Due p ∧ ∀ reply q, op.Exec p reply q → post reply q := by
  simp only [await, Prog.wp_perform, Prog.wp_ofExcept]

/-- An operation that leaves the progress alone. -/
theorem wp_await_bind {op : JobOp} {β : Type} {f : op.Result → JobProg β}
    {post : Except JSString β → JobProgress → Prop} (hdue : op.Due p) (hsame : op.after p = p)
    (herror : ∀ message, post (.error message) p)
    (hok : ∀ a, (f a).wp JobOp.Exec JobOp.Due post p) :
    (await op >>= f).wp JobOp.Exec JobOp.Due post p := by
  rw [Prog.wp_bind, wp_await]
  refine ⟨hdue, ?_⟩
  rintro reply q ⟨-, rfl⟩
  rw [hsame]
  cases reply with
  | ok a => exact hok a
  | error message => exact herror message

/-- An operation that does not throw. -/
theorem wp_certain_bind {op : JobOp} {β : Type} {f : op.Result → JobProg β}
    {post : Except JSString β → JobProgress → Prop} (hdue : op.Due p) (hcertain : op.isCertain = true)
    (hok : ∀ a, (f a).wp JobOp.Exec JobOp.Due post (op.after p)) :
    (await op >>= f).wp JobOp.Exec JobOp.Due post p := by
  rw [Prog.wp_bind, wp_await]
  refine ⟨hdue, ?_⟩
  rintro reply q ⟨hnothrow, rfl⟩
  obtain ⟨a, rfl⟩ := hnothrow hcertain
  exact hok a

/-- What the first half of the `try` leaves. -/
def Prepared : Except JSString (List (JSString × JSString)) → JobProgress → Prop
  | .ok _, p => p.status = .installing
  | .error _, p => p.status.isFinished = false

/-- What the `try` leaves. -/
def Attempted : Except JSString Unit → JobProgress → Prop
  | .ok _, p => p.status.isFinished = true
  | .error _, p => p.status.isFinished = false

theorem wp_discover (hp : p.status = .installing) (names : List JSString)
    (executables : List (JSString × JSString)) :
    (definition.discover platform names executables).wp JobOp.Exec JobOp.Due Prepared p := by
  have herror : ∀ message, Prepared (.error message) p := fun message => by
    rw [Prepared, hp]
    rfl
  induction names generalizing executables with
  | nil => exact hp
  | cons name rest ih =>
      rw [discover]
      refine wp_await_bind hp rfl herror fun found => ?_
      cases found with
      | none => exact herror _
      | some path =>
          have hkept : (do
              let value ← Prog.ofExcept (safeRelative platform path)
              definition.discover platform rest (setProperty name value executables)).wp
                JobOp.Exec JobOp.Due Prepared p := by
            rw [Prog.wp_bind, Prog.wp_ofExcept]
            cases safeRelative platform path with
            | ok value => exact ih _
            | error message => exact herror message
          dsimp only
          split
          · exact wp_await_bind hp rfl herror fun _ => hkept
          · exact hkept

theorem wp_prepare : (definition.prepare platform).wp JobOp.Exec JobOp.Due Prepared ⟨.queued, false⟩ := by
  rw [prepare]
  refine wp_await_bind rfl rfl (fun _ => rfl) fun _ => ?_
  refine wp_certain_bind rfl rfl fun _ => ?_
  refine wp_await_bind rfl rfl (fun _ => rfl) fun _ => ?_
  refine wp_certain_bind rfl rfl fun _ => ?_
  refine wp_await_bind rfl rfl (fun _ => rfl) fun _ => ?_
  refine wp_await_bind rfl rfl (fun _ => rfl) fun _ => ?_
  rw [Prog.wp_bind]
  refine Prog.wp_post (fun r q hq => ?_) (definition.wp_discover platform rfl _ _)
  cases r with
  | error message => exact hq
  | ok executables =>
      refine wp_await_bind hq rfl (fun _ => ?_) fun _ => hq
      rw [Prepared, show q.status = .installing from hq]
      rfl

theorem wp_replace (hp : p.status = .installing) (executables : List (JSString × JSString)) :
    (replace executables).wp JobOp.Exec JobOp.Due Attempted p := by
  have herror : ∀ message, Attempted (.error message) p := fun message => by
    rw [Attempted, hp]
    rfl
  rw [replace]
  refine wp_await_bind hp rfl herror fun _ => ?_
  refine wp_await_bind hp rfl herror fun _ => ?_
  refine wp_certain_bind hp rfl fun _ => ?_
  refine wp_await_bind hp rfl herror fun _ => ?_
  refine wp_await_bind hp rfl herror fun _ => ?_
  refine wp_await_bind hp rfl herror fun _ => ?_
  refine wp_await_bind hp rfl herror fun _ => ?_
  refine wp_await.mpr ⟨⟨hp, rfl⟩, ?_⟩
  rintro reply q ⟨hnothrow, rfl⟩
  obtain ⟨a, rfl⟩ := hnothrow rfl
  rfl

/-- **What a job does**, in its order: it installs, and the last operation is the removal of the staging
directory of a finished job. -/
theorem mayInstall : MayInstall (definition.runInstall platform) ⟨.queued, false⟩ := by
  rw [MayInstall, runInstall, Prog.wp_bind, Prog.wp_tryCatch, Prog.wp_bind]
  refine Prog.wp_post (fun r q hq => ?_) (definition.wp_prepare platform)
  have hremove : ∀ q : JobProgress, q.status.isFinished = true →
      ((await .removeStaging).tryCatch fun _ => pure ()).wp JobOp.Exec JobOp.Due
        (fun _ q => q.status.isFinished = true) q := by
    intro q hfinished
    rw [Prog.wp_tryCatch, wp_await]
    refine ⟨hfinished, ?_⟩
    rintro reply t ⟨-, rfl⟩
    cases reply <;> exact hfinished
  have hfail : ∀ (message : JSString) (q : JobProgress), q.status.isFinished = false →
      Prog.afterTry JobOp.Exec JobOp.Due (Prog.afterBind JobOp.Exec JobOp.Due
        (fun _ q => q.status.isFinished = true)
        fun _ => (await .removeStaging).tryCatch fun _ => pure ())
        (fun _ => await (.setStatus .failed)) (.error message) q := by
    intro message q hunfinished
    rw [Prog.afterTry_error, wp_await]
    refine ⟨hunfinished, ?_⟩
    rintro reply t ⟨hnothrow, rfl⟩
    obtain ⟨a, rfl⟩ := hnothrow rfl
    exact hremove _ rfl
  cases r with
  | error message => exact hfail message q hq
  | ok executables =>
      refine Prog.wp_post (fun r t ht => ?_) (wp_replace hq executables)
      cases r with
      | error message => exact hfail message t ht
      | ok a => exact hremove t ht

end Program

end ManagedProviderDefinition

/-! ## The jobs of a manager -/

/-- What the jobs share. -/
structure ProviderWorld where
  state : ProviderState
  environment : Environment

/-- A job, and what is left of it to do. -/
structure ProviderJob where
  definition : ManagedProviderDefinition
  progress : JobProgress
  left : JobProg Unit

namespace ProviderJob

/-- The operation the job waits for. -/
def pending (job : ProviderJob) : Option JobOp :=
  match job.left with
  | .perform op _ => some op
  | _ => none

def finished (job : ProviderJob) : Bool := job.progress.status.isFinished

/-- It works on the tree at the destination of its provider. -/
def replaces (job : ProviderJob) : Bool := job.pending.any JobOp.replaces

/-- The promise in `jobPromises` is settled, and `waitForJob` returns. -/
def settled (job : ProviderJob) : Bool := job.left.isDone

end ProviderJob

/-- A manager with the jobs it started, in this order, and the calls of `activateTexProvider` whose
`persist` did not settle. -/
structure ProviderJobs extends ProviderWorld where
  jobs : List ProviderJob
  activating : Nat

inductive ProviderCall where
  | startInstall (providerId : JSString)
  | activateTexProvider (providerId : JSString)
  /-- `persist` of an activation settles. -/
  | activated (written : Bool)
  /-- What a job waits for is answered; `now` is the clock. -/
  | answer (job now : Nat) (reply : (op : JobOp) → op.Reply)

namespace ProviderJobs

variable (options : ProviderOptions) (target : JSString) (baseline : Environment)

/-- An operation that is not awaited: its reply, and what it changes. -/
def assign (now : Nat) (definition : ManagedProviderDefinition) :
    (op : JobOp) → ProviderWorld → Option (op.Reply × ProviderWorld)
  | .setStatus _, w => some (.ok (), w)
  | .update executables, w =>
      some (.ok (), { w with state := definition.recorded executables now w.state })
  | .applyEnvironment, w =>
      let applied := options.applyEnvironment baseline w.state w.environment
      some (applied.2, { w with environment := applied.1 })
  | _, _ => none

/-- A job runs up to its next `await`. -/
def resume (now : Nat) (definition : ManagedProviderDefinition) :
    JobProg Unit → ProviderWorld → JobProgress → ProviderWorld × ProviderJob
  | .perform op next, w, p => match assign options baseline now definition op w with
      | some (reply, u) => resume now definition (next reply) u (op.after p)
      | none => (w, ⟨definition, p, .perform op next⟩)
  | left, w, p => (w, ⟨definition, p, left⟩)

/-- The checks of `startInstall`; `target` are the platform and the architecture as its message names
them. -/
def startInstall (providerId : JSString) (s : ProviderJobs) :
    Except ProviderManagerError ManagedProviderDefinition := do
  let definition ← requireDefinition options.catalog providerId
  if options.hasAsset providerId = false then
    throw ⟨409, js "provider-platform-unsupported",
      definition.name ++ js " is not available for " ++ target ++ js "."⟩
  else if s.jobs.any (fun job => job.definition.id == providerId && !job.finished) = true then
    throw ⟨409, js "provider-install-running", definition.name ++ js " is already being installed."⟩
  else return definition

def step (s : ProviderJobs) : ProviderCall → Option ProviderJobs
  | .startInstall providerId => match s.startInstall options target providerId with
      | .error _ => some s
      | .ok definition => some
          { s with jobs := s.jobs ++
              [⟨definition, ⟨.queued, false⟩, definition.runInstall options.host.platform⟩] }
  | .activateTexProvider providerId => match activateTexProvider options.catalog providerId s.state with
      | .error _ => some s
      | .ok state => some { s with state, activating := s.activating + 1 }
  | .activated written =>
      if s.activating = 0 then none
      else some
        { s with
          activating := s.activating - 1
          environment :=
            if written = true then (options.applyEnvironment baseline s.state s.environment).1
            else s.environment }
  | .answer index now reply => match s.jobs[index]? with
      | none => none
      | some job => match job.left with
          | .perform op next =>
              let resumed := resume options baseline now job.definition (next (reply op))
                s.toProviderWorld job.progress
              some { s with toProviderWorld := resumed.1, jobs := s.jobs.set index resumed.2 }
          | _ => none

/-- The runs of a manager that was opened. -/
def system (w : ProviderWorld) : System ProviderJobs ProviderCall :=
  ⟨⟨w, [], 0⟩, step options target baseline⟩

/-- No job goes back, and a finished one stays as it is. -/
def Forward (s t : ProviderJobs) : Prop :=
  ∀ (i : Nat) (a : ProviderJob), s.jobs[i]? = some a →
    ∃ b : ProviderJob, t.jobs[i]? = some b ∧ b.definition = a.definition ∧ a.progress.Forward b.progress

end ProviderJobs

/-! ## Records of installations -/

/-- The provider has one record, of the version that was installed. -/
def ProviderState.Records (state : ProviderState) (definition : ManagedProviderDefinition) : Prop :=
  ∃ record, state.installed.filter (fun record => record.id == definition.id) = [record] ∧
    record.version = definition.version

section Records

variable {definition other : ManagedProviderDefinition} {state : ProviderState}
  {executables : List (JSString × JSString)} {now : Nat}

/-- **A push** leaves one record of its provider. -/
theorem records_recorded : (definition.recorded executables now state).Records definition := by
  have hothers : (state.installed.filter fun record => record.id != definition.id).filter
      (fun record => record.id == definition.id) = [] := by
    rw [List.filter_filter, List.filter_eq_nil_iff]
    intro record _ hboth
    simp only [Bool.and_eq_true, beq_iff_eq, bne_iff_ne, ne_eq] at hboth
    exact hboth.2 hboth.1
  refine ⟨⟨definition.id, definition.version, toISOString now, executables⟩, ?_, rfl⟩
  rw [ManagedProviderDefinition.recorded, List.filter_append, hothers, List.nil_append,
    List.filter_cons_of_pos (by simp), List.filter_nil]

/-- It leaves the records of the other providers. -/
theorem ProviderState.Records.recorded (h : state.Records other)
    (hsame : definition.id = other.id → definition = other) :
    (definition.recorded executables now state).Records other := by
  by_cases hid : definition.id = other.id
  · rw [← hsame hid]
    exact records_recorded
  · obtain ⟨record, hrecord, hversion⟩ := h
    refine ⟨record, ?_, hversion⟩
    have hkept : (state.installed.filter fun record => record.id != definition.id).filter
        (fun record => record.id == other.id)
          = state.installed.filter fun record => record.id == other.id := by
      rw [List.filter_filter]
      refine List.filter_congr fun record _ => ?_
      by_cases hother : record.id = other.id
      · simp [hother, Ne.symm hid]
      · simp [hother]
    rw [ManagedProviderDefinition.recorded, List.filter_append, hkept, hrecord,
      List.filter_cons_of_neg (by simpa using hid), List.filter_nil, List.append_nil]

/-- An activation leaves the records alone. -/
theorem installed_activate {catalog : List ManagedProviderDefinition} {providerId : JSString}
    {t : ProviderState} (h : activateTexProvider catalog providerId state = .ok t) :
    t.installed = state.installed := by
  rw [activateTexProvider] at h
  cases hdefinition : requireDefinition catalog providerId with
  | error e =>
      rw [hdefinition] at h
      cases h
  | ok definition =>
      rw [hdefinition] at h
      dsimp only [bind, Except.bind] at h
      split at h
      · cases h
      split at h
      · cases h
        rfl
      split at h
      · cases h
        rfl
      · cases h

end Records

/-! ## The steps of a job -/

section Steps

variable {options : ProviderOptions} {target : JSString} {baseline : Environment} {now : Nat}
  {definition : ManagedProviderDefinition} {p q r : JobProgress} {w : ProviderWorld}

theorem JobProgress.Forward.refl (p : JobProgress) : p.Forward p := ⟨Nat.le_refl _, fun _ => rfl⟩

theorem JobProgress.Forward.trans (h : p.Forward q) (h' : q.Forward r) : p.Forward r where
  rank := Nat.le_trans h.rank h'.rank
  stays hfinished := by
    have hsame := h.stays hfinished
    rw [← hsame]
    exact h'.stays (by rw [hsame]; exact hfinished)

/-- **An operation that has its turn** does not lead back. -/
theorem JobOp.Due.forward {op : JobOp} (h : op.Due p) : p.Forward (op.after p) := by
  obtain ⟨status, recorded⟩ := p
  cases op with
  | setStatus next =>
      cases next with
      | queued => cases h
      | downloading =>
          obtain rfl : status = .queued := h
          exact ⟨Nat.zero_le _, fun hfinished => by cases hfinished⟩
      | installing =>
          obtain rfl : status = .downloading := h
          exact ⟨Nat.le_succ _, fun hfinished => by cases hfinished⟩
      | completed =>
          obtain rfl : status = .installing := h.1
          exact ⟨Nat.le_succ _, fun hfinished => by cases hfinished⟩
      | failed =>
          have hunfinished : status.isFinished = false := h
          refine ⟨?_, fun hfinished => ?_⟩
          · cases status <;> exact Nat.le_of_ble_eq_true rfl
          · rw [hunfinished] at hfinished
            cases hfinished
  | _ => exact ⟨Nat.le_refl _, fun _ => rfl⟩

/-- An operation that is awaited leaves the progress alone. -/
theorem after_of_awaited {op : JobOp} (h : op.isAssignment = false) : op.after p = p := by
  cases op <;> first
    | rfl
    | cases h

theorem JobOp.isAssignment_of_isCertain {op : JobOp} (h : op.isCertain = true) :
    op.isAssignment = true := by
  cases op <;> first
    | rfl
    | cases h

/-- A completed job pushed its record. -/
def JobProgress.Complete (p : JobProgress) : Prop := p.status = .completed → p.recorded = true

theorem JobOp.Due.complete {op : JobOp} (h : op.Due p) (hp : p.Complete) : (op.after p).Complete := by
  cases op with
  | setStatus next =>
      cases next with
      | completed => exact fun _ => h.2
      | _ => exact fun hcompleted => by cases hcompleted
  | update executables => exact fun _ => rfl
  | _ => exact hp

/-- What a job may still do, and that it is suspended. -/
structure ProviderJob.Kept (job : ProviderJob) : Prop where
  may : MayInstall job.left job.progress
  awaits : ∀ op, job.pending = some op → op.isAssignment = false
  complete : job.progress.Complete

theorem ProviderJob.Kept.finished_of_settled {job : ProviderJob} (h : job.Kept)
    (hsettled : job.settled = true) : job.finished = true := by
  have hmay := h.may
  rw [ProviderJob.settled] at hsettled
  cases hleft : job.left with
  | pure a | throw e =>
      rw [hleft] at hmay
      exact hmay
  | perform op next =>
      rw [hleft] at hsettled
      cases hsettled

/-- What an assignment does to the records. -/
structure Recording (definition : ManagedProviderDefinition) (w u : ProviderWorld) (p q : JobProgress) :
    Prop where
  own : q.recorded = true → p.recorded = true ∨ u.state.Records definition
  others : ∀ other, (definition.id = other.id → definition = other) → w.state.Records other →
    u.state.Records other

theorem Recording.refl : Recording definition w w p p := ⟨.inl, fun _ _ h => h⟩

theorem Recording.trans {u v : ProviderWorld} (h : Recording definition w u p q)
    (h' : Recording definition u v q r) : Recording definition w v p r where
  own hrecorded := by
    rcases h'.own hrecorded with hearlier | hrecords
    · exact (h.own hearlier).imp_right fun hrecords => h'.others definition (fun _ => rfl) hrecords
    · exact .inr hrecords
  others other hsame hrecords := h'.others other hsame (h.others other hsame hrecords)

namespace ProviderJobs

theorem assign_none {op : JobOp} (h : assign options baseline now definition op w = none) :
    op.isAssignment = false := by
  cases op <;> first
    | rfl
    | cases h

theorem assign_some {op : JobOp} {reply : op.Reply} {u : ProviderWorld}
    (h : assign options baseline now definition op w = some (reply, u)) :
    (op.isCertain = true → ∃ a, reply = .ok a) ∧ Recording definition w u p (op.after p) := by
  cases op <;> cases h
  · exact ⟨fun _ => ⟨(), rfl⟩, fun _ => .inr records_recorded, fun _ hsame h => h.recorded hsame⟩
  · exact ⟨fun hcertain => (by cases hcertain), .inl, fun _ _ h => h⟩
  · exact ⟨fun _ => ⟨(), rfl⟩, .inl, fun _ _ h => h⟩

/-- **A job that runs up to its next `await`.** -/
structure Resumed (definition : ManagedProviderDefinition) (w : ProviderWorld) (p : JobProgress)
    (r : ProviderWorld × ProviderJob) : Prop where
  same : r.2.definition = definition
  kept : r.2.Kept
  forward : p.Forward r.2.progress
  recording : Recording definition w r.1 p r.2.progress

theorem resumed {left : JobProg Unit} (h : MayInstall left p) (hp : p.Complete) :
    Resumed definition w p (resume options baseline now definition left w p) := by
  induction left generalizing w p with
  | pure a | throw e => exact ⟨rfl, ⟨h, fun op hop => (by cases hop), hp⟩, .refl p, .refl⟩
  | perform op next ih =>
      rw [resume]
      split
      next reply u hassign =>
        obtain ⟨hcertain, hrecording⟩ := assign_some (p := p) hassign
        have hrest := ih reply (w := u) (h.2 reply _ ⟨hcertain, rfl⟩) (h.1.complete hp)
        exact ⟨hrest.same, hrest.kept, h.1.forward.trans hrest.forward,
          hrecording.trans hrest.recording⟩
      next hassign =>
        refine ⟨rfl, ⟨h, fun op' hop => ?_, hp⟩, .refl p, .refl⟩
        obtain rfl : op = op' := Option.some.inj hop
        exact assign_none hassign

/-! ## The steps of the manager -/

/-- **What the jobs share**: each does what it may, its definition is that of the catalog, what it
recorded is there, and no two of them install one provider. -/
structure Invariant (options : ProviderOptions) (s : ProviderJobs) : Prop where
  kept : ∀ job ∈ s.jobs, job.Kept
  defined : ∀ job ∈ s.jobs, requireDefinition options.catalog job.definition.id = .ok job.definition
  recorded : ∀ job ∈ s.jobs, job.progress.recorded = true → s.state.Records job.definition
  single : ∀ (i j : Nat) (a b : ProviderJob), s.jobs[i]? = some a → s.jobs[j]? = some b →
    a.definition.id = b.definition.id → a.finished = false → b.finished = false → i = j

variable {s t : ProviderJobs}

theorem Forward.of_jobs (h : t.jobs = s.jobs) : s.Forward t := by
  intro i a ha
  exact ⟨a, by rw [h, ha], rfl, .refl _⟩

/-- Jobs of one provider have one definition. -/
theorem Invariant.same (h : Invariant options s) {a b : ProviderJob} (ha : a ∈ s.jobs) (hb : b ∈ s.jobs)
    (hid : a.definition.id = b.definition.id) : a.definition = b.definition := by
  have hdefinition := h.defined a ha
  rw [hid, h.defined b hb] at hdefinition
  exact (Except.ok.inj hdefinition).symm

/-- What `startInstall` accepts. -/
theorem startInstall_ok {providerId : JSString} (h : s.startInstall options target providerId
    = .ok definition) : requireDefinition options.catalog providerId = .ok definition ∧
      ∀ job ∈ s.jobs, job.definition.id = providerId → job.finished = true := by
  rw [startInstall] at h
  cases hdefinition : requireDefinition options.catalog providerId with
  | error e =>
      rw [hdefinition] at h
      cases h
  | ok found =>
      rw [hdefinition] at h
      dsimp only [bind, Except.bind] at h
      split at h
      · cases h
      split at h
      · cases h
      next hidle =>
        cases h
        refine ⟨rfl, fun job hjob hid => ?_⟩
        by_contra hunfinished
        refine hidle (List.any_eq_true.mpr ⟨job, hjob, ?_⟩)
        simp [hid, Bool.eq_false_iff.mpr hunfinished]

/-- **A start** adds a job of a provider that is not being installed. -/
theorem Invariant.started (h : Invariant options s) {providerId : JSString}
    (hstart : s.startInstall options target providerId = .ok definition) :
    Invariant options { s with jobs := s.jobs ++
      [⟨definition, ⟨.queued, false⟩, definition.runInstall options.host.platform⟩] } := by
  obtain ⟨hdefinition, hidle⟩ := startInstall_ok hstart
  have hid : definition.id = providerId := (ProviderManager.requireDefinition_ok hdefinition).2
  have hlast : ∀ (i : Nat) (a : ProviderJob), (s.jobs ++
      [⟨definition, ⟨.queued, false⟩, definition.runInstall options.host.platform⟩])[i]? = some a →
      a.finished = false → a.definition.id = providerId → i = s.jobs.length := by
    intro i a ha hunfinished hprovider
    by_contra hne
    rcases Nat.lt_or_ge i s.jobs.length with hlt | hge
    · rw [List.getElem?_append_left hlt] at ha
      rw [hidle a (List.mem_of_getElem? ha) hprovider] at hunfinished
      cases hunfinished
    · rw [List.getElem?_append_right hge, List.getElem?_singleton,
        if_neg (Nat.sub_ne_zero_of_lt (by omega))] at ha
      cases ha
  refine ⟨?_, ?_, ?_, ?_⟩
  · refine List.forall_mem_append.mpr ⟨h.kept, List.forall_mem_singleton.mpr ⟨?_, ?_, ?_⟩⟩
    · exact definition.mayInstall options.host.platform
    · intro op hop
      obtain rfl : JobOp.mkdirStaging = op := Option.some.inj hop
      rfl
    · exact fun hcompleted => by cases hcompleted
  · refine List.forall_mem_append.mpr ⟨h.defined, List.forall_mem_singleton.mpr ?_⟩
    rw [hid]
    exact hdefinition
  · refine List.forall_mem_append.mpr ⟨h.recorded, List.forall_mem_singleton.mpr ?_⟩
    exact fun hrecorded => by cases hrecorded
  · intro i j a b ha hb hsame hunfinished hunfinished'
    by_cases hprovider : a.definition.id = providerId
    · rw [hlast i a ha hunfinished hprovider,
        hlast j b hb hunfinished' (hsame.symm.trans hprovider)]
    · have hearlier : ∀ (k : Nat) (c : ProviderJob), (s.jobs ++
          [⟨definition, ⟨.queued, false⟩, definition.runInstall options.host.platform⟩])[k]? = some c →
          c.definition.id ≠ providerId → s.jobs[k]? = some c := by
        intro k c hc hother
        rcases Nat.lt_or_ge k s.jobs.length with hlt | hge
        · rwa [List.getElem?_append_left hlt] at hc
        · rw [List.getElem?_append_right hge, List.getElem?_singleton] at hc
          split at hc
          · cases hc
            exact absurd hid hother
          · cases hc
      exact h.single i j a b (hearlier i a ha hprovider)
        (hearlier j b hb fun heq => hprovider (hsame.trans heq)) hsame hunfinished hunfinished'

/-- **A job that goes on** stays ahead of itself, and leaves the others alone. -/
theorem Invariant.answered (h : Invariant options s) {index : Nat} {job : ProviderJob}
    {r : ProviderWorld × ProviderJob} (hjob : s.jobs[index]? = some job)
    (hr : Resumed job.definition s.toProviderWorld job.progress r) :
    Invariant options { s with toProviderWorld := r.1, jobs := s.jobs.set index r.2 } := by
  have hmem : job ∈ s.jobs := List.mem_of_getElem? hjob
  have hset : ∀ (i : Nat) (a : ProviderJob), (s.jobs.set index r.2)[i]? = some a →
      (i = index ∧ a = r.2) ∨ (i ≠ index ∧ s.jobs[i]? = some a) := by
    intro i a ha
    rw [List.getElem?_set] at ha
    split at ha
    next heq =>
      split at ha
      · exact .inl ⟨heq.symm, (Option.some.inj ha).symm⟩
      · cases ha
    next hne => exact .inr ⟨Ne.symm hne, ha⟩
  -- each job is one of before that was not finished if it is not
  have hbefore : ∀ (i : Nat) (a : ProviderJob), (s.jobs.set index r.2)[i]? = some a →
      ∃ b, s.jobs[i]? = some b ∧ b.definition = a.definition ∧
        (a.finished = false → b.finished = false) := by
    intro i a ha
    rcases hset i a ha with ⟨rfl, rfl⟩ | ⟨-, ha⟩
    · refine ⟨job, hjob, hr.same.symm, fun hunfinished => ?_⟩
      refine Bool.eq_false_iff.mpr fun hfinished => ?_
      rw [ProviderJob.finished, hr.forward.stays hfinished] at hunfinished
      exact Bool.false_ne_true (hunfinished.symm.trans hfinished)
    · exact ⟨a, ha, rfl, id⟩
  have hothers : ∀ a ∈ s.jobs, s.state.Records a.definition → r.1.state.Records a.definition :=
    fun a ha hrecords => hr.recording.others _ (h.same hmem ha) hrecords
  refine ⟨?_, ?_, ?_, ?_⟩
  · intro a ha
    rcases List.mem_or_eq_of_mem_set ha with ha | rfl
    · exact h.kept a ha
    · exact hr.kept
  · intro a ha
    rcases List.mem_or_eq_of_mem_set ha with ha | rfl
    · exact h.defined a ha
    · rw [hr.same]
      exact h.defined job hmem
  · intro a ha hrecorded
    rcases List.mem_or_eq_of_mem_set ha with ha | rfl
    · exact hothers a ha (h.recorded a ha hrecorded)
    · rw [hr.same]
      rcases hr.recording.own hrecorded with hearlier | hrecords
      · exact hothers job hmem (h.recorded job hmem hearlier)
      · exact hrecords
  · intro i j a b ha hb hsame hunfinished hunfinished'
    obtain ⟨a', ha', hdefinition, hback⟩ := hbefore i a ha
    obtain ⟨b', hb', hdefinition', hback'⟩ := hbefore j b hb
    exact h.single i j a' b' ha' hb' (by rw [hdefinition, hdefinition', hsame]) (hback hunfinished)
      (hback' hunfinished')

/-- **Every step** keeps the invariant, and leads no job back. -/
theorem Invariant.step {call : ProviderCall} (h : Invariant options s)
    (hstep : s.step options target baseline call = some t) : Invariant options t ∧ s.Forward t := by
  cases call with
  | startInstall providerId =>
      rw [ProviderJobs.step] at hstep
      cases hstart : s.startInstall options target providerId with
      | error e =>
          rw [hstart] at hstep
          cases hstep
          exact ⟨h, .of_jobs rfl⟩
      | ok definition =>
          rw [hstart] at hstep
          cases hstep
          refine ⟨h.started hstart, fun i a ha => ⟨a, ?_, rfl, .refl _⟩⟩
          have hlt : i < s.jobs.length := (List.getElem?_eq_some_iff.mp ha).1
          rw [List.getElem?_append_left hlt]
          exact ha
  | activateTexProvider providerId =>
      rw [ProviderJobs.step] at hstep
      cases hactivate : activateTexProvider options.catalog providerId s.state with
      | error e =>
          rw [hactivate] at hstep
          cases hstep
          exact ⟨h, .of_jobs rfl⟩
      | ok state =>
          rw [hactivate] at hstep
          cases hstep
          have hinstalled := installed_activate hactivate
          refine ⟨⟨h.kept, h.defined, fun job hjob hrecorded => ?_, h.single⟩, .of_jobs rfl⟩
          obtain ⟨record, hrecord, hversion⟩ := h.recorded job hjob hrecorded
          exact ⟨record, by rw [hinstalled, hrecord], hversion⟩
  | activated written =>
      rw [ProviderJobs.step] at hstep
      split at hstep
      · cases hstep
      · cases hstep
        exact ⟨⟨h.kept, h.defined, h.recorded, h.single⟩, .of_jobs rfl⟩
  | answer index now reply =>
      rw [ProviderJobs.step] at hstep
      split at hstep
      · cases hstep
      next job hjob =>
        split at hstep
        next op next hleft =>
          cases hstep
          have hkept := h.kept job (List.mem_of_getElem? hjob)
          have hawaited : op.isAssignment = false := hkept.awaits op (by rw [ProviderJob.pending, hleft])
          have hmay : MayInstall (next (reply op)) job.progress := by
            have hleads := hkept.may
            rw [hleft] at hleads
            refine hleads.2 (reply op) job.progress ⟨fun hcertain => ?_, (after_of_awaited hawaited).symm⟩
            rw [JobOp.isAssignment_of_isCertain hcertain] at hawaited
            cases hawaited
          have hr : Resumed job.definition s.toProviderWorld job.progress
              (resume options baseline now job.definition (next (reply op)) s.toProviderWorld
                job.progress) := resumed hmay hkept.complete
          refine ⟨h.answered hjob hr, fun i a ha => ?_⟩
          rw [List.getElem?_set]
          split
          next heq =>
            obtain rfl : job = a := Option.some.inj (hjob.symm.trans (heq ▸ ha))
            rw [if_pos (List.getElem?_eq_some_iff.mp hjob).1]
            exact ⟨_, rfl, hr.same, hr.forward⟩
          next => exact ⟨a, ha, rfl, .refl _⟩
        next => cases hstep

end ProviderJobs

end Steps

/-! ## Runs -/

namespace ProviderJobs

variable (options : ProviderOptions) (target : JSString) (baseline : Environment)

theorem invariant_of_reachable (w : ProviderWorld) {s : ProviderJobs}
    (h : (system options target baseline w).Reachable (fun _ _ => True) s) : Invariant options s := by
  refine h.invariant (I := Invariant options) ⟨?_, ?_, ?_, ?_⟩ fun s call t _ _ hs hstep =>
    (hs.step hstep).1
  · exact List.forall_mem_nil _
  · exact List.forall_mem_nil _
  · exact List.forall_mem_nil _
  · exact fun i j a b ha => by cases ha

/-- A job that works on the destination is not finished. -/
theorem unfinished_of_replaces {job : ProviderJob} (h : job.Kept) (hreplaces : job.replaces = true) :
    job.finished = false := by
  have hmay := h.may
  rw [ProviderJob.replaces, ProviderJob.pending] at hreplaces
  split at hreplaces
  next op next hleft =>
    rw [hleft] at hmay
    have hstatus : job.progress.status = .installing := by
      cases op with
      | removePrevious | renameExtracted => exact hmay.1
      | _ => cases hreplaces
    rw [ProviderJob.finished, hstatus]
    rfl
  next => cases hreplaces

/-- **Install jobs side by side.**  In every run, whatever is called and answered, no provider has two
jobs that are not finished, nor two that work on its installation; a job whose promise is settled has
finished, and one that completed left one record of its provider; and no step leads a job back or changes
a finished one. -/
theorem install_exclusive (w : ProviderWorld) (s : ProviderJobs)
    (h : (system options target baseline w).Reachable (fun _ _ => True) s) :
    (∀ (i j : Nat) (a b : ProviderJob), s.jobs[i]? = some a → s.jobs[j]? = some b →
      a.definition.id = b.definition.id →
        (a.finished = false → b.finished = false → i = j) ∧
        (a.replaces = true → b.replaces = true → i = j)) ∧
    (∀ job ∈ s.jobs,
      (job.settled = true → job.finished = true) ∧
      (job.progress.status = .completed → s.state.Records job.definition)) ∧
    ∀ call t, s.step options target baseline call = some t → s.Forward t := by
  have hinvariant := invariant_of_reachable options target baseline w h
  refine ⟨fun i j a b ha hb hid => ⟨hinvariant.single i j a b ha hb hid, fun hreplaces hreplaces' => ?_⟩,
    fun job hjob => ⟨fun hsettled => ?_, fun hcompleted => ?_⟩, fun call t hstep => (hinvariant.step hstep).2⟩
  · exact hinvariant.single i j a b ha hb hid
      (unfinished_of_replaces (hinvariant.kept a (List.mem_of_getElem? ha)) hreplaces)
      (unfinished_of_replaces (hinvariant.kept b (List.mem_of_getElem? hb)) hreplaces')
  · exact (hinvariant.kept job hjob).finished_of_settled hsettled
  · exact hinvariant.recorded job hjob ((hinvariant.kept job hjob).complete hcompleted)

/-- Every operation succeeds, and every executable is found. -/
def succeed : (op : JobOp) → op.Reply
  | .findExecutable name => .ok (some (js "bin/" ++ name))
  | .mkdirStaging | .download | .mkdirExtracted | .extract | .chmod _ | .mkdirParent
  | .removePrevious | .renameExtracted | .update _ | .writeState | .renameState | .applyEnvironment
  | .onChanged | .setStatus _ | .removeStaging => .ok ()

/-- A manager of the curated catalog. -/
def curated : System ProviderJobs ProviderCall :=
  system (curatedOptions (js "linux") (js "x64") (js "/data")) (js "linux/x64") (fun _ => none)
    ⟨⟨none, []⟩, fun _ => none⟩

/-- TinyTeX is asked for twice, and TexLab in between; TinyTeX is about to be moved to its place when
TexLab is done. -/
def twoInstalls : ProviderJobs :=
  curated.after (fun _ _ => true) (
    [.startInstall (js "tinytex"), .startInstall (js "texlab"), .startInstall (js "tinytex")] ++
    List.replicate 12 (.answer 0 0 succeed) ++ List.replicate 12 (.answer 1 0 succeed))

theorem install_exclusive_two :
    twoInstalls.jobs.map (fun job => (job.definition.id, job.progress.status, job.replaces))
      = [(js "tinytex", .installing, true), (js "texlab", .completed, false)] ∧
    ∀ job ∈ twoInstalls.jobs, job.progress.status = .completed →
      twoInstalls.state.Records job.definition := by
  refine ⟨by decide +kernel, fun job hjob => ?_⟩
  have hreach : curated.Reachable (fun _ _ => True) twoInstalls :=
    System.reachable_after (fun _ _ _ => trivial) _
  exact ((install_exclusive _ _ _ _ twoInstalls hreach).2.1 job hjob).2

end ProviderJobs

end Typr
