import TyprCompanion.Core.FileSystem
import TyprCompanion.Js.Text

/-!
# Running a native process

`runNativeProcess`: the output of a child is captured up to a limit, an abort or too much output stops
the child, and the promise settles when the child fails or closes.

* `NativeRun`, `NativeRun.step` — the variables of a run and the listeners on the child.
* `AbortedFirst`, `OverflowedFirst`, `Undisturbed` — what a run has met before the child ends.
* `Captured`, `Captured.step` — what the listeners keep while the child runs.
* **`NativeRun.run_settles`** — how a run settles, and what it leaves.
-/

namespace Typr

open Core

/-! ## The code -/

/-- `MAX_CAPTURE_BYTES` -/
def MAX_CAPTURE_BYTES : Nat := 1024 * 1024

/-- `NativeProcessError` -/
structure NativeProcessError where
  code : JSString
  message : JSString
  deriving DecidableEq

/-- The error of `stop` -/
def compileTimeout : NativeProcessError :=
  ⟨js "compile-timeout", js "Native compilation exceeded its deadline."⟩

/-- The error of `capture` -/
def compilerOutputLimit : NativeProcessError :=
  ⟨js "compiler-output-limit", js "Native compiler output exceeded 1 MiB."⟩

/-- `NativeProcessResult`, with all its fields -/
structure NativeRunResult where
  exitCode : Option Nat
  signal : Option JSString
  stdout : JSString
  stderr : JSString
  deriving DecidableEq

/-- What a run rejects with: an error of its own, or the one of the child. -/
inductive NativeRejection where
  | failure (e : NativeProcessError)
  | child (message : JSString)
  deriving DecidableEq

inductive NativeSignal where
  | SIGTERM
  | SIGKILL
  deriving DecidableEq

/-- `killTimer`: not set, pending, or fired or cleared. -/
inductive KillTimer where
  | unset
  | pending
  | ended
  deriving DecidableEq

/-- What happens to a run once it has begun. -/
inductive ChildEvent where
  | stdout (chunk : Bytes)
  | stderr (chunk : Bytes)
  | abort
  | killTimer
  | error (message : JSString)
  | close (exitCode : Option Nat) (signal : Option JSString)

/-- The variables of `runNativeProcess`, its listeners, the signals sent to the child, and what the
promise settled with. -/
structure NativeRun where
  stdout : List Bytes
  stderr : List Bytes
  capturedBytes : Nat
  failure : Option NativeProcessError
  killTimer : KillTimer
  abortListener : Bool
  errorListener : Bool
  closeListener : Bool
  signals : List NativeSignal
  settled : Option (Except NativeRejection NativeRunResult)

namespace NativeRun

/-- `signalGroup` -/
def signalGroup (signal : NativeSignal) (s : NativeRun) : NativeRun :=
  { s with signals := s.signals ++ [signal] }

/-- `stop` -/
def stop (immediate : Bool) (s : NativeRun) : NativeRun :=
  let s := if s.failure = none then { s with failure := some compileTimeout } else s
  if immediate = true then s.signalGroup .SIGKILL
  else
    let s := s.signalGroup .SIGTERM
    if s.killTimer = .unset then { s with killTimer := .pending } else s

/-- The part of a chunk `capture` keeps. -/
def keep (s : NativeRun) (chunk : Bytes) : List Bytes :=
  if s.capturedBytes < MAX_CAPTURE_BYTES then [chunk.take (MAX_CAPTURE_BYTES - s.capturedBytes)] else []

/-- `capture`, after the chunk was kept. -/
def count (chunk : Bytes) (s : NativeRun) : NativeRun :=
  let s := { s with capturedBytes := s.capturedBytes + chunk.length }
  if MAX_CAPTURE_BYTES < s.capturedBytes ∧ s.failure = none then
    { s with failure := some compilerOutputLimit }.stop true
  else s

/-- What both last listeners do first. -/
def release (s : NativeRun) : NativeRun :=
  { s with
    abortListener := false
    killTimer := if s.killTimer = .pending then .ended else s.killTimer }

/-- `resolveRun`, `rejectRun`: a promise settles once. -/
def settle (result : Except NativeRejection NativeRunResult) (s : NativeRun) : NativeRun :=
  { s with settled := some (s.settled.getD result) }

/-- The listeners.  Those on `abort`, `error` and `close` run once. -/
def step (s : NativeRun) : ChildEvent → NativeRun
  | .stdout chunk => { s with stdout := s.stdout ++ s.keep chunk }.count chunk
  | .stderr chunk => { s with stderr := s.stderr ++ s.keep chunk }.count chunk
  | .abort => if s.abortListener = true then { s with abortListener := false }.stop false else s
  | .killTimer =>
      if s.killTimer = .pending then { s with killTimer := .ended }.signalGroup .SIGKILL else s
  | .error message =>
      if s.errorListener = true then
        { s with errorListener := false }.release.settle (.error (.child message))
      else s
  | .close exitCode signal =>
      if s.closeListener = true then
        let s := { s with closeListener := false }.release
        match s.failure with
        | some failure => s.settle (.error (.failure failure))
        | none => s.settle (.ok
            { exitCode
              signal
              stdout := JSString.decodeUtf8 s.stdout.flatten
              stderr := JSString.decodeUtf8 s.stderr.flatten })
      else s

/-- A run when the executor of the promise returns; the signal may be aborted already. -/
def start (aborted : Bool) : NativeRun :=
  let s : NativeRun := ⟨[], [], 0, none, .unset, false, true, true, [], none⟩
  if aborted = true then s.stop false else { s with abortListener := true }

/-- A run after some events. -/
def run (aborted : Bool) (events : List ChildEvent) : NativeRun := events.foldl step (start aborted)

theorem run_concat (aborted : Bool) (events : List ChildEvent) (e : ChildEvent) :
    run aborted (events ++ [e]) = (run aborted events).step e := List.foldl_concat ..

theorem run_append (aborted : Bool) (events more : List ChildEvent) :
    run aborted (events ++ more) = more.foldl step (run aborted events) := List.foldl_append ..

end NativeRun

/-! ## What a run meets -/

namespace ChildEvent

/-- The events the promise settles at. -/
def isEnd : ChildEvent → Bool
  | error _ | close _ _ => true
  | _ => false

/-- What an event adds to the standard output. -/
def onStdout : ChildEvent → Bytes
  | stdout chunk => chunk
  | _ => []

/-- What an event adds to the standard error output. -/
def onStderr : ChildEvent → Bytes
  | stderr chunk => chunk
  | _ => []

/-- The bytes an event adds to either. -/
def size (e : ChildEvent) : Nat := e.onStdout.length + e.onStderr.length

end ChildEvent

/-- The bytes of both streams. -/
def outputBytes (events : List ChildEvent) : Nat := (events.map ChildEvent.size).sum

/-- No abort, and no more output than may be captured. -/
def Undisturbed (aborted : Bool) (events : List ChildEvent) : Prop :=
  aborted = false ∧ .abort ∉ events ∧ outputBytes events ≤ MAX_CAPTURE_BYTES

/-- An abort, and up to it no more output than may be captured. -/
def AbortedFirst (aborted : Bool) (events : List ChildEvent) : Prop :=
  aborted = true ∨ ∃ before after, events = before ++ .abort :: after ∧
    outputBytes before ≤ MAX_CAPTURE_BYTES

/-- More output than may be captured, and no abort before it. -/
def OverflowedFirst (aborted : Bool) (events : List ChildEvent) : Prop :=
  aborted = false ∧ ∃ before after, events = before ++ after ∧ .abort ∉ before ∧
    MAX_CAPTURE_BYTES < outputBytes before

section Courses

variable {aborted : Bool} {events : List ChildEvent}

theorem outputBytes_append (events more : List ChildEvent) :
    outputBytes (events ++ more) = outputBytes events + outputBytes more := by
  rw [outputBytes, List.map_append, List.sum_append]
  rfl

theorem outputBytes_singleton (e : ChildEvent) : outputBytes [e] = e.size := List.sum_singleton

theorem AbortedFirst.concat (h : AbortedFirst aborted events) (e : ChildEvent) :
    AbortedFirst aborted (events ++ [e]) := by
  rcases h with h | ⟨before, after, rfl, hle⟩
  · exact .inl h
  · exact .inr ⟨before, after ++ [e], by simp, hle⟩

theorem OverflowedFirst.concat (h : OverflowedFirst aborted events) (e : ChildEvent) :
    OverflowedFirst aborted (events ++ [e]) := by
  obtain ⟨haborted, before, after, rfl, hbefore, hlt⟩ := h
  exact ⟨haborted, before, after ++ [e], by simp, hbefore, hlt⟩

theorem Undisturbed.not_aborted (h : Undisturbed aborted events) : ¬ AbortedFirst aborted events := by
  rintro (haborted | ⟨before, after, rfl, -⟩)
  · rw [h.1] at haborted
    cases haborted
  · exact h.2.1 (by simp)

theorem Undisturbed.not_overflowed (h : Undisturbed aborted events) :
    ¬ OverflowedFirst aborted events := by
  rintro ⟨-, before, after, rfl, -, hlt⟩
  have hle := h.2.2
  rw [outputBytes_append] at hle
  omega

/-- Of an abort and too much output one comes first. -/
theorem AbortedFirst.not_overflowed (h : AbortedFirst aborted events) :
    ¬ OverflowedFirst aborted events := by
  rintro ⟨haborted, before, after, rfl, hbefore, hlt⟩
  rcases h with h | ⟨front, back, heq, hle⟩
  · rw [haborted] at h
    cases h
  · rcases List.append_eq_append_iff.mp heq with ⟨middle, rfl, -⟩ | ⟨middle, rfl, hback⟩
    · rw [outputBytes_append] at hle
      omega
    · cases middle with
      | nil =>
          rw [List.append_nil] at hlt
          omega
      | cons e middle =>
          obtain ⟨rfl, -⟩ := List.cons.inj hback
          exact hbefore (by simp)

end Courses

/-! ## What the listeners keep -/

/-- Which failure a run that met the events has. -/
def FailureOf (aborted : Bool) (events : List ChildEvent) (failure : Option NativeProcessError) :
    Prop :=
  (failure = none ∧ Undisturbed aborted events) ∨
    (failure = some compileTimeout ∧ AbortedFirst aborted events) ∨
    (failure = some compilerOutputLimit ∧ OverflowedFirst aborted events)

/-- What the variables of a run hold after its events. -/
structure Captured (aborted : Bool) (events : List ChildEvent) (s : NativeRun) : Prop where
  counted : s.capturedBytes = outputBytes events
  retained : s.stdout.flatten.length + s.stderr.flatten.length
    = min (outputBytes events) MAX_CAPTURE_BYTES
  complete : outputBytes events ≤ MAX_CAPTURE_BYTES →
    s.stdout.flatten = events.flatMap ChildEvent.onStdout ∧
      s.stderr.flatten = events.flatMap ChildEvent.onStderr

/-- While the child has not ended, the promise is pending and the listeners wait. -/
structure Waiting (aborted : Bool) (events : List ChildEvent) (s : NativeRun) : Prop where
  failure : FailureOf aborted events s.failure
  listening : s.abortListener = true → aborted = false ∧ .abort ∉ events
  heard : s.abortListener = false → aborted = true ∨ .abort ∈ events
  ends : s.errorListener = true ∧ s.closeListener = true
  pending : s.settled = none

/-- Once the promise has settled nothing is left to wait for. -/
structure Done (result : Except NativeRejection NativeRunResult) (s : NativeRun) : Prop where
  settled : s.settled = some result
  listener : s.abortListener = false
  timer : s.killTimer ≠ .pending

section Steps

variable {aborted : Bool} {events : List ChildEvent} {s : NativeRun} {chunk : Bytes}

theorem stop_frame (immediate : Bool) (s : NativeRun) : ∃ timer signals,
    s.stop immediate = { s with
      failure := some (s.failure.getD compileTimeout), killTimer := timer, signals } ∧
    (immediate = true → timer = s.killTimer) := by
  obtain ⟨stdout, stderr, capturedBytes, failure, killTimer, abortListener, errorListener,
    closeListener, signals, settled⟩ := s
  cases immediate
  · refine ⟨if killTimer = .unset then .pending else killTimer, signals ++ [.SIGTERM], ?_, nofun⟩
    cases failure <;> cases killTimer <;> rfl
  · refine ⟨killTimer, signals ++ [.SIGKILL], ?_, fun _ => rfl⟩
    cases failure <;> rfl

/-- What `capture` does with the counter and the failure. -/
theorem count_frame (chunk : Bytes) (s : NativeRun) : ∃ failure signals,
    s.count chunk = { s with capturedBytes := s.capturedBytes + chunk.length, failure, signals } ∧
    ((failure = s.failure ∧
        (s.capturedBytes + chunk.length ≤ MAX_CAPTURE_BYTES ∨ s.failure ≠ none)) ∨
      (failure = some compilerOutputLimit ∧ s.failure = none ∧
        MAX_CAPTURE_BYTES < s.capturedBytes + chunk.length)) := by
  unfold NativeRun.count
  dsimp only
  split
  next hover =>
    obtain ⟨timer, signals, hstop, htimer⟩ := stop_frame true
      { s with capturedBytes := s.capturedBytes + chunk.length, failure := some compilerOutputLimit }
    refine ⟨some compilerOutputLimit, signals, ?_, .inr ⟨rfl, hover.2, hover.1⟩⟩
    rw [hstop, htimer rfl]
    rfl
  next hunder =>
    refine ⟨s.failure, s.signals, rfl, .inl ⟨rfl, ?_⟩⟩
    rw [not_and_or] at hunder
    exact hunder.imp_left Nat.le_of_not_lt

/-- The part of a chunk that is kept. -/
theorem length_keep (s : NativeRun) (chunk : Bytes) :
    (s.keep chunk).flatten.length = min chunk.length (MAX_CAPTURE_BYTES - s.capturedBytes) := by
  rw [NativeRun.keep]
  split
  · rw [List.flatten_singleton, List.length_take, Nat.min_comm]
  · rw [List.flatten_nil, List.length_nil]
    omega

theorem flatten_keep (h : s.capturedBytes + chunk.length ≤ MAX_CAPTURE_BYTES) :
    (s.keep chunk).flatten = chunk := by
  rw [NativeRun.keep]
  split
  · rw [List.flatten_singleton, List.take_of_length_le (by omega)]
  · rw [List.flatten_nil]
    exact (List.eq_nil_of_length_eq_zero (by omega)).symm

/-- An event without output. -/
theorem Captured.silent (h : Captured aborted events s) {e : ChildEvent} {t : NativeRun}
    (hout : e.onStdout = []) (herr : e.onStderr = []) (hstdout : t.stdout = s.stdout)
    (hstderr : t.stderr = s.stderr) (hcounted : t.capturedBytes = s.capturedBytes) :
    Captured aborted (events ++ [e]) t := by
  have hsize : outputBytes (events ++ [e]) = outputBytes events := by
    rw [outputBytes_append, outputBytes_singleton, ChildEvent.size, hout, herr]
    rfl
  refine ⟨by rw [hcounted, hsize, h.counted], by rw [hstdout, hstderr, hsize, h.retained],
    fun hle => ?_⟩
  obtain ⟨hleft, hright⟩ := h.complete (hsize ▸ hle)
  rw [hstdout, hstderr, hleft, hright, List.flatMap_append, List.flatMap_append]
  simp [hout, herr]

/-- A chunk of either stream, and what is kept of it. -/
theorem Captured.output (h : Captured aborted events s) {e : ChildEvent} {t : NativeRun}
    {kept kept' : List Bytes} (hstdout : t.stdout = s.stdout ++ kept)
    (hstderr : t.stderr = s.stderr ++ kept') (hcounted : t.capturedBytes = s.capturedBytes + e.size)
    (hkept : kept.flatten.length + kept'.flatten.length
      = min e.size (MAX_CAPTURE_BYTES - s.capturedBytes))
    (hall : s.capturedBytes + e.size ≤ MAX_CAPTURE_BYTES →
      kept.flatten = e.onStdout ∧ kept'.flatten = e.onStderr) :
    Captured aborted (events ++ [e]) t := by
  have hsize : outputBytes (events ++ [e]) = outputBytes events + e.size := by
    rw [outputBytes_append, outputBytes_singleton]
  have hbefore := h.counted
  refine ⟨by rw [hcounted, hsize, hbefore], ?_, fun hle => ?_⟩
  · have hretained := h.retained
    rw [hstdout, hstderr, List.flatten_append, List.flatten_append, List.length_append,
      List.length_append, hsize]
    omega
  · rw [hsize] at hle
    obtain ⟨hleft, hright⟩ := h.complete (by omega)
    obtain ⟨hout, herr⟩ := hall (by omega)
    rw [hstdout, hstderr, List.flatten_append, List.flatten_append, hleft, hright, hout, herr,
      List.flatMap_append, List.flatMap_append]
    simp

/-- **Every event keeps what is captured.** -/
theorem Captured.step (h : Captured aborted events s) (e : ChildEvent) :
    Captured aborted (events ++ [e]) (s.step e) := by
  cases e with
  | stdout chunk =>
      obtain ⟨failure, signals, heq, -⟩ := count_frame chunk { s with stdout := s.stdout ++ s.keep chunk }
      have hstdout : (s.step (.stdout chunk)).stdout = s.stdout ++ s.keep chunk := by
        rw [NativeRun.step, heq]
      have hstderr : (s.step (.stdout chunk)).stderr = s.stderr ++ [] := by
        rw [NativeRun.step, heq, List.append_nil]
      refine h.output hstdout hstderr ?_ ?_ fun hle => ?_
      · rw [NativeRun.step, heq]
        rfl
      · exact length_keep s chunk
      · exact ⟨flatten_keep hle, rfl⟩
  | stderr chunk =>
      have hsize : (ChildEvent.stderr chunk).size = chunk.length := Nat.zero_add _
      obtain ⟨failure, signals, heq, -⟩ := count_frame chunk { s with stderr := s.stderr ++ s.keep chunk }
      have hstdout : (s.step (.stderr chunk)).stdout = s.stdout ++ [] := by
        rw [NativeRun.step, heq, List.append_nil]
      have hstderr : (s.step (.stderr chunk)).stderr = s.stderr ++ s.keep chunk := by
        rw [NativeRun.step, heq]
      refine h.output hstdout hstderr ?_ ?_ fun hle => ?_
      · rw [NativeRun.step, heq, hsize]
      · rw [List.flatten_nil, List.length_nil, Nat.zero_add, hsize]
        exact length_keep s chunk
      · rw [hsize] at hle
        exact ⟨rfl, flatten_keep hle⟩
  | abort =>
      obtain ⟨timer, signals, heq, -⟩ := stop_frame false { s with abortListener := false }
      refine h.silent rfl rfl ?_ ?_ ?_ <;>
        (rw [NativeRun.step]; split <;> first | rfl | rw [heq])
  | killTimer => refine h.silent rfl rfl ?_ ?_ ?_ <;> (rw [NativeRun.step]; split <;> rfl)
  | error message => refine h.silent rfl rfl ?_ ?_ ?_ <;> (rw [NativeRun.step]; split <;> rfl)
  | close exitCode signal =>
      refine h.silent rfl rfl ?_ ?_ ?_ <;>
        (rw [NativeRun.step]; split <;> first | rfl | (dsimp only; split <;> rfl))

/-- A chunk: too much output is a failure, unless there is one. -/
theorem FailureOf.output (h : FailureOf aborted events s.failure) {e : ChildEvent}
    (he : e ≠ .abort) {failure : Option NativeProcessError} (hcounted : s.capturedBytes = outputBytes events)
    (hcount : (failure = s.failure ∧
        (s.capturedBytes + e.size ≤ MAX_CAPTURE_BYTES ∨ s.failure ≠ none)) ∨
      (failure = some compilerOutputLimit ∧ s.failure = none ∧
        MAX_CAPTURE_BYTES < s.capturedBytes + e.size)) :
    FailureOf aborted (events ++ [e]) failure := by
  have hsize : outputBytes (events ++ [e]) = s.capturedBytes + e.size := by
    rw [outputBytes_append, outputBytes_singleton, hcounted]
  have hmem : ∀ {before : List ChildEvent}, .abort ∉ before → .abort ∉ before ++ [e] := by
    intro before hbefore hmem
    rcases List.mem_append.mp hmem with hmem | hmem
    · exact hbefore hmem
    · exact he (List.mem_singleton.mp hmem).symm
  rcases h with ⟨hnone, haborted, habort, hle⟩ | ⟨hsome, hfirst⟩ | ⟨hsome, hfirst⟩
  · rcases hcount with ⟨rfl, hfits | hne⟩ | ⟨rfl, -, hover⟩
    · exact .inl ⟨hnone, haborted, hmem habort, by omega⟩
    · exact absurd hnone hne
    · exact .inr (.inr ⟨rfl, haborted, events ++ [e], [], by simp, hmem habort, by omega⟩)
  · rcases hcount with ⟨rfl, -⟩ | ⟨-, hnone, -⟩
    · exact .inr (.inl ⟨hsome, hfirst.concat e⟩)
    · rw [hsome] at hnone
      cases hnone
  · rcases hcount with ⟨rfl, -⟩ | ⟨-, hnone, -⟩
    · exact .inr (.inr ⟨hsome, hfirst.concat e⟩)
    · rw [hsome] at hnone
      cases hnone

/-- **Every event but the last keeps the run waiting.** -/
theorem Waiting.step (h : Waiting aborted events s) (hcaptured : Captured aborted events s)
    {e : ChildEvent} (he : e.isEnd = false) : Waiting aborted (events ++ [e]) (s.step e) := by
  cases e with
  | stdout chunk =>
      have hne : ChildEvent.stdout chunk ≠ .abort := nofun
      obtain ⟨failure, signals, heq, hcount⟩ :=
        count_frame chunk { s with stdout := s.stdout ++ s.keep chunk }
      have hfailure : FailureOf aborted (events ++ [.stdout chunk]) failure :=
        h.failure.output hne hcaptured.counted hcount
      rw [NativeRun.step, heq]
      exact ⟨hfailure, by simpa using h.listening, by simpa using h.heard, h.ends, h.pending⟩
  | stderr chunk =>
      have hne : ChildEvent.stderr chunk ≠ .abort := nofun
      have hsize : (ChildEvent.stderr chunk).size = chunk.length := Nat.zero_add _
      obtain ⟨failure, signals, heq, hcount⟩ :=
        count_frame chunk { s with stderr := s.stderr ++ s.keep chunk }
      have hfailure : FailureOf aborted (events ++ [.stderr chunk]) failure :=
        h.failure.output hne hcaptured.counted (by rw [hsize]; exact hcount)
      rw [NativeRun.step, heq]
      exact ⟨hfailure, by simpa using h.listening, by simpa using h.heard, h.ends, h.pending⟩
  | abort =>
      rw [NativeRun.step]
      split
      next hlistening =>
        obtain ⟨haborted, habort⟩ := h.listening hlistening
        obtain ⟨timer, signals, heq, -⟩ := stop_frame false { s with abortListener := false }
        rw [heq]
        refine ⟨?_, nofun, fun _ => .inr (by simp), h.ends, h.pending⟩
        rcases h.failure with ⟨hnone, -, -, hle⟩ | ⟨hsome, hfirst⟩ | ⟨hsome, hfirst⟩
        · exact .inr (.inl ⟨by rw [hnone]; rfl, .inr ⟨events, [], rfl, hle⟩⟩)
        · exact .inr (.inl ⟨by rw [hsome]; rfl, hfirst.concat _⟩)
        · exact .inr (.inr ⟨by rw [hsome]; rfl, hfirst.concat _⟩)
      next hlistening =>
        have hheard := h.heard (Bool.eq_false_iff.mpr hlistening)
        refine ⟨?_, fun hlisten => absurd hlisten hlistening, fun _ => .inr (by simp), h.ends,
          h.pending⟩
        rcases h.failure with ⟨-, haborted, habort, -⟩ | ⟨hsome, hfirst⟩ | ⟨hsome, hfirst⟩
        · rw [haborted] at hheard
          exact (hheard.resolve_left nofun |> habort).elim
        · exact .inr (.inl ⟨hsome, hfirst.concat _⟩)
        · exact .inr (.inr ⟨hsome, hfirst.concat _⟩)
  | killTimer =>
      have hframe : (s.step .killTimer).failure = s.failure ∧
          (s.step .killTimer).abortListener = s.abortListener ∧
          (s.step .killTimer).errorListener = s.errorListener ∧
          (s.step .killTimer).closeListener = s.closeListener ∧
          (s.step .killTimer).settled = s.settled := by
        rw [NativeRun.step]
        split <;> exact ⟨rfl, rfl, rfl, rfl, rfl⟩
      obtain ⟨hfailure, hlistener, herror, hclose, hsettled⟩ := hframe
      refine ⟨?_, ?_, ?_, ⟨by rw [herror, h.ends.1], by rw [hclose, h.ends.2]⟩, by rw [hsettled, h.pending]⟩
      · rw [hfailure]
        rcases h.failure with ⟨hnone, haborted, habort, hle⟩ | ⟨hsome, hfirst⟩ | ⟨hsome, hfirst⟩
        · refine .inl ⟨hnone, haborted, by simpa using habort, ?_⟩
          rwa [outputBytes_append]
        · exact .inr (.inl ⟨hsome, hfirst.concat _⟩)
        · exact .inr (.inr ⟨hsome, hfirst.concat _⟩)
      · simpa [hlistener] using h.listening
      · simpa [hlistener] using h.heard
  | error message => cases he
  | close exitCode signal => cases he

theorem captured_start (aborted : Bool) : Captured aborted [] (NativeRun.start aborted) := by
  refine ⟨?_, ?_, fun _ => ?_⟩ <;> cases aborted <;> first | rfl | exact ⟨rfl, rfl⟩

theorem waiting_start (aborted : Bool) : Waiting aborted [] (NativeRun.start aborted) := by
  cases aborted
  · exact ⟨.inl ⟨rfl, rfl, List.not_mem_nil, Nat.zero_le _⟩, fun _ => ⟨rfl, List.not_mem_nil⟩, nofun,
      ⟨rfl, rfl⟩, rfl⟩
  · exact ⟨.inr (.inl ⟨rfl, .inl rfl⟩), nofun, fun _ => .inl rfl, ⟨rfl, rfl⟩, rfl⟩

/-- **What is captured**, after any events. -/
theorem captured_run (aborted : Bool) (events : List ChildEvent) :
    Captured aborted events (NativeRun.run aborted events) := by
  induction events using List.reverseRecOn with
  | nil => exact captured_start aborted
  | append_singleton events e ih =>
      rw [NativeRun.run_concat]
      exact ih.step e

/-- **A run waits** as long as the child has not ended. -/
theorem waiting_run (aborted : Bool) {events : List ChildEvent}
    (h : ∀ e ∈ events, e.isEnd = false) : Waiting aborted events (NativeRun.run aborted events) := by
  induction events using List.reverseRecOn with
  | nil => exact waiting_start aborted
  | append_singleton events e ih =>
      rw [NativeRun.run_concat]
      have hbefore := ih fun e he => h e (List.mem_append_left _ he)
      exact hbefore.step (captured_run aborted events) (h e (by simp))

/-- Both last listeners leave nothing to wait for. -/
theorem done_settle {t : NativeRun} {result other : Except NativeRejection NativeRunResult}
    {earlier : Option (Except NativeRejection NativeRunResult)} (h : t.settled = earlier)
    (hresult : earlier.getD other = result) : Done result (t.release.settle other) := by
  refine ⟨by rw [← hresult, ← h]; rfl, rfl, ?_⟩
  show (if t.killTimer = .pending then .ended else t.killTimer) ≠ .pending
  split
  · exact nofun
  · assumption

/-- **Whatever happens after the end** changes nothing about it. -/
theorem Done.step {result : Except NativeRejection NativeRunResult} (h : Done result s)
    (e : ChildEvent) : Done result (s.step e) := by
  cases e with
  | stdout chunk =>
      obtain ⟨failure, signals, heq, -⟩ := count_frame chunk { s with stdout := s.stdout ++ s.keep chunk }
      rw [NativeRun.step, heq]
      exact ⟨h.settled, h.listener, h.timer⟩
  | stderr chunk =>
      obtain ⟨failure, signals, heq, -⟩ := count_frame chunk { s with stderr := s.stderr ++ s.keep chunk }
      rw [NativeRun.step, heq]
      exact ⟨h.settled, h.listener, h.timer⟩
  | abort =>
      rw [NativeRun.step, if_neg (by simp [h.listener])]
      exact h
  | killTimer =>
      rw [NativeRun.step, if_neg h.timer]
      exact h
  | error message =>
      rw [NativeRun.step]
      split
      · exact done_settle h.settled rfl
      · exact h
  | close exitCode signal =>
      rw [NativeRun.step]
      split
      · dsimp only
        split
        · exact done_settle h.settled rfl
        · exact done_settle h.settled rfl
      · exact h

theorem Done.steps {result : Except NativeRejection NativeRunResult} (h : Done result s)
    (events : List ChildEvent) : Done result (events.foldl NativeRun.step s) := by
  induction events generalizing s with
  | nil => exact h
  | cons e rest ih => exact ih (h.step e)

end Steps

/-! ## How a run settles -/

/-- The result of a run that met the events and then the end. -/
def SettlesWith (aborted : Bool) (events : List ChildEvent)
    (result : Except NativeRejection NativeRunResult) : ChildEvent → Prop
  | .error message => result = .error (.child message)
  | .close exitCode signal =>
      (Undisturbed aborted events → result = .ok
        { exitCode
          signal
          stdout := JSString.decodeUtf8 (events.flatMap ChildEvent.onStdout)
          stderr := JSString.decodeUtf8 (events.flatMap ChildEvent.onStderr) }) ∧
      (AbortedFirst aborted events → result = .error (.failure compileTimeout)) ∧
      (OverflowedFirst aborted events → result = .error (.failure compilerOutputLimit)) ∧
      (Undisturbed aborted events ∨ AbortedFirst aborted events ∨ OverflowedFirst aborted events)
  | _ => True

/-- The listeners of a waiting run settle the promise when the child ends. -/
theorem Waiting.settles {aborted : Bool} {events : List ChildEvent} {s : NativeRun}
    (h : Waiting aborted events s) (hcaptured : Captured aborted events s) {last : ChildEvent}
    (hlast : last.isEnd = true) :
    ∃ result, SettlesWith aborted events result last ∧ Done result (s.step last) := by
  cases last with
  | error message =>
      refine ⟨_, rfl, ?_⟩
      rw [NativeRun.step, if_pos h.ends.1]
      exact done_settle h.pending rfl
  | close exitCode signal =>
      rw [NativeRun.step, if_pos h.ends.2]
      rcases h.failure with ⟨hfailure, hcourse⟩ | ⟨hfailure, hcourse⟩ | ⟨hfailure, hcourse⟩
      · have hstep : ({ s with closeListener := false }.release).failure = none := hfailure
        obtain ⟨hstdout, hstderr⟩ := hcaptured.complete hcourse.2.2
        dsimp only
        rw [hstep]
        refine ⟨_, ⟨fun _ => ?_, fun hfirst => absurd hfirst hcourse.not_aborted,
          fun hfirst => absurd hfirst hcourse.not_overflowed, .inl hcourse⟩, done_settle h.pending rfl⟩
        rw [← hstdout, ← hstderr]
        rfl
      · have hstep : ({ s with closeListener := false }.release).failure = some compileTimeout := hfailure
        dsimp only
        rw [hstep]
        exact ⟨_, ⟨fun hclean => absurd hcourse hclean.not_aborted, fun _ => rfl,
          fun hfirst => absurd hfirst hcourse.not_overflowed, .inr (.inl hcourse)⟩, done_settle h.pending rfl⟩
      · have hstep : ({ s with closeListener := false }.release).failure
            = some compilerOutputLimit := hfailure
        dsimp only
        rw [hstep]
        exact ⟨_, ⟨fun hclean => absurd hcourse hclean.not_overflowed,
          fun hfirst => absurd hcourse hfirst.not_overflowed, fun _ => rfl, .inr (.inr hcourse)⟩,
          done_settle h.pending rfl⟩
  | _ => cases hlast

/-- **A native run settles once**, when the child fails or closes: with the complete output unless an
abort or too much output came first, and otherwise with the failure that came first or the error of the
child.  It never keeps more than the limit, and once it has settled no listener waits for an abort and no
timer runs, whatever else happens. -/
theorem NativeRun.run_settles (aborted : Bool) (events : List ChildEvent)
    (hevents : ∀ e ∈ events, e.isEnd = false) (last : ChildEvent) (hlast : last.isEnd = true)
    (more : List ChildEvent) :
    (∀ met, (run aborted met).stdout.flatten.length + (run aborted met).stderr.flatten.length
        ≤ MAX_CAPTURE_BYTES) ∧
      (run aborted events).settled = none ∧
      ∃ result, SettlesWith aborted events result last ∧
        Done result (run aborted (events ++ last :: more)) := by
  have hwaiting := waiting_run aborted hevents
  obtain ⟨result, hresult, hdone⟩ := hwaiting.settles (captured_run aborted events) hlast
  refine ⟨fun met => ?_, hwaiting.pending, result, hresult, ?_⟩
  · rw [(captured_run aborted met).retained]
    exact Nat.min_le_right _ _
  · rw [NativeRun.run_append, List.foldl_cons]
    exact hdone.steps more

/-- A run that is aborted while the child writes, and closes. -/
theorem NativeRun.settles_abort :
    (∀ met, (run false met).stdout.flatten.length + (run false met).stderr.flatten.length
        ≤ MAX_CAPTURE_BYTES) ∧
      (run false [.stdout [104], .abort, .stderr [105]]).settled = none ∧
      ∃ result, SettlesWith false [.stdout [104], .abort, .stderr [105]] result
          (.close none (some (js "SIGTERM"))) ∧
        Done result (run false ([.stdout [104], .abort, .stderr [105]] ++
          .close none (some (js "SIGTERM")) :: [.killTimer])) :=
  NativeRun.run_settles false _ (by simp [ChildEvent.isEnd]) _ rfl _

end Typr
