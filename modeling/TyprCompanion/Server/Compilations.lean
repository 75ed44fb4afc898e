import TyprCompanion.Compile.CompileProject
import TyprCompanion.Core.Pool

/-!
# The compilations of a server

`server.ts`: a compile request is admitted while fewer than `MAX_ACTIVE_COMPILATIONS` compilations are
active; a compilation is active until `compileProject` settles.

* `HostedCompilation` — a compilation with its temporary directory.
* `compileServer` — the compilations of a server as a pool.
* **`compileBody_admits`** — the compile route begins a compilation only into a free slot.
* `CompileResources.wp_compileProject` — what a compilation holds while it runs and when it settles.
* **`compileServer_bounded`** — in every run the active compilations and the native processes are
  bounded, and a compilation that settled holds nothing.
-/

namespace Typr

open Core

/-! ## Admission -/

/-- The compile route begins a compilation only where a slot is free; nothing happens in between. -/
theorem compileBody_admits {p : AccessPlatform} {context : RequestContext} {value : Json}
    {s : ServerState} :
    (compileBody context value).wp (ServerOp.Exec p)
      (fun s op => op = .isPdflatexAvailable → s.activeCompilations < MAX_ACTIVE_COMPILATIONS)
      (fun _ _ => True) s := by
  have hsend : ∀ (status : Nat) (body : ResponseBody) (s : ServerState),
      (sendJson status body).wp (ServerOp.Exec p)
        (fun s op => op = .isPdflatexAvailable → s.activeCompilations < MAX_ACTIVE_COMPILATIONS)
        (fun _ _ => True) s := by
    intro status body s
    refine ⟨fun h => ServerOp.noConfusion h, fun reply t _ => ?_⟩
    rw [Prog.wp_ofExcept]
    trivial
  unfold compileBody
  split
  · exact hsend ..
  · split
    · exact hsend ..
    · split
      · exact hsend ..
      · refine ⟨fun h => ServerOp.noConfusion h, ?_⟩
        rintro active t ⟨rfl, rfl⟩
        show Prog.wp _ _ _ (if _ then _ else _) _
        split
        · exact hsend ..
        · next hfree =>
            refine ⟨fun _ => Nat.lt_of_not_le hfree, fun reply t _ => ?_⟩
            rcases reply with error | available
            · trivial
            · cases available with
              | false => exact hsend ..
              | true =>
                  refine ⟨fun h => ServerOp.noConfusion h, fun reply t _ => ?_⟩
                  rcases reply with error | result
                  · trivial
                  · exact hsend ..

/-! ## What a compilation holds -/

/-- What a compilation holds: the timer of its deadline, the listener on the request, its directory. -/
structure CompileResources where
  timer : Bool
  relay : Relay
  directory : Bool

/-- The directory is made and removed. -/
def CompileOp.directoryAfter (directory : Bool) : (op : CompileOp) → op.Reply → Bool
  | mkdtemp, .ok _ => true
  | rm, .ok _ => false
  | _, _ => directory

def CompileOp.timerAfter (timer : Bool) : CompileOp → Bool
  | setTimeout => true
  | clearTimeout => false
  | _ => timer

/-- The directory could not be removed. -/
def CompileOp.removalFails : (op : CompileOp) → op.Reply → Bool
  | rm, .error _ => true
  | _, _ => false

/-- What works in the directory. -/
def CompileOp.inDirectory : CompileOp → Bool
  | materializeProjectFiles | runNativeProcess .. | runTlmgr .. | collectOutput _ => true
  | _ => false

namespace CompileResources

/-- What is held after an operation. -/
def after (r : CompileResources) (op : CompileOp) (reply : op.Reply) : CompileResources where
  timer := op.timerAfter r.timer
  relay := op.relayAfter r.relay
  directory := op.directoryAfter r.directory reply

/-- The reply to an operation, where no removal fails if `removes`; the timer may have fired before. -/
def Exec (removes : Prop) (op : CompileOp) (r : CompileResources) (reply : op.Reply)
    (t : CompileResources) : Prop :=
  (removes → op.removalFails reply = false) ∧
    ∃ timer, (timer = true → r.timer = true) ∧ t = { r with timer := timer }.after op reply

/-- The TeX tools run in a directory that is there. -/
def Housed (r : CompileResources) (op : CompileOp) : Prop :=
  op.inDirectory = true → r.directory = true

/-- Nothing is held; the directory may be left where it could not be removed. -/
structure Released (removes : Prop) (r : CompileResources) : Prop where
  timer : r.timer = false
  relay : r.relay ≠ .registered
  directory : removes → r.directory = false

/-- What is held between the registration of the listener and the `finally`. -/
structure Underway (r : CompileResources) : Prop where
  relay : r.relay = .registered
  directory : r.directory = true

variable {removes : Prop} {r t : CompileResources}

theorem Underway.exec {op : CompileOp} {reply : op.Reply} (hop : op.Relayed)
    (h : Exec removes op r reply t) (hr : Underway r) : Underway t := by
  obtain ⟨-, timer, -, rfl⟩ := h
  refine ⟨?_, ?_⟩
  · show op.relayAfter r.relay = .registered
    rw [hr.relay]
    exact hop.2
  · show op.directoryAfter r.directory reply = true
    have hdirectory := hr.directory
    have hphase := hop.1
    cases op with
    | mkdtemp => cases hphase
    | rm => cases hphase
    | _ => exact hdirectory

/-- The `finally` gives back what is held. -/
theorem wp_cleanup :
    Compilation.cleanup.wp (Exec removes) Housed (fun _ => Released removes) r := by
  refine ⟨fun h => Bool.noConfusion h, ?_⟩
  rintro - t₁ ⟨-, timer₁, -, rfl⟩
  refine ⟨fun h => Bool.noConfusion h, ?_⟩
  rintro - t₂ ⟨-, timer₂, htimer₂, rfl⟩
  have hoff : timer₂ = false := Bool.eq_false_iff.mpr fun h => Bool.noConfusion (htimer₂ h)
  refine ⟨fun h => Bool.noConfusion h, ?_⟩
  rintro reply t₃ ⟨hremoves, timer₃, htimer₃, rfl⟩
  have hstill : timer₃ = false := Bool.eq_false_iff.mpr fun h =>
    Bool.noConfusion (hoff.symm.trans (htimer₃ h))
  rw [Prog.wp_ofExcept]
  refine ⟨hstill, fun h => Relay.noConfusion h, fun h => ?_⟩
  cases reply with
  | ok u => rfl
  | error e => cases hremoves h

/-- **What a compilation holds**: the tools work in its directory, and when it settles it holds
nothing. -/
theorem wp_compileProject (texts : TexTexts) (enabled : Bool) (engine : JSString) :
    (Compilation.compileProject texts enabled engine).wp (Exec removes) Housed
      (fun _ => Released removes) ⟨false, .unregistered, false⟩ := by
  have hnothing : Released removes ⟨false, .unregistered, false⟩ :=
    ⟨rfl, fun h => Relay.noConfusion h, fun _ => rfl⟩
  have hoff {timer : Bool} (h : timer = true → false = true) : timer = false :=
    Bool.eq_false_iff.mpr fun htimer => Bool.noConfusion (h htimer)
  refine ⟨fun h => Bool.noConfusion h, ?_⟩
  rintro available t₁ ⟨-, timer₁, htimer₁, rfl⟩
  obtain rfl := hoff htimer₁
  rcases available with error | available
  · exact hnothing
  cases available with
  | false => exact hnothing
  | true =>
      refine ⟨fun h => Bool.noConfusion h, ?_⟩
      rintro directory t₂ ⟨-, timer₂, htimer₂, rfl⟩
      obtain rfl := hoff htimer₂
      rcases directory with error | made
      · exact hnothing
      refine ⟨fun h => Bool.noConfusion h, ?_⟩
      rintro - t₃ ⟨-, timer₃, -, rfl⟩
      refine ⟨fun h => Bool.noConfusion h, ?_⟩
      rintro - t₄ ⟨-, timer₄, -, rfl⟩
      -- the body keeps what is held, and the `finally` gives it back
      show Prog.wp _ _ _ (Prog.ensuring _ _) _
      rw [Prog.wp_ensuring]
      have hbody : ((Compilation.compileBody texts enabled).tryCatch fun error =>
          pure (Compilation.compileFailure engine error)).Only CompileOp.Relayed :=
        Prog.only_tryCatch (Compilation.only_compileBody ..) fun _ => trivial
      have hunderway : Underway (after ⟨timer₄, .unregistered, true⟩ .addEventListener ()) := ⟨rfl, rfl⟩
      refine Prog.wp_mono (fun r op hr _ => hr.directory) (fun result r hr => ?_)
        (hbody.wp_keeps (fun op hop r reply t h => Underway.exec hop h) hunderway)
      refine Prog.wp_post (fun cleaned r hreleased => ?_) wp_cleanup
      cases cleaned <;> exact hreleased

end CompileResources

/-! ## The compilations of a server -/

/-- A compilation, and whether its directory is there. -/
structure HostedCompilation where
  compilation : Compilation
  directory : Bool

namespace HostedCompilation

/-- What it holds. -/
def resources (s : HostedCompilation) : CompileResources :=
  ⟨s.compilation.timer, s.compilation.relay, s.directory⟩

/-- The directory after an event. -/
def directoryAfter (s : HostedCompilation) : CompileEvent → Bool
  | .answer reply => s.compilation.pending.elim s.directory fun op =>
      op.directoryAfter s.directory (reply op)
  | _ => s.directory

def step (s : HostedCompilation) (event : CompileEvent) : Option HostedCompilation :=
  (s.compilation.step event).map fun t => ⟨t, s.directoryAfter event⟩

/-- A removal that is answered succeeds. -/
def Removes (s : HostedCompilation) : CompileEvent → Prop
  | .answer reply => ∀ op, s.compilation.pending = some op → op.removalFails (reply op) = false
  | _ => True

/-- `compileProject` did not settle yet. -/
def active (s : HostedCompilation) : Bool := !s.compilation.left.isDone

/-- A native process runs. -/
def runsProcess (s : HostedCompilation) : Bool := s.compilation.pending.any CompileOp.runsProcess

end HostedCompilation

/-- The compilations of a server; `context.activeCompilations` are those that did not settle. -/
def compileServer (texts : TexTexts) (enabled : Bool) : Pool HostedCompilation CompileEvent where
  component := ⟨⟨(Compilation.system texts enabled (js "pdflatex")).init, false⟩, HostedCompilation.step⟩
  holds := HostedCompilation.active
  bound := MAX_ACTIVE_COMPILATIONS

/-- `context.activeCompilations.size` -/
def activeCompilations (compilations : List HostedCompilation) : Nat :=
  compilations.countP HostedCompilation.active

/-- The native processes of the compilations. -/
def nativeProcesses (compilations : List HostedCompilation) : Nat :=
  compilations.countP HostedCompilation.runsProcess

section Steps

open CompileResources

variable {removes : Prop} {s t : HostedCompilation} {event : CompileEvent} {texts : TexTexts}
  {enabled : Bool}

/-- What a program may go on with, holding this. -/
def MayHold (removes : Prop) (p : CompileProg CompileResult) (r : CompileResources) : Prop :=
  p.wp (Exec removes) Housed (fun _ => Released removes) r

/-- **The invariant** of a compilation: it holds what it may, and is suspended. -/
structure Kept (removes : Prop) (s : HostedCompilation) : Prop where
  held : MayHold removes s.compilation.left s.resources
  waits : ∀ op, s.compilation.pending = some op → op.waits = true

/-- The timer may fire at any time. -/
theorem MayHold.timer_off {p : CompileProg CompileResult} {r : CompileResources}
    (h : MayHold removes p r) : MayHold removes p { r with timer := false } := by
  cases p with
  | pure result | throw error => exact ⟨rfl, h.relay, h.directory⟩
  | perform op next =>
      refine ⟨h.1, ?_⟩
      rintro reply t ⟨hremoves, timer, htimer, rfl⟩
      exact h.2 reply _ ⟨hremoves, timer, fun hon => Bool.noConfusion (htimer hon), rfl⟩

/-- A program that performed an operation. -/
theorem MayHold.performed {op : CompileOp} {next : op.Reply → CompileProg CompileResult}
    {r : CompileResources} (h : MayHold removes (.perform op next) r) (reply : op.Reply)
    (hremoves : removes → op.removalFails reply = false) :
    MayHold removes (next reply) (r.after op reply) :=
  h.2 reply _ ⟨hremoves, r.timer, fun htimer => htimer, rfl⟩

/-- An operation that does not wait. -/
theorem resources_immediate {c d : Compilation} {op : CompileOp} {reply : op.Reply} (directory : Bool)
    (h : c.immediate op = some (d, reply)) : op.removalFails reply = false ∧
      (⟨d, directory⟩ : HostedCompilation).resources
        = (⟨c, directory⟩ : HostedCompilation).resources.after op reply := by
  cases op <;> cases h <;> exact ⟨rfl, rfl⟩

/-- An operation that waits leaves the timer and the listener alone. -/
theorem after_of_waits {c : Compilation} {op : CompileOp} {reply : op.Reply} {directory : Bool}
    (h : op.waits = true) : (⟨c, directory⟩ : HostedCompilation).resources.after op reply
      = (⟨c, op.directoryAfter directory reply⟩ : HostedCompilation).resources := by
  cases op <;> first
    | rfl
    | cases h

/-- **Running up to the next `await`** establishes the invariant. -/
theorem MayHold.resume {p : CompileProg CompileResult} {c : Compilation} {directory : Bool}
    (h : MayHold removes p (⟨c, directory⟩ : HostedCompilation).resources) :
    Kept removes ⟨c.resume p, directory⟩ := by
  induction p generalizing c with
  | pure result | throw error => exact ⟨h, fun op hop => by cases hop⟩
  | perform op next ih =>
      rw [Compilation.resume]
      split
      next d reply himmediate =>
        obtain ⟨hkeeps, hresources⟩ := resources_immediate directory himmediate
        refine ih reply ?_
        rw [hresources]
        exact h.performed reply fun _ => hkeeps
      next himmediate =>
        refine ⟨h, fun op' hop => ?_⟩
        obtain rfl : op = op' := Option.some.inj hop
        exact Compilation.waits_of_immediate himmediate

/-- **Every step keeps the invariant.** -/
theorem Kept.step (h : Kept removes s) (hremoves : removes → s.Removes event)
    (hstep : s.step event = some t) : Kept removes t := by
  obtain ⟨c, hc, rfl⟩ := Option.map_eq_some_iff.mp hstep
  cases event with
  | abort =>
      obtain rfl := Option.some.inj hc
      split <;> exact ⟨h.held, h.waits⟩
  | timeout =>
      simp only [Compilation.step, Option.ite_none_right_eq_some, Option.some.injEq] at hc
      obtain ⟨-, rfl⟩ := hc
      exact ⟨h.held.timer_off, h.waits⟩
  | answer reply =>
      rw [Compilation.step] at hc
      split at hc
      next op next hleft =>
        obtain rfl := Option.some.inj hc
        have hpending : s.compilation.pending = some op := by rw [Compilation.pending, hleft]
        have hheld := h.held
        rw [hleft] at hheld
        refine MayHold.resume ?_
        have hgoes := hheld.performed (reply op) fun hno => hremoves hno op hpending
        rwa [HostedCompilation.directoryAfter, hpending, Option.elim_some,
          ← after_of_waits (h.waits op hpending)]
      next => cases hc

theorem Kept.init : Kept removes (compileServer texts enabled).component.init :=
  MayHold.resume (wp_compileProject texts enabled (js "pdflatex"))

/-- A compilation that settled does not go on. -/
theorem HostedCompilation.releases (hstep : s.step event = some t) (hholds : t.active = true) :
    s.active = true := by
  obtain ⟨c, hc, rfl⟩ := Option.map_eq_some_iff.mp hstep
  cases event with
  | abort =>
      obtain rfl := Option.some.inj hc
      split at hholds <;> exact hholds
  | timeout =>
      simp only [Compilation.step, Option.ite_none_right_eq_some, Option.some.injEq] at hc
      obtain ⟨-, rfl⟩ := hc
      exact hholds
  | answer reply =>
      rw [Compilation.step] at hc
      split at hc
      next op next hleft => rw [HostedCompilation.active, hleft]; rfl
      next => cases hc

/-- A native process runs for an active compilation. -/
theorem HostedCompilation.active_of_runsProcess (h : s.runsProcess = true) : s.active = true := by
  obtain ⟨op, next, hleft, -, -⟩ := Compilation.exists_pending h
  rw [active, hleft]
  rfl

/-- What a compilation that settled holds. -/
theorem Kept.released (h : Kept removes s) (hsettled : s.active = false) :
    Released removes s.resources := by
  have hheld := h.held
  rw [HostedCompilation.active, Bool.not_eq_false'] at hsettled
  cases hleft : s.compilation.left with
  | pure result | throw error =>
      rw [hleft] at hheld
      exact hheld
  | perform op next =>
      rw [hleft] at hsettled
      cases hsettled

/-- What works in the directory finds it. -/
theorem Kept.housed (h : Kept removes s)
    (hpending : s.compilation.pending.any CompileOp.inDirectory = true) : s.directory = true := by
  obtain ⟨op, next, hleft, -, hin⟩ := Compilation.exists_pending hpending
  have hheld := h.held
  rw [hleft] at hheld
  exact hheld.1 hin

end Steps

/-! ## Runs -/

/-- **The compilations of a server.**  In every run, whatever the requests, the aborts and the answers
of the native tools, the active compilations and their native processes are within
`MAX_ACTIVE_COMPILATIONS`; what works in a temporary directory finds it; and a compilation that settled
has no timer and no listener left, nor a directory unless the removal of one failed. -/
theorem compileServer_bounded (texts : TexTexts) (enabled : Bool)
    (compilations : List HostedCompilation) :
    ((compileServer texts enabled).system.Reachable (Pool.Permitted fun _ _ => True) compilations →
      activeCompilations compilations ≤ MAX_ACTIVE_COMPILATIONS ∧
      nativeProcesses compilations ≤ MAX_ACTIVE_COMPILATIONS ∧
      ∀ s ∈ compilations,
        (s.compilation.pending.any CompileOp.inDirectory = true → s.directory = true) ∧
        (s.active = false → s.compilation.timer = false ∧ s.compilation.relay ≠ .registered)) ∧
    ((compileServer texts enabled).system.Reachable (Pool.Permitted HostedCompilation.Removes)
        compilations →
      ∀ s ∈ compilations, s.active = false → s.directory = false) := by
  constructor
  · intro h
    have hstep (s : HostedCompilation) (event : CompileEvent) (t : HostedCompilation)
        (_ : True) (hs : Kept False s) (hmove : s.step event = some t) : Kept False t :=
      hs.step False.elim hmove
    have hreleases (s : HostedCompilation) (event : CompileEvent) (t : HostedCompilation)
        (_ : Kept False s) (hmove : s.step event = some t) (hholds : t.active = true) :
        s.active = true := HostedCompilation.releases hmove hholds
    have hkept := Pool.reachable_invariant Kept.init hstep h
    refine ⟨Pool.reachable_holds_le Kept.init hstep hreleases h,
      Pool.reachable_uses_le Kept.init hstep hreleases
        (fun s _ hruns => HostedCompilation.active_of_runsProcess hruns) h, ?_⟩
    intro s hs
    refine ⟨(hkept s hs).housed, fun hsettled => ?_⟩
    have hreleased := (hkept s hs).released hsettled
    exact ⟨hreleased.timer, hreleased.relay⟩
  · intro h s hs hsettled
    have hkept : ∀ s ∈ compilations, Kept True s :=
      Pool.reachable_invariant Kept.init (fun _ _ _ hremoves hs hmove => hs.step (fun _ => hremoves) hmove)
        h
    exact ((hkept s hs).released hsettled).directory trivial

namespace TwoCompilations

/-- A removal that is answered succeeds, as a check. -/
def removes (s : HostedCompilation) : CompileEvent → Bool
  | .answer reply => s.compilation.pending.all fun op => !op.removalFails (reply op)
  | _ => true

/-- One compilation runs to its end and is aborted in between, another one runs `latexmk`; a third
request finds no slot, and the slot of the first is taken when it settled. -/
def events : List (PoolEvent CompileEvent) :=
  [.arrive, .arrive, .arrive] ++ List.replicate 5 (.act 0 (.answer Compilation.succeed)) ++ [.act 0 .abort]
    ++ List.replicate 3 (.act 0 (.answer Compilation.succeed)) ++ [.arrive]
    ++ List.replicate 5 (.act 1 (.answer Compilation.succeed))

/-- The server without texts of TeX. -/
def server : Pool HostedCompilation CompileEvent :=
  compileServer ⟨fun _ => [], fun _ _ => none, fun _ => false⟩ true

def compilations : List HostedCompilation := server.system.after (Pool.check removes) events

theorem removes_sound (s : HostedCompilation) (event : CompileEvent) (h : removes s event = true) :
    s.Removes event := by
  cases event with
  | answer reply =>
      intro op hop
      simpa [removes, hop] using h
  | abort | timeout => trivial

theorem reachable : server.system.Reachable (Pool.Permitted HostedCompilation.Removes) compilations :=
  System.reachable_after
    (fun members event h => (Pool.permitted_of_check members event h).mono removes_sound) events

end TwoCompilations

open TwoCompilations in
/-- Three requests one after the other: the first compilation settled and holds nothing, and the other
two are active. -/
theorem compileServer_bounded_three :
    (compilations.map HostedCompilation.active = [false, true, true] ∧
      nativeProcesses compilations = 2) ∧
    activeCompilations compilations ≤ MAX_ACTIVE_COMPILATIONS ∧
    nativeProcesses compilations ≤ MAX_ACTIVE_COMPILATIONS ∧
    ∀ s ∈ compilations, s.active = false → s.directory = false := by
  have hbounded := compileServer_bounded ⟨fun _ => [], fun _ _ => none, fun _ => false⟩ true compilations
  have hrun := hbounded.1 (reachable.mono fun members event _ => Pool.permitted_true members event)
  exact ⟨⟨by decide +kernel, by decide +kernel⟩, hrun.1, hrun.2.1, hbounded.2 reachable⟩

end Typr
