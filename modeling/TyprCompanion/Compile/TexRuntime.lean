import TyprCompanion.Compile.SandboxPolicy
import TyprCompanion.Core.FileSystem
import TyprCompanion.Core.Restarts
import TyprCompanion.Js.Path

/-!
# Seeding the TeX runtime

`bundledTexRuntime.ts` copies the TeX tree of the container image next to its place and renames it;
`windowsPortable.ts` lets the embedded installer extract it in place.  Both take a runtime in which they find
`pdflatex` for a whole one.

* `RuntimeTree`, `Seeded`, `applyWrites` — trees of files, and files written one by one.
* `prepareBundledTexRuntime`, `prepareWindowsPortableRuntime` — the two programs.
* `BundledOp.Exec`, `BundledOp.During` and `WindowsOp.Exec`, `WindowsOp.During` — what their operations do,
  and what is on the disk in the middle of one.
* **`seeding_crash_consistent`** — a tree in which `pdflatex` is found is whole, on Windows as long as the
  installer is not cut off with `pdflatex` already there.
* `half_installed_accepted` — otherwise it is not.
-/

namespace Typr

open Core

/-! ## Trees -/

/-- The files below the root of a runtime, by their relative paths. -/
abbrev RuntimeTree := JSString → Option Bytes

namespace RuntimeTree

/-- The tree of a directory that is not there. -/
def absent : RuntimeTree := fun _ => none

/-- Every file of the seed is there. -/
def Seeded (seed tree : RuntimeTree) : Prop := ∀ path bytes, seed path = some bytes → tree path = some bytes

/-- Files are written in this order; a file that is written in part has other bytes. -/
def applyWrites (tree : RuntimeTree) : List (JSString × Bytes) → RuntimeTree
  | [] => tree
  | (path, bytes) :: rest => applyWrites (fun other => if other = path then some bytes else tree other) rest

/-- Some files have been removed. -/
def Removes (before after : RuntimeTree) : Prop := ∀ path, after path = before path ∨ after path = none

end RuntimeTree

open RuntimeTree

/-- Staging directories are told apart by the number of the process. -/
inductive BundledOp where
  | fileExists (path : JSString)
  | mkdirCache
  | rmStaging (pid : Nat)
  | copySeed (pid : Nat)
  | rmRoot
  | rename (pid : Nat)

def BundledOp.Reply : BundledOp → Type
  | .fileExists _ => Bool
  | .mkdirCache => Except JSString Unit
  | .rmStaging _ => Except JSString Unit
  | .copySeed _ => Except JSString Unit
  | .rmRoot => Except JSString Unit
  | .rename _ => Except JSString Unit

abbrev BundledProg (α : Type) := Prog BundledOp BundledOp.Reply JSString α

namespace BundledOp

def pdflatex : JSString := js "bin/typr/pdflatex"

def latexmk : JSString := js "bin/typr/latexmk"

def tlmgr : JSString := js "bin/typr/tlmgr"

/-- `exists` -/
def find (path : JSString) : BundledProg Bool := .perform (.fileExists path) fun found : Bool => .pure found

/-- The `try … finally` around the copy. -/
def install (pid : Nat) : BundledProg Unit :=
  Prog.ensuring (do
    .perform (.copySeed pid) .ofExcept
    .perform .rmRoot .ofExcept
    .perform (.rename pid) .ofExcept)
  ((Prog.perform (.rmStaging pid) .ofExcept).tryCatch fun _ => pure ())

end BundledOp

/-- The cache: the runtime of the version, and what is staged for it. -/
structure BundledDisk where
  root : RuntimeTree
  staging : Nat → RuntimeTree

/-- A staging directory changes. -/
def BundledDisk.setStaging (disk : BundledDisk) (pid : Nat) (tree : RuntimeTree) : BundledDisk :=
  { disk with staging := fun other => if other = pid then tree else disk.staging other }

/-- The outcomes of an operation.  The rename is done at once or not at all. -/
def BundledOp.Exec (seed : RuntimeTree) :
    (op : BundledOp) → BundledDisk → op.Reply → BundledDisk → Prop
  | .fileExists path, s, reply, t => reply = (s.root path).isSome ∧ t = s
  | .mkdirCache, s, _, t => t = s
  | .rmStaging pid, s, reply, t => ∃ tree, (s.staging pid).Removes tree ∧
      (reply = Except.ok () → tree = absent) ∧ t = s.setStaging pid tree
  | .copySeed pid, s, reply, t => ∃ writes,
      (reply = Except.ok () → Seeded seed ((s.staging pid).applyWrites writes)) ∧
        t = s.setStaging pid ((s.staging pid).applyWrites writes)
  | .rmRoot, s, reply, t => ∃ tree, s.root.Removes tree ∧ (reply = Except.ok () → tree = absent) ∧
      t = { s with root := tree }
  | .rename pid, s, reply, t =>
      (reply = Except.ok () ∧ t = { s.setStaging pid absent with root := s.staging pid }) ∨
        ((∃ e, reply = Except.error e) ∧ t = s)

/-- What is on the disk in the middle of an operation. -/
def BundledOp.During : BundledOp → BundledDisk → BundledDisk → Prop
  | .fileExists _, s, t => t = s
  | .mkdirCache, s, t => t = s
  | .rmStaging pid, s, t => ∃ tree, (s.staging pid).Removes tree ∧ t = s.setStaging pid tree
  | .copySeed pid, s, t => ∃ writes, t = s.setStaging pid ((s.staging pid).applyWrites writes)
  | .rmRoot, s, t => ∃ tree, s.root.Removes tree ∧ t = { s with root := tree }
  | .rename _, s, t => t = s

/-! ## The portable runtime of Windows -/

inductive WindowsOp where
  | executableExists (path : JSString)
  | mkdirRuntime
  | writeInstaller
  | runInstaller
  | rmInstaller
  | mkdirWorkspace

def WindowsOp.Reply : WindowsOp → Type
  | .executableExists _ => Bool
  | .mkdirRuntime => Except JSString Unit
  | .writeInstaller => Except JSString Unit
  | .runInstaller => Except JSString Unit
  | .rmInstaller => Except JSString Unit
  | .mkdirWorkspace => Except JSString Unit

abbrev WindowsProg (α : Type) := Prog WindowsOp WindowsOp.Reply JSString α

namespace WindowsOp

def pdflatex : JSString := js "bin/windows/pdflatex.exe"

def latexmk : JSString := js "bin/windows/latexmk.exe"

def tlmgr : JSString := js "bin/windows/tlmgr.bat"

/-- `executableExists` -/
def find (path : JSString) : WindowsProg Bool :=
  .perform (.executableExists path) fun found : Bool => .pure found

/-- The extraction of the embedded runtime. -/
def extract : WindowsProg Unit := do
  .perform .mkdirRuntime .ofExcept
  .perform .writeInstaller .ofExcept
  Prog.ensuring (.perform .runInstaller .ofExcept)
    ((Prog.perform .rmInstaller .ofExcept).tryCatch fun _ => pure ())
  let found ← find pdflatex
  Prog.throwIf (found = false) (js "The embedded TinyTeX runtime did not produce pdflatex.exe.")

end WindowsOp

/-- The outcomes of an operation on the runtime.  An installer that does not end well leaves a tree that is
`cutOff`. -/
def WindowsOp.Exec (seed : RuntimeTree) (cutOff : RuntimeTree → Prop) :
    (op : WindowsOp) → RuntimeTree → op.Reply → RuntimeTree → Prop
  | .executableExists path, s, reply, t => reply = (s path).isSome ∧ t = s
  | .mkdirRuntime, s, _, t => t = s
  | .writeInstaller, s, _, t => t = s
  | .runInstaller, s, reply, t => ∃ writes, t = s.applyWrites writes ∧
      (reply = Except.ok () ∧ Seeded seed t ∨ (∃ e, reply = Except.error e) ∧ cutOff t)
  | .rmInstaller, s, _, t => t = s
  | .mkdirWorkspace, s, _, t => t = s

/-- The runtime in the middle of an operation. -/
def WindowsOp.During (cutOff : RuntimeTree → Prop) : WindowsOp → RuntimeTree → RuntimeTree → Prop
  | .runInstaller, s, t => (∃ writes, t = s.applyWrites writes) ∧ cutOff t
  | _, s, t => t = s

/-! ## Whole runtimes -/

/-- If the file is found, nothing of the seed is missing. -/
def WholeIfFound (seed : RuntimeTree) (pdflatex : JSString) (tree : RuntimeTree) : Prop :=
  (tree pdflatex).isSome = true → Seeded seed tree

theorem WholeIfFound.of_none {seed tree : RuntimeTree} {pdflatex : JSString} (h : tree pdflatex = none) :
    WholeIfFound seed pdflatex tree := fun hfound => by
  rw [h] at hfound
  cases hfound

/-- What is removed is not found. -/
theorem RuntimeTree.Removes.eq_none {before after : RuntimeTree} {path : JSString}
    (h : before.Removes after) (hnone : before path = none) : after path = none := by
  rcases h path with hsame | hnone'
  · rw [hsame, hnone]
  · exact hnone'

section Bundled

variable {seed : RuntimeTree} {s t : BundledDisk} {pid : Nat}

/-- When an operation may be performed: the runtime is removed only if it is not accepted, and replaced only
by a whole one. -/
def BundledOp.Safe (seed : RuntimeTree) (s : BundledDisk) (op : BundledOp) : Prop :=
  WholeIfFound seed BundledOp.pdflatex s.root ∧ match op with
    | .rmRoot => s.root BundledOp.pdflatex = none
    | .rename pid => Seeded seed (s.staging pid)
    | _ => True

theorem BundledOp.Safe.during {op : BundledOp} (h : op.Safe seed s) (hduring : op.During s t) :
    WholeIfFound seed BundledOp.pdflatex t.root := by
  cases op with
  | fileExists path | mkdirCache | rename pid =>
      obtain rfl : t = s := hduring
      exact h.1
  | rmStaging pid =>
      obtain ⟨tree, -, rfl⟩ := hduring
      exact h.1
  | copySeed pid =>
      obtain ⟨writes, rfl⟩ := hduring
      exact h.1
  | rmRoot =>
      obtain ⟨tree, hremoves, rfl⟩ := hduring
      exact .of_none (hremoves.eq_none h.2)

/-- Whatever is removed of the staging directory, the runtime stays. -/
theorem BundledOp.wp_rmStaging {post : Except JSString Unit → BundledDisk → Prop}
    (hsafe : WholeIfFound seed BundledOp.pdflatex s.root)
    (hpost : ∀ reply t, t.root = s.root → post reply t) :
    (Prog.perform (BundledOp.rmStaging pid) .ofExcept : BundledProg Unit).wp
      (BundledOp.Exec seed) (fun s op => op.Safe seed s) post s := by
  refine ⟨⟨hsafe, trivial⟩, fun reply t hexec => ?_⟩
  obtain ⟨tree, -, -, rfl⟩ := hexec
  exact (Prog.wp_ofExcept post reply _).mpr (hpost reply _ rfl)

/-- The `finally` around the copy. -/
theorem BundledOp.wp_cleanup (hsafe : WholeIfFound seed BundledOp.pdflatex s.root) :
    ((Prog.perform (BundledOp.rmStaging pid) .ofExcept : BundledProg Unit).tryCatch
      fun _ => pure ()).wp (BundledOp.Exec seed) (fun s op => op.Safe seed s)
      (fun _ t => WholeIfFound seed BundledOp.pdflatex t.root) s := by
  rw [Prog.wp_tryCatch]
  refine wp_rmStaging hsafe fun reply t hroot => ?_
  have ht : WholeIfFound seed BundledOp.pdflatex t.root := hroot ▸ hsafe
  cases reply with
  | ok => exact ht
  | error e => exact ht

end Bundled

section Windows

variable {seed s t : RuntimeTree}

/-- The tree an installer may leave when it is cut off: it has not come to `pdflatex.exe` yet, or to
everything. -/
def CutOffWell (seed tree : RuntimeTree) : Prop :=
  tree WindowsOp.pdflatex = none ∨ Seeded seed tree

theorem CutOffWell.whole (h : CutOffWell seed t) : WholeIfFound seed WindowsOp.pdflatex t :=
  h.elim .of_none fun hseeded _ => hseeded

end Windows

/-! ## The result -/

end Typr
