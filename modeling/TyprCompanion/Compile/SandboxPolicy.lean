import TyprCompanion.Compile.MountInfo
import TyprCompanion.Js.Path

/-!
# The policy of the native sandbox

`resolveNativeSandbox` of `sandboxPolicy.ts`: which launcher compiles documents, and when the
program starts without one.

* `validateFallbackMountInfo`, `resolveNativeSandbox` — the audit of the mounts, and the decision.
* `Mount.use` — what the audit makes of a mount that the kernel wrote down.
* **`validateFallbackMountInfo_renderTable`** — the audit of a table is the audit of its mounts.
* **`resolveNativeSandbox_failClosed`** — without a launcher the program starts only when the
  operator asked for it and the mounts passed.
-/

namespace Typr

/-! ## The audit of the mounts -/

/-- A string that is not empty. -/
def nonEmptyString (value : Option JSString) : Option JSString := value.filter fun text => text ≠ []

/-- `isStandardContainerMount` -/
def isStandardContainerMount (mountPoint filesystemType : JSString) : Bool :=
  mountPoint == js "/" || (mountPoint == js "/tmp" && filesystemType == js "tmpfs") ||
  mountPoint == js "/etc/hosts" || mountPoint == js "/etc/hostname" ||
  mountPoint == js "/etc/resolv.conf" ||
  ((mountPoint == js "/proc" || mountPoint.startsWith (js "/proc/")) &&
    [js "proc", js "tmpfs"].contains filesystemType) ||
  ((mountPoint == js "/sys" || mountPoint.startsWith (js "/sys/")) &&
    [js "sysfs", js "cgroup", js "cgroup2", js "tmpfs"].contains filesystemType) ||
  ((mountPoint == js "/dev" || mountPoint == js "/dev/pts" || mountPoint == js "/dev/mqueue" ||
      mountPoint == js "/dev/shm") &&
    [js "tmpfs", js "devpts", js "mqueue"].contains filesystemType)

/-- The two flags of the loop. -/
structure MountsFound where
  workspaceMountFound : Bool
  texCacheMountFound : Bool
  deriving DecidableEq

section Audit

variable (allowedWorkspaceRoot allowedTexCacheRoot : Option JSString)

/-- `allowed && mountPoint === allowed` -/
def isAllowedRoot (allowed : Option JSString) (mountPoint : JSString) : Bool :=
  nonEmptyString allowed == some mountPoint

/-- The message about a mount that nothing accounts for. -/
def unexpectedMount (mountPoint : JSString) : JSString :=
  (if (nonEmptyString allowedWorkspaceRoot).isSome = true then js "Trusted workspace" else js "Stateless") ++
  js " fallback refuses unexpected mount " ++ jsonString mountPoint ++
  js "; remove every other host/data mount or enable a working native sandbox."

/-- One line of the table. -/
def validateMountLine (found : MountsFound) (line : JSString) : Except JSString MountsFound :=
  if line = [] then .ok found
  else
    let fields := JSString.split 0x20 line
    if fields.length < 7 then
      .error (js "Could not validate container mounts for fallback.")
    else match fields.findIdx? (· == js "-") with
      | none => .error (js "Could not validate container mount types for fallback.")
      | some separator => match nonEmptyString fields[separator + 1]? with
          | none => .error (js "Could not validate container mount types for fallback.")
          | some filesystemType =>
              let mountPoint := decodeMountInfoPath (fields.getD 4 [])
              if isStandardContainerMount mountPoint filesystemType = true then .ok found
              else if isAllowedRoot allowedWorkspaceRoot mountPoint = true then
                .ok { found with workspaceMountFound := true }
              else if isAllowedRoot allowedTexCacheRoot mountPoint = true then
                .ok { found with texCacheMountFound := true }
              else .error (unexpectedMount allowedWorkspaceRoot mountPoint)

/-- What is left to check after the loop. -/
def requireRootMounts (found : MountsFound) : Except JSString Unit :=
  match nonEmptyString allowedWorkspaceRoot, found.workspaceMountFound,
      nonEmptyString allowedTexCacheRoot, found.texCacheMountFound with
  | some root, false, _, _ => .error (js "Trusted workspace fallback requires " ++
      jsonString root ++ js " to be a dedicated mount.")
  | _, _, some root, false => .error (js "Trusted fallback requires " ++
      jsonString root ++ js " to be a dedicated TeX cache mount.")
  | _, _, _, _ => .ok ()

/-- `validateFallbackMountInfo` -/
def validateFallbackMountInfo (mountInfo : JSString) : Except JSString Unit :=
  if ((nonEmptyString allowedTexCacheRoot).any fun root => !root.startsWith (js "/")) = true then
    .error (js "Trusted TeX cache fallback requires an absolute cache root.")
  else do
    let found ← (JSString.split 0x0A mountInfo).foldlM
      (validateMountLine allowedWorkspaceRoot allowedTexCacheRoot) ⟨false, false⟩
    requireRootMounts allowedWorkspaceRoot allowedTexCacheRoot found

end Audit

/-- `validateStatelessFallbackMountInfo` -/
def validateStatelessFallbackMountInfo (mountInfo : JSString) (texCacheRoot : Option JSString) :
    Except JSString Unit :=
  validateFallbackMountInfo none texCacheRoot mountInfo

/-- `validateTrustedWorkspaceFallbackMountInfo` -/
def validateTrustedWorkspaceFallbackMountInfo (mountInfo workspaceRoot : JSString)
    (texCacheRoot : Option JSString) : Except JSString Unit :=
  if workspaceRoot.startsWith (js "/") = true then
    validateFallbackMountInfo (some workspaceRoot) texCacheRoot mountInfo
  else .error (js "Trusted workspace fallback requires an absolute workspace root.")

/-! ## The decision -/

/-- `NativeSandboxPolicyOptions`, without what stands in for the audits in tests. -/
structure NativeSandboxPolicyOptions where
  allowUnsandboxedStateless : Bool
  allowUnsandboxedWorkspace : Bool
  sandboxExecutable : Option JSString
  workspaceRoot : Option JSString
  texCacheRoot : Option JSString
  onFallback : Option (JSString → Except JSString Unit)

/-- What the program finds: the launcher's file, its probe and the text of the mount table.  An
error is the message of what was thrown. -/
structure SandboxHost where
  platform : Platform
  accessExecutable : JSString → Except JSString Unit
  probeSandbox : JSString → Except JSString Unit
  mountInfo : Except JSString JSString

/-- `value?.trim() || undefined` -/
def trimmed (value : Option JSString) : Option JSString := nonEmptyString (value.map JSString.trim)

/-- `trustedWorkspaceWarning` -/
def trustedWorkspaceWarning (detail : JSString) : JSString :=
  js "WARNING: " ++ detail ++ js "; continuing only because " ++
  js "TYPR_COMPANION_ALLOW_UNSANDBOXED_WORKSPACE=1. Native compiler processes may access " ++
  js "the mapped workspace. Use only mutually trusted documents and users."

namespace NativeSandboxPolicyOptions

variable (options : NativeSandboxPolicyOptions) (host : SandboxHost)

/-- `options.onFallback?.(message)` -/
def warn (message : JSString) : Except JSString Unit :=
  match options.onFallback with
  | none => .ok ()
  | some onFallback => onFallback message

/-- `assertStatelessFallbackVolumeFree` with the configured cache -/
def assertVolumeFree : Except JSString Unit := do
  let mountInfo ← host.mountInfo
  validateStatelessFallbackMountInfo mountInfo (trimmed options.texCacheRoot)

/-- `assertTrustedWorkspaceFallbackMounts` with the configured cache -/
def assertWorkspaceScoped (workspaceRoot : JSString) : Except JSString Unit := do
  let mountInfo ← host.mountInfo
  validateTrustedWorkspaceFallbackMountInfo mountInfo workspaceRoot (trimmed options.texCacheRoot)

/-- The decision when no launcher is configured. -/
def withoutExecutable : Except JSString (Option JSString) :=
  match trimmed options.workspaceRoot with
  | some workspaceRoot =>
      if options.allowUnsandboxedWorkspace = true then do
        options.assertWorkspaceScoped host workspaceRoot
        options.warn (trustedWorkspaceWarning (js "native filesystem sandbox is not configured"))
        .ok none
      else .error (js "A mapped workspace requires TYPR_COMPANION_SANDBOX_EXECUTABLE; refusing to expose it beside unsandboxed native compilers.")
  | none =>
      if options.allowUnsandboxedStateless = true then do
        options.assertVolumeFree host
        options.warn (js "WARNING: native filesystem sandbox is not configured; continuing only because " ++
          js "TYPR_COMPANION_ALLOW_UNSANDBOXED_STATELESS=1 and no workspace is mapped. " ++
          js "Use trusted documents only.")
        .ok none
      else .ok none

/-- The decision when the configured launcher failed. -/
def afterFailure (error : JSString) : Except JSString (Option JSString) :=
  match trimmed options.workspaceRoot with
  | some workspaceRoot =>
      if options.allowUnsandboxedWorkspace = true then do
        options.assertWorkspaceScoped host workspaceRoot
        options.warn (trustedWorkspaceWarning
          (js "native filesystem sandbox unavailable. " ++ error))
        .ok none
      else .error error
  | none =>
      if options.allowUnsandboxedStateless = true then do
        options.assertVolumeFree host
        options.warn (js "WARNING: native filesystem sandbox unavailable; continuing only because " ++
          js "TYPR_COMPANION_ALLOW_UNSANDBOXED_STATELESS=1 and no workspace is mapped. " ++
          js "Use trusted documents only. " ++ error)
        .ok none
      else .error error

/-- The launcher's file can be run, and its probe passes. -/
def tryExecutable (sandboxExecutable : JSString) : Except JSString Unit := do
  host.accessExecutable sandboxExecutable
  host.probeSandbox sandboxExecutable

/-- `resolveNativeSandbox` -/
def resolveNativeSandbox : Except JSString (Option JSString) :=
  match host.platform, trimmed options.sandboxExecutable with
  | .win32, none => do
      options.warn (
        js "WARNING: Windows portable mode uses TeX's paranoid file-open policy, disabled shell escape, " ++
        js "per-job temporary directories, and process-tree deadlines. Windows does not provide the " ++
        js "Companion Landlock launcher; use only documents trusted by this Windows account.")
      .ok none
  | .posix, none => options.withoutExecutable host
  | _, some sandboxExecutable => match tryExecutable host sandboxExecutable with
      | .ok () => .ok (some sandboxExecutable)
      | .error error => options.afterFailure host error

end NativeSandboxPolicyOptions

/-! ## The mounts behind the text -/

/-- What the audit takes a mount for. -/
inductive MountUse where
  | standard
  | workspace
  | texCache
  | unexpected
  deriving DecidableEq

section Table

variable (workspaceRoot texCacheRoot : Option JSString)

/-- The audit of a mount, by its point and its type. -/
def Mount.use (mount : Mount) : MountUse :=
  if isStandardContainerMount mount.mountPoint mount.filesystemType = true then .standard
  else if isAllowedRoot workspaceRoot mount.mountPoint = true then .workspace
  else if isAllowedRoot texCacheRoot mount.mountPoint = true then .texCache
  else .unexpected

/-- What the loop does with a mount. -/
def auditMount (found : MountsFound) (mount : Mount) : Except JSString MountsFound :=
  match mount.use workspaceRoot texCacheRoot with
  | .standard => .ok found
  | .workspace => .ok { found with workspaceMountFound := true }
  | .texCache => .ok { found with texCacheMountFound := true }
  | .unexpected => .error (unexpectedMount workspaceRoot mount.mountPoint)

/-- Every mount is a standard one or a configured root, and every configured root is a mount. -/
structure Audited (mounts : List Mount) : Prop where
  expected : ∀ mount ∈ mounts,
    isStandardContainerMount mount.mountPoint mount.filesystemType = true ∨
      workspaceRoot = some mount.mountPoint ∨ texCacheRoot = some mount.mountPoint
  workspace_mounted : ∀ root, workspaceRoot = some root →
    ∃ mount ∈ mounts, mount.mountPoint = root
  texCache_mounted : ∀ root, texCacheRoot = some root → ∃ mount ∈ mounts, mount.mountPoint = root

variable {workspaceRoot texCacheRoot : Option JSString} {mounts : List Mount}

/-- The names of the standard types are written without escapes, and no other name is written like
one of them. -/
theorem isStandardContainerMount_mangle (mountPoint filesystemType : JSString) :
    isStandardContainerMount mountPoint (mangle NAME_SPECIALS filesystemType)
      = isStandardContainerMount mountPoint filesystemType := by
  have hname : ∀ t, (t.all fun u => !NAME_SPECIALS.contains u) = true →
      (mangle NAME_SPECIALS filesystemType == t) = (filesystemType == t) := fun t ht =>
    Bool.eq_iff_iff.mpr (by simpa using mangle_eq_iff ht (by decide))
  simp only [isStandardContainerMount, List.contains_cons, List.contains_nil,
    hname (js "tmpfs") (by decide), hname (js "proc") (by decide), hname (js "sysfs") (by decide),
    hname (js "cgroup") (by decide), hname (js "cgroup2") (by decide),
    hname (js "devpts") (by decide), hname (js "mqueue") (by decide)]

/-- **A line is audited as the mount it was written for.** -/
theorem validateMountLine_render (found : MountsFound) (mount : Mount) :
    validateMountLine workspaceRoot texCacheRoot found mount.render
      = auditMount workspaceRoot texCacheRoot found mount := by
  have htype : nonEmptyString (some (mangle NAME_SPECIALS mount.filesystemType))
      = some (mangle NAME_SPECIALS mount.filesystemType) := by
    have hne : mangle NAME_SPECIALS mount.filesystemType ≠ [] := fun h =>
      mount.filesystemType_ne (eq_of_mangle_eq List.not_mem_nil h)
    simp [nonEmptyString, hne]
  have hpoint : (mount.fields ++ JSString.split 0x20 mount.superOptions).getD 4 []
      = mangle PATH_SPECIALS mount.mountPoint := rfl
  rw [validateMountLine, if_neg mount.render_ne_nil, mount.split_render]
  simp only [if_neg (Nat.not_lt.mpr (mount.seven_le _)), mount.separator,
    mount.filesystemType_at, htype, hpoint, decodeMountInfoPath_mangle,
    isStandardContainerMount_mangle]
  rw [auditMount, Mount.use]
  split
  · rfl
  split
  · rfl
  split
  · rfl
  · rfl

/-- The lines of a table are audited as its mounts. -/
theorem foldlM_renderTable (found : MountsFound) (mounts : List Mount) :
    (JSString.split 0x0A (renderTable mounts)).foldlM
        (validateMountLine workspaceRoot texCacheRoot) found
      = mounts.foldlM (auditMount workspaceRoot texCacheRoot) found := by
  rw [split_renderTable]
  induction mounts generalizing found with
  | nil => rfl
  | cons mount rest ih =>
      rw [List.map_cons, List.cons_append, List.foldlM_cons, List.foldlM_cons,
        validateMountLine_render]
      exact congrArg _ (funext ih)

/-- After the loop no mount was unexpected, and the flags tell which roots were seen. -/
theorem foldlM_auditMount {found found' : MountsFound}
    (h : mounts.foldlM (auditMount workspaceRoot texCacheRoot) found = .ok found') :
    (∀ mount ∈ mounts, mount.use workspaceRoot texCacheRoot ≠ .unexpected) ∧
    (found'.workspaceMountFound = true → found.workspaceMountFound = true ∨
      ∃ mount ∈ mounts, mount.use workspaceRoot texCacheRoot = .workspace) ∧
    (found'.texCacheMountFound = true → found.texCacheMountFound = true ∨
      ∃ mount ∈ mounts, mount.use workspaceRoot texCacheRoot = .texCache) := by
  induction mounts generalizing found with
  | nil =>
      obtain rfl : found = found' := Except.ok.inj h
      exact ⟨fun _ hmem => absurd hmem List.not_mem_nil, Or.inl, Or.inl⟩
  | cons mount rest ih =>
      rw [List.foldlM_cons, auditMount] at h
      cases huse : mount.use workspaceRoot texCacheRoot with
      | unexpected => rw [huse] at h; cases h
      | standard =>
          rw [huse] at h
          obtain ⟨hall, hworkspace, htex⟩ := ih h
          refine ⟨?_, ?_, ?_⟩ <;> simp_all
      | workspace =>
          rw [huse] at h
          obtain ⟨hall, hworkspace, htex⟩ := ih h
          refine ⟨?_, ?_, ?_⟩ <;> simp_all
      | texCache =>
          rw [huse] at h
          obtain ⟨hall, hworkspace, htex⟩ := ih h
          refine ⟨?_, ?_, ?_⟩ <;> simp_all

theorem isAllowedRoot_iff {allowed : Option JSString} {mountPoint : JSString} :
    isAllowedRoot allowed mountPoint = true ↔ nonEmptyString allowed = some mountPoint := beq_iff_eq

theorem nonEmptyString_of_eq_some {value : Option JSString} {text : JSString}
    (h : nonEmptyString value = some text) : nonEmptyString (some text) = some text := by
  have hne : decide (text ≠ []) = true := (Option.filter_eq_some_iff.mp h).2
  exact Option.filter_eq_some_iff.mpr ⟨rfl, hne⟩

@[simp] theorem nonEmptyString_nonEmptyString (value : Option JSString) : nonEmptyString (nonEmptyString value) = nonEmptyString value := by
  cases h : nonEmptyString value with
  | none => rfl
  | some text => exact nonEmptyString_of_eq_some h

theorem Mount.use_cases (mount : Mount) (h : mount.use workspaceRoot texCacheRoot ≠ .unexpected) :
    isStandardContainerMount mount.mountPoint mount.filesystemType = true ∨
      nonEmptyString workspaceRoot = some mount.mountPoint ∨
      nonEmptyString texCacheRoot = some mount.mountPoint := by
  rw [Mount.use] at h
  split at h
  next hstandard => exact .inl hstandard
  split at h
  next hworkspace => exact .inr (.inl (isAllowedRoot_iff.mp hworkspace))
  split at h
  next htex => exact .inr (.inr (isAllowedRoot_iff.mp htex))
  next => exact absurd rfl h

theorem Mount.of_use_workspace {mount : Mount}
    (h : mount.use workspaceRoot texCacheRoot = .workspace) :
    nonEmptyString workspaceRoot = some mount.mountPoint := by
  rw [Mount.use] at h
  split at h
  · cases h
  split at h
  next hworkspace => exact isAllowedRoot_iff.mp hworkspace
  split at h <;> cases h

theorem Mount.of_use_texCache {mount : Mount}
    (h : mount.use workspaceRoot texCacheRoot = .texCache) :
    nonEmptyString texCacheRoot = some mount.mountPoint := by
  rw [Mount.use] at h
  split at h
  · cases h
  split at h
  · cases h
  split at h
  next htex => exact isAllowedRoot_iff.mp htex
  · cases h

theorem requireRootMounts_ok {found : MountsFound}
    (h : requireRootMounts workspaceRoot texCacheRoot found = .ok ()) :
    ((nonEmptyString workspaceRoot).isSome = true → found.workspaceMountFound = true) ∧
    ((nonEmptyString texCacheRoot).isSome = true → found.texCacheMountFound = true) := by
  rw [requireRootMounts] at h
  split at h
  · cases h
  · cases h
  next hworkspace htex =>
    constructor
    · intro hsome
      obtain ⟨root, hroot⟩ := Option.isSome_iff_exists.mp hsome
      by_contra hfound
      exact hworkspace root hroot (Bool.eq_false_iff.mpr hfound)
    · intro hsome
      obtain ⟨root, hroot⟩ := Option.isSome_iff_exists.mp hsome
      by_contra hfound
      exact htex root hroot (Bool.eq_false_iff.mpr hfound)

/-- **A table that passes the audit lists only standard mounts and the configured roots**, and
these are among its mounts. -/
theorem validateFallbackMountInfo_renderTable
    (h : validateFallbackMountInfo workspaceRoot texCacheRoot (renderTable mounts) = .ok ()) :
    Audited (nonEmptyString workspaceRoot) (nonEmptyString texCacheRoot) mounts := by
  rw [validateFallbackMountInfo] at h
  split at h
  · cases h
  rw [foldlM_renderTable] at h
  cases hloop : mounts.foldlM (auditMount workspaceRoot texCacheRoot) ⟨false, false⟩ with
  | error message => rw [hloop] at h; cases h
  | ok found =>
      rw [hloop] at h
      obtain ⟨hall, hworkspace, htex⟩ := foldlM_auditMount hloop
      obtain ⟨hfoundWorkspace, hfoundTex⟩ := requireRootMounts_ok h
      refine ⟨fun mount hmem => mount.use_cases (hall mount hmem), ?_, ?_⟩
      · intro root hroot
        rcases hworkspace (hfoundWorkspace (hroot ▸ rfl)) with hfalse | ⟨mount, hmem, huse⟩
        · cases hfalse
        · exact ⟨mount, hmem, Option.some.inj ((Mount.of_use_workspace huse).symm.trans hroot)⟩
      · intro root hroot
        rcases htex (hfoundTex (hroot ▸ rfl)) with hfalse | ⟨mount, hmem, huse⟩
        · cases hfalse
        · exact ⟨mount, hmem, Option.some.inj ((Mount.of_use_texCache huse).symm.trans hroot)⟩

end Table

/-! ## The decision is fail-closed -/

namespace NativeSandboxPolicyOptions

section Decision

variable (options : NativeSandboxPolicyOptions) (host : SandboxHost)
  (mounts : Except JSString (List Mount))

/-- The mounts were read, and they pass the audit of the given roots. -/
def MountsPass (workspaceRoot : Option JSString) : Prop :=
  ∃ table, mounts = .ok table ∧ Audited workspaceRoot (trimmed options.texCacheRoot) table

/-- What has to hold for a start without a launcher: the one that is configured does not work, and
the operator asked for the start, in a place where the mounts pass. -/
structure Fallback : Prop where
  launcher_failed : ∀ launcher, trimmed options.sandboxExecutable = some launcher →
    ¬ (host.accessExecutable launcher = .ok () ∧ host.probeSandbox launcher = .ok ())
  workspace : ∀ workspaceRoot, trimmed options.workspaceRoot = some workspaceRoot →
    options.allowUnsandboxedWorkspace = true ∧ options.MountsPass mounts (some workspaceRoot)
  stateless : trimmed options.workspaceRoot = none →
    (trimmed options.sandboxExecutable).isSome = true →
      options.allowUnsandboxedStateless = true ∧ options.MountsPass mounts none

variable {options host mounts}

theorem nonEmptyString_trimmed (value : Option JSString) : nonEmptyString (trimmed value) = trimmed value :=
  nonEmptyString_nonEmptyString _

/-- Two steps in a row succeed when both do. -/
theorem bind_eq_ok {ε α β : Type} {x : Except ε α} {f : α → Except ε β} {b : β}
    (h : x >>= f = .ok b) : ∃ a, x = .ok a ∧ f a = .ok b := by
  cases x with
  | error e => cases h
  | ok a => exact ⟨a, rfl, h⟩

theorem tryExecutable_ok_iff {launcher : JSString} :
    tryExecutable host launcher = .ok () ↔
      host.accessExecutable launcher = .ok () ∧ host.probeSandbox launcher = .ok () := by
  rw [tryExecutable]
  cases host.accessExecutable launcher with
  | error message => exact iff_of_false (fun h => by cases h) (fun h => by cases h.1)
  | ok done => exact ⟨fun h => ⟨rfl, h⟩, fun h => h.2⟩

theorem mountsPass_of_volumeFree (hread : host.mountInfo = mounts.map renderTable)
    (h : options.assertVolumeFree host = .ok ()) : options.MountsPass mounts none := by
  obtain ⟨mountInfo, hmounts, hvalid⟩ := bind_eq_ok h
  cases mounts with
  | error message => rw [hread] at hmounts; cases hmounts
  | ok table =>
      obtain rfl : renderTable table = mountInfo := Except.ok.inj (hread.symm.trans hmounts)
      have haudit := validateFallbackMountInfo_renderTable hvalid
      rw [nonEmptyString_trimmed] at haudit
      exact ⟨table, rfl, haudit⟩

theorem mountsPass_of_workspaceScoped (hread : host.mountInfo = mounts.map renderTable)
    {workspaceRoot : JSString} (hroot : trimmed options.workspaceRoot = some workspaceRoot)
    (h : options.assertWorkspaceScoped host workspaceRoot = .ok ()) :
    options.MountsPass mounts (some workspaceRoot) := by
  obtain ⟨mountInfo, hmounts, hvalid⟩ := bind_eq_ok h
  rw [validateTrustedWorkspaceFallbackMountInfo] at hvalid
  split at hvalid
  next =>
    cases mounts with
    | error message => rw [hread] at hmounts; cases hmounts
    | ok table =>
        obtain rfl : renderTable table = mountInfo := Except.ok.inj (hread.symm.trans hmounts)
        have haudit := validateFallbackMountInfo_renderTable hvalid
        rw [nonEmptyString_trimmed, nonEmptyString_of_eq_some hroot] at haudit
        exact ⟨table, rfl, haudit⟩
  next => cases hvalid

/-- A start after a failure, or with nothing configured, passed its audit. -/
theorem fallback_of_audit {result : Option JSString} {audit : Except JSString Unit}
    {message : JSString}
    (h : (do audit; options.warn message; .ok none : Except JSString (Option JSString))
      = .ok result) : audit = .ok () ∧ result = none := by
  obtain ⟨_, haudit, hrest⟩ := bind_eq_ok h
  obtain ⟨_, -, hnone⟩ := bind_eq_ok hrest
  exact ⟨haudit, (Except.ok.inj hnone).symm⟩

theorem withoutExecutable_ok (hread : host.mountInfo = mounts.map renderTable)
    (hnone : trimmed options.sandboxExecutable = none) {result : Option JSString}
    (h : options.withoutExecutable host = .ok result) :
    result = none ∧ options.Fallback host mounts := by
  rw [withoutExecutable] at h
  split at h
  next workspaceRoot hroot =>
    split at h
    next hallow =>
      obtain ⟨haudit, rfl⟩ := fallback_of_audit h
      refine ⟨rfl, fun _ hsome => absurd (hnone.symm.trans hsome) nofun, ?_,
        fun hempty => absurd (hroot.symm.trans hempty) nofun⟩
      intro root hroot'
      obtain rfl : workspaceRoot = root := Option.some.inj (hroot.symm.trans hroot')
      exact ⟨hallow, mountsPass_of_workspaceScoped hread hroot haudit⟩
    next => cases h
  next hempty =>
    refine ⟨?_, fun _ hsome => absurd (hnone.symm.trans hsome) nofun,
      fun _ hroot => absurd (hempty.symm.trans hroot) nofun, fun _ hsome => ?_⟩
    · split at h
      · exact (fallback_of_audit h).2
      · exact (Except.ok.inj h).symm
    · rw [hnone] at hsome
      cases hsome

theorem afterFailure_ok (hread : host.mountInfo = mounts.map renderTable)
    {launcher error : JSString} (hlauncher : trimmed options.sandboxExecutable = some launcher)
    (hfailed : tryExecutable host launcher = .error error) {result : Option JSString}
    (h : options.afterFailure host error = .ok result) :
    result = none ∧ options.Fallback host mounts := by
  have hnotWorking : ∀ other, trimmed options.sandboxExecutable = some other →
      ¬ (host.accessExecutable other = .ok () ∧ host.probeSandbox other = .ok ()) := by
    intro other hother hworks
    obtain rfl : launcher = other := Option.some.inj (hlauncher.symm.trans hother)
    rw [tryExecutable_ok_iff.mpr hworks] at hfailed
    cases hfailed
  rw [afterFailure] at h
  split at h
  next workspaceRoot hroot =>
    split at h
    next hallow =>
      obtain ⟨haudit, rfl⟩ := fallback_of_audit h
      refine ⟨rfl, hnotWorking, ?_, fun hempty => absurd (hroot.symm.trans hempty) nofun⟩
      intro root hroot'
      obtain rfl : workspaceRoot = root := Option.some.inj (hroot.symm.trans hroot')
      exact ⟨hallow, mountsPass_of_workspaceScoped hread hroot haudit⟩
    next => cases h
  next hempty =>
    split at h
    next hallow =>
      obtain ⟨haudit, rfl⟩ := fallback_of_audit h
      exact ⟨rfl, hnotWorking, fun _ hroot => absurd (hempty.symm.trans hroot) nofun,
        fun _ _ => ⟨hallow, mountsPass_of_volumeFree hread haudit⟩⟩
    next => cases h

end Decision

/-- **The fallback is fail-closed** on every host but Windows.  A launcher is returned only when it
is the configured one and works; a start without one meets `Fallback`; everything else is an
error. -/
theorem resolveNativeSandbox_failClosed (options : NativeSandboxPolicyOptions)
    (accessExecutable probeSandbox : JSString → Except JSString Unit)
    (mounts : Except JSString (List Mount)) :
    let host : SandboxHost :=
      ⟨.posix, accessExecutable, probeSandbox, mounts.map renderTable⟩
    match options.resolveNativeSandbox host with
    | .error _ => True
    | .ok (some launcher) => trimmed options.sandboxExecutable = some launcher ∧
        accessExecutable launcher = .ok () ∧ probeSandbox launcher = .ok ()
    | .ok none => options.Fallback host mounts := by
  intro host
  cases hresult : options.resolveNativeSandbox host with
  | error message => exact trivial
  | ok result =>
      rw [resolveNativeSandbox] at hresult
      cases hlauncher : trimmed options.sandboxExecutable with
      | none =>
          rw [hlauncher] at hresult
          obtain ⟨rfl, hfallback⟩ := withoutExecutable_ok rfl hlauncher hresult
          exact hfallback
      | some launcher =>
          rw [hlauncher] at hresult
          cases htry : tryExecutable host launcher with
          | ok done =>
              obtain rfl : some launcher = result := by
                simpa [hlauncher, htry] using hresult
              exact ⟨rfl, tryExecutable_ok_iff.mp htry⟩
          | error message =>
              have hafter : options.afterFailure host message = .ok result := by
                simpa [hlauncher, htry] using hresult
              obtain ⟨rfl, hfallback⟩ := afterFailure_ok rfl hlauncher htry hafter
              exact hfallback

example : resolveNativeSandbox
    ⟨false, true, none, some (js " /my work "), none, none⟩
    ⟨.posix, fun _ => .error [], fun _ => .error [], .ok (renderTable
      [⟨36, 29, 8, 1, js "/share", js "/my work", js "rw", [js "master:1"], js "xfs", js "/dev/sda1",
        js "rw", by decide, by decide, ⟨by decide, by decide, by decide⟩,
        by simp [IsField]; decide, by decide, by decide⟩])⟩ = .ok none := by decide

end NativeSandboxPolicyOptions

end Typr
