import TyprCompanion.Core.FileSystem
import TyprCompanion.Js.Base64
import TyprCompanion.Js.Json

/-!
# Downloads

How the provider manager fetches the archive of a provider, checks it and hands it to the extraction.

* `download`, `runInstall` — the program; every `await` is one operation.
* `InstallEnvironment`, `Machine` — what the network and the disk do: the chunks that arrive, how much
  of each the disk stores, and which operations fail.
* `OnlyVerified` — the promise: the extraction reads the pinned archive, and the file stays small.
* `Passes` — the response and the stream are those of the pinned archive, and nothing fails.
* **`onlyVerified_iff`** — the promise is kept exactly when such a download has no short write.
-/

namespace Typr

open Core

/-! ## Data -/

/-- `DOWNLOAD_OVERHEAD_BYTES` -/
def DOWNLOAD_OVERHEAD_BYTES : Nat := 1024 * 1024

/-- `MAX_ARCHIVE_BYTES` -/
def MAX_ARCHIVE_BYTES : Nat := 300 * 1024 * 1024

/-- An archive of the catalog, as far as its download goes. -/
structure ProviderAsset where
  url : JSString
  sha256 : JSString
  size : Nat

inductive ProviderJobStatus where
  | queued
  | downloading
  | installing
  | completed
  | failed
  deriving DecidableEq

structure ProviderInstallJob where
  status : ProviderJobStatus
  downloadedBytes : Nat
  error : Option JSString
  deriving DecidableEq

/-- The head of a response. -/
structure FetchResponse where
  ok : Bool
  status : Nat
  hasBody : Bool
  url : JSString
  contentLength : Option JSString

/-- The functions of the platform a download uses: protocol and host name of `new URL(text)`, which is
`none` where that throws, `Number(text)`, and SHA-256. -/
structure DownloadPlatform where
  parseUrl : JSString → Option (JSString × JSString)
  number : JSString → JSNumber
  sha256 : Bytes → Bytes

/-- `allowedDownloadHost` -/
def allowedDownloadHost (hostname : JSString) : Bool :=
  hostname == js "github.com" || hostname == js "objects.githubusercontent.com" ||
    JSString.endsWith hostname (js ".githubusercontent.com")

/-! ## The program -/

/-- What an installation waits for, and its assignments to the job.  `finish` is what follows the
extraction: it finds the executables, moves the tree and saves the state. -/
inductive InstallOp where
  | mkdirStaging
  | fetch (url : JSString)
  | openFile
  | next
  | write (chunk : Bytes)
  | close
  | mkdirExtracted
  | extract
  | finish
  | removeStaging
  | setStatus (status : ProviderJobStatus)
  | setDownloaded (downloaded : Nat)
  | setError (message : JSString)
  deriving DecidableEq

/-- What an operation returns; `write` returns the number of bytes it stored, and `next` is `none` at
the end of the stream. -/
abbrev InstallOp.Result : InstallOp → Type
  | fetch _ => FetchResponse
  | next => Option Bytes
  | write _ => Nat
  | _ => Unit

/-- An operation may throw, with a message. -/
abbrev InstallOp.Reply (op : InstallOp) : Type := Except JSString op.Result

/-- A program of an installation; what it throws is the message. -/
abbrev InstallProg (α : Type) := Prog InstallOp InstallOp.Reply JSString α

/-- Perform an operation; its error is thrown. -/
def await (op : InstallOp) : InstallProg op.Result := .perform op Prog.ofExcept

/-- The loop over the body: what was received is counted, hashed and written.  The signal of the
request aborts the stream after so many chunks at the latest. -/
def receive (asset : ProviderAsset) : Nat → Nat → Bytes → InstallProg (Nat × Bytes)
  | 0, _, _ => throw (js "The operation was aborted due to timeout")
  | rounds + 1, downloaded, hashed => do
      match ← await .next with
      | none => pure (downloaded, hashed)
      | some chunk =>
          let downloaded := downloaded + chunk.length
          Prog.throwIf (asset.size + DOWNLOAD_OVERHEAD_BYTES < downloaded)
            (js "Provider download exceeded its pinned size.")
          let _ ← await (.write chunk)
          await (.setDownloaded downloaded)
          receive asset rounds downloaded (hashed ++ chunk)

namespace DownloadPlatform

variable (p : DownloadPlatform)

/-- `new URL(response.url || asset.url)` is on an allowed host over `https`. -/
def isTrusted (url : JSString × JSString) : Bool :=
  url.1 == js "https:" && allowedDownloadHost url.2

/-- `response.url || asset.url` -/
def finalUrl (asset : ProviderAsset) (response : FetchResponse) : JSString :=
  if response.url = [] then asset.url else response.url

/-- `Number(response.headers.get("content-length") ?? asset.size)` -/
def declaredLength (asset : ProviderAsset) (response : FetchResponse) : JSNumber :=
  match response.contentLength with
  | none => .integer asset.size
  | some text => p.number text

/-- `Number.isSafeInteger(declared) && declared <= asset.size + DOWNLOAD_OVERHEAD_BYTES` -/
def isExpected (asset : ProviderAsset) : JSNumber → Bool
  | .integer n => decide (n.natAbs ≤ MAX_SAFE_INTEGER ∧ n ≤ asset.size + DOWNLOAD_OVERHEAD_BYTES)
  | .other => false

/-- `download` -/
def download (rounds : Nat) (asset : ProviderAsset) : InstallProg Unit := do
  Prog.throwIf (asset.size ≤ 0 ∨ MAX_ARCHIVE_BYTES < asset.size)
    (js "Provider archive size is outside the allowed range.")
  let response ← await (.fetch asset.url)
  Prog.throwIf (response.ok = false ∨ response.hasBody = false)
    (js "Provider download failed (" ++ jsNat response.status ++ js ").")
  match p.parseUrl (finalUrl asset response) with
  | none => throw (js "Invalid URL")
  | some url =>
      Prog.throwIf (isTrusted url = false) (js "Provider download redirected to an untrusted host.")
      Prog.throwIf (isExpected asset (p.declaredLength asset response) = false)
        (js "Provider download declared an unexpected size.")
      await .openFile
      let (downloaded, hashed) ← (receive asset rounds 0 []).ensuring (await .close)
      Prog.throwIf (downloaded ≠ asset.size)
        (js "Provider download size mismatch: expected " ++ jsNat asset.size ++ js ", received " ++
          jsNat downloaded ++ js ".")
      Prog.throwIf (toHex (p.sha256 hashed) ≠ asset.sha256)
        (js "Provider download checksum mismatch.")

/-- The `try` of `runInstall`. -/
def installSteps (rounds : Nat) (asset : ProviderAsset) : InstallProg Unit := do
  await .mkdirStaging
  await (.setStatus .downloading)
  p.download rounds asset
  await (.setStatus .installing)
  await .mkdirExtracted
  await .extract
  await .finish
  await (.setStatus .completed)

/-- The `catch` of `runInstall`. -/
def failJob (message : JSString) : InstallProg Unit := do
  await (.setStatus .failed)
  await (.setError message)

/-- `runInstall` -/
def runInstall (rounds : Nat) (asset : ProviderAsset) : InstallProg Unit :=
  ((p.installSteps rounds asset).tryCatch failJob).ensuring
    ((await .removeStaging).tryCatch fun _ => pure ())

end DownloadPlatform

/-! ## The environment -/

/-- A chunk of the body, and what `file.write` makes of it: so many bytes are stored, and it may throw
after that. -/
structure Arrival where
  chunk : Bytes
  stored : Nat
  stored_le : stored ≤ chunk.length
  fault : Option JSString

/-- What the network and the disk will do. -/
structure InstallEnvironment where
  response : Except JSString FetchResponse
  arrivals : List Arrival
  ending : Option JSString
  /-- the operations that throw; of the response, the stream and the writes the fields above tell -/
  fault : InstallOp → Option JSString

/-- The archive on disk, the job, and the chunks still to come.  `extracting` records that the
extraction was started. -/
structure Machine where
  archive : Option Bytes
  job : ProviderInstallJob
  arrivals : List Arrival
  received : Option Arrival
  extracting : Bool

namespace InstallEnvironment

variable (env : InstallEnvironment)

/-- An installation that was just queued. -/
def queued : Machine := ⟨none, ⟨.queued, 0, none⟩, env.arrivals, none, false⟩

/-- An operation that throws as the environment says, or has this effect. -/
def attempt (op : InstallOp) (s t : Machine) : Except JSString Unit × Machine :=
  match env.fault op with
  | some message => (.error message, s)
  | none => (.ok (), t)

/-- What an operation replies and does.  A write appends the first bytes of the chunk that arrived. -/
def step : (op : InstallOp) → Machine → op.Reply × Machine
  | .mkdirStaging, s => env.attempt .mkdirStaging s s
  | .fetch _, s => (env.response, s)
  | .openFile, s => env.attempt .openFile s { s with archive := some [] }
  | .next, s => match s.arrivals with
      | [] => match env.ending with
          | none => (.ok none, s)
          | some message => (.error message, s)
      | arrival :: rest => (.ok (some arrival.chunk), { s with arrivals := rest, received := some arrival })
  | .write chunk, s => match s.received with
      | none => (.ok chunk.length, { s with archive := s.archive.map (· ++ chunk) })
      | some arrival =>
          let t := { s with archive := s.archive.map (· ++ chunk.take arrival.stored) }
          match arrival.fault with
          | some message => (.error message, t)
          | none => (.ok (chunk.take arrival.stored).length, t)
  | .close, s => env.attempt .close s s
  | .mkdirExtracted, s => env.attempt .mkdirExtracted s s
  | .extract, s => env.attempt .extract { s with extracting := true } { s with extracting := true }
  | .finish, s => env.attempt .finish s s
  | .removeStaging, s => env.attempt .removeStaging s { s with archive := none }
  | .setStatus status, s => (.ok (), { s with job := { s.job with status } })
  | .setDownloaded downloadedBytes, s => (.ok (), { s with job := { s.job with downloadedBytes } })
  | .setError message, s => (.ok (), { s with job := { s.job with error := some message } })

/-- The environment as a semantics of operations. -/
def Exec (op : InstallOp) (s : Machine) (reply : op.Reply) (t : Machine) : Prop :=
  env.step op s = (reply, t)

/-! ## The promise -/

/-- The bytes of the stream. -/
def body (arrivals : List Arrival) : Bytes := arrivals.flatMap Arrival.chunk

/-- The bytes of the stream that are stored. -/
def storedBody (arrivals : List Arrival) : Bytes :=
  arrivals.flatMap fun arrival => arrival.chunk.take arrival.stored

/-- The archive is no larger than its pinned size and the overhead. -/
def Small (asset : ProviderAsset) (s : Machine) : Prop :=
  ∀ bytes, s.archive = some bytes → bytes.length ≤ asset.size + DOWNLOAD_OVERHEAD_BYTES

/-- The response came from an allowed host over `https`. -/
def FromTrustedHost (p : DownloadPlatform) (asset : ProviderAsset) : Prop :=
  ∃ response url, env.response = .ok response ∧
    p.parseUrl (DownloadPlatform.finalUrl asset response) = some url ∧
    DownloadPlatform.isTrusted url = true

/-- The archive on disk is the pinned one. -/
def IsPinned (p : DownloadPlatform) (asset : ProviderAsset) (s : Machine) : Prop :=
  ∃ bytes, s.archive = some bytes ∧ bytes.length = asset.size ∧
    toHex (p.sha256 bytes) = asset.sha256

/-- A job that did not get as far as the extraction has failed. -/
def Ends (asset : ProviderAsset) (s : Machine) : Prop :=
  Small asset s ∧ (s.extracting = false → s.job.status = .failed)

/-- **Only verified bytes are installed**: where the extraction starts, the archive on disk is the
pinned one and came from a trusted host; the archive is small at every operation; and a job that does
not get as far as the extraction has failed. -/
def OnlyVerified (p : DownloadPlatform) (rounds : Nat) (asset : ProviderAsset) : Prop :=
  (p.runInstall rounds asset).wp env.Exec
    (fun s op => Small asset s ∧
      (op = .extract → env.FromTrustedHost p asset ∧ IsPinned p asset s))
    (fun _ => Ends asset) env.queued

/-- The response passes the checks of its head. -/
def Answered (p : DownloadPlatform) (asset : ProviderAsset) : Prop :=
  ∃ response url, env.response = .ok response ∧ response.ok = true ∧ response.hasBody = true ∧
    p.parseUrl (DownloadPlatform.finalUrl asset response) = some url ∧
    DownloadPlatform.isTrusted url = true ∧
    DownloadPlatform.isExpected asset (p.declaredLength asset response) = true

/-- The stream ends in time, and no write of it throws. -/
structure Streamed (rounds : Nat) (arrivals : List Arrival) : Prop where
  length : arrivals.length < rounds
  ending : env.ending = none
  fault : ∀ arrival ∈ arrivals, arrival.fault = none

/-- The stream is the pinned archive, from a trusted host, and nothing throws while it is fetched. -/
structure Fetches (p : DownloadPlatform) (rounds : Nat) (asset : ProviderAsset) : Prop where
  size : 0 < asset.size ∧ asset.size ≤ MAX_ARCHIVE_BYTES
  answered : env.Answered p asset
  streamed : env.Streamed rounds env.arrivals
  length : (body env.arrivals).length = asset.size
  checksum : toHex (p.sha256 (body env.arrivals)) = asset.sha256
  file : env.fault .openFile = none ∧ env.fault .close = none

/-- **The pinned archive arrives**, and nothing throws on the way to the extraction. -/
structure Passes (p : DownloadPlatform) (rounds : Nat) (asset : ProviderAsset) : Prop extends
    env.Fetches p rounds asset where
  directories : env.fault .mkdirStaging = none ∧ env.fault .mkdirExtracted = none

/-! ## Stored bytes -/

theorem length_storedBody_le (arrivals : List Arrival) :
    (storedBody arrivals).length ≤ (body arrivals).length := by
  induction arrivals with
  | nil => exact Nat.le_refl 0
  | cons arrival rest ih =>
      have hstored := arrival.stored_le
      simp only [storedBody, body, List.flatMap_cons, List.length_append, List.length_take] at ih ⊢
      omega

/-- No byte is missing exactly when every chunk is stored as a whole. -/
theorem length_storedBody_eq_iff (arrivals : List Arrival) :
    (storedBody arrivals).length = (body arrivals).length ↔
      ∀ arrival ∈ arrivals, arrival.stored = arrival.chunk.length := by
  induction arrivals with
  | nil => simp [storedBody, body]
  | cons arrival rest ih =>
      have hstored := arrival.stored_le
      have hrest := length_storedBody_le rest
      rw [List.forall_mem_cons, ← ih]
      simp only [storedBody, body, List.flatMap_cons, List.length_append, List.length_take] at hrest ⊢
      omega

/-- A stream that is stored as a whole. -/
theorem storedBody_eq {arrivals : List Arrival}
    (h : ∀ arrival ∈ arrivals, arrival.stored = arrival.chunk.length) :
    storedBody arrivals = body arrivals := by
  induction arrivals with
  | nil => rfl
  | cons arrival rest ih =>
      obtain ⟨harrival, hrest⟩ := List.forall_mem_cons.mp h
      have htake : arrival.chunk.take arrival.stored = arrival.chunk := by
        rw [harrival, List.take_length]
      simp only [storedBody, body, List.flatMap_cons] at ih ⊢
      rw [htake, ih hrest]

/-! ## The loop -/

section Rules

variable {env} {p : DownloadPlatform} {rounds : Nat} {asset : ProviderAsset}
variable {allowed : Machine → InstallOp → Prop} {s : Machine}

theorem wp_await {op : InstallOp} {post : Except JSString op.Result → Machine → Prop} :
    (await op).wp env.Exec allowed post s ↔
      allowed s op ∧ post (env.step op s).1 (env.step op s).2 := by
  refine and_congr_right fun _ => ⟨fun h => ?_, ?_⟩
  · exact (Prog.wp_ofExcept ..).mp (h _ _ rfl)
  · rintro h reply t hexec
    obtain ⟨rfl, rfl⟩ := Prod.mk.inj hexec
    exact (Prog.wp_ofExcept ..).mpr h

theorem wp_await_bind {β : Type} {op : InstallOp} {f : op.Result → InstallProg β}
    {post : Except JSString β → Machine → Prop} :
    (await op >>= f).wp env.Exec allowed post s ↔ allowed s op ∧
      Prog.afterBind env.Exec allowed post f (env.step op s).1 (env.step op s).2 := by
  rw [Prog.wp_bind]
  exact wp_await

/-- What is allowed on the way to the extraction. -/
def Early (asset : ProviderAsset) (s : Machine) (op : InstallOp) : Prop :=
  Small asset s ∧ op ≠ .extract

/-- How the loop ends: with everything counted and hashed and the stored bytes in the file, or because
the stream is broken or too long. -/
def Drained (env : InstallEnvironment) (rounds : Nat) (asset : ProviderAsset) (downloaded : Nat)
    (hashed bytes : Bytes) (arrivals : List Arrival) (r : Except JSString (Nat × Bytes))
    (t : Machine) : Prop :=
  t.extracting = false ∧ Small asset t ∧ match r with
    | .ok (n, h) => env.Streamed rounds arrivals ∧ n = downloaded + (body arrivals).length ∧
        h = hashed ++ body arrivals ∧ t.archive = some (bytes ++ storedBody arrivals)
    | .error _ => ¬ (env.Streamed rounds arrivals ∧
        downloaded + (body arrivals).length ≤ asset.size + DOWNLOAD_OVERHEAD_BYTES)

theorem wp_receive {downloaded : Nat} {hashed bytes : Bytes} {arrivals : List Arrival}
    (harchive : s.archive = some bytes) (harrivals : s.arrivals = arrivals) (hextracting : s.extracting = false) (hbytes : bytes.length ≤ downloaded)
    (hdownloaded : downloaded ≤ asset.size + DOWNLOAD_OVERHEAD_BYTES) :
    (receive asset rounds downloaded hashed).wp env.Exec (Early asset)
      (env.Drained rounds asset downloaded hashed bytes arrivals) s := by
  have hsmall : ∀ {t : Machine} {bytes : Bytes}, t.archive = some bytes →
      bytes.length ≤ asset.size + DOWNLOAD_OVERHEAD_BYTES → Small asset t := by
    intro t bytes ht hle bytes' ht'
    obtain rfl : bytes = bytes' := Option.some.inj (ht.symm.trans ht')
    exact hle
  induction rounds generalizing s downloaded hashed bytes arrivals with
  | zero =>
      refine ⟨hextracting, hsmall harchive (by omega), fun h => ?_⟩
      exact absurd h.1.length (Nat.not_lt_zero _)
  | succ rounds ih =>
      have hs := hsmall harchive (Nat.le_trans hbytes hdownloaded)
      rw [receive, Prog.wp_bind, wp_await]
      refine ⟨⟨hs, nofun⟩, ?_⟩
      cases arrivals with
      | nil =>
          simp only [step, harrivals]
          cases hending : env.ending with
          | none =>
              refine ⟨hextracting, hs, ⟨Nat.succ_pos _, hending, by simp⟩, rfl, ?_, ?_⟩
              · simp [body]
              · simpa [storedBody] using harchive
          | some message =>
              refine ⟨hextracting, hs, fun h => ?_⟩
              exact absurd (hending.symm.trans h.1.ending) nofun
      | cons arrival rest =>
          simp only [step, harrivals]
          rw [Prog.afterBind_ok]
          dsimp only
          have hbody : (body (arrival :: rest)).length
              = arrival.chunk.length + (body rest).length := by simp [body]
          rw [Prog.wp_bind, Prog.wp_throwIf]
          constructor
          · intro hlong
            refine ⟨hextracting, hs, fun h => ?_⟩
            have := h.2
            omega
          intro hshort
          have hstored : (bytes ++ arrival.chunk.take arrival.stored).length
              ≤ downloaded + arrival.chunk.length := by
            have := arrival.stored_le
            simp only [List.length_append, List.length_take]
            omega
          have harchive' : s.archive.map (· ++ arrival.chunk.take arrival.stored)
              = some (bytes ++ arrival.chunk.take arrival.stored) := by rw [harchive]; rfl
          rw [Prog.afterBind_ok]
          refine wp_await_bind.mpr ⟨⟨hs, nofun⟩, ?_⟩
          simp only [step]
          cases hfault : arrival.fault with
          | some message =>
              refine ⟨hextracting, hsmall harchive' (by omega), fun h => ?_⟩
              have hnone := h.1.fault arrival List.mem_cons_self
              exact absurd (hfault.symm.trans hnone) nofun
          | none =>
              rw [Prog.afterBind_ok]
              refine wp_await_bind.mpr ⟨⟨hsmall harchive' (by omega), nofun⟩, ?_⟩
              simp only [step]
              rw [Prog.afterBind_ok]
              have hrest : ∀ t : Machine,
                  t.archive = some (bytes ++ arrival.chunk.take arrival.stored) →
                  t.arrivals = rest → t.extracting = false →
                  (receive asset rounds (downloaded + arrival.chunk.length)
                    (hashed ++ arrival.chunk)).wp env.Exec (Early asset)
                    (env.Drained rounds asset (downloaded + arrival.chunk.length)
                      (hashed ++ arrival.chunk) (bytes ++ arrival.chunk.take arrival.stored) rest) t :=
                fun t h h' h'' => ih h h' h'' hstored (by omega)
              refine Prog.wp_post ?_ (hrest _ harchive' rfl hextracting)
              -- the rest of the stream, and this chunk before it
              have hstreamed : env.Streamed (rounds + 1) (arrival :: rest) ↔
                  env.Streamed rounds rest := by
                constructor
                · exact fun h => ⟨Nat.lt_of_succ_lt_succ h.length, h.ending,
                    (List.forall_mem_cons.mp h.fault).2⟩
                · exact fun h => ⟨Nat.succ_lt_succ h.length, h.ending,
                    List.forall_mem_cons.mpr ⟨hfault, h.fault⟩⟩
              rintro (e | ⟨n, h⟩) t ⟨hextracting', hsmall', hr⟩
              · refine ⟨hextracting', hsmall', ?_⟩
                rw [hstreamed, hbody]
                exact fun h => hr ⟨h.1, by omega⟩
              · obtain ⟨hends, hn, hh, hend⟩ := hr
                refine ⟨hextracting', hsmall', hstreamed.mpr hends, by omega, ?_, ?_⟩
                · rw [hh]
                  simp [body]
                · rw [hend]
                  simp [storedBody]

/-! ## The download -/

/-- How a download ends: with the stored bytes in the file, or because something is wrong with what
was fetched. -/
def Downloaded (env : InstallEnvironment) (p : DownloadPlatform) (rounds : Nat)
    (asset : ProviderAsset) (r : Except JSString Unit) (t : Machine) : Prop :=
  t.extracting = false ∧ Small asset t ∧ match r with
    | .ok () => env.Fetches p rounds asset ∧ t.archive = some (storedBody env.arrivals)
    | .error _ => ¬ env.Fetches p rounds asset

/-- The response a fetch is about. -/
theorem Answered.of_response {response : FetchResponse} (h : env.Answered p asset)
    (hresponse : env.response = .ok response) :
    response.ok = true ∧ response.hasBody = true ∧
      ∃ url, p.parseUrl (DownloadPlatform.finalUrl asset response) = some url ∧
        DownloadPlatform.isTrusted url = true ∧
        DownloadPlatform.isExpected asset (p.declaredLength asset response) = true := by
  obtain ⟨response', url, hresponse', hok, hbody, hurl, htrusted, hexpected⟩ := h
  obtain rfl : response = response' := Except.ok.inj (hresponse.symm.trans hresponse')
  exact ⟨hok, hbody, url, hurl, htrusted, hexpected⟩

theorem wp_download (harchive : s.archive = none) (harrivals : s.arrivals = env.arrivals)
    (hextracting : s.extracting = false) :
    (p.download rounds asset).wp env.Exec (Early asset) (env.Downloaded p rounds asset) s := by
  have hsmall : Small asset s := by
    intro bytes hbytes
    rw [harchive] at hbytes
    exact absurd hbytes nofun
  have hfail : ∀ {α : Type} {f : α → InstallProg Unit} {message : JSString},
      ¬ env.Fetches p rounds asset → Prog.afterBind env.Exec (Early asset)
        (env.Downloaded p rounds asset) f (.error message) s :=
    fun h => ⟨hextracting, hsmall, h⟩
  rw [DownloadPlatform.download, Prog.wp_bind, Prog.wp_throwIf]
  refine ⟨fun hsize => hfail fun h => ?_, fun hsize => ?_⟩
  · have := h.size
    omega
  rw [Prog.afterBind_ok]
  refine wp_await_bind.mpr ⟨⟨hsmall, nofun⟩, ?_⟩
  simp only [step]
  cases hresponse : env.response with
  | error message =>
      refine hfail fun h => ?_
      obtain ⟨_, _, hok, -⟩ := h.answered
      exact absurd (hresponse.symm.trans hok) nofun
  | ok response =>
  have hanswer := fun h : env.Fetches p rounds asset => h.answered.of_response hresponse
  rw [Prog.afterBind_ok, Prog.wp_bind, Prog.wp_throwIf]
  refine ⟨fun hbad => hfail fun h => ?_, fun hgood => ?_⟩
  · obtain ⟨hok, hbody, -⟩ := hanswer h
    simp [hok, hbody] at hbad
  rw [Prog.afterBind_ok]
  cases hurl : p.parseUrl (DownloadPlatform.finalUrl asset response) with
  | none =>
      refine ⟨hextracting, hsmall, fun h => ?_⟩
      obtain ⟨-, -, url, hsome, -⟩ := hanswer h
      exact absurd (hurl.symm.trans hsome) nofun
  | some url =>
  dsimp only
  rw [Prog.wp_bind, Prog.wp_throwIf]
  refine ⟨fun huntrusted => hfail fun h => ?_, fun htrusted => ?_⟩
  · obtain ⟨-, -, url', hsome, htrusted, -⟩ := hanswer h
    obtain rfl : url = url' := Option.some.inj (hurl.symm.trans hsome)
    exact absurd (huntrusted.symm.trans htrusted) nofun
  rw [Prog.afterBind_ok, Prog.wp_bind, Prog.wp_throwIf]
  refine ⟨fun hunexpected => hfail fun h => ?_, fun hexpected => ?_⟩
  · obtain ⟨-, -, _, -, -, hexpected⟩ := hanswer h
    exact absurd (hunexpected.symm.trans hexpected) nofun
  rw [Prog.afterBind_ok]
  refine wp_await_bind.mpr ⟨⟨hsmall, nofun⟩, ?_⟩
  simp only [step, attempt]
  cases hopen : env.fault .openFile with
  | some message =>
      exact hfail fun h => absurd (hopen.symm.trans h.file.1) nofun
  | none =>
  rw [Prog.afterBind_ok, Prog.wp_bind, Prog.wp_ensuring]
  refine Prog.wp_post ?_ (wp_receive rfl harrivals hextracting (Nat.le_refl 0) (Nat.zero_le _))
  rintro r t ⟨hextracting, hsmall, hr⟩
  refine wp_await.mpr ⟨⟨hsmall, nofun⟩, ?_⟩
  simp only [step, attempt]
  cases hclose : env.fault .close with
  | some message =>
      exact ⟨hextracting, hsmall, fun h => absurd (hclose.symm.trans h.file.2) nofun⟩
  | none =>
  cases r with
  | error message =>
      refine ⟨hextracting, hsmall, fun h => hr ⟨h.streamed, ?_⟩⟩
      rw [h.length]
      omega
  | ok counted =>
  obtain ⟨downloaded, hashed⟩ := counted
  obtain ⟨hstreamed, hcount, hhashed, harchive⟩ := hr
  rw [List.nil_append] at hhashed harchive
  rw [Nat.zero_add] at hcount
  rw [Prog.afterBind_ok]
  dsimp only
  rw [Prog.wp_bind, Prog.wp_throwIf]
  refine ⟨fun hdiffers => ⟨hextracting, hsmall, fun h => ?_⟩, fun hsize' => ?_⟩
  · exact hdiffers (hcount.trans h.length)
  rw [Prog.afterBind_ok, Prog.wp_throwIf]
  refine ⟨fun hdiffers => ⟨hextracting, hsmall, fun h => ?_⟩, fun hchecksum => ?_⟩
  · exact hdiffers (hhashed ▸ h.checksum)
  · have hgood := not_or.mp hgood
    refine ⟨hextracting, hsmall, ⟨by omega, ?_, hstreamed, ?_, ?_, hopen, hclose⟩, harchive⟩
    · exact ⟨response, url, hresponse, by simpa using hgood.1, by simpa using hgood.2, hurl,
        by simpa using htrusted, by simpa using hexpected⟩
    · exact hcount.symm.trans (not_not.mp hsize')
    · exact hhashed ▸ not_not.mp hchecksum

/-! ## The installation -/

/-- What `OnlyVerified` allows. -/
def Permitted (env : InstallEnvironment) (p : DownloadPlatform) (asset : ProviderAsset)
    (s : Machine) (op : InstallOp) : Prop :=
  Small asset s ∧ (op = .extract → env.FromTrustedHost p asset ∧ IsPinned p asset s)

theorem Early.permitted {op : InstallOp} (h : Early asset s op) : env.Permitted p asset s op :=
  ⟨h.1, fun hop => absurd hop h.2⟩

/-- An operation other than the extraction, which leaves the archive as it is. -/
theorem wp_attempt_bind {β : Type} {op : InstallOp} {f : op.Result → InstallProg β}
    {post : Except JSString β → Machine → Prop} (hop : op ≠ .extract) (hs : Small asset s)
    (h : Prog.afterBind env.Exec (env.Permitted p asset) post f (env.step op s).1
      (env.step op s).2) : (await op >>= f).wp env.Exec (env.Permitted p asset) post s :=
  wp_await_bind.mpr ⟨⟨hs, fun heq => absurd heq hop⟩, h⟩

/-- How the steps end: with the extraction done, or with an error. -/
def Stepped (asset : ProviderAsset) (r : Except JSString Unit) (t : Machine) : Prop :=
  match r with
  | .ok () => Ends asset t
  | .error _ => Small asset t

/-- What is thrown is caught, and the staging directory is removed in the end. -/
theorem wp_runInstall (h : (p.installSteps rounds asset).wp env.Exec (env.Permitted p asset)
      (Stepped asset) s) :
    (p.runInstall rounds asset).wp env.Exec (env.Permitted p asset) (fun _ => Ends asset) s := by
  have hremove : ∀ {t : Machine}, Ends asset t →
      ((await .removeStaging).tryCatch fun _ => pure ()).wp env.Exec (env.Permitted p asset)
        (fun _ => Ends asset) t := by
    intro t ht
    rw [Prog.wp_tryCatch]
    refine wp_await.mpr ⟨⟨ht.1, nofun⟩, ?_⟩
    simp only [step, attempt]
    cases env.fault .removeStaging with
    | some message => exact ht
    | none => exact ⟨fun _ hbytes => absurd hbytes nofun, ht.2⟩
  have hfail : ∀ {message : JSString} {t : Machine}, Small asset t →
      (DownloadPlatform.failJob message).wp env.Exec (env.Permitted p asset)
        (fun _ => Ends asset) t := by
    intro message t ht
    refine wp_attempt_bind nofun ht ?_
    exact wp_await.mpr ⟨⟨ht, nofun⟩, ht, fun _ => rfl⟩
  have hcaught : ((p.installSteps rounds asset).tryCatch DownloadPlatform.failJob).wp env.Exec
      (env.Permitted p asset) (fun _ => Ends asset) s := by
    rw [Prog.wp_tryCatch]
    refine Prog.wp_post ?_ h
    rintro (message | ⟨⟩) t ht
    · exact hfail ht
    · exact ht
  rw [DownloadPlatform.runInstall, Prog.wp_ensuring]
  refine Prog.wp_post (fun r t ht => Prog.wp_post (fun r' u hu => ?_) (hremove ht)) hcaught
  cases r' with
  | ok => exact hu
  | error => exact hu

/-- **A download that stores what it receives** is verified before it is extracted. -/
theorem onlyVerified_of_stored (h : env.Passes p rounds asset →
      ∀ arrival ∈ env.arrivals, arrival.stored = arrival.chunk.length) :
    env.OnlyVerified p rounds asset := by
  have hqueued : Small asset env.queued := fun _ hbytes => absurd hbytes nofun
  refine wp_runInstall ?_
  refine wp_attempt_bind nofun hqueued ?_
  simp only [step, attempt]
  cases hstaging : env.fault .mkdirStaging with
  | some message => exact hqueued
  | none =>
  rw [Prog.afterBind_ok]
  refine wp_attempt_bind nofun hqueued ?_
  rw [step, Prog.afterBind_ok, Prog.wp_bind]
  refine Prog.wp_mono (fun _ _ => Early.permitted) ?_ (wp_download rfl rfl rfl)
  rintro (message | ⟨⟩) t ⟨hextracting, hsmall, hr⟩
  · exact hsmall
  obtain ⟨hfetches, harchive⟩ := hr
  rw [Prog.afterBind_ok]
  refine wp_attempt_bind nofun hsmall ?_
  rw [step, Prog.afterBind_ok]
  refine wp_attempt_bind nofun hsmall ?_
  simp only [step, attempt]
  cases hextracted : env.fault .mkdirExtracted with
  | some message => exact hsmall
  | none =>
  rw [Prog.afterBind_ok]
  have hbody := storedBody_eq (h ⟨hfetches, hstaging, hextracted⟩)
  refine wp_await_bind.mpr ⟨⟨hsmall, fun _ => ⟨?_, ?_⟩⟩, ?_⟩
  · obtain ⟨response, url, hresponse, -, -, hurl, htrusted, -⟩ := hfetches.answered
    exact ⟨response, url, hresponse, hurl, htrusted⟩
  · refine ⟨body env.arrivals, ?_, hfetches.length, hfetches.checksum⟩
    rw [← hbody]
    exact harchive
  simp only [step, attempt]
  cases env.fault .extract with
  | some message => exact hsmall
  | none =>
  rw [Prog.afterBind_ok]
  refine wp_attempt_bind nofun hsmall ?_
  simp only [step, attempt]
  cases env.fault .finish with
  | some message => exact hsmall
  | none =>
  rw [Prog.afterBind_ok]
  exact wp_await.mpr ⟨⟨hsmall, nofun⟩, hsmall, nofun⟩

/-- **A short write is not noticed**: the extraction starts, and the archive lacks the bytes. -/
theorem stored_of_onlyVerified (h : env.OnlyVerified p rounds asset)
    (hpasses : env.Passes p rounds asset) :
    ∀ arrival ∈ env.arrivals, arrival.stored = arrival.chunk.length := by
  rw [OnlyVerified, DownloadPlatform.runInstall, Prog.wp_ensuring, Prog.wp_tryCatch] at h
  obtain ⟨-, h⟩ := wp_await_bind.mp h
  simp only [step, attempt, hpasses.directories.1] at h
  rw [Prog.afterBind_ok] at h
  obtain ⟨-, h⟩ := wp_await_bind.mp h
  rw [step, Prog.afterBind_ok, Prog.wp_bind] at h
  -- the one outcome of the download is the complete one
  have hdownloaded : (p.download rounds asset).wp env.Exec (Early asset)
      (env.Downloaded p rounds asset)
      { env.queued with job := { env.queued.job with status := .downloading } } :=
    wp_download rfl rfl rfl
  have heval : ∀ s, (p.download rounds asset).Eval env.Exec s
      ((p.download rounds asset).run env.step s).1 ((p.download rounds asset).run env.step s).2 :=
    fun s => Prog.eval_run (fun _ _ => rfl) _ s
  obtain ⟨⟨-, -, hr⟩, hrest⟩ := Prog.wp_sound (Prog.wp_both hdownloaded h) (heval _)
  generalize (Prog.run env.step (p.download rounds asset) _) = outcome at hr hrest
  obtain ⟨message | ⟨⟩, t⟩ := outcome
  · exact absurd hpasses.toFetches hr
  obtain ⟨-, harchive⟩ := hr
  rw [Prog.afterBind_ok] at hrest
  obtain ⟨-, hrest⟩ := wp_await_bind.mp hrest
  rw [step, Prog.afterBind_ok] at hrest
  obtain ⟨-, hrest⟩ := wp_await_bind.mp hrest
  simp only [step, attempt, hpasses.directories.2] at hrest
  rw [Prog.afterBind_ok] at hrest
  obtain ⟨⟨-, hpinned⟩, -⟩ := wp_await_bind.mp hrest
  obtain ⟨-, bytes, hbytes, hlength, -⟩ := hpinned rfl
  obtain rfl : storedBody env.arrivals = bytes := Option.some.inj (harchive.symm.trans hbytes)
  exact (length_storedBody_eq_iff _).mp (hlength.trans hpasses.length.symm)

end Rules

/-- **When only verified bytes are installed**: exactly when every write of a download that passes
stores its whole chunk.  The response, the stream and all its chunks, the writes and every failure are
arbitrary. -/
theorem onlyVerified_iff (p : DownloadPlatform) (rounds : Nat) (asset : ProviderAsset)
    (env : InstallEnvironment) : env.OnlyVerified p rounds asset ↔
      (env.Passes p rounds asset → ∀ arrival ∈ env.arrivals, arrival.stored = arrival.chunk.length) :=
  ⟨stored_of_onlyVerified, onlyVerified_of_stored⟩

end InstallEnvironment

/-! ## A short write -/

namespace ShortWrite

/-- A platform whose digest tells short texts apart. -/
def platform : DownloadPlatform where
  parseUrl _ := some (js "https:", js "github.com")
  number _ := .integer 4
  sha256 bytes := bytes

/-- An archive of four bytes. -/
def asset : ProviderAsset := ⟨js "https://github.com/a.zip", js "01020304", 4⟩

/-- The archive arrives in one chunk, of which the disk stores one half. -/
def environment : InstallEnvironment where
  response := .ok ⟨true, 200, true, [], some (js "4")⟩
  arrivals := [⟨[1, 2, 3, 4], 2, by decide, none⟩]
  ending := none
  fault _ := none

theorem passes : environment.Passes platform 2 asset where
  size := by decide
  answered := ⟨_, _, rfl, rfl, rfl, rfl, by decide, by decide⟩
  streamed := ⟨by decide, rfl, by decide⟩
  length := by decide
  checksum := by decide
  file := ⟨rfl, rfl⟩
  directories := ⟨rfl, rfl⟩

end ShortWrite

/-- One half of the archive is extracted. -/
theorem short_write_extracted : ¬ ∀ (p : DownloadPlatform) (rounds : Nat) (asset : ProviderAsset)
    (env : InstallEnvironment), env.OnlyVerified p rounds asset := by
  intro h
  have hstored := InstallEnvironment.stored_of_onlyVerified
    (h ShortWrite.platform 2 ShortWrite.asset ShortWrite.environment) ShortWrite.passes
    _ List.mem_cons_self
  exact absurd hstored (by decide)

end Typr
