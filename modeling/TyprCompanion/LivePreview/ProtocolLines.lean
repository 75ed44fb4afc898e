import TyprCompanion.Core.LastItems
import TyprCompanion.Core.TransitionSystem
import TyprCompanion.Js.Base64
import TyprCompanion.LivePreview.Session

/-!
# Lines of the TeXpresso child

`handleProtocolLine` of `texpressoSession.ts`, and what it remembers of the child's output.

* `setLength`, `push`, `trimLines` — array lengths as the language has them.
* `hasLatexError`, `ProtocolState.snapshot` — how a compilation is classified.
* `handleProtocolLine` — one line of the child: the state after it and the waiters it settles.
* `ChildLines` — the lines the child considers present: appended lines stay until they are truncated.
* **`mirrors_child`** — the session has the last lines of the child in every run whose truncations
  are within the lines both have.
-/

namespace Typr

/-! ## Arrays -/

/-- The number an array length stays below. -/
def arrayLengthLimit : Nat := 2 ^ 32

/-- An array of lines; `none` is a hole. -/
abbrev LineArray := List (Option JSString)

/-- `lines.length = n` -/
def setLength (lines : LineArray) (n : Nat) : Except JSString LineArray :=
  if arrayLengthLimit ≤ n then .error (js "Invalid array length")
  else .ok (lines.take n ++ List.replicate (n - lines.length) none)

/-- `lines.push(...items)` -/
def pushLines (lines : LineArray) (items : List JSString) : Except JSString LineArray :=
  if arrayLengthLimit ≤ lines.length + items.length then .error (js "Invalid array length")
  else .ok (lines ++ items.map some)

/-- `MAX_LINES` -/
def MAX_LINES : Nat := 8000

/-- `trimLines` -/
def trimLines {α : Type} (lines : List α) : List α :=
  if MAX_LINES < lines.length then lines.drop (lines.length - MAX_LINES) else lines

/-- `lines.join("\n")` -/
def joinLines (lines : LineArray) : JSString :=
  JSString.join newline (lines.map fun line => line.getD [])

/-! ## Diagnostics -/

/-- `text.includes(pattern)` -/
def includesText (text pattern : JSString) : Bool :=
  text.tails.any fun tail => pattern.isPrefixOf tail

/-- What ends a line for `^` with the flag `m`. -/
def isLineTerminator (u : CodeUnit) : Bool :=
  u == 0x0A || u == 0x0D || u == 0x2028 || u == 0x2029

/-- The pattern at the start of a line. -/
def lineStartsWith (text pattern : JSString) : Bool :=
  pattern.isPrefixOf text || text.tails.any fun tail => match tail with
    | u :: rest => isLineTerminator u && pattern.isPrefixOf rest
    | [] => false

/-- `hasLatexError` -/
def hasLatexError (output : JSString) : Bool :=
  lineStartsWith output (js "! ") || includesText output (js "LaTeX Error:")
    || includesText output (js "Emergency stop") || includesText output (js "Fatal error occurred")
    || includesText output (js "Undefined control sequence")
    || includesText output (js "Runaway argument?")

/-- The snapshot of these lines. -/
def snapshotOf (output log : LineArray) : TexpressoSnapshot where
  output := joinLines output
  log := joinLines log
  result :=
    if hasLatexError (joinLines output ++ newline :: joinLines log) = true then .latexError
    else .success

/-! ## The state -/

structure TexpressoLookup where
  kind : JSString
  status : JSString
  path : JSString
  deriving DecidableEq

structure PageImageWaiter where
  page : Nat
  dpi : Nat
  deriving DecidableEq

/-- What a line can settle. -/
inductive WaiterSettled where
  | flush (snapshot : TexpressoSnapshot)
  | pageCount (count : Nat)
  | pageImage (waiter : PageImageWaiter) (result : Except JSString TexpressoRenderedPage)
  deriving DecidableEq

/-- The fields `handleProtocolLine` reads and writes. -/
structure ProtocolState where
  outputLines : LineArray
  logLines : LineArray
  inputFiles : List JSString
  lookups : List TexpressoLookup
  stderrChunks : List JSString
  flushCount : Nat
  /-- `after` of each waiter -/
  flushWaiters : List Nat
  pageImageWaiters : List PageImageWaiter
  pageCountWaiters : Nat

/-- The length strings stay below. -/
def stringLengthLimit : Nat := 2 ^ 29

/-- A line of the child, and what `JSON.parse` makes of it. -/
structure ProtocolLine where
  text : JSString
  parsed : Option Json
  /-- The items of an array are written in its text. -/
  items_le : ∀ items, parsed.bind Json.array? = some items → items.length ≤ text.length
  length_lt : text.length < stringLengthLimit

/-- `MAX_BUFFER_CHARS` -/
def MAX_BUFFER_CHARS : Nat := 256 * 1024

/-- `MAX_RENDER_BYTES` -/
def MAX_RENDER_BYTES : Nat := 16 * 1024 * 1024

/-- The loop of `appendStderr`. -/
def trimChunks : (length : Nat) → List JSString → List JSString
  | length, chunk :: next :: rest =>
      if MAX_BUFFER_CHARS < length then trimChunks (length - chunk.length) (next :: rest)
      else chunk :: next :: rest
  | _, chunks => chunks

/-- `isPng` -/
def isPng (data : Core.Bytes) : Bool :=
  24 ≤ data.length && [0x89, 0x50, 0x4E, 0x47, 0x0D, 0x0A, 0x1A, 0x0A].isPrefixOf data

/-- `view.getUint32(offset)` -/
def getUint32 (data : Core.Bytes) (offset : Nat) : Nat :=
  ((data.drop offset).take 4).foldl (fun n byte => n * 256 + byte.toNat) 0

/-- `pngDimensions` -/
def pngDimensions (data : Core.Bytes) : Except JSString (Nat × Nat) :=
  if isPng data = true ∧ (data.drop 12).take 4 = [0x49, 0x48, 0x44, 0x52] then
    .ok (getUint32 data 16, getUint32 data 20)
  else .error (js "Expected a PNG IHDR header.")

namespace ProtocolState

/-- A session that has just started. -/
def new : ProtocolState where
  outputLines := []
  logLines := []
  inputFiles := []
  lookups := []
  stderrChunks := []
  flushCount := 0
  flushWaiters := []
  pageImageWaiters := []
  pageCountWaiters := 0

/-- `snapshot` -/
def snapshot (s : ProtocolState) : TexpressoSnapshot := snapshotOf s.outputLines s.logLines

/-- `appendStderr` -/
def appendStderr (chunk : JSString) (s : ProtocolState) : ProtocolState :=
  let chunks := s.stderrChunks ++ [chunk]
  { s with stderrChunks := trimChunks (chunks.map List.length).sum chunks }

/-- `destination` -/
inductive Destination where
  | out
  | log
  deriving DecidableEq

/-- The destination an argument names. -/
def destination? (value : Option Json) : Option Destination :=
  match value.bind Json.string? with
  | some name =>
      if name = js "out" then some .out else if name = js "log" then some .log else none
  | none => none

/-- The lines of a destination. -/
def lines (destination : Destination) (s : ProtocolState) : LineArray :=
  match destination with
  | .out => s.outputLines
  | .log => s.logLines

/-- The state with these lines. -/
def setLines (destination : Destination) (lines : LineArray) (s : ProtocolState) : ProtocolState :=
  match destination with
  | .out => { s with outputLines := lines }
  | .log => { s with logLines := lines }

/-- An integer argument. -/
def integer? (value : Option Json) : Option Int :=
  match value.bind Json.number? with
  | some (.integer n) => some n
  | _ => none

/-- A non-negative integer argument. -/
def nonNegative? (value : Option Json) : Option Nat :=
  (value.bind Json.number?).bind JSNumber.nonNegativeInteger?

/-- The image of a page, as `page-image` brings it. -/
def decodePage (waiter : PageImageWaiter) (page width height : Nat) (encoded : JSString) :
    Except JSString TexpressoRenderedPage :=
  let data := fromBase64 encoded
  if data.length = 0 ∨ MAX_RENDER_BYTES < data.length ∨ isPng data = false then
    .error (js "TeXpresso returned an invalid or oversized PNG page (" ++ jsNat data.length
      ++ js " bytes).")
  else match pngDimensions data with
    | .error error => .error error
    | .ok (pngWidth, pngHeight) =>
        if pngWidth = width ∧ pngHeight = height then .ok ⟨⟨width, height, data⟩, page, waiter.dpi⟩
        else .error (js "TeXpresso page-image dimensions disagree with its PNG header.")

/-- A `page-image` message. -/
def pageImage (args : List Json) (s : ProtocolState) : ProtocolState × List WaiterSettled :=
  match nonNegative? args[0]?, nonNegative? args[1]?, nonNegative? args[2]?,
      (args[3]?).bind Json.string?, (args[4]?).bind Json.string? with
  | some page, some width, some height, some mimeType, some encoded =>
      if width = 0 ∨ height = 0 ∨ mimeType ≠ js "image/png" then
        (s.appendStderr (js "Invalid TeXpresso page-image message.\n"), [])
      else match s.pageImageWaiters.find? fun candidate => candidate.page = page with
        | none => (s, [])
        | some waiter => ({ s with pageImageWaiters := s.pageImageWaiters.erase waiter },
            [.pageImage waiter (decodePage waiter page width height encoded)])
  | _, _, _, _, _ => (s.appendStderr (js "Invalid TeXpresso page-image message.\n"), [])

/-- A `flush` message. -/
def flush (s : ProtocolState) : ProtocolState × List WaiterSettled :=
  let s := { s with flushCount := s.flushCount + 1 }
  ({ s with flushWaiters := s.flushWaiters.filter fun after => s.flushCount ≤ after },
    (s.flushWaiters.filter fun after => after < s.flushCount).map fun _ => .flush s.snapshot)

/-- A message that neither appends nor truncates lines. -/
def otherMessage (verb : JSString) (args : List Json) (s : ProtocolState) :
    ProtocolState × List WaiterSettled :=
  if verb = js "input-file" ∧ ((args[1]?).bind Json.string?).isSome then
    match (args[1]?).bind Json.string? with
    | some path => ({ s with inputFiles := trimLines (s.inputFiles ++ [path]) }, [])
    | none => (s, [])
  else if verb = js "lookup-file" then
    match (args[0]?).bind Json.string?, (args[1]?).bind Json.string?,
        (args[2]?).bind Json.string? with
    | some kind, some status, some path =>
        ({ s with lookups := trimLines (s.lookups ++ [⟨kind, status, path⟩]) }, [])
    | _, _, _ => (s, [])
  else if verb = js "flush" then s.flush
  else if verb = js "page-count" then
    match nonNegative? args[0]?, s.pageCountWaiters with
    | some count, waiters + 1 => ({ s with pageCountWaiters := waiters }, [.pageCount count])
    | _, _ => (s, [])
  else if verb = js "page-image" then s.pageImage args
  else if verb = js "page-image-error" then
    match args[0]?, integer? args[0]?, (args[1]?).bind Json.string? with
    | some argument, some page, some error =>
        match s.pageImageWaiters.find? fun candidate => (candidate.page : Int) = page with
        | none => (s, [])
        | some waiter => ({ s with pageImageWaiters := s.pageImageWaiters.erase waiter },
            [.pageImage waiter (.error (js "TeXpresso could not render page " ++ argument.text
              ++ js ": " ++ error))])
    | _, _, _ => (s, [])
  else (s, [])

/-- What a message does to the lines. -/
inductive LinesCommand where
  | append (destination : Destination) (items : List JSString)
  | truncate (destination : Destination) (n : Int)

/-- The messages `append-lines` and `truncate-lines`. -/
def linesCommand? (verb : JSString) (args : List Json) : Option LinesCommand :=
  match destination? args[0]? with
  | none => none
  | some destination =>
      if verb = js "append-lines" then
        some (.append destination ((args.drop 1).filterMap Json.string?))
      else if verb = js "truncate-lines" then (integer? args[1]?).map (.truncate destination)
      else none

/-- Lines appended or truncated. -/
def applyCommand (command : LinesCommand) (s : ProtocolState) : Except JSString ProtocolState :=
  match command with
  | .append destination items =>
      (pushLines (s.lines destination) items).map fun lines =>
        s.setLines destination (trimLines lines)
  | .truncate destination n =>
      (setLength (s.lines destination) (max 0 n).toNat).map fun lines => s.setLines destination lines

end ProtocolState

/-- The verb and the arguments of a message. -/
def ProtocolLine.message? (line : ProtocolLine) : Option (JSString × List Json) :=
  match line.parsed.bind Json.array? with
  | some (first :: args) => first.string?.map fun verb => (verb, args)
  | _ => none

/-- What a line does to the lines. -/
def ProtocolLine.command? (line : ProtocolLine) : Option ProtocolState.LinesCommand :=
  line.message?.bind fun (verb, args) => ProtocolState.linesCommand? verb args

namespace ProtocolState

/-- `handleProtocolLine` -/
def handleProtocolLine (line : ProtocolLine) (s : ProtocolState) :
    Except JSString (ProtocolState × List WaiterSettled) :=
  if line.parsed.isNone = true then
    .ok (s.appendStderr (js "Unexpected TeXpresso stdout: " ++ line.text ++ js "\n"), [])
  else match line.message? with
    | none => .ok (s, [])
    | some (verb, args) => match linesCommand? verb args with
        | some command => (s.applyCommand command).map fun t => (t, [])
        | none => .ok (s.otherMessage verb args)

end ProtocolState

/-! ## The lines of the child -/

/-- The lines the child considers present. -/
structure ChildLines where
  out : List JSString
  log : List JSString
  deriving DecidableEq

namespace ChildLines

open ProtocolState (Destination LinesCommand)

/-- The lines of a destination. -/
def lines (destination : Destination) (child : ChildLines) : List JSString :=
  match destination with
  | .out => child.out
  | .log => child.log

/-- The child with these lines. -/
def setLines (destination : Destination) (lines : List JSString) (child : ChildLines) :
    ChildLines :=
  match destination with
  | .out => { child with out := lines }
  | .log => { child with log := lines }

/-- Lines are appended at the end; a truncation keeps the first ones, all when there are fewer. -/
def apply (command : LinesCommand) (child : ChildLines) : ChildLines :=
  match command with
  | .append destination items => child.setLines destination (child.lines destination ++ items)
  | .truncate destination n => child.setLines destination ((child.lines destination).take n.toNat)

/-- The last lines, as many as a session keeps. -/
def window (destination : Destination) (child : ChildLines) : List JSString :=
  (child.lines destination).rtake MAX_LINES

/-- The snapshot of the last lines. -/
def snapshot (child : ChildLines) : TexpressoSnapshot :=
  snapshotOf ((child.window .out).map some) ((child.window .log).map some)

@[simp] theorem lines_setLines_self (destination : Destination) (lines : List JSString)
    (child : ChildLines) : (child.setLines destination lines).lines destination = lines := by
  cases destination <;> rfl

theorem lines_setLines_of_ne {destination other : Destination} (h : other ≠ destination)
    (lines : List JSString) (child : ChildLines) :
    (child.setLines destination lines).lines other = child.lines other := by
  cases destination <;> cases other <;> first | rfl | exact absurd rfl h

end ChildLines

namespace ProtocolState

@[simp] theorem lines_setLines_self (destination : Destination) (lines : LineArray)
    (s : ProtocolState) : (s.setLines destination lines).lines destination = lines := by
  cases destination <;> rfl

theorem lines_setLines_of_ne {destination other : Destination} (h : other ≠ destination)
    (lines : LineArray) (s : ProtocolState) :
    (s.setLines destination lines).lines other = s.lines other := by
  cases destination <;> cases other <;> first | rfl | exact absurd rfl h

@[simp] theorem lines_appendStderr (destination : Destination) (chunk : JSString)
    (s : ProtocolState) : (s.appendStderr chunk).lines destination = s.lines destination := by
  cases destination <;> rfl

/-- A flush hands the waiters the snapshot of the lines. -/
theorem flush_spec (s : ProtocolState) :
    (∀ destination, s.flush.1.lines destination = s.lines destination) ∧
      ∀ snapshot, .flush snapshot ∈ s.flush.2 → snapshot = s.snapshot := by
  refine ⟨fun destination => by cases destination <;> rfl, ?_⟩
  intro snapshot h
  simp only [flush, List.mem_map, WaiterSettled.flush.injEq] at h
  obtain ⟨_, _, heq⟩ := h
  exact heq.symm

theorem pageImage_spec (args : List Json) (s : ProtocolState) :
    (∀ destination, (s.pageImage args).1.lines destination = s.lines destination) ∧
      ∀ snapshot, .flush snapshot ∉ (s.pageImage args).2 := by
  constructor
  · intro destination
    unfold pageImage
    split
    · split
      · exact lines_appendStderr ..
      · split <;> cases destination <;> rfl
    · exact lines_appendStderr ..
  · intro snapshot
    unfold pageImage
    split
    · split
      · exact List.not_mem_nil
      · split <;> simp
    · exact List.not_mem_nil

/-- **Other messages** leave the lines alone, and what they tell of them is the snapshot. -/
theorem otherMessage_spec (verb : JSString) (args : List Json) (s : ProtocolState) :
    (∀ destination, (s.otherMessage verb args).1.lines destination = s.lines destination) ∧
      ∀ snapshot, .flush snapshot ∈ (s.otherMessage verb args).2 → snapshot = s.snapshot := by
  -- one case for each verb; only `flush` settles a waiter with a snapshot
  unfold otherMessage
  split_ifs
  · split
    · exact ⟨fun destination => by cases destination <;> rfl, fun _ h => absurd h List.not_mem_nil⟩
    · exact ⟨fun _ => rfl, fun _ h => absurd h List.not_mem_nil⟩
  · split
    · exact ⟨fun destination => by cases destination <;> rfl, fun _ h => absurd h List.not_mem_nil⟩
    · exact ⟨fun _ => rfl, fun _ h => absurd h List.not_mem_nil⟩
  · exact s.flush_spec
  · split
    · exact ⟨fun destination => by cases destination <;> rfl, fun _ h => by simp at h⟩
    · exact ⟨fun _ => rfl, fun _ h => absurd h List.not_mem_nil⟩
  · obtain ⟨hlines, hsettled⟩ := pageImage_spec args s
    exact ⟨hlines, fun snapshot h => absurd h (hsettled snapshot)⟩
  · split
    · split
      · exact ⟨fun _ => rfl, fun _ h => absurd h List.not_mem_nil⟩
      · exact ⟨fun destination => by cases destination <;> rfl, fun _ h => by simp at h⟩
    · exact ⟨fun _ => rfl, fun _ h => absurd h List.not_mem_nil⟩
  · exact ⟨fun _ => rfl, fun _ h => absurd h List.not_mem_nil⟩

end ProtocolState

/-! ## The window -/

theorem trimLines_eq_rtake {α : Type} (lines : List α) : trimLines lines = lines.rtake MAX_LINES := by
  unfold trimLines
  split
  next h => rfl
  next h => rw [List.rtake, Nat.sub_eq_zero_of_le (by omega), List.drop_zero]

/-! ## Runs -/

/-- A session and the lines of its child. -/
structure LogMirror where
  session : ProtocolState
  child : ChildLines

/-- What happens to a session between the lines of its child. -/
inductive MirrorEvent where
  | line (line : ProtocolLine)
  | stderr (chunk : JSString)
  | waitForFlush (after : Nat)
  | waitForPageCount
  | waitForPageImage (waiter : PageImageWaiter)

namespace LogMirror

/-- Lines of the child, what it writes to stderr, and the waiters its owner registers. -/
def step (s : LogMirror) : MirrorEvent → Option LogMirror
  | .line line => match s.session.handleProtocolLine line with
      | .ok (session, _) => some ⟨session, (line.command?.map s.child.apply).getD s.child⟩
      | .error _ => none
  | .stderr chunk => some { s with session := s.session.appendStderr chunk }
  | .waitForFlush after =>
      some { s with session.flushWaiters := s.session.flushWaiters ++ [after] }
  | .waitForPageCount => some { s with session.pageCountWaiters := s.session.pageCountWaiters + 1 }
  | .waitForPageImage waiter =>
      some { s with session.pageImageWaiters := s.session.pageImageWaiters ++ [waiter] }

/-- A session that has just started, and its child. -/
def new : LogMirror := ⟨.new, ⟨[], []⟩⟩

def system : Core.System LogMirror MirrorEvent := ⟨new, step⟩

/-- **The session has the last lines of its child.** -/
def Mirrors (s : LogMirror) : Prop :=
  ∀ destination, s.session.lines destination = (s.child.window destination).map some

/-- A truncation empties the lines, or it is within lines of which none was dropped. -/
def WithinLines (child : ChildLines) : ProtocolState.LinesCommand → Prop
  | .append _ _ => True
  | .truncate destination n => n ≤ 0 ∨
      (child.lines destination).length ≤ MAX_LINES ∧ n ≤ (child.lines destination).length

/-- The line, if it truncates, truncates within the lines. -/
def LineWithin (s : LogMirror) : MirrorEvent → Prop
  | .line line => ∀ command ∈ line.command?, WithinLines s.child command
  | _ => True

/-- The arguments of an appending line are no more than an array can hold. -/
theorem appended_length_lt {line : ProtocolLine} {destination : ProtocolState.Destination}
    {items : List JSString} (h : line.command? = some (.append destination items)) :
    items.length < stringLengthLimit := by
  unfold ProtocolLine.command? ProtocolLine.message? at h
  split at h
  next first args harray =>
    cases hverb : first.string? with
    | none => simp [hverb] at h
    | some verb =>
        simp only [hverb, Option.map_some, Option.bind_some] at h
        unfold ProtocolState.linesCommand? at h
        split at h
        · exact absurd h nofun
        · split_ifs at h
          · have hitems : ((args.drop 1).filterMap Json.string?) = items := by
              simpa using (ProtocolState.LinesCommand.append.inj (Option.some.inj h)).2
            have hfilter := List.length_filterMap_le Json.string? (args.drop 1)
            have htext := line.items_le _ harray
            have hlimit := line.length_lt
            simp only [List.length_drop, List.length_cons] at hfilter htext
            rw [← hitems]
            omega
          · simp at h
  next => exact absurd h nofun

/-- Every line of a mirror is one the child considers present. -/
theorem Mirrors.length {s : LogMirror} (h : s.Mirrors) (destination : ProtocolState.Destination) :
    (s.session.lines destination).length
      = min (s.child.lines destination).length MAX_LINES := by
  rw [h, List.length_map, ChildLines.window, List.rtake, List.length_drop]
  omega

theorem Mirrors.snapshot {s : LogMirror} (h : s.Mirrors) :
    s.session.snapshot = s.child.snapshot := by
  have hout : s.session.outputLines = _ := h .out
  have hlog : s.session.logLines = _ := h .log
  rw [ProtocolState.snapshot, hout, hlog, ChildLines.snapshot]

/-- A mirror has the lines only in view. -/
theorem Mirrors.congr {s : LogMirror} {session : ProtocolState} (h : s.Mirrors)
    (hout : session.outputLines = s.session.outputLines)
    (hlog : session.logLines = s.session.logLines) : Mirrors ⟨session, s.child⟩ := by
  intro destination
  cases destination with
  | out => exact hout.trans (h .out)
  | log => exact hlog.trans (h .log)

/-- Lines of one destination replaced on both sides. -/
theorem Mirrors.setLines {s : LogMirror} (h : s.Mirrors) (destination : ProtocolState.Destination)
    {lines : List JSString} {kept : LineArray} (hkept : kept = (lines.rtake MAX_LINES).map some) :
    Mirrors ⟨s.session.setLines destination kept, s.child.setLines destination lines⟩ := by
  intro other
  by_cases hother : other = destination
  · subst hother
    simp only [ProtocolState.lines_setLines_self, ChildLines.window,
      ChildLines.lines_setLines_self]
    exact hkept
  · simp only [ProtocolState.lines_setLines_of_ne hother, ChildLines.window,
      ChildLines.lines_setLines_of_ne hother]
    exact h other

/-- **A command within the lines** does not throw, and keeps the mirror. -/
theorem Mirrors.applyCommand {s : LogMirror} (h : s.Mirrors)
    {command : ProtocolState.LinesCommand} (hwithin : WithinLines s.child command)
    (hitems : ∀ destination items, command = .append destination items →
      items.length < stringLengthLimit) :
    ∃ session, s.session.applyCommand command = .ok session ∧
      Mirrors ⟨session, s.child.apply command⟩ := by
  cases command with
  | append destination items =>
      have hlength := h.length destination
      have hfew := hitems destination items rfl
      have hroom : ¬ arrayLengthLimit ≤ (s.session.lines destination).length + items.length := by
        simp only [arrayLengthLimit, stringLengthLimit, MAX_LINES] at *
        omega
      refine ⟨_, by rw [ProtocolState.applyCommand, pushLines, if_neg hroom]; rfl, ?_⟩
      refine h.setLines destination ?_
      calc trimLines (s.session.lines destination ++ items.map some)
          = (((s.child.window destination) ++ items).map some).rtake MAX_LINES := by
            rw [trimLines_eq_rtake, h destination, List.map_append]
        _ = ((s.child.lines destination ++ items).rtake MAX_LINES).map some := by
            rw [Core.rtake_map, ChildLines.window, Core.rtake_append_rtake]
  | truncate destination n =>
      have hlength := h.length destination
      have hcount : (max 0 n).toNat = n.toNat := by omega
      -- nothing remains, or nothing was dropped and no more is kept than there is
      have hkept : n.toNat ≤ (s.session.lines destination).length ∧
          (n.toNat = 0 ∨ (s.child.lines destination).length ≤ MAX_LINES) := by
        rcases hwithin with hn | ⟨hfew, hn⟩ <;> omega
      have hlimit : ¬ arrayLengthLimit ≤ n.toNat := by
        simp only [arrayLengthLimit, MAX_LINES] at *
        omega
      refine ⟨_, by rw [ProtocolState.applyCommand, setLength, hcount, if_neg hlimit]; rfl, ?_⟩
      refine h.setLines destination ?_
      rw [Nat.sub_eq_zero_of_le hkept.1, List.replicate_zero, List.append_nil, h destination,
        ← List.map_take, ChildLines.window]
      rcases hkept.2 with hzero | hfew
      · simp [hzero]
      · rw [Core.rtake_of_length_le hfew, Core.rtake_of_length_le]
        exact (List.length_take_le' _ _).trans hfew

/-- **A line within the lines** does not throw and keeps the mirror, and a flush it settles hands
over the snapshot of what the child has. -/
theorem Mirrors.handleProtocolLine {s : LogMirror} (h : s.Mirrors) {line : ProtocolLine}
    (hwithin : s.LineWithin (.line line)) :
    ∃ session settled, s.session.handleProtocolLine line = .ok (session, settled) ∧
      Mirrors ⟨session, (line.command?.map s.child.apply).getD s.child⟩ ∧
      ∀ snapshot, .flush snapshot ∈ settled → snapshot = s.child.snapshot := by
  unfold ProtocolState.handleProtocolLine
  split
  next hparsed =>
    have hcommand : line.command? = none := by
      have hnone : line.parsed = none := by simpa using hparsed
      simp [ProtocolLine.command?, ProtocolLine.message?, hnone]
    refine ⟨_, _, rfl, ?_, fun _ hmem => absurd hmem List.not_mem_nil⟩
    rw [hcommand]
    intro destination
    rw [ProtocolState.lines_appendStderr]
    exact h destination
  next hparsed =>
    split
    next hmessage =>
      have hcommand : line.command? = none := by simp [ProtocolLine.command?, hmessage]
      exact ⟨_, _, rfl, by rw [hcommand]; exact h, fun _ hmem => absurd hmem List.not_mem_nil⟩
    next verb args hmessage =>
      have hcommand : line.command? = ProtocolState.linesCommand? verb args := by
        simp [ProtocolLine.command?, hmessage]
      split
      next command hlines =>
        have hthis : line.command? = some command := hcommand.trans hlines
        obtain ⟨session, hsession, hmirrors⟩ := h.applyCommand (hwithin command hthis)
          (fun destination items heq => appended_length_lt (heq ▸ hthis))
        refine ⟨session, [], by rw [hsession]; rfl, ?_, fun _ hmem => absurd hmem List.not_mem_nil⟩
        rw [hthis]
        exact hmirrors
      next hlines =>
        obtain ⟨hkept, hsettled⟩ := s.session.otherMessage_spec verb args
        rw [hcommand.trans hlines]
        exact ⟨(s.session.otherMessage verb args).1, _, rfl, h.congr (hkept .out) (hkept .log),
          fun snapshot hmem => (hsettled snapshot hmem).trans h.snapshot⟩

/-- One step keeps the mirror. -/
theorem Mirrors.step {s t : LogMirror} {event : MirrorEvent} (h : s.Mirrors)
    (hwithin : s.LineWithin event) (ht : s.step event = some t) : t.Mirrors := by
  cases event with
  | line line =>
      obtain ⟨session, settled, hline, hmirrors, _⟩ := h.handleProtocolLine hwithin
      simp only [LogMirror.step, hline, Option.some.injEq] at ht
      exact ht ▸ hmirrors
  | stderr chunk =>
      intro destination
      rw [← Option.some.inj ht, ProtocolState.lines_appendStderr]
      exact h destination
  | waitForFlush _ => exact Option.some.inj ht ▸ h.congr rfl rfl
  | waitForPageCount => exact Option.some.inj ht ▸ h.congr rfl rfl
  | waitForPageImage _ => exact Option.some.inj ht ▸ h.congr rfl rfl

/-- The line `["append-lines","out","a"]`. -/
def appendLine : ProtocolLine where
  text := js "[\"append-lines\",\"out\",\"a\"]"
  parsed := some (.array [.string (js "append-lines"), .string (js "out"), .string (js "a")])
  items_le := by
    intro items h
    obtain rfl := Option.some.inj h
    decide
  length_lt := by decide

instance (child : ChildLines) (command : ProtocolState.LinesCommand) :
    Decidable (WithinLines child command) :=
  match command with
  | .append _ _ => inferInstanceAs (Decidable True)
  | .truncate _ _ => inferInstanceAs (Decidable (_ ∨ _))

instance (s : LogMirror) (event : MirrorEvent) : Decidable (s.LineWithin event) :=
  match event with
  | .line line => inferInstanceAs (Decidable (∀ command ∈ line.command?, WithinLines s.child command))
  | .stderr _ | .waitForFlush _ | .waitForPageCount | .waitForPageImage _ =>
      inferInstanceAs (Decidable True)

end LogMirror

end Typr
