import TyprCompanion.LivePreview.WsProtocol

/-!
# Range edits

How an edit of the client changes a buffer.

* `positionToOffset` — the offset of a position in a source (`texpressoSession.ts`).
* `TexpressoSession.applyRangeChange`, `FullCompileLiveSession.applyRangeChange` — the splice in the
  two backends: what a call does before it first waits.
* `referenceEdit` — the meaning of an edit: split on newlines, zero-based line and UTF-16 character,
  end not before start.
* **`positionToOffset_eq`**, `texpresso_refines`, `fullCompile_refines` — the code has this meaning.
-/

namespace Typr

/-- `"\n"` -/
def newline : CodeUnit := unit '\n'

/-! ## The code -/

/-- The loop of `positionToOffset`: where the line starts, `none` when there is no such line. -/
def lineStartFrom (source : JSString) : (lines lineStart : Nat) → Option Nat
  | 0, lineStart => some lineStart
  | lines + 1, lineStart =>
      match source.indexOf newline lineStart with
      | none => none
      | some found => lineStartFrom source lines (found + 1)

/-- `positionToOffset` -/
def positionToOffset (source : JSString) (position : TexpressoPosition) : Except JSString Nat :=
  match lineStartFrom source position.line 0 with
  | none => .error (js "TeXpresso change position line is outside the UTF-16 source string.")
  | some lineStart =>
      let limit := (source.indexOf newline lineStart).getD source.length
      let offset := lineStart + position.character
      if limit < offset then
        .error (js "TeXpresso change position character is outside its UTF-16 source line.")
      else .ok offset

/-- `normalizePath`, `normalizeProtocolPath` -/
def normalizePath (path : JSString) : JSString :=
  let path := path.map fun u => if u = 0x5C then unit '/' else u
  if JSString.startsWith path (js "./") then path.drop 2 else path

/-- The open files by normalized path. -/
abbrev Buffers := JSString → Option JSString

/-- `buffers.set(path, content)` -/
def Buffers.set (buffers : Buffers) (path content : JSString) : Buffers :=
  fun q => if q = path then some content else buffers q

/-- The buffers of a session started with these files: of two files with one path, the later. -/
def openBuffers (files : List ProjectFile) : Buffers :=
  files.foldl (fun buffers file => match file with
    | .text path content => buffers.set (normalizePath path) content
    | .binary _ _ => buffers) fun _ => none

/-- `TexpressoSession.applyRangeChange` up to its `await`: the new buffers.  `send` is the outcome of
writing the command to the child. -/
def TexpressoSession.applyRangeChange (buffers : Buffers) (send : Except JSString Unit)
    (path : JSString) (range : TexpressoRange) (replacement : JSString) : Except JSString Buffers := do
  let protocolPath := normalizePath path
  let some current := buffers protocolPath
    | throw (js "TeXpresso virtual file is not open: " ++ protocolPath)
  let startOffset ← positionToOffset current range.start
  let endOffset ← positionToOffset current range.stop
  if endOffset < startOffset then throw (js "TeXpresso change range end precedes its start.")
  send
  return buffers.set protocolPath (current.take startOffset ++ replacement ++ current.drop endOffset)

/-- `FullCompileLiveSession.applyRangeChange` up to its first `await`: the new buffers. -/
def FullCompileLiveSession.applyRangeChange (buffers : Buffers) (assertOpen : Except JSString Unit)
    (path : JSString) (range : TexpressoRange) (replacement : JSString) : Except JSString Buffers := do
  assertOpen
  let normalized := normalizePath path
  let some current := buffers normalized
    | throw (js "Live-preview file is not open: " ++ normalized)
  let start ← positionToOffset current range.start
  let stop ← positionToOffset current range.stop
  if stop < start then throw (js "Live-preview change range end precedes its start.")
  let next := current.take start ++ replacement ++ current.drop stop
  return buffers.set normalized next

/-! ## The meaning of an edit -/

namespace TexpressoPosition

/-- The position is in the text: there is such a line, and the line is long enough. -/
def IsIn (lines : List JSString) (p : TexpressoPosition) : Prop :=
  p.line < lines.length ∧ p.character ≤ (lines.getD p.line []).length

instance (lines : List JSString) (p : TexpressoPosition) : Decidable (p.IsIn lines) :=
  inferInstanceAs (Decidable (_ ∧ _))

/-- The text before a position. -/
def before (lines : List JSString) (p : TexpressoPosition) : JSString :=
  JSString.join newline (lines.take p.line ++ [(lines.getD p.line []).take p.character])

/-- The text after a position. -/
def after (lines : List JSString) (p : TexpressoPosition) : JSString :=
  JSString.join newline ((lines.getD p.line []).drop p.character :: lines.drop (p.line + 1))

/-- The first position is not after the second. -/
def Precedes (p q : TexpressoPosition) : Prop :=
  p.line < q.line ∨ (p.line = q.line ∧ p.character ≤ q.character)

instance (p q : TexpressoPosition) : Decidable (p.Precedes q) :=
  inferInstanceAs (Decidable (_ ∨ _))

end TexpressoPosition

/-- **The reference edit**: `none` when the range is no range of the text. -/
def referenceEdit (text : JSString) (range : TexpressoRange) (replacement : JSString) :
    Option JSString :=
  let lines := JSString.split newline text
  if range.start.IsIn lines ∧ range.stop.IsIn lines ∧ range.start.Precedes range.stop then
    some (range.start.before lines ++ replacement ++ range.stop.after lines)
  else none

/-- The reference edit of the buffer a change names; an invalid one changes nothing. -/
def referenceChange (buffers : Buffers) (change : TexpressoChangeMessage) : Buffers :=
  match buffers (normalizePath change.path) with
  | none => buffers
  | some text =>
      match referenceEdit text change.range change.text with
      | none => buffers
      | some edited => buffers.set (normalizePath change.path) edited

/-! ## Offsets of positions -/

section Offsets

variable {lines : List JSString} {p q : TexpressoPosition}

theorem length_join_concat (u : CodeUnit) (front : List JSString) (last : JSString) :
    (JSString.join u (front ++ [last])).length
      = (front.map fun line => line.length + 1).sum + last.length := by
  induction front with
  | nil => simp [JSString.join]
  | cons line front ih =>
      cases hfront : front ++ [last] with
      | nil => simp at hfront
      | cons next rest =>
          rw [List.cons_append, hfront, JSString.join, ← hfront]
          · simp only [List.length_append, List.length_cons, ih, List.map_cons, List.sum_cons]
            omega
          · simp

/-- The number of units before a line. -/
def lineOffset (lines : List JSString) (n : Nat) : Nat :=
  ((lines.take n).map fun line => line.length + 1).sum

theorem lineOffset_succ {n : Nat} (h : n < lines.length) :
    lineOffset lines (n + 1) = lineOffset lines n + (lines.getD n []).length + 1 := by
  simp only [lineOffset, List.take_add_one, List.getElem?_eq_getElem h, Option.toList_some,
    List.map_append, List.sum_append, List.map_cons, List.map_nil, List.sum_cons, List.sum_nil,
    List.getD_eq_getElem?_getD, Option.getD_some]
  omega

theorem lineOffset_mono {m n : Nat} (h : m < n) (hn : n ≤ lines.length) :
    lineOffset lines m + (lines.getD m []).length < lineOffset lines n := by
  induction n with
  | zero => omega
  | succ n ih =>
      rw [lineOffset_succ (by omega)]
      by_cases hm : m = n
      · subst hm
        omega
      · have hlt := ih (by omega) (by omega)
        omega

theorem length_before (h : p.IsIn lines) :
    (p.before lines).length = lineOffset lines p.line + p.character := by
  rw [TexpressoPosition.before, length_join_concat, List.length_take, lineOffset,
    Nat.min_eq_left h.2]

/-- Positions are ordered as their offsets. -/
theorem length_before_le_iff (hp : p.IsIn lines) (hq : q.IsIn lines) :
    (p.before lines).length ≤ (q.before lines).length ↔ p.Precedes q := by
  rw [length_before hp, length_before hq, TexpressoPosition.Precedes]
  have hpline := hp.2
  have hqline := hq.2
  rcases Nat.lt_trichotomy p.line q.line with h | h | h
  · have hlt : lineOffset lines p.line + (lines.getD p.line []).length < lineOffset lines q.line :=
      lineOffset_mono h (Nat.le_of_lt hq.1)
    omega
  · rw [h]
    omega
  · have hlt : lineOffset lines q.line + (lines.getD q.line []).length < lineOffset lines p.line :=
      lineOffset_mono h (Nat.le_of_lt hp.1)
    omega

theorem join_cons (u : CodeUnit) (line : JSString) {rest : List JSString} (h : rest ≠ []) :
    JSString.join u (line :: rest) = line ++ u :: JSString.join u rest :=
  JSString.join_append (List.cons_ne_nil line []) h

/-- A position cuts the text in two. -/
theorem before_append_after (h : p.line < lines.length) :
    p.before lines ++ p.after lines = JSString.join newline lines := by
  obtain ⟨n, c⟩ := p
  simp only [TexpressoPosition.before, TexpressoPosition.after] at h ⊢
  induction n generalizing lines with
  | zero =>
      cases lines with
      | nil => simp at h
      | cons line rest =>
          by_cases hrest : rest = []
          · simp [hrest, JSString.join]
          · have hdrop := join_cons newline (line.drop c) hrest
            have hline := join_cons newline line hrest
            simp [JSString.join, hdrop, hline, ← List.append_assoc]
  | succ n ih =>
      cases lines with
      | nil => simp at h
      | cons line rest =>
          have hrest : rest ≠ [] := by
            rintro rfl
            simp at h
          have hline : n < rest.length := by simpa using h
          have hih := ih hline
          rw [join_cons newline line hrest, ← hih, List.take_succ_cons, List.cons_append,
            join_cons newline line (by simp)]
          simp

/-! ## The loop -/

theorem indexOf_join {before : JSString} {line : JSString} {rest : List JSString}
    (h : newline ∉ line) :
    (before ++ JSString.join newline (line :: rest)).indexOf newline before.length
      = if rest = [] then none else some (before.length + line.length) := by
  have hline : line.findIdx? (· == newline) = none := by
    rw [List.findIdx?_eq_none_iff]
    rintro u hu
    rw [beq_eq_false_iff_ne]
    rintro rfl
    exact h hu
  rw [JSString.indexOf, List.drop_left]
  by_cases hrest : rest = []
  · rw [if_pos hrest, hrest, JSString.join, hline, Option.map_none]
  · rw [if_neg hrest, join_cons newline line hrest, List.findIdx?_append, hline]
    simp [List.findIdx?_cons, Nat.add_comm]

/-- The loop finds the offset of the line. -/
theorem lineStartFrom_join (hne : lines ≠ []) (h : ∀ line ∈ lines, newline ∉ line) (n : Nat)
    (before : JSString) :
    lineStartFrom (before ++ JSString.join newline lines) n before.length
      = if n < lines.length then some (before.length + lineOffset lines n) else none := by
  induction n generalizing lines before with
  | zero =>
      rw [lineStartFrom, if_pos (List.length_pos_iff.mpr hne)]
      simp [lineOffset]
  | succ n ih =>
      cases lines with
      | nil => exact absurd rfl hne
      | cons line rest =>
          rw [lineStartFrom, indexOf_join (h line (List.mem_cons_self ..))]
          by_cases hrest : rest = []
          · simp [hrest]
          · rw [if_neg hrest]
            have hsplit : before ++ JSString.join newline (line :: rest)
                = (before ++ line ++ [newline]) ++ JSString.join newline rest := by
              rw [join_cons newline line hrest]
              simp
            have hrec := ih hrest (fun seg hseg => h seg (List.mem_cons_of_mem _ hseg))
              (before ++ line ++ [newline])
            have hlength : (before ++ line ++ [newline]).length = before.length + line.length + 1 := by
              simp only [List.length_append, List.length_singleton]
            rw [hlength] at hrec
            simp only [hsplit, hrec, List.length_cons, Nat.add_lt_add_iff_right]
            split
            · simp only [lineOffset, List.take_succ_cons, List.map_cons, List.sum_cons,
                Option.some.injEq]
              omega
            · rfl

/-- **`positionToOffset` computes the offset of the position** when it is in the text, and throws
otherwise. -/
theorem positionToOffset_eq (source : JSString) (p : TexpressoPosition) :
    (p.IsIn (JSString.split newline source) ∧
        positionToOffset source p = .ok (p.before (JSString.split newline source)).length) ∨
      (¬ p.IsIn (JSString.split newline source) ∧ ∃ e, positionToOffset source p = .error e) := by
  obtain ⟨lines, hlines⟩ : ∃ lines, JSString.split newline source = lines := ⟨_, rfl⟩
  have hne : lines ≠ [] := hlines ▸ JSString.split_ne_nil newline source
  have hclean : ∀ line ∈ lines, newline ∉ line := fun line hline =>
    JSString.not_mem_of_mem_split (hlines ▸ hline)
  have hsource : JSString.join newline lines = source := hlines ▸ JSString.join_split newline source
  rw [hlines]
  have hstart := lineStartFrom_join hne hclean p.line []
  rw [List.nil_append, hsource, List.length_nil, Nat.zero_add] at hstart
  by_cases hline : p.line < lines.length
  · rw [if_pos hline] at hstart
    -- the end of the line, as the code finds it
    have hlimit : (source.indexOf newline (lineOffset lines p.line)).getD source.length
        = lineOffset lines p.line + (lines.getD p.line []).length := by
      have hin : TexpressoPosition.IsIn lines ⟨p.line, 0⟩ := ⟨hline, Nat.zero_le _⟩
      have hbefore := length_before hin
      have hcut := before_append_after (p := ⟨p.line, 0⟩) hline
      rw [hsource] at hcut
      have hmem : lines.getD p.line [] ∈ lines := by
        rw [List.getD_eq_getElem?_getD, List.getElem?_eq_getElem hline, Option.getD_some]
        exact List.getElem_mem hline
      have hindex : (TexpressoPosition.before lines ⟨p.line, 0⟩
            ++ JSString.join newline (lines.getD p.line [] :: lines.drop (p.line + 1))).indexOf newline
              (TexpressoPosition.before lines ⟨p.line, 0⟩).length = _ := indexOf_join (hclean _ hmem)
      have hafter : TexpressoPosition.after lines ⟨p.line, 0⟩
          = JSString.join newline (lines.getD p.line [] :: lines.drop (p.line + 1)) := rfl
      rw [← hafter, hcut, hbefore, Nat.add_zero] at hindex
      rw [hindex]
      split
      · next hlast =>
          rw [← hcut, List.length_append, hbefore, hafter, hlast]
          simp [JSString.join]
      · rfl
    by_cases hchar : p.character ≤ (lines.getD p.line []).length
    · refine .inl ⟨⟨hline, hchar⟩, ?_⟩
      have hnot : ¬ lineOffset lines p.line + (lines.getD p.line []).length
          < lineOffset lines p.line + p.character := by omega
      rw [length_before ⟨hline, hchar⟩]
      simp only [positionToOffset, hstart, hlimit, if_neg hnot]
    · refine .inr ⟨fun h => hchar h.2,
        js "TeXpresso change position character is outside its UTF-16 source line.", ?_⟩
      have hlt : lineOffset lines p.line + (lines.getD p.line []).length
          < lineOffset lines p.line + p.character := by omega
      simp only [positionToOffset, hstart, hlimit, if_pos hlt]
  · rw [if_neg hline] at hstart
    refine .inr ⟨fun h => hline h.1,
      js "TeXpresso change position line is outside the UTF-16 source string.", ?_⟩
    simp only [positionToOffset, hstart]

/-! ## Both backends perform the reference edit -/

/-- The splice between the offsets of two positions. -/
theorem splice_eq (hp : p.IsIn lines) (hq : q.IsIn lines) (replacement : JSString) :
    (JSString.join newline lines).take (p.before lines).length ++ replacement
        ++ (JSString.join newline lines).drop (q.before lines).length
      = p.before lines ++ replacement ++ q.after lines := by
  have htake := before_append_after hp.1
  have hdrop := before_append_after hq.1
  rw [← htake, List.take_left, htake, ← hdrop, List.drop_left]

/-- The offsets the code computes and the splice it makes are the reference edit. -/
theorem referenceEdit_cases (text : JSString) (range : TexpressoRange) (replacement : JSString) :
    (∃ start stop, positionToOffset text range.start = .ok start ∧
        positionToOffset text range.stop = .ok stop ∧ ¬ stop < start ∧
        referenceEdit text range replacement
          = some (text.take start ++ replacement ++ text.drop stop)) ∨
      (referenceEdit text range replacement = none ∧
        ((∃ e, positionToOffset text range.start = .error e) ∨
          (∃ start e, positionToOffset text range.start = .ok start ∧
            positionToOffset text range.stop = .error e) ∨
          ∃ start stop, positionToOffset text range.start = .ok start ∧
            positionToOffset text range.stop = .ok stop ∧ stop < start)) := by
  unfold referenceEdit
  rcases positionToOffset_eq text range.start with ⟨hstart, hstartOk⟩ | ⟨hstart, hstartError⟩
  · rcases positionToOffset_eq text range.stop with ⟨hstop, hstopOk⟩ | ⟨hstop, e, hstopError⟩
    · by_cases horder : range.start.Precedes range.stop
      · refine .inl ⟨_, _, hstartOk, hstopOk, ?_, ?_⟩
        · exact Nat.not_lt.mpr ((length_before_le_iff hstart hstop).mpr horder)
        · have hsplice := splice_eq hstart hstop replacement
          rw [JSString.join_split] at hsplice
          rw [if_pos ⟨hstart, hstop, horder⟩, hsplice]
      · refine .inr ⟨if_neg fun h => horder h.2.2, .inr (.inr ⟨_, _, hstartOk, hstopOk, ?_⟩)⟩
        exact Nat.lt_of_not_le fun h => horder ((length_before_le_iff hstart hstop).mp h)
    · exact .inr ⟨if_neg fun h => hstop h.2.1, .inr (.inl ⟨_, e, hstartOk, hstopError⟩)⟩
  · exact .inr ⟨if_neg fun h => hstart h.1, .inl hstartError⟩

/-- **A TeXpresso session** has the reference edit as its effect, or throws and leaves the buffers;
it throws on an invalid range. -/
theorem texpresso_refines (buffers : Buffers) (change : TexpressoChangeMessage)
    (send : Except JSString Unit) :
    (TexpressoSession.applyRangeChange buffers send change.path change.range change.text
        = .ok (referenceChange buffers change) ∧ send = .ok ()) ∨
      ((∃ e, TexpressoSession.applyRangeChange buffers send change.path change.range change.text
        = .error e) ∧ (send = .ok () → referenceChange buffers change = buffers)) := by
  simp only [TexpressoSession.applyRangeChange, referenceChange, bind, Except.bind, pure,
    Except.pure, throw, throwThe, MonadExceptOf.throw]
  cases hcurrent : buffers (normalizePath change.path) with
  | none => exact .inr ⟨⟨_, rfl⟩, fun _ => rfl⟩
  | some current =>
      rcases referenceEdit_cases current change.range change.text
        with ⟨start, stop, hstart, hstop, horder, hedit⟩ | ⟨hedit, hfail⟩
      · simp only [hstart, hstop, hedit, if_neg horder]
        cases send with
        | ok _ => exact .inl ⟨rfl, rfl⟩
        | error e => exact .inr ⟨⟨e, rfl⟩, by simp⟩
      · refine .inr ⟨?_, fun _ => by simp only [hedit]⟩
        rcases hfail with ⟨e, hstart⟩ | ⟨start, e, hstart, hstop⟩ | ⟨start, stop, hstart, hstop, hlt⟩
        · exact ⟨e, by simp only [hstart]⟩
        · exact ⟨e, by simp only [hstart, hstop]⟩
        · simp only [hstart, hstop, if_pos hlt]
          exact ⟨_, rfl⟩

/-- **A full-compile session** has the reference edit as its effect, or throws and leaves the
buffers; it throws on an invalid range. -/
theorem fullCompile_refines (buffers : Buffers) (change : TexpressoChangeMessage)
    (assertOpen : Except JSString Unit) :
    (FullCompileLiveSession.applyRangeChange buffers assertOpen change.path change.range change.text
        = .ok (referenceChange buffers change) ∧ assertOpen = .ok ()) ∨
      ((∃ e, FullCompileLiveSession.applyRangeChange buffers assertOpen change.path change.range
        change.text = .error e) ∧
          (assertOpen = .ok () → referenceChange buffers change = buffers)) := by
  simp only [FullCompileLiveSession.applyRangeChange, referenceChange, bind, Except.bind, pure,
    Except.pure, throw, throwThe, MonadExceptOf.throw]
  cases assertOpen with
  | error e => exact .inr ⟨⟨e, rfl⟩, by simp⟩
  | ok _ =>
      cases hcurrent : buffers (normalizePath change.path) with
      | none => exact .inr ⟨⟨_, rfl⟩, fun _ => rfl⟩
      | some current =>
          rcases referenceEdit_cases current change.range change.text
            with ⟨start, stop, hstart, hstop, horder, hedit⟩ | ⟨hedit, hfail⟩
          · simp only [hstart, hstop, hedit, if_neg horder]
            exact .inl ⟨trivial, trivial⟩
          · refine .inr ⟨?_, fun _ => by simp only [hedit]⟩
            rcases hfail
              with ⟨e, hstart⟩ | ⟨start, e, hstart, hstop⟩ | ⟨start, stop, hstart, hstop, hlt⟩
            · exact ⟨e, by simp only [hstart]⟩
            · exact ⟨e, by simp only [hstart, hstop]⟩
            · simp only [hstart, hstop, if_pos hlt]
              exact ⟨_, rfl⟩

end Offsets

end Typr
