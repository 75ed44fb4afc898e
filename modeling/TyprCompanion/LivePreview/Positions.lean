import TyprCompanion.LivePreview.RangeEdit

/-!
# Positions of offsets

The way from an offset to a position and back, and the replacement of a text that is built on it.

* `offsetToPosition`, `TexpressoSession.replaceText` — the code.
* `referencePosition` — the newlines before an offset, and its distance from the last of them.
* `offsetToPosition_eq` — the code finds it, except at the beginning of a source that begins with a
  newline: a backward search from before the source finds that newline.
* `positionToOffset_referencePosition`, `referencePosition_of_positionToOffset` — the forward loop is
  the inverse.
* **`roundTrip_iff`** — when offsets, positions and replacements agree.
-/

namespace Typr

/-! ## The code -/

/-- `value.lastIndexOf(unit, position)` for a one-unit needle: the search begins inside the value. -/
def JSString.lastIndexOf (s : JSString) (u : CodeUnit) (position : Int) : Option Nat :=
  let searched := s.take (position.toNat + 1)
  (searched.reverse.findIdx? (· == u)).map fun distance => searched.length - 1 - distance

/-- `value.indexOf(text)` -/
def JSString.indexOfText (s text : JSString) : Option Nat :=
  (List.range (s.length + 1)).find? fun start => text.isPrefixOf (s.drop start)

/-- A position before it is validated. -/
structure SourcePosition where
  line : Int
  column : Int
  deriving DecidableEq

/-- `offsetToPosition` -/
def offsetToPosition (source : JSString) (offset : Int) : Except JSString SourcePosition :=
  if offset < 0 ∨ (source.length : Int) < offset then
    .error (js "TeXpresso range offset is outside the UTF-16 source string.")
  else match source.lastIndexOf newline (offset - 1) with
    | none => .ok ⟨0, offset⟩
    | some previousLine =>
        .ok ⟨(JSString.split newline (source.take previousLine)).length, offset - previousLine - 1⟩

/-- The first check of `positionToOffset`. -/
def SourcePosition.validate (position : SourcePosition) : Except JSString TexpressoPosition :=
  if position.line < 0 ∨ position.column < 0 then
    .error (js "TeXpresso positions must contain non-negative integer line and character values.")
  else .ok ⟨position.line.toNat, position.column.toNat⟩

/-- `positionToOffset`, for any integers. -/
def SourcePosition.toOffset (source : JSString) (position : SourcePosition) : Except JSString Nat := do
  positionToOffset source (← position.validate)

/-- `TexpressoSession.applyRangeChange` up to its `await`, for any integers. -/
def TexpressoSession.applySourceRange (buffers : Buffers) (send : Except JSString Unit)
    (path : JSString) (start stop : SourcePosition) (replacement : JSString) :
    Except JSString Buffers := do
  let protocolPath := normalizePath path
  let some current := buffers protocolPath
    | throw (js "TeXpresso virtual file is not open: " ++ protocolPath)
  let startOffset ← start.toOffset current
  let endOffset ← stop.toOffset current
  if endOffset < startOffset then throw (js "TeXpresso change range end precedes its start.")
  send
  return buffers.set protocolPath (current.take startOffset ++ replacement ++ current.drop endOffset)

/-- `TexpressoSession.replaceText` up to the `await` of the change. -/
def TexpressoSession.replaceText (buffers : Buffers) (send : Except JSString Unit)
    (path expectedText replacement : JSString) : Except JSString Buffers := do
  let protocolPath := normalizePath path
  let some current := buffers protocolPath
    | throw (js "TeXpresso virtual file is not open: " ++ protocolPath)
  let some offset := current.indexOfText expectedText
    | throw (js "Expected text was not found in " ++ protocolPath ++ js ".")
  let startPosition ← offsetToPosition current offset
  let endPosition ← offsetToPosition current (offset + expectedText.length : Nat)
  TexpressoSession.applySourceRange buffers send path startPosition endPosition replacement

/-! ## The reference -/

/-- **The position of an offset**: the newlines before it, and the distance from the last of them. -/
def referencePosition (source : JSString) (offset : Nat) : TexpressoPosition :=
  let front := source.take offset
  ⟨front.count newline, (front.reverse.takeWhile (· != newline)).length⟩

/-- A validated position as the code passes it on. -/
def TexpressoPosition.toSource (p : TexpressoPosition) : SourcePosition := ⟨p.line, p.character⟩

@[simp] theorem validate_toSource (p : TexpressoPosition) : p.toSource.validate = .ok p := by
  have hnonneg : ¬ ((p.line : Int) < 0 ∨ (p.character : Int) < 0) := by omega
  simp [SourcePosition.validate, TexpressoPosition.toSource, hnonneg]

@[simp] theorem toOffset_toSource (source : JSString) (p : TexpressoPosition) :
    p.toSource.toOffset source = positionToOffset source p := by
  rw [SourcePosition.toOffset, validate_toSource]
  rfl

/-- On validated positions the two forms of the edit are one. -/
theorem applySourceRange_toSource (buffers : Buffers) (send : Except JSString Unit) (path : JSString)
    (start stop : TexpressoPosition) (replacement : JSString) :
    TexpressoSession.applySourceRange buffers send path start.toSource stop.toSource replacement
      = TexpressoSession.applyRangeChange buffers send path ⟨start, stop⟩ replacement := by
  unfold TexpressoSession.applySourceRange TexpressoSession.applyRangeChange
  cases hcurrent : buffers (normalizePath path) with
  | none => simp only [hcurrent]
  | some current => simp only [hcurrent, toOffset_toSource]

/-! ## The last newline -/

section LastNewline

variable {u : CodeUnit} {s t : JSString}

/-- A string is cut at the last separator in it. -/
theorem exists_last (h : u ∈ s) : ∃ front last, s = front ++ u :: last ∧ u ∉ last := by
  obtain ⟨last, front, heq, hlast⟩ := List.eq_append_cons_of_mem (List.mem_reverse.mpr h)
  refine ⟨front.reverse, last.reverse, ?_, by simpa using hlast⟩
  rw [← List.reverse_reverse s, heq]
  simp

/-- A text without a separator joins the first piece of what follows. -/
theorem split_append_of_not_mem (h : u ∉ s) (t : JSString) :
    ∃ piece pieces, JSString.split u t = piece :: pieces ∧
      JSString.split u (s ++ t) = (s ++ piece) :: pieces := by
  induction s with
  | nil =>
      obtain ⟨piece, pieces, heq⟩ := List.exists_cons_of_ne_nil (JSString.split_ne_nil u t)
      exact ⟨piece, pieces, heq, heq⟩
  | cons c rest ih =>
      simp only [List.mem_cons, not_or] at h
      obtain ⟨piece, pieces, ht, hrest⟩ := ih h.2
      refine ⟨piece, pieces, ht, ?_⟩
      rw [List.cons_append, JSString.split, if_neg (Ne.symm h.1), hrest]
      rfl

theorem length_split (u : CodeUnit) (s : JSString) :
    (JSString.split u s).length = s.count u + 1 := by
  induction s with
  | nil => rfl
  | cons c rest ih =>
      by_cases hc : c = u
      · simp [JSString.split, hc, ih]
      · obtain ⟨piece, pieces, hrest, hcons⟩ := JSString.split_cons_ne hc rest
        rw [hrest] at ih
        rw [hcons, List.count_cons_of_ne hc]
        simpa using ih

/-- The lines of a source that is cut at an offset: those before, and the one it falls into. -/
theorem exists_split_cut (front rest : JSString) : ∃ (lines : List JSString) (last piece : JSString)
    (pieces : List JSString), JSString.split newline front = lines ++ [last] ∧
      front.count newline = lines.length ∧
      (front.reverse.takeWhile (· != newline)).length = last.length ∧
      JSString.split newline (front ++ rest) = lines ++ (last ++ piece) :: pieces := by
  by_cases h : newline ∈ front
  · obtain ⟨before, last, rfl, hlast⟩ := exists_last h
    obtain ⟨piece, pieces, -, hsplit⟩ := split_append_of_not_mem hlast rest
    refine ⟨JSString.split newline before, last, piece, pieces, ?_, ?_, ?_, ?_⟩
    · rw [JSString.split_append, JSString.split_of_not_mem hlast]
    · rw [length_split, List.count_append, List.count_cons_self, List.count_eq_zero.mpr hlast]
    · rw [List.reverse_append, List.reverse_cons, List.append_assoc,
        List.takeWhile_append_of_pos fun c hc => ?_]
      · simp
      · exact bne_iff_ne.mpr fun heq => hlast (heq ▸ List.mem_reverse.mp hc)
    · rw [List.append_assoc, List.cons_append, JSString.split_append, hsplit]
  · obtain ⟨piece, pieces, -, hsplit⟩ := split_append_of_not_mem h rest
    refine ⟨[], front, piece, pieces, JSString.split_of_not_mem h, List.count_eq_zero.mpr h, ?_, hsplit⟩
    rw [List.takeWhile_eq_self_iff.mpr fun c hc => ?_]
    · exact List.length_reverse
    · exact bne_iff_ne.mpr fun heq => h (heq ▸ List.mem_reverse.mp hc)

end LastNewline

/-! ## From positions to offsets -/

section Positions

variable {source : JSString} {offset : Nat}

/-- **The position of an offset leads back to it.** -/
theorem positionToOffset_referencePosition (h : offset ≤ source.length) :
    positionToOffset source (referencePosition source offset) = .ok offset := by
  obtain ⟨lines, last, piece, pieces, hfront, hline, hcolumn, hsource⟩ :=
    exists_split_cut (source.take offset) (source.drop offset)
  rw [List.take_append_drop] at hsource
  have hposition : referencePosition source offset = ⟨lines.length, last.length⟩ := by
    rw [referencePosition, hline, hcolumn]
  have hget : (JSString.split newline source).getD lines.length [] = last ++ piece := by
    rw [hsource]
    simp
  have hin : (referencePosition source offset).IsIn (JSString.split newline source) := by
    rw [hposition]
    refine ⟨by rw [hsource]; simp, ?_⟩
    show last.length ≤ ((JSString.split newline source).getD lines.length []).length
    rw [hget]
    simp
  have hbefore : (referencePosition source offset).before (JSString.split newline source)
      = source.take offset := by
    rw [hposition, TexpressoPosition.before, hget, List.take_left, hsource, List.take_left, ← hfront,
      JSString.join_split]
  obtain ⟨-, hok⟩ | ⟨hnot, -⟩ := positionToOffset_eq source (referencePosition source offset)
  · rw [hok, hbefore, List.length_take, Nat.min_eq_left h]
  · exact absurd hin hnot

/-- **A position that is accepted is the position of its offset.** -/
theorem referencePosition_of_positionToOffset {p : TexpressoPosition}
    (h : positionToOffset source p = .ok offset) :
    offset ≤ source.length ∧ referencePosition source offset = p := by
  obtain ⟨hin, hok⟩ | ⟨-, e, herror⟩ := positionToOffset_eq source p
  · obtain rfl : (p.before (JSString.split newline source)).length = offset := by
      rw [hok] at h
      exact Except.ok.inj h
    have hcut := before_append_after hin.1
    rw [JSString.join_split] at hcut
    have htake : source.take (p.before (JSString.split newline source)).length
        = p.before (JSString.split newline source) := by
      generalize p.before (JSString.split newline source) = before at hcut ⊢
      rw [← hcut, List.take_left]
    refine ⟨?_, ?_⟩
    · generalize p.before (JSString.split newline source) = before at hcut ⊢
      rw [← hcut, List.length_append]
      exact Nat.le_add_right _ _
    · -- the text before the position splits into the lines before it and its part of the line
      have hclean : ∀ line ∈ (JSString.split newline source).take p.line
          ++ [((JSString.split newline source).getD p.line []).take p.character], newline ∉ line := by
        intro line hline
        rcases List.mem_append.mp hline with hline | hline
        · exact JSString.not_mem_of_mem_split (List.mem_of_mem_take hline)
        · obtain rfl := List.mem_singleton.mp hline
          have hmem : (JSString.split newline source).getD p.line [] ∈ JSString.split newline source := by
            rw [List.getD_eq_getElem?_getD, List.getElem?_eq_getElem hin.1, Option.getD_some]
            exact List.getElem_mem hin.1
          exact fun hnewline => JSString.not_mem_of_mem_split hmem (List.mem_of_mem_take hnewline)
      have hsplit := JSString.split_join (by simp) hclean
      obtain ⟨lines, last, -, -, hfront, hline, hcolumn, -⟩ := exists_split_cut
        (p.before (JSString.split newline source)) []
      rw [TexpressoPosition.before, hsplit] at hfront
      obtain ⟨hlines, hlast⟩ := List.append_inj' hfront rfl
      obtain rfl := List.singleton_inj.mp hlast
      rw [referencePosition, htake, hline, hcolumn, ← hlines, List.length_take, List.length_take,
        Nat.min_eq_left (Nat.le_of_lt hin.1), Nat.min_eq_left hin.2]
  · rw [herror] at h
    cases h

/-! ## From offsets to positions -/

theorem lastIndexOf_of_not_mem {u : CodeUnit} {s : JSString} {position : Int}
    (h : u ∉ s.take (position.toNat + 1)) : s.lastIndexOf u position = none := by
  rw [JSString.lastIndexOf, Option.map_eq_none_iff, List.findIdx?_eq_none_iff]
  intro c hc
  exact beq_false_of_ne fun heq => h (heq ▸ List.mem_reverse.mp hc)

theorem lastIndexOf_of_eq {u : CodeUnit} {s front last : JSString} {position : Int}
    (h : s.take (position.toNat + 1) = front ++ u :: last) (hlast : u ∉ last) :
    s.lastIndexOf u position = some front.length := by
  have hnone : last.reverse.findIdx? (· == u) = none := by
    rw [List.findIdx?_eq_none_iff]
    intro c hc
    exact beq_false_of_ne fun heq => hlast (heq ▸ List.mem_reverse.mp hc)
  have hfound : (front ++ u :: last).reverse.findIdx? (· == u) = some last.length := by
    rw [List.reverse_append, List.reverse_cons, List.append_assoc, List.findIdx?_append, hnone]
    simp [List.findIdx?_cons]
  rw [JSString.lastIndexOf, h, hfound, Option.map_some, List.length_append, List.length_cons]
  congr 1
  omega

/-- **What `offsetToPosition` returns** behind the first unit of a source, and before a source that
does not begin with a newline. -/
theorem offsetToPosition_eq (h : offset ≤ source.length)
    (hfirst : ¬ (offset = 0 ∧ source.head? = some newline)) :
    offsetToPosition source offset = .ok (referencePosition source offset).toSource := by
  have hrange : ¬ ((offset : Int) < 0 ∨ (source.length : Int) < offset) := by omega
  rw [offsetToPosition, if_neg hrange]
  by_cases hzero : offset = 0
  · subst hzero
    have hnone : newline ∉ source.take (((0 : Nat) : Int) - 1).toNat.succ := by
      intro hmem
      cases source with
      | nil => simp at hmem
      | cons c rest => exact hfirst ⟨rfl, by simpa using (List.mem_singleton.mp hmem).symm⟩
    rw [lastIndexOf_of_not_mem hnone]
    rfl
  · have hbound : ((offset : Int) - 1).toNat + 1 = offset := by omega
    by_cases hmem : newline ∈ source.take offset
    · obtain ⟨front, last, heq, hlast⟩ := exists_last hmem
      have hcut : front.length + 1 + last.length = offset := by
        have hlength := congrArg List.length heq
        rw [List.length_take, Nat.min_eq_left h, List.length_append, List.length_cons] at hlength
        omega
      have hfront : source.take front.length = front := by
        have htake := congrArg (List.take front.length) heq
        rwa [List.take_take, Nat.min_eq_left (by omega), List.take_left] at htake
      obtain ⟨lines, last', piece, pieces, hsplit, hline, hcolumn, -⟩ :=
        exists_split_cut (source.take offset) []
      rw [heq, JSString.split_append, JSString.split_of_not_mem hlast] at hsplit
      obtain ⟨hlines, hlast'⟩ := List.append_inj' hsplit rfl
      obtain rfl := List.singleton_inj.mp hlast'
      rw [lastIndexOf_of_eq (by rw [hbound, heq]) hlast]
      simp only [hfront, referencePosition, TexpressoPosition.toSource, hline, hcolumn, hlines,
        Except.ok.injEq, SourcePosition.mk.injEq, true_and]
      omega
    · rw [lastIndexOf_of_not_mem (by rwa [hbound])]
      obtain ⟨lines, last, piece, pieces, hsplit, hline, hcolumn, -⟩ :=
        exists_split_cut (source.take offset) []
      rw [JSString.split_of_not_mem hmem] at hsplit
      rw [← List.nil_append [source.take offset]] at hsplit
      obtain ⟨rfl, hlast⟩ := List.append_inj' hsplit rfl
      obtain rfl := List.singleton_inj.mp hlast
      simp only [referencePosition, TexpressoPosition.toSource, hline, hcolumn, List.length_nil,
        List.length_take, Nat.min_eq_left h]
      rfl

/-- Before a source that begins with a newline, the code is one line too far and a unit too near. -/
theorem offsetToPosition_zero (h : source.head? = some newline) :
    offsetToPosition source 0 = .ok ⟨1, -1⟩ := by
  cases source with
  | nil => cases h
  | cons c rest =>
      obtain rfl : c = newline := Option.some.inj h
      rfl

end Positions

/-! ## Replacements -/

/-- A text stands at an offset, and nowhere before it. -/
def FirstOccurrence (source text : JSString) (offset : Nat) : Prop :=
  text <+: source.drop offset ∧ ∀ before, before < offset → ¬ text <+: source.drop before

/-- The effect asked of a replacement in a session that is open. -/
def ReplacesAt (source expectedText : JSString) (offset : Nat) : Prop :=
  ∀ (buffers : Buffers) (path replacement : JSString), buffers (normalizePath path) = some source →
    TexpressoSession.replaceText buffers (.ok ()) path expectedText replacement
      = .ok (buffers.set (normalizePath path)
          (source.take offset ++ replacement ++ source.drop (offset + expectedText.length)))

section Replacing

variable {source expectedText : JSString} {offset : Nat}

theorem FirstOccurrence.le (h : FirstOccurrence source expectedText offset) :
    offset + expectedText.length ≤ source.length := by
  by_cases hlong : offset ≤ source.length
  · have hlength := h.1.length_le
    rw [List.length_drop] at hlength
    omega
  · -- only the empty text stands behind the end, and it stands everywhere
    have hnil : expectedText = [] := by
      have hprefix := h.1
      rwa [List.drop_eq_nil_of_le (by omega), List.prefix_nil] at hprefix
    exact absurd (hnil ▸ List.nil_prefix) (h.2 0 (by omega))

theorem indexOfText_of_firstOccurrence (h : FirstOccurrence source expectedText offset) :
    source.indexOfText expectedText = some offset := by
  have hle := h.le
  rw [JSString.indexOfText, List.find?_range_eq_some]
  refine ⟨List.isPrefixOf_iff_prefix.mpr h.1, List.mem_range.mpr (by omega), fun before hbefore => ?_⟩
  rw [Bool.not_eq_true', Bool.eq_false_iff]
  exact fun hprefix => h.2 before hbefore (List.isPrefixOf_iff_prefix.mp hprefix)

/-- The replacement is made where offsets and positions agree. -/
theorem replacesAt_of_agree (h : FirstOccurrence source expectedText offset)
    (hagree : ¬ (offset = 0 ∧ source.head? = some newline)) :
    ReplacesAt source expectedText offset := by
  intro buffers path replacement hcurrent
  have hle := h.le
  have hstop : ¬ (offset + expectedText.length = 0 ∧ source.head? = some newline) :=
    fun hzero => hagree ⟨by omega, hzero.2⟩
  have hstartPosition := offsetToPosition_eq (by omega : offset ≤ source.length) hagree
  have hstopPosition := offsetToPosition_eq hle hstop
  have hstart := positionToOffset_referencePosition (by omega : offset ≤ source.length)
  have hend := positionToOffset_referencePosition hle
  have horder : ¬ offset + expectedText.length < offset := by omega
  simp only [TexpressoSession.replaceText, hcurrent, indexOfText_of_firstOccurrence h,
    hstartPosition, hstopPosition, bind, Except.bind]
  rw [applySourceRange_toSource]
  simp only [TexpressoSession.applyRangeChange, hcurrent, hstart, hend, if_neg horder, bind,
    Except.bind, pure, Except.pure]

/-- The replacement of a text at the beginning of a source that begins with a newline fails. -/
theorem not_replacesAt_zero (h : FirstOccurrence source expectedText 0)
    (hnewline : source.head? = some newline) : ¬ ReplacesAt source expectedText 0 := by
  intro hreplaces
  have hok := hreplaces (fun _ => some source) [] [] rfl
  have hindex : source.indexOfText expectedText = some 0 := indexOfText_of_firstOccurrence h
  have hposition : offsetToPosition source ((0 : Nat) : Int) = .ok ⟨1, -1⟩ :=
    offsetToPosition_zero hnewline
  have hinvalid : (⟨1, -1⟩ : SourcePosition).toOffset source = .error
      (js "TeXpresso positions must contain non-negative integer line and character values.") := rfl
  have herror : ∀ stop, TexpressoSession.applySourceRange (fun _ => some source) (.ok ()) []
      ⟨1, -1⟩ stop [] = .error
        (js "TeXpresso positions must contain non-negative integer line and character values.") := by
    intro stop
    simp only [TexpressoSession.applySourceRange, hinvalid, bind, Except.bind]
  simp only [TexpressoSession.replaceText, hindex, hposition, bind, Except.bind, herror] at hok
  split at hok
  · cases hok
  · cases hok

end Replacing

/-! ## Agreement -/

/-- The position of an offset is the reference's, and leads back to it. -/
def RoundTrips (source : JSString) (offset : Nat) : Prop :=
  ∃ position : SourcePosition, offsetToPosition source offset = .ok position ∧
    position = (referencePosition source offset).toSource ∧ position.toOffset source = .ok offset

/-- **Offsets, positions and replacements agree** everywhere but at the beginning of a source that
begins with a newline.  The accepted positions are those of the offsets, in every source. -/
theorem roundTrip_iff (source : JSString) :
    (∀ offset ≤ source.length, RoundTrips source offset ↔
      ¬ (offset = 0 ∧ source.head? = some newline)) ∧
    (∀ position : SourcePosition, (∃ offset, position.toOffset source = .ok offset) ↔
      ∃ offset ≤ source.length, position = (referencePosition source offset).toSource) ∧
    (∀ (position : SourcePosition) offset, position.toOffset source = .ok offset →
      (offsetToPosition source offset = .ok position ↔
        ¬ (offset = 0 ∧ source.head? = some newline))) ∧
    (∀ expectedText offset, FirstOccurrence source expectedText offset →
      (ReplacesAt source expectedText offset ↔ ¬ (offset = 0 ∧ source.head? = some newline))) := by
  have haccepted : ∀ (position : SourcePosition) offset, position.toOffset source = .ok offset →
      offset ≤ source.length ∧ position = (referencePosition source offset).toSource := by
    intro position offset h
    by_cases hneg : position.line < 0 ∨ position.column < 0
    · simp [SourcePosition.toOffset, SourcePosition.validate, hneg, bind, Except.bind] at h
    · have hsource : position = (⟨position.line.toNat, position.column.toNat⟩ :
          TexpressoPosition).toSource := by
        simp only [TexpressoPosition.toSource]
        rw [Int.toNat_of_nonneg (by omega), Int.toNat_of_nonneg (by omega)]
      rw [hsource, toOffset_toSource] at h
      obtain ⟨hle, heq⟩ := referencePosition_of_positionToOffset h
      exact ⟨hle, by rw [heq]; exact hsource⟩
  have hzero : ∀ {offset : Nat} {position : SourcePosition}, offset = 0 ∧ source.head? = some newline →
      position = (referencePosition source offset).toSource →
      offsetToPosition source offset ≠ .ok position := by
    rintro offset position ⟨rfl, hnewline⟩ rfl heq
    have hfar : offsetToPosition source ((0 : Nat) : Int) = .ok ⟨1, -1⟩ :=
      offsetToPosition_zero hnewline
    rw [hfar, Except.ok.injEq, TexpressoPosition.toSource, SourcePosition.mk.injEq] at heq
    omega
  refine ⟨fun offset hle => ⟨?_, fun hagree => ?_⟩, fun position => ⟨?_, ?_⟩,
    fun position offset h => ⟨fun heq hbad => hzero hbad (haccepted position offset h).2 heq,
      fun hagree => ?_⟩, fun expectedText offset h => ⟨?_, replacesAt_of_agree h⟩⟩
  · rintro ⟨position, hok, heq, -⟩ hbad
    exact hzero hbad heq hok
  · refine ⟨_, offsetToPosition_eq hle hagree, rfl, ?_⟩
    rw [toOffset_toSource, positionToOffset_referencePosition hle]
  · rintro ⟨offset, hok⟩
    exact ⟨offset, haccepted position offset hok⟩
  · rintro ⟨offset, hle, rfl⟩
    exact ⟨offset, by rw [toOffset_toSource, positionToOffset_referencePosition hle]⟩
  · obtain ⟨hle, rfl⟩ := haccepted position offset h
    exact offsetToPosition_eq hle hagree
  · rintro hreplaces ⟨rfl, hnewline⟩
    exact not_replacesAt_zero h hnewline hreplaces

/-- The first offset of a source that is one newline has no position. -/
theorem roundTrip_leading_newline :
    ¬ ∀ (source : JSString) (offset : Nat), offset ≤ source.length → RoundTrips source offset := by
  intro h
  obtain ⟨position, hok, -, hback⟩ := h [newline] 0 (Nat.zero_le _)
  obtain rfl : (⟨1, -1⟩ : SourcePosition) = position := Except.ok.inj hok
  cases hback

end Typr
