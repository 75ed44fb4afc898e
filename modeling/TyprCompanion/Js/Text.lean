import Mathlib.Algebra.GroupWithZero.Nat
import Mathlib.Data.List.Basic
import Mathlib.Data.List.DropRight
import Mathlib.Data.List.Forall2
import Mathlib.Tactic.Common

/-!
# Strings as the runtime has them

A string is a sequence of UTF-16 code units; a lone surrogate is allowed.  Files and sockets carry
UTF-8, and the runtime converts: encoding writes U+FFFD for a lone surrogate, decoding writes it
for every maximal ill-formed piece.

* `JSString`, `js` — strings and literals.
* `split`, `startsWith`, `endsWith`, `indexOf` — the methods the program uses.
* `encodeUtf8`, `decodeUtf8` — the conversions, with `decodeUtf8_encodeUtf8`: a round trip only
  replaces lone surrogates, which no test for ASCII units notices.
-/

namespace Typr

/-- A UTF-16 code unit. -/
abbrev CodeUnit := UInt16

/-- A string of the program. -/
abbrev JSString := List CodeUnit

instance : LawfulBEq JSString := inferInstance

/-- The code units of one code point. -/
def utf16 (c : Nat) : JSString :=
  if c < 0x10000 then [UInt16.ofNat c]
  else [UInt16.ofNat (0xD800 + (c - 0x10000) / 0x400), UInt16.ofNat (0xDC00 + (c - 0x10000) % 0x400)]

/-- A string literal. -/
def js (s : String) : JSString := s.toList.flatMap fun c => utf16 c.toNat

/-- A one-unit literal. -/
def unit (c : Char) : CodeUnit := UInt16.ofNat c.toNat

namespace JSString

/-! ## Methods -/

/-- `value.startsWith(prefix)` -/
def startsWith (s pre : JSString) : Bool := pre.isPrefixOf s

/-- `value.endsWith(suffix)` -/
def endsWith (s suf : JSString) : Bool := suf.isSuffixOf s

/-- `value.toUpperCase()` as far as ASCII letters are concerned -/
def toUpperCase (s : JSString) : JSString :=
  s.map fun u => if 0x61 ≤ u.toNat ∧ u.toNat ≤ 0x7A then u - 0x20 else u

/-- `value.toLowerCase()` as far as ASCII letters are concerned -/
def toLowerCase (s : JSString) : JSString :=
  s.map fun u => if 0x41 ≤ u.toNat ∧ u.toNat ≤ 0x5A then u + 0x20 else u

/-- `value.replaceAll(u, v)` for one-unit strings -/
def replaceAll (s : JSString) (u v : CodeUnit) : JSString := s.map fun c => if c = u then v else c

/-- White space and line terminators. -/
def isWhiteSpace (u : CodeUnit) : Bool :=
  (0x09 ≤ u && u ≤ 0x0D) || u == 0x20 || u == 0xA0 || u == 0x1680 || (0x2000 ≤ u && u ≤ 0x200A) ||
    u == 0x2028 || u == 0x2029 || u == 0x202F || u == 0x205F || u == 0x3000 || u == 0xFEFF

/-- `value.trim()` -/
def trim (s : JSString) : JSString := (s.dropWhile isWhiteSpace).rdropWhile isWhiteSpace

/-- `value.includes(unit)` for a one-unit needle -/
def includes (s : JSString) (u : CodeUnit) : Bool := s.contains u

/-- `value.indexOf(unit, from)` for a one-unit needle; `none` where the source gets `-1` -/
def indexOf (s : JSString) (u : CodeUnit) (start : Nat) : Option Nat :=
  ((s.drop start).findIdx? (· == u)).map (· + start)

/-- `value.split(unit)` for a one-unit separator: never empty, and without the separator -/
def split (u : CodeUnit) : JSString → List JSString
  | [] => [[]]
  | c :: rest =>
      if c = u then [] :: split u rest
      else match split u rest with
        | [] => [[c]]
        | seg :: segs => (c :: seg) :: segs

/-- `value.split(/\r?\n/u)` -/
def splitLines : JSString → List JSString
  | [] => [[]]
  | 0x0D :: 0x0A :: rest => [] :: splitLines rest
  | c :: rest =>
      if c = 0x0A then [] :: splitLines rest
      else match splitLines rest with
        | [] => [[c]]
        | line :: lines => (c :: line) :: lines

/-- A unit at which `^` and `$` match under the flag `m`, and that `.` does not match. -/
def isLineTerminator (u : CodeUnit) : Bool := u == 0x0A || u == 0x0D || u == 0x2028 || u == 0x2029

/-- `value.replace(/^…$/gmu, …)`, by what becomes of a line: behind the part `line` of a line. -/
def replaceLines (f : JSString → JSString) (line : JSString) : JSString → JSString
  | [] => f line
  | u :: rest =>
      if isLineTerminator u then f line ++ u :: replaceLines f [] rest
      else replaceLines f (line ++ [u]) rest

/-- `segments.join(unit)` -/
def join (u : CodeUnit) : List JSString → JSString
  | [] => []
  | [seg] => seg
  | seg :: segs => seg ++ u :: join u segs

section Pieces

variable {u c : CodeUnit}

theorem split_nil (u : CodeUnit) : split u [] = [[]] := rfl

theorem split_cons (u c : CodeUnit) (rest : JSString) : split u (c :: rest)
    = if c = u then [] :: split u rest
      else match split u rest with
        | [] => [[c]]
        | seg :: segs => (c :: seg) :: segs := rfl

/-- A separator opens a new segment. -/
theorem split_cons_eq (h : c = u) (rest : JSString) : split u (c :: rest) = [] :: split u rest := by
  rw [split_cons, if_pos h]

theorem join_singleton (u : CodeUnit) (seg : JSString) : join u [seg] = seg := rfl

theorem join_cons_cons (u : CodeUnit) (seg seg' : JSString) (segs : List JSString) :
    join u (seg :: seg' :: segs) = seg ++ u :: join u (seg' :: segs) := rfl

theorem split_ne_nil (u : CodeUnit) (s : JSString) : split u s ≠ [] := by
  cases s with
  | nil => exact List.cons_ne_nil _ _
  | cons c rest =>
      rw [split_cons]
      split
      · exact List.cons_ne_nil _ _
      · split <;> exact List.cons_ne_nil _ _

theorem split_cons_ne (h : c ≠ u) (s : JSString) :
    ∃ seg segs, split u s = seg :: segs ∧ split u (c :: s) = (c :: seg) :: segs := by
  cases hs : split u s with
  | nil => exact absurd hs (split_ne_nil u s)
  | cons seg segs => exact ⟨seg, segs, rfl, by rw [split_cons, if_neg h, hs]⟩

/-- Joining what was split gives the string back. -/
@[simp] theorem join_split (u : CodeUnit) (s : JSString) : join u (split u s) = s := by
  induction s with
  | nil => rfl
  | cons c rest ih =>
      by_cases h : c = u
      · rw [split_cons_eq h]
        cases hs : split u rest with
        | nil => exact absurd hs (split_ne_nil u rest)
        | cons seg segs =>
            rw [hs] at ih
            rw [join_cons_cons, ih, h, List.nil_append]
      · obtain ⟨seg, segs, hs, hcons⟩ := split_cons_ne h rest
        rw [hs] at ih
        rw [hcons]
        cases segs with
        | nil =>
            rw [join_singleton] at ih ⊢
            rw [ih]
        | cons seg' segs =>
            rw [join_cons_cons] at ih ⊢
            rw [List.cons_append, ih]

theorem not_mem_of_mem_split {s seg : JSString} (h : seg ∈ split u s) : u ∉ seg := by
  induction s generalizing seg with
  | nil =>
      obtain rfl := List.mem_singleton.mp h
      exact List.not_mem_nil
  | cons c rest ih =>
      by_cases hc : c = u
      · rw [split_cons_eq hc] at h
        rcases List.mem_cons.mp h with rfl | h
        · exact List.not_mem_nil
        · exact ih h
      · obtain ⟨first, segs, hs, hcons⟩ := split_cons_ne hc rest
        rw [hcons] at h
        rw [hs] at ih
        rcases List.mem_cons.mp h with rfl | h
        · intro hmem
          rcases List.mem_cons.mp hmem with heq | hmem
          · exact hc heq.symm
          · exact ih (List.mem_cons_self ..) hmem
        · exact ih (List.mem_cons_of_mem _ h)

/-- Every other unit stands in a segment. -/
theorem exists_mem_split (hc : c ≠ u) {s : JSString} (h : c ∈ s) : ∃ seg ∈ split u s, c ∈ seg := by
  induction s with
  | nil => cases h
  | cons d rest ih =>
      rcases List.mem_cons.mp h with rfl | h
      · obtain ⟨seg, segs, -, hcons⟩ := split_cons_ne hc rest
        rw [hcons]
        exact ⟨c :: seg, List.mem_cons_self .., List.mem_cons_self ..⟩
      · obtain ⟨found, hfound, hmem⟩ := ih h
        by_cases hd : d = u
        · rw [split_cons_eq hd]
          exact ⟨found, List.mem_cons_of_mem _ hfound, hmem⟩
        · obtain ⟨seg, segs, hs, hcons⟩ := split_cons_ne hd rest
          rw [hs] at hfound
          rw [hcons]
          rcases List.mem_cons.mp hfound with rfl | hfound
          · exact ⟨d :: found, List.mem_cons_self .., List.mem_cons_of_mem _ hmem⟩
          · exact ⟨found, List.mem_cons_of_mem _ hfound, hmem⟩

theorem split_of_not_mem {s : JSString} (h : u ∉ s) : split u s = [s] := by
  induction s with
  | nil => rfl
  | cons c rest ih =>
      obtain ⟨hc, hrest⟩ := not_or.mp (mt List.mem_cons.mpr h)
      rw [split_cons, if_neg (Ne.symm hc), ih hrest]

/-- A separator splits a string into the pieces of both sides. -/
theorem split_append (u : CodeUnit) (s t : JSString) :
    split u (s ++ u :: t) = split u s ++ split u t := by
  induction s with
  | nil => rw [List.nil_append, split_cons_eq rfl, split_nil, List.singleton_append]
  | cons c rest ih =>
      by_cases hc : c = u
      · rw [List.cons_append, split_cons_eq hc, split_cons_eq hc, ih, List.cons_append]
      · obtain ⟨seg, segs, hs, hcons⟩ := split_cons_ne hc rest
        obtain ⟨seg', segs', hs', hcons'⟩ := split_cons_ne hc (rest ++ u :: t)
        rw [hs', hs, List.cons_append, List.cons.injEq] at ih
        rw [List.cons_append, hcons, hcons', ih.1, ih.2, List.cons_append]

theorem join_append {segs segs' : List JSString} (h : segs ≠ []) (h' : segs' ≠ []) :
    join u (segs ++ segs') = join u segs ++ u :: join u segs' := by
  induction segs with
  | nil => exact absurd rfl h
  | cons seg segs ih =>
      cases segs with
      | nil =>
          cases segs' with
          | nil => exact absurd rfl h'
          | cons seg' segs' => rfl
      | cons second segs =>
          have hrec := ih (List.cons_ne_nil _ _)
          rw [List.cons_append] at hrec
          rw [List.cons_append, List.cons_append, join_cons_cons, join_cons_cons, hrec,
            List.append_assoc, List.cons_append]

/-- Splitting what was joined gives the segments back. -/
theorem split_join {segs : List JSString} (hne : segs ≠ []) (h : ∀ seg ∈ segs, u ∉ seg) :
    split u (join u segs) = segs := by
  induction segs with
  | nil => exact absurd rfl hne
  | cons seg segs ih =>
      have hseg := h seg (List.mem_cons_self ..)
      cases segs with
      | nil => exact split_of_not_mem hseg
      | cons seg' segs =>
          rw [join_cons_cons, split_append, split_of_not_mem hseg,
            ih (List.cons_ne_nil _ _) fun s hs => h s (List.mem_cons_of_mem _ hs),
            List.singleton_append]

/-- A segment with separators in it only splits further. -/
theorem length_le_length_split_join (u : CodeUnit) (segs : List JSString) :
    segs.length ≤ (split u (join u segs)).length := by
  have hpos : ∀ s, 1 ≤ (split u s).length := fun s =>
    List.length_pos_iff.mpr (split_ne_nil u s)
  induction segs with
  | nil => exact Nat.zero_le _
  | cons first rest ih =>
      cases rest with
      | nil => exact hpos _
      | cons second rest =>
          have hfirst := hpos first
          rw [join_cons_cons, split_append, List.length_append, List.length_cons]
          omega

end Pieces

/-! ## UTF-8 -/

/-- The first half of a surrogate pair. -/
def isHighSurrogate (u : CodeUnit) : Bool := 0xD800 ≤ u.toNat && u.toNat < 0xDC00

/-- The second half of a surrogate pair. -/
def isLowSurrogate (u : CodeUnit) : Bool := 0xDC00 ≤ u.toNat && u.toNat < 0xE000

/-- The code points of a string, U+FFFD for a lone surrogate. -/
def codePoints : JSString → List Nat
  | [] => []
  | [u] => [if isHighSurrogate u || isLowSurrogate u then 0xFFFD else u.toNat]
  | u :: v :: rest =>
      if isHighSurrogate u && isLowSurrogate v then
        (0x10000 + (u.toNat - 0xD800) * 0x400 + (v.toNat - 0xDC00)) :: codePoints rest
      else
        (if isHighSurrogate u || isLowSurrogate u then 0xFFFD else u.toNat) ::
          codePoints (v :: rest)

/-- The UTF-8 bytes of one code point. -/
def utf8 (c : Nat) : List UInt8 :=
  if c < 0x80 then [UInt8.ofNat c]
  else if c < 0x800 then [UInt8.ofNat (0xC0 + c / 0x40), UInt8.ofNat (0x80 + c % 0x40)]
  else if c < 0x10000 then
    [UInt8.ofNat (0xE0 + c / 0x1000), UInt8.ofNat (0x80 + c / 0x40 % 0x40),
      UInt8.ofNat (0x80 + c % 0x40)]
  else
    [UInt8.ofNat (0xF0 + c / 0x40000), UInt8.ofNat (0x80 + c / 0x1000 % 0x40),
      UInt8.ofNat (0x80 + c / 0x40 % 0x40), UInt8.ofNat (0x80 + c % 0x40)]

/-- `Buffer.from(value)`, and how file names reach the operating system. -/
def encodeUtf8 (s : JSString) : List UInt8 := (codePoints s).flatMap utf8

/-- `Buffer.byteLength(value)` -/
def byteLength (s : JSString) : Nat := (encodeUtf8 s).length

/-- `value.toWellFormed()`: every lone surrogate becomes U+FFFD. -/
def toWellFormed (s : JSString) : JSString := (codePoints s).flatMap utf16

/-- A code point being decoded: continuation bytes still needed, the bits so far, and the range of
the next byte. -/
structure Partial where
  needed : Nat
  bits : Nat
  lower : Nat
  upper : Nat

/-- The first byte of a sequence: what it emits at once, and the sequence it opens. -/
def leadByte (b : UInt8) : JSString × Option Partial :=
  let b := b.toNat
  if b < 0x80 then ([UInt16.ofNat b], none)
  else if 0xC2 ≤ b ∧ b ≤ 0xDF then ([], some ⟨1, b - 0xC0, 0x80, 0xBF⟩)
  else if 0xE0 ≤ b ∧ b ≤ 0xEF then
    ([], some ⟨2, b - 0xE0, if b = 0xE0 then 0xA0 else 0x80, if b = 0xED then 0x9F else 0xBF⟩)
  else if 0xF0 ≤ b ∧ b ≤ 0xF4 then
    ([], some ⟨3, b - 0xF0, if b = 0xF0 then 0x90 else 0x80, if b = 0xF4 then 0x8F else 0xBF⟩)
  else ([0xFFFD], none)

/-- Decoding from the middle of a sequence. -/
def decodeFrom : Option Partial → List UInt8 → JSString
  | none, [] => []
  | some _, [] => [0xFFFD]
  | none, b :: rest => (leadByte b).1 ++ decodeFrom (leadByte b).2 rest
  | some p, b :: rest =>
      if p.lower ≤ b.toNat ∧ b.toNat ≤ p.upper then
        let bits := p.bits * 0x40 + (b.toNat - 0x80)
        if p.needed = 1 then utf16 bits ++ decodeFrom none rest
        else decodeFrom (some ⟨p.needed - 1, bits, 0x80, 0xBF⟩) rest
      else 0xFFFD :: (leadByte b).1 ++ decodeFrom (leadByte b).2 rest

/-- `buffer.toString("utf8")`, and how file names come back from the operating system. -/
def decodeUtf8 (bytes : List UInt8) : JSString := decodeFrom none bytes

/-! ### The round trip -/

/-- A Unicode scalar value. -/
def IsScalar (c : Nat) : Prop := c < 0xD800 ∨ (0xE000 ≤ c ∧ c < 0x110000)

theorem isScalar_codePoints (s : JSString) : ∀ c ∈ codePoints s, IsScalar c := by
  have hlone : ∀ u : CodeUnit,
      IsScalar (if isHighSurrogate u || isLowSurrogate u then 0xFFFD else u.toNat) := by
    intro u
    have hu := u.toNat_lt
    unfold IsScalar
    split
    · omega
    · next h =>
        simp only [isHighSurrogate, isLowSurrogate, Bool.or_eq_true, Bool.and_eq_true,
          decide_eq_true_eq] at h
        omega
  fun_induction codePoints s with
  | case1 => simp
  | case2 u =>
      intro c hc
      rw [List.mem_singleton.mp hc]
      exact hlone u
  | case3 u v rest h ih =>
      intro c hc
      rcases List.mem_cons.mp hc with heq | hc
      · simp only [isHighSurrogate, isLowSurrogate, Bool.and_eq_true, decide_eq_true_eq] at h
        unfold IsScalar
        omega
      · exact ih c hc
  | case4 u v rest h ih =>
      intro c hc
      rcases List.mem_cons.mp hc with rfl | hc
      · exact hlone u
      · exact ih c hc

theorem codePoints_singleton (u : CodeUnit) : codePoints [u]
    = [if isHighSurrogate u || isLowSurrogate u then 0xFFFD else u.toNat] := rfl

theorem codePoints_cons_cons (u v : CodeUnit) (rest : JSString) : codePoints (u :: v :: rest)
    = if isHighSurrogate u && isLowSurrogate v then
        (0x10000 + (u.toNat - 0xD800) * 0x400 + (v.toNat - 0xDC00)) :: codePoints rest
      else
        (if isHighSurrogate u || isLowSurrogate u then 0xFFFD else u.toNat) ::
          codePoints (v :: rest) := rfl

theorem codePoints_cons {u : CodeUnit} (h : (isHighSurrogate u || isLowSurrogate u) = false)
    (s : JSString) : codePoints (u :: s) = u.toNat :: codePoints s := by
  have hhigh : isHighSurrogate u = false := (Bool.or_eq_false_iff.mp h).1
  cases s with
  | nil => rw [codePoints_singleton, h, if_neg Bool.false_ne_true]; rfl
  | cons v rest =>
      rw [codePoints_cons_cons, h, hhigh, Bool.false_and, if_neg Bool.false_ne_true,
        if_neg Bool.false_ne_true]

theorem codePoints_utf16 {c : Nat} (h : IsScalar c) (s : JSString) :
    codePoints (utf16 c ++ s) = c :: codePoints s := by
  unfold utf16
  split
  · next hc =>
      have hnat : (UInt16.ofNat c).toNat = c := by simp; omega
      have hlone : (isHighSurrogate (UInt16.ofNat c) || isLowSurrogate (UInt16.ofNat c)) = false := by
        unfold IsScalar at h
        simp only [isHighSurrogate, isLowSurrogate, hnat, Bool.or_eq_false_iff,
          Bool.and_eq_false_iff, decide_eq_false_iff_not]
        omega
      simp [codePoints_cons hlone, hnat]
  · next hc =>
      unfold IsScalar at h
      have hhi : (UInt16.ofNat (0xD800 + (c - 0x10000) / 0x400)).toNat
          = 0xD800 + (c - 0x10000) / 0x400 := by simp; omega
      have hlo : (UInt16.ofNat (0xDC00 + (c - 0x10000) % 0x400)).toNat
          = 0xDC00 + (c - 0x10000) % 0x400 := by simp; omega
      have hpair : (isHighSurrogate (UInt16.ofNat (0xD800 + (c - 0x10000) / 0x400)) &&
          isLowSurrogate (UInt16.ofNat (0xDC00 + (c - 0x10000) % 0x400))) = true := by
        simp only [isHighSurrogate, isLowSurrogate, hhi, hlo, Bool.and_eq_true,
          decide_eq_true_eq]
        omega
      simp only [List.cons_append, List.nil_append, codePoints_cons_cons, hpair, if_true, hhi, hlo,
        List.cons.injEq, and_true]
      omega

theorem codePoints_flatMap_utf16 {cs : List Nat} (h : ∀ c ∈ cs, IsScalar c) :
    codePoints (cs.flatMap utf16) = cs := by
  induction cs with
  | nil => rfl
  | cons c cs ih =>
      rw [List.flatMap_cons, codePoints_utf16 (h c (by simp)),
        ih fun c' hc' => h c' (List.mem_cons_of_mem _ hc')]

theorem codePoints_toWellFormed (s : JSString) : codePoints (toWellFormed s) = codePoints s :=
  codePoints_flatMap_utf16 (isScalar_codePoints s)

/-- The operating system sees a string and its well-formed version as the same bytes. -/
@[simp] theorem encodeUtf8_toWellFormed (s : JSString) :
    encodeUtf8 (toWellFormed s) = encodeUtf8 s := by
  rw [encodeUtf8, codePoints_toWellFormed, encodeUtf8]

theorem toNat_ofNat_byte {n : Nat} (h : n < 256) : (UInt8.ofNat n).toNat = n := by
  simp; omega

theorem decodeFrom_none_cons (b : UInt8) (rest : List UInt8) : decodeFrom none (b :: rest)
    = (leadByte b).1 ++ decodeFrom (leadByte b).2 rest := rfl

theorem decodeFrom_some_cons (p : Partial) (b : UInt8) (rest : List UInt8) :
    decodeFrom (some p) (b :: rest)
      = if p.lower ≤ b.toNat ∧ b.toNat ≤ p.upper then
          let bits := p.bits * 0x40 + (b.toNat - 0x80)
          if p.needed = 1 then utf16 bits ++ decodeFrom none rest
          else decodeFrom (some ⟨p.needed - 1, bits, 0x80, 0xBF⟩) rest
        else 0xFFFD :: (leadByte b).1 ++ decodeFrom (leadByte b).2 rest := rfl

/-- The last byte of a sequence completes its code point. -/
theorem decodeFrom_last {bits lower upper : Nat} {b : UInt8} (hlower : lower ≤ b.toNat)
    (hupper : b.toNat ≤ upper) (rest : List UInt8) :
    decodeFrom (some ⟨1, bits, lower, upper⟩) (b :: rest) =
      utf16 (bits * 0x40 + (b.toNat - 0x80)) ++ decodeFrom none rest := by
  rw [decodeFrom_some_cons, if_pos ⟨hlower, hupper⟩, if_pos rfl]

/-- Any other byte in range carries the sequence on. -/
theorem decodeFrom_next {needed bits lower upper : Nat} {b : UInt8} (hlower : lower ≤ b.toNat)
    (hupper : b.toNat ≤ upper) (rest : List UInt8) :
    decodeFrom (some ⟨needed + 2, bits, lower, upper⟩) (b :: rest) =
      decodeFrom (some ⟨needed + 1, bits * 0x40 + (b.toNat - 0x80), 0x80, 0xBF⟩) rest := by
  rw [decodeFrom_some_cons, if_pos ⟨hlower, hupper⟩, if_neg (by simp)]
  rfl

/-- A lead byte opens a sequence and emits nothing. -/
theorem decodeFrom_lead {b : UInt8} {p : Partial} (h : leadByte b = ([], some p))
    (rest : List UInt8) : decodeFrom none (b :: rest) = decodeFrom (some p) rest := by
  rw [decodeFrom_none_cons, h]; rfl

theorem decodeFrom_utf8 {c : Nat} (h : IsScalar c) (rest : List UInt8) :
    decodeFrom none (utf8 c ++ rest) = utf16 c ++ decodeFrom none rest := by
  unfold IsScalar at h
  unfold utf8
  split
  · next hc =>
      have h0 := toNat_ofNat_byte (n := c) (by omega)
      simp only [List.cons_append, List.nil_append, decodeFrom_none_cons, leadByte, h0, hc, if_true]
      simp [utf16, show c < 0x10000 by omega]
  · split
    · next hc =>
        have h0 := toNat_ofNat_byte (n := 0xC0 + c / 0x40) (by omega)
        have h1 := toNat_ofNat_byte (n := 0x80 + c % 0x40) (by omega)
        generalize UInt8.ofNat (0xC0 + c / 0x40) = b0 at h0 ⊢
        generalize UInt8.ofNat (0x80 + c % 0x40) = b1 at h1 ⊢
        have hlead : leadByte b0 = ([], some ⟨1, b0.toNat - 0xC0, 0x80, 0xBF⟩) := by
          simp only [leadByte]
          rw [if_neg (by omega), if_pos (by omega)]
        simp only [List.cons_append, List.nil_append]
        have hbits : (b0.toNat - 0xC0) * 0x40 + (b1.toNat - 0x80) = c := by omega
        rw [decodeFrom_lead hlead, decodeFrom_last (by omega) (by omega), hbits]
    · split
      · next hc =>
          have h0 := toNat_ofNat_byte (n := 0xE0 + c / 0x1000) (by omega)
          have h1 := toNat_ofNat_byte (n := 0x80 + c / 0x40 % 0x40) (by omega)
          have h2 := toNat_ofNat_byte (n := 0x80 + c % 0x40) (by omega)
          generalize UInt8.ofNat (0xE0 + c / 0x1000) = b0 at h0 ⊢
          generalize UInt8.ofNat (0x80 + c / 0x40 % 0x40) = b1 at h1 ⊢
          generalize UInt8.ofNat (0x80 + c % 0x40) = b2 at h2 ⊢
          have hlead : leadByte b0 = ([], some ⟨2, b0.toNat - 0xE0,
              if b0.toNat = 0xE0 then 0xA0 else 0x80, if b0.toNat = 0xED then 0x9F else 0xBF⟩) := by
            simp only [leadByte]
            rw [if_neg (by omega), if_neg (by omega), if_pos (by omega)]
          simp only [List.cons_append, List.nil_append]
          have hbits : ((b0.toNat - 0xE0) * 0x40 + (b1.toNat - 0x80)) * 0x40
              + (b2.toNat - 0x80) = c := by omega
          rw [decodeFrom_lead hlead,
            decodeFrom_next (by split <;> omega) (by split <;> omega),
            decodeFrom_last (by omega) (by omega), hbits]
      · next hc =>
          have h0 := toNat_ofNat_byte (n := 0xF0 + c / 0x40000) (by omega)
          have h1 := toNat_ofNat_byte (n := 0x80 + c / 0x1000 % 0x40) (by omega)
          have h2 := toNat_ofNat_byte (n := 0x80 + c / 0x40 % 0x40) (by omega)
          have h3 := toNat_ofNat_byte (n := 0x80 + c % 0x40) (by omega)
          generalize UInt8.ofNat (0xF0 + c / 0x40000) = b0 at h0 ⊢
          generalize UInt8.ofNat (0x80 + c / 0x1000 % 0x40) = b1 at h1 ⊢
          generalize UInt8.ofNat (0x80 + c / 0x40 % 0x40) = b2 at h2 ⊢
          generalize UInt8.ofNat (0x80 + c % 0x40) = b3 at h3 ⊢
          have hlead : leadByte b0 = ([], some ⟨3, b0.toNat - 0xF0,
              if b0.toNat = 0xF0 then 0x90 else 0x80, if b0.toNat = 0xF4 then 0x8F else 0xBF⟩) := by
            simp only [leadByte]
            rw [if_neg (by omega), if_neg (by omega), if_neg (by omega), if_pos (by omega)]
          simp only [List.cons_append, List.nil_append]
          have hbits : (((b0.toNat - 0xF0) * 0x40 + (b1.toNat - 0x80)) * 0x40
              + (b2.toNat - 0x80)) * 0x40 + (b3.toNat - 0x80) = c := by omega
          rw [decodeFrom_lead hlead,
            decodeFrom_next (by split <;> omega) (by split <;> omega),
            decodeFrom_next (by omega) (by omega),
            decodeFrom_last (by omega) (by omega), hbits]

/-- **The round trip.**  Encoding and decoding replaces the lone surrogates and nothing else. -/
theorem decodeUtf8_encodeUtf8 (s : JSString) : decodeUtf8 (encodeUtf8 s) = toWellFormed s := by
  have hcs := isScalar_codePoints s
  unfold decodeUtf8 encodeUtf8 toWellFormed
  generalize codePoints s = cs at hcs
  induction cs with
  | nil => rfl
  | cons c cs ih =>
      rw [List.flatMap_cons, List.flatMap_cons, decodeFrom_utf8 (hcs c (by simp)),
        ih fun c' hc' => hcs c' (List.mem_cons_of_mem _ hc')]

/-! ### Separators and ASCII names -/

theorem codePoints_append {u : CodeUnit} (h : (isHighSurrogate u || isLowSurrogate u) = false)
    (s t : JSString) : codePoints (s ++ u :: t) = codePoints s ++ u.toNat :: codePoints t := by
  have hlow : isLowSurrogate u = false := (Bool.or_eq_false_iff.mp h).2
  fun_induction codePoints s with
  | case1 => exact codePoints_cons h t
  | case2 v =>
      rw [List.singleton_append, codePoints_cons_cons, hlow, Bool.and_false,
        if_neg Bool.false_ne_true, codePoints_cons h t, List.singleton_append]
  | case3 v w rest hpair ih =>
      rw [List.cons_append, List.cons_append, codePoints_cons_cons, if_pos hpair, ih,
        List.cons_append]
  | case4 v w rest hpair ih =>
      rw [List.cons_append] at ih
      rw [List.cons_append, List.cons_append, codePoints_cons_cons, if_neg hpair, ih,
        List.cons_append]

/-- An ASCII code unit. -/
def IsAscii (u : CodeUnit) : Prop := u.toNat < 0x80

instance (u : CodeUnit) : Decidable (IsAscii u) := inferInstanceAs (Decidable (u.toNat < 0x80))

/-- The units of a given text are checked one by one. -/
theorem isAscii_of_all {s : JSString} (h : (s.all fun u => decide (IsAscii u)) = true) :
    ∀ u ∈ s, IsAscii u := by
  intro u hu
  exact of_decide_eq_true (List.all_eq_true.mp h u hu)

theorem IsAscii.not_surrogate {u : CodeUnit} (h : IsAscii u) :
    (isHighSurrogate u || isLowSurrogate u) = false := by
  unfold IsAscii at h
  simp only [isHighSurrogate, isLowSurrogate, Bool.or_eq_false_iff, Bool.and_eq_false_iff,
    decide_eq_false_iff_not]
  omega

theorem encodeUtf8_cons {u : CodeUnit} (h : IsAscii u) (s : JSString) :
    encodeUtf8 (u :: s) = UInt8.ofNat u.toNat :: encodeUtf8 s := by
  have hu : u.toNat < 0x80 := h
  simp [encodeUtf8, codePoints_cons h.not_surrogate, utf8, hu]

/-- A separator splits the encoding as it splits the string. -/
theorem encodeUtf8_append {u : CodeUnit} (h : IsAscii u) (s t : JSString) :
    encodeUtf8 (s ++ u :: t) = encodeUtf8 s ++ UInt8.ofNat u.toNat :: encodeUtf8 t := by
  have hu : u.toNat < 0x80 := h
  simp [encodeUtf8, codePoints_append h.not_surrogate, utf8, hu]

@[simp] theorem toWellFormed_nil : toWellFormed [] = [] := rfl

theorem toWellFormed_cons {u : CodeUnit} (h : (isHighSurrogate u || isLowSurrogate u) = false)
    (s : JSString) : toWellFormed (u :: s) = u :: toWellFormed s := by
  have hu := u.toNat_lt
  simp [toWellFormed, codePoints_cons h, utf16, hu]

/-- ASCII is well-formed. -/
theorem toWellFormed_ascii {s : JSString} (h : ∀ u ∈ s, IsAscii u) : toWellFormed s = s := by
  induction s with
  | nil => rfl
  | cons u rest ih =>
      rw [toWellFormed_cons (h u (List.mem_cons_self ..)).not_surrogate,
        ih fun v hv => h v (List.mem_cons_of_mem u hv)]

/-- A separator splits the well-formed version as it splits the string. -/
theorem toWellFormed_append {u : CodeUnit} (h : IsAscii u) (s t : JSString) :
    toWellFormed (s ++ u :: t) = toWellFormed s ++ u :: toWellFormed t := by
  have hu := u.toNat_lt
  simp [toWellFormed, codePoints_append h.not_surrogate, utf16, hu]

/-! ### Tests for ASCII units

The well-formed version of a string passes the same tests as the string, as long as they only look
for ASCII units. -/

/-- Two units no test for an ASCII unit tells apart. -/
def SameAscii (u v : CodeUnit) : Prop := u = v ∨ (¬ IsAscii u ∧ ¬ IsAscii v)

theorem not_isAscii_of_surrogate {u : CodeUnit}
    (h : (isHighSurrogate u || isLowSurrogate u) = true) : ¬ IsAscii u := by
  unfold IsAscii
  simp only [isHighSurrogate, isLowSurrogate, Bool.or_eq_true, Bool.and_eq_true,
    decide_eq_true_eq] at h
  omega

/-- Units are only changed where a lone surrogate stands. -/
theorem sameAscii_toWellFormed (s : JSString) : List.Forall₂ SameAscii s (toWellFormed s) := by
  have hlone : ∀ u : CodeUnit, ∃ v, SameAscii u v ∧
      utf16 (if isHighSurrogate u || isLowSurrogate u then 0xFFFD else u.toNat) = [v] := by
    intro u
    have hu := u.toNat_lt
    by_cases h : (isHighSurrogate u || isLowSurrogate u) = true
    · exact ⟨0xFFFD, .inr ⟨not_isAscii_of_surrogate h, by decide⟩, by simp [h, utf16]⟩
    · exact ⟨u, .inl rfl, by simp [h, utf16, hu]⟩
  unfold toWellFormed
  fun_induction codePoints s with
  | case1 => exact .nil
  | case2 u =>
      obtain ⟨v, hv, hunit⟩ := hlone u
      rw [List.flatMap_cons, hunit]
      exact .cons hv .nil
  | case3 u v rest h ih =>
      obtain ⟨hhigh, hlow⟩ := Bool.and_eq_true_iff.mp h
      have hu := not_isAscii_of_surrogate (u := u) (by simp [hhigh])
      have hv := not_isAscii_of_surrogate (u := v) (by simp [hlow])
      simp only [isHighSurrogate, isLowSurrogate, Bool.and_eq_true, decide_eq_true_eq] at hhigh hlow
      generalize hc : 0x10000 + (u.toNat - 0xD800) * 0x400 + (v.toNat - 0xDC00) = c
      have hpair : utf16 c = [UInt16.ofNat (0xD800 + (c - 0x10000) / 0x400),
          UInt16.ofNat (0xDC00 + (c - 0x10000) % 0x400)] := by
        rw [utf16, if_neg (by omega)]
      rw [List.flatMap_cons, hpair]
      refine .cons (.inr ⟨hu, ?_⟩) (.cons (.inr ⟨hv, ?_⟩) ih)
      · unfold IsAscii
        rw [UInt16.toNat_ofNat']
        omega
      · unfold IsAscii
        rw [UInt16.toNat_ofNat']
        omega
  | case4 u v rest h ih =>
      obtain ⟨w, hw, hunit⟩ := hlone u
      rw [List.flatMap_cons, hunit]
      exact .cons hw ih

variable {s t : JSString}

theorem any_sameAscii {p : CodeUnit → Bool} (hp : ∀ u, p u = true → IsAscii u)
    (h : List.Forall₂ SameAscii s t) : s.any p = t.any p := by
  induction h with
  | nil => rfl
  | @cons u v _ _ huv _ ih =>
      have hhead : p u = p v := by
        rcases huv with rfl | ⟨hu, hv⟩
        · rfl
        · rw [Bool.eq_false_iff.mpr (mt (hp u) hu), Bool.eq_false_iff.mpr (mt (hp v) hv)]
      simp [hhead, ih]

theorem eq_sameAscii {a : JSString} (ha : ∀ u ∈ a, IsAscii u) (h : List.Forall₂ SameAscii s t) :
    s = a ↔ t = a := by
  induction h generalizing a with
  | nil => exact Iff.rfl
  | @cons u v _ _ huv _ ih =>
      cases a with
      | nil => simp
      | cons c a =>
          simp only [List.cons.injEq]
          refine and_congr ?_ (ih fun w hw => ha w (List.mem_cons_of_mem _ hw))
          rcases huv with rfl | ⟨hu, hv⟩
          · exact Iff.rfl
          · exact iff_of_false (by rintro rfl; exact hu (ha _ (List.mem_cons_self ..)))
              (by rintro rfl; exact hv (ha _ (List.mem_cons_self ..)))

theorem startsWith_sameAscii {a : JSString} (ha : ∀ u ∈ a, IsAscii u)
    (h : List.Forall₂ SameAscii s t) : startsWith s a = startsWith t a := by
  induction h generalizing a with
  | nil => rfl
  | @cons u v s t huv _ ih =>
      cases a with
      | nil => simp [startsWith]
      | cons c a =>
          have hrest : a.isPrefixOf s = a.isPrefixOf t :=
            ih fun w hw => ha w (List.mem_cons_of_mem _ hw)
          have hc := ha c (List.mem_cons_self ..)
          simp only [startsWith, List.isPrefixOf, hrest]
          rcases huv with rfl | ⟨hu, hv⟩
          · rfl
          · have hcu : (c == u) = false := beq_false_of_ne (by rintro rfl; exact hu hc)
            have hcv : (c == v) = false := beq_false_of_ne (by rintro rfl; exact hv hc)
            rw [hcu, hcv]

theorem map_sameAscii {f : CodeUnit → CodeUnit} (hf : ∀ u, ¬ IsAscii u → ¬ IsAscii (f u))
    (h : List.Forall₂ SameAscii s t) : List.Forall₂ SameAscii (s.map f) (t.map f) := by
  induction h with
  | nil => exact .nil
  | cons huv _ ih =>
      refine .cons ?_ ih
      rcases huv with rfl | ⟨hu, hv⟩
      · exact .inl rfl
      · exact .inr ⟨hf _ hu, hf _ hv⟩

theorem toUpperCase_sameAscii (h : List.Forall₂ SameAscii s t) :
    List.Forall₂ SameAscii (toUpperCase s) (toUpperCase t) := by
  refine map_sameAscii (fun u hu => ?_) h
  unfold IsAscii at hu
  rw [if_neg (by omega)]
  exact hu

theorem endsWith_sameAscii {a : JSString} (ha : ∀ u ∈ a, IsAscii u)
    (h : List.Forall₂ SameAscii s t) : endsWith s a = endsWith t a :=
  startsWith_sameAscii (fun u hu => ha u (List.mem_reverse.mp hu)) (List.forall₂_reverse_iff.mpr h)

theorem split_sameAscii {u : CodeUnit} (hu : IsAscii u) (h : List.Forall₂ SameAscii s t) :
    List.Forall₂ (List.Forall₂ SameAscii) (split u s) (split u t) := by
  induction h with
  | nil => exact .cons .nil .nil
  | @cons v w s t hvw _ ih =>
      rcases hvw with rfl | ⟨hv, hw⟩
      · by_cases hvu : v = u
        · rw [split_cons_eq hvu, split_cons_eq hvu]
          exact .cons .nil ih
        · obtain ⟨seg, segs, hs, hscons⟩ := split_cons_ne hvu s
          obtain ⟨seg', segs', ht, htcons⟩ := split_cons_ne hvu t
          rw [hs, ht] at ih
          rw [hscons, htcons]
          cases ih with
          | cons hseg hsegs => exact .cons (.cons (.inl rfl) hseg) hsegs
      · have hvu : v ≠ u := by rintro rfl; exact hv hu
        have hwu : w ≠ u := by rintro rfl; exact hw hu
        obtain ⟨seg, segs, hs, hscons⟩ := split_cons_ne hvu s
        obtain ⟨seg', segs', ht, htcons⟩ := split_cons_ne hwu t
        rw [hs, ht] at ih
        rw [hscons, htcons]
        cases ih with
        | cons hseg hsegs => exact .cons (.cons (.inr ⟨hv, hw⟩) hseg) hsegs

theorem toWellFormed_join {u : CodeUnit} (hu : IsAscii u) (segs : List JSString) :
    toWellFormed (join u segs) = join u (segs.map toWellFormed) := by
  induction segs with
  | nil => rfl
  | cons seg segs ih =>
      cases segs with
      | nil => rfl
      | cons seg' segs =>
          simp only [List.map_cons, join] at ih ⊢
          rw [toWellFormed_append hu, ih]

theorem split_toWellFormed {u : CodeUnit} (hu : IsAscii u) (s : JSString) :
    split u (toWellFormed s) = (split u s).map toWellFormed := by
  have hnot : ∀ seg ∈ (split u s).map toWellFormed, u ∉ seg := by
    intro seg hseg hmem
    obtain ⟨original, horiginal, rfl⟩ := List.mem_map.mp hseg
    have hany := any_sameAscii (p := (· == u)) (fun v hv => by rwa [beq_iff_eq.mp hv])
      (sameAscii_toWellFormed original)
    rw [Bool.eq_iff_iff] at hany
    exact not_mem_of_mem_split horiginal (by simpa using hany.mpr (by simpa using hmem))
  conv_lhs => rw [← join_split u s, toWellFormed_join hu]
  exact split_join (by simp [split_ne_nil]) hnot

/-- **Only an ASCII string encodes to ASCII bytes**, and the bytes are its units. -/
theorem eq_of_encodeUtf8_ascii {s t : JSString} (ht : ∀ u ∈ t, IsAscii u)
    (h : encodeUtf8 s = encodeUtf8 t) : s = t := by
  have hwell : toWellFormed s = toWellFormed t := by
    rw [← decodeUtf8_encodeUtf8, h, decodeUtf8_encodeUtf8]
  have htt : toWellFormed t = t := (eq_sameAscii ht (sameAscii_toWellFormed t)).mp rfl
  exact (eq_sameAscii ht (sameAscii_toWellFormed s)).mpr (hwell.trans htt)

end JSString

end Typr
