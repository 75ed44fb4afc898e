import TyprCompanion.Js.Text
import TyprCompanion.Core.FileSystem

/-!
# Bytes as text

How file contents travel in JSON, and how digests and secrets are written.

* `toBase64`, `fromBase64` — `buffer.toString("base64")` and `Buffer.from(value, "base64")`.
* `isBase64` — the check on what a client sends (`base64.ts`); `length_fromBase64` says that the
  length computed without decoding is the length of the decoded bytes.
* `Base64Text` — groups of four units and the last group: what the check lets through.
* `toBase64Url` — `buffer.toString("base64url")`, which `fromBase64` decodes as well.
* `toHex`, `fromHex` — `digest("hex")` and `Buffer.from(value, "hex")`.
* **`fromBase64_toBase64`**, **`fromHex_toHex`** — an encoding determines the bytes.
-/

namespace Typr

open Core

/-- The digit of six bits. -/
def base64Digit (n : Nat) : CodeUnit :=
  if n < 26 then UInt16.ofNat (0x41 + n)
  else if n < 52 then UInt16.ofNat (0x61 + (n - 26))
  else if n < 62 then UInt16.ofNat (0x30 + (n - 52))
  else if n = 62 then unit '+'
  else unit '/'

/-- The six bits of a digit. -/
def base64Value (u : CodeUnit) : Option Nat :=
  let n := u.toNat
  if 0x41 ≤ n ∧ n ≤ 0x5A then some (n - 0x41)
  else if 0x61 ≤ n ∧ n ≤ 0x7A then some (n - 0x61 + 26)
  else if 0x30 ≤ n ∧ n ≤ 0x39 then some (n - 0x30 + 52)
  else if u = unit '+' ∨ u = unit '-' then some 62
  else if u = unit '/' ∨ u = unit '_' then some 63
  else none

/-- Three bytes at a time; the last group is padded. -/
def toBase64 : Bytes → JSString
  | [] => []
  | [a] =>
      [base64Digit (a.toNat / 4), base64Digit (a.toNat % 4 * 16), unit '=', unit '=']
  | [a, b] =>
      [base64Digit (a.toNat / 4), base64Digit (a.toNat % 4 * 16 + b.toNat / 16),
        base64Digit (b.toNat % 16 * 4), unit '=']
  | a :: b :: c :: rest =>
      base64Digit (a.toNat / 4) :: base64Digit (a.toNat % 4 * 16 + b.toNat / 16) ::
        base64Digit (b.toNat % 16 * 4 + c.toNat / 64) :: base64Digit (c.toNat % 64) ::
        toBase64 rest

/-- Four digits at a time; what does not fill a byte is dropped. -/
def fromSextets : List Nat → Bytes
  | v :: w :: x :: y :: rest =>
      UInt8.ofNat (v * 4 + w / 16) :: UInt8.ofNat (w % 16 * 16 + x / 4) ::
        UInt8.ofNat (x % 4 * 64 + y) :: fromSextets rest
  | [v, w, x] => [UInt8.ofNat (v * 4 + w / 16), UInt8.ofNat (w % 16 * 16 + x / 4)]
  | [v, w] => [UInt8.ofNat (v * 4 + w / 16)]
  | _ => []

/-- Decoding stops at the padding and ignores what is no digit. -/
def fromBase64 (value : JSString) : Bytes :=
  fromSextets ((value.takeWhile (· != unit '=')).filterMap base64Value)

/-- `Buffer.byteLength(value, "base64")`: the padding is not counted. -/
def base64ByteLength (value : JSString) : Nat :=
  let padding := unit '='
  let bytes := if value.getLast? = some padding then value.length - 1 else value.length
  let bytes := if 1 < bytes ∧ value[bytes - 1]? = some padding then bytes - 1 else bytes
  bytes * 3 / 4

/-- `isBase64` -/
def isBase64 (value : JSString) : Bool :=
  let padding := if value.endsWith (js "==") then 2 else if value.endsWith (js "=") then 1 else 0
  let contentLength := value.length - padding
  let remainder := contentLength % 4
  if remainder = 1 ∨ (0 < padding ∧ value.length % 4 ≠ 0) ∨
      (padding = 1 ∧ remainder ≠ 3) ∨ (padding = 2 ∧ remainder ≠ 2) then false
  else (value.take contentLength).all fun code =>
    (0x41 ≤ code.toNat && code.toNat ≤ 0x5A) || (0x61 ≤ code.toNat && code.toNat ≤ 0x7A) ||
      (0x30 ≤ code.toNat && code.toNat ≤ 0x39) || code == unit '+' || code == unit '/'

theorem base64Digit_spec {n : Nat} (h : n < 64) :
    base64Value (base64Digit n) = some n ∧ (base64Digit n != unit '=') = true := by
  have hall : ∀ n : Fin 64, base64Value (base64Digit n) = some n.val ∧
      (base64Digit n.val != unit '=') = true := by decide
  exact hall ⟨n, h⟩

/-- Decoding a digit in front of a rest. -/
theorem sextets_cons {n : Nat} (h : n < 64) (rest : JSString) :
    ((base64Digit n :: rest).takeWhile (· != unit '=')).filterMap base64Value
      = n :: ((rest.takeWhile (· != unit '=')).filterMap base64Value) := by
  obtain ⟨hvalue, hdigit⟩ := base64Digit_spec h
  rw [List.takeWhile_cons, if_pos hdigit, List.filterMap_cons_some hvalue]

theorem sextets_padding (rest : JSString) :
    ((unit '=' :: rest).takeWhile (· != unit '=')).filterMap base64Value = [] := by
  simp

/-- **The round trip.** -/
theorem fromBase64_toBase64 (bytes : Bytes) : fromBase64 (toBase64 bytes) = bytes := by
  have hbyte : ∀ (b : UInt8) {n : Nat}, n = b.toNat → UInt8.ofNat n = b := by
    rintro b _ rfl
    simp
  unfold fromBase64
  fun_induction toBase64 bytes with
  | case1 => rfl
  | case2 a =>
      have ha := a.toNat_lt
      rw [sextets_cons (by omega), sextets_cons (by omega), sextets_padding, fromSextets,
        hbyte a (by omega)]
  | case3 a b =>
      have ha := a.toNat_lt
      have hb := b.toNat_lt
      rw [sextets_cons (by omega), sextets_cons (by omega), sextets_cons (by omega),
        sextets_padding, fromSextets, hbyte a (by omega), hbyte b (by omega)]
  | case4 a b c rest ih =>
      have ha := a.toNat_lt
      have hb := b.toNat_lt
      have hc := c.toNat_lt
      rw [sextets_cons (by omega), sextets_cons (by omega), sextets_cons (by omega),
        sextets_cons (by omega), fromSextets, ih, hbyte a (by omega), hbyte b (by omega),
        hbyte c (by omega)]

/-! ## The gate -/

/-- A unit of the standard alphabet. -/
def isBase64Unit (code : CodeUnit) : Bool :=
  (0x41 ≤ code.toNat && code.toNat ≤ 0x5A) || (0x61 ≤ code.toNat && code.toNat ≤ 0x7A) ||
    (0x30 ≤ code.toNat && code.toNat ≤ 0x39) || code == unit '+' || code == unit '/'

/-- Groups of four units, then nothing or a group of two or three, padded to four or not. -/
inductive Base64Text : JSString → Prop
  | done : Base64Text []
  | two {u v : CodeUnit} : isBase64Unit u = true → isBase64Unit v = true → Base64Text [u, v]
  | twoPadded {u v : CodeUnit} : isBase64Unit u = true → isBase64Unit v = true →
      Base64Text [u, v, unit '=', unit '=']
  | three {u v w : CodeUnit} : isBase64Unit u = true → isBase64Unit v = true →
      isBase64Unit w = true → Base64Text [u, v, w]
  | threePadded {u v w : CodeUnit} : isBase64Unit u = true → isBase64Unit v = true →
      isBase64Unit w = true → Base64Text [u, v, w, unit '=']
  | group {u v w x : CodeUnit} {rest : JSString} : isBase64Unit u = true → isBase64Unit v = true →
      isBase64Unit w = true → isBase64Unit x = true → Base64Text rest →
      Base64Text (u :: v :: w :: x :: rest)

/-- The padding that goes behind a content of this length. -/
def FitsPadding (length padding : Nat) : Prop :=
  padding = 0 ∧ length % 4 ≠ 1 ∨ padding = 1 ∧ length % 4 = 3 ∨ padding = 2 ∧ length % 4 = 2

theorem isBase64Unit_ne {code : CodeUnit} (h : isBase64Unit code = true) : code ≠ unit '=' := by
  rintro rfl
  revert h
  decide

/-- How the padding behind a content is recognized. -/
theorem endsWith_padding {content : JSString} (h : ∀ code ∈ content, isBase64Unit code = true)
    {padding : Nat} (hpadding : padding ≤ 2) :
    (if (content ++ List.replicate padding (unit '=')).endsWith (js "==") then 2
      else if (content ++ List.replicate padding (unit '=')).endsWith (js "=") then 1 else 0)
        = padding := by
  have hone : ¬ [unit '='] <:+ content := by
    rintro ⟨before, rfl⟩
    exact isBase64Unit_ne (h (unit '=') (by simp)) rfl
  have htwo : ¬ [unit '=', unit '='] <:+ content := fun hsuffix =>
    hone (List.IsSuffix.trans ⟨[unit '='], rfl⟩ hsuffix)
  have hpair : js "==" = [unit '=', unit '='] := rfl
  have hsingle : js "=" = [unit '='] := rfl
  simp only [JSString.endsWith, List.isSuffixOf_iff_suffix, hpair, hsingle]
  obtain rfl | rfl | rfl : padding = 0 ∨ padding = 1 ∨ padding = 2 := by omega
  · rw [List.replicate_zero, List.append_nil, if_neg htwo, if_neg hone]
  · rw [if_neg, if_pos ⟨content, rfl⟩]
    intro hsuffix
    obtain hnil | ⟨rest, hrest, hsuffix⟩ := List.suffix_concat_iff.mp hsuffix
    · cases hnil
    · have hboth : [unit '='] ++ [unit '='] = rest ++ [unit '='] := hrest
      obtain ⟨rfl, -⟩ := List.append_inj' hboth rfl
      exact hone hsuffix
  · rw [if_pos ⟨content, rfl⟩]

/-- **The gate** lets through a content in the alphabet with the padding that fits it. -/
theorem isBase64_iff {value : JSString} :
    isBase64 value = true ↔ ∃ content padding, value = content ++ List.replicate padding (unit '=') ∧
      (∀ code ∈ content, isBase64Unit code = true) ∧ FitsPadding content.length padding := by
  constructor
  · intro h
    obtain ⟨padding, hle, hsuffix, hdef⟩ : ∃ padding, padding ≤ 2 ∧
        List.replicate padding (unit '=') <:+ value ∧
        padding = if value.endsWith (js "==") then 2 else if value.endsWith (js "=") then 1 else 0 := by
      by_cases htwo : value.endsWith (js "==") = true
      · exact ⟨2, le_refl 2, List.isSuffixOf_iff_suffix.mp htwo, by simp [htwo]⟩
      · by_cases hone : value.endsWith (js "=") = true
        · exact ⟨1, by omega, List.isSuffixOf_iff_suffix.mp hone, by simp [htwo, hone]⟩
        · exact ⟨0, by omega, List.nil_suffix, by simp [htwo, hone]⟩
    obtain ⟨content, rfl⟩ := hsuffix
    simp only [isBase64, ← hdef, List.length_append, List.length_replicate, Nat.add_sub_cancel,
      List.take_left] at h
    split_ifs at h with hshape
    exact ⟨content, padding, rfl, List.all_eq_true.mp h, by unfold FitsPadding; omega⟩
  · rintro ⟨content, padding, rfl, hcontent, hfits⟩
    unfold FitsPadding at hfits
    simp only [isBase64, endsWith_padding hcontent (by omega : padding ≤ 2), List.length_append,
      List.length_replicate, Nat.add_sub_cancel, List.take_left]
    rw [if_neg (by omega)]
    exact List.all_eq_true.mpr hcontent

/-- The groups of an accepted text. -/
theorem base64Text_iff {content : JSString} {padding : Nat}
    (hcontent : ∀ code ∈ content, isBase64Unit code = true) (hfits : FitsPadding content.length padding) :
    Base64Text (content ++ List.replicate padding (unit '=')) := by
  unfold FitsPadding at hfits
  match content with
  | [] =>
      obtain rfl : padding = 0 := by
        rw [List.length_nil] at hfits
        omega
      exact .done
  | [_] =>
      rw [List.length_singleton] at hfits
      omega
  | [u, v] =>
      simp only [List.forall_mem_cons] at hcontent
      obtain rfl | rfl : padding = 0 ∨ padding = 2 := by
        simp only [List.length_cons, List.length_nil] at hfits
        omega
      · exact .two hcontent.1 hcontent.2.1
      · exact .twoPadded hcontent.1 hcontent.2.1
  | [u, v, w] =>
      simp only [List.forall_mem_cons] at hcontent
      obtain rfl | rfl : padding = 0 ∨ padding = 1 := by
        simp only [List.length_cons, List.length_nil] at hfits
        omega
      · exact .three hcontent.1 hcontent.2.1 hcontent.2.2.1
      · exact .threePadded hcontent.1 hcontent.2.1 hcontent.2.2.1
  | u :: v :: w :: x :: rest =>
      simp only [List.forall_mem_cons] at hcontent
      have hrest : FitsPadding rest.length padding := by
        simp only [List.length_cons] at hfits
        unfold FitsPadding
        omega
      exact .group hcontent.1 hcontent.2.1 hcontent.2.2.1 hcontent.2.2.2.1
        (base64Text_iff hcontent.2.2.2.2 hrest)

theorem Base64Text.parts {s : JSString} (h : Base64Text s) :
    ∃ content padding, s = content ++ List.replicate padding (unit '=') ∧
      (∀ code ∈ content, isBase64Unit code = true) ∧ FitsPadding content.length padding := by
  have hall : ∀ codes : JSString, (codes.all isBase64Unit) = true →
      ∀ code ∈ codes, isBase64Unit code = true := fun codes => List.all_eq_true.mp
  induction h with
  | done => exact ⟨[], 0, rfl, by simp, .inl ⟨rfl, by decide⟩⟩
  | @two u v hu hv =>
      exact ⟨[u, v], 0, rfl, hall _ (by simp [hu, hv]), .inl ⟨rfl, by simp⟩⟩
  | @twoPadded u v hu hv =>
      exact ⟨[u, v], 2, rfl, hall _ (by simp [hu, hv]), .inr (.inr ⟨rfl, rfl⟩)⟩
  | @three u v w hu hv hw =>
      exact ⟨[u, v, w], 0, rfl, hall _ (by simp [hu, hv, hw]), .inl ⟨rfl, by simp⟩⟩
  | @threePadded u v w hu hv hw =>
      exact ⟨[u, v, w], 1, rfl, hall _ (by simp [hu, hv, hw]), .inr (.inl ⟨rfl, rfl⟩)⟩
  | @group u v w x rest hu hv hw hx _ ih =>
      obtain ⟨content, padding, rfl, hcontent, hfits⟩ := ih
      refine ⟨u :: v :: w :: x :: content, padding, rfl, ?_, ?_⟩
      · simpa only [List.forall_mem_cons] using ⟨hu, hv, hw, hx, hcontent⟩
      · unfold FitsPadding at hfits ⊢
        simp only [List.length_cons]
        omega

/-- **What the gate lets through** are groups of four units of the alphabet and the last group. -/
theorem isBase64_eq_true {value : JSString} : isBase64 value = true ↔ Base64Text value := by
  rw [isBase64_iff]
  constructor
  · rintro ⟨content, padding, rfl, hcontent, hfits⟩
    exact base64Text_iff hcontent hfits
  · exact Base64Text.parts

/-! ## Lengths -/

theorem length_fromSextets (sextets : List Nat) :
    (fromSextets sextets).length = sextets.length * 3 / 4 := by
  fun_induction fromSextets sextets with
  | case1 v w x y rest ih =>
      simp only [List.length_cons, ih]
      omega
  | case2 v w x => simp
  | case3 v w => simp
  | case4 sextets hfour hthree htwo =>
      match sextets with
      | [] => rfl
      | [_] => simp
      | [_, _] => exact absurd rfl (htwo _ _)
      | [_, _, _] => exact absurd rfl (hthree _ _ _)
      | _ :: _ :: _ :: _ :: _ => exact absurd rfl (hfour _ _ _ _ _)

/-- The units `isBase64` lets through are digits. -/
theorem base64Value_isSome {code : CodeUnit} (h : isBase64Unit code = true) :
    (base64Value code).isSome = true ∧ (code != unit '=') = true := by
  simp only [isBase64Unit, Bool.or_eq_true, Bool.and_eq_true, decide_eq_true_eq, beq_iff_eq] at h
  constructor
  · unfold base64Value
    rcases h with (((h | h) | h) | rfl) | rfl <;> simp only [] <;> split_ifs <;> simp_all
  · rw [bne_iff_ne]
    rintro rfl
    revert h
    decide

/-- What `isBase64` accepts: digits, then the padding that fills the last group. -/
theorem isBase64_shape {value : JSString} (h : isBase64 value = true) :
    ∃ content padding, value = content ++ List.replicate padding (unit '=') ∧
      (padding = 0 ∨ padding = 1 ∧ content.length % 4 = 3 ∨ padding = 2 ∧ content.length % 4 = 2) ∧
      ∀ code ∈ content, (base64Value code).isSome = true ∧ (code != unit '=') = true := by
  obtain ⟨content, padding, hvalue, hcontent, hfits⟩ := isBase64_iff.mp h
  exact ⟨content, padding, hvalue, hfits.imp_left And.left,
    fun code hcode => base64Value_isSome (hcontent code hcode)⟩

/-- **The two ways to count.**  For what `isBase64` accepts, `Buffer.byteLength` is the number of
bytes decoding gives. -/
theorem length_fromBase64 {value : JSString} (h : isBase64 value = true) :
    (fromBase64 value).length = base64ByteLength value := by
  obtain ⟨content, padding, rfl, hpadding, hcontent⟩ := isBase64_shape h
  have hdigits : ((content ++ List.replicate padding (unit '=')).takeWhile (· != unit '='))
      = content := by
    rw [List.takeWhile_append_of_pos fun code hcode => (hcontent code hcode).2]
    cases padding <;> simp [List.replicate_succ]
  have hvalues : (content.filterMap base64Value).length = content.length :=
    List.filterMap_length_eq_length.mpr fun code hcode => (hcontent code hcode).1
  have hlast : content.getLast? ≠ some (unit '=') := by
    intro hlast
    exact absurd (hcontent _ (List.mem_of_getLast? hlast)).2 (by simp)
  rw [fromBase64, length_fromSextets, hdigits, hvalues, base64ByteLength]
  rcases hpadding with rfl | ⟨rfl, hlength⟩ | ⟨rfl, hlength⟩
  · have hget : ¬ (1 < content.length ∧ content[content.length - 1]? = some (unit '=')) := by
      rintro ⟨-, hget⟩
      exact hlast (by rwa [List.getLast?_eq_getElem?])
    simp [hlast, hget]
  · have hget : ¬ (1 < content.length ∧ content[content.length - 1]? = some (unit '=')) := by
      rintro ⟨-, hget⟩
      exact hlast (by rwa [List.getLast?_eq_getElem?])
    have hindex : content.length - 1 < content.length := by omega
    simp only [List.replicate_one, List.getLast?_concat, if_true, List.length_append,
      List.length_singleton, Nat.add_sub_cancel, List.getElem?_append_left hindex, if_neg hget]
  · have hindex : content.length + 1 - 1 = content.length := by omega
    have hshape : content ++ List.replicate 2 (unit '=') = (content ++ [unit '=']) ++ [unit '='] := by
      simp [List.replicate_succ]
    rw [hshape, List.getLast?_concat]
    simp only [if_true, List.length_append, List.length_singleton, Nat.add_sub_cancel]
    have hget : ((content ++ [unit '=']) ++ [unit '='])[content.length]? = some (unit '=') := by
      simp
    rw [if_pos ⟨by omega, hget⟩]

/-- **The length without decoding.**  Four units make three bytes, and the padding none. -/
theorem length_fromBase64_filter {value : JSString} (h : isBase64 value = true) :
    (fromBase64 value).length = 3 * (value.filter (· != unit '=')).length / 4 := by
  obtain ⟨content, padding, rfl, -, hcontent⟩ := isBase64_shape h
  have hdigits : ((content ++ List.replicate padding (unit '=')).takeWhile (· != unit '='))
      = content := by
    rw [List.takeWhile_append_of_pos fun code hcode => (hcontent code hcode).2]
    cases padding <;> simp [List.replicate_succ]
  have hfilter : (content ++ List.replicate padding (unit '=')).filter (· != unit '=') = content := by
    rw [List.filter_append, List.filter_eq_self.mpr fun code hcode => (hcontent code hcode).2,
      List.filter_eq_nil_iff.mpr, List.append_nil]
    intro code hcode
    simp [List.eq_of_mem_replicate hcode]
  have hvalues : (content.filterMap base64Value).length = content.length :=
    List.filterMap_length_eq_length.mpr fun code hcode => (hcontent code hcode).1
  rw [fromBase64, length_fromSextets, hdigits, hvalues, hfilter, Nat.mul_comm]

/-! ## Standard encodings -/

theorem isBase64Unit_digit {n : Nat} (h : n < 64) : isBase64Unit (base64Digit n) = true := by
  have hall : ∀ n : Fin 64, isBase64Unit (base64Digit n) = true := by decide
  exact hall ⟨n, h⟩

theorem filter_digit {n : Nat} (h : n < 64) (rest : JSString) :
    (base64Digit n :: rest).filter (· != unit '=') = base64Digit n :: rest.filter (· != unit '=') :=
  List.filter_cons_of_pos (base64Digit_spec h).2

/-- **Every encoding is let through**, with and without its padding. -/
theorem base64Text_toBase64 (bytes : Bytes) :
    Base64Text (toBase64 bytes) ∧ Base64Text ((toBase64 bytes).filter (· != unit '=')) := by
  fun_induction toBase64 bytes with
  | case1 => exact ⟨.done, .done⟩
  | case2 a =>
      have ha := a.toNat_lt
      have hu := isBase64Unit_digit (n := a.toNat / 4) (by omega)
      have hv := isBase64Unit_digit (n := a.toNat % 4 * 16) (by omega)
      refine ⟨.twoPadded hu hv, ?_⟩
      rw [filter_digit (by omega), filter_digit (by omega)]
      exact .two hu hv
  | case3 a b =>
      have ha := a.toNat_lt
      have hb := b.toNat_lt
      have hu := isBase64Unit_digit (n := a.toNat / 4) (by omega)
      have hv := isBase64Unit_digit (n := a.toNat % 4 * 16 + b.toNat / 16) (by omega)
      have hw := isBase64Unit_digit (n := b.toNat % 16 * 4) (by omega)
      refine ⟨.threePadded hu hv hw, ?_⟩
      rw [filter_digit (by omega), filter_digit (by omega), filter_digit (by omega)]
      exact .three hu hv hw
  | case4 a b c rest ih =>
      have ha := a.toNat_lt
      have hb := b.toNat_lt
      have hc := c.toNat_lt
      have hu := isBase64Unit_digit (n := a.toNat / 4) (by omega)
      have hv := isBase64Unit_digit (n := a.toNat % 4 * 16 + b.toNat / 16) (by omega)
      have hw := isBase64Unit_digit (n := b.toNat % 16 * 4 + c.toNat / 64) (by omega)
      have hx := isBase64Unit_digit (n := c.toNat % 64) (by omega)
      refine ⟨.group hu hv hw hx ih.1, ?_⟩
      rw [filter_digit (by omega), filter_digit (by omega), filter_digit (by omega),
        filter_digit (by omega)]
      exact .group hu hv hw hx ih.2

/-! ## The alphabet of URLs -/

/-- `[A-Za-z0-9_-]` -/
def isBase64UrlUnit (u : CodeUnit) : Bool :=
  (0x41 ≤ u.toNat && u.toNat ≤ 0x5A) || (0x61 ≤ u.toNat && u.toNat ≤ 0x7A) ||
    (0x30 ≤ u.toNat && u.toNat ≤ 0x39) || u == unit '_' || u == unit '-'

/-- The digit of six bits in the alphabet of URLs. -/
def base64UrlDigit (n : Nat) : CodeUnit :=
  if n = 62 then unit '-' else if n = 63 then unit '_' else base64Digit n

/-- Three bytes at a time; the last group is not padded. -/
def toBase64Url : Bytes → JSString
  | [] => []
  | [a] => [base64UrlDigit (a.toNat / 4), base64UrlDigit (a.toNat % 4 * 16)]
  | [a, b] =>
      [base64UrlDigit (a.toNat / 4), base64UrlDigit (a.toNat % 4 * 16 + b.toNat / 16),
        base64UrlDigit (b.toNat % 16 * 4)]
  | a :: b :: c :: rest =>
      base64UrlDigit (a.toNat / 4) :: base64UrlDigit (a.toNat % 4 * 16 + b.toNat / 16) ::
        base64UrlDigit (b.toNat % 16 * 4 + c.toNat / 64) :: base64UrlDigit (c.toNat % 64) ::
        toBase64Url rest

theorem isBase64UrlUnit_digit {n : Nat} (h : n < 64) : isBase64UrlUnit (base64UrlDigit n) = true := by
  have hall : ∀ n : Fin 64, isBase64UrlUnit (base64UrlDigit n) = true := by decide
  exact hall ⟨n, h⟩

theorem isBase64UrlUnit_of_mem {bytes : Bytes} :
    ∀ u ∈ toBase64Url bytes, isBase64UrlUnit u = true := by
  fun_induction toBase64Url bytes with
  | case1 => simp
  | case2 a =>
      have ha := a.toNat_lt
      simp only [List.forall_mem_cons]
      exact ⟨isBase64UrlUnit_digit (by omega), isBase64UrlUnit_digit (by omega), by simp⟩
  | case3 a b =>
      have ha := a.toNat_lt
      have hb := b.toNat_lt
      simp only [List.forall_mem_cons]
      exact ⟨isBase64UrlUnit_digit (by omega), isBase64UrlUnit_digit (by omega),
        isBase64UrlUnit_digit (by omega), by simp⟩
  | case4 a b c rest ih =>
      have ha := a.toNat_lt
      have hb := b.toNat_lt
      have hc := c.toNat_lt
      simp only [List.forall_mem_cons]
      exact ⟨isBase64UrlUnit_digit (by omega), isBase64UrlUnit_digit (by omega),
        isBase64UrlUnit_digit (by omega), isBase64UrlUnit_digit (by omega), ih⟩

/-- Decoding a digit of this alphabet in front of a rest. -/
theorem sextets_urlDigit {n : Nat} (h : n < 64) (rest : JSString) :
    ((base64UrlDigit n :: rest).takeWhile (· != unit '=')).filterMap base64Value
      = n :: ((rest.takeWhile (· != unit '=')).filterMap base64Value) := by
  have hall : ∀ n : Fin 64, base64Value (base64UrlDigit n) = some n.val ∧
      (base64UrlDigit n.val != unit '=') = true := by decide
  obtain ⟨hvalue, hdigit⟩ := hall ⟨n, h⟩
  rw [List.takeWhile_cons, if_pos hdigit, List.filterMap_cons_some hvalue]

/-- **The round trip**, without padding. -/
theorem fromBase64_toBase64Url (bytes : Bytes) : fromBase64 (toBase64Url bytes) = bytes := by
  have hbyte : ∀ (b : UInt8) {n : Nat}, n = b.toNat → UInt8.ofNat n = b := by
    rintro b _ rfl
    simp
  unfold fromBase64
  fun_induction toBase64Url bytes with
  | case1 => rfl
  | case2 a =>
      have ha := a.toNat_lt
      rw [sextets_urlDigit (by omega), sextets_urlDigit (by omega), List.takeWhile_nil,
        List.filterMap_nil, fromSextets, hbyte a (by omega)]
  | case3 a b =>
      have ha := a.toNat_lt
      have hb := b.toNat_lt
      rw [sextets_urlDigit (by omega), sextets_urlDigit (by omega), sextets_urlDigit (by omega),
        List.takeWhile_nil, List.filterMap_nil, fromSextets, hbyte a (by omega), hbyte b (by omega)]
  | case4 a b c rest ih =>
      have ha := a.toNat_lt
      have hb := b.toNat_lt
      have hc := c.toNat_lt
      rw [sextets_urlDigit (by omega), sextets_urlDigit (by omega), sextets_urlDigit (by omega),
        sextets_urlDigit (by omega), fromSextets, ih, hbyte a (by omega), hbyte b (by omega),
        hbyte c (by omega)]

theorem toBase64Url_ne_nil {bytes : Bytes} (h : bytes ≠ []) : toBase64Url bytes ≠ [] := by
  fun_cases toBase64Url bytes with
  | case1 => exact absurd rfl h
  | case2 => exact List.cons_ne_nil _ _
  | case3 => exact List.cons_ne_nil _ _
  | case4 => exact List.cons_ne_nil _ _

/-! ## Hexadecimal -/

/-- The digit of four bits. -/
def hexDigit (n : Nat) : CodeUnit :=
  if n < 10 then UInt16.ofNat (0x30 + n) else UInt16.ofNat (0x61 + (n - 10))

/-- The four bits of a digit. -/
def hexValue (u : CodeUnit) : Option Nat :=
  let n := u.toNat
  if 0x30 ≤ n ∧ n ≤ 0x39 then some (n - 0x30)
  else if 0x61 ≤ n ∧ n ≤ 0x66 then some (n - 0x61 + 10)
  else if 0x41 ≤ n ∧ n ≤ 0x46 then some (n - 0x41 + 10)
  else none

/-- `digest("hex")` -/
def toHex (bytes : Bytes) : JSString :=
  bytes.flatMap fun b => [hexDigit (b.toNat / 16), hexDigit (b.toNat % 16)]

/-- `Buffer.from(value, "hex")`: decoding ends at the first pair that is no byte. -/
def fromHex : JSString → Bytes
  | u :: v :: rest => match hexValue u, hexValue v with
      | some m, some n => UInt8.ofNat (m * 16 + n) :: fromHex rest
      | _, _ => []
  | _ => []

theorem hexValue_hexDigit {n : Nat} (h : n < 16) : hexValue (hexDigit n) = some n := by
  have hall : ∀ n : Fin 16, hexValue (hexDigit n) = some n.val := by decide
  exact hall ⟨n, h⟩

/-- **The round trip.** -/
theorem fromHex_toHex (bytes : Bytes) : fromHex (toHex bytes) = bytes := by
  induction bytes with
  | nil => rfl
  | cons b rest ih =>
      have hb := b.toNat_lt
      have hbyte : UInt8.ofNat (b.toNat / 16 * 16 + b.toNat % 16) = b := by
        rw [Nat.div_add_mod', UInt8.ofNat_toNat]
      change fromHex (hexDigit (b.toNat / 16) :: hexDigit (b.toNat % 16) :: toHex rest) = b :: rest
      rw [fromHex, hexValue_hexDigit (by omega), hexValue_hexDigit (by omega), ih]
      exact congrArg (· :: rest) hbyte

end Typr
