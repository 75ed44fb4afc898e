import Mathlib.Data.List.ReduceOption
import TyprCompanion.Compile.TexPackageManager
import TyprCompanion.Core.Regex
import TyprCompanion.Js.Path

/-!
# The texts the package manager reads

`texPackageManager.ts`: the files a compiler says it misses, and the package `tlmgr` names for one.
The patterns are about code units: none of their classes can take one half of a surrogate pair and
go on behind it, so matching by code points gives the same.

* `extractMissingTexFiles`, `packageForExactFile`, `requiresTlmgrSelfUpdate`, `texTexts` — what the
  source computes.
* `Names` — a diagnostic in the output of the compiler names a file that may be looked up.
* `BestMatch` — the package that the output of a search names for a file: the header above the
  earliest of the best lines.
* **`names_of_mem_extract`**, **`packageForExactFile_iff`** — the extracted files are named, and the
  package found is the best match.
-/

namespace Typr

open Core

/-! ## Patterns -/

/-- The unit that stands for all those a pattern with the flags `iu` does not tell apart, as far as
ASCII goes: the long s and the sign of the kelvin fold to it. -/
def foldCase (u : CodeUnit) : CodeUnit :=
  if 0x41 ≤ u.toNat ∧ u.toNat ≤ 0x5A then u + 0x20
  else if u = 0x17F then unit 's'
  else if u = 0x212A then unit 'k'
  else u

/-- A text in a pattern with the flags `iu` -/
def literal (text : String) : Regex CodeUnit :=
  .concat ((js text).map fun c => .one fun u => foldCase u == foldCase c)

/-- A text in a pattern with the flag `u` alone -/
def exactly (text : String) : Regex CodeUnit := .concat ((js text).map fun c => .one (· == c))

/-- `[A-Za-z0-9]` -/
def isAlphanumeric (u : CodeUnit) : Bool :=
  (0x41 ≤ u.toNat && u.toNat ≤ 0x5A) || (0x61 ≤ u.toNat && u.toNat ≤ 0x7A) ||
    (0x30 ≤ u.toNat && u.toNat ≤ 0x39)

/-- `[A-Za-z0-9._+-]` -/
def isNameUnit (u : CodeUnit) : Bool := isAlphanumeric u || (js "._+-").contains u

/-- A grave accent or an apostrophe. -/
def isQuote (u : CodeUnit) : Bool := u == 0x60 || u == 0x27

/-- `[\r\n]` -/
def isLineBreak (u : CodeUnit) : Bool := u == 0x0D || u == 0x0A

/-- `\s+` -/
def blanks : Regex CodeUnit := .many JSString.isWhiteSpace 1 none false

/-- The file that LaTeX or a package does not find. -/
def filePattern : Regex CodeUnit :=
  .concat [.alt (literal "LaTeX")
      (.concat [literal "Package", blanks, .many (fun u => !JSString.isWhiteSpace u) 1 none false]),
    blanks, literal "Error:", blanks, literal "File", blanks, .one isQuote,
    .capture (.many (fun u => !isQuote u && !isLineBreak u) 1 none false), .one isQuote, blanks,
    literal "not", blanks, literal "found", .many (· == unit '.') 0 (some 1) false]

/-- The style file that is not opened. -/
def stylePattern : Regex CodeUnit :=
  .concat [literal "I couldn't open style file", blanks,
    .capture (.concat [.many (fun u => !JSString.isWhiteSpace u && u != unit '.') 1 none false,
      literal ".", .alt (literal "bst") (.alt (literal "bbx") (literal "cbx"))])]

/-- The font whose metric is not found. -/
def fontPattern : Regex CodeUnit :=
  .concat [literal "Font", blanks, .many (fun u => !isLineBreak u && u != unit '=') 1 none true,
    literal "=", .capture (.many (fun u => isNameUnit (foldCase u)) 1 none false),
    .opt (.concat [blanks, literal "at", blanks, .many (fun u => !isLineBreak u) 1 none true]),
    blanks, literal "not", blanks, literal "loadable:", blanks, literal "Metric", blanks,
    literal "(TFM)", blanks, literal "file", blanks, literal "not", blanks, literal "found"]

/-- `^[A-Za-z0-9][A-Za-z0-9._+-]{0,159}$` without its anchors -/
def namePattern : Regex CodeUnit := .seq (.one isAlphanumeric) (.many isNameUnit 0 (some 159) false)

def SAFE_FILE_NAME : Regex CodeUnit := namePattern
def SAFE_PACKAGE_NAME : Regex CodeUnit := namePattern

def SUPPORTED_MISSING_EXTENSIONS : List JSString :=
  [js ".bbx", js ".bst", js ".cbx", js ".cfg", js ".clo", js ".cls", js ".def", js ".enc", js ".fd",
    js ".map", js ".otf", js ".pfb", js ".sty", js ".tfm", js ".ttf", js ".vf"]

/-! ## What the source computes -/

section Texts

variable (platform : Platform)

/-- `safeMissingFile` -/
def safeMissingFile (value : JSString) : Option JSString :=
  let normalized := value.trim.replaceAll 0x5C (unit '/')
  let file := basename platform normalized
  if file ≠ normalized ∧ normalized.endsWith (unit '/' :: file) = false then none
  else if (SAFE_FILE_NAME.fullMatch file).isSome = false ∨
      (extname platform file).toLowerCase ∉ SUPPORTED_MISSING_EXTENSIONS then none
  else some file

/-- The three patterns, each with what is made of the text it captures. -/
def diagnostics : List (Regex CodeUnit × (JSString → JSString)) :=
  [(filePattern, id), (stylePattern, id),
    (fontPattern, fun raw => if extname platform raw = [] then raw ++ js ".tfm" else raw)]

/-- `extractMissingTexFiles` -/
def extractMissingTexFiles (output : JSString) : List JSString :=
  List.eraseDups <| (diagnostics platform).flatMap fun diagnostic =>
    (diagnostic.1.matchAll output).reduceOption.filterMap fun raw =>
      safeMissingFile platform (diagnostic.2 raw)

/-- `^([A-Za-z0-9][A-Za-z0-9._+-]{0,159}):\s*$` without its anchors -/
def headerPattern : Regex CodeUnit :=
  .concat [.capture namePattern, .one (· == unit ':'), .many JSString.isWhiteSpace 0 none false]

/-- `header[1]` -/
def packageHeader (line : JSString) : Option JSString := (headerPattern.fullMatch line.trim).join

/-- The path of a line that is no header. -/
def linePath (line : JSString) : JSString :=
  if line.trim.startsWith (js "RELOCATED/") = true then line.trim.drop (js "RELOCATED/").length
  else line.trim

/-- A pattern behind `(?:^|\/)` -/
def testSegment (r : Regex CodeUnit) (path : JSString) : Bool :=
  r.testStart path || (Regex.seq (exactly "/") r).test path

/-- Files of the runtime count most, documentation and sources least. -/
def pathScore (path : JSString) : Nat :=
  if testSegment (.concat [exactly "texmf-dist/", .alt (exactly "tex") (exactly "fonts"),
      exactly "/"]) path = true then 2
  else if testSegment (.seq (.alt (exactly "doc") (exactly "source")) (exactly "/")) path = true then 0
  else 1

/-- `packageName` and `bestMatch` between two lines -/
structure PackageSearch where
  packageName : Option JSString
  bestMatch : Option (JSString × Nat)

/-- The path of a line is a file of this name. -/
def IsPathOf (requestedFile line : JSString) : Prop :=
  basename platform ((linePath line).replaceAll 0x5C (unit '/')) = requestedFile

instance (requestedFile line : JSString) : Decidable (IsPathOf platform requestedFile line) :=
  inferInstanceAs (Decidable (_ = _))

/-- What the loop does with a line. -/
def PackageSearch.readLine (requestedFile : JSString) (s : PackageSearch) (line : JSString) :
    PackageSearch :=
  match packageHeader line with
  | some name =>
      { s with packageName := if (SAFE_PACKAGE_NAME.fullMatch name).isSome = true then some name else none }
  | none =>
      match s.packageName with
      | none => s
      | some packageName =>
          if IsPathOf platform requestedFile line then
            let score := pathScore (linePath line)
            if s.bestMatch.all (fun best => best.2 < score) = true
            then { s with bestMatch := some (packageName, score) } else s
          else s

/-- `packageForExactFile` -/
def packageForExactFile (output requestedFile : JSString) : Option JSString :=
  let s := output.splitLines.foldl (PackageSearch.readLine platform requestedFile) ⟨none, none⟩
  s.bestMatch.map Prod.fst

/-- `requiresTlmgrSelfUpdate` -/
def requiresTlmgrSelfUpdate (output : JSString) : Bool :=
  (literal "tlmgr itself needs to be updated").test output

/-- The functions of the module. -/
def texTexts : TexTexts where
  extractMissingTexFiles := extractMissingTexFiles platform
  packageForExactFile := packageForExactFile platform
  requiresTlmgrSelfUpdate := requiresTlmgrSelfUpdate

end Texts

/-! ## What the texts say -/

/-- A name that may be passed on as an argument. -/
def SafeName (name : JSString) : Prop :=
  ∃ first rest, name = first :: rest ∧ isAlphanumeric first = true ∧
    (∀ u ∈ rest, isNameUnit u = true) ∧ rest.length ≤ 159

/-- A header line of the output of `tlmgr search`. -/
def IsHeader (line name : JSString) : Prop := line.trim = name ++ [unit ':'] ∧ SafeName name

/-- The last header above is that of the package. -/
def NearestHeader (above : List JSString) (name : JSString) : Prop :=
  ∃ before header between, above = before ++ header :: between ∧ IsHeader header name ∧
    ∀ line ∈ between, ∀ other, ¬ IsHeader line other

section Meaning

variable (platform : Platform)

/-- A file that the package manager can look up. -/
def SupportedFile (file : JSString) : Prop :=
  SafeName file ∧ (extname platform file).toLowerCase ∈ SUPPORTED_MISSING_EXTENSIONS

/-- A diagnostic somewhere in the output names the file. -/
def Names (output file : JSString) : Prop :=
  ∃ diagnostic ∈ diagnostics platform, ∃ raw, diagnostic.1.Occurs output (some raw) ∧
    safeMissingFile platform (diagnostic.2 raw) = some file

/-- A line says that the package has the file. -/
def Offers (file : JSString) (above : List JSString) (line name : JSString) : Prop :=
  (∀ other, ¬ IsHeader line other) ∧ IsPathOf platform file line ∧ NearestHeader above name

/-- One of the lines says so. -/
def OffersIn (file : JSString) (lines above : List JSString) (line name : JSString) : Prop :=
  above ++ [line] <+: lines ∧ Offers platform file above line name

/-- The line that says so with this score is the earliest of the best. -/
def BestIn (file : JSString) (lines : List JSString) (name : JSString) (score : Nat) : Prop :=
  ∃ above line, OffersIn platform file lines above line name ∧ pathScore (linePath line) = score ∧
    ∀ above' line' name', OffersIn platform file lines above' line' name' →
      pathScore (linePath line') ≤ score ∧
        (above'.length < above.length → pathScore (linePath line') < score)

/-- The best match for a file in the output of a search is in this package. -/
def BestMatch (output file name : JSString) : Prop :=
  ∃ score, BestIn platform file output.splitLines name score

end Meaning

/-! ## Names -/

theorem matches_namePattern {m : JSString} {c : Option JSString} :
    namePattern.Matches m c ↔ SafeName m ∧ c = none := by
  constructor
  · rintro ⟨m₁, c₁, m₂, c₂, rfl, hone, ⟨⟨hrest, -, hlength⟩, rfl⟩, rfl⟩
    obtain ⟨first, rfl, hfirst, rfl⟩ := Regex.matches_one.mp hone
    exact ⟨⟨first, m₂, rfl, hfirst, hrest, hlength 159 rfl⟩, rfl⟩
  · rintro ⟨⟨first, rest, rfl, hfirst, hrest, hlength⟩, rfl⟩
    refine ⟨[first], none, rest, none, rfl, Regex.matches_one.mpr ⟨first, rfl, hfirst, rfl⟩,
      ⟨⟨hrest, Nat.zero_le _, ?_⟩, rfl⟩, rfl⟩
    rintro bound hbound
    obtain rfl := Option.some.inj hbound
    exact hlength

theorem isSome_fullMatch_namePattern {name : JSString} :
    (namePattern.fullMatch name).isSome = true ↔ SafeName name := by
  rw [Regex.isSome_fullMatch]
  constructor
  · rintro ⟨c, hc⟩
    exact (matches_namePattern.mp hc).1
  · intro h
    exact ⟨none, matches_namePattern.mpr ⟨h, rfl⟩⟩

/-- **A safe name is no option.** -/
theorem SafeName.head_ne {name : JSString} (h : SafeName name) : name.head? ≠ some (unit '-') := by
  obtain ⟨first, rest, rfl, hfirst, -, -⟩ := h
  intro heq
  obtain rfl := Option.some.inj heq
  exact absurd hfirst (by decide)

/-- What is trimmed does not end with white space. -/
theorem JSString.isWhiteSpace_of_trim {s t : JSString} {u : CodeUnit} (h : s.trim = t ++ [u]) :
    isWhiteSpace u = false := by
  have hne : trim s ≠ [] := by simp [h]
  have hlast := List.rdropWhile_last_not isWhiteSpace (s.dropWhile isWhiteSpace) hne
  have hu : (trim s).getLast hne = u := by simp [h]
  exact Bool.eq_false_iff.mpr (hu ▸ hlast)

theorem matches_headerPattern {line : JSString} {c : Option JSString} :
    headerPattern.Matches line.trim c ↔ ∃ name, c = some name ∧ IsHeader line name := by
  constructor
  · rintro ⟨m₁, c₁, m₂, c₂, htrim, ⟨⟨inner, hname⟩, rfl⟩, ⟨m₃, c₃, m₄, c₄, rfl, hone,
      ⟨⟨hblank, -, -⟩, rfl⟩, rfl⟩, rfl⟩
    obtain ⟨colon, rfl, hcolon, rfl⟩ := Regex.matches_one.mp hone
    obtain rfl : colon = unit ':' := beq_iff_eq.mp hcolon
    obtain rfl : m₄ = [] := by
      rcases List.eq_nil_or_concat' m₄ with hnil | ⟨init, last, rfl⟩
      · exact hnil
      · have hend : line.trim = (m₁ ++ ([unit ':'] ++ init)) ++ [last] := by simpa using htrim
        have hlast := JSString.isWhiteSpace_of_trim hend
        rw [hblank last (by simp)] at hlast
        cases hlast
    exact ⟨m₁, rfl, htrim, (matches_namePattern.mp hname).1⟩
  · rintro ⟨name, rfl, htrim, hname⟩
    refine ⟨name, some name, [unit ':'], none, htrim,
      ⟨⟨none, matches_namePattern.mpr ⟨hname, rfl⟩⟩, rfl⟩, ?_, rfl⟩
    refine ⟨[unit ':'], none, [], none, rfl, Regex.matches_one.mpr ⟨unit ':', rfl, ?_, rfl⟩, ?_, rfl⟩
    · exact beq_self_eq_true _
    · exact ⟨⟨by simp, Nat.le_refl 0, by simp⟩, rfl⟩

/-- **The header lines** are those the pattern finds. -/
theorem packageHeader_iff {line name : JSString} :
    packageHeader line = some name ↔ IsHeader line name := by
  rw [packageHeader, Option.join_eq_some_iff]
  constructor
  · intro h
    obtain ⟨name', hname, hheader⟩ := matches_headerPattern.mp (Regex.matches_of_fullMatch h)
    rwa [Option.some.inj hname]
  · intro hheader
    have hsome : (headerPattern.fullMatch line.trim).isSome = true :=
      Regex.isSome_fullMatch.mpr ⟨_, matches_headerPattern.mpr ⟨name, rfl, hheader⟩⟩
    obtain ⟨c, hc⟩ := Option.isSome_iff_exists.mp hsome
    obtain ⟨name', rfl, hheader'⟩ := matches_headerPattern.mp (Regex.matches_of_fullMatch hc)
    rw [hc, List.append_cancel_right (hheader'.1.symm.trans hheader.1)]

theorem packageHeader_eq_none {line : JSString} :
    packageHeader line = none ↔ ∀ name, ¬ IsHeader line name := by
  simp only [Option.eq_none_iff_forall_ne_some, ne_eq, packageHeader_iff]

/-! ## The files of the compiler -/

section Diagnostics

variable {platform : Platform} {output file : JSString}

theorem supportedFile_of_safeMissingFile {value : JSString}
    (h : safeMissingFile platform value = some file) : SupportedFile platform file := by
  simp only [safeMissingFile] at h
  split at h
  next => cases h
  next =>
    split at h
    next => cases h
    next hsafe =>
      obtain rfl := Option.some.inj h
      obtain ⟨hname, hextension⟩ := not_or.mp hsafe
      exact ⟨isSome_fullMatch_namePattern.mp (eq_true_of_ne_false hname), not_not.mp hextension⟩

/-- **The extracted files are named** by diagnostics. -/
theorem names_of_mem_extract (h : file ∈ extractMissingTexFiles platform output) :
    Names platform output file := by
  obtain ⟨diagnostic, hdiagnostic, hfile⟩ := List.mem_flatMap.mp (List.mem_eraseDups.mp h)
  obtain ⟨raw, hraw, hsafe⟩ := List.mem_filterMap.mp hfile
  exact ⟨diagnostic, hdiagnostic, raw,
    Regex.occurs_of_mem_matchAll (List.reduceOption_mem_iff.mp hraw), hsafe⟩

example : extractMissingTexFiles .posix (js "LaTeX Error: File 'x.sty' not found.") = [js "x.sty"] := by
  decide +kernel

theorem Names.supported (h : Names platform output file) : SupportedFile platform file := by
  obtain ⟨_, _, _, _, hsafe⟩ := h
  exact supportedFile_of_safeMissingFile hsafe

theorem nodup_eraseDups {α : Type} [BEq α] [LawfulBEq α] : ∀ l : List α, l.eraseDups.Nodup
  | [] => by simp
  | a :: l => by
      rw [List.eraseDups_cons, List.nodup_cons]
      refine ⟨?_, nodup_eraseDups _⟩
      rw [List.mem_eraseDups]
      simp
termination_by l => l.length
decreasing_by exact Nat.lt_succ_of_le (List.length_filter_le ..)

theorem nodup_extract : (extractMissingTexFiles platform output).Nodup := nodup_eraseDups _

end Diagnostics

/-! ## The package of a file -/

section Search

variable {platform : Platform} {file : JSString} {lines : List JSString} {line name : JSString}

theorem nearestHeader_concat :
    NearestHeader (lines ++ [line]) name ↔
      IsHeader line name ∨ ((∀ other, ¬ IsHeader line other) ∧ NearestHeader lines name) := by
  constructor
  · rintro ⟨before, header, between, heq, hheader, hnone⟩
    rcases List.eq_nil_or_concat' between with rfl | ⟨init, last, rfl⟩
    · obtain ⟨rfl, hline⟩ := List.append_inj' heq rfl
      obtain rfl := List.singleton_inj.mp hline
      exact .inl hheader
    · rw [← List.cons_append, ← List.append_assoc] at heq
      obtain ⟨rfl, hline⟩ := List.append_inj' heq rfl
      obtain rfl := List.singleton_inj.mp hline
      exact .inr ⟨hnone _ (by simp), before, header, init, rfl, hheader,
        fun l hl => hnone l (List.mem_append_left _ hl)⟩
  · rintro (hheader | ⟨hline, before, header, between, rfl, hheader, hnone⟩)
    · exact ⟨lines, line, [], rfl, hheader, by simp⟩
    · refine ⟨before, header, between ++ [line], by simp, hheader, fun l hl => ?_⟩
      rcases List.mem_append.mp hl with hl | hl
      · exact hnone l hl
      · obtain rfl := List.mem_singleton.mp hl
        exact hline

theorem offersIn_concat {above : List JSString} {l : JSString} :
    OffersIn platform file (lines ++ [l]) above line name ↔
      (above = lines ∧ line = l ∧ Offers platform file lines l name) ∨
        OffersIn platform file lines above line name := by
  rw [OffersIn, List.prefix_concat_iff]
  constructor
  · rintro ⟨heq | hpre, hoffers⟩
    · obtain ⟨rfl, hline⟩ := List.append_inj' heq rfl
      obtain rfl := List.singleton_inj.mp hline
      exact .inl ⟨rfl, rfl, hoffers⟩
    · exact .inr ⟨hpre, hoffers⟩
  · rintro (⟨rfl, rfl, hoffers⟩ | ⟨hpre, hoffers⟩)
    · exact ⟨.inl rfl, hoffers⟩
    · exact ⟨.inr hpre, hoffers⟩

/-- What the loop knows behind some lines. -/
structure PackageSearch.Knows (platform : Platform) (file : JSString) (lines : List JSString)
    (s : PackageSearch) : Prop where
  header : ∀ name, s.packageName = some name ↔ NearestHeader lines name
  unmatched : s.bestMatch = none → ∀ above line name, ¬ OffersIn platform file lines above line name
  best : ∀ best, s.bestMatch = some best → BestIn platform file lines best.1 best.2

namespace PackageSearch.Knows

variable {s : PackageSearch}

theorem start : Knows platform file [] ⟨none, none⟩ where
  header name := by
    refine iff_of_false nofun ?_
    rintro ⟨before, header, between, heq, -⟩
    simp at heq
  unmatched := by
    rintro - above line name ⟨hpre, -⟩
    simp at hpre
  best := nofun

/-- A line that offers nothing leaves the match as it is. -/
theorem keep (h : Knows platform file lines s) (hline : ∀ name, ¬ Offers platform file lines line name)
    {packageName : Option JSString}
    (hheader : ∀ name, packageName = some name ↔ NearestHeader (lines ++ [line]) name) :
    Knows platform file (lines ++ [line]) { s with packageName } := by
  have hsame : ∀ above l name, OffersIn platform file (lines ++ [line]) above l name ↔
      OffersIn platform file lines above l name := by
    intro above l name
    rw [offersIn_concat]
    exact or_iff_right fun hnew => hline _ hnew.2.2
  refine ⟨hheader, fun hnone above l name => ?_, fun best hbest => ?_⟩
  · rw [hsame]
    exact h.unmatched hnone above l name
  · simp only [BestIn, hsame]
    exact h.best best hbest

/-- A line that offers the file takes the match when it is better. -/
theorem offer (h : Knows platform file lines s) (hline : Offers platform file lines line name)
    (hunique : ∀ other, NearestHeader lines other → other = name)
    (hheader : ∀ other, s.packageName = some other ↔ NearestHeader (lines ++ [line]) other) :
    Knows platform file (lines ++ [line])
      (if s.bestMatch.all (fun best => best.2 < pathScore (linePath line)) = true
        then { s with bestMatch := some (name, pathScore (linePath line)) } else s) := by
  have hin : OffersIn platform file (lines ++ [line]) lines line name :=
    offersIn_concat.mpr (.inl ⟨rfl, rfl, hline⟩)
  split
  next hbetter =>
    refine ⟨hheader, nofun, ?_⟩
    rintro best hbest
    obtain rfl := Option.some.inj hbest
    refine ⟨lines, line, hin, rfl, fun above' line' name' hother => ?_⟩
    rcases offersIn_concat.mp hother with ⟨rfl, rfl, -⟩ | hold
    · exact ⟨Nat.le_refl _, fun hlt => absurd hlt (Nat.lt_irrefl _)⟩
    · have hlower : pathScore (linePath line') < pathScore (linePath line) := by
        cases hmatch : s.bestMatch with
        | none => exact absurd hold (h.unmatched hmatch _ _ _)
        | some best =>
            obtain ⟨_, _, _, _, hmax⟩ := h.best best hmatch
            rw [hmatch] at hbetter
            exact Nat.lt_of_le_of_lt (hmax _ _ _ hold).1 (of_decide_eq_true hbetter)
      exact ⟨Nat.le_of_lt hlower, fun _ => hlower⟩
  next hworse =>
    obtain ⟨best, hmatch, hge⟩ : ∃ best, s.bestMatch = some best ∧
        pathScore (linePath line) ≤ best.2 := by
      cases hmatch : s.bestMatch with
      | none => exact absurd (by rw [hmatch]; rfl) hworse
      | some best =>
          rw [hmatch] at hworse
          exact ⟨best, rfl, Nat.le_of_not_lt fun hlt => hworse (decide_eq_true hlt)⟩
    refine ⟨hheader, fun hnone => absurd (hmatch.symm.trans hnone) nofun, fun best' hbest' => ?_⟩
    obtain rfl := Option.some.inj (hmatch.symm.trans hbest')
    obtain ⟨above, l, hold, hscore, hmax⟩ := h.best best hmatch
    refine ⟨above, l, offersIn_concat.mpr (.inr hold), hscore, fun above' line' name' hother => ?_⟩
    rcases offersIn_concat.mp hother with ⟨rfl, rfl, -⟩ | hother
    · refine ⟨hge, fun hlt => absurd hlt ?_⟩
      have hlength := hold.1.length_le
      rw [List.length_append] at hlength
      omega
    · exact hmax _ _ _ hother

/-- **The loop reads a line.** -/
theorem readLine (h : Knows platform file lines s) (line : JSString) :
    Knows platform file (lines ++ [line]) (s.readLine platform file line) := by
  rw [PackageSearch.readLine]
  split
  next name hname =>
    have hheader := packageHeader_iff.mp hname
    have hsafe : (SAFE_PACKAGE_NAME.fullMatch name).isSome = true :=
      isSome_fullMatch_namePattern.mpr hheader.2
    rw [if_pos hsafe]
    refine h.keep (fun _ hoffers => hoffers.1 name hheader) fun other => ?_
    rw [nearestHeader_concat, ← packageHeader_iff, hname]
    exact (or_iff_left fun hplain => hplain.1 name hheader).symm
  next hplain =>
    have hnone := packageHeader_eq_none.mp hplain
    have hheader : ∀ other, s.packageName = some other ↔ NearestHeader (lines ++ [line]) other := by
      intro other
      rw [h.header, nearestHeader_concat]
      exact ⟨fun hnear => .inr ⟨hnone, hnear⟩, fun hnear => hnear.elim (absurd · (hnone _)) And.right⟩
    split
    next hname =>
      refine h.keep (fun name hoffers => ?_) hheader
      exact absurd (hname.symm.trans ((h.header name).mpr hoffers.2.2)) nofun
    next name hname =>
      have hnear := (h.header name).mp hname
      by_cases hpath : IsPathOf platform file line
      · rw [if_pos hpath]
        refine h.offer ⟨hnone, hpath, hnear⟩ (fun other hother => ?_) hheader
        exact Option.some.inj (((h.header other).mpr hother).symm.trans hname)
      · rw [if_neg hpath]
        exact h.keep (fun _ hoffers => hpath hoffers.2.1) hheader

/-- **Behind the loop.** -/
theorem foldl (lines : List JSString) :
    Knows platform file lines (lines.foldl (PackageSearch.readLine platform file) ⟨none, none⟩) := by
  induction lines using List.reverseRecOn with
  | nil => exact start
  | append_singleton lines line ih =>
      rw [List.foldl_concat]
      exact ih.readLine line

end PackageSearch.Knows

theorem NearestHeader.unique {other : JSString} (h : NearestHeader lines name)
    (h' : NearestHeader lines other) : name = other := by
  have hknows : PackageSearch.Knows .posix [] lines _ := .foldl lines
  exact Option.some.inj (((hknows.header name).mpr h).symm.trans ((hknows.header other).mpr h'))

/-- Two best matches are on one line. -/
theorem BestIn.unique {other : JSString} {score score' : Nat}
    (h : BestIn platform file lines name score) (h' : BestIn platform file lines other score') :
    name = other := by
  obtain ⟨above, line, hoffers, hscore, hbest⟩ := h
  obtain ⟨above', line', hoffers', hscore', hbest'⟩ := h'
  have hle := hbest _ _ _ hoffers'
  have hge := hbest' _ _ _ hoffers
  have hlength : (above ++ [line]).length = (above' ++ [line']).length := by
    simp only [List.length_append, List.length_singleton]
    omega
  have hlines := (List.prefix_of_prefix_length_le hoffers.1 hoffers'.1 hlength.le).eq_of_length hlength
  obtain ⟨rfl, -⟩ := List.append_inj' hlines rfl
  exact hoffers.2.2.2.unique hoffers'.2.2.2

/-- **The package that is found is the best match.** -/
theorem packageForExactFile_iff {output : JSString} :
    packageForExactFile platform output file = some name ↔ BestMatch platform output file name := by
  have hknows : PackageSearch.Knows platform file output.splitLines _ := .foldl output.splitLines
  rw [packageForExactFile, Option.map_eq_some_iff]
  constructor
  · rintro ⟨best, hbest, rfl⟩
    exact ⟨best.2, hknows.best best hbest⟩
  · rintro ⟨score, hmatch⟩
    cases hbest : PackageSearch.bestMatch _ with
    | none =>
        obtain ⟨above, line, hoffers, -⟩ := hmatch
        exact absurd hoffers (hknows.unmatched hbest _ _ _)
    | some best => exact ⟨best, rfl, (hknows.best best hbest).unique hmatch⟩

example : packageForExactFile .posix (js "a:\n doc/x.sty\nb:\n texmf-dist/tex/x.sty\n") (js "x.sty")
    = some (js "b") := by
  decide

theorem BestMatch.safe {output : JSString} (h : BestMatch platform output file name) :
    SafeName name := by
  obtain ⟨-, above, line, ⟨-, -, -, before, header, between, -, hheader, -⟩, -⟩ := h
  exact hheader.2

end Search

end Typr
