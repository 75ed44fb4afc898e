import TyprCompanion.Js.Base64
import TyprCompanion.Js.Json

/-!
# HTTP requests

What `node:http` hands to the listeners of both servers, and how they read headers and bodies.

* `HttpRequest` — method, target, headers and body of an `IncomingMessage`.
* `Runtime` — the parsers of the platform: `new URL`, `JSON.parse` and `decodeURIComponent`.
* `singleHeader`, `isStrongEtag` — the header values the servers accept.
* `HttpRequest.collect` — the loops that read a body up to a limit.
-/

namespace Typr

open Core

/-! ## Requests -/

/-- The value of a header.  Of most repeated headers there is one value, joined with commas. -/
inductive HeaderValue where
  | one (value : JSString)
  | many (values : List JSString)
  deriving DecidableEq

structure HttpRequest where
  method : Option JSString
  url : Option JSString
  /-- `request.headers[name]`, the name in lower case -/
  headers : JSString → Option HeaderValue
  /-- `request.socket.remoteAddress` -/
  remoteAddress : Option JSString
  chunks : List Bytes
  /-- the message of the error that ends the stream, such as an abort -/
  streamError : Option JSString

/-- A `URL`, as far as the servers read it. -/
structure Url where
  protocol : JSString
  username : JSString
  password : JSString
  host : JSString
  hostname : JSString
  pathname : JSString
  search : JSString
  hash : JSString
  origin : JSString
  searchParams : List (JSString × JSString)
  deriving DecidableEq

/-- `url.searchParams.getAll(name)` -/
def Url.getAll (url : Url) (name : JSString) : List JSString :=
  (url.searchParams.filter fun entry => entry.1 == name).map Prod.snd

/-- The parsers of the platform.  Each is `none` where the platform throws. -/
structure Runtime where
  /-- `new URL(input)`, or `new URL(input, base)` -/
  parseUrl : JSString → Option JSString → Option Url
  /-- `JSON.parse(text)` -/
  parseJson : JSString → Option Json
  decodeURIComponent : JSString → Option JSString

/-- The base of every request target. -/
def LOOPBACK_BASE : JSString := js "http://127.0.0.1"

/-- `new URL(request.url ?? "/", "http://127.0.0.1")` -/
def HttpRequest.target? (runtime : Runtime) (request : HttpRequest) : Option Url :=
  runtime.parseUrl (request.url.getD (js "/")) (some LOOPBACK_BASE)

/-- The URL of a target on this host. -/
def localUrl (pathname search : JSString) (searchParams : List (JSString × JSString)) : Url where
  protocol := js "http:"
  username := []
  password := []
  host := js "127.0.0.1"
  hostname := js "127.0.0.1"
  pathname
  search
  hash := []
  origin := LOOPBACK_BASE
  searchParams

/-- Parsers that know a table of targets and a table of texts. -/
def tableRuntime (targets : List (JSString × Url)) (texts : List (JSString × Json)) : Runtime where
  parseUrl input base :=
    if base = some LOOPBACK_BASE then (targets.find? fun entry => entry.1 == input).map Prod.snd
    else none
  parseJson text := (texts.find? fun entry => entry.1 == text).map Prod.snd
  decodeURIComponent text := if text.contains (unit '%') = true then none else some text

/-! ## Headers -/

/-- `request.headers[name]` -/
def HttpRequest.header (request : HttpRequest) (name : String) : Option HeaderValue :=
  request.headers (js name)

/-- The value when `typeof value === "string"`. -/
def stringHeader : Option HeaderValue → Option JSString
  | some (.one value) => some value
  | _ => none

/-- `singleHeader` -/
def singleHeader (value : Option HeaderValue) : Option JSString :=
  match stringHeader value with
  | none => none
  | some value =>
      let normalized := JSString.trim value
      if JSString.includes value (unit ',') = true ∨ normalized = [] then none else some normalized

/-- `String(value ?? "")` -/
def headerText : Option HeaderValue → JSString
  | none => []
  | some (.one value) => value
  | some (.many values) => JSString.join (unit ',') values

theorem stringHeader_eq_some {value : Option HeaderValue} {text : JSString} :
    stringHeader value = some text ↔ value = some (.one text) := by
  match value with
  | none => exact ⟨nofun, nofun⟩
  | some (.many values) => exact ⟨nofun, nofun⟩
  | some (.one raw) => simp [stringHeader]

theorem singleHeader_eq_some {value : Option HeaderValue} {text : JSString} :
    singleHeader value = some text ↔
      ∃ raw, value = some (.one raw) ∧ unit ',' ∉ raw ∧ JSString.trim raw = text ∧ text ≠ [] := by
  match value with
  | none => exact ⟨nofun, nofun⟩
  | some (.many values) => exact ⟨nofun, nofun⟩
  | some (.one raw) =>
      simp only [singleHeader, stringHeader, Option.ite_none_left_eq_some, not_or, Option.some.injEq,
        HeaderValue.one.injEq, JSString.includes, List.contains_iff_mem]
      constructor
      · rintro ⟨⟨hcomma, hne⟩, rfl⟩
        exact ⟨raw, rfl, hcomma, rfl, hne⟩
      · rintro ⟨raw, rfl, hcomma, rfl, hne⟩
        exact ⟨⟨hcomma, hne⟩, rfl⟩

/-- `/^"[^"\r\n]+"$/u.test(value)` -/
def isStrongEtag (value : JSString) : Bool :=
  match value with
  | [] => false
  | quote :: rest =>
      quote == unit '"' && rest.getLast? == some (unit '"') && decide (1 < rest.length) &&
        rest.dropLast.all fun u => u != unit '"' && u != 0x0D && u != 0x0A

/-- One quoted strong tag. -/
def StrongEtag (value : JSString) : Prop :=
  ∃ tag : JSString, value = unit '"' :: tag ++ [unit '"'] ∧ tag ≠ [] ∧
    ∀ u ∈ tag, u ≠ unit '"' ∧ u ≠ 0x0D ∧ u ≠ 0x0A

theorem isStrongEtag_iff {value : JSString} : isStrongEtag value = true ↔ StrongEtag value := by
  match value with
  | [] =>
      refine ⟨nofun, ?_⟩
      rintro ⟨tag, htag, -⟩
      exact absurd htag nofun
  | quote :: rest =>
      simp only [isStrongEtag, Bool.and_eq_true, beq_iff_eq, decide_eq_true_eq, List.all_eq_true,
        bne_iff_ne, ne_eq, and_assoc]
      constructor
      · rintro ⟨rfl, hlast, hlen, hall⟩
        obtain ⟨tag, rfl⟩ := List.getLast?_eq_some_iff.mp hlast
        rw [List.dropLast_concat] at hall
        refine ⟨tag, rfl, ?_, hall⟩
        intro hnil
        rw [hnil] at hlen
        exact absurd hlen (by decide)
      · rintro ⟨tag, heq, hne, hall⟩
        obtain ⟨rfl, hrest⟩ := List.cons.inj heq
        obtain rfl : rest = tag ++ [unit '"'] := hrest
        refine ⟨rfl, List.getLast?_concat, ?_, ?_⟩
        · rw [List.length_append, List.length_singleton]
          exact Nat.lt_add_of_pos_left (List.length_pos_iff.mpr hne)
        · rw [List.dropLast_concat]
          exact hall

/-! ## Bodies -/

/-- The value of a text of digits. -/
def decimal? (s : JSString) : Option Nat :=
  if s ≠ [] ∧ s.all (fun u => 0x30 ≤ u && u ≤ 0x39) = true then
    some (s.foldl (fun n u => n * 10 + (u.toNat - 0x30)) 0)
  else none

/-- Read chunks as long as they fit. -/
def collectChunks (maxBytes : Nat) : List Bytes → Bytes → Option Bytes
  | [], read => some read
  | chunk :: rest, read =>
      if maxBytes < read.length + chunk.length then none
      else collectChunks maxBytes rest (read ++ chunk)

/-- The loop over the body: its bytes, `none` when there are too many, or the error of the stream. -/
def HttpRequest.collect (request : HttpRequest) (maxBytes : Nat) : Except JSString (Option Bytes) :=
  match collectChunks maxBytes request.chunks [], request.streamError with
  | none, _ => .ok none
  | some _, some message => .error message
  | some body, none => .ok (some body)

end Typr
