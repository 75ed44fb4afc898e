import Mathlib.Data.Finset.Basic
import TyprCompanion.Core.LastItems
import TyprCompanion.Core.TransitionSystem
import TyprCompanion.Js.Json

/-!
# The management activity stream

The bounded history of activity events, and an event stream that is resumed after a disconnection.

* `ActivityBus` — `publish`, `snapshot` and the subscriptions.
* `openActivityStream` — the replay a connection starts with.
* `ActivityStream`, `activityStream` — one client that reconnects with the last id it received, and
  everything published meanwhile.
* `ResumesGapFree` — what holds between the client, the history and all that was ever published.
* **`activity_resume`** — what the client receives is gap-free, and what the bus retains.
-/

namespace Typr

open Core

/-! ## Events -/

inductive ActivityLevel where
  | info | warning | error
  deriving DecidableEq

structure ActivityEvent where
  id : Nat
  timestamp : JSString
  serviceId : JSString
  level : ActivityLevel
  type : JSString
  message : JSString
  userId : Option JSString
  requestId : Option JSString
  durationMs : Option JSNumber
  details : Option JSString
  metadata : Option Json

/-- An event to publish: the bus numbers it, and dates it unless it is dated. -/
structure ActivityInput where
  timestamp : Option JSString
  serviceId : JSString
  level : ActivityLevel
  type : JSString
  message : JSString
  userId : Option JSString
  requestId : Option JSString
  durationMs : Option JSNumber
  details : Option JSString
  metadata : Option Json

def MAX_MESSAGE_LENGTH : Nat := 2000

def MAX_DETAILS_LENGTH : Nat := 128 * 1024

/-- `truncate` -/
def truncateActivity (value : JSString) (maxLength : Nat) : JSString :=
  if value.length ≤ maxLength then value
  else value.take maxLength ++ js "\n[truncated by management activity log]"

/-- The event made of an input; `now` is `new Date().toISOString()`. -/
def ActivityInput.event (input : ActivityInput) (now : JSString) (id : Nat) : ActivityEvent where
  id := id
  timestamp := input.timestamp.getD now
  serviceId := input.serviceId
  level := input.level
  type := input.type
  message := truncateActivity input.message MAX_MESSAGE_LENGTH
  userId := input.userId
  requestId := input.requestId
  durationMs := input.durationMs
  details := input.details.map fun details => truncateActivity details MAX_DETAILS_LENGTH
  metadata := input.metadata

/-! ## The bus -/

/-- The history, the connections that listen, and the next id.  A history holds at most `maxEvents`
events, a positive number. -/
structure ActivityBus where
  events : List ActivityEvent
  listeners : Finset Nat
  maxEvents : Nat
  nextId : Nat
  positive : 0 < maxEvents
  bounded : events.length ≤ maxEvents

namespace ActivityBus

/-- `new ActivityBus(maxEvents)` -/
def new (maxEvents : Nat) (positive : 0 < maxEvents) : ActivityBus where
  events := []
  listeners := ∅
  maxEvents := maxEvents
  nextId := 1
  positive := positive
  bounded := Nat.zero_le _

/-- `publish`, with the event the listeners are called with -/
def publish (bus : ActivityBus) (input : ActivityInput) (now : JSString) :
    ActivityEvent × ActivityBus :=
  let event := input.event now bus.nextId
  (event,
    { bus with
      nextId := bus.nextId + 1
      events :=
        if bus.events.length + 1 > bus.maxEvents then
          (bus.events ++ [event]).drop (bus.events.length + 1 - bus.maxEvents)
        else bus.events ++ [event]
      bounded := by
        have := bus.positive
        split <;> simp <;> omega })

/-- What `snapshot` keeps of the history. -/
def selects (serviceId : Option JSString) (afterId : Option Int) (event : ActivityEvent) : Bool :=
  (serviceId.all fun serviceId => serviceId = [] ∨ event.serviceId = serviceId) &&
    (afterId.all fun afterId => afterId = 0 ∨ afterId < (event.id : Int))

/-- `snapshot`; `slice(-limit)` is what it ends with, as `limit` is positive. -/
def snapshot (bus : ActivityBus) (serviceId : Option JSString) (afterId limit : Option Int) :
    List ActivityEvent :=
  let limit := max 1 (min (limit.getD bus.maxEvents) bus.maxEvents)
  (bus.events.filter (selects serviceId afterId)).rtake limit.toNat

/-- `subscribe` -/
def subscribe (bus : ActivityBus) (listener : Nat) : ActivityBus :=
  { bus with listeners := insert listener bus.listeners }

/-- The function `subscribe` returns. -/
def unsubscribe (bus : ActivityBus) (listener : Nat) : ActivityBus :=
  { bus with listeners := bus.listeners.erase listener }

end ActivityBus

/-! ## The stream -/

/-- The event a connection resumes after: `Number(request.headers["last-event-id"] ?? 0)` if that is a
safe integer, else 0. -/
def resumeAfter (number : JSString → JSNumber) (lastEventId : Option JSString) : Int :=
  match lastEventId.map number with
  | some (.integer n) => if n.natAbs ≤ MAX_SAFE_INTEGER then n else 0
  | some .other => 0
  | none => 0

/-- `openActivityStream`: the events written at once, and the bus that will call the connection. -/
def openActivityStream (number : JSString → JSNumber) (lastEventId : Option JSString)
    (connection : Nat) (bus : ActivityBus) : List ActivityEvent × ActivityBus :=
  (bus.snapshot none (some (resumeAfter number lastEventId)) none, bus.subscribe connection)

/-- A client of the stream over all its connections.  `published` is everything published so far and
`offline` the number of events published since the client was last connected. -/
structure ActivityStream where
  bus : ActivityBus
  connections : Nat
  attached : Option Nat
  received : List ActivityEvent
  published : List ActivityEvent
  offline : Nat

/-- What may happen next.  From `disconnect` on nothing written to the connection reaches the client;
the server's handler of `close` runs at some later time. -/
inductive ActivityStep where
  | publish (input : ActivityInput) (now : JSString)
  | connect
  | disconnect
  | closed (connection : Nat)

namespace ActivityStream

/-- The header the client sends: the `id` of the last event it received. -/
def lastEventId (s : ActivityStream) : Option JSString :=
  s.received.getLast?.map fun event => jsNat event.id

/-- The connection of the client is among the listeners. -/
def Listening (s : ActivityStream) : Prop := ∃ connection ∈ s.bus.listeners, s.attached = some connection

instance (s : ActivityStream) : Decidable s.Listening :=
  inferInstanceAs (Decidable (∃ connection ∈ s.bus.listeners, s.attached = some connection))

/-- One step.  Ids are safe integers, as a process publishes fewer than 2^53 events. -/
def step (number : JSString → JSNumber) (s : ActivityStream) : ActivityStep → Option ActivityStream
  | .publish input now =>
      if s.bus.nextId ≤ MAX_SAFE_INTEGER then
        let (event, bus) := s.bus.publish input now
        some { s with
          bus
          received := if s.Listening then s.received ++ [event] else s.received
          published := s.published ++ [event]
          offline := if s.attached.isSome then s.offline else s.offline + 1 }
      else none
  | .connect =>
      if s.attached.isNone then
        let (replay, bus) := openActivityStream number s.lastEventId s.connections s.bus
        some { s with
          bus
          connections := s.connections + 1
          attached := some s.connections
          received := s.received ++ replay
          offline := 0 }
      else none
  | .disconnect => if s.attached.isSome then some { s with attached := none } else none
  | .closed connection =>
      if s.attached ≠ some connection then some { s with bus := s.bus.unsubscribe connection }
      else none

end ActivityStream

/-- The client, the bus and everything that may happen to them. -/
def activityStream (number : JSString → JSNumber) (maxEvents : Nat) (positive : 0 < maxEvents) :
    System ActivityStream ActivityStep where
  init := ⟨.new maxEvents positive, 0, none, [], [], 0⟩
  step := ActivityStream.step number

/-- At most `maxEvents` events are published while the client is disconnected. -/
def ReconnectsInTime (s : ActivityStream) : ActivityStep → Prop
  | .connect => s.received = [] ∨ s.offline ≤ s.bus.maxEvents
  | _ => True

instance (s : ActivityStream) (e : ActivityStep) : Decidable (ReconnectsInTime s e) :=
  match e with
  | .connect => inferInstanceAs (Decidable (s.received = [] ∨ s.offline ≤ s.bus.maxEvents))
  | .publish .. | .disconnect | .closed _ => isTrue trivial

/-! ## Consecutive ids -/

/-- The ids count up from `first`, without a gap. -/
def Consecutive (first : Nat) (events : List ActivityEvent) : Prop :=
  events.map ActivityEvent.id = List.range' first events.length

theorem consecutive_append {first : Nat} {earlier later : List ActivityEvent} :
    Consecutive first (earlier ++ later) ↔
      Consecutive first earlier ∧ Consecutive (first + earlier.length) later := by
  unfold Consecutive
  rw [List.map_append, List.length_append, ← List.range'_append_1]
  constructor
  · intro h
    exact List.append_inj h (by simp)
  · rintro ⟨hearlier, hlater⟩
    rw [hearlier, hlater]

theorem Consecutive.mem {first : Nat} {events : List ActivityEvent} (h : Consecutive first events)
    {event : ActivityEvent} (hmem : event ∈ events) :
    first ≤ event.id ∧ event.id < first + events.length := by
  have hid : event.id ∈ events.map ActivityEvent.id := List.mem_map_of_mem hmem
  rwa [h, List.mem_range'_1] at hid

theorem Consecutive.getLast {first : Nat} {events : List ActivityEvent}
    (h : Consecutive first events) {event : ActivityEvent} (hlast : events.getLast? = some event) :
    event.id + 1 = first + events.length := by
  obtain ⟨earlier, rfl⟩ := List.getLast?_eq_some_iff.mp hlast
  have hone := (consecutive_append.mp h).2
  simp only [Consecutive, List.map_cons, List.map_nil, List.length_singleton, List.range'_one,
    List.cons.injEq, and_true] at hone
  simp only [List.length_append, List.length_singleton]
  omega

/-! ## The bus, operation by operation -/

namespace ActivityBus

theorem publish_events (bus : ActivityBus) (input : ActivityInput) (now : JSString) :
    (bus.publish input now).2.events =
      (bus.events ++ [input.event now bus.nextId]).rtake bus.maxEvents := by
  simp only [publish, List.rtake, List.length_append, List.length_singleton]
  split
  · rfl
  · rw [Nat.sub_eq_zero_of_le (by omega), List.drop_zero]

theorem snapshot_eq (bus : ActivityBus) (serviceId : Option JSString) (afterId : Option Int) :
    bus.snapshot serviceId afterId none = bus.events.filter (selects serviceId afterId) := by
  have hlimit : (max 1 (min (bus.maxEvents : Int) bus.maxEvents)).toNat = bus.maxEvents := by
    have := bus.positive
    omega
  rw [snapshot, Option.getD_none, hlimit]
  exact rtake_of_length_le ((List.length_filter_le ..).trans bus.bounded)

/-- Without an id to resume after the whole history is replayed. -/
theorem filter_selects_zero (events : List ActivityEvent) :
    events.filter (selects none (some 0)) = events :=
  List.filter_eq_self.mpr fun event _ => by simp [selects]

/-- The replay is what has a greater id. -/
theorem filter_selects {earlier later : List ActivityEvent} {afterId : Nat} (hpos : 0 < afterId)
    (hearlier : ∀ event ∈ earlier, event.id ≤ afterId)
    (hlater : ∀ event ∈ later, afterId < event.id) :
    (earlier ++ later).filter (selects none (some (afterId : Int))) = later := by
  have hnone : earlier.filter (selects none (some (afterId : Int))) = [] := by
    refine List.filter_eq_nil_iff.mpr fun event hmem => ?_
    have := hearlier event hmem
    simp [selects]
    omega
  have hall : later.filter (selects none (some (afterId : Int))) = later := by
    refine List.filter_eq_self.mpr fun event hmem => ?_
    have := hlater event hmem
    simp [selects, this]
  rw [List.filter_append, hnone, hall, List.nil_append]

end ActivityBus

/-! ## The retained history -/

/-- The bus retains the last `maxEvents` published events, and all ids are safe integers counting
from 1. -/
structure Retains (maxEvents : Nat) (s : ActivityStream) : Prop where
  limit : s.bus.maxEvents = maxEvents
  next : s.bus.nextId = s.published.length + 1
  numbered : Consecutive 1 s.published
  safe : s.published.length ≤ MAX_SAFE_INTEGER
  events : s.bus.events = s.published.rtake maxEvents

variable {number : JSString → JSNumber} {maxEvents : Nat} {s t : ActivityStream}

theorem Retains.init (positive : 0 < maxEvents) :
    Retains maxEvents (activityStream number maxEvents positive).init where
  limit := rfl
  next := rfl
  numbered := rfl
  safe := Nat.zero_le _
  events := (List.rtake_nil _).symm

/-- What only changes the listeners keeps the history. -/
theorem Retains.of_same (h : Retains maxEvents s) (hlimit : t.bus.maxEvents = s.bus.maxEvents)
    (hnext : t.bus.nextId = s.bus.nextId) (hevents : t.bus.events = s.bus.events)
    (hpublished : t.published = s.published) : Retains maxEvents t where
  limit := hlimit.trans h.limit
  next := by rw [hnext, hpublished, h.next]
  numbered := hpublished ▸ h.numbered
  safe := hpublished ▸ h.safe
  events := by rw [hevents, hpublished, h.events]

theorem Retains.publish (h : Retains maxEvents s) (input : ActivityInput) (now : JSString)
    (hsafe : s.bus.nextId ≤ MAX_SAFE_INTEGER) (hbus : t.bus = (s.bus.publish input now).2)
    (hpublished : t.published = s.published ++ [input.event now s.bus.nextId]) :
    Retains maxEvents t where
  limit := by rw [hbus]; exact h.limit
  next := by
    rw [hbus, hpublished, List.length_append, List.length_singleton, ← h.next]
    rfl
  numbered := by
    rw [hpublished, consecutive_append, h.next, Nat.add_comm]
    exact ⟨h.numbered, rfl⟩
  safe := by
    rw [hpublished, List.length_append, List.length_singleton, ← h.next]
    exact hsafe
  events := by
    rw [hbus, ActivityBus.publish_events, h.limit, h.events, hpublished, rtake_append_rtake]

/-- **Step**: the history, whatever happens. -/
theorem Retains.step {e : ActivityStep} (h : Retains maxEvents s)
    (hs : s.step number e = some t) : Retains maxEvents t := by
  cases e with
  | publish input now =>
      simp only [ActivityStream.step, Option.ite_none_right_eq_some, Option.some.injEq] at hs
      obtain ⟨hsafe, rfl⟩ := hs
      exact h.publish input now hsafe rfl rfl
  | connect | disconnect | closed connection =>
      simp only [ActivityStream.step, Option.ite_none_right_eq_some, Option.some.injEq] at hs
      obtain ⟨-, rfl⟩ := hs
      exact h.of_same rfl rfl rfl rfl

/-! ## Resuming -/

/-- **The invariant of a client that reconnects in time.**  What it received and the events it missed
since are the last published ones; a connected client misses none and is called for the next. -/
structure ResumesGapFree (s : ActivityStream) : Prop where
  listening : ∀ connection, s.attached = some connection → connection ∈ s.bus.listeners
  current : s.attached.isSome = true → s.offline = 0
  held : ∃ missed, missed.length = s.offline ∧ s.received ++ missed <:+ s.published

theorem resumeAfter_jsNat (hnumber : ∀ n ≤ MAX_SAFE_INTEGER, number (jsNat n) = .integer n) {id : Nat}
    (h : id ≤ MAX_SAFE_INTEGER) : resumeAfter number (some (jsNat id)) = id := by
  rw [resumeAfter, Option.map_some, hnumber id h]
  exact if_pos h

/-- The replay of a first connection is the history. -/
theorem replay_of_nothing (h : Retains maxEvents s) (hreceived : s.received = []) (connection : Nat) :
    (openActivityStream number s.lastEventId connection s.bus).1 = s.published.rtake maxEvents := by
  have hheader : s.lastEventId = none := by rw [ActivityStream.lastEventId, hreceived]; rfl
  rw [openActivityStream, hheader, ActivityBus.snapshot_eq, ← h.events]
  exact ActivityBus.filter_selects_zero _

/-- The replay of a later connection is what was missed, if the history still has all of it. -/
theorem replay_of_missed (hnumber : ∀ n ≤ MAX_SAFE_INTEGER, number (jsNat n) = .integer n)
    (h : Retains maxEvents s) {earlier missed : List ActivityEvent}
    (hpublished : s.published = earlier ++ s.received ++ missed) (hreceived : s.received ≠ [])
    (hmissed : missed.length ≤ maxEvents) (connection : Nat) :
    (openActivityStream number s.lastEventId connection s.bus).1 = missed := by
  obtain ⟨last, hlast⟩ : ∃ last, s.received.getLast? = some last :=
    ⟨_, List.getLast?_eq_some_getLast hreceived⟩
  have hnumbered : Consecutive 1 (earlier ++ s.received) ∧
      Consecutive (1 + (earlier ++ s.received).length) missed := by
    rw [← consecutive_append, ← hpublished]
    exact h.numbered
  have hid : last.id + 1 = 1 + (earlier ++ s.received).length :=
    hnumbered.1.getLast (by rw [List.getLast?_append, hlast]; rfl)
  have hsafe : last.id ≤ MAX_SAFE_INTEGER := by
    have hlength := h.safe
    rw [hpublished, List.length_append] at hlength
    omega
  have hheader : s.lastEventId = some (jsNat last.id) := by
    rw [ActivityStream.lastEventId, hlast, Option.map_some]
  have hpos : 0 < s.received.length := List.length_pos_iff.mpr hreceived
  have hevents : s.bus.events =
      (earlier ++ s.received).rtake (maxEvents - missed.length) ++ missed := by
    rw [h.events, hpublished, rtake_append hmissed]
  rw [openActivityStream, hheader, resumeAfter_jsNat hnumber hsafe, ActivityBus.snapshot_eq, hevents]
  refine ActivityBus.filter_selects ?_ (fun event hmem => ?_) fun event hmem => ?_
  · rw [List.length_append] at hid
    omega
  · have := hnumbered.1.mem ((rtake_suffix _ _).subset hmem)
    omega
  · have := hnumbered.2.mem hmem
    omega

/-- What a connection replays follows on what the client received. -/
theorem ResumesGapFree.replay (hnumber : ∀ n ≤ MAX_SAFE_INTEGER, number (jsNat n) = .integer n)
    (hretains : Retains maxEvents s) (h : ResumesGapFree s)
    (hpermitted : ReconnectsInTime s .connect) (connection : Nat) :
    s.received ++ (openActivityStream number s.lastEventId connection s.bus).1 <:+ s.published := by
  by_cases hreceived : s.received = []
  · rw [replay_of_nothing hretains hreceived, hreceived, List.nil_append]
    exact rtake_suffix _ _
  · obtain ⟨missed, hlength, earlier, hpublished⟩ := h.held
    have hmissed : missed.length ≤ maxEvents := by
      have hintime := hpermitted.resolve_left hreceived
      rwa [hlength, ← hretains.limit]
    rw [← List.append_assoc] at hpublished
    rw [replay_of_missed hnumber hretains hpublished.symm hreceived hmissed]
    exact ⟨earlier, by rw [← hpublished, List.append_assoc]⟩

theorem ResumesGapFree.init (positive : 0 < maxEvents) :
    ResumesGapFree (activityStream number maxEvents positive).init where
  listening := nofun
  current := nofun
  held := ⟨[], rfl, List.suffix_rfl⟩

/-- A connected client receives what is published, any other misses it. -/
theorem ResumesGapFree.publish (h : ResumesGapFree s) {event : ActivityEvent}
    (hlisteners : t.bus.listeners = s.bus.listeners) (hattached : t.attached = s.attached)
    (hpublished : t.published = s.published ++ [event])
    (hreceived : t.received = if s.Listening then s.received ++ [event] else s.received)
    (hoffline : t.offline = if s.attached.isSome then s.offline else s.offline + 1) :
    ResumesGapFree t := by
  obtain ⟨missed, hlength, earlier, hheld⟩ := h.held
  refine ⟨?_, fun hsome => ?_, ?_⟩
  · rw [hlisteners, hattached]
    exact h.listening
  · rw [hattached] at hsome
    rw [hoffline, if_pos hsome, h.current hsome]
  · rw [hpublished, hreceived, hoffline, ← hheld]
    cases hcase : s.attached with
    | none =>
        have hdeaf : ¬ s.Listening := fun ⟨_, _, hsome⟩ => by rw [hcase] at hsome; cases hsome
        rw [if_neg hdeaf, if_neg (by simp)]
        exact ⟨missed ++ [event], by simp [hlength], earlier, by simp⟩
    | some connection =>
        have hlistens : s.Listening := ⟨connection, h.listening _ hcase, hcase⟩
        have hnothing : missed = [] := by
          rw [← List.length_eq_zero_iff, hlength, h.current (by rw [hcase]; rfl)]
        subst hnothing
        rw [if_pos hlistens, if_pos (by rfl)]
        exact ⟨[], hlength, earlier, by simp⟩

/-- **Step**: a client that reconnects in time. -/
theorem ResumesGapFree.step (hnumber : ∀ n ≤ MAX_SAFE_INTEGER, number (jsNat n) = .integer n)
    {e : ActivityStep} (hretains : Retains maxEvents s) (hpermitted : ReconnectsInTime s e)
    (h : ResumesGapFree s) (hs : s.step number e = some t) : ResumesGapFree t := by
  cases e with
  | publish input now =>
      simp only [ActivityStream.step, Option.ite_none_right_eq_some, Option.some.injEq] at hs
      obtain ⟨-, rfl⟩ := hs
      exact h.publish rfl rfl rfl rfl rfl
  | connect =>
      simp only [ActivityStream.step, Option.ite_none_right_eq_some, Option.some.injEq] at hs
      obtain ⟨-, rfl⟩ := hs
      refine ⟨fun connection hconnection => ?_, fun _ => rfl, [], rfl, ?_⟩
      · obtain rfl := Option.some.inj hconnection
        exact Finset.mem_insert_self _ _
      · rw [List.append_nil]
        exact h.replay hnumber hretains hpermitted _
  | disconnect =>
      simp only [ActivityStream.step, Option.ite_none_right_eq_some, Option.some.injEq] at hs
      obtain ⟨-, rfl⟩ := hs
      exact ⟨nofun, nofun, h.held⟩
  | closed connection =>
      simp only [ActivityStream.step, Option.ite_none_right_eq_some, Option.some.injEq] at hs
      obtain ⟨hother, rfl⟩ := hs
      refine ⟨fun attached hattached => ?_, h.current, h.held⟩
      refine Finset.mem_erase.mpr ⟨?_, h.listening _ hattached⟩
      rintro rfl
      exact hother hattached

/-- **Activity resume.**  Over any interleaving of publications, connections and disconnections in which at
most `maxEvents` events are published while the client is disconnected, the ids it receives over all its
connections count up one by one, and a connected client has the latest event.  In every run the history is
the last `maxEvents` published events. -/
theorem activity_resume (number : JSString → JSNumber) (maxEvents : Nat) (positive : 0 < maxEvents)
    (hnumber : ∀ n ≤ MAX_SAFE_INTEGER, number (jsNat n) = .integer n) :
    (∀ s, (activityStream number maxEvents positive).Reachable ReconnectsInTime s →
      (∃ first, Consecutive first s.received) ∧ s.received <:+: s.published ∧
        (s.attached.isSome = true → s.received <:+ s.published)) ∧
    ∀ s, (activityStream number maxEvents positive).Reachable (fun _ _ => True) s →
      s.bus.events = s.published.rtake maxEvents := by
  have hretains : ∀ s, (activityStream number maxEvents positive).Reachable (fun _ _ => True) s →
      Retains maxEvents s := fun s hs =>
    hs.invariant (.init positive) fun s e t _ _ h hstep => h.step hstep
  refine ⟨fun s hs => ?_, fun s hs => (hretains s hs).events⟩
  have hgapFree : ResumesGapFree s :=
    hs.invariant (.init positive) fun s e t hreach hpermitted h hstep =>
      h.step hnumber (hretains s (hreach.mono fun _ _ _ => trivial)) hpermitted hstep
  obtain ⟨missed, hlength, earlier, hpublished⟩ := hgapFree.held
  rw [← List.append_assoc] at hpublished
  have hnumbered := (hretains s (hs.mono fun _ _ _ => trivial)).numbered
  rw [← hpublished, consecutive_append, consecutive_append] at hnumbered
  refine ⟨⟨_, hnumbered.1.2⟩, ⟨earlier, missed, hpublished⟩, fun hattached => ⟨earlier, ?_⟩⟩
  have hnothing : missed = [] := by
    rw [← List.length_eq_zero_iff, hlength, hgapFree.current hattached]
  rw [← hpublished, hnothing, List.append_nil]

/-- `Number(text)` of a text of decimal digits. -/
def decimalNumber (text : JSString) : JSNumber :=
  .integer (Nat.ofDigitChars 10 (text.map fun u => Char.ofNat u.toNat) 0)

theorem decimalNumber_jsNat (n : Nat) : decimalNumber (jsNat n) = .integer n := by
  have htext : jsNat n = (Nat.toDigits 10 n).flatMap fun c => utf16 c.toNat := by
    simp [jsNat, js, toString, Nat.repr]
  have hdigits : ∀ c ∈ Nat.toDigits 10 n, (utf16 c.toNat).map (fun u => Char.ofNat u.toNat) = [c] := by
    intro c hc
    have hdigit : c.isDigit = true := Nat.isDigit_of_mem_toDigits (by omega) (by omega) hc
    simp only [Char.isDigit, Bool.and_eq_true, decide_eq_true_eq] at hdigit
    have hupper : c.toNat ≤ 0x39 := hdigit.2
    rw [utf16, if_pos (by omega), List.map_singleton, UInt16.toNat_ofNat', Nat.mod_eq_of_lt (by omega),
      Char.ofNat_toNat]
  have hchars : (jsNat n).map (fun u => Char.ofNat u.toNat) = Nat.toDigits 10 n := by
    rw [htext, List.map_flatMap, List.flatMap_congr hdigits]
    exact List.flatMap_singleton' _
  rw [decimalNumber, hchars, Nat.ofDigitChars_ten_toDigits]

/-- Two events are published before the client reconnects, to a history of two events. -/
theorem activity_resume_twice :
    let note : ActivityInput :=
      ⟨none, js "latex", .info, js "note", js "note", none, none, none, none, none⟩
    let s := (activityStream decimalNumber 2 (by decide)).after (fun s e => ReconnectsInTime s e)
      [.publish note [], .connect, .publish note [], .disconnect, .publish note [], .closed 0,
        .publish note [], .connect]
    s.received.map ActivityEvent.id = [1, 2, 3, 4] ∧ ∃ first, Consecutive first s.received :=
  ⟨by decide, ((activity_resume decimalNumber 2 (by decide) fun n _ => decimalNumber_jsNat n).1 _
    (System.reachable_after (fun _ _ h => of_decide_eq_true h) _)).1⟩

end Typr
