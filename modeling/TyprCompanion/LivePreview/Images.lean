import TyprCompanion.LivePreview.Session

/-!
# Images on the socket

Every image given to the socket follows its metadata, also when sends fail.

* `Imaged` — frames in which every image follows metadata that describe it.
* `OutboundTask.Whole` — a task as `sendJson` and `sendPage` queue it.
* `ImagesFollow` — the frames sent and the tasks queued; one lemma for each step of the queue.
-/

namespace Typr

/-- Every image follows metadata of a revision that stand in the relation to it. -/
def Imaged (fresh : Nat → TexpressoPageDescriptor → Core.Bytes → Prop) (frames : List Frame) :
    Prop :=
  ∀ front data back, frames = front ++ .binary data :: back →
    ∃ front' revision descriptor, front = front' ++ [.json (.page revision descriptor)] ∧
      fresh revision descriptor data

/-- A task nothing of which was sent: a message, or a page with its image. -/
def OutboundTask.Whole (fresh : Nat → TexpressoPageDescriptor → Core.Bytes → Prop)
    (task : OutboundTask) : Prop :=
  task.inFlight = false ∧ ((∃ message, task.frames = [.json message]) ∨
    ∃ revision descriptor data,
      task.frames = [.json (.page revision descriptor), .binary data] ∧
        fresh revision descriptor data)

/-- The first task, after these frames were sent: whole, over, or its image is next. -/
def OutboundTask.Follows (fresh : Nat → TexpressoPageDescriptor → Core.Bytes → Prop)
    (sent : List Frame) (task : OutboundTask) : Prop :=
  task.Whole fresh ∨ (task.inFlight = true ∧ task.frames = []) ∨
    ∃ front revision descriptor data, sent = front ++ [.json (.page revision descriptor)] ∧
      task.frames = [.binary data] ∧ fresh revision descriptor data

/-- **Images follow their metadata**, among the frames sent and when the tasks are sent. -/
structure ImagesFollow (fresh : Nat → TexpressoPageDescriptor → Core.Bytes → Prop)
    (outbound : List OutboundTask) (sent : List Frame) : Prop where
  images : Imaged fresh sent
  first : ∀ task ∈ outbound.head?, task.Follows fresh sent
  rest : ∀ task ∈ outbound.tail, task.Whole fresh

variable {fresh fresh' : Nat → TexpressoPageDescriptor → Core.Bytes → Prop}
  {outbound tasks : List OutboundTask} {sent frames : List Frame} {task : OutboundTask}

theorem Imaged.nil : Imaged fresh [] := by
  intro front data back h
  simp at h

theorem Imaged.concat_json (h : Imaged fresh frames) (message : TexpressoServerMessage) :
    Imaged fresh (frames ++ [.json message]) := by
  intro front data back hframes
  cases back using List.reverseRecOn with
  | nil => exact nomatch (List.append_inj' hframes rfl).2
  | append_singleton back last =>
      rw [← List.cons_append, ← List.append_assoc] at hframes
      exact h front data back (List.append_inj' hframes rfl).1

theorem Imaged.concat_binary {revision : Nat} {descriptor : TexpressoPageDescriptor}
    {data : Core.Bytes} (h : Imaged fresh (frames ++ [.json (.page revision descriptor)]))
    (hdata : fresh revision descriptor data) :
    Imaged fresh (frames ++ [.json (.page revision descriptor)] ++ [.binary data]) := by
  intro front data' back hframes
  cases back using List.reverseRecOn with
  | nil =>
      obtain ⟨hfront, hlast⟩ := List.append_inj' hframes rfl
      obtain rfl : data = data' := by simpa using hlast
      exact ⟨frames, revision, descriptor, hfront.symm, hdata⟩
  | append_singleton back last =>
      rw [← List.cons_append, ← List.append_assoc] at hframes
      exact h front data' back (List.append_inj' hframes rfl).1

theorem OutboundTask.Whole.mono (himp : ∀ revision descriptor data,
    fresh revision descriptor data → fresh' revision descriptor data) (h : task.Whole fresh) :
    task.Whole fresh' := by
  obtain ⟨hflight, hmessage | ⟨revision, descriptor, data, hframes, hfresh⟩⟩ := h
  · exact ⟨hflight, .inl hmessage⟩
  · exact ⟨hflight, .inr ⟨revision, descriptor, data, hframes, himp _ _ _ hfresh⟩⟩

namespace ImagesFollow

theorem nil : ImagesFollow fresh [] [] := ⟨.nil, nofun, nofun⟩

theorem mono (himp : ∀ revision descriptor data,
    fresh revision descriptor data → fresh' revision descriptor data)
    (h : ImagesFollow fresh outbound sent) : ImagesFollow fresh' outbound sent where
  images := by
    intro front data back hframes
    obtain ⟨front', revision, descriptor, hfront, hfresh⟩ := h.images front data back hframes
    exact ⟨front', revision, descriptor, hfront, himp _ _ _ hfresh⟩
  first := by
    intro task hmem
    rcases h.first task hmem with hwhole | hover | ⟨front, revision, descriptor, data, hsent, hframes, hfresh⟩
    · exact .inl (hwhole.mono himp)
    · exact .inr (.inl hover)
    · exact .inr (.inr ⟨front, revision, descriptor, data, hsent, hframes, himp _ _ _ hfresh⟩)
  rest := fun task hmem => (h.rest task hmem).mono himp

/-- A task is queued. -/
theorem concat (h : ImagesFollow fresh outbound sent) (hwhole : task.Whole fresh) :
    ImagesFollow fresh (outbound ++ [task]) sent where
  images := h.images
  first := by
    intro first hmem
    cases outbound with
    | nil =>
        obtain rfl : task = first := by simpa using hmem
        exact .inl hwhole
    | cons head tail => exact h.first first hmem
  rest := by
    intro other hmem
    cases outbound with
    | nil => simp at hmem
    | cons head tail =>
        rcases List.mem_append.mp (show other ∈ tail ++ [task] from hmem) with hmem | hmem
        · exact h.rest other hmem
        · exact List.mem_singleton.mp hmem ▸ hwhole

/-- The first task is over, or dropped. -/
theorem tail (h : ImagesFollow fresh (task :: tasks) sent) : ImagesFollow fresh tasks sent where
  images := h.images
  first := fun other hmem => .inl (h.rest other (List.mem_of_mem_head? hmem))
  rest := fun other hmem => h.rest other (List.mem_of_mem_tail hmem)

/-- The first task sends its next frame. -/
theorem sends {frame : Frame} {rest : List Frame} {awaiter : Awaiter}
    {hrest : ∀ frame ∈ rest, frame.isBinary = true}
    (h : ImagesFollow fresh (⟨frame :: rest, false, awaiter, hrest⟩ :: tasks) sent) :
    ImagesFollow fresh (⟨rest, true, awaiter, hrest⟩ :: tasks) (sent ++ [frame]) := by
  have hfirst := h.first _ rfl
  have htasks : ∀ task ∈ tasks, task.Whole fresh := h.rest
  rcases hfirst with ⟨_, ⟨message, hframes⟩ | ⟨revision, descriptor, data, hframes, hfresh⟩⟩ |
    ⟨hflight, _⟩ | ⟨front, revision, descriptor, data, rfl, hframes, hfresh⟩
  · obtain ⟨rfl, rfl⟩ := List.cons.inj hframes
    refine ⟨h.images.concat_json message, ?_, htasks⟩
    intro task hmem
    exact Option.some.inj hmem ▸ .inr (.inl ⟨rfl, rfl⟩)
  · obtain ⟨rfl, rfl⟩ := List.cons.inj hframes
    refine ⟨h.images.concat_json _, ?_, htasks⟩
    intro task hmem
    exact Option.some.inj hmem ▸
      .inr (.inr ⟨sent, revision, descriptor, data, rfl, rfl, hfresh⟩)
  · cases hflight
  · obtain ⟨rfl, rfl⟩ := List.cons.inj hframes
    refine ⟨h.images.concat_binary hfresh, ?_, htasks⟩
    intro task hmem
    exact Option.some.inj hmem ▸ .inr (.inl ⟨rfl, rfl⟩)

/-- The first task goes on to its next frame. -/
theorem continues {frames : List Frame} {awaiter : Awaiter}
    {hframes : ∀ frame ∈ frames, frame.isBinary = true}
    {hframes' : ∀ frame ∈ frames.tail, frame.isBinary = true}
    (h : ImagesFollow fresh (⟨frames, true, awaiter, hframes⟩ :: tasks) sent) (hne : frames ≠ []) :
    ImagesFollow fresh (⟨frames, false, awaiter, hframes'⟩ :: tasks) sent := by
  refine ⟨h.images, ?_, h.rest⟩
  intro task hmem
  obtain rfl := Option.some.inj hmem
  rcases h.first _ rfl with ⟨hflight, _⟩ | ⟨_, hnil⟩ | himage
  · cases hflight
  · exact absurd hnil hne
  · exact .inr (.inr himage)

end ImagesFollow

end Typr
