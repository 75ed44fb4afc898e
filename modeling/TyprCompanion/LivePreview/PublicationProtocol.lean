import TyprCompanion.LivePreview.Moves

/-!
# The publication protocol

What a client may rely on in the frames it receives.

* `PagePairs` — page metadata, each followed by its image, numbered in order.
* `PublicationProtocol` — the order of the messages of a session.
* `Publication` — an automaton that reads the frames one by one: whether the session is ready, the
  revision completed last, and how much of the current document has come.
* **`Publication.protocol`** — the frames it accepts follow the protocol.
-/

namespace Typr

/-! ## The protocol -/

namespace Frame

/-- `session-ready` -/
def isReady : Frame → Bool
  | json (.sessionReady _ _ _ _) => true
  | _ => false

/-- A message about a revision. -/
def isRevision : Frame → Bool
  | json (.revisionStarted _ _) | json (.revisionApplied _ _ _) | json (.document _ _ _ _)
  | json (.page _ _) | json (.revisionComplete _ _ _ _) | json (.compileError _ _ _) => true
  | _ => false

/-- `protocol-error` or `session-error` -/
def isError : Frame → Bool
  | json (.protocolError _ _ _ _) | json (.sessionError _ _ _) => true
  | _ => false

/-- The revision of a `revision-complete`. -/
def completed? : Frame → Option Nat
  | json (.revisionComplete revision _ _ _) => some revision
  | _ => none

end Frame

/-- The revisions completed, in their order. -/
def completedRevisions (frames : List Frame) : List Nat :=
  frames.filterMap Frame.completed?

/-- **Pages `0`, …, `n - 1`** of a revision, each followed by its image, and other frames between
two pages only. -/
inductive PagePairs (between : Frame → Bool) (revision : Nat) : Nat → List Frame → Prop
  | nil : PagePairs between revision 0 []
  | pair {n : Nat} {frames : List Frame} (descriptor : TexpressoPageDescriptor) (data : Core.Bytes)
      (h : PagePairs between revision n frames) (hpage : descriptor.page = n)
      (hlength : descriptor.byteLength = data.length) :
      PagePairs between revision (n + 1)
        (frames ++ [.json (.page revision descriptor)] ++ [.binary data])
  | other {n : Nat} {frames : List Frame} {frame : Frame} (h : PagePairs between revision n frames)
      (hframe : between frame = true) : PagePairs between revision n (frames ++ [frame])

/-- **The order of the frames** of a session; `between` are the frames allowed between two pages. -/
structure PublicationProtocol (between : Frame → Bool) (frames : List Frame) : Prop where
  /-- `session-ready` precedes every message about a revision. -/
  ready : ∀ front frame back, frames = front ++ frame :: back → frame.isRevision = true →
    ∃ other ∈ front, other.isReady = true
  /-- An image immediately follows its own metadata. -/
  image : ∀ front data back, frames = front ++ .binary data :: back →
    ∃ front' revision descriptor, front = front' ++ [.json (.page revision descriptor)] ∧
      descriptor.byteLength = data.length
  /-- Metadata is immediately followed by its image, unless the stream ends. -/
  page : ∀ front revision descriptor back,
    frames = front ++ .json (.page revision descriptor) :: back →
      back = [] ∨ ∃ data back', back = .binary data :: back' ∧ descriptor.byteLength = data.length
  /-- A completed revision has its document and all its pages before it. -/
  complete : ∀ front revision good pageCount rendered back,
    frames = front ++ .json (.revisionComplete revision good pageCount rendered) :: back →
      ∃ front' good' descriptors pairs,
        front = front' ++ .json (.document revision good' pageCount descriptors) :: pairs ∧
          PagePairs between revision pageCount pairs
  /-- Completed revisions increase. -/
  increasing : (completedRevisions frames).Pairwise (· < ·)
  /-- A compile error tells the revision completed last. -/
  lastGood : ∀ front revision good log back,
    frames = front ++ .json (.compileError revision good log) :: back →
      good = (completedRevisions front).getLast?

/-- Pages between which fewer frames are allowed. -/
theorem PagePairs.strict {between between' : Frame → Bool} {revision n : Nat} {frames : List Frame}
    (h : PagePairs between revision n frames)
    (hframes : ∀ frame ∈ frames, between frame = true → between' frame = true) :
    PagePairs between' revision n frames := by
  induction h with
  | nil => exact .nil
  | pair descriptor data _ hpage hlength ih =>
      refine .pair descriptor data (ih ?_) hpage hlength
      intro frame hmem
      exact hframes frame (by simp [hmem])
  | other _ hframe ih =>
      refine .other (ih ?_) (hframes _ (by simp) hframe)
      intro frame hmem
      exact hframes frame (List.mem_append_left _ hmem)

/-! ## The automaton -/

/-- How much of the document being sent has come. -/
inductive PublicationPhase where
  | between
  /-- the pages of a revision, and how many have come -/
  | pages (revision pageCount sent : Nat)
  /-- the image of the page described is next -/
  | image (revision pageCount sent : Nat) (descriptor : TexpressoPageDescriptor)
  deriving DecidableEq

/-- What the frames so far tell. -/
structure Publication where
  ready : Bool
  last : Option Nat
  phase : PublicationPhase
  deriving DecidableEq

namespace Publication

/-- Before the first frame. -/
def start : Publication := ⟨false, none, .between⟩

/-- The next message; `none` when the protocol does not allow it. -/
def nextMessage (p : Publication) : TexpressoServerMessage → Option Publication
  | .sessionReady _ _ _ _ => if p.phase = .between then some { p with ready := true } else none
  | .revisionStarted _ _ | .revisionApplied _ _ _ =>
      if p.ready = true ∧ p.phase = .between then some p else none
  | .document revision _ pageCount _ =>
      if p.ready = true ∧ p.phase = .between then
        some { p with phase := .pages revision pageCount 0 }
      else none
  | .page revision descriptor => match p.phase with
      | .pages revision' pageCount sent =>
          if p.ready = true ∧ revision = revision' ∧ descriptor.page = sent then
            some { p with phase := .image revision pageCount sent descriptor }
          else none
      | _ => none
  | .revisionComplete revision _ pageCount _ =>
      if p.ready = true ∧ p.phase = .pages revision pageCount pageCount ∧
          ∀ last ∈ p.last, last < revision then
        some { p with last := some revision, phase := .between }
      else none
  | .compileError _ good _ =>
      if p.ready = true ∧ p.phase = .between ∧ good = p.last then some p else none
  | .protocolError _ _ _ _ | .sessionError _ _ _ | .sessionClosed _ => some p

/-- The next frame; `none` when the protocol does not allow it. -/
def next (p : Publication) (frame : Frame) : Option Publication :=
  match p.phase, frame with
  | .image revision pageCount sent descriptor, .binary data =>
      if descriptor.byteLength = data.length then
        some { p with phase := .pages revision pageCount (sent + 1) }
      else none
  | .image _ _ _ _, .json _ => none
  | _, .binary _ => none
  | _, .json message => p.nextMessage message

/-- Read frames. -/
def read (p : Publication) (frames : List Frame) : Option Publication :=
  frames.foldlM next p

theorem read_append (p : Publication) (frames frames' : List Frame) :
    p.read (frames ++ frames') = (p.read frames).bind fun q => q.read frames' :=
  List.foldlM_append

theorem read_singleton (p : Publication) (frame : Frame) : p.read [frame] = p.next frame := by
  simp [read]

/-- Between two pages, notices change nothing. -/
theorem read_notices {p : Publication} {frames : List Frame}
    (h : ∀ frame ∈ frames, frame.isNotice = true)
    (hphase : ∀ revision pageCount sent descriptor, p.phase ≠ .image revision pageCount sent descriptor) :
    p.read frames = some p := by
  induction frames with
  | nil => rfl
  | cons frame frames ih =>
      have hnext : p.next frame = some p := by
        have hnotice := h frame (List.mem_cons_self ..)
        cases frame with
        | binary => cases hnotice
        | json message =>
            obtain ⟨ready, last, phase⟩ := p
            cases phase with
            | image revision pageCount sent descriptor =>
                exact absurd rfl (hphase revision pageCount sent descriptor)
            | between | pages => cases message <;> first | rfl | cases hnotice
      rw [read, List.foldlM_cons, hnext]
      exact ih fun other hmem => h other (List.mem_cons_of_mem _ hmem)

/-! ## The automaton checks the protocol -/

/-- The frames read so far follow the protocol, and the automaton knows what it needs to know
about them. -/
structure Reads (frames : List Frame) (p : Publication) : Prop
    extends PublicationProtocol Frame.isNotice frames where
  isReady : p.ready = true → ∃ frame ∈ frames, frame.isReady = true
  last : p.last = (completedRevisions frames).getLast?
  pages : ∀ revision pageCount sent, p.phase = .pages revision pageCount sent →
    ∃ front good descriptors pairs,
      frames = front ++ .json (.document revision good pageCount descriptors) :: pairs ∧
        PagePairs Frame.isNotice revision sent pairs
  imageNext : ∀ revision pageCount sent descriptor,
    p.phase = .image revision pageCount sent descriptor →
      ∃ front good descriptors pairs,
        frames = front ++ .json (.document revision good pageCount descriptors) ::
            (pairs ++ [.json (.page revision descriptor)]) ∧
          PagePairs Frame.isNotice revision sent pairs ∧ descriptor.page = sent
  pageLast : ∀ front revision descriptor, frames = front ++ [.json (.page revision descriptor)] →
    ∃ pageCount sent, p.phase = .image revision pageCount sent descriptor

variable {frames front back : List Frame} {frame other : Frame} {p q : Publication}

/-- Where a frame is after another one came. -/
theorem split_concat (h : frames ++ [other] = front ++ frame :: back) :
    (back = [] ∧ front = frames ∧ frame = other) ∨
      ∃ back', back = back' ++ [other] ∧ frames = front ++ frame :: back' := by
  cases back using List.reverseRecOn with
  | nil =>
      obtain ⟨hfront, hframe⟩ := List.append_inj' h rfl
      exact .inl ⟨rfl, hfront.symm, (List.cons.inj hframe).1.symm⟩
  | append_singleton back last =>
      rw [← List.cons_append, ← List.append_assoc] at h
      obtain ⟨hframes, hlast⟩ := List.append_inj' h rfl
      exact .inr ⟨back, by rw [(List.cons.inj hlast).1], hframes⟩

theorem completedRevisions_append (frames frames' : List Frame) :
    completedRevisions (frames ++ frames')
      = completedRevisions frames ++ completedRevisions frames' :=
  List.filterMap_append ..

theorem Reads.start : Reads [] start where
  ready := by simp
  image := by simp
  page := by simp
  complete := by simp
  increasing := List.Pairwise.nil
  lastGood := by simp
  isReady := nofun
  last := rfl
  pages := nofun
  imageNext := nofun
  pageLast := by simp

/-- One more frame. -/
theorem protocol_concat {between : Frame → Bool} (h : PublicationProtocol between frames)
    (hready : frame.isRevision = true → ∃ other ∈ frames, other.isReady = true)
    (himage : ∀ data, frame = .binary data → ∃ front revision descriptor,
      frames = front ++ [.json (.page revision descriptor)] ∧ descriptor.byteLength = data.length)
    (hpage : ∀ front revision descriptor, frames = front ++ [.json (.page revision descriptor)] →
      ∃ data, frame = .binary data ∧ descriptor.byteLength = data.length)
    (hcomplete : ∀ revision good pageCount rendered,
      frame = .json (.revisionComplete revision good pageCount rendered) →
        (∃ front good' descriptors pairs,
          frames = front ++ .json (.document revision good' pageCount descriptors) :: pairs ∧
            PagePairs between revision pageCount pairs) ∧
          ∀ last, (completedRevisions frames).getLast? = some last → last < revision)
    (herror : ∀ revision good log, frame = .json (.compileError revision good log) →
      good = (completedRevisions frames).getLast?) :
    PublicationProtocol between (frames ++ [frame]) where
  ready := by
    intro front other back hsplit hrevision
    rcases split_concat hsplit with ⟨_, rfl, rfl⟩ | ⟨back', _, hframes⟩
    · exact hready hrevision
    · exact h.ready front other back' hframes hrevision
  image := by
    intro front data back hsplit
    rcases split_concat hsplit with ⟨_, rfl, hframe⟩ | ⟨back', _, hframes⟩
    · exact himage data hframe.symm
    · exact h.image front data back' hframes
  page := by
    intro front revision descriptor back hsplit
    rcases split_concat hsplit with ⟨rfl, _, _⟩ | ⟨back', rfl, hframes⟩
    · exact .inl rfl
    · rcases h.page front revision descriptor back' hframes with rfl | ⟨data, back'', rfl, hlength⟩
      · obtain ⟨data, rfl, hlength⟩ := hpage front revision descriptor hframes
        exact .inr ⟨data, [], rfl, hlength⟩
      · exact .inr ⟨data, back'' ++ [frame], rfl, hlength⟩
  complete := by
    intro front revision good pageCount rendered back hsplit
    rcases split_concat hsplit with ⟨_, rfl, hframe⟩ | ⟨back', _, hframes⟩
    · exact (hcomplete revision good pageCount rendered hframe.symm).1
    · exact h.complete front revision good pageCount rendered back' hframes
  increasing := by
    rw [completedRevisions_append]
    cases hcompleted : frame.completed? with
    | none =>
        have hnone : completedRevisions [frame] = [] := by
          simp [completedRevisions, hcompleted]
        rw [hnone, List.append_nil]
        exact h.increasing
    | some revision =>
        have hone : completedRevisions [frame] = [revision] := by
          simp [completedRevisions, hcompleted]
        rw [hone]
        refine pairwise_concat h.increasing ?_
        cases frame with
        | binary => cases hcompleted
        | json message =>
            cases message with
            | revisionComplete => cases hcompleted; exact (hcomplete _ _ _ _ rfl).2
            | _ => cases hcompleted
  lastGood := by
    intro front revision good log back hsplit
    rcases split_concat hsplit with ⟨_, rfl, hframe⟩ | ⟨back', _, hframes⟩
    · exact herror revision good log hframe.symm
    · exact h.lastGood front revision good log back' hframes

/-- A frame that is neither an image nor metadata, and completes nothing. -/
theorem completedRevisions_concat (h : frame.completed? = none) :
    completedRevisions (frames ++ [frame]) = completedRevisions frames := by
  rw [completedRevisions_append]
  simp [completedRevisions, h]

/-- Where no page waits for its image, the frames do not end with metadata. -/
theorem Reads.not_page (h : Reads frames p)
    (hphase : ∀ revision pageCount sent descriptor, p.phase ≠ .image revision pageCount sent descriptor)
    {revision : Nat} {descriptor : TexpressoPageDescriptor} :
    frames ≠ front ++ [.json (.page revision descriptor)] := by
  intro hframes
  obtain ⟨pageCount, sent, himage⟩ := h.pageLast front revision descriptor hframes
  exact hphase _ _ _ _ himage

/-- A message that is neither metadata nor the end of a document. -/
theorem Reads.message (h : Reads frames p) {message : TexpressoServerMessage}
    (hphase : ∀ revision pageCount sent descriptor, p.phase ≠ .image revision pageCount sent descriptor)
    (hpage : ∀ revision descriptor, message ≠ .page revision descriptor)
    (hcomplete : Frame.completed? (.json message) = none)
    (hrevision : Frame.isRevision (.json message) = true → p.ready = true)
    (herror : ∀ revision good log, message = .compileError revision good log → good = p.last)
    {ready : Bool} {phase : PublicationPhase}
    (hready : ready = true → p.ready = true ∨ Frame.isReady (.json message) = true)
    (hpages : ∀ revision pageCount sent, phase = .pages revision pageCount sent →
      (p.phase = .pages revision pageCount sent ∧ Frame.isNotice (.json message) = true) ∨
        ∃ good descriptors, sent = 0 ∧ message = .document revision good pageCount descriptors)
    (himage : ∀ revision pageCount sent descriptor,
      phase ≠ .image revision pageCount sent descriptor) :
    Reads (frames ++ [.json message]) ⟨ready, p.last, phase⟩ where
  toPublicationProtocol := by
    refine protocol_concat h.toPublicationProtocol ?_ nofun ?_ ?_ ?_
    · intro hrev
      exact h.isReady (hrevision hrev)
    · intro front revision descriptor hframes
      exact absurd hframes (h.not_page hphase)
    · intro revision good pageCount rendered hmessage
      rw [hmessage] at hcomplete
      cases hcomplete
    · intro revision good log hmessage
      rw [herror revision good log (Frame.json.inj hmessage), h.last]
  isReady := by
    intro htrue
    rcases hready htrue with hbefore | hnow
    · obtain ⟨frame, hmem, hframe⟩ := h.isReady hbefore
      exact ⟨frame, List.mem_append_left _ hmem, hframe⟩
    · exact ⟨_, List.mem_append_right _ (List.mem_singleton_self _), hnow⟩
  last := by
    rw [completedRevisions_concat hcomplete]
    exact h.last
  pages := by
    intro revision pageCount sent hphase
    rcases hpages revision pageCount sent hphase with ⟨hbefore, hnotice⟩ |
      ⟨good, descriptors, rfl, rfl⟩
    · obtain ⟨front, good, descriptors, pairs, rfl, hpairs⟩ := h.pages _ _ _ hbefore
      exact ⟨front, good, descriptors, pairs ++ [.json message], by simp, hpairs.other hnotice⟩
    · exact ⟨frames, good, descriptors, [], rfl, .nil⟩
  imageNext := fun _ _ _ _ hphase => absurd hphase (himage _ _ _ _)
  pageLast := by
    intro front revision descriptor hframes
    obtain ⟨_, hlast⟩ := List.append_inj' hframes rfl
    exact absurd (Frame.json.inj (List.cons.inj hlast).1) (hpage revision descriptor)

/-- The metadata of the next page. -/
theorem Reads.metadata (h : Reads frames p) {revision pageCount sent : Nat}
    {descriptor : TexpressoPageDescriptor} (hready : p.ready = true)
    (hphase : p.phase = .pages revision pageCount sent) (hpage : descriptor.page = sent) :
    Reads (frames ++ [.json (.page revision descriptor)])
      { p with phase := .image revision pageCount sent descriptor } where
  toPublicationProtocol := by
    refine protocol_concat h.toPublicationProtocol (fun _ => h.isReady hready) nofun ?_ nofun nofun
    intro front revision descriptor hframes
    refine absurd hframes (h.not_page ?_)
    rw [hphase]
    nofun
  isReady := by
    intro _
    obtain ⟨frame, hmem, hframe⟩ := h.isReady hready
    exact ⟨frame, List.mem_append_left _ hmem, hframe⟩
  last := by
    rw [completedRevisions_concat rfl]
    exact h.last
  pages := nofun
  imageNext := by
    intro revision' pageCount' sent' descriptor' himage
    cases himage
    obtain ⟨front, good, descriptors, pairs, rfl, hpairs⟩ := h.pages _ _ _ hphase
    exact ⟨front, good, descriptors, pairs, by simp, hpairs, hpage⟩
  pageLast := by
    intro front revision' descriptor' hframes
    obtain ⟨_, hlast⟩ := List.append_inj' hframes rfl
    cases hlast
    exact ⟨pageCount, sent, rfl⟩

/-- The image of the page described. -/
theorem Reads.binary (h : Reads frames p) {revision pageCount sent : Nat}
    {descriptor : TexpressoPageDescriptor} {data : Core.Bytes}
    (hphase : p.phase = .image revision pageCount sent descriptor)
    (hlength : descriptor.byteLength = data.length) :
    Reads (frames ++ [.binary data]) { p with phase := .pages revision pageCount (sent + 1) } := by
  obtain ⟨front, good, descriptors, pairs, hframes, hpairs, hpage⟩ := h.imageNext _ _ _ _ hphase
  have hends : frames = front ++ .json (.document revision good pageCount descriptors) :: pairs
      ++ [.json (.page revision descriptor)] := by
    rw [hframes]
    simp
  exact {
    toPublicationProtocol := by
      refine protocol_concat h.toPublicationProtocol nofun ?_ ?_ nofun nofun
      · intro data' hdata
        cases hdata
        exact ⟨_, revision, descriptor, hends, hlength⟩
      · intro front' revision' descriptor' hframes'
        rw [hends] at hframes'
        obtain ⟨_, hlast⟩ := List.append_inj' hframes' rfl
        cases hlast
        exact ⟨data, rfl, hlength⟩
    isReady := by
      intro hready
      obtain ⟨frame, hmem, hframe⟩ := h.isReady hready
      exact ⟨frame, List.mem_append_left _ hmem, hframe⟩
    last := by
      rw [completedRevisions_concat rfl]
      exact h.last
    pages := by
      intro revision' pageCount' sent' himage
      cases himage
      exact ⟨front, good, descriptors, _, by rw [hframes]; simp, hpairs.pair descriptor data hpage hlength⟩
    imageNext := nofun
    pageLast := by
      intro front' revision' descriptor' hframes'
      obtain ⟨_, hlast⟩ := List.append_inj' hframes' rfl
      cases hlast }

/-- The end of a document. -/
theorem Reads.ends (h : Reads frames p) {revision good pageCount rendered : Nat}
    (hready : p.ready = true) (hphase : p.phase = .pages revision pageCount pageCount)
    (hlast : ∀ last ∈ p.last, last < revision) :
    Reads (frames ++ [.json (.revisionComplete revision good pageCount rendered)])
      ⟨p.ready, some revision, .between⟩ where
  toPublicationProtocol := by
    refine protocol_concat h.toPublicationProtocol (fun _ => h.isReady hready) nofun ?_ ?_ nofun
    · intro front revision descriptor hframes
      refine absurd hframes (h.not_page ?_)
      rw [hphase]
      nofun
    · intro revision' good' pageCount' rendered' hmessage
      cases hmessage
      refine ⟨h.pages _ _ _ hphase, ?_⟩
      intro last hlast'
      exact hlast last (h.last.trans hlast')
  isReady := by
    intro _
    obtain ⟨frame, hmem, hframe⟩ := h.isReady hready
    exact ⟨frame, List.mem_append_left _ hmem, hframe⟩
  last := by
    rw [completedRevisions_append]
    simp [completedRevisions, Frame.completed?]
  pages := nofun
  imageNext := nofun
  pageLast := by
    intro front revision' descriptor' hframes
    obtain ⟨_, hlast'⟩ := List.append_inj' hframes rfl
    cases hlast'

/-- A message between two documents that keeps what is known. -/
theorem Reads.between (h : Reads frames p) {message : TexpressoServerMessage} {ready : Bool}
    (hphase : p.phase = .between) (hpage : ∀ revision descriptor, message ≠ .page revision descriptor)
    (hcomplete : Frame.completed? (.json message) = none)
    (hrevision : Frame.isRevision (.json message) = true → p.ready = true)
    (herror : ∀ revision good log, message = .compileError revision good log → good = p.last)
    (hready : ready = true → p.ready = true ∨ Frame.isReady (.json message) = true) :
    Reads (frames ++ [.json message]) ⟨ready, p.last, .between⟩ :=
  h.message (by rw [hphase]; nofun) hpage hcomplete hrevision herror hready nofun nofun

/-- A notice. -/
theorem Reads.notice (h : Reads frames p) {message : TexpressoServerMessage}
    (hphase : ∀ revision pageCount sent descriptor, p.phase ≠ .image revision pageCount sent descriptor)
    (hnotice : Frame.isNotice (.json message) = true) : Reads (frames ++ [.json message]) p := by
  refine h.message hphase ?_ ?_ ?_ ?_ .inl (fun _ _ _ hpages => .inl ⟨hpages, hnotice⟩) hphase
  · rintro _ _ rfl
    cases hnotice
  · cases message <;> first | rfl | cases hnotice
  · intro hrevision
    cases message <;> first | cases hnotice; done | cases hrevision
  · rintro _ _ _ rfl
    cases hnotice

theorem Reads.nextMessage (h : Reads frames p) {message : TexpressoServerMessage}
    (hphase : ∀ revision pageCount sent descriptor, p.phase ≠ .image revision pageCount sent descriptor)
    (hnext : p.nextMessage message = some q) : Reads (frames ++ [.json message]) q := by
  obtain ⟨ready, last, phase⟩ := p
  cases message with
  | sessionReady =>
      obtain ⟨rfl, rfl⟩ : phase = .between ∧ ⟨true, last, phase⟩ = q := by
        simpa [Publication.nextMessage] using hnext
      exact h.between rfl nofun rfl nofun nofun fun _ => .inr rfl
  | revisionStarted | revisionApplied =>
      obtain ⟨⟨rfl, rfl⟩, rfl⟩ : (ready = true ∧ phase = .between) ∧ ⟨ready, last, phase⟩ = q := by
        simpa [Publication.nextMessage] using hnext
      exact h.between rfl nofun rfl (fun _ => rfl) nofun .inl
  | document revision good pageCount descriptors =>
      obtain ⟨⟨rfl, rfl⟩, rfl⟩ : (ready = true ∧ phase = .between) ∧
          ⟨ready, last, .pages revision pageCount 0⟩ = q := by
        simpa [Publication.nextMessage] using hnext
      have hpage (other : Nat) (descriptor : TexpressoPageDescriptor) :
          TexpressoServerMessage.document revision good pageCount descriptors
            ≠ .page other descriptor := nofun
      refine h.message hphase hpage rfl (fun _ => rfl) (fun _ _ _ => nofun) .inl ?_ nofun
      intro _ _ _ hpages
      cases hpages
      exact .inr ⟨good, descriptors, rfl, rfl⟩
  | page revision descriptor =>
      cases phase with
      | between => cases hnext
      | image => cases hnext
      | pages revision' pageCount sent =>
          obtain ⟨⟨rfl, rfl, hpage⟩, rfl⟩ :
              (ready = true ∧ revision = revision' ∧ descriptor.page = sent) ∧
                ⟨ready, last, .image revision pageCount sent descriptor⟩ = q := by
            simpa [Publication.nextMessage] using hnext
          exact h.metadata rfl rfl hpage
  | revisionComplete revision good pageCount rendered =>
      obtain ⟨⟨rfl, rfl, hlast⟩, rfl⟩ :
          (ready = true ∧ phase = .pages revision pageCount pageCount ∧
            ∀ before ∈ last, before < revision) ∧ ⟨ready, some revision, .between⟩ = q := by
        simpa [Publication.nextMessage] using hnext
      exact h.ends rfl rfl hlast
  | compileError revision good log =>
      obtain ⟨⟨rfl, rfl, rfl⟩, rfl⟩ :
          (ready = true ∧ phase = .between ∧ good = last) ∧ ⟨ready, last, phase⟩ = q := by
        simpa [Publication.nextMessage] using hnext
      refine h.between rfl nofun rfl (fun _ => rfl) ?_ .inl
      intro _ _ _ hmessage
      cases hmessage
      rfl
  | protocolError | sessionError | sessionClosed =>
      obtain rfl : (⟨ready, last, phase⟩ : Publication) = q := by
        simpa [Publication.nextMessage] using hnext
      exact h.notice hphase rfl

theorem Reads.next (h : Reads frames p) (hnext : p.next frame = some q) :
    Reads (frames ++ [frame]) q := by
  obtain ⟨ready, last, phase⟩ := p
  cases frame with
  | binary data =>
      cases phase with
      | between => cases hnext
      | pages => cases hnext
      | image revision pageCount sent descriptor =>
          obtain ⟨hlength, rfl⟩ : descriptor.byteLength = data.length ∧
              ⟨ready, last, .pages revision pageCount (sent + 1)⟩ = q := by
            simpa [Publication.next] using hnext
          exact h.binary rfl hlength
  | json message =>
      cases phase with
      | between => exact h.nextMessage nofun hnext
      | pages => exact h.nextMessage nofun hnext
      | image => cases hnext

/-- The frames read so far. -/
theorem Reads.read (h : Reads front p) (hread : p.read frames = some q) :
    Reads (front ++ frames) q := by
  induction frames generalizing front p with
  | nil =>
      obtain rfl : p = q := by simpa [Publication.read] using hread
      rwa [List.append_nil]
  | cons frame frames ih =>
      rw [Publication.read, List.foldlM_cons] at hread
      obtain ⟨next, hnext, hrest⟩ := Option.bind_eq_some_iff.mp hread
      have hreads := ih (h.next hnext) hrest
      rwa [List.append_assoc] at hreads

/-- **Accepted frames follow the protocol.** -/
theorem protocol (h : start.read frames = some p) : PublicationProtocol Frame.isNotice frames :=
  (Reads.read .start h).toPublicationProtocol

end Publication

end Typr
