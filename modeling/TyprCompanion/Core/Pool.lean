import TyprCompanion.Core.TransitionSystem

/-!
# Pools

Components of one system, admitted one by one while few enough of them hold a slot.

* `Pool`, `Pool.system` — the runs of all components together.
* `Pool.Permitted` — a condition on the steps of each component.
* **`Pool.reachable_holds_le`** — a component that let its slot go never holds one again, so the
  slots held stay within the bound.
* **`Pool.reachable_uses_le`** — so does what only holders of a slot use.
-/

namespace Core

/-- Components, of which at most `bound` are to hold a slot. -/
structure Pool (S E : Type) where
  component : System S E
  holds : S → Bool
  bound : Nat

inductive PoolEvent (E : Type) where
  /-- a component asks to be admitted -/
  | arrive
  /-- an event of one component -/
  | act (index : Nat) (event : E)

namespace Pool

variable {S E : Type}

def step (pool : Pool S E) (members : List S) : PoolEvent E → Option (List S)
  | .arrive =>
      if pool.bound ≤ members.countP pool.holds then some members
      else some (members ++ [pool.component.init])
  | .act index event => members[index]?.bind fun s =>
      (pool.component.step s event).map fun t => members.set index t

/-- The runs of the components. -/
def system (pool : Pool S E) : System (List S) (PoolEvent E) := ⟨[], pool.step⟩

/-- The steps of each component meet a condition. -/
def Permitted (permitted : S → E → Prop) (members : List S) : PoolEvent E → Prop
  | .arrive => True
  | .act index event => ∀ s, members[index]? = some s → permitted s event

/-- The check of a condition that is decided for each component. -/
def check (permitted : S → E → Bool) (members : List S) : PoolEvent E → Bool
  | .arrive => true
  | .act index event => members[index]?.all fun s => permitted s event

theorem permitted_of_check {permitted : S → E → Bool} (members : List S) (event : PoolEvent E)
    (h : check permitted members event = true) :
    Permitted (fun s e => permitted s e = true) members event := by
  cases event with
  | arrive => trivial
  | act index event =>
      intro s hs
      simpa [check, hs] using h

theorem Permitted.mono {permitted permitted' : S → E → Prop} {members : List S} {event : PoolEvent E}
    (h : Permitted permitted members event) (himp : ∀ s e, permitted s e → permitted' s e) :
    Permitted permitted' members event := by
  cases event with
  | arrive => trivial
  | act index event => exact fun s hs => himp s event (h s hs)

theorem permitted_true (members : List S) (event : PoolEvent E) :
    Permitted (fun _ _ => True) members event := by
  cases event with
  | arrive => trivial
  | act index event => exact fun _ _ => trivial

/-- What a step does: nothing, a component is admitted, or one of them goes on. -/
theorem step_cases {pool : Pool S E} {members members' : List S} {event : PoolEvent E}
    (h : pool.step members event = some members') :
    event = .arrive ∧ (members' = members ∨
      members.countP pool.holds < pool.bound ∧ members' = members ++ [pool.component.init]) ∨
    ∃ index e s t, event = .act index e ∧ members[index]? = some s ∧
      pool.component.step s e = some t ∧ members' = members.set index t := by
  cases event with
  | arrive =>
      unfold step at h
      dsimp only at h
      split at h
      · exact .inl ⟨rfl, .inl (Option.some.inj h).symm⟩
      · next hfree => exact .inl ⟨rfl, .inr ⟨Nat.lt_of_not_le hfree, (Option.some.inj h).symm⟩⟩
  | act index e =>
      obtain ⟨s, hs, hstep⟩ := Option.bind_eq_some_iff.mp h
      obtain ⟨t, ht, rfl⟩ := Option.map_eq_some_iff.mp hstep
      exact .inr ⟨index, e, s, t, rfl, hs, ht, rfl⟩

/-- Replacing a member by one that counts only if it did. -/
theorem countP_set_le {p : S → Bool} {members : List S} {index : Nat} {s t : S}
    (hs : members[index]? = some s) (h : p t = true → p s = true) :
    (members.set index t).countP p ≤ members.countP p := by
  induction members generalizing index with
  | nil => simp
  | cons first rest ih =>
      cases index with
      | zero =>
          obtain rfl : first = s := by simpa using hs
          rw [List.set_cons_zero, List.countP_cons, List.countP_cons]
          by_cases hp : p t = true
          · simp [hp, h hp]
          · simp [hp]
      | succ index =>
          have hrest := ih (by simpa using hs)
          rw [List.set_cons_succ, List.countP_cons, List.countP_cons]
          omega

section Runs

variable {pool : Pool S E} {permitted : S → E → Prop} {I : S → Prop} {members : List S}

/-- **Invariants of the components** are invariants of the pool. -/
theorem reachable_invariant (hinit : I pool.component.init)
    (hstep : ∀ s e t, permitted s e → I s → pool.component.step s e = some t → I t)
    (h : pool.system.Reachable (Permitted permitted) members) : ∀ s ∈ members, I s := by
  refine h.invariant (I := fun members => ∀ s ∈ members, I s) (List.forall_mem_nil I) ?_
  intro members event members' _ hpermitted hmembers hmove
  obtain ⟨rfl, rfl | ⟨-, rfl⟩⟩ | ⟨index, e, s, t, rfl, hs, ht, rfl⟩ := step_cases hmove
  · exact hmembers
  · exact List.forall_mem_append.mpr ⟨hmembers, List.forall_mem_singleton.mpr hinit⟩
  · intro u hu
    rcases List.mem_or_eq_of_mem_set hu with hu | rfl
    · exact hmembers u hu
    · exact hstep s e u (hpermitted s hs) (hmembers s (List.mem_of_getElem? hs)) ht

/-- **The slots held** stay within the bound. -/
theorem reachable_holds_le (hinit : I pool.component.init)
    (hstep : ∀ s e t, permitted s e → I s → pool.component.step s e = some t → I t)
    (hreleases : ∀ s e t, I s → pool.component.step s e = some t → pool.holds t = true →
      pool.holds s = true)
    (h : pool.system.Reachable (Permitted permitted) members) :
    members.countP pool.holds ≤ pool.bound := by
  refine h.invariant (I := fun members => members.countP pool.holds ≤ pool.bound)
    (Nat.zero_le _) ?_
  intro members event members' hreach _ hbound hmove
  obtain ⟨rfl, rfl | ⟨hfree, rfl⟩⟩ | ⟨index, e, s, t, rfl, hs, ht, rfl⟩ := step_cases hmove
  · exact hbound
  · rw [List.countP_append]
    have hone := List.countP_le_length (p := pool.holds) (l := [pool.component.init])
    rw [List.length_singleton] at hone
    omega
  · have hmember : I s := reachable_invariant hinit hstep hreach s (List.mem_of_getElem? hs)
    exact Nat.le_trans (countP_set_le hs (hreleases s e t hmember ht)) hbound

/-- **What only holders of a slot use** stays within the bound. -/
theorem reachable_uses_le {uses : S → Bool} (hinit : I pool.component.init)
    (hstep : ∀ s e t, permitted s e → I s → pool.component.step s e = some t → I t)
    (hreleases : ∀ s e t, I s → pool.component.step s e = some t → pool.holds t = true →
      pool.holds s = true)
    (huses : ∀ s, I s → uses s = true → pool.holds s = true)
    (h : pool.system.Reachable (Permitted permitted) members) :
    members.countP uses ≤ pool.bound := by
  have hmembers := reachable_invariant hinit hstep h
  have hmono : members.countP uses ≤ members.countP pool.holds :=
    List.countP_mono_left fun s hs hused => huses s (hmembers s hs) hused
  exact Nat.le_trans hmono (reachable_holds_le hinit hstep hreleases h)

end Runs

end Pool

end Core
