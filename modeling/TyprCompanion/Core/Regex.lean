import Mathlib.Data.List.Infix
import Mathlib.Tactic.Common

/-!
# Regular expressions that backtrack

A matcher of this kind tries the ways an expression can match in a fixed order and takes the first
one, so which part of an input is captured depends on the order.

* `Regex`, `Regex.run` — expressions, and every way they match at the start of an input, in the
  order they are tried.
* `Regex.matchAll`, `Regex.test`, `Regex.fullMatch` — the searches that are built on it.
* `Regex.Matches` — the language with what is captured, whatever the order.
* **`Regex.mem_run`** — the matcher tries what is in the language and nothing else; the searches find
  occurrences of it.
-/

namespace Core

/-- Expressions with at most one group that captures. -/
inductive Regex (α : Type) where
  | empty
  /-- From `lower` to `upper` units of a class, as many as possible unless `lazy`. -/
  | many (p : α → Bool) (lower : Nat) (upper : Option Nat) (lazy : Bool)
  | seq (r t : Regex α)
  | alt (r t : Regex α)
  | capture (r : Regex α)

namespace Regex

variable {α : Type}

/-- One unit of a class. -/
def one (p : α → Bool) : Regex α := .many p 1 (some 1) false

/-- `(?: … )?` -/
def opt (r : Regex α) : Regex α := .alt r .empty

/-- One expression after another. -/
def concat : List (Regex α) → Regex α
  | [] => .empty
  | [r] => r
  | r :: rest => .seq r (concat rest)

/-! ## The matcher -/

/-- What is left of an input behind a repetition. -/
def manyRests (p : α → Bool) (lazy : Bool) : Nat → Option Nat → List α → List (List α)
  | lower, _, [] => if lower = 0 then [[]] else []
  | lower, upper, a :: rest =>
      let stop := if lower = 0 then [a :: rest] else []
      let go := if upper ≠ some 0 ∧ p a = true
        then manyRests p lazy (lower - 1) (upper.map (· - 1)) rest else []
      if lazy = true then stop ++ go else go ++ stop

/-- What is captured and what is left, for every way to match at the start of the input; the later
of two captures counts. -/
def run : Regex α → List α → List (Option (List α) × List α)
  | .empty, s => [(none, s)]
  | .many p lower upper lazy, s => (manyRests p lazy lower upper s).map (none, ·)
  | .seq r t, s => (r.run s).flatMap fun first =>
      (t.run first.2).map fun second => (second.1.or first.1, second.2)
  | .alt r t, s => r.run s ++ t.run s
  | .capture r, s => (r.run s).map fun way => (some (s.take (s.length - way.2.length)), way.2)

/-- The captures of the matches from left to right, after a number of units that a match has used
up. -/
def matchAllFrom (r : Regex α) : Nat → List α → List (Option (List α))
  | 0, [] => ((r.run []).head?.map Prod.fst).toList
  | _ + 1, [] => []
  | skip + 1, _ :: rest => matchAllFrom r skip rest
  | 0, a :: rest =>
      match r.run (a :: rest) with
      | [] => matchAllFrom r 0 rest
      | (captured, left) :: _ => captured :: matchAllFrom r ((a :: rest).length - left.length - 1) rest

/-- `input.matchAll(/r/g)` -/
def matchAll (r : Regex α) (s : List α) : List (Option (List α)) := r.matchAllFrom 0 s

/-- `/r/.test(input)` -/
def test (r : Regex α) (s : List α) : Bool := s.tails.any fun rest => !(r.run rest).isEmpty

/-- `/^r/.test(input)` -/
def testStart (r : Regex α) (s : List α) : Bool := !(r.run s).isEmpty

/-- `/^r$/.exec(input)` -/
def fullMatch (r : Regex α) (s : List α) : Option (Option (List α)) :=
  ((r.run s).find? fun way => way.2.isEmpty).map Prod.fst

/-! ## The language -/

/-- The expression matches `m` and captures `c`. -/
def Matches : Regex α → List α → Option (List α) → Prop
  | .empty, m, c => m = [] ∧ c = none
  | .many p lower upper _, m, c =>
      ((∀ a ∈ m, p a = true) ∧ lower ≤ m.length ∧ ∀ bound, upper = some bound → m.length ≤ bound) ∧
        c = none
  | .seq r t, m, c => ∃ m₁ c₁ m₂ c₂, m = m₁ ++ m₂ ∧ r.Matches m₁ c₁ ∧ t.Matches m₂ c₂ ∧ c = c₂.or c₁
  | .alt r t, m, c => r.Matches m c ∨ t.Matches m c
  | .capture r, m, c => (∃ inner, r.Matches m inner) ∧ c = some m

/-- The expression matches a part of the input and captures `c` there. -/
def Occurs (r : Regex α) (s : List α) (c : Option (List α)) : Prop :=
  ∃ before m after, s = before ++ m ++ after ∧ r.Matches m c

theorem mem_manyRests {p : α → Bool} {lazy : Bool} {lower : Nat} {upper : Option Nat}
    {s rest : List α} :
    rest ∈ manyRests p lazy lower upper s ↔ ∃ m, s = m ++ rest ∧ (∀ a ∈ m, p a = true) ∧
      lower ≤ m.length ∧ ∀ bound, upper = some bound → m.length ≤ bound := by
  induction s generalizing lower upper with
  | nil =>
      rw [manyRests]
      constructor
      · intro h
        split at h
        next hlower => exact ⟨[], (List.mem_singleton.mp h).symm, by simp, by omega, by simp⟩
        next => cases h
      · rintro ⟨m, hnil, -, hlower, -⟩
        obtain ⟨rfl, rfl⟩ := List.append_eq_nil_iff.mp hnil.symm
        rw [if_pos (Nat.le_zero.mp hlower)]
        exact List.mem_singleton_self _
  | cons a s ih =>
      have hstop : rest ∈ (if lower = 0 then [a :: s] else []) ↔ lower = 0 ∧ rest = a :: s := by
        split
        next h => simp [h]
        next h => simp [h]
      have hgo : rest ∈ (if upper ≠ some 0 ∧ p a = true
            then manyRests p lazy (lower - 1) (upper.map (· - 1)) s else []) ↔
          upper ≠ some 0 ∧ p a = true ∧ ∃ m, s = m ++ rest ∧ (∀ a ∈ m, p a = true) ∧
            lower - 1 ≤ m.length ∧ ∀ bound, upper.map (· - 1) = some bound → m.length ≤ bound := by
        split
        next h => simp only [ih, h, ne_eq, not_false_eq_true, true_and]
        next h =>
          refine iff_of_false List.not_mem_nil ?_
          rintro ⟨hupper, hp, -⟩
          exact h ⟨hupper, hp⟩
      have hsplit : rest ∈ manyRests p lazy lower upper (a :: s) ↔
          (lower = 0 ∧ rest = a :: s) ∨ (upper ≠ some 0 ∧ p a = true ∧ ∃ m, s = m ++ rest ∧
            (∀ a ∈ m, p a = true) ∧ lower - 1 ≤ m.length ∧
              ∀ bound, upper.map (· - 1) = some bound → m.length ≤ bound) := by
        rw [← hstop, ← hgo, manyRests]
        cases lazy with
        | false => simp only [Bool.false_eq_true, if_false, List.mem_append, or_comm]
        | true => simp only [if_true, List.mem_append]
      rw [hsplit]
      constructor
      · rintro (⟨rfl, rfl⟩ | ⟨hupper, ha, m, rfl, hm, hlower, hbound⟩)
        · exact ⟨[], rfl, by simp, Nat.le_refl 0, by simp⟩
        · refine ⟨a :: m, rfl, List.forall_mem_cons.mpr ⟨ha, hm⟩, ?_, ?_⟩
          · rw [List.length_cons]
            omega
          · rintro bound rfl
            have hm := hbound (bound - 1) rfl
            have hpos : bound ≠ 0 := fun h => hupper (by rw [h])
            rw [List.length_cons]
            omega
      · rintro ⟨m, hm, hp, hlower, hbound⟩
        cases m with
        | nil => exact .inl ⟨Nat.le_zero.mp hlower, hm.symm⟩
        | cons b m =>
            obtain ⟨rfl, rfl⟩ := List.cons.inj hm
            obtain ⟨hb, hp⟩ := List.forall_mem_cons.mp hp
            rw [List.length_cons] at hlower
            refine .inr ⟨?_, hb, m, rfl, hp, by omega, ?_⟩
            · rintro rfl
              have := hbound 0 rfl
              rw [List.length_cons] at this
              omega
            · intro bound hupper
              obtain ⟨bound', rfl, rfl⟩ := Option.map_eq_some_iff.mp hupper
              have := hbound bound' rfl
              rw [List.length_cons] at this
              omega

/-- **What the matcher tries**: the starts of the input that are in the language. -/
theorem mem_run {r : Regex α} {s rest : List α} {c : Option (List α)} :
    (c, rest) ∈ r.run s ↔ ∃ m, s = m ++ rest ∧ r.Matches m c := by
  induction r generalizing s rest c with
  | empty =>
      constructor
      · intro h
        obtain ⟨rfl, rfl⟩ := Prod.mk.inj (List.mem_singleton.mp h)
        exact ⟨[], rfl, rfl, rfl⟩
      · rintro ⟨m, rfl, rfl, rfl⟩
        exact List.mem_singleton_self _
  | many p lower upper lazy =>
      constructor
      · intro h
        obtain ⟨left, hleft, heq⟩ := List.mem_map.mp h
        obtain ⟨rfl, rfl⟩ := Prod.mk.inj heq
        rw [mem_manyRests] at hleft
        obtain ⟨m, rfl, hm⟩ := hleft
        exact ⟨m, rfl, hm, rfl⟩
      · rintro ⟨m, rfl, hm, rfl⟩
        refine List.mem_map.mpr ⟨rest, ?_, rfl⟩
        rw [mem_manyRests]
        exact ⟨m, rfl, hm⟩
  | seq r t ihr iht =>
      constructor
      · intro h
        obtain ⟨⟨c₁, left⟩, hfirst, h⟩ := List.mem_flatMap.mp h
        obtain ⟨⟨c₂, left'⟩, hsecond, heq⟩ := List.mem_map.mp h
        obtain ⟨rfl, rfl⟩ := Prod.mk.inj heq
        obtain ⟨m₁, rfl, hm₁⟩ := ihr.mp hfirst
        obtain ⟨m₂, rfl, hm₂⟩ := iht.mp hsecond
        exact ⟨m₁ ++ m₂, (List.append_assoc ..).symm, m₁, c₁, m₂, c₂, rfl, hm₁, hm₂, rfl⟩
      · rintro ⟨m, rfl, m₁, c₁, m₂, c₂, rfl, hm₁, hm₂, rfl⟩
        refine List.mem_flatMap.mpr ⟨(c₁, m₂ ++ rest), ihr.mpr ⟨m₁, List.append_assoc .., hm₁⟩, ?_⟩
        exact List.mem_map.mpr ⟨(c₂, rest), iht.mpr ⟨m₂, rfl, hm₂⟩, rfl⟩
  | alt r t ihr iht =>
      rw [run, List.mem_append, ihr, iht]
      constructor
      · rintro (⟨m, hs, hm⟩ | ⟨m, hs, hm⟩)
        · exact ⟨m, hs, .inl hm⟩
        · exact ⟨m, hs, .inr hm⟩
      · rintro ⟨m, hs, hm | hm⟩
        · exact .inl ⟨m, hs, hm⟩
        · exact .inr ⟨m, hs, hm⟩
  | capture r ih =>
      have htake : ∀ m rest : List α, (m ++ rest).take ((m ++ rest).length - rest.length) = m := by
        intro m rest
        rw [List.length_append, Nat.add_sub_cancel, List.take_left]
      constructor
      · intro h
        obtain ⟨⟨inner, left⟩, hway, heq⟩ := List.mem_map.mp h
        obtain ⟨rfl, rfl⟩ := Prod.mk.inj heq
        obtain ⟨m, rfl, hm⟩ := ih.mp hway
        exact ⟨m, rfl, ⟨inner, hm⟩, congrArg some (htake m left)⟩
      · rintro ⟨m, rfl, ⟨inner, hm⟩, rfl⟩
        refine List.mem_map.mpr ⟨(inner, rest), ih.mpr ⟨m, rfl, hm⟩, ?_⟩
        rw [htake]

/-! ## The searches -/

theorem mem_matchAllFrom {r : Regex α} {skip : Nat} {s : List α} {c : Option (List α)}
    (h : c ∈ r.matchAllFrom skip s) : r.Occurs s c := by
  induction s generalizing skip with
  | nil =>
      cases skip with
      | succ skip => cases h
      | zero =>
          obtain ⟨⟨c', left⟩, hway, rfl⟩ := Option.map_eq_some_iff.mp (Option.mem_toList.mp h)
          have hrun := List.mem_of_mem_head? hway
          rw [mem_run] at hrun
          obtain ⟨m, hm, hmatch⟩ := hrun
          exact ⟨[], m, left, hm, hmatch⟩
  | cons a s ih =>
      have hlater : ∀ skip, c ∈ r.matchAllFrom skip s → r.Occurs (a :: s) c := by
        intro skip h
        obtain ⟨before, m, after, rfl, hm⟩ := ih h
        exact ⟨a :: before, m, after, rfl, hm⟩
      cases skip with
      | succ skip => exact hlater skip h
      | zero =>
          rw [matchAllFrom] at h
          split at h
          next => exact hlater 0 h
          next c' left ways hrun =>
            rcases List.mem_cons.mp h with rfl | h
            · have hfirst : (c, left) ∈ r.run (a :: s) := hrun ▸ List.mem_cons_self
              rw [mem_run] at hfirst
              obtain ⟨m, hm, hmatch⟩ := hfirst
              exact ⟨[], m, left, hm, hmatch⟩
            · exact hlater _ h

/-- **Every match that is reported is one.** -/
theorem occurs_of_mem_matchAll {r : Regex α} {s : List α} {c : Option (List α)}
    (h : c ∈ r.matchAll s) : r.Occurs s c :=
  mem_matchAllFrom h

/-- What an anchored match captures, it captures of the whole input. -/
theorem matches_of_fullMatch {r : Regex α} {s : List α} {c : Option (List α)}
    (h : r.fullMatch s = some c) : r.Matches s c := by
  obtain ⟨⟨c', left⟩, hfind, rfl⟩ := Option.map_eq_some_iff.mp h
  have hempty : left.isEmpty = true := by simpa using List.find?_some hfind
  obtain rfl := List.isEmpty_iff.mp hempty
  have hrun := List.mem_of_find?_eq_some hfind
  rw [mem_run] at hrun
  obtain ⟨m, hs, hm⟩ := hrun
  rwa [hs, List.append_nil]

/-- An anchored match is found when there is one. -/
theorem isSome_fullMatch {r : Regex α} {s : List α} :
    (r.fullMatch s).isSome = true ↔ ∃ c, r.Matches s c := by
  constructor
  · intro h
    obtain ⟨c, hc⟩ := Option.isSome_iff_exists.mp h
    exact ⟨c, matches_of_fullMatch hc⟩
  · rintro ⟨c, hc⟩
    have hmem : (c, []) ∈ r.run s := by
      rw [mem_run]
      exact ⟨s, (List.append_nil s).symm, hc⟩
    rw [fullMatch, Option.isSome_map, List.find?_isSome]
    exact ⟨_, hmem, rfl⟩

@[simp] theorem matches_one {p : α → Bool} {m : List α} {c : Option (List α)} :
    (one p).Matches m c ↔ ∃ a, m = [a] ∧ p a = true ∧ c = none := by
  constructor
  · rintro ⟨⟨hp, hlower, hupper⟩, hc⟩
    obtain ⟨a, rfl⟩ := List.length_eq_one_iff.mp (Nat.le_antisymm (hupper 1 rfl) hlower)
    exact ⟨a, rfl, hp a (List.mem_singleton_self a), hc⟩
  · rintro ⟨a, rfl, ha, hc⟩
    exact ⟨⟨by simpa using ha, Nat.le_refl 1, by simp⟩, hc⟩

end Regex

end Core
