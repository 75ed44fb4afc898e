import Mathlib.Data.Finmap
import Mathlib.Algebra.Order.BigOperators.Group.Finset

/-!
# Finite maps with bounds on their sizes

A finite map whose values have sizes, and what one update does to the number of entries and to the
total size.

* `total` — the sum of the sizes.
* `Bounds`, `Bounds.Holds` — limits on the value size, the number of entries and the total.
* `Bounds.Holds.insert`, `Bounds.Holds.erase` — which updates keep them.
-/

namespace Core

namespace SizedMap

variable {K V : Type} [DecidableEq K] (size : V → Nat)

/-- The size at a key; an absent key has none. -/
def sizeAt (m : Finmap fun _ : K => V) (k : K) : Nat := (m.lookup k).elim 0 size

/-- The sum of the sizes. -/
def total (m : Finmap fun _ : K => V) : Nat := ∑ k ∈ m.keys, sizeAt size m k

variable {size}

theorem keys_insert (m : Finmap fun _ : K => V) (k : K) (v : V) :
    (m.insert k v).keys = insert k m.keys := by
  ext k'
  simp [Finmap.mem_keys]

theorem card_insert_of_mem {m : Finmap fun _ : K => V} {k : K} (h : k ∈ m) (v : V) :
    (m.insert k v).keys.card = m.keys.card := by
  rw [keys_insert, Finset.insert_eq_of_mem (Finmap.mem_keys.mpr h)]

theorem card_insert_of_notMem {m : Finmap fun _ : K => V} {k : K} (h : k ∉ m) (v : V) :
    (m.insert k v).keys.card = m.keys.card + 1 := by
  rw [keys_insert, Finset.card_insert_of_notMem (mt Finmap.mem_keys.mp h)]

/-- The total without one key. -/
theorem total_eq_sizeAt_add (m : Finmap fun _ : K => V) (k : K) :
    total size m = sizeAt size m k + ∑ k' ∈ m.keys.erase k, sizeAt size m k' := by
  by_cases h : k ∈ m.keys
  · exact (Finset.add_sum_erase _ _ h).symm
  · have hnone : m.lookup k = none := Finmap.lookup_eq_none.mpr (mt Finmap.mem_keys.mpr h)
    simp [total, Finset.erase_eq_of_notMem h, sizeAt, hnone]

/-- Inserting replaces one summand. -/
theorem total_insert (m : Finmap fun _ : K => V) (k : K) (v : V) :
    total size (m.insert k v) + sizeAt size m k = total size m + size v := by
  have hsame : ∑ k' ∈ (m.insert k v).keys.erase k, sizeAt size (m.insert k v) k'
      = ∑ k' ∈ m.keys.erase k, sizeAt size m k' := by
    rw [keys_insert, Finset.erase_insert_eq_erase]
    refine Finset.sum_congr rfl fun k' hk' => ?_
    rw [sizeAt, Finmap.lookup_insert_of_ne _ (Finset.ne_of_mem_erase hk'), sizeAt]
  have hnew : sizeAt size (m.insert k v) k = size v := by
    rw [sizeAt, Finmap.lookup_insert, Option.elim]
  rw [total_eq_sizeAt_add (m.insert k v) k, total_eq_sizeAt_add m k, hsame, hnew]
  omega

theorem total_erase_le (m : Finmap fun _ : K => V) (k : K) :
    total size (m.erase k) ≤ total size m := by
  have hsame : total size (m.erase k) = ∑ k' ∈ m.keys.erase k, sizeAt size m k' := by
    rw [total, Finmap.keys_erase]
    refine Finset.sum_congr rfl fun k' hk' => ?_
    rw [sizeAt, Finmap.lookup_erase_ne (Finset.ne_of_mem_erase hk'), sizeAt]
  rw [hsame, total_eq_sizeAt_add m k]
  omega

end SizedMap

/-- Limits on a map: the size of a value, the number of entries and the total size. -/
structure Bounds where
  value : Nat
  count : Nat
  total : Nat

namespace Bounds

open SizedMap

variable {K V : Type} [DecidableEq K]

/-- The map is within the limits. -/
structure Holds (b : Bounds) (size : V → Nat) (m : Finmap fun _ : K => V) : Prop where
  value_le : ∀ k v, m.lookup k = some v → size v ≤ b.value
  count_le : m.keys.card ≤ b.count
  total_le : SizedMap.total size m ≤ b.total

variable {b : Bounds} {size : V → Nat} {m : Finmap fun _ : K => V}

/-- Nothing exceeds a limit. -/
theorem Holds.empty : b.Holds size (∅ : Finmap fun _ : K => V) where
  value_le := by simp
  count_le := by simp
  total_le := by simp [SizedMap.total]

/-- Removing an entry keeps every limit. -/
theorem Holds.erase (h : b.Holds size m) (k : K) : b.Holds size (m.erase k) where
  value_le := by
    intro k' v hv
    by_cases hk : k' = k
    · rw [hk, Finmap.lookup_erase] at hv
      exact absurd hv (by simp)
    · exact h.value_le k' v (by rwa [Finmap.lookup_erase_ne hk] at hv)
  count_le := by
    rw [Finmap.keys_erase]
    exact le_trans (Finset.card_erase_le) h.count_le
  total_le := le_trans (total_erase_le m k) h.total_le

/-- Inserting keeps the limits when the value fits, there is room for a new key, and the total does
after the old value's size is taken off. -/
theorem Holds.insert (h : b.Holds size m) {k : K} {v : V} (hvalue : size v ≤ b.value)
    (hcount : k ∉ m → m.keys.card < b.count)
    (htotal : SizedMap.total size m + size v ≤ b.total + sizeAt size m k) :
    b.Holds size (m.insert k v) where
  value_le := by
    intro k' v' hv'
    by_cases hk : k' = k
    · subst hk
      rw [Finmap.lookup_insert, Option.some.injEq] at hv'
      exact hv' ▸ hvalue
    · exact h.value_le k' v' (by rwa [Finmap.lookup_insert_of_ne _ hk] at hv')
  count_le := by
    by_cases hk : k ∈ m
    · rw [card_insert_of_mem hk]
      exact h.count_le
    · rw [card_insert_of_notMem hk]
      exact hcount hk
  total_le := by
    have hinsert : SizedMap.total size (m.insert k v) + sizeAt size m k
        = SizedMap.total size m + size v := total_insert m k v
    omega

end Bounds

end Core
