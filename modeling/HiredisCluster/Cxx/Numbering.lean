import Mathlib.Data.List.Nodup
import HiredisCluster.Cxx.OrderedMap

/-!
# Maps that number their keys

A map used as a cache: a key that is not found is inserted with the next number.  Then the map numbers its keys in the
order of their first use (`Numbers.insert`), a number once given stays (`Numbers.lookup_append`), and two keys have the
same number only when they are equal (`Numbers.injective`).
-/

namespace Cxx

namespace OrderedMap

variable {κ ω : Type} [LinearOrder ω] {rank : κ → ω}

/-- What is found after the insertion of a new key, where keys of equal rank are equal. -/
private theorem lookup_insert_iff {ν : Type} (hrank : Function.Injective rank) (m : OrderedMap rank ν) {k k' : κ}
    {v v' : ν} (h : m.lookup k = none) :
    (m.insert k v).lookup k' = some v' ↔ (k' = k ∧ v' = v) ∨ m.lookup k' = some v' := by
  simp only [lookup_eq_some_iff, mem_insert m ((lookup_eq_none_iff m k).1 h)]
  constructor
  · rintro ⟨e, rfl | he, hr, hv⟩
    · exact Or.inl ⟨(hrank hr).symm, hv.symm⟩
    · exact Or.inr ⟨e, he, hr, hv⟩
  · rintro (⟨rfl, rfl⟩ | ⟨e, he, hr, hv⟩)
    · exact ⟨(k', v'), Or.inl rfl, rfl, rfl⟩
    · exact ⟨e, Or.inr he, hr, hv⟩

/-- The map holds exactly the keys `keys`, numbered in this order from `base` on. -/
structure Numbers (m : OrderedMap rank Nat) (base : Nat) (keys : List κ) : Prop where
  nodup : keys.Nodup
  lookup_iff : ∀ k n, m.lookup k = some n ↔ ∃ i, keys[i]? = some k ∧ n = base + i

namespace Numbers

variable {m m' : OrderedMap rank Nat} {base n : Nat} {keys more : List κ} {k k' : κ}

theorem of_empty (h : m.entries = []) : m.Numbers base ([] : List κ) where
  nodup := List.nodup_nil
  lookup_iff k n := by simp [lookup_eq_some_iff, h]

theorem lookup_eq_none_iff (h : m.Numbers base keys) : m.lookup k = none ↔ k ∉ keys := by
  rw [List.mem_iff_getElem?, Option.eq_none_iff_forall_ne_some]
  constructor
  · rintro hnone ⟨i, hi⟩
    exact hnone (base + i) ((h.lookup_iff k _).2 ⟨i, hi, rfl⟩)
  · rintro hmem n hn
    obtain ⟨i, hi, -⟩ := (h.lookup_iff k n).1 hn
    exact hmem ⟨i, hi⟩

theorem lookup_of_mem (h : m.Numbers base keys) (hk : k ∈ keys) :
    ∃ i, keys[i]? = some k ∧ m.lookup k = some (base + i) := by
  obtain ⟨i, hi⟩ := List.mem_iff_getElem?.1 hk
  exact ⟨i, hi, (h.lookup_iff k _).2 ⟨i, hi, rfl⟩⟩

/-- A key that is not found gets the next number. -/
theorem insert (hrank : Function.Injective rank) (h : m.Numbers base keys) (hk : m.lookup k = none) :
    (m.insert k (base + keys.length)).Numbers base (keys ++ [k]) where
  nodup := by
    rw [List.nodup_append]
    refine ⟨h.nodup, List.nodup_singleton k, fun a ha b hb hab => ?_⟩
    rw [List.mem_singleton.1 hb] at hab
    exact h.lookup_eq_none_iff.1 hk (hab ▸ ha)
  lookup_iff k' n := by
    rw [lookup_insert_iff hrank m hk, h.lookup_iff]
    constructor
    · rintro (⟨rfl, rfl⟩ | ⟨i, hi, rfl⟩)
      · exact ⟨keys.length, by simp, rfl⟩
      · have hlt : i < keys.length := (List.getElem?_eq_some_iff.1 hi).1
        exact ⟨i, by rw [List.getElem?_append_left hlt, hi], rfl⟩
    · rintro ⟨i, hi, rfl⟩
      by_cases hlt : i < keys.length
      · rw [List.getElem?_append_left hlt] at hi
        exact Or.inr ⟨i, hi, rfl⟩
      · rw [List.getElem?_append_right (by omega), List.getElem?_singleton] at hi
        split at hi
        · cases hi
          exact Or.inl ⟨rfl, by omega⟩
        · cases hi

/-- Numbers that were given stay. -/
theorem lookup_append (h : m.Numbers base keys) (h' : m'.Numbers base (keys ++ more)) (hk : m.lookup k = some n) :
    m'.lookup k = some n := by
  obtain ⟨i, hi, rfl⟩ := (h.lookup_iff k n).1 hk
  have hlt : i < keys.length := (List.getElem?_eq_some_iff.1 hi).1
  exact (h'.lookup_iff k _).2 ⟨i, by rw [List.getElem?_append_left hlt, hi], rfl⟩

theorem injective (h : m.Numbers base keys) (hk : k ∈ keys) (heq : m.lookup k = m.lookup k') : k = k' := by
  obtain ⟨i, hi, hlookup⟩ := h.lookup_of_mem hk
  obtain ⟨j, hj, hij⟩ := (h.lookup_iff k' _).1 (heq.symm.trans hlookup)
  obtain rfl : i = j := by omega
  exact Option.some.inj (hi.symm.trans hj)

end Numbers

end OrderedMap

end Cxx
