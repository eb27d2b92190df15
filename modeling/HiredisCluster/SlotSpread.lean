import HiredisCluster.KeySlots
import Mathlib.Data.Set.Card
import Mathlib.SetTheory.Cardinal.Finite

/-!
# The spread of the keys over the slots

A slot is a remainder that keeps 14 of the 16 bits of a code.  The code of a key takes every value once when two adjacent
bytes of the key take all their values (`bitwiseCrc_pair_bijective`), so no slot gets more of these keys than another
(`slot_spread`).
-/

namespace HiredisCluster

open Cxx

namespace SlotHash

/-- Keys that differ only in two adjacent bytes have different codes. -/
private theorem bitwiseCrc_pair_injective (p q : Bytes) :
    Function.Injective fun b : UInt8 × UInt8 => bitwiseCrc (p ++ [b.1, b.2] ++ q) := by
  intro b c h
  have hbits : Crc.octet b.1 ++ Crc.octet b.2 = Crc.octet c.1 ++ Crc.octet c.2 := by
    refine Crc.burst_eq_of_bits_eq (g := xmodem) (r := 0) (by decide) (p.flatMap Crc.octet) (q.flatMap Crc.octet)
      (by simp) (by simp) ?_
    simpa [bitwiseCrc] using h
  obtain ⟨hfirst, hsecond⟩ := List.append_inj hbits (by simp)
  exact Prod.ext (Crc.octet_inj hfirst) (Crc.octet_inj hsecond)

private def octets : UInt8 ≃ Fin 256 := ⟨UInt8.toFin, UInt8.ofFin, fun _ => rfl, fun _ => rfl⟩

private def words : BitVec 16 ≃ Fin (2 ^ 16) := ⟨BitVec.toFin, BitVec.ofFin, fun _ => rfl, fun _ => rfl⟩

theorem bitwiseCrc_pair_bijective (p q : Bytes) :
    Function.Bijective fun b : UInt8 × UInt8 => bitwiseCrc (p ++ [b.1, b.2] ++ q) := by
  have finite : Finite (BitVec 16) := Finite.of_equiv _ words.symm
  apply (bitwiseCrc_pair_injective p q).bijective_of_nat_card_le
  rw [Nat.card_congr words, Nat.card_prod, Nat.card_congr octets, Nat.card_fin, Nat.card_fin]
  decide

/-- Four codes have a remainder. -/
private theorem ncard_codes {n : Nat} (h : n < 16384) : {r : BitVec 16 | r.toNat % 16384 = n}.ncard = 4 := by
  have image : {r : BitVec 16 | r.toNat % 16384 = n} =
      (fun k : Fin 4 => BitVec.ofNat 16 (n + 16384 * k.val)) '' Set.univ := by
    ext r
    constructor
    · intro hr
      have hlt := r.isLt
      refine ⟨⟨r.toNat / 16384, by omega⟩, trivial, ?_⟩
      apply BitVec.eq_of_toNat_eq
      have hmod : r.toNat % 16384 = n := hr
      simp only [BitVec.toNat_ofNat]
      omega
    · rintro ⟨k, -, rfl⟩
      have hk := k.isLt
      simp only [Set.mem_ofPred_eq, BitVec.toNat_ofNat]
      omega
  have injective : Function.Injective fun k : Fin 4 => BitVec.ofNat 16 (n + 16384 * k.val) := by
    intro j k h
    have hnat := congrArg BitVec.toNat h
    simp only [BitVec.toNat_ofNat] at hnat
    have hj := j.isLt
    have hk := k.isLt
    apply Fin.ext
    omega
  rw [image, Set.ncard_image_of_injective _ injective, Set.ncard_univ, Nat.card_fin]

/-- Whatever surrounds them, four pairs of bytes lead to a remainder. -/
theorem ncard_pairs (p q : Bytes) {n : Nat} (h : n < 16384) :
    {b : UInt8 × UInt8 | (bitwiseCrc (p ++ [b.1, b.2] ++ q)).toNat % 16384 = n}.ncard = 4 := by
  have bijective := bitwiseCrc_pair_bijective p q
  have preimage : {b : UInt8 × UInt8 | (bitwiseCrc (p ++ [b.1, b.2] ++ q)).toNat % 16384 = n} =
      Set.preimage (fun b : UInt8 × UInt8 => bitwiseCrc (p ++ [b.1, b.2] ++ q)) {r | r.toNat % 16384 = n} := rfl
  rw [preimage, Set.ncard_preimage_of_injective_subset_range bijective.1 fun r _ => bijective.2 r]
  exact ncard_codes h

/-- No pair of bytes makes a hash tag between bytes that do not open one and bytes that do not close one. -/
private theorem hashTag_pair {p q : Bytes} (hp : 0x7b ∉ p) (hq : 0x7d ∉ q) (a b : UInt8) :
    hashTag (p ++ [a, b] ++ q) = p ++ [a, b] ++ q := by
  have shape : p ++ [a, b] ++ q = p ++ a :: b :: q := by simp
  rw [shape]
  by_cases ha : a = 0x7b
  · subst ha
    by_cases hb : b = 0x7d
    · subst hb
      exact hashTag_of_empty hp
    · exact hashTag_of_no_close hp (by simp [hq, Ne.symm hb])
  · have hpa : (0x7b : UInt8) ∉ p ++ [a] := by simp [hp, Ne.symm ha]
    have shift : p ++ a :: b :: q = (p ++ [a]) ++ b :: q := by simp
    rw [shift]
    by_cases hb : b = 0x7b
    · subst hb
      exact hashTag_of_no_close hpa hq
    · by_cases ho : (0x7b : UInt8) ∈ q
      · obtain ⟨m, rest, rfl, hm⟩ := List.eq_append_cons_of_mem ho
        have later : p ++ [a] ++ b :: (m ++ 0x7b :: rest) = (p ++ [a] ++ b :: m) ++ 0x7b :: rest := by simp
        rw [later]
        apply hashTag_of_no_close
        · simp only [List.mem_append, List.mem_cons, not_or] at hpa ⊢
          exact ⟨hpa, Ne.symm hb, hm⟩
        · exact fun hc => hq (by simp [hc])
      · apply hashTag_of_no_open
        simp only [List.mem_append, List.mem_cons, not_or] at hpa ⊢
        exact ⟨hpa, Ne.symm hb, ho⟩

/-- Whatever surrounds them, two adjacent bytes of a key without a hash tag spread evenly over the slots: each of the
16384 slots gets four of the 65536 keys. -/
theorem slot_spread (sc : Bool) {p q : Bytes} (hp : 0x7b ∉ p) (hq : 0x7d ∉ q) (hlen : p.length + q.length + 2 < 2 ^ 31)
    {slot : UInt32} (hslot : slot < 16384) :
    {b : UInt8 × UInt8 | slotByKey sc (p ++ [b.1, b.2] ++ q)
      (Int32.ofNat (p ++ [b.1, b.2] ++ q).length).toInt = some slot}.ncard = 4 := by
  have codes : {b : UInt8 × UInt8 | slotByKey sc (p ++ [b.1, b.2] ++ q)
      (Int32.ofNat (p ++ [b.1, b.2] ++ q).length).toInt = some slot} =
      {b | (bitwiseCrc (p ++ [b.1, b.2] ++ q)).toNat % 16384 = slot.toNat} := by
    ext b
    have hkey : (p ++ [b.1, b.2] ++ q).length < 2 ^ 31 := by
      simp only [List.length_append, List.length_cons, List.length_nil]
      omega
    obtain ⟨slot', hs, hmod⟩ := slotByKey_eq sc (p ++ [b.1, b.2] ++ q)
    rw [hashTag_pair hp hq] at hmod
    simp only [Set.mem_ofPred_eq]
    rw [Int32.toInt_ofNat_of_lt hkey, hs, ← hmod, Option.some.injEq, UInt32.toNat_inj]
  rw [codes]
  exact ncard_pairs p q (UInt32.lt_iff_toNat_lt.1 hslot)

/-- The keys `user:??:name` in the last slot. -/
theorem slot_spread_user :
    {b : UInt8 × UInt8 | slotByKey true (text "user:" ++ [b.1, b.2] ++ text ":name")
      (Int32.ofNat (text "user:" ++ [b.1, b.2] ++ text ":name").length).toInt = some 16383}.ncard = 4 :=
  slot_spread true (by decide) (by decide) (by decide) (by decide)

end SlotHash

end HiredisCluster
