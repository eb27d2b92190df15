import HiredisCluster.SlotHash
import HiredisCluster.Cxx.Crc

/-!
# The slot of a key

`crc16` is the table form of the cyclic redundancy code with generator `x ^ 16 + x ^ 12 + x ^ 5 + 1`: one round of its
loop does the eight bit steps of a byte (`crcStep_eq`), whether `char` is signed or not.  `slotByKey` passes it the hash
tag of the key, the part between the first `{` and the first `}` after it, or the whole key (`slotByKeyUsing_eq`).
-/

namespace HiredisCluster

open Cxx

namespace SlotHash

/-! ### The table -/

/-- The generator of the code without its leading term. -/
def xmodem : BitVec 16 := 0x1021

/-- The code of a byte string, bit by bit, from the zero register. -/
def bitwiseCrc (s : Bytes) : BitVec 16 := Crc.bits xmodem 0 (s.flatMap Crc.octet)

private theorem crc16tab_eq (c : UInt8) : (crc16tab.getD c.toNat 0).toBitVec = Crc.bits xmodem 0 (Crc.octet c) := by
  have entries : ∀ i : Fin 256,
      (crc16tab.getD i.val 0).toBitVec = Crc.bits xmodem 0 (Crc.octet (UInt8.ofFin i)) := by decide +kernel
  exact entries c.toFin

/-- The mask removes the sign extension of a signed `char`. -/
private theorem promote_and (sc : Bool) (c : UInt8) : promote sc c &&& (0x00ff : UInt32) = c.toUInt32 := by
  have all : ∀ (i : Fin 256) (sc : Bool),
      promote sc (UInt8.ofFin i) &&& (0x00ff : UInt32) = (UInt8.ofFin i).toUInt32 := by decide +kernel
  exact all c.toFin sc

private theorem shiftRight_and (crc : UInt16) :
    (crc.toUInt32 >>> 8) &&& (0x00ff : UInt32) = (crc >>> 8).toUInt8.toUInt32 := by
  apply UInt32.toNat_inj.1
  have mask : (0x00ff : UInt32).toNat = 2 ^ 8 - 1 := rfl
  rw [UInt32.toNat_and, mask, Nat.and_two_pow_sub_one_eq_mod]
  simp

/-- The index into the table: the high byte of the register against the byte of the buffer. -/
private theorem index_eq (sc : Bool) (crc : UInt16) (c : UInt8) :
    ((crc.toUInt32 >>> 8) ^^^ promote sc c) &&& (0x00ff : UInt32) = ((crc >>> 8).toUInt8 ^^^ c).toUInt32 := by
  have distrib : ∀ a b m : UInt32, (a ^^^ b) &&& m = (a &&& m) ^^^ (b &&& m) := by
    intro a b m
    apply UInt32.toNat_inj.1
    simp only [UInt32.toNat_and, UInt32.toNat_xor, Nat.and_xor_distrib_right]
  rw [distrib, promote_and, shiftRight_and, UInt8.toUInt32_xor]

private theorem zipWith_leading (crc : UInt16) (c : UInt8) :
    List.zipWith Bool.xor (Crc.leading 8 crc.toBitVec) (Crc.octet c) = Crc.octet ((crc >>> 8).toUInt8 ^^^ c) := by
  simp [Crc.octet, Crc.leading, List.range_succ]

/-- One round of the loop is eight bit steps. -/
theorem crcStep_eq (sc : Bool) (crc : UInt16) (c : UInt8) :
    (crcStep sc crc c).toBitVec = Crc.bits xmodem crc.toBitVec (Crc.octet c) := by
  have truncated : ∀ t : UInt16, ((crc.toUInt32 <<< 8) ^^^ t.toUInt32).toUInt16 = (crc <<< 8) ^^^ t := by
    intro t
    simp
  have low : (crc <<< 8).toBitVec = crc.toBitVec <<< 8 := rfl
  unfold crcStep
  rw [truncated, index_eq, UInt8.toNat_toUInt32, UInt16.toBitVec_xor, crc16tab_eq, low,
    Crc.bits_eq_shiftLeft_xor xmodem crc.toBitVec (Crc.octet c), Crc.length_octet, zipWith_leading]

/-- The loop over a part of the buffer computes the code of that part, from the register it starts with. -/
private theorem crcLoop_eq (sc : Bool) (buf : Bytes) : ∀ (n i : Nat) (crc : UInt16), i + n ≤ buf.length →
    ∃ r, crcLoop sc buf n i crc = some r ∧
      r.toBitVec = Crc.bits xmodem crc.toBitVec (((buf.drop i).take n).flatMap Crc.octet) := by
  intro n
  induction n with
  | zero => intro i crc _; exact ⟨crc, rfl, by simp⟩
  | succ n ih =>
    intro i crc h
    have hi : i < buf.length := by omega
    obtain ⟨r, hr, hbits⟩ := ih (i + 1) (crcStep sc crc buf[i]) (by omega)
    refine ⟨r, ?_, ?_⟩
    · rw [crcLoop, List.getElem?_eq_getElem hi]
      exact hr
    · rw [hbits, crcStep_eq, List.drop_eq_getElem_cons hi, List.take_succ_cons, List.flatMap_cons, Crc.bits_append]

private theorem crc16_eq (sc : Bool) (buf : Bytes) (offset len : Nat) (h : offset + len ≤ buf.length) :
    ∃ r, crc16 sc buf offset len = some r ∧ r.toBitVec = bitwiseCrc ((buf.drop offset).take len) :=
  crcLoop_eq sc buf len offset 0 h

private theorem generator_xmodem :
    Crc.generator xmodem = (Polynomial.X ^ 16 + Polynomial.X ^ 12 + Polynomial.X ^ 5 + 1 : Polynomial (ZMod 2)) := by
  have low : Crc.toPoly xmodem = (Polynomial.X ^ 12 + Polynomial.X ^ 5 + 1 : Polynomial (ZMod 2)) := by
    simp [Crc.toPoly, xmodem, Finset.sum_range_succ]
    ring
  rw [Crc.generator, low]
  ring

/-- `crc16` of a whole string is the remainder of its polynomial, shifted by 16 places, divided by the generator. -/
theorem crc16_remainder (sc : Bool) (buf : Bytes) (h : buf.length < 2 ^ 31) :
    ∃ r, crc16 sc buf 0 (Int32.ofNat buf.length).toInt = some r ∧ r.toBitVec = bitwiseCrc buf ∧
      Crc.toPoly r.toBitVec = (Crc.message (buf.flatMap Crc.octet) * Polynomial.X ^ 16) %ₘ
        (Polynomial.X ^ 16 + Polynomial.X ^ 12 + Polynomial.X ^ 5 + 1) := by
  obtain ⟨r, hr, hbits⟩ := crc16_eq sc buf 0 buf.length (by omega)
  rw [List.drop_zero, List.take_length] at hbits
  refine ⟨r, ?_, hbits, ?_⟩
  · rw [Int32.toInt_ofNat_of_lt h]
    exact hr
  · rw [hbits, bitwiseCrc, Crc.toPoly_bits_zero, generator_xmodem]

/-- The check value of the code. -/
theorem crc16_remainder_check :
    ∃ r, crc16 true (text "123456789") 0 (Int32.ofNat (text "123456789").length).toInt = some r ∧
      r.toBitVec = bitwiseCrc (text "123456789") ∧
      Crc.toPoly r.toBitVec = (Crc.message ((text "123456789").flatMap Crc.octet) * Polynomial.X ^ 16) %ₘ
        (Polynomial.X ^ 16 + Polynomial.X ^ 12 + Polynomial.X ^ 5 + 1) :=
  crc16_remainder true (text "123456789") (by decide)

example : crc16 true (text "123456789") 0 9 = some 0x31c3 := by decide +kernel

/-! ### The hash tag -/

/-- What follows the first `c` of a byte string, nothing where there is none. -/
def after (c : UInt8) (s : Bytes) : Bytes := (s.dropWhile (· ≠ c)).tail

/-- What precedes the first `c` of a byte string. -/
def before (c : UInt8) (s : Bytes) : Bytes := s.takeWhile (· ≠ c)

/-- What is hashed of a key: the bytes between the first `{` and the first `}` after it, when there is at least one, and
the whole key otherwise. -/
def hashTag (key : Bytes) : Bytes :=
  let rest := after 0x7b key
  let tag := before 0x7d rest
  if 0x7d ∈ rest ∧ tag ≠ [] then tag else key

private theorem before_append {c : UInt8} {p q : Bytes} (h : c ∉ p) : before c (p ++ c :: q) = p := by
  have hp : ∀ d ∈ p, decide (d ≠ c) = true := fun d hd => decide_eq_true fun he => h (he ▸ hd)
  rw [before, List.takeWhile_append_of_pos hp, List.takeWhile_cons_of_neg (by simp), List.append_nil]

private theorem after_append {c : UInt8} {p q : Bytes} (h : c ∉ p) : after c (p ++ c :: q) = q := by
  have hp : ∀ d ∈ p, decide (d ≠ c) = true := fun d hd => decide_eq_true fun he => h (he ▸ hd)
  rw [after, List.dropWhile_append_of_pos hp, List.dropWhile_cons_of_neg (by simp), List.tail_cons]

private theorem after_of_not_mem {c : UInt8} {s : Bytes} (h : c ∉ s) : after c s = [] := by
  have hs : ∀ d ∈ s, decide (d ≠ c) = true := fun d hd => decide_eq_true fun he => h (he ▸ hd)
  have none_left : (s ++ []).dropWhile (fun d => decide (d ≠ c)) = [] := List.dropWhile_append_of_pos hs
  rw [List.append_nil] at none_left
  rw [after, none_left, List.tail_nil]

theorem hashTag_of_no_open {key : Bytes} (h : 0x7b ∉ key) : hashTag key = key := by
  unfold hashTag
  rw [after_of_not_mem h]
  exact if_neg fun hc => List.not_mem_nil hc.1

theorem hashTag_of_no_close {p rest : Bytes} (hp : 0x7b ∉ p) (h : 0x7d ∉ rest) :
    hashTag (p ++ 0x7b :: rest) = p ++ 0x7b :: rest := by
  unfold hashTag
  rw [after_append hp]
  exact if_neg fun hc => h hc.1

theorem hashTag_of_empty {p q : Bytes} (hp : 0x7b ∉ p) :
    hashTag (p ++ 0x7b :: 0x7d :: q) = p ++ 0x7b :: 0x7d :: q := by
  unfold hashTag
  rw [after_append hp]
  exact if_neg fun hc => hc.2 (before_append (p := []) List.not_mem_nil)

private theorem hashTag_of_tag {p t q : Bytes} (hp : 0x7b ∉ p) (ht : 0x7d ∉ t) (hne : t ≠ []) :
    hashTag (p ++ 0x7b :: (t ++ 0x7d :: q)) = t := by
  unfold hashTag
  rw [after_append hp]
  dsimp only
  rw [before_append ht]
  exact if_pos ⟨List.mem_append_right t List.mem_cons_self, hne⟩

/-- A tag is its own tag: it has no `}`. -/
private theorem hashTag_of_no_close' {t : Bytes} (ht : 0x7d ∉ t) : hashTag t = t := by
  by_cases ho : (0x7b : UInt8) ∈ t
  · obtain ⟨p, rest, rfl, hp⟩ := List.eq_append_cons_of_mem ho
    exact hashTag_of_no_close hp (fun h => ht (by simp [h]))
  · exact hashTag_of_no_open ho

/-! ### The scans -/

/-- The scan passes over the bytes that differ from the one it looks for. -/
private theorem scan_skip (c : UInt8) : ∀ (m p q : Bytes) (n : Nat), c ∉ m →
    scan (p ++ m ++ q) c (m.length + n) p.length = scan (p ++ m ++ q) c n (p.length + m.length) := by
  intro m
  induction m with
  | nil => intro p q n _; simp
  | cons d m ih =>
    intro p q n hm
    simp only [List.mem_cons, not_or] at hm
    have here : (p ++ d :: m ++ q)[p.length]? = some d := by simp
    have count : (d :: m).length + n = (m.length + n) + 1 := by rw [List.length_cons]; omega
    have later := ih (p ++ [d]) q n hm.2
    simp only [List.append_assoc, List.singleton_append, List.length_append, List.length_singleton] at later
    rw [count, scan, here]
    dsimp only
    rw [if_neg (fun h : d = c => hm.1 h.symm), List.append_assoc, later, List.length_cons]
    congr 1
    omega

private theorem scan_missing {c : UInt8} {p m : Bytes} (h : c ∉ m) :
    scan (p ++ m) c m.length p.length = some (p ++ m).length := by
  have skip := scan_skip c m p [] 0 h
  simp only [List.append_nil, Nat.add_zero] at skip
  rw [skip, scan, List.length_append]

private theorem scan_found {c : UInt8} {p m q : Bytes} (h : c ∉ m) :
    scan (p ++ m ++ c :: q) c (m ++ c :: q).length p.length = some (p.length + m.length) := by
  have here : (p ++ m ++ c :: q)[p.length + m.length]? = some c := by
    rw [← List.length_append]
    simp
  rw [List.length_append, List.length_cons, scan_skip c m p (c :: q) (q.length + 1) h, scan, here]
  exact if_pos rfl

/-! ### `SlotByKey` -/

/-- The slot of a hash. -/
def toSlot (crc : UInt16) : UInt32 := crc.toUInt32 &&& 0x3fff

/-- `SlotByKey` with the hash function as a parameter, so that the part of the key it is called on shows. -/
def slotByKeyUsing (crc16 : Nat → Int → Option UInt16) (key : Bytes) (keylen : Int) : Option UInt32 := do
  let s ← scan key 0x7b keylen.toNat 0
  if (s : Int) = keylen then
    return (← crc16 0 keylen).toUInt32 &&& 0x3fff
  let e ← scan key 0x7d (keylen - (s + 1)).toNat (s + 1)
  if (e : Int) = keylen ∨ e = s + 1 then
    return (← crc16 0 keylen).toUInt32 &&& 0x3fff
  return (← crc16 (s + 1) (e - s - 1)).toUInt32 &&& 0x3fff

private theorem slotByKey_eq_using (sc : Bool) (key : Bytes) (keylen : Int) :
    slotByKey sc key keylen = slotByKeyUsing (crc16 sc key) key keylen := rfl

section

variable (crc : Nat → Int → Option UInt16)

private theorem slotByKeyUsing_no_open {key : Bytes} (h : 0x7b ∉ key) :
    slotByKeyUsing crc key key.length = (crc 0 key.length).map toSlot := by
  have opening := scan_missing (p := []) h
  rw [List.nil_append, List.length_nil] at opening
  unfold slotByKeyUsing
  rw [Int.toNat_natCast, opening, Option.map_eq_bind]
  exact if_pos rfl

/-- The second scan ends at the first `}`. -/
private theorem scan_closing {p t q : Bytes} (ht : 0x7d ∉ t) :
    scan (p ++ 0x7b :: (t ++ 0x7d :: q)) 0x7d (t ++ 0x7d :: q).length (p.length + 1) = some (p.length + 1 + t.length) := by
  have shape : (p ++ [0x7b]) ++ (t ++ 0x7d :: q) = p ++ 0x7b :: (t ++ 0x7d :: q) := by simp
  have behind : (p ++ [(0x7b : UInt8)]).length = p.length + 1 := List.length_append
  have closing := scan_found (p := p ++ [0x7b]) (q := q) ht
  rw [List.append_assoc, shape, behind] at closing
  exact closing

/-- With a `{`, the second scan starts behind it. -/
private theorem slotByKeyUsing_open {p rest : Bytes} (hp : 0x7b ∉ p) {e : Nat}
    (he : scan (p ++ 0x7b :: rest) 0x7d rest.length (p.length + 1) = some e) :
    slotByKeyUsing crc (p ++ 0x7b :: rest) (p ++ 0x7b :: rest).length =
      if e = (p ++ 0x7b :: rest).length ∨ e = p.length + 1 then
        (crc 0 (p ++ 0x7b :: rest).length).map toSlot
      else (crc (p.length + 1) (e - p.length - 1)).map toSlot := by
  have opening := scan_found (p := []) (q := rest) hp
  rw [List.nil_append, List.length_nil, Nat.zero_add] at opening
  have hlen : (p ++ 0x7b :: rest).length = p.length + 1 + rest.length := by simp; omega
  have hne : (p.length : Int) ≠ ((p ++ 0x7b :: rest).length : Nat) := by omega
  have left : (((p ++ 0x7b :: rest).length : Nat) - ((p.length : Int) + 1)).toNat = rest.length := by omega
  unfold slotByKeyUsing
  rw [Int.toNat_natCast, opening]
  simp only [Option.bind_eq_bind, Option.bind_some]
  rw [if_neg hne, left, he, Option.map_eq_bind, Option.map_eq_bind]
  simp only [Option.bind_some, Nat.cast_inj]
  rfl

private theorem slotByKeyUsing_tag {p t q : Bytes} (hp : 0x7b ∉ p) (ht : 0x7d ∉ t) (hne : t ≠ []) :
    slotByKeyUsing crc (p ++ 0x7b :: (t ++ 0x7d :: q)) (p ++ 0x7b :: (t ++ 0x7d :: q)).length =
      (crc (p.length + 1) t.length).map toSlot := by
  have hpos : 0 < t.length := List.length_pos_iff.2 hne
  have apart : ¬(p.length + 1 + t.length = (p ++ 0x7b :: (t ++ 0x7d :: q)).length ∨
      p.length + 1 + t.length = p.length + 1) := by
    simp only [List.length_append, List.length_cons]
    omega
  rw [slotByKeyUsing_open crc hp (scan_closing ht), if_neg apart]
  congr 2
  omega

/-- `SlotByKey` hashes one part of the key, and that part is the hash tag. -/
theorem slotByKeyUsing_eq (key : Bytes) : ∃ o l : Nat, o + l ≤ key.length ∧ hashTag key = (key.drop o).take l ∧
    ∀ crc, slotByKeyUsing crc key key.length = (crc o l).map toSlot := by
  have whole : hashTag key = key →
      (∀ crc, slotByKeyUsing crc key key.length = (crc 0 key.length).map toSlot) →
      ∃ o l : Nat, o + l ≤ key.length ∧ hashTag key = (key.drop o).take l ∧
        ∀ crc, slotByKeyUsing crc key key.length = (crc o l).map toSlot := by
    intro htag hall
    exact ⟨0, key.length, by omega, by rw [htag, List.drop_zero, List.take_length], hall⟩
  by_cases ho : (0x7b : UInt8) ∈ key
  · obtain ⟨p, rest, rfl, hp⟩ := List.eq_append_cons_of_mem ho
    have shape : p ++ 0x7b :: rest = (p ++ [0x7b]) ++ rest := by simp
    have behind : (p ++ [(0x7b : UInt8)]).length = p.length + 1 := by simp
    by_cases hc : (0x7d : UInt8) ∈ rest
    · obtain ⟨t, q, rfl, ht⟩ := List.eq_append_cons_of_mem hc
      by_cases hne : t = []
      · subst hne
        -- nothing between the braces: the second test of `e == s + 1`
        apply whole (hashTag_of_empty hp)
        intro crc
        rw [slotByKeyUsing_open crc hp (scan_closing ht)]
        exact if_pos (Or.inr rfl)
      · refine ⟨p.length + 1, t.length, ?_, ?_, ?_⟩
        · rw [shape, List.length_append, behind, List.length_append]
          omega
        · rw [hashTag_of_tag hp ht hne, shape, ← behind, List.drop_left, List.take_left]
        · intro crc
          exact slotByKeyUsing_tag crc hp ht hne
    · have closing := scan_missing (p := p ++ [0x7b]) hc
      rw [← shape, behind] at closing
      apply whole (hashTag_of_no_close hp hc)
      intro crc
      rw [slotByKeyUsing_open crc hp closing]
      exact if_pos (Or.inl rfl)
  · exact whole (hashTag_of_no_open ho) fun crc => slotByKeyUsing_no_open crc ho

end

private theorem toNat_toSlot (r : UInt16) : (toSlot r).toNat = r.toBitVec.toNat % 16384 := by
  have mask : (0x3fff : UInt32).toNat = 2 ^ 14 - 1 := rfl
  rw [toSlot, UInt32.toNat_and, mask, Nat.and_two_pow_sub_one_eq_mod]
  rfl

/-- The slot of a key passed with its own length is the code of its hash tag modulo the number of slots. -/
theorem slotByKey_eq (sc : Bool) (key : Bytes) : ∃ slot, slotByKey sc key key.length = some slot ∧
    slot.toNat = (bitwiseCrc (hashTag key)).toNat % 16384 := by
  obtain ⟨o, l, hol, htag, hall⟩ := slotByKeyUsing_eq key
  obtain ⟨r, hr, hbits⟩ := crc16_eq sc key o l hol
  refine ⟨toSlot r, ?_, ?_⟩
  · rw [slotByKey_eq_using, hall, hr, Option.map_some]
  · rw [toNat_toSlot, htag, hbits]

/-- `SlotByKey` is the hash tag rule: the slot depends on the tag alone, what is hashed lies within the key, and all
keys that carry one tag share its slot. -/
theorem slotByKey_hashTag (sc : Bool) (key : Bytes) (hlen : key.length < 2 ^ 31) :
    (∃ slot, slotByKey sc key (Int32.ofNat key.length).toInt = some slot ∧ slot.toNat < 16384 ∧
      slot.toNat = (bitwiseCrc (hashTag key)).toNat % 16384) ∧
    (∃ o l : Nat, o + l ≤ key.length ∧ hashTag key = (key.drop o).take l ∧
      ∀ crc, slotByKeyUsing crc key (Int32.ofNat key.length).toInt =
        (crc o l).map toSlot) ∧
    ∀ p t q : Bytes, key = p ++ 0x7b :: (t ++ 0x7d :: q) → 0x7b ∉ p → 0x7d ∉ t → t ≠ [] →
      slotByKey sc key (Int32.ofNat key.length).toInt = slotByKey sc t (Int32.ofNat t.length).toInt := by
  obtain ⟨slot, hslot, hmod⟩ := slotByKey_eq sc key
  rw [Int32.toInt_ofNat_of_lt hlen]
  refine ⟨⟨slot, hslot, ?_, hmod⟩, slotByKeyUsing_eq key, ?_⟩
  · rw [hmod]
    exact Nat.mod_lt _ (by decide)
  · rintro p t q rfl hp ht hne
    have htlen : t.length < 2 ^ 31 := by
      simp only [List.length_append, List.length_cons] at hlen
      omega
    obtain ⟨slot', hslot', hmod'⟩ := slotByKey_eq sc t
    rw [Int32.toInt_ofNat_of_lt htlen, hslot, hslot']
    congr 1
    apply UInt32.toNat_inj.1
    rw [hmod, hmod', hashTag_of_tag hp ht hne, hashTag_of_no_close' ht]

/-- The keys `{user1000}.following` and `user1000` share a slot. -/
theorem slotByKey_hashTag_user :
    slotByKey true (text "\x7buser1000\x7d.following")
        (Int32.ofNat (text "\x7buser1000\x7d.following").length).toInt =
      slotByKey true (text "user1000") (Int32.ofNat (text "user1000").length).toInt :=
  (slotByKey_hashTag true (text "\x7buser1000\x7d.following") (by decide)).2.2 [] (text "user1000")
    (text ".following") (by decide) (by decide) (by decide) (by decide)

end SlotHash

end HiredisCluster
