import HiredisCluster.Cxx.ByteString

/-!
# Hash slots (`slothash.h`)

`slotByKey` hashes the part of a key between the first `{` and the first `}` after it, or the whole key.  A read outside
the key is undefined behaviour and shows as `none`; for a key passed with its own length there is none
(`slotByKey_eq_some`), and the slot is below 16384.
-/

namespace HiredisCluster

open Cxx

namespace SlotHash

def crc16tab : List UInt16 := [
    0x0000, 0x1021, 0x2042, 0x3063, 0x4084, 0x50a5, 0x60c6, 0x70e7,
    0x8108, 0x9129, 0xa14a, 0xb16b, 0xc18c, 0xd1ad, 0xe1ce, 0xf1ef,
    0x1231, 0x0210, 0x3273, 0x2252, 0x52b5, 0x4294, 0x72f7, 0x62d6,
    0x9339, 0x8318, 0xb37b, 0xa35a, 0xd3bd, 0xc39c, 0xf3ff, 0xe3de,
    0x2462, 0x3443, 0x0420, 0x1401, 0x64e6, 0x74c7, 0x44a4, 0x5485,
    0xa56a, 0xb54b, 0x8528, 0x9509, 0xe5ee, 0xf5cf, 0xc5ac, 0xd58d,
    0x3653, 0x2672, 0x1611, 0x0630, 0x76d7, 0x66f6, 0x5695, 0x46b4,
    0xb75b, 0xa77a, 0x9719, 0x8738, 0xf7df, 0xe7fe, 0xd79d, 0xc7bc,
    0x48c4, 0x58e5, 0x6886, 0x78a7, 0x0840, 0x1861, 0x2802, 0x3823,
    0xc9cc, 0xd9ed, 0xe98e, 0xf9af, 0x8948, 0x9969, 0xa90a, 0xb92b,
    0x5af5, 0x4ad4, 0x7ab7, 0x6a96, 0x1a71, 0x0a50, 0x3a33, 0x2a12,
    0xdbfd, 0xcbdc, 0xfbbf, 0xeb9e, 0x9b79, 0x8b58, 0xbb3b, 0xab1a,
    0x6ca6, 0x7c87, 0x4ce4, 0x5cc5, 0x2c22, 0x3c03, 0x0c60, 0x1c41,
    0xedae, 0xfd8f, 0xcdec, 0xddcd, 0xad2a, 0xbd0b, 0x8d68, 0x9d49,
    0x7e97, 0x6eb6, 0x5ed5, 0x4ef4, 0x3e13, 0x2e32, 0x1e51, 0x0e70,
    0xff9f, 0xefbe, 0xdfdd, 0xcffc, 0xbf1b, 0xaf3a, 0x9f59, 0x8f78,
    0x9188, 0x81a9, 0xb1ca, 0xa1eb, 0xd10c, 0xc12d, 0xf14e, 0xe16f,
    0x1080, 0x00a1, 0x30c2, 0x20e3, 0x5004, 0x4025, 0x7046, 0x6067,
    0x83b9, 0x9398, 0xa3fb, 0xb3da, 0xc33d, 0xd31c, 0xe37f, 0xf35e,
    0x02b1, 0x1290, 0x22f3, 0x32d2, 0x4235, 0x5214, 0x6277, 0x7256,
    0xb5ea, 0xa5cb, 0x95a8, 0x8589, 0xf56e, 0xe54f, 0xd52c, 0xc50d,
    0x34e2, 0x24c3, 0x14a0, 0x0481, 0x7466, 0x6447, 0x5424, 0x4405,
    0xa7db, 0xb7fa, 0x8799, 0x97b8, 0xe75f, 0xf77e, 0xc71d, 0xd73c,
    0x26d3, 0x36f2, 0x0691, 0x16b0, 0x6657, 0x7676, 0x4615, 0x5634,
    0xd94c, 0xc96d, 0xf90e, 0xe92f, 0x99c8, 0x89e9, 0xb98a, 0xa9ab,
    0x5844, 0x4865, 0x7806, 0x6827, 0x18c0, 0x08e1, 0x3882, 0x28a3,
    0xcb7d, 0xdb5c, 0xeb3f, 0xfb1e, 0x8bf9, 0x9bd8, 0xabbb, 0xbb9a,
    0x4a75, 0x5a54, 0x6a37, 0x7a16, 0x0af1, 0x1ad0, 0x2ab3, 0x3a92,
    0xfd2e, 0xed0f, 0xdd6c, 0xcd4d, 0xbdaa, 0xad8b, 0x9de8, 0x8dc9,
    0x7c26, 0x6c07, 0x5c64, 0x4c45, 0x3ca2, 0x2c83, 0x1ce0, 0x0cc1,
    0xef1f, 0xff3e, 0xcf5d, 0xdf7c, 0xaf9b, 0xbfba, 0x8fd9, 0x9ff8,
    0x6e17, 0x7e36, 0x4e55, 0x5e74, 0x2e93, 0x3eb2, 0x0ed1, 0x1ef0
  ]

/-- Promotion of a `char` to `int`: sign extension where `char` is signed. -/
def promote (signedChar : Bool) (c : UInt8) : UInt32 :=
  if signedChar && 128 ≤ c then c.toUInt32 ||| 0xffffff00 else c.toUInt32

/-- One round of the loop in `crc16`; the assignment to `crc` truncates to 16 bits. -/
def crcStep (signedChar : Bool) (crc : UInt16) (c : UInt8) : UInt16 :=
  let index := ((crc.toUInt32 >>> 8) ^^^ promote signedChar c) &&& 0x00ff
  ((crc.toUInt32 <<< 8) ^^^ (crc16tab.getD index.toNat 0).toUInt32).toUInt16

/-- The loop of `crc16` with `n` rounds to go, at position `i` of the buffer. -/
def crcLoop (signedChar : Bool) (buf : Bytes) : (n i : Nat) → UInt16 → Option UInt16
  | 0, _, crc => some crc
  | n + 1, i, crc =>
    match buf[i]? with
    | none => none
    | some c => crcLoop signedChar buf n (i + 1) (crcStep signedChar crc c)

/-- `SlotHash::crc16(buf + offset, len)`. -/
def crc16 (signedChar : Bool) (buf : Bytes) (offset : Nat) (len : Int) : Option UInt16 :=
  crcLoop signedChar buf len.toNat offset 0

/-- The position at which a loop `for (; i < end; i++) if (key[i] == c) break;` with `n` rounds to go stops. -/
def scan (key : Bytes) (c : UInt8) : (n i : Nat) → Option Nat
  | 0, i => some i
  | n + 1, i =>
    match key[i]? with
    | none => none
    | some d => if d = c then some i else scan key c n (i + 1)

/-- `SlotHash::SlotByKey`, on a platform with a signed or an unsigned `char`. -/
def slotByKey (signedChar : Bool) (key : Bytes) (keylen : Int) : Option UInt32 := do
  let s ← scan key 0x7b keylen.toNat 0
  if (s : Int) = keylen then
    return (← crc16 signedChar key 0 keylen).toUInt32 &&& 0x3fff
  let e ← scan key 0x7d (keylen - (s + 1)).toNat (s + 1)
  if (e : Int) = keylen ∨ e = s + 1 then
    return (← crc16 signedChar key 0 keylen).toUInt32 &&& 0x3fff
  return (← crc16 signedChar key (s + 1) (e - s - 1)).toUInt32 &&& 0x3fff

/-! ### Every read stays within the key -/

private theorem scan_spec (key : Bytes) (c : UInt8) : ∀ (n i : Nat), i + n ≤ key.length →
    ∃ j, scan key c n i = some j ∧ i ≤ j ∧ j ≤ i + n := by
  intro n
  induction n with
  | zero => intro i _; exact ⟨i, rfl, Nat.le_refl _, Nat.le_refl _⟩
  | succ n ih =>
    intro i h
    unfold scan
    rw [List.getElem?_eq_getElem (by omega)]
    dsimp only
    split
    · exact ⟨i, rfl, by omega, by omega⟩
    · obtain ⟨j, hj, h1, h2⟩ := ih (i + 1) (by omega)
      exact ⟨j, hj, by omega, by omega⟩

private theorem crcLoop_isSome (sc : Bool) (buf : Bytes) : ∀ (n i : Nat) (crc : UInt16), i + n ≤ buf.length →
    ∃ r, crcLoop sc buf n i crc = some r := by
  intro n
  induction n with
  | zero => intro i crc _; exact ⟨crc, rfl⟩
  | succ n ih =>
    intro i crc h
    unfold crcLoop
    rw [List.getElem?_eq_getElem (by omega)]
    exact ih (i + 1) _ (by omega)

private theorem masked_lt (crc : UInt16) : crc.toUInt32 &&& 0x3fff < 16384 := by
  rw [UInt32.lt_iff_toNat_lt, UInt32.toNat_and]
  exact Nat.lt_of_le_of_lt Nat.and_le_right (by decide)

/-- A key passed with its own length gets a slot below 16384, and nothing outside the key is read. -/
theorem slotByKey_eq_some (sc : Bool) (key : Bytes) :
    ∃ slot, slotByKey sc key key.length = some slot ∧ slot < 16384 := by
  have whole : ∃ slot, (do
      return (← crc16 sc key 0 key.length).toUInt32 &&& 0x3fff : Option UInt32) = some slot ∧ slot < 16384 := by
    obtain ⟨crc, hcrc⟩ := crcLoop_isSome sc key key.length 0 0 (by omega)
    refine ⟨crc.toUInt32 &&& 0x3fff, ?_, masked_lt crc⟩
    simp [crc16, hcrc]
  obtain ⟨s, hs, -, hs'⟩ := scan_spec key 0x7b key.length 0 (by omega)
  unfold slotByKey
  simp only [Int.toNat_natCast, hs, Option.bind_eq_bind, Option.bind_some]
  split
  · exact whole
  · rename_i hne
    have hlt : s < key.length := by omega
    obtain ⟨e, he, he1, he2⟩ := scan_spec key 0x7d ((key.length : Int) - (s + 1)).toNat (s + 1) (by omega)
    simp only [he, Option.bind_some]
    split
    · exact whole
    · obtain ⟨crc, hcrc⟩ := crcLoop_isSome sc key (e - s - 1) (s + 1) 0 (by omega)
      refine ⟨crc.toUInt32 &&& 0x3fff, ?_, masked_lt crc⟩
      simp [crc16, hcrc]

/-- Whatever is read, the slot is below 16384. -/
theorem slotByKey_lt {sc : Bool} {key : Bytes} {len : Int} {slot : UInt32} (h : slotByKey sc key len = some slot) :
    slot < 16384 := by
  unfold slotByKey at h
  simp only [Option.bind_eq_bind, Option.pure_def] at h
  obtain ⟨s, -, h⟩ := Option.bind_eq_some_iff.1 h
  split at h
  · obtain ⟨crc, -, h⟩ := Option.bind_eq_some_iff.1 h
    cases h
    exact masked_lt crc
  · obtain ⟨e, -, h⟩ := Option.bind_eq_some_iff.1 h
    split at h
    · obtain ⟨crc, -, h⟩ := Option.bind_eq_some_iff.1 h
      cases h
      exact masked_lt crc
    · obtain ⟨crc, -, h⟩ := Option.bind_eq_some_iff.1 h
      cases h
      exact masked_lt crc

/-! ### What follows the key is not read -/

private theorem scan_append (key more : Bytes) (c : UInt8) : ∀ n i : Nat, i + n ≤ key.length →
    scan (key ++ more) c n i = scan key c n i := by
  intro n
  induction n with
  | zero => exact fun i _ => rfl
  | succ n ih =>
    intro i h
    unfold scan
    rw [List.getElem?_append_left (by omega), List.getElem?_eq_getElem (by omega)]
    dsimp only
    split
    · rfl
    · exact ih (i + 1) (by omega)

private theorem crcLoop_append (sc : Bool) (buf more : Bytes) : ∀ (n i : Nat) (crc : UInt16), i + n ≤ buf.length →
    crcLoop sc (buf ++ more) n i crc = crcLoop sc buf n i crc := by
  intro n
  induction n with
  | zero => exact fun i crc _ => rfl
  | succ n ih =>
    intro i crc h
    unfold crcLoop
    rw [List.getElem?_append_left (by omega), List.getElem?_eq_getElem (by omega)]
    exact ih (i + 1) _ (by omega)

/-- A key in front of other bytes gets its own slot. -/
theorem slotByKey_append (sc : Bool) (key more : Bytes) :
    slotByKey sc (key ++ more) key.length = slotByKey sc key key.length := by
  obtain ⟨s, hs, -, hs'⟩ := scan_spec key 0x7b key.length 0 (by omega)
  have whole : crc16 sc (key ++ more) 0 key.length = crc16 sc key 0 key.length :=
    crcLoop_append sc key more _ 0 0 (by omega)
  unfold slotByKey
  rw [Int.toNat_natCast, scan_append _ _ _ _ _ (by omega), hs, whole]
  simp only [Option.bind_eq_bind, Option.bind_some]
  split
  · rfl
  · rename_i hne
    have hlt : s < key.length := by omega
    obtain ⟨e, he, he1, he2⟩ := scan_spec key 0x7d ((key.length : Int) - (s + 1)).toNat (s + 1) (by omega)
    have tag : crc16 sc (key ++ more) (s + 1) (e - s - 1) = crc16 sc key (s + 1) (e - s - 1) :=
      crcLoop_append sc key more _ _ _ (by omega)
    rw [scan_append _ _ _ _ _ (by omega), he]
    simp only [Option.bind_some, tag]

end SlotHash

end HiredisCluster
