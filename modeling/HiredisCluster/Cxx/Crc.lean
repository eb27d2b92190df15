import Mathlib.Algebra.CharP.Two
import Mathlib.Algebra.Field.ZMod
import Mathlib.Algebra.Polynomial.Div

/-!
# Cyclic redundancy codes

A shift register of `w` bits divides a message over the field of two elements, one bit at a time and the most
significant bit first, by a generator whose leading coefficient at `x ^ w` is left implicit.  The register holds the
remainder of `M(x) * x ^ w` (`toPoly_bits_zero`).  A step is linear in the register and in the message bit together
(`bits_xor`), which is what tables indexed by several bits at once rest on.  Messages that differ only within a burst
of `w` bits are told apart (`burst_eq_of_bits_eq`).
-/

namespace Cxx

namespace Crc

open Polynomial

variable {w : Nat}

/-- What a bit step subtracts: the generator, when a bit of the message has reached its leading term. -/
def subtrahend (g : BitVec w) (b : Bool) : BitVec w := if b then g else 0

/-- One bit step: the bit that leaves the register and the message bit decide whether the generator is subtracted. -/
def shift (g r : BitVec w) (b : Bool) : BitVec w := (r <<< 1) ^^^ subtrahend g (r.msb ^^ b)

/-- The register after the bits of a message. -/
def bits (g r : BitVec w) (bs : List Bool) : BitVec w := bs.foldl (shift g) r

@[simp] theorem bits_nil (g r : BitVec w) : bits g r [] = r := rfl

@[simp] theorem bits_cons (g r : BitVec w) (b : Bool) (bs : List Bool) :
    bits g r (b :: bs) = bits g (shift g r b) bs := rfl

theorem bits_append (g r : BitVec w) (bs cs : List Bool) : bits g r (bs ++ cs) = bits g (bits g r bs) cs :=
  List.foldl_append

/-- The first `k` bits of a word, the most significant first. -/
def leading (k : Nat) (r : BitVec w) : List Bool := (List.range k).map r.getMsbD

@[simp] theorem length_leading (k : Nat) (r : BitVec w) : (leading k r).length = k := by simp [leading]

/-- The bits of an octet. -/
def octet (c : UInt8) : List Bool := leading 8 c.toBitVec

@[simp] theorem length_octet (c : UInt8) : (octet c).length = 8 := length_leading 8 _

/-! ### Linearity -/

private theorem subtrahend_xor (g : BitVec w) (b c : Bool) : subtrahend g
    (b ^^ c) = subtrahend g b ^^^ subtrahend g c := by
  cases b <;> cases c <;> simp [subtrahend]

private theorem shift_xor (g r s : BitVec w) (b c : Bool) : shift g (r ^^^ s)
    (b ^^ c) = shift g r b ^^^ shift g s c := by
  unfold shift
  have bits : ((r ^^^ s).msb ^^ (b ^^ c)) = ((r.msb ^^ b) ^^ (s.msb ^^ c)) := by
    rw [BitVec.msb_xor, Bool.xor_assoc, Bool.xor_assoc, Bool.xor_left_comm s.msb]
  rw [bits, subtrahend_xor, BitVec.shiftLeft_xor_distrib]
  ac_rfl

/-- The code is linear: messages of one length may be added up, together with the registers they start from. -/
theorem bits_xor (g : BitVec w) : ∀ (bs cs : List Bool) (r s : BitVec w), bs.length = cs.length →
    bits g (r ^^^ s) (List.zipWith Bool.xor bs cs) = bits g r bs ^^^ bits g s cs := by
  intro bs
  induction bs with
  | nil =>
    intro cs r s h
    obtain rfl : cs = [] := List.length_eq_zero_iff.1 h.symm
    rfl
  | cons b bs ih =>
    intro cs r s h
    cases cs with
    | nil => cases h
    | cons c cs =>
      rw [List.zipWith_cons_cons, bits_cons, bits_cons, bits_cons, shift_xor]
      exact ih cs _ _ (Nat.succ.inj h)

private theorem leading_succ (k : Nat) (r : BitVec w) : leading (k + 1) r = r.msb :: leading k (r <<< 1) := by
  have later : ∀ i, r.getMsbD (i + 1) = (r <<< 1).getMsbD i := by
    intro i
    rw [BitVec.getMsbD_shiftLeft]
  simp only [leading, List.range_succ_eq_map, List.map_cons, List.map_map, BitVec.msb, Function.comp_def, later]

/-- A message equal to the leading bits of the register pushes them out without a subtraction. -/
private theorem bits_leading (g : BitVec w) (k : Nat) (r : BitVec w) : bits g r (leading k r) = r <<< k := by
  induction k generalizing r with
  | zero => simp [leading]
  | succ k ih =>
    have step : shift g r r.msb = r <<< 1 := by simp [shift, subtrahend]
    rw [leading_succ, bits_cons, step, ih, ← BitVec.shiftLeft_add, Nat.add_comm]

private theorem zipWith_xor_cancel {as bs : List Bool} (h : as.length = bs.length) :
    List.zipWith Bool.xor as (List.zipWith Bool.xor as bs) = bs := by
  induction as generalizing bs with
  | nil => rw [List.length_eq_zero_iff.1 h.symm]; rfl
  | cons a as ih =>
    cases bs with
    | nil => cases h
    | cons b bs =>
      rw [List.zipWith_cons_cons, List.zipWith_cons_cons, ih (Nat.succ.inj h)]
      simp

/-- Several bits at once: what a message does to the register depends on the leading bits only, and a table may hold
it. -/
theorem bits_eq_shiftLeft_xor (g r : BitVec w) (bs : List Bool) :
    bits g r bs = (r <<< bs.length) ^^^ bits g 0 (List.zipWith Bool.xor (leading bs.length r) bs) := by
  have start : r ^^^ (0 : BitVec w) = r := BitVec.xor_zero
  have split := bits_xor g (leading bs.length r) (List.zipWith Bool.xor (leading bs.length r) bs) r 0 (by simp)
  rw [zipWith_xor_cancel (length_leading _ _), start, bits_leading] at split
  exact split

/-! ### Bursts -/

section

variable {g r s : BitVec w} (hg : g.getLsbD 0 = true)
include hg

/-- The last bit of the register is the one that decided about the subtraction. -/
private theorem getLsbD_shift_zero (r : BitVec w) (b : Bool) : (shift g r b).getLsbD 0 = (r.msb ^^ b) := by
  have hw : 0 < w := BitVec.lt_of_getLsbD hg
  rw [shift, BitVec.getLsbD_xor, BitVec.getLsbD_shiftLeft]
  cases hb : (r.msb ^^ b) <;> simp [subtrahend, hg]

/-- Equal registers after messages of one length were equal before, up to the bits that the messages pushed out. -/
private theorem getLsbD_eq_of_bits_eq : ∀ {m m' : List Bool} {r s : BitVec w}, m.length = m'.length →
    bits g r m = bits g s m' → ∀ i, i + m.length < w → r.getLsbD i = s.getLsbD i := by
  intro m
  induction m with
  | nil =>
    intro m' r s hlen h i _
    obtain rfl : m' = [] := List.length_eq_zero_iff.1 hlen.symm
    rw [show r = s from h]
  | cons b m ih =>
    intro m' r s hlen h i hi
    cases m' with
    | nil => cases hlen
    | cons c m' =>
      rw [List.length_cons] at hi
      have agree := ih (Nat.succ.inj hlen) h
      have same : (r.msb ^^ b) = (s.msb ^^ c) := by
        have hzero := agree 0 (by omega)
        rwa [getLsbD_shift_zero hg, getLsbD_shift_zero hg] at hzero
      have hnext := agree (i + 1) (by omega)
      unfold shift at hnext
      rw [same, BitVec.getLsbD_xor, BitVec.getLsbD_xor, BitVec.getLsbD_shiftLeft, BitVec.getLsbD_shiftLeft] at hnext
      simpa [show i + 1 < w by omega] using hnext

/-- A message changes no bit of the register without a trace. -/
private theorem eq_of_bits_eq {m : List Bool} (h : bits g r m = bits g s m) : r = s := by
  induction m generalizing r s with
  | nil => exact h
  | cons b m ih =>
    have hstep : shift g r b = shift g s b := ih h
    have hw : 0 < w := BitVec.lt_of_getLsbD hg
    have hmsb : r.msb = s.msb := by
      have hzero := congrArg (BitVec.getLsbD · 0) hstep
      simp only [getLsbD_shift_zero hg] at hzero
      simpa using hzero
    have hlast : bits g r [b] = bits g s [b] := hstep
    have agree := getLsbD_eq_of_bits_eq hg rfl hlast
    apply BitVec.eq_of_getLsbD_eq
    intro i hi
    by_cases htop : i + 1 = w
    · obtain rfl : i = w - 1 := by omega
      rwa [BitVec.msb_eq_getLsbD_last, BitVec.msb_eq_getLsbD_last] at hmsb
    · exact agree i (by rw [List.length_singleton]; omega)

/-- A register of `w` bits tells all messages of up to `w` bits apart. -/
private theorem message_eq_of_bits_eq : ∀ {m m' : List Bool} {r : BitVec w}, m.length = m'.length → m.length ≤ w →
    bits g r m = bits g r m' → m = m' := by
  intro m
  induction m with
  | nil => exact fun hlen _ _ => (List.length_eq_zero_iff.1 hlen.symm).symm
  | cons b m ih =>
    intro m' r hlen hw h
    cases m' with
    | nil => cases hlen
    | cons c m' =>
      rw [List.length_cons] at hw
      have hzero := getLsbD_eq_of_bits_eq hg (Nat.succ.inj hlen) h 0 (by omega)
      rw [getLsbD_shift_zero hg, getLsbD_shift_zero hg] at hzero
      obtain rfl : b = c := by simpa using hzero
      rw [ih (Nat.succ.inj hlen) (by omega) h]

/-- Messages that differ only within a burst of `w` bits have different codes. -/
theorem burst_eq_of_bits_eq {m m' : List Bool} (pre post : List Bool) (hlen : m.length = m'.length) (hw : m.length ≤ w)
    (h : bits g r (pre ++ m ++ post) = bits g r (pre ++ m' ++ post)) : m = m' := by
  simp only [bits_append] at h
  exact message_eq_of_bits_eq hg hlen hw (eq_of_bits_eq hg h)

end

theorem octet_inj {c d : UInt8} (h : octet c = octet d) : c = d := by
  have all : ∀ i : Nat, i < 8 → c.toBitVec.getMsbD i = d.toBitVec.getMsbD i := by
    intro i hi
    have hat := congrArg (·[i]?) h
    simpa [octet, leading, hi] using hat
  exact UInt8.toBitVec_inj.1 (BitVec.eq_of_getMsbD_eq all)

/-! ### The remainder of the polynomial division -/

/-- The polynomial whose coefficients are the bits of a word. -/
noncomputable def toPoly (r : BitVec w) : (ZMod 2)[X] :=
  ∑ i ∈ Finset.range w, if r.getLsbD i then X ^ i else 0

/-- The divisor, with its leading term. -/
noncomputable def generator (g : BitVec w) : (ZMod 2)[X] := X ^ w + toPoly g

/-- A bit as a constant. -/
noncomputable def bit (b : Bool) : (ZMod 2)[X] := if b then 1 else 0

/-- The polynomial of a message, its first bit the leading coefficient. -/
noncomputable def message (bs : List Bool) : (ZMod 2)[X] := bs.foldl (fun m b => m * X + bit b) 0

private theorem bit_xor (b c : Bool) : bit (b ^^ c) = bit b + bit c := by
  cases b <;> cases c <;> simp [bit, CharTwo.add_self_eq_zero]

private theorem toPoly_eq (r : BitVec w) : toPoly r = ∑ i ∈ Finset.range w, bit (r.getLsbD i) * X ^ i := by
  unfold toPoly bit
  apply Finset.sum_congr rfl
  intro i _
  split <;> simp

@[simp] theorem toPoly_zero : toPoly (0 : BitVec w) = 0 := by simp [toPoly]

private theorem toPoly_xor (r s : BitVec w) : toPoly (r ^^^ s) = toPoly r + toPoly s := by
  rw [toPoly_eq, toPoly_eq, toPoly_eq, ← Finset.sum_add_distrib]
  apply Finset.sum_congr rfl
  intro i _
  rw [BitVec.getLsbD_xor, bit_xor, add_mul]

private theorem toPoly_subtrahend (g : BitVec w) (b : Bool) : toPoly (subtrahend g b) = bit b * toPoly g := by
  cases b with
  | true => simp [subtrahend, bit]
  | false => rw [subtrahend, if_neg Bool.false_ne_true, toPoly_zero, bit, if_neg Bool.false_ne_true, zero_mul]

private theorem degree_toPoly_lt (r : BitVec w) : (toPoly r).degree < w := by
  rw [toPoly, Polynomial.degree_lt_iff_coeff_zero]
  intro m hm
  rw [Polynomial.finsetSum_coeff]
  apply Finset.sum_eq_zero
  intro i hi
  rw [Finset.mem_range] at hi
  split
  · rw [Polynomial.coeff_X_pow, if_neg (by omega)]
  · rfl

private theorem generator_monic (g : BitVec w) : (generator g).Monic := Polynomial.monic_X_pow_add (degree_toPoly_lt g)

private theorem degree_generator (g : BitVec w) : (generator g).degree = w := by
  rw [generator, Polynomial.degree_add_eq_left_of_degree_lt, Polynomial.degree_X_pow]
  rw [Polynomial.degree_X_pow]
  exact degree_toPoly_lt g

/-- Shifting the register multiplies by `x`, up to the bit that leaves it. -/
private theorem toPoly_shiftLeft (r : BitVec w) : toPoly (r <<< 1) + bit r.msb * X ^ w = toPoly r * X := by
  cases w with
  | zero => simp [toPoly, BitVec.of_length_zero, bit]
  | succ w =>
    rw [toPoly_eq, toPoly_eq, Finset.sum_range_succ', Finset.sum_mul]
    rw [Finset.sum_range_succ _ w]
    have low : ∀ i ∈ Finset.range w, bit ((r <<< 1).getLsbD (i + 1)) * X ^ (i + 1) = bit (r.getLsbD i) * X ^ i * X := by
      intro i hi
      rw [Finset.mem_range] at hi
      rw [BitVec.getLsbD_shiftLeft, pow_succ, mul_assoc]
      simp [hi]
    rw [Finset.sum_congr rfl low, BitVec.getLsbD_shiftLeft, BitVec.msb_eq_getLsbD_last]
    simp [bit, pow_succ]

/-- One bit step, as polynomials: the next bit is appended and a multiple of the generator is added. -/
private theorem toPoly_shift (g r : BitVec w) (b : Bool) :
    toPoly (shift g r b) + bit (r.msb ^^ b) * generator g = toPoly r * X + bit b * X ^ w := by
  have two : bit (r.msb ^^ b) * toPoly g + bit (r.msb ^^ b) * toPoly g = 0 := CharTwo.add_self_eq_zero _
  calc toPoly (shift g r b) + bit (r.msb ^^ b) * generator g
      = toPoly (r <<< 1) + bit (r.msb ^^ b) * X ^ w + (bit (r.msb ^^ b) * toPoly g + bit (r.msb ^^ b) * toPoly g) := by
        rw [shift, toPoly_xor, toPoly_subtrahend, generator]; ring
    _ = toPoly (r <<< 1) + bit r.msb * X ^ w + bit b * X ^ w := by rw [two, bit_xor]; ring
    _ = toPoly r * X + bit b * X ^ w := by rw [toPoly_shiftLeft]

/-- The register stays congruent to what has been read: a start value shifted along, and the message. -/
private theorem toPoly_bits (g : BitVec w) (r : BitVec w) (bs : List Bool) :
    ∃ q, toPoly (bits g r bs) + q * generator g = toPoly r * X ^ bs.length + message bs * X ^ w := by
  induction bs using List.reverseRecOn with
  | nil => exact ⟨0, by simp [message]⟩
  | append_singleton bs b ih =>
    obtain ⟨q, hq⟩ := ih
    refine ⟨bit ((bits g r bs).msb ^^ b) + q * X, ?_⟩
    have step := toPoly_shift g (bits g r bs) b
    have hm : message (bs ++ [b]) = message bs * X + bit b := by simp [message]
    rw [bits_append, hm, List.length_append, List.length_singleton]
    calc toPoly (shift g (bits g r bs) b) + (bit ((bits g r bs).msb ^^ b) + q * X) * generator g
        = toPoly (bits g r bs) * X + bit b * X ^ w + q * X * generator g := by rw [← step]; ring
      _ = (toPoly (bits g r bs) + q * generator g) * X + bit b * X ^ w := by ring
      _ = toPoly r * X ^ (bs.length + 1) + (message bs * X + bit b) * X ^ w := by rw [hq, pow_succ]; ring

/-- From the zero register, the code of a message is the remainder of `M(x) * x ^ w`. -/
theorem toPoly_bits_zero (g : BitVec w) (bs : List Bool) :
    toPoly (bits g 0 bs) = (message bs * X ^ w) %ₘ generator g := by
  obtain ⟨q, hq⟩ := toPoly_bits g 0 bs
  rw [toPoly_zero, zero_mul, zero_add] at hq
  have unique := Polynomial.div_modByMonic_unique q (toPoly (bits g 0 bs)) (generator_monic g)
    ⟨by rw [mul_comm, hq], by rw [degree_generator]; exact degree_toPoly_lt _⟩
  exact unique.2.symm

end Crc

end Cxx
