import HiredisCluster.Cxx.Odometer
import HiredisCluster.SlotSpread
import HiredisCluster.World

/-!
# The test of one slot (`testing.cpp`)

`testOneSLot` counts through the printable strings of some length, calls `func` for those that fall into slot 1 and counts
its calls in an `int`.  Its buffer is an odometer, and a carry leaves a string in it that was there before; so the calls are
the keys of the slot, each as often as `sweep` shows it (`testOneSLot_calls`).  Up to six characters the counter holds their
number (`length_keysOf_lt`): a key is in slot 1 for a hash tag or for its own code, and of the keys that differ only in their
first two characters at most four have such a code.
-/

namespace HiredisCluster

open Cxx

namespace TestOneSlot

def maxprintable : UInt8 := 127

def minprintable : UInt8 := 33

/-- The local variables of `testOneSLot`. -/
structure Locals where
  str : Bytes
  depth : Nat
  keysSlotCntr : Int32

/-- `++` on an `int`, undefined for the largest one. -/
def increment {ε : Type} (n : Int32) : Outcome ε Int32 :=
  if n = Int32.maxValue then .undefined else .ret (n + 1)

/-- The end of a round: `++str[depth]`, and where the next round does it. -/
def Locals.advance {ε : Type} (s : Locals) : Outcome ε Locals :=
  match s.str[s.depth]? with
  | none => .undefined
  | some c =>
    if maxprintable ≤ c + 1 then .ret { s with str := s.str.set s.depth minprintable, depth := s.depth + 1 }
    else .ret { s with str := s.str.set s.depth (c + 1), depth := 0 }

section loop

variable {σ ε : Type} (sc : Bool) (func : Bytes → Code σ ε Unit) (maxdepth : Nat)

/-- One round of the loop; `func` gets the C string that the buffer holds, and does not write into the buffer. -/
def round (s : Locals) : Code σ ε Locals := do
  match SlotHash.slotByKey sc s.str maxdepth with
  | none => Code.undefined
  | some slot =>
    if slot = 1 then
      func (cStr s.str)
      let n ← Code.lift (increment s.keysSlotCntr)
      Code.lift { s with keysSlotCntr := n }.advance
    else
      Code.lift s.advance

/-- The loop, with at most `fuel` rounds to go. -/
def loop : (fuel : Nat) → Locals → Code σ ε (Option Int32)
  | 0, _ => return none
  | fuel + 1, s => do
    let s ← round sc func maxdepth s
    if s.depth = maxdepth then return some s.keysSlotCntr
    loop fuel s

end loop

end TestOneSlot

open TestOneSlot in
/-- `testOneSLot`, with at most `fuel` rounds; the result is the count that it prints. -/
def testOneSLot {σ ε : Type} (sc : Bool) (func : Bytes → Code σ ε Unit) (maxdepth fuel : Nat) :
    Code σ ε (Option Int32) :=
  loop sc func maxdepth fuel { str := List.replicate maxdepth minprintable ++ [0], depth := 0, keysSlotCntr := 0 }

namespace TestOneSlot

/-! ### The digits -/

/-- The last `m` of the characters that count. -/
def lastDigits (m : Nat) : List UInt8 := (List.range' (127 - m) m).map UInt8.ofNat

/-- The characters from `minprintable` to the last one before `maxprintable`. -/
def printable : List UInt8 := lastDigits 94

private theorem lastDigits_succ {m : Nat} (h : m < 127) :
    lastDigits (m + 1) = UInt8.ofNat (126 - m) :: lastDigits m := by
  unfold lastDigits
  have hstart : 127 - (m + 1) = 126 - m := by omega
  have hnext : 126 - m + 1 = 127 - m := by omega
  rw [hstart, List.range'_succ, List.map_cons, hnext]

private theorem mem_printable (c : UInt8) : c ∈ printable ↔ minprintable ≤ c ∧ c < maxprintable := by
  have hmin : minprintable.toNat = 33 := rfl
  have hmax : maxprintable.toNat = 127 := rfl
  unfold printable lastDigits
  rw [List.mem_map, UInt8.le_iff_toNat_le, UInt8.lt_iff_toNat_lt, hmin, hmax]
  constructor
  · rintro ⟨n, hn, rfl⟩
    have hrange := List.mem_range'_1.1 hn
    rw [UInt8.toNat_ofNat']
    omega
  · intro h
    exact ⟨c.toNat, List.mem_range'_1.2 (by omega), UInt8.ofNat_toNat⟩

private theorem printable_nodup : printable.Nodup := by
  unfold printable lastDigits
  apply List.Nodup.map_on ?_ List.nodup_range'
  intro m hm n hn h
  have hm' := List.mem_range'_1.1 hm
  have hn' := List.mem_range'_1.1 hn
  have heq := congrArg UInt8.toNat h
  rw [UInt8.toNat_ofNat', UInt8.toNat_ofNat'] at heq
  omega

private theorem length_printable : printable.length = 94 := by decide +kernel

private theorem minprintable_mem : minprintable ∈ printable := (mem_printable _).2 (by decide)

/-! ### One round -/

/-- A key of slot 1. -/
def inSlot (sc : Bool) (key : Bytes) : Bool := SlotHash.slotByKey sc key key.length = some 1

section rounds

variable {σ ε : Type} {sc : Bool} {func : Bytes → Code σ ε Unit} {maxdepth : Nat}

/-- A call, which is counted. -/
def call (func : Bytes → Code σ ε Unit) (n : Int32) (key : Bytes) : Code σ ε Int32 := do
  func key
  Code.lift (increment n)

/-- What is done about a string that the buffer holds. -/
def visit (sc : Bool) (func : Bytes → Code σ ε Unit) (n : Int32) (key : Bytes) : Code σ ε Int32 :=
  if inSlot sc key = true then call func n key else pure n

private theorem foldlM_visit (strings : List Bytes) (n : Int32) :
    strings.foldlM (visit sc func) n = (strings.filter (inSlot sc)).foldlM (call func) n :=
  List.foldlM_filter.symm

/-- A round with a key of the right length in the buffer. -/
private theorem round_eq {key : Bytes} (hlen : key.length = maxdepth) (hnul : 0 ∉ key) (depth : Nat) (n : Int32) :
    round sc func maxdepth ⟨key ++ [0], depth, n⟩ = (do
      let n ← visit sc func n key
      Code.lift (Locals.advance ⟨key ++ [0], depth, n⟩)) := by
  have hstr : cStr (key ++ [0]) = key := by
    unfold cStr
    rw [List.takeWhile_append_of_pos]
    · simp
    · intro c hc
      exact decide_eq_true fun h => hnul (h ▸ hc)
  unfold round visit call
  dsimp only
  obtain ⟨slot, hslot, -⟩ := SlotHash.slotByKey_eq_some sc key
  rw [← hlen, SlotHash.slotByKey_append, hslot]
  dsimp only
  by_cases h : slot = 1
  · have hin : inSlot sc key = true := by
      unfold inSlot
      rw [hslot, h]
      exact decide_eq_true rfl
    rw [if_pos h, if_pos hin, hstr, bind_assoc]
  · have hin : ¬ inSlot sc key = true := by
      unfold inSlot
      rw [hslot]
      simpa using h
    rw [if_neg h, if_neg hin, pure_bind]

/-- Before the next round. -/
def resume (sc : Bool) (func : Bytes → Code σ ε Unit) (maxdepth fuel : Nat) (s : Locals) : Code σ ε (Option Int32) :=
  if s.depth = maxdepth then return some s.keysSlotCntr else loop sc func maxdepth fuel s

private theorem loop_succ (fuel : Nat) (s : Locals) :
    loop sc func maxdepth (fuel + 1) s = round sc func maxdepth s >>= resume sc func maxdepth fuel := rfl

/-! ### The sweep of the buffer -/

/-- Position `k` overflows: it is set back, and the next round changes the one behind it. -/
private theorem advance_last {k : Nat} {c : UInt8} (hc : maxprintable ≤ c + 1) (rest : Bytes) (n : Int32) :
    (Locals.advance ⟨List.replicate k minprintable ++ c :: rest ++ [0], k, n⟩ : Outcome ε Locals) =
      .ret ⟨List.replicate (k + 1) minprintable ++ rest ++ [0], k + 1, n⟩ := by
  unfold Locals.advance
  simp [hc, List.replicate_succ']

/-- Position `k` is changed, and the next round starts at the first position again. -/
private theorem advance_next {k : Nat} {c : UInt8} (hc : ¬ maxprintable ≤ c + 1) (rest : Bytes) (n : Int32) :
    (Locals.advance ⟨List.replicate k minprintable ++ c :: rest ++ [0], k, n⟩ : Outcome ε Locals) =
      .ret ⟨List.replicate k minprintable ++ (c + 1) :: rest ++ [0], 0, n⟩ := by
  unfold Locals.advance
  simp [hc]

/-- The rounds that show the strings `shown` lead from the state `s` to the depth `k`, the buffer being as it was. -/
def Shows (sc : Bool) (func : Bytes → Code σ ε Unit) (maxdepth : Nat) (shown : List Bytes) (s s' : Bytes × Nat) : Prop :=
  ∀ fuel n, resume sc func maxdepth (fuel + shown.length) ⟨s.1, s.2, n⟩ = (do
    let n ← shown.foldlM (visit sc func) n
    resume sc func maxdepth fuel ⟨s'.1, s'.2, n⟩)

private theorem Shows.refl (s : Bytes × Nat) : Shows sc func maxdepth [] s s := fun _ _ => rfl

private theorem Shows.trans {l₁ l₂ : List Bytes} {s₁ s₂ s₃ : Bytes × Nat} (h₁ : Shows sc func maxdepth l₁ s₁ s₂)
    (h₂ : Shows sc func maxdepth l₂ s₂ s₃) : Shows sc func maxdepth (l₁ ++ l₂) s₁ s₃ := by
  intro fuel n
  have hfuel : fuel + (l₁ ++ l₂).length = fuel + l₂.length + l₁.length := by
    rw [List.length_append]
    omega
  rw [hfuel, h₁, List.foldlM_append, bind_assoc]
  congr 1
  funext n
  exact h₂ fuel n

/-- One round. -/
private theorem Shows.round {key : Bytes} (hlen : key.length = maxdepth) (hnul : 0 ∉ key) {k : Nat} (hk : k ≠ maxdepth)
    {s' : Bytes × Nat} (h : ∀ n, (Locals.advance ⟨key ++ [0], k, n⟩ : Outcome ε Locals) = .ret ⟨s'.1, s'.2, n⟩) :
    Shows sc func maxdepth [key] (key ++ [0], k) s' := by
  intro fuel n
  have hstart : resume sc func maxdepth (fuel + 1) ⟨key ++ [0], k, n⟩ = loop sc func maxdepth (fuel + 1) ⟨key ++ [0], k, n⟩ :=
    if_neg hk
  rw [List.length_singleton]
  dsimp only
  rw [hstart, loop_succ, round_eq hlen hnul, bind_assoc, List.foldlM_cons, bind_assoc]
  congr 1
  funext n
  rw [h]
  rfl

/-- Where the buffer is after position `k` was changed. -/
def changed (k : Nat) (c : UInt8) (rest : Bytes) : Bytes × Nat :=
  if maxprintable ≤ c + 1 then (List.replicate (k + 1) minprintable ++ rest ++ [0], k + 1)
  else (List.replicate k minprintable ++ (c + 1) :: rest ++ [0], 0)

/-- The round in which position `k` is changed, all before it being at the first character. -/
private theorem shows_change {k : Nat} {c : UInt8} {rest : Bytes} (hk : k + (c :: rest).length = maxdepth)
    (hrest : ∀ d ∈ c :: rest, d ∈ printable) :
    Shows sc func maxdepth [List.replicate k minprintable ++ c :: rest]
      (List.replicate k minprintable ++ c :: rest ++ [0], k) (changed k c rest) := by
  have hnul : (0 : UInt8) ∉ List.replicate k minprintable ++ c :: rest := by
    intro h0
    rcases List.mem_append.1 h0 with h0 | h0
    · exact absurd (List.eq_of_mem_replicate h0) (by decide)
    · exact absurd ((mem_printable 0).1 (hrest 0 h0)).1 (by decide)
  apply Shows.round (by rw [List.length_append, List.length_replicate, hk]) hnul
  · rw [List.length_cons] at hk
    omega
  · intro n
    unfold changed
    by_cases hc : maxprintable ≤ c + 1
    · rw [advance_last hc, if_pos hc]
    · rw [advance_next hc, if_neg hc]

private theorem changed_last (k : Nat) (rest : Bytes) :
    changed k (UInt8.ofNat 126) rest = (List.replicate (k + 1) minprintable ++ rest ++ [0], k + 1) := rfl

private theorem changed_next {m : Nat} (hm : m < 93) (k : Nat) (rest : Bytes) :
    changed k (UInt8.ofNat (126 - (m + 1))) rest =
      (List.replicate k minprintable ++ UInt8.ofNat (126 - m) :: rest ++ [0], 0) := by
  have digit : ∀ i : Fin 93, ¬ maxprintable ≤ UInt8.ofNat (126 - (i.val + 1)) + 1 ∧
      UInt8.ofNat (126 - (i.val + 1)) + 1 = UInt8.ofNat (126 - i.val) := by decide +kernel
  obtain ⟨hsmall, hnext⟩ := digit ⟨m, hm⟩
  unfold changed
  rw [if_neg hsmall, hnext]

/-- The first `k` positions run through all their strings, from the first string back to it. -/
private theorem shows_sweep {k : Nat} {rest : Bytes} (hk : k + rest.length = maxdepth)
    (hrest : ∀ c ∈ rest, c ∈ printable) :
    Shows sc func maxdepth (sweep minprintable printable k rest) (List.replicate k minprintable ++ rest ++ [0], 0)
      (List.replicate k minprintable ++ rest ++ [0], k) := by
  induction k generalizing rest with
  | zero => exact .refl _
  | succ k ih =>
    have digit : ∀ m, m < 94 → Shows sc func maxdepth
        (sweep minprintable printable k (UInt8.ofNat (126 - m) :: rest) ++
          [List.replicate k minprintable ++ UInt8.ofNat (126 - m) :: rest])
        (List.replicate k minprintable ++ UInt8.ofNat (126 - m) :: rest ++ [0], 0)
        (changed k (UInt8.ofNat (126 - m)) rest) := by
      intro m hm
      have hdigit : UInt8.ofNat (126 - m) ∈ printable := by
        unfold printable lastDigits
        exact List.mem_map_of_mem (List.mem_range'_1.2 (by omega))
      have hstring : ∀ c ∈ UInt8.ofNat (126 - m) :: rest, c ∈ printable := by
        intro c hc
        rcases List.mem_cons.1 hc with rfl | hc
        · exact hdigit
        · exact hrest c hc
      have hlen : k + (UInt8.ofNat (126 - m) :: rest).length = maxdepth := by
        rw [List.length_cons]
        omega
      exact (ih hlen hstring).trans (shows_change hlen hstring)
    -- position `k` runs through the digits that are left, by induction on their number
    have digits : ∀ m, m < 94 → Shows sc func maxdepth
        ((lastDigits (m + 1)).flatMap fun x =>
          sweep minprintable printable k (x :: rest) ++ [List.replicate k minprintable ++ x :: rest])
        (List.replicate k minprintable ++ UInt8.ofNat (126 - m) :: rest ++ [0], 0)
        (List.replicate (k + 1) minprintable ++ rest ++ [0], k + 1) := by
      intro m
      induction m with
      | zero =>
        intro hm
        rw [lastDigits_succ (by omega), List.flatMap_cons, ← changed_last]
        exact (digit 0 hm).trans (.refl _)
      | succ m ihm =>
        intro hm
        have hnext := digit (m + 1) hm
        rw [changed_next (by omega)] at hnext
        rw [lastDigits_succ (by omega), List.flatMap_cons]
        exact hnext.trans (ihm (by omega))
    have hall := digits 93 (by omega)
    have hfirst : List.replicate k minprintable ++ UInt8.ofNat (126 - 93) :: rest ++ [0] =
        List.replicate (k + 1) minprintable ++ rest ++ [0] := by
      simp [List.replicate_succ', minprintable]
    rw [hfirst] at hall
    exact hall

end rounds

/-! ### The whole loop -/

/-- The keys for which `func` is called, in this order. -/
def keysOf (sc : Bool) (maxdepth : Nat) : List Bytes :=
  (sweep minprintable printable maxdepth []).filter (inSlot sc)

theorem mem_keysOf {sc : Bool} {maxdepth : Nat} {key : Bytes} (h : key ∈ keysOf sc maxdepth) :
    key.length = maxdepth ∧ (∀ c ∈ key, minprintable ≤ c ∧ c < maxprintable) ∧
      SlotHash.slotByKey sc key key.length = some 1 := by
  obtain ⟨hkey, hslot⟩ := List.mem_filter.1 h
  obtain ⟨p, hlen, rfl⟩ := mem_sweep hkey
  refine ⟨by simpa using hlen, fun c hc => ?_, of_decide_eq_true hslot⟩
  rcases forall_mem_sweep minprintable_mem hkey c hc with h | h
  · exact (mem_printable c).1 h
  · exact absurd h List.not_mem_nil

private theorem count_keysOf (sc : Bool) (key : Bytes) (hprintable : ∀ c ∈ key, minprintable ≤ c ∧ c < maxprintable)
    (hslot : SlotHash.slotByKey sc key key.length = some 1) :
    (keysOf sc key.length).count key = min (leading minprintable key + 1) key.length := by
  have hcount := count_sweep minprintable printable_nodup
    (fun c hc => (mem_printable c).2 (hprintable c hc)) []
  have hin : inSlot sc key = true := decide_eq_true hslot
  rw [List.append_nil] at hcount
  unfold keysOf
  rw [List.count_filter hin, hcount]

private theorem slotByKey_empty (sc : Bool) (more : Bytes) : SlotHash.slotByKey sc more 0 = some 0 := by
  have h := SlotHash.slotByKey_append sc [] more
  rw [List.nil_append, List.length_nil] at h
  rw [show (0 : Int) = ((0 : Nat) : Int) from rfl, h]
  cases sc <;> decide

theorem mem_keysOf_iff {sc : Bool} {maxdepth : Nat} (key : Bytes) : key ∈ keysOf sc maxdepth ↔
    key.length = maxdepth ∧ (∀ c ∈ key, minprintable ≤ c ∧ c < maxprintable) ∧
      SlotHash.slotByKey sc key key.length = some 1 := by
  constructor
  · exact mem_keysOf
  · rintro ⟨rfl, hprintable, hslot⟩
    have hcount := count_keysOf sc key hprintable hslot
    have hlen : key.length ≠ 0 := by
      intro h
      rw [h, show ((0 : Nat) : Int) = 0 from rfl, slotByKey_empty] at hslot
      cases hslot
    apply List.count_pos_iff.1
    omega

/-- The loop ends, after it has called `func` for these keys and counted the calls. -/
private theorem testOneSLot_eq {σ ε : Type} (sc : Bool) (func : Bytes → Code σ ε Unit) (maxdepth fuel : Nat) :
    testOneSLot sc func maxdepth (2 * 94 ^ maxdepth + fuel) = (do
      let n ← (keysOf sc maxdepth).foldlM (call func) 0
      return some n) := by
  by_cases hzero : maxdepth = 0
  · -- the only round finds the empty key, which is in slot 0, and changes the terminator
    subst hzero
    have hfuel : 2 * 94 ^ 0 + fuel = fuel + 1 + 1 := by omega
    have hround : round sc func 0 ⟨[0], 0, 0⟩ = pure ⟨[1], 0, 0⟩ := by
      unfold round
      rw [show ((0 : Nat) : Int) = 0 from rfl, slotByKey_empty]
      rfl
    have hstart : testOneSLot sc func 0 (fuel + 1 + 1) = loop sc func 0 (fuel + 1 + 1) ⟨[0], 0, 0⟩ := rfl
    rw [hfuel, hstart, loop_succ, hround, pure_bind]
    rfl
  · have hlength : (sweep minprintable printable maxdepth []).length ≤ carried printable.length 0 maxdepth :=
      length_sweep_le maxdepth []
    have hcarried := carried_zero_le (show 2 ≤ 94 by omega) maxdepth
    rw [length_printable] at hlength
    let more := 2 * 94 ^ maxdepth + fuel - (sweep minprintable printable maxdepth []).length
    have hfuel : 2 * 94 ^ maxdepth + fuel = more + (sweep minprintable printable maxdepth []).length := by omega
    have hsweep : Shows sc func maxdepth (sweep minprintable printable maxdepth [])
        (List.replicate maxdepth minprintable ++ [] ++ [0], 0)
        (List.replicate maxdepth minprintable ++ [] ++ [0], maxdepth) :=
      shows_sweep rfl fun c hc => absurd hc List.not_mem_nil
    have hshows := hsweep more 0
    rw [← hfuel, List.append_nil, foldlM_visit] at hshows
    have hstart : ∀ s : Locals, s.depth = 0 → resume sc func maxdepth (2 * 94 ^ maxdepth + fuel) s =
        loop sc func maxdepth (2 * 94 ^ maxdepth + fuel) s := fun s hs => if_neg (hs ▸ Ne.symm hzero)
    rw [hstart _ rfl] at hshows
    refine hshows.trans ?_
    congr 1
    funext _
    exact if_pos rfl

/-! ### The counter -/

section counter

variable {σ ε : Type} {func : Bytes → Code σ ε Unit}

private theorem increment_ofNat {k : Nat} (h : k + 1 < 2 ^ 31) :
    (increment (Int32.ofNat k) : Outcome ε Int32) = .ret (Int32.ofNat (k + 1)) := by
  have hlast : Int32.ofNat k ≠ Int32.maxValue := by
    intro heq
    have hint := congrArg Int32.toInt heq
    rw [Int32.toInt_ofNat_of_lt (by omega), Int32.toInt_maxValue] at hint
    omega
  unfold increment
  rw [if_neg hlast, Int32.ofNat_add]
  rfl

/-- The calls of a counter that does not overflow. -/
private theorem foldlM_call {keys : List Bytes} {k : Nat} (h : k + keys.length < 2 ^ 31) :
    keys.foldlM (call func) (Int32.ofNat k) = (do keys.forM func; return Int32.ofNat (k + keys.length)) := by
  induction keys generalizing k with
  | nil => rfl
  | cons key keys ih =>
    rw [List.length_cons] at h ⊢
    have hrest := ih (k := k + 1) (by omega)
    have hnext : call func (Int32.ofNat k) key = (do func key; return Int32.ofNat (k + 1)) := by
      unfold call
      rw [increment_ofNat (by omega)]
      rfl
    have hloop : (key :: keys).forM func = (do func key; keys.forM func) := rfl
    rw [List.foldlM_cons, hnext, hloop, bind_assoc, bind_assoc]
    congr 1
    funext _
    rw [pure_bind, hrest, Nat.add_assoc, Nat.add_comm 1]

/-- The counter overflows after the call that it cannot count. -/
private theorem foldlM_call_of_le {keys : List Bytes} {k : Nat} (hk : k < 2 ^ 31) (h : 2 ^ 31 ≤ k + keys.length) :
    keys.foldlM (call func) (Int32.ofNat k) = (do (keys.take (2 ^ 31 - k)).forM func; Code.undefined) := by
  induction keys generalizing k with
  | nil =>
    rw [List.length_nil] at h
    omega
  | cons key keys ih =>
    rw [List.length_cons] at h
    obtain ⟨m, hm⟩ : ∃ m, 2 ^ 31 - k = m + 1 := ⟨2 ^ 31 - k - 1, by omega⟩
    have hloop : (key :: keys.take m).forM func = (do func key; (keys.take m).forM func) := rfl
    rw [List.foldlM_cons, hm, List.take_succ_cons, hloop, bind_assoc]
    unfold call
    rw [bind_assoc]
    congr 1
    funext _
    by_cases hlast : k = 2 ^ 31 - 1
    · have hzero : m = 0 := by omega
      subst hlast hzero
      rfl
    · have hrest := ih (k := k + 1) (by omega) (by omega)
      rw [increment_ofNat (by omega), show m = 2 ^ 31 - (k + 1) by omega, ← hrest]
      rfl

end counter

/-- A loop whose counter does not overflow. -/
theorem testOneSLot_of_lt {σ ε : Type} {sc : Bool} {maxdepth : Nat} (h : (keysOf sc maxdepth).length < 2 ^ 31)
    (func : Bytes → Code σ ε Unit) (fuel : Nat) :
    testOneSLot sc func maxdepth (2 * 94 ^ maxdepth + fuel) = (do
      (keysOf sc maxdepth).forM func
      return some (Int32.ofNat (keysOf sc maxdepth).length)) := by
  have hcount : 0 + (keysOf sc maxdepth).length < 2 ^ 31 := by omega
  rw [testOneSLot_eq, show (0 : Int32) = Int32.ofNat 0 from rfl, foldlM_call hcount, bind_assoc, Nat.zero_add]
  rfl

/-- A loop whose counter overflows. -/
theorem testOneSLot_of_le {σ ε : Type} {sc : Bool} {maxdepth : Nat} (h : 2 ^ 31 ≤ (keysOf sc maxdepth).length)
    (func : Bytes → Code σ ε Unit) (fuel : Nat) :
    testOneSLot sc func maxdepth (2 * 94 ^ maxdepth + fuel) = (do
      ((keysOf sc maxdepth).take (2 ^ 31)).forM func
      Code.undefined) := by
  have hcount : 2 ^ 31 ≤ 0 + (keysOf sc maxdepth).length := by omega
  rw [testOneSLot_eq, show (0 : Int32) = Int32.ofNat 0 from rfl, foldlM_call_of_le (by omega) hcount, bind_assoc]
  rfl

/-! ### The number of calls -/

/-- Whether there is a `}` behind the first `{`. -/
def opens : Bytes → Bool
  | [] => false
  | c :: s => if c = 0x7b then s.contains 0x7d else opens s

private theorem opens_append {p : Bytes} (hp : 0x7b ∉ p) (s : Bytes) : opens (p ++ s) = opens s := by
  induction p with
  | nil => rfl
  | cons c p ih =>
    simp only [List.mem_cons, not_or] at hp
    rw [List.cons_append, opens, if_neg (Ne.symm hp.1)]
    exact ih hp.2

private theorem hashTag_of_not_opens {key : Bytes} (h : opens key = false) : SlotHash.hashTag key = key := by
  by_cases ho : (0x7b : UInt8) ∈ key
  · obtain ⟨p, rest, rfl, hp⟩ := List.eq_append_cons_of_mem ho
    apply SlotHash.hashTag_of_no_close hp
    rw [opens_append hp, opens, if_pos rfl] at h
    simpa using h
  · exact SlotHash.hashTag_of_no_open ho

/-- A key is in slot 1 for its hash tag or for its own code. -/
private theorem opens_or_code {sc : Bool} {key : Bytes} (h : inSlot sc key = true) :
    opens key = true ∨ (SlotHash.bitwiseCrc key).toNat % 16384 = 1 := by
  by_cases ho : opens key = true
  · exact Or.inl ho
  · obtain ⟨slot, hs, hmod⟩ := SlotHash.slotByKey_eq sc key
    rw [hashTag_of_not_opens (eq_false_of_ne_true ho)] at hmod
    have hslot : SlotHash.slotByKey sc key key.length = some 1 := of_decide_eq_true h
    rw [hslot, Option.some.injEq] at hs
    subst hs
    exact Or.inr hmod.symm

/-- A bound for the readings with a hash tag, `closes` saying that there may be a `}` behind them. -/
def openings : (closes : Bool) → (k : Nat) → Nat
  | _, 0 => 0
  | true, k + 1 => carried 94 0 k + 1 + 94 * openings true k
  | false, k + 1 => openings true k + 94 * openings false k

private theorem opens_replicate (k : Nat) (s : Bytes) : opens (List.replicate k minprintable ++ s) = opens s :=
  opens_append (fun h => absurd (List.eq_of_mem_replicate h) (by decide)) s

private theorem countP_opens_le {closes : Bool} (k : Nat) {rest : Bytes} (hrest : opens rest = false)
    (hcloses : closes = false → 0x7d ∉ rest) :
    (sweep minprintable printable k rest).countP opens ≤ openings closes k := by
  induction k generalizing closes rest with
  | zero => exact Nat.zero_le _
  | succ k ih =>
    have hcarry : ∀ c, opens (c :: rest) = false →
        (sweep minprintable printable k (c :: rest) ++ [List.replicate k minprintable ++ c :: rest]).countP opens =
          (sweep minprintable printable k (c :: rest)).countP opens := by
      intro c hc
      rw [List.countP_append, List.countP_singleton, opens_replicate, hc]
      rfl
    rw [sweep_succ]
    cases closes with
    | true =>
      -- only a `{` may open a hash tag
      rw [openings, ← length_printable]
      apply countP_flatMap_le_of_nodup (x := 0x7b) printable_nodup
      · apply List.countP_le_length.trans
        rw [List.length_append]
        exact Nat.add_le_add_right (length_sweep_le k _) 1
      · intro c _ hne
        have hc : opens (c :: rest) = false := by
          rw [opens, if_neg hne]
          exact hrest
        rw [hcarry c hc]
        exact ih hc (fun h => nomatch h)
    | false =>
      rw [openings, ← length_printable]
      have hc : ∀ c, opens (c :: rest) = false := by
        intro c
        unfold opens
        split
        · simpa using hcloses rfl
        · exact hrest
      apply countP_flatMap_le_of_nodup (x := 0x7d) printable_nodup
      · rw [hcarry _ (hc _)]
        exact ih (hc _) (fun h => nomatch h)
      · intro c _ hne
        rw [hcarry _ (hc _)]
        apply ih (hc _)
        intro _
        simp [hcloses rfl, Ne.symm hne]

/-- A key whose own code leads to slot 1. -/
def coded (key : Bytes) : Bool := (SlotHash.bitwiseCrc key).toNat % 16384 = 1

private theorem countP_coded_le (rest : Bytes) : (sweep minprintable printable 2 rest).countP coded ≤ 8 := by
  have hcard := SlotHash.ncard_pairs [] rest (n := 1) (by omega)
  have hfinite := Set.finite_of_ncard_pos (hcard ▸ show 0 < 4 by omega)
  let pairs := hfinite.toFinset
  have hpairs : pairs.card = 4 := (Set.ncard_eq_toFinset_card _ hfinite).symm.trans hcard
  have hkeys : ∀ key ∈ sweep minprintable printable 2 rest, coded key = true →
      key ∈ pairs.image fun b => [b.1, b.2] ++ rest := by
    intro key hkey hcoded
    obtain ⟨p, hp, rfl⟩ := mem_sweep hkey
    obtain ⟨a, b, rfl⟩ := List.length_eq_two.1 hp
    exact Finset.mem_image.2 ⟨(a, b), hfinite.mem_toFinset.2 (of_decide_eq_true hcoded), rfl⟩
  calc (sweep minprintable printable 2 rest).countP coded
      ≤ (pairs.image fun b => [b.1, b.2] ++ rest).card * 2 :=
        countP_le_of_count_le (count_sweep_le printable_nodup 2 rest) hkeys
    _ ≤ pairs.card * 2 := Nat.mul_le_mul_right 2 Finset.card_image_le
    _ = 8 := by rw [hpairs]

/-- For keys of six characters at most the counter does not overflow. -/
theorem length_keysOf_lt {sc : Bool} {maxdepth : Nat} (h : maxdepth ≤ 6) : (keysOf sc maxdepth).length < 2 ^ 31 := by
  have hkeys : (keysOf sc maxdepth).length = (sweep minprintable printable maxdepth []).countP (inSlot sc) :=
    List.countP_eq_length_filter.symm
  have hbound : ∀ d : Fin 2, carried 94 0 d < 2 ^ 31 := by decide
  have hsum : ∀ j : Fin 5, openings false (2 + j) + carried 94 8 j < 2 ^ 31 := by decide +kernel
  rw [hkeys]
  by_cases hshort : maxdepth < 2
  · calc (sweep minprintable printable maxdepth []).countP (inSlot sc)
        ≤ (sweep minprintable printable maxdepth []).length := List.countP_le_length
      _ ≤ carried 94 0 maxdepth := length_sweep_le maxdepth []
      _ < 2 ^ 31 := hbound ⟨maxdepth, hshort⟩
  · obtain ⟨j, rfl⟩ : ∃ j, maxdepth = 2 + j := ⟨maxdepth - 2, by omega⟩
    calc (sweep minprintable printable (2 + j) []).countP (inSlot sc)
        ≤ (sweep minprintable printable (2 + j) []).countP opens +
            (sweep minprintable printable (2 + j) []).countP coded :=
          countP_le_of_or (fun key hkey => (opens_or_code hkey).imp_right decide_eq_true) _
      _ ≤ openings false (2 + j) + carried 94 8 j :=
          Nat.add_le_add (countP_opens_le (2 + j) rfl fun _ => List.not_mem_nil)
            (countP_sweep_le countP_coded_le j [])
      _ < 2 ^ 31 := hsum ⟨j, by omega⟩

end TestOneSlot

open TestOneSlot

end HiredisCluster
