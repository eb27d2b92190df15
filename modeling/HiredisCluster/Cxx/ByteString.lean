import Mathlib.Algebra.Group.Nat.Defs
import Mathlib.Algebra.Group.Int.Defs
import Mathlib.Data.List.TakeWhile
import HiredisCluster.Cxx.Computation

/-!
# Byte strings

`std::string` as the list of its bytes, with the operations of the standard library in the arithmetic of a 64-bit
`size_t`: `find` answers `npos` when there is no match, and `npos + 1` wraps around to `0`.  `cStr` is what a reader of
the character pointer `c_str()` sees, the bytes before the first NUL.  `stoi` is the conversion to `int`: leading white
space, an optional sign, at least one digit, and whatever follows is ignored.
-/

namespace Cxx

abbrev Bytes := List UInt8

/-- The bytes of an ASCII literal. -/
def text (s : String) : Bytes := s.toList.map fun c => c.toNat.toUInt8

/-- The C string that starts at the first byte. -/
def cStr (s : Bytes) : Bytes := s.takeWhile (· ≠ 0)

/-- The characters of a string in memory: their number is a `size_t` and a NUL follows them. -/
structure Chars where
  bytes : Bytes
  fits : bytes.length < 2 ^ 64 - 1
  deriving DecidableEq

/-- The characters of a literal. -/
def Chars.ofText (s : String) : Chars where
  bytes := (text s).take (2 ^ 64 - 2)
  fits := Nat.lt_of_le_of_lt (List.length_take_le ..) (by decide)

/-- The standard exceptions of the operations used here. -/
inductive StdException where
  | outOfRange
  | invalidArgument
  | logicError
  deriving DecidableEq, Repr

/-! ### Searching -/

/-- `std::string::npos`, the greatest `size_t`. -/
def npos : Nat := 2 ^ 64 - 1

/-- Addition of `size_t`. -/
def sizeAdd (a b : Nat) : Nat := (a + b) % 2 ^ 64

/-- Subtraction of `size_t`. -/
def sizeSub (a b : Nat) : Nat := (a + (2 ^ 64 - b % 2 ^ 64)) % 2 ^ 64

/-- The first position at or after `i` at which `pat` starts, where `s` starts at position `i`. -/
def findFrom (pat : Bytes) (i : Nat) : Bytes → Nat
  | [] => if pat = [] then i else npos
  | c :: s => if pat.isPrefixOf (c :: s) then i else findFrom pat (i + 1) s

/-- `s.find(pat, pos)`. -/
def find (s pat : Bytes) (pos : Nat) : Nat :=
  if pos ≤ s.length then findFrom pat pos (s.drop pos) else npos

/-- `s.substr(pos, count)`. -/
def substr (s : Bytes) (pos count : Nat) : Outcome StdException Bytes :=
  if pos ≤ s.length then .ret ((s.drop pos).take count) else .throws .outOfRange

private theorem findFrom_zero_iff {pat s : Bytes} (h : s.length < npos) :
    findFrom pat 0 s = 0 ↔ pat.isPrefixOf s = true := by
  have npos_pos : npos ≠ 0 := by decide
  have pos_of_succ : ∀ (s : Bytes) (i : Nat), i ≠ 0 → findFrom pat i s ≠ 0 := by
    intro s
    induction s with
    | nil => intro i hi; unfold findFrom; split <;> assumption
    | cons c s ih =>
      intro i hi
      unfold findFrom
      split
      · exact hi
      · exact ih (i + 1) (Nat.succ_ne_zero i)
  cases s with
  | nil => cases pat <;> simp [findFrom, npos_pos]
  | cons c s =>
    unfold findFrom
    split
    · simp [*]
    · rename_i hp
      simp [hp, pos_of_succ s (0 + 1) (by omega)]

/-- `s.find(c)` for a single character finds nothing or a position inside the string. -/
theorem find_singleton (s : Bytes) (c : UInt8) (pos : Nat) : find s [c] pos = npos ∨ find s [c] pos < s.length := by
  have scan : ∀ (s : Bytes) (i : Nat), findFrom [c] i s = npos ∨ findFrom [c] i s < i + s.length := by
    intro s
    induction s with
    | nil => intro i; left; simp [findFrom]
    | cons d s ih =>
      intro i
      unfold findFrom
      split
      · right; simp
      · rcases ih (i + 1) with h | h
        · exact Or.inl h
        · right; rw [List.length_cons]; omega
  unfold find
  split
  · rcases scan (s.drop pos) pos with h | h
    · exact Or.inl h
    · right; rw [List.length_drop] at h; omega
  · exact Or.inl rfl

/-- What `s.find(c, pos)` passes over does not contain `c`. -/
theorem notMem_take_find {s : Bytes} (h : s.length < npos) (c : UInt8) {pos : Nat} (hpos : pos ≤ s.length) :
    pos ≤ find s [c] pos ∧ c ∉ (s.drop pos).take (find s [c] pos - pos) := by
  have scan : ∀ (s : Bytes) (i : Nat), i + s.length < npos →
      i ≤ findFrom [c] i s ∧ c ∉ s.take (findFrom [c] i s - i) := by
    intro s
    induction s with
    | nil =>
      intro i hi
      refine ⟨?_, by simp⟩
      rw [findFrom, if_neg (List.cons_ne_nil _ _)]
      exact Nat.le_of_lt hi
    | cons d s ih =>
      intro i hi
      rw [List.length_cons] at hi
      unfold findFrom
      split
      · simp
      · rename_i hd
        have hcd : c ≠ d := by simpa [List.isPrefixOf] using hd
        obtain ⟨hle, hrest⟩ := ih (i + 1) (by omega)
        refine ⟨by omega, ?_⟩
        rw [show findFrom [c] (i + 1) s - i = (findFrom [c] (i + 1) s - (i + 1)) + 1 by omega, List.take_succ_cons]
        simp [hcd, hrest]
  rw [find, if_pos hpos]
  exact scan _ pos (by rw [List.length_drop]; omega)

/-- Where the first `c` at or after position `pos` is known, `s.find(c, pos)` answers it. -/
theorem find_of_append {c : UInt8} {s p m q : Bytes} {pos : Nat} (hs : s = p ++ (m ++ c :: q)) (hpos : p.length = pos)
    (h : c ∉ m) : find s [c] pos = pos + m.length := by
  have scan : ∀ (m : Bytes) (i : Nat), c ∉ m → findFrom [c] i (m ++ c :: q) = i + m.length := by
    intro m
    induction m with
    | nil => intro i _; simp [findFrom]
    | cons d m ih =>
      intro i hm
      simp only [List.mem_cons, not_or] at hm
      have hd : ([c] : Bytes).isPrefixOf (d :: (m ++ c :: q)) = false := by simp [List.isPrefixOf, hm.1]
      rw [List.cons_append, findFrom, hd, if_neg Bool.false_ne_true, ih (i + 1) hm.2, List.length_cons]
      omega
  have hle : pos ≤ s.length := by rw [hs, List.length_append]; omega
  rw [find, if_pos hle, hs, ← hpos, List.drop_left, scan m p.length h]

theorem substr_of_append {s p m q : Bytes} {pos : Nat} (hs : s = p ++ (m ++ q)) (hpos : p.length = pos) :
    substr s pos m.length = .ret m := by
  have hle : pos ≤ s.length := by rw [hs, List.length_append]; omega
  rw [substr, if_pos hle, hs, ← hpos, List.drop_left, List.take_left]

/-- `s.substr(pos)`: the count `npos` reaches to the end of the string. -/
theorem substr_npos {s p m : Bytes} {pos : Nat} (hs : s = p ++ m) (hpos : p.length = pos) (hfits : s.length < npos) :
    substr s pos npos = .ret m := by
  have hle : p.length + m.length = s.length := by rw [hs, List.length_append]
  rw [substr, if_pos (by omega), hs, ← hpos, List.drop_left, List.take_of_length_le (by omega)]

/-- `s.find(pat) == 0` tests for a prefix. -/
theorem find_eq_zero_iff {s pat : Bytes} (h : s.length < npos) : find s pat 0 = 0 ↔ pat <+: s := by
  unfold find
  rw [if_pos (Nat.zero_le _), List.drop_zero, findFrom_zero_iff h, List.isPrefixOf_iff_prefix]

/-- The search finds nothing when the pattern occurs nowhere. -/
theorem find_eq_npos {s pat : Bytes} (h : ¬ pat <:+: s) : find s pat 0 = npos := by
  have scan : ∀ (s : Bytes) (i : Nat), ¬ pat <:+: s → findFrom pat i s = npos := by
    intro s
    induction s with
    | nil =>
      intro i hs
      apply if_neg
      rintro rfl
      exact hs List.infix_rfl
    | cons c s ih =>
      intro i hs
      unfold findFrom
      have hpre : ¬ pat.isPrefixOf (c :: s) = true := fun hp => hs (List.isPrefixOf_iff_prefix.1 hp).isInfix
      rw [if_neg hpre]
      exact ih (i + 1) fun hin => hs (List.infix_cons hin)
  unfold find
  rw [if_pos (Nat.zero_le _), List.drop_zero]
  exact scan s 0 h

/-- A pattern without `c` occurs before or behind a `c`. -/
theorem infix_append_cons {c : UInt8} {pat a b : Bytes} (hc : c ∉ pat) (h : pat <:+: a ++ c :: b) :
    pat <:+: a ∨ pat <:+: b := by
  -- a part that starts at the `c` is empty
  have start : ∀ l : Bytes, l <+: c :: b → c ∉ l → l = [] := by
    intro l hl hcl
    rcases List.prefix_cons_iff.1 hl with hnil | ⟨t, rfl, -⟩
    · exact hnil
    · exact absurd List.mem_cons_self hcl
  rcases List.infix_append_iff.1 h with h | h | ⟨l₁, l₂, hpat, h₁, h₂⟩
  · exact Or.inl h
  · rcases List.infix_cons_iff.1 h with h | h
    · rw [start pat h hc]
      exact Or.inl List.nil_infix
    · exact Or.inr h
  · have hnil := start l₂ h₂ fun hm => hc (by rw [hpat]; exact List.mem_append_right _ hm)
    rw [hpat, hnil, List.append_nil]
    exact Or.inl h₁.isInfix

/-- A C string starts with `pat` when the bytes it is part of do, provided `pat` has no NUL. -/
theorem prefix_cStr {s pat : Bytes} (h : pat <+: s) (hpat : ∀ c ∈ pat, c ≠ 0) : pat <+: cStr s := by
  obtain ⟨t, rfl⟩ := h
  unfold cStr
  rw [List.takeWhile_append_of_pos (fun c hc => by simpa using hpat c hc)]
  exact List.prefix_append _ _

theorem cStr_eq_self {s : Bytes} (h : 0 ∉ s) : cStr s = s :=
  List.takeWhile_eq_self_iff.2 fun _ hc => decide_eq_true (ne_of_mem_of_not_mem hc h)

/-- A string determines what stands before and after its first `c`. -/
theorem append_cons_inj {c : UInt8} {a a' b b' : Bytes} (h : c ∉ a) (h' : c ∉ a') :
    a ++ c :: b = a' ++ c :: b' ↔ a = a' ∧ b = b' := by
  have hfirst {x y : Bytes} (hx : c ∉ x) : (x ++ c :: y).takeWhile (· ≠ c) = x := by
    have hpass : ∀ d ∈ x, decide (d ≠ c) = true := fun d hd => decide_eq_true (ne_of_mem_of_not_mem hd hx)
    rw [List.takeWhile_append_of_pos hpass]
    simp
  constructor
  · intro heq
    have hhead := congrArg (List.takeWhile (· ≠ c)) heq
    rw [hfirst h, hfirst h'] at hhead
    subst hhead
    exact ⟨rfl, List.tail_eq_of_cons_eq (List.append_cancel_left heq)⟩
  · rintro ⟨rfl, rfl⟩
    rfl

/-! ### Numbers -/

/-- `isspace` in the "C" locale. -/
def isSpace (c : UInt8) : Bool := c = 32 || (9 ≤ c && c ≤ 13)

def isDigit (c : UInt8) : Bool := 48 ≤ c && c ≤ 57

/-- The value of a sequence of decimal digits. -/
def digitsValue (ds : Bytes) : Nat := ds.foldl (fun n d => 10 * n + (d.toNat - 48)) 0

/-- The conversion of a sign and the digits after it. -/
def stoiDigits (sign : Int) (s : Bytes) : Outcome StdException Int32 :=
  let ds := s.takeWhile isDigit
  if ds = [] then .throws .invalidArgument
  else
    let n := sign * digitsValue ds
    if -2 ^ 31 ≤ n ∧ n < 2 ^ 31 then .ret (Int32.ofInt n) else .throws .outOfRange

/-- `std::stoi`. -/
def stoi (s : Bytes) : Outcome StdException Int32 :=
  match s.dropWhile isSpace with
  | 45 :: s' => stoiDigits (-1) s'
  | 43 :: s' => stoiDigits 1 s'
  | s' => stoiDigits 1 s'

theorem stoi_cases (s : Bytes) : (∃ n, stoi s = .ret n) ∨ ∃ e, stoi s = .throws e := by
  have digits : ∀ sign s, (∃ n, stoiDigits sign s = .ret n) ∨ ∃ e, stoiDigits sign s = .throws e := by
    intro sign s
    unfold stoiDigits
    dsimp only
    split
    · exact Or.inr ⟨_, rfl⟩
    · split
      · exact Or.inl ⟨_, rfl⟩
      · exact Or.inr ⟨_, rfl⟩
  unfold stoi
  split <;> apply digits

/-- The decimal digits of a number, as `printf` prints it. -/
def decimal (n : Nat) : Bytes := text n.repr

theorem decimal_eq (n : Nat) :
    decimal n = if n < 10 then [(48 + n).toUInt8] else decimal (n / 10) ++ [(48 + n % 10).toUInt8] := by
  have digit : ∀ d, d < 10 → (Nat.digitChar d).toNat.toUInt8 = (48 + d).toUInt8 := by decide
  unfold decimal text
  rw [Nat.toList_repr, Nat.toList_repr, Nat.toDigits_eq_if (by decide)]
  split
  · rw [List.map_singleton, digit n ‹_›]
  · rw [List.map_append, List.map_singleton, digit _ (Nat.mod_lt _ (by decide))]

theorem isDigit_decimal (n : Nat) : ∀ c ∈ decimal n, isDigit c = true := by
  have digit : ∀ d, d < 10 → isDigit (48 + d).toUInt8 = true := by decide
  induction n using Nat.strongRecOn with
  | ind n ih =>
    intro c hc
    rw [decimal_eq] at hc
    split at hc
    · rw [List.mem_singleton.1 hc]
      exact digit n ‹_›
    · rcases List.mem_append.1 hc with hc | hc
      · exact ih (n / 10) (by omega) c hc
      · rw [List.mem_singleton.1 hc]
        exact digit _ (Nat.mod_lt _ (by decide))

private theorem digitsValue_decimal (n : Nat) : digitsValue (decimal n) = n := by
  have digit : ∀ d, d < 10 → (48 + d).toUInt8.toNat - 48 = d := by decide
  induction n using Nat.strongRecOn with
  | ind n ih =>
    rw [decimal_eq]
    split
    · simp only [digitsValue, List.foldl_cons, List.foldl_nil]
      rw [digit n ‹_›]
      omega
    · have hhead := ih (n / 10) (by omega)
      unfold digitsValue at hhead ⊢
      rw [List.foldl_append, hhead, List.foldl_cons, List.foldl_nil, digit _ (Nat.mod_lt _ (by decide))]
      omega

private theorem decimal_ne_nil (n : Nat) : decimal n ≠ [] := by
  rw [decimal_eq]
  split <;> simp

/-- `std::stoi` reads back the decimal text of an `int`. -/
theorem stoi_decimal {n : Nat} (h : n < 2 ^ 31) : stoi (decimal n) = .ret (Int32.ofNat n) := by
  have hdigits := isDigit_decimal n
  have hstop : (decimal n).takeWhile isDigit = decimal n := by
    have all : (decimal n ++ []).takeWhile isDigit = decimal n ++ [] := List.takeWhile_append_of_pos hdigits
    rwa [List.append_nil] at all
  have conv : stoiDigits 1 (decimal n) = .ret (Int32.ofNat n) := by
    unfold stoiDigits
    dsimp only
    rw [hstop, if_neg (decimal_ne_nil n), digitsValue_decimal, if_pos (by omega), Int.one_mul]
    rfl
  obtain ⟨c, ds, hc⟩ := List.exists_cons_of_ne_nil (decimal_ne_nil n)
  have first : isDigit c = true := hdigits c (by rw [hc]; exact List.mem_cons_self)
  have notSpace : isSpace c = false := by
    have digit : ∀ i : Fin 256, isDigit (UInt8.ofFin i) = true → isSpace (UInt8.ofFin i) = false := by decide +kernel
    exact digit c.toFin first
  have start : (decimal n).dropWhile isSpace = decimal n := by rw [hc, List.dropWhile_cons_of_neg (by simp [notSpace])]
  unfold stoi
  rw [start]
  split
  · rename_i s' hs
    rw [hc] at hs
    cases hs
    cases first
  · rename_i s' hs
    rw [hc] at hs
    cases hs
    cases first
  · exact conv
example : stoi (text "7001") = .ret 7001 ∧ stoi (text " -12x") = .ret (-12) ∧ stoi (text "x") = .throws .invalidArgument ∧
    stoi (text "99999999999") = .throws .outOfRange := by decide

end Cxx
