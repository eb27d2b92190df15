import Mathlib.Algebra.Group.Nat.Defs
import Mathlib.Algebra.Order.BigOperators.Group.Finset
import Mathlib.Data.List.Induction
import Mathlib.Data.List.TakeWhile

/-!
# Odometers

An odometer counts through the strings of some length over a list of digits, its first position running fastest.  `sweep`
is what an observer reads who looks before every single change: a position that has run through is set back to the first
digit, and is read again before the carry changes the next one.  So every string is read, and once more for each carry
that passes through its leading first digits (`count_sweep`).  Readings of one kind are bounded by those that `k` positions
show, each further position adding one reading for each of its digits (`countP_sweep_le`).
-/

namespace Cxx

section odometer

variable {α : Type} (first : α) (digits : List α)

/-- What is read while `k` positions run through all their strings in front of `rest`. -/
def sweep : (k : Nat) → (rest : List α) → List (List α)
  | 0, _ => []
  | k + 1, rest => digits.flatMap fun x => sweep k (x :: rest) ++ [List.replicate k first ++ x :: rest]

variable {first digits}

theorem sweep_succ (k : Nat) (rest : List α) : sweep first digits (k + 1) rest =
    digits.flatMap fun x => sweep first digits k (x :: rest) ++ [List.replicate k first ++ x :: rest] := rfl

/-- The other positions stay as they are. -/
theorem mem_sweep {k : Nat} {rest s : List α} (h : s ∈ sweep first digits k rest) :
    ∃ p, p.length = k ∧ s = p ++ rest := by
  induction k generalizing rest with
  | zero => exact absurd h List.not_mem_nil
  | succ k ih =>
    obtain ⟨x, -, hx⟩ := List.mem_flatMap.1 h
    rcases List.mem_append.1 hx with hx | hx
    · obtain ⟨p, hp, rfl⟩ := ih hx
      exact ⟨p ++ [x], by simp [hp], by simp⟩
    · exact ⟨List.replicate k first ++ [x], by simp, by simpa using hx⟩

/-- Only digits are read. -/
theorem forall_mem_sweep (hfirst : first ∈ digits) {k : Nat} {rest s : List α} (h : s ∈ sweep first digits k rest) :
    ∀ x ∈ s, x ∈ digits ∨ x ∈ rest := by
  induction k generalizing rest with
  | zero => exact absurd h List.not_mem_nil
  | succ k ih =>
    obtain ⟨y, hy, hs⟩ := List.mem_flatMap.1 h
    intro x hx
    rcases List.mem_append.1 hs with hs | hs
    · rcases ih hs x hx with h | h
      · exact Or.inl h
      · rcases List.mem_cons.1 h with rfl | h
        · exact Or.inl hy
        · exact Or.inr h
    · rw [List.mem_singleton.1 hs] at hx
      rcases List.mem_append.1 hx with hx | hx
      · rw [List.eq_of_mem_replicate hx]
        exact Or.inl hfirst
      · rcases List.mem_cons.1 hx with rfl | hx
        · exact Or.inl hy
        · exact Or.inr hx

/-- What is read while position `k` holds `x`. -/
private theorem mem_block {k : Nat} {x : α} {rest s : List α}
    (h : s ∈ sweep first digits k (x :: rest) ++ [List.replicate k first ++ x :: rest]) :
    ∃ p, p.length = k ∧ s = p ++ x :: rest := by
  rcases List.mem_append.1 h with h | h
  · exact mem_sweep h
  · exact ⟨List.replicate k first, List.length_replicate, List.mem_singleton.1 h⟩

/-- The digit at position `k` is told by what is read. -/
private theorem eq_of_mem_block {x y : α} {p rest : List α}
    (h : p ++ x :: rest ∈ sweep first digits p.length (y :: rest) ++ [List.replicate p.length first ++ y :: rest]) :
    y = x := by
  obtain ⟨q, hq, heq⟩ := mem_block h
  obtain ⟨-, hcons⟩ := List.append_inj heq hq.symm
  exact (List.cons.inj hcons).1.symm

/-- Of lists that belong to different digits only one matters. -/
private theorem count_flatMap_of_nodup {β : Type} [BEq β] [LawfulBEq β] {l : List α} (hl : l.Nodup) {f : α → List β}
    {b : β} {x : α} (hx : x ∈ l) (hf : ∀ y, b ∈ f y → y = x) : (l.flatMap f).count b = (f x).count b := by
  induction l with
  | nil => exact absurd hx List.not_mem_nil
  | cons y l ih =>
    obtain ⟨hy, hl⟩ := List.nodup_cons.1 hl
    rw [List.flatMap_cons, List.count_append]
    rcases List.mem_cons.1 hx with rfl | hx
    · have hnone : (l.flatMap f).count b = 0 := by
        apply List.count_eq_zero_of_not_mem
        intro hb
        obtain ⟨y, hyl, hby⟩ := List.mem_flatMap.1 hb
        exact hy (hf y hby ▸ hyl)
      omega
    · have hnone : (f y).count b = 0 := by
        apply List.count_eq_zero_of_not_mem
        intro hb
        exact hy (hf y hb ▸ hx)
      have hrest := ih hl hx
      omega

/-! ### Bounds -/

private theorem countP_flatMap_le {β : Type} {p : β → Bool} {l : List α} {f : α → List β} {b : Nat}
    (h : ∀ x ∈ l, (f x).countP p ≤ b) : (l.flatMap f).countP p ≤ l.length * b := by
  induction l with
  | nil => simp
  | cons x l ih =>
    have hx := h x List.mem_cons_self
    have hl := ih fun y hy => h y (List.mem_cons_of_mem _ hy)
    rw [List.flatMap_cons, List.countP_append, List.length_cons, Nat.add_mul]
    omega

/-- One of the parts may be larger. -/
theorem countP_flatMap_le_of_nodup {β : Type} {p : β → Bool} {l : List α} (hl : l.Nodup) {f : α → List β} {x : α}
    {a b : Nat} (hx : (f x).countP p ≤ a) (h : ∀ y ∈ l, y ≠ x → (f y).countP p ≤ b) :
    (l.flatMap f).countP p ≤ a + l.length * b := by
  by_cases hmem : x ∈ l
  · obtain ⟨l₁, l₂, rfl, hnot⟩ := List.eq_append_cons_of_mem hmem
    have hsecond : x ∉ l₂ := by
      have hcons := (List.nodup_append.1 hl).2.1
      exact (List.nodup_cons.1 hcons).1
    have h₁ := countP_flatMap_le fun y hy => h y (by simp [hy]) (ne_of_mem_of_not_mem hy hnot)
    have h₂ := countP_flatMap_le fun y hy => h y (by simp [hy]) (ne_of_mem_of_not_mem hy hsecond)
    rw [List.flatMap_append, List.flatMap_cons, List.countP_append, List.countP_append, List.length_append,
      List.length_cons, Nat.add_mul, Nat.add_mul]
    omega
  · have hall := countP_flatMap_le fun y hy => h y hy (ne_of_mem_of_not_mem hy hmem)
    omega

theorem countP_le_of_or {p q r : α → Bool} (h : ∀ x, p x = true → q x = true ∨ r x = true) (l : List α) :
    l.countP p ≤ l.countP q + l.countP r := by
  induction l with
  | nil => simp
  | cons x l ih =>
    have hx := h x
    rw [List.countP_cons, List.countP_cons, List.countP_cons]
    cases hp : p x with
    | false =>
      rw [if_neg Bool.false_ne_true]
      omega
    | true =>
      rcases hx hp with hq | hr
      · rw [hq]
        omega
      · rw [hr]
        omega

/-- A list that holds nothing more than `n` times. -/
theorem countP_le_of_count_le [BEq α] [LawfulBEq α] {p : α → Bool} {l : List α} {n : Nat} (hcount : ∀ x, l.count x ≤ n)
    {S : Finset α} (hS : ∀ x ∈ l, p x = true → x ∈ S) : l.countP p ≤ S.card * n := by
  classical
  obtain rfl : ‹BEq α› = instBEqOfDecidableEq := lawful_beq_subsingleton _ _
  have hsub : (l.filter p).toFinset ⊆ S := by
    intro x hx
    obtain ⟨hmem, hp⟩ := List.mem_filter.1 (List.mem_toFinset.1 hx)
    exact hS x hmem hp
  calc l.countP p = (l.filter p).length := List.countP_eq_length_filter
    _ = ∑ x ∈ (l.filter p).toFinset, (l.filter p).count x := (List.sum_toFinset_count_eq_length _).symm
    _ ≤ (l.filter p).toFinset.card • n := by
      apply Finset.sum_le_card_nsmul
      intro x _
      exact (List.filter_sublist.count_le x).trans (hcount x)
    _ ≤ S.card * n := Nat.mul_le_mul_right n (Finset.card_le_card hsub)

/-- A bound for `j` positions more, from a bound `b`. -/
def carried (m b : Nat) : (j : Nat) → Nat
  | 0 => b
  | j + 1 => m * (carried m b j + 1)

theorem carried_zero_le {m : Nat} (h : 2 ≤ m) (k : Nat) : carried m 0 k + 2 ≤ 2 * m ^ k := by
  induction k with
  | zero => simp [carried]
  | succ k ih =>
    calc m * (carried m 0 k + 1) + 2 ≤ m * (carried m 0 k + 1) + m := by omega
      _ = m * (carried m 0 k + 2) := by rw [← Nat.mul_succ]
      _ ≤ m * (2 * m ^ k) := Nat.mul_le_mul_left m ih
      _ = 2 * m ^ (k + 1) := by rw [Nat.pow_succ, Nat.mul_left_comm, Nat.mul_comm m]

theorem countP_sweep_le {p : List α → Bool} {k b : Nat} (hb : ∀ rest, (sweep first digits k rest).countP p ≤ b) (j : Nat)
    (rest : List α) : (sweep first digits (k + j) rest).countP p ≤ carried digits.length b j := by
  induction j generalizing rest with
  | zero => exact hb rest
  | succ j ih =>
    rw [← Nat.add_assoc, sweep_succ]
    apply countP_flatMap_le
    intro x _
    have hx := ih (x :: rest)
    have hcarry : [List.replicate (k + j) first ++ x :: rest].countP p ≤ 1 := List.countP_le_length
    rw [List.countP_append]
    omega

theorem length_sweep_le (k : Nat) (rest : List α) : (sweep first digits k rest).length ≤ carried digits.length 0 k := by
  have hnone : ∀ rest, (sweep first digits 0 rest).countP (fun _ => true) ≤ 0 := fun _ => Nat.le_refl 0
  have h := countP_sweep_le hnone k rest
  rwa [Nat.zero_add, List.countP_true] at h

/-- No string is read more often than there are positions. -/
theorem count_sweep_le [BEq (List α)] [LawfulBEq (List α)] (hdigits : digits.Nodup) (k : Nat) (rest s : List α) :
    (sweep first digits k rest).count s ≤ k := by
  induction k generalizing rest with
  | zero => exact Nat.le_of_eq List.count_nil
  | succ k ih =>
    by_cases hs : s ∈ sweep first digits (k + 1) rest
    · obtain ⟨x, hx, hmem⟩ := List.mem_flatMap.1 hs
      obtain ⟨p, rfl, rfl⟩ := mem_block hmem
      have hcarry : [List.replicate p.length first ++ x :: rest].count (p ++ x :: rest) ≤ 1 := List.count_le_length
      have hrest := ih (x :: rest)
      rw [sweep_succ, count_flatMap_of_nodup hdigits hx fun y hy => eq_of_mem_block hy, List.count_append]
      omega
    · rw [List.count_eq_zero_of_not_mem hs]
      omega

/-! ### How often a string is read -/

section count

variable [DecidableEq α]

/-- How many positions in front hold the first digit. -/
def leading (first : α) (s : List α) : Nat := (s.takeWhile (· = first)).length

private theorem leading_replicate (first : α) (k : Nat) (s : List α) :
    leading first (List.replicate k first ++ s) = k + leading first s := by
  unfold leading
  induction k with
  | zero => simp
  | succ k ih =>
    rw [List.replicate_succ, List.cons_append, List.takeWhile_cons_of_pos (by simp), List.length_cons, ih]
    omega

/-- The first digits in front of a string that holds another digit. -/
private theorem leading_append {first : α} {s : List α} (h : s ≠ List.replicate s.length first) (rest : List α) :
    leading first (s ++ rest) = leading first s ∧ leading first s < s.length := by
  unfold leading
  induction s with
  | nil => exact absurd rfl h
  | cons x s ih =>
    by_cases hx : x = first
    · subst hx
      have hs : s ≠ List.replicate s.length x := by
        intro hs
        apply h
        rw [List.length_cons, List.replicate_succ, ← hs]
      obtain ⟨heq, hlt⟩ := ih hs
      rw [List.cons_append, List.takeWhile_cons_of_pos (by simp), List.takeWhile_cons_of_pos (by simp)]
      simp only [List.length_cons]
      omega
    · rw [List.cons_append, List.takeWhile_cons_of_neg (by simpa using hx),
        List.takeWhile_cons_of_neg (by simpa using hx)]
      simp

/-- Every string of digits is read, and once more for each of the carries behind its leading first digits. -/
theorem count_sweep (first : α) (hdigits : digits.Nodup) {p : List α} (hp : ∀ x ∈ p, x ∈ digits) (rest : List α) :
    (sweep first digits p.length rest).count (p ++ rest) = min (leading first p + 1) p.length := by
  induction p using List.reverseRecOn generalizing rest with
  | nil => simp [sweep]
  | append_singleton q x ih =>
    have hx : x ∈ digits := hp x (by simp)
    have hq : ∀ y ∈ q, y ∈ digits := fun y hy => hp y (List.mem_append_left _ hy)
    have hone : ∀ y, q ++ x :: rest ∈ sweep first digits q.length (y :: rest) ++
        [List.replicate q.length first ++ y :: rest] → y = x := fun y => eq_of_mem_block
    have hcount := count_flatMap_of_nodup hdigits hx hone
    have hih := ih hq (x :: rest)
    have hcarry : [List.replicate q.length first ++ x :: rest].count (q ++ x :: rest) =
        if q = List.replicate q.length first then 1 else 0 := by
      rw [List.count_singleton]
      by_cases heq : q = List.replicate q.length first
      · rw [if_pos heq, ← heq]
        simp
      · rw [if_neg heq, if_neg]
        intro h
        exact heq (List.append_inj (eq_of_beq h) (by simp)).1.symm
    rw [List.append_assoc, List.singleton_append, List.length_append, List.length_singleton, sweep_succ, hcount,
      List.count_append, hih, hcarry]
    by_cases heq : q = List.replicate q.length first
    · -- the carry shows the string once more
      rw [if_pos heq]
      have hlead : leading first (q ++ [x]) = q.length + leading first [x] := by
        rw [heq, leading_replicate]
        simp
      have hlead' : leading first q = q.length := by
        have h := leading_replicate first q.length []
        rw [List.append_nil, ← heq] at h
        exact h
      omega
    · rw [if_neg heq]
      obtain ⟨hlead, hlt⟩ := leading_append heq [x]
      omega

end count

end odometer

end Cxx
