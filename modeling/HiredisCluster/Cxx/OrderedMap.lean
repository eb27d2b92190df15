import Mathlib.Data.List.Lex
import Mathlib.Order.Lattice

/-!
# Ordered associative maps

`std::map` with a comparator that compares the images of the keys under `rank`: the entries in increasing order of
rank, at most one for each rank.  Two keys are the same key for the map when their ranks agree, and the map keeps
the key that was inserted first.  An iterator is a position: `0` is `begin()`, the number of entries is `end()`.

The main facts: `insert` keeps an entry of equal rank and otherwise adds the new one (`mem_insert`), `lookup` finds the
entry of a rank (`lookup_eq_some_iff`), and the position just before `lowerBound` holds the entry of greatest rank below
the bound (`lowerBound_pred`).
-/

namespace Cxx

variable {κ ω ν : Type} [LinearOrder ω]

/-- A map from `κ` to `ν` ordered by `rank`. -/
structure OrderedMap (rank : κ → ω) (ν : Type) where
  entries : List (κ × ν)
  sorted : entries.Pairwise fun a b => rank a.1 < rank b.1

namespace OrderedMap

variable {rank : κ → ω}

def empty : OrderedMap rank ν := ⟨[], List.Pairwise.nil⟩

/-- The entries after `insert`; an entry of equal rank stays as it is. -/
def insertEntry (rank : κ → ω) (k : κ) (v : ν) : List (κ × ν) → List (κ × ν)
  | [] => [(k, v)]
  | e :: rest =>
    if rank k < rank e.1 then (k, v) :: e :: rest
    else if rank e.1 < rank k then e :: insertEntry rank k v rest
    else e :: rest

/-- The value stored under the rank of `k`. -/
def lookupEntry (rank : κ → ω) (k : κ) : List (κ × ν) → Option ν
  | [] => none
  | e :: rest => if rank e.1 = rank k then some e.2 else lookupEntry rank k rest

/-- The number of leading entries whose rank is below that of `k`. -/
def lowerBoundEntry (rank : κ → ω) (k : κ) : List (κ × ν) → Nat
  | [] => 0
  | e :: rest => if rank e.1 < rank k then lowerBoundEntry rank k rest + 1 else 0

theorem mem_insertEntry {k : κ} {v : ν} {l : List (κ × ν)} {e : κ × ν} (h : e ∈ insertEntry rank k v l) :
    e = (k, v) ∨ e ∈ l := by
  induction l with
  | nil => simpa [insertEntry] using h
  | cons a l ih =>
    unfold insertEntry at h
    split at h
    · simpa using h
    · split at h
      · rcases List.mem_cons.1 h with rfl | h
        · exact Or.inr (List.mem_cons_self ..)
        · exact (ih h).imp_right (List.mem_cons_of_mem _)
      · exact Or.inr h

theorem subset_insertEntry {k : κ} {v : ν} {l : List (κ × ν)} {e : κ × ν} (h : e ∈ l) :
    e ∈ insertEntry rank k v l := by
  induction l with
  | nil => cases h
  | cons a l ih =>
    unfold insertEntry
    split
    · exact List.mem_cons_of_mem _ h
    · split
      · rcases List.mem_cons.1 h with rfl | h
        · exact List.mem_cons_self ..
        · exact List.mem_cons_of_mem _ (ih h)
      · exact h

private theorem pairwise_insertEntry (k : κ) (v : ν) {l : List (κ × ν)}
    (h : l.Pairwise fun a b => rank a.1 < rank b.1) :
    (insertEntry rank k v l).Pairwise fun a b => rank a.1 < rank b.1 := by
  induction l with
  | nil => simp [insertEntry]
  | cons a l ih =>
    have ⟨ha, hl⟩ := List.pairwise_cons.1 h
    unfold insertEntry
    split
    · rename_i hk
      refine List.pairwise_cons.2 ⟨?_, h⟩
      intro b hb
      rcases List.mem_cons.1 hb with rfl | hb
      · exact hk
      · exact hk.trans (ha b hb)
    · split
      · rename_i hk
        refine List.pairwise_cons.2 ⟨?_, ih hl⟩
        intro b hb
        rcases mem_insertEntry hb with rfl | hb
        · exact hk
        · exact ha b hb
      · exact h

/-- `insert`: does nothing when the map has a key of the same rank. -/
def insert (m : OrderedMap rank ν) (k : κ) (v : ν) : OrderedMap rank ν :=
  ⟨insertEntry rank k v m.entries, pairwise_insertEntry k v m.sorted⟩

/-- The value found under a key, as `at` returns it. -/
def lookup (m : OrderedMap rank ν) (k : κ) : Option ν := lookupEntry rank k m.entries

/-- `lower_bound`: the position of the first entry whose rank is not below that of `k`. -/
def lowerBound (m : OrderedMap rank ν) (k : κ) : Nat := lowerBoundEntry rank k m.entries

/-- The map without the entries that do not satisfy `p`. -/
def filter (m : OrderedMap rank ν) (p : κ × ν → Bool) : OrderedMap rank ν :=
  ⟨m.entries.filter p, m.sorted.filter p⟩

theorem ext {m m' : OrderedMap rank ν} (h : m.entries = m'.entries) : m = m' := by
  cases m; cases m'; cases h; rfl

/-! ### Looking up -/

theorem eq_of_rank_eq (m : OrderedMap rank ν) {a b : κ × ν} (ha : a ∈ m.entries) (hb : b ∈ m.entries)
    (h : rank a.1 = rank b.1) : a = b := by
  obtain ⟨l, hs⟩ := m
  induction l with
  | nil => cases ha
  | cons e l ih =>
    have ⟨he, hl⟩ := List.pairwise_cons.1 hs
    rcases List.mem_cons.1 ha with ea | ha' <;> rcases List.mem_cons.1 hb with eb | hb'
    · rw [ea, eb]
    · rw [ea] at h
      exact absurd h (he b hb').ne
    · rw [eb] at h
      exact absurd h (he a ha').ne'
    · exact ih hl ha' hb'

private theorem lookupEntry_some {k : κ} {v : ν} {l : List (κ × ν)} (h : lookupEntry rank k l = some v) :
    ∃ e ∈ l, rank e.1 = rank k ∧ e.2 = v := by
  induction l with
  | nil => cases h
  | cons a l ih =>
    unfold lookupEntry at h
    split at h
    · exact ⟨a, List.mem_cons_self .., by assumption, by simpa using h⟩
    · obtain ⟨e, he, h⟩ := ih h
      exact ⟨e, List.mem_cons_of_mem _ he, h⟩

private theorem lookupEntry_none {k : κ} {l : List (κ × ν)} (h : lookupEntry rank k l = none) :
    ∀ e ∈ l, rank e.1 ≠ rank k := by
  induction l with
  | nil => intro e he; cases he
  | cons a l ih =>
    unfold lookupEntry at h
    split at h
    · cases h
    · intro e he
      rcases List.mem_cons.1 he with rfl | he
      · assumption
      · exact ih h e he

theorem lookup_eq_none_iff (m : OrderedMap rank ν) (k : κ) :
    m.lookup k = none ↔ ∀ e ∈ m.entries, rank e.1 ≠ rank k := by
  constructor
  · exact lookupEntry_none
  · intro h
    cases hl : m.lookup k with
    | none => rfl
    | some v =>
      obtain ⟨e, he, hr, -⟩ := lookupEntry_some hl
      exact absurd hr (h e he)

theorem lookup_eq_some_iff (m : OrderedMap rank ν) (k : κ) (v : ν) :
    m.lookup k = some v ↔ ∃ e ∈ m.entries, rank e.1 = rank k ∧ e.2 = v := by
  constructor
  · exact lookupEntry_some
  · rintro ⟨e, he, hr, rfl⟩
    cases hl : m.lookup k with
    | none => exact absurd hr ((lookup_eq_none_iff m k).1 hl e he)
    | some w =>
      obtain ⟨e', he', hr', rfl⟩ := lookupEntry_some hl
      rw [eq_of_rank_eq m he' he (hr'.trans hr.symm)]

/-! ### Inserting -/

/-- Inserting a key of a new rank adds exactly that entry. -/
theorem mem_insert (m : OrderedMap rank ν) {k : κ} {v : ν} (h : ∀ e ∈ m.entries, rank e.1 ≠ rank k)
    {e : κ × ν} : e ∈ (m.insert k v).entries ↔ e = (k, v) ∨ e ∈ m.entries := by
  refine ⟨mem_insertEntry, ?_⟩
  rintro (rfl | he)
  · show (k, v) ∈ insertEntry rank k v m.entries
    generalize m.entries = l at h
    induction l with
    | nil => simp [insertEntry]
    | cons a l ih =>
      unfold insertEntry
      split
      · exact List.mem_cons_self ..
      · split
        · exact List.mem_cons_of_mem _ (ih fun e he => h e (List.mem_cons_of_mem _ he))
        · rename_i h1 h2
          exact absurd (le_antisymm (not_lt.1 h1) (not_lt.1 h2)) (h a (List.mem_cons_self ..))
  · exact subset_insertEntry he

theorem lookup_insert_self (m : OrderedMap rank ν) {k : κ} (v : ν) (h : m.lookup k = none) :
    (m.insert k v).lookup k = some v :=
  (lookup_eq_some_iff _ k v).2
    ⟨(k, v), (mem_insert m ((lookup_eq_none_iff m k).1 h)).2 (Or.inl rfl), rfl, rfl⟩

/-- Inserting a new key keeps what was found before. -/
theorem lookup_insert_of_some (m : OrderedMap rank ν) {k k' : κ} {v v' : ν} (h : m.lookup k = none)
    (h' : m.lookup k' = some v') : (m.insert k v).lookup k' = some v' := by
  rw [lookup_eq_some_iff] at h' ⊢
  obtain ⟨e, he, hr⟩ := h'
  exact ⟨e, (mem_insert m ((lookup_eq_none_iff m k).1 h)).2 (Or.inr he), hr⟩

/-- Inserting a key of a new rank adds one entry. -/
theorem entries_insert_perm (m : OrderedMap rank ν) {k : κ} (v : ν) (h : m.lookup k = none) :
    ((m.insert k v).entries).Perm ((k, v) :: m.entries) := by
  rw [lookup_eq_none_iff] at h
  show (insertEntry rank k v m.entries).Perm ((k, v) :: m.entries)
  generalize m.entries = l at h
  induction l with
  | nil => exact List.Perm.refl _
  | cons e l ih =>
    unfold insertEntry
    split
    · exact List.Perm.refl _
    · split
      · have tail := ih fun a ha => h a (List.mem_cons_of_mem e ha)
        exact (tail.cons e).trans (List.Perm.swap (k, v) e l)
      · rename_i h1 h2
        exact absurd (le_antisymm (not_lt.1 h1) (not_lt.1 h2)) (h e List.mem_cons_self)

/-- Inserting a key whose rank is taken changes nothing. -/
theorem insert_of_lookup_some (m : OrderedMap rank ν) {k : κ} {v w : ν} (h : m.lookup k = some w) :
    m.insert k v = m := by
  obtain ⟨e, he, hr, -⟩ := (lookup_eq_some_iff m k w).1 h
  apply ext
  show insertEntry rank k v m.entries = m.entries
  have hs := m.sorted
  generalize m.entries = l at he hs
  induction l with
  | nil => cases he
  | cons a l ih =>
    obtain ⟨ha, hl⟩ := List.pairwise_cons.1 hs
    unfold insertEntry
    rcases List.mem_cons.1 he with rfl | he
    · rw [hr, if_neg (lt_irrefl _), if_neg (lt_irrefl _)]
    · have hlt := ha e he
      rw [hr] at hlt
      rw [if_neg hlt.not_gt, if_pos hlt, ih he hl]

/-- Inserting one entry after the other. -/
def insertAll (m : OrderedMap rank ν) (l : List (κ × ν)) : OrderedMap rank ν :=
  l.foldl (fun m e => m.insert e.1 e.2) m

/-- An entry of the list that no other entry of its rank precedes. -/
def FirstOfRank (rank : κ → ω) (l : List (κ × ν)) (x : κ × ν) : Prop :=
  ∃ i : Nat, l[i]? = some x ∧ ∀ (j : Nat) (y : κ × ν), j < i → l[j]? = some y → rank y.1 ≠ rank x.1

omit [LinearOrder ω] in
private theorem firstOfRank_cons {e x : κ × ν} {l : List (κ × ν)} :
    FirstOfRank rank (e :: l) x ↔ e = x ∨ rank e.1 ≠ rank x.1 ∧ FirstOfRank rank l x := by
  constructor
  · rintro ⟨i, hi, hfirst⟩
    cases i with
    | zero => exact Or.inl (Option.some.inj hi)
    | succ i =>
      exact Or.inr ⟨hfirst 0 e (Nat.succ_pos i) rfl, i, hi, fun j y hj hy => hfirst (j + 1) y (by omega) hy⟩
  · rintro (rfl | ⟨he, i, hi, hfirst⟩)
    · exact ⟨0, rfl, fun j y hj => absurd hj (Nat.not_lt_zero j)⟩
    · refine ⟨i + 1, hi, fun j y hj hy => ?_⟩
      cases j with
      | zero =>
        obtain rfl : e = y := Option.some.inj hy
        exact he
      | succ j => exact hfirst j y (by omega) hy

/-- Of the entries of one rank the map keeps the one it has, or else the first that is inserted. -/
theorem mem_insertAll (m : OrderedMap rank ν) (l : List (κ × ν)) {x : κ × ν} :
    x ∈ (m.insertAll l).entries ↔
      x ∈ m.entries ∨ (∀ e ∈ m.entries, rank e.1 ≠ rank x.1) ∧ FirstOfRank rank l x := by
  induction l generalizing m with
  | nil => simp [insertAll, FirstOfRank]
  | cons e l ih =>
    rw [firstOfRank_cons]
    show x ∈ ((m.insert e.1 e.2).insertAll l).entries ↔ _
    rw [ih]
    cases hl : m.lookup e.1 with
    | some v =>
      obtain ⟨a, ha, hrank, -⟩ := (lookup_eq_some_iff m e.1 v).1 hl
      rw [insert_of_lookup_some m hl]
      -- the entry that is there already cannot be overtaken by one of its rank
      have other : (∀ b ∈ m.entries, rank b.1 ≠ rank x.1) → rank e.1 ≠ rank x.1 := fun h => hrank ▸ h a ha
      constructor
      · rintro (hx | ⟨hnew, hi⟩)
        · exact Or.inl hx
        · exact Or.inr ⟨hnew, Or.inr ⟨other hnew, hi⟩⟩
      · rintro (hx | ⟨hnew, rfl | ⟨-, hi⟩⟩)
        · exact Or.inl hx
        · exact absurd rfl (other hnew)
        · exact Or.inr ⟨hnew, hi⟩
    | none =>
      have hnone := (lookup_eq_none_iff m e.1).1 hl
      have hmem : ∀ b, b ∈ (m.insert e.1 e.2).entries ↔ b = e ∨ b ∈ m.entries := fun b => mem_insert m hnone
      simp only [hmem, forall_eq_or_imp]
      constructor
      · rintro ((rfl | hx) | ⟨⟨he, hnew⟩, hi⟩)
        · exact Or.inr ⟨hnone, Or.inl rfl⟩
        · exact Or.inl hx
        · exact Or.inr ⟨hnew, Or.inr ⟨he, hi⟩⟩
      · rintro (hx | ⟨hnew, rfl | ⟨he, hi⟩⟩)
        · exact Or.inl (Or.inr hx)
        · exact Or.inl (Or.inl rfl)
        · exact Or.inr ⟨⟨he, hnew⟩, hi⟩

/-! ### Assigning -/

/-- The entries after an assignment; an entry of equal rank keeps its key. -/
def assignEntry (rank : κ → ω) (k : κ) (v : ν) : List (κ × ν) → List (κ × ν)
  | [] => [(k, v)]
  | e :: rest =>
    if rank k < rank e.1 then (k, v) :: e :: rest
    else if rank e.1 < rank k then e :: assignEntry rank k v rest
    else (e.1, v) :: rest

private theorem rank_of_mem_assignEntry {k : κ} {v : ν} {l : List (κ × ν)} {e : κ × ν}
    (h : e ∈ assignEntry rank k v l) : rank e.1 = rank k ∨ ∃ a ∈ l, rank a.1 = rank e.1 := by
  induction l with
  | nil => left; rw [List.mem_singleton.1 h]
  | cons a l ih =>
    unfold assignEntry at h
    split at h
    · rcases List.mem_cons.1 h with rfl | h
      · exact Or.inl rfl
      · exact Or.inr ⟨e, h, rfl⟩
    · split at h
      · rcases List.mem_cons.1 h with rfl | h
        · exact Or.inr ⟨e, List.mem_cons_self, rfl⟩
        · exact (ih h).imp_right fun ⟨b, hb, hr⟩ => ⟨b, List.mem_cons_of_mem _ hb, hr⟩
      · rcases List.mem_cons.1 h with rfl | h
        · exact Or.inr ⟨a, List.mem_cons_self, rfl⟩
        · exact Or.inr ⟨e, List.mem_cons_of_mem _ h, rfl⟩

private theorem pairwise_assignEntry (k : κ) (v : ν) {l : List (κ × ν)}
    (h : l.Pairwise fun a b => rank a.1 < rank b.1) :
    (assignEntry rank k v l).Pairwise fun a b => rank a.1 < rank b.1 := by
  induction l with
  | nil => simp [assignEntry]
  | cons a l ih =>
    have ⟨ha, hl⟩ := List.pairwise_cons.1 h
    unfold assignEntry
    split
    · rename_i hk
      refine List.pairwise_cons.2 ⟨?_, h⟩
      intro b hb
      rcases List.mem_cons.1 hb with rfl | hb
      · exact hk
      · exact hk.trans (ha b hb)
    · split
      · rename_i hk
        refine List.pairwise_cons.2 ⟨?_, ih hl⟩
        intro b hb
        rcases rank_of_mem_assignEntry hb with hb | ⟨c, hc, hb⟩
        · rw [hb]; exact hk
        · rw [← hb]; exact ha c hc
      · exact List.pairwise_cons.2 ⟨ha, hl⟩

/-- `m[k] = v`: `operator[]` adds the key if it is new, and the value is overwritten. -/
def assign (m : OrderedMap rank ν) (k : κ) (v : ν) : OrderedMap rank ν :=
  ⟨assignEntry rank k v m.entries, pairwise_assignEntry k v m.sorted⟩

/-- What is found after an assignment. -/
theorem lookup_assign (m : OrderedMap rank ν) (k k' : κ) (v : ν) :
    (m.assign k v).lookup k' = if rank k' = rank k then some v else m.lookup k' := by
  show lookupEntry rank k' (assignEntry rank k v m.entries) = if _ then _ else lookupEntry rank k' m.entries
  have hs := m.sorted
  generalize m.entries = l at hs
  induction l with
  | nil =>
    by_cases h : rank k' = rank k
    · simp [assignEntry, lookupEntry, h]
    · simp [assignEntry, lookupEntry, h, Ne.symm h]
  | cons e l ih =>
    obtain ⟨he, hl⟩ := List.pairwise_cons.1 hs
    unfold assignEntry
    split
    · by_cases h : rank k' = rank k
      · simp [lookupEntry, h]
      · rw [lookupEntry, if_neg (Ne.symm h), if_neg h]
    · split
      · rename_i hlt
        rw [lookupEntry, lookupEntry, ih hl]
        by_cases h : rank k' = rank k
        · simp only [h, hlt.ne, ↓reduceIte]
        · simp only [if_neg h]
      · rename_i h1 h2
        have heq : rank e.1 = rank k := le_antisymm (not_lt.1 h1) (not_lt.1 h2)
        by_cases h : rank k' = rank k
        · simp [lookupEntry, heq, h]
        · simp [lookupEntry, heq, h, Ne.symm h]

/-- Assigning to a new key inserts it. -/
theorem assign_of_lookup_none (m : OrderedMap rank ν) {k : κ} (v : ν) (h : m.lookup k = none) :
    m.assign k v = m.insert k v := by
  rw [lookup_eq_none_iff] at h
  refine ext ?_
  show assignEntry rank k v m.entries = insertEntry rank k v m.entries
  generalize m.entries = l at h
  induction l with
  | nil => rfl
  | cons e l ih =>
    unfold assignEntry insertEntry
    split
    · rfl
    · split
      · rw [ih fun a ha => h a (List.mem_cons_of_mem e ha)]
      · rename_i h1 h2
        exact absurd (le_antisymm (not_lt.1 h1) (not_lt.1 h2)) (h e List.mem_cons_self)

/-- Assigning to a new key keeps what was found before. -/
theorem lookup_assign_of_some (m : OrderedMap rank ν) {k k' : κ} {v v' : ν} (h : m.lookup k = none)
    (h' : m.lookup k' = some v') : (m.assign k v).lookup k' = some v' := by
  rw [assign_of_lookup_none m v h]
  exact lookup_insert_of_some m h h'

/-! ### The position before the lower bound -/

/-- The entries before the lower bound are those of smaller rank. -/
private theorem lowerBound_spec (m : OrderedMap rank ν) (k : κ) {i : Nat} {e : κ × ν} (h : m.entries[i]? = some e) :
    i < m.lowerBound k ↔ rank e.1 < rank k := by
  obtain ⟨l, hs⟩ := m
  show i < lowerBoundEntry rank k l ↔ _
  induction l generalizing i with
  | nil => cases h
  | cons a l ih =>
    have ⟨ha, hl⟩ := List.pairwise_cons.1 hs
    unfold lowerBoundEntry
    cases i with
    | zero =>
      obtain rfl : a = e := by simpa using h
      split <;> simp [*]
    | succ i =>
      have he : l[i]? = some e := by simpa using h
      split
      · rw [Nat.add_lt_add_iff_right]
        exact ih hl he
      · rename_i hk
        have : rank a.1 < rank e.1 := ha e (List.mem_of_getElem? he)
        exact ⟨fun h => absurd h (Nat.not_lt_zero _), fun h => absurd (this.trans h) hk⟩

theorem lowerBound_le (m : OrderedMap rank ν) (k : κ) : m.lowerBound k ≤ m.entries.length := by
  show lowerBoundEntry rank k m.entries ≤ _
  generalize m.entries = l
  induction l with
  | nil => exact Nat.le_refl _
  | cons a l ih =>
    unfold lowerBoundEntry
    split
    · exact Nat.succ_le_succ ih
    · exact Nat.zero_le _

/-- No entry lies before a lower bound that is `begin()`. -/
theorem not_rank_lt_of_lowerBound_eq_zero (m : OrderedMap rank ν) {k : κ} (h : m.lowerBound k = 0) :
    ∀ e ∈ m.entries, ¬ rank e.1 < rank k := by
  intro e he hlt
  obtain ⟨i, hi⟩ := List.getElem?_of_mem he
  have := (lowerBound_spec m k hi).2 hlt
  omega

/-- The entry just before a lower bound other than `begin()` has the greatest rank below the bound. -/
theorem lowerBound_pred (m : OrderedMap rank ν) {k : κ} (h : m.lowerBound k ≠ 0) :
    ∃ e, m.entries[m.lowerBound k - 1]? = some e ∧ rank e.1 < rank k ∧
      ∀ e' ∈ m.entries, rank e'.1 < rank k → rank e'.1 ≤ rank e.1 := by
  have hlen := lowerBound_le m k
  have hlt : m.lowerBound k - 1 < m.entries.length := by omega
  have he := List.getElem?_eq_getElem hlt
  refine ⟨_, he, (lowerBound_spec m k he).1 (by omega), ?_⟩
  intro e' he' hr
  obtain ⟨i, hi⟩ := List.getElem?_of_mem he'
  have hil := (lowerBound_spec m k hi).2 hr
  obtain ⟨hi', rfl⟩ := List.getElem?_eq_some_iff.1 hi
  rcases Nat.lt_or_ge i (m.lowerBound k - 1) with hlt' | hge
  · exact (List.pairwise_iff_getElem.1 m.sorted _ _ hi' hlt hlt').le
  · exact le_of_eq (congrArg (fun j => rank j) (by congr; omega))

end OrderedMap

end Cxx
