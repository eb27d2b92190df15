import Mathlib.Data.List.Basic
import Mathlib.Data.List.Count

/-!
# Resources that are acquired, used and given back

`Balanced` says of a sequence of such events that every acquisition is matched by exactly one release and that nothing is
used or released while it is not held.  `ledger` decides this by keeping the list of what is held (`balanced_iff`).
-/

namespace Cxx

/-- What can happen to a resource. -/
inductive Holding (κ : Type) where
  | acquire (k : κ)
  | use (k : κ)
  | release (k : κ)
  deriving DecidableEq

namespace Holding

variable {κ : Type} [DecidableEq κ]

/-- Whoever starts with the resources `held` uses and releases only what he has at that time. -/
def Guarded (held : List κ) (evs : List (Holding κ)) : Prop :=
  ∀ pre e post k, evs = pre ++ e :: post → (e = use k ∨ e = release k) →
    pre.count (release k) < held.count k + pre.count (acquire k)

/-- Everything acquired is released exactly once, and not used or released before or after that. -/
structure Balanced (evs : List (Holding κ)) : Prop where
  guarded : Guarded [] evs
  settled : ∀ k, evs.count (acquire k) = evs.count (release k)

/-- What is held after an event, unless the event needs what is not held. -/
def pay (held : List κ) : Holding κ → Option (List κ)
  | acquire k => some (k :: held)
  | use k => if k ∈ held then some held else none
  | release k => if k ∈ held then some (held.erase k) else none

def ledger : List κ → List (Holding κ) → Option (List κ)
  | held, [] => some held
  | held, e :: evs => (pay held e).bind fun held' => ledger held' evs

variable {held held' : List κ} {e : Holding κ} {evs : List (Holding κ)}

@[simp] theorem ledger_nil : ledger held [] = some held := rfl

@[simp] theorem ledger_acquire (k : κ) : ledger held (acquire k :: evs) = ledger (k :: held) evs := rfl

@[simp] theorem ledger_use {k : κ} (h : k ∈ held) : ledger held (use k :: evs) = ledger held evs := by
  simp [ledger, pay, h]

@[simp] theorem ledger_release {k : κ} (h : k ∈ held) : ledger held (release k :: evs) = ledger (held.erase k) evs := by
  simp [ledger, pay, h]

@[simp] theorem ledger_use_of_not_mem {k : κ} (h : k ∉ held) : ledger held (use k :: evs) = none := by
  simp [ledger, pay, h]

theorem ledger_append (evs' : List (Holding κ)) :
    ledger held (evs ++ evs') = (ledger held evs).bind fun held' => ledger held' evs' := by
  induction evs generalizing held with
  | nil => rfl
  | cons e evs ih =>
    rw [List.cons_append, ledger, ledger]
    cases pay held e with
    | none => rfl
    | some held' => exact ih

/-- An event changes what is held as it says. -/
private theorem count_of_pay (h : pay held e = some held') (k : κ) :
    held.count k + [e].count (acquire k) = held'.count k + [e].count (release k) := by
  cases e with
  | acquire j =>
    cases h
    by_cases hk : j = k
    · subst hk; simp
    · simp [hk]
  | use j =>
    obtain ⟨-, rfl⟩ : j ∈ held ∧ held = held' := by simpa [pay] using h
    simp
  | release j =>
    obtain ⟨hj, rfl⟩ : j ∈ held ∧ held.erase j = held' := by simpa [pay] using h
    by_cases hk : j = k
    · subst hk
      have hpos := List.count_pos_iff.2 hj
      simp only [List.count_erase_self, List.count_singleton_self]
      simp
      omega
    · have hjk : k ≠ j := fun h => hk h.symm
      simp [List.count_erase_of_ne hjk, hk]

private theorem count_of_ledger (h : ledger held evs = some held') (k : κ) :
    held.count k + evs.count (acquire k) = held'.count k + evs.count (release k) := by
  induction evs generalizing held with
  | nil => cases h; rfl
  | cons e evs ih =>
    obtain ⟨mid, hpay, hrest⟩ := Option.bind_eq_some_iff.1 h
    have hstep := count_of_pay hpay k
    have htail := ih hrest
    rw [← List.singleton_append, List.count_append, List.count_append]
    omega

/-- An event fails exactly when it needs a resource that is not held. -/
private theorem pay_isSome_iff : (pay held e).isSome = true ↔ ∀ k, (e = use k ∨ e = release k) → k ∈ held := by
  cases e with
  | acquire j => simp [pay]
  | use j => by_cases hj : j ∈ held <;> simp [pay, hj]
  | release j => by_cases hj : j ∈ held <;> simp [pay, hj]

private theorem guarded_cons (h : pay held e = some held') : Guarded held (e :: evs) ↔ Guarded held' evs := by
  constructor
  · intro hg pre a post k hsplit hneeds
    have hcount := hg (e :: pre) a post k (by rw [hsplit]; rfl) hneeds
    have hstep := count_of_pay h k
    rw [← List.singleton_append, List.count_append, List.count_append] at hcount
    omega
  · intro hg pre a post k hsplit hneeds
    cases pre with
    | nil =>
      obtain ⟨rfl, -⟩ := List.cons.inj hsplit
      have hmem := pay_isSome_iff.1 (by rw [h]; rfl) k hneeds
      have hpos := List.count_pos_iff.2 hmem
      simpa using hpos
    | cons b pre =>
      obtain ⟨rfl, rfl⟩ := List.cons.inj hsplit
      have hcount := hg pre a post k rfl hneeds
      have hstep := count_of_pay h k
      rw [← List.singleton_append, List.count_append, List.count_append]
      omega

theorem ledger_isSome_iff : (ledger held evs).isSome = true ↔ Guarded held evs := by
  induction evs generalizing held with
  | nil =>
    refine iff_of_true rfl fun pre e post k hsplit => ?_
    cases pre <;> cases hsplit
  | cons e evs ih =>
    cases hpay : pay held e with
    | some held' =>
      rw [guarded_cons hpay, ← ih, ledger, hpay]
      rfl
    | none =>
      rw [ledger, hpay]
      refine iff_of_false (by simp) fun hg => ?_
      have hsome : (pay held e).isSome = true := by
        refine pay_isSome_iff.2 fun k hk => ?_
        have hcount := hg [] e evs k rfl hk
        exact List.count_pos_iff.1 (by simpa using hcount)
      rw [hpay] at hsome
      cases hsome

theorem balanced_iff : Balanced evs ↔ ledger [] evs = some [] := by
  constructor
  · intro hb
    obtain ⟨held, hrun⟩ := Option.isSome_iff_exists.1 (ledger_isSome_iff.2 hb.guarded)
    have hnone : held = [] := by
      refine List.eq_nil_iff_forall_not_mem.2 fun k hk => ?_
      have hcount := count_of_ledger hrun k
      have hsettled := hb.settled k
      have hpos := List.count_pos_iff.2 hk
      rw [List.count_nil] at hcount
      omega
    rw [hrun, hnone]
  · intro hrun
    refine ⟨ledger_isSome_iff.1 (by rw [hrun]; rfl), fun k => ?_⟩
    have hcount := count_of_ledger hrun k
    simpa using hcount

instance : Decidable (Balanced evs) := decidable_of_iff _ balanced_iff.symm

end Holding

end Cxx
