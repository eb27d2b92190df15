/-!
# Computations that return, throw or are undefined

Sequential C++ code as a function of the state it runs in.  `Outcome` tells how a piece of code is left: it returns
a value, an exception leaves it, or it has undefined behaviour (a null dereference, an access to a deleted object).
A `Cxx σ ε α` also says which state is left behind; effects done before a `throw` stay, and nothing catches undefined
behaviour.  `attempt` is a `try` block with a `catch` clause for some of the exceptions.
-/

namespace Cxx

/-- How a piece of code is left. -/
inductive Outcome (ε α : Type) where
  | ret (value : α)
  | throws (exception : ε)
  | undefined
  deriving DecidableEq, Repr

namespace Outcome

/-- Go on with `f` after a normal return. -/
def bind {ε α β : Type} (x : Outcome ε α) (f : α → Outcome ε β) : Outcome ε β :=
  match x with
  | .ret a => f a
  | .throws e => .throws e
  | .undefined => .undefined

instance {ε : Type} : Monad (Outcome ε) where
  pure := .ret
  bind := bind

@[simp] theorem pure_eq {ε α : Type} (a : α) : (pure a : Outcome ε α) = .ret a := rfl

@[simp] theorem ret_bind {ε α β : Type} (a : α) (f : α → Outcome ε β) : (.ret a >>= f) = f a := rfl

@[simp] theorem throws_bind {ε α β : Type} (e : ε) (f : α → Outcome ε β) : (.throws e >>= f) = .throws e := rfl

@[simp] theorem undefined_bind {ε α β : Type} (f : α → Outcome ε β) :
    ((.undefined : Outcome ε α) >>= f) = .undefined := rfl

/-- Code that throws `ε`, seen as code that throws `ε'`. -/
def mapThrows {ε ε' α : Type} (f : ε → ε') : Outcome ε α → Outcome ε' α
  | .ret a => .ret a
  | .throws e => .throws (f e)
  | .undefined => .undefined

end Outcome

/-- Code over the state `σ` that throws exceptions of type `ε`. -/
def Code (σ ε α : Type) : Type := σ → Outcome ε α × σ

variable {σ ε α β γ : Type}

/-- Go on with `f` after a normal return; an exception or undefined behaviour ends the run. -/
def andThen (x : Outcome ε α × σ) (f : α → Code σ ε β) : Outcome ε β × σ :=
  match x with
  | (.ret a, s) => f a s
  | (.throws e, s) => (.throws e, s)
  | (.undefined, s) => (.undefined, s)

@[simp] theorem andThen_ret (a : α) (s : σ) (f : α → Code σ ε β) : andThen (.ret a, s) f = f a s := rfl

@[simp] theorem andThen_throws (e : ε) (s : σ) (f : α → Code σ ε β) :
    andThen (.throws e, s) f = (.throws e, s) := rfl

@[simp] theorem andThen_undefined (s : σ) (f : α → Code σ ε β) : andThen (.undefined, s) f = (.undefined, s) := rfl

private theorem andThen_assoc (x : Outcome ε α × σ) (f : α → Code σ ε β) (g : β → Code σ ε γ) :
    andThen (andThen x f) g = andThen x fun a s => andThen (f a s) g := by
  obtain ⟨_ | _ | _, s⟩ := x <;> rfl

namespace Code

instance : Monad (Code σ ε) where
  pure a := fun s => (.ret a, s)
  bind m f := fun s => andThen (m s) f

@[simp] theorem pure_apply (a : α) (s : σ) : (pure a : Code σ ε α) s = (.ret a, s) := rfl

@[simp] theorem bind_apply (m : Code σ ε α) (f : α → Code σ ε β) (s : σ) :
    (m >>= f) s = andThen (m s) f := rfl

theorem bind_of_ret {m : Code σ ε α} {s s' : σ} {a : α} (h : m s = (.ret a, s')) (f : α → Code σ ε β) :
    (m >>= f) s = f a s' := by
  rw [bind_apply, h, andThen_ret]

theorem bind_of_throws {m : Code σ ε α} {s s' : σ} {e : ε} (h : m s = (.throws e, s')) (f : α → Code σ ε β) :
    (m >>= f) s = (.throws e, s') := by
  rw [bind_apply, h, andThen_throws]

theorem bind_of_undefined {m : Code σ ε α} {s s' : σ} (h : m s = (.undefined, s')) (f : α → Code σ ε β) :
    (m >>= f) s = (.undefined, s') := by
  rw [bind_apply, h, andThen_undefined]

/-- Code that returns has returned from each of its parts. -/
theorem ret_of_bind {m : Code σ ε α} {f : α → Code σ ε β} {s s' : σ} {b : β} (h : (m >>= f) s = (.ret b, s')) :
    ∃ a v, m s = (.ret a, v) ∧ f a v = (.ret b, s') := by
  rw [bind_apply] at h
  cases hm : m s with
  | mk o v =>
    rw [hm] at h
    cases o with
    | ret a => exact ⟨a, v, rfl, h⟩
    | throws e => cases h
    | undefined => cases h

private theorem map_id (m : Code σ ε α) : id <$> m = m := by
  funext s
  show andThen (m s) _ = m s
  obtain ⟨_ | _ | _, s'⟩ := m s <;> rfl

instance : LawfulMonad (Code σ ε) :=
  LawfulMonad.mk' _ map_id (fun _ _ => rfl) fun m f g => funext fun s => andThen_assoc (m s) f g

/-- `throw e`. -/
def throws (e : ε) : Code σ ε α := fun s => (.throws e, s)

/-- Undefined behaviour. -/
def undefined : Code σ ε α := fun s => (.undefined, s)

/-- The current state. -/
def get : Code σ ε σ := fun s => (.ret s, s)

/-- Replace the state `s` by `f s`. -/
def modify (f : σ → σ) : Code σ ε Unit := fun s => (.ret (), f s)

/-- Code that neither reads nor writes the state. -/
def lift (o : Outcome ε α) : Code σ ε α := fun s => (o, s)

/-- `try { m } catch (…)`: the exceptions that `catches` selects are returned as `.error`, the others pass. -/
def attempt (catches : ε → Option γ) (m : Code σ ε α) : Code σ ε (Except γ α) := fun s =>
  match m s with
  | (.ret a, s') => (.ret (.ok a), s')
  | (.throws e, s') =>
    match catches e with
    | some c => (.ret (.error c), s')
    | none => (.throws e, s')
  | (.undefined, s') => (.undefined, s')

@[simp] theorem throws_apply (e : ε) (s : σ) : (throws e : Code σ ε α) s = (.throws e, s) := rfl

@[simp] theorem undefined_apply (s : σ) : (undefined : Code σ ε α) s = (.undefined, s) := rfl

@[simp] theorem get_apply (s : σ) : (get : Code σ ε σ) s = (.ret s, s) := rfl

@[simp] theorem modify_apply (f : σ → σ) (s : σ) : (modify f : Code σ ε Unit) s = (.ret (), f s) := rfl

@[simp] theorem lift_apply (o : Outcome ε α) (s : σ) : (lift o : Code σ ε α) s = (o, s) := rfl

theorem attempt_ret {catches : ε → Option γ} {m : Code σ ε α} {s s' : σ} {a : α} (h : m s = (.ret a, s')) :
    attempt catches m s = (.ret (.ok a), s') := by
  simp [attempt, h]

theorem attempt_caught {catches : ε → Option γ} {m : Code σ ε α} {s s' : σ} {e : ε} {c : γ}
    (h : m s = (.throws e, s')) (hc : catches e = some c) :
    attempt catches m s = (.ret (.error c), s') := by
  simp [attempt, h, hc]

theorem attempt_passed {catches : ε → Option γ} {m : Code σ ε α} {s s' : σ} {e : ε}
    (h : m s = (.throws e, s')) (hc : catches e = none) :
    attempt catches m s = (.throws e, s') := by
  simp [attempt, h, hc]

theorem attempt_undefined {catches : ε → Option γ} {m : Code σ ε α} {s s' : σ} (h : m s = (.undefined, s')) :
    attempt catches m s = (.undefined, s') := by
  simp [attempt, h]

theorem attempt_congr (catches : ε → Option γ) {m m' : Code σ ε α} {s s' : σ} (h : m s = m' s') :
    attempt catches m s = attempt catches m' s' := by
  unfold attempt
  rw [h]

/-! ### Invariants of code -/

/-- `m` keeps `I`, however it is left. -/
def Preserves (I : σ → Prop) (m : Code σ ε α) : Prop := ∀ s, I s → I (m s).2

theorem Preserves.pure (I : σ → Prop) (a : α) : Preserves I (pure a : Code σ ε α) := fun _ h => h

theorem Preserves.throws (I : σ → Prop) (e : ε) : Preserves I (throws e : Code σ ε α) := fun _ h => h

theorem Preserves.undefined (I : σ → Prop) : Preserves I (undefined : Code σ ε α) := fun _ h => h

theorem Preserves.get (I : σ → Prop) : Preserves I (get : Code σ ε σ) := fun _ h => h

theorem Preserves.lift (I : σ → Prop) (o : Outcome ε α) : Preserves I (lift o : Code σ ε α) := fun _ h => h

theorem Preserves.modify {I : σ → Prop} {f : σ → σ} (h : ∀ s, I s → I (f s)) :
    Preserves I (modify f : Code σ ε Unit) := h

/-- What holds after the first part holds after the whole, however the first part is left. -/
theorem Preserves.after {I : σ → Prop} {m : Code σ ε α} {f : α → Code σ ε β} {s : σ} (h : I (m s).2)
    (hf : ∀ a, Preserves I (f a)) : I ((m >>= f) s).2 := by
  rw [bind_apply]
  generalize m s = x at h ⊢
  obtain ⟨a | _ | _, s'⟩ := x
  · exact hf a s' h
  · exact h
  · exact h

theorem Preserves.bind {I : σ → Prop} {m : Code σ ε α} {f : α → Code σ ε β} (hm : Preserves I m)
    (hf : ∀ a, Preserves I (f a)) : Preserves I (m >>= f) := fun s hs => Preserves.after (hm s hs) hf

/-- A `catch` clause changes nothing by itself. -/
theorem attempt_snd (catches : ε → Option γ) (m : Code σ ε α) (s : σ) : (attempt catches m s).2 = (m s).2 := by
  unfold attempt
  generalize m s = x
  obtain ⟨a | e | _, s'⟩ := x
  · rfl
  · cases hc : catches e <;> simp only [hc]
  · rfl

theorem Preserves.attempt {I : σ → Prop} {m : Code σ ε α} (catches : ε → Option γ) (hm : Preserves I m) :
    Preserves I (attempt catches m) := by
  intro s hs
  rw [attempt_snd]
  exact hm s hs

/-- A loop returns exactly when all its rounds do, if from the states of an invariant each round tells by its argument
whether it returns. -/
theorem forM_returns_iff {I : σ → Prop} {P : α → Prop} {f : α → Code σ ε PUnit} {l : List α}
    (h : ∀ a ∈ l, ∀ s, I s → I (f a s).2 ∧ ((f a s).1 = .ret () ↔ P a)) {s : σ} (hs : I s) :
    (l.forM f s).1 = .ret () ↔ ∀ a ∈ l, P a := by
  induction l generalizing s with
  | nil => exact iff_of_true rfl fun a ha => absurd ha List.not_mem_nil
  | cons a l ih =>
    obtain ⟨hkeeps, hround⟩ := h a List.mem_cons_self s hs
    have hrest := ih (fun b hb => h b (List.mem_cons_of_mem _ hb)) hkeeps
    have hrun : (a :: l).forM f s = andThen (f a s) fun _ => l.forM f := rfl
    rw [hrun, List.forall_mem_cons]
    cases hx : f a s with
    | mk o s' =>
      rw [hx] at hround hrest
      cases o with
      | ret _ => exact hrest.trans (and_iff_right (hround.1 rfl)).symm
      | throws e => exact iff_of_false (fun hr => nomatch hr) fun hall => nomatch hround.2 hall.1
      | undefined => exact iff_of_false (fun hr => nomatch hr) fun hall => nomatch hround.2 hall.1

/-! ### Exceptions that leave code -/

/-- Every exception that leaves `m` has the property `Q`. -/
def ThrowsOnly (Q : ε → Prop) (m : Code σ ε α) : Prop := ∀ s e, (m s).1 = .throws e → Q e

theorem ThrowsOnly.pure (Q : ε → Prop) (a : α) : ThrowsOnly Q (pure a : Code σ ε α) := fun _ _ h => by cases h

theorem ThrowsOnly.throws {Q : ε → Prop} {e : ε} (h : Q e) : ThrowsOnly Q (throws e : Code σ ε α) := by
  rintro s _ ⟨⟩
  exact h

theorem ThrowsOnly.undefined (Q : ε → Prop) : ThrowsOnly Q (undefined : Code σ ε α) := fun _ _ h => by cases h

theorem ThrowsOnly.get (Q : ε → Prop) : ThrowsOnly Q (get : Code σ ε σ) := fun _ _ h => by cases h

theorem ThrowsOnly.lift {Q : ε → Prop} {o : Outcome ε α} (h : ∀ e, o = .throws e → Q e) :
    ThrowsOnly Q (lift o : Code σ ε α) := fun _ e he => h e he

theorem ThrowsOnly.modify (Q : ε → Prop) (f : σ → σ) : ThrowsOnly Q (modify f : Code σ ε Unit) :=
  fun _ _ h => by cases h

theorem ThrowsOnly.bind {Q : ε → Prop} {m : Code σ ε α} {f : α → Code σ ε β} (hm : ThrowsOnly Q m)
    (hf : ∀ a, ThrowsOnly Q (f a)) : ThrowsOnly Q (m >>= f) := by
  intro s e h
  rw [bind_apply] at h
  cases hs : m s with
  | mk o s' =>
    rw [hs] at h
    cases o with
    | ret a => exact hf a s' e h
    | throws e' =>
      cases h
      exact hm s e (by rw [hs])
    | undefined => cases h

/-- After a `try` block that keeps `I` the handlers only see exceptions that it throws. -/
theorem Preserves.after_attempt {I : σ → Prop} {Q : γ → Prop} {catches : ε → Option γ} {m : Code σ ε α}
    {f : Except γ α → Code σ ε β} {s : σ} (hs : I s) (hm : Preserves I m)
    (hthrows : ∀ e c, (m s).1 = .throws e → catches e = some c → Q c)
    (hf : ∀ result, (∀ c, result = .error c → Q c) → Preserves I (f result)) :
    I ((Code.attempt catches m >>= f) s).2 := by
  have hI := hm s hs
  rw [bind_apply]
  unfold Code.attempt
  cases hrun : m s with
  | mk o s' =>
    rw [hrun] at hI hthrows
    cases o with
    | ret a => exact hf (.ok a) (fun c hc => by cases hc) s' hI
    | undefined => exact hI
    | throws e =>
      dsimp only
      cases hc : catches e with
      | none => exact hI
      | some c =>
        refine hf (.error c) (fun c' hc' => ?_) s' hI
        cases hc'
        exact hthrows e c rfl hc

end Code

end Cxx
