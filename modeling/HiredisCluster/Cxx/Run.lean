/-!
# Runs of a transition system

A run starts in an initial state and takes labelled steps; its history lists the steps taken, each as the state
before it and its label, oldest first.  A property of all reachable states is proved once per step
(`Run.invariant`), a property that a condition on the steps protects by `Run.invariant_of`, and `Run.iff_forall` turns
a step-wise equivalence into one about whole runs.
-/

namespace Cxx

variable {σ τ : Type}

/-- `Run init step s h`: the state `s` is reached from an initial state by the steps of the history `h`. -/
inductive Run (init : σ → Prop) (step : σ → τ → σ → Prop) : σ → List (σ × τ) → Prop where
  | start {s : σ} (h : init s) : Run init step s []
  | next {s s' : σ} {t : τ} {hist : List (σ × τ)} (r : Run init step s hist) (h : step s t s') :
      Run init step s' (hist ++ [(s, t)])

namespace Run

variable {init : σ → Prop} {step : σ → τ → σ → Prop} {s : σ} {hist : List (σ × τ)}

/-- What holds initially and is kept by every step holds in every reachable state. -/
theorem invariant {I : σ → Prop} (h0 : ∀ s, init s → I s) (hs : ∀ s t s', I s → step s t s' → I s')
    (r : Run init step s hist) : I s := by
  induction r with
  | start h => exact h0 _ h
  | next _ h ih => exact hs _ _ _ ih h

/-- A property kept by the steps that meet a condition holds after a run of such steps; `I` is an invariant of all
steps. -/
theorem invariant_of {I P : σ → Prop} {C : σ → τ → Prop} (hI : ∀ s h, Run init step s h → I s)
    (h0 : ∀ s, init s → P s) (hs : ∀ s t s', I s → P s → C s t → step s t s' → P s')
    (r : Run init step s hist) (hc : ∀ p ∈ hist, C p.1 p.2) : P s := by
  induction r with
  | start h => exact h0 _ h
  | next r h ih =>
    have hp := ih fun p hp => hc p (List.mem_append_left _ hp)
    exact hs _ _ _ (hI _ _ r) hp (hc _ (List.mem_append_right _ (List.mem_singleton.2 rfl))) h

/-- A property of states that holds initially and that a step keeps exactly when it meets a condition holds of a
reached state exactly when all steps of the run met the condition. -/
theorem iff_forall {I P : σ → Prop} {C : σ → τ → Prop} (hI : ∀ s h, Run init step s h → I s)
    (h0 : ∀ s, init s → P s) (hs : ∀ s t s', I s → step s t s' → (P s' ↔ P s ∧ C s t))
    (r : Run init step s hist) : P s ↔ ∀ p ∈ hist, C p.1 p.2 := by
  induction r with
  | start h => exact ⟨fun _ p hp => absurd hp (List.not_mem_nil), fun _ => h0 _ h⟩
  | next r h ih =>
    rw [hs _ _ _ (hI _ _ r) h, ih]
    constructor
    · rintro ⟨h1, h2⟩ p hp
      rcases List.mem_append.1 hp with hp | hp
      · exact h1 p hp
      · rw [List.mem_singleton.1 hp]; exact h2
    · intro h1
      exact ⟨fun p hp => h1 p (List.mem_append_left _ hp),
        h1 _ (List.mem_append_right _ (List.mem_singleton.2 rfl))⟩

/-- A property that a step keeps exactly under a condition holds in every state of a run exactly when all its steps met
the condition. -/
theorem always_iff {I P : σ → Prop} {C : σ → τ → Prop} (hI : ∀ s h, Run init step s h → I s)
    (h0 : ∀ s, init s → P s) (hs : ∀ s t s', I s → P s → step s t s' → (P s' ↔ C s t))
    (r : Run init step s hist) : ((∀ p ∈ hist, P p.1) ∧ P s) ↔ ∀ p ∈ hist, C p.1 p.2 := by
  induction r with
  | start h => exact iff_of_true ⟨fun p hp => absurd hp List.not_mem_nil, h0 _ h⟩ fun p hp => absurd hp List.not_mem_nil
  | next r h ih =>
    constructor
    · rintro ⟨hall, hlast⟩ p hp
      have hprev := hall _ (List.mem_append_right _ (List.mem_singleton.2 rfl))
      rcases List.mem_append.1 hp with hp | hp
      · exact ih.1 ⟨fun q hq => hall q (List.mem_append_left _ hq), hprev⟩ p hp
      · rw [List.mem_singleton.1 hp]
        exact (hs _ _ _ (hI _ _ r) hprev h).1 hlast
    · intro hall
      obtain ⟨hbefore, hprev⟩ := ih.2 fun q hq => hall q (List.mem_append_left _ hq)
      refine ⟨fun p hp => ?_, ?_⟩
      · rcases List.mem_append.1 hp with hp | hp
        · exact hbefore p hp
        · rw [List.mem_singleton.1 hp]
          exact hprev
      · exact (hs _ _ _ (hI _ _ r) hprev h).2 (hall _ (List.mem_append_right _ (List.mem_singleton.2 rfl)))

/-- A run of a system is a run of any system that has its steps. -/
theorem mono {step' : σ → τ → σ → Prop} (h : ∀ s t s', step s t s' → step' s t s') (r : Run init step s hist) :
    Run init step' s hist := by
  induction r with
  | start h0 => exact .start h0
  | next _ hs ih => exact ih.next (h _ _ _ hs)

/-- A run is a run from any set of initial states that has its own. -/
theorem weaken {init' : σ → Prop} (h : ∀ s, init s → init' s) (r : Run init step s hist) : Run init' step s hist := by
  induction r with
  | start h0 => exact .start (h _ h0)
  | next _ hs ih => exact ih.next hs

/-- The state before a step of a run is reachable, and the step was taken from it. -/
theorem of_mem (r : Run init step s hist) {p : σ × τ} (hp : p ∈ hist) :
    (∃ h, Run init step p.1 h) ∧ ∃ s', step p.1 p.2 s' := by
  induction r with
  | start h => exact absurd hp (List.not_mem_nil)
  | next r h ih =>
    rcases List.mem_append.1 hp with hp | hp
    · exact ih hp
    · rw [List.mem_singleton.1 hp]
      exact ⟨⟨_, r⟩, _, h⟩

end Run

/-! ### Runs of a function -/

/-- The state after some steps of a function. -/
def after (f : σ → τ → σ) (s : σ) (ts : List τ) : σ := ts.foldl f s

/-- The states the steps are taken in, with the steps. -/
def trail (f : σ → τ → σ) : σ → List τ → List (σ × τ)
  | _, [] => []
  | s, t :: ts => (s, t) :: trail f (f s t) ts

/-- Steps that are possible where they are taken make a run. -/
theorem Run.follow {init : σ → Prop} {step : σ → τ → σ → Prop} {f : σ → τ → σ} {s : σ} {hist : List (σ × τ)}
    (r : Run init step s hist) (ts : List τ) (h : ∀ p ∈ trail f s ts, step p.1 p.2 (f p.1 p.2)) :
    Run init step (after f s ts) (hist ++ trail f s ts) := by
  induction ts generalizing s hist with
  | nil => rw [trail, List.append_nil]; exact r
  | cons t ts ih =>
    have first := h (s, t) List.mem_cons_self
    have run := ih (r.next first) fun p hp => h p (List.mem_cons_of_mem _ hp)
    rwa [List.append_assoc] at run

end Cxx
