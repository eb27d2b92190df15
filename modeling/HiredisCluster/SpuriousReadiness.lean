import HiredisCluster.BoostAsioAdapter
import Mathlib.Data.List.Count

/-!
# Readiness that nobody asked for

A wait of Boost.Asio cannot be taken back: `del_read` and `del_write` leave the one that is in progress, and hiredis is
told when it completes.  `spurious_le` is an account of this over whole runs.
-/

namespace HiredisCluster.BoostAsio

open Cxx

namespace Adapter

variable {κ : Type}

/-- The hooks of a context call the members of a client of the context. -/
def Linked (s : Adapter κ) : Prop :=
  ∀ ac i, s.data ac = some i → ∃ c, s.clients[i]? = some c ∧ c.context = ac

/-- hiredis is told of a direction that it does not ask for. -/
def spurious (i : Nat) (d : Direction) : Adapter κ × Stimulus κ → Bool
  | (s, .completed j e .success _) => i = j ∧ d = e ∧ (s.clients[i]?.any fun c => !(c.watch d).requested)
  | _ => false

end Adapter

/-- The calls that a stimulus makes. -/
def Stimulus.calls {κ : Type} : Stimulus κ → List (Call κ)
  | .call a => [a]
  | .completed _ _ .success calls => calls
  | .completed _ _ _ _ => []

/-- How often hiredis has taken back that it asked for a direction of a context. -/
def deletions {κ : Type} [DecidableEq κ] (ac : κ) (d : Direction) (hist : List (Adapter κ × Stimulus κ)) : Nat :=
  (hist.flatMap fun p => p.2.calls).count (.del d ac)

namespace Adapter

variable {κ : Type} [DecidableEq κ] {s s' : Adapter κ} {t : Stimulus κ}

omit [DecidableEq κ] in
private theorem linked_onClient {i : Nat} {f : RedisBoostClient κ → RedisBoostClient κ} (h : s.Linked)
    (hf : ∀ c, (f c).context = c.context) : (s.onClient i f).Linked := by
  intro ac j hj
  obtain ⟨c, hc, hac⟩ := h ac j hj
  by_cases hij : i = j
  · exact ⟨f c, by simp [onClient, hij, hc], (hf c).trans hac⟩
  · exact ⟨c, by simp [onClient, hij, hc], hac⟩

theorem Linked.perform (h : s.Linked) (a : Call κ) : (s.perform a).Linked := by
  have hook : ∀ ac f, (∀ c : RedisBoostClient κ, (f c).context = c.context) → (s.hook ac f).Linked := by
    intro ac f hf
    unfold Adapter.hook
    split
    · exact h
    · exact linked_onClient h hf
  cases a with
  | attachContext ac =>
    intro ac' i hi
    unfold Adapter.perform attachContext at *
    by_cases hac : ac' = ac
    · subst hac
      obtain rfl : s.clients.length = i := by simpa using hi
      exact ⟨.new ac', by simp, rfl⟩
    · obtain ⟨c, hc, hctx⟩ := h ac' i (by simpa [hac] using hi)
      have hlt := (List.getElem?_eq_some_iff.1 hc).1
      refine ⟨c, ?_, hctx⟩
      rwa [List.getElem?_append_left hlt]
  | add d ac => exact hook ac _ fun c => RedisBoostClient.context_add
  | del d ac => exact hook ac _ fun c => RedisBoostClient.context_del
  | cleanup ac => exact hook ac _ fun c => rfl

private theorem Linked.performAll (h : s.Linked) (calls : List (Call κ)) : (calls.foldl Adapter.perform s).Linked := by
  induction calls generalizing s with
  | nil => exact h
  | cons a calls ih => exact ih (h.perform a)

private theorem Linked.step (h : s.Linked) (hstep : Step s t s') : s'.Linked := by
  rcases step_cases hstep with ⟨a, -, rfl⟩ | ⟨i, d, ec, calls, c, -, -, -, rfl⟩
  · exact h.perform a
  · have noted : (s.onClient i (·.onWatch .completed d)).Linked :=
      linked_onClient h fun c => RedisBoostClient.context_onWatch _
    cases ec with
    | success => exact linked_onClient (noted.performAll calls) fun c => rfl
    | wouldBlock => exact linked_onClient noted fun c => rfl
    | other => exact noted

private theorem linked_of_run {hist : List (Adapter κ × Stimulus κ)} (r : Run Fresh Step s hist) : s.Linked := by
  apply Run.invariant (I := Linked) _ (fun _ _ _ h hstep => h.step hstep) r
  intro s0 h0 ac i hi
  rw [h0.2 ac] at hi
  cases hi

/-- `told` counts how often hiredis was told of what it did not ask for, `taken` how often it took back that it asked:
no more often was it told, and once less while a wait is in progress that nobody asks for any more. -/
structure Bounded (told : Nat → Direction → Nat) (taken : κ → Direction → Nat) (s : Adapter κ) : Prop where
  le : Everywhere (fun i c => ∀ d, told i d + (c.watch d).stale ≤ taken c.context d) s
  unborn : ∀ i d, s.clients.length ≤ i → told i d = 0

variable {told : Nat → Direction → Nat} {taken : κ → Direction → Nat}

theorem Bounded.perform (h : s.Bounded told taken) (hl : s.Linked) (a : Call κ) :
    (s.perform a).Bounded told fun ac d => taken ac d + [a].count (.del d ac) := by
  have wider : Everywhere (fun i c => ∀ d, told i d + (c.watch d).stale ≤
      taken c.context d + [a].count (.del d c.context)) s := by
    intro i c hc d
    have hle := h.le i c hc d
    omega
  have hook : ∀ ac f, (∀ (c : RedisBoostClient κ) d, (f c).context = c.context ∧
      ((f c).watch d).stale ≤ (c.watch d).stale + [a].count (.del d ac)) →
      (s.hook ac f).Bounded told fun ac d => taken ac d + [a].count (.del d ac) := by
    intro ac f hf
    unfold Adapter.hook
    split
    · exact ⟨wider, h.unborn⟩
    · rename_i i hi
      refine ⟨everywhere_onClient (fun j c _ => wider j c) fun c hc d => ?_, ?_⟩
      · obtain ⟨c', hc', hctx⟩ := hl ac i hi
        obtain rfl : c = c' := Option.some.inj (hc.symm.trans hc')
        obtain ⟨hsame, hstale⟩ := hf c d
        have hle := h.le i c hc d
        rw [hsame]
        rw [← hctx] at hstale
        omega
      · simpa [onClient] using h.unborn
  cases a with
  | attachContext ac =>
    refine ⟨everywhere_attachContext wider (fun ac d => ?_) ac, ?_⟩
    · have hzero := h.unborn s.clients.length d (Nat.le_refl _)
      have hstale : ((RedisBoostClient.new ac).watch d).stale = 0 := by cases d <;> rfl
      omega
    · intro i d hi
      apply h.unborn i d
      simp [Adapter.perform, attachContext] at hi
      omega
  | add d ac =>
    exact hook ac _ fun c e =>
      ⟨RedisBoostClient.context_add, Nat.le_add_right_of_le RedisBoostClient.stale_add_le⟩
  | del d ac =>
    apply hook ac
    intro c e
    refine ⟨RedisBoostClient.context_del, Nat.le_trans RedisBoostClient.stale_del_le ?_⟩
    by_cases hd : e = d
    · simp [hd]
    · simp [hd]
  | cleanup ac => exact hook ac _ fun c e => ⟨rfl, Nat.le_add_right _ _⟩

private theorem Bounded.performAll (h : s.Bounded told taken) (hl : s.Linked) (calls : List (Call κ)) :
    (calls.foldl Adapter.perform s).Bounded told fun ac d => taken ac d + calls.count (.del d ac) := by
  induction calls generalizing s taken with
  | nil => exact h
  | cons a calls ih =>
    have rest := ih (h.perform hl a) (hl.perform a)
    have same : (fun ac d => taken ac d + [a].count (.del d ac) + calls.count (.del d ac)) =
        fun ac d => taken ac d + (a :: calls).count (.del d ac) := by
      funext ac d
      rw [← List.singleton_append (l := calls), List.count_append]
      omega
    rwa [same] at rest

omit [DecidableEq κ] in
/-- A wait completes, and is noted: if nobody asks for it, it was in progress for nothing before. -/
theorem Bounded.noted (h : s.Bounded told taken) (hs : s.Tracked) {i : Nat} {d : Direction} {c : RedisBoostClient κ}
    (hc : s.clients[i]? = some c) (hwait : 0 < (c.watch d).waits) (ec : ErrorCode) (calls : List (Call κ)) :
    (s.onClient i (·.onWatch .completed d)).Bounded
      (fun j e => told j e + [(s, Stimulus.completed i d ec calls)].countP (spurious j e)) taken := by
  have elsewhere : ∀ j e, (j ≠ i ∨ e ≠ d) →
      [(s, Stimulus.completed i d ec calls)].countP (spurious j e) = 0 := by
    intro j e hne
    rw [List.countP_singleton]
    cases ec <;> simp only [spurious]
    · rcases hne with hne | hne <;> simp [hne]
    · rfl
    · rfl
  have here : [(s, Stimulus.completed i d ec calls)].countP (spurious i d) ≤ (c.watch d).stale := by
    have hprogress : (c.watch d).inProgress = true := by
      have htracked := hs i c hc d
      unfold Watch.Tracked at htracked
      split at htracked
      · assumption
      · omega
    rw [List.countP_singleton]
    unfold Watch.stale
    rw [hprogress]
    cases ec <;> simp [spurious, hc]
  refine ⟨everywhere_onClient (fun j c' hj hc' e => ?_) fun c' hc' e => ?_, ?_⟩
  · rw [elsewhere j e (.inl hj)]
    exact h.le j c' hc' e
  · obtain rfl : c = c' := Option.some.inj (hc.symm.trans hc')
    have hle := h.le i c hc e
    rw [RedisBoostClient.watch_onWatch, RedisBoostClient.context_onWatch]
    by_cases he : e = d
    · subst he
      rw [if_pos rfl, Watch.stale_completed]
      omega
    · rw [elsewhere i e (.inr he), if_neg he]
      exact hle
  · intro j e hj
    have hlt := (List.getElem?_eq_some_iff.1 hc).1
    simp only [onClient, List.length_modify] at hj
    rw [elsewhere j e (.inl (by omega)), h.unborn j e hj]

omit [DecidableEq κ] in
private theorem Bounded.operate (h : s.Bounded told taken) (i : Nat) : (s.onClient i .operate).Bounded told taken := by
  refine ⟨everywhere_onClient (fun j c _ => h.le j c) fun c hc d => ?_, ?_⟩
  · rw [RedisBoostClient.watch_operate, Watch.stale_operate]
    exact h.le i c hc d
  · simpa [onClient] using h.unborn

private theorem Bounded.step (h : s.Bounded told taken) (hs : s.Tracked) (hl : s.Linked) (hstep : Step s t s') :
    s'.Bounded (fun i d => told i d + [(s, t)].countP (spurious i d))
      fun ac d => taken ac d + t.calls.count (.del d ac) := by
  rcases step_cases hstep with ⟨a, rfl, rfl⟩ | ⟨i, d, ec, calls, c, rfl, hc, hwait, rfl⟩
  · exact h.perform hl a
  · have noted := h.noted hs hc hwait ec calls
    have hlinked : (s.onClient i (·.onWatch .completed d)).Linked :=
      linked_onClient hl fun c => RedisBoostClient.context_onWatch _
    cases ec with
    | success => exact (noted.performAll hlinked calls).operate i
    | wouldBlock => exact noted.operate i
    | other => exact noted

private theorem bounded_of_run {hist : List (Adapter κ × Stimulus κ)} (r : Run Fresh Step s hist) :
    s.Bounded (fun i d => hist.countP (spurious i d)) fun ac d => deletions ac d hist := by
  induction r with
  | start h => exact ⟨everywhere_of_fresh h, fun _ _ _ => rfl⟩
  | next r hstep ih =>
    have after := ih.step (tracked_of_run r) (linked_of_run r) hstep
    simpa [deletions, List.countP_append] using after

/-- For every client of a run of the event loop, hiredis is told of a direction that it does not ask for no more often
than it has taken back that it asked for it. -/
theorem spurious_le {hist : List (Adapter κ × Stimulus κ)} (r : Run Fresh Step s hist) {i : Nat}
    {c : RedisBoostClient κ} (hc : s.clients[i]? = some c) (d : Direction) :
    hist.countP (spurious i d) ≤ deletions c.context d hist := by
  have hle := (bounded_of_run r).le i c hc d
  omega

/-- The wait completes after hiredis has taken back that it asked for it. -/
def late : List (Stimulus Nat) :=
  [.call (.attachContext 7), .call (.add .read 7), .call (.del .read 7), .completed 0 .read .success []]

theorem spurious_le_late :
    (trail react ⟨[], fun _ => none⟩ late).countP (spurious 0 .read) = 1 ∧
    (trail react ⟨[], fun _ => none⟩ late).countP (spurious 0 .read) ≤
      deletions 7 .read (trail react ⟨[], fun _ => none⟩ late) := by
  have start : Run Fresh Step (⟨[], fun _ => none⟩ : Adapter Nat) [] := .start ⟨rfl, fun _ => rfl⟩
  have run : Run Fresh Step (after react ⟨[], fun _ => none⟩ late) (trail react ⟨[], fun _ => none⟩ late) := by
    apply start.follow late
    simp only [late, trail, List.forall_mem_cons]
    exact ⟨⟨trivial, rfl⟩, ⟨trivial, rfl⟩, ⟨trivial, rfl⟩, ⟨⟨_, rfl, by decide⟩, rfl⟩, by simp⟩
  have client : (after react ⟨[], fun _ => none⟩ late).clients[0]? =
      some ⟨7, ⟨false, false, 0⟩, ⟨false, false, 0⟩⟩ := rfl
  exact ⟨by decide, spurious_le run client .read⟩

end Adapter

end HiredisCluster.BoostAsio
