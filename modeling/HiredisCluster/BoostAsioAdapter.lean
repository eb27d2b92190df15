import HiredisCluster.Cxx.Run
import Mathlib.Logic.Function.Basic

/-!
# The adapter for Boost.Asio

hiredis tells its event loop with hooks which directions of a socket it wants to hear of, and is told every time the
socket is ready.  Boost.Asio waits for a readiness once.  `redisBoostClient` has two flags for each direction to make
one out of the other: what hiredis asked for, and whether a wait is in progress.  `watched_iff` says when a direction
that was asked for is waited for in every state of a run, and `spurious_le` how often hiredis hears of a direction
that it did not ask for.
-/

namespace HiredisCluster.BoostAsio

open Cxx

inductive Direction where
  | read
  | write
  deriving DecidableEq

/-- The error code that a wait completes with. -/
inductive ErrorCode where
  | success
  | wouldBlock
  | other
  deriving DecidableEq

/-- What a client knows of a direction, and the waits of its socket for the direction that have not completed. -/
structure Watch where
  requested : Bool
  inProgress : Bool
  waits : Nat
  deriving DecidableEq

/-- `redisBoostClient`; its flags are `read_requested_`, `read_in_progress_`, and so on. -/
structure RedisBoostClient (κ : Type) where
  context : κ
  read : Watch
  write : Watch

namespace Watch

/-- The part of `operate` for a direction. -/
def operate (w : Watch) : Watch :=
  if w.requested && !w.inProgress then { w with inProgress := true, waits := w.waits + 1 } else w

/-- A wait has completed, and its handler notes it. -/
def completed (w : Watch) : Watch := { w with inProgress := false, waits := w.waits - 1 }

/-- A wait is in progress exactly if the flag says so. -/
def Tracked (w : Watch) : Prop := w.waits = if w.inProgress then 1 else 0

/-- A wait is in progress if it is asked for. -/
def Armed (w : Watch) : Prop := w.requested = true → w.waits = 1

/-- A wait for what is not asked for any more. -/
def stale (w : Watch) : Nat := if w.inProgress && !w.requested then 1 else 0

variable {w : Watch}

private theorem Tracked.operate (h : w.Tracked) : w.operate.Tracked := by
  unfold Tracked at *
  unfold Watch.operate
  by_cases hp : w.inProgress = true
  · simp [hp] at *
    exact h
  · by_cases hr : w.requested = true
    · simp [hp, hr] at *
      exact h
    · simp [hp, hr] at *
      exact h

private theorem Tracked.armed (h : w.Tracked) : w.operate.Armed := by
  unfold Tracked at h
  unfold Armed Watch.operate
  by_cases hp : w.inProgress = true
  · simp [hp] at *
    exact fun _ => h
  · by_cases hr : w.requested = true
    · simp [hp, hr] at *
      exact h
    · simp [hr]

private theorem Tracked.completed (h : w.Tracked) : w.completed.Tracked := by
  unfold Tracked at *
  unfold Watch.completed
  by_cases hp : w.inProgress = true
  · simp [hp] at *
    omega
  · simp [hp] at *
    omega

private theorem Tracked.request (h : w.Tracked) (b : Bool) : ({ w with requested := b } : Watch).Tracked := h

theorem stale_operate : w.operate.stale = w.stale := by
  unfold stale Watch.operate
  by_cases hr : w.requested = true
  · by_cases hp : w.inProgress = true <;> simp [hr, hp]
  · simp [hr]

theorem stale_completed : w.completed.stale = 0 := rfl

private theorem stale_add : ({ w with requested := true } : Watch).stale = 0 := by simp [stale]

private theorem stale_le_one : w.stale ≤ 1 := by
  unfold stale
  split <;> omega

end Watch

namespace RedisBoostClient

variable {κ : Type}

def watch (c : RedisBoostClient κ) : Direction → Watch
  | .read => c.read
  | .write => c.write

def onWatch (c : RedisBoostClient κ) (f : Watch → Watch) : Direction → RedisBoostClient κ
  | .read => { c with read := f c.read }
  | .write => { c with write := f c.write }

/-- The constructor. -/
def new (ac : κ) : RedisBoostClient κ where
  context := ac
  read := { requested := false, inProgress := false, waits := 0 }
  write := { requested := false, inProgress := false, waits := 0 }

def operate (c : RedisBoostClient κ) : RedisBoostClient κ :=
  { c with read := c.read.operate, write := c.write.operate }

/-- What `add_read` and `add_write` do. -/
def add (d : Direction) (c : RedisBoostClient κ) : RedisBoostClient κ :=
  (c.onWatch (fun w => { w with requested := true }) d).operate

/-- What `del_read` and `del_write` do. -/
def del (d : Direction) (c : RedisBoostClient κ) : RedisBoostClient κ :=
  c.onWatch (fun w => { w with requested := false }) d

def addRead (c : RedisBoostClient κ) : RedisBoostClient κ := c.add .read

def addWrite (c : RedisBoostClient κ) : RedisBoostClient κ := c.add .write

def delRead (c : RedisBoostClient κ) : RedisBoostClient κ := c.del .read

def delWrite (c : RedisBoostClient κ) : RedisBoostClient κ := c.del .write

/-- It only prints a line. -/
def cleanup (c : RedisBoostClient κ) : RedisBoostClient κ := c

variable {c : RedisBoostClient κ} {d e : Direction}

@[simp] theorem watch_onWatch (f : Watch → Watch) :
    (c.onWatch f e).watch d = if d = e then f (c.watch d) else c.watch d := by
  cases d <;> cases e <;> rfl

@[simp] theorem watch_operate : c.operate.watch d = (c.watch d).operate := by cases d <;> rfl

@[simp] theorem context_onWatch (f : Watch → Watch) : (c.onWatch f d).context = c.context := by cases d <;> rfl

@[simp] theorem context_operate : c.operate.context = c.context := rfl

@[simp] theorem context_add : (c.add d).context = c.context := by simp [add]

@[simp] theorem context_del : (c.del d).context = c.context := by simp [del]

/-- For each direction the flag says whether a wait is in progress; there is never more than one. -/
def Tracked (c : RedisBoostClient κ) : Prop := ∀ d, (c.watch d).Tracked

/-- Each direction that the client was asked for is waited for. -/
def Armed (c : RedisBoostClient κ) : Prop := ∀ d, (c.watch d).Armed

private theorem tracked_new (ac : κ) : (new ac).Tracked := by
  intro d
  cases d <;> rfl

private theorem armed_new (ac : κ) : (new ac).Armed := by
  intro d h
  cases d <;> cases h

private theorem Tracked.onWatch {f : Watch → Watch} (h : c.Tracked) (hf : ∀ w : Watch, w.Tracked → (f w).Tracked)
    (e : Direction) : (c.onWatch f e).Tracked := by
  intro d
  rw [watch_onWatch]
  by_cases hd : d = e
  · rw [if_pos hd]
    exact hf _ (h d)
  · rw [if_neg hd]
    exact h d

private theorem Tracked.operate (h : c.Tracked) : c.operate.Tracked := by
  intro d
  rw [watch_operate]
  exact (h d).operate

/-- `operate` starts all the waits that are missing. -/
private theorem Tracked.armed (h : c.Tracked) : c.operate.Armed := by
  intro d
  rw [watch_operate]
  exact (h d).armed

private theorem Tracked.request (h : c.Tracked) (b : Bool) (e : Direction) :
    (c.onWatch (fun w => { w with requested := b }) e).Tracked :=
  h.onWatch (fun _ hw => hw.request b) e

private theorem Tracked.add (h : c.Tracked) (e : Direction) : (c.add e).Tracked := (h.request true e).operate

private theorem Tracked.del (h : c.Tracked) (e : Direction) : (c.del e).Tracked := h.request false e

private theorem Armed.del (h : c.Armed) (e : Direction) : (c.del e).Armed := by
  intro d
  unfold RedisBoostClient.del
  rw [watch_onWatch]
  by_cases hd : d = e
  · rw [if_pos hd]
    intro hr
    cases hr
  · rw [if_neg hd]
    exact h d

theorem stale_add_le : ((c.add e).watch d).stale ≤ (c.watch d).stale := by
  unfold add
  rw [watch_operate, Watch.stale_operate, watch_onWatch]
  by_cases hd : d = e
  · rw [if_pos hd, Watch.stale_add]
    exact Nat.zero_le _
  · exact Nat.le_of_eq (by rw [if_neg hd])

theorem stale_del_le : ((c.del e).watch d).stale ≤ (c.watch d).stale + if d = e then 1 else 0 := by
  unfold del
  rw [watch_onWatch]
  by_cases hd : d = e
  · rw [if_pos hd, if_pos hd]
    exact Nat.le_trans Watch.stale_le_one (Nat.le_add_left 1 _)
  · rw [if_neg hd, if_neg hd]
    omega

end RedisBoostClient

/-- `BoostAsioAdapter`, with the `ev.data` of the contexts, the client whose members the hooks call. -/
structure Adapter (κ : Type) where
  clients : List (RedisBoostClient κ)
  data : κ → Option Nat

/-- A call of the adapter or of a hook of a context. -/
inductive Call (κ : Type) where
  | attachContext (ac : κ)
  | add (d : Direction) (ac : κ)
  | del (d : Direction) (ac : κ)
  | cleanup (ac : κ)
  deriving DecidableEq

/-- What happens: a call, or a wait of a client completes.  If that calls `redisAsyncHandleRead` or
`redisAsyncHandleWrite`, hiredis and the callbacks of its user make calls in turn. -/
inductive Stimulus (κ : Type) where
  | call (a : Call κ)
  | completed (client : Nat) (d : Direction) (ec : ErrorCode) (calls : List (Call κ))

namespace Adapter

variable {κ : Type} [DecidableEq κ]

/-- The `BoostAsioAdapter` is made, and no context has a hook. -/
def Fresh (s : Adapter κ) : Prop := s.clients = [] ∧ ∀ ac, s.data ac = none

def onClient (s : Adapter κ) (i : Nat) (f : RedisBoostClient κ → RedisBoostClient κ) : Adapter κ :=
  { s with clients := s.clients.modify i f }

/-- It always returns `REDIS_OK`. -/
def attachContext (s : Adapter κ) (ac : κ) : Adapter κ where
  clients := s.clients ++ [.new ac]
  data := Function.update s.data ac (some s.clients.length)

/-- The hooks do nothing before the context is attached. -/
def hook (s : Adapter κ) (ac : κ) (f : RedisBoostClient κ → RedisBoostClient κ) : Adapter κ :=
  match s.data ac with
  | none => s
  | some i => s.onClient i f

def perform (s : Adapter κ) : Call κ → Adapter κ
  | .attachContext ac => s.attachContext ac
  | .add d ac => s.hook ac (·.add d)
  | .del d ac => s.hook ac (·.del d)
  | .cleanup ac => s.hook ac (·.cleanup)

/-- What `handle_read` and `handle_write` do, where `redisAsyncHandleRead` or `redisAsyncHandleWrite` makes the
calls. -/
def handle (d : Direction) (s : Adapter κ) (i : Nat) (ec : ErrorCode) (calls : List (Call κ)) : Adapter κ :=
  let noted := s.onClient i (·.onWatch .completed d)
  let handled := if ec = .success then calls.foldl perform noted else noted
  if ec = .success ∨ ec = .wouldBlock then handled.onClient i .operate else handled

def handleRead (s : Adapter κ) (i : Nat) (ec : ErrorCode) (calls : List (Call κ)) : Adapter κ :=
  handle .read s i ec calls

def handleWrite (s : Adapter κ) (i : Nat) (ec : ErrorCode) (calls : List (Call κ)) : Adapter κ :=
  handle .write s i ec calls

/-- What a stimulus does. -/
def react (s : Adapter κ) : Stimulus κ → Adapter κ
  | .call a => s.perform a
  | .completed i .read ec calls => s.handleRead i ec calls
  | .completed i .write ec calls => s.handleWrite i ec calls

/-- Only a wait that is in progress completes. -/
def Possible (s : Adapter κ) : Stimulus κ → Prop
  | .call _ => True
  | .completed i d _ _ => ∃ c, s.clients[i]? = some c ∧ 0 < (c.watch d).waits

def Step (s : Adapter κ) (t : Stimulus κ) (s' : Adapter κ) : Prop := s.Possible t ∧ s' = s.react t

/-! ### What holds of all clients -/

/-- `Q` holds of every client, which may depend on its place. -/
def Everywhere (Q : Nat → RedisBoostClient κ → Prop) (s : Adapter κ) : Prop :=
  ∀ i c, s.clients[i]? = some c → Q i c

/-- For every direction of every client the flag says whether a wait is in progress; there is never more than one. -/
def Tracked (s : Adapter κ) : Prop := Everywhere (fun _ c => c.Tracked) s

/-- Every direction that a client was asked for is waited for. -/
def Watched (s : Adapter κ) : Prop := Everywhere (fun _ c => c.Armed) s

variable {s s' : Adapter κ} {Q : Nat → RedisBoostClient κ → Prop} {t : Stimulus κ}

omit [DecidableEq κ] in
theorem everywhere_onClient {i : Nat} {f : RedisBoostClient κ → RedisBoostClient κ}
    (hother : ∀ j c, j ≠ i → s.clients[j]? = some c → Q j c) (hat : ∀ c, s.clients[i]? = some c → Q i (f c)) :
    Everywhere Q (s.onClient i f) := by
  intro j c hj
  unfold onClient at hj
  rw [List.getElem?_modify] at hj
  by_cases hij : i = j
  · subst hij
    obtain ⟨c0, hc0, rfl⟩ : ∃ c0, s.clients[i]? = some c0 ∧ f c0 = c := by simpa using hj
    exact hat c0 hc0
  · exact hother j c (Ne.symm hij) (by simpa [hij] using hj)

theorem everywhere_attachContext (h : Everywhere Q s) (hnew : ∀ ac, Q s.clients.length (.new ac)) (ac : κ) :
    Everywhere Q (s.attachContext ac) := by
  intro j c hj
  unfold attachContext at hj
  rw [List.getElem?_append] at hj
  by_cases hlt : j < s.clients.length
  · rw [if_pos hlt] at hj
    exact h j c hj
  · rw [if_neg hlt] at hj
    have hlast : j = s.clients.length := by
      have hbound := (List.getElem?_eq_some_iff.1 hj).1
      simp at hbound
      omega
    subst hlast
    obtain rfl : RedisBoostClient.new ac = c := by simpa using hj
    exact hnew ac

omit [DecidableEq κ] in
private theorem everywhere_hook {f : RedisBoostClient κ → RedisBoostClient κ} (h : Everywhere Q s)
    (hf : ∀ i c, Q i c → Q i (f c)) (ac : κ) : Everywhere Q (s.hook ac f) := by
  unfold hook
  split
  · exact h
  · exact everywhere_onClient (fun j c _ => h j c) fun c hc => hf _ c (h _ c hc)

/-- What every new client has and the hooks keep survives all calls. -/
private theorem everywhere_perform (hnew : ∀ i ac, Q i (.new ac)) (hadd : ∀ i c d, Q i c → Q i (c.add d))
    (hdel : ∀ i c d, Q i c → Q i (c.del d)) (calls : List (Call κ)) (h : Everywhere Q s) :
    Everywhere Q (calls.foldl perform s) := by
  induction calls generalizing s with
  | nil => exact h
  | cons a calls ih =>
    apply ih
    cases a with
    | attachContext ac => exact everywhere_attachContext h (hnew _) ac
    | add d ac => exact everywhere_hook h (fun i c => hadd i c d) ac
    | del d ac => exact everywhere_hook h (fun i c => hdel i c d) ac
    | cleanup ac => exact everywhere_hook h (fun _ _ hc => hc) ac

theorem step_cases (h : Step s t s') :
    (∃ a, t = .call a ∧ s' = s.perform a) ∨
    ∃ i d ec calls c, t = .completed i d ec calls ∧ s.clients[i]? = some c ∧ 0 < (c.watch d).waits ∧
      s' = s.handle d i ec calls := by
  obtain ⟨hpossible, rfl⟩ := h
  cases t with
  | call a => exact .inl ⟨a, rfl, rfl⟩
  | completed i d ec calls =>
    obtain ⟨c, hc, hwait⟩ := hpossible
    exact .inr ⟨i, d, ec, calls, c, rfl, hc, hwait, by cases d <;> rfl⟩

/-! ### Lost waits -/

theorem Tracked.perform (h : s.Tracked) (calls : List (Call κ)) : (calls.foldl perform s).Tracked :=
  everywhere_perform (fun _ => RedisBoostClient.tracked_new) (fun _ _ e hc => hc.add e) (fun _ _ e hc => hc.del e)
    calls h

omit [DecidableEq κ] in
theorem Tracked.noted (h : s.Tracked) (i : Nat) (d : Direction) : (s.onClient i (·.onWatch .completed d)).Tracked :=
  everywhere_onClient (fun j c _ => h j c) fun c hc => (h i c hc).onWatch (fun _ hw => hw.completed) d

private theorem Tracked.handle (h : s.Tracked) (d : Direction) (i : Nat) (ec : ErrorCode) (calls : List (Call κ)) :
    (s.handle d i ec calls).Tracked := by
  have operate : ∀ s : Adapter κ, s.Tracked → (s.onClient i .operate).Tracked :=
    fun s hs => everywhere_onClient (fun j c _ => hs j c) fun c hc => (hs i c hc).operate
  cases ec with
  | success => exact operate _ ((h.noted i d).perform calls)
  | wouldBlock => exact operate _ (h.noted i d)
  | other => exact h.noted i d

private theorem Tracked.step (h : s.Tracked) (hstep : Step s t s') : s'.Tracked := by
  rcases step_cases hstep with ⟨a, -, rfl⟩ | ⟨i, d, ec, calls, c, -, -, -, rfl⟩
  · exact h.perform [a]
  · exact h.handle d i ec calls

omit [DecidableEq κ] in
theorem everywhere_of_fresh (h : s.Fresh) : Everywhere Q s := by
  intro i c hc
  rw [h.1] at hc
  cases hc

theorem tracked_of_run {hist : List (Adapter κ × Stimulus κ)} (r : Run Fresh Step s hist) : s.Tracked :=
  r.invariant (fun _ => everywhere_of_fresh) fun _ _ _ => Tracked.step

/-- The stimulus is not an error of a wait for a direction that is still asked for. -/
def Spared (s : Adapter κ) : Stimulus κ → Prop
  | .completed i d .other _ => ∀ c, s.clients[i]? = some c → (c.watch d).requested = false
  | _ => True

/-- The calls cannot take away the wait of a client. -/
private theorem watched_perform {I : Nat → Prop} (hs : s.Tracked) (hw : Everywhere (fun j c => I j → c.Armed) s)
    (calls : List (Call κ)) : Everywhere (fun j c => I j → c.Armed) (calls.foldl perform s) := by
  have both : Everywhere (fun j c => c.Tracked ∧ (I j → c.Armed)) s := fun j c hc => ⟨hs j c hc, hw j c hc⟩
  have after := everywhere_perform
    (fun j ac => ⟨RedisBoostClient.tracked_new ac, fun _ => RedisBoostClient.armed_new ac⟩)
    (fun j c e hc => ⟨hc.1.add e, fun _ => (hc.1.request true e).armed⟩)
    (fun j c e hc => ⟨hc.1.del e, fun hj => (hc.2 hj).del e⟩) calls both
  exact fun j c hc => (after j c hc).2

omit [DecidableEq κ] in
private theorem watched_operate {i : Nat} (hs : s.Tracked) (hw : Everywhere (fun j c => j ≠ i → c.Armed) s) :
    (s.onClient i .operate).Watched :=
  everywhere_onClient (fun j c hj hc => hw j c hc hj) fun c hc => (hs i c hc).armed

omit [DecidableEq κ] in
/-- A wait that is not started again leaves its direction without one. -/
private theorem watched_noted_iff {i : Nat} {d : Direction} {c : RedisBoostClient κ} (hs : s.Tracked) (hw : s.Watched)
    (hc : s.clients[i]? = some c) :
    (s.onClient i (·.onWatch .completed d)).Watched ↔ (c.watch d).requested = false := by
  have hat : (s.onClient i (·.onWatch .completed d)).clients[i]? = some (c.onWatch .completed d) := by
    simp [onClient, hc]
  constructor
  · intro hw'
    by_cases hr : (c.watch d).requested = true
    · have harmed := hw' i _ hat d
      rw [RedisBoostClient.watch_onWatch, if_pos rfl] at harmed
      have hleft : (c.watch d).waits - 1 = 1 := harmed hr
      have htracked := hs i c hc d
      unfold Watch.Tracked at htracked
      split at htracked <;> omega
    · simpa using hr
  · intro hr
    apply everywhere_onClient (fun j c _ => hw j c)
    intro c' hc' e
    obtain rfl : c = c' := Option.some.inj (hc.symm.trans hc')
    rw [RedisBoostClient.watch_onWatch]
    by_cases he : e = d
    · rw [if_pos he]
      intro hasked
      have hasked' : (c.watch e).requested = true := hasked
      rw [he, hr] at hasked'
      cases hasked'
    · rw [if_neg he]
      exact hw i c hc' e

private theorem watched_step (hs : s.Tracked) (hw : s.Watched) (hstep : Step s t s') : s'.Watched ↔ s.Spared t := by
  rcases step_cases hstep with ⟨a, rfl, rfl⟩ | ⟨i, d, ec, calls, c, rfl, hc, -, rfl⟩
  · have kept := watched_perform (I := fun _ => True) hs (fun j c hc _ => hw j c hc) [a]
    exact iff_of_true (fun j c hc => kept j c hc trivial) trivial
  · have others : Everywhere (fun j c => j ≠ i → c.Armed) (s.onClient i (·.onWatch .completed d)) :=
      everywhere_onClient (fun j c _ hc _ => hw j c hc) fun c _ hne => absurd rfl hne
    cases ec with
    | success =>
      have kept := watched_perform (hs.noted i d) others calls
      exact iff_of_true (watched_operate ((hs.noted i d).perform calls) kept) trivial
    | wouldBlock => exact iff_of_true (watched_operate (hs.noted i d) others) trivial
    | other =>
      apply (watched_noted_iff hs hw hc).trans
      constructor
      · intro hr c' hc'
        rwa [← Option.some.inj (hc.symm.trans hc')]
      · exact fun hspared => hspared c hc

/-- In a run of the event loop every direction that hiredis asks for is waited for in every state exactly if no wait
ends with an error, other than that it would block, while its direction is asked for. -/
theorem watched_iff {hist : List (Adapter κ × Stimulus κ)} (r : Run Fresh Step s hist) :
    ((∀ p ∈ hist, p.1.Watched) ∧ s.Watched) ↔ ∀ p ∈ hist, p.1.Spared p.2 :=
  Run.always_iff (P := Watched) (C := Spared) (fun _ _ r => tracked_of_run r) (fun _ => everywhere_of_fresh)
    (fun _ _ _ hs hw => watched_step hs hw) r

/-- hiredis asks to read, and the wait completes three times: with data, as a false alarm, and with data that makes it
write as well. -/
def reading : List (Stimulus Nat) :=
  [.call (.attachContext 7), .call (.add .read 7), .completed 0 .read .success [.add .read 7],
    .completed 0 .read .wouldBlock [], .completed 0 .read .success [.add .write 7]]

theorem watched_iff_reading :
    (∀ p ∈ trail react ⟨[], fun _ => none⟩ reading, p.1.Watched) ∧ (after react ⟨[], fun _ => none⟩ reading).Watched := by
  have start : Run Fresh Step (⟨[], fun _ => none⟩ : Adapter Nat) [] := .start ⟨rfl, fun _ => rfl⟩
  have run : Run Fresh Step (after react ⟨[], fun _ => none⟩ reading) (trail react ⟨[], fun _ => none⟩ reading) := by
    apply start.follow reading
    simp only [reading, trail, List.forall_mem_cons]
    exact ⟨⟨trivial, rfl⟩, ⟨trivial, rfl⟩, ⟨⟨_, rfl, by decide⟩, rfl⟩, ⟨⟨_, rfl, by decide⟩, rfl⟩,
      ⟨⟨_, rfl, by decide⟩, rfl⟩, by simp⟩
  apply (watched_iff run).2
  simp [reading, trail, Spared]

end Adapter

end HiredisCluster.BoostAsio
