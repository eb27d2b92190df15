import HiredisCluster.Cxx.Run
import HiredisCluster.ThreadedPool

/-!
# Pools keep their connections

Threads insert pools, pull connections from them and push them back, in any order.  A pool in the tables has
`poolSize_` connections, in its queue or in the hands of threads, as long as filling it never fails and a connection is
pushed back to the pool it was pulled from (`poolsConserved_iff`).
-/

namespace HiredisCluster

open Cxx HiredisCommand

namespace ThreadedPool

/-- A key of one of the two tables. -/
inductive PoolKey where
  | slots (range : SlotRange)
  | host (key : Bytes)
  deriving DecidableEq

/-- The pool stored under a key. -/
def find (s : ThreadedPool) : PoolKey → Option PoolPtr
  | .slots range => s.nodes_.lookup range
  | .host key => s.connections_.lookup key

/-- The `releaseConnection` for a key. -/
def release (con : ConPtr) : PoolKey → Locked Unit
  | .slots range => releaseSlotConnection (range, con)
  | .host key => releaseHostConnection key con

/-- A connection in the hands of a thread, with the key it was handed out with and the pool it was pulled from. -/
structure HeldConnection (ι : Type) where
  holder : ι
  key : PoolKey
  con : ConPtr
  pool : PoolPtr
  deriving DecidableEq

/-- The container and its threads: what they hold, and where the waiting ones wait. -/
structure Sharing (ι : Type) where
  container : ThreadedPool
  held : List (HeldConnection ι)
  waiting : ι → Option (PoolKey × PoolPtr)

/-- What a thread does while it has the lock; `results` are the ends of the calls of `connect_`, in order. -/
inductive PoolCall (ι : Type) where
  | insertSlots (slots : SlotRange) (host : Bytes) (port : Int32) (results : List ConnectResult)
  | insertHost (host port : Bytes) (results : List ConnectResult)
  | getConnection (index : SlotIndex)
  | release (conn : HeldConnection ι)
  | wake

variable {ι : Type} [DecidableEq ι]

namespace Sharing

/-- The thread `t` waits at `place`, or nowhere. -/
def setWaiting (s : Sharing ι) (t : ι) (place : Option (PoolKey × PoolPtr)) : ι → Option (PoolKey × PoolPtr) :=
  fun u => if u = t then place else s.waiting u

/-- A section of `t` that pulls a connection has ended. -/
def obtain {κ : Type} (s : Sharing ι) (t : ι) (tag : κ → PoolKey) (x : Outcome Exn (Pulled κ) × ThreadedPool) :
    Sharing ι :=
  match x with
  | (.ret (.got (key, con) pool), c) =>
    { container := c, held := ⟨t, tag key, con, pool⟩ :: s.held, waiting := s.setWaiting t none }
  | (.ret (.waits key pool), c) =>
    { container := c, held := s.held, waiting := s.setWaiting t (some (tag key, pool)) }
  | (_, c) => { container := c, held := s.held, waiting := s.setWaiting t none }

/-- The next calls of `connect_` end with `results`. -/
def expect (s : Sharing ι) (results : List ConnectResult) : ThreadedPool := { s.container with connects := results }

/-- The number of connections pulled from a pool that threads hold. -/
def heldFrom (s : Sharing ι) (pool : PoolPtr) : Nat := s.held.countP fun h => h.pool = pool

/-- The number of connections of a pool, queued or held. -/
def size (s : Sharing ι) (pool : PoolPtr) : Nat := (s.container.queue pool).length + s.heldFrom pool

/-- Every pool in the tables has its connections. -/
def Conserved (s : Sharing ι) : Prop := ∀ key pool, s.container.find key = some pool → s.size pool = poolSize_

/-- Nothing has been inserted. -/
def Constructed (s : Sharing ι) : Prop :=
  s.container.nodes_ = .empty ∧ s.container.connections_ = .empty ∧ s.container.pools = [] ∧ s.held = [] ∧
    ∀ t, s.waiting t = none

end Sharing

namespace PoolCall

/-- A waiting thread only wakes up; a thread releases what it holds. -/
def Allowed (t : ι) (s : Sharing ι) : PoolCall ι → Prop
  | wake => s.waiting t ≠ none
  | release conn => s.waiting t = none ∧ conn ∈ s.held ∧ conn.holder = t
  | _ => s.waiting t = none

instance (t : ι) (s : Sharing ι) : (call : PoolCall ι) → Decidable (call.Allowed t s)
  | wake => inferInstanceAs (Decidable (s.waiting t ≠ none))
  | release conn => inferInstanceAs (Decidable (s.waiting t = none ∧ conn ∈ s.held ∧ conn.holder = t))
  | insertSlots .. | insertHost .. | getConnection _ => inferInstanceAs (Decidable (s.waiting t = none))

/-- The state after a section. -/
def perform (t : ι) (s : Sharing ι) : PoolCall ι → Sharing ι
  | insertSlots slots host port results =>
    { s with container := (ThreadedPool.insertSlots slots host port (s.expect results)).2 }
  | insertHost host port results => s.obtain t .host (ThreadedPool.insertHost host port (s.expect results))
  | getConnection index => s.obtain t .slots (ThreadedPool.getConnection index s.container)
  | release conn =>
    { s with container := (ThreadedPool.release conn.con conn.key s.container).2, held := s.held.erase conn }
  | wake =>
    match s.waiting t with
    | some (key, pool) => s.obtain t id (pullConnection key pool s.container)
    | none => s

/-- A pool that is made is filled, and a connection goes back to the pool it came from. -/
def Conserves (s : Sharing ι) : PoolCall ι → Prop
  | insertSlots _ _ _ results => Connects poolSize_ results
  | insertHost host port results => s.container.find (.host (DefaultContainer.hostKey host port)) = none →
      (∃ n, stoi port = .ret n) ∧ Connects poolSize_ results
  | release conn => s.container.find conn.key = some conn.pool
  | _ => True

end PoolCall

/-- The state after a section of one of the threads. -/
def Sharing.exec (s : Sharing ι) (e : ι × PoolCall ι) : Sharing ι := e.2.perform e.1 s

/-- A run of the container with its threads: one section after the other. -/
abbrev PoolRun : Sharing ι → List (Sharing ι × ι × PoolCall ι) → Prop :=
  Run Sharing.Constructed fun s e s' => e.2.Allowed e.1 s ∧ s' = s.exec e

/-! ### What a section does to the sizes -/

namespace Sharing

/-- The pools that the state mentions were made. -/
structure Valid (s : Sharing ι) : Prop where
  stored : ∀ key pool, s.container.find key = some pool → pool < s.container.pools.length
  held : ∀ h ∈ s.held, h.pool < s.container.pools.length ∧ (s.container.find h.key).isSome = true
  waiting : ∀ t key pool, s.waiting t = some (key, pool) →
    pool < s.container.pools.length ∧ (s.container.find key).isSome = true

/-- A pool was made and published under `key`, with `j` connections. -/
structure Inserted (key : PoolKey) (j : Nat) (s : Sharing ι) (c : ThreadedPool) : Prop where
  pools : c.pools = s.container.pools ++ [List.range' s.container.contexts.length j]
  found : c.find key = some s.container.pools.length
  others : ∀ key', c.find key' = some s.container.pools.length ∨ c.find key' = s.container.find key'

/-- The state with another container. -/
def put (s : Sharing ι) (c : ThreadedPool) : Sharing ι := { s with container := c }

section

omit [DecidableEq ι]

private theorem heldFrom_fresh {s : Sharing ι} (v : s.Valid) : s.heldFrom s.container.pools.length = 0 := by
  rw [heldFrom, List.countP_eq_zero]
  intro h hh hp
  rw [decide_eq_true_eq] at hp
  exact absurd (v.held h hh).1 (by rw [hp]; exact Nat.lt_irrefl _)

private theorem Inserted.valid {s : Sharing ι} {key : PoolKey} {j : Nat} {c : ThreadedPool} (v : s.Valid)
    (h : Inserted key j s c) : (s.put c).Valid := by
  have grown : ∀ pool, pool < s.container.pools.length → pool < c.pools.length := by
    intro pool hp
    rw [h.pools, List.length_append]
    exact Nat.lt_succ_of_lt hp
  have kept : ∀ key', (s.container.find key').isSome = true → (c.find key').isSome = true := by
    intro key' hk
    rcases h.others key' with ho | ho <;> rw [ho]
    · rfl
    · exact hk
  refine ⟨?_, ?_, ?_⟩
  · intro key' pool hf
    have hf' : c.find key' = some pool := hf
    rcases h.others key' with ho | ho <;> rw [ho] at hf'
    · cases hf'
      show s.container.pools.length < c.pools.length
      rw [h.pools, List.length_append]
      exact Nat.lt_succ_self _
    · exact grown pool (v.stored key' pool hf')
  · intro x hx
    exact (v.held x hx).imp (grown _) (kept _)
  · intro t key' pool hw
    exact (v.waiting t key' pool hw).imp (grown _) (kept _)

/-- The new pool is as large as it was filled, the others did not change. -/
private theorem Inserted.size {s : Sharing ι} {key : PoolKey} {j : Nat} {c : ThreadedPool} (v : s.Valid)
    (h : Inserted key j s c) {pool : PoolPtr} (hp : pool ≤ s.container.pools.length) :
    (s.put c).size pool = if pool = s.container.pools.length then j else s.size pool := by
  have held : (s.put c).heldFrom pool = s.heldFrom pool := rfl
  have queue : (s.put c).container.queue pool =
      ((s.container.pools ++ [List.range' s.container.contexts.length j])[pool]?).getD [] := by
    rw [← h.pools, ← List.getD_eq_getElem?_getD]
    rfl
  unfold Sharing.size
  rw [held, queue]
  split
  · rename_i heq
    subst heq
    rw [heldFrom_fresh v, List.getElem?_concat_length]
    simp
  · rename_i hne
    rw [List.getElem?_append_left (Nat.lt_of_le_of_ne hp hne), ← List.getD_eq_getElem?_getD]
    rfl

/-- Publishing a pool conserves exactly when it is full. -/
private theorem Inserted.full_iff {s : Sharing ι} {key : PoolKey} {j : Nat} {c : ThreadedPool} (v : s.Valid)
    (h : Inserted key j s c) (hs : s.Conserved) : (s.put c).Conserved ↔ j = poolSize_ := by
  constructor
  · intro hc
    have new := hc key _ h.found
    rwa [h.size v (Nat.le_refl _), if_pos rfl] at new
  · rintro rfl key' pool hf
    have hf' : c.find key' = some pool := hf
    rcases h.others key' with ho | ho <;> rw [ho] at hf'
    · cases hf'
      rw [h.size v (Nat.le_refl _), if_pos rfl]
    · have hlt := v.stored key' pool hf'
      rw [h.size v (Nat.le_of_lt hlt), if_neg (Nat.ne_of_lt hlt)]
      exact hs key' pool hf'

/-- The queues that a change of one pool leaves. -/
theorem queue_of_ne {c c' : ThreadedPool} {pool q : PoolPtr} (h : ∀ i, i ≠ pool → c'.pools[i]? = c.pools[i]?)
    (hq : q ≠ pool) : c'.queue q = c.queue q := by
  unfold queue
  rw [List.getD_eq_getElem?_getD, List.getD_eq_getElem?_getD, h q hq]

theorem queue_of_eq {c : ThreadedPool} {pool : PoolPtr} {l : List ConPtr} (h : c.pools[pool]? = some l) :
    c.queue pool = l := by
  unfold queue
  rw [List.getD_eq_getElem?_getD, h, Option.getD_some]

end

theorem setWaiting_some {s : Sharing ι} {t u : ι} {place : Option (PoolKey × PoolPtr)} {x : PoolKey × PoolPtr}
    (h : s.setWaiting t place u = some x) : place = some x ∨ s.waiting u = some x := by
  unfold setWaiting at h
  split at h
  · exact Or.inl h
  · exact Or.inr h

omit [DecidableEq ι] in
/-- A step that keeps the tables keeps the invariant, when what is newly held or waited for is in them. -/
theorem Valid.keep {s s' : Sharing ι} (v : s.Valid) (tables : ∀ key, s'.container.find key = s.container.find key)
    (hlen : s'.container.pools.length = s.container.pools.length)
    (hheld : ∀ h ∈ s'.held, h ∈ s.held ∨
      (h.pool < s.container.pools.length ∧ (s.container.find h.key).isSome = true))
    (hwaiting : ∀ t key pool, s'.waiting t = some (key, pool) → s.waiting t = some (key, pool) ∨
      (pool < s.container.pools.length ∧ (s.container.find key).isSome = true)) : s'.Valid := by
  refine ⟨?_, ?_, ?_⟩
  · intro key pool hf
    rw [tables] at hf
    rw [hlen]
    exact v.stored key pool hf
  · intro h hh
    rw [hlen, tables]
    exact (hheld h hh).elim (v.held h) id
  · intro t key pool hw
    rw [hlen, tables]
    exact (hwaiting t key pool hw).elim (v.waiting t key pool) id

/-- A pull moves a connection from the queue into the hands of the thread, or the thread waits. -/
theorem obtain_pull {κ : Type} (s : Sharing ι) (t : ι) (tag : κ → PoolKey) (key : κ) {pool : PoolPtr} (v : s.Valid)
    (hp : pool < s.container.pools.length) (hk : (s.container.find (tag key)).isSome = true) :
    (s.obtain t tag (pullConnection key pool s.container)).Valid ∧
      ((s.obtain t tag (pullConnection key pool s.container)).Conserved ↔ s.Conserved) := by
  rcases pullConnection_cases key hp with ⟨con, rest, hq, hpull⟩ | ⟨hq, hpull⟩
  · rw [hpull]
    let s' : Sharing ι := s.obtain t tag (.ret (.got (key, con) pool),
      { s.container with pools := s.container.pools.set pool rest })
    show s'.Valid ∧ (s'.Conserved ↔ s.Conserved)
    have tables : ∀ key', s'.container.find key' = s.container.find key' := by
      intro key'
      cases key' <;> rfl
    have hlen : s'.container.pools.length = s.container.pools.length := List.length_set
    have sizes : ∀ q, s'.size q = s.size q := by
      intro q
      by_cases hqp : q = pool
      · subst hqp
        have queue' : s'.container.queue q = rest := queue_of_eq (List.getElem?_set_self hp)
        have held' : s'.heldFrom q = s.heldFrom q + 1 := by
          simp [s', heldFrom, obtain]
        rw [Sharing.size, Sharing.size, queue', held', queue_of_eq hq, List.length_cons]
        omega
      · have queue' : s'.container.queue q = s.container.queue q :=
          queue_of_ne (fun i hi => List.getElem?_set_ne (Ne.symm hi)) hqp
        have held' : s'.heldFrom q = s.heldFrom q := by
          simp [s', heldFrom, obtain, Ne.symm hqp]
        rw [Sharing.size, Sharing.size, queue', held']
    refine ⟨v.keep tables hlen ?_ ?_, ?_⟩
    · intro h hh
      rcases List.mem_cons.1 hh with rfl | hh
      · exact Or.inr ⟨hp, hk⟩
      · exact Or.inl hh
    · intro u key' q hw
      rcases setWaiting_some hw with hw | hw
      · cases hw
      · exact Or.inl hw
    · unfold Conserved
      simp only [tables, sizes]
  · rw [hpull]
    refine ⟨v.keep (fun _ => rfl) rfl (fun _ hh => Or.inl hh) ?_, Iff.rfl⟩
    intro u key' q hw
    rcases setWaiting_some hw with hw | hw
    · cases hw
      exact Or.inr ⟨hp, hk⟩
    · exact Or.inl hw

/-- A section that throws leaves the thread as it was. -/
theorem obtain_throws {κ : Type} (s : Sharing ι) (t : ι) (tag : κ → PoolKey) (e : Exn) (c : ThreadedPool)
    (v : (s.put c).Valid) : (s.obtain t tag (.throws e, c)).Valid ∧
      ((s.obtain t tag (.throws e, c)).Conserved ↔ (s.put c).Conserved) := by
  refine ⟨⟨v.stored, v.held, ?_⟩, Iff.rfl⟩
  intro u key q hw
  rcases setWaiting_some hw with hw | hw
  · cases hw
  · exact v.waiting u key q hw

theorem release_eq {c : ThreadedPool} {con : ConPtr} {key : PoolKey} {target : PoolPtr} (h : c.find key = some target) :
    (release con key c).2 = push target con c := by
  cases key with
  | slots range =>
    have hl : c.nodes_.lookup range = some target := h
    show (releaseSlotConnection (range, con) c).2 = _
    unfold releaseSlotConnection
    rw [Code.bind_of_ret (Code.get_apply c), hl]
    rfl
  | host key =>
    have hl : c.connections_.lookup key = some target := h
    show (releaseHostConnection key con c).2 = _
    unfold releaseHostConnection
    rw [Code.bind_of_ret (Code.get_apply c), hl]
    rfl

/-- The queue of a pool after a push. -/
private theorem queue_push {c : ThreadedPool} {target : PoolPtr} (hlt : target < c.pools.length) (con : ConPtr)
    (q : PoolPtr) :
    ((push target con c).queue q).length = (c.queue q).length + if target = q then 1 else 0 := by
  by_cases hq : target = q
  · subst hq
    have before : c.pools[target]? = some c.pools[target] := List.getElem?_eq_getElem hlt
    have after : (push target con c).pools[target]? = some (c.pools[target] ++ [con]) := by
      show (c.pools.modify target _)[target]? = _
      rw [List.getElem?_modify_eq, before]
      rfl
    rw [queue_of_eq after, queue_of_eq before, List.length_append, if_pos rfl]
    rfl
  · have same : (push target con c).queue q = c.queue q :=
      queue_of_ne (fun i hi => List.getElem?_modify_ne _ _ (Ne.symm hi)) (Ne.symm hq)
    rw [same, if_neg hq, Nat.add_zero]

/-- The pool that a connection was pulled from has one less, the pool stored under its key now has one more. -/
private theorem size_release {s : Sharing ι} {conn : HeldConnection ι} (hmem : conn ∈ s.held) {target : PoolPtr}
    (hlt : target < s.container.pools.length) (q : PoolPtr) :
    ({ s with container := push target conn.con s.container, held := s.held.erase conn } : Sharing ι).size q +
      (if conn.pool = q then 1 else 0) = s.size q + if target = q then 1 else 0 := by
  have queued := queue_push hlt conn.con q
  have held := (List.perm_cons_erase hmem).countP_eq fun h => h.pool = q
  simp only [List.countP_cons, decide_eq_true_eq] at held
  show ((push target conn.con s.container).queue q).length + (s.held.erase conn).countP _ + _ =
    (s.container.queue q).length + s.held.countP _ + _
  omega

/-- A connection goes from the hands of a thread into the queue stored under its key now. -/
private theorem released {s : Sharing ι} {conn : HeldConnection ι} (v : s.Valid) (hmem : conn ∈ s.held) {t : ι} :
    ((PoolCall.release conn).perform t s).Valid ∧ (s.Conserved →
      (((PoolCall.release conn).perform t s).Conserved ↔ s.container.find conn.key = some conn.pool)) := by
  obtain ⟨target, htarget⟩ := Option.isSome_iff_exists.1 (v.held conn hmem).2
  have hlt := v.stored conn.key target htarget
  let s' : Sharing ι := { s with container := push target conn.con s.container, held := s.held.erase conn }
  have done : (PoolCall.release conn).perform t s = s' := by
    show ({ s with
      container := (ThreadedPool.release conn.con conn.key s.container).2
      held := s.held.erase conn } : Sharing ι) = s'
    rw [release_eq htarget]
  rw [done]
  have tables : ∀ key, s'.container.find key = s.container.find key := by
    intro key
    cases key <;> rfl
  refine ⟨v.keep tables (List.length_modify ..) (fun h hh => Or.inl (List.mem_of_mem_erase hh)) fun _ _ _ => Or.inl, ?_⟩
  intro hs
  constructor
  · intro hc
    have full := hc conn.key target (by rw [tables]; exact htarget)
    have before := hs conn.key target htarget
    have moved : s'.size target + _ = _ := size_release hmem hlt target
    rw [if_pos rfl] at moved
    have back : conn.pool = target := by
      by_contra hne
      rw [if_neg hne] at moved
      omega
    rw [back]
    exact htarget
  · intro hback key q hf
    rw [tables] at hf
    have before := hs key q hf
    have moved : s'.size q + _ = _ := size_release hmem hlt q
    have same : target = conn.pool := Option.some.inj (htarget.symm.trans hback)
    rw [same] at moved
    omega

private theorem insertSlots_conserves {s : Sharing ι} (v : s.Valid) (slots : SlotRange) (host : Bytes) (port : Int32)
    (results : List ConnectResult) {t : ι} :
    let call : PoolCall ι := .insertSlots slots host port results
    (call.perform t s).Valid ∧ (s.Conserved → ((call.perform t s).Conserved ↔ call.Conserves s)) := by
  intro call
  obtain ⟨j, c, -, hpub, hn, hc, hiff, hrun⟩ := insertSlots_spec slots host port (s.expect results)
  have done : call.perform t s = s.put c := by
    rw [← hrun]
    rfl
  have ins : Inserted (.slots slots) j s c := by
    refine ⟨hpub.pools, ?_, ?_⟩
    · show c.nodes_.lookup slots = _
      rw [hn, OrderedMap.lookup_assign, if_pos rfl]
      rfl
    · intro key'
      cases key' with
      | slots range =>
        show c.nodes_.lookup range = _ ∨ c.nodes_.lookup range = _
        rw [hn, OrderedMap.lookup_assign]
        split
        · exact Or.inl rfl
        · exact Or.inr rfl
      | host key =>
        right
        show c.connections_.lookup key = _
        rw [hc]
        rfl
  rw [done]
  refine ⟨ins.valid v, fun hs => ?_⟩
  rw [ins.full_iff v hs]
  exact hiff

private theorem insertHost_conserves {s : Sharing ι} (v : s.Valid) (host port : Bytes) (results : List ConnectResult)
    {t : ι} :
    let call : PoolCall ι := .insertHost host port results
    (call.perform t s).Valid ∧ (s.Conserved → ((call.perform t s).Conserved ↔ call.Conserves s)) := by
  intro call
  cases hl : s.container.connections_.lookup (DefaultContainer.hostKey host port) with
  | some pool =>
    have pull : ThreadedPool.insertHost host port (s.expect results) = _ := insertHost_found hl
    have done : call.perform t s = (s.put (s.expect results)).obtain t .host
        (pullConnection (DefaultContainer.hostKey host port) pool (s.expect results)) := by
      rw [← pull]
      rfl
    have v' : (s.put (s.expect results)).Valid := ⟨v.stored, v.held, v.waiting⟩
    have hfound : s.container.find (.host (DefaultContainer.hostKey host port)) = some pool := hl
    obtain ⟨hv, hiff⟩ := obtain_pull (s.put (s.expect results)) t .host (DefaultContainer.hostKey host port) v'
      (v.stored _ pool hfound) (Option.isSome_of_eq_some hfound)
    rw [done]
    refine ⟨hv, fun hs => iff_of_true (hiff.2 hs) ?_⟩
    intro hnone
    rw [hfound] at hnone
    cases hnone
  | none =>
    obtain ⟨j, c, -, hpub, hn, hc, hiff, hend⟩ := insertHost_new (s := s.expect results) hl
    have ins : Inserted (.host (DefaultContainer.hostKey host port)) j s c := by
      refine ⟨hpub.pools, ?_, ?_⟩
      · show c.connections_.lookup _ = _
        rw [hc, OrderedMap.lookup_assign, if_pos rfl]
        rfl
      · intro key'
        cases key' with
        | slots range =>
          right
          show c.nodes_.lookup range = _
          rw [hn]
          rfl
        | host key =>
          show c.connections_.lookup key = _ ∨ c.connections_.lookup key = _
          rw [hc, OrderedMap.lookup_assign]
          split
          · exact Or.inl rfl
          · exact Or.inr rfl
    have hcond : call.Conserves s ↔ j = poolSize_ := by
      rw [hiff]
      exact ⟨fun h => h hl, fun h _ => h⟩
    rcases hend with ⟨-, hrun⟩ | ⟨-, e, hrun⟩
    · have done : call.perform t s = (s.put c).obtain t .host
          (pullConnection (DefaultContainer.hostKey host port) s.container.pools.length c) := by
        show s.obtain t .host (ThreadedPool.insertHost host port (s.expect results)) = _
        rw [hrun]
        rfl
      have hlt := (ins.valid v).stored _ _ ins.found
      obtain ⟨hv, hpull⟩ := obtain_pull (s.put c) t .host (DefaultContainer.hostKey host port) (ins.valid v) hlt
        (Option.isSome_of_eq_some ins.found)
      rw [done]
      refine ⟨hv, fun hs => ?_⟩
      rw [hcond, ← ins.full_iff v hs]
      exact hpull
    · have done : call.perform t s = s.obtain t .host ((.throws e : Outcome Exn (Pulled Bytes)), c) := by
        show s.obtain t .host (ThreadedPool.insertHost host port (s.expect results)) = _
        rw [hrun]
      obtain ⟨hv, hthrow⟩ := obtain_throws s t PoolKey.host e c (ins.valid v)
      rw [done]
      refine ⟨hv, fun hs => ?_⟩
      rw [hcond, hthrow, ins.full_iff v hs]

private theorem getConnection_conserves {s : Sharing ι} (v : s.Valid) (index : SlotIndex) {t : ι} :
    ((PoolCall.getConnection index).perform t s).Valid ∧
      (((PoolCall.getConnection index).perform t s).Conserved ↔ s.Conserved) := by
  have done : (PoolCall.getConnection index).perform t s =
      s.obtain t .slots (ThreadedPool.getConnection index s.container) := rfl
  rcases getConnection_cases index s.container with ⟨e, -, hlookup, hrun⟩ | hrun
  · have hfound : s.container.find (.slots e.1) = some e.2 := hlookup
    rw [done, hrun]
    exact obtain_pull s t .slots e.1 v (v.stored _ _ hfound) (Option.isSome_of_eq_some hfound)
  · rw [done, hrun]
    exact obtain_throws s t .slots _ s.container v

/-- Every section keeps the state valid, and conserves exactly under its condition. -/
theorem perform_spec {s : Sharing ι} (v : s.Valid) {t : ι} {call : PoolCall ι} (h : call.Allowed t s) :
    (call.perform t s).Valid ∧ (s.Conserved → ((call.perform t s).Conserved ↔ call.Conserves s)) := by
  cases call with
  | insertSlots slots host port results => exact insertSlots_conserves v slots host port results
  | insertHost host port results => exact insertHost_conserves v host port results
  | getConnection index =>
    obtain ⟨hv, hiff⟩ := getConnection_conserves v index (t := t)
    exact ⟨hv, fun hs => iff_of_true (hiff.2 hs) trivial⟩
  | release conn => exact released v h.2.1
  | wake =>
    cases hw : s.waiting t with
    | none => exact absurd hw h
    | some place =>
      obtain ⟨key, pool⟩ := place
      obtain ⟨hp, hk⟩ := v.waiting t key pool hw
      obtain ⟨hv, hiff⟩ := obtain_pull s t id key v hp hk
      have done : (PoolCall.wake : PoolCall ι).perform t s = s.obtain t id (pullConnection key pool s.container) := by
        simp only [PoolCall.perform, hw]
      rw [done]
      exact ⟨hv, fun hs => iff_of_true (hiff.2 hs) trivial⟩

omit [DecidableEq ι] in
theorem Constructed.valid {s : Sharing ι} (h : s.Constructed) : s.Valid ∧ s.Conserved := by
  obtain ⟨hn, hc, hp, hheld, hw⟩ := h
  have none_found : ∀ key, s.container.find key = none := by
    intro key
    cases key with
    | slots range =>
      show s.container.nodes_.lookup range = none
      rw [hn]
      rfl
    | host key =>
      show s.container.connections_.lookup key = none
      rw [hc]
      rfl
  refine ⟨⟨?_, ?_, ?_⟩, ?_⟩
  · intro key pool hf
    rw [none_found] at hf
    cases hf
  · rw [hheld]
    nofun
  · intro t key pool h
    rw [hw] at h
    cases h
  · intro key pool hf
    rw [none_found] at hf
    cases hf

/-- In every state of a run every stored pool has its connections, exactly when every pool of the run was filled and
every connection went back to its pool. -/
theorem poolsConserved_iff {s : Sharing ι} {hist : List (Sharing ι × ι × PoolCall ι)} (r : PoolRun s hist) :
    ((∀ p ∈ hist, p.1.Conserved) ∧ s.Conserved) ↔ ∀ p ∈ hist, p.2.2.Conserves p.1 := by
  have valid : ∀ (s : Sharing ι) hist, PoolRun s hist → s.Valid := by
    intro s hist r
    refine Run.invariant (fun s h => (Constructed.valid h).1) ?_ r
    rintro s ⟨t, call⟩ s' v ⟨hallowed, rfl⟩
    exact (perform_spec v hallowed).1
  refine Run.always_iff (C := fun s e => e.2.Conserves s) valid (fun s h => (Constructed.valid h).2) ?_ r
  rintro s ⟨t, call⟩ s' v hs ⟨hallowed, rfl⟩
  exact (perform_spec v hallowed).2 hs

/-- No pools and no connections. -/
def unused : Sharing Nat :=
  { container := { nodes_ := .empty, connections_ := .empty, pools := [], contexts := [], connects := [] }
    held := [], waiting := fun _ => none }

private theorem unused_run (es : List (Nat × PoolCall Nat)) (h : ∀ p ∈ trail exec unused es, p.2.2.Allowed p.2.1 p.1) :
    PoolRun (after exec unused es) (trail exec unused es) :=
  Run.follow (.start ⟨rfl, rfl, rfl, rfl, fun _ => rfl⟩) es fun p hp => ⟨h p hp, rfl⟩

/-- One thread makes the pool of all slots, another takes a connection and gives it back. -/
theorem poolsConserved_pull_push :
    let es : List (Nat × PoolCall Nat) := [(0, .insertSlots (0, 16383) (text "10.0.0.1") 7000 []),
      (1, .getConnection 7), (1, .release ⟨1, .slots (0, 16383), 0, 0⟩)]
    (∀ p ∈ trail exec unused es, p.1.Conserved) ∧ (after exec unused es).Conserved := by
  intro es
  refine (poolsConserved_iff (unused_run es (by decide +kernel))).2 ?_
  simp only [es, trail, List.forall_mem_cons]
  refine ⟨?_, trivial, ?_, fun p hp => absurd hp List.not_mem_nil⟩
  · simp [PoolCall.Conserves, Connects, poolSize_]
  · show ThreadedPool.find _ _ = _
    decide +kernel

/-- The connect to a redirection target fails: its pool stays in the table, empty, and the next thread redirected to it
waits for a connection that nobody holds. -/
theorem not_conserved_failed_insert :
    let call : PoolCall Nat := .insertHost (text "10.0.0.9") (text "7000") [.null]
    let es := [(0, call), (1, call)]
    PoolRun (after exec unused es) (trail exec unused es) ∧ ¬ (after exec unused es).Conserved ∧
      (after exec unused es).waiting 1 = some (.host (text "10.0.0.9:7000"), 0) ∧
      (after exec unused es).held = [] := by
  intro call es
  refine ⟨unused_run es (by decide +kernel), fun h => ?_, by decide +kernel, by decide +kernel⟩
  have full := h (.host (text "10.0.0.9:7000")) 0 (by decide +kernel)
  exact absurd full (by decide +kernel)

end Sharing

end ThreadedPool

end HiredisCluster
