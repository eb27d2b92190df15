import Mathlib.Data.List.Perm.Basic
import HiredisCluster.PoolProgress

/-!
# Closing the pools (`ThreadedPool::disconnect`)

`disconnect` pulls `poolSize_` connections out of every pool and closes each, and waits for those that are not in their
queue.  When the threads have ended nobody gives a connection back any more, so the destructor ends only if no command
has ended with a connection in its hands (`destroy_returns_iff`).
-/

namespace HiredisCluster

open Cxx HiredisCommand

namespace ThreadedPool

/-- The code of `disconnect` is through, or it waits for a connection of a pool. -/
inductive Drained where
  | done
  | waits (pool : PoolPtr)
  deriving DecidableEq

/-- The default `disconnect_`; a context is freed once. -/
def redisFree (con : ConPtr) : Locked Unit := fun s =>
  match s.contexts[con]? with
  | some x =>
    if x.disconnected then
      (.undefined, s)
    else
      (.ret (), { s with contexts := s.contexts.modify con fun x => { x with disconnected := true } })
  | none => (.undefined, s)

/-- The loop over the connections of a pool, with `n` to go. -/
def drainPool (disconnect_ : ConPtr → Locked Unit) (pool : PoolPtr) : (n : Nat) → Locked Drained
  | 0 => return .done
  | n + 1 => do
    match ← pullConnection () pool with
    | .got conn _ =>
      disconnect_ conn.2
      drainPool disconnect_ pool n
    | .waits _ pool => return .waits pool

/-- The loop over the pools of a table; a pool is deleted when it is drained. -/
def drainTable (disconnect_ : ConPtr → Locked Unit) : List PoolPtr → Locked Drained
  | [] => return .done
  | pool :: rest => do
    match ← drainPool disconnect_ pool poolSize_ with
    | .done =>
      Code.modify fun s => { s with pools := s.pools.set pool [] }
      drainTable disconnect_ rest
    | .waits pool => return .waits pool

/-- `disconnect(T &cons)`, up to its first wait. -/
def disconnectTable (disconnect_ : Option (ConPtr → Locked Unit)) (pools : ThreadedPool → List PoolPtr)
    (clear : ThreadedPool → ThreadedPool) : Locked Drained := do
  match disconnect_ with
  | some disconnect_ =>
    let s ← Code.get
    match ← drainTable disconnect_ (pools s) with
    | .done =>
      Code.modify clear
      return .done
    | .waits pool => return .waits pool
  | none =>
    Code.modify clear
    return .done

/-- `disconnect()`. -/
def disconnect (disconnect_ : Option (ConPtr → Locked Unit)) : Locked Drained := do
  match ← disconnectTable disconnect_ (fun s => s.nodes_.entries.map (·.2)) fun s => { s with nodes_ := .empty } with
  | .done =>
    disconnectTable disconnect_ (fun s => s.connections_.entries.map (·.2)) fun s => { s with connections_ := .empty }
  | .waits pool => return .waits pool

/-- The destructor. -/
def destroy (disconnect_ : Option (ConPtr → Locked Unit)) : Locked Drained := disconnect disconnect_

/-! ### What draining does -/

/-- The connection was closed. -/
def isClosed (s : ThreadedPool) (con : ConPtr) : Bool := (s.contexts[con]?).any (·.disconnected)

/-- The connection is open. -/
def isOpen (s : ThreadedPool) (con : ConPtr) : Prop := con < s.contexts.length ∧ s.isClosed con = false

/-- The connections `cons` of the pools `ps` were closed, and these pools lost connections. -/
structure Drains (ps : List PoolPtr) (cons : List ConPtr) (s s' : ThreadedPool) : Prop where
  nodes : s'.nodes_ = s.nodes_
  connections : s'.connections_ = s.connections_
  made : s'.pools.length = s.pools.length
  queues : ∀ q, q ∉ ps → s'.queue q = s.queue q
  opened : s'.contexts.length = s.contexts.length
  closed : ∀ con, s'.isClosed con = (s.isClosed con || decide (con ∈ cons))

private theorem Drains.refl (ps : List PoolPtr) (s : ThreadedPool) : Drains ps [] s s :=
  ⟨rfl, rfl, rfl, fun _ _ => rfl, rfl, fun con => by simp⟩

private theorem Drains.trans {ps ps' : List PoolPtr} {cons cons' : List ConPtr} {s v s' : ThreadedPool}
    (h : Drains ps cons s v) (h' : Drains ps' cons' v s') : Drains (ps ++ ps') (cons ++ cons') s s' := by
  refine ⟨h'.nodes.trans h.nodes, h'.connections.trans h.connections, h'.made.trans h.made, fun q hq => ?_,
    h'.opened.trans h.opened, fun con => ?_⟩
  · rw [List.mem_append, not_or] at hq
    rw [h'.queues q hq.2, h.queues q hq.1]
  · rw [h'.closed, h.closed, Bool.or_assoc]
    simp [List.mem_append, Bool.decide_or]

private theorem Drains.mono {ps ps' : List PoolPtr} {cons : List ConPtr} {s s' : ThreadedPool} (h : Drains ps cons s s')
    (hps : ∀ q ∈ ps, q ∈ ps') : Drains ps' cons s s' :=
  ⟨h.nodes, h.connections, h.made, fun q hq => h.queues q fun hmem => hq (hps q hmem), h.opened, h.closed⟩

/-- What is not closed stays open. -/
private theorem Drains.isOpen {ps : List PoolPtr} {cons : List ConPtr} {s s' : ThreadedPool} (h : Drains ps cons s s')
    {con : ConPtr} (ho : s.isOpen con) (hcon : con ∉ cons) : s'.isOpen con := by
  refine ⟨by rw [h.opened]; exact ho.1, ?_⟩
  rw [h.closed, ho.2, decide_eq_false hcon]
  rfl

/-- Freeing an open connection. -/
private theorem redisFree_open {s : ThreadedPool} {con : ConPtr} (h : s.isOpen con) :
    ∃ s', redisFree con s = (.ret (), s') ∧ Drains [] [con] s s' ∧ s'.pools = s.pools := by
  obtain ⟨hlt, hopen⟩ := h
  have hget : s.contexts[con]? = some s.contexts[con] := List.getElem?_eq_getElem hlt
  have hflag : s.contexts[con].disconnected = false := by
    unfold isClosed at hopen
    rw [hget] at hopen
    exact hopen
  let s' : ThreadedPool := { s with contexts := s.contexts.modify con fun x => { x with disconnected := true } }
  have length : s'.contexts.length = s.contexts.length := List.length_modify ..
  refine ⟨s', ?_, ⟨rfl, rfl, rfl, fun _ _ => rfl, length, fun c => ?_⟩, rfl⟩
  · unfold redisFree
    rw [hget]
    dsimp only
    rw [hflag, if_neg Bool.false_ne_true]
  · show ((s.contexts.modify con _)[c]?).any _ = _
    unfold isClosed
    rw [List.getElem?_modify]
    by_cases hc : con = c
    · subst hc
      rw [hget]
      simp
    · have hne : c ≠ con := fun h => hc h.symm
      cases s.contexts[c]? <;> simp [hc, hne]

/-- Taking connections out of a queue. -/
private theorem set_drains (pool : PoolPtr) (rest : List ConPtr) (s : ThreadedPool) :
    Drains [pool] [] s { s with pools := s.pools.set pool rest } := by
  refine ⟨rfl, rfl, List.length_set, fun q hne => ?_, rfl, fun c => by simp [isClosed]⟩
  exact Sharing.queue_of_ne (fun i hi => List.getElem?_set_ne (Ne.symm hi)) fun h => hne (List.mem_singleton.2 h)

/-- Draining a pool closes what is in its queue, and waits where that is not enough. -/
private theorem drainPool_spec {pool : PoolPtr} {n : Nat} {s : ThreadedPool} (hpool : pool < s.pools.length)
    (hopen : ∀ con ∈ s.queue pool, s.isOpen con) (hnodup : (s.queue pool).Nodup) :
    ∃ s', drainPool redisFree pool n s = (.ret (if n ≤ (s.queue pool).length then .done else .waits pool), s') ∧
      Drains [pool] ((s.queue pool).take n) s s' := by
  induction n generalizing s with
  | zero =>
    refine ⟨s, ?_, ?_⟩
    · rw [if_pos (Nat.zero_le _)]
      rfl
    · rw [List.take_zero]
      exact .refl _ s
  | succ n ih =>
    unfold drainPool
    rcases pullConnection_cases () hpool with ⟨con, rest, hq, hpull⟩ | ⟨hq, hpull⟩
    · have queue : s.queue pool = con :: rest := Sharing.queue_of_eq hq
      have pulled := set_drains pool rest s
      obtain ⟨hnotMem, hrest⟩ := List.nodup_cons.1 (queue ▸ hnodup)
      obtain ⟨v, hfree, freed, hpools⟩ := redisFree_open (pulled.isOpen (hopen con (queue ▸ List.mem_cons_self))
        List.not_mem_nil)
      have queue' : v.queue pool = rest := by
        unfold ThreadedPool.queue
        rw [hpools, List.getD_eq_getElem?_getD, List.getElem?_set_self hpool]
        rfl
      have first : Drains [pool] [con] s v := by
        have both := pulled.trans freed
        simpa using both
      obtain ⟨s', hrun, hdrain⟩ := ih (s := v) (by rw [first.made]; exact hpool) (fun c hc => by
        rw [queue'] at hc
        refine first.isOpen (hopen c (queue ▸ List.mem_cons_of_mem con hc)) fun hmem => ?_
        exact hnotMem (List.mem_singleton.1 hmem ▸ hc)) (queue'.symm ▸ hrest)
      refine ⟨s', ?_, ?_⟩
      · rw [Code.bind_of_ret hpull]
        dsimp only
        rw [Code.bind_of_ret hfree, hrun, queue', queue]
        simp only [List.length_cons, Nat.add_le_add_iff_right]
      · have both := first.trans hdrain
        rw [queue'] at both
        rw [queue, List.take_succ_cons]
        exact both.mono (by simp)
    · have queue : s.queue pool = [] := Sharing.queue_of_eq hq
      refine ⟨s, ?_, ?_⟩
      · have few : ¬ n + 1 ≤ ([] : List ConPtr).length := Nat.not_succ_le_zero n
        rw [Code.bind_of_ret hpull, queue, if_neg few]
        rfl
      · rw [queue, List.take_nil]
        exact .refl _ s

/-- The connections in the queues of some pools. -/
def queuesOf (s : ThreadedPool) (ps : List PoolPtr) : List ConPtr := ps.flatMap s.queue

/-- Draining a table closes what is in the queues of its pools when each has its ten connections, and waits where one
has fewer. -/
private theorem drainTable_spec {ps : List PoolPtr} {s : ThreadedPool} (hps : ps.Nodup)
    (hmade : ∀ p ∈ ps, p < s.pools.length)
    (hle : ∀ p ∈ ps, (s.queue p).length ≤ poolSize_) (hopen : ∀ con ∈ s.queuesOf ps, s.isOpen con)
    (hnodup : (s.queuesOf ps).Nodup) :
    ∃ o s', drainTable redisFree ps s = (.ret o, s') ∧
      (o = .done ↔ ∀ p ∈ ps, (s.queue p).length = poolSize_) ∧ (o = .done → Drains ps (s.queuesOf ps) s s') := by
  induction ps generalizing s with
  | nil => exact ⟨.done, s, rfl, iff_of_true rfl nofun, fun _ => .refl _ s⟩
  | cons p ps ih =>
    obtain ⟨hnotMem, hps⟩ := List.nodup_cons.1 hps
    have hpool := hmade p List.mem_cons_self
    have split : s.queuesOf (p :: ps) = s.queue p ++ s.queuesOf ps := List.flatMap_cons
    rw [split] at hopen hnodup
    obtain ⟨hfirst, hrest, hdisjoint⟩ := List.nodup_append.1 hnodup
    obtain ⟨v, hrun, hdrain⟩ := drainPool_spec (n := poolSize_) hpool
      (fun con hc => hopen con (List.mem_append_left _ hc)) hfirst
    unfold drainTable
    rw [Code.bind_of_ret hrun]
    by_cases hfull : (s.queue p).length = poolSize_
    · rw [if_pos (Nat.le_of_eq hfull.symm)]
      dsimp only
      rw [Code.bind_of_ret (Code.modify_apply _ _)]
      rw [List.take_of_length_le (Nat.le_of_eq hfull)] at hdrain
      -- the pool is deleted
      have deleted : Drains [p] (s.queue p) s { v with pools := v.pools.set p [] } := by
        have both := hdrain.trans (set_drains p [] v)
        rw [List.append_nil] at both
        exact both.mono (by simp)
      generalize { v with pools := v.pools.set p [] } = w at deleted
      have queues : ∀ q ∈ ps, w.queue q = s.queue q := by
        intro q hq
        refine deleted.queues q fun h => ?_
        rw [List.mem_singleton.1 h] at hq
        exact hnotMem hq
      have rest : w.queuesOf ps = s.queuesOf ps := List.flatMap_congr queues
      obtain ⟨o, s', hrun', hiff, hdrain'⟩ := ih (s := w) hps
        (fun q hq => by rw [deleted.made]; exact hmade q (List.mem_cons_of_mem p hq))
        (fun q hq => by rw [queues q hq]; exact hle q (List.mem_cons_of_mem p hq))
        (fun con hc => by
          rw [rest] at hc
          refine deleted.isOpen (hopen con (List.mem_append_right _ hc)) fun hmem => ?_
          exact hdisjoint con hmem con hc rfl)
        (by rw [rest]; exact hrest)
      refine ⟨o, s', hrun', ?_, fun ho => ?_⟩
      · rw [hiff, List.forall_mem_cons]
        refine ⟨fun h => ⟨hfull, fun q hq => ?_⟩, fun h q hq => ?_⟩
        · rw [← queues q hq]
          exact h q hq
        · rw [queues q hq]
          exact h.2 q hq
      · rw [split]
        have both := deleted.trans (hdrain' ho)
        rw [rest] at both
        exact both
    · have few : ¬ poolSize_ ≤ (s.queue p).length :=
        fun h => hfull (Nat.le_antisymm (hle p List.mem_cons_self) h)
      rw [if_neg few]
      refine ⟨.waits p, v, rfl, iff_of_false nofun fun h => hfull (h p List.mem_cons_self), nofun⟩

section

variable {f : ConPtr → Locked Unit} {pools : ThreadedPool → List PoolPtr} {clear : ThreadedPool → ThreadedPool}
  {s v : ThreadedPool}

private theorem disconnectTable_done (h : drainTable f (pools s) s = (.ret .done, v)) :
    disconnectTable (some f) pools clear s = (.ret .done, clear v) := by
  unfold disconnectTable
  dsimp only
  rw [Code.bind_of_ret (Code.get_apply s), Code.bind_of_ret h]
  rfl

private theorem disconnectTable_waits {pool : PoolPtr} (h : drainTable f (pools s) s = (.ret (.waits pool), v)) :
    disconnectTable (some f) pools clear s = (.ret (.waits pool), v) := by
  unfold disconnectTable
  dsimp only
  rw [Code.bind_of_ret (Code.get_apply s), Code.bind_of_ret h]
  rfl

end

/-- `disconnect` closes what is queued when every stored pool has its ten connections, and waits otherwise. -/
private theorem disconnect_spec {s : ThreadedPool} (hps : s.storedPools.Nodup)
    (hmade : ∀ p ∈ s.storedPools, p < s.pools.length)
    (hle : ∀ p ∈ s.storedPools, (s.queue p).length ≤ poolSize_) (hopen : ∀ con ∈ s.queuesOf s.storedPools, s.isOpen con)
    (hnodup : (s.queuesOf s.storedPools).Nodup) :
    ∃ o s', disconnect (some redisFree) s = (.ret o, s') ∧
      (o = .done ↔ ∀ p ∈ s.storedPools, (s.queue p).length = poolSize_) ∧
      (o = .done → s'.nodes_ = .empty ∧ s'.connections_ = .empty ∧ s'.contexts.length = s.contexts.length ∧
        ∀ con, s'.isClosed con = (s.isClosed con || decide (con ∈ s.queuesOf s.storedPools))) := by
  have split : s.queuesOf s.storedPools =
      s.queuesOf (s.nodes_.entries.map (·.2)) ++ s.queuesOf (s.connections_.entries.map (·.2)) := List.flatMap_append
  rw [split] at hopen hnodup
  obtain ⟨hn, hc, hpools⟩ := List.nodup_append.1 hps
  obtain ⟨hnodup1, hnodup2, hdisjoint⟩ := List.nodup_append.1 hnodup
  obtain ⟨o, v, hrun, hiff, hdrain⟩ := drainTable_spec hn (fun p hp => hmade p (List.mem_append_left _ hp))
    (fun p hp => hle p (List.mem_append_left _ hp)) (fun con hm => hopen con (List.mem_append_left _ hm)) hnodup1
  cases o with
  | waits pool =>
    refine ⟨.waits pool, v, ?_, iff_of_false nofun fun h => ?_, nofun⟩
    · unfold disconnect
      rw [Code.bind_of_ret (disconnectTable_waits hrun)]
      rfl
    · cases hiff.2 fun p hp => h p (List.mem_append_left _ hp)
  | done =>
    have drained := hdrain rfl
    let w : ThreadedPool := { v with nodes_ := .empty }
    have first : disconnect (some redisFree) s =
        disconnectTable (some redisFree) (fun s => s.connections_.entries.map (·.2))
          (fun s => { s with connections_ := .empty }) w := by
      unfold disconnect
      rw [Code.bind_of_ret (disconnectTable_done hrun)]
    rw [first]
    have pools2 : w.connections_.entries.map (·.2) = s.connections_.entries.map (·.2) := by
      show v.connections_.entries.map (·.2) = _
      rw [drained.connections]
    have queues : ∀ q ∈ s.connections_.entries.map (·.2), w.queue q = s.queue q :=
      fun q hq => drained.queues q fun hmem => hpools q hmem q hq rfl
    have rest : w.queuesOf (s.connections_.entries.map (·.2)) = s.queuesOf (s.connections_.entries.map (·.2)) :=
      List.flatMap_congr queues
    obtain ⟨o, s', hrun', hiff', hdrain'⟩ := drainTable_spec (s := w) hc
      (fun p hp => by
        show p < v.pools.length
        rw [drained.made]
        exact hmade p (List.mem_append_right _ hp))
      (fun p hp => by rw [queues p hp]; exact hle p (List.mem_append_right _ hp))
      (fun con hm => by
        rw [rest] at hm
        refine drained.isOpen (hopen con (List.mem_append_right _ hm)) fun hmem => ?_
        exact hdisjoint con hmem con hm rfl)
      (by rw [rest]; exact hnodup2)
    have full : o = .done ↔ ∀ p ∈ s.storedPools, (s.queue p).length = poolSize_ := by
      rw [hiff']
      constructor
      · intro h p hp
        rcases List.mem_append.1 hp with hp | hp
        · exact hiff.1 rfl p hp
        · rw [← queues p hp]
          exact h p hp
      · intro h p hp
        rw [queues p hp]
        exact h p (List.mem_append_right _ hp)
    rw [← pools2] at hrun'
    cases o with
    | waits pool => exact ⟨.waits pool, s', disconnectTable_waits hrun', full, nofun⟩
    | done =>
      have drained' := hdrain' rfl
      refine ⟨.done, _, disconnectTable_done hrun', full, fun _ => ⟨drained'.nodes, rfl, ?_, fun con => ?_⟩⟩
      · exact drained'.opened.trans drained.opened
      · have second : s'.isClosed con = (v.isClosed con || decide (con ∈ w.queuesOf _)) := drained'.closed con
        rw [rest] at second
        rw [split]
        show s'.isClosed con = _
        simp only [second, drained.closed, Bool.or_assoc, List.mem_append, Bool.decide_or]

end ThreadedPool

/-! ### The destructor of a cluster whose threads have ended -/

/-- The thread has no command. -/
def Activity.isIdle : Activity → Bool
  | .idle => true
  | _ => false

private theorem Activity.eq_idle {a : Activity} (h : a.isIdle = true) : a = .idle := by
  cases a with
  | idle => rfl
  | _ => cases h

namespace Threads

open ThreadedPool

variable {ι : Type} [DecidableEq ι] {answers : Nat → RedisReply} {s : Threads ι}

private theorem queuesOf_length {c : ThreadedPool} {ps : List PoolPtr} {k : Nat}
    (h : ∀ p ∈ ps, (c.queue p).length = k) :
    (c.queuesOf ps).length = k * ps.length := by
  induction ps with
  | nil => rfl
  | cons p ps ih =>
    have tail := ih fun q hq => h q (List.mem_cons_of_mem p hq)
    show (c.queue p ++ c.queuesOf ps).length = _
    rw [List.length_append, h p List.mem_cons_self, tail, List.length_cons, Nat.mul_succ, Nat.add_comm]

private theorem flatMap_range_getD (pools : List (List ConPtr)) :
    (List.range pools.length).flatMap (fun p => pools.getD p []) = pools.flatten := by
  have values : (List.range pools.length).map (fun p => pools.getD p []) = pools := by
    refine List.ext_getElem (by simp) fun i h1 h2 => ?_
    simp [List.getElem?_eq_getElem h2]
  rw [List.flatMap_def, values]

/-- The queues of the stored pools are all queues. -/
private theorem Tracked.queues_perm {a : Sharing (Option ι)} {n : Nat} (h : Tracked s a n) :
    (s.container.queuesOf s.container.storedPools).Perm s.queued := by
  have perm := h.stocked.stored
  rw [h.container] at perm
  exact (perm.flatMap_right _).trans (List.Perm.of_eq (flatMap_range_getD s.container.pools))

/-- A stored pool has ten connections, in its queue or lost. -/
private theorem Tracked.stored_size {a : Sharing (Option ι)} {n : Nat} (h : Tracked s a n) {p : PoolPtr}
    (hp : p ∈ s.container.storedPools) : (s.container.queue p).length + a.heldFrom p = poolSize_ := by
  obtain ⟨key, hkey⟩ : ∃ key, a.container.find key = some p := by
    rw [h.container]
    rcases List.mem_append.1 hp with hp | hp
    · obtain ⟨e, he, rfl⟩ := List.mem_map.1 hp
      exact ⟨.slots e.1, (OrderedMap.lookup_eq_some_iff _ _ _).2 ⟨e, he, rfl, rfl⟩⟩
    · obtain ⟨e, he, rfl⟩ := List.mem_map.1 hp
      exact ⟨.host e.1, (OrderedMap.lookup_eq_some_iff _ _ _).2 ⟨e, he, rfl, rfl⟩⟩
  have full := h.conserved key p hkey
  rw [Sharing.size, h.container] at full
  exact full

/-- Where a pool's connection is held, the pool is stored. -/
private theorem Tracked.held_stored {a : Sharing (Option ι)} {n : Nat} (h : Tracked s a n)
    {x : HeldConnection (Option ι)} (hx : x ∈ a.held) : x.pool ∈ s.container.storedPools := by
  have hfound := h.back x hx
  rw [h.container] at hfound
  cases hk : x.key with
  | slots range =>
    rw [hk] at hfound
    obtain ⟨e, he, -, hp⟩ := (OrderedMap.lookup_eq_some_iff _ _ _).1 hfound
    exact List.mem_append_left _ (List.mem_map.2 ⟨e, he, hp⟩)
  | host key =>
    rw [hk] at hfound
    obtain ⟨e, he, -, hp⟩ := (OrderedMap.lookup_eq_some_iff _ _ _).1 hfound
    exact List.mem_append_right _ (List.mem_map.2 ⟨e, he, hp⟩)

/-- When no thread has a command, all that is held is lost. -/
private theorem Tracked.held_length {a : Sharing (Option ι)} {n : Nat} (h : Tracked s a n)
    (idle : ∀ t, (s.threads t).activity = .idle) : a.held.length = n := by
  rw [← h.lost, eq_comm, List.countP_eq_length]
  intro x hx
  cases hholder : x.holder with
  | none => rfl
  | some t =>
    have hagrees := (h.agrees t).2
    rw [idle t] at hagrees
    have hin : x ∈ a.held.filter fun h => h.holder = some t := List.mem_filter.2 ⟨hx, by simp [hholder]⟩
    rw [hagrees.1] at hin
    exact absurd hin List.not_mem_nil

/-- No connection is closed while the threads work. -/
private theorem Tracked.queued_open {a : Sharing (Option ι)} {n : Nat} (h : Tracked s a n) (sound : Sound s)
    {con : ConPtr} (hc : con ∈ s.queued) : s.container.isOpen con := by
  have hlt := sound.queuedOpened con hc
  have flags := h.stocked.opened
  rw [h.container] at flags
  refine ⟨hlt, ?_⟩
  have hflag : (s.container.contexts.map (·.disconnected))[con]? = some false := by
    rw [flags, List.getElem?_replicate, if_pos]
    rw [← h.container, ← h.stocked.contexts_length, h.container]
    exact hlt
  rw [List.getElem?_map] at hflag
  unfold isClosed
  rw [List.getElem?_eq_getElem hlt] at hflag ⊢
  exact Option.some.inj hflag

/-- When all threads have ended, the destructor ends exactly when no command of the run ended with a connection in its
hands.  Then it has closed every connection that was opened once, and otherwise it waits for ever. -/
theorem destroy_returns_iff {hist : List (Threads ι × ι × Turn)} (r : ClusterRun answers s hist)
    (h : ∀ p ∈ hist, p.1.Fills p.2) (idle : ∀ t, (s.threads t).activity = .idle) :
    ∃ o c, destroy (some redisFree) s.container = (.ret o, c) ∧ (o = .done ↔ leaked hist = 0) ∧
      (o = .done → c.nodes_ = .empty ∧ c.connections_ = .empty ∧ c.contexts.length = s.container.contexts.length ∧
        ∀ con < c.contexts.length, c.isClosed con = true) := by
  obtain ⟨a, tracked⟩ := r.tracked h
  have sound := r.sound
  have stored := tracked.stocked.stored
  have opened := tracked.stocked.contexts_length
  rw [tracked.container] at stored opened
  have queues := tracked.queues_perm
  have nodup : (s.container.queuesOf s.container.storedPools).Nodup :=
    queues.nodup_iff.2 (List.nodup_iff_count.2 sound.once)
  obtain ⟨o, c, hrun, hiff, hdone⟩ := disconnect_spec (s := s.container) (stored.nodup_iff.2 List.nodup_range)
    (fun p hp => List.mem_range.1 (stored.mem_iff.1 hp))
    (fun p hp => by
      have size := tracked.stored_size hp
      omega)
    (fun con hc => tracked.queued_open sound (queues.mem_iff.1 hc)) nodup
  refine ⟨o, c, hrun, ?_, fun ho => ?_⟩
  · rw [hiff, ← tracked.held_length idle]
    constructor
    · intro hfull
      refine List.length_eq_zero_iff.2 (List.eq_nil_iff_forall_not_mem.2 fun x hx => ?_)
      have size := tracked.stored_size (tracked.held_stored hx)
      have full := hfull _ (tracked.held_stored hx)
      have counted : 0 < a.heldFrom x.pool := List.countP_pos_iff.2 ⟨x, hx, by simp⟩
      omega
    · intro hnone p hp
      have size := tracked.stored_size hp
      rw [Sharing.heldFrom, List.length_eq_zero_iff.1 hnone, List.countP_nil] at size
      exact size
  · obtain ⟨hn, hc, hlen, hclosed⟩ := hdone ho
    refine ⟨hn, hc, hlen, fun con hcon => ?_⟩
    -- the queues have as many different connections as were opened
    have count : (s.container.queuesOf s.container.storedPools).length = s.container.contexts.length := by
      rw [queuesOf_length (hiff.1 ho), stored.length_eq, List.length_range, opened]
    have inside : s.container.queuesOf s.container.storedPools ⊆ List.range s.container.contexts.length :=
      fun x hx => List.mem_range.2 (sound.queuedOpened x (queues.mem_iff.1 hx))
    have all := (List.subperm_of_subset nodup inside).perm_of_length_le (by rw [List.length_range, count])
    rw [hlen] at hcon
    rw [hclosed, decide_eq_true (all.mem_iff.2 (List.mem_range.2 hcon)), Bool.or_true]

/-- A thread has fetched a value, and the cluster is deleted. -/
theorem destroy_returns_one :
    let answers : Nat → RedisReply := fun _ => .nil
    let start : Threads (Fin 2) :=
      ⟨true, ⟨.empty, .empty, [], [], []⟩, fun _ => ⟨.idle, [], none⟩, fun _ => [], [], 0, []⟩
    let es : List (Fin 2 × Turn) := (0, .insertSlots (0, 16383) (text "10.0.0.1") 7000 []) ::
      (1, .start getFoo) :: List.replicate 9 (1, .proceed ⟨[], true, none⟩)
    let c := (destroy (some redisFree) (after (exec answers) start es).container).2
    c.contexts.length = 10 ∧ ∀ con < c.contexts.length, c.isClosed con = true := by
  intro answers start es c
  have begun : ClusterRun answers start [] := .start ⟨⟨rfl, fun _ => ⟨rfl, rfl⟩, fun _ => rfl⟩, rfl, rfl, rfl⟩
  have run : ClusterRun answers (after (exec answers) start es) (trail (exec answers) start es) :=
    begun.follow es fun _ _ => rfl
  have kept : ((trail (exec answers) start es).tail.all fun p => p.1.keepsTables p.2) = true := by decide +kernel
  have fills : ∀ p ∈ trail (exec answers) start es, p.1.Fills p.2 := by
    intro p hp
    rcases List.mem_cons.1 hp with rfl | hp
    · exact ⟨rfl, by simp [Connects, poolSize_]⟩
    · exact fills_of_keepsTables (List.all_eq_true.1 kept p hp)
  have ended : ∀ t, ((after (exec answers) start es).threads t).activity.isIdle = true := by decide +kernel
  obtain ⟨o, c', hrun, hiff, hdone⟩ := destroy_returns_iff run fills fun t => Activity.eq_idle (ended t)
  have none_leaked : leaked (trail (exec answers) start es) = 0 := by decide +kernel
  obtain ⟨-, -, hlen, hclosed⟩ := hdone (hiff.2 none_leaked)
  have same : c = c' := congrArg Prod.snd hrun
  have ten : (after (exec answers) start es).container.contexts.length = 10 := by decide +kernel
  rw [same]
  exact ⟨hlen.trans ten, hclosed⟩

end Threads

end HiredisCluster
