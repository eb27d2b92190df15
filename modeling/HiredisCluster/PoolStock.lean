import HiredisCluster.ExclusiveConnections
import HiredisCluster.PoolConservation

/-!
# Which connections belong to which pool

While every pool is made under a new key and is filled, the connections are opened in tens: the connections of the pool
with the number `pool` are those from `poolSize_ * pool` on.  `Stocked` says this of the queues and of what the threads
hold, and that every pool that was made is stored under exactly one key; each section keeps it (`Stocked.perform`).
-/

namespace HiredisCluster

open Cxx HiredisCommand

namespace ThreadedPool

/-! ### Filling a pool opens its connections -/

/-- Where no connect fails, filling opens as many connections as it asks for. -/
private theorem fillLoop_contexts (pool : PoolPtr) (host : Bytes) (port : Int32) {n : Nat} {s : ThreadedPool}
    (h : Connects n s.connects) :
    (fillLoop pool host port n s).2.contexts = s.contexts ++ List.replicate n (Context.opened host port) := by
  induction n generalizing s with
  | zero => exact (List.append_nil _).symm
  | succ n ih =>
    let v : ThreadedPool :=
      { s with connects := s.connects.tail, contexts := s.contexts ++ [Context.opened host port] }
    have hconn : connect host port s = (.ret (some s.contexts.length), v) := by
      unfold connect
      rw [h.1]
    have herr : errOf s.contexts.length v = (.ret false, v) := by
      unfold errOf
      rw [List.getElem?_concat_length]
      rfl
    unfold fillLoop
    rw [Code.bind_of_ret hconn]
    dsimp only
    rw [Code.bind_of_ret herr, if_neg Bool.false_ne_true, Code.bind_of_ret (Code.modify_apply _ _)]
    rw [ih (s := push pool s.contexts.length v) h.2]
    show (s.contexts ++ [Context.opened host port]) ++ _ = _
    rw [List.append_assoc]
    rfl

theorem insertSlots_contexts (slots : SlotRange) (host : Bytes) (port : Int32) {s : ThreadedPool}
    (h : Connects poolSize_ s.connects) : (insertSlots slots host port s).2.contexts =
      s.contexts ++ List.replicate poolSize_ (Context.opened (cStr host) port) :=
  fillLoop_contexts s.pools.length (cStr host) port
    (s := { s with pools := s.pools ++ [[]], nodes_ := s.nodes_.assign slots s.pools.length }) h

theorem insertHost_contexts {host port : Bytes} {s : ThreadedPool}
    (hnew : s.connections_.lookup (DefaultContainer.hostKey host port) = none) {n : Int32} (hport : stoi port = .ret n)
    (h : Connects poolSize_ s.connects) : (insertHost host port s).2.contexts =
      s.contexts ++ List.replicate poolSize_ (Context.opened (cStr host) n) := by
  let v : ThreadedPool := { s with
    pools := s.pools ++ [[]]
    connections_ := s.connections_.assign (DefaultContainer.hostKey host port) s.pools.length }
  have hconv : (Code.lift ((stoi port).mapThrows .std) : Locked Int32) v = (.ret n, v) := by rw [hport]; rfl
  obtain ⟨j, s', -, -, -, -, hiff, hrun⟩ := fillPool_spec (cStr host) n s v rfl rfl rfl
  rw [if_pos (hiff.2 h)] at hrun
  have filled := fillLoop_contexts s.pools.length (cStr host) n (s := v) h
  have made : insertHost host port s =
      pullConnection (DefaultContainer.hostKey host port) s.pools.length s' := by
    unfold insertHost
    rw [Code.bind_of_ret (Code.get_apply s), hnew]
    show (Code.lift ((stoi port).mapThrows .std) >>= fun portNumber => (do
      fillPool s.pools.length (cStr host) portNumber
      pullConnection (DefaultContainer.hostKey host port) s.pools.length : Locked (Pulled Bytes))) v = _
    rw [Code.bind_of_ret hconv, Code.bind_of_ret hrun]
  rw [made, pullConnection_contexts]
  exact (congrArg (fun x : Outcome Exn Unit × ThreadedPool => x.2.contexts) hrun).symm.trans filled

/-! ### The invariant -/

/-- The pools that are stored. -/
def storedPools (s : ThreadedPool) : List PoolPtr := s.nodes_.entries.map (·.2) ++ s.connections_.entries.map (·.2)

namespace Sharing

variable {ι : Type} {a : Sharing ι}

/-- The connections of a pool are the ten that were opened for it, and every pool that was made is stored once. -/
structure Stocked (a : Sharing ι) : Prop where
  opened : a.container.contexts.map (·.disconnected) = List.replicate (poolSize_ * a.container.pools.length) false
  queued : ∀ pool, ∀ con ∈ a.container.queue pool, con / poolSize_ = pool
  home : ∀ h ∈ a.held, h.con / poolSize_ = h.pool
  stored : a.container.storedPools.Perm (List.range a.container.pools.length)

theorem Stocked.contexts_length (h : a.Stocked) :
    a.container.contexts.length = poolSize_ * a.container.pools.length := by
  have flags := congrArg List.length h.opened
  rwa [List.length_map, List.length_replicate] at flags

/-- A new pool gets the next ten connections. -/
private theorem Stocked.publish (h : a.Stocked) {c : ThreadedPool} (hpools : c.pools = a.container.pools ++
      [List.range' a.container.contexts.length poolSize_])
    (hcontexts : c.contexts.map (·.disconnected) = a.container.contexts.map (·.disconnected) ++
      List.replicate poolSize_ false)
    (hstored : c.storedPools.Perm (a.container.pools.length :: a.container.storedPools)) : (a.put c).Stocked := by
  have hlen : c.pools.length = a.container.pools.length + 1 := by rw [hpools, List.length_append]; rfl
  refine ⟨?_, fun pool con hcon => ?_, h.home, ?_⟩
  · show c.contexts.map _ = List.replicate (poolSize_ * c.pools.length) false
    rw [hcontexts, h.opened, hlen, Nat.mul_succ, List.replicate_append_replicate]
  · have hcon : con ∈ (a.container.pools ++ [List.range' a.container.contexts.length poolSize_]).getD pool [] := by
      rw [← hpools]
      exact hcon
    rw [List.getD_eq_getElem?_getD] at hcon
    by_cases hnew : pool < a.container.pools.length
    · rw [List.getElem?_append_left hnew, ← List.getD_eq_getElem?_getD] at hcon
      exact h.queued pool con hcon
    · by_cases hlast : pool = a.container.pools.length
      · subst hlast
        rw [List.getElem?_concat_length, Option.getD_some, h.contexts_length, List.mem_range'_1] at hcon
        refine Nat.div_eq_of_lt_le ?_ ?_
        · rw [Nat.mul_comm]
          exact hcon.1
        · rw [Nat.mul_comm, Nat.mul_succ]
          exact hcon.2
      · have beyond : (a.container.pools ++ [List.range' a.container.contexts.length poolSize_]).length ≤ pool := by
          rw [List.length_append]
          exact Nat.lt_of_le_of_ne (Nat.le_of_not_lt hnew) (Ne.symm hlast)
        rw [List.getElem?_eq_none beyond] at hcon
        exact absurd hcon List.not_mem_nil
  · show c.storedPools.Perm (List.range c.pools.length)
    rw [hlen, List.range_succ]
    exact hstored.trans ((h.stored.cons _).trans (List.perm_append_singleton _ _).symm)

/-- A connection goes back to its pool. -/
private theorem Stocked.push (h : a.Stocked) {con : ConPtr} {pool : PoolPtr} (hcon : con / poolSize_ = pool)
    {held : List (HeldConnection ι)} (hheld : ∀ x ∈ held, x ∈ a.held) :
    Stocked { a with container := ThreadedPool.push pool con a.container, held := held } := by
  refine ⟨?_, fun q x hx => ?_, fun x hx => h.home x (hheld x hx), ?_⟩
  · show a.container.contexts.map _ = List.replicate (_ * (a.container.pools.modify pool _).length) false
    rw [List.length_modify]
    exact h.opened
  · have hx : x ∈ (a.container.pools.modify pool (· ++ [con])).getD q [] := hx
    rw [List.getD_eq_getElem?_getD, List.getElem?_modify] at hx
    cases hq : a.container.pools[q]? with
    | none =>
      rw [hq] at hx
      exact absurd hx List.not_mem_nil
    | some queue =>
      have old : ∀ y ∈ queue, y / poolSize_ = q := by
        intro y hy
        refine h.queued q y ?_
        rw [queue_of_eq hq]
        exact hy
      rw [hq] at hx
      by_cases hpq : pool = q
      · subst hpq
        have hx : x ∈ queue ++ [con] := by simpa using hx
        rcases List.mem_append.1 hx with hx | hx
        · exact old x hx
        · rw [List.mem_singleton.1 hx, hcon]
      · have hx : x ∈ queue := by simpa [hpq] using hx
        exact old x hx
  · show a.container.storedPools.Perm (List.range (a.container.pools.modify pool _).length)
    rw [List.length_modify]
    exact h.stored

variable [DecidableEq ι]

/-- A pull takes a connection of the pool. -/
theorem Stocked.pull {κ : Type} (h : a.Stocked) (t : ι) (tag : κ → PoolKey) (key : κ) (pool : PoolPtr) :
    (a.obtain t tag (pullConnection key pool a.container)).Stocked := by
  unfold pullConnection
  split
  · exact ⟨h.opened, h.queued, h.home, h.stored⟩
  · exact ⟨h.opened, h.queued, h.home, h.stored⟩
  · rename_i con rest hq
    have queue : a.container.queue pool = con :: rest := queue_of_eq hq
    have hlen : (a.container.pools.set pool rest).length = a.container.pools.length := List.length_set
    refine ⟨?_, fun q x hx => ?_, fun x hx => ?_, ?_⟩
    · show a.container.contexts.map _ = List.replicate (_ * (a.container.pools.set pool rest).length) false
      rw [hlen]
      exact h.opened
    · by_cases hqp : q = pool
      · subst hqp
        have hlt : q < a.container.pools.length := (List.getElem?_eq_some_iff.1 hq).1
        have hx : x ∈ ({ a.container with pools := a.container.pools.set q rest } : ThreadedPool).queue q := hx
        rw [queue_of_eq (List.getElem?_set_self hlt)] at hx
        refine h.queued q x ?_
        rw [queue]
        exact List.mem_cons_of_mem con hx
      · refine h.queued q x ?_
        have same : ({ a.container with pools := a.container.pools.set pool rest } : ThreadedPool).queue q =
            a.container.queue q := queue_of_ne (fun i hi => List.getElem?_set_ne (Ne.symm hi)) hqp
        rw [← same]
        exact hx
    · rcases List.mem_cons.1 hx with rfl | hx
      · refine h.queued pool con ?_
        rw [queue]
        exact List.mem_cons_self
      · exact h.home x hx
    · show a.container.storedPools.Perm (List.range (a.container.pools.set pool rest).length)
      rw [hlen]
      exact h.stored

omit [DecidableEq ι] in
/-- The connects of a section to come do not matter. -/
private theorem Stocked.expect (h : a.Stocked) (results : List ConnectResult) : (a.put (a.expect results)).Stocked :=
  ⟨h.opened, h.queued, h.home, h.stored⟩

theorem Stocked.insertSlots (h : a.Stocked) {slots : SlotRange} (hnew : a.container.nodes_.lookup slots = none)
    (host : Bytes) (port : Int32) {results : List ConnectResult} (hfull : Connects poolSize_ results) (t : ι) :
    ((PoolCall.insertSlots slots host port results).perform t a).Stocked := by
  obtain ⟨j, c, -, hpub, hn, hc, hiff, hrun⟩ := insertSlots_spec slots host port (a.expect results)
  obtain rfl := hiff.2 hfull
  have contexts := insertSlots_contexts slots host port (s := a.expect results) hfull
  rw [hrun] at contexts
  have done : (PoolCall.insertSlots slots host port results).perform t a = (a.put (a.expect results)).put c := by
    rw [← hrun]
    rfl
  rw [done]
  refine (h.expect results).publish hpub.pools ?_ ?_
  · rw [contexts, List.map_append, List.map_replicate]
    rfl
  · have perm := OrderedMap.entries_insert_perm a.container.nodes_ a.container.pools.length hnew
    rw [← OrderedMap.assign_of_lookup_none _ _ hnew] at perm
    show (c.nodes_.entries.map (·.2) ++ c.connections_.entries.map (·.2)).Perm _
    rw [hn, hc]
    exact (perm.map (·.2)).append_right _

theorem Stocked.insertHost (h : a.Stocked) {host port : Bytes} {results : List ConnectResult}
    (hfull : (PoolCall.insertHost host port results : PoolCall ι).Conserves a) (t : ι) :
    ((PoolCall.insertHost host port results).perform t a).Stocked := by
  show ((a.put (a.expect results)).obtain t .host (ThreadedPool.insertHost host port (a.expect results))).Stocked
  cases hl : a.container.connections_.lookup (DefaultContainer.hostKey host port) with
  | some pool =>
    have pull : ThreadedPool.insertHost host port (a.expect results) = _ := insertHost_found hl
    rw [pull]
    exact (h.expect results).pull t .host _ pool
  | none =>
    obtain ⟨⟨n, hport⟩, hconnects⟩ := hfull hl
    obtain ⟨j, c, -, hpub, hn, hc, hiff, ⟨hj, hrun⟩ | ⟨hj, -⟩⟩ := insertHost_new (s := a.expect results) hl
    · have contexts := insertHost_contexts (s := a.expect results) hl hport hconnects
      rw [hrun, pullConnection_contexts] at contexts
      rw [hrun]
      subst hj
      have published : (a.put c).Stocked := by
        refine (h.expect results).publish hpub.pools ?_ ?_
        · rw [contexts, List.map_append, List.map_replicate]
          rfl
        · have perm := OrderedMap.entries_insert_perm a.container.connections_ a.container.pools.length hl
          rw [← OrderedMap.assign_of_lookup_none _ _ hl] at perm
          show (c.nodes_.entries.map (·.2) ++ c.connections_.entries.map (·.2)).Perm _
          rw [hn, hc]
          exact ((perm.map (·.2)).append_left _).trans List.perm_middle
      exact published.pull t .host _ _
    · exact absurd (hiff.2 ⟨⟨n, hport⟩, hconnects⟩) hj

theorem Stocked.getConnection (h : a.Stocked) (index : SlotIndex) (t : ι) :
    ((PoolCall.getConnection index).perform t a).Stocked := by
  show (a.obtain t .slots (ThreadedPool.getConnection index a.container)).Stocked
  rcases getConnection_cases index a.container with ⟨e, -, -, hrun⟩ | hrun
  · rw [hrun]
    exact h.pull t .slots e.1 e.2
  · rw [hrun]
    exact ⟨h.opened, h.queued, h.home, h.stored⟩

theorem Stocked.release (h : a.Stocked) {conn : HeldConnection ι} (hmem : conn ∈ a.held)
    (hback : a.container.find conn.key = some conn.pool) (t : ι) :
    ((PoolCall.release conn).perform t a).Stocked := by
  show Stocked { a with
    container := (ThreadedPool.release conn.con conn.key a.container).2, held := a.held.erase conn }
  rw [release_eq hback]
  exact h.push (h.home conn hmem) fun x => List.mem_of_mem_erase

end Sharing

end ThreadedPool

end HiredisCluster
