import HiredisCluster.HiredisCommand

/-!
# The connection pool of the threaded example (`threadpool.cpp`)

`ThreadedPool` takes the place of `DefaultContainer`: a range of slots or a redirection target has a pool of `poolSize_`
connections, a thread pulls one out of its queue and pushes it back when it releases it.  Every member function runs
under one lock; only `pullConnection` gives it up, to wait while the queue is empty.  The code of a function up to such
a wait is one step here, and `Pulled.waits` says where the thread goes on.
-/

namespace HiredisCluster

open Cxx HiredisCommand

/-- A pointer to a `ConPool`, the number of the pool. -/
abbrev PoolPtr := Nat

/-- `ThreadedPool`, with the queues of all pools that were made, the connection contexts that were opened, and how the
next calls of `connect_` end. -/
structure ThreadedPool where
  nodes_ : OrderedMap slotRank PoolPtr
  connections_ : OrderedMap hostRank PoolPtr
  pools : List (List ConPtr)
  contexts : List Context
  connects : List ConnectResult

/-- The end of a section that pulls a connection: it has one, or the thread waits for a connection of the pool. -/
inductive Pulled (κ : Type) where
  | got (conn : κ × ConPtr) (pool : PoolPtr)
  | waits (key : κ) (pool : PoolPtr)

namespace ThreadedPool

def poolSize_ : Nat := 10

/-- Code that runs while the lock is held. -/
abbrev Locked (α : Type) := Code ThreadedPool Exn α

/-- `connect_`. -/
def connect (host : Bytes) (port : Int32) : Locked (Option ConPtr) := fun s =>
  let rest := { s with connects := s.connects.tail }
  match s.connects.headD .healthy with
  | .null => (.ret none, rest)
  | .broken errstr =>
    (.ret (some s.contexts.length),
      { rest with contexts := s.contexts ++ [{ Context.opened host port with err := true, errstr := errstr }] })
  | .healthy =>
    (.ret (some s.contexts.length), { rest with contexts := s.contexts ++ [Context.opened host port] })

/-- `conn->err`. -/
def errOf (con : ConPtr) : Locked Bool := fun s =>
  match s.contexts[con]? with
  | some x => (.ret x.err, s)
  | none => (.undefined, s)

/-- `pool.second.push(con)`. -/
def push (pool : PoolPtr) (con : ConPtr) (s : ThreadedPool) : ThreadedPool :=
  { s with pools := s.pools.modify pool (· ++ [con]) }

/-- `new ConPool()`. -/
def newPool : Locked PoolPtr := fun s => (.ret s.pools.length, { s with pools := s.pools ++ [[]] })

/-- The loop of `fillPool` with `n` connections to go. -/
def fillLoop (pool : PoolPtr) (host : Bytes) (port : Int32) : (n : Nat) → Locked Unit
  | 0 => pure ()
  | n + 1 => do
    match ← connect host port with
    | none => Code.throws (.cluster .connectionFailed)
    | some conn =>
      if ← errOf conn then
        Code.throws (.cluster .connectionFailed)
      else
        Code.modify (push pool conn)
        fillLoop pool host port n

/-- `fillPool`. -/
def fillPool (pool : PoolPtr) (host : Bytes) (port : Int32) : Locked Unit := fillLoop pool host port poolSize_

/-- `pullConnection`, from one test of the queue to the next; a thread that is woken, or wakes up by itself, tests
again. -/
def pullConnection {κ : Type} (key : κ) (pool : PoolPtr) : Locked (Pulled κ) := fun s =>
  match s.pools[pool]? with
  | none => (.undefined, s)
  | some [] => (.ret (.waits key pool), s)
  | some (con :: rest) => (.ret (.got (key, con) pool), { s with pools := s.pools.set pool rest })

/-- `pushConnection`; notifying a thread changes nothing here, since a waiting thread may test its queue any time. -/
def pushConnection (pool : PoolPtr) (con : ConPtr) : Locked Unit := Code.modify (push pool con)

/-- `insert(SlotRange, const char *, int)`.  The pool is published before it is filled, in the place of the one the
range start had. -/
def insertSlots (slots : SlotRange) (host : Bytes) (port : Int32) : Locked Unit := do
  let pool ← newPool
  Code.modify fun s => { s with nodes_ := s.nodes_.assign slots pool }
  fillPool pool (cStr host) port

/-- `insert(string, string)`. -/
def insertHost (host port : Bytes) : Locked (Pulled Bytes) := do
  let key := DefaultContainer.hostKey host port
  let s ← Code.get
  match s.connections_.lookup key with
  | some pool => pullConnection key pool
  | none =>
    let pool ← newPool
    Code.modify fun s => { s with connections_ := s.connections_.assign key pool }
    -- the port is converted after the empty pool is published
    let portNumber ← Code.lift ((stoi port).mapThrows .std)
    fillPool pool (cStr host) portNumber
    pullConnection key pool

/-- `getConnection(SlotIndex)`. -/
def getConnection (index : SlotIndex) : Locked (Pulled SlotRange) := do
  let s ← Code.get
  let found ← Code.lift (DefaultContainer.searchBySlots index s.nodes_)
  pullConnection found.1 found.2

/-- `releaseConnection(SlotConnection)`; for a range without an entry `operator[]` would make a null pool. -/
def releaseSlotConnection (conn : SlotConnection) : Locked Unit := do
  let s ← Code.get
  match s.nodes_.lookup conn.1 with
  | some pool => pushConnection pool conn.2
  | none => Code.undefined

/-- `releaseConnection(HostConnection)` of a connection that is not null. -/
def releaseHostConnection (key : Bytes) (con : ConPtr) : Locked Unit := do
  let s ← Code.get
  match s.connections_.lookup key with
  | some pool => pushConnection pool con
  | none => Code.undefined

/-! ### What the functions do to the queues -/

/-- The queue of a pool. -/
def queue (pool : PoolPtr) (s : ThreadedPool) : List ConPtr := s.pools.getD pool []

/-- The first `n` calls of `connect_` succeed. -/
def Connects : (n : Nat) → List ConnectResult → Prop
  | 0, _ => True
  | n + 1, results => results.headD .healthy = .healthy ∧ Connects n results.tail

/-- What filling a pool has done after `j` connections: they are new, and the tables are as before. -/
structure Filled (pool : PoolPtr) (j : Nat) (s s' : ThreadedPool) : Prop where
  nodes : s'.nodes_ = s.nodes_
  connections : s'.connections_ = s.connections_
  pools : s'.pools = s.pools.modify pool (· ++ List.range' s.contexts.length j)
  contexts : s.contexts <+: s'.contexts
  opened : s.contexts.length + j ≤ s'.contexts.length

private theorem modify_append_nil (pools : List (List ConPtr)) (pool : PoolPtr) :
    pools.modify pool (· ++ []) = pools := by
  have same : (fun q : List ConPtr => q ++ []) = id := funext List.append_nil
  rw [same, List.modify_id]

private theorem Filled.refl (pool : PoolPtr) (s : ThreadedPool) : Filled pool 0 s s :=
  ⟨rfl, rfl, (modify_append_nil s.pools pool).symm, List.prefix_refl _, Nat.le_refl _⟩

/-- Nothing is pushed when the first connection fails. -/
private theorem Filled.failed (pool : PoolPtr) {s s' : ThreadedPool} (hn : s'.nodes_ = s.nodes_)
    (hc : s'.connections_ = s.connections_) (hp : s'.pools = s.pools) (hx : s.contexts <+: s'.contexts) :
    Filled pool 0 s s' := by
  refine ⟨hn, hc, ?_, hx, hx.length_le⟩
  rw [hp]
  exact (modify_append_nil s.pools pool).symm

/-- One connection first, then `j` more. -/
private theorem Filled.cons {pool : PoolPtr} {j : Nat} {s v s' : ThreadedPool} {x : Context} (hn : v.nodes_ = s.nodes_)
    (hc : v.connections_ = s.connections_) (hp : v.pools = s.pools.modify pool (· ++ [s.contexts.length]))
    (hx : v.contexts = s.contexts ++ [x]) (h : Filled pool j v s') : Filled pool (j + 1) s s' := by
  have hlen : v.contexts.length = s.contexts.length + 1 := by rw [hx, List.length_append]; rfl
  refine ⟨h.nodes.trans hn, h.connections.trans hc, ?_, ?_, ?_⟩
  · rw [h.pools, hp, List.modify_modify_eq, hlen, List.range'_succ]
    congr 1
    funext q
    simp
  · exact (by rw [hx]; exact List.prefix_append _ _ : s.contexts <+: v.contexts).trans h.contexts
  · have := h.opened
    omega

/-- A connection that is opened is new, and its `err` says how the call ended. -/
private theorem connect_some (host : Bytes) (port : Int32) (s : ThreadedPool) (h : s.connects.headD .healthy ≠ .null) :
    ∃ v x, connect host port s = (.ret (some s.contexts.length), v) ∧
      errOf s.contexts.length v = (.ret (decide (s.connects.headD .healthy ≠ .healthy)), v) ∧
      v.nodes_ = s.nodes_ ∧ v.connections_ = s.connections_ ∧ v.pools = s.pools ∧
      v.contexts = s.contexts ++ [x] ∧ v.connects = s.connects.tail := by
  unfold connect
  cases hr : s.connects.headD .healthy with
  | null => exact absurd hr h
  | broken errstr =>
    refine ⟨_, _, rfl, ?_, rfl, rfl, rfl, rfl, rfl⟩
    unfold errOf
    rw [List.getElem?_concat_length]
    rfl
  | healthy =>
    refine ⟨_, _, rfl, ?_, rfl, rfl, rfl, rfl, rfl⟩
    unfold errOf
    rw [List.getElem?_concat_length]
    rfl

/-- Filling stops at the first connection that fails, and keeps what it has. -/
private theorem fillLoop_spec (pool : PoolPtr) (host : Bytes) (port : Int32) (n : Nat) (s : ThreadedPool) :
    ∃ j s', j ≤ n ∧ Filled pool j s s' ∧ (j = n ↔ Connects n s.connects) ∧ fillLoop pool host port n s =
      (if j = n then .ret () else .throws (.cluster .connectionFailed), s') := by
  induction n generalizing s with
  | zero => exact ⟨0, s, Nat.le_refl _, Filled.refl pool s, iff_of_true rfl trivial, rfl⟩
  | succ n ih =>
    unfold fillLoop Connects
    by_cases hnull : s.connects.headD .healthy = .null
    · have hconn : connect host port s = (.ret none, { s with connects := s.connects.tail }) := by
        unfold connect
        rw [hnull]
      rw [Code.bind_of_ret hconn]
      refine ⟨0, { s with connects := s.connects.tail }, Nat.zero_le _,
        Filled.failed pool rfl rfl rfl (List.prefix_refl _), ?_, ?_⟩
      · exact iff_of_false (by omega) fun h => by rw [hnull] at h; cases h.1
      · rw [if_neg (by omega)]
        rfl
    · obtain ⟨v, x, hconn, herr, hn, hc, hp, hx, hrest⟩ := connect_some host port s hnull
      rw [Code.bind_of_ret hconn]
      dsimp only
      rw [Code.bind_of_ret herr]
      by_cases hok : s.connects.headD .healthy = .healthy
      · rw [decide_eq_false (not_not.2 hok), if_neg Bool.false_ne_true, Code.bind_of_ret (Code.modify_apply _ _)]
        obtain ⟨j, s', hj, hfill, hiff, hrun⟩ := ih (push pool s.contexts.length v)
        have hpush : (push pool s.contexts.length v).pools = s.pools.modify pool (· ++ [s.contexts.length]) := by
          rw [← hp]
          rfl
        refine ⟨j + 1, s', by omega, Filled.cons (v := push pool s.contexts.length v) hn hc hpush hx hfill, ?_, ?_⟩
        · have rest : (push pool s.contexts.length v).connects = s.connects.tail := hrest
          rw [Nat.add_right_cancel_iff, hiff, rest]
          exact ⟨fun h => ⟨hok, h⟩, And.right⟩
        · rw [hrun]
          simp only [Nat.add_right_cancel_iff]
      · rw [decide_eq_true hok, if_pos rfl]
        refine ⟨0, v, Nat.zero_le _, Filled.failed pool hn hc hp (by rw [hx]; exact List.prefix_append _ _), ?_, ?_⟩
        · exact iff_of_false (by omega) fun h => hok h.1
        · rw [if_neg (by omega)]
          rfl

private theorem modify_concat (pools : List (List ConPtr)) (q : List ConPtr) (f : List ConPtr → List ConPtr) :
    (pools ++ [q]).modify pools.length f = pools ++ [f q] := by
  induction pools with
  | nil => rfl
  | cons a pools ih => simpa using ih

/-- A new pool was made, and its queue holds `j` new connections. -/
structure Published (j : Nat) (s s' : ThreadedPool) : Prop where
  pools : s'.pools = s.pools ++ [List.range' s.contexts.length j]
  contexts : s.contexts <+: s'.contexts
  opened : s.contexts.length + j ≤ s'.contexts.length

/-- Filling a pool that was just made. -/
theorem fillPool_spec (host : Bytes) (port : Int32) (s v : ThreadedPool) (hp : v.pools = s.pools ++ [[]])
    (hx : v.contexts = s.contexts) (hr : v.connects = s.connects) :
    ∃ j s', j ≤ poolSize_ ∧ Published j s s' ∧ s'.nodes_ = v.nodes_ ∧ s'.connections_ = v.connections_ ∧
      (j = poolSize_ ↔ Connects poolSize_ s.connects) ∧ fillPool s.pools.length host port v =
        (if j = poolSize_ then .ret () else .throws (.cluster .connectionFailed), s') := by
  obtain ⟨j, s', hj, hfill, hiff, hrun⟩ := fillLoop_spec s.pools.length host port poolSize_ v
  refine ⟨j, s', hj, ⟨?_, ?_, ?_⟩, hfill.nodes, hfill.connections, ?_, hrun⟩
  · rw [hfill.pools, hp, modify_concat, hx]
    rfl
  · rw [← hx]
    exact hfill.contexts
  · rw [← hx]
    exact hfill.opened
  · rw [← hr]
    exact hiff

/-- The slot insert publishes a pool whatever becomes of its connections. -/
theorem insertSlots_spec (slots : SlotRange) (host : Bytes) (port : Int32) (s : ThreadedPool) :
    ∃ j s', j ≤ poolSize_ ∧ Published j s s' ∧ s'.nodes_ = s.nodes_.assign slots s.pools.length ∧
      s'.connections_ = s.connections_ ∧ (j = poolSize_ ↔ Connects poolSize_ s.connects) ∧
      (insertSlots slots host port s).2 = s' := by
  obtain ⟨j, s', hj, hpub, hn, hc, hiff, hrun⟩ := fillPool_spec (cStr host) port s
    { s with pools := s.pools ++ [[]], nodes_ := s.nodes_.assign slots s.pools.length } rfl rfl rfl
  refine ⟨j, s', hj, hpub, hn, hc, hiff, ?_⟩
  exact congrArg Prod.snd hrun

/-- The redirect insert of an address that has a pool only pulls from it. -/
theorem insertHost_found {host port : Bytes} {s : ThreadedPool} {pool : PoolPtr}
    (h : s.connections_.lookup (DefaultContainer.hostKey host port) = some pool) :
    insertHost host port s = pullConnection (DefaultContainer.hostKey host port) pool s := by
  unfold insertHost
  rw [Code.bind_of_ret (Code.get_apply s), h]

/-- For a new address a pool is published first; the connection comes out of it if it could be filled. -/
theorem insertHost_new {host port : Bytes} {s : ThreadedPool}
    (h : s.connections_.lookup (DefaultContainer.hostKey host port) = none) :
    ∃ j s', j ≤ poolSize_ ∧ Published j s s' ∧ s'.nodes_ = s.nodes_ ∧
      s'.connections_ = s.connections_.assign (DefaultContainer.hostKey host port) s.pools.length ∧
      (j = poolSize_ ↔ (∃ n, stoi port = .ret n) ∧ Connects poolSize_ s.connects) ∧
      ((j = poolSize_ ∧ insertHost host port s =
          pullConnection (DefaultContainer.hostKey host port) s.pools.length s') ∨
        (j ≠ poolSize_ ∧ ∃ e, insertHost host port s = (.throws e, s'))) := by
  let v : ThreadedPool := { s with
    pools := s.pools ++ [[]]
    connections_ := s.connections_.assign (DefaultContainer.hostKey host port) s.pools.length }
  have made : insertHost host port s = (do
      let portNumber ← Code.lift ((stoi port).mapThrows .std)
      fillPool s.pools.length (cStr host) portNumber
      pullConnection (DefaultContainer.hostKey host port) s.pools.length : Locked (Pulled Bytes)) v := by
    unfold insertHost
    rw [Code.bind_of_ret (Code.get_apply s), h]
    rfl
  rcases stoi_cases port with ⟨n, hn⟩ | ⟨e, he⟩
  · have hport : (Code.lift ((stoi port).mapThrows .std) : Locked Int32) v = (.ret n, v) := by rw [hn]; rfl
    rw [Code.bind_of_ret hport] at made
    obtain ⟨j, s', hj, hpub, hnodes, hc, hiff, hrun⟩ := fillPool_spec (cStr host) n s v rfl rfl rfl
    have both : j = poolSize_ ↔ (∃ n, stoi port = .ret n) ∧ Connects poolSize_ s.connects := by
      rw [hiff]
      exact ⟨fun hc => ⟨⟨n, hn⟩, hc⟩, And.right⟩
    refine ⟨j, s', hj, hpub, hnodes, hc, both, ?_⟩
    by_cases hfull : j = poolSize_
    · rw [if_pos hfull] at hrun
      rw [Code.bind_of_ret hrun] at made
      exact Or.inl ⟨hfull, made⟩
    · rw [if_neg hfull] at hrun
      rw [Code.bind_of_throws hrun] at made
      exact Or.inr ⟨hfull, _, made⟩
  · have hport : (Code.lift ((stoi port).mapThrows .std) : Locked Int32) v = (.throws (.std e), v) := by rw [he]; rfl
    rw [Code.bind_of_throws hport] at made
    refine ⟨0, v, Nat.zero_le _, ⟨rfl, List.prefix_refl _, Nat.le_refl _⟩, rfl, rfl, ?_, Or.inr ⟨by decide, _, made⟩⟩
    refine iff_of_false (by decide) ?_
    rintro ⟨⟨n, hn⟩, -⟩
    rw [he] at hn
    cases hn

/-- A pull takes the first connection of the queue, or finds the queue empty. -/
theorem pullConnection_cases {κ : Type} (key : κ) {pool : PoolPtr} {s : ThreadedPool} (h : pool < s.pools.length) :
    (∃ con rest, s.pools[pool]? = some (con :: rest) ∧
      pullConnection key pool s = (.ret (.got (key, con) pool), { s with pools := s.pools.set pool rest })) ∨
    (s.pools[pool]? = some [] ∧ pullConnection key pool s = (.ret (.waits key pool), s)) := by
  unfold pullConnection
  rw [List.getElem?_eq_getElem h]
  cases s.pools[pool] with
  | nil => exact Or.inr ⟨rfl, rfl⟩
  | cons con rest => exact Or.inl ⟨con, rest, rfl, rfl⟩

/-- A request for a slot pulls from the pool of the range that the search finds. -/
theorem getConnection_cases (index : SlotIndex) (s : ThreadedPool) :
    (∃ e, DefaultContainer.searchBySlots index s.nodes_ = .ret e ∧ s.nodes_.lookup e.1 = some e.2 ∧
      getConnection index s = pullConnection e.1 e.2 s) ∨
    getConnection index s = (.throws (.cluster .nodeSearch), s) := by
  unfold getConnection
  rw [Code.bind_of_ret (Code.get_apply s)]
  rcases DefaultContainer.searchBySlots_cases index s.nodes_ with ⟨e, he⟩ | he
  · have hsearch : (Code.lift (DefaultContainer.searchBySlots index s.nodes_) : Locked SlotConnection) s =
        (.ret e, s) := by rw [he]; rfl
    have hmem : e ∈ s.nodes_.entries := (DefaultContainer.rangeAt_ret he).1
    rw [Code.bind_of_ret hsearch]
    exact Or.inl ⟨e, he, (OrderedMap.lookup_eq_some_iff _ _ _).2 ⟨e, hmem, rfl, rfl⟩, rfl⟩
  · have hsearch : (Code.lift (DefaultContainer.searchBySlots index s.nodes_) : Locked SlotConnection) s =
        (.throws (.cluster .nodeSearch), s) := by rw [he]; rfl
    rw [Code.bind_of_throws hsearch]
    exact Or.inr rfl

end ThreadedPool

end HiredisCluster
