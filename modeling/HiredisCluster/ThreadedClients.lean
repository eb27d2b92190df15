import HiredisCluster.Cxx.Run
import HiredisCluster.ThreadedPool

/-!
# Threads that share a pool

Any number of threads run `process` on one cluster whose container is a `ThreadedPool`.  A step of a thread is a section
under the lock, up to a wait, or one call to hiredis.  `custody` is the rule that `process` keeps (`process_obeys`): it
sends and reads only on connections it holds, reads one reply after each message, and releases only what it holds.
Hence no connection is in two places at once, and what a thread reads is the answer to what it sent last.
-/

namespace HiredisCluster

open Cxx HiredisCommand

/-- What a thread is doing; in `pullConnection` it waits for a pool and resumes with the connection it gets. -/
inductive Activity where
  | idle
  | running (p : Sync ReplyPtr)
  | waiting (pool : PoolPtr) (resume : ConPtr → Sync ReplyPtr)

/-- The call that a running thread makes next. -/
def Activity.nextCall : Activity → Option SyncCall
  | running (.call c _) => some c
  | _ => none

/-- A thread: what it does, the connections it has pulled and not released, and the message it sent last. -/
structure ThreadState where
  activity : Activity
  held : List ConPtr
  sent : Option Nat

/-- A cluster that threads share.  `messages` has the sender and the connection of every message, in order, and
`inFlight` the numbers of the messages on a connection whose reply was not read yet, oldest first. -/
structure Threads (ι : Type) where
  readytouse_ : Bool
  container : ThreadedPool
  threads : ι → ThreadState
  inFlight : ConPtr → List Nat
  messages : List (ι × ConPtr)
  replies : Nat
  freed : List Nat

/-- What the environment decides in a step: how the calls of `connect_` end, whether the exchange on the connection
works, and what the moved callback throws. -/
structure Surroundings where
  connects : List ConnectResult
  works : Bool
  movedCb : Option Exn

/-- A step of a thread: a free thread starts a command or inserts a range, any other goes on with what it does. -/
inductive Turn where
  | start (this : HiredisCommand)
  | insertSlots (slots : SlotRange) (host : Bytes) (port : Int32) (connects : List ConnectResult)
  | proceed (env : Surroundings)

namespace Threads

variable {ι : Type} [DecidableEq ι] (answers : Nat → RedisReply)

/-- The error flag of a connection. -/
def err (s : Threads ι) (con : ConPtr) : Bool := (s.container.contexts[con]?).any (·.err)

/-- The connections in all queues. -/
def queued (s : Threads ι) : List ConPtr := s.container.pools.flatten

def setThread (s : Threads ι) (t : ι) (x : ThreadState) : Threads ι :=
  { s with threads := fun u => if u = t then x else s.threads u }

/-- The thread goes on with the program `p`. -/
def goOn (s : Threads ι) (t : ι) (p : Sync ReplyPtr) : Threads ι :=
  s.setThread t { s.threads t with activity := .running p }

/-- How a call that ended goes on. -/
def settle {α : Type} (o : Outcome Exn α) (rest : α → Sync ReplyPtr) : Sync ReplyPtr :=
  match o with
  | .ret a => rest a
  | .throws e => .throws e
  | .undefined => .undefined

/-- A section that pulls a connection has ended. -/
def obtain {κ : Type} (s : Threads ι) (t : ι) (x : Outcome Exn (Pulled κ) × ThreadedPool)
    (rest : κ × ConPtr → Sync ReplyPtr) : Threads ι :=
  match x with
  | (.ret (.got conn _), c) =>
    { s with container := c }.setThread t
      { s.threads t with activity := .running (rest conn), held := conn.2 :: (s.threads t).held }
  | (.ret (.waits key pool), c) =>
    { s with container := c }.setThread t
      { s.threads t with activity := .waiting pool fun con => rest (key, con) }
  | (.throws e, c) => { s with container := c }.goOn t (.throws e)
  | (.undefined, c) => { s with container := c }.goOn t .undefined

/-- A section that releases a connection has ended. -/
def released (s : Threads ι) (t : ι) (con : ConPtr) (x : Outcome Exn Unit × ThreadedPool)
    (rest : Unit → Sync ReplyPtr) : Threads ι :=
  { s with container := x.2 }.setThread t
    { s.threads t with activity := .running (settle x.1 rest), held := (s.threads t).held.erase con }

/-- `Cluster::getConnection`. -/
def getConnection (s : Threads ι) (key : Bytes) : Outcome Exn (Pulled SlotRange) × ThreadedPool :=
  if ¬ s.readytouse_ then
    (.throws (.cluster .notInitialized), s.container)
  else
    match SlotHash.slotByKey true key (Int32.ofNat key.length).toInt with
    | none => (.undefined, s.container)
    | some slot => ThreadedPool.getConnection slot s.container

/-- A message is sent. -/
def send (s : Threads ι) (t : ι) (con : ConPtr) : Threads ι :=
  { s with
    inFlight := fun c => if c = con then s.inFlight c ++ [s.messages.length] else s.inFlight c
    messages := s.messages ++ [(t, con)] }.setThread t { s.threads t with sent := some s.messages.length }

/-- An exchange fails and leaves an error on the connection. -/
def fail (s : Threads ι) (con : ConPtr) : Threads ι :=
  { s with container := { s.container with
      contexts := s.container.contexts.modify con fun x => { x with err := true } } }

/-- `redisGetReply`: the server answers in the order of the messages; without one it has nothing to answer and the
thread blocks. -/
def receive (s : Threads ι) (t : ι) (con : ConPtr) (env : Surroundings)
    (rest : Option (Nat × RedisReply) → Sync ReplyPtr) : Threads ι :=
  if s.err con then s.goOn t (rest none)
  else if env.works then
    match s.inFlight con with
    | [] => s
    | m :: ms =>
      { s with
        inFlight := fun c => if c = con then ms else s.inFlight c
        replies := s.replies + 1 }.goOn t (rest (some (s.replies, answers m)))
  else (s.fail con).goOn t (rest none)

/-- The next call of a thread. -/
def call (s : Threads ι) (t : ι) (env : Surroundings) : (c : SyncCall) → (c.Result → Sync ReplyPtr) → Threads ι
  | .getConnection key, rest => s.obtain t (s.getConnection key) rest
  | .createNewConnection host port, rest =>
    s.obtain t (ThreadedPool.insertHost host port { s.container with connects := env.connects })
      fun conn => rest (conn.1, some conn.2)
  | .releaseSlotConnection conn, rest =>
    s.released t conn.2 (ThreadedPool.releaseSlotConnection conn s.container) rest
  | .releaseHostConnection (key, some con), rest =>
    s.released t con (ThreadedPool.releaseHostConnection key con s.container) rest
  -- a null pointer would be pushed into a queue
  | .releaseHostConnection (_, none), _ => s.goOn t .undefined
  | .moved, rest =>
    match env.movedCb with
    | none => s.goOn t (rest ())
    | some e => s.goOn t (.throws e)
  | .redisAppendFormattedCommand con cmd, rest =>
    match cmd with
    | none => s.goOn t .undefined
    | some _ => if env.works then (s.send t con).goOn t (rest .ok) else (s.fail con).goOn t (rest .err)
  | .redisGetReply con, rest => s.receive answers t con env rest
  -- hiredis sends the message and then reads the reply as `redisGetReply` does
  | .redisCommand con _, rest =>
    if env.works then (s.send t con).goOn t (.call (.redisGetReply con) rest) else (s.fail con).goOn t (rest none)
  | .err con, rest => s.goOn t (rest (s.err con))
  | .errstr con, rest => s.goOn t (rest (((s.container.contexts[con]?).map (·.errstr)).getD []))
  | .readReply p, rest =>
    match p with
    | .object a r => s.goOn t (if a ∈ s.freed then .undefined else rest r)
    | _ => s.goOn t .undefined
  | .freeReplyObject p, rest =>
    match p with
    | .null => s.goOn t (rest ())
    | .unset => s.goOn t .undefined
    | .object a _ => { s with freed := a :: s.freed }.goOn t (if a ∈ s.freed then .undefined else rest ())

/-- A thread goes on: a command that has ended leaves it idle, one with undefined behaviour stops it. -/
def proceed (s : Threads ι) (t : ι) (env : Surroundings) : Threads ι :=
  match (s.threads t).activity with
  | .idle => s
  | .running (.ret _) | .running (.throws _) => s.setThread t { s.threads t with activity := .idle, held := [] }
  | .running .undefined => s
  | .running (.call c rest) => s.call answers t env c rest
  | .waiting pool resume => s.obtain t (ThreadedPool.pullConnection () pool s.container) fun conn => resume conn.2

/-- A step of a thread. -/
def exec (s : Threads ι) (e : ι × Turn) : Threads ι :=
  match e.2 with
  | .proceed env => s.proceed answers e.1 env
  | .start this =>
    match (s.threads e.1).activity with
    | .idle => s.goOn e.1 this.process
    | _ => s
  | .insertSlots slots host port connects =>
    match (s.threads e.1).activity with
    | .idle => { s with
        container := (ThreadedPool.insertSlots slots host port { s.container with connects := connects }).2 }
    | _ => s

/-- No pools, idle threads and silent connections. -/
structure Constructed (s : Threads ι) : Prop where
  pools : s.container.pools = []
  idle : ∀ t, (s.threads t).activity = .idle ∧ (s.threads t).held = []
  silent : ∀ c, s.inFlight c = []

/-- A run of the threads, in any order. -/
abbrev ThreadRun : Threads ι → List (Threads ι × ι × Turn) → Prop :=
  Run Constructed fun s e s' => s' = s.exec answers e

end Threads

/-! ### The rule that `process` keeps -/

/-- The connections a program holds, and the one on which a message waits for its reply to be read. -/
structure Custody where
  held : List ConPtr
  owed : Option ConPtr

/-- Connections are used and released while they are held, and a reply is read on the connection of the message that
was just sent. -/
def custody : Program.Protocol syncInterface Custody where
  allows g c :=
    match c with
    | .getConnection _ | .createNewConnection _ _ => g.owed = none
    | .releaseSlotConnection conn => conn.2 ∈ g.held ∧ g.owed = none
    | .releaseHostConnection (_, some con) => con ∈ g.held ∧ g.owed = none
    | .releaseHostConnection (_, none) => False
    | .redisAppendFormattedCommand con _ | .redisCommand con _ => con ∈ g.held ∧ g.owed = none
    | .redisGetReply con => con ∈ g.held ∧ g.owed = some con
    | _ => True
  after g c r :=
    match c, r with
    | .getConnection _, conn => { g with held := conn.2 :: g.held }
    | .createNewConnection _ _, (_, some con) => { g with held := con :: g.held }
    | .releaseSlotConnection conn, _ => { g with held := g.held.erase conn.2 }
    | .releaseHostConnection (_, some con), _ => { g with held := g.held.erase con }
    | .redisAppendFormattedCommand con _, _ => { g with owed := some con }
    | .redisGetReply _, _ => { g with owed := none }
    | _, _ => g

namespace Custody

open Program

variable {g : Custody}

private theorem obeys_sync {c : SyncCall} {Q : Custody → c.Result → Prop} (ha : custody.allows g c)
    (hq : ∀ r, Q (custody.after g c r) r) : (sync c).Obeys custody Q g := ⟨ha, hq⟩

private theorem obeys_pure {α : Type} {Q : Custody → α → Prop} {a : α} (h : Q g a) :
    (pure a : Sync α).Obeys custody Q g := h

private theorem obeys_outcome {α : Type} (o : Outcome Exn α) :
    (outcome o : Sync α).Obeys custody (fun g' _ => g' = g) g := by
  cases o with
  | ret a => exact (rfl : g = g)
  | throws e => trivial
  | undefined => trivial

private theorem obeys_raise {α : Type} {Q : Custody → α → Prop} (reply : ReplyPtr) (e : ClusterException) :
    (raise reply e : Sync α).Obeys custody Q g := by
  cases reply with
  | null => trivial
  | unset => exact ⟨trivial, fun _ => trivial⟩
  | object a r => exact ⟨trivial, fun _ => trivial⟩

/-- A message is sent and its reply read. -/
private theorem processHiredisCommand_obeys (this : HiredisCommand) {con : ConPtr} (h : con ∈ g.held ∧ g.owed = none) :
    (this.processHiredisCommand con).Obeys custody (fun g' _ => g' = g) g := by
  refine Obeys.bind (obeys_sync (Q := fun g' _ => g' = { g with owed := some con }) h fun _ => rfl) ?_
  rintro g₁ _ rfl
  refine Obeys.bind (obeys_sync (Q := fun g' _ => g' = g) ⟨h.1, rfl⟩ fun _ => ?_) ?_
  · obtain ⟨held, owed⟩ := g
    obtain ⟨-, rfl⟩ := h
    rfl
  · rintro g₂ a rfl
    cases a <;> exact (rfl : g₂ = g₂)

private theorem asking_obeys {con : ConPtr} (h : con ∈ g.held ∧ g.owed = none) :
    (asking con).Obeys custody (fun g' _ => g' = g) g := by
  refine Obeys.bind (obeys_sync (Q := fun g' _ => g' = g) h fun _ => rfl) ?_
  rintro g₁ a rfl
  cases a <;> exact (rfl : g₁ = g₁)

/-- The checks of a reply make no calls on connections. -/
private theorem checkCritical_obeys (reply : ReplyPtr) (critical free : Bool) (error : Bytes) (con : Option ConPtr) :
    (checkCritical reply critical free error con : Sync Unit).Obeys custody (fun g' _ => g' = g) g := by
  have checked : (checkCritical reply critical free error none : Sync Unit).Obeys custody (fun g' _ => g' = g) g := by
    refine Obeys.bind (obeys_sync (Q := fun g' _ => g' = g) trivial fun _ => rfl) ?_
    rintro g₁ r rfl
    split
    · split
      · exact obeys_raise _ _
      · refine Obeys.bind (obeys_outcome _) ?_
        rintro g₂ str rfl
        split
        · exact obeys_raise _ _
        · exact obeys_pure rfl
    · exact obeys_pure rfl
  cases con with
  | none => exact checked
  | some c =>
    refine Obeys.bind (obeys_sync (Q := fun g' _ => g' = g) trivial fun _ => rfl) ?_
    rintro g₁ e rfl
    cases e with
    | true => exact Obeys.bind (obeys_raise (Q := fun _ _ => False) _ _) fun _ _ h => h.elim
    | false => exact checked

private theorem freeReply_obeys (reply : ReplyPtr) :
    (freeReplyObject reply : Sync Unit).Obeys custody (fun g' _ => g' = g) g :=
  obeys_sync trivial fun _ => rfl

private theorem processAsk_obeys (this : HiredisCommand) (reply : ReplyPtr) (host port : Bytes) (h : g.owed = none) :
    (this.processAsk reply host port).Obeys custody (fun _ _ => True) g := by
  refine Obeys.bind (freeReply_obeys reply) ?_
  rintro g₁ _ rfl
  refine Obeys.bind (obeys_sync (Q := fun g' hcon => g' = custody.after g₁ (.createNewConnection host port) hcon) h
    fun _ => rfl) ?_
  rintro g₂ ⟨key, con⟩ rfl
  cases con with
  | none => exact obeys_raise _ _
  | some c =>
    have hc : c ∈ (custody.after g₁ (.createNewConnection host port) (key, some c)).held ∧
        (custody.after g₁ (.createNewConnection host port) (key, some c)).owed = none :=
      ⟨List.mem_cons_self, h⟩
    refine Obeys.bind (obeys_sync (Q := fun g' _ => g' = _) trivial fun _ => rfl) ?_
    rintro g₃ e rfl
    cases e with
    | true =>
      refine Obeys.bind (obeys_sync (Q := fun _ _ => True) hc fun _ => trivial) ?_
      intro g₄ _ _
      refine Obeys.bind (obeys_sync (Q := fun _ _ => True) trivial fun _ => trivial) ?_
      intro g₅ _ _
      exact obeys_raise _ _
    | false =>
      refine Obeys.bind (asking_obeys hc) ?_
      rintro g₄ a rfl
      refine Obeys.bind (checkCritical_obeys ..) ?_
      rintro g₅ _ rfl
      refine Obeys.bind (freeReply_obeys a) ?_
      rintro g₆ _ rfl
      refine Obeys.bind (processHiredisCommand_obeys this hc) ?_
      rintro g₇ r rfl
      refine Obeys.bind (checkCritical_obeys ..) ?_
      rintro g₈ _ rfl
      refine Obeys.bind (obeys_sync (Q := fun _ _ => True) hc fun _ => trivial) ?_
      intro g₉ _ _
      exact obeys_pure trivial

private theorem processMoved_obeys (this : HiredisCommand) (reply : ReplyPtr) (host port : Bytes) (h : g.owed = none) :
    (this.processMoved reply host port).Obeys custody (fun _ _ => True) g := by
  refine Obeys.bind (freeReply_obeys reply) ?_
  rintro g₁ _ rfl
  refine Obeys.bind (obeys_sync (Q := fun g' hcon => g' = custody.after g₁ (.createNewConnection host port) hcon) h
    fun _ => rfl) ?_
  rintro g₂ ⟨key, con⟩ rfl
  cases con with
  | none => exact obeys_raise _ _
  | some c =>
    have hc : c ∈ (custody.after g₁ (.createNewConnection host port) (key, some c)).held ∧
        (custody.after g₁ (.createNewConnection host port) (key, some c)).owed = none :=
      ⟨List.mem_cons_self, h⟩
    refine Obeys.bind (obeys_sync (Q := fun g' _ => g' = _) trivial fun _ => rfl) ?_
    rintro g₃ e rfl
    cases e with
    | true =>
      refine Obeys.bind (obeys_sync (Q := fun _ _ => True) trivial fun _ => trivial) ?_
      intro g₄ _ _
      exact obeys_raise _ _
    | false =>
      refine Obeys.bind (processHiredisCommand_obeys this hc) ?_
      rintro g₄ r rfl
      refine Obeys.bind (obeys_sync (Q := fun g' _ => g' = _) trivial fun _ => rfl) ?_
      rintro g₅ _ rfl
      refine Obeys.bind (obeys_sync (Q := fun _ _ => True) hc fun _ => trivial) ?_
      intro g₆ _ _
      exact obeys_pure trivial

/-- `process` keeps the rule from empty hands. -/
theorem process_obeys (this : HiredisCommand) : this.process.Obeys custody (fun _ _ => True) ⟨[], none⟩ := by
  refine Obeys.bind (obeys_sync (c := .getConnection this.key_) (Q := fun g' con => g' = ⟨[con.2], none⟩) rfl
    fun _ => rfl) ?_
  rintro g₁ con rfl
  have hc : con.2 ∈ (⟨[con.2], none⟩ : Custody).held ∧ (⟨[con.2], none⟩ : Custody).owed = none :=
    ⟨List.mem_cons_self, rfl⟩
  refine Obeys.bind (processHiredisCommand_obeys this hc) ?_
  rintro g₂ reply rfl
  refine Obeys.bind (checkCritical_obeys ..) ?_
  rintro g₃ _ rfl
  refine Obeys.bind (obeys_sync (Q := fun g' _ => g'.owed = none) hc fun _ => rfl) ?_
  intro g₄ _ h₄
  refine Obeys.bind (obeys_sync (Q := fun g' _ => g' = g₄) trivial fun _ => rfl) ?_
  rintro g₅ r rfl
  refine Obeys.bind (obeys_outcome _) ?_
  rintro g₆ ⟨state, host, port⟩ rfl
  cases state with
  | ask => exact processAsk_obeys this reply host port h₄
  | moved => exact processMoved_obeys this reply host port h₄
  | ready => exact obeys_pure trivial
  | clusterDown => exact obeys_raise _ _
  | failed => exact obeys_raise _ _

end Custody

end HiredisCluster
