import HiredisCluster.AsyncHiredisCommand
import HiredisCluster.Cxx.Ledger
import HiredisCluster.HiredisCommand
import HiredisCluster.SlotsReply

/-!
# Creating a cluster

`createCluster` of both clients connects to one node, asks it for `CLUSTER SLOTS` and constructs the cluster from the
reply.  All it holds meanwhile is held by raw pointers, so an exception releases nothing: creating a cluster is all or
nothing exactly when there is no bootstrap context or nothing fails (`createCluster_allOrNothing_iff`).
-/

namespace HiredisCluster

open Cxx

/-! ### Resources -/

/-- What is held through raw pointers while a cluster is created, apart from the reply. -/
inductive Resource where
  | bootstrap
  | container
  | connectContext
  | connection (con : ConPtr)
  deriving DecidableEq, Repr

/-- A client with a record of what was acquired and released. -/
structure WithLog (ρ : Type) where
  client : ρ
  log : List (Holding Resource)

variable {ρ α : Type}

def WithLog.note (c : WithLog ρ) (e : Holding Resource) : WithLog ρ := { c with log := c.log ++ [e] }

/-- Code of the client; every context that it opens is acquired. -/
def recording (m : Lib ρ α) : Lib (WithLog ρ) α := fun w =>
  let x := m (w.setClient w.client.client)
  let opened := List.range' w.contexts.length (x.2.contexts.length - w.contexts.length)
  (x.1, x.2.setClient ⟨x.2.client, w.client.log ++ opened.map fun con => .acquire (.connection con)⟩)

/-- Something is acquired or released. -/
def note (e : Holding Resource) : Lib (WithLog ρ) Unit := Code.modify fun w => w.setClient (w.client.note e)

/-- The user's functions, with the record. -/
def Functions.withLog (fn : Functions ρ) : Functions (WithLog ρ) where
  connect := fn.connect.map fun f host port => recording (f host port)
  disconnect := fn.disconnect.map fun f con => do
    recording (f con)
    note (.release (.connection con))
  userMovedFn := recording fn.userMovedFn

/-! ### `createCluster` -/

/-- What the environment decides before the cluster is constructed: how `redisConnectWithTimeout` ends, and the answer
to `CLUSTER SLOTS`, if there is one. -/
structure Bootstrap where
  connect : HiredisCommand.ConnectResult
  slots : Option RedisReply

/-- `redisConnectWithTimeout`; a context that is returned is given by its field `err`. -/
def redisConnectWithTimeout (boot : Bootstrap) : Lib (WithLog ρ) (Option Bool) := do
  match boot.connect with
  | .null => return none
  | .broken _ => do
    note (.acquire .bootstrap)
    return some true
  | .healthy => do
    note (.acquire .bootstrap)
    return some false

/-- `redisCommand(con, Cluster::CmdInit())`. -/
def redisCommandInit (boot : Bootstrap) : Lib (WithLog ρ) ReplyPtr := do
  match boot.slots with
  | none => return .null
  | some r => do
    let w ← Code.get
    Code.modify fun w => { w with replies := w.replies + 1 }
    return .object w.replies r

/-- `new Cluster(…)`.  When the constructor throws, the destructor does not run. -/
def newCluster (fn : Functions ρ) (reply : ReplyPtr) : Lib (WithLog ρ) Unit := do
  note (.acquire .container)
  Cluster.construct fn.withLog reply

/-- `createCluster` from the check of the reply on; `allocate` and `assign` are the lines that only one of the two
functions has. -/
def createFromReply (fn : Functions ρ) (allocate assign : WithLog ρ → WithLog ρ) (reply : ReplyPtr) :
    Lib (WithLog ρ) Unit := do
  checkCritical reply true true [] none
  Code.modify fun w => w.setClient (allocate w.client)
  newCluster fn reply
  Code.modify fun w => w.setClient (assign w.client)
  freeReplyObject reply
  -- `redisFree(con)`
  note (.release .bootstrap)

/-- What both functions `createCluster` do. -/
def createClusterWith (boot : Bootstrap) (fn : Functions ρ) (allocate assign : WithLog ρ → WithLog ρ) :
    Lib (WithLog ρ) Unit := do
  match ← redisConnectWithTimeout boot with
  | none => raise .null .connectionFailed
  | some err =>
    if err then
      raise .null .connectionFailed
    else
      let reply ← redisCommandInit boot
      createFromReply fn allocate assign reply

/-- `HiredisCommand::createCluster`. -/
def HiredisCommand.createCluster (boot : Bootstrap) (fn : Functions ρ) : Lib (WithLog ρ) Unit :=
  createClusterWith boot fn id id

/-- `cc = new ConnectContext({ &adapter, nullptr, 0})`. -/
def newConnectContext (c : WithLog AsyncClient) : WithLog AsyncClient :=
  WithLog.note { c with client := { c.client with
    data_ := { adapter := true, pcluster := false, lifetime := 0, freed := false } } } (.acquire .connectContext)

/-- `cc->pcluster = cluster`. -/
def assignCluster (c : WithLog AsyncClient) : WithLog AsyncClient :=
  { c with client := { c.client with data_ := { c.client.data_ with pcluster := true } } }

/-- `AsyncHiredisCommand::createCluster`. -/
def AsyncHiredisCommand.createCluster (boot : Bootstrap) : Lib (WithLog AsyncClient) Unit :=
  createClusterWith boot AsyncHiredisCommand.functions newConnectContext assignCluster

/-- Before the call. -/
def uncreated (client : ρ) : World (WithLog ρ) :=
  { cluster := Cluster.initial, contexts := [], replies := 0, freed := [], client := ⟨client, []⟩ }

/-! ### The functions of a user -/

/-- How a connect function of the user ends. -/
inductive UserConnect where
  | null
  | broken (errstr : Bytes)
  | throws (e : Exn)
  | healthy
  deriving DecidableEq, Repr

/-- A connect function; its calls end as the list says, and those after that succeed. -/
def userConnect (host : Bytes) (port : Int32) : Lib (List UserConnect) (Option ConPtr) := do
  let w ← Code.get
  Code.modify fun w => w.setClient w.client.tail
  match w.client.headD .healthy with
  | .null => return none
  | .broken errstr =>
    Code.modify fun w => w.addContext { Context.opened host port with err := true, errstr := errstr }
    return some w.contexts.length
  | .throws e => Code.throws e
  | .healthy =>
    Code.modify fun w => w.addContext (Context.opened host port)
    return some w.contexts.length

def userFree (con : ConPtr) : Lib (List UserConnect) Unit :=
  Code.modify fun w => { w with contexts := w.contexts.modify con fun x => { x with disconnected := true } }

/-- The arguments `conn` and `free` of `createCluster`, each of which may be null. -/
def userFunctions (conn free : Bool) : Functions (List UserConnect) where
  connect := if conn then some userConnect else none
  disconnect := if free then some userFree else none
  userMovedFn := pure ()

/-! ### What is to be shown -/

/-- If the call throws, then everything it acquired has been released exactly once, the replies as well; if it returns,
then this is so for the bootstrap context and the reply, and the cluster is ready. -/
structure AllOrNothing (o : Outcome Exn Unit) (w : World (WithLog ρ)) : Prop where
  defined : o ≠ .undefined
  replies : ∀ a < w.replies, w.freed.count a = 1
  nothing : ∀ e, o = .throws e → Holding.Balanced w.client.log
  all : o = .ret () → Holding.Guarded [] w.client.log ∧ w.client.log.count (.acquire .bootstrap) = 1 ∧
    w.client.log.count (.release .bootstrap) = 1 ∧ w.cluster.readytouse_ = true

/-- Nothing fails: the functions are given, the bootstrap node answers with slots, and `opens n` says that the first `n`
connects to nodes succeed. -/
structure Bootstrap.Completes (boot : Bootstrap) (fn : Functions ρ) (opens : Nat → Prop) : Prop where
  connect : boot.connect = .healthy
  slots : ∃ r, boot.slots = some r ∧ r.IsSlots ∧ opens r.slotEntries.length
  functions : fn.connect.isSome = true ∧ fn.disconnect.isSome = true

/-! ### The connects to nodes -/

/-- The connect function threw, or returned no context or one with an error. -/
def Refused (x : Outcome Exn (Option ConPtr) × World ρ) : Prop :=
  (∃ e, x.1 = .throws e) ∨ x.1 = .ret none ∨ ∃ c ctx, x.1 = .ret (some c) ∧ x.2.contexts[c]? = some ctx ∧ ctx.err = true

/-- `coming` tells of the next calls of `connect_` whether they open a healthy connection; those after that do. -/
structure Dials (fn : Functions ρ) (ready : ρ → Prop) (coming : ρ → List Bool) : Prop where
  opens : ∀ host port (w : World ρ), ready w.client → (coming w.client).headD true = true → ∃ client, ready client ∧
    coming client = (coming w.client).tail ∧ callConnect fn host port w =
      (.ret (some w.contexts.length), (w.addContext (Context.opened host port)).setClient client)
  fails : ∀ host port (w : World ρ), ready w.client → (coming w.client).headD true = false →
    Refused (callConnect fn host port w)

section loop

variable {fn : Functions ρ} {ready : ρ → Prop} {coming : ρ → List Bool}

private theorem insertSlots_refused (slots : SlotRange) {host : Bytes} {port : Int32} {w : World ρ}
    (h : Refused (callConnect fn (cStr host) port w)) :
    ∃ e w', DefaultContainer.insertSlots fn slots host port w = (.throws e, w') := by
  unfold DefaultContainer.insertSlots
  rcases hrun : callConnect fn (cStr host) port w with ⟨o, v⟩
  rw [hrun] at h
  rcases h with ⟨e, ho⟩ | ho | ⟨c, ctx, ho, hctx, herr⟩
  · subst ho
    exact ⟨e, v, Code.bind_of_throws hrun _⟩
  · subst ho
    exact ⟨_, v, (Code.bind_of_ret hrun _).trans rfl⟩
  · subst ho
    refine ⟨.cluster .connectionFailed, v, (Code.bind_of_ret hrun _).trans ?_⟩
    dsimp only
    rw [Code.bind_of_ret (errOf_eq hctx), herr]
    rfl

private theorem Dials.insertSlots (h : Dials fn ready coming) (slots : SlotRange) (host : Bytes) (port : Int32)
    {w : World ρ} (hready : ready w.client) (hnext : (coming w.client).headD true = true) :
    ∃ w', DefaultContainer.insertSlots fn slots host port w = (.ret (), w') ∧ ready w'.client ∧
      coming w'.client = (coming w.client).tail ∧ w'.freed = w.freed ∧ w'.replies = w.replies := by
  obtain ⟨client, hready', hcoming, hrun⟩ := h.opens (cStr host) port w hready hnext
  have herr : ((w.addContext (Context.opened (cStr host) port)).setClient client).contexts[w.contexts.length]? =
      some (Context.opened (cStr host) port) := by
    simp
  refine ⟨((w.addContext (Context.opened (cStr host) port)).setClient client).setNodes
    (w.nodes.insert slots w.contexts.length), ?_, hready', hcoming, rfl, rfl⟩
  unfold DefaultContainer.insertSlots
  rw [Code.bind_of_ret hrun]
  dsimp only
  rw [Code.bind_of_ret (errOf_eq herr)]
  rfl

private theorem not_mem_take_succ (l : List Bool) (n : Nat) :
    false ∉ l.take (n + 1) ↔ l.headD true = true ∧ false ∉ l.tail.take n := by
  cases l with
  | nil => simp
  | cons b l => cases b <;> simp

/-- The loop comes through exactly when all entries are well formed and all connects succeed. -/
private theorem Dials.insertEntries (h : Dials fn ready coming) {a : Nat} (r : RedisReply) (es : List RedisReply)
    (w : World ρ) (ha : a ∉ w.freed) (hready : ready w.client) :
    (((SlotEntry.leading es).length = es.length ∧ false ∉ (coming w.client).take es.length) ∧
        ∃ w', insertEntries fn (.object a r) es w = (.ret (), w') ∧ w'.freed = w.freed ∧ w'.replies = w.replies) ∨
      (¬ ((SlotEntry.leading es).length = es.length ∧ false ∉ (coming w.client).take es.length) ∧
        ∃ e w', insertEntries fn (.object a r) es w = (.throws e, w')) := by
  induction es generalizing w with
  | nil => exact Or.inl ⟨⟨rfl, by simp⟩, w, rfl, rfl, rfl⟩
  | cons e es ih =>
    rw [List.length_cons, not_mem_take_succ]
    cases hp : SlotEntry.parse e with
    | none =>
      have hnone : SlotEntry.leading (e :: es) = [] := by rw [SlotEntry.leading, hp]
      have hstop : HiredisCluster.insertEntries fn (.object a r) (e :: es) w =
          (raise (.object a r) .connectionFailed : Lib ρ Unit) w := by
        rw [HiredisCluster.insertEntries, hp]
      exact Or.inr ⟨by simp [hnone], _, _, hstop.trans (raise_freed ha r _)⟩
    | some x =>
      have hcons : SlotEntry.leading (e :: es) = x :: SlotEntry.leading es := by rw [SlotEntry.leading, hp]
      have hloop : HiredisCluster.insertEntries fn (.object a r) (e :: es) =
          DefaultContainer.insertSlots fn x.range x.host.bytes x.port.toInt32 >>= fun _ =>
            HiredisCluster.insertEntries fn (.object a r) es := by
        rw [HiredisCluster.insertEntries, hp]
      rw [hloop, hcons, List.length_cons, Nat.succ_inj]
      cases hnext : (coming w.client).headD true with
      | false =>
        have hrefused := h.fails (cStr x.host.bytes) x.port.toInt32 w hready hnext
        obtain ⟨e', w', hrun⟩ := insertSlots_refused x.range hrefused
        exact Or.inr ⟨by simp, e', w', Code.bind_of_throws hrun _⟩
      | true =>
        obtain ⟨v, hrun, hready', hcoming, hfreed, hreplies⟩ :=
          h.insertSlots x.range x.host.bytes x.port.toInt32 hready hnext
        have hrest := ih v (by rw [hfreed]; exact ha) hready'
        rw [hcoming] at hrest
        rw [Code.bind_of_ret hrun]
        rcases hrest with ⟨hyes, w', hrun', hfreed', hreplies'⟩ | ⟨hno, hthrows⟩
        · exact Or.inl ⟨⟨hyes.1, rfl, hyes.2⟩, w', hrun', hfreed'.trans hfreed, hreplies'.trans hreplies⟩
        · exact Or.inr ⟨fun hall => hno ⟨hall.1, hall.2.2⟩, hthrows⟩

/-- The constructor with both functions given. -/
private theorem construct_given (hfn : fn.connect.isSome = true ∧ fn.disconnect.isSome = true) (p : ReplyPtr)
    (w : World ρ) :
    Cluster.construct fn p w = Cluster.init fn p (w.updCluster fun _ => Cluster.initial) := by
  refine (Code.bind_of_ret (Code.modify_apply _ w) _).trans ?_
  rw [if_neg (by simp [Option.isSome_iff_ne_none.1 hfn.1, Option.isSome_iff_ne_none.1 hfn.2])]

/-- With a null function the constructor frees the reply and throws. -/
private theorem construct_missing (hfn : ¬ (fn.connect.isSome = true ∧ fn.disconnect.isSome = true)) {a : Nat}
    (r : RedisReply) {w : World ρ} (ha : a ∉ w.freed) :
    ∃ e w', Cluster.construct fn (.object a r) w = (.throws (.cluster e), w') := by
  refine ⟨.invalidArgument, { w.updCluster fun _ => Cluster.initial with freed := a :: w.freed },
    (Code.bind_of_ret (Code.modify_apply _ w) _).trans ?_⟩
  rw [if_pos]
  · exact raise_freed (w := w.updCluster fun _ => Cluster.initial) ha r _
  · rw [not_and_or, Bool.not_eq_true, Bool.not_eq_true, Option.isSome_eq_false_iff, Option.isSome_eq_false_iff] at hfn
    exact hfn

/-- The constructor returns exactly when the reply consists of slots and every node in it can be connected to. -/
private theorem Dials.construct (h : Dials fn ready coming)
    (hfn : fn.connect.isSome = true ∧ fn.disconnect.isSome = true)
    {a : Nat} (r : RedisReply) {w : World ρ} (ha : a ∉ w.freed) (hready : ready w.client) :
    ((r.IsSlots ∧ false ∉ (coming w.client).take r.slotEntries.length) ∧ ∃ w',
        Cluster.construct fn (.object a r) w = (.ret (), w') ∧ w'.freed = w.freed ∧ w'.replies = w.replies ∧
          w'.cluster.readytouse_ = true) ∨
      (¬ (r.IsSlots ∧ false ∉ (coming w.client).take r.slotEntries.length) ∧
        ∃ e w', Cluster.construct fn (.object a r) w = (.throws e, w')) := by
  rw [construct_given hfn]
  let w₀ := w.updCluster fun _ => Cluster.initial
  have ha₀ : a ∉ w₀.freed := ha
  by_cases hr : r.type = .array
  · obtain ⟨es, rfl⟩ : ∃ es, r = .array es := by
      cases r with
      | array es => exact ⟨es, rfl⟩
      | _ => cases hr
    have hlen : (RedisReply.array es).IsSlots → (RedisReply.array es).slotEntries.length = es.length :=
      (RedisReply.isSlots_array_iff es).1
    rw [init_array fn ha₀]
    rcases h.insertEntries (.array es) es w₀ ha₀ hready with
      ⟨⟨hall, hopen⟩, v, hrun, hfreed, hreplies⟩ | ⟨hno, e, v, hrun⟩
    · have hslots := (RedisReply.isSlots_array_iff es).2 hall
      exact Or.inl ⟨⟨hslots, by rw [hlen hslots]; exact hopen⟩, _, Code.bind_of_ret hrun _, hfreed, hreplies, rfl⟩
    · refine Or.inr ⟨fun ⟨hslots, hopen⟩ => hno ⟨hlen hslots, ?_⟩, e, v, Code.bind_of_throws hrun _⟩
      rw [hlen hslots] at hopen
      exact hopen
  · right
    refine ⟨fun hyes => ?_, _, _, init_malformed fn ha₀ hr⟩
    obtain ⟨⟨es, rfl, -⟩, -⟩ := hyes
    exact hr rfl

end loop

/-! ### The record -/

/-- The bootstrap context is held, and nothing has been released. -/
structure WithLog.HoldsAll (c : WithLog ρ) : Prop where
  acquires : ∀ e ∈ c.log, ∃ k, e = .acquire k
  bootstrap : c.log.count (.acquire .bootstrap) = 1

namespace WithLog.HoldsAll

variable {c : WithLog ρ}

private theorem append (h : c.HoldsAll) {ρ' : Type} (client : ρ') {more : List (Holding Resource)}
    (hmore : ∀ e ∈ more, ∃ k, e = .acquire k ∧ k ≠ .bootstrap) : HoldsAll ⟨client, c.log ++ more⟩ := by
  refine ⟨fun e he => ?_, ?_⟩
  · rcases List.mem_append.1 he with he | he
    · exact h.acquires e he
    · obtain ⟨k, rfl, -⟩ := hmore e he
      exact ⟨k, rfl⟩
  · have hnone : more.count (.acquire .bootstrap) = 0 := by
      refine List.count_eq_zero.2 fun hmem => ?_
      obtain ⟨k, hk, hne⟩ := hmore _ hmem
      cases hk
      exact hne rfl
    show (c.log ++ more).count _ = 1
    rw [List.count_append, h.bootstrap, hnone]

private theorem note (h : c.HoldsAll) {k : Resource} (hk : k ≠ .bootstrap) : (c.note (.acquire k)).HoldsAll := by
  refine h.append c.client fun e he => ⟨k, List.mem_singleton.1 he, hk⟩

private theorem not_released (h : c.HoldsAll) (k : Resource) : c.log.count (.release k) = 0 := by
  refine List.count_eq_zero.2 fun hmem => ?_
  obtain ⟨k', hk⟩ := h.acquires _ hmem
  cases hk

theorem not_balanced (h : c.HoldsAll) : ¬ Holding.Balanced c.log := by
  intro hb
  have hsettled := hb.settled .bootstrap
  rw [h.bootstrap, h.not_released] at hsettled
  omega

/-- Releasing the bootstrap context at the end. -/
private theorem guarded_release (h : c.HoldsAll) : Holding.Guarded [] (c.note (.release .bootstrap)).log := by
  intro pre e post k hsplit hneeds
  rcases List.eq_nil_or_concat post with rfl | ⟨post, last, rfl⟩
  · obtain ⟨rfl, hlast⟩ := List.append_inj' hsplit rfl
    obtain rfl : Holding.release .bootstrap = e := (List.cons.inj hlast).1
    rcases hneeds with heq | heq
    · cases heq
    · cases heq
      rw [h.not_released, h.bootstrap]
      omega
  · -- what comes before the release only acquires
    have hmem : e ∈ c.log := by
      rw [List.concat_eq_append, ← List.cons_append, ← List.append_assoc] at hsplit
      obtain ⟨hlog, -⟩ := List.append_inj' hsplit rfl
      rw [hlog]
      exact List.mem_append_right _ (List.mem_cons_self ..)
    obtain ⟨k', rfl⟩ := h.acquires e hmem
    rcases hneeds with heq | heq <;> cases heq

end WithLog.HoldsAll

/-- Constructing the cluster only acquires. -/
private theorem construct_holdsAll (fn : Functions ρ) (p : ReplyPtr) :
    Code.Preserves (fun w => w.client.HoldsAll) (Cluster.construct fn.withLog p) := by
  refine Cluster.construct_preserves fn.withLog (fun w w' _ hclient h => ?_) (fun host port => ?_) p
  · rw [hclient]
    exact h
  · unfold callConnect Functions.withLog
    cases fn.connect with
    | none => exact .undefined _
    | some f =>
      intro w hw
      refine hw.append _ fun e he => ?_
      obtain ⟨con, -, rfl⟩ := List.mem_map.1 he
      exact ⟨_, rfl, by simp⟩

/-! ### The ways in which it can go -/

inductive Creation (boot : Bootstrap) (fn : Functions ρ) (opens : Nat → Prop) :
    Outcome Exn Unit → World (WithLog ρ) → Prop
  | unconnected {w : World (WithLog ρ)} (h : boot.connect = .null) (hlog : w.client.log = [])
      (hreplies : w.replies = 0) :
      Creation boot fn opens (.throws (.cluster .connectionFailed)) w
  | broken {w : World (WithLog ρ)} {errstr : Bytes} (h : boot.connect = .broken errstr) (hheld : w.client.HoldsAll) :
      Creation boot fn opens (.throws (.cluster .connectionFailed)) w
  | unanswered {w : World (WithLog ρ)} (h : boot.connect = .healthy) (hs : boot.slots = none) :
      Creation boot fn opens .undefined w
  | failed {w : World (WithLog ρ)} {e : Exn} {r : RedisReply} (h : boot.connect = .healthy) (hs : boot.slots = some r)
      (hno : ¬ boot.Completes fn opens) (hheld : w.client.HoldsAll) : Creation boot fn opens (.throws e) w
  | created {w : World (WithLog ρ)} {c : WithLog ρ} (h : boot.Completes fn opens) (hheld : c.HoldsAll)
      (hlog : w.client.log = (c.note (.release .bootstrap)).log) (hreplies : w.replies = 1) (hfreed : w.freed = [0])
      (hready : w.cluster.readytouse_ = true) : Creation boot fn opens (.ret ()) w

/-- An error in answer to `CLUSTER SLOTS` is critical and is freed. -/
private theorem checkCritical_init {a : Nat} {w : World ρ} (ha : a ∉ w.freed) (r : RedisReply) :
    (r.IsError ∧ ∃ e w', (checkCritical (.object a r) true true [] none : Lib ρ Unit) w = (.throws e, w') ∧
        w'.client = w.client) ∨
      (¬ r.IsError ∧ (checkCritical (.object a r) true true [] none : Lib ρ Unit) w = (.ret (), w)) := by
  have hread : (readReply (.object a r) : Lib ρ RedisReply) w = (.ret r, w) := derefReply_object ha r
  by_cases hr : r.IsError
  · refine Or.inl ⟨hr, .cluster (.logicError []), { w with freed := a :: w.freed }, ?_, rfl⟩
    refine (Code.bind_of_ret hread _).trans ?_
    rw [if_pos (show r.type = .error from hr)]
    exact raise_freed ha r _
  · refine Or.inr ⟨hr, (Code.bind_of_ret hread _).trans ?_⟩
    rw [if_neg (show ¬ r.type = .error from hr)]
    rfl

/-- With an answered bootstrap node it depends on the reply and the functions. -/
private theorem Bootstrap.completes_iff {boot : Bootstrap} (hboot : boot.connect = .healthy) {r : RedisReply}
    (hslots : boot.slots = some r) {fn : Functions ρ} {opens : Nat → Prop} :
    boot.Completes fn opens ↔
      (r.IsSlots ∧ opens r.slotEntries.length) ∧ fn.connect.isSome = true ∧ fn.disconnect.isSome = true := by
  constructor
  · rintro ⟨-, ⟨r', hr', hall⟩, hfn⟩
    rw [hslots] at hr'
    cases hr'
    exact ⟨hall, hfn⟩
  · rintro ⟨hall, hfn⟩
    exact ⟨hboot, ⟨r, hslots, hall⟩, hfn⟩

section create

variable {fn : Functions ρ} (ready : ρ → Prop) (coming : ρ → List Bool) (allocate assign : WithLog ρ → WithLog ρ)
  (hdials : fn.connect.isSome = true → Dials fn.withLog (fun c => ready c.client) fun c => coming c.client)
  (hallocate : ∀ c, ready (allocate c).client ∧ coming (allocate c).client = coming c.client)
  (hheld : ∀ c, c.HoldsAll → (allocate c).HoldsAll) (hassign : ∀ c, c.HoldsAll → (assign c).HoldsAll)

include hdials hallocate hheld hassign

private theorem createFromReply_cases {boot : Bootstrap} (hboot : boot.connect = .healthy) {r : RedisReply}
    (hslots : boot.slots = some r) {w : World (WithLog ρ)} (hw : w.client.HoldsAll) (hfreed : w.freed = [])
    (hreplies : w.replies = 1) :
    ∃ o w', createFromReply fn allocate assign (.object 0 r) w = (o, w') ∧
      Creation boot fn (fun n => false ∉ (coming w.client.client).take n) o w' := by
  have ha : 0 ∉ w.freed := by
    rw [hfreed]
    exact List.not_mem_nil
  have hcompletes : boot.Completes fn (fun n => false ∉ (coming w.client.client).take n) ↔ _ :=
    Bootstrap.completes_iff hboot hslots
  unfold createFromReply
  rcases checkCritical_init ha r with ⟨herr, e, w', hrun, hclient⟩ | ⟨-, hrun⟩
  · refine ⟨_, w', Code.bind_of_throws hrun _, .failed hboot hslots (fun hyes => ?_) (hclient ▸ hw)⟩
    obtain ⟨⟨⟨es, rfl, -⟩, -⟩, -⟩ := hcompletes.1 hyes
    cases herr
  · rw [Code.bind_of_ret hrun, Code.bind_of_ret (Code.modify_apply _ _)]
    -- the world in which the constructor starts
    let v : World (WithLog ρ) := w.setClient ((allocate w.client).note (.acquire .container))
    have hv : v.client.HoldsAll := (hheld _ hw).note (by simp)
    have hstart : newCluster fn (.object 0 r) (w.setClient (allocate w.client)) =
        Cluster.construct fn.withLog (.object 0 r) v := Code.bind_of_ret (Code.modify_apply _ _) _
    have hkept {o : Outcome Exn Unit} {w' : World (WithLog ρ)}
        (hcons : Cluster.construct fn.withLog (.object 0 r) v = (o, w')) : w'.client.HoldsAll := by
      have hall := construct_holdsAll fn (.object 0 r) v hv
      rw [hcons] at hall
      exact hall
    by_cases hfn : fn.connect.isSome = true ∧ fn.disconnect.isSome = true
    · have hlogged : fn.withLog.connect.isSome = true ∧ fn.withLog.disconnect.isSome = true := by
        simpa [Functions.withLog] using hfn
      have hready : ready v.client.client := (hallocate _).1
      have hcoming : coming v.client.client = coming w.client.client := (hallocate _).2
      rcases (hdials hfn.1).construct hlogged r (w := v) ha hready with
        ⟨hall, w', hcons, hfreed', hreplies', hset⟩ | ⟨hno, e, w', hcons⟩
      · rw [hcoming] at hall
        have hfree : (freeReplyObject (.object 0 r) : Lib (WithLog ρ) Unit) (w'.setClient (assign w'.client)) =
            (.ret (), { w'.setClient (assign w'.client) with freed := [0] }) := by
          have hempty : w'.freed = [] := hfreed'.trans hfreed
          show freeReply _ _ = _
          simp [freeReply, hempty]
        exact ⟨.ret (), _, (Code.bind_of_ret (hstart.trans hcons) _).trans
          ((Code.bind_of_ret (Code.modify_apply _ _) _).trans ((Code.bind_of_ret hfree _).trans rfl)),
          .created (hcompletes.2 ⟨hall, hfn⟩) (hassign _ (hkept hcons)) rfl (hreplies'.trans hreplies) rfl hset⟩
      · rw [hcoming] at hno
        exact ⟨_, w', Code.bind_of_throws (hstart.trans hcons) _,
          .failed hboot hslots (fun hyes => hno (hcompletes.1 hyes).1) (hkept hcons)⟩
    · have hlogged : ¬ (fn.withLog.connect.isSome = true ∧ fn.withLog.disconnect.isSome = true) := by
        simpa [Functions.withLog] using hfn
      obtain ⟨e, w', hcons⟩ := construct_missing hlogged r (w := v) ha
      exact ⟨_, w', Code.bind_of_throws (hstart.trans hcons) _,
        .failed hboot hslots (fun hyes => hfn (hcompletes.1 hyes).2) (hkept hcons)⟩

/-- Every call takes one of these ways. -/
private theorem createClusterWith_cases (boot : Bootstrap) (c : ρ) :
    ∃ o w', createClusterWith boot fn allocate assign (uncreated c) = (o, w') ∧
      Creation boot fn (fun n => false ∉ (coming c).take n) o w' := by
  have hw : (WithLog.note ⟨c, []⟩ (.acquire .bootstrap)).HoldsAll := by
    refine ⟨fun e he => ⟨_, List.mem_singleton.1 he⟩, ?_⟩
    simp [WithLog.note]
  let w : World (WithLog ρ) := (uncreated c).setClient (WithLog.note ⟨c, []⟩ (.acquire .bootstrap))
  cases hboot : boot.connect with
  | null =>
    have hconnect : redisConnectWithTimeout boot (uncreated c) = (.ret none, uncreated c) := by
      rw [redisConnectWithTimeout, hboot]
      rfl
    exact ⟨_, _, (Code.bind_of_ret hconnect _).trans rfl, .unconnected hboot rfl rfl⟩
  | broken errstr =>
    have hconnect : redisConnectWithTimeout boot (uncreated c) = (.ret (some true), w) := by
      rw [redisConnectWithTimeout, hboot]
      rfl
    exact ⟨_, w, (Code.bind_of_ret hconnect _).trans rfl, .broken hboot hw⟩
  | healthy =>
    have hconnect : redisConnectWithTimeout boot (uncreated c) = (.ret (some false), w) := by
      rw [redisConnectWithTimeout, hboot]
      rfl
    cases hslots : boot.slots with
    | none =>
      have hinit : redisCommandInit boot w = (.ret .null, w) := by
        rw [redisCommandInit, hslots]
        rfl
      exact ⟨_, _, (Code.bind_of_ret hconnect _).trans ((Code.bind_of_ret hinit _).trans rfl), .unanswered hboot hslots⟩
    | some r =>
      have hinit : redisCommandInit boot w = (.ret (.object 0 r), { w with replies := 1 }) := by
        rw [redisCommandInit, hslots]
        rfl
      obtain ⟨o, w', hrun, hgoes⟩ := createFromReply_cases ready coming allocate assign hdials hallocate hheld hassign
        hboot hslots (w := { w with replies := 1 }) hw rfl rfl
      exact ⟨o, w', (Code.bind_of_ret hconnect _).trans ((Code.bind_of_ret hinit _).trans hrun), hgoes⟩

end create

private theorem Creation.allOrNothing_iff {boot : Bootstrap} {fn : Functions ρ} {opens : Nat → Prop}
    {o : Outcome Exn Unit} {w : World (WithLog ρ)} (h : Creation boot fn opens o w) :
    AllOrNothing o w ↔ boot.connect = .null ∨ boot.Completes fn opens := by
  cases h with
  | unconnected h hlog hreplies =>
    refine iff_of_true ⟨by simp, by simp [hreplies], fun e _ => ?_, by simp⟩ (Or.inl h)
    rw [hlog]
    decide
  | broken h hheld =>
    refine iff_of_false (fun hall => hheld.not_balanced (hall.nothing _ rfl)) ?_
    rintro (hnull | ⟨hhealthy, -, -⟩) <;> simp_all
  | unanswered h hs =>
    refine iff_of_false (fun hall => hall.defined rfl) ?_
    rintro (hnull | ⟨-, ⟨r, hr, -⟩, -⟩) <;> simp_all
  | failed h hs hno hheld =>
    refine iff_of_false (fun hall => hheld.not_balanced (hall.nothing _ rfl)) ?_
    rintro (hnull | hyes)
    · rw [h] at hnull
      cases hnull
    · exact hno hyes
  | @created w c h hheld hlog hreplies hfreed hready =>
    refine iff_of_true ⟨by simp, ?_, by simp, fun _ => ?_⟩ (Or.inr h)
    · rw [hreplies, hfreed]
      decide
    · have hcount (e : Holding Resource) : (c.note (.release .bootstrap)).log.count e =
          c.log.count e + [Holding.release Resource.bootstrap].count e := List.count_append ..
      rw [hlog]
      refine ⟨hheld.guarded_release, ?_, ?_, hready⟩
      · rw [hcount, hheld.bootstrap]
        decide
      · rw [hcount, hheld.not_released]
        decide

/-! ### The two clients -/

section clients

variable {fn : Functions ρ} {ready : ρ → Prop} {coming : ρ → List Bool}

private theorem callConnect_withLog (fn : Functions ρ) (host : Bytes) (port : Int32) (w : World (WithLog ρ)) :
    callConnect fn.withLog host port w = recording (callConnect fn host port) w := by
  unfold callConnect Functions.withLog
  cases fn.connect with
  | none => simp [recording, World.setClient]
  | some f => rfl

private theorem Dials.withLog (h : Dials fn ready coming) :
    Dials fn.withLog (fun c => ready c.client) fun c => coming c.client := by
  refine ⟨fun host port w hready hnext => ?_, fun host port w hready hnext => ?_⟩
  · obtain ⟨client, hready', hcoming, hrun⟩ := h.opens host port (w.setClient w.client.client) hready hnext
    let opened := List.range' w.contexts.length ((w.contexts ++ [Context.opened host port]).length - w.contexts.length)
    refine ⟨⟨client, w.client.log ++ opened.map fun con => .acquire (.connection con)⟩, hready', hcoming, ?_⟩
    rw [callConnect_withLog, recording, hrun]
    rfl
  · rw [callConnect_withLog]
    exact h.fails host port (w.setClient w.client.client) hready hnext

private theorem user_dials (free : Bool) :
    Dials (userFunctions true free) (fun _ => True) fun l => l.map (decide <| · = .healthy) := by
  refine ⟨fun host port w _ hnext => ⟨w.client.tail, trivial, List.map_tail, ?_⟩, fun host port w _ hnext => ?_⟩
  · show userConnect host port w = _
    refine (Code.bind_of_ret (Code.get_apply w) _).trans ((Code.bind_of_ret (Code.modify_apply _ w) _).trans ?_)
    have hhealthy : w.client.headD .healthy = .healthy := by
      generalize w.client = l at hnext ⊢
      cases l <;> simp_all
    rw [hhealthy]
    rfl
  · show Refused (userConnect host port w)
    rw [show userConnect host port w = _ from
      (Code.bind_of_ret (Code.get_apply w) _).trans (Code.bind_of_ret (Code.modify_apply _ w) _)]
    generalize hl : w.client = l at hnext ⊢
    cases l with
    | nil => simp at hnext
    | cons o l =>
      cases o with
      | null => exact Or.inr (Or.inl rfl)
      | broken errstr =>
        let ctx := { Context.opened host port with err := true, errstr := errstr }
        have hctx : (w.contexts ++ [ctx])[w.contexts.length]? = some ctx := by simp
        exact Or.inr (Or.inr ⟨_, ctx, rfl, hctx, rfl⟩)
      | throws e => exact Or.inl ⟨e, rfl⟩
      | healthy => simp at hnext

open AsyncHiredisCommand in
private theorem async_dials : Dials AsyncHiredisCommand.functions
    (fun c => c.data_.freed = false ∧ c.data_.adapter = true)
    fun c => c.choices.connects.map (decide <| · = .healthy) := by
  have hstart (host : Bytes) (port : Int32) {w : AsyncWorld}
      (hready : w.client.data_.freed = false ∧ w.client.data_.adapter = true) :
      callConnect AsyncHiredisCommand.functions host port w = _ := Code.bind_of_ret (Code.get_apply w) _
  refine ⟨fun host port w hready hnext => ?_, fun host port w hready hnext => ?_⟩
  · have hhealthy : w.client.choices.connects.headD .healthy = .healthy := by
      generalize w.client.choices.connects = l at hnext ⊢
      cases l <;> simp_all
    refine ⟨{ w.client with
      choices := { w.client.choices with connects := w.client.choices.connects.tail }
      data_ := { w.client.data_ with lifetime := w.client.data_.lifetime + 1 } }, hready, List.map_tail, ?_⟩
    rw [hstart host port hready, if_neg (by simp [hready.1]), if_neg (by simp [hready.2]),
      Code.bind_of_ret (Code.modify_apply _ w), hhealthy]
    rfl
  · rw [hstart host port hready, if_neg (by simp [hready.1]), if_neg (by simp [hready.2]),
      Code.bind_of_ret (Code.modify_apply _ w)]
    left
    cases hc : w.client.choices.connects with
    | nil => simp [hc] at hnext
    | cons o l =>
      cases o with
      | healthy => simp [hc] at hnext
      | _ => exact ⟨_, rfl⟩

/-- The connects that matter succeed. -/
private theorem not_mem_take_map {κ : Type} [DecidableEq κ] (l : List κ) (k : κ) (n : Nat) :
    false ∉ (l.map (decide <| · = k)).take n ↔ ∀ o ∈ l.take n, o = k := by
  simp [← List.map_take]

end clients

/-- The synchronous client. -/
theorem HiredisCommand.createCluster_cases (boot : Bootstrap) (conn free : Bool) (connects : List UserConnect) :
    ∃ o w', HiredisCommand.createCluster boot (userFunctions conn free) (uncreated connects) = (o, w') ∧
      Creation boot (userFunctions conn free) (fun n => ∀ c ∈ connects.take n, c = .healthy) o w' := by
  have hdials (hconn : (userFunctions conn free).connect.isSome = true) :
      Dials (userFunctions conn free).withLog (fun _ => True) fun c => c.client.map (decide <| · = .healthy) := by
    cases conn with
    | true => exact (user_dials free).withLog
    | false => cases hconn
  obtain ⟨o, w', hrun, hgoes⟩ := createClusterWith_cases (fun _ => True) _ id id hdials (fun _ => ⟨trivial, rfl⟩)
    (fun c h => h) (fun c h => h) boot connects
  simp only [not_mem_take_map] at hgoes
  exact ⟨o, w', hrun, hgoes⟩

/-- The asynchronous client. -/
private theorem AsyncHiredisCommand.createCluster_cases (boot : Bootstrap) (c : AsyncClient) :
    ∃ o w', AsyncHiredisCommand.createCluster boot (uncreated c) = (o, w') ∧
      Creation boot AsyncHiredisCommand.functions (fun n => ∀ o ∈ c.choices.connects.take n, o = .healthy) o w' := by
  have hallocate (c : WithLog AsyncClient) (h : c.HoldsAll) : (newConnectContext c).HoldsAll := by
    refine WithLog.HoldsAll.note ?_ (by simp)
    exact ⟨h.acquires, h.bootstrap⟩
  have hassign (c : WithLog AsyncClient) (h : c.HoldsAll) : (assignCluster c).HoldsAll := ⟨h.acquires, h.bootstrap⟩
  obtain ⟨o, w', hrun, hgoes⟩ := createClusterWith_cases (fun c => c.data_.freed = false ∧ c.data_.adapter = true)
    (fun c => c.choices.connects.map (decide <| · = .healthy)) newConnectContext assignCluster
    (fun _ => async_dials.withLog) (fun c => ⟨⟨rfl, rfl⟩, rfl⟩) hallocate hassign boot c
  simp only [not_mem_take_map] at hgoes
  exact ⟨o, w', hrun, hgoes⟩

/-- Creating a cluster is all or nothing exactly when the bootstrap connect yields no context or nothing fails: an
exception that comes later releases neither the bootstrap context nor anything else but perhaps the reply. -/
theorem createCluster_allOrNothing_iff (boot : Bootstrap) (conn free : Bool) (connects : List UserConnect) (c : AsyncClient) :
    (AllOrNothing (HiredisCommand.createCluster boot (userFunctions conn free) (uncreated connects)).1
        (HiredisCommand.createCluster boot (userFunctions conn free) (uncreated connects)).2 ↔
      boot.connect = .null ∨
        boot.Completes (userFunctions conn free) fun n => ∀ o ∈ connects.take n, o = .healthy) ∧
    (AllOrNothing (AsyncHiredisCommand.createCluster boot (uncreated c)).1
        (AsyncHiredisCommand.createCluster boot (uncreated c)).2 ↔
      boot.connect = .null ∨
        boot.Completes AsyncHiredisCommand.functions fun n => ∀ o ∈ c.choices.connects.take n, o = .healthy) := by
  obtain ⟨o, w', hrun, hgoes⟩ := HiredisCommand.createCluster_cases boot conn free connects
  obtain ⟨o', v', hrun', hgoes'⟩ := AsyncHiredisCommand.createCluster_cases boot c
  rw [hrun, hrun']
  exact ⟨hgoes.allOrNothing_iff, hgoes'.allOrNothing_iff⟩

/-- The bootstrap node answers with two nodes; the second will refuse. -/
def secondRefuses : Bootstrap where
  connect := .healthy
  slots := some (.array
    [.array [.integer 0, .integer 8191, .array [.string (.ofText "10.0.0.1"), .integer 7000]],
      .array [.integer 8192, .integer 16383, .array [.string (.ofText "10.0.0.2"), .integer 7000]]])

/-- The second node cannot be connected to: the bootstrap context, the reply, the container and the connection to the
first node stay behind. -/
theorem not_allOrNothing :
    ¬ AllOrNothing
      (HiredisCommand.createCluster secondRefuses (userFunctions true true) (uncreated [.healthy, .null])).1
      (HiredisCommand.createCluster secondRefuses (userFunctions true true) (uncreated [.healthy, .null])).2 := by
  intro h
  have hthrown :
      (HiredisCommand.createCluster secondRefuses (userFunctions true true) (uncreated [.healthy, .null])).1 =
        .throws (.cluster .connectionFailed) := by decide +kernel
  exact absurd (h.nothing _ hthrown) (by decide +kernel)

end HiredisCluster
