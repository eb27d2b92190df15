import HiredisCluster.Cluster
import HiredisCluster.Cxx.Program

/-!
# The synchronous client (`hirediscommand.h`)

`HiredisCommand` is a template over the cluster type and works through calls to it and to hiredis, so `process` is a
program over these calls.  `handler` says what they do: the cluster's members are a parameter (`ClusterOps`), the n-th
message gets the n-th answer of the servers, and an exchange that fails leaves an error on its connection.
-/

namespace HiredisCluster

open Cxx

/-- What the synchronous client calls. -/
inductive SyncCall where
  | getConnection (key : Bytes)
  | createNewConnection (host port : Bytes)
  | releaseSlotConnection (conn : SlotConnection)
  | releaseHostConnection (conn : HostConnection)
  | moved
  | redisAppendFormattedCommand (con : ConPtr) (cmd : Option Bytes)
  | redisGetReply (con : ConPtr)
  | redisCommand (con : ConPtr) (format : Bytes)
  | err (con : ConPtr)
  | errstr (con : ConPtr)
  | readReply (reply : ReplyPtr)
  | freeReplyObject (reply : ReplyPtr)

/-- A reply is returned with its address; without one `redisGetReply` leaves its output alone and `redisCommand` returns
a null pointer. -/
@[reducible] def SyncCall.Result : SyncCall → Type
  | getConnection _ => SlotConnection
  | createNewConnection _ _ => HostConnection
  | redisAppendFormattedCommand _ _ => Status
  | redisGetReply _ | redisCommand _ _ => Option (Nat × RedisReply)
  | err _ => Bool
  | errstr _ => Bytes
  | readReply _ => RedisReply
  | _ => Unit

abbrev syncInterface : Interface := ⟨SyncCall, SyncCall.Result⟩

abbrev Sync (α : Type) := Program syncInterface Exn α

/-- A call of the synchronous client. -/
def sync (c : SyncCall) : Sync c.Result := Program.perform (I := syncInterface) c

instance : HiredisCalls (Program syncInterface Exn) where
  outcome
    | .ret a => .ret a
    | .throws e => .throws e
    | .undefined => .undefined
  readReply p := sync (.readReply p)
  freeReplyObject p := sync (.freeReplyObject p)
  err c := sync (.err c)

/-- A command object; `cmd_` is null when formatting failed, and `len_` is `-1` then. -/
structure HiredisCommand where
  key_ : Bytes
  cmd_ : Option Bytes
  deriving DecidableEq, Repr

namespace HiredisCommand

/-- `processHiredisCommand`; its variable `reply` is not initialised. -/
def processHiredisCommand (this : HiredisCommand) (con : ConPtr) : Sync ReplyPtr := do
  let _ ← sync (.redisAppendFormattedCommand con this.cmd_)
  match ← sync (.redisGetReply con) with
  | some (a, r) => return .object a r
  | none => return .unset

/-- `asking`. -/
def asking (con : ConPtr) : Sync ReplyPtr := do
  match ← sync (.redisCommand con (text "ASKING")) with
  | some (a, r) => return .object a r
  | none => return .null

/-- The case `ASK` of `process`.  The text `"asking error"` stands where `checkCritical` takes `free_reply_obj`, so it
is converted to `true` and the exception has no text. -/
def processAsk (this : HiredisCommand) (reply : ReplyPtr) (host port : Bytes) : Sync ReplyPtr := do
  freeReplyObject reply
  let hcon ← sync (.createNewConnection host port)
  match hcon.2 with
  | some c =>
    if ← sync (.err c) then
      -- the text is read after the release
      sync (.releaseHostConnection hcon)
      let errstr ← sync (.errstr c)
      raise .null (.logicError errstr)
    else
      let reply ← asking c
      checkCritical reply true true [] none
      freeReplyObject reply
      let reply ← this.processHiredisCommand c
      checkCritical reply false true [] none
      sync (.releaseHostConnection hcon)
      return reply
  | none => raise .null (.logicError (text "Can't connect while resolving asking state"))

/-- The case `MOVED` of `process`. -/
def processMoved (this : HiredisCommand) (reply : ReplyPtr) (host port : Bytes) : Sync ReplyPtr := do
  freeReplyObject reply
  let hcon ← sync (.createNewConnection host port)
  match hcon.2 with
  | some c =>
    if ← sync (.err c) then
      let errstr ← sync (.errstr c)
      raise .null (.logicError errstr)
    else
      -- no check of this reply
      let reply ← this.processHiredisCommand c
      sync .moved
      sync (.releaseHostConnection hcon)
      return reply
  | none => raise .null (.logicError (text "Can't connect while resolving asking state"))

/-- `process`. -/
def process (this : HiredisCommand) : Sync ReplyPtr := do
  let con ← sync (.getConnection this.key_)
  let reply ← this.processHiredisCommand con.2
  checkCritical reply false true [] (some con.2)
  sync (.releaseSlotConnection con)
  let r ← readReply reply
  let (state, host, port) ← outcome (processResult r)
  match state with
  | .ask => this.processAsk reply host port
  | .moved => this.processMoved reply host port
  | .ready => return reply
  | _ => raise reply (.logicError (text "error in state processing"))

/-- The arguments of an overload of `Command` or `AltCommand`: whether the cluster pointer is null, the key, and the
formatted command, `none` when formatting it fails. -/
structure Arguments where
  clusterNull : Bool
  key : Bytes
  cmd : Option Bytes
  deriving DecidableEq, Repr

/-- The constructors, which do not look at the result of formatting. -/
def new (args : Arguments) : Sync HiredisCommand :=
  if args.clusterNull then .throws (.cluster .invalidArgument) else return { key_ := args.key, cmd_ := args.cmd }

/-- `Command`. -/
def command (args : Arguments) : Sync ReplyPtr := do
  let this ← new args
  this.process

/-- `AltCommand`; its caller gets the same reply in a `shared_ptr` that frees it. -/
def altCommand (args : Arguments) : Sync ReplyPtr := command args

/-! ### The functions a cluster is created with -/

/-- How `redisConnect` ends: no context, a context with `err` set, success. -/
inductive ConnectResult where
  | null
  | broken (errstr : Bytes)
  | healthy
  deriving DecidableEq, Repr

/-- What the environment decides: how the connects end, in order, and what the moved callback throws. -/
structure Environment where
  connects : List ConnectResult
  movedCb : Option Exn
  deriving DecidableEq, Repr

/-- `connectFunction`. -/
def connectFunction (host : Bytes) (port : Int32) : Lib Environment (Option ConPtr) := do
  let w ← Code.get
  Code.modify fun w => w.setClient { w.client with connects := w.client.connects.tail }
  match w.client.connects.headD .healthy with
  | .null => return none
  | .broken errstr =>
    Code.modify fun w => w.addContext { Context.opened host port with err := true, errstr := errstr }
    return some w.contexts.length
  | .healthy =>
    Code.modify fun w => w.addContext (Context.opened host port)
    return some w.contexts.length

/-- `freeFunction`. -/
def freeFunction (con : ConPtr) : Lib Environment Unit := do
  let w ← Code.get
  match w.contexts[con]? with
  | some ctx =>
    if ctx.disconnected then
      Code.undefined
    else
      Code.modify fun w => { w with contexts := w.contexts.modify con fun x => { x with disconnected := true } }
  | none => Code.undefined

/-- The default arguments of `createCluster`; the moved callback is the user's. -/
def functions : Functions Environment :=
  { connect := some connectFunction
    disconnect := some freeFunction
    userMovedFn := fun w =>
      match w.client.movedCb with
      | none => (.ret (), w)
      | some e => (.throws e, w) }

/-- A cluster of one node. -/
def oneNode : World Environment :=
  { cluster :=
      { connections_ := { connections_ := .empty, nodes_ := OrderedMap.empty.insert (0, 16383) 0 }
        userMovedFn_ := false, readytouse_ := true, moved_ := false }
    contexts := [Context.opened (text "10.0.0.1") 7000]
    replies := 1
    freed := [0]
    client := { connects := [], movedCb := none } }

/-- A command without a key in braces. -/
def getFoo : HiredisCommand := { key_ := text "foo", cmd_ := some (text "GET foo") }

end HiredisCommand

/-! ### What the calls do -/

/-- The members of the template parameter `Cluster` that the client uses, on a state `σ`.  `errstr` is the error a
connection has had since it was opened. -/
structure ClusterOps (σ : Type) where
  getConnection : Bytes → Code σ Exn SlotConnection
  createNewConnection : Bytes → Bytes → Code σ Exn HostConnection
  releaseSlotConnection : SlotConnection → σ → σ
  releaseHostConnection : HostConnection → σ → σ
  moved : Code σ Exn Unit
  errstr : ConPtr → σ → Option Bytes

/-- The cluster, the number of messages that were sent, the connections on which an exchange failed, and the replies
that were freed. -/
structure SyncWorld (σ : Type) where
  cluster : σ
  sent : Nat
  failed : List ConPtr
  freed : List Nat

namespace SyncWorld

variable {σ : Type}

/-- A call begins. -/
def start (s : σ) : SyncWorld σ := { cluster := s, sent := 0, failed := [], freed := [] }

/-- The error of a connection, if it has one. -/
def errOf (ops : ClusterOps σ) (w : SyncWorld σ) (con : ConPtr) : Option Bytes :=
  match ops.errstr con w.cluster with
  | some errstr => some errstr
  | none => if con ∈ w.failed then some (text "Server closed the connection") else none

end SyncWorld

section handler

variable {σ : Type}

/-- A member function of the cluster. -/
def onCluster {α : Type} (m : Code σ Exn α) : Code (SyncWorld σ) Exn α := fun w =>
  ((m w.cluster).1, { w with cluster := (m w.cluster).2 })

variable (ops : ClusterOps σ) (replies : Nat → Option RedisReply)

/-- Sending a message and waiting for its answer. -/
def exchange (con : ConPtr) : Code (SyncWorld σ) Exn (Option (Nat × RedisReply)) := fun w =>
  match w.errOf ops con with
  | some _ => (.ret none, w)
  | none =>
    match replies w.sent with
    | some r => (.ret (some (w.sent, r)), { w with sent := w.sent + 1 })
    | none => (.ret none, { w with sent := w.sent + 1, failed := con :: w.failed })

/-- The calls of the synchronous client.  Appending the `(size_t)-1` bytes of a command that was not formatted is
undefined. -/
def handler : Program.Handler syncInterface (SyncWorld σ) Exn
  | .getConnection key => onCluster (ops.getConnection key)
  | .createNewConnection host port => onCluster (ops.createNewConnection host port)
  | .releaseSlotConnection conn => Code.modify fun w => { w with cluster := ops.releaseSlotConnection conn w.cluster }
  | .releaseHostConnection conn => Code.modify fun w => { w with cluster := ops.releaseHostConnection conn w.cluster }
  | .moved => onCluster ops.moved
  | .redisAppendFormattedCommand _ cmd => match cmd with
    | some _ => pure .ok
    | none => Code.undefined
  | .redisGetReply con => exchange ops replies con
  | .redisCommand con _ => exchange ops replies con
  | .err con => fun w => (.ret (w.errOf ops con).isSome, w)
  | .errstr con => fun w => (.ret ((w.errOf ops con).getD []), w)
  | .readReply p => fun w => match p with
    | .object a r => if a ∈ w.freed then (.undefined, w) else (.ret r, w)
    | _ => (.undefined, w)
  | .freeReplyObject p => fun w => match p with
    | .null => (.ret (), w)
    | .unset => (.undefined, w)
    | .object a _ => if a ∈ w.freed then (.undefined, w) else (.ret (), { w with freed := a :: w.freed })

end handler

/-- The members of `Cluster` with `DefaultContainer`. -/
def Cluster.ops {ρ : Type} (fn : Functions ρ) : ClusterOps (World ρ) where
  getConnection := Cluster.getConnection
  createNewConnection := Cluster.createNewConnection fn
  releaseSlotConnection conn w := (Cluster.releaseConnection conn w).2
  releaseHostConnection conn w := (Cluster.releaseConnection conn w).2
  moved := Cluster.moved fn
  errstr con w := (w.contexts[con]?).bind fun x => if x.err then some x.errstr else none

end HiredisCluster
