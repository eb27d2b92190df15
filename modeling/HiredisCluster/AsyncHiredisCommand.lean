import HiredisCluster.Cluster

/-!
# The asynchronous client (`asynchirediscommand.h`)

A command object lives on the heap from `Command` until one of its callbacks deletes it; hiredis keeps the requests it
accepted and fires their callbacks with the replies, oldest first on each connection.  The environment decides whether a
send is accepted, how a connect ends and what the user's error handler answers (`Choices`).  `trace` is a ghost record of
what happened; nothing in the code reads it.
-/

namespace HiredisCluster

open Cxx

/-- A pointer to a command object: its number in order of allocation. -/
abbrev ObjPtr := Nat

/-- `AsyncHiredisCommand::Action`. -/
inductive Action where
  | redirect | finish | ask | retry
  deriving DecidableEq, Repr

/-- The two callbacks a command registers with hiredis. -/
inductive Callback where
  | processCommandReply | runRedisCallback
  deriving DecidableEq, Repr

/-- A message as it is handed to hiredis: a format string or the bytes of a formatted command. -/
inductive Message where
  | format (fmt : Bytes)
  | formatted (cmd : Bytes)
  deriving DecidableEq, Repr

/-- A message with the callback registered for its reply and that callback's data. -/
structure Request where
  con : ConPtr
  callback : Callback
  data : ObjPtr
  message : Message
  deriving DecidableEq, Repr

/-- A command object.  `redisCallback_` and `userErrorCb_` tell whether these callbacks are set, `alive` whether the
object has not been deleted. -/
structure AsyncHiredisCommand where
  redisCallback_ : Bool
  userErrorCb_ : Bool
  con_ : HostConnection
  key_ : Bytes
  cmd_ : Bytes
  alive : Bool
  deriving DecidableEq, Repr

/-- `ConnectContext`, the data of the connect function; `pcluster` tells whether the cluster is assigned. -/
structure ConnectContext where
  adapter : Bool
  pcluster : Bool
  lifetime : Int
  freed : Bool
  deriving DecidableEq, Repr

/-- How opening a connection ends: no context, a context with `err` set, a context the adapter refuses, success. -/
inductive ConnectOutcome where
  | null
  | broken (errstr : Bytes)
  | attachFails
  | healthy
  deriving DecidableEq, Repr

/-- What the environment decides during one call into the library: the outcomes of the sends and connects, in order, the
answers of the error handler, the `REDIS_SUBSCRIBED` flag, and what the moved callback throws. -/
structure Choices where
  sends : List Status
  connects : List ConnectOutcome
  actions : List Action
  subscribed : Bool
  movedCb : Option Exn
  deriving DecidableEq, Repr

/-- What is recorded.  A message carries the request and the reply in whose callback it was sent, and a reply given to
the user the request whose callback passed it on; `returned` tells that `Command` returned the object, and `moved` that
`Cluster::moved` was executed. -/
inductive Event where
  | returned (data : ObjPtr)
  | sent (req : Request) (cause : Option (Request × ReplyPtr))
  | refused (req : Request) (cause : Option (Request × ReplyPtr))
  | userErrorCb (data : ObjPtr) (e : ClusterException) (state : ProcessState)
  | redisCallback (data : ObjPtr) (reply : RedisReply) (answered : Option (Request × ReplyPtr))
  | deleted (data : ObjPtr)
  | moved (threw : Bool)

/-- The part of the state that belongs to the asynchronous client and its event loop. -/
structure AsyncClient where
  data_ : ConnectContext
  objects : List AsyncHiredisCommand
  pending : List Request
  firing : Option (Request × ReplyPtr)
  choices : Choices
  trace : List Event

abbrev AsyncWorld := World AsyncClient

abbrev Async (α : Type) := Lib AsyncClient α

/-! ### hiredis and the heap -/

namespace World

variable (w : AsyncWorld)

def updClient (f : AsyncClient → AsyncClient) : AsyncWorld := w.setClient (f w.client)

def record (e : Event) : AsyncWorld := w.updClient fun c => { c with trace := c.trace ++ [e] }

/-- The outcome of the next send is used up. -/
def dropSend : AsyncWorld := w.updClient fun c => { c with choices := { c.choices with sends := c.choices.sends.tail } }

/-- hiredis accepts a request. -/
def accept (req : Request) : AsyncWorld :=
  (w.dropSend.updClient fun c => { c with pending := c.pending ++ [req] }).record (.sent req w.client.firing)

/-- hiredis refuses a request. -/
def refuse (req : Request) : AsyncWorld := w.dropSend.record (.refused req w.client.firing)

def updObject (that : ObjPtr) (f : AsyncHiredisCommand → AsyncHiredisCommand) : AsyncWorld :=
  w.updClient fun c => { c with objects := c.objects.modify that f }

/-- A context with its disconnect flag set. -/
def markDisconnecting (con : ConPtr) : AsyncWorld :=
  { w with contexts := w.contexts.modify con fun x => { x with disconnecting := true } }

end World

/-- Reading the object a callback's data points at; touching it after its deletion is undefined. -/
def object (that : ObjPtr) : Async AsyncHiredisCommand := fun w =>
  match w.client.objects[that]? with
  | some o => if o.alive then (.ret o, w) else (.undefined, w)
  | none => (.undefined, w)

/-- A context that is still there; hiredis frees it after its disconnect callback. -/
def context (con : ConPtr) : Async Context := fun w =>
  match w.contexts[con]? with
  | some ctx => if ctx.disconnected then (.undefined, w) else (.ret ctx, w)
  | none => (.undefined, w)

/-- `redisAsyncCommand` and `redisAsyncFormattedCommand`: a connection on which a disconnect was issued refuses, any
other accepts or refuses as the environment decides. -/
def redisAsyncSend (con : Option ConPtr) (callback : Callback) (data : ObjPtr) (message : Message) : Async Status := do
  match con with
  -- hiredis reads the flags of the context without a test
  | none => Code.undefined
  | some c =>
    let ctx ← context c
    let w ← Code.get
    if ctx.disconnecting = true ∨ w.client.choices.sends.headD .ok = .err then
      Code.modify fun w => w.refuse ⟨c, callback, data, message⟩
      return .err
    else
      Code.modify fun w => w.accept ⟨c, callback, data, message⟩
      return .ok

/-- `redisAsyncDisconnect`. -/
def redisAsyncDisconnect (con : ConPtr) : Async Unit := do
  let _ ← context con
  Code.modify fun w => w.markDisconnecting con

/-- `con->c.flags & REDIS_SUBSCRIBED`. -/
def subscribed : Async Bool := fun w => (.ret w.client.choices.subscribed, w)

namespace AsyncHiredisCommand

/-- `AsyncHiredisCommand::connect`, the function `connect_` of an asynchronous cluster. -/
def connect (host : Bytes) (port : Int32) : Async (Option ConPtr) := do
  let w ← Code.get
  if w.client.data_.freed then
    Code.undefined
  else if ¬ w.client.data_.adapter then
    Code.throws (.cluster .connectionFailed)
  else
    Code.modify fun w => w.updClient fun c =>
      { c with choices := { c.choices with connects := c.choices.connects.tail } }
    match w.client.choices.connects.headD .healthy with
    | .null => Code.throws (.cluster .connectionFailed)
    | .broken errstr =>
      -- the context is not freed
      Code.modify fun w => w.addContext { Context.opened host port with err := true, errstr := errstr }
      Code.throws (.cluster .connectionFailed)
    | .attachFails =>
      -- nor is this one
      Code.modify fun w => w.addContext (Context.opened host port)
      Code.throws (.cluster .connectionFailed)
    | .healthy =>
      Code.modify fun w => (w.addContext (Context.opened host port)).updClient fun c =>
        { c with data_ := { c.data_ with lifetime := c.data_.lifetime + 1 } }
      return some w.contexts.length

/-- The functions an asynchronous cluster is created with; the moved callback is the user's. -/
def functions : Functions AsyncClient :=
  { connect := some connect
    disconnect := some redisAsyncDisconnect
    userMovedFn := fun w =>
      match w.client.choices.movedCb with
      | none => (.ret (), w)
      | some e => (.throws e, w) }

/-- `cluster_p_->moved()`. -/
def clusterMoved : Async Unit := fun w =>
  match Cluster.moved functions w with
  | (.ret (), w) => (.ret (), w.record (.moved false))
  | (o, w) => (o, w.record (.moved true))

/-- `processHiredisCommand`. -/
def processHiredisCommand (that : ObjPtr) (con : Option ConPtr) : Async Status := do
  let obj ← object that
  redisAsyncSend con .processCommandReply that (.formatted obj.cmd_)

/-- Calling `userErrorCb_`, which is undefined when it is null. -/
def callUserErrorCb (that : ObjPtr) (e : ClusterException) (state : ProcessState) : Async Action := do
  let obj ← object that
  if obj.userErrorCb_ then
    let w ← Code.get
    Code.modify fun w => (w.updClient fun c =>
      { c with choices := { c.choices with actions := c.choices.actions.tail } }).record (.userErrorCb that e state)
    return w.client.choices.actions.headD .finish
  else
    Code.undefined

/-- `userErrorCb_ != NULL && userErrorCb_(…) == RETRY`. -/
def wantsRetry (that : ObjPtr) (e : ClusterException) (state : ProcessState) : Async Bool := do
  let obj ← object that
  if obj.userErrorCb_ then
    return (← callUserErrorCb that e state) = .retry
  else
    return false

/-- `that->runRedisCallback(*reply)`, the private overload. -/
def passToUser (that : ObjPtr) (r : ReplyPtr) : Async Unit := do
  let reply ← readReply r
  let obj ← object that
  if obj.redisCallback_ then
    Code.modify fun w => w.record (.redisCallback that reply w.client.firing)

/-- `delete that`, with the destructor. -/
def delete (that : ObjPtr) : Async Unit := do
  let obj ← object that
  -- the connection may be cached and in use by other commands
  match obj.con_.2 with
  | some con => redisAsyncDisconnect con
  | none => pure ()
  Code.modify fun w => (w.updObject that fun o => { o with alive := false }).record (.deleted that)

/-- `retry`; its `assert(r)` is covered by the dereference of `r` that follows. -/
def retry (con : ConPtr) (r : ReplyPtr) (that : ObjPtr) : Async Unit := do
  if (← processHiredisCommand that (some con)) ≠ .ok then
    -- called without a test for null: only a handler that is set has answered `RETRY`
    let _ ← callUserErrorCb that .disconnected .failed
    passToUser that r
    delete that

/-- The end of both callbacks. -/
def complete (con : ConPtr) (r : ReplyPtr) (that : ObjPtr) (commandState : Action) : Async Unit := do
  if commandState = .retry then
    retry con r that
  else if commandState = .finish then
    passToUser that r
    if ¬ (← subscribed) then
      delete that

/-- The `try` block of `runRedisCallback`. -/
def askingAnswered (r : ReplyPtr) (that : ObjPtr) : Async Unit := do
  checkCritical r false false [] none
  let reply ← readReply r
  let isOk ← match reply with
    | .status str => pure (decide (cStr str.bytes = text "OK"))
    | _ => pure false
  if isOk then
    let obj ← object that
    if (← processHiredisCommand that obj.con_.2) ≠ .ok then
      Code.throws (.cluster .askingFailed)
  else
    Code.throws (.cluster .askingFailed)

/-- The callback `runRedisCallback`, which gets the reply to `ASKING`. -/
def runRedisCallback (con : ConPtr) (r : ReplyPtr) (that : ObjPtr) : Async Unit := do
  match ← Code.attempt Exn.clusterException (askingAnswered r that) with
  | .ok () => complete con r that .ask
  | .error ce =>
    if ← wantsRetry that ce .ask then
      complete con r that .retry
    else
      complete con r that .finish

/-- `if (that->con_.second == NULL) that->con_ = createNewConnection(host, port);`. -/
def ensureConnection (that : ObjPtr) (host port : Bytes) : Async Unit := do
  let obj ← object that
  -- a connection from an earlier redirection stays, whatever address this one names
  if obj.con_.2 = none then
    let con ← Cluster.createNewConnection functions host port
    Code.modify fun w => w.updObject that fun o => { o with con_ := con }

/-- The `switch` of `processCommandReply`. -/
def followState (that : ObjPtr) (state : ProcessState) (host port : Bytes) : Async Action := do
  match state with
  | .ask =>
    ensureConnection that host port
    let obj ← object that
    if (← redisAsyncSend obj.con_.2 .runRedisCallback that (.format (text "ASKING"))) = .ok then
      return .ask
    else
      Code.throws (.cluster .askingFailed)
  | .moved =>
    clusterMoved
    ensureConnection that host port
    let obj ← object that
    if (← processHiredisCommand that obj.con_.2) = .ok then
      return .redirect
    else
      Code.throws (.cluster .movedFailed)
  | .ready => return .finish
  | .clusterDown => Code.throws (.cluster .clusterDown)
  | .failed => Code.throws (.cluster (.logicError (text "cluster logic error")))

/-- The callback `processCommandReply`.  Its variable `state` is `FAILED` until `processResult` returns, so the `try`
block is taken in two parts, before and after that assignment. -/
def processCommandReply (con : ConPtr) (r : ReplyPtr) (that : ObjPtr) : Async Unit := do
  let classified ← Code.attempt Exn.clusterException do
    checkCritical r false false [] none
    let reply ← readReply r
    outcome (processResult reply)
  let (state, result) ← match classified with
    | .error ce => pure (.failed, .error ce)
    | .ok (state, host, port) => do
      let result ← Code.attempt Exn.clusterException (followState that state host port)
      pure (state, result)
  match result with
  | .ok commandState => complete con r that commandState
  | .error ce =>
    if ← wantsRetry that ce state then
      complete con r that .retry
    else
      complete con r that .finish

/-- The arguments of an overload of `Command`: whether the cluster pointer is null, the formatted command, `none` when
formatting it fails, and whether a callback is given. -/
structure Arguments where
  clusterNull : Bool
  key : Bytes
  cmd : Option Bytes
  redisCallback : Bool
  deriving DecidableEq, Repr

/-- The members as the constructors initialise them. -/
def Arguments.object (args : Arguments) (cmd : Bytes) : AsyncHiredisCommand :=
  { redisCallback_ := args.redisCallback, userErrorCb_ := false, con_ := ([], none), key_ := args.key, cmd_ := cmd,
    alive := true }

/-- The constructors.  When formatting fails the length is `-1`, and building a string of it throws. -/
def new (args : Arguments) : Async ObjPtr := do
  if args.clusterNull then
    Code.throws (.cluster .invalidArgument)
  else
    match args.cmd with
    | none => Code.throws (.std .logicError)
    | some cmd =>
      let w ← Code.get
      Code.modify fun w => w.updClient fun c => { c with objects := c.objects ++ [args.object cmd] }
      return w.client.objects.length

/-- `AsyncHiredisCommand::process`. -/
def process (that : ObjPtr) : Async Status := do
  let obj ← object that
  let con ← Cluster.getConnection obj.key_
  processHiredisCommand that (some con.2)

/-- `AsyncHiredisCommand::Command`. -/
def command (args : Arguments) : Async ObjPtr := do
  let c ← new args
  -- an exception of `process` leaves the object behind
  if (← process c) ≠ .ok then
    delete c
    Code.throws (.cluster .disconnected)
  else
    return c

/-- `setUserErrorCb`; `set` tells whether the pointer is not null. -/
def setUserErrorCb (that : ObjPtr) (set : Bool) : Async Unit := do
  let _ ← object that
  Code.modify fun w => w.updObject that fun o => { o with userErrorCb_ := set }

/-- `disconnectCb`. -/
def disconnectCb (con : ConPtr) : Async Unit := do
  let w ← Code.get
  if w.client.data_.freed then
    Code.undefined
  else
    Code.modify fun w => w.updClient fun c => { c with data_ := { c.data_ with lifetime := c.data_.lifetime - 1 } }
    if w.client.data_.pcluster then
      Cluster.deleteConnection con
    else
      Code.undefined

end AsyncHiredisCommand

end HiredisCluster
