import HiredisCluster.Cxx.Run
import HiredisCluster.HiredisCommand
import HiredisCluster.RedirectCache

/-!
# A client of a cluster that is resharded

The client asks for the slot table once and keeps it, while the slots of the cluster go from node to node.  The nodes are
the environment, and `Servers.receive` is assumed of them: the documented rules of redirection.  One that does not serve a
slot answers `MOVED`, one that has handed a key on while its slot is migrated answers `ASK`, and what a node answers to a
command that it executes is no redirection and does not look like a failure of the cluster (`Servers.plain`).
`Servers.due` is what a user may expect of a command: it is executed once, at the
node that holds its key, unless the node of the table does not serve the slot any more and the key was handed on as
well: then two redirections would have to be followed, and `process` follows one.  `commands_served` says that this is
what happens, for every sequence of commands and reshardings.
-/

namespace HiredisCluster

open Cxx

/-! ### Nodes -/

/-- A node of a cluster, by the address that it is announced with.  A host with a colon is cut off, and one that
contains `CLUSTERDOWN` makes a redirection look like a failure of the cluster. -/
structure Node where
  host : Bytes
  port : Nat
  colonFree : 0x3a ∉ host
  nulFree : 0 ∉ host
  downFree : ¬ text "CLUSTERDOWN" <:+: host
  hostFits : host.length < 2 ^ 32
  portFits : port ≤ 65535
  deriving DecidableEq

/-- The slot of a key. -/
def keySlot (key : Bytes) : SlotIndex := (SlotHash.slotByKey true key key.length).getD 0

theorem slotByKey_keySlot (key : Bytes) : SlotHash.slotByKey true key key.length = some (keySlot key) := by
  obtain ⟨slot, hs, -⟩ := SlotHash.slotByKey_eq_some true key
  rw [keySlot, hs]
  rfl

private theorem keySlot_lt (key : Bytes) : keySlot key < 16384 := by
  obtain ⟨slot, hs, hlt⟩ := SlotHash.slotByKey_eq_some true key
  rw [keySlot, hs]
  exact hlt

namespace Node

/-- The arguments `connect_` gets for the node. -/
def address (n : Node) : Bytes × Int32 := (n.host, Int32.ofNat n.port)

private theorem decimal_length_le (n : Nat) : (decimal n).length ≤ n + 1 := by
  induction n using Nat.strongRecOn with
  | ind n ih =>
    rw [decimal_eq]
    split
    · exact Nat.le_add_left _ _
    · have hhead := ih (n / 10) (by omega)
      rw [List.length_append, List.length_singleton]
      omega

private theorem zero_notMem_decimal (n : Nat) : (0 : UInt8) ∉ decimal n := by
  intro h
  exact absurd (isDigit_decimal n _ h) (by decide)

private theorem redirectionText_fits (n : Node) (asking : Bool) (slot : SlotIndex) :
    (redirectionText asking slot.toNat n.host n.port).length < 2 ^ 64 - 1 := by
  have hhost := n.hostFits
  have hport := n.portFits
  have hslot := slot.toNat_lt
  have hs := decimal_length_le slot.toNat
  have hp := decimal_length_le n.port
  have hword : (text (if asking then "ASK" else "MOVED")).length ≤ 5 := by cases asking <;> decide
  simp only [redirectionText, List.length_append, List.length_cons]
  omega

private theorem zero_notMem_redirectionText (n : Node) (asking : Bool) (slot : SlotIndex) :
    (0 : UInt8) ∉ redirectionText asking slot.toNat n.host n.port := by
  have hs := zero_notMem_decimal slot.toNat
  have hp := zero_notMem_decimal n.port
  have hhost := n.nulFree
  have hword : (0 : UInt8) ∉ text (if asking then "ASK" else "MOVED") := by cases asking <;> decide
  simp only [redirectionText, List.mem_append, List.mem_cons, not_or]
  exact ⟨hword, by decide, hs, by decide, hhost, by decide, hp⟩

/-- The redirection to the node. -/
def redirection (n : Node) (asking : Bool) (slot : SlotIndex) : Redirection where
  str :=
    { bytes := redirectionText asking slot.toNat n.host n.port
      fits := redirectionText_fits n asking slot }
  state := if asking then .ask else .moved
  host := n.host
  port := decimal n.port
  portNumber := Int32.ofNat n.port
  nulFree := zero_notMem_redirectionText n asking slot
  parsed := processResult_redirectionText rfl rfl n.colonFree
  accepted := stoi_decimal (Nat.lt_of_le_of_lt n.portFits (by decide))

/-- Nothing in it looks like an error of the cluster. -/
theorem mentionsClusterDown_redirection (n : Node) (asking : Bool) (slot : SlotIndex) :
    RedisReply.mentionsClusterDown (.error (n.redirection asking slot).str) = false := by
  have digits : ∀ m, ¬ text "CLUSTERDOWN" <:+: decimal m := by
    intro m hin
    have hdigit := isDigit_decimal m 0x43 (hin.subset (by decide))
    exact absurd hdigit (by decide)
  have word : ¬ text "CLUSTERDOWN" <:+: text (if asking then "ASK" else "MOVED") := by
    intro hin
    have hlen := hin.length_le
    cases asking <;> exact absurd hlen (by decide)
  have nowhere : ¬ text "CLUSTERDOWN" <:+: redirectionText asking slot.toNat n.host n.port := by
    intro hin
    rcases infix_append_cons (by decide) hin with hin | hin
    · exact word hin
    · rcases infix_append_cons (by decide) hin with hin | hin
      · exact digits _ hin
      · rcases infix_append_cons (by decide) hin with hin | hin
        · exact n.downFree hin
        · exact digits _ hin
  have hfind := find_eq_npos nowhere
  have hstr : cStr (n.redirection asking slot).str.bytes = redirectionText asking slot.toNat n.host n.port :=
    cStr_eq_self (n.redirection asking slot).nulFree
  show decide (find (cStr (n.redirection asking slot).str.bytes) (text "CLUSTERDOWN") 0 ≠ npos) = false
  rw [hstr, hfind]
  exact decide_eq_false (not_not_intro rfl)

end Node

/-- Who serves the slots, and where the keys have gone that were handed on while their slot is migrated. -/
structure Topology where
  owner : SlotIndex → Node
  migrated : Bytes → Option Node
  away : ∀ key n, migrated key = some n → n.address ≠ (owner (keySlot key)).address

/-- The node that holds a key. -/
def Topology.holder (τ : Topology) (key : Bytes) : Node := (τ.migrated key).getD (τ.owner (keySlot key))

/-- A command was executed by a node. -/
structure Execution where
  node : Bytes × Int32
  cmd : Bytes
  deriving DecidableEq

/-- The reply of a command that was executed: no redirection, and no word of a cluster that is down. -/
def RedisReply.IsPlain (r : RedisReply) : Prop :=
  processResult r = .ret (.ready, [], []) ∧ r.mentionsClusterDown = false

/-- What the nodes do with commands: the key a command is about, and the reply to its execution after the executions
`done`. -/
structure Servers where
  keyOf : Bytes → Bytes
  answer : (done : List Execution) → Execution → RedisReply
  plain : ∀ done e, (answer done e).IsPlain

namespace Servers

variable (V : Servers) (τ : Topology)

/-- A node gets a command, on a connection on which `ASKING` came before or not: the rules of redirection that Redis
documents, assumed of every node. -/
def receive (node : Bytes × Int32) (asked : Bool) (cmd : Bytes) (done : List Execution) :
    RedisReply × List Execution :=
  let key := V.keyOf cmd
  let slot := keySlot key
  let executed := (V.answer done ⟨node, cmd⟩, done ++ [⟨node, cmd⟩])
  if asked ∧ (τ.migrated key).map Node.address = some node then executed
  else if node = (τ.owner slot).address then
    match τ.migrated key with
    | none => executed
    | some n => (.error (n.redirection true slot).str, done)
  else (.error ((τ.owner slot).redirection false slot).str, done)

end Servers

/-- A command with the key it is about. -/
structure Command (V : Servers) where
  key : Bytes
  cmd : Bytes
  about : V.keyOf cmd = key
  short : key.length < 2 ^ 31

/-- The object that `Command` makes for it. -/
def Command.object {V : Servers} (q : Command V) : HiredisCommand := { key_ := q.key, cmd_ := some q.cmd }

/-! ### The client and the nodes -/

/-- The client with its connections: the commands that were written to them and not yet sent, the ones on which `ASKING`
was the last thing sent, and what the nodes have executed. -/
structure Net (ρ : Type) where
  client : SyncWorld (World ρ)
  written : List (ConPtr × Bytes)
  asked : List ConPtr
  executed : List Execution

/-- A command begins. -/
def Net.start {ρ : Type} (w : World ρ) (executed : List Execution) : Net ρ :=
  { client := SyncWorld.start w, written := [], asked := [], executed }

section nodes

variable {ρ : Type} (fn : Functions ρ) (V : Servers) (τ : Topology)

/-- The address behind a connection that has no error. -/
def Net.nodeOf (s : Net ρ) (con : ConPtr) : Option (Bytes × Int32) :=
  match s.client.errOf (Cluster.ops fn) con with
  | some _ => none
  | none => (s.client.cluster.contexts[con]?).map fun x => (x.host, x.port)

/-- The reply is read that the node sent. -/
def Net.read (s : Net ρ) (r : RedisReply) : Outcome Exn (Option (Nat × RedisReply)) × Net ρ :=
  (.ret (some (s.client.sent, r)), { s with client := { s.client with sent := s.client.sent + 1 } })

/-- The calls of the client when the nodes answer.  `redisGetReply` waits for ever when nothing was written. -/
def nodesHandler : Program.Handler syncInterface (Net ρ) Exn
  | .redisAppendFormattedCommand con cmd => fun s =>
    match cmd with
    | some cmd => (.ret .ok, { s with written := s.written ++ [(con, cmd)] })
    | none => (.undefined, s)
  | .redisGetReply con => fun s =>
    match s.nodeOf fn con, s.written.lookup con with
    | none, _ => (.ret none, s)
    | some _, none => (.undefined, s)
    | some node, some cmd =>
      let x := V.receive τ node (con ∈ s.asked) cmd s.executed
      { s with written := s.written.erase (con, cmd), asked := s.asked.erase con, executed := x.2 }.read x.1
  | .redisCommand con _ => fun s =>
    match s.nodeOf fn con with
    | none => (.ret none, s)
    | some _ => { s with asked := con :: s.asked }.read (.status (.ofText "OK"))
  | c => fun s =>
    let x := handler (Cluster.ops fn) (fun _ => none) c s.client
    (x.1, { s with client := x.2 })

/-- A program of the client. -/
def runNodes {α : Type} (p : Sync α) : Code (Net ρ) Exn α := Program.run (nodesHandler fn V τ) p

end nodes

/-! ### Single calls -/

section calls

variable {ρ α : Type} {fn : Functions ρ} {V : Servers} {τ : Topology} {s s' : Net ρ}

theorem runNodes_of_ret {β : Type} {p : Sync α} {a : α} (hp : runNodes fn V τ p s = (.ret a, s')) (f : α → Sync β) :
    runNodes fn V τ (p >>= f) s = runNodes fn V τ (f a) s' := Program.run_of_ret _ hp f

private theorem runNodes_sync (c : SyncCall) : runNodes fn V τ (sync c) s = nodesHandler fn V τ c s := by
  show Program.run _ (Program.perform (I := syncInterface) c) s = _
  rw [Program.run_perform]

/-- A call that is answered without the nodes. -/
private theorem runNodes_call {c : SyncCall} {o : Outcome Exn c.Result} {w : SyncWorld (World ρ)}
    (hc : nodesHandler fn V τ c s = ((handler (Cluster.ops fn) (fun _ => none) c s.client).1,
      { s with client := (handler (Cluster.ops fn) (fun _ => none) c s.client).2 }))
    (h : handler (Cluster.ops fn) (fun _ => none) c s.client = (o, w)) :
    runNodes fn V τ (sync c) s = (o, { s with client := w }) := by
  rw [runNodes_sync, hc, h]

theorem runNodes_readReply {a : Nat} (h : a ∉ s.client.freed) (r : RedisReply) :
    runNodes fn V τ (readReply (.object a r)) s = (.ret r, s) := by
  apply runNodes_call (c := .readReply (.object a r)) rfl
  show (if a ∈ s.client.freed then _ else _) = _
  rw [if_neg h]

theorem runNodes_free {a : Nat} (h : a ∉ s.client.freed) (r : RedisReply) :
    runNodes fn V τ (freeReplyObject (.object a r)) s =
      (.ret (), { s with client := { s.client with freed := a :: s.client.freed } }) := by
  apply runNodes_call (c := .freeReplyObject (.object a r)) rfl
  show (if a ∈ s.client.freed then _ else _) = _
  rw [if_neg h]

private theorem errOf_of_nodeOf {con : ConPtr} {node : Bytes × Int32} (h : s.nodeOf fn con = some node) :
    s.client.errOf (Cluster.ops fn) con = none := by
  unfold Net.nodeOf at h
  cases herr : s.client.errOf (Cluster.ops fn) con with
  | some errstr =>
    rw [herr] at h
    cases h
  | none => rfl

private theorem runNodes_err {con : ConPtr} {node : Bytes × Int32} (h : s.nodeOf fn con = some node) :
    runNodes fn V τ (sync (.err con)) s = (.ret false, s) := by
  apply runNodes_call (c := .err con) rfl
  show (Outcome.ret (s.client.errOf (Cluster.ops fn) con).isSome, s.client) = _
  rw [errOf_of_nodeOf h]
  rfl

/-- The node gets the command and its reply is read. -/
private theorem processHiredisCommand_received {con : ConPtr} {node : Bytes × Int32} (h : s.nodeOf fn con = some node)
    (hw : s.written = []) (q : Command V) :
    runNodes fn V τ (q.object.processHiredisCommand con) s =
      (.ret (.object s.client.sent (V.receive τ node (con ∈ s.asked) q.cmd s.executed).1),
        { s with
          client := { s.client with sent := s.client.sent + 1 }
          asked := s.asked.erase con
          executed := (V.receive τ node (con ∈ s.asked) q.cmd s.executed).2 }) := by
  have append : runNodes fn V τ (sync (.redisAppendFormattedCommand con (some q.cmd))) s =
      (.ret .ok, { s with written := [(con, q.cmd)] }) := by
    refine (runNodes_sync _).trans ?_
    show (Outcome.ret Status.ok, { s with written := s.written ++ [(con, q.cmd)] }) = _
    rw [hw, List.nil_append]
  have get : runNodes fn V τ (sync (.redisGetReply con)) { s with written := [(con, q.cmd)] } =
      (.ret (some (s.client.sent, (V.receive τ node (con ∈ s.asked) q.cmd s.executed).1)),
        { s with
          client := { s.client with sent := s.client.sent + 1 }
          asked := s.asked.erase con
          executed := (V.receive τ node (con ∈ s.asked) q.cmd s.executed).2 }) := by
    refine (runNodes_sync _).trans ?_
    have hnode : Net.nodeOf fn { s with written := [(con, q.cmd)] } con = some node := h
    unfold nodesHandler
    simp only [hnode, List.lookup_cons_self, List.erase_cons_head, Net.read, hw]
  exact (runNodes_of_ret append _).trans (runNodes_of_ret get _)

private theorem asking_received {con : ConPtr} {node : Bytes × Int32} (h : s.nodeOf fn con = some node) :
    runNodes fn V τ (HiredisCommand.asking con) s = (.ret (.object s.client.sent (.status (.ofText "OK"))),
      { s with client := { s.client with sent := s.client.sent + 1 }, asked := con :: s.asked }) := by
  have call : runNodes fn V τ (sync (.redisCommand con (text "ASKING"))) s =
      (.ret (some (s.client.sent, .status (.ofText "OK"))),
        { s with client := { s.client with sent := s.client.sent + 1 }, asked := con :: s.asked }) := by
    refine (runNodes_sync _).trans ?_
    unfold nodesHandler
    simp only [h, Net.read]
  exact runNodes_of_ret call _

/-- The check lets a reply pass that is no error, and when errors are not critical one that does not mention
`CLUSTERDOWN`. -/
private theorem checkCritical_passes {a : Nat} (ha : a ∉ s.client.freed) {r : RedisReply} {critical : Bool}
    (h : if critical then ¬ r.IsError else r.mentionsClusterDown = false) :
    runNodes fn V τ (checkCritical (.object a r) critical true [] none) s = (.ret (), s) := by
  refine (runNodes_of_ret (runNodes_readReply ha r) _).trans ?_
  cases r with
  | error str =>
    cases critical with
    | true => exact absurd rfl h
    | false =>
      show runNodes fn V τ (if find (cStr str.bytes) (text "CLUSTERDOWN") 0 ≠ npos then
        raise (.object a (.error str)) .clusterDown else pure ()) s = _
      rw [if_neg (of_decide_eq_false h)]
      rfl
  | _ => rfl

end calls

/-! ### One command -/

section process

variable {ρ : Type} {fn : Functions ρ} {V : Servers} {τ : Topology} {w w' w'' : World ρ} {done : List Execution}
variable {node : Bytes × Int32} {c : ConPtr} {q : Command V}

/-- The state in the middle of a command, when nothing is under way. -/
def Net.at (w : World ρ) (sent : Nat) (freed : List Nat) (executed : List Execution) : Net ρ :=
  { client := { cluster := w, sent, failed := [], freed }, written := [], asked := [], executed }

/-- A connection that was opened to a node. -/
private theorem nodeOf_at (h : w.contexts[c]? = some (Context.opened node.1 node.2)) (sent : Nat) (freed : List Nat)
    (asked : List ConPtr) : Net.nodeOf fn { Net.at w sent freed done with asked } c = some node := by
  have herr : (Net.at w sent freed done).client.errOf (Cluster.ops fn) c = none := by
    simp [Net.at, SyncWorld.errOf, Cluster.ops, h, Context.opened]
  unfold Net.nodeOf
  rw [herr]
  simp [Net.at, h, Context.opened]

variable (fn) in
/-- The first half of `process`. -/
private theorem process_first {range : SlotRange} (hget : Cluster.getConnection q.key w = (.ret (range, c), w))
    (hc : w.contexts[c]? = some (Context.opened node.1 node.2)) {r : RedisReply} {done' : List Execution}
    (hreceive : V.receive τ node false q.cmd done = (r, done')) (hdown : r.mentionsClusterDown = false)
    {state : ProcessState} {host port : Bytes} (hres : processResult r = .ret (state, host, port)) :
    runNodes fn V τ q.object.process (Net.start w done) =
      runNodes fn V τ (match state with
        | .ask => q.object.processAsk (.object 0 r) host port
        | .moved => q.object.processMoved (.object 0 r) host port
        | .ready => return .object 0 r
        | _ => raise (.object 0 r) (.logicError (text "error in state processing"))) (Net.at w 1 [] done') := by
  have hnode : Net.nodeOf fn (Net.start w done) c = some node := nodeOf_at hc 0 [] []
  have hnode' : Net.nodeOf fn (Net.at w 1 [] done') c = some node := nodeOf_at hc 1 [] []
  have get : runNodes fn V τ (sync (.getConnection q.key)) (Net.start w done) =
      (.ret (range, c), Net.start w done) := by
    apply runNodes_call (c := .getConnection q.key) rfl
    show ((Cluster.getConnection q.key w).1, SyncWorld.start (Cluster.getConnection q.key w).2) = _
    rw [hget]
  have send : runNodes fn V τ (q.object.processHiredisCommand c) (Net.start w done) =
      (.ret (.object 0 r), Net.at w 1 [] done') := by
    rw [processHiredisCommand_received hnode rfl]
    show (Outcome.ret (ReplyPtr.object 0 (V.receive τ node false q.cmd done).1),
      Net.at w 1 [] (V.receive τ node false q.cmd done).2) = _
    rw [hreceive]
  have check : runNodes fn V τ (checkCritical (.object 0 r) false true [] (some c)) (Net.at w 1 [] done') =
      (.ret (), Net.at w 1 [] done') :=
    (runNodes_of_ret (runNodes_err hnode') _).trans (checkCritical_passes List.not_mem_nil hdown)
  have release : runNodes fn V τ (sync (.releaseSlotConnection (range, c))) (Net.at w 1 [] done') =
      (.ret (), Net.at w 1 [] done') := runNodes_call (c := .releaseSlotConnection (range, c)) rfl rfl
  have read : runNodes fn V τ (readReply (.object 0 r)) (Net.at w 1 [] done') = (.ret r, Net.at w 1 [] done') :=
    runNodes_readReply List.not_mem_nil r
  have result : runNodes fn V τ (outcome (processResult r)) (Net.at w 1 [] done') =
      (.ret (state, host, port), Net.at w 1 [] done') := by
    rw [hres]
    rfl
  exact (runNodes_of_ret get _).trans ((runNodes_of_ret send _).trans ((runNodes_of_ret check _).trans
    ((runNodes_of_ret release _).trans ((runNodes_of_ret read _).trans (runNodes_of_ret result _)))))

variable (V τ done) in
/-- A connection is asked for after the first reply was freed. -/
private theorem runNodes_redirected {host port key : Bytes}
    (hcreate : Cluster.createNewConnection fn host port w = (.ret (key, some c), w'))
    (hc : w'.contexts[c]? = some (Context.opened node.1 node.2)) (r : RedisReply) :
    runNodes fn V τ (freeReplyObject (.object 0 r)) (Net.at w 1 [] done) = (.ret (), Net.at w 1 [0] done) ∧
      runNodes fn V τ (sync (.createNewConnection host port)) (Net.at w 1 [0] done) =
        (.ret (key, some c), Net.at w' 1 [0] done) ∧
      runNodes fn V τ (sync (.err c)) (Net.at w' 1 [0] done) = (.ret false, Net.at w' 1 [0] done) := by
  refine ⟨runNodes_free List.not_mem_nil r, ?_, runNodes_err (nodeOf_at hc 1 [0] [])⟩
  apply runNodes_call (c := .createNewConnection host port) rfl
  show ((Cluster.createNewConnection fn host port w).1,
    { (Net.at w 1 [0] done).client with cluster := (Cluster.createNewConnection fn host port w).2 }) = _
  rw [hcreate]
  rfl

/-- The node that `MOVED` names gets the command, and its reply is returned, whatever it is. -/
private theorem processMoved_received {host port key : Bytes}
    (hcreate : Cluster.createNewConnection fn host port w = (.ret (key, some c), w'))
    (hc : w'.contexts[c]? = some (Context.opened node.1 node.2)) (hmoved : Cluster.moved fn w' = (.ret (), w''))
    (first : RedisReply) {r : RedisReply} {done' : List Execution}
    (hreceive : V.receive τ node false q.cmd done = (r, done')) :
    runNodes fn V τ (q.object.processMoved (.object 0 first) host port) (Net.at w 1 [] done) =
      (.ret (.object 1 r), Net.at w'' 2 [0] done') := by
  obtain ⟨free, create, err⟩ := runNodes_redirected V τ done hcreate hc first
  have hnode : Net.nodeOf fn (Net.at w' 1 [0] done) c = some node := nodeOf_at hc 1 [0] []
  have send : runNodes fn V τ (q.object.processHiredisCommand c) (Net.at w' 1 [0] done) =
      (.ret (.object 1 r), Net.at w' 2 [0] done') := by
    rw [processHiredisCommand_received hnode rfl]
    show (Outcome.ret (ReplyPtr.object 1 (V.receive τ node false q.cmd done).1),
      Net.at w' 2 [0] (V.receive τ node false q.cmd done).2) = _
    rw [hreceive]
  have announce : runNodes fn V τ (sync .moved) (Net.at w' 2 [0] done') = (.ret (), Net.at w'' 2 [0] done') := by
    apply runNodes_call (c := .moved) rfl
    show ((Cluster.moved fn w').1, { (Net.at w' 2 [0] done').client with cluster := (Cluster.moved fn w').2 }) = _
    rw [hmoved]
    rfl
  have release : runNodes fn V τ (sync (.releaseHostConnection (key, some c))) (Net.at w'' 2 [0] done') =
      (.ret (), Net.at w'' 2 [0] done') := runNodes_call (c := .releaseHostConnection (key, some c)) rfl rfl
  exact (runNodes_of_ret free _).trans ((runNodes_of_ret create _).trans ((runNodes_of_ret err _).trans
    ((runNodes_of_ret send _).trans ((runNodes_of_ret announce _).trans (runNodes_of_ret release _)))))

/-- The node that `ASK` names gets `ASKING` and then the command. -/
private theorem processAsk_received {host port key : Bytes}
    (hcreate : Cluster.createNewConnection fn host port w = (.ret (key, some c), w'))
    (hc : w'.contexts[c]? = some (Context.opened node.1 node.2)) (first : RedisReply) {r : RedisReply}
    {done' : List Execution} (hreceive : V.receive τ node true q.cmd done = (r, done'))
    (hdown : r.mentionsClusterDown = false) :
    runNodes fn V τ (q.object.processAsk (.object 0 first) host port) (Net.at w 1 [] done) =
      (.ret (.object 2 r), Net.at w' 3 [1, 0] done') := by
  obtain ⟨free, create, err⟩ := runNodes_redirected V τ done hcreate hc first
  have ask : runNodes fn V τ (HiredisCommand.asking c) (Net.at w' 1 [0] done) =
      (.ret (.object 1 (.status (.ofText "OK"))), { Net.at w' 2 [0] done with asked := [c] }) :=
    asking_received (nodeOf_at hc 1 [0] [])
  have accept : runNodes fn V τ (checkCritical (.object 1 (.status (.ofText "OK"))) true true [] none)
      { Net.at w' 2 [0] done with asked := [c] } = (.ret (), { Net.at w' 2 [0] done with asked := [c] }) :=
    checkCritical_passes (show 1 ∉ [0] by decide) (show ¬ RedisReply.IsError (.status (.ofText "OK")) by decide)
  have freeOk : runNodes fn V τ (freeReplyObject (.object 1 (.status (.ofText "OK"))))
      { Net.at w' 2 [0] done with asked := [c] } = (.ret (), { Net.at w' 2 [1, 0] done with asked := [c] }) :=
    runNodes_free (show 1 ∉ [0] by decide) _
  have send : runNodes fn V τ (q.object.processHiredisCommand c) { Net.at w' 2 [1, 0] done with asked := [c] } =
      (.ret (.object 2 r), Net.at w' 3 [1, 0] done') := by
    rw [processHiredisCommand_received (nodeOf_at hc 2 [1, 0] [c]) rfl]
    have hasked : decide (c ∈ [c]) = true := decide_eq_true (List.mem_singleton_self c)
    show (Outcome.ret (ReplyPtr.object 2 (V.receive τ node (decide (c ∈ [c])) q.cmd done).1),
      { Net.at w' 3 [1, 0] (V.receive τ node (decide (c ∈ [c])) q.cmd done).2 with asked := [c].erase c }) = _
    rw [hasked, hreceive, List.erase_cons_head]
    rfl
  have check : runNodes fn V τ (checkCritical (.object 2 r) false true [] none) (Net.at w' 3 [1, 0] done') =
      (.ret (), Net.at w' 3 [1, 0] done') := checkCritical_passes (show 2 ∉ [1, 0] by decide) hdown
  have release : runNodes fn V τ (sync (.releaseHostConnection (key, some c))) (Net.at w' 3 [1, 0] done') =
      (.ret (), Net.at w' 3 [1, 0] done') := runNodes_call (c := .releaseHostConnection (key, some c)) rfl rfl
  exact (runNodes_of_ret free _).trans ((runNodes_of_ret create _).trans ((runNodes_of_ret err _).trans
    ((runNodes_of_ret ask _).trans ((runNodes_of_ret accept _).trans ((runNodes_of_ret freeOk _).trans
      ((runNodes_of_ret send _).trans ((runNodes_of_ret check _).trans (runNodes_of_ret release _))))))))

end process

/-! ### A cluster in service -/

/-- The address that the table names. -/
def SlotEntry.address (e : SlotEntry) : Bytes × Int32 := (cStr e.host.bytes, e.port.toInt32)

section service

variable {ρ : Type} {fn : Functions ρ} {t : SlotsTable} {base : List Context} {w w' : World ρ}

/-- The callback of the user returns. -/
def CallbackReturns (fn : Functions ρ) : Prop := ∀ w, (fn.userMovedFn w).1 = .ret ()

/-- A cluster that was made from the table, after any number of redirections. -/
structure InService (base : List Context) (t : SlotsTable) (w : World ρ) : Prop where
  routes : RoutesReady base t.entries w
  cached : ∃ w₀ dialled, Cached w₀ dialled w

private theorem InService.of_eq (h : InService base t w) (hn : w'.nodes = w.nodes) (hr : w'.redirects = w.redirects)
    (hready : w'.cluster.readytouse_ = w.cluster.readytouse_) (hc : w'.contexts = w.contexts) : InService base t w' := by
  obtain ⟨w₀, dialled, hcached⟩ := h.cached
  refine ⟨h.routes.of_eq hn hready (hc ▸ List.prefix_rfl), w₀, dialled, hc.trans hcached.contexts, ?_, hn.trans hcached.nodes⟩
  rw [hr]
  exact hcached.numbers

/-- A redirection is followed to a connection to its node. -/
private theorem InService.redirect (h : InService base t w) (hf : FreshHealthy fn) (n : Node) (asking : Bool)
    (slot : SlotIndex) :
    ∃ key c w', Cluster.createNewConnection fn n.host (decimal n.port) w = (.ret (key, some c), w') ∧
      w'.contexts[c]? = some (Context.opened n.address.1 n.address.2) ∧ InService base t w' ∧
      w'.cluster.moved_ = w.cluster.moved_ := by
  obtain ⟨w₀, dialled, hcached⟩ := h.cached
  obtain ⟨new, w', c, -, hcached', hlookup, hrun⟩ := follow_cached hf hcached (n.redirection asking slot)
  have hfollow : follow fn (n.redirection asking slot).str w =
      Cluster.createNewConnection fn n.host (decimal n.port) w := by
    have hread : Code.lift (processResult (.error (n.redirection asking slot).str)) w =
        (.ret ((n.redirection asking slot).state, n.host, decimal n.port), w) := by
      rw [Code.lift_apply, (n.redirection asking slot).parsed]
      rfl
    exact Code.bind_of_ret hread _
  have hcreate := hfollow.symm.trans hrun
  obtain ⟨i, hi, -⟩ := (hcached'.numbers.lookup_iff _ _).1 hlookup
  obtain ⟨c', hc', -, hcontext⟩ := hcached'.opened (List.mem_of_getElem? hi)
  rw [hlookup] at hc'
  cases hc'
  have keeps : Code.Preserves (fun v : World ρ => v.cluster.moved_ = w.cluster.moved_)
      (Cluster.createNewConnection fn n.host (decimal n.port)) := by
    have ignores : World.IgnoresTables fun v : World ρ => v.cluster.moved_ = w.cluster.moved_ :=
      fun _ _ _ _ hmoved hv => hmoved.trans hv
    refine DefaultContainer.insertHost_preserves fn ignores (fun host port v hv => ?_) _ _
    obtain ⟨client, hcall, -⟩ := hf.callConnect host port v
    rw [hcall]
    exact hv
  have hroutes := createNewConnection_preserves hf RoutesReady.tableBased n.host (decimal n.port) w h.routes
  have hmoved := keeps w rfl
  rw [hcreate] at hroutes hmoved
  exact ⟨_, c, w', hcreate, hcontext, ⟨hroutes, w₀, _, hcached'⟩, hmoved⟩

/-- The announcement of a redirection. -/
theorem InService.moved (h : InService base t w) (hm : LeavesClusterAlone fn) (hr : CallbackReturns fn) :
    ∃ w', Cluster.moved fn w = (.ret (), w') ∧ InService base t w' ∧ w'.cluster.moved_ = true := by
  let v := w.updCluster fun c => { c with moved_ := true }
  have hv : InService base t v := h.of_eq rfl rfl rfl rfl
  have hrun : Cluster.moved fn w = (if v.cluster.userMovedFn_ then fn.userMovedFn else pure ()) v := rfl
  rw [hrun]
  by_cases hgiven : v.cluster.userMovedFn_ = true
  · rw [if_pos hgiven]
    obtain ⟨hcluster, hcontexts⟩ := hm v
    refine ⟨(fn.userMovedFn v).2, Prod.ext (hr v) rfl, hv.of_eq ?_ ?_ (by rw [hcluster]) hcontexts, by rw [hcluster]; rfl⟩
    · unfold World.nodes
      rw [hcluster]
    · unfold World.redirects
      rw [hcluster]
  · rw [if_neg hgiven]
    exact ⟨v, rfl, hv, rfl⟩

/-- A fresh redirect cache and no redirection announced. -/
def Unredirected (w : World ρ) : Prop := w.redirects.entries = [] ∧ w.cluster.moved_ = false

private theorem construct_unredirected (hf : FreshHealthy fn) (reply : ReplyPtr) (w : World ρ) :
    Unredirected (Cluster.construct fn reply w).2 := by
  have free : ∀ p, Code.Preserves Unredirected (freeReply p : Lib ρ Unit) := by
    intro p v hv
    unfold freeReply
    split
    · exact hv
    · exact hv
    · split <;> exact hv
  have raises : ∀ e, Code.Preserves Unredirected (raise reply e : Lib ρ Unit) := by
    intro e
    unfold raise
    cases reply with
    | null => exact .bind (.pure _ _) fun _ => .lift _ _
    | unset => exact .bind (free _) fun _ => .lift _ _
    | object a r => exact .bind (free _) fun _ => .lift _ _
  have connects : ∀ host port, Code.Preserves Unredirected (callConnect fn host port) := by
    intro host port v hv
    obtain ⟨client, hcall, -⟩ := hf.callConnect host port v
    rw [hcall]
    exact hv
  have inserts : ∀ slots host port, Code.Preserves Unredirected (DefaultContainer.insertSlots fn slots host port) := by
    intro slots host port
    refine .bind (connects _ _) fun conn => ?_
    cases conn with
    | none => exact .throws _ _
    | some c =>
      refine .bind (errOf_preserves _ c) fun err => ?_
      split
      · exact .throws _ _
      · exact .modify fun v hv => hv
  have loop : ∀ r n i, Code.Preserves Unredirected (Cluster.initLoop fn reply r n i) := by
    intro r n
    induction n with
    | zero => exact fun i => .pure _ _
    | succ n ih =>
      intro i
      refine .bind (.lift _ _) fun e => .bind (.lift _ _) fun ok => ?_
      split
      · exact .bind (.lift _ _) fun x => .bind (inserts _ _ _) fun _ => ih _
      · exact raises _
  have rest : Code.Preserves Unredirected (if fn.connect.isNone ∨ fn.disconnect.isNone then
      raise reply .invalidArgument else Cluster.init fn reply) := by
    split
    · exact raises _
    · refine .bind (derefReply_preserves _ reply) fun r => ?_
      split
      · exact .bind (loop _ _ _) fun _ => .modify fun v hv => hv
      · exact raises _
  exact rest (w.updCluster fun _ => Cluster.initial) ⟨rfl, rfl⟩

/-- The constructor puts a cluster into service. -/
theorem construct_inService (hf : FreshHealthy fn) (t : SlotsTable) {reply : RedisReply} (ht : t.Encodes reply)
    {w₀ : World ρ} {a : Nat} (ha : a ∉ w₀.freed) :
    ∃ w, Cluster.construct fn (.object a reply) w₀ = (.ret (), w) ∧ InService w₀.contexts t w ∧
      w.cluster.moved_ = false := by
  obtain ⟨w, hrun, hroutes, hready⟩ := construct_routes hf t ht ha
  obtain ⟨hempty, hmoved⟩ := construct_unredirected hf (.object a reply) w₀
  rw [hrun] at hempty hmoved
  have hcached : Cached w [] w := ⟨(List.append_nil _).symm, .of_empty hempty, rfl⟩
  exact ⟨w, hrun, ⟨⟨hroutes, hready⟩, w, [], hcached⟩, hmoved⟩

end service

/-! ### Runs -/

/-- The table names a node for the slot that does not serve it. -/
def Topology.stale (τ : Topology) (t : SlotsTable) (key : Bytes) : Bool :=
  match t.owner (keySlot key) with
  | some e => e.address ≠ (τ.owner (keySlot key)).address
  | none => false

/-- The table names a node for the slot, and from there one redirection at most leads to the holder of the key. -/
def Topology.reaches (τ : Topology) (t : SlotsTable) (key : Bytes) : Bool :=
  (t.owner (keySlot key)).isSome && (!τ.stale t key || (τ.migrated key).isNone)

section due

variable (V : Servers) (t : SlotsTable) (done : List Execution) (q : Command V) (τ : Topology)

/-- The execution of a command by the holder of its key. -/
def Command.execution {V : Servers} (q : Command V) (τ : Topology) : Execution := ⟨(τ.holder q.key).address, q.cmd⟩

theorem Command.execution_owner {V : Servers} (q : Command V) {τ : Topology} (h : τ.migrated q.key = none) :
    q.execution τ = ⟨(τ.owner (keySlot q.key)).address, q.cmd⟩ := by
  unfold Command.execution Topology.holder
  rw [h]
  rfl

theorem Command.execution_migrated {V : Servers} (q : Command V) {τ : Topology} {n : Node}
    (h : τ.migrated q.key = some n) : q.execution τ = ⟨n.address, q.cmd⟩ := by
  unfold Command.execution Topology.holder
  rw [h]
  rfl

/-- What the user gets for a command after the executions `done`. -/
def Servers.due : Outcome Exn RedisReply :=
  if (t.owner (keySlot q.key)).isNone then .throws (.cluster .nodeSearch)
  else if τ.reaches t q.key then .ret (V.answer done (q.execution τ))
  else .ret (.error ((τ.holder q.key).redirection true (keySlot q.key)).str)

/-- The executions after it. -/
def Servers.executed : List Execution := if τ.reaches t q.key then done ++ [q.execution τ] else done

end due

section runs

variable {ρ : Type} (fn : Functions ρ) (V : Servers)

/-- A client between two commands, and what the nodes have executed. -/
structure Session (ρ : Type) where
  world : World ρ
  executed : List Execution

/-- A command is processed while the slots are served as `τ` says. -/
def Session.process (s : Session ρ) (e : Command V × Topology) : Outcome Exn ReplyPtr × Net ρ :=
  runNodes fn V e.2 e.1.object.process (Net.start s.world s.executed)

/-- The session after a command. -/
def Session.exec (s : Session ρ) (e : Command V × Topology) : Session ρ :=
  ⟨(s.process fn V e).2.client.cluster, (s.process fn V e).2.executed⟩

/-- What the user gets. -/
def Session.reply (s : Session ρ) (e : Command V × Topology) : Outcome Exn RedisReply :=
  (s.process fn V e).1.bind fun p =>
    match p.object? with
    | some r => .ret r
    | none => .undefined

variable {fn V} {t : SlotsTable} {base : List Context} {w : World ρ} {done : List Execution} {τ : Topology}
variable {q : Command V}

/-- The connection that the table holds for a slot. -/
theorem InService.getConnection (h : InService base t w) (q : Command V) :
    (t.owner (keySlot q.key) = none ∧ Cluster.getConnection q.key w = (.throws (.cluster .nodeSearch), w)) ∨
      ∃ e range c, t.owner (keySlot q.key) = some e ∧ Cluster.getConnection q.key w = (.ret (range, c), w) ∧
        w.contexts[c]? = some (Context.opened e.address.1 e.address.2) := by
  have hget := getConnection_eq h.routes.2 q.short (slotByKey_keySlot q.key)
  cases ho : t.owner (keySlot q.key) with
  | none =>
    have hn : ∀ e ∈ t.entries, ¬ e.Contains (keySlot q.key) := by
      intro e he hc
      have howner := (t.owner_eq_some_iff _ e).2 ⟨he, hc⟩
      rw [ho] at howner
      cases howner
    rw [hget, h.routes.1.search_none hn]
    exact Or.inl ⟨rfl, rfl⟩
  | some e =>
    obtain ⟨he, hc⟩ := (t.owner_eq_some_iff _ e).1 ho
    obtain ⟨i, hi⟩ := List.getElem?_of_mem he
    obtain ⟨more, hmore⟩ := h.routes.1.contexts
    rw [hget, h.routes.1.search (keySlot_lt q.key) hi hc]
    refine Or.inr ⟨e, _, _, rfl, rfl, ?_⟩
    rw [← hmore, List.append_assoc, List.getElem?_append_right (Nat.le_add_right _ _), Nat.add_sub_cancel_left,
      List.getElem?_append_left (by simpa using (List.getElem?_eq_some_iff.1 hi).1), List.getElem?_map, hi]
    rfl

variable (V τ done q) in
/-- What a node does that is not asked. -/
theorem Servers.receive_unasked (node : Bytes × Int32) :
    V.receive τ node false q.cmd done =
      if node = (τ.owner (keySlot q.key)).address then
        match τ.migrated q.key with
        | none => (V.answer done ⟨node, q.cmd⟩, done ++ [⟨node, q.cmd⟩])
        | some n => (.error (n.redirection true (keySlot q.key)).str, done)
      else (.error ((τ.owner (keySlot q.key)).redirection false (keySlot q.key)).str, done) := by
  unfold Servers.receive
  rw [q.about]
  exact if_neg fun h => nomatch h.1

variable (V done) in
/-- The node that a key was handed on to executes the command when it is asked. -/
theorem Servers.receive_asked {n : Node} (h : τ.migrated q.key = some n) :
    V.receive τ n.address true q.cmd done =
      (V.answer done ⟨n.address, q.cmd⟩, done ++ [⟨n.address, q.cmd⟩]) := by
  unfold Servers.receive
  rw [q.about]
  dsimp only
  rw [h]
  exact if_pos ⟨rfl, rfl⟩

/-- The node of the table serves the slot: the command is executed there, or where `ASK` leads. -/
private theorem InService.process_fresh (h : InService base t w) (hf : FreshHealthy fn) (done : List Execution)
    {range : SlotRange} {c : ConPtr} (hget : Cluster.getConnection q.key w = (.ret (range, c), w))
    (hc : w.contexts[c]? =
      some (Context.opened (τ.owner (keySlot q.key)).address.1 (τ.owner (keySlot q.key)).address.2)) :
    ∃ a net, runNodes fn V τ q.object.process (Net.start w done) =
        (.ret (.object a (V.answer done (q.execution τ))), net) ∧ a ∉ net.client.freed ∧
      net.executed = done ++ [q.execution τ] ∧ InService base t net.client.cluster ∧
      net.client.cluster.cluster.moved_ = w.cluster.moved_ := by
  have hreceive := V.receive_unasked done τ q (τ.owner (keySlot q.key)).address
  rw [if_pos rfl] at hreceive
  cases hmig : τ.migrated q.key with
  | none =>
    rw [hmig] at hreceive
    rw [← q.execution_owner hmig] at hreceive
    obtain ⟨hready, hdown⟩ := V.plain done (q.execution τ)
    exact ⟨0, _, process_first fn hget hc hreceive hdown hready, List.not_mem_nil, rfl, h, rfl⟩
  | some n =>
    rw [hmig] at hreceive
    obtain ⟨key, c', w', hcreate, hc', hservice, hmoved⟩ := h.redirect hf n true (keySlot q.key)
    have hasked := V.receive_asked done hmig
    rw [← q.execution_migrated hmig] at hasked
    have hrun := process_first fn hget hc hreceive (n.mentionsClusterDown_redirection true _)
      (n.redirection true (keySlot q.key)).parsed
    exact ⟨2, _, hrun.trans (processAsk_received hcreate hc' _ hasked (V.plain done _).2), show 2 ∉ [1, 0] by decide, rfl,
      hservice, hmoved⟩

/-- The node of the table does not serve the slot any more: `MOVED` leads to the one that does, and what it answers is
returned, also when it is `ASK`. -/
private theorem InService.process_stale (h : InService base t w) (hf : FreshHealthy fn) (hm : LeavesClusterAlone fn)
    (hr : CallbackReturns fn) (done : List Execution) {range : SlotRange} {c : ConPtr} {node : Bytes × Int32}
    (hget : Cluster.getConnection q.key w = (.ret (range, c), w))
    (hc : w.contexts[c]? = some (Context.opened node.1 node.2)) (hne : node ≠ (τ.owner (keySlot q.key)).address) :
    ∃ a r net, runNodes fn V τ q.object.process (Net.start w done) = (.ret (.object a r), net) ∧
      a ∉ net.client.freed ∧ (r, net.executed) = V.receive τ (τ.owner (keySlot q.key)).address false q.cmd done ∧
      InService base t net.client.cluster ∧ net.client.cluster.cluster.moved_ = true := by
  have hreceive := V.receive_unasked done τ q node
  rw [if_neg hne] at hreceive
  obtain ⟨key, c', w', hcreate, hc', hservice, -⟩ := h.redirect hf (τ.owner (keySlot q.key)) false (keySlot q.key)
  obtain ⟨w'', hmoved, hservice', hflag⟩ := hservice.moved hm hr
  have hrun := process_first fn hget hc hreceive ((τ.owner _).mentionsClusterDown_redirection false _)
    ((τ.owner (keySlot q.key)).redirection false (keySlot q.key)).parsed
  exact ⟨1, _, _, hrun.trans (processMoved_received hcreate hc' hmoved _ rfl), show 1 ∉ [0] by decide, rfl, hservice',
    hflag⟩

variable (V) in
/-- One command of a session does what is due, and the announcement of a redirection tells whether the table is
stale; the reply is left for the user to free. -/
theorem InService.step (h : InService base t w) (hf : FreshHealthy fn) (hm : LeavesClusterAlone fn)
    (hr : CallbackReturns fn) (done : List Execution) (e : Command V × Topology) :
    Session.reply fn V ⟨w, done⟩ e = V.due t done e.1 e.2 ∧
      (Session.exec fn V ⟨w, done⟩ e).executed = V.executed t done e.1 e.2 ∧
      InService base t (Session.exec fn V ⟨w, done⟩ e).world ∧
      (Session.exec fn V ⟨w, done⟩ e).world.cluster.moved_ = (w.cluster.moved_ || e.2.stale t e.1.key) ∧
      ∀ a r, (Session.process fn V ⟨w, done⟩ e).1 = .ret (.object a r) →
        a ∉ (Session.process fn V ⟨w, done⟩ e).2.client.freed := by
  obtain ⟨q, τ⟩ := e
  unfold Session.reply Session.exec Session.process Servers.due Servers.executed Topology.reaches Topology.stale
  dsimp only
  rcases h.getConnection q with ⟨howner, hget⟩ | ⟨e, range, c, howner, hget, hc⟩
  · have hrun : runNodes fn V τ q.object.process (Net.start w done) =
        (.throws (.cluster .nodeSearch), Net.start w done) := by
      refine Program.run_of_throws _ (runNodes_call (c := .getConnection q.key) rfl ?_) _
      show ((Cluster.getConnection q.key w).1, SyncWorld.start (Cluster.getConnection q.key w).2) = _
      rw [hget]
    rw [hrun, howner]
    exact ⟨rfl, rfl, h, (Bool.or_false _).symm, fun a r hr => nomatch hr⟩
  · rw [howner]
    by_cases haddress : e.address = (τ.owner (keySlot q.key)).address
    · rw [haddress] at hc
      obtain ⟨a, net, hrun, hfreed, hdone, hservice, hmoved⟩ := h.process_fresh hf done hget hc
      rw [hrun]
      simp only [haddress, hdone, hmoved]
      exact ⟨by simp [ReplyPtr.object?, Outcome.bind], by simp, hservice, by simp, by simpa using hfreed⟩
    · obtain ⟨a, r, net, hrun, hfreed, hreceived, hservice, hmoved⟩ := h.process_stale hf hm hr done hget hc haddress
      rw [V.receive_unasked, if_pos rfl] at hreceived
      rw [hrun]
      cases hmig : τ.migrated q.key with
      | none =>
        rw [hmig] at hreceived
        obtain ⟨rfl, hdone⟩ := Prod.mk.inj hreceived
        refine ⟨?_, ?_, hservice, ?_, by simpa using hfreed⟩
        · simp [ReplyPtr.object?, Outcome.bind, Command.execution, Topology.holder, hmig]
        · simp [hdone, Command.execution, Topology.holder, hmig]
        · simp [hmoved, haddress]
      | some n =>
        rw [hmig] at hreceived
        obtain ⟨rfl, hdone⟩ := Prod.mk.inj hreceived
        refine ⟨?_, ?_, hservice, ?_, by simpa using hfreed⟩
        · simp [ReplyPtr.object?, Outcome.bind, Topology.holder, hmig, haddress]
        · simp [hdone, haddress]
        · simp [hmoved, haddress]

variable (V) in
/-- A session from any state in service. -/
private theorem InService.session (hf : FreshHealthy fn) (hm : LeavesClusterAlone fn) (hr : CallbackReturns fn)
    (events : List (Command V × Topology)) {s : Session ρ} (h : InService base t s.world) :
    (after (Session.exec fn V) s events).executed =
        s.executed ++ (events.filter fun e => e.2.reaches t e.1.key).map (fun e => e.1.execution e.2) ∧
      (after (Session.exec fn V) s events).world.cluster.moved_ =
        (s.world.cluster.moved_ || events.any fun e => e.2.stale t e.1.key) ∧
      ∀ p ∈ trail (Session.exec fn V) s events, p.1.reply fn V p.2 = V.due t p.1.executed p.2.1 p.2.2 := by
  induction events generalizing s with
  | nil => exact ⟨(List.append_nil _).symm, (Bool.or_false _).symm, fun p hp => absurd hp List.not_mem_nil⟩
  | cons e events ih =>
    obtain ⟨hreply, hdone, hservice, hmoved, -⟩ := h.step V hf hm hr s.executed e
    obtain ⟨hexecuted, hflag, hreplies⟩ := ih hservice
    refine ⟨?_, ?_, ?_⟩
    · show (after (Session.exec fn V) (s.exec fn V e) events).executed = _
      rw [hexecuted, hdone, Servers.executed, List.filter_cons]
      split
      · rw [List.map_cons, List.append_assoc, List.singleton_append]
      · rfl
    · show (after (Session.exec fn V) (s.exec fn V e) events).world.cluster.moved_ = _
      rw [hflag, hmoved, List.any_cons, Bool.or_assoc]
    · intro p hp
      rcases List.mem_cons.1 hp with rfl | hp
      · exact hreply
      · exact hreplies p hp

variable (V) in
/-- Whatever slots and keys move between the commands of a client that never asks for the slot table again, among nodes
that redirect as `Servers.receive` says: every command for which one redirection is enough is executed once, by the node
that holds its key then, and in the order of the commands; no other command is executed; every user gets the reply that is
due; and `isMoved` tells whether a command has met a node that does not serve its slot any more.  The connects are fresh
and healthy, and the moved callback returns and leaves the cluster alone. -/
theorem commands_served (hf : FreshHealthy fn) (hm : LeavesClusterAlone fn) (hr : CallbackReturns fn) (t : SlotsTable)
    {reply : RedisReply} (ht : t.Encodes reply) {w₀ : World ρ} {a : Nat} (ha : a ∉ w₀.freed) (given : Bool)
    (events : List (Command V × Topology)) :
    ∃ w₁, (do Cluster.construct fn (.object a reply); Cluster.setMovedCb given) w₀ = (.ret (), w₁) ∧
      (after (Session.exec fn V) ⟨w₁, []⟩ events).executed =
        (events.filter fun e => e.2.reaches t e.1.key).map (fun e => e.1.execution e.2) ∧
      (Cluster.isMoved (after (Session.exec fn V) ⟨w₁, []⟩ events).world).1 =
        .ret (events.any fun e => e.2.stale t e.1.key) ∧
      ∀ p ∈ trail (Session.exec fn V) ⟨w₁, []⟩ events, p.1.reply fn V p.2 = V.due t p.1.executed p.2.1 p.2.2 := by
  obtain ⟨w, hrun, hconstructed, hmoved⟩ := construct_inService hf t ht ha
  let w₁ := w.updCluster fun c => { c with userMovedFn_ := given }
  have hservice : InService w₀.contexts t w₁ := hconstructed.of_eq rfl rfl rfl rfl
  obtain ⟨hexecuted, hflag, hreplies⟩ := InService.session V hf hm hr events (s := ⟨w₁, []⟩) hservice
  refine ⟨w₁, Code.bind_of_ret hrun _, hexecuted, ?_, hreplies⟩
  rw [show w₁.cluster.moved_ = false from hmoved, Bool.false_or] at hflag
  exact congrArg Outcome.ret hflag

end runs

theorem twoNodes_encodes : twoNodes.Encodes twoNodesReply := by
  refine ⟨_, rfl, rfl, fun i e he => ?_⟩
  exact ⟨_, by rw [List.getElem?_map, he]; rfl, [], [], rfl⟩

/-- The node `10.0.0.i` with the port `6999 + i`. -/
def nodeNumber (i : Fin 4) : Node where
  host := text "10.0.0." ++ [0x30 + UInt8.ofNat i]
  port := 6999 + i
  colonFree := by revert i; decide +kernel
  nulFree := by revert i; decide +kernel
  downFree := by revert i; decide +kernel
  hostFits := by revert i; decide +kernel
  portFits := by omega

/-- Nodes that count the commands they execute. -/
def counting : Servers where
  keyOf cmd := cmd.drop 4
  answer done _ := .integer (Int64.ofNat done.length)
  plain _ _ := ⟨rfl, rfl⟩

def getFooCommand : Command counting where
  key := text "foo"
  cmd := text "GET foo"
  about := by decide
  short := by decide

private theorem address_nodeNumber_inj :
    ∀ i j, (nodeNumber i).address = (nodeNumber j).address → i = j := by decide +kernel

/-- The upper half of the slots is at one node, and all keys of it may have been handed on to another. -/
def upperAt (i : Fin 4) (handedOn : Option (Fin 4)) : Topology where
  owner slot := nodeNumber (if slot < 8192 then 1 else i)
  migrated key := if keySlot key < 8192 then none else (handedOn.filter (· ≠ i)).map nodeNumber
  away := by
    intro key n hn
    split at hn
    · cases hn
    · rename_i hslot
      obtain ⟨j, hj, rfl⟩ := Option.map_eq_some_iff.1 hn
      rw [if_neg hslot]
      intro haddress
      have hne := (Option.filter_eq_some_iff.1 hj).2
      rw [address_nodeNumber_inj j i haddress] at hne
      simp at hne

private theorem second_away {n : Node} (h : some (nodeNumber 2) = some n) : n.address ≠ (nodeNumber 1).address := by
  cases h
  exact fun h => absurd (address_nodeNumber_inj _ _ h) (by decide)

/-- All slots are at one node, which has handed on all keys to another. -/
def handedOn : Topology where
  owner _ := nodeNumber 1
  migrated _ := some (nodeNumber 2)
  away _ _ := second_away

/-- The slot of `foo` goes from the second node to the third, and the key then on to the first. -/
def moving : List (Command counting × Topology) :=
  [upperAt 2 none, upperAt 2 (some 3), upperAt 3 none, upperAt 3 (some 1)].map fun τ => (getFooCommand, τ)

/-- The last command of the four would have to follow two redirections. -/
theorem commands_served_moving :
    ∃ w₁, (do Cluster.construct healthyFunctions (.object 0 twoNodesReply); Cluster.setMovedCb true)
        ⟨Cluster.initial, [], 1, [], ()⟩ = (.ret (), w₁) ∧
      (after (Session.exec healthyFunctions counting) ⟨w₁, []⟩ moving).executed =
        [⟨(text "10.0.0.2", 7001), text "GET foo"⟩, ⟨(text "10.0.0.3", 7002), text "GET foo"⟩,
          ⟨(text "10.0.0.3", 7002), text "GET foo"⟩] := by
  have hm : LeavesClusterAlone healthyFunctions := fun w => ⟨rfl, rfl⟩
  have hfree : 0 ∉ (⟨Cluster.initial, [], 1, [], ()⟩ : World Unit).freed := by decide
  obtain ⟨w₁, hrun, hexecuted, -⟩ := commands_served counting healthyFunctions_fresh hm (fun _ => rfl) twoNodes
    twoNodes_encodes hfree true moving
  refine ⟨w₁, hrun, ?_⟩
  rw [hexecuted]
  decide +kernel

end HiredisCluster
