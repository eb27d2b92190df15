import HiredisCluster.HiredisCommand

/-!
# The courses of `process`

`Course` lists the ways in which `process` can go: how it ends, the cluster it leaves and the calls it has made, as they
follow from what the cluster and the servers answer.  `process_course` says that there are no others.
-/

namespace HiredisCluster

open Cxx HiredisCommand

abbrev SyncLog := List (Program.Answered syncInterface Exn)

variable {σ : Type} (ops : ClusterOps σ) (replies : Nat → Option RedisReply)

/-- A program of the synchronous client, with a log of its calls. -/
def runSync {α : Type} (p : Sync α) : Code (SyncWorld σ × SyncLog) Exn α :=
  Program.run (Program.logged (handler ops replies)) p

/-- The calls with which a command is sent and its reply read. -/
def requestLog (con : ConPtr) (cmd : Bytes) (answer : Option (Nat × RedisReply)) : SyncLog :=
  [⟨.redisAppendFormattedCommand con (some cmd), .ret .ok⟩, ⟨.redisGetReply con, .ret answer⟩]

/-! ### Single functions -/

section functions

variable {ops replies} {α β : Type} {w w' : SyncWorld σ} {log : SyncLog}

private theorem runSync_of_ret {p : Sync α} {x y : SyncWorld σ × SyncLog} {a : α}
    (hp : runSync ops replies p x = (.ret a, y))
    (f : α → Sync β) : runSync ops replies (p >>= f) x = runSync ops replies (f a) y := Program.run_of_ret _ hp f

private theorem runSync_of_throws {p : Sync α} {x y : SyncWorld σ × SyncLog} {e : Exn}
    (hp : runSync ops replies p x = (.throws e, y)) (f : α → Sync β) :
    runSync ops replies (p >>= f) x = (.throws e, y) := Program.run_of_throws _ hp f

private theorem runSync_of_undefined {p : Sync α} {x y : SyncWorld σ × SyncLog}
    (hp : runSync ops replies p x = (.undefined, y)) (f : α → Sync β) :
    runSync ops replies (p >>= f) x = (.undefined, y) := Program.run_of_undefined _ hp f

/-- A call and its entry in the log. -/
private theorem runSync_sync {c : SyncCall} {o : Outcome Exn c.Result} (h : handler ops replies c w = (o, w')) :
    runSync ops replies (sync c) (w, log) = (o, w', log ++ [⟨c, o⟩]) := by
  have hrun : runSync ops replies (sync c) = Program.logged (handler ops replies) c :=
    Program.run_perform (I := syncInterface) _ c
  rw [hrun]
  exact Program.logged_of_eq h log

private theorem runSync_readReply {a : Nat} (h : a ∉ w.freed) (r : RedisReply) :
    runSync ops replies (readReply (.object a r)) (w, log) =
      (.ret r, w, log ++ [⟨.readReply (.object a r), .ret r⟩]) := by
  apply runSync_sync
  show (if a ∈ w.freed then _ else _) = _
  rw [if_neg h]

private theorem runSync_free {a : Nat} (h : a ∉ w.freed) (r : RedisReply) :
    runSync ops replies (freeReplyObject (.object a r)) (w, log) =
      (.ret (), { w with freed := a :: w.freed }, log ++ [⟨.freeReplyObject (.object a r), .ret ()⟩]) := by
  apply runSync_sync
  show (if a ∈ w.freed then _ else _) = _
  rw [if_neg h]

/-- The command is sent and the server answers. -/
private theorem processHiredisCommand_answered {this : HiredisCommand} {cmd : Bytes} (hcmd : this.cmd_ = some cmd)
    {con : ConPtr} (he : w.errOf ops con = none) {r : RedisReply} (hr : replies w.sent = some r) :
    runSync ops replies (this.processHiredisCommand con) (w, log) =
      (.ret (.object w.sent r), { w with sent := w.sent + 1 }, log ++ requestLog con cmd (some (w.sent, r))) := by
  have happend : handler ops replies (.redisAppendFormattedCommand con this.cmd_) w = (.ret .ok, w) := by
    rw [hcmd]
    rfl
  have hget : handler ops replies (.redisGetReply con) w =
      (.ret (some (w.sent, r)), { w with sent := w.sent + 1 }) := by
    simp only [handler, exchange, he, hr]
  refine (runSync_of_ret (runSync_sync happend) _).trans ((runSync_of_ret (runSync_sync hget) _).trans ?_)
  rw [hcmd, List.append_assoc]
  rfl

/-- The command is sent and the connection fails. -/
private theorem processHiredisCommand_lost {this : HiredisCommand} {cmd : Bytes} (hcmd : this.cmd_ = some cmd)
    (con : ConPtr) (hr : w.errOf ops con = none → replies w.sent = none) :
    ∃ w', w'.cluster = w.cluster ∧ w'.freed = w.freed ∧ (w'.errOf ops con).isSome = true ∧
      ∀ log, runSync ops replies (this.processHiredisCommand con) (w, log) =
        (.ret .unset, w', log ++ requestLog con cmd none) := by
  have happend : handler ops replies (.redisAppendFormattedCommand con this.cmd_) w = (.ret .ok, w) := by
    rw [hcmd]
    rfl
  have hrun (w' : SyncWorld σ) (hget : handler ops replies (.redisGetReply con) w = (.ret none, w')) (log : SyncLog) :
      runSync ops replies (this.processHiredisCommand con) (w, log) =
        (.ret .unset, w', log ++ requestLog con cmd none) := by
    refine (runSync_of_ret (runSync_sync happend) _).trans ((runSync_of_ret (runSync_sync hget) _).trans ?_)
    rw [hcmd, List.append_assoc]
    rfl
  cases he : w.errOf ops con with
  | some errstr =>
    refine ⟨w, rfl, rfl, by rw [he]; rfl, hrun w ?_⟩
    simp only [handler, exchange, he]
  | none =>
    refine ⟨{ w with sent := w.sent + 1, failed := con :: w.failed }, rfl, rfl, ?_, hrun _ ?_⟩
    · unfold SyncWorld.errOf
      split
      · rfl
      · rw [if_pos (List.mem_cons_self ..)]
        rfl
    · simp only [handler, exchange, he, hr he]

/-- A command that was not formatted. -/
private theorem processHiredisCommand_unformatted {this : HiredisCommand} (hcmd : this.cmd_ = none) (con : ConPtr) :
    runSync ops replies (this.processHiredisCommand con) (w, log) =
      (.undefined, w, log ++ [⟨.redisAppendFormattedCommand con none, .undefined⟩]) := by
  have happend : handler ops replies (.redisAppendFormattedCommand con this.cmd_) w = (.undefined, w) := by
    rw [hcmd]
    rfl
  rw [← hcmd]
  exact runSync_of_undefined (runSync_sync happend) _

/-- The check of a connection that has failed. -/
private theorem checkCritical_disconnected {con : ConPtr} (h : (w.errOf ops con).isSome = true) (p : ReplyPtr)
    (critical free : Bool) (error : Bytes) :
    runSync ops replies (checkCritical p critical free error (some con)) (w, log) =
      (.throws (.cluster .disconnected), w, log ++ [⟨.err con, .ret true⟩]) := by
  have herr : handler ops replies (.err con) w = (.ret true, w) := by rw [← h]; rfl
  exact runSync_of_ret (runSync_sync herr) _

/-- The check of a connection without an error goes on with the reply. -/
private theorem checkCritical_connected {con : ConPtr} (h : w.errOf ops con = none) (p : ReplyPtr)
    (critical free : Bool) (error : Bytes) :
    runSync ops replies (checkCritical p critical free error (some con)) (w, log) =
      runSync ops replies (checkCritical p critical free error none) (w, log ++ [⟨.err con, .ret false⟩]) := by
  have herr : handler ops replies (.err con) w = (.ret false, w) := by
    show (Outcome.ret (w.errOf ops con).isSome, w) = _
    rw [h]
    rfl
  exact runSync_of_ret (runSync_sync herr) _

/-- What a check has done that throws: it has freed the reply. -/
def checkedLog (a : Nat) (r : RedisReply) : SyncLog :=
  [⟨.readReply (.object a r), .ret r⟩, ⟨.freeReplyObject (.object a r), .ret ()⟩]

/-- An error in answer to `ASKING` is critical. -/
private theorem checkCritical_refused {a : Nat} (h : a ∉ w.freed) {r : RedisReply} (hr : r.IsError) :
    runSync ops replies (checkCritical (.object a r) true true [] none) (w, log) =
      (.throws (.cluster (.logicError [])), { w with freed := a :: w.freed }, log ++ checkedLog a r) := by
  refine (runSync_of_ret (runSync_readReply h r) _).trans ?_
  rw [if_pos (show r.type = .error from hr), if_pos rfl]
  refine (runSync_of_ret (runSync_free h r) _).trans ?_
  rw [List.append_assoc]
  rfl

private theorem checkCritical_accepted {a : Nat} (h : a ∉ w.freed) {r : RedisReply} (hr : ¬ r.IsError) :
    runSync ops replies (checkCritical (.object a r) true true [] none) (w, log) =
      (.ret (), w, log ++ [⟨.readReply (.object a r), .ret r⟩]) := by
  refine (runSync_of_ret (runSync_readReply h r) _).trans ?_
  rw [if_neg (show ¬ r.type = .error from hr)]
  rfl

/-- An error that mentions `CLUSTERDOWN` is always critical. -/
private theorem checkCritical_down {a : Nat} (h : a ∉ w.freed) {r : RedisReply} (hr : r.mentionsClusterDown = true) :
    runSync ops replies (checkCritical (.object a r) false true [] none) (w, log) =
      (.throws (.cluster .clusterDown), { w with freed := a :: w.freed }, log ++ checkedLog a r) := by
  refine (runSync_of_ret (runSync_readReply h r) _).trans ?_
  cases r with
  | error str =>
    show runSync ops replies (if find (cStr str.bytes) (text "CLUSTERDOWN") 0 ≠ npos then
      raise (.object a (.error str)) .clusterDown else pure ()) _ = _
    rw [if_pos (decide_eq_true_iff.1 hr)]
    refine (runSync_of_ret (runSync_free h _) _).trans ?_
    rw [List.append_assoc]
    rfl
  | _ => cases hr

private theorem checkCritical_up {a : Nat} (h : a ∉ w.freed) {r : RedisReply} (hr : r.mentionsClusterDown = false) :
    runSync ops replies (checkCritical (.object a r) false true [] none) (w, log) =
      (.ret (), w, log ++ [⟨.readReply (.object a r), .ret r⟩]) := by
  refine (runSync_of_ret (runSync_readReply h r) _).trans ?_
  cases r with
  | error str =>
    show runSync ops replies (if find (cStr str.bytes) (text "CLUSTERDOWN") 0 ≠ npos then
      raise (.object a (.error str)) .clusterDown else pure ()) _ = _
    rw [if_neg (of_decide_eq_false hr)]
    rfl
  | _ => rfl

end functions

/-! ### Following a redirection -/

/-- The answer to the `n`-th message, which is sent on a connection without an error. -/
def answerOf (n : Nat) : Option (Nat × RedisReply) := (replies n).map fun r => (n, r)

/-- A reply as `processHiredisCommand` returns it. -/
def replyPtr : Option (Nat × RedisReply) → ReplyPtr
  | some (a, r) => .object a r
  | none => .unset

/-- The calls of `process` up to `processResult`, when nothing goes wrong. -/
def opening (this : HiredisCommand) (con : SlotConnection) (cmd : Bytes) (r : RedisReply) : SyncLog :=
  ⟨.getConnection this.key_, .ret con⟩ :: requestLog con.2 cmd (some (0, r)) ++
    [⟨.err con.2, .ret false⟩, ⟨.readReply (.object 0 r), .ret r⟩, ⟨.releaseSlotConnection con, .ret ()⟩,
      ⟨.readReply (.object 0 r), .ret r⟩]

/-- The calls after a redirection up to the check of the new connection. -/
def connecting (host port : Bytes) (hcon : HostConnection) (c : ConPtr) (err : Bool) : SyncLog :=
  [⟨.createNewConnection host port, .ret hcon⟩, ⟨.err c, .ret err⟩]

/-- `ASKING` is answered with `a`. -/
def askingLog (c : ConPtr) (a : RedisReply) : SyncLog :=
  [⟨.redisCommand c (text "ASKING"), .ret (some (1, a))⟩, ⟨.readReply (.object 1 a), .ret a⟩,
    ⟨.freeReplyObject (.object 1 a), .ret ()⟩]

/-- What `process` does from the state `s` on when it follows a redirection. -/
inductive Follows (this : HiredisCommand) (s : σ) (host port : Bytes) :
    ProcessState → Outcome Exn ReplyPtr → σ → SyncLog → Prop
  | thrown {state : ProcessState} {e : Exn} {s' : σ} (hs : state = .ask ∨ state = .moved)
      (h : ops.createNewConnection host port s = (.throws e, s')) :
      Follows this s host port state (.throws e) s' [⟨.createNewConnection host port, .throws e⟩]
  | undefined {state : ProcessState} {s' : σ} (hs : state = .ask ∨ state = .moved)
      (h : ops.createNewConnection host port s = (.undefined, s')) :
      Follows this s host port state .undefined s' [⟨.createNewConnection host port, .undefined⟩]
  | null {state : ProcessState} {key : Bytes} {s' : σ} (hs : state = .ask ∨ state = .moved)
      (h : ops.createNewConnection host port s = (.ret (key, none), s')) :
      Follows this s host port state
        (.throws (.cluster (.logicError (text "Can't connect while resolving asking state")))) s'
        [⟨.createNewConnection host port, .ret (key, none)⟩]
  | askBroken {key errstr : Bytes} {c : ConPtr} {s' : σ}
      (h : ops.createNewConnection host port s = (.ret (key, some c), s')) (he : ops.errstr c s' = some errstr) :
      Follows this s host port .ask
        (.throws (.cluster (.logicError ((ops.errstr c (ops.releaseHostConnection (key, some c) s')).getD []))))
        (ops.releaseHostConnection (key, some c) s')
        (connecting host port (key, some c) c true ++ [⟨.releaseHostConnection (key, some c), .ret ()⟩,
          ⟨.errstr c, .ret ((ops.errstr c (ops.releaseHostConnection (key, some c) s')).getD [])⟩])
  | movedBroken {key errstr : Bytes} {c : ConPtr} {s' : σ}
      (h : ops.createNewConnection host port s = (.ret (key, some c), s')) (he : ops.errstr c s' = some errstr) :
      Follows this s host port .moved (.throws (.cluster (.logicError errstr))) s'
        (connecting host port (key, some c) c true ++ [⟨.errstr c, .ret errstr⟩])
  | askingLost {key : Bytes} {c : ConPtr} {s' : σ}
      (h : ops.createNewConnection host port s = (.ret (key, some c), s')) (he : ops.errstr c s' = none)
      (ha : replies 1 = none) :
      Follows this s host port .ask .undefined s' (connecting host port (key, some c) c false ++
        [⟨.redisCommand c (text "ASKING"), .ret none⟩, ⟨.readReply .null, .undefined⟩])
  | askingRefused {key : Bytes} {c : ConPtr} {s' : σ} {a : RedisReply}
      (h : ops.createNewConnection host port s = (.ret (key, some c), s')) (he : ops.errstr c s' = none)
      (ha : replies 1 = some a) (hr : a.IsError) :
      Follows this s host port .ask (.throws (.cluster (.logicError []))) s'
        (connecting host port (key, some c) c false ++ askingLog c a)
  | askLost {key cmd : Bytes} {c : ConPtr} {s' : σ} {a : RedisReply} (hcmd : this.cmd_ = some cmd)
      (h : ops.createNewConnection host port s = (.ret (key, some c), s')) (he : ops.errstr c s' = none)
      (ha : replies 1 = some a) (hok : ¬ a.IsError) (hr : replies 2 = none) :
      Follows this s host port .ask .undefined s'
        (connecting host port (key, some c) c false ++ askingLog c a ++ requestLog c cmd none ++
          [⟨.readReply .unset, .undefined⟩])
  | askDown {key cmd : Bytes} {c : ConPtr} {s' : σ} {a r : RedisReply} (hcmd : this.cmd_ = some cmd)
      (h : ops.createNewConnection host port s = (.ret (key, some c), s')) (he : ops.errstr c s' = none)
      (ha : replies 1 = some a) (hok : ¬ a.IsError) (hr : replies 2 = some r) (hdown : r.mentionsClusterDown = true) :
      Follows this s host port .ask (.throws (.cluster .clusterDown)) s'
        (connecting host port (key, some c) c false ++ askingLog c a ++ requestLog c cmd (some (2, r)) ++
          [⟨.readReply (.object 2 r), .ret r⟩, ⟨.freeReplyObject (.object 2 r), .ret ()⟩])
  | asked {key cmd : Bytes} {c : ConPtr} {s' : σ} {a r : RedisReply} (hcmd : this.cmd_ = some cmd)
      (h : ops.createNewConnection host port s = (.ret (key, some c), s')) (he : ops.errstr c s' = none)
      (ha : replies 1 = some a) (hok : ¬ a.IsError) (hr : replies 2 = some r) (hdown : r.mentionsClusterDown = false) :
      Follows this s host port .ask (.ret (.object 2 r)) (ops.releaseHostConnection (key, some c) s')
        (connecting host port (key, some c) c false ++ askingLog c a ++ requestLog c cmd (some (2, r)) ++
          [⟨.readReply (.object 2 r), .ret r⟩, ⟨.releaseHostConnection (key, some c), .ret ()⟩])
  | movedThrown {key cmd : Bytes} {c : ConPtr} {s' s'' : σ} {e : Exn} (hcmd : this.cmd_ = some cmd)
      (h : ops.createNewConnection host port s = (.ret (key, some c), s')) (he : ops.errstr c s' = none)
      (hm : ops.moved s' = (.throws e, s'')) :
      Follows this s host port .moved (.throws e) s''
        (connecting host port (key, some c) c false ++ requestLog c cmd (answerOf replies 1) ++ [⟨.moved, .throws e⟩])
  | movedUndefined {key cmd : Bytes} {c : ConPtr} {s' s'' : σ} (hcmd : this.cmd_ = some cmd)
      (h : ops.createNewConnection host port s = (.ret (key, some c), s')) (he : ops.errstr c s' = none)
      (hm : ops.moved s' = (.undefined, s'')) :
      Follows this s host port .moved .undefined s''
        (connecting host port (key, some c) c false ++ requestLog c cmd (answerOf replies 1) ++ [⟨.moved, .undefined⟩])
  | moved {key cmd : Bytes} {c : ConPtr} {s' s'' : σ} (hcmd : this.cmd_ = some cmd)
      (h : ops.createNewConnection host port s = (.ret (key, some c), s')) (he : ops.errstr c s' = none)
      (hm : ops.moved s' = (.ret (), s'')) :
      Follows this s host port .moved (.ret (replyPtr (answerOf replies 1)))
        (ops.releaseHostConnection (key, some c) s'')
        (connecting host port (key, some c) c false ++ requestLog c cmd (answerOf replies 1) ++
          [⟨.moved, .ret ()⟩, ⟨.releaseHostConnection (key, some c), .ret ()⟩])

/-- Only redirections are followed. -/
theorem Follows.state_cases {ops : ClusterOps σ} {replies : Nat → Option RedisReply} {this : HiredisCommand} {s s' : σ}
    {host port : Bytes} {state : ProcessState} {o : Outcome Exn ReplyPtr} {log : SyncLog}
    (h : Follows ops replies this s host port state o s' log) : state = .ask ∨ state = .moved := by
  cases h with
  | thrown hs h => exact hs
  | undefined hs h => exact hs
  | null hs h => exact hs
  | _ => simp

/-- The courses of `process` from the state `s` on. -/
inductive Course (this : HiredisCommand) (s : σ) : Outcome Exn ReplyPtr → σ → SyncLog → Prop
  | unrouted {e : Exn} {s' : σ} (h : ops.getConnection this.key_ s = (.throws e, s')) :
      Course this s (.throws e) s' [⟨.getConnection this.key_, .throws e⟩]
  | unhashed {s' : σ} (h : ops.getConnection this.key_ s = (.undefined, s')) :
      Course this s .undefined s' [⟨.getConnection this.key_, .undefined⟩]
  | unformatted {con : SlotConnection} {s' : σ} (h : ops.getConnection this.key_ s = (.ret con, s'))
      (hcmd : this.cmd_ = none) :
      Course this s .undefined s' [⟨.getConnection this.key_, .ret con⟩,
        ⟨.redisAppendFormattedCommand con.2 none, .undefined⟩]
  | lost {con : SlotConnection} {s' : σ} {cmd : Bytes} (h : ops.getConnection this.key_ s = (.ret con, s'))
      (hcmd : this.cmd_ = some cmd) (hlost : ops.errstr con.2 s' = none → replies 0 = none) :
      Course this s (.throws (.cluster .disconnected)) s'
        (⟨.getConnection this.key_, .ret con⟩ :: requestLog con.2 cmd none ++ [⟨.err con.2, .ret true⟩])
  | down {con : SlotConnection} {s' : σ} {cmd : Bytes} {r : RedisReply}
      (h : ops.getConnection this.key_ s = (.ret con, s')) (hcmd : this.cmd_ = some cmd)
      (he : ops.errstr con.2 s' = none) (hr : replies 0 = some r) (hdown : r.mentionsClusterDown = true) :
      Course this s (.throws (.cluster .clusterDown)) s'
        (⟨.getConnection this.key_, .ret con⟩ :: requestLog con.2 cmd (some (0, r)) ++ [⟨.err con.2, .ret false⟩,
          ⟨.readReply (.object 0 r), .ret r⟩, ⟨.freeReplyObject (.object 0 r), .ret ()⟩])
  | ready {con : SlotConnection} {s' : σ} {cmd : Bytes} {r : RedisReply}
      (h : ops.getConnection this.key_ s = (.ret con, s')) (hcmd : this.cmd_ = some cmd)
      (he : ops.errstr con.2 s' = none) (hr : replies 0 = some r) (hdown : r.mentionsClusterDown = false)
      (hres : processResult r = .ret (.ready, [], [])) :
      Course this s (.ret (.object 0 r)) (ops.releaseSlotConnection con s') (opening this con cmd r)
  | redirected {con : SlotConnection} {s' s'' : σ} {cmd host port : Bytes} {r : RedisReply} {state : ProcessState}
      {o : Outcome Exn ReplyPtr} {log : SyncLog} (h : ops.getConnection this.key_ s = (.ret con, s'))
      (hcmd : this.cmd_ = some cmd) (he : ops.errstr con.2 s' = none) (hr : replies 0 = some r)
      (hdown : r.mentionsClusterDown = false) (hres : processResult r = .ret (state, host, port))
      (hf : Follows ops replies this (ops.releaseSlotConnection con s') host port state o s'' log) :
      Course this s o s'' (opening this con cmd r ++ ⟨.freeReplyObject (.object 0 r), .ret ()⟩ :: log)

/-! ### There are no other courses -/

section courses

variable {ops replies} {this : HiredisCommand} {s : σ}

/-- Asking for the connection that a redirection names, after the reply was freed. -/
private theorem runSync_createNewConnection {w : SyncWorld σ} {host port : Bytes} {o : Outcome Exn HostConnection}
    {s' : σ} (h : ops.createNewConnection host port w.cluster = (o, s')) (log : SyncLog) :
    runSync ops replies (sync (.createNewConnection host port)) (w, log) =
      (o, { w with cluster := s' }, log ++ [⟨.createNewConnection host port, o⟩]) := by
  apply runSync_sync
  show ((ops.createNewConnection host port w.cluster).1,
    { w with cluster := (ops.createNewConnection host port w.cluster).2 }) = _
  rw [h]

/-- `con->err`. -/
private theorem runSync_err (w : SyncWorld σ) (c : ConPtr) (log : SyncLog) :
    runSync ops replies (sync (.err c)) (w, log) =
      (.ret (w.errOf ops c).isSome, w, log ++ [⟨.err c, .ret (w.errOf ops c).isSome⟩]) :=
  runSync_sync rfl

private theorem errOf_of_failed_nil {w : SyncWorld σ} (hf : w.failed = []) (c : ConPtr) :
    w.errOf ops c = ops.errstr c w.cluster := by
  unfold SyncWorld.errOf
  rw [hf]
  cases ops.errstr c w.cluster <;> simp

variable (ops replies this s) in
/-- The start of both redirection cases: the calls that end them without a healthy connection. -/
private theorem follow_connection {state : ProcessState} (hs : state = .ask ∨ state = .moved) (r : RedisReply)
    (host port : Bytes) (connected broken : HostConnection → ConPtr → Sync ReplyPtr) (log : SyncLog) :
    (∃ o w' l, runSync ops replies (do
        freeReplyObject (.object 0 r)
        let hcon ← sync (.createNewConnection host port)
        match hcon.2 with
        | some c => if ← sync (.err c) then broken hcon c else connected hcon c
        | none => raise .null (.logicError (text "Can't connect while resolving asking state")))
          ({ cluster := s, sent := 1, failed := [], freed := [] }, log) =
        (o, w', log ++ ⟨.freeReplyObject (.object 0 r), .ret ()⟩ :: l) ∧
        Follows ops replies this s host port state o w'.cluster l) ∨
      ∃ key c s', ops.createNewConnection host port s = (.ret (key, some c), s') ∧ runSync ops replies (do
        freeReplyObject (.object 0 r)
        let hcon ← sync (.createNewConnection host port)
        match hcon.2 with
        | some c => if ← sync (.err c) then broken hcon c else connected hcon c
        | none => raise .null (.logicError (text "Can't connect while resolving asking state")))
          ({ cluster := s, sent := 1, failed := [], freed := [] }, log) =
        runSync ops replies (if (ops.errstr c s').isSome then broken (key, some c) c else connected (key, some c) c)
          ({ cluster := s', sent := 1, failed := [], freed := [0] },
            log ++ ⟨.freeReplyObject (.object 0 r), .ret ()⟩ :: connecting host port (key, some c) c
              (ops.errstr c s').isSome) := by
  let w₀ : SyncWorld σ := { cluster := s, sent := 1, failed := [], freed := [] }
  let w₁ : SyncWorld σ := { cluster := s, sent := 1, failed := [], freed := [0] }
  have hfree : runSync ops replies (freeReplyObject (.object 0 r)) (w₀, log) =
      (.ret (), w₁, log ++ [⟨.freeReplyObject (.object 0 r), .ret ()⟩]) := runSync_free List.not_mem_nil r
  rcases hcreate : ops.createNewConnection host port s with ⟨o, s'⟩
  have hcall : runSync ops replies (sync (.createNewConnection host port))
      (w₁, log ++ [⟨.freeReplyObject (.object 0 r), .ret ()⟩]) = (o, { w₁ with cluster := s' },
        log ++ [⟨.freeReplyObject (.object 0 r), .ret ()⟩] ++ [⟨.createNewConnection host port, o⟩]) :=
    runSync_createNewConnection hcreate _
  rw [List.append_assoc] at hcall
  cases o with
  | throws e =>
    left
    exact ⟨_, _, _, (runSync_of_ret hfree _).trans (runSync_of_throws hcall _), .thrown hs hcreate⟩
  | undefined =>
    left
    exact ⟨_, _, _, (runSync_of_ret hfree _).trans (runSync_of_undefined hcall _), .undefined hs hcreate⟩
  | ret hcon =>
    obtain ⟨key, c⟩ := hcon
    cases c with
    | none =>
      left
      exact ⟨_, _, _, (runSync_of_ret hfree _).trans ((runSync_of_ret hcall _).trans rfl), .null hs hcreate⟩
    | some c =>
      right
      refine ⟨key, c, s', rfl, (runSync_of_ret hfree _).trans ((runSync_of_ret hcall _).trans ?_)⟩
      refine (runSync_of_ret (runSync_err _ c _) _).trans ?_
      rw [errOf_of_failed_nil rfl, List.append_assoc]
      rfl

/-- `ASKING` on a connection without an error. -/
private theorem asking_answered {w : SyncWorld σ} {c : ConPtr} (he : w.errOf ops c = none) {a : RedisReply}
    (ha : replies w.sent = some a) (log : SyncLog) :
    runSync ops replies (asking c) (w, log) = (.ret (.object w.sent a), { w with sent := w.sent + 1 },
      log ++ [⟨.redisCommand c (text "ASKING"), .ret (some (w.sent, a))⟩]) := by
  have hcommand : handler ops replies (.redisCommand c (text "ASKING")) w =
      (.ret (some (w.sent, a)), { w with sent := w.sent + 1 }) := by
    simp only [handler, exchange, he, ha]
  exact runSync_of_ret (runSync_sync hcommand) _

private theorem asking_lost {w : SyncWorld σ} {c : ConPtr} (he : w.errOf ops c = none) (ha : replies w.sent = none)
    (log : SyncLog) :
    runSync ops replies (asking c) (w, log) = (.ret .null, { w with sent := w.sent + 1, failed := c :: w.failed },
      log ++ [⟨.redisCommand c (text "ASKING"), .ret none⟩]) := by
  have hcommand : handler ops replies (.redisCommand c (text "ASKING")) w =
      (.ret none, { w with sent := w.sent + 1, failed := c :: w.failed }) := by
    simp only [handler, exchange, he, ha]
  exact runSync_of_ret (runSync_sync hcommand) _

/-- Reading a null or unset reply. -/
private theorem checkCritical_undefined {w : SyncWorld σ} {p : ReplyPtr} (hp : p = .null ∨ p = .unset) (critical : Bool)
    (log : SyncLog) :
    runSync ops replies (checkCritical p critical true [] none) (w, log) =
      (.undefined, w, log ++ [⟨.readReply p, .undefined⟩]) := by
  have hread : handler ops replies (.readReply p) w = (.undefined, w) := by rcases hp with rfl | rfl <;> rfl
  exact runSync_of_undefined (runSync_sync hread) _

section follow

variable {cmd host port key : Bytes} {c : ConPtr} {s' : σ} (hcmd : this.cmd_ = some cmd)
  (hcreate : ops.createNewConnection host port s = (.ret (key, some c), s'))

/-- What the case `ASK` does with a connection that has an error. -/
def askBroken (hcon : HostConnection) (c : ConPtr) : Sync ReplyPtr := do
  sync (.releaseHostConnection hcon)
  let errstr ← sync (.errstr c)
  raise .null (.logicError errstr)

/-- What the case `ASK` does after `ASKING` was accepted. -/
def askAccepted (this : HiredisCommand) (hcon : HostConnection) (c : ConPtr) : Sync ReplyPtr := do
  let reply ← this.processHiredisCommand c
  checkCritical reply false true [] none
  sync (.releaseHostConnection hcon)
  return reply

/-- What the case `ASK` does with a connection that has no error. -/
def askConnected (this : HiredisCommand) (hcon : HostConnection) (c : ConPtr) : Sync ReplyPtr := do
  let reply ← asking c
  checkCritical reply true true [] none
  freeReplyObject reply
  askAccepted this hcon c

/-- What the case `MOVED` does with a connection that has an error. -/
def movedBroken (_ : HostConnection) (c : ConPtr) : Sync ReplyPtr := do
  let errstr ← sync (.errstr c)
  raise .null (.logicError errstr)

/-- What the case `MOVED` does with a connection that has no error. -/
def movedConnected (this : HiredisCommand) (hcon : HostConnection) (c : ConPtr) : Sync ReplyPtr := do
  let reply ← this.processHiredisCommand c
  sync .moved
  sync (.releaseHostConnection hcon)
  return reply

include hcreate

variable (ops replies this) in
private theorem askBroken_follows {errstr : Bytes} (he : ops.errstr c s' = some errstr) (log : SyncLog) :
    ∃ o w' l, runSync ops replies (askBroken (key, some c) c) ({ cluster := s', sent := 1, failed := [], freed := [0] },
        log) = (o, w', log ++ l) ∧
      Follows ops replies this s host port .ask o w'.cluster (connecting host port (key, some c) c true ++ l) := by
  let w : SyncWorld σ := { cluster := ops.releaseHostConnection (key, some c) s', sent := 1, failed := [], freed := [0] }
  have hrelease : handler ops replies (.releaseHostConnection (key, some c))
      { cluster := s', sent := 1, failed := [], freed := [0] } = (.ret (), w) := rfl
  have herrstr : handler ops replies (.errstr c) w =
      (.ret ((ops.errstr c (ops.releaseHostConnection (key, some c) s')).getD []), w) := by
    show (Outcome.ret (Option.getD _ []), _) = _
    rw [errOf_of_failed_nil rfl]
  refine ⟨_, w, _, (runSync_of_ret (runSync_sync hrelease) _).trans
    ((runSync_of_ret (runSync_sync herrstr) _).trans ?_), .askBroken hcreate he⟩
  simp only [List.append_assoc, List.cons_append, List.nil_append]
  rfl

variable (ops replies this) in
private theorem movedBroken_follows {errstr : Bytes} (he : ops.errstr c s' = some errstr) (log : SyncLog) :
    ∃ o w' l, runSync ops replies (movedBroken (key, some c) c)
        ({ cluster := s', sent := 1, failed := [], freed := [0] }, log) = (o, w', log ++ l) ∧
      Follows ops replies this s host port .moved o w'.cluster (connecting host port (key, some c) c true ++ l) := by
  let w : SyncWorld σ := { cluster := s', sent := 1, failed := [], freed := [0] }
  have herrstr : handler ops replies (.errstr c) w = (.ret errstr, w) := by
    show (Outcome.ret (Option.getD _ []), _) = _
    rw [errOf_of_failed_nil rfl, he]
    rfl
  exact ⟨_, w, _, (runSync_of_ret (runSync_sync herrstr) _).trans rfl, .movedBroken hcreate he⟩

include hcmd

/-- The command is sent after `ASKING`. -/
private theorem askAccepted_follows (he : ops.errstr c s' = none) {a : RedisReply} (ha : replies 1 = some a)
    (hok : ¬ a.IsError) (log : SyncLog) :
    ∃ o w' l, runSync ops replies (askAccepted this (key, some c) c)
        ({ cluster := s', sent := 2, failed := [], freed := [1, 0] }, log) = (o, w', log ++ l) ∧
      Follows ops replies this s host port .ask o w'.cluster
        (connecting host port (key, some c) c false ++ askingLog c a ++ l) := by
  let w₁ : SyncWorld σ := { cluster := s', sent := 2, failed := [], freed := [1, 0] }
  let w₂ : SyncWorld σ := { cluster := s', sent := 3, failed := [], freed := [1, 0] }
  have he₁ : w₁.errOf ops c = none := (errOf_of_failed_nil rfl c).trans he
  have htwo : 2 ∉ w₂.freed := by simp [w₂]
  cases hr : replies 2 with
  | none =>
    obtain ⟨w', hcluster, -, -, hlost⟩ := processHiredisCommand_lost (w := w₁) hcmd c (fun _ => hr)
    have hcourse := Follows.askLost hcmd hcreate he ha hok hr
    rw [← show w'.cluster = s' from hcluster, List.append_assoc] at hcourse
    refine ⟨_, w', _, ((runSync_of_ret (hlost _) _).trans
      (runSync_of_undefined (checkCritical_undefined (Or.inr rfl) _ _) _)).trans ?_, hcourse⟩
    rw [List.append_assoc]
  | some r =>
    have hanswer (log : SyncLog) : runSync ops replies (this.processHiredisCommand c) (w₁, log) =
        (.ret (.object 2 r), w₂, log ++ requestLog c cmd (some (2, r))) :=
      processHiredisCommand_answered hcmd he₁ hr
    cases hdown : r.mentionsClusterDown with
    | true =>
      have hcourse := Follows.askDown hcmd hcreate he ha hok hr hdown
      rw [List.append_assoc] at hcourse
      refine ⟨_, { w₂ with freed := [2, 1, 0] }, _, (runSync_of_ret (hanswer _) _).trans
        ((runSync_of_throws (checkCritical_down htwo hdown) _).trans ?_), hcourse⟩
      rw [List.append_assoc]
      rfl
    | false =>
      have hrelease : handler ops replies (.releaseHostConnection (key, some c)) w₂ =
          (.ret (), { w₂ with cluster := ops.releaseHostConnection (key, some c) s' }) := rfl
      have hcourse := Follows.asked hcmd hcreate he ha hok hr hdown
      rw [List.append_assoc] at hcourse
      refine ⟨_, { w₂ with cluster := ops.releaseHostConnection (key, some c) s' }, _,
        (runSync_of_ret (hanswer _) _).trans ((runSync_of_ret (checkCritical_up htwo hdown) _).trans
          ((runSync_of_ret (runSync_sync hrelease) _).trans ?_)), hcourse⟩
      simp only [List.append_assoc, List.cons_append, List.nil_append]
      rfl

variable (ops replies) in
private theorem askConnected_follows (he : ops.errstr c s' = none) (log : SyncLog) :
    ∃ o w' l, runSync ops replies (askConnected this (key, some c) c)
        ({ cluster := s', sent := 1, failed := [], freed := [0] }, log) = (o, w', log ++ l) ∧
      Follows ops replies this s host port .ask o w'.cluster (connecting host port (key, some c) c false ++ l) := by
  let w₁ : SyncWorld σ := { cluster := s', sent := 1, failed := [], freed := [0] }
  let w₂ : SyncWorld σ := { cluster := s', sent := 2, failed := [], freed := [0] }
  have he₁ : w₁.errOf ops c = none := (errOf_of_failed_nil rfl c).trans he
  have hone : 1 ∉ w₂.freed := by simp [w₂]
  cases ha : replies 1 with
  | none =>
    refine ⟨_, ⟨s', 2, [c], [0]⟩, _, (runSync_of_ret (asking_lost he₁ ha _) _).trans
      ((runSync_of_undefined (checkCritical_undefined (Or.inl rfl) _ _) _).trans ?_), .askingLost hcreate he ha⟩
    simp only [List.append_assoc, List.cons_append, List.nil_append]
    rfl
  | some a =>
    have hasking (log : SyncLog) : runSync ops replies (asking c) (w₁, log) =
        (.ret (.object 1 a), w₂, log ++ [⟨.redisCommand c (text "ASKING"), .ret (some (1, a))⟩]) :=
      asking_answered he₁ ha log
    by_cases herr : a.IsError
    · refine ⟨_, { w₂ with freed := [1, 0] }, _, (runSync_of_ret (hasking _) _).trans
        ((runSync_of_throws (checkCritical_refused hone herr) _).trans ?_), .askingRefused hcreate he ha herr⟩
      rw [List.append_assoc]
      rfl
    · obtain ⟨o, w', l, hrun, hcourse⟩ := askAccepted_follows hcmd hcreate he ha herr (log ++ askingLog c a)
      rw [List.append_assoc] at hcourse
      refine ⟨o, w', _, (runSync_of_ret (hasking _) _).trans ((runSync_of_ret (checkCritical_accepted hone herr) _).trans
        ((runSync_of_ret (runSync_free hone a) _).trans ?_)), hcourse⟩
      rw [← List.append_assoc, ← hrun]
      simp only [askingLog, List.append_assoc, List.cons_append, List.nil_append]
      rfl

variable (ops replies) in
/-- Whether the message is answered or not, `moved` is called next. -/
private theorem movedConnected_follows (he : ops.errstr c s' = none) (log : SyncLog) :
    ∃ o w' l, runSync ops replies (movedConnected this (key, some c) c)
        ({ cluster := s', sent := 1, failed := [], freed := [0] }, log) = (o, w', log ++ l) ∧
      Follows ops replies this s host port .moved o w'.cluster (connecting host port (key, some c) c false ++ l) := by
  let w₁ : SyncWorld σ := { cluster := s', sent := 1, failed := [], freed := [0] }
  have he₁ : w₁.errOf ops c = none := (errOf_of_failed_nil rfl c).trans he
  have hsend : ∃ w₂ : SyncWorld σ, w₂.cluster = s' ∧ ∀ log,
      runSync ops replies (this.processHiredisCommand c) (w₁, log) =
        (.ret (replyPtr (answerOf replies 1)), w₂, log ++ requestLog c cmd (answerOf replies 1)) := by
    unfold answerOf
    cases hr : replies 1 with
    | none =>
      obtain ⟨w', hcluster, -, -, hlost⟩ := processHiredisCommand_lost (w := w₁) hcmd c (fun _ => hr)
      exact ⟨w', hcluster, hlost⟩
    | some r => exact ⟨{ w₁ with sent := 2 }, rfl, fun log => processHiredisCommand_answered hcmd he₁ hr⟩
  obtain ⟨w₂, hcluster, hsend⟩ := hsend
  rcases hm : ops.moved s' with ⟨o, s''⟩
  have hmoved : handler ops replies .moved w₂ = (o, { w₂ with cluster := s'' }) := by
    show ((ops.moved w₂.cluster).1, { w₂ with cluster := (ops.moved w₂.cluster).2 }) = _
    rw [hcluster, hm]
  cases o with
  | throws e =>
    have hcourse : Follows ops replies this s host port .moved (.throws e) s'' _ :=
      .movedThrown hcmd hcreate he hm
    rw [List.append_assoc] at hcourse
    refine ⟨_, { w₂ with cluster := s'' }, _, (runSync_of_ret (hsend _) _).trans
      ((runSync_of_throws (runSync_sync hmoved) _).trans ?_), hcourse⟩
    rw [List.append_assoc]
  | undefined =>
    have hcourse : Follows ops replies this s host port .moved .undefined s'' _ :=
      .movedUndefined hcmd hcreate he hm
    rw [List.append_assoc] at hcourse
    refine ⟨_, { w₂ with cluster := s'' }, _, (runSync_of_ret (hsend _) _).trans
      ((runSync_of_undefined (runSync_sync hmoved) _).trans ?_), hcourse⟩
    rw [List.append_assoc]
  | ret u =>
    have hrelease : handler ops replies (.releaseHostConnection (key, some c)) { w₂ with cluster := s'' } =
        (.ret (), { w₂ with cluster := ops.releaseHostConnection (key, some c) s'' }) := rfl
    have hcourse : Follows ops replies this s host port .moved (.ret (replyPtr (answerOf replies 1)))
        (ops.releaseHostConnection (key, some c) s'') _ :=
      .moved hcmd hcreate he hm
    rw [List.append_assoc] at hcourse
    refine ⟨_, { w₂ with cluster := ops.releaseHostConnection (key, some c) s'' }, _,
      (runSync_of_ret (hsend _) _).trans ((runSync_of_ret (runSync_sync hmoved) _).trans
        ((runSync_of_ret (runSync_sync hrelease) _).trans ?_)), hcourse⟩
    simp only [List.append_assoc, List.cons_append, List.nil_append]
    rfl

end follow

variable (ops replies) in
private theorem processAsk_follows {cmd : Bytes} (hcmd : this.cmd_ = some cmd) (r : RedisReply) (host port : Bytes)
    (log : SyncLog) :
    ∃ o w' l, runSync ops replies (this.processAsk (.object 0 r) host port)
        ({ cluster := s, sent := 1, failed := [], freed := [] }, log) =
        (o, w', log ++ ⟨.freeReplyObject (.object 0 r), .ret ()⟩ :: l) ∧
      Follows ops replies this s host port .ask o w'.cluster l := by
  rcases follow_connection ops replies this s (Or.inl rfl) r host port (askConnected this) askBroken log with
    hdone | ⟨key, c, s', hcreate, hstart⟩
  · exact hdone
  · cases he : ops.errstr c s' with
    | some errstr =>
      rw [he, Option.isSome_some, if_pos rfl] at hstart
      obtain ⟨o, w', l, hrun, hcourse⟩ := askBroken_follows ops replies this hcreate he _
      exact ⟨o, w', _, hstart.trans (hrun.trans (by rw [List.append_assoc]; rfl)), hcourse⟩
    | none =>
      rw [he, Option.isSome_none, if_neg (by decide)] at hstart
      obtain ⟨o, w', l, hrun, hcourse⟩ := askConnected_follows ops replies hcmd hcreate he _
      exact ⟨o, w', _, hstart.trans (hrun.trans (by rw [List.append_assoc]; rfl)), hcourse⟩

variable (ops replies) in
private theorem processMoved_follows {cmd : Bytes} (hcmd : this.cmd_ = some cmd) (r : RedisReply) (host port : Bytes)
    (log : SyncLog) :
    ∃ o w' l, runSync ops replies (this.processMoved (.object 0 r) host port)
        ({ cluster := s, sent := 1, failed := [], freed := [] }, log) =
        (o, w', log ++ ⟨.freeReplyObject (.object 0 r), .ret ()⟩ :: l) ∧
      Follows ops replies this s host port .moved o w'.cluster l := by
  rcases follow_connection ops replies this s (Or.inr rfl) r host port (movedConnected this) movedBroken log with
    hdone | ⟨key, c, s', hcreate, hstart⟩
  · exact hdone
  · cases he : ops.errstr c s' with
    | some errstr =>
      rw [he, Option.isSome_some, if_pos rfl] at hstart
      obtain ⟨o, w', l, hrun, hcourse⟩ := movedBroken_follows ops replies this hcreate he _
      exact ⟨o, w', _, hstart.trans (hrun.trans (by rw [List.append_assoc]; rfl)), hcourse⟩
    | none =>
      rw [he, Option.isSome_none, if_neg (by decide)] at hstart
      obtain ⟨o, w', l, hrun, hcourse⟩ := movedConnected_follows ops replies hcmd hcreate he _
      exact ⟨o, w', _, hstart.trans (hrun.trans (by rw [List.append_assoc]; rfl)), hcourse⟩

section routed

variable {cmd : Bytes} {con : SlotConnection} {s' : σ}

variable (replies) in
private theorem handler_getConnection {o : Outcome Exn SlotConnection}
    (hget : ops.getConnection this.key_ s = (o, s')) :
    handler ops replies (.getConnection this.key_) (SyncWorld.start s) = (o, SyncWorld.start s') := by
  show ((ops.getConnection this.key_ s).1, SyncWorld.start (ops.getConnection this.key_ s).2) = _
  rw [hget]

variable (hget : ops.getConnection this.key_ s = (.ret con, s')) (hcmd : this.cmd_ = some cmd)

include hget hcmd

/-- The connection of the slot is broken, or nothing comes back on it. -/
private theorem process_lost (hfirst : ops.errstr con.2 s' = none → replies 0 = none) :
    ∃ o w' log, runSync ops replies this.process (SyncWorld.start s, []) = (o, w', log) ∧
      Course ops replies this s o w'.cluster log := by
  have hlost : (SyncWorld.start s').errOf ops con.2 = none → replies (SyncWorld.start s').sent = none := by
    rw [errOf_of_failed_nil rfl]
    exact hfirst
  obtain ⟨w', hcluster, -, herr, hsend⟩ := processHiredisCommand_lost hcmd con.2 hlost
  have hcourse := Course.lost hget hcmd hfirst
  rw [← show w'.cluster = s' from hcluster] at hcourse
  refine ⟨_, w', _, ?_, hcourse⟩
  rw [process, runSync_of_ret (runSync_sync (handler_getConnection replies hget)), runSync_of_ret (hsend _),
    runSync_of_throws (checkCritical_disconnected herr _ _ _ _)]
  simp only [List.nil_append, List.cons_append]

/-- The first reply arrives. -/
private theorem process_answered (he : ops.errstr con.2 s' = none) {r : RedisReply} (hr : replies 0 = some r) :
    ∃ o w' log, runSync ops replies this.process (SyncWorld.start s, []) = (o, w', log) ∧
      Course ops replies this s o w'.cluster log := by
  let w₁ : SyncWorld σ := { cluster := s', sent := 1, failed := [], freed := [] }
  let w₂ : SyncWorld σ := { cluster := ops.releaseSlotConnection con s', sent := 1, failed := [], freed := [] }
  have hzero : 0 ∉ w₁.freed := List.not_mem_nil
  have he₀ : (SyncWorld.start s').errOf ops con.2 = none := (errOf_of_failed_nil rfl _).trans he
  have he₁ : w₁.errOf ops con.2 = none := (errOf_of_failed_nil rfl _).trans he
  have hsend (log : SyncLog) : runSync ops replies (this.processHiredisCommand con.2) (SyncWorld.start s', log) =
      (.ret (.object 0 r), w₁, log ++ requestLog con.2 cmd (some (0, r))) :=
    processHiredisCommand_answered hcmd he₀ hr
  rw [process, runSync_of_ret (runSync_sync (handler_getConnection replies hget)), runSync_of_ret (hsend _)]
  cases hdown : r.mentionsClusterDown with
  | true =>
    refine ⟨_, { w₁ with freed := [0] }, _, (runSync_of_throws ((checkCritical_connected he₁ _ _ _ _).trans
      (checkCritical_down hzero hdown)) _).trans ?_, .down hget hcmd he hr hdown⟩
    simp only [List.append_assoc, List.cons_append, List.nil_append]
    rfl
  | false =>
    have hrelease : handler ops replies (.releaseSlotConnection con) w₁ = (.ret (), w₂) := rfl
    have hread (log : SyncLog) : runSync ops replies (readReply (.object 0 r)) (w₂, log) =
        (.ret r, w₂, log ++ [⟨.readReply (.object 0 r), .ret r⟩]) := runSync_readReply List.not_mem_nil r
    have hresult {x : ProcessState × Bytes × Bytes} (hres : processResult r = .ret x)
        (y : SyncWorld σ × SyncLog) : runSync ops replies (outcome (processResult r)) y = (.ret x, y) := by
      rw [hres]
      rfl
    rw [runSync_of_ret ((checkCritical_connected he₁ _ _ _ _).trans (checkCritical_up hzero hdown)),
      runSync_of_ret (runSync_sync hrelease), runSync_of_ret (hread _)]
    have hlog : [] ++ [⟨.getConnection this.key_, .ret con⟩] ++ requestLog con.2 cmd (some (0, r)) ++
        [⟨.err con.2, .ret false⟩] ++ [⟨.readReply (.object 0 r), .ret r⟩] ++
          [⟨.releaseSlotConnection con, .ret ()⟩] ++ [⟨.readReply (.object 0 r), .ret r⟩] =
        opening this con cmd r := by
      simp only [opening, List.append_assoc, List.nil_append, List.cons_append]
    rw [hlog]
    rcases processResult_cases hdown with hres | ⟨host, port, hres | hres⟩
    · rw [runSync_of_ret (hresult hres _)]
      exact ⟨_, w₂, _, rfl, .ready hget hcmd he hr hdown hres⟩
    · obtain ⟨o, w', l, hrun, hf⟩ := processAsk_follows ops replies hcmd r host port (opening this con cmd r)
      rw [runSync_of_ret (hresult hres _)]
      exact ⟨o, w', _, hrun, .redirected hget hcmd he hr hdown hres hf⟩
    · obtain ⟨o, w', l, hrun, hf⟩ := processMoved_follows ops replies hcmd r host port (opening this con cmd r)
      rw [runSync_of_ret (hresult hres _)]
      exact ⟨o, w', _, hrun, .redirected hget hcmd he hr hdown hres hf⟩

end routed

/-- Every call of `process` takes one of the courses. -/
theorem process_course (ops : ClusterOps σ) (replies : Nat → Option RedisReply) (this : HiredisCommand) (s : σ) :
    ∃ o w' log, runSync ops replies this.process (SyncWorld.start s, []) = (o, w', log) ∧
      Course ops replies this s o w'.cluster log := by
  rcases hget : ops.getConnection this.key_ s with ⟨o, s'⟩
  have hcall := handler_getConnection replies hget
  cases o with
  | throws e => exact ⟨_, _, _, runSync_of_throws (runSync_sync hcall) _, .unrouted hget⟩
  | undefined => exact ⟨_, _, _, runSync_of_undefined (runSync_sync hcall) _, .unhashed hget⟩
  | ret con =>
    cases hcmd : this.cmd_ with
    | none =>
      refine ⟨_, SyncWorld.start s', _, ?_, .unformatted hget hcmd⟩
      rw [process, runSync_of_ret (runSync_sync hcall)]
      exact runSync_of_undefined (processHiredisCommand_unformatted hcmd con.2) _
    | some cmd =>
      by_cases hfirst : ops.errstr con.2 s' = none → replies 0 = none
      · exact process_lost hget hcmd hfirst
      · obtain ⟨he, hr⟩ := Classical.not_imp.1 hfirst
        obtain ⟨r, hr⟩ := Option.ne_none_iff_exists'.1 hr
        exact process_answered hget hcmd he hr

/-- The courses without the log. -/
theorem run_course (ops : ClusterOps σ) (replies : Nat → Option RedisReply) (this : HiredisCommand) (s : σ) :
    ∃ o w' log, Program.run (handler ops replies) this.process (SyncWorld.start s) = (o, w') ∧
      Course ops replies this s o w'.cluster log := by
  obtain ⟨o, w', log, hrun, hcourse⟩ := process_course ops replies this s
  refine ⟨o, w', log, ?_, hcourse⟩
  rw [← Program.run_logged (handler ops replies) this.process (SyncWorld.start s) []]
  exact congrArg (fun x => (x.1, x.2.1)) hrun

end courses

end HiredisCluster
