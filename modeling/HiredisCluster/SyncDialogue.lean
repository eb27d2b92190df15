import HiredisCluster.Dialogue
import HiredisCluster.SyncCourse

/-!
# The synchronous client and the dialogue

When nothing fails `process` sends the messages of the dialogue, and it ends like the dialogue unless the moved callback
throws: `moved` is called when the command was already sent to the new node (`syncTranscript_cases`).
-/

namespace HiredisCluster

open Cxx HiredisCommand

/-- The message that a call of the synchronous client sends. -/
def messageOf : Program.Answered syncInterface Exn → List (ConPtr × Message)
  | ⟨.redisAppendFormattedCommand con (some cmd), _⟩ => [(con, .formatted cmd)]
  | ⟨.redisCommand con format, _⟩ => [(con, .format format)]
  | _ => []

def SyncLog.messages (log : SyncLog) : List (ConPtr × Message) := log.flatMap messageOf

/-- What the caller of `process` gets. -/
def returned : Outcome Exn ReplyPtr → Outcome Exn (List RedisReply)
  | .ret p => .ret p.object?.toList
  | .throws e => .throws e
  | .undefined => .undefined

/-- A synchronous client; all its connects succeed, and `movedCb` is what the moved callback throws. -/
def Shared.syncClient (t : Shared) (movedCb : Option Exn) : World Environment :=
  { cluster := t.cluster, contexts := t.contexts, replies := 0, freed := [], client := { connects := [], movedCb } }

/-- A call of the synchronous client, whose n-th message is answered with the n-th reply. -/
def syncTranscript (t : Shared) (movedCb : Option Exn) (key cmd : Bytes) (replies : Nat → RedisReply) : Transcript :=
  let x := runSync (Cluster.ops functions) (fun n => some (replies n))
    (HiredisCommand.process { key_ := key, cmd_ := some cmd }) (SyncWorld.start (t.syncClient movedCb), [])
  x.2.1.cluster.shared.transcript x.2.2.messages (returned x.1)

/-! ### The cluster of the synchronous client -/

private theorem sync_connects {s : World Environment} (h : s.client.connects = []) :
    functions.Connects (fun c => { c with connects := c.connects.tail }) s := by
  intro host port
  show connectFunction host port s = _
  refine (Code.bind_of_ret (Code.get_apply s) _).trans ((Code.bind_of_ret (Code.modify_apply _ s) _).trans ?_)
  have hhealthy : s.client.connects.headD .healthy = .healthy := by
    rw [h]
    rfl
  rw [hhealthy]
  rfl

private theorem sync_createNewConnection {s : World Environment} (h : s.client.connects = []) (host : Bytes)
    {port : Bytes} (hport : ∃ n, stoi port = .ret n) :
    ∃ s', (Cluster.ops functions).createNewConnection host port s =
        (.ret (DefaultContainer.hostKey host port, some (s.shared.connect host port).1), s') ∧
      s'.shared = (s.shared.connect host port).2 ∧ s'.client.movedCb = s.client.movedCb := by
  obtain ⟨client, hclient, hrun⟩ := createNewConnection_connect (sync_connects h) host hport
  refine ⟨_, hrun, rfl, ?_⟩
  rcases hclient with rfl | rfl <;> rfl

private theorem sync_moved (s : World Environment) :
    ∃ o, (Cluster.ops functions).moved s = (o, s.updCluster fun c => { c with moved_ := true }) ∧
    (o = .ret () ∨ ∃ e, o = .throws e ∧ s.cluster.userMovedFn_ = true ∧ s.client.movedCb.isSome = true) := by
  show ∃ o, Cluster.moved functions s = _ ∧ _
  unfold Cluster.moved
  rw [Code.bind_of_ret (Code.modify_apply _ s), Code.bind_of_ret (Code.get_apply _)]
  by_cases hu : s.cluster.userMovedFn_ = true
  · simp only [World.cluster_updCluster, hu, ↓reduceIte, functions, World.client_updCluster]
    cases s.client.movedCb with
    | none => exact ⟨_, rfl, Or.inl rfl⟩
    | some e => exact ⟨_, rfl, Or.inr ⟨e, rfl, trivial, rfl⟩⟩
  · simp only [World.cluster_updCluster, hu]
    exact ⟨_, rfl, Or.inl rfl⟩

/-- A connection of a healthy cluster has no error. -/
private theorem sync_errstr {s : World Environment} (h : s.shared.Healthy) {c : ConPtr} (hc : c < s.contexts.length) :
    (Cluster.ops functions).errstr c s = none := by
  obtain ⟨x, hx, herr, -⟩ := h.context hc
  show (s.contexts[c]?).bind _ = none
  rw [show s.contexts[c]? = some x from hx, Option.bind_some, herr]
  rfl

/-! ### The call -/

section call

variable {t : Shared} {movedCb : Option Exn} {key cmd : Bytes} {replies : Nat → RedisReply}

/-- Following a redirection. -/
private theorem Follows.dialogue_cases {this : HiredisCommand} (hcmd : this.cmd_ = some cmd) (h : t.Healthy)
    (hs : Script replies) {conn : SlotConnection} (hr : t.route key = .ret conn) {state : ProcessState}
    {host port : Bytes} (hres : processResult (replies 0) = .ret (state, host, port)) {o : Outcome Exn ReplyPtr}
    {s' : World Environment} {log : SyncLog}
    (hf : Follows (Cluster.ops functions) (fun n => some (replies n)) this (t.syncClient movedCb) host port state o s'
      log) :
    (s'.shared.transcript ((conn.2, .formatted cmd) :: log.messages) (returned o)).messages =
        (dialogue t key cmd replies).messages ∧
      (¬ MovedAborts t movedCb key replies →
        s'.shared.transcript ((conn.2, .formatted cmd) :: log.messages) (returned o) = dialogue t key cmd replies) := by
  obtain ⟨s₁, hcreate, hshared, hcb⟩ := sync_createNewConnection (s := t.syncClient movedCb) rfl host
    (hs.port state host port hres hf.state_cases)
  replace hshared : s₁.shared = (t.connect host port).2 := hshared
  replace hcb : s₁.client.movedCb = movedCb := hcb
  have hhealthy : s₁.shared.Healthy := by rw [hshared]; exact (h.connect host port).1
  have hexists : (t.connect host port).1 < s₁.contexts.length := by
    show _ < s₁.shared.contexts.length
    rw [hshared]
    exact (h.connect host port).2
  -- the new connection is healthy and every message is answered, so the other endings do not occur
  cases hf with
  | thrown _ hc => cases hcreate.symm.trans hc
  | undefined _ hc => cases hcreate.symm.trans hc
  | null _ hc => cases hcreate.symm.trans hc
  | askBroken hc he =>
    cases hcreate.symm.trans hc
    cases (sync_errstr hhealthy hexists).symm.trans he
  | movedBroken hc he =>
    cases hcreate.symm.trans hc
    cases (sync_errstr hhealthy hexists).symm.trans he
  | askingLost hc he ha => cases ha
  | askingRefused hc he ha hrefused =>
    cases ha
    have hok := hs.asking (RedisReply.isAsk_of_processResult hres)
    generalize replies 1 = a at hrefused hok
    cases a with
    | error str => cases hok
    | _ => cases hrefused
  | askLost hcmd' hc he ha hok hreply => cases hreply
  | askDown hcmd' hc he ha hok hreply hdown =>
    cases hreply
    rw [hs.up 2] at hdown
    cases hdown
  | asked hcmd' hc he ha hok hreply hdown =>
    cases hcreate.symm.trans hc
    cases ha
    cases hreply
    cases hcmd.symm.trans hcmd'
    rw [dialogue_ask cmd replies hr hres, ← hshared]
    exact ⟨rfl, fun _ => rfl⟩
  | movedThrown hcmd' hc he hm =>
    cases hcreate.symm.trans hc
    cases hcmd.symm.trans hcmd'
    obtain ⟨o, hrun, ho⟩ := sync_moved s₁
    cases hrun.symm.trans hm
    rw [dialogue_moved cmd replies hr hres, ← hshared]
    refine ⟨rfl, fun hno => ?_⟩
    rcases ho with ho | ⟨e, -, hset, hthrows⟩
    · cases ho
    · refine absurd ⟨⟨conn, hr⟩, RedisReply.isMoved_of_processResult hres, ?_, hcb ▸ hthrows⟩ hno
      have huser : s₁.shared.cluster.userMovedFn_ = t.cluster.userMovedFn_ := by
        rw [hshared]
        exact t.userMovedFn_connect host port
      exact huser.symm.trans hset
  | movedUndefined hcmd' hc he hm =>
    cases hcreate.symm.trans hc
    obtain ⟨o, hrun, ho⟩ := sync_moved s₁
    cases hrun.symm.trans hm
    rcases ho with ho | ⟨e, ho, -⟩ <;> cases ho
  | moved hcmd' hc he hm =>
    cases hcreate.symm.trans hc
    cases hcmd.symm.trans hcmd'
    obtain ⟨o, hrun, ho⟩ := sync_moved s₁
    cases hrun.symm.trans hm
    rw [dialogue_moved cmd replies hr hres, ← hshared]
    exact ⟨rfl, fun _ => rfl⟩

/-- `process` has the messages of the dialogue, and when the moved callback does not throw, the same transcript. -/
theorem syncTranscript_cases (h : t.Healthy) (hs : Script replies) :
    (syncTranscript t movedCb key cmd replies).messages = (dialogue t key cmd replies).messages ∧
      (¬ MovedAborts t movedCb key replies → syncTranscript t movedCb key cmd replies = dialogue t key cmd replies) := by
  let this : HiredisCommand := { key_ := key, cmd_ := some cmd }
  let s := t.syncClient movedCb
  obtain ⟨o, w', log, hrun, hcourse⟩ :=
    process_course (Cluster.ops functions) (fun n => some (replies n)) this s
  have htranscript : syncTranscript t movedCb key cmd replies =
      w'.cluster.shared.transcript log.messages (returned o) := by
    unfold syncTranscript
    rw [hrun]
  have hroute {o : Outcome Exn SlotConnection} {s' : World Environment}
      (hget : (Cluster.ops functions).getConnection this.key_ s = (o, s')) : t.route key = o ∧ s' = s := by
    have heq := (getConnection_route s key).symm.trans hget
    injection heq with ho hs
    exact ⟨ho, hs.symm⟩
  rw [htranscript]
  generalize w'.cluster = s' at hcourse
  cases hcourse with
  | unrouted hget =>
    obtain ⟨hr, rfl⟩ := hroute hget
    rw [dialogue_unrouted cmd replies hr]
    exact ⟨rfl, fun _ => rfl⟩
  | unhashed hget =>
    obtain ⟨hr, rfl⟩ := hroute hget
    rw [dialogue_unhashed cmd replies hr]
    exact ⟨rfl, fun _ => rfl⟩
  | unformatted hget hcmd => cases hcmd
  | lost hget hcmd hlost =>
    obtain ⟨hr, rfl⟩ := hroute hget
    cases hlost (sync_errstr (s := s) h (h.nodes _ (Shared.route_mem hr)))
  | down hget hcmd he hreply hdown =>
    cases hreply
    rw [hs.up 0] at hdown
    cases hdown
  | ready hget hcmd he hreply hdown hres =>
    obtain ⟨hr, rfl⟩ := hroute hget
    cases hreply
    cases hcmd
    rw [dialogue_ready cmd replies hr hres]
    exact ⟨rfl, fun _ => rfl⟩
  | redirected hget hcmd he hreply hdown hres hf =>
    obtain ⟨hr, rfl⟩ := hroute hget
    cases hreply
    cases hcmd
    exact hf.dialogue_cases rfl h hs hr hres

end call

end HiredisCluster
