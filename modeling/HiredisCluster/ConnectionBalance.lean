import HiredisCluster.Cxx.Ledger
import HiredisCluster.SyncCourse

/-!
# Connections of the synchronous client are given back

`process` gets a connection for the slot and perhaps one for a redirection, and releases them by hand.  Every exception
that leaves between getting and releasing one keeps it (`balanced_iff_handsBack`), and after `ASK` a connection with an
error is read after its release.
-/

namespace HiredisCluster

open Cxx HiredisCommand

/-- What a call does to a connection.  Only an answered call obtains one. -/
def connectionEvent : Program.Answered syncInterface Exn → Option (Holding ConPtr)
  | ⟨.getConnection _, .ret con⟩ => some (.acquire con.2)
  | ⟨.createNewConnection _ _, .ret (_, some c)⟩ => some (.acquire c)
  | ⟨.releaseSlotConnection con, _⟩ => some (.release con.2)
  | ⟨.releaseHostConnection (_, some c), _⟩ => some (.release c)
  | ⟨.redisAppendFormattedCommand c _, _⟩ => some (.use c)
  | ⟨.redisGetReply c, _⟩ => some (.use c)
  | ⟨.redisCommand c _, _⟩ => some (.use c)
  | ⟨.err c, _⟩ => some (.use c)
  | ⟨.errstr c, _⟩ => some (.use c)
  | _ => none

/-- The connections in a log, in order. -/
def connectionEvents (log : SyncLog) : List (Holding ConPtr) := log.filterMap connectionEvent

variable {σ : Type}

/-- The connection for a redirection is null or not made, or it has no error and nothing is thrown while it is held. -/
def HandsBackHost (ops : ClusterOps σ) (replies : Nat → Option RedisReply) (s : σ) (state : ProcessState)
    (host port : Bytes) : Prop :=
  match ops.createNewConnection host port s with
  | (.ret (_, some c), s') => ops.errstr c s' = none ∧
      (state = .ask → ∃ a r, replies 1 = some a ∧ ¬ a.IsError ∧ replies 2 = some r ∧ r.mentionsClusterDown = false) ∧
      (state = .moved → ∃ s'', ops.moved s' = (.ret (), s''))
  | _ => True

/-- The key has no connection, or the command is formatted and answered without `CLUSTERDOWN`, and a redirection in the
answer gives its connection back too. -/
def HandsBack (ops : ClusterOps σ) (replies : Nat → Option RedisReply) (this : HiredisCommand) (s : σ) : Prop :=
  match ops.getConnection this.key_ s with
  | (.ret con, s') => this.cmd_.isSome = true ∧ ops.errstr con.2 s' = none ∧ ∃ r, replies 0 = some r ∧
      r.mentionsClusterDown = false ∧ ∀ state host port, processResult r = .ret (state, host, port) →
        (state = .ask ∨ state = .moved) → HandsBackHost ops replies (ops.releaseSlotConnection con s') state host port
  | _ => True

/-! ### The ledger of a call -/

section ledger

variable (log log' : SyncLog) (this : HiredisCommand) (con : SlotConnection) (host port key cmd : Bytes) (c : ConPtr)

@[simp] theorem connectionEvents_append :
    connectionEvents (log ++ log') = connectionEvents log ++ connectionEvents log' := List.filterMap_append ..

/-- The slot connection is held until `processResult`. -/
private theorem ledger_opening (r : RedisReply) :
    Holding.ledger [] (connectionEvents (opening this con cmd r)) = some [] := by
  show Holding.ledger [] [.acquire con.2, .use con.2, .use con.2, .use con.2, .release con.2] = some []
  simp

@[simp] theorem ledger_connecting (err : Bool) :
    Holding.ledger [] (connectionEvents (connecting host port (key, some c) c err)) = some [c] := by
  show Holding.ledger [] [.acquire c, .use c] = some [c]
  simp

@[simp] theorem ledger_requestLog (answer : Option (Nat × RedisReply)) :
    Holding.ledger [c] (connectionEvents (requestLog c cmd answer)) = some [c] := by
  show Holding.ledger [c] [.use c, .use c] = some [c]
  simp

@[simp] theorem ledger_askingLog (a : RedisReply) :
    Holding.ledger [c] (connectionEvents (askingLog c a)) = some [c] := by
  show Holding.ledger [c] [.use c] = some [c]
  simp

end ledger

/-- Following a redirection gives back what it got exactly under the condition. -/
private theorem Follows.ledger_iff {ops : ClusterOps σ} {replies : Nat → Option RedisReply} {this : HiredisCommand}
    {s s' : σ} {host port : Bytes} {state : ProcessState} {o : Outcome Exn ReplyPtr} {log : SyncLog}
    (h : Follows ops replies this s host port state o s' log) :
    Holding.ledger [] (connectionEvents log) = some [] ↔ HandsBackHost ops replies s state host port := by
  cases h with
  | thrown hs h => simp only [HandsBackHost, h]; exact iff_of_true rfl trivial
  | undefined hs h => simp only [HandsBackHost, h]; exact iff_of_true rfl trivial
  | null hs h => simp only [HandsBackHost, h]; exact iff_of_true rfl trivial
  | @askBroken key errstr c s' h he =>
    have hend : connectionEvents [⟨.releaseHostConnection (key, some c), .ret ()⟩,
        ⟨.errstr c, .ret ((ops.errstr c (ops.releaseHostConnection (key, some c) s')).getD [])⟩] =
        [.release c, .use c] := rfl
    simp [HandsBackHost, h, he, Holding.ledger_append, hend]
  | @movedBroken key errstr c s' h he =>
    have hend : connectionEvents [⟨.errstr c, .ret errstr⟩] = [.use c] := rfl
    simp [HandsBackHost, h, he, Holding.ledger_append, hend]
  | @askingLost key c s' h he ha =>
    have hend : connectionEvents [⟨.redisCommand c (text "ASKING"), .ret none⟩, ⟨.readReply .null, .undefined⟩] =
        [.use c] := rfl
    simp [HandsBackHost, h, he, ha, Holding.ledger_append, hend]
  | askingRefused h he ha hr => simp [HandsBackHost, h, he, ha, hr, Holding.ledger_append]
  | askLost hcmd h he ha hok hr =>
    have hend : connectionEvents [⟨.readReply .unset, .undefined⟩] = [] := rfl
    simp [HandsBackHost, h, he, ha, hr, Holding.ledger_append, hend]
  | @askDown key cmd c s' a r hcmd h he ha hok hr hdown =>
    have hend : connectionEvents [⟨.readReply (.object 2 r), .ret r⟩, ⟨.freeReplyObject (.object 2 r), .ret ()⟩] = [] :=
      rfl
    simp [HandsBackHost, h, he, ha, hr, hdown, Holding.ledger_append, hend]
  | @asked key cmd c s' a r hcmd h he ha hok hr hdown =>
    have hend : connectionEvents [⟨.readReply (.object 2 r), .ret r⟩,
        ⟨.releaseHostConnection (key, some c), .ret ()⟩] = [.release c] := rfl
    simp [HandsBackHost, h, he, ha, hok, hr, hdown, Holding.ledger_append, hend]
  | @movedThrown key cmd c s' s'' e hcmd h he hm =>
    have hend : connectionEvents [⟨.moved, .throws e⟩] = [] := rfl
    simp [HandsBackHost, h, he, hm, Holding.ledger_append, hend]
  | movedUndefined hcmd h he hm =>
    have hend : connectionEvents [⟨.moved, .undefined⟩] = [] := rfl
    simp [HandsBackHost, h, he, hm, Holding.ledger_append, hend]
  | @moved key cmd c s' s'' hcmd h he hm =>
    have hend : connectionEvents [⟨.moved, .ret ()⟩, ⟨.releaseHostConnection (key, some c), .ret ()⟩] = [.release c] :=
      rfl
    simp [HandsBackHost, h, he, hm, Holding.ledger_append, hend]

/-- Every connection `process` gets is released exactly once, and not used after that, exactly under the condition. -/
theorem balanced_iff_handsBack (ops : ClusterOps σ) (replies : Nat → Option RedisReply) (this : HiredisCommand) (s : σ) :
    Holding.Balanced (connectionEvents (runSync ops replies this.process (SyncWorld.start s, [])).2.2) ↔
      HandsBack ops replies this s := by
  obtain ⟨o, w', log, hrun, hcourse⟩ := process_course ops replies this s
  rw [hrun, Holding.balanced_iff]
  dsimp only
  generalize w'.cluster = s' at hcourse
  cases hcourse with
  | unrouted h => simp only [HandsBack, h]; exact iff_of_true rfl trivial
  | unhashed h => simp only [HandsBack, h]; exact iff_of_true rfl trivial
  | @unformatted con s' h hcmd =>
    have hlog : connectionEvents [⟨.getConnection this.key_, .ret con⟩,
        ⟨.redisAppendFormattedCommand con.2 none, .undefined⟩] = [.acquire con.2, .use con.2] := rfl
    rw [hlog]
    simp [HandsBack, h, hcmd]
  | @lost con s' cmd h hcmd hlost =>
    have hlog : connectionEvents (⟨.getConnection this.key_, .ret con⟩ :: requestLog con.2 cmd none ++
        [⟨.err con.2, .ret true⟩]) = [.acquire con.2, .use con.2, .use con.2, .use con.2] := rfl
    rw [hlog]
    refine iff_of_false (by simp) fun hback => ?_
    simp only [HandsBack, h] at hback
    obtain ⟨-, he, r, hr, -⟩ := hback
    rw [hlost he] at hr
    cases hr
  | @down con s' cmd r h hcmd he hr hdown =>
    have hlog : connectionEvents (⟨.getConnection this.key_, .ret con⟩ :: requestLog con.2 cmd (some (0, r)) ++
        [⟨.err con.2, .ret false⟩, ⟨.readReply (.object 0 r), .ret r⟩, ⟨.freeReplyObject (.object 0 r), .ret ()⟩]) =
        [.acquire con.2, .use con.2, .use con.2, .use con.2] := rfl
    rw [hlog]
    refine iff_of_false (by simp) fun hback => ?_
    simp only [HandsBack, h] at hback
    obtain ⟨-, -, r', hr', hup, -⟩ := hback
    rw [hr] at hr'
    cases hr'
    rw [hdown] at hup
    cases hup
  | ready h hcmd he hr hdown hres =>
    simp only [HandsBack, h]
    refine iff_of_true (ledger_opening _ _ _ _) ⟨by rw [hcmd]; rfl, he, _, hr, hdown, fun state host port hres' hs => ?_⟩
    rw [hres] at hres'
    cases hres'
    rcases hs with hs | hs <;> cases hs
  | @redirected con s' s'' cmd host port r state o log h hcmd he hr hdown hres hf =>
    have hledger : Holding.ledger [] (connectionEvents
        (opening this con cmd r ++ ⟨.freeReplyObject (.object 0 r), .ret ()⟩ :: log)) =
        Holding.ledger [] (connectionEvents log) := by
      rw [connectionEvents_append, Holding.ledger_append, ledger_opening]
      rfl
    rw [hledger, hf.ledger_iff]
    simp only [HandsBack, h]
    constructor
    · intro hback
      refine ⟨by rw [hcmd]; rfl, he, r, hr, hdown, fun state' host' port' hres' _ => ?_⟩
      rw [hres] at hres'
      cases hres'
      exact hback
    · rintro ⟨-, -, r', hr', -, hall⟩
      rw [hr] at hr'
      cases hr'
      exact hall _ _ _ hres hf.state_cases

/-- The node answers that the cluster is down. -/
def clusterIsDown : Nat → Option RedisReply
  | 0 => some (.error (.ofText "CLUSTERDOWN The cluster is down"))
  | _ => none

/-- The connection of the slot is not released. -/
theorem not_balanced : ¬ Holding.Balanced (connectionEvents
    (runSync (Cluster.ops functions) clusterIsDown getFoo.process (SyncWorld.start HiredisCommand.oneNode, [])).2.2) := by
  decide +kernel

end HiredisCluster
