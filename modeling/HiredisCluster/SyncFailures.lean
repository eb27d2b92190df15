import HiredisCluster.CreateCluster
import HiredisCluster.SyncCourse

/-!
# Failures of the synchronous client

When an exchange fails, hiredis sets `con->err`, `redisGetReply` leaves its output alone and `redisCommand` returns a
null pointer.  Only the first exchange of `process` is checked for that: after a redirection, and in `createCluster`,
the pointer is read, or returned, as it is (`failuresSurface_iff`).
-/

namespace HiredisCluster

open Cxx HiredisCommand

/-! ### What is to be shown -/

/-- The answer to a message, `none` if the exchange failed. -/
def answerTo : Program.Answered syncInterface Exn → Option (Option (Nat × RedisReply))
  | ⟨.redisGetReply _, .ret answer⟩ => some answer
  | ⟨.redisCommand _ _, .ret answer⟩ => some answer
  | _ => none

def SyncLog.answers (log : SyncLog) : List (Option (Nat × RedisReply)) := log.filterMap answerTo

/-- The reply pointer that a call reads or frees. -/
def pointerIn : Program.Answered syncInterface Exn → Option ReplyPtr
  | ⟨.readReply p, _⟩ => some p
  | ⟨.freeReplyObject p, _⟩ => some p
  | _ => none

def SyncLog.pointers (log : SyncLog) : List ReplyPtr := log.filterMap pointerIn

/-- A call of `process` that ended with `o` and made the calls in the log: it throws a `ClusterException` if an exchange
failed, reads and frees only replies, and returns the reply to this command in its last exchange. -/
structure FailuresSurface (this : HiredisCommand) (o : Outcome Exn ReplyPtr) (log : SyncLog) : Prop where
  throws : none ∈ log.answers → ∃ e, o = .throws (.cluster e)
  pointers : ∀ p ∈ log.pointers, p.object?.isSome = true
  returns : ∀ p, o = .ret p → ∃ before con cmd a r rest, this.cmd_ = some cmd ∧ p = .object a r ∧
    log = before ++ requestLog con cmd (some (a, r)) ++ rest ∧ rest.answers = []

/-- A call of `createCluster` that ended with `o`: it throws a `ClusterException` if the bootstrap node fails, and never
reads a null reply. -/
structure CreationSurfaces (boot : Bootstrap) (o : Outcome Exn Unit) : Prop where
  defined : o ≠ .undefined
  throws : boot.connect ≠ .healthy ∨ boot.slots = none → ∃ e, o = .throws (.cluster e)

variable {σ : Type}

/-- The node of a redirection answers what it is sent, or, after `MOVED`, the callback throws a `ClusterException`. -/
def HopAnswered (ops : ClusterOps σ) (replies : Nat → Option RedisReply) (s : σ) (state : ProcessState)
    (host port : Bytes) : Prop :=
  match ops.createNewConnection host port s with
  | (.ret (_, some c), s') => ops.errstr c s' = none →
      (state = .ask → ∃ a, replies 1 = some a ∧ (¬ a.IsError → ∃ r, replies 2 = some r)) ∧
      (state = .moved → (∃ r, replies 1 = some r) ∨ ∃ e s'', ops.moved s' = (.throws (.cluster e), s''))
  | _ => True

/-- If the command is answered with a redirection that is followed, then the other node answers too. -/
def HopsAnswered (ops : ClusterOps σ) (replies : Nat → Option RedisReply) (this : HiredisCommand) (s : σ) : Prop :=
  match ops.getConnection this.key_ s with
  | (.ret con, s') => this.cmd_.isSome = true → ops.errstr con.2 s' = none → ∀ r, replies 0 = some r →
      r.mentionsClusterDown = false → ∀ state host port, processResult r = .ret (state, host, port) →
        (state = .ask ∨ state = .moved) → HopAnswered ops replies (ops.releaseSlotConnection con s') state host port
  | _ => True

/-! ### The calls in a log -/

namespace SyncLog

variable (log log' : SyncLog) (con : ConPtr) (hcon : HostConnection) (host port cmd : Bytes)

@[simp] theorem answers_append : (log ++ log').answers = log.answers ++ log'.answers := List.filterMap_append ..

@[simp] theorem pointers_append : (log ++ log').pointers = log.pointers ++ log'.pointers := List.filterMap_append ..

@[simp] theorem answers_requestLog (answer : Option (Nat × RedisReply)) :
    SyncLog.answers (requestLog con cmd answer) = [answer] := rfl

@[simp] theorem pointers_requestLog (answer : Option (Nat × RedisReply)) :
    SyncLog.pointers (requestLog con cmd answer) = [] := rfl

@[simp] theorem answers_getConnection (key : Bytes) (answer : Outcome Exn SlotConnection) :
    SyncLog.answers [⟨.getConnection key, answer⟩] = [] := rfl

@[simp] theorem pointers_getConnection (key : Bytes) (answer : Outcome Exn SlotConnection) :
    SyncLog.pointers [⟨.getConnection key, answer⟩] = [] := rfl

@[simp] theorem answers_createNewConnection (answer : Outcome Exn HostConnection) :
    SyncLog.answers [⟨.createNewConnection host port, answer⟩] = [] := rfl

@[simp] theorem pointers_createNewConnection (answer : Outcome Exn HostConnection) :
    SyncLog.pointers [⟨.createNewConnection host port, answer⟩] = [] := rfl

@[simp] theorem answers_connecting (err : Bool) : SyncLog.answers (connecting host port hcon con err) = [] := by
  cases hcon
  rfl

@[simp] theorem pointers_connecting (err : Bool) : SyncLog.pointers (connecting host port hcon con err) = [] := rfl

@[simp] theorem answers_askingLog (a : RedisReply) : SyncLog.answers (askingLog con a) = [some (1, a)] := rfl

@[simp] theorem pointers_askingLog (a : RedisReply) :
    SyncLog.pointers (askingLog con a) = [.object 1 a, .object 1 a] := rfl

end SyncLog

@[simp] theorem ReplyPtr.object?_object (a : Nat) (r : RedisReply) : (ReplyPtr.object a r).object? = some r := rfl

variable {ops : ClusterOps σ} {replies : Nat → Option RedisReply} {this : HiredisCommand} {o : Outcome Exn ReplyPtr}

private theorem not_failuresSurface_of_lost {log : SyncLog} (h : none ∈ log.answers)
    (ho : ∀ e, o ≠ .throws (.cluster e)) :
    ¬ FailuresSurface this o log := by
  intro hall
  obtain ⟨e, he⟩ := hall.throws h
  exact ho e he

/-- Calls before, in which nothing failed. -/
private theorem FailuresSurface.append {log log' : SyncLog} (h : FailuresSurface this o log')
    (hanswers : none ∉ log.answers)
    (hpointers : ∀ p ∈ log.pointers, p.object?.isSome = true) : FailuresSurface this o (log ++ log') := by
  refine ⟨fun hlost => ?_, fun p hp => ?_, fun p ho => ?_⟩
  · rw [SyncLog.answers_append] at hlost
    exact h.throws ((List.mem_append.1 hlost).resolve_left hanswers)
  · rw [SyncLog.pointers_append] at hp
    exact (List.mem_append.1 hp).elim (hpointers p) (h.pointers p)
  · obtain ⟨before, con, cmd, a, r, rest, hcmd, hp, rfl, hrest⟩ := h.returns p ho
    exact ⟨log ++ before, con, cmd, a, r, rest, hcmd, hp, by simp only [List.append_assoc], hrest⟩

/-! ### `process` -/

section process

variable {s s' : σ}

/-- The command was sent last: the outcome is right when it was answered, or when a `ClusterException` was thrown. -/
private theorem surface_sent_iff {before last : SyncLog} {c : ConPtr} {cmd : Bytes} {answer : Option (Nat × RedisReply)}
    (hcmd : this.cmd_ = some cmd) (hbefore : none ∉ before.answers)
    (hread : ∀ p ∈ before.pointers, p.object?.isSome = true) (hlast : last.answers = [])
    (hlastread : ∀ p ∈ last.pointers, p.object?.isSome = true) (ho : ∀ p, o = .ret p → p = replyPtr answer) :
    FailuresSurface this o (before ++ requestLog c cmd answer ++ last) ↔
      answer.isSome = true ∨ ∃ e, o = .throws (.cluster e) := by
  have hpointers : ∀ p ∈ (before ++ requestLog c cmd answer ++ last).pointers, p.object?.isSome = true := by
    intro p hp
    rw [SyncLog.pointers_append, SyncLog.pointers_append, SyncLog.pointers_requestLog, List.append_nil] at hp
    exact (List.mem_append.1 hp).elim (hread p) (hlastread p)
  have hanswers : (before ++ requestLog c cmd answer ++ last).answers = before.answers ++ [answer] := by
    rw [SyncLog.answers_append, SyncLog.answers_append, SyncLog.answers_requestLog, hlast, List.append_nil]
  cases answer with
  | none =>
    have hlost : none ∈ (before ++ requestLog c cmd none ++ last).answers := by
      rw [hanswers]
      exact List.mem_append_right _ (List.mem_singleton.2 rfl)
    constructor
    · intro hall
      exact Or.inr (hall.throws hlost)
    · rintro (hsome | ⟨e, he⟩)
      · cases hsome
      · exact ⟨fun _ => ⟨e, he⟩, hpointers, fun p hp => by cases he.symm.trans hp⟩
  | some answer =>
    obtain ⟨a, r⟩ := answer
    refine iff_of_true ⟨fun hlost => ?_, hpointers, fun p hp => ?_⟩ (Or.inl rfl)
    · rw [hanswers] at hlost
      rcases List.mem_append.1 hlost with hlost | hlost
      · exact absurd hlost hbefore
      · cases List.mem_singleton.1 hlost
    · exact ⟨before, c, cmd, a, r, last, hcmd, ho p hp, rfl, hlast⟩

/-- Following a redirection, after calls in which nothing failed. -/
private theorem Follows.surface_iff {host port : Bytes} {state : ProcessState} {log : SyncLog}
    (h : Follows ops replies this s host port state o s' log) {first : SyncLog} (hanswers : none ∉ first.answers)
    (hpointers : ∀ p ∈ first.pointers, p.object?.isSome = true) :
    FailuresSurface this o (first ++ log) ↔ HopAnswered ops replies s state host port := by
  have good (hall : FailuresSurface this o log) : FailuresSurface this o (first ++ log) :=
    hall.append hanswers hpointers
  have lost (hlost : none ∈ log.answers) (ho : ∀ e, o ≠ .throws (.cluster e)) :
      ¬ FailuresSurface this o (first ++ log) := by
    refine not_failuresSurface_of_lost ?_ ho
    rw [SyncLog.answers_append]
    exact List.mem_append_right _ hlost
  -- what is read up to the sending of the command
  have connected {hcon : HostConnection} {c : ConPtr} :
      ∀ p ∈ (first ++ connecting host port hcon c false).pointers, p.object?.isSome = true := by
    rw [SyncLog.pointers_append, SyncLog.pointers_connecting, List.append_nil]
    exact hpointers
  have asking (a : RedisReply) {hcon : HostConnection} {c : ConPtr} :
      ∀ p ∈ (first ++ connecting host port hcon c false ++ askingLog c a).pointers, p.object?.isSome = true := by
    intro p hp
    rw [SyncLog.pointers_append] at hp
    rcases List.mem_append.1 hp with hp | hp
    · exact connected p hp
    · simp at hp
      rw [hp]
      rfl
  cases h with
  | thrown hs h =>
    simp only [HopAnswered, h]
    exact iff_of_true (good ⟨by simp, by simp, by simp⟩) trivial
  | undefined hs h =>
    simp only [HopAnswered, h]
    exact iff_of_true (good ⟨by simp, by simp, by simp⟩) trivial
  | null hs h =>
    simp only [HopAnswered, h]
    exact iff_of_true (good ⟨by simp, by simp, by simp⟩) trivial
  | askBroken h he =>
    simp only [HopAnswered, h, he]
    exact iff_of_true (good ⟨by simp, by simp [SyncLog.pointers, pointerIn, connecting], by simp⟩) (by simp)
  | movedBroken h he =>
    simp only [HopAnswered, h, he]
    exact iff_of_true (good ⟨by simp, by simp [SyncLog.pointers, pointerIn, connecting], by simp⟩) (by simp)
  | askingLost h he ha =>
    simp only [HopAnswered, h]
    exact iff_of_false (lost (by simp [SyncLog.answers, answerTo]) (by simp)) (by simp [he, ha])
  | askingRefused h he ha hr =>
    simp only [HopAnswered, h]
    exact iff_of_true (good ⟨by simp, by simp, by simp⟩) (by simp [ha, hr])
  | askLost hcmd h he ha hok hr =>
    simp only [HopAnswered, h]
    exact iff_of_false (lost (by simp) (by simp)) (by simp [he, ha, hok, hr])
  | @askDown key cmd c s' a r hcmd h he ha hok hr hdown =>
    have hlast : SyncLog.pointers [⟨.readReply (.object 2 r), .ret r⟩, ⟨.freeReplyObject (.object 2 r), .ret ()⟩] =
        [.object 2 r, .object 2 r] := rfl
    rw [← List.append_assoc, ← List.append_assoc, ← List.append_assoc,
      surface_sent_iff hcmd (by simp [hanswers]) (asking a) rfl (by simp [hlast]) (by simp)]
    simp [HopAnswered, h, ha, hr]
  | @asked key cmd c s' a r hcmd h he ha hok hr hdown =>
    have hlast : SyncLog.pointers
        [⟨.readReply (.object 2 r), .ret r⟩, ⟨.releaseHostConnection (key, some c), .ret ()⟩] = [.object 2 r] := rfl
    rw [← List.append_assoc, ← List.append_assoc, ← List.append_assoc,
      surface_sent_iff hcmd (by simp [hanswers]) (asking a) rfl (by simp [hlast]) (by simp [replyPtr])]
    simp [HopAnswered, h, ha, hr]
  | @movedThrown key cmd c s' s'' e hcmd h he hm =>
    have hlast : SyncLog.pointers [⟨.moved, .throws e⟩] = [] := rfl
    rw [← List.append_assoc, ← List.append_assoc,
      surface_sent_iff hcmd (by simp [hanswers]) connected rfl (by simp [hlast]) (by simp)]
    simp [HopAnswered, h, he, hm, answerOf, Option.isSome_iff_exists]
  | movedUndefined hcmd h he hm =>
    have hlast : SyncLog.pointers [⟨.moved, .undefined⟩] = [] := rfl
    rw [← List.append_assoc, ← List.append_assoc,
      surface_sent_iff hcmd (by simp [hanswers]) connected rfl (by simp [hlast]) (by simp)]
    simp [HopAnswered, h, he, hm, answerOf, Option.isSome_iff_exists]
  | @moved key cmd c s' s'' hcmd h he hm =>
    have hlast : SyncLog.pointers [⟨.moved, .ret ()⟩, ⟨.releaseHostConnection (key, some c), .ret ()⟩] = [] := rfl
    rw [← List.append_assoc, ← List.append_assoc,
      surface_sent_iff hcmd (by simp [hanswers]) connected rfl (by simp [hlast]) (by simp)]
    simp [HopAnswered, h, he, hm, answerOf, Option.isSome_iff_exists]

@[simp] theorem answers_opening (con : SlotConnection) (cmd : Bytes) (r : RedisReply) :
    SyncLog.answers (opening this con cmd r) = [some (0, r)] := rfl

@[simp] theorem pointers_opening (con : SlotConnection) (cmd : Bytes) (r : RedisReply) :
    SyncLog.pointers (opening this con cmd r) = [.object 0 r, .object 0 r] := rfl

/-- Only the node of a redirection can fail unnoticed. -/
private theorem Course.surface_iff {log : SyncLog} (h : Course ops replies this s o s' log) :
    FailuresSurface this o log ↔ HopsAnswered ops replies this s := by
  cases h with
  | unrouted h =>
    simp only [HopsAnswered, h]
    exact iff_of_true ⟨by simp, by simp, by simp⟩ trivial
  | unhashed h =>
    simp only [HopsAnswered, h]
    exact iff_of_true ⟨by simp, by simp, by simp⟩ trivial
  | unformatted h hcmd =>
    simp only [HopsAnswered, h]
    exact iff_of_true ⟨by simp [SyncLog.answers, answerTo], by simp [SyncLog.pointers, pointerIn], by simp⟩
      (by simp [hcmd])
  | lost h hcmd hlost =>
    simp only [HopsAnswered, h]
    refine iff_of_true ⟨fun _ => ⟨_, rfl⟩, by simp [SyncLog.pointers, pointerIn, requestLog], by simp⟩ ?_
    intro _ he r hr
    rw [hlost he] at hr
    cases hr
  | @down con s' cmd r h hcmd he hr hdown =>
    have hpointers : SyncLog.pointers (⟨.getConnection this.key_, .ret con⟩ :: requestLog con.2 cmd (some (0, r)) ++
        [⟨.err con.2, .ret false⟩, ⟨.readReply (.object 0 r), .ret r⟩, ⟨.freeReplyObject (.object 0 r), .ret ()⟩]) =
        [.object 0 r, .object 0 r] := rfl
    simp only [HopsAnswered, h]
    refine iff_of_true ⟨fun _ => ⟨_, rfl⟩, by rw [hpointers]; simp, by simp⟩ ?_
    intro _ _ r' hr' hup
    rw [hr] at hr'
    cases hr'
    rw [hdown] at hup
    cases hup
  | @ready con s' cmd r h hcmd he hr hdown hres =>
    simp only [HopsAnswered, h]
    refine iff_of_true ⟨by simp, by simp, fun p hp => ?_⟩ ?_
    · cases hp
      exact ⟨[_], con.2, cmd, 0, r, _, hcmd, rfl, rfl, rfl⟩
    · intro _ _ r' hr' _ state host port hres' hs
      rw [hr] at hr'
      cases hr'
      rw [hres] at hres'
      cases hres'
      rcases hs with hs | hs <;> cases hs
  | @redirected con s' s'' cmd host port r state o log h hcmd he hr hdown hres hf =>
    have hfirst : SyncLog.pointers (opening this con cmd r ++ [⟨.freeReplyObject (.object 0 r), .ret ()⟩]) =
        [.object 0 r, .object 0 r, .object 0 r] := rfl
    have hanswers : SyncLog.answers (opening this con cmd r ++ [⟨.freeReplyObject (.object 0 r), .ret ()⟩]) =
        [some (0, r)] := rfl
    have hiff := hf.surface_iff (by rw [hanswers]; simp) (by rw [hfirst]; simp)
    rw [List.append_assoc, List.singleton_append] at hiff
    rw [hiff]
    simp only [HopsAnswered, h]
    constructor
    · intro hhop _ _ r' hr' _ state' host' port' hres' _
      rw [hr] at hr'
      cases hr'
      rw [hres] at hres'
      cases hres'
      exact hhop
    · intro hall
      exact hall (by rw [hcmd]; rfl) he r hr hdown state host port hres hf.state_cases

end process

/-! ### `createCluster` -/

private theorem Creation.surfaces_iff {ρ : Type} {boot : Bootstrap} {fn : Functions ρ} {opens : Nat → Prop}
    {o : Outcome Exn Unit} {w : World (WithLog ρ)} (h : Creation boot fn opens o w) :
    CreationSurfaces boot o ↔ (boot.connect = .healthy → boot.slots.isSome = true) := by
  cases h with
  | unconnected h => exact iff_of_true ⟨by simp, fun _ => ⟨_, rfl⟩⟩ (by simp [h])
  | broken h => exact iff_of_true ⟨by simp, fun _ => ⟨_, rfl⟩⟩ (by simp [h])
  | unanswered h hs => exact iff_of_false (fun hall => hall.defined rfl) (by simp [h, hs])
  | failed h hs => exact iff_of_true ⟨by simp, by simp [h, hs]⟩ (by simp [hs])
  | created hyes =>
    obtain ⟨h, ⟨r, hs, -⟩, -⟩ := hyes
    exact iff_of_true ⟨by simp, by simp [h, hs]⟩ (by simp [hs])

/-- Failures surface exactly when the node of a redirection answers, or the moved callback throws a `ClusterException`
first, and exactly when a bootstrap node that can be connected to answers `CLUSTER SLOTS`. -/
theorem failuresSurface_iff (ops : ClusterOps σ) (replies : Nat → Option RedisReply) (this : HiredisCommand) (s : σ)
    (boot : Bootstrap) (conn free : Bool) (connects : List UserConnect) :
    (FailuresSurface this (runSync ops replies this.process (SyncWorld.start s, [])).1
        (runSync ops replies this.process (SyncWorld.start s, [])).2.2 ↔ HopsAnswered ops replies this s) ∧
      (CreationSurfaces boot (HiredisCommand.createCluster boot (userFunctions conn free) (uncreated connects)).1 ↔
        (boot.connect = .healthy → boot.slots.isSome = true)) := by
  obtain ⟨o, w', log, hrun, hcourse⟩ := process_course ops replies this s
  obtain ⟨o', v', hcreate, hgoes⟩ := HiredisCommand.createCluster_cases boot conn free connects
  rw [hrun, hcreate]
  exact ⟨hcourse.surface_iff, hgoes.surfaces_iff⟩

/-- The slot has moved to a node that does not answer. -/
def movedToSilence : Nat → Option RedisReply
  | 0 => some (.error (.ofText "MOVED 12182 10.0.0.2:7000"))
  | _ => none

/-- `GET foo` and its calls. -/
def unansweredCall : Outcome Exn ReplyPtr × SyncWorld (World Environment) × SyncLog :=
  runSync (Cluster.ops functions) movedToSilence getFoo.process (SyncWorld.start HiredisCommand.oneNode, [])

/-- The variable that `redisGetReply` has not set is returned. -/
theorem not_failuresSurface : ¬ FailuresSurface getFoo unansweredCall.1 unansweredCall.2.2 := by
  intro h
  have hunset : (unansweredCall.1 >>= fun p => Outcome.ret p.object?.isSome) = .ret false := by decide +kernel
  generalize unansweredCall = x at h hunset
  obtain ⟨o, x⟩ := x
  cases o with
  | ret p =>
    obtain ⟨-, -, -, a, r, -, -, rfl, -⟩ := h.returns p rfl
    cases hunset
  | throws e => cases hunset
  | undefined => cases hunset

end HiredisCluster
