import Mathlib.Data.List.TakeWhile
import HiredisCluster.AsyncFrame
import HiredisCluster.RedirectionSyntax
import HiredisCluster.SyncRedirections

/-!
# `moved` before the redirection is followed

A `MOVED` reply should be announced by one call of `Cluster::moved`, before anything is sent for it, so that a callback
that throws stops the redirection (`Announces`).  The synchronous client sends the command first and calls `moved` only
when it has a connection, so it announces no `MOVED` reply in time.  The asynchronous client announces the replies to
commands, except those that mention `CLUSTERDOWN`, and not the replies to `ASKING`
(`moved_announced_iff`).
-/

namespace HiredisCluster

open Cxx AsyncHiredisCommand

/-- What matters of a redirection: a reply arrives, `Cluster::moved` is executed and may throw, a message is handed to
hiredis. -/
inductive Effect where
  | received (con : ConPtr) (reply : RedisReply)
  | moved (threw : Bool)
  | sent (con : ConPtr)

namespace Effect

def isReceived : Effect → Bool
  | received _ _ => true
  | _ => false

def isMoved : Effect → Bool
  | moved _ => true
  | _ => false

def isSent : Effect → Bool
  | sent _ => true
  | _ => false

/-- The effect of `Cluster::moved`. -/
def ofMoved : Outcome Exn Unit → Effect
  | .ret _ => moved false
  | _ => moved true

end Effect

/-- A `MOVED` redirection arrives. -/
def Effect.receivesMoved : Effect → Bool
  | received _ r => r.IsMoved
  | _ => false

/-- After a `MOVED` reply on `con` and up to the next reply, `moved` is executed exactly once and before anything is
sent; when it throws, the redirection is not followed. -/
structure AnnouncedIn (con : ConPtr) (l : List Effect) : Prop where
  once : l.countP Effect.isMoved = 1
  first : (l.takeWhile fun e => ¬ e.isSent).countP Effect.isMoved = 1
  aborts : Effect.moved true ∈ l → ∀ c, Effect.sent c ∈ l → c = con

/-- Every `MOVED` reply is announced. -/
def Announces : List Effect → Prop
  | [] => True
  | .received con r :: rest => (r.IsMoved → AnnouncedIn con (rest.takeWhile fun e => ¬ e.isReceived)) ∧ Announces rest
  | _ :: rest => Announces rest

/-! ### The effects of a reply to the asynchronous client -/

/-- What the asynchronous client records of them. -/
def Event.effects : Event → List Effect
  | sent req _ | refused req _ => [.sent req.con]
  | moved threw => [.moved threw]
  | _ => []

/-- A reply arrives, and the client does what it records in the step. -/
def replyEffects (w : AsyncWorld) (con : ConPtr) (r : RedisReply) (ch : Choices) : List Effect :=
  .received con r ::
    (((Stimulus.reply con r ch).exec w).2.client.trace.drop w.client.trace.length).flatMap Event.effects

private theorem replyEffects_eq {w : AsyncWorld} {con : ConPtr} {req : Request} (ho : w.oldest con = some req)
    (r : RedisReply) (ch : Choices) {evs : List Event}
    (h : (req.callback.run con (.object w.replies r) req.data (w.fire req r ch)).2.client.trace = w.client.trace ++ evs) :
    replyEffects w con r ch = .received con r :: evs.flatMap Event.effects := by
  have hexec : ((Stimulus.reply con r ch).exec w).2.client.trace = w.client.trace ++ evs := by
    rw [reply_exec ho r ch]
    exact Code.Preserves.after (I := fun v : AsyncWorld => v.client.trace = w.client.trace ++ evs) h fun _ _ hv => hv
  rw [replyEffects, hexec, List.drop_left]

/-- Where `moved` is not executed only messages are noted, on the connections that they may go to. -/
private theorem sent_of_within {C : ConPtr → Prop} {T : ClusterException → Prop} {evs : List Event}
    (h : ∀ e ∈ evs, e.Within C T False) : ∀ x ∈ evs.flatMap Event.effects, ∃ c, x = .sent c ∧ C c := by
  intro x hx
  obtain ⟨e, he, hxe⟩ := List.mem_flatMap.1 hx
  have hwithin := h e he
  cases e with
  | sent req cause => exact ⟨_, List.mem_singleton.1 hxe, hwithin⟩
  | refused req cause => exact ⟨_, List.mem_singleton.1 hxe, hwithin⟩
  | moved threw => exact hwithin.elim
  | _ => cases hxe

section callbacks

variable {w : AsyncWorld} {a : Nat} {r : RedisReply} (that : ObjPtr) (con : ConPtr)

/-- The answer to `ASKING` never leads to `moved`. -/
private theorem runRedisCallback_records (p : ReplyPtr) :
    w.Records (fun _ => True) (fun _ => True) False (runRedisCallback con p that w).2 :=
  (World.Records.unaffected w).runRedisCallback that con p (fun _ => trivial) (fun _ => trivial) w (.nothing rfl)

/-- A reply that mentions `CLUSTERDOWN` is not looked at any further. -/
private theorem processCommandReply_down (ha : a ∉ w.freed) (hdown : r.mentionsClusterDown = true) :
    w.Records (fun _ => True) (fun _ => True) False (processCommandReply con (.object a r) that w).2 := by
  have hcheck := checkCritical_eq ha r
  rw [hdown, if_pos rfl] at hcheck
  rw [processCommandReply_of_throws hcheck]
  exact (World.Records.unaffected w).conclude that con _ trivial trivial .failed (.error .clusterDown) (fun _ _ => trivial)
    w (.nothing rfl)

/-- Any other `MOVED` reply to a command: `moved` is executed first, and when it throws only the connection that the reply
came from is used. -/
private theorem processCommandReply_moved (ha : a ∉ w.freed) (hdown : r.mentionsClusterDown = false) (hm : r.IsMoved)
    {I : AsyncWorld → Prop}
    (hI : Unaffected (fun c => w.movedException.isSome = true → c = con) (fun _ => True) False I)
    (hw : I (w.afterMoved w.movedException.isSome)) : I (processCommandReply con (.object a r) that w).2 := by
  obtain ⟨host, port, hres⟩ := hm.processResult_eq
  have hrun := clusterMoved_eq w
  have hfollow : I (followState that .moved host port w).2 := by
    cases hex : w.movedException with
    | none =>
      rw [hex] at hrun hI hw
      rw [followState, Code.bind_of_ret hrun]
      exact hI.followMoved that (fun _ h => by cases h) host port _ hw
    | some ex =>
      rw [hex] at hrun hw
      rw [followState, Code.bind_of_throws hrun]
      exact hw
  rw [← Code.attempt_snd Exn.clusterException] at hfollow
  rw [processCommandReply_of_up that con ha hdown hres]
  exact Code.Preserves.after hfollow fun result =>
    hI.conclude that con (.object a r) (fun _ => rfl) trivial .moved result fun _ _ => trivial

end callbacks

/-! ### Which replies are announced -/

private theorem announces_of_no_received {l : List Effect} (h : ∀ e ∈ l, e.isReceived = false) : Announces l := by
  induction l with
  | nil => trivial
  | cons e rest ih =>
    have hrest := ih fun e he => h e (List.mem_cons_of_mem _ he)
    cases e with
    | received con r => cases h _ (List.mem_cons_self ..)
    | moved threw => exact hrest
    | sent con => exact hrest

/-- The last reply that is received. -/
private theorem announces_received_iff {con : ConPtr} {r : RedisReply} {l : List Effect}
    (h : ∀ e ∈ l, e.isReceived = false) :
    Announces (.received con r :: l) ↔ (r.IsMoved → AnnouncedIn con l) := by
  have hall : (l.takeWhile fun e => ¬ e.isReceived) = l :=
    List.takeWhile_eq_self_iff.2 fun e he => by simp [h e he]
  show _ ∧ _ ↔ _
  rw [hall]
  exact and_iff_left (announces_of_no_received h)

/-- Sending a message is neither receiving a reply nor `moved`. -/
private theorem Effect.not_of_isSent {e : Effect} (h : e.isSent = true) : e.isReceived = false ∧ e.isMoved = false := by
  cases e with
  | sent con => exact ⟨rfl, rfl⟩
  | _ => cases h

private theorem countP_isMoved_of_isSent {l : List Effect} (h : ∀ e ∈ l, e.isSent = true) :
    l.countP Effect.isMoved = 0 := by
  rw [List.countP_eq_zero]
  intro e he
  simp [(Effect.not_of_isSent (h e he)).2]

private theorem not_announcedIn_of_isSent {l : List Effect} (h : ∀ e ∈ l, e.isSent = true) (con : ConPtr) :
    ¬ AnnouncedIn con l := by
  intro ha
  have hone := ha.once
  rw [countP_isMoved_of_isSent h] at hone
  cases hone

/-- `moved` comes first. -/
private theorem announcedIn_of_moved {con : ConPtr} {threw : Bool} {l : List Effect} (h : ∀ e ∈ l, e.isSent = true)
    (ht : threw = true → ∀ e ∈ l, e = .sent con) : AnnouncedIn con (.moved threw :: l) where
  once := by
    rw [List.countP_cons_of_pos rfl, countP_isMoved_of_isSent h]
  first := by
    rw [List.takeWhile_cons_of_pos (by simp [Effect.isSent]), List.countP_cons_of_pos rfl, countP_isMoved_of_isSent]
    exact fun e he => h e ((List.takeWhile_sublist _).subset he)
  aborts := by
    intro hm c hc
    rcases List.mem_cons.1 hm with hm | hm
    · rcases List.mem_cons.1 hc with hc | hc
      · cases hc
      · injection hm with hm
        injection ht hm.symm _ hc
    · cases h _ hm

/-- A reply to the asynchronous client is announced, and the cluster has moved from then on. -/
structure AnnouncesReply (w : AsyncWorld) (con : ConPtr) (r : RedisReply) (ch : Choices) : Prop where
  announced : Announces (replyEffects w con r ch)
  moved : ∀ es, (Stimulus.after es ((Stimulus.reply con r ch).exec w).2).cluster.moved_ = true

section reply

variable {w : AsyncWorld} {con : ConPtr} {req : Request} (ho : w.oldest con = some req) {r : RedisReply} (hm : r.IsMoved)
  (ch : Choices)

include ho

/-- The flag is set before an exception can leave the callback. -/
private theorem moved_of_reply (hfree : w.replies ∉ w.freed) (hcb : req.callback = .processCommandReply)
    (hdown : r.mentionsClusterDown = false) (hm : r.IsMoved) :
    ((Stimulus.reply con r ch).exec w).2.cluster.moved_ = true := by
  have hcallback := processCommandReply_moved (w := w.fire req r ch) req.data con hfree hdown hm (Keeps.unaffected _)
    (.refl _)
  rw [reply_exec ho r ch, hcb]
  exact Code.Preserves.after (I := fun v : AsyncWorld => v.cluster.moved_ = true) (hcallback.moved rfl) fun _ _ h => h

/-- A `MOVED` reply for which `moved` is not executed. -/
private theorem not_announcesReply (hm : r.IsMoved)
    (h : (w.fire req r ch).Records (fun _ => True) (fun _ => True) False
      (req.callback.run con (.object w.replies r) req.data (w.fire req r ch)).2) : ¬ AnnouncesReply w con r ch := by
  obtain ⟨evs, htrace, hevs⟩ := h
  have hsent : ∀ e ∈ evs.flatMap Event.effects, e.isSent = true := by
    intro e he
    obtain ⟨c, rfl, -⟩ := sent_of_within hevs e he
    rfl
  intro ha
  have hannounced := ha.announced
  rw [replyEffects_eq ho r ch htrace, announces_received_iff fun e he => (Effect.not_of_isSent (hsent e he)).1]
    at hannounced
  exact not_announcedIn_of_isSent hsent con (hannounced hm)

/-- A `MOVED` reply is announced exactly when it answers a command and does not mention `CLUSTERDOWN`. -/
private theorem announcesReply_iff (hfree : w.replies ∉ w.freed) (hm : r.IsMoved) :
    AnnouncesReply w con r ch ↔ req.callback = .processCommandReply ∧ r.mentionsClusterDown = false := by
  have hnot := not_announcesReply ho ch hm
  cases hcb : req.callback with
  | runRedisCallback =>
    rw [hcb] at hnot
    exact iff_of_false (hnot (runRedisCallback_records req.data con _)) fun h => by cases h.1
  | processCommandReply =>
    rw [hcb] at hnot
    cases hdown : r.mentionsClusterDown with
    | true => exact iff_of_false (hnot (processCommandReply_down req.data con hfree hdown)) fun h => by cases h.2
    | false =>
      obtain ⟨more, htrace, hmore⟩ := processCommandReply_moved (w := w.fire req r ch) req.data con hfree hdown hm
        (World.Records.unaffected _) (.nothing rfl)
      have hsent := sent_of_within hmore
      have hall : ∀ e ∈ more.flatMap Event.effects, e.isSent = true := by
        intro e he
        obtain ⟨c, rfl, -⟩ := hsent e he
        rfl
      refine iff_of_true ⟨?_, fun es => ?_⟩ ⟨rfl, rfl⟩
      · have hrecorded : (req.callback.run con (.object w.replies r) req.data (w.fire req r ch)).2.client.trace =
            w.client.trace ++ .moved (w.fire req r ch).movedException.isSome :: more := by
          rw [hcb]
          exact htrace.trans (List.append_assoc ..)
        rw [replyEffects_eq ho r ch hrecorded, List.flatMap_cons, announces_received_iff]
        · refine fun _ => announcedIn_of_moved hall fun hthrew e he => ?_
          obtain ⟨c, rfl, hc⟩ := hsent e he
          rw [hc hthrew]
        · intro e he
          rcases List.mem_cons.1 he with rfl | he
          · rfl
          · exact (Effect.not_of_isSent (hall e he)).1
      · exact (keeps_after es _).moved (moved_of_reply ho ch hfree hcb hdown hm)

end reply

/-! ### The synchronous client -/

/-- The effects of a call that the synchronous client makes. -/
def Effect.ofCall : Program.Answered syncInterface Exn → List Effect
  | ⟨.redisGetReply con, .ret (some (_, r))⟩ => [.sent con, .received con r]
  | ⟨.redisGetReply con, _⟩ => [.sent con]
  | ⟨.redisCommand con _, .ret (some (_, r))⟩ => [.sent con, .received con r]
  | ⟨.redisCommand con _, _⟩ => [.sent con]
  | ⟨.moved, o⟩ => [.ofMoved o]
  | _ => []

def SyncLog.effects (log : SyncLog) : List Effect := log.flatMap Effect.ofCall

section sync

variable {σ : Type} (ops : ClusterOps σ) (isMoved : σ → Bool) (replies : Nat → Option RedisReply)
  (this : HiredisCommand) (s : σ)

/-- What a call of `process` does from `s` on. -/
def callEffects : List Effect := (runSync ops replies this.process (SyncWorld.start s, [])).2.2.effects

/-- Some reply that the call receives is a `MOVED` redirection. -/
def ReceivesMoved : Prop := ∃ e ∈ callEffects ops replies this s, e.receivesMoved = true

instance : Decidable (ReceivesMoved ops replies this s) := inferInstanceAs (Decidable (∃ e ∈ _, _))

/-- The `MOVED` replies of a call are announced, and after one of them the cluster has moved. -/
structure AnnouncesCall : Prop where
  announced : Announces (callEffects ops replies this s)
  moved : ReceivesMoved ops replies this s →
    isMoved (runSync ops replies this.process (SyncWorld.start s, [])).2.1.cluster = true

end sync

/-- Where `moved` is not executed there must be no `MOVED` reply. -/
private theorem announces_iff_of_not_isMoved {l : List Effect} (h : ∀ e ∈ l, e.isMoved = false) :
    Announces l ↔ ¬ ∃ e ∈ l, e.receivesMoved = true := by
  induction l with
  | nil => simp [Announces]
  | cons e rest ih =>
    have hrest := ih fun e he => h e (List.mem_cons_of_mem _ he)
    rw [List.exists_mem_cons_iff, not_or, ← hrest]
    cases e with
    | received con r =>
      have hnone : ¬ AnnouncedIn con (rest.takeWhile fun e => ¬ e.isReceived) := by
        intro ha
        have hone := ha.once
        rw [List.countP_eq_zero.2] at hone
        · cases hone
        · intro e he
          simp [h e (List.mem_cons_of_mem _ ((List.takeWhile_sublist _).subset he))]
      show (r.IsMoved → _) ∧ Announces rest ↔ ¬ decide r.IsMoved = true ∧ _
      rw [decide_eq_true_iff, imp_iff_not hnone]
    | moved threw => cases h _ (List.mem_cons_self ..)
    | sent con =>
      show Announces rest ↔ ¬ false = true ∧ _
      simp

/-- A `MOVED` reply that is followed at once. -/
private theorem not_announces_of_sent {con c₀ c : ConPtr} {r : RedisReply} {rest : List Effect} (hm : r.IsMoved) :
    ¬ Announces (.sent c₀ :: .received con r :: .sent c :: rest) := by
  intro h
  have hfirst := (h.1 hm).first
  rw [List.takeWhile_cons_of_pos (by simp [Effect.isReceived]), List.takeWhile_cons_of_neg (by simp [Effect.isSent])]
    at hfirst
  cases hfirst

section courses

variable {σ : Type} {ops : ClusterOps σ} {replies : Nat → Option RedisReply} {this : HiredisCommand} {s s' : σ}
  {o : Outcome Exn ReplyPtr} {log : SyncLog}

private theorem effects_connecting {host port cmd : Bytes} {hcon : HostConnection} {c : ConPtr}
    (answer : Option (Nat × RedisReply)) (l : SyncLog) :
    ∃ rest, (connecting host port hcon c false ++ requestLog c cmd answer ++ l).effects = .sent c :: rest := by
  cases answer with
  | none => exact ⟨_, rfl⟩
  | some x => exact ⟨_, rfl⟩

/-- `moved` is executed only after a command that was sent. -/
private theorem Follows.effects_cases {host port : Bytes} {state : ProcessState}
    (h : Follows ops replies this s host port state o s' log) :
    (∀ e ∈ log.effects, e.isMoved = false) ∨ (state = .moved ∧ ∃ c rest, log.effects = .sent c :: rest) := by
  cases h with
  | movedThrown hcmd h he hm => exact Or.inr ⟨rfl, _, effects_connecting _ _⟩
  | movedUndefined hcmd h he hm => exact Or.inr ⟨rfl, _, effects_connecting _ _⟩
  | moved hcmd h he hm => exact Or.inr ⟨rfl, _, effects_connecting _ _⟩
  | _ => left; simp [SyncLog.effects, Effect.ofCall, connecting, askingLog, requestLog, Effect.isMoved]

private theorem Course.announces_iff (h : Course ops replies this s o s' log) :
    Announces log.effects ↔ ¬ ∃ e ∈ log.effects, e.receivesMoved = true := by
  cases h with
  | @redirected con s₁ s₂ cmd host port r state o log h hcmd he hr hdown hres hf =>
    have heffects : SyncLog.effects (opening this con cmd r ++ ⟨.freeReplyObject (.object 0 r), .ret ()⟩ :: log) =
        .sent con.2 :: .received con.2 r :: log.effects := by
      simp [SyncLog.effects, Effect.ofCall, opening, requestLog]
    rw [heffects]
    rcases hf.effects_cases with hno | ⟨rfl, c, rest, hrest⟩
    · apply announces_iff_of_not_isMoved
      simpa [Effect.isMoved] using hno
    · have hm := RedisReply.isMoved_of_processResult hres
      rw [hrest]
      exact iff_of_false (not_announces_of_sent hm) fun hno =>
        hno ⟨.received con.2 r, by simp, decide_eq_true_iff.2 hm⟩
  | _ =>
    apply announces_iff_of_not_isMoved
    simp [SyncLog.effects, Effect.ofCall, opening, requestLog, Effect.isMoved]

/-- A call announces its `MOVED` replies only when it receives none. -/
private theorem announcesCall_iff (ops : ClusterOps σ) (isMoved : σ → Bool) (replies : Nat → Option RedisReply)
    (this : HiredisCommand) (s : σ) :
    AnnouncesCall ops isMoved replies this s ↔ ¬ ReceivesMoved ops replies this s := by
  obtain ⟨o, w', log, hrun, hcourse⟩ := process_course ops replies this s
  have heffects : callEffects ops replies this s = log.effects := by unfold callEffects; rw [hrun]
  have hiff := hcourse.announces_iff
  rw [← heffects] at hiff
  exact ⟨fun h => hiff.1 h.announced, fun h => ⟨hiff.2 h, fun hr => absurd hr h⟩⟩

end courses

/-- The synchronous client never announces a `MOVED` reply that it receives; the asynchronous client announces exactly
those that answer a command and do not mention `CLUSTERDOWN`. -/
theorem moved_announced_iff {σ : Type} (ops : ClusterOps σ) (isMoved : σ → Bool) (replies : Nat → Option RedisReply)
    (this : HiredisCommand) (s : σ) {w : AsyncWorld} {hist : List (AsyncWorld × Stimulus)} (run : AsyncRun w hist)
    {con : ConPtr} {req : Request} (ho : w.oldest con = some req) {r : RedisReply} (hm : r.IsMoved) (ch : Choices) :
    (AnnouncesCall ops isMoved replies this s ↔ ¬ ReceivesMoved ops replies this s) ∧
      (AnnouncesReply w con r ch ↔ req.callback = .processCommandReply ∧ r.mentionsClusterDown = false) := by
  refine ⟨announcesCall_iff ops isMoved replies this s, announcesReply_iff ho ch (fun ha => ?_) hm⟩
  exact Nat.lt_irrefl _ ((sound_of_run run).freed _ ha)

/-- A `MOVED` redirection of the key `foo`, then the answer of the new node. -/
def movedOnce : Nat → Option RedisReply
  | 0 => some (.error (.ofText "MOVED 12182 10.0.0.2:7001"))
  | 1 => some (.string (.ofText "bar"))
  | _ => none

/-- The synchronous client sends the command to the new node before `moved`; when no connection to it can be made,
`moved` is not executed at all. -/
theorem not_moved_announced :
    ¬ AnnouncesCall (Cluster.ops HiredisCommand.functions) (fun w => w.cluster.moved_) movedOnce HiredisCommand.getFoo
        HiredisCommand.oneNode ∧
      ¬ AnnouncesCall (Cluster.ops HiredisCommand.functions) (fun w => w.cluster.moved_) movedOnce HiredisCommand.getFoo
        (HiredisCommand.oneNode.setClient { connects := [.null], movedCb := none }) := by
  constructor
  · rw [announcesCall_iff, not_not]
    decide +kernel
  · intro h
    have hmoved := h.moved (by decide +kernel)
    revert hmoved
    decide +kernel

/-- A call that is answered at once, and a command whose reply is a `MOVED` redirection. -/
theorem moved_announced_iff_first :
    let w := Stimulus.after [.command ⟨false, text "foo", some (text "GET foo"), true⟩ calm] oneNode
    let r := RedisReply.error (.ofText "MOVED 12182 10.0.0.2:7001")
    (AnnouncesCall (Cluster.ops HiredisCommand.functions) (fun w => w.cluster.moved_)
        (fun _ => some (.string (.ofText "bar"))) HiredisCommand.getFoo HiredisCommand.oneNode ↔
      ¬ ReceivesMoved (Cluster.ops HiredisCommand.functions) (fun _ => some (.string (.ofText "bar")))
        HiredisCommand.getFoo HiredisCommand.oneNode) ∧
      (AnnouncesReply w 0 r calm ↔ Callback.processCommandReply = .processCommandReply ∧ r.mentionsClusterDown = false) := by
  intro w r
  have run := run_after oneNode_initial [.command ⟨false, text "foo", some (text "GET foo"), true⟩ calm]
    (by decide +kernel)
  have ho : w.oldest 0 = some ⟨0, .processCommandReply, 0, .formatted (text "GET foo")⟩ := by decide +kernel
  exact moved_announced_iff _ _ _ _ _ run ho (by decide +kernel) calm

end HiredisCluster
