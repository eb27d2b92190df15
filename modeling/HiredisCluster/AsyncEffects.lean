import HiredisCluster.AsyncHiredisCommand

/-!
# What the asynchronous functions do

The functions of a command object as case distinctions on their inputs, with the world each case leaves behind.  Worlds
are described by three operations: `noted` (events are recorded and choices used up), `enqueue` (hiredis has accepted a
request) and `kill` (an object is gone).  The main result is `settle_cases`: however the `try` block of a callback ends,
the command either has one more request outstanding, or its last reply goes to the user and the object is deleted.
-/

namespace HiredisCluster

open Cxx

namespace Event

/-- A refused message or a call of the error handler: nothing the user's callback or another command can notice. -/
def Quiet : Event → Prop
  | refused _ _ | userErrorCb _ _ _ => True
  | _ => False

/-- The request of a message that was sent or refused. -/
def attempt : Event → Option Request
  | sent req _ | refused req _ => some req
  | _ => none

end Event

namespace AsyncHiredisCommand

/-- The command of an object as a request on a connection. -/
def commandOn (obj : AsyncHiredisCommand) (that : ObjPtr) (con : ConPtr) : Request :=
  ⟨con, .processCommandReply, that, .formatted obj.cmd_⟩

/-- `ASKING` as a request of an object. -/
def askingOn (that : ObjPtr) (con : ConPtr) : Request := ⟨con, .runRedisCallback, that, .format (text "ASKING")⟩

/-- What is recorded when a reply is passed to the user. -/
def given (obj : AsyncHiredisCommand) (that : ObjPtr) (reply : RedisReply) (firing : Option (Request × ReplyPtr)) :
    List Event :=
  if obj.redisCallback_ then [.redisCallback that reply firing] else []

end AsyncHiredisCommand

open AsyncHiredisCommand

namespace World

variable (w : AsyncWorld)

def noted (ch : Choices) (evs : List Event) : AsyncWorld :=
  w.updClient fun c => { c with choices := ch, trace := c.trace ++ evs }

def enqueue (req : Request) : AsyncWorld := w.updClient fun c => { c with pending := c.pending ++ [req] }

/-- The object is deleted and its connection disconnected. -/
def kill (that : ObjPtr) (obj : AsyncHiredisCommand) : AsyncWorld :=
  (match obj.con_.2 with
    | some c => w.markDisconnecting c
    | none => w).updClient fun c => { c with objects := c.objects.set that { obj with alive := false } }

/-- A connection that hiredis has not freed. -/
def Open (con : ConPtr) : Prop := ∃ ctx, w.contexts[con]? = some ctx ∧ ctx.disconnected = false

/-- hiredis accepts a message on the connection, when the environment decides `s`. -/
def Accepts (con : ConPtr) (s : Status) : Prop := s = .ok ∧ ∀ ctx, w.contexts[con]? = some ctx → ctx.disconnecting = false

/-- What the environment decides about the next send and the one after it. -/
def firstSend : Status := w.client.choices.sends.headD .ok

def secondSend : Status := w.client.choices.sends.tail.headD .ok

/-- The error handler is set and answers `RETRY`. -/
def WantsRetry (obj : AsyncHiredisCommand) : Prop :=
  obj.userErrorCb_ = true ∧ w.client.choices.actions.headD .finish = .retry

/-- The object that `that` points at. -/
def Holds (that : ObjPtr) (obj : AsyncHiredisCommand) : Prop := w.client.objects[that]? = some obj ∧ obj.alive = true

end World

/-! ### Single functions -/

variable {w : AsyncWorld} {that : ObjPtr} {obj : AsyncHiredisCommand} {con : ConPtr}

/-- Changing an element that is there. -/
private theorem modify_eq_set {α : Type} {l : List α} {i : Nat} {a : α} (h : l[i]? = some a) (f : α → α) :
    l.modify i f = l.set i (f a) := by
  apply List.ext_getElem?
  intro j
  rw [List.getElem?_modify, List.getElem?_set]
  by_cases hij : i = j
  · subst hij
    rw [h]
    simp [(List.getElem?_eq_some_iff.1 h).1]
  · simp [hij]

theorem updObject_eq (h : w.client.objects[that]? = some obj) (f : AsyncHiredisCommand → AsyncHiredisCommand) :
    w.updObject that f = w.updClient fun c => { c with objects := c.objects.set that (f obj) } := by
  simp only [World.updObject, World.updClient, modify_eq_set h]

theorem object_eq (h : w.Holds that obj) : object that w = (.ret obj, w) := by
  simp [object, h.1, h.2]

theorem object_cases (that : ObjPtr) (w : AsyncWorld) :
    (∃ obj, object that w = (.ret obj, w) ∧ w.Holds that obj) ∨ object that w = (.undefined, w) := by
  unfold object
  cases h : w.client.objects[that]? with
  | none => right; rfl
  | some obj =>
    by_cases ha : obj.alive = true
    · left; exact ⟨obj, by simp [ha], h, ha⟩
    · right; simp [ha]

theorem context_open {con : ConPtr} (h : w.Open con) : ∃ ctx, context con w = (.ret ctx, w) := by
  obtain ⟨ctx, hctx, hdis⟩ := h
  exact ⟨ctx, by simp [context, hctx, hdis]⟩

/-- Using a context that hiredis has freed, or never made. -/
theorem context_closed {con : ConPtr} (h : ¬ w.Open con) : context con w = (.undefined, w) := by
  unfold context
  cases hctx : w.contexts[con]? with
  | none => rfl
  | some ctx =>
    have hdis : ctx.disconnected = true := by
      by_contra hno
      exact h ⟨ctx, hctx, by simpa using hno⟩
    simp [hdis]

theorem redisAsyncSend_closed (h : ¬ w.Open con) (callback : Callback) (data : ObjPtr) (message : Message) :
    redisAsyncSend (some con) callback data message w = (.undefined, w) :=
  Code.bind_of_undefined (context_closed h) _

/-- A send on an existing connection is accepted or refused. -/
theorem redisAsyncSend_cases (h : w.Open con) (callback : Callback) (data : ObjPtr) (message : Message) :
    ∃ ch, ch.actions = w.client.choices.actions ∧ ch.subscribed = w.client.choices.subscribed ∧
      ch.sends = w.client.choices.sends.tail ∧
      ((w.Accepts con w.firstSend ∧ redisAsyncSend (some con) callback data message w = (.ret .ok,
          (w.noted ch [.sent ⟨con, callback, data, message⟩ w.client.firing]).enqueue ⟨con, callback, data, message⟩)) ∨
        (¬ w.Accepts con w.firstSend ∧ redisAsyncSend (some con) callback data message w = (.ret .err,
          w.noted ch [.refused ⟨con, callback, data, message⟩ w.client.firing]))) := by
  obtain ⟨ctx, hctx, hdis⟩ := h
  refine ⟨{ w.client.choices with sends := w.client.choices.sends.tail }, rfl, rfl, rfl, ?_⟩
  have hcontext : context con w = (.ret ctx, w) := by simp [context, hctx, hdis]
  by_cases ha : w.Accepts con w.firstSend
  · left
    have hd := ha.2 ctx hctx
    have hs : w.client.choices.sends.headD .ok = .ok := ha.1
    refine ⟨ha, ?_⟩
    simp only [redisAsyncSend, Code.bind_apply, hcontext, andThen_ret, Code.get_apply]
    rw [if_neg (by rw [hd, hs]; simp)]
    rfl
  · right
    refine ⟨ha, ?_⟩
    simp only [redisAsyncSend, Code.bind_apply, hcontext, andThen_ret, Code.get_apply]
    rw [if_pos]
    · rfl
    · by_contra hcon
      rw [not_or] at hcon
      apply ha
      refine ⟨?_, fun ctx' hctx' => ?_⟩
      · cases hs : w.firstSend with
        | ok => rfl
        | err => exact absurd hs hcon.2
      · rw [hctx] at hctx'
        cases hctx'
        simpa using hcon.1

theorem processHiredisCommand_eq (h : w.Holds that obj) (con : Option ConPtr) :
    processHiredisCommand that con w = redisAsyncSend con .processCommandReply that (.formatted obj.cmd_) w := by
  simp [processHiredisCommand, object_eq h]

/-- Calling a handler that is set. -/
private theorem callUserErrorCb_eq (h : w.Holds that obj) (hs : obj.userErrorCb_ = true) (e : ClusterException)
    (state : ProcessState) : callUserErrorCb that e state w = (.ret (w.client.choices.actions.headD .finish),
      w.noted { w.client.choices with actions := w.client.choices.actions.tail } [.userErrorCb that e state]) := by
  simp only [callUserErrorCb, Code.bind_apply, object_eq h, andThen_ret, hs, ↓reduceIte]
  rfl

/-- A handler that is set is asked. -/
theorem wantsRetry_eq (h : w.Holds that obj) (hs : obj.userErrorCb_ = true) (e : ClusterException)
    (state : ProcessState) : wantsRetry that e state w = (.ret (decide (w.client.choices.actions.headD .finish = .retry)),
      w.noted { w.client.choices with actions := w.client.choices.actions.tail } [.userErrorCb that e state]) := by
  simp only [wantsRetry, Code.bind_apply, object_eq h, andThen_ret, hs, ↓reduceIte, callUserErrorCb_eq h hs]
  rfl

/-- Whether the error handler is set or not, nothing else happens. -/
private theorem wantsRetry_cases (h : w.Holds that obj) (e : ClusterException) (state : ProcessState) :
    ∃ ch evs b, wantsRetry that e state w = (.ret b, w.noted ch evs) ∧ (b = true ↔ w.WantsRetry obj) ∧
      ch.sends = w.client.choices.sends ∧ ch.subscribed = w.client.choices.subscribed ∧
      (∀ e ∈ evs, e.Quiet) ∧ evs.filterMap Event.attempt = [] := by
  by_cases hs : obj.userErrorCb_ = true
  · refine ⟨_, _, _, wantsRetry_eq h hs e state, ?_, rfl, rfl, by simp [Event.Quiet], rfl⟩
    simp [World.WantsRetry, hs]
  · refine ⟨w.client.choices, [], false, ?_, ?_, rfl, rfl, by simp, rfl⟩
    · simp only [wantsRetry, Code.bind_apply, object_eq h, andThen_ret, hs]
      simp [World.noted, World.updClient, World.setClient]
    · simp [World.WantsRetry, hs]

private theorem passToUser_eq (h : w.Holds that obj) {r : ReplyPtr} {reply : RedisReply}
    (hr : derefReply r w = (.ret reply, w)) :
    passToUser that r w = (.ret (), w.noted w.client.choices (obj.given that reply w.client.firing)) := by
  simp only [passToUser, readReply, Code.bind_apply, hr, andThen_ret, object_eq h]
  by_cases hc : obj.redisCallback_ = true
  · simp [hc, given]; rfl
  · simp [hc, given, World.noted, World.updClient, World.setClient]

/-- Deleting an object whose connection, if it has one, exists. -/
theorem delete_eq (h : w.Holds that obj) (hcon : ∀ c, obj.con_.2 = some c → w.Open c) :
    delete that w = (.ret (), (w.noted w.client.choices [.deleted that]).kill that obj) := by
  have hmod := modify_eq_set h.1 fun o => { o with alive := false }
  simp only [delete, Code.bind_apply, object_eq h, andThen_ret]
  cases hc : obj.con_.2 with
  | none =>
    simp [World.updObject, World.record, World.noted, World.kill, World.updClient, World.setClient, hc, hmod]
  | some c =>
    obtain ⟨ctx, hctx, hdis⟩ := hcon c hc
    simp [redisAsyncDisconnect, context, hctx, hdis, World.updObject, World.record, World.noted, World.kill,
      World.updClient, World.setClient, World.markDisconnecting, hc, hmod]

/-! ### How a callback ends -/

/-- What the `try` block of a callback does: nothing is to be done, it sends one message, or an exception is thrown
before anything is sent. -/
inductive Attempt where
  | ready
  | sends (req : Request)
  | fails

def Attempt.requests : Attempt → List Request
  | sends req => [req]
  | _ => []

namespace World

variable (w : AsyncWorld)

/-- The handler has the command sent again on `con`, and hiredis accepts it. -/
def Resends (con : ConPtr) (obj : AsyncHiredisCommand) : Attempt → Prop
  | .ready => False
  | .sends req => ¬ w.Accepts req.con w.firstSend ∧ w.WantsRetry obj ∧ w.Accepts con w.secondSend
  | .fails => w.WantsRetry obj ∧ w.Accepts con w.firstSend

/-- The callback leaves a request outstanding. -/
def Survives (con : ConPtr) (obj : AsyncHiredisCommand) (att : Attempt) : Prop :=
  (∃ req, att = .sends req ∧ w.Accepts req.con w.firstSend) ∨ w.Resends con obj att

/-- One more request is outstanding. -/
def Continues (req : Request) (evs : List Event) (w' : AsyncWorld) : Prop :=
  ∃ ch, w' = (w.noted ch (evs ++ [.sent req w.client.firing])).enqueue req

/-- The reply is passed to the user and the object deleted; on a subscribed connection it is only deleted when a retry
has failed. -/
def Ends (that : ObjPtr) (obj : AsyncHiredisCommand) (reply : RedisReply) (evs : List Event) (retried : Prop)
    (w' : AsyncWorld) : Prop :=
  ((w.client.choices.subscribed = true → retried) ∧
      ∃ ch, w' = (w.noted ch (evs ++ obj.given that reply w.client.firing ++ [.deleted that])).kill that obj) ∨
    (w.client.choices.subscribed = true ∧ ¬ retried ∧
      ∃ ch, w' = w.noted ch (evs ++ obj.given that reply w.client.firing))

theorem noted_noted (ch ch' : Choices) (evs evs' : List Event) :
    (w.noted ch evs).noted ch' evs' = w.noted ch' (evs ++ evs') := by
  simp [noted, updClient, setClient, List.append_assoc]

end World

theorem World.Continues.noted {ch : Choices} {evs evs' : List Event} {req : Request} {w' : AsyncWorld}
    (h : (w.noted ch evs).Continues req evs' w') : w.Continues req (evs ++ evs') w' := by
  obtain ⟨ch', rfl⟩ := h
  refine ⟨ch', ?_⟩
  rw [World.noted_noted, List.append_assoc]
  rfl

theorem World.Ends.noted {ch : Choices} {evs evs' : List Event} {reply : RedisReply} {retried retried' : Prop}
    {w' : AsyncWorld} (h : (w.noted ch evs).Ends that obj reply evs' retried w')
    (hch : ch.subscribed = w.client.choices.subscribed) (hr : retried ↔ retried') :
    w.Ends that obj reply (evs ++ evs') retried' w' := by
  rw [propext hr] at h
  rcases h with ⟨hsub, ch', rfl⟩ | ⟨hsub, hretried, ch', rfl⟩
  · left
    refine ⟨fun hs => hsub (hch.trans hs), ch', ?_⟩
    rw [World.noted_noted]
    simp only [List.append_assoc]
    rfl
  · right
    refine ⟨hch ▸ hsub, hretried, ch', ?_⟩
    rw [World.noted_noted]
    simp only [List.append_assoc]
    rfl

/-- How a callback with the reply `reply` on `con` settles the command after its `try` block: `w` is the world after the
block, apart from the message it sent or tried to send. -/
inductive Settles (that : ObjPtr) (obj : AsyncHiredisCommand) (con : ConPtr) (reply : RedisReply) (att : Attempt)
    (w w' : AsyncWorld) : Prop where
  | sent (req : Request) (h : att = .sends req) (ha : w.Accepts req.con w.firstSend) (hw : w.Continues req [] w')
  | resent (evs : List Event) (h : w.Resends con obj att) (hq : ∀ e ∈ evs, e.Quiet)
      (ht : evs.filterMap Event.attempt = att.requests) (hw : w.Continues (obj.commandOn that con) evs w')
  | ended (evs : List Event) (h : ¬ w.Survives con obj att) (hq : ∀ e ∈ evs, e.Quiet)
      (ht : ∃ more, evs.filterMap Event.attempt = att.requests ++ more ∧
        ((more = [] ∧ (att = .ready ∨ ¬ w.WantsRetry obj)) ∨ (more = [obj.commandOn that con] ∧ w.WantsRetry obj)))
      (hw : w.Ends that obj reply evs (att ≠ .ready ∧ w.WantsRetry obj) w')

section settle

variable (reply : RedisReply) {a : Nat}

private theorem retry_cases (h : w.Holds that obj) (hcon : w.Open con) (hobj : ∀ c, obj.con_.2 = some c → w.Open c)
    (hs : obj.userErrorCb_ = true) (ha : a ∉ w.freed) :
    (w.Accepts con w.firstSend ∧ ∃ w', retry con (.object a reply) that w = (.ret (), w') ∧
        w.Continues (obj.commandOn that con) [] w') ∨
      (¬ w.Accepts con w.firstSend ∧ ∃ w' evs, retry con (.object a reply) that w = (.ret (), w') ∧
        (∀ e ∈ evs, e.Quiet) ∧ evs.filterMap Event.attempt = [obj.commandOn that con] ∧
        w.Ends that obj reply evs True w') := by
  obtain ⟨ch, -, -, -, ⟨hacc, hsend⟩ | ⟨hacc, hsend⟩⟩ :=
    redisAsyncSend_cases hcon .processCommandReply that (.formatted obj.cmd_)
  · left
    refine ⟨hacc, _, ?_, ch, rfl⟩
    simp only [retry, Code.bind_apply, processHiredisCommand_eq h, hsend, andThen_ret]
    rfl
  · right
    have hnot := (processHiredisCommand_eq h (some con)).trans hsend
    have hcb := callUserErrorCb_eq (w := w.noted ch [.refused (obj.commandOn that con) w.client.firing]) h hs
      .disconnected .failed
    let ch' := { ch with actions := ch.actions.tail }
    let evs : List Event := [.refused (obj.commandOn that con) w.client.firing, .userErrorCb that .disconnected .failed]
    have hpass := passToUser_eq (w := w.noted ch' evs) h (derefReply_object (w := w.noted ch' evs) ha reply)
    have hdel := delete_eq (w := w.noted ch' (evs ++ obj.given that reply w.client.firing)) h hobj
    have hquiet : ∀ e ∈ evs, e.Quiet := by simp [evs, Event.Quiet]
    have hends : w.Ends that obj reply evs True
        ((w.noted ch' (evs ++ obj.given that reply w.client.firing ++ [.deleted that])).kill that obj) := by
      left
      exact ⟨fun _ => trivial, ch', rfl⟩
    refine ⟨hacc, _, evs, ?_, hquiet, rfl, hends⟩
    rw [World.noted_noted] at hcb hpass hdel
    rw [retry, Code.bind_of_ret hnot, if_pos (by decide)]
    refine (Code.bind_of_ret hcb _).trans ?_
    exact (Code.bind_of_ret hpass _).trans hdel

theorem finish_cases (h : w.Holds that obj) (hobj : ∀ c, obj.con_.2 = some c → w.Open c) (ha : a ∉ w.freed)
    (con : ConPtr) :
    ∃ w', complete con (.object a reply) that .finish w = (.ret (), w') ∧ w.Ends that obj reply [] False w' := by
  have hpass := passToUser_eq h (derefReply_object ha reply)
  have hsub : subscribed (w.noted w.client.choices (obj.given that reply w.client.firing)) =
      (.ret w.client.choices.subscribed, w.noted w.client.choices (obj.given that reply w.client.firing)) := rfl
  by_cases hs : w.client.choices.subscribed = true
  · refine ⟨_, ?_, Or.inr ⟨hs, id, w.client.choices, rfl⟩⟩
    rw [complete, if_neg (by decide), if_pos rfl, Code.bind_of_ret hpass, Code.bind_of_ret hsub,
      if_neg (not_not.2 hs)]
    rfl
  · refine ⟨_, ?_, Or.inl ⟨fun h => hs h, w.client.choices, rfl⟩⟩
    have hdel := delete_eq (w := w.noted w.client.choices (obj.given that reply w.client.firing)) h hobj
    rw [World.noted_noted] at hdel
    rw [complete, if_neg (by decide), if_pos rfl, Code.bind_of_ret hpass, Code.bind_of_ret hsub, if_pos hs]
    exact hdel

/-- The catch clause and what follows it. -/
theorem handle_cases (h : w.Holds that obj) (hcon : w.Open con) (hobj : ∀ c, obj.con_.2 = some c → w.Open c)
    (ha : a ∉ w.freed) (e : ClusterException) (state : ProcessState) :
    ∃ w' evs, (wantsRetry that e state >>= fun b => if b = true then complete con (.object a reply) that .retry
        else complete con (.object a reply) that .finish) w = (.ret (), w') ∧ (∀ e ∈ evs, e.Quiet) ∧
      ((w.WantsRetry obj ∧ w.Accepts con w.firstSend ∧ evs.filterMap Event.attempt = [] ∧
          w.Continues (obj.commandOn that con) evs w') ∨
        (¬ (w.WantsRetry obj ∧ w.Accepts con w.firstSend) ∧ ((evs.filterMap Event.attempt = [] ∧ ¬ w.WantsRetry obj) ∨
            (evs.filterMap Event.attempt = [obj.commandOn that con] ∧ w.WantsRetry obj)) ∧
          w.Ends that obj reply evs (w.WantsRetry obj) w')) := by
  obtain ⟨ch, evs, b, hwants, hb, hsends, hsub, hq, ht⟩ := wantsRetry_cases h e state
  cases b with
  | true =>
    have hretry := hb.1 rfl
    have hfirst : (w.noted ch evs).firstSend = w.firstSend := by
      show ch.sends.headD .ok = _
      rw [hsends]
      rfl
    rcases retry_cases (w := w.noted ch evs) reply h (show (w.noted ch evs).Open con from hcon) hobj hretry.1 ha with
      ⟨hacc, w', hr, hw⟩ | ⟨hacc, w', evs', hr, hq', ht', hw⟩
    · refine ⟨w', evs ++ [], ?_, by simpa using hq, Or.inl ⟨hretry, hfirst ▸ hacc, by simpa using ht, hw.noted⟩⟩
      rw [Code.bind_of_ret hwants, if_pos rfl, complete, if_pos rfl, hr]
    · refine ⟨w', evs ++ evs', ?_, ?_, Or.inr ⟨fun hn => hacc (hfirst ▸ hn.2), Or.inr ⟨?_, hretry⟩,
        hw.noted hsub (iff_of_true trivial hretry)⟩⟩
      · rw [Code.bind_of_ret hwants, if_pos rfl, complete, if_pos rfl, hr]
      · intro e he
        rcases List.mem_append.1 he with he | he
        · exact hq e he
        · exact hq' e he
      · rw [List.filterMap_append, ht, ht', List.nil_append]
  | false =>
    have hno : ¬ w.WantsRetry obj := fun hn => by simpa using hb.2 hn
    obtain ⟨w', hf, hw⟩ := finish_cases (w := w.noted ch evs) reply h hobj ha con
    refine ⟨w', evs ++ [], ?_, by simpa using hq, Or.inr ⟨fun hn => hno hn.1, Or.inl ⟨by simpa using ht, hno⟩,
      hw.noted hsub (iff_of_false id hno)⟩⟩
    rw [Code.bind_of_ret hwants, if_neg (by decide), hf]

/-- A message was sent: the callback is done. -/
theorem settles_sent (req : Request) (hacc : w.Accepts req.con w.firstSend) (ch : Choices) :
    Settles that obj con reply (.sends req) w ((w.noted ch [.sent req w.client.firing]).enqueue req) :=
  .sent req rfl hacc ⟨ch, rfl⟩

variable (con) in
/-- Nothing was to be done: the callback finishes. -/
theorem settles_ready (h : w.Holds that obj) (hobj : ∀ c, obj.con_.2 = some c → w.Open c) (ha : a ∉ w.freed) :
    ∃ w', complete con (.object a reply) that .finish w = (.ret (), w') ∧ Settles that obj con reply .ready w w' := by
  obtain ⟨w', hf, hw⟩ := finish_cases reply h hobj ha con
  refine ⟨w', hf, .ended [] ?_ (by simp) ⟨[], rfl, Or.inl ⟨rfl, Or.inl rfl⟩⟩ (by simpa using hw)⟩
  rintro (⟨req, hreq, -⟩ | hr)
  · cases hreq
  · exact hr

/-- An exception was thrown before anything was sent. -/
theorem settles_fails (h : w.Holds that obj) (hcon : w.Open con) (hobj : ∀ c, obj.con_.2 = some c → w.Open c)
    (ha : a ∉ w.freed) (e : ClusterException) (state : ProcessState) :
    ∃ w', (wantsRetry that e state >>= fun b => if b = true then complete con (.object a reply) that .retry
        else complete con (.object a reply) that .finish) w = (.ret (), w') ∧
      Settles that obj con reply .fails w w' := by
  obtain ⟨w', evs, hrun, hq, ⟨hr, hacc, ht, hw⟩ | ⟨hno, ht, hw⟩⟩ := handle_cases reply h hcon hobj ha e state
  · exact ⟨w', hrun, .resent evs ⟨hr, hacc⟩ hq ht hw⟩
  · refine ⟨w', hrun, .ended evs ?_ hq ⟨_, rfl, ht.imp_left fun ht => ⟨ht.1, Or.inr ht.2⟩⟩
      (by simpa using hw)⟩
    rintro (⟨req, hreq, -⟩ | hr)
    · cases hreq
    · exact hno hr

/-- An exception was thrown because hiredis refused the message. -/
theorem settles_refused (h : w.Holds that obj) (hcon : w.Open con) (hobj : ∀ c, obj.con_.2 = some c → w.Open c)
    (ha : a ∉ w.freed) (req : Request) (hacc : ¬ w.Accepts req.con w.firstSend) {ch : Choices}
    (hact : ch.actions = w.client.choices.actions) (hsub : ch.subscribed = w.client.choices.subscribed)
    (hsends : ch.sends = w.client.choices.sends.tail) (e : ClusterException) (state : ProcessState) :
    ∃ w', (wantsRetry that e state >>= fun b => if b = true then complete con (.object a reply) that .retry
        else complete con (.object a reply) that .finish) (w.noted ch [.refused req w.client.firing]) = (.ret (), w') ∧
      Settles that obj con reply (.sends req) w w' := by
  have hretry : (w.noted ch [.refused req w.client.firing]).WantsRetry obj ↔ w.WantsRetry obj := by
    show _ ∧ ch.actions.headD .finish = _ ↔ _
    rw [hact]
    rfl
  have hsecond : (w.noted ch [.refused req w.client.firing]).firstSend = w.secondSend := by
    show ch.sends.headD .ok = _
    rw [hsends]
    rfl
  obtain ⟨w', evs, hrun, hq, ⟨hr, hacc', ht, hw⟩ | ⟨hno, ht, hw⟩⟩ :=
    handle_cases (w := w.noted ch [.refused req w.client.firing]) reply h hcon hobj ha e state
  · refine ⟨w', hrun, .resent (.refused req w.client.firing :: evs) ⟨hacc, hretry.1 hr, hsecond ▸ hacc'⟩ ?_ ?_ hw.noted⟩
    · simpa [Event.Quiet] using hq
    · simpa [Event.attempt, Attempt.requests] using ht
  · refine ⟨w', hrun, .ended (.refused req w.client.firing :: evs) ?_ ?_ ⟨evs.filterMap Event.attempt, rfl, ?_⟩
      (hw.noted hsub (by simp [hretry]))⟩
    · rintro (⟨req', hreq, hacc'⟩ | hr)
      · cases hreq
        exact hacc hacc'
      · exact hno ⟨hretry.2 hr.2.1, hsecond ▸ hr.2.2⟩
    · simpa [Event.Quiet] using hq
    · exact ht.imp (fun ht => ⟨ht.1, Or.inr fun hr => ht.2 (hretry.2 hr)⟩) fun ht => ⟨ht.1, hretry.1 ht.2⟩

end settle

/-! ### The callbacks -/

namespace RedisReply

/-- The answer to a command that was accepted. -/
def isOk : RedisReply → Bool
  | status str => cStr str.bytes = text "OK"
  | _ => false

end RedisReply

theorem checkCritical_eq {a : Nat} (ha : a ∉ w.freed) (reply : RedisReply) :
    checkCritical (m := Code AsyncWorld Exn) (.object a reply) false false [] none w =
      (if reply.mentionsClusterDown then .throws (.cluster .clusterDown) else .ret (), w) := by
  have hread := derefReply_object ha reply
  cases reply with
  | error str =>
    simp only [checkCritical, readReply, Code.bind_apply, andThen_ret, hread, RedisReply.type, RedisReply.strOf, outcome,
      RedisReply.mentionsClusterDown]
    by_cases hm : find (cStr str.bytes) (text "CLUSTERDOWN") 0 = npos
    · simp [hm]
    · simp [hm, raise, outcome]
  | _ =>
    simp only [checkCritical, readReply, Code.bind_apply, andThen_ret, hread]
    rfl

/-- What the `try` block of `runRedisCallback` does. -/
def askingAttempt (that : ObjPtr) (obj : AsyncHiredisCommand) (reply : RedisReply) : Attempt :=
  match reply.isOk, obj.con_.2 with
  | true, some c => .sends (obj.commandOn that c)
  | _, _ => .fails

theorem askingAnswered_eq (h : w.Holds that obj) {a : Nat} (ha : a ∉ w.freed) (reply : RedisReply) :
    (reply.isOk = false ∧ ∃ e, askingAnswered (.object a reply) that w = (.throws (.cluster e), w)) ∨
      (reply.isOk = true ∧ askingAnswered (.object a reply) that w =
        (redisAsyncSend obj.con_.2 .processCommandReply that (.formatted obj.cmd_) >>= fun s =>
          if s ≠ .ok then Code.throws (.cluster .askingFailed) else pure ()) w) := by
  have hread := derefReply_object ha reply
  have hcheck := checkCritical_eq ha reply
  have hobj := object_eq h
  cases reply with
  | error str =>
    left
    refine ⟨rfl, ?_⟩
    by_cases hm : (RedisReply.error str).mentionsClusterDown = true
    · rw [if_pos hm] at hcheck
      exact ⟨_, Code.bind_of_throws hcheck _⟩
    · rw [if_neg hm] at hcheck
      exact ⟨_, (Code.bind_of_ret hcheck _).trans (Code.bind_of_ret hread _)⟩
  | status str =>
    by_cases hok : cStr str.bytes = text "OK"
    · right
      refine ⟨by simpa [RedisReply.isOk] using hok, ?_⟩
      refine (Code.bind_of_ret hcheck _).trans ((Code.bind_of_ret hread _).trans ?_)
      simp only [Code.bind_apply, Code.pure_apply, andThen_ret, hok, decide_true, ↓reduceIte, hobj,
        processHiredisCommand_eq h]
    · left
      refine ⟨by simpa [RedisReply.isOk] using hok, .askingFailed, ?_⟩
      refine (Code.bind_of_ret hcheck _).trans ((Code.bind_of_ret hread _).trans ?_)
      simp [hok]
  | _ =>
    left
    exact ⟨rfl, _, (Code.bind_of_ret hcheck _).trans (Code.bind_of_ret hread _)⟩

/-- The callback for the answer to `ASKING`, whose object has a connection. -/
theorem runRedisCallback_settles (h : w.Holds that obj) {c : ConPtr} (hc : obj.con_.2 = some c) (hopen : w.Open c)
    (hcon : w.Open con) {a : Nat} (ha : a ∉ w.freed) (reply : RedisReply) :
    ∃ w', runRedisCallback con (.object a reply) that w = (.ret (), w') ∧
      Settles that obj con reply (askingAttempt that obj reply) w w' := by
  have hobj : ∀ c', obj.con_.2 = some c' → w.Open c' := by
    intro c' hc'
    rw [hc] at hc'
    cases hc'
    exact hopen
  rcases askingAnswered_eq h ha reply with ⟨hok, e, hasking⟩ | ⟨hok, hasking⟩
  · have hatt : askingAttempt that obj reply = .fails := by simp [askingAttempt, hok]
    obtain ⟨w', hrun, hset⟩ := settles_fails reply h hcon hobj ha e .ask
    refine ⟨w', ?_, hatt ▸ hset⟩
    rw [runRedisCallback, Code.bind_of_ret (Exn.caught hasking)]
    exact hrun
  · have hatt : askingAttempt that obj reply = .sends (obj.commandOn that c) := by simp [askingAttempt, hok, hc]
    obtain ⟨ch, hact, hsub, hsends, ⟨hacc, hsend⟩ | ⟨hacc, hsend⟩⟩ :=
      redisAsyncSend_cases hopen .processCommandReply that (.formatted obj.cmd_)
    · rw [hc, Code.bind_of_ret hsend, if_neg (by decide)] at hasking
      refine ⟨_, ?_, hatt ▸ settles_sent reply (obj.commandOn that c) hacc ch⟩
      rw [runRedisCallback, Code.bind_of_ret (Code.attempt_ret hasking)]
      rfl
    · rw [hc, Code.bind_of_ret hsend, if_pos (by decide)] at hasking
      obtain ⟨w', hrun, hset⟩ := settles_refused reply h hcon hobj ha (obj.commandOn that c) hacc
        hact hsub hsends .askingFailed .ask
      refine ⟨w', ?_, hatt ▸ hset⟩
      rw [runRedisCallback, Code.bind_of_ret (Exn.caught hasking)]
      exact hrun

end HiredisCluster
