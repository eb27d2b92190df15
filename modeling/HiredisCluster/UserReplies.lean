import HiredisCluster.AsyncRun

/-!
# Which replies reach the user

A callback passes on the reply it was called with.  For `processCommandReply` that is the reply to the command; for
`runRedisCallback` it is the reply to `ASKING`, which the user must not see unless it is an error.  The code passes it on
when the command cannot be sent after a good answer to `ASKING`, so the user only gets replies to his own command in the
runs all of whose steps avoid that (`userAnswered_iff`).
-/

namespace HiredisCluster

open Cxx AsyncHiredisCommand

/-- A reply given to the user is an error or answers the command of the object it is given for. -/
def Event.Answers (w : AsyncWorld) : Event → Prop
  | .redisCallback data reply answered => reply.IsError ∨ ∃ req a obj, answered = some (req, .object a reply) ∧
      req.data = data ∧ w.client.objects[data]? = some obj ∧ req.message = .formatted obj.cmd_
  | _ => True

/-- Every user was only given replies to his own command. -/
def UserAnswered (w : AsyncWorld) : Prop := ∀ e ∈ w.client.trace, e.Answers w

/-- If the step brings an answer to `ASKING` that is not an error, for an object with a user callback, then the command
is accepted afterwards: because the answer is `OK` and hiredis accepts the command, or because the error handler answers
`RETRY` and hiredis accepts it then. -/
def AskingHonoured (w : AsyncWorld) : Stimulus → Prop
  | .reply con r ch => ∀ req obj, w.oldest con = some req → req.callback = .runRedisCallback → w.Holds req.data obj →
      obj.redisCallback_ = true → ¬ r.IsError →
        (r.isOk = true ∧ w.Accepts con (ch.sends.headD .ok)) ∨
          (obj.userErrorCb_ = true ∧ ch.actions.headD .finish = .retry ∧
            w.Accepts con (if r.isOk = true then ch.sends.tail.headD .ok else ch.sends.headD .ok))
  | _ => True

/-- The events of settling a command, for a property that only the reply given to the user can break. -/
private theorem Settles.forall_trace {that : ObjPtr} {obj : AsyncHiredisCommand} {con : ConPtr} {reply : RedisReply}
    {att : Attempt} {v u : AsyncWorld} (h : Settles that obj con reply att v u) {P : Event → Prop}
    (hquiet : ∀ e, e.Quiet → P e) (hsent : ∀ req cause, P (.sent req cause)) (hdel : P (.deleted that)) :
    (∀ e ∈ u.client.trace, P e) ↔ (∀ e ∈ v.client.trace, P e) ∧
      (¬ v.Survives con obj att → ∀ e ∈ obj.given that reply v.client.firing, P e) := by
  have split (l l' : List Event) : (∀ e ∈ l ++ l', P e) ↔ (∀ e ∈ l, P e) ∧ ∀ e ∈ l', P e := List.forall_mem_append
  cases h with
  | sent req hatt hacc hw =>
    have hsurv : v.Survives con obj att := Or.inl ⟨req, hatt, hacc⟩
    obtain ⟨ch, rfl⟩ := hw
    show (∀ e ∈ v.client.trace ++ [.sent req v.client.firing], P e) ↔ _
    rw [split]
    exact and_congr_right fun _ => ⟨fun _ hno => absurd hsurv hno, fun _ => by simp [hsent]⟩
  | resent evs hr hq ht hw =>
    have hsurv : v.Survives con obj att := Or.inr hr
    have hevs : ∀ e ∈ evs, P e := fun e he => hquiet e (hq e he)
    obtain ⟨ch, rfl⟩ := hw
    show (∀ e ∈ v.client.trace ++ (evs ++ [.sent (obj.commandOn that con) v.client.firing]), P e) ↔ _
    rw [split, split]
    exact and_congr_right fun _ => ⟨fun _ hno => absurd hsurv hno, fun _ => ⟨hevs, by simp [hsent]⟩⟩
  | ended evs hno hq ht hw =>
    have hevs : ∀ e ∈ evs, P e := fun e he => hquiet e (hq e he)
    rcases hw with ⟨-, ch, rfl⟩ | ⟨-, -, ch, rfl⟩
    · rw [Sound.client_kill]
      show (∀ e ∈ v.client.trace ++ (evs ++ obj.given that reply v.client.firing ++ [.deleted that]), P e) ↔ _
      rw [split, split, split]
      exact and_congr_right fun _ => ⟨fun h _ => h.1.2, fun h => ⟨⟨hevs, h hno⟩, by simp [hdel]⟩⟩
    · show (∀ e ∈ v.client.trace ++ (evs ++ obj.given that reply v.client.firing), P e) ↔ _
      rw [split, split]
      exact and_congr_right fun _ => ⟨fun h _ => h.2, fun h => ⟨hevs, h hno⟩⟩

/-- Only objects that exist are given replies. -/
def Recorded (w : AsyncWorld) : Prop :=
  ∀ e ∈ w.client.trace, ∀ data reply answered, e = .redisCallback data reply answered →
    ∃ obj, w.client.objects[data]? = some obj

/-- Events are read the same before and after a step. -/
private theorem answers_step {w w' : AsyncWorld} {e : Stimulus} (h : StepCase w e w') (hr : Recorded w) :
    (∀ e ∈ w.client.trace, e.Answers w') ↔ UserAnswered w := by
  refine forall₂_congr fun e he => ?_
  cases e with
  | redisCallback data reply answered =>
    obtain ⟨obj, hobj⟩ := hr _ he data reply answered rfl
    obtain ⟨obj', hobj', hcmd, -⟩ := step_object h hobj
    simp only [Event.Answers, hobj, hobj', Option.some.injEq]
    constructor
    · rintro (he | ⟨req, a, o, ha, hd, rfl, hm⟩)
      · exact Or.inl he
      · exact Or.inr ⟨req, a, obj, ha, hd, rfl, hcmd ▸ hm⟩
    · rintro (he | ⟨req, a, o, ha, hd, rfl, hm⟩)
      · exact Or.inl he
      · exact Or.inr ⟨req, a, obj', ha, hd, rfl, hcmd ▸ hm⟩
  | _ => exact Iff.rfl

/-- After an answer to `ASKING` the command is outstanding again exactly when hiredis accepts it the first or the second
time it is sent. -/
private theorem survives_asking {v : AsyncWorld} {that : ObjPtr} {obj : AsyncHiredisCommand} {con : ConPtr}
    (r : RedisReply) (hc : obj.con_.2 = some con) : v.Survives con obj (askingAttempt that obj r) ↔
      (r.isOk = true ∧ v.Accepts con v.firstSend) ∨
        (v.WantsRetry obj ∧ v.Accepts con (if r.isOk = true then v.secondSend else v.firstSend)) := by
  cases hok : r.isOk with
  | true =>
    have hatt : askingAttempt that obj r = .sends (obj.commandOn that con) := by simp [askingAttempt, hok, hc]
    rw [hatt]
    constructor
    · rintro (⟨req, heq, hacc⟩ | ⟨-, hretry, hacc⟩)
      · cases heq
        exact Or.inl ⟨rfl, hacc⟩
      · exact Or.inr ⟨hretry, hacc⟩
    · rintro (⟨-, hacc⟩ | ⟨hretry, hacc⟩)
      · exact Or.inl ⟨_, rfl, hacc⟩
      · by_cases hfirst : v.Accepts con v.firstSend
        · exact Or.inl ⟨_, rfl, hfirst⟩
        · exact Or.inr ⟨hfirst, hretry, hacc⟩
  | false =>
    have hatt : askingAttempt that obj r = .fails := by simp [askingAttempt, hok]
    rw [hatt]
    constructor
    · rintro (⟨req, heq, -⟩ | ⟨hretry, hacc⟩)
      · cases heq
      · exact Or.inr ⟨hretry, hacc⟩
    · rintro (⟨hok, -⟩ | ⟨hretry, hacc⟩)
      · cases hok
      · exact Or.inr ⟨hretry, hacc⟩

section answered

variable {w v u : AsyncWorld} {con : ConPtr} {r : RedisReply} {ch : Choices} {req : Request}
  {obj obj' : AsyncHiredisCommand}

/-- Whether the step honours the answer to `ASKING`, in terms of the callback that gets the answer. -/
private theorem askingHonoured_iff (ho : w.oldest con = some req) (hobj : w.Holds req.data obj) (he : req.Expected obj)
    (hreq : req.con = con)
    (hl : Linked req.data obj obj' ((w.fire req r ch).attemptOf req obj r).target (w.fire req r ch) v) :
    AskingHonoured w (.reply con r ch) ↔
      (req.callback = .runRedisCallback → obj.redisCallback_ = true → ¬ r.IsError →
        v.Survives con obj' ((w.fire req r ch).attemptOf req obj r)) := by
  have hsurv (hcb : req.callback = .runRedisCallback) :
      v.Survives con obj' ((w.fire req r ch).attemptOf req obj r) ↔
        (r.isOk = true ∧ w.Accepts con (ch.sends.headD .ok)) ∨
          (obj.userErrorCb_ = true ∧ ch.actions.headD .finish = .retry ∧
            w.Accepts con (if r.isOk = true then ch.sends.tail.headD .ok else ch.sends.headD .ok)) := by
    have hc : obj.con_.2 = some con := by
      unfold Request.Expected at he
      rw [hcb] at he
      exact hreq ▸ he.2
    have hatt : (w.fire req r ch).attemptOf req obj r = askingAttempt req.data obj r := by
      unfold World.attemptOf
      rw [hcb]
    rw [hl.survives_iff, hatt, survives_asking r hc]
    exact or_congr_right and_assoc
  constructor
  · intro h hcb hset hne
    exact (hsurv hcb).2 (h req obj ho hcb hobj hset hne)
  · intro h req' o ho' hcb hobj' hset hne
    rw [ho] at ho'
    cases ho'
    cases Option.some.inj (hobj'.1.symm.trans hobj.1)
    exact (hsurv hcb).1 (h hcb hset hne)

/-- The reply of a callback may be given to the user when it is an error or the callback is not that for `ASKING`. -/
private theorem given_answers_iff (he : req.Expected obj) (hcallback : obj'.redisCallback_ = obj.redisCallback_)
    {o : AsyncHiredisCommand} (ho : u.client.objects[req.data]? = some o) (hcmd : o.cmd_ = obj.cmd_) (a : Nat) :
    (∀ e ∈ obj'.given req.data r (some (req, .object a r)), e.Answers u) ↔
      (req.callback = .runRedisCallback → obj.redisCallback_ = true → r.IsError) := by
  have hm : req.message = .formatted obj.cmd_ ↔ req.callback = .processCommandReply := by
    unfold Request.Expected at he
    cases hcb : req.callback <;> rw [hcb] at he
    · exact ⟨fun _ => rfl, fun _ => he⟩
    · rw [he.1]
      simp
  unfold AsyncHiredisCommand.given
  rw [hcallback]
  by_cases hcb : obj.redisCallback_ = true
  · simp only [hcb, ↓reduceIte, List.mem_singleton, forall_eq, forall_const]
    constructor
    · rintro (herr | ⟨req', a', o', heq, -, ho', hm'⟩) hrun
      · exact herr
      · cases heq
        rw [ho] at ho'
        cases ho'
        rw [hcmd] at hm'
        rw [hm.1 hm'] at hrun
        cases hrun
    · intro h
      cases hrun : req.callback with
      | runRedisCallback => exact Or.inl (h hrun)
      | processCommandReply => exact Or.inr ⟨req, a, o, rfl, rfl, ho, hcmd ▸ hm.2 hrun⟩
  · simp [hcb]

end answered

/-- One step keeps the users answered exactly when it honours an answer to `ASKING`. -/
private theorem userAnswered_step {w w' : AsyncWorld} {e : Stimulus} (hr : Recorded w) (h : StepCase w e w') :
    UserAnswered w' ↔ UserAnswered w ∧ AskingHonoured w e := by
  have hold := answers_step h hr
  have hobject := fun i o ho => step_object h (i := i) (o := o) ho
  cases h with
  | silent hsil hnone =>
    have hc : AskingHonoured w e := by
      cases e with
      | reply con r ch =>
        intro req obj ho
        rw [hnone con r ch rfl] at ho
        cases ho
      | _ => trivial
    unfold UserAnswered at hold ⊢
    rw [hsil.trace, hold]
    exact ⟨fun h => ⟨h, hc⟩, And.left⟩
  | issued args ch ch' obj c hcon halive hc =>
    refine Iff.trans List.forall_mem_append ?_
    exact and_congr hold ⟨fun _ => trivial, fun _ => by simp [Event.Answers]⟩
  | rejected args ch ch' obj c hcon halive =>
    unfold UserAnswered
    rw [Sound.trace_kill]
    refine Iff.trans List.forall_mem_append ?_
    exact and_congr hold ⟨fun _ => trivial, fun _ => by simp [Event.Answers]⟩
  | answered con r ch req obj obj' v u ho hobj he hreq hno hl hset hv hidle hvobj hu =>
    obtain ⟨moves, connects, lifetime, hcl⟩ := hl.client_eq
    have hfiring : v.client.firing = some (req, .object w.replies r) := by rw [hcl]; rfl
    obtain ⟨o, hobj', hcmd, -⟩ := hobject req.data obj hobj.1
    have hcallback : obj'.redisCallback_ = obj.redisCallback_ := by
      rcases hl.link with ⟨rfl, -⟩ | ⟨-, _, _, -, rfl, -⟩ <;> rfl
    have hsplit := hset.forall_trace (P := (Event.Answers (u.release w.replies))) (fun e he => by cases e <;> trivial)
      (fun _ _ => trivial) trivial
    refine hsplit.trans ?_
    rw [hl.forall_trace_iff (P := Event.Answers (u.release w.replies)) fun _ => trivial,
      askingHonoured_iff ho hobj he hreq hl, hfiring, given_answers_iff he hcallback hobj' hcmd]
    refine and_congr hold ?_
    by_cases hs : v.Survives con obj' ((w.fire req r ch).attemptOf req obj r)
    · simp [hs]
    · simp only [hs, not_false_eq_true, forall_const, imp_false, not_not]

/-- Only objects that exist are ever given replies. -/
private theorem recorded_step {w w' : AsyncWorld} {e : Stimulus} (h : Recorded w) (hs : StepCase w e w') :
    Recorded w' := by
  have hobject := fun i o ho => step_object hs (i := i) (o := o) ho
  have hold : ∀ e ∈ w.client.trace, ∀ data reply answered, e = .redisCallback data reply answered →
      ∃ obj, w'.client.objects[data]? = some obj := by
    intro e he data reply answered heq
    obtain ⟨obj, hobj⟩ := h e he data reply answered heq
    obtain ⟨obj', hobj', -⟩ := hobject data obj hobj
    exact ⟨obj', hobj'⟩
  cases hs with
  | silent hsil hnone =>
    unfold Recorded
    rw [hsil.trace]
    exact hold
  | issued args ch ch' obj c hcon halive hc =>
    refine List.forall_mem_append.2 ⟨hold, by simp⟩
  | rejected args ch ch' obj c hcon halive =>
    unfold Recorded
    rw [Sound.trace_kill]
    exact List.forall_mem_append.2 ⟨hold, by simp⟩
  | answered con r ch req obj obj' v u ho hobj he hreq hno hl hset hv hidle hvobj hu =>
    obtain ⟨o, hobj', -⟩ := hobject req.data obj hobj.1
    refine (hset.forall_trace (P := fun e => ∀ data reply answered, e = .redisCallback data reply answered →
      ∃ obj, (u.release w.replies).client.objects[data]? = some obj) ?_ (by simp) (by simp)).2
        ⟨(hl.forall_trace_iff (by simp)).2 hold, ?_⟩
    · rintro e hq data reply answered rfl
      cases hq
    · intro _ e hmem data reply answered heq
      unfold AsyncHiredisCommand.given at hmem
      split at hmem
      · rw [List.mem_singleton.1 hmem] at heq
        cases heq
        exact ⟨o, hobj'⟩
      · cases hmem

/-- In a run the users are only given errors and replies to their own commands exactly when no step gives a user an
answer to `ASKING`. -/
theorem userAnswered_iff {w : AsyncWorld} {hist : List (AsyncWorld × Stimulus)} (r : AsyncRun w hist) :
    UserAnswered w ↔ ∀ p ∈ hist, AskingHonoured p.1 p.2 := by
  have hI : ∀ w hist, AsyncRun w hist → Sound w ∧ Recorded w := fun w hist r =>
    ⟨sound_of_run r, Run.invariant_of (C := fun _ _ => True) (fun _ _ r => sound_of_run r)
      (fun w h => by unfold Recorded; rw [h.trace]; simp)
      (fun _ _ _ hs hr _ h => recorded_step hr (step_cases hs h)) r (fun _ _ => trivial)⟩
  refine Run.iff_forall hI ?_ (fun w e w' h hs => userAnswered_step h.2 (step_cases h.1 hs)) r
  intro w h
  unfold UserAnswered
  rw [h.trace]
  simp

/-- The type of a reply given to the user and the message it answers. -/
def Event.given? : Event → Option (ReplyType × Option Message)
  | .redisCallback _ reply answered => some (reply.type, answered.map (·.1.message))
  | _ => none

/-- The user of a command that was never executed is given the `OK` to `ASKING`. -/
theorem not_userAnswered : ∃ w hist, AsyncRun w hist ∧ ¬ UserAnswered w := by
  have hrun := run_after oneNode_initial (askedOnce [.err]) (by decide +kernel)
  refine ⟨_, _, hrun, fun h => ?_⟩
  have hgiven : (.status, some (.format (text "ASKING"))) ∈
      (Stimulus.after (askedOnce [.err]) oneNode).client.trace.filterMap Event.given? := by decide +kernel
  obtain ⟨e, he, hstatus⟩ := List.mem_filterMap.1 hgiven
  cases e with
  | redisCallback data reply answered =>
    obtain ⟨htype, hmessage⟩ := Prod.mk.inj (Option.some.inj hstatus)
    rcases h _ he with herr | ⟨req, a, obj, rfl, -, -, hm⟩
    · exact absurd (htype.symm.trans herr) (by simp)
    · exact absurd (hm.symm.trans (Option.some.inj hmessage)) (by simp)
  | _ => cases hstatus

/-- When the command is accepted after `ASKING`, as here, its user is given the reply to it. -/
theorem userAnswered_iff_askedOnce :
    UserAnswered (Stimulus.after (askedOnce []) oneNode) := by
  refine (userAnswered_iff (run_after oneNode_initial (askedOnce []) (by decide +kernel))).2 ?_
  intro p hp
  simp only [askedOnce, Stimulus.trail, List.mem_cons, List.not_mem_nil, or_false] at hp
  rcases hp with rfl | rfl | rfl
  · trivial
  · intro req obj ho hcb
    have hold := congrArg (Option.map Request.callback) ho
    rw [Option.map_some, hcb] at hold
    exact absurd hold (by decide +kernel)
  · intro req obj _ _ _ _ _
    left
    refine ⟨by decide, rfl, fun ctx hctx => ?_⟩
    have hopen := congrArg (Option.map Context.disconnecting) hctx
    exact Option.some.inj (hopen.symm.trans (by decide +kernel))

end HiredisCluster
