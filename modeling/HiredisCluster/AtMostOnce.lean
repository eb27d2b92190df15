import HiredisCluster.AskingAdjacency

/-!
# At most one execution

A server that answers a command with a redirection has not executed it.  An account for each command object
(`accounts_of_run`): what has been sent for it is paid for by `Command` itself, by the redirections it got, and by the
error handler when it has the command sent again.  So a command is executed at most once, unless the handler of the user
asks for more (`executed_at_most_once`).
-/

namespace HiredisCluster

open Cxx AsyncHiredisCommand

section decidable

variable (w : AsyncWorld)

instance (con : ConPtr) (s : Status) : Decidable (w.Accepts con s) :=
  decidable_of_iff (s = .ok ∧ (w.contexts[con]?).all (fun ctx => !ctx.disconnecting) = true) <| by
    unfold World.Accepts
    cases w.contexts[con]? <;> simp

instance (obj : AsyncHiredisCommand) : Decidable (w.WantsRetry obj) := inferInstanceAs (Decidable (_ ∧ _))

instance (con : ConPtr) (obj : AsyncHiredisCommand) : (att : Attempt) → Decidable (w.Resends con obj att)
  | .ready => inferInstanceAs (Decidable False)
  | .sends _ => inferInstanceAs (Decidable (_ ∧ _ ∧ _))
  | .fails => inferInstanceAs (Decidable (_ ∧ _))

end decidable

/-! ### What is counted -/

/-- The reply sends the command to another server. -/
def RedisReply.redirects (r : RedisReply) : Bool :=
  !r.mentionsClusterDown && match processResult r with
    | .ret (.ask, _, _) => true
    | .ret (.moved, _, _) => true
    | _ => false

/-- A request for the command of the object, or its `ASKING`. -/
def Request.isOf (that : ObjPtr) (callback : Callback) (req : Request) : Bool :=
  req.data = that && req.callback = callback

private theorem Request.data_of_isOf {that : ObjPtr} {callback : Callback} {req : Request}
    (h : req.isOf that callback = true) :
    req.data = that := by
  unfold Request.isOf at h
  rw [Bool.and_eq_true, decide_eq_true_eq] at h
  exact h.1

/-- The step is a reply to the command of the object, a redirection or not. -/
def answers (that : ObjPtr) (redirected : Bool) : AsyncWorld × Stimulus → Bool
  | (w, .reply con r _) => r.redirects = redirected && (w.oldest con).any (Request.isOf that .processCommandReply)
  | _ => false

/-- The step is a reply after which the error handler has the command of the object sent again. -/
def retries (that : ObjPtr) : AsyncWorld × Stimulus → Bool
  | (w, .reply con r ch) => (w.oldest con).any fun req => req.data = that &&
      (w.client.objects[that]?).any fun obj =>
        (w.fire req r ch).Resends con obj ((w.fire req r ch).attemptOf req obj r)
  | _ => false

/-- How often the command of the object was sent. -/
def World.commandsSent (w : AsyncWorld) (that : ObjPtr) : Nat :=
  (w.client.trace.filterMap Event.accepted).countP fun x => x.1.isOf that .processCommandReply

/-- The requests outstanding for the object. -/
def World.outstanding (w : AsyncWorld) (that : ObjPtr) : Nat := w.client.pending.countP (·.data = that)

/-- Of these, the `ASKING`s. -/
def World.askings (w : AsyncWorld) (that : ObjPtr) : Nat :=
  w.client.pending.countP (Request.isOf that .runRedisCallback)

/-! ### What a step sends -/

/-- A `try` block sends the command, or `ASKING` in the callback of the command; in that callback it does so only for a
redirection. -/
private theorem attemptOf_callback {w : AsyncWorld} {req req' : Request} {obj : AsyncHiredisCommand} {r : RedisReply}
    (h : w.attemptOf req obj r = .sends req') : req'.data = req.data ∧
      ((req.callback = .processCommandReply ∧ r.redirects = true) ∨
        (req.callback = .runRedisCallback ∧ req'.callback = .processCommandReply)) := by
  have hdata : req'.data = req.data := by
    rcases attemptOf_sends h with he | he <;> rw [he] <;> rfl
  refine ⟨hdata, ?_⟩
  cases hcb : req.callback with
  | processCommandReply =>
    left
    refine ⟨rfl, ?_⟩
    simp only [World.attemptOf, hcb, World.commandAttempt] at h
    unfold RedisReply.redirects
    by_cases hm : r.mentionsClusterDown = true
    · rw [if_pos hm] at h
      cases h
    · rw [if_neg hm] at h
      split at h
      · cases h
      · simp [*]
      · simp [*]
      · cases h
  | runRedisCallback =>
    right
    refine ⟨rfl, ?_⟩
    simp only [World.attemptOf, hcb, askingAttempt] at h
    split at h
    · cases h
      rfl
    · cases h

/-- One for an object that `Command` has made. -/
def World.made (w : AsyncWorld) (that : ObjPtr) : Nat := if that < w.client.objects.length then 1 else 0

/-- What is owed for an object is paid for: `Command` pays for one execution and one message, a redirection for one more
message, and a retry for one more message and, where `paid` says so, for one more execution. -/
structure Accounts (that : ObjPtr) (paid : AsyncWorld × Stimulus → Bool) (w : AsyncWorld)
    (hist : List (AsyncWorld × Stimulus)) : Prop where
  executed : hist.countP (answers that false) + w.outstanding that ≤ w.made that + hist.countP paid
  sent : w.commandsSent that + w.askings that ≤
    w.made that + hist.countP (answers that true) + hist.countP (retries that)

section account

variable {w w' : AsyncWorld} {hist : List (AsyncWorld × Stimulus)} {that : ObjPtr}
variable {paid : AsyncWorld × Stimulus → Bool}

private theorem made_le (that : ObjPtr) (ho : w.client.objects.length ≤ w'.client.objects.length) :
    w.made that ≤ w'.made that := by
  unfold World.made
  by_cases hlt : that < w.client.objects.length
  · rw [if_pos hlt, if_pos (Nat.lt_of_lt_of_le hlt ho)]
  · rw [if_neg hlt]
    exact Nat.zero_le _

private theorem made_succ (that : ObjPtr) (ho : w'.client.objects.length = w.client.objects.length + 1) :
    w'.made that = w.made that + if w.client.objects.length = that then 1 else 0 := by
  unfold World.made
  rw [ho]
  by_cases hthat : w.client.objects.length = that
  · simp [hthat]
  · have hsame : that < w.client.objects.length + 1 ↔ that < w.client.objects.length :=
      ⟨fun h => Nat.lt_of_le_of_ne (Nat.le_of_lt_succ h) (Ne.symm hthat), Nat.lt_succ_of_lt⟩
    simp [hthat, hsame]

/-- The request that is answered is outstanding no longer. -/
private theorem countP_oldest {con : ConPtr} {req : Request} (ho : w.oldest con = some req) (p : Request → Bool) :
    w.client.pending.countP p =
      (w.client.pending.eraseP (·.con = req.con)).countP p + if p req then 1 else 0 := by
  obtain ⟨-, l₁, l₂, -, hp, herase⟩ := oldest_split ho
  rw [herase, hp, List.countP_append, List.countP_cons, List.countP_append]
  omega

private theorem commandsSent_append (that : ObjPtr) {more : List Request} {cause : Option (Request × ReplyPtr)}
    (h : w'.client.trace.filterMap Event.accepted =
      w.client.trace.filterMap Event.accepted ++ more.map (·, cause)) :
    w'.commandsSent that = w.commandsSent that + more.countP (Request.isOf that .processCommandReply) := by
  unfold World.commandsSent
  rw [h, List.countP_append, List.countP_map]
  rfl

private theorem Accounts.quiet {e : Stimulus} (h : Accounts that paid w hist)
    (hp : w'.client.pending = w.client.pending)
    (ht : w'.client.trace.filterMap Event.accepted = w.client.trace.filterMap Event.accepted)
    (ho : w.client.objects.length ≤ w'.client.objects.length) (hno : answers that false (w, e) = false) :
    Accounts that paid w' (hist ++ [(w, e)]) := by
  have hmade := made_le that ho
  have hexecuted := h.executed
  have hsent := h.sent
  constructor
  · unfold World.outstanding at *
    rw [List.countP_append, List.countP_append, List.countP_singleton, hno, hp, if_neg Bool.false_ne_true]
    omega
  · unfold World.commandsSent World.askings at *
    rw [List.countP_append, List.countP_append, ht, hp]
    omega

private theorem Accounts.issued {args : Arguments} {ch : Choices} {req : Request} (h : Accounts that paid w hist)
    (hdata : req.data = w.client.objects.length) (hcallback : req.callback = .processCommandReply)
    (hp : w'.client.pending = w.client.pending ++ [req])
    (ht : w'.client.trace.filterMap Event.accepted =
      w.client.trace.filterMap Event.accepted ++ [(req, w.client.firing)])
    (ho : w'.client.objects.length = w.client.objects.length + 1) :
    Accounts that paid w' (hist ++ [(w, .command args ch)]) := by
  have hmade := made_succ that ho
  have hcommands : w'.commandsSent that = w.commandsSent that + if w.client.objects.length = that then 1 else 0 := by
    rw [commandsSent_append that (show _ = _ ++ [req].map (·, w.client.firing) from ht), List.countP_singleton]
    simp [Request.isOf, hdata, hcallback]
  have houtstanding : w'.outstanding that = w.outstanding that + if w.client.objects.length = that then 1 else 0 := by
    unfold World.outstanding
    rw [hp, List.countP_append, List.countP_singleton]
    simp [hdata]
  have haskings : w'.askings that = w.askings that := by
    unfold World.askings
    rw [hp, List.countP_append, List.countP_singleton]
    simp [Request.isOf, hcallback]
  have hno : answers that false (w, .command args ch) = false := rfl
  have hexecuted := h.executed
  have hsent := h.sent
  constructor
  · rw [List.countP_append, List.countP_append, List.countP_singleton, hno, if_neg Bool.false_ne_true, houtstanding, hmade]
    omega
  · rw [List.countP_append, List.countP_append, hcommands, haskings, hmade]
    omega

/-- What a callback owes: it has taken a request of its object, and a message that it sends is paid for by that request, by
the redirection, or by the handler. -/
private theorem debts_le {con : ConPtr} {r : RedisReply} {ch : Choices} {req : Request} {obj : AsyncHiredisCommand}
    {more : List Request} (ho : w.oldest con = some req) (hobj : w.Holds req.data obj)
    (hmore : more = [] ∨ ∃ req', more = [req'] ∧ req'.data = req.data ∧
      ((w.fire req r ch).attemptOf req obj r = .sends req' ∨
        (req'.callback = .processCommandReply ∧
          (w.fire req r ch).Resends con obj ((w.fire req r ch).attemptOf req obj r))))
    (hpaid : retries that (w, .reply con r ch) = true → answers that false (w, .reply con r ch) = true →
      paid (w, .reply con r ch) = true) :
    (if answers that false (w, .reply con r ch) then 1 else 0) + more.countP (·.data = that) ≤
        (if req.data = that then 1 else 0) + (if paid (w, .reply con r ch) then 1 else 0) ∧
      more.countP (Request.isOf that .processCommandReply) + more.countP (Request.isOf that .runRedisCallback) ≤
        (if req.isOf that .runRedisCallback then 1 else 0) +
          (if answers that true (w, .reply con r ch) then 1 else 0) +
          (if retries that (w, .reply con r ch) then 1 else 0) := by
  have hanswers : ∀ b, answers that b (w, .reply con r ch) =
      (decide (r.redirects = b) && req.isOf that .processCommandReply) := by
    intro b
    simp [answers, ho]
  rw [hanswers] at hpaid
  rw [hanswers, hanswers]
  by_cases hown : req.data = that
  · subst hown
    rcases hmore with rfl | ⟨req', rfl, hdata, hatt | ⟨hcallback, hresends⟩⟩
    · constructor
      · simp only [List.countP_nil, if_pos]
        split <;> omega
      · simp
    · obtain ⟨-, ⟨hcb, hredirects⟩ | ⟨hcb, hcb'⟩⟩ := attemptOf_callback hatt
      · rw [hredirects]
        cases hcb' : req'.callback <;> simp [Request.isOf, hdata, hcb, hcb']
      · simp [Request.isOf, hdata, hcb, hcb']
    · have hretries : retries req.data (w, .reply con r ch) = true := by
        simp [retries, ho, hobj.1, hresends]
      replace hpaid := hpaid hretries
      rw [hretries]
      constructor
      · simp only [List.countP_singleton, hdata, decide_true, ↓reduceIte]
        split
        · rename_i hanswered
          have hone : (if paid (w, .reply con r ch) then 1 else 0) = 1 := if_pos (hpaid hanswered)
          omega
        · omega
      · simp [Request.isOf, hdata, hcallback]
  · -- a request of another object, and so is what follows it
    have hother : ∀ callback, req.isOf that callback = false := by
      intro callback
      simp [Request.isOf, hown]
    have hnone : ∀ p : Request → Bool, (∀ q, p q = true → q.data = that) → more.countP p = 0 := by
      intro p hp
      rcases hmore with rfl | ⟨req', rfl, hdata, -⟩
      · rfl
      · rw [List.countP_singleton, if_neg]
        exact fun h => hown (hdata.symm.trans (hp req' h))
    rw [hnone _ (by simp), hnone _ fun _ => Request.data_of_isOf, hnone _ fun _ => Request.data_of_isOf, hother]
    simp

private theorem Accounts.answered {con : ConPtr} {r : RedisReply} {ch : Choices} {req : Request}
    {obj : AsyncHiredisCommand}
    {more : List Request} {cause : Option (Request × ReplyPtr)} (h : Accounts that paid w hist) (ho : w.oldest con = some req)
    (hobj : w.Holds req.data obj) (hp : w'.client.pending = w.client.pending.eraseP (·.con = req.con) ++ more)
    (ht : w'.client.trace.filterMap Event.accepted = w.client.trace.filterMap Event.accepted ++ more.map (·, cause))
    (hmore : more = [] ∨ ∃ req', more = [req'] ∧ req'.data = req.data ∧
      ((w.fire req r ch).attemptOf req obj r = .sends req' ∨
        (req'.callback = .processCommandReply ∧
          (w.fire req r ch).Resends con obj ((w.fire req r ch).attemptOf req obj r))))
    (hpaid : retries that (w, .reply con r ch) = true → answers that false (w, .reply con r ch) = true →
      paid (w, .reply con r ch) = true) (hlen : w.client.objects.length ≤ w'.client.objects.length) :
    Accounts that paid w' (hist ++ [(w, .reply con r ch)]) := by
  have hmade := made_le that hlen
  have hexecuted := h.executed
  have hsent := h.sent
  have hcommands := commandsSent_append that ht
  have hbefore := countP_oldest ho (·.data = that)
  have hasked := countP_oldest ho (Request.isOf that .runRedisCallback)
  have hafter : w'.outstanding that = (w.client.pending.eraseP (·.con = req.con)).countP (·.data = that) +
      more.countP (·.data = that) := by
    unfold World.outstanding
    rw [hp, List.countP_append]
  have hasking : w'.askings that =
      (w.client.pending.eraseP (·.con = req.con)).countP (Request.isOf that .runRedisCallback) +
        more.countP (Request.isOf that .runRedisCallback) := by
    unfold World.askings
    rw [hp, List.countP_append]
  obtain ⟨hexecutes, hsends⟩ := debts_le ho hobj hmore hpaid
  simp only [decide_eq_true_eq] at hbefore
  constructor
  · rw [List.countP_append, List.countP_append, List.countP_singleton, List.countP_singleton]
    unfold World.outstanding at hexecuted hafter ⊢
    omega
  · rw [List.countP_append, List.countP_append, List.countP_singleton, List.countP_singleton]
    unfold World.askings at hsent hasking ⊢
    omega

end account

end HiredisCluster
