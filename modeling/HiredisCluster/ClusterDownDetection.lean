import HiredisCluster.AsyncFrame
import HiredisCluster.RedirectionSyntax

/-!
# The two tests for `CLUSTERDOWN`

`processResult` classifies an error as `CLUSTERDOWN` when its text starts with the word.  `checkCritical`, which both
clients call first, looks for the word anywhere in the C string, so the two differ exactly on the errors that mention it
elsewhere.  In the asynchronous client an error that mentions it is caught before `processResult` is called, so the
handler is never told of it with the state `CLUSTERDOWN` (`clusterDown_detected_iff`).
-/

namespace HiredisCluster

open Cxx AsyncHiredisCommand

/-- `processResult` classifies the reply as `CLUSTERDOWN`. -/
def RedisReply.IsDown (r : RedisReply) : Prop := ∃ host port, processResult r = .ret (.clusterDown, host, port)

/-- `checkCritical` throws a `ClusterDownException` exactly if `processResult` classifies the reply as `CLUSTERDOWN`. -/
def DetectorsAgree {ρ : Type} (w : World ρ) (a : Nat) (r : RedisReply) (free_reply_obj : Bool) (error : Bytes)
    (con : Option ConPtr) : Prop :=
  (checkCritical (m := Code (World ρ) Exn) (.object a r) false free_reply_obj error con w).1 =
    .throws (.cluster .clusterDown) ↔ r.IsDown

/-- The connection that is checked, if one is, has no error. -/
def ConnectionHealthy {ρ : Type} (w : World ρ) (con : Option ConPtr) : Prop :=
  ∀ c, con = some c → ∃ x, w.contexts[c]? = some x ∧ x.err = false

def Event.alarm? : Event → Option (ObjPtr × ProcessState)
  | .userErrorCb data .clusterDown state => some (data, state)
  | _ => none

/-- The calls of error handlers with a `ClusterDownException`: the object and the state. -/
def World.alarms (w : AsyncWorld) : List (ObjPtr × ProcessState) := w.client.trace.filterMap Event.alarm?

/-- While the reply to a request of the object `that` is handled, its error handler is told of a `ClusterDownException`
exactly if `processResult` classifies the reply as `CLUSTERDOWN`, and then with this state. -/
def AlarmsExactly (w : AsyncWorld) (con : ConPtr) (that : ObjPtr) (r : RedisReply) (ch : Choices) : Prop :=
  (r.IsDown → ((Stimulus.reply con r ch).exec w).2.alarms = w.alarms ++ [(that, .clusterDown)]) ∧
    (¬ r.IsDown → ((Stimulus.reply con r ch).exec w).2.alarms = w.alarms)

/-- The reply redirects a command with `MOVED`, and the moved callback throws a `ClusterDownException`. -/
def MovedAlarms (w : AsyncWorld) (req : Request) (r : RedisReply) (ch : Choices) : Prop :=
  req.callback = .processCommandReply ∧ r.IsMoved ∧ w.cluster.userMovedFn_ = true ∧
    ch.movedCb = some (.cluster .clusterDown)

/-! ### The two tests -/

private theorem RedisReply.isDown_iff (r : RedisReply) : r.IsDown ↔ r.startsWith (text "CLUSTERDOWN") = true := by
  unfold IsDown
  cases r with
  | error str =>
    have hdown : find str.bytes (text "CLUSTERDOWN") 0 = 0 ↔ _ := find_eq_zero_iff str.fits
    -- the three words start with different letters
    have hother {word : Bytes} (hw : word.head? ≠ (text "CLUSTERDOWN").head?) (hne : word ≠ [])
        (h : text "CLUSTERDOWN" <+: str.bytes) : ¬ word <+: str.bytes := by
      intro hp
      obtain ⟨c, l, rfl⟩ := List.exists_cons_of_ne_nil hne
      obtain ⟨t, ht⟩ := h
      obtain ⟨t', ht'⟩ := hp
      have hhead := congrArg List.head? (ht.trans ht'.symm)
      exact hw hhead.symm
    rw [RedisReply.startsWith, List.isPrefixOf_iff_prefix]
    constructor
    · rintro ⟨host, port, h⟩
      simp only [processResult, RedisReply.type, RedisReply.strOf, Outcome.ret_bind, ↓reduceIte] at h
      obtain ⟨host', port', hp⟩ := parsehostport_ret str.fits
      rw [hp] at h
      split at h
      · cases h
      · split at h
        · cases h
        · split at h
          · exact hdown.1 ‹_›
          · cases h
    · intro h
      have hask : find str.bytes (text "ASK") 0 ≠ 0 := fun hz =>
        hother (by decide) (by decide) h ((find_eq_zero_iff str.fits).1 hz)
      have hmoved : find str.bytes (text "MOVED") 0 ≠ 0 := fun hz =>
        hother (by decide) (by decide) h ((find_eq_zero_iff str.fits).1 hz)
      refine ⟨[], [], ?_⟩
      simp only [processResult, RedisReply.type, RedisReply.strOf, Outcome.ret_bind, hask, hmoved, hdown.2 h,
        ↓reduceIte]
      rfl
  | _ =>
    constructor
    · rintro ⟨host, port, h⟩
      cases h
    · intro h
      cases h

private theorem RedisReply.mentions_of_isDown {r : RedisReply} (h : r.IsDown) : r.mentionsClusterDown = true := by
  have hpre := r.isDown_iff.1 h
  cases r with
  | error str => exact RedisReply.mentions_of_prefix (List.isPrefixOf_iff_prefix.1 hpre)
  | _ => cases hpre

section check

variable {ρ : Type} {w : World ρ} {a : Nat} {con : Option ConPtr} (ha : a ∉ w.freed) (hcon : ConnectionHealthy w con)
  (r : RedisReply) (free_reply_obj : Bool) (error : Bytes)

include ha hcon

private theorem checkCritical_throws_iff :
    (checkCritical (m := Code (World ρ) Exn) (.object a r) false free_reply_obj error con w).1 =
      .throws (.cluster .clusterDown) ↔ r.mentionsClusterDown = true := by
  have hread := derefReply_object ha r
  have hskip : checkCritical (m := Code (World ρ) Exn) (.object a r) false free_reply_obj error con w =
      checkCritical (m := Code (World ρ) Exn) (.object a r) false free_reply_obj error none w := by
    cases con with
    | none => rfl
    | some c =>
      obtain ⟨x, hx, herr⟩ := hcon c rfl
      have hok : errOf c w = (.ret false, w) := by rw [errOf_eq hx, herr]
      exact Code.bind_of_ret hok _
  rw [hskip]
  cases r with
  | error str =>
    have hfree : freeReply (.object a (.error str)) w = (.ret (), { w with freed := a :: w.freed }) := by
      simp [freeReply, ha]
    simp only [checkCritical, readReply, Code.bind_apply, andThen_ret, hread, RedisReply.type, RedisReply.strOf, outcome,
      RedisReply.mentionsClusterDown]
    by_cases hm : find (cStr str.bytes) (text "CLUSTERDOWN") 0 = npos
    · simp [hm]
    · cases free_reply_obj <;> simp [hm, raise, outcome, freeReplyObject, hfree]
  | _ =>
    simp only [checkCritical, readReply, Code.bind_apply, andThen_ret, hread]
    simp [RedisReply.type, RedisReply.mentionsClusterDown]

/-- The two tests differ exactly on the errors that mention `CLUSTERDOWN` elsewhere than at the start. -/
private theorem detectorsAgree_iff : DetectorsAgree w a r free_reply_obj error con ↔
    (r.startsWith (text "CLUSTERDOWN") = true ∨ r.mentionsClusterDown = false) := by
  unfold DetectorsAgree
  rw [checkCritical_throws_iff ha hcon, r.isDown_iff]
  cases r with
  | error str =>
    have hmentions : (RedisReply.error str).startsWith (text "CLUSTERDOWN") = true →
        (RedisReply.error str).mentionsClusterDown = true :=
      fun h => RedisReply.mentions_of_prefix (List.isPrefixOf_iff_prefix.1 h)
    cases hm : (RedisReply.error str).mentionsClusterDown with
    | true => simp
    | false =>
      rw [hm] at hmentions
      simpa using hmentions
  | _ => simp [RedisReply.mentionsClusterDown, RedisReply.startsWith]

end check

/-! ### What the error handlers are told -/

/-- The handlers are told of other exceptions only. -/
abbrev NotDown (ce : ClusterException) : Prop := ce ≠ .clusterDown

private theorem alarms_unaffected (l : List (ObjPtr × ProcessState)) :
    Unaffected (fun _ => True) NotDown True fun w : AsyncWorld => w.alarms = l := by
  rintro w w' hw - ⟨evs, htrace, hevs⟩
  have hnone : evs.filterMap Event.alarm? = [] := by
    rw [List.filterMap_eq_nil_iff]
    intro e he
    cases e with
    | userErrorCb that e state =>
      have hother : NotDown e := hevs _ he
      cases e <;> first | rfl | exact absurd rfl hother
    | _ => rfl
  show w'.client.trace.filterMap Event.alarm? = l
  rw [htrace, List.filterMap_append, hnone, List.append_nil]
  exact hw

/-- No `ClusterDownException` leaves the code. -/
abbrev ThrowsNotDown {α : Type} (m : Async α) : Prop := Code.ThrowsOnly (· ≠ Exn.cluster .clusterDown) m

section throws

variable (that : ObjPtr) (con : ConPtr) (host port : Bytes)

private theorem throwsNotDown_object : ThrowsNotDown (object that) := by
  intro w e h
  unfold object at h
  split at h
  · split at h <;> cases h
  · cases h

private theorem throwsNotDown_context : ThrowsNotDown (context con) := by
  intro w e h
  unfold context at h
  split at h
  · split at h <;> cases h
  · cases h

private theorem throwsNotDown_redisAsyncSend (c : Option ConPtr) (callback : Callback) (message : Message) :
    ThrowsNotDown (redisAsyncSend c callback that message) := by
  cases c with
  | none => exact .undefined _
  | some c =>
    refine .bind (throwsNotDown_context c) fun ctx => .bind (.get _) fun w => ?_
    split
    · exact .bind (.modify _ _) fun _ => .pure _ _
    · exact .bind (.modify _ _) fun _ => .pure _ _

private theorem throwsNotDown_processHiredisCommand (c : Option ConPtr) : ThrowsNotDown
    (processHiredisCommand that c) :=
  .bind (throwsNotDown_object that) fun _ => throwsNotDown_redisAsyncSend that _ _ _

private theorem throwsNotDown_connect (port : Int32) : ThrowsNotDown (connect host port) := by
  refine .bind (.get _) fun w => ?_
  split
  · exact .undefined _
  · split
    · exact .throws (by decide)
    · refine .bind (.modify _ _) fun _ => ?_
      split
      · exact .throws (by decide)
      · exact .bind (.modify _ _) fun _ => .throws (by decide)
      · exact .bind (.modify _ _) fun _ => .throws (by decide)
      · exact .bind (.modify _ _) fun _ => .pure _ _

private theorem throwsNotDown_ensureConnection : ThrowsNotDown (ensureConnection that host port) := by
  have hstoi : ThrowsNotDown (Code.lift ((stoi port).mapThrows .std)) := by
    refine .lift fun e he => ?_
    rcases stoi_cases port with ⟨n, hn⟩ | ⟨x, hx⟩
    · rw [hn] at he
      cases he
    · rw [hx] at he
      cases he
      simp
  have herr (c : ConPtr) : ThrowsNotDown (errOf c) := by
    intro w e h
    unfold errOf at h
    split at h <;> cases h
  have hinsert : ThrowsNotDown (DefaultContainer.insertHost functions host port) := by
    refine .bind (.get _) fun w => ?_
    split
    · exact .pure _ _
    · refine .bind hstoi fun n => .bind (throwsNotDown_connect (cStr host) n) fun conn => ?_
      cases conn with
      | none => exact .pure _ _
      | some c =>
        refine .bind (herr c) fun err => ?_
        split
        · exact .pure _ _
        · exact .bind (.modify _ _) fun _ => .pure _ _
  refine .bind (throwsNotDown_object that) fun obj => ?_
  split
  · exact .bind hinsert fun _ => .modify _ _
  · exact .pure _ _

/-- Following a redirection, a `ClusterDownException` can only come from the moved callback. -/
private theorem followState_throwsNotDown {w : AsyncWorld} {state : ProcessState}
    (hs : state = .ready ∨ state = .ask ∨ state = .moved)
    (hm : state = .moved → w.movedException ≠ some (.cluster .clusterDown)) {e : Exn}
    (h : (followState that state host port w).1 = .throws e) : e ≠ .cluster .clusterDown := by
  have hsend {message : Message} {callback : Callback} {act : Action} {ce : ClusterException} (hce : NotDown ce) :
      ThrowsNotDown (ensureConnection that host port >>= fun _ => object that >>= fun obj =>
        redisAsyncSend obj.con_.2 callback that message >>= fun s =>
          if s = .ok then pure act else Code.throws (.cluster ce)) := by
    refine .bind (throwsNotDown_ensureConnection that host port) fun _ => .bind (throwsNotDown_object that) fun obj =>
      .bind (throwsNotDown_redisAsyncSend that _ _ _) fun s => ?_
    split
    · exact .pure _ _
    · refine .throws fun heq => hce ?_
      cases heq
      rfl
  rcases hs with rfl | rfl | rfl
  · cases h
  · exact hsend (by decide) w e h
  · have hmoved := clusterMoved_eq w
    cases hex : w.movedException with
    | some x =>
      rw [hex] at hmoved
      rw [followState, Code.bind_of_throws hmoved] at h
      cases h
      exact fun heq => hm rfl (heq ▸ hex)
    | none =>
      rw [hex] at hmoved
      rw [followState, Code.bind_of_ret hmoved] at h
      have hafter : ThrowsNotDown (ensureConnection that host port >>= fun _ => object that >>= fun obj =>
          processHiredisCommand that obj.con_.2 >>= fun s =>
            if s = .ok then pure Action.redirect else Code.throws (.cluster .movedFailed)) := by
        refine .bind (throwsNotDown_ensureConnection that host port) fun _ => .bind (throwsNotDown_object that) fun obj =>
          .bind (throwsNotDown_processHiredisCommand that _) fun s => ?_
        split
        · exact .pure _ _
        · exact .throws (by decide)
      exact hafter _ e h

/-- Neither does the other callback throw one on a reply that does not mention `CLUSTERDOWN`. -/
private theorem askingAnswered_throwsNotDown {w : AsyncWorld} {a : Nat} (ha : a ∉ w.freed) {r : RedisReply}
    (hdown : r.mentionsClusterDown = false) {e : Exn} (h : (askingAnswered (.object a r) that w).1 = .throws e) :
    e ≠ .cluster .clusterDown := by
  have hcheck := checkCritical_eq ha r
  rw [hdown, if_neg (by decide)] at hcheck
  have hread : (readReply (.object a r) : Async RedisReply) w = (.ret r, w) := derefReply_object ha r
  have hafter (isOk : Bool) : ThrowsNotDown (if isOk = true then object that >>= fun obj =>
      processHiredisCommand that obj.con_.2 >>= fun s =>
        if s ≠ .ok then Code.throws (.cluster .askingFailed) else pure ()
      else Code.throws (.cluster .askingFailed)) := by
    split
    · refine .bind (throwsNotDown_object that) fun obj => .bind (throwsNotDown_processHiredisCommand that _) fun s => ?_
      split
      · exact .throws (by decide)
      · exact .pure _ _
    · exact .throws (by decide)
  rw [askingAnswered, Code.bind_of_ret hcheck, Code.bind_of_ret hread] at h
  cases r <;> exact Code.ThrowsOnly.bind (.pure _ _) hafter w e h

end throws

section callbacks

variable {w : AsyncWorld} {that : ObjPtr} {obj : AsyncHiredisCommand} (h : w.Holds that obj)
  (hs : obj.userErrorCb_ = true) (con : ConPtr)

include h hs in
/-- A `ClusterDownException` is reported once, with the state of the callback. -/
private theorem conclude_alarms (p : ReplyPtr) (state : ProcessState) :
    (conclude con p that state (.error .clusterDown) w).2.alarms = w.alarms ++ [(that, state)] := by
  have hasked := wantsRetry_eq h hs .clusterDown state
  have hkeeps := alarms_unaffected (w.alarms ++ [(that, state)])
  have hreported (ch : Choices) : (w.noted ch [.userErrorCb that .clusterDown state]).alarms =
      w.alarms ++ [(that, state)] := List.filterMap_append ..
  show ((wantsRetry that .clusterDown state >>= fun b =>
    if b = true then complete con p that .retry else complete con p that .finish) w).2.alarms = _
  rw [Code.bind_of_ret hasked]
  split
  · exact hkeeps.complete that con p trivial (by decide) .retry _ (hreported _)
  · exact hkeeps.complete that con p trivial (by decide) .finish _ (hreported _)

variable {a : Nat} (ha : a ∉ w.freed) {r : RedisReply}

include h hs ha in
/-- An error that mentions `CLUSTERDOWN` is reported with the state `FAILED` or `ASK`. -/
private theorem callback_alarms_down (hdown : r.mentionsClusterDown = true) (callback : Callback) :
    ∃ state, state ≠ .clusterDown ∧
      (callback.run con (.object a r) that w).2.alarms = w.alarms ++ [(that, state)] := by
  have hcheck := checkCritical_eq ha r
  rw [hdown, if_pos rfl] at hcheck
  cases callback with
  | processCommandReply =>
    refine ⟨.failed, by decide, ?_⟩
    have hrun : processCommandReply con (.object a r) that w = _ := processCommandReply_of_throws hcheck
    show (processCommandReply con (.object a r) that w).2.alarms = _
    rw [hrun]
    exact conclude_alarms h hs con _ _
  | runRedisCallback =>
    refine ⟨.ask, by decide, ?_⟩
    have hasking : askingAnswered (.object a r) that w = (.throws (.cluster .clusterDown), w) :=
      Code.bind_of_throws hcheck _
    have hrun : runRedisCallback con (.object a r) that w =
        conclude con (.object a r) that .ask (.error .clusterDown) w := Code.bind_of_ret (Exn.caught hasking) _
    show (runRedisCallback con (.object a r) that w).2.alarms = _
    rw [hrun]
    exact conclude_alarms h hs con _ _

include h hs ha in
/-- So is what the moved callback throws, with the state `MOVED`. -/
private theorem callback_alarms_moved (hdown : r.mentionsClusterDown = false) (hm : r.IsMoved)
    (hex : w.movedException = some (.cluster .clusterDown)) :
    (processCommandReply con (.object a r) that w).2.alarms = w.alarms ++ [(that, .moved)] := by
  obtain ⟨host, port, hres⟩ := hm.processResult_eq
  have hmoved := clusterMoved_eq w
  rw [hex] at hmoved
  let w₁ := w.afterMoved true
  have halarms : w₁.alarms = w.alarms := (List.filterMap_append ..).trans (List.append_nil _)
  have htry : followState that .moved host port w = (.throws (.cluster .clusterDown), w₁) :=
    Code.bind_of_throws hmoved _
  rw [processCommandReply_of_up that con ha hdown hres, Code.bind_of_ret (Exn.caught htry), ← halarms]
  exact conclude_alarms (w := w₁) h hs con _ _

include ha in
/-- Nothing else is reported as a `ClusterDownException`. -/
private theorem callback_alarms_up (hdown : r.mentionsClusterDown = false) (callback : Callback)
    (hno : ¬ (callback = .processCommandReply ∧ r.IsMoved ∧ w.movedException = some (.cluster .clusterDown))) :
    (callback.run con (.object a r) that w).2.alarms = w.alarms := by
  have hkeeps := alarms_unaffected w.alarms
  have hend (state : ProcessState) (result : Except ClusterException Action)
      (hother : ∀ ce, result = .error ce → NotDown ce) := hkeeps.conclude that con (.object a r) trivial (by decide) state
        result hother
  have hcaught (e : Exn) (ce : ClusterException) (he : e ≠ .cluster .clusterDown) (hce : e.clusterException = some ce) :
      NotDown ce := by
    cases e with
    | cluster x =>
      cases hce
      exact fun heq => he (congrArg _ heq)
    | std x => cases hce
  cases callback with
  | processCommandReply =>
    obtain ⟨state, host, port, hres, hstate⟩ : ∃ state host port, processResult r = .ret (state, host, port) ∧
        (state = .ready ∨ state = .ask ∨ state = .moved) := by
      rcases processResult_cases hdown with hres | ⟨host, port, hres | hres⟩
      · exact ⟨_, _, _, hres, Or.inl rfl⟩
      · exact ⟨_, _, _, hres, Or.inr (Or.inl rfl)⟩
      · exact ⟨_, _, _, hres, Or.inr (Or.inr rfl)⟩
    have hmoved : state = .moved → w.movedException ≠ some (.cluster .clusterDown) := by
      rintro rfl hex
      exact hno ⟨rfl, RedisReply.isMoved_of_processResult hres, hex⟩
    show (processCommandReply con (.object a r) that w).2.alarms = _
    rw [processCommandReply_of_up that con ha hdown hres]
    refine Code.Preserves.after_attempt (I := fun w' : AsyncWorld => w'.alarms = w.alarms) (Q := NotDown) rfl
      (hkeeps.followState that (fun _ => trivial) trivial state host port) (fun e ce he hce => ?_) (hend state)
    exact hcaught e ce (followState_throwsNotDown that host port hstate hmoved he) hce
  | runRedisCallback =>
    refine Code.Preserves.after_attempt (I := fun w' : AsyncWorld => w'.alarms = w.alarms) (Q := NotDown) rfl
      (hkeeps.askingAnswered that (.object a r) fun _ => trivial) (fun e ce he hce =>
        hcaught e ce (askingAnswered_throwsNotDown that ha hdown he) hce) fun result hother => ?_
    cases result with
    | ok u => exact hkeeps.complete that con _ trivial (by decide) _
    | error ce => exact hend .ask (.error ce) fun ce' hce' => hother ce' (by cases hce'; rfl)

end callbacks

/-- The error handler of a command is told of a `ClusterDownException` exactly for the replies that `processResult`
classifies as `CLUSTERDOWN`, and with this state, exactly if the reply does not mention `CLUSTERDOWN` at all and the moved
callback does not throw one. -/
private theorem alarmsExactly_iff {w : AsyncWorld} (hsound : Sound w) {con : ConPtr} {req : Request}
    {obj : AsyncHiredisCommand}
    (ho : w.oldest con = some req) (hobj : w.Holds req.data obj) (hs : obj.userErrorCb_ = true) (r : RedisReply)
    (ch : Choices) :
    AlarmsExactly w con req.data r ch ↔ r.mentionsClusterDown = false ∧ ¬ MovedAlarms w req r ch := by
  have hfree : w.replies ∉ (w.fire req r ch).freed := fun ha => Nat.lt_irrefl _ (hsound.freed _ ha)
  -- what happens before and after the callback is not reported
  have hexec (l : List (ObjPtr × ProcessState))
      (hl : (req.callback.run con (.object w.replies r) req.data (w.fire req r ch)).2.alarms = w.alarms ++ l) :
      ((Stimulus.reply con r ch).exec w).2.alarms = w.alarms ++ l := by
    rw [reply_exec ho r ch]
    refine Code.Preserves.after (I := fun w' : AsyncWorld => w'.alarms = w.alarms ++ l) hl fun _ =>
      (alarms_unaffected _).modify (fun _ => ⟨rfl, rfl, id, id⟩) fun _ => rfl
  have hmoved : (w.fire req r ch).movedException = some (.cluster .clusterDown) ↔
      w.cluster.userMovedFn_ = true ∧ ch.movedCb = some (.cluster .clusterDown) := by
    show (if w.cluster.userMovedFn_ = true then ch.movedCb else none) = _ ↔ _
    split <;> simp [*]
  have hadds {state : ProcessState} (hne : r.IsDown → state ≠ .clusterDown)
      (hl : ((Stimulus.reply con r ch).exec w).2.alarms = w.alarms ++ [(req.data, state)]) :
      ¬ AlarmsExactly w con req.data r ch := by
    intro hall
    by_cases hdown : r.IsDown
    · have heq := hl.symm.trans (hall.1 hdown)
      simp only [List.append_cancel_left_eq, List.cons.injEq, Prod.mk.injEq, and_true, true_and] at heq
      exact hne hdown heq
    · have heq := hl.symm.trans (hall.2 hdown)
      simp at heq
  cases hdown : r.mentionsClusterDown with
  | true =>
    obtain ⟨state, hne, hl⟩ := callback_alarms_down (w := w.fire req r ch) hobj hs con hfree hdown req.callback
    exact iff_of_false (hadds (fun _ => hne) (hexec _ hl)) (by simp)
  | false =>
    have hnot : ¬ r.IsDown := by
      intro hd
      rw [RedisReply.mentions_of_isDown hd] at hdown
      cases hdown
    by_cases halarm : MovedAlarms w req r ch
    · obtain ⟨hcb, hm, hset⟩ := halarm
      have hl := callback_alarms_moved (w := w.fire req r ch) hobj hs con hfree hdown hm (hmoved.2 hset)
      have hend := hexec [(req.data, .moved)] (by rw [hcb]; exact hl)
      exact iff_of_false (hadds (fun hd => absurd hd hnot) hend) (by simp [hcb, hm, hset, MovedAlarms])
    · have hl : (req.callback.run con (.object w.replies r) req.data (w.fire req r ch)).2.alarms = w.alarms :=
        callback_alarms_up (w := w.fire req r ch) con hfree hdown req.callback
          fun hyes => halarm ⟨hyes.1, hyes.2.1, hmoved.1 hyes.2.2⟩
      have hend := hexec [] (by rw [List.append_nil]; exact hl)
      rw [List.append_nil] at hend
      exact iff_of_true ⟨fun hd => absurd hd hnot, fun _ => hend⟩ ⟨rfl, halarm⟩

/-- On a healthy connection the two tests agree on a reply exactly if it starts with `CLUSTERDOWN` or does not mention it.
In every reachable state the handler of a command that has one is told of a `ClusterDownException` as the classification
says exactly if the reply does not mention `CLUSTERDOWN`, unless the moved callback throws one. -/
theorem clusterDown_detected_iff (r : RedisReply) :
    (∀ (ρ : Type) (w : World ρ) (a : Nat) (free_reply_obj : Bool) (error : Bytes) (con : Option ConPtr), a ∉ w.freed →
        ConnectionHealthy w con → (DetectorsAgree w a r free_reply_obj error con ↔
          (r.startsWith (text "CLUSTERDOWN") = true ∨ r.mentionsClusterDown = false))) ∧
      ∀ (w : AsyncWorld) (hist : List (AsyncWorld × Stimulus)) (con : ConPtr) (req : Request)
        (obj : AsyncHiredisCommand) (ch : Choices), AsyncRun w hist → w.oldest con = some req → w.Holds req.data obj →
        obj.userErrorCb_ = true →
          (AlarmsExactly w con req.data r ch ↔ r.mentionsClusterDown = false ∧ ¬ MovedAlarms w req r ch) :=
  ⟨fun _ _ _ free_reply_obj error _ ha hcon => detectorsAgree_iff ha hcon r free_reply_obj error,
    fun _ _ _ _ _ ch run ho hobj hs => alarmsExactly_iff (sound_of_run run) ho hobj hs r ch⟩

/-- A command with an error handler. -/
def handledCommand : List Stimulus :=
  [.command ⟨false, text "k", some (text "GET k"), true⟩ calm, .setUserErrorCb 0 true]

/-- What a server answers when the cluster is down. -/
def clusterIsDownReply : RedisReply := .error (.ofText "CLUSTERDOWN The cluster is down")

/-- The two tests agree on the reply of a cluster that is down, but the handler is not told so. -/
theorem clusterDown_detected_iff_reply :
    DetectorsAgree oneNode 1 clusterIsDownReply true [] (some 0) ∧
      ¬ AlarmsExactly (Stimulus.after handledCommand oneNode) 0 0 clusterIsDownReply calm := by
  have hmentions : clusterIsDownReply.mentionsClusterDown = true := by decide +kernel
  have hcon : ConnectionHealthy oneNode (some 0) := by
    rintro c ⟨⟩
    exact ⟨_, rfl, rfl⟩
  have hrun := run_after oneNode_initial handledCommand (by decide +kernel)
  constructor
  · exact ((clusterDown_detected_iff clusterIsDownReply).1 AsyncClient oneNode 1 true [] (some 0) (by decide) hcon).2
      (Or.inl (by decide +kernel))
  · intro h
    have hagrees := ((clusterDown_detected_iff clusterIsDownReply).2 _ _ 0
      ⟨0, .processCommandReply, 0, .formatted (text "GET k")⟩ _ calm hrun (by decide +kernel) ⟨rfl, rfl⟩ rfl).1 h
    rw [hmentions] at hagrees
    cases hagrees.1

/-- An error that mentions `CLUSTERDOWN` as the name of an unknown command is taken for it, and the handler of a command
is told that the cluster is down with the state `FAILED`. -/
theorem not_clusterDown_detected :
    ¬ DetectorsAgree oneNode 1 (.error (.ofText "ERR unknown command 'CLUSTERDOWN'")) true [] (some 0) ∧
      ∃ w hist, AsyncRun w hist ∧ ¬ AlarmsExactly w 0 0 clusterIsDownReply calm := by
  constructor
  · intro h
    have hthrows : (checkCritical (m := Code AsyncWorld Exn) (.object 1 (.error (.ofText "ERR unknown command 'CLUSTERDOWN'")))
        false true [] (some 0) oneNode).1 = .throws (.cluster .clusterDown) := by decide +kernel
    have hdown := (RedisReply.isDown_iff _).1 (h.1 hthrows)
    exact absurd hdown (by decide +kernel)
  · refine ⟨_, _, run_after oneNode_initial handledCommand (by decide +kernel), fun h => ?_⟩
    have htold := h.1 ((RedisReply.isDown_iff _).2 (by decide +kernel))
    have halarms : ((Stimulus.reply 0 clusterIsDownReply calm).exec (Stimulus.after handledCommand oneNode)).2.alarms =
        [(0, .failed)] := by decide +kernel
    rw [halarms] at htold
    exact absurd htold (by decide +kernel)

end HiredisCluster
