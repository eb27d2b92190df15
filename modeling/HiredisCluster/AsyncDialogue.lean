import HiredisCluster.DeadConnections
import HiredisCluster.Dialogue

/-!
# The asynchronous client and the dialogue

A new client issues one command and its event loop runs until nothing is outstanding (`eventLoop`).  Each reply takes the
command from one stage of the dialogue to the next (`Stage`, `Ended`), so three replies are enough, and the transcript is
that of the dialogue (`asyncTranscript_eq`), unless the moved callback throws: then the command is not sent again
(`asyncTranscript_aborts`).
-/

namespace HiredisCluster

open Cxx AsyncHiredisCommand

namespace Event

/-- The message that was sent. -/
def message : Event → Option (ConPtr × Message)
  | sent req _ => some (req.con, req.message)
  | _ => none

/-- The reply that the user got. -/
def answer : Event → Option RedisReply
  | redisCallback _ reply _ => some reply
  | _ => none

private theorem filterMap_quiet {evs : List Event} (h : ∀ e ∈ evs, e.Quiet) :
    evs.filterMap message = [] ∧ evs.filterMap answer = [] := by
  have hnone : ∀ e ∈ evs, e.message = none ∧ e.answer = none := by
    intro e he
    have hq := h e he
    cases e with
    | refused req cause => exact ⟨rfl, rfl⟩
    | userErrorCb data ce state => exact ⟨rfl, rfl⟩
    | _ => cases hq
  exact ⟨List.filterMap_eq_nil_iff.2 fun e he => (hnone e he).1, List.filterMap_eq_nil_iff.2 fun e he => (hnone e he).2⟩

end Event

/-- A new asynchronous client. -/
def Shared.asyncClient (t : Shared) : AsyncWorld :=
  { cluster := t.cluster, contexts := t.contexts, replies := 0, freed := []
    client :=
      { data_ := { adapter := true, pcluster := true, lifetime := 0, freed := false }
        objects := [], pending := [], firing := none, choices := calm, trace := [] } }

/-- The connections that hiredis ends: a disconnect was issued and no requests are outstanding. -/
def World.closing (w : AsyncWorld) : List ConPtr :=
  (List.range w.contexts.length).filter fun c =>
    ((w.contexts[c]?).any fun x => x.disconnecting && !x.disconnected) && w.client.pending.all (·.con ≠ c)

/-- hiredis ends connections. -/
def hangUp : List ConPtr → Async Unit
  | [] => pure ()
  | con :: rest => do
    (Occurrence.disconnected con).exec
    hangUp rest

/-- The event loop with the replies from the n-th on, until nothing is outstanding. -/
def eventLoop (movedCb : Option Exn) (replies : Nat → RedisReply) : (fuel n : Nat) → Async Unit
  | 0, _ => pure ()
  | fuel + 1, n => do
    let w ← Code.get
    match w.client.pending with
    | [] => pure ()
    | req :: _ =>
      (Stimulus.reply req.con (replies n) { calm with movedCb }).exec
      let w ← Code.get
      hangUp w.closing
      eventLoop movedCb replies fuel (n + 1)

/-- One command with a callback and without an error handler. -/
def runCommand (movedCb : Option Exn) (key cmd : Bytes) (replies : Nat → RedisReply) (fuel : Nat) : Async Unit := do
  let _ ← AsyncHiredisCommand.command { clusterNull := false, key, cmd := some cmd, redisCallback := true }
  eventLoop movedCb replies fuel 0

/-- What the user's callback got. -/
def AsyncClient.given (c : AsyncClient) : Outcome Exn Unit → Outcome Exn (List RedisReply)
  | .ret _ => .ret (c.trace.filterMap Event.answer)
  | .throws e => .throws e
  | .undefined => .undefined

/-- A command of the asynchronous client, whose n-th message is answered with the n-th reply. -/
def asyncTranscript (t : Shared) (movedCb : Option Exn) (key cmd : Bytes) (replies : Nat → RedisReply) (fuel : Nat) :
    Transcript :=
  let x := runCommand movedCb key cmd replies fuel t.asyncClient
  x.2.shared.transcript (x.2.client.trace.filterMap Event.message) (x.2.client.given x.1)

/-! ### The stages of a command -/

/-- The command object at every stage, with the connection it has. -/
def commandObject (key cmd : Bytes) (con_ : HostConnection) : AsyncHiredisCommand :=
  { redisCallback_ := true, userErrorCb_ := false, con_, key_ := key, cmd_ := cmd, alive := true }

/-- The messages `sent` were sent and `n` replies arrived; nothing was given to the user. -/
structure Stage (t : Shared) (obj : AsyncHiredisCommand) (pending : List Request) (sent : List (ConPtr × Message))
    (n : Nat) (w : AsyncWorld) : Prop where
  shared : w.shared = t
  data : Attached w
  adapter : w.client.data_.adapter = true
  objects : w.client.objects = [obj]
  pending : w.client.pending = pending
  sent : w.client.trace.filterMap Event.message = sent
  given : w.client.trace.filterMap Event.answer = []
  replies : w.replies = n
  freed : ∀ a ∈ w.freed, a < n

/-- The command is over. -/
structure Ended (t : Shared) (sent : List (ConPtr × Message)) (given : List RedisReply) (w : AsyncWorld) : Prop where
  cluster : w.cluster = t.cluster
  addresses : w.shared.addresses = t.addresses
  pending : w.client.pending = []
  sent : w.client.trace.filterMap Event.message = sent
  given : w.client.trace.filterMap Event.answer = given

/-- One iteration of the event loop. -/
def Iterates (movedCb : Option Exn) (req : Request) (r : RedisReply) (w u : AsyncWorld) : Prop :=
  ∃ v, (Stimulus.reply req.con r { calm with movedCb }).exec w = (.ret (), v) ∧ hangUp v.closing v = (.ret (), u)

/-- The environment lets everything succeed; only the moved callback may throw. -/
structure Calm (movedCb : Option Exn) (w : AsyncWorld) : Prop where
  sends : w.client.choices.sends = []
  connects : w.client.choices.connects = []
  subscribed : w.client.choices.subscribed = false
  movedCb : w.client.choices.movedCb = movedCb

/-! ### Closing connections -/

/-- Changing the flags of a context does not change its address. -/
private theorem addresses_modify (l : List Context) (c : ConPtr) (f : Context → Context)
    (hf : ∀ x, (f x).host = x.host ∧ (f x).port = x.port) :
    (l.modify c f).map (fun x => (x.host, x.port)) = l.map fun x => (x.host, x.port) := by
  apply List.ext_getElem?
  intro i
  rw [List.getElem?_map, List.getElem?_map, List.getElem?_modify]
  cases l[i]? with
  | none => rfl
  | some x =>
    by_cases hi : c = i
    · simp [hi, hf x]
    · simp [hi]

namespace World

variable {w : AsyncWorld} {that : ObjPtr} {obj : AsyncHiredisCommand}

private theorem cluster_kill : (w.kill that obj).cluster = w.cluster := by
  unfold World.kill
  cases obj.con_.2 <;> rfl

private theorem addresses_kill : (w.kill that obj).shared.addresses = w.shared.addresses := by
  unfold World.kill
  cases obj.con_.2 with
  | none => rfl
  | some c => exact addresses_modify w.contexts c _ fun _ => ⟨rfl, rfl⟩

end World

/-- A connection on which nothing is outstanding ends without undefined behaviour. -/
private theorem disconnected_exec {w : AsyncWorld} (hd : Attached w) (hp : w.client.pending = []) {con : ConPtr}
    {x : Context} (hx : w.contexts[con]? = some x) (hopen : x.disconnected = false) :
    (Occurrence.disconnected con).exec w = (.ret (), { w.updClient fun c =>
        { c with data_ := { c.data_ with lifetime := c.data_.lifetime - 1 } } with
      contexts := w.contexts.modify con fun x => { x with disconnected := true } }) := by
  have hcontext : context con w = (.ret x, w) := by simp [context, hx, hopen]
  refine (Code.bind_of_ret hcontext _).trans ((Code.bind_of_ret (Code.get_apply w) _).trans ?_)
  rw [hp]
  refine (Code.bind_of_ret (show endRequests con [] w = (.ret (), w) from rfl) _).trans ?_
  exact (Code.bind_of_ret (disconnectCb_eq hd con) _).trans rfl

/-- The tables stay as they are when connections end. -/
private theorem hangUp_frame {l : List ConPtr} (hl : l.Nodup) {w : AsyncWorld} (hd : Attached w)
    (hp : w.client.pending = []) (hopen : ∀ c ∈ l, ∃ x, w.contexts[c]? = some x ∧ x.disconnected = false) :
    ∃ u, hangUp l w = (.ret (), u) ∧ u.cluster = w.cluster ∧ u.shared.addresses = w.shared.addresses ∧
      u.client.pending = [] ∧ u.client.trace = w.client.trace := by
  induction l generalizing w with
  | nil => exact ⟨w, rfl, rfl, rfl, hp, rfl⟩
  | cons con rest ih =>
    obtain ⟨hnotin, hrest⟩ := List.nodup_cons.1 hl
    obtain ⟨x, hx, hdis⟩ := hopen con (List.mem_cons_self ..)
    have hstep := disconnected_exec hd hp hx hdis
    obtain ⟨u, hu, hcluster, haddresses, hpending, htrace⟩ := ih hrest
      (w := { w.updClient fun c => { c with data_ := { c.data_ with lifetime := c.data_.lifetime - 1 } } with
        contexts := w.contexts.modify con fun x => { x with disconnected := true } }) hd hp fun c hc => by
        obtain ⟨y, hy, hydis⟩ := hopen c (List.mem_cons_of_mem _ hc)
        have hne : con ≠ c := fun heq => hnotin (heq ▸ hc)
        exact ⟨y, by simp [hy, hne], hydis⟩
    refine ⟨u, (Code.bind_of_ret hstep _).trans hu, hcluster, ?_, hpending, htrace⟩
    exact haddresses.trans (addresses_modify w.contexts con _ fun _ => ⟨rfl, rfl⟩)

private theorem World.mem_closing {w : AsyncWorld} {c : ConPtr} (h : c ∈ w.closing) :
    ∃ x, w.contexts[c]? = some x ∧ x.disconnecting = true ∧ x.disconnected = false := by
  have hc := (List.mem_filter.1 h).2
  rw [Bool.and_eq_true, Option.any_eq_true] at hc
  obtain ⟨⟨x, hx, hflags⟩, -⟩ := hc
  exact ⟨x, hx, by simpa using hflags⟩

section stages

variable {t : Shared} {key cmd : Bytes} {con_ : HostConnection} {pending : List Request}
  {sent : List (ConPtr × Message)} {n : Nat} {movedCb : Option Exn} {w : AsyncWorld}

theorem Stage.holds (h : Stage t (commandObject key cmd con_) pending sent n w) :
    w.Holds 0 (commandObject key cmd con_) := ⟨by rw [h.objects]; rfl, rfl⟩

private theorem Stage.isOpen (h : Stage t (commandObject key cmd con_) pending sent n w) (ht : t.Healthy) {c : ConPtr}
    (hc : c < t.contexts.length) : w.Open c := by
  obtain ⟨x, hx, -, -, hdis⟩ := ht.context hc
  rw [← h.shared] at hx
  exact ⟨x, hx, hdis⟩

/-- A message is accepted. -/
theorem Stage.send (h : Stage t (commandObject key cmd con_) [] sent n w) (hcalm : Calm movedCb w) (ht : t.Healthy)
    {c : ConPtr} (hc : c < t.contexts.length) (callback : Callback) (message : Message) :
    ∃ v, redisAsyncSend (some c) callback 0 message w = (.ret .ok, v) ∧
      Stage t (commandObject key cmd con_) [⟨c, callback, 0, message⟩] (sent ++ [(c, message)]) n v := by
  have haccepts : w.Accepts c w.firstSend := by
    refine ⟨?_, fun ctx hctx => ?_⟩
    · show w.client.choices.sends.headD .ok = .ok
      rw [hcalm.sends]
      rfl
    · obtain ⟨x, hx, -, hdis, -⟩ := ht.context hc
      rw [← h.shared] at hx
      cases hctx.symm.trans hx
      exact hdis
  obtain ⟨ch, -, -, -, ⟨-, hrun⟩ | ⟨hno, -⟩⟩ := redisAsyncSend_cases (h.isOpen ht hc) callback 0 message
  · refine ⟨_, hrun, ?_⟩
    refine ⟨h.shared, h.data, h.adapter, h.objects, ?_, ?_, ?_, h.replies, h.freed⟩
    · show w.client.pending ++ [_] = _
      rw [h.pending]
      rfl
    · show (w.client.trace ++ [_]).filterMap Event.message = _
      rw [List.filterMap_append, h.sent]
      rfl
    · show (w.client.trace ++ [_]).filterMap Event.answer = _
      rw [List.filterMap_append, h.given]
      rfl
  · exact absurd haccepts hno

private theorem async_connects (hd : Attached w) (ha : w.client.data_.adapter = true)
    (hc : w.client.choices.connects = []) :
    functions.Connects (fun c => { c with choices := { c.choices with connects := c.choices.connects.tail }
                                          data_ := { c.data_ with lifetime := c.data_.lifetime + 1 } }) w := by
  intro host port
  show AsyncHiredisCommand.connect host port w = _
  unfold AsyncHiredisCommand.connect
  rw [Code.bind_of_ret (Code.get_apply w), if_neg (by rw [hd.1]; decide), if_neg (by rw [ha]; decide),
    Code.bind_of_ret (Code.modify_apply _ w)]
  have hhealthy : w.client.choices.connects.headD .healthy = .healthy := by
    rw [hc]
    rfl
  rw [hhealthy]
  rfl

/-- The object gets the connection that the redirection names. -/
theorem Stage.connect (h : Stage t (commandObject key cmd ([], none)) [] sent n w) (hcalm : Calm movedCb w) (host : Bytes)
    {port : Bytes} (hport : ∃ n, stoi port = .ret n) :
    ∃ v, ensureConnection 0 host port w = (.ret (), v) ∧ Calm movedCb v ∧
      Stage (t.connect host port).2 (commandObject key cmd (DefaultContainer.hostKey host port,
        some (t.connect host port).1)) [] sent n v := by
  obtain ⟨client, hclient, hcreate⟩ :=
    createNewConnection_connect (async_connects h.data h.adapter hcalm.connects) host hport
  rw [h.shared] at hcreate
  have hrun : ensureConnection 0 host port w = _ := Code.bind_of_ret (object_eq h.holds) _
  have hnew : (commandObject key cmd ([], none)).con_.2 = none := rfl
  rw [if_pos hnew, Code.bind_of_ret hcreate, Code.modify_apply] at hrun
  refine ⟨_, hrun, ?_⟩
  rcases hclient with rfl | rfl
  · refine ⟨⟨hcalm.sends, hcalm.connects, hcalm.subscribed, hcalm.movedCb⟩,
      ⟨rfl, h.data, h.adapter, ?_, h.pending, h.sent, h.given, h.replies, h.freed⟩⟩
    show w.client.objects.modify 0 _ = _
    rw [h.objects]
    rfl
  · refine ⟨⟨hcalm.sends, ?_, hcalm.subscribed, hcalm.movedCb⟩,
      ⟨rfl, h.data, h.adapter, ?_, h.pending, h.sent, h.given, h.replies, h.freed⟩⟩
    · show w.client.choices.connects.tail = []
      rw [hcalm.connects]
      rfl
    · show w.client.objects.modify 0 _ = _
      rw [h.objects]
      rfl

variable (movedCb) in
/-- A reply to the only request arrives. -/
theorem Stage.fire {req : Request} (h : Stage t (commandObject key cmd con_) [req] sent n w) (r : RedisReply) :
    Stage t (commandObject key cmd con_) [] sent (n + 1) (w.fire req r { calm with movedCb }) ∧
      Calm movedCb (w.fire req r { calm with movedCb }) ∧ n ∉ w.freed := by
  refine ⟨⟨h.shared, h.data, h.adapter, h.objects, ?_, h.sent, h.given, congrArg (· + 1) h.replies, fun a ha =>
    Nat.lt_succ_of_lt (h.freed a ha)⟩, ⟨rfl, rfl, rfl, rfl⟩, fun ha => Nat.lt_irrefl _ (h.freed _ ha)⟩
  show w.client.pending.eraseP (·.con = req.con) = []
  rw [h.pending]
  simp

private theorem Stage.release (h : Stage t (commandObject key cmd con_) pending sent (n + 1) w) :
    Stage t (commandObject key cmd con_) pending sent (n + 1) (w.release n) := by
  refine ⟨h.shared, h.data, h.adapter, h.objects, h.pending, h.sent, h.given, h.replies, fun b hb => ?_⟩
  rcases List.mem_cons.1 hb with rfl | hb
  · exact Nat.lt_succ_self _
  · exact h.freed b hb

/-- The flag of the cluster is set. -/
private theorem Stage.markMoved (h : Stage t (commandObject key cmd con_) pending sent n w) (threw : Bool) :
    Stage t.markMoved (commandObject key cmd con_) pending sent n (w.afterMoved threw) where
  shared := congrArg Shared.markMoved h.shared
  data := h.data
  adapter := h.adapter
  objects := h.objects
  pending := h.pending
  sent := (List.filterMap_append ..).trans ((List.append_nil _).trans h.sent)
  given := (List.filterMap_append ..).trans ((List.append_nil _).trans h.given)
  replies := h.replies
  freed := h.freed

private theorem Calm.markMoved (h : Calm movedCb w) (threw : Bool) : Calm movedCb (w.afterMoved threw) :=
  ⟨h.sends, h.connects, h.subscribed, h.movedCb⟩

private theorem Stage.movedException (h : Stage t (commandObject key cmd con_) pending sent n w)
    (hcalm : Calm movedCb w) :
    w.movedException = if t.cluster.userMovedFn_ then movedCb else none := by
  have hcluster : w.cluster = t.cluster := congrArg Shared.cluster h.shared
  unfold World.movedException
  rw [hcluster, hcalm.movedCb]

/-- The reply is given to the user and the object is deleted. -/
private theorem Stage.ends (h : Stage t (commandObject key cmd con_) [] sent n w) (hcalm : Calm movedCb w)
    {r : RedisReply} {evs : List Event} {retried : Prop} {v : AsyncWorld} (hq : ∀ e ∈ evs, e.Quiet)
    (hends : w.Ends 0 (commandObject key cmd con_) r evs retried v) :
    Ended t sent [r] v ∧ Attached v := by
  rcases hends with ⟨-, ch, rfl⟩ | ⟨hsub, -⟩
  · obtain ⟨hmessages, hanswers⟩ := Event.filterMap_quiet hq
    have htrace : (evs ++ (commandObject key cmd con_).given 0 r w.client.firing ++ [Event.deleted 0]).filterMap
        Event.message = [] ∧ (evs ++ (commandObject key cmd con_).given 0 r w.client.firing ++
          [Event.deleted 0]).filterMap Event.answer = [r] := by
      rw [List.filterMap_append, List.filterMap_append, List.filterMap_append, List.filterMap_append, hmessages, hanswers]
      exact ⟨rfl, rfl⟩
    refine ⟨⟨?_, ?_, ?_, ?_, ?_⟩, ?_⟩
    · rw [World.cluster_kill, ← h.shared]
      rfl
    · rw [World.addresses_kill, ← h.shared]
      rfl
    · rw [Sound.pending_kill]
      exact h.pending
    · rw [Sound.trace_kill]
      show (w.client.trace ++ _).filterMap Event.message = _
      rw [List.filterMap_append, h.sent, htrace.1, List.append_nil]
    · rw [Sound.trace_kill]
      show (w.client.trace ++ _).filterMap Event.answer = _
      rw [List.filterMap_append, h.given, htrace.2, List.nil_append]
    · unfold Attached
      rw [Sound.client_kill]
      exact h.data
  · rw [hcalm.subscribed] at hsub
    cases hsub

/-- Nothing is closed while the command goes on. -/
private theorem Stage.hangUp (h : Stage t (commandObject key cmd con_) pending sent n w) (ht : t.Healthy) :
    hangUp w.closing w = (.ret (), w) := by
  have hnone : w.closing = [] := by
    rw [List.eq_nil_iff_forall_not_mem]
    intro c hc
    obtain ⟨x, hx, hdis, -⟩ := World.mem_closing hc
    have hhealthy := ht.contexts x (by rw [← h.shared]; exact List.mem_of_getElem? hx)
    rw [hhealthy.2.1] at hdis
    cases hdis
  rw [hnone]
  rfl

private theorem Ended.hangUp {given : List RedisReply} {v : AsyncWorld} (h : Ended t sent given v) (hd : Attached v) :
    ∃ u, hangUp v.closing v = (.ret (), u) ∧ Ended t sent given u := by
  obtain ⟨u, hrun, hcluster, haddresses, hpending, htrace⟩ :=
    hangUp_frame (List.nodup_range.sublist List.filter_sublist) hd h.pending fun c hc => by
      obtain ⟨x, hx, -, hdis⟩ := World.mem_closing hc
      exact ⟨x, hx, hdis⟩
  exact ⟨u, hrun, hcluster.trans h.cluster, haddresses.trans h.addresses, hpending, htrace ▸ h.sent, htrace ▸ h.given⟩

/-! ### The replies -/

variable (cmd) in
/-- The command is issued. -/
theorem Stage.start (ht : t.Healthy) {conn : SlotConnection} (hr : t.route key = .ret conn) :
    ∃ w, AsyncHiredisCommand.command { clusterNull := false, key, cmd := some cmd, redisCallback := true }
        t.asyncClient = (.ret 0, w) ∧
      Stage t (commandObject key cmd ([], none)) [⟨conn.2, .processCommandReply, 0, .formatted cmd⟩]
        [(conn.2, .formatted cmd)] 0 w := by
  let w₀ := t.asyncClient.alloc (commandObject key cmd ([], none))
  have hstage : Stage t (commandObject key cmd ([], none)) [] [] 0 w₀ :=
    ⟨rfl, ⟨rfl, rfl⟩, rfl, rfl, rfl, rfl, rfl, rfl, fun a ha => by cases ha⟩
  have hcalm : Calm none w₀ := ⟨rfl, rfl, rfl, rfl⟩
  obtain ⟨v, hsend, hv⟩ := hstage.send hcalm ht (ht.nodes _ (Shared.route_mem hr)) .processCommandReply (.formatted cmd)
  have hprocess : AsyncHiredisCommand.process 0 w₀ = (.ret .ok, v) := by
    refine (Code.bind_of_ret (object_eq hstage.holds) _).trans ?_
    refine (Code.bind_of_ret ((getConnection_route w₀ key).trans (congrArg (·, w₀) hr)) _).trans ?_
    exact (processHiredisCommand_eq hstage.holds _).trans hsend
  exact ⟨v, Code.bind_of_ret hprocess _, hv⟩

variable (cmd) in
/-- A command that cannot be routed. -/
private theorem command_unrouted {o : Outcome Exn ObjPtr} (hr : (∃ e, t.route key = .throws e ∧ o = .throws e) ∨
    (t.route key = .undefined ∧ o = .undefined)) :
    AsyncHiredisCommand.command { clusterNull := false, key, cmd := some cmd, redisCallback := true } t.asyncClient =
      (o, t.asyncClient.alloc (commandObject key cmd ([], none))) := by
  let w₀ := t.asyncClient.alloc (commandObject key cmd ([], none))
  have hprocess : AsyncHiredisCommand.process 0 w₀ = (Cluster.getConnection key >>= fun con =>
      processHiredisCommand 0 (some con.2)) w₀ :=
    Code.bind_of_ret (object_eq (t.asyncClient.holds_alloc (commandObject key cmd ([], none)) rfl)) _
  have hget := getConnection_route w₀ key
  rcases hr with ⟨e, hr, rfl⟩ | ⟨hr, rfl⟩
  · exact Code.bind_of_throws (hprocess.trans (Code.bind_of_throws (hget.trans (congrArg (·, w₀) hr)) _)) _
  · exact Code.bind_of_undefined (hprocess.trans (Code.bind_of_undefined (hget.trans (congrArg (·, w₀) hr)) _)) _

/-- The reply to the only request. -/
private theorem Stage.reply {req : Request} (h : Stage t (commandObject key cmd con_) [req] sent n w) (r : RedisReply)
    (ch : Choices) : (Stimulus.reply req.con r ch).exec w =
      (req.callback.run req.con (.object n r) req.data >>= fun _ => Code.modify fun w' => w'.release n)
        (w.fire req r ch) := by
  rw [← h.replies]
  apply reply_exec
  unfold World.oldest
  rw [h.pending]
  simp

/-- The callback has brought the command to its next stage. -/
theorem Stage.iterates {req : Request} (h : Stage t (commandObject key cmd con_) [req] sent n w) {r : RedisReply}
    {t' : Shared} {con' : HostConnection} {pending' : List Request} {sent' : List (ConPtr × Message)} {v : AsyncWorld}
    (hrun : req.callback.run req.con (.object n r) req.data (w.fire req r { calm with movedCb }) = (.ret (), v))
    (hv : Stage t' (commandObject key cmd con') pending' sent' (n + 1) v) (ht' : t'.Healthy) :
    ∃ u, Iterates movedCb req r w u ∧ Stage t' (commandObject key cmd con') pending' sent' (n + 1) u :=
  ⟨_, ⟨_, (h.reply r _).trans (Code.bind_of_ret hrun _), hv.release.hangUp ht'⟩, hv.release⟩

/-- The callback has ended the command. -/
private theorem Stage.iterates_ended {req : Request} (h : Stage t (commandObject key cmd con_) [req] sent n w)
    {r : RedisReply} {t' : Shared} {sent' : List (ConPtr × Message)} {given : List RedisReply} {v : AsyncWorld}
    (hrun : req.callback.run req.con (.object n r) req.data (w.fire req r { calm with movedCb }) = (.ret (), v))
    (hv : Ended t' sent' given v) (hd : Attached v) :
    ∃ u, Iterates movedCb req r w u ∧ Ended t' sent' given u := by
  have hreleased : Ended t' sent' given (v.release n) := ⟨hv.cluster, hv.addresses, hv.pending, hv.sent, hv.given⟩
  obtain ⟨u, hu, hended⟩ := hreleased.hangUp hd
  exact ⟨u, ⟨_, (h.reply r _).trans (Code.bind_of_ret hrun _), hu⟩, hended⟩

section command

variable {c : ConPtr} {m : Message} {r : RedisReply} {host port : Bytes}

variable (movedCb) in
/-- A reply that is no redirection ends the command. -/
theorem Stage.ready (h : Stage t (commandObject key cmd con_) [⟨c, .processCommandReply, 0, m⟩] sent n w)
    (ht : t.Healthy) (hcon : ∀ c', con_.2 = some c' → c' < t.contexts.length) (hdown : r.mentionsClusterDown = false)
    (hres : processResult r = .ret (.ready, host, port)) :
    ∃ u, Iterates movedCb ⟨c, .processCommandReply, 0, m⟩ r w u ∧ Ended t sent [r] u := by
  obtain ⟨hfire, hcalm, hfree⟩ := h.fire movedCb r
  obtain ⟨v, hfinish, hends⟩ := finish_cases r hfire.holds (fun c' hc => hfire.isOpen ht (hcon c' hc)) hfree c
  obtain ⟨hended, hd⟩ := hfire.ends hcalm (by simp) hends
  have hrun := processCommandReply_of_up 0 c (w := w.fire ⟨c, .processCommandReply, 0, m⟩ r { calm with movedCb }) hfree
    hdown hres
  exact h.iterates_ended (hrun.trans hfinish) hended hd

variable (movedCb) in
/-- `ASKING` is sent to the node that the redirection names. -/
theorem Stage.ask (h : Stage t (commandObject key cmd ([], none)) [⟨c, .processCommandReply, 0, m⟩] sent n w)
    (ht : t.Healthy) (hdown : r.mentionsClusterDown = false) (hres : processResult r = .ret (.ask, host, port))
    (hport : ∃ n, stoi port = .ret n) :
    ∃ u, Iterates movedCb ⟨c, .processCommandReply, 0, m⟩ r w u ∧
      Stage (t.connect host port).2 (commandObject key cmd (DefaultContainer.hostKey host port,
        some (t.connect host port).1)) [askingOn 0 (t.connect host port).1]
          (sent ++ [((t.connect host port).1, .format (text "ASKING"))]) (n + 1) u := by
  obtain ⟨hfire, hcalm, hfree⟩ := h.fire movedCb r
  obtain ⟨v, hensure, hvcalm, hv⟩ := hfire.connect hcalm host hport
  obtain ⟨hhealthy, hexists⟩ := ht.connect host port
  obtain ⟨u, hsend, hu⟩ := hv.send hvcalm hhealthy hexists .runRedisCallback (.format (text "ASKING"))
  have hfollow : followState 0 .ask host port (w.fire ⟨c, .processCommandReply, 0, m⟩ r { calm with movedCb }) =
      (.ret .ask, u) := by
    refine (Code.bind_of_ret hensure _).trans ((Code.bind_of_ret (object_eq hv.holds) _).trans ?_)
    exact (Code.bind_of_ret hsend _).trans rfl
  have hrun := processCommandReply_of_up 0 c (w := w.fire ⟨c, .processCommandReply, 0, m⟩ r { calm with movedCb }) hfree
    hdown hres
  exact h.iterates (hrun.trans (Code.bind_of_ret (Code.attempt_ret hfollow) _)) hu hhealthy

variable (movedCb) in
/-- The command is sent to the node that the redirection names. -/
theorem Stage.moved (h : Stage t (commandObject key cmd ([], none)) [⟨c, .processCommandReply, 0, m⟩] sent n w)
    (ht : t.Healthy) (hdown : r.mentionsClusterDown = false) (hres : processResult r = .ret (.moved, host, port))
    (hport : ∃ n, stoi port = .ret n) (hno : ¬ (t.cluster.userMovedFn_ = true ∧ movedCb.isSome = true)) :
    ∃ u, Iterates movedCb ⟨c, .processCommandReply, 0, m⟩ r w u ∧
      Stage (t.connect host port).2.markMoved (commandObject key cmd (DefaultContainer.hostKey host port,
        some (t.connect host port).1)) [⟨(t.connect host port).1, .processCommandReply, 0, .formatted cmd⟩]
          (sent ++ [((t.connect host port).1, .formatted cmd)]) (n + 1) u := by
  obtain ⟨hfire, hcalm, hfree⟩ := h.fire movedCb r
  let w₀ := w.fire ⟨c, .processCommandReply, 0, m⟩ r { calm with movedCb }
  have hmoved := clusterMoved_eq w₀
  have hnone : w₀.movedException = none := by
    rw [hfire.movedException hcalm]
    cases movedCb with
    | none => exact ite_self none
    | some e => exact if_neg fun huser => hno ⟨huser, rfl⟩
  rw [hnone] at hmoved
  obtain ⟨v, hensure, hvcalm, hv⟩ := (hfire.markMoved false).connect (hcalm.markMoved false) host hport
  rw [Shared.connect_markMoved] at hv
  obtain ⟨hhealthy, hexists⟩ := ht.connect host port
  obtain ⟨u, hsend, hu⟩ := hv.send hvcalm hhealthy.markMoved hexists .processCommandReply (.formatted cmd)
  have hfollow : followState 0 .moved host port w₀ = (.ret .redirect, u) := by
    refine (Code.bind_of_ret hmoved _).trans ((Code.bind_of_ret hensure _).trans ?_)
    refine (Code.bind_of_ret (object_eq hv.holds) _).trans ?_
    exact (Code.bind_of_ret ((processHiredisCommand_eq hv.holds _).trans hsend) _).trans rfl
  have hrun := processCommandReply_of_up 0 c (w := w₀) hfree hdown hres
  exact h.iterates (hrun.trans (Code.bind_of_ret (Code.attempt_ret hfollow) _)) hu hhealthy.markMoved

variable (movedCb) in
/-- `ASKING` was answered with `OK`, and the command follows. -/
theorem Stage.asking {hostKey : Bytes} (h : Stage t (commandObject key cmd (hostKey, some c)) [askingOn 0 c] sent n w)
    (ht : t.Healthy) (hc : c < t.contexts.length) (hok : r.isOk = true) :
    ∃ u, Iterates movedCb (askingOn 0 c) r w u ∧
      Stage t (commandObject key cmd (hostKey, some c)) [⟨c, .processCommandReply, 0, .formatted cmd⟩]
        (sent ++ [(c, .formatted cmd)]) (n + 1) u := by
  obtain ⟨hfire, hcalm, hfree⟩ := h.fire movedCb r
  obtain ⟨v, hsend, hv⟩ := hfire.send hcalm ht hc .processCommandReply (.formatted cmd)
  rcases askingAnswered_eq hfire.holds hfree r with ⟨hno, -⟩ | ⟨-, hasking⟩
  · rw [hok] at hno
    cases hno
  · have htry := hasking.trans (Code.bind_of_ret hsend _)
    exact h.iterates (Code.bind_of_ret (Code.attempt_ret htry) _) hv ht

/-- The moved callback throws: nothing more is sent. -/
private theorem Stage.aborts (h : Stage t (commandObject key cmd ([], none)) [⟨c, .processCommandReply, 0, m⟩] sent n w)
    (ht : t.Healthy) (hc : c < t.contexts.length) (hdown : r.mentionsClusterDown = false)
    (hres : processResult r = .ret (.moved, host, port)) (huser : t.cluster.userMovedFn_ = true) {ex : Exn} :
    (∃ e v, (Stimulus.reply c r { calm with movedCb := some ex }).exec w = (.throws e, v) ∧
        v.client.trace.filterMap Event.message = sent) ∨
      ∃ u, Iterates (some ex) ⟨c, .processCommandReply, 0, m⟩ r w u ∧ Ended t.markMoved sent [r] u := by
  obtain ⟨hfire, hcalm, hfree⟩ := h.fire (some ex) r
  let w₀ := w.fire ⟨c, .processCommandReply, 0, m⟩ r { calm with movedCb := some ex }
  let w₁ := w₀.afterMoved true
  have hmoved := clusterMoved_eq w₀
  have hex : w₀.movedException = some ex := by
    rw [hfire.movedException hcalm, if_pos huser]
  rw [hex] at hmoved
  have hfollow : followState 0 .moved host port w₀ = (.throws ex, w₁) := Code.bind_of_throws hmoved _
  have hrun := processCommandReply_of_up 0 c (w := w₀) hfree hdown hres
  have hw₁ : Stage t.markMoved (commandObject key cmd ([], none)) [] sent (n + 1) w₁ := hfire.markMoved true
  cases ex with
  | std e =>
    left
    have hthrows := hrun.trans (Code.bind_of_throws (Exn.passed hfollow) _)
    exact ⟨.std e, w₁, (h.reply r _).trans (Code.bind_of_throws hthrows _), hw₁.sent⟩
  | cluster e =>
    right
    have hopen : w₁.Open c := hw₁.isOpen ht.markMoved hc
    obtain ⟨v, evs, hhandle, hq, ⟨hretry, -⟩ | ⟨-, -, hends⟩⟩ :=
      handle_cases r hw₁.holds hopen (fun _ hc' => by cases hc') hfree e .moved
    · cases hretry.1
    · obtain ⟨hended, hd⟩ := hw₁.ends (hcalm.markMoved true) hq hends
      exact h.iterates_ended (hrun.trans ((Code.bind_of_ret (Exn.caught hfollow) _).trans hhandle)) hended hd

end command

end stages

/-! ### The event loop -/

section loop

variable {t : Shared} {movedCb : Option Exn} {key cmd : Bytes} {replies : Nat → RedisReply} {w u : AsyncWorld}
  {req : Request} {rest : List Request} {n : Nat}

private theorem eventLoop_done (hp : w.client.pending = []) (fuel : Nat) :
    eventLoop movedCb replies fuel n w = (.ret (), w) := by
  cases fuel with
  | zero => rfl
  | succ fuel =>
    refine (Code.bind_of_ret (Code.get_apply w) _).trans ?_
    rw [hp]
    rfl

private theorem eventLoop_step (hp : w.client.pending = req :: rest) (h : Iterates movedCb req (replies n) w u)
    (fuel : Nat) :
    eventLoop movedCb replies (fuel + 1) n w = eventLoop movedCb replies fuel (n + 1) u := by
  obtain ⟨v, hreply, hclose⟩ := h
  refine (Code.bind_of_ret (Code.get_apply w) _).trans ?_
  rw [hp]
  refine (Code.bind_of_ret hreply _).trans ((Code.bind_of_ret (Code.get_apply v) _).trans ?_)
  exact Code.bind_of_ret hclose _

private theorem eventLoop_throws {e : Exn} (hp : w.client.pending = req :: rest)
    (h : (Stimulus.reply req.con (replies n) { calm with movedCb }).exec w = (.throws e, u)) (fuel : Nat) :
    eventLoop movedCb replies (fuel + 1) n w = (.throws e, u) := by
  refine (Code.bind_of_ret (Code.get_apply w) _).trans ?_
  rw [hp]
  exact Code.bind_of_throws h _

/-- After the first reply none is a redirection. -/
private theorem Script.ready (hs : Script replies) (hn : 0 < n) : processResult (replies n) = .ret
    (.ready, [], []) := by
  rcases processResult_cases (hs.up n) with hres | ⟨host, port, hres | hres⟩
  · exact hres
  · exact absurd (Or.inr (RedisReply.isAsk_of_processResult hres)) (hs.last n hn)
  · exact absurd (Or.inl (RedisReply.isMoved_of_processResult hres)) (hs.last n hn)

private theorem asyncTranscript_of_run {fuel : Nat} {o : Outcome Exn Unit}
    (hrun : runCommand movedCb key cmd replies fuel t.asyncClient = (o, u)) :
    asyncTranscript t movedCb key cmd replies fuel =
      u.shared.transcript (u.client.trace.filterMap Event.message) (u.client.given o) := by
  unfold asyncTranscript
  rw [hrun]

/-- The transcript of a command that has ended. -/
private theorem Ended.transcript {t' : Shared} {sent : List (ConPtr × Message)} {given : List RedisReply} {fuel : Nat}
    (hstart : AsyncHiredisCommand.command { clusterNull := false, key, cmd := some cmd, redisCallback := true }
      t.asyncClient = (.ret 0, w)) (hloop : eventLoop movedCb replies fuel 0 w = (.ret (), u))
    (h : Ended t' sent given u) :
    asyncTranscript t movedCb key cmd replies fuel = t'.transcript sent (.ret given) := by
  have hrun : runCommand movedCb key cmd replies fuel t.asyncClient = (.ret (), u) :=
    (Code.bind_of_ret hstart _).trans hloop
  rw [asyncTranscript_of_run hrun, h.sent, AsyncClient.given, h.given]
  exact Shared.transcript_congr h.cluster h.addresses _ _

/-- Three replies are enough for the dialogue, unless the moved callback throws. -/
theorem asyncTranscript_eq (ht : t.Healthy) (hs : Script replies) (hno : ¬ MovedAborts t movedCb key replies)
    (fuel : Nat) : asyncTranscript t movedCb key cmd replies (fuel + 3) = dialogue t key cmd replies := by
  cases hr : t.route key with
  | throws e =>
    rw [dialogue_unrouted cmd replies hr]
    exact asyncTranscript_of_run (Code.bind_of_throws (command_unrouted cmd (Or.inl ⟨e, hr, rfl⟩)) _)
  | undefined =>
    rw [dialogue_unhashed cmd replies hr]
    exact asyncTranscript_of_run (Code.bind_of_undefined (command_unrouted cmd (Or.inr ⟨hr, rfl⟩)) _)
  | ret conn =>
    obtain ⟨w, hstart, hw⟩ := Stage.start cmd ht hr
    rcases processResult_cases (hs.up 0) with hres | ⟨host, port, hres | hres⟩
    · rw [dialogue_ready cmd replies hr hres]
      obtain ⟨u, hstep, hended⟩ := hw.ready movedCb ht (fun _ hc => by cases hc) (hs.up 0) hres
      have hloop := (eventLoop_step hw.pending hstep (fuel + 2)).trans (eventLoop_done hended.pending _)
      exact hended.transcript hstart hloop
    · rw [dialogue_ask cmd replies hr hres]
      have hok := hs.asking (RedisReply.isAsk_of_processResult hres)
      obtain ⟨hhealthy, hexists⟩ := ht.connect host port
      obtain ⟨w₁, hstep, hw₁⟩ :=
        hw.ask movedCb ht (hs.up 0) hres (hs.port _ host port hres (Or.inl rfl))
      obtain ⟨w₂, hstep₂, hw₂⟩ := hw₁.asking movedCb hhealthy hexists hok
      obtain ⟨u, hstep₃, hended⟩ := hw₂.ready movedCb hhealthy (fun c hc => by cases hc; exact hexists)
        (hs.up 2) (hs.ready (by decide))
      have hlast := (eventLoop_step hw₂.pending hstep₃ fuel).trans (eventLoop_done hended.pending _)
      have hloop := (eventLoop_step hw.pending hstep (fuel + 2)).trans
        ((eventLoop_step hw₁.pending hstep₂ (fuel + 1)).trans hlast)
      exact hended.transcript hstart hloop
    · rw [dialogue_moved cmd replies hr hres]
      obtain ⟨hhealthy, hexists⟩ := ht.connect host port
      obtain ⟨w₁, hstep, hw₁⟩ := hw.moved movedCb ht (hs.up 0) hres
        (hs.port _ host port hres (Or.inr rfl)) fun hset =>
          hno ⟨⟨conn, hr⟩, RedisReply.isMoved_of_processResult hres, hset⟩
      obtain ⟨u, hstep₂, hended⟩ := hw₁.ready movedCb hhealthy.markMoved
        (fun c hc => by cases hc; exact hexists) (hs.up 1) (hs.ready (by decide))
      have hloop := (eventLoop_step hw.pending hstep (fuel + 2)).trans
        ((eventLoop_step hw₁.pending hstep₂ (fuel + 1)).trans (eventLoop_done hended.pending _))
      exact hended.transcript hstart hloop

variable (cmd) in
/-- When the moved callback throws, only the first message is sent. -/
theorem asyncTranscript_aborts (ht : t.Healthy) (hs : Script replies) (habort : MovedAborts t movedCb key replies)
    (fuel : Nat) : (asyncTranscript t movedCb key cmd replies (fuel + 1)).messages.length = 1 := by
  obtain ⟨⟨conn, hr⟩, hm, huser, hthrows⟩ := habort
  obtain ⟨host, port, hres⟩ := hm.processResult_eq
  obtain ⟨ex, rfl⟩ := Option.isSome_iff_exists.1 hthrows
  obtain ⟨w, hstart, hw⟩ := Stage.start cmd ht hr
  rcases hw.aborts ht (ht.nodes _ (Shared.route_mem hr)) (hs.up 0) hres huser with
    ⟨e, v, hreply, hsent⟩ | ⟨u, hstep, hended⟩
  · have hrun : runCommand (some ex) key cmd replies (fuel + 1) t.asyncClient = (.throws e, v) :=
      (Code.bind_of_ret hstart _).trans (eventLoop_throws hw.pending hreply fuel)
    rw [asyncTranscript_of_run hrun, hsent]
    rfl
  · have hloop := (eventLoop_step hw.pending hstep fuel).trans (eventLoop_done hended.pending _)
    rw [hended.transcript hstart hloop]
    rfl

end loop

end HiredisCluster
