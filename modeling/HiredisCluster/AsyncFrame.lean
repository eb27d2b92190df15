import HiredisCluster.AsyncRun

/-!
# What no function of the asynchronous client changes

The connect function's data stays allocated and attached to its cluster, a cluster that has moved stays moved, and only
allocated objects have requests outstanding, however a function is left (`Keeps`); what happens is added to the trace.
A property that survives this survives every function (`Unaffected`), where `Event.Within` says what a function may add.
-/

namespace HiredisCluster

open Cxx AsyncHiredisCommand

/-- The outstanding requests are those of objects that were allocated. -/
def World.Known (w : AsyncWorld) : Prop := ∀ req ∈ w.client.pending, req.data < w.client.objects.length

/-- From `w₀` to `w` the data of the connect function stayed, and so did a flag that was set; no request was added for
an object that was never allocated. -/
structure Keeps (w₀ w : AsyncWorld) : Prop where
  freed : w.client.data_.freed = w₀.client.data_.freed
  pcluster : w.client.data_.pcluster = w₀.client.data_.pcluster
  moved : w₀.cluster.moved_ = true → w.cluster.moved_ = true
  known : w₀.Known → w.Known

/-- Messages go to connections with the property `C`, the error handlers are told of exceptions with the property `T`, and
`moved` is executed only if `m` holds. -/
def Event.Within (C : ConPtr → Prop) (T : ClusterException → Prop) (m : Prop) : Event → Prop
  | sent req _ | refused req _ => C req.con
  | userErrorCb _ ce _ => T ce
  | moved _ => m
  | _ => True

/-- What was recorded from `w` to `w'`. -/
def World.Records (C : ConPtr → Prop) (T : ClusterException → Prop) (m : Prop) (w w' : AsyncWorld) : Prop :=
  ∃ evs, w'.client.trace = w.client.trace ++ evs ∧ ∀ e ∈ evs, e.Within C T m

/-- `I` survives whatever keeps the connect data and records only such events. -/
def Unaffected (C : ConPtr → Prop) (T : ClusterException → Prop) (m : Prop) (I : AsyncWorld → Prop) : Prop :=
  ∀ w w', I w → Keeps w w' → w.Records C T m w' → I w'

namespace World.Known

variable {w : AsyncWorld}

theorem updObject (h : w.Known) (that : ObjPtr) (f : AsyncHiredisCommand → AsyncHiredisCommand) :
    (w.updObject that f).Known := by
  intro req hreq
  show req.data < (w.client.objects.modify that f).length
  rw [List.length_modify]
  exact h req hreq

theorem enqueue (h : w.Known) {req : Request} (hreq : req.data < w.client.objects.length) : (w.enqueue req).Known := by
  intro q hq
  rcases List.mem_append.1 hq with hq | hq
  · exact h q hq
  · rw [List.mem_singleton.1 hq]
    exact hreq

theorem alloc (h : w.Known) (obj : AsyncHiredisCommand) : (w.alloc obj).Known := by
  intro req hreq
  show req.data < (w.client.objects ++ [obj]).length
  rw [List.length_append]
  exact Nat.lt_add_right _ (h req hreq)

theorem eraseP (h : w.Known) (p : Request → Bool) :
    World.Known (w.updClient fun c => { c with pending := c.pending.eraseP p }) :=
  fun req hreq => h req (List.mem_of_mem_eraseP hreq)

end World.Known

theorem Keeps.refl (w : AsyncWorld) : Keeps w w := ⟨rfl, rfl, id, id⟩

theorem Keeps.trans {w v u : AsyncWorld} (h : Keeps w v) (h' : Keeps v u) : Keeps w u :=
  ⟨h'.freed.trans h.freed, h'.pcluster.trans h.pcluster, fun hm => h'.moved (h.moved hm),
    fun hk => h'.known (h.known hk)⟩

theorem Keeps.unaffected {C : ConPtr → Prop} {T : ClusterException → Prop} {m : Prop} (w₀ : AsyncWorld) :
    Unaffected C T m (Keeps w₀) := fun _ _ h h' _ => h.trans h'

namespace World.Records

variable {C : ConPtr → Prop} {T : ClusterException → Prop} {m : Prop} {w w' : AsyncWorld}

theorem nothing (h : w'.client.trace = w.client.trace) : w.Records C T m w' := ⟨[], by rw [h, List.append_nil], by simp⟩

private theorem event {e : Event} (h : w'.client.trace = w.client.trace ++ [e]) (he : e.Within C T m) :
    w.Records C T m w' :=
  ⟨[e], h, by simpa using he⟩

theorem unaffected (w₀ : AsyncWorld) : Unaffected C T m (w₀.Records C T m) := by
  rintro w w' ⟨evs, htrace, hevs⟩ - ⟨more, hmore, hmoreevs⟩
  refine ⟨evs ++ more, by rw [hmore, htrace, List.append_assoc], fun e he => ?_⟩
  rcases List.mem_append.1 he with he | he
  · exact hevs e he
  · exact hmoreevs e he

end World.Records

namespace Unaffected

variable {α : Type} {C : ConPtr → Prop} {T : ClusterException → Prop} {m : Prop} {I : AsyncWorld → Prop}
  (hI : Unaffected C T m I) (that : ObjPtr) (con : ConPtr) (r : ReplyPtr)

include hI

/-- A change that records nothing. -/
theorem modify {f : AsyncWorld → AsyncWorld} (h : ∀ w, Keeps w (f w))
    (ht : ∀ w, (f w).client.trace = w.client.trace) : Code.Preserves I (Code.modify f : Async Unit) :=
  Code.Preserves.modify fun w hw => hI w _ hw (h w) (.nothing (ht w))

/-- A change that records one event. -/
private theorem records {f : AsyncWorld → AsyncWorld} (h : ∀ w, Keeps w (f w))
    (ht : ∀ w, ∃ e, (f w).client.trace = w.client.trace ++ [e] ∧ e.Within C T m) :
    Code.Preserves I (Code.modify f : Async Unit) := by
  refine Code.Preserves.modify fun w hw => ?_
  obtain ⟨e, htrace, he⟩ := ht w
  exact hI w _ hw (h w) (.event htrace he)

omit hI in
/-- Code that only looks at the state. -/
theorem reads {m : Async α} (h : ∀ w, (m w).2 = w) : Code.Preserves I m := by
  intro w hw
  rw [h w]
  exact hw

omit hI in
theorem object : Code.Preserves I (object that) := by
  refine reads fun w => ?_
  unfold HiredisCluster.object
  split
  · split <;> rfl
  · rfl

omit hI in
theorem context : Code.Preserves I (context con) := by
  refine reads fun w => ?_
  unfold HiredisCluster.context
  split
  · split <;> rfl
  · rfl

private theorem ignoresTables : World.IgnoresTables I := by
  intro w v _ hclient hmoved h
  have hwv : Keeps w v := by
    refine ⟨by rw [hclient], by rw [hclient], fun hm => hmoved.trans hm, fun hk => ?_⟩
    unfold World.Known
    rw [hclient]
    exact hk
  exact hI w v h hwv (.nothing (by rw [hclient]))

theorem checkCritical :
    Code.Preserves I (checkCritical (m := Code AsyncWorld Exn) r false false [] none) :=
  checkCritical_preserves hI.ignoresTables r false false []

omit hI in
/-- A send for an object that was allocated. -/
private theorem redisAsyncSend_keeps {w : AsyncWorld} {data : ObjPtr} (hdata : data < w.client.objects.length)
    {c : Option ConPtr} (hC : ∀ con, c = some con → C con) (callback : Callback) (message : Message) :
    Keeps w (redisAsyncSend c callback data message w).2 ∧
      w.Records C T m (redisAsyncSend c callback data message w).2 := by
  cases c with
  | none => exact ⟨.refl w, .nothing rfl⟩
  | some c =>
    by_cases hc : w.Open c
    · obtain ⟨ch, -, -, -, ⟨-, hrun⟩ | ⟨-, hrun⟩⟩ := redisAsyncSend_cases hc callback data message
      · rw [hrun]
        exact ⟨⟨rfl, rfl, id, fun hk => hk.enqueue hdata⟩, .event rfl (hC c rfl)⟩
      · rw [hrun]
        exact ⟨⟨rfl, rfl, id, id⟩, .event rfl (hC c rfl)⟩
    · rw [redisAsyncSend_closed hc callback data message]
      exact ⟨.refl w, .nothing rfl⟩

/-- A send for the object that was just read. -/
theorem sends {c : AsyncHiredisCommand → Option ConPtr} (hC : ∀ obj con, c obj = some con → C con) (callback : Callback)
    (message : AsyncHiredisCommand → Message) : Code.Preserves I
      (HiredisCluster.object that >>= fun obj => redisAsyncSend (c obj) callback that (message obj)) := by
  intro w hw
  rcases object_cases that w with ⟨obj, hrun, hobj⟩ | hrun
  · rw [Code.bind_of_ret hrun]
    have hdata := (List.getElem?_eq_some_iff.1 hobj.1).1
    obtain ⟨hkeeps, hrecords⟩ := redisAsyncSend_keeps hdata (hC obj) callback (message obj)
    exact hI w _ hw hkeeps hrecords
  · rw [Code.bind_of_undefined hrun]
    exact hw

theorem processHiredisCommand {c : Option ConPtr} (hC : ∀ con, c = some con → C con) :
    Code.Preserves I (processHiredisCommand that c) :=
  hI.sends that (c := fun _ => c) (fun _ => hC) .processCommandReply fun obj => .formatted obj.cmd_

theorem callUserErrorCb {e : ClusterException} (he : T e) (state : ProcessState) :
    Code.Preserves I (callUserErrorCb that e state) := by
  refine .bind (object that) fun obj => ?_
  split
  · exact .bind (.get _) fun w => .bind (hI.records (fun _ => ⟨rfl, rfl, id, id⟩) fun w => ⟨_, rfl, he⟩) fun _ => .pure _ _
  · exact .undefined _

theorem wantsRetry {e : ClusterException} (he : T e) (state : ProcessState) :
    Code.Preserves I (wantsRetry that e state) := by
  refine .bind (object that) fun obj => ?_
  split
  · exact .bind (hI.callUserErrorCb that he state) fun _ => .pure _ _
  · exact .pure _ _

theorem passToUser : Code.Preserves I (passToUser that r) := by
  refine .bind (derefReply_preserves I r) fun reply => .bind (object that) fun obj => ?_
  split
  · exact hI.records (fun _ => ⟨rfl, rfl, id, id⟩) fun w => ⟨_, rfl, trivial⟩
  · exact .pure _ _

theorem delete : Code.Preserves I (delete that) := by
  refine .bind (object that) fun obj => ?_
  have hkill : Code.Preserves I (Code.modify fun w : AsyncWorld =>
      (w.updObject that fun o => { o with alive := false }).record (.deleted that) : Async Unit) :=
    hI.records (fun _ => ⟨rfl, rfl, id, fun hk => hk.updObject that _⟩) fun w => ⟨_, rfl, trivial⟩
  cases obj.con_.2 with
  | none => exact hkill
  | some c =>
    exact .bind (.bind (context c) fun _ => hI.modify (fun _ => ⟨rfl, rfl, id, id⟩) fun _ => rfl) fun _ => hkill

theorem connect (host : Bytes) (port : Int32) : Code.Preserves I (connect host port) := by
  refine .bind (.get _) fun w => ?_
  split
  · exact .undefined _
  · split
    · exact .throws _ _
    · refine .bind (hI.modify (fun _ => ⟨rfl, rfl, id, id⟩) fun _ => rfl) fun _ => ?_
      split
      · exact .throws _ _
      · exact .bind (hI.modify (fun _ => ⟨rfl, rfl, id, id⟩) fun _ => rfl) fun _ => .throws _ _
      · exact .bind (hI.modify (fun _ => ⟨rfl, rfl, id, id⟩) fun _ => rfl) fun _ => .throws _ _
      · exact .bind (hI.modify (fun _ => ⟨rfl, rfl, id, id⟩) fun _ => rfl) fun _ => .pure _ _

theorem insertHost (host port : Bytes) : Code.Preserves I (DefaultContainer.insertHost functions host port) :=
  DefaultContainer.insertHost_preserves functions hI.ignoresTables hI.connect host port

theorem insertSlots (slots : SlotRange) (host : Bytes) (port : Int32) :
    Code.Preserves I (DefaultContainer.insertSlots functions slots host port) :=
  DefaultContainer.insertSlots_preserves functions hI.ignoresTables hI.connect slots host port

theorem clusterMoved (hm : m) : Code.Preserves I clusterMoved := by
  intro w hw
  rw [clusterMoved_eq]
  exact hI w _ hw ⟨rfl, rfl, fun _ => rfl, id⟩ (.event rfl hm)

theorem ensureConnection (host port : Bytes) : Code.Preserves I (ensureConnection that host port) := by
  refine .bind (object that) fun obj => ?_
  split
  · exact .bind (hI.insertHost host port) fun _ =>
      hI.modify (fun _ => ⟨rfl, rfl, id, fun hk => hk.updObject that _⟩) fun _ => rfl
  · exact .pure _ _

/-- What comes after `moved`. -/
theorem followMoved (hC : ∀ c, C c) (host port : Bytes) :
    Code.Preserves I (AsyncHiredisCommand.ensureConnection that host port >>= fun _ =>
      HiredisCluster.object that >>= fun obj => AsyncHiredisCommand.processHiredisCommand that obj.con_.2 >>= fun s =>
        if s = .ok then pure Action.redirect else Code.throws (.cluster .movedFailed)) := by
  refine .bind (hI.ensureConnection that host port) fun _ => .bind (object that) fun obj =>
    .bind (hI.processHiredisCommand that fun c _ => hC c) fun s => ?_
  split
  · exact .pure _ _
  · exact .throws _ _

theorem followState (hC : ∀ c, C c) (hm : m) (state : ProcessState) (host port : Bytes) :
    Code.Preserves I (followState that state host port) := by
  cases state with
  | ask =>
    have hsend := hI.sends that (c := fun obj => obj.con_.2) (fun _ c _ => hC c) .runRedisCallback
      fun _ => .format (text "ASKING")
    have hwhole : Code.Preserves I ((HiredisCluster.object that >>= fun obj =>
        HiredisCluster.redisAsyncSend obj.con_.2 .runRedisCallback that (.format (text "ASKING"))) >>= fun s =>
          if s = .ok then pure Action.ask else Code.throws (.cluster .askingFailed)) := by
      refine .bind hsend fun s => ?_
      split
      · exact .pure _ _
      · exact .throws _ _
    rw [bind_assoc] at hwhole
    exact .bind (hI.ensureConnection that host port) fun _ => hwhole
  | moved => exact .bind (hI.clusterMoved hm) fun _ => hI.followMoved that hC host port
  | ready => exact .pure _ _
  | clusterDown => exact .throws _ _
  | failed => exact .throws _ _

theorem askingAnswered (hC : ∀ c, C c) : Code.Preserves I (askingAnswered r that) := by
  have hsend (isOk : Bool) : Code.Preserves I (if isOk = true then HiredisCluster.object that >>= fun obj =>
      AsyncHiredisCommand.processHiredisCommand that obj.con_.2 >>= fun s =>
        if s ≠ .ok then Code.throws (.cluster .askingFailed) else pure ()
      else Code.throws (.cluster .askingFailed)) := by
    split
    · refine .bind (object that) fun obj => .bind (hI.processHiredisCommand that fun c _ => hC c) fun s => ?_
      split
      · exact .throws _ _
      · exact .pure _ _
    · exact .throws _ _
  refine .bind (hI.checkCritical r) fun _ => .bind (derefReply_preserves I r) fun reply => ?_
  cases reply <;> exact .bind (.pure _ _) hsend

/-! ### The ends of the callbacks, where the error handler is told -/

/-- A retry that fails tells the handler of a `DisconnectedException`. -/
theorem retry (hcon : C con) (hT : T .disconnected) : Code.Preserves I (retry con r that) := by
  refine .bind (hI.processHiredisCommand that fun c hc => Option.some.inj hc ▸ hcon) fun s => ?_
  split
  · exact .bind (hI.callUserErrorCb that hT _) fun _ => .bind (hI.passToUser that r) fun _ => hI.delete that
  · exact .pure _ _

theorem complete (hcon : C con) (hT : T .disconnected) (act : Action) : Code.Preserves I (complete con r that act) := by
  unfold AsyncHiredisCommand.complete
  split
  · exact hI.retry that con r hcon hT
  · split
    · refine .bind (hI.passToUser that r) fun _ => .bind (reads fun _ => rfl) fun sub => ?_
      split
      · exact hI.delete that
      · exact .pure _ _
    · exact .pure _ _

theorem conclude (hcon : C con) (hT : T .disconnected) (state : ProcessState) (result : Except ClusterException Action)
    (hresult : ∀ ce, result = .error ce → T ce) : Code.Preserves I (conclude con r that state result) := by
  cases result with
  | ok act => exact hI.complete that con r hcon hT act
  | error ce =>
    refine .bind (hI.wantsRetry that (hresult ce rfl) state) fun b => ?_
    split
    · exact hI.complete that con r hcon hT _
    · exact hI.complete that con r hcon hT _

/-! ### The callbacks -/

theorem runRedisCallback (hC : ∀ c, C c) (hT : ∀ ce, T ce) : Code.Preserves I (runRedisCallback con r that) := by
  refine .bind (.attempt _ (hI.askingAnswered that r hC)) fun result => ?_
  cases result with
  | ok u => exact hI.complete that con r (hC con) (hT _) _
  | error ce => exact hI.conclude that con r (hC con) (hT _) .ask (.error ce) fun _ _ => hT _

theorem processCommandReply (hC : ∀ c, C c) (hT : ∀ ce, T ce) (hm : m) :
    Code.Preserves I (processCommandReply con r that) := by
  have hend (state : ProcessState) (result : Except ClusterException Action) :
      Code.Preserves I (HiredisCluster.conclude con r that state result) :=
    hI.conclude that con r (hC con) (hT _) state result fun _ _ => hT _
  refine .bind (.attempt _ (.bind (hI.checkCritical r) fun _ =>
    .bind (derefReply_preserves I r) fun reply => .lift _ _)) fun classified => ?_
  cases classified with
  | error ce => exact hend .failed (.error ce)
  | ok x => exact .bind (.attempt _ (hI.followState that hC hm x.1 x.2.1 x.2.2)) fun result => hend x.1 result

end Unaffected

section all

variable {I : AsyncWorld → Prop} (hI : Unaffected (fun _ => True) (fun _ => True) True I) (that : ObjPtr) (con : ConPtr)
  (r : ReplyPtr)

include hI

theorem Unaffected.callback (callback : Callback) : Code.Preserves I (callback.run con r that) := by
  cases callback with
  | processCommandReply => exact hI.processCommandReply that con r (fun _ => trivial) (fun _ => trivial) trivial
  | runRedisCallback => exact hI.runRedisCallback that con r (fun _ => trivial) fun _ => trivial

theorem Unaffected.command (args : Arguments) : Code.Preserves I (command args) := by
  have hnew : Code.Preserves I (new args) := by
    unfold new
    split
    · exact .throws _ _
    · split
      · exact .throws _ _
      · exact .bind (.get _) fun w =>
          .bind (hI.modify (fun _ => ⟨rfl, rfl, id, fun hk => hk.alloc _⟩) fun _ => rfl) fun _ => .pure _ _
  have hget (key : Bytes) : Code.Preserves I (Cluster.getConnection key : Async SlotConnection) := by
    refine reads fun w => ?_
    obtain ⟨o, hrun, -⟩ := Cluster.getConnection_cases key w
    rw [hrun]
  refine .bind hnew fun c => .bind (.bind (object c) fun obj => .bind (hget _) fun con =>
    hI.processHiredisCommand c fun _ _ => trivial) fun s => ?_
  split
  · exact .bind (hI.delete c) fun _ => .throws _ _
  · exact .pure _ _

theorem Unaffected.stimulus (e : Stimulus) : Code.Preserves I e.exec := by
  cases e with
  | command args ch =>
    refine .bind (hI.modify (fun _ => ⟨rfl, rfl, id, id⟩) fun _ => rfl) fun _ =>
      .bind (.attempt _ (hI.command args)) fun x => ?_
    cases x with
    | ok that => exact hI.records (fun _ => ⟨rfl, rfl, id, id⟩) fun _ => ⟨_, rfl, trivial⟩
    | error e => exact .pure _ _
  | setUserErrorCb that set =>
    exact .bind (object that) fun _ => hI.modify (fun _ => ⟨rfl, rfl, id, fun hk => hk.updObject that _⟩) fun _ => rfl
  | reply con r ch =>
    refine .bind (.get _) fun w => ?_
    cases w.oldest con with
    | none => exact .pure _ _
    | some req =>
      exact .bind (hI.modify (fun _ => ⟨rfl, rfl, id, fun hk => hk.eraseP _⟩) fun _ => rfl) fun _ =>
        .bind (hI.callback _ _ _ _) fun _ => hI.modify (fun _ => ⟨rfl, rfl, id, id⟩) fun _ => rfl

end all

/-- Whatever happens, also when an exception leaves a callback. -/
theorem keeps_after (es : List Stimulus) (w : AsyncWorld) : Keeps w (Stimulus.after es w) := by
  induction es generalizing w with
  | nil => exact .refl w
  | cons e es ih => exact ((Keeps.unaffected w).stimulus e w (.refl w)).trans (ih _)

end HiredisCluster
