import HiredisCluster.AsyncRun
import HiredisCluster.SyncCourse

/-!
# What exceptions leave the library

The handlers catch `ClusterException` only.  Two standard exceptions get past them: `DefaultContainer::insert` converts
the port of a redirection with `std::stoi`, and the asynchronous constructor makes a string of a command that was not
formatted (`onlyClusterExceptions_iff`).
-/

namespace HiredisCluster

open Cxx

/-- What is thrown derives from `ClusterException`. -/
def OnlyClusterExceptions {α : Type} (o : Outcome Exn α) : Prop := ∀ e, o = .throws e → e.IsCluster

instance {α : Type} (o : Outcome Exn α) : Decidable (OnlyClusterExceptions o) :=
  match o with
  | .throws e => decidable_of_iff e.IsCluster ⟨fun h _ he => by cases he; exact h, fun h => h e rfl⟩
  | .ret _ | .undefined => isTrue fun _ he => by cases he

/-- Nothing is thrown. -/
def ThrowsNothing {α : Type} (o : Outcome Exn α) : Prop := ∀ e, o ≠ .throws e

/-- The functions the user passes in throw nothing. -/
structure Functions.NeverThrow {ρ : Type} (fn : Functions ρ) : Prop where
  connect : ∀ f, fn.connect = some f → ∀ host port w, ThrowsNothing (f host port w).1
  userMovedFn : ∀ w, ThrowsNothing (fn.userMovedFn w).1

/-- The address is not in the redirect cache and `std::stoi` rejects its port. -/
def RejectsPort (redirects : RedirectConnections) (host port : Bytes) : Prop :=
  redirects.lookup (DefaultContainer.hostKey host port) = none ∧ ∃ e, stoi port = .throws e

/-- A redirection to an address whose port is rejected. -/
def RejectsRedirection (redirects : RedirectConnections) (r : RedisReply) : Prop :=
  r.mentionsClusterDown = false ∧ ∃ state host port, processResult r = .ret (state, host, port) ∧
    (state = .ask ∨ state = .moved) ∧ RejectsPort redirects host port

/-! ### The synchronous client -/

section sync

variable {ρ : Type} {fn : Functions ρ}

private theorem callConnect_throwsNothing (hfn : fn.NeverThrow) (host : Bytes) (port : Int32) (w : World ρ) :
    ThrowsNothing (callConnect fn host port w).1 := by
  unfold callConnect
  cases hf : fn.connect with
  | some f => exact hfn.connect f hf host port w
  | none => exact fun _ h => by cases h

/-- What `insert` does with a connection it has opened throws nothing. -/
private theorem cache_throwsNothing (key : Bytes) (conn : Option ConPtr) (w : World ρ) :
    ThrowsNothing ((match conn with
      | none => pure (key, none)
      | some conn => do
        if ← errOf conn then
          return (key, some conn)
        else
          Code.modify fun w => w.setRedirects (w.redirects.insert key conn)
          return (key, some conn) : Lib ρ HostConnection) w).1 := by
  intro e h
  cases conn with
  | none => cases h
  | some conn =>
    dsimp only at h
    cases hctx : w.contexts[conn]? with
    | none =>
      have herr : errOf conn w = (.undefined, w) := by simp [errOf, hctx]
      rw [Code.bind_of_undefined herr] at h
      cases h
    | some x =>
      rw [Code.bind_of_ret (errOf_eq hctx)] at h
      cases hx : x.err <;> rw [hx] at h <;> cases h

/-- Only the port makes `createNewConnection` throw. -/
private theorem createNewConnection_throws (hfn : fn.NeverThrow) {host port : Bytes} {w w' : World ρ} {e : Exn}
    (h : Cluster.createNewConnection fn host port w = (.throws e, w')) :
    RejectsPort w.redirects host port ∧ ¬ e.IsCluster := by
  unfold Cluster.createNewConnection DefaultContainer.insertHost at h
  rw [Code.bind_of_ret (Code.get_apply w)] at h
  cases hl : w.redirects.lookup (DefaultContainer.hostKey host port) with
  | some c => rw [hl] at h; cases h
  | none =>
    rw [hl] at h
    dsimp only at h
    rcases stoi_cases port with ⟨n, hn⟩ | ⟨x, hx⟩
    · have hport : (Code.lift ((stoi port).mapThrows .std) : Lib ρ Int32) w = (.ret n, w) := by rw [hn]; rfl
      rw [Code.bind_of_ret hport] at h
      rcases hconn : callConnect fn (cStr host) n w with ⟨o, v⟩
      cases o with
      | ret conn =>
        rw [Code.bind_of_ret hconn] at h
        exact absurd (congrArg Prod.fst h) (cache_throwsNothing _ conn v e)
      | throws e' => exact absurd (congrArg Prod.fst hconn) (callConnect_throwsNothing hfn _ n w e')
      | undefined =>
        rw [Code.bind_of_undefined hconn] at h
        cases h
    · have hport : (Code.lift ((stoi port).mapThrows .std) : Lib ρ Int32) w = (.throws (.std x), w) := by rw [hx]; rfl
      rw [Code.bind_of_throws hport] at h
      cases h
      exact ⟨⟨hl, x, hx⟩, Exn.not_isCluster_std x⟩

private theorem createNewConnection_of_rejectsPort (fn : Functions ρ) {host port : Bytes} {w : World ρ}
    (h : RejectsPort w.redirects host port) :
    ∃ x, Cluster.createNewConnection fn host port w = (.throws (.std x), w) := by
  obtain ⟨hl, x, hx⟩ := h
  have hport : (Code.lift ((stoi port).mapThrows .std) : Lib ρ Int32) w = (.throws (.std x), w) := by rw [hx]; rfl
  refine ⟨x, ?_⟩
  unfold Cluster.createNewConnection DefaultContainer.insertHost
  rw [Code.bind_of_ret (Code.get_apply w), hl]
  exact Code.bind_of_throws hport _

private theorem not_rejectsPort {host port : Bytes} {w w' : World ρ} {o : Outcome Exn HostConnection}
    (ho : ThrowsNothing o)
    (h : Cluster.createNewConnection fn host port w = (o, w')) : ¬ RejectsPort w.redirects host port := by
  intro hrej
  obtain ⟨x, hx⟩ := createNewConnection_of_rejectsPort fn hrej
  rw [hx] at h
  exact ho _ (congrArg Prod.fst h).symm

private theorem moved_throwsNothing (hfn : fn.NeverThrow) (w : World ρ) : ThrowsNothing (Cluster.moved fn w).1 := by
  intro e h
  have hw : Cluster.moved fn w = (if w.cluster.userMovedFn_ = true then fn.userMovedFn else pure ())
      (w.updCluster fun c => { c with moved_ := true }) := by
    unfold Cluster.moved
    rw [Code.bind_of_ret (Code.modify_apply _ w), Code.bind_of_ret (Code.get_apply _)]
    rfl
  rw [hw] at h
  split at h
  · exact hfn.userMovedFn _ e h
  · cases h

variable {replies : Nat → Option RedisReply} {this : HiredisCommand} {s s' : World ρ} {o : Outcome Exn ReplyPtr}
  {log : SyncLog}

private theorem Follows.rejectsPort_iff (hfn : fn.NeverThrow) {host port : Bytes} {state : ProcessState}
    (h : Follows (Cluster.ops fn) replies this s host port state o s' log) :
    OnlyClusterExceptions o ↔ ¬ RejectsPort s.redirects host port := by
  have ret {conn : HostConnection} : ThrowsNothing (Outcome.ret conn : Outcome Exn HostConnection) := by
    intro _ h
    cases h
  cases h with
  | thrown hs h =>
    obtain ⟨hrej, hstd⟩ := createNewConnection_throws hfn h
    exact iff_of_false (fun hall => hstd (hall _ rfl)) (not_not.2 hrej)
  | undefined hs h =>
    exact iff_of_true (fun _ ho => by cases ho) (not_rejectsPort (fun _ h => by cases h) h)
  | movedThrown hcmd h he hm => exact absurd (congrArg Prod.fst hm) (moved_throwsNothing hfn _ _)
  | null hs h | askBroken h | movedBroken h | askingLost h | askingRefused h | askLost _ h | askDown _ h | asked _ h
  | movedUndefined _ h | moved _ h =>
    refine iff_of_true (fun _ ho => ?_) (not_rejectsPort ret h)
    cases ho <;> exact ⟨_, rfl⟩

/-- The first reply is a redirection with a port that is rejected. -/
def MeetsRejectedPort (fn : Functions ρ) (replies : Nat → Option RedisReply) (this : HiredisCommand) (s : World ρ) :
    Prop :=
  this.cmd_.isSome = true ∧ ∃ con r, (Cluster.getConnection this.key_ s).1 = .ret con ∧
    (Cluster.ops fn).errstr con.2 s = none ∧ replies 0 = some r ∧ RejectsRedirection s.redirects r

private theorem process_meetsRejectedPort_iff (hfn : fn.NeverThrow) (replies : Nat → Option RedisReply)
    (this : HiredisCommand) (s : World ρ) :
    OnlyClusterExceptions (Program.run (handler (Cluster.ops fn) replies) this.process (SyncWorld.start s)).1 ↔
      ¬ MeetsRejectedPort fn replies this s := by
  obtain ⟨o, w', log, hrun, hcourse⟩ := run_course (Cluster.ops fn) replies this s
  rw [hrun]
  dsimp only
  generalize w'.cluster = s'' at hcourse
  -- the lookup leaves the cluster as it is
  obtain ⟨o', hlookup, -, -, hthrows⟩ := Cluster.getConnection_cases this.key_ s
  have same {o : Outcome Exn SlotConnection} {s' : World ρ}
      (h : (Cluster.ops fn).getConnection this.key_ s = (o, s')) : o = o' ∧ s' = s :=
    Prod.mk.inj (h.symm.trans hlookup)
  unfold MeetsRejectedPort
  rw [hlookup]
  cases hcourse with
  | unrouted h =>
    obtain ⟨rfl, rfl⟩ := same h
    exact iff_of_true (fun _ he => by cases he; exact hthrows _ rfl) (by rintro ⟨-, con, r, hget, -⟩; cases hget)
  | unhashed h =>
    obtain ⟨rfl, rfl⟩ := same h
    exact iff_of_true (fun _ he => by cases he) (by rintro ⟨-, con, r, hget, -⟩; cases hget)
  | unformatted h hcmd =>
    rw [hcmd]
    exact iff_of_true (fun _ he => by cases he) (by rintro ⟨hsome, -⟩; cases hsome)
  | lost h hcmd hlost =>
    obtain ⟨rfl, rfl⟩ := same h
    refine iff_of_true (fun e he => by cases he; exact ⟨_, rfl⟩) ?_
    rintro ⟨-, con, r, hget, he, hr, -⟩
    cases hget
    rw [hlost he] at hr
    cases hr
  | down h hcmd he hr hdown =>
    refine iff_of_true (fun e he => by cases he; exact ⟨_, rfl⟩) ?_
    rintro ⟨-, con, r, -, -, hr', hup, -⟩
    rw [hr] at hr'
    cases hr'
    rw [hdown] at hup
    cases hup
  | ready h hcmd he hr hdown hres =>
    refine iff_of_true (fun e he => by cases he) ?_
    rintro ⟨-, con, r, -, -, hr', -, state, host, port, hres', hs, -⟩
    rw [hr] at hr'
    cases hr'
    rw [hres] at hres'
    cases hres'
    rcases hs with hs | hs <;> cases hs
  | redirected h hcmd he hr hdown hres hf =>
    obtain ⟨rfl, rfl⟩ := same h
    rw [hf.rejectsPort_iff hfn, not_iff_not]
    constructor
    · intro hrej
      exact ⟨by rw [hcmd]; rfl, _, _, rfl, he, hr, hdown, _, _, _, hres, hf.state_cases, hrej⟩
    · rintro ⟨-, con, r, -, -, hr', -, state, host, port, hres', -, hrej⟩
      rw [hr] at hr'
      cases hr'
      rw [hres] at hres'
      cases hres'
      exact hrej

/-- The constructor of a command object needs a cluster. -/
private theorem command_meetsRejectedPort_iff (hfn : fn.NeverThrow) (replies : Nat → Option RedisReply)
    (args : HiredisCommand.Arguments) (s : World ρ) :
    OnlyClusterExceptions
        (Program.run (handler (Cluster.ops fn) replies) (HiredisCommand.command args) (SyncWorld.start s)).1 ↔
      ¬ (args.clusterNull = false ∧ MeetsRejectedPort fn replies { key_ := args.key, cmd_ := args.cmd } s) := by
  cases hnull : args.clusterNull with
  | true =>
    have hnew : HiredisCommand.new args = .throws (.cluster .invalidArgument) := by
      rw [HiredisCommand.new, if_pos hnull]
    rw [HiredisCommand.command, hnew]
    exact iff_of_true (fun e he => by cases he; exact ⟨_, rfl⟩) (by rintro ⟨h, -⟩; cases h)
  | false =>
    have hnew : HiredisCommand.new args = .ret { key_ := args.key, cmd_ := args.cmd } := by
      rw [HiredisCommand.new, if_neg (by rw [hnull]; decide)]
      rfl
    rw [HiredisCommand.command, hnew]
    refine (process_meetsRejectedPort_iff hfn replies _ s).trans (not_congr ?_)
    simp

end sync

/-! ### The asynchronous client -/

section async

open AsyncHiredisCommand

private theorem asyncCommand_formatted_iff {w : AsyncWorld} (h : Sound w) (args : Arguments) (ch : Choices) :
    OnlyClusterExceptions (AsyncHiredisCommand.command args (w.choose ch)).1 ↔
      (args.clusterNull = true ∨ args.cmd.isSome = true) := by
  obtain ⟨o, v, hrun, hcase⟩ := command_cases (w := w.choose ch) h.stored args
  rw [hrun]
  cases hcase with
  | null hnull => exact iff_of_true (fun e he => by cases he; exact ⟨_, rfl⟩) (Or.inl hnull)
  | unformatted hnull hcmd =>
    refine iff_of_false (fun hall => Exn.not_isCluster_std _ (hall _ rfl)) ?_
    rw [hnull, hcmd]
    simp
  | unhashed hcmd hkey => exact iff_of_true (fun _ he => by cases he) (Or.inr hcmd)
  | unrouted hcmd e => exact iff_of_true (fun e he => by cases he; exact ⟨_, rfl⟩) (Or.inr (by rw [hcmd]; rfl))
  | accepted hcmd => exact iff_of_true (fun _ he => by cases he) (Or.inr (by rw [hcmd]; rfl))
  | refused hcmd => exact iff_of_true (fun e he => by cases he; exact ⟨_, rfl⟩) (Or.inr (by rw [hcmd]; rfl))

/-- A command without a redirect connection of its own is redirected to a port that is rejected. -/
def World.MeetsRejectedPort (w : AsyncWorld) (req : Request) (reply : RedisReply) : Prop :=
  req.callback = .processCommandReply ∧ (∃ obj, w.Holds req.data obj ∧ obj.con_.2 = none) ∧
    RejectsRedirection w.redirects reply

private theorem escapesFrom_iff {w : AsyncWorld} {req : Request} {obj : AsyncHiredisCommand}
    (hobj : w.Holds req.data obj) {ch : Choices} (hch : ch.movedCb = none) (reply : RedisReply) :
    (∃ e, (w.fire req reply ch).EscapesFrom req obj reply e) ↔ w.MeetsRejectedPort req reply := by
  have hmoved : (w.fire req reply ch).movedException = none := by
    show (if w.cluster.userMovedFn_ then ch.movedCb else none) = none
    rw [hch, ite_self]
  constructor
  · rintro ⟨e, hcb, hdown, host, port, ⟨hres, hc, hl, hx⟩ | ⟨hres, hthrown | ⟨-, hc, hl, hx⟩⟩⟩
    · exact ⟨hcb, ⟨obj, hobj, hc⟩, hdown, .ask, host, port, hres, Or.inl rfl, hl, e, hx⟩
    · rw [hmoved] at hthrown
      cases hthrown
    · exact ⟨hcb, ⟨obj, hobj, hc⟩, hdown, .moved, host, port, hres, Or.inr rfl, hl, e, hx⟩
  · rintro ⟨hcb, ⟨obj', hobj', hc⟩, hdown, state, host, port, hres, hs, hl, e, hx⟩
    cases Option.some.inj (hobj'.1.symm.trans hobj.1)
    rcases hs with rfl | rfl
    · exact ⟨e, hcb, hdown, host, port, Or.inl ⟨hres, hc, hl, hx⟩⟩
    · exact ⟨e, hcb, hdown, host, port, Or.inr ⟨hres, Or.inr ⟨hmoved, hc, hl, hx⟩⟩⟩

private theorem callback_meetsRejectedPort_iff {w : AsyncWorld} (h : Sound w) {con : ConPtr} {req : Request}
    (ho : w.oldest con = some req) (reply : RedisReply) {ch : Choices} (hch : ch.movedCb = none) :
    ThrowsNothing (req.callback.run con (.object w.replies reply) req.data (w.fire req reply ch)).1 ↔
      ¬ w.MeetsRejectedPort req reply := by
  obtain ⟨obj, hobj, he, hopen⟩ := fire_pending h ho
  obtain ⟨hreq, -⟩ := oldest_split ho
  have hfree : w.replies ∉ (w.fire req reply ch).freed := fun ha => Nat.lt_irrefl _ (h.freed _ ha)
  rw [← escapesFrom_iff hobj hch reply, ← hreq]
  rcases callback_settles (h.fire req reply ch) hobj he (hreq ▸ hopen) hfree reply with
    ⟨e, v, hesc, hrun⟩ | ⟨hno, obj', v, w', hrun, -⟩
  · rw [hrun]
    exact iff_of_false (fun hall => hall _ rfl) (not_not.2 ⟨e, hesc⟩)
  · rw [hrun]
    exact iff_of_true (fun _ ht => by cases ht) hno

end async

/-! ### Both clients -/

/-- Only exceptions of the library leave the calls of both clients, and none leaves a callback, exactly when no port of
a redirection is rejected and asynchronous commands are formatted. -/
theorem onlyClusterExceptions_iff {ρ : Type} {fn : Functions ρ} (hfn : fn.NeverThrow)
    (replies : Nat → Option RedisReply) (args : HiredisCommand.Arguments) (s : World ρ) {w : AsyncWorld}
    {hist : List (AsyncWorld × Stimulus)} (r : AsyncRun w hist) (asyncArgs : AsyncHiredisCommand.Arguments)
    (choices : Choices) {con : ConPtr} {req : Request} (ho : w.oldest con = some req) (reply : RedisReply) {ch : Choices}
    (hch : ch.movedCb = none) :
    ((OnlyClusterExceptions
          (Program.run (handler (Cluster.ops fn) replies) (HiredisCommand.command args) (SyncWorld.start s)).1 ∧
        OnlyClusterExceptions
          (Program.run (handler (Cluster.ops fn) replies) (HiredisCommand.altCommand args) (SyncWorld.start s)).1) ↔
      ¬ (args.clusterNull = false ∧ MeetsRejectedPort fn replies { key_ := args.key, cmd_ := args.cmd } s)) ∧
    (OnlyClusterExceptions (AsyncHiredisCommand.command asyncArgs (w.choose choices)).1 ↔
      (asyncArgs.clusterNull = true ∨ asyncArgs.cmd.isSome = true)) ∧
    (ThrowsNothing (req.callback.run con (.object w.replies reply) req.data (w.fire req reply ch)).1 ↔
      ¬ w.MeetsRejectedPort req reply) := by
  have hcommand := command_meetsRejectedPort_iff hfn replies args s
  refine ⟨⟨fun h => hcommand.1 h.1, fun h => ⟨hcommand.2 h, hcommand.2 h⟩⟩, ?_, ?_⟩
  · exact asyncCommand_formatted_iff (sound_of_run r) asyncArgs choices
  · exact callback_meetsRejectedPort_iff (sound_of_run r) ho reply hch

/-- The default functions, with a moved callback that does nothing. -/
def silentFunctions : Functions HiredisCommand.Environment := { HiredisCommand.functions with userMovedFn := pure () }

private theorem silentFunctions_neverThrow : silentFunctions.NeverThrow := by
  refine ⟨fun f hf host port w e h => ?_, fun w e h => by cases h⟩
  cases hf
  unfold HiredisCommand.connectFunction at h
  rw [Code.bind_of_ret (Code.get_apply w), Code.bind_of_ret (Code.modify_apply _ w)] at h
  cases hc : w.client.connects.headD .healthy <;> rw [hc] at h <;> cases h

/-- A redirection with a port. -/
def toSecondNode : RedisReply := .error (.ofText "MOVED 12182 10.0.0.2:7001")

/-- The asynchronous client after a command. -/
def oneCommand : List Stimulus := [.command ⟨false, text "k", some (text "GET k"), true⟩ calm]

/-- A redirection with a port is followed. -/
theorem onlyClusterExceptions_iff_toSecondNode :
    (OnlyClusterExceptions (Program.run (handler (Cluster.ops silentFunctions) (fun _ => some toSecondNode))
        (HiredisCommand.command ⟨false, text "foo", some (text "GET foo")⟩)
          (SyncWorld.start HiredisCommand.oneNode)).1 ∧
      OnlyClusterExceptions (Program.run (handler (Cluster.ops silentFunctions) (fun _ => some toSecondNode))
        (HiredisCommand.altCommand ⟨false, text "foo", some (text "GET foo")⟩)
          (SyncWorld.start HiredisCommand.oneNode)).1) ∧
    OnlyClusterExceptions (AsyncHiredisCommand.command ⟨false, text "k", some (text "GET k"), true⟩
      ((Stimulus.after oneCommand oneNode).choose calm)).1 ∧
    ThrowsNothing (AsyncHiredisCommand.processCommandReply 0
      (.object (Stimulus.after oneCommand oneNode).replies toSecondNode) 0
      ((Stimulus.after oneCommand oneNode).fire ⟨0, .processCommandReply, 0, .formatted (text "GET k")⟩
        toSecondNode calm)).1 := by
  have hres : processResult toSecondNode = .ret (.moved, text "10.0.0.2", text "7001") := by decide +kernel
  have hport : stoi (text "7001") = .ret 7001 := by decide
  have haccepted (m : RedirectConnections) : ¬ RejectsRedirection m toSecondNode := by
    rintro ⟨-, state, host, port, hres', -, -, e, he⟩
    rw [hres] at hres'
    cases hres'
    rw [hport] at he
    cases he
  have ho : (Stimulus.after oneCommand oneNode).oldest 0 =
      some ⟨0, .processCommandReply, 0, .formatted (text "GET k")⟩ := by decide +kernel
  obtain ⟨hcommand, hasync, hcallback⟩ := onlyClusterExceptions_iff silentFunctions_neverThrow
    (fun _ => some toSecondNode) ⟨false, text "foo", some (text "GET foo")⟩ HiredisCommand.oneNode
    (run_after oneNode_initial oneCommand (by decide +kernel)) ⟨false, text "k", some (text "GET k"), true⟩ calm ho
    toSecondNode (show calm.movedCb = none from rfl)
  refine ⟨hcommand.2 ?_, hasync.2 (Or.inr rfl), hcallback.2 fun hmeets => haccepted _ hmeets.2.2⟩
  rintro ⟨-, -, con, r, -, -, hr, hrej⟩
  cases hr
  exact haccepted _ hrej

/-- A redirection without a port. -/
def noPort : RedisReply := .error (.ofText "MOVED 12182 10.0.0.2:")

/-- The port leaves the synchronous call and the callback, the missing command the asynchronous call. -/
theorem not_onlyClusterExceptions :
    ¬ OnlyClusterExceptions (Program.run (handler (Cluster.ops HiredisCommand.functions) (fun _ => some noPort))
      (HiredisCommand.command ⟨false, text "foo", some (text "GET foo")⟩) (SyncWorld.start HiredisCommand.oneNode)).1 ∧
    ¬ OnlyClusterExceptions (AsyncHiredisCommand.command ⟨false, text "k", none, true⟩ oneNode).1 ∧
    (AsyncHiredisCommand.processCommandReply 0 (.object 1 noPort) 0
      ((Stimulus.after oneCommand oneNode).fire ⟨0, .processCommandReply, 0, .formatted (text "GET k")⟩ noPort calm)).1 =
        .throws (.std .invalidArgument) := by
  refine ⟨?_, ?_, ?_⟩ <;> decide +kernel

end HiredisCluster
