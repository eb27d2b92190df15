import HiredisCluster.AsyncHiredisCommand
import HiredisCluster.Cxx.Run

/-!
# The end of an asynchronous cluster

`createCluster` allocates a `ConnectContext`, which every connection of the cluster points at, and `~Cluster` lets
`clusterDestructCB` free it before the container closes the connections.  Here hiredis runs the disconnect callback of a
connected context inside `redisAsyncDisconnect` when nothing is pending on the context, and from the event loop
otherwise.  `accesses` records what `connect` and `disconnectCb` find in the `ConnectContext`; deleting a cluster whose
connections are gone leaves all of them valid (`accesses_valid`).
-/

namespace HiredisCluster

open Cxx AsyncHiredisCommand

namespace Teardown

/-- What hiredis knows of a context besides its flags: whether it is connected, whether it has the disconnect callback,
and how many requests wait on it for a reply. -/
structure Link where
  connected : Bool
  callback : Bool
  pending : Nat
  deriving DecidableEq, Repr

/-- An access of `connect` (`con` is `none`) or of `disconnectCb` to the `ConnectContext`: whether that was freed before,
whether its cluster was assigned, and whether the cluster was deleted before. -/
structure Access where
  con : Option ConPtr
  freed : Bool
  pcluster : Bool
  deleted : Bool
  deriving DecidableEq, Repr

/-- The memory is still there, and `disconnectCb` finds a cluster in it. -/
def Access.Valid (a : Access) : Prop := a.freed = false ∧ (a.con ≠ none → a.pcluster = true ∧ a.deleted = false)

instance (a : Access) : Decidable a.Valid := inferInstanceAs (Decidable (_ ∧ _))

/-- The `ConnectContext`, what hiredis knows of each context, the context one of whose reply callbacks runs, whether the
cluster was deleted, how the next connects end, and the accesses so far. -/
structure Lifetime where
  data_ : ConnectContext
  links : ConPtr → Link
  inCallback : Option ConPtr
  deleted : Bool
  connects : List ConnectOutcome
  accesses : List Access

abbrev Timed (α : Type) := Lib Lifetime α

section state

variable (w : World Lifetime)

def updClient (f : Lifetime → Lifetime) : World Lifetime := w.setClient (f w.client)

def setLink (con : ConPtr) (f : Link → Link) : World Lifetime :=
  updClient w fun c => { c with links := fun k => if k = con then f (c.links con) else c.links k }

/-- A context that runs `disconnectCb` some time. -/
def Live (con : ConPtr) : Prop :=
  (∃ ctx, w.contexts[con]? = some ctx ∧ ctx.disconnected = false) ∧ (w.client.links con).callback = true

instance (con : ConPtr) : Decidable (Live w con) :=
  decidable_of_iff (((w.contexts[con]?).any fun ctx => !ctx.disconnected) = true ∧
    (w.client.links con).callback = true) (by simp [Live, Option.any_eq_true])

end state

/-- `connect` or `disconnectCb` looks at the `ConnectContext`. -/
def access (con : Option ConPtr) : Timed Unit :=
  Code.modify fun w => updClient w fun c => { c with
    accesses := c.accesses ++ [⟨con, c.data_.freed, c.data_.pcluster, c.deleted⟩] }

/-- A context is added that has the disconnect callback and points at the `ConnectContext`. -/
def attached (w : World Lifetime) (x : Context) : World Lifetime :=
  updClient (setLink (w.addContext x) w.contexts.length fun _ => ⟨false, true, 0⟩) fun c =>
    { c with data_ := { c.data_ with lifetime := c.data_.lifetime + 1 } }

/-- `AsyncHiredisCommand::connect`. -/
def connect (host : Bytes) (port : Int32) : Timed (Option ConPtr) := do
  access none
  let w ← Code.get
  if ¬ w.client.data_.adapter then
    Code.throws (.cluster .connectionFailed)
  else
    Code.modify fun w => updClient w fun c => { c with connects := c.connects.tail }
    match w.client.connects.headD .healthy with
    | .null => Code.throws (.cluster .connectionFailed)
    | .broken errstr =>
      Code.modify fun w => w.addContext { Context.opened host port with err := true, errstr := errstr }
      Code.throws (.cluster .connectionFailed)
    | .attachFails =>
      Code.modify fun w => w.addContext (Context.opened host port)
      Code.throws (.cluster .connectionFailed)
    | .healthy =>
      Code.modify fun w => attached w (Context.opened host port)
      return some w.contexts.length

/-- `disconnectCb`; what it does to freed memory is of no consequence here. -/
def disconnectCb (con : ConPtr) : Timed Unit := do
  access (some con)
  Code.modify fun w => updClient w fun c => { c with data_ := { c.data_ with lifetime := c.data_.lifetime - 1 } }
  Cluster.deleteConnection con

/-- A context is freed, after the disconnect callback if it was connected. -/
def redisAsyncFree (con : ConPtr) : Timed Unit := do
  let w ← Code.get
  if (w.client.links con).connected ∧ (w.client.links con).callback then
    disconnectCb con
  Code.modify fun w => { w with contexts := w.contexts.modify con fun x => { x with disconnected := true } }

/-- A context that was not freed yet. -/
def unfreed (con : ConPtr) : Timed Context := fun w =>
  match w.contexts[con]? with
  | some ctx => if ctx.disconnected then (.undefined, w) else (.ret ctx, w)
  | none => (.undefined, w)

/-- `redisAsyncDisconnect`. -/
def redisAsyncDisconnect (con : ConPtr) : Timed Unit := do
  let _ ← unfreed con
  Code.modify fun w => { w with contexts := w.contexts.modify con fun x => { x with disconnecting := true } }
  let w ← Code.get
  if w.client.inCallback ≠ some con ∧ (w.client.links con).pending = 0 then
    redisAsyncFree con

/-- `redisAsyncCommand` on a context. -/
def redisAsyncCommand (con : ConPtr) : Timed Status := do
  let ctx ← unfreed con
  if ctx.disconnecting then
    return .err
  else
    Code.modify fun w => setLink w con fun l => { l with pending := l.pending + 1 }
    return .ok

/-- The functions `createCluster` passes on. -/
def functions : Functions Lifetime :=
  { connect := some connect, disconnect := some redisAsyncDisconnect, userMovedFn := pure () }

/-- `createCluster`, from the reply to `CLUSTER SLOTS` on. -/
def createCluster (reply : ReplyPtr) : Timed Unit := do
  checkCritical reply true true [] none
  Code.modify fun w => updClient w fun c =>
    { c with data_ := { adapter := true, pcluster := false, lifetime := 0, freed := false } }
  Cluster.construct functions reply
  Code.modify fun w => updClient w fun c => { c with data_ := { c.data_ with pcluster := true } }
  freeReplyObject reply

/-- `clusterDestructCB`. -/
def clusterDestructCB : Timed Unit :=
  Code.modify fun w => updClient w fun c => { c with data_ := { c.data_ with freed := true } }

/-- `~Cluster`; the destructor of the container calls its `disconnect()`. -/
def destruct : Timed Unit := do
  clusterDestructCB
  DefaultContainer.disconnect functions
  Code.modify fun w => updClient w fun c => { c with deleted := true }

/-- What happens to the connections.  The application calls `Command`, `disconnect()` and deletes the cluster; the event
loop connects a context, starts and ends a callback of a command for a reply, and closes a context.  A callback may send
on a context, follow a redirection, or delete a command, which disconnects the context it has. -/
inductive Happening where
  | command (key : Bytes)
  | disconnect
  | delete
  | connected (con : ConPtr)
  | replied (con : ConPtr)
  | send (con : ConPtr)
  | createNewConnection (host port : Bytes) (connects : List ConnectOutcome)
  | deleteCommand (con : ConPtr)
  | returned
  | closed (con : ConPtr)

/-- A deleted cluster is not used by the application, but by the callbacks of commands that have it. -/
def Happening.exec : Happening → Timed Unit
  | command key => do
    let w ← Code.get
    if w.client.deleted then
      return ()
    else
      match ← Code.attempt some (Cluster.getConnection key) with
      | .ok con => let _ ← redisAsyncCommand con.2
      | .error _ => return ()
  | disconnect => do
    let w ← Code.get
    if w.client.deleted then return () else Cluster.disconnect functions
  | delete => do
    let w ← Code.get
    if w.client.deleted then return () else destruct
  | connected con => Code.modify fun w =>
    if Live w con then setLink w con fun l => { l with connected := true } else w
  | replied con => Code.modify fun w =>
    if Live w con ∧ (w.client.links con).connected ∧ (w.client.links con).pending ≠ 0 ∧
        w.client.inCallback = none then
      updClient (setLink w con fun l => { l with pending := l.pending - 1 }) fun c => { c with inCallback := some con }
    else w
  | send con => do
    let w ← Code.get
    if w.client.inCallback.isSome then
      let _ ← redisAsyncCommand con
    else return ()
  | createNewConnection host port connects => do
    let w ← Code.get
    if w.client.inCallback.isSome then
      Code.modify fun w => updClient w fun c => { c with connects }
      let _ ← Code.attempt some (Cluster.createNewConnection functions host port)
    else return ()
  | deleteCommand con => do
    let w ← Code.get
    if w.client.inCallback.isSome then redisAsyncDisconnect con else return ()
  | returned => Code.modify fun w => updClient w fun c => { c with inCallback := none }
  -- requests that still wait get no reply any more
  | closed con => do
    let w ← Code.get
    if Live w con ∧ w.client.inCallback ≠ some con then redisAsyncFree con else return ()

/-- Before `createCluster`. -/
def Lifetime.unborn (connects : List ConnectOutcome) : Lifetime :=
  { data_ := { adapter := false, pcluster := false, lifetime := 0, freed := false }
    links := fun _ => { connected := false, callback := false, pending := 0 }
    inCallback := none, deleted := false, connects, accesses := [] }

/-- A cluster that `createCluster` has just made. -/
def Created (w : World Lifetime) : Prop :=
  ∃ reply connects w₀, w₀.client = .unborn connects ∧ createCluster reply w₀ = (.ret (), w)

/-- A run of a cluster; it ends where a context is used that was freed. -/
abbrev TeardownRun : World Lifetime → List (World Lifetime × Happening) → Prop :=
  Run Created fun w x w' => x.exec w = (.ret (), w')

/-- Nothing is left of the connections but stored ones that are not connected yet and have nothing to do. -/
def Settled (w : World Lifetime) : Prop :=
  ∀ con, Live w con → w.Stored con ∧ (w.client.links con).connected = false ∧ (w.client.links con).pending = 0

/-! ### While the cluster is there -/

/-- The `ConnectContext` is there, with the cluster assigned or not, and a callback runs on a living connection. -/
structure InUse (assigned : Bool) (w : World Lifetime) : Prop where
  freed : w.client.data_.freed = false
  pcluster : w.client.data_.pcluster = assigned
  deleted : w.client.deleted = false
  running : ∀ con, w.client.inCallback = some con → Live w con ∧ (w.client.links con).connected = true
  valid : ∀ a ∈ w.client.accesses, a.Valid

variable {w v : World Lifetime} {con : ConPtr} {assigned : Bool}

/-- The same links and contexts that are not freed. -/
private theorem Live.of_eq (h : Live w con) (hlinks : v.client.links con = w.client.links con)
    (hcontexts : ∀ ctx, w.contexts[con]? = some ctx → ∃ ctx', v.contexts[con]? = some ctx' ∧
      ctx'.disconnected = ctx.disconnected) : Live v con := by
  obtain ⟨⟨ctx, hctx, hdis⟩, hcb⟩ := h
  obtain ⟨ctx', hctx', hsame⟩ := hcontexts ctx hctx
  exact ⟨⟨ctx', hctx', hsame.trans hdis⟩, by rw [hlinks]; exact hcb⟩

private theorem InUse.ignoresCluster (assigned : Bool) : World.IgnoresCluster (InUse assigned) := by
  rintro w v hcontexts hclient ⟨hf, hp, hd, hr, hv⟩
  refine ⟨by rw [hclient]; exact hf, by rw [hclient]; exact hp, by rw [hclient]; exact hd, ?_, by rw [hclient]; exact hv⟩
  intro con hcon
  rw [hclient] at hcon ⊢
  obtain ⟨hlive, hconnected⟩ := hr con hcon
  exact ⟨hlive.of_eq (by rw [hclient]) fun ctx hctx => ⟨ctx, by rw [hcontexts]; exact hctx, rfl⟩, hconnected⟩

/-- `connect` may look at the `ConnectContext` any time, `disconnectCb` once the cluster is assigned. -/
private theorem access_inUse (h : con? = none ∨ assigned = true) : Code.Preserves (InUse assigned) (access con?) := by
  rintro w ⟨hf, hp, hd, hr, hv⟩
  refine ⟨hf, hp, hd, hr, fun a ha => ?_⟩
  rcases List.mem_append.1 ha with ha | ha
  · exact hv a ha
  · rw [List.mem_singleton.1 ha]
    refine ⟨hf, fun hne => ⟨?_, hd⟩⟩
    rcases h with h | h
    · exact absurd h hne
    · exact hp.trans h

/-- Steps that leave the `ConnectContext`, the accesses and the running connection alone. -/
private theorem InUse.keep (h : InUse assigned w) (freed : v.client.data_.freed = w.client.data_.freed)
    (pcluster : v.client.data_.pcluster = w.client.data_.pcluster) (deleted : v.client.deleted = w.client.deleted)
    (inCallback : v.client.inCallback = w.client.inCallback) (accesses : v.client.accesses = w.client.accesses)
    (live : ∀ con, w.client.inCallback = some con → Live w con → (w.client.links con).connected = true →
      Live v con ∧ (v.client.links con).connected = true) : InUse assigned v := by
  refine ⟨freed.trans h.freed, pcluster.trans h.pcluster, deleted.trans h.deleted, fun con hcon => ?_, fun a ha => ?_⟩
  · rw [inCallback] at hcon
    exact live con hcon (h.running con hcon).1 (h.running con hcon).2
  · rw [accesses] at ha
    exact h.valid a ha

/-- A link is changed that stays connected. -/
private theorem live_setLink {c : ConPtr} {f : Link → Link} (hcallback : ∀ l, (f l).callback = l.callback)
    (hconnected : ∀ l, l.connected = true → (f l).connected = true) (hl : Live w c)
    (hc : (w.client.links c).connected = true) :
    Live (setLink w con f) c ∧ ((setLink w con f).client.links c).connected = true := by
  have link : (setLink w con f).client.links c = if c = con then f (w.client.links c) else w.client.links c := by
    by_cases hcon : c = con
    · rw [if_pos hcon, hcon]
      exact if_pos rfl
    · rw [if_neg hcon]
      exact if_neg hcon
  unfold Live
  rw [link]
  split
  · exact ⟨⟨hl.1, (hcallback _).trans hl.2⟩, hconnected _ hc⟩
  · exact ⟨hl, hc⟩

private theorem InUse.relink (h : InUse assigned w) (con : ConPtr) {f : Link → Link}
    (hcallback : ∀ l, (f l).callback = l.callback)
    (hconnected : ∀ l, l.connected = true → (f l).connected = true) : InUse assigned (setLink w con f) :=
  h.keep rfl rfl rfl rfl rfl fun _ _ => live_setLink hcallback hconnected

/-- A context is added; links of contexts that are there stay. -/
private theorem live_grows (hcontexts : w.contexts <+: v.contexts) (hlinks : ∀ c, c < w.contexts.length →
    v.client.links c = w.client.links c) (h : Live w con) (hc : (w.client.links con).connected = true) :
    Live v con ∧ (v.client.links con).connected = true := by
  obtain ⟨ctx, hctx, -⟩ := h.1
  have hlt := (List.getElem?_eq_some_iff.1 hctx).1
  have hlink := hlinks con hlt
  obtain ⟨opened, hopened⟩ := hcontexts
  refine ⟨h.of_eq hlink fun x hx => ⟨x, ?_, rfl⟩, by rw [hlink]; exact hc⟩
  rw [← hopened, List.getElem?_append_left hlt]
  exact hx

private theorem connect_inUse (host : Bytes) (port : Int32) : Code.Preserves (InUse assigned) (connect host port) := by
  have added : ∀ x : Context, Code.Preserves (InUse assigned) (Code.modify fun w => w.addContext x : Timed Unit) :=
    fun x => .modify fun w h => h.keep rfl rfl rfl rfl rfl fun _ _ => live_grows (List.prefix_append _ _) fun _ _ => rfl
  refine .bind (access_inUse (Or.inl rfl)) fun _ => .bind (.get _) fun w => ?_
  split
  · exact .throws _ _
  · refine .bind (.modify fun w h => h.keep rfl rfl rfl rfl rfl fun _ _ hl hc => ⟨hl, hc⟩) fun _ => ?_
    split
    · exact .throws _ _
    · exact .bind (added _) fun _ => .throws _ _
    · exact .bind (added _) fun _ => .throws _ _
    · refine .bind (.modify fun w h => h.keep rfl rfl rfl rfl rfl fun _ _ => ?_) fun _ => .pure _ _
      exact live_grows (List.prefix_append _ _) fun c hc => if_neg (Nat.ne_of_lt hc)

/-! ### Disconnecting -/

/-- `disconnectCb` ran. -/
def noted (w : World Lifetime) (con : ConPtr) : World Lifetime :=
  updClient w fun c => { c with
    accesses := c.accesses ++ [⟨some con, c.data_.freed, c.data_.pcluster, c.deleted⟩]
    data_ := { c.data_ with lifetime := c.data_.lifetime - 1 } }

/-- A flag of a context is set. -/
def flagged (w : World Lifetime) (con : ConPtr) (f : Context → Context) : World Lifetime :=
  { w with contexts := w.contexts.modify con f }

@[simp] theorem client_flagged (w : World Lifetime) (con : ConPtr) (f : Context → Context) :
    (flagged w con f).client = w.client := rfl

private theorem redisAsyncFree_eq (w : World Lifetime) (con : ConPtr) : redisAsyncFree con w = (.ret (),
    flagged (if (w.client.links con).connected ∧ (w.client.links con).callback then noted w con else w) con
      fun x => { x with disconnected := true }) := by
  unfold redisAsyncFree
  rw [Code.bind_of_ret (Code.get_apply w)]
  split
  · rfl
  · rfl

private theorem live_flagged {c : ConPtr} {f : Context → Context}
    (hf : c ≠ con ∨ ∀ x, (f x).disconnected = x.disconnected) :
    Live (flagged w con f) c ↔ Live w c := by
  have same : ∀ ctx, w.contexts[c]? = some ctx → ∃ ctx', (flagged w con f).contexts[c]? = some ctx' ∧
      ctx'.disconnected = ctx.disconnected := by
    intro ctx hctx
    refine ⟨if con = c then f ctx else ctx, ?_, ?_⟩
    · show (w.contexts.modify con f)[c]? = _
      rw [List.getElem?_modify, hctx]
      rfl
    · split
      · rename_i hcon
        rcases hf with hne | hf
        · exact absurd hcon.symm hne
        · exact hf ctx
      · rfl
  constructor
  · rintro ⟨⟨ctx', hctx', hdis⟩, hcb⟩
    cases hctx : w.contexts[c]? with
    | none =>
      have none' : (w.contexts.modify con f)[c]? = none := by
        rw [List.getElem?_modify, hctx]
        rfl
      exact absurd (none'.symm.trans hctx') (by simp)
    | some ctx =>
      obtain ⟨x, hx, hsame⟩ := same ctx hctx
      obtain rfl : x = ctx' := Option.some.inj (hx.symm.trans hctx')
      exact ⟨⟨ctx, hctx, hsame.symm.trans hdis⟩, hcb⟩
  · intro h
    exact h.of_eq rfl same

private theorem live_disconnecting {c : ConPtr} : Live
    (flagged w con fun x => { x with disconnecting := true }) c ↔ Live w c :=
  live_flagged (Or.inr fun _ => rfl)

/-- A context that was freed is dead. -/
private theorem not_live_freed : ¬ Live (flagged w con fun x => { x with disconnected := true }) con := by
  rintro ⟨⟨ctx, hctx, hdis⟩, -⟩
  replace hctx : (w.contexts.modify con fun x => { x with disconnected := true })[con]? = some ctx := hctx
  rw [List.getElem?_modify] at hctx
  cases hold : w.contexts[con]? with
  | none => rw [hold] at hctx; cases hctx
  | some x =>
    rw [hold] at hctx
    obtain rfl : { x with disconnected := true } = ctx := by simpa using hctx
    cases hdis

private theorem redisAsyncFree_inUse (h : InUse true w) (hne : w.client.inCallback ≠ some con) :
    InUse true (redisAsyncFree con w).2 := by
  rw [redisAsyncFree_eq]
  have freed : ∀ v : World Lifetime, InUse true v → v.client.inCallback ≠ some con →
      InUse true (flagged v con fun x => { x with disconnected := true }) := by
    intro v hv hne
    refine hv.keep rfl rfl rfl rfl rfl fun c hc hl hconn => ⟨(live_flagged (Or.inl ?_)).2 hl, hconn⟩
    rintro rfl
    exact hne hc
  split
  · refine freed _ ?_ hne
    have accessed : InUse true (access (some con) w).2 := access_inUse (Or.inr rfl) w h
    exact accessed.keep rfl rfl rfl rfl rfl fun _ _ hl hc => ⟨hl, hc⟩
  · exact freed w h hne

private theorem unfreed_cases (w : World Lifetime) (con : ConPtr) :
    (∃ ctx, w.contexts[con]? = some ctx ∧ ctx.disconnected = false ∧ unfreed con w = (.ret ctx, w)) ∨
      unfreed con w = (.undefined, w) := by
  unfold unfreed
  cases w.contexts[con]? with
  | none => exact Or.inr rfl
  | some ctx =>
    cases hdis : ctx.disconnected with
    | true => exact Or.inr (by simp [hdis])
    | false => exact Or.inl ⟨ctx, rfl, hdis, by simp [hdis]⟩

/-- A context is marked, and freed at once if it may be. -/
private theorem redisAsyncDisconnect_cases (w : World Lifetime) (con : ConPtr) :
    redisAsyncDisconnect con w = (.undefined, w) ∨
      (∃ ctx, w.contexts[con]? = some ctx ∧ ctx.disconnected = false) ∧ redisAsyncDisconnect con w =
        if w.client.inCallback ≠ some con ∧ (w.client.links con).pending = 0 then
          redisAsyncFree con (flagged w con fun x => { x with disconnecting := true })
        else (.ret (), flagged w con fun x => { x with disconnecting := true }) := by
  unfold redisAsyncDisconnect
  rcases unfreed_cases w con with ⟨ctx, hget, hdis, hctx⟩ | hctx
  · refine Or.inr ⟨⟨ctx, hget, hdis⟩, ?_⟩
    rw [Code.bind_of_ret hctx, Code.bind_of_ret (Code.modify_apply _ _), Code.bind_of_ret (Code.get_apply _)]
    by_cases hfree : w.client.inCallback ≠ some con ∧ (w.client.links con).pending = 0
    · rw [if_pos hfree, if_pos hfree]
      rfl
    · rw [if_neg hfree, if_neg hfree]
      rfl
  · left
    rw [Code.bind_of_undefined hctx]

private theorem redisAsyncDisconnect_inUse (con : ConPtr) : Code.Preserves (InUse true) (redisAsyncDisconnect con) := by
  intro w h
  have marked : InUse true (flagged w con fun x => { x with disconnecting := true }) :=
    h.keep rfl rfl rfl rfl rfl fun _ _ hl hc => ⟨live_disconnecting.2 hl, hc⟩
  rcases redisAsyncDisconnect_cases w con with hrun | ⟨-, hrun⟩
  · rw [hrun]
    exact h
  · rw [hrun]
    split
    · rename_i hidle
      exact redisAsyncFree_inUse marked hidle.1
    · exact marked

private theorem redisAsyncCommand_inUse (con : ConPtr) : Code.Preserves (InUse assigned) (redisAsyncCommand con) := by
  have same : Code.Preserves (InUse assigned) (unfreed con) := by
    intro w h
    rcases unfreed_cases w con with ⟨ctx, -, -, hctx⟩ | hctx
    · rw [hctx]
      exact h
    · rw [hctx]
      exact h
  refine .bind same fun ctx => ?_
  split
  · exact .pure _ _
  · exact .bind (.modify fun w h => h.relink con (fun _ => rfl) fun _ hc => hc) fun _ => .pure _ _

private theorem createNewConnection_inUse (host port : Bytes) :
    Code.Preserves (InUse assigned) (Cluster.createNewConnection functions host port) :=
  DefaultContainer.insertHost_preserves functions (InUse.ignoresCluster assigned).tables connect_inUse host port

/-- While the cluster is not deleted everything stays in use. -/
private theorem exec_inUse (h : InUse true w) {x : Happening} (hx : x ≠ .delete) : InUse true (x.exec w).2 := by
  cases x with
  | command key =>
    refine Code.Preserves.bind (.get _) (fun w => ?_) w h
    split
    · exact .pure _ _
    · refine .bind (.attempt _ fun w h => ?_) fun result => ?_
      · obtain ⟨o, hrun, -⟩ := Cluster.getConnection_cases key w
        rw [hrun]
        exact h
      · cases result with
        | ok con => exact .bind (redisAsyncCommand_inUse con.2) fun _ => .pure _ _
        | error e => exact .pure _ _
  | disconnect =>
    refine Code.Preserves.bind (.get _) (fun w => ?_) w h
    split
    · exact .pure _ _
    · refine DefaultContainer.disconnect_preserves functions (InUse.ignoresCluster true).tables fun f hf con => ?_
      obtain rfl : redisAsyncDisconnect = f := Option.some.inj hf
      exact redisAsyncDisconnect_inUse con
  | delete => exact absurd rfl hx
  | connected con =>
    show InUse true (if Live w con then setLink w con fun l => { l with connected := true } else w)
    split
    · exact h.relink con (fun _ => rfl) fun _ _ => rfl
    · exact h
  | replied con =>
    show InUse true (ite _ _ _)
    split
    · rename_i hreply
      have dropped : InUse true (setLink w con fun l => { l with pending := l.pending - 1 }) :=
        h.relink con (fun _ => rfl) fun _ hc => hc
      have running : Live (setLink w con fun l => { l with pending := l.pending - 1 }) con ∧ _ :=
        live_setLink (fun _ => rfl) (fun _ hc => hc) hreply.1 hreply.2.1
      refine ⟨dropped.freed, dropped.pcluster, dropped.deleted, fun c hc => ?_, dropped.valid⟩
      obtain rfl : con = c := Option.some.inj hc
      exact running
    · exact h
  | send con =>
    refine Code.Preserves.bind (.get _) (fun w => ?_) w h
    split
    · exact .bind (redisAsyncCommand_inUse con) fun _ => .pure _ _
    · exact .pure _ _
  | createNewConnection host port connects =>
    refine Code.Preserves.bind (.get _) (fun w => ?_) w h
    split
    · refine .bind (.modify fun w h => h.keep rfl rfl rfl rfl rfl fun _ _ hl hc => ⟨hl, hc⟩) fun _ => ?_
      exact .bind (.attempt _ (createNewConnection_inUse host port)) fun _ => .pure _ _
    · exact .pure _ _
  | deleteCommand con =>
    refine Code.Preserves.bind (.get _) (fun w => ?_) w h
    split
    · exact redisAsyncDisconnect_inUse con
    · exact .pure _ _
  | returned => exact ⟨h.freed, h.pcluster, h.deleted, fun _ hcon => (by cases hcon), h.valid⟩
  | closed con =>
    by_cases hclose : Live w con ∧ w.client.inCallback ≠ some con
    · have run : (Happening.closed con).exec w = redisAsyncFree con w := congrFun (if_pos hclose) w
      rw [run]
      exact redisAsyncFree_inUse h hclose.2
    · have run : (Happening.closed con).exec w = (.ret (), w) := congrFun (if_neg hclose) w
      rw [run]
      exact h

/-! ### The destructor -/

/-- No callback runs, and no living context is connected or has something to do. -/
def Quiet (w : World Lifetime) : Prop :=
  w.client.inCallback = none ∧
    ∀ con, Live w con → (w.client.links con).connected = false ∧ (w.client.links con).pending = 0

/-- What closing quiet contexts does. -/
structure Fades (cons : List ConPtr) (w v : World Lifetime) : Prop where
  client : v.client = w.client
  cluster : v.cluster = w.cluster
  live : ∀ c, Live v c → Live w c ∧ c ∉ cons

private theorem Fades.quiet {cons : List ConPtr} (h : Fades cons w v) (hw : Quiet w) : Quiet v := by
  refine ⟨by rw [h.client]; exact hw.1, fun con hcon => ?_⟩
  rw [h.client]
  exact hw.2 con (h.live con hcon).1

/-- A quiet context is freed without its disconnect callback. -/
private theorem redisAsyncDisconnect_quiet (h : Quiet w) (hrun : redisAsyncDisconnect con w = (.ret (), v)) :
    Fades [con] w v := by
  rcases redisAsyncDisconnect_cases w con with hcase | ⟨hctx, hcase⟩
  · rw [hcase] at hrun
    cases hrun
  · rw [hcase] at hrun
    by_cases hpending : (w.client.links con).pending = 0
    · have notRunning : w.client.inCallback ≠ some con := by
        rw [h.1]
        exact fun hsome => by cases hsome
      have noCallback : ¬ ((w.client.links con).connected = true ∧ (w.client.links con).callback = true) := by
        rintro ⟨hconnected, hcb⟩
        have idle := (h.2 con ⟨hctx, hcb⟩).1
        rw [hconnected] at idle
        cases idle
      rw [if_pos ⟨notRunning, hpending⟩, redisAsyncFree_eq, client_flagged, if_neg noCallback] at hrun
      cases hrun
      refine ⟨rfl, rfl, fun c hc => ?_⟩
      have hne : c ≠ con := by
        rintro rfl
        exact not_live_freed hc
      exact ⟨live_disconnecting.1 ((live_flagged (Or.inl hne)).1 hc), fun hmem => hne (List.mem_singleton.1 hmem)⟩
    · rw [if_neg fun hfree => hpending hfree.2] at hrun
      cases hrun
      refine ⟨rfl, rfl, fun c hc => ?_⟩
      have hlive := live_disconnecting.1 hc
      refine ⟨hlive, fun hmem => ?_⟩
      rw [List.mem_singleton.1 hmem] at hlive
      exact hpending (h.2 con hlive).2

private theorem disconnectEach_quiet {cons : List ConPtr} (h : Quiet w)
    (hrun : DefaultContainer.disconnectEach functions cons w = (.ret (), v)) : Fades cons w v := by
  induction cons generalizing w with
  | nil =>
    cases hrun
    exact ⟨rfl, rfl, fun c hc => ⟨hc, List.not_mem_nil⟩⟩
  | cons con rest ih =>
    have parts : (redisAsyncDisconnect con >>= fun _ => DefaultContainer.disconnectEach functions rest) w =
        (.ret (), v) := hrun
    obtain ⟨_, u, hfirst, hrest⟩ := Code.ret_of_bind parts
    have first := redisAsyncDisconnect_quiet h hfirst
    have others := ih (first.quiet h) hrest
    refine ⟨others.client.trans first.client, others.cluster.trans first.cluster, fun c hc => ?_⟩
    obtain ⟨hu, hnot⟩ := others.live c hc
    obtain ⟨hw, hne⟩ := first.live c hu
    refine ⟨hw, fun hmem => ?_⟩
    rcases List.mem_cons.1 hmem with heq | hmem
    · exact hne (List.mem_singleton.2 heq)
    · exact hnot hmem

/-- `disconnect()` leaves no context that was stored. -/
private theorem disconnect_quiet (h : Quiet w) (hrun : DefaultContainer.disconnect functions w = (.ret (), v)) :
    v.client = w.client ∧ ∀ c, Live v c → Live w c ∧ ¬ w.Stored c := by
  unfold DefaultContainer.disconnect at hrun
  rw [Code.bind_of_ret (Code.get_apply w)] at hrun
  obtain ⟨_, u, hnodes, hrun⟩ := Code.ret_of_bind hrun
  have nodes := disconnectEach_quiet h hnodes
  rw [Code.bind_of_ret (Code.modify_apply _ _), Code.bind_of_ret (Code.get_apply _)] at hrun
  obtain ⟨_, u', hredirects, hrun⟩ := Code.ret_of_bind hrun
  have quiet : Quiet (u.setNodes .empty) := nodes.quiet h
  have redirects := disconnectEach_quiet quiet hredirects
  cases hrun
  refine ⟨redirects.client.trans nodes.client, fun c hc => ?_⟩
  obtain ⟨hu, hr⟩ := redirects.live c hc
  obtain ⟨hw, hn⟩ := nodes.live c hu
  have same : (u.setNodes .empty).redirects = w.redirects := by
    rw [World.redirects_setNodes]
    unfold World.redirects
    rw [nodes.cluster]
  rw [same] at hr
  refine ⟨hw, ?_⟩
  rintro (⟨e, he, rfl⟩ | ⟨e, he, rfl⟩)
  · exact hn (List.mem_map_of_mem he)
  · exact hr (List.mem_map_of_mem he)

/-- The cluster is deleted and nothing is left that could use the `ConnectContext`. -/
structure Gone (w : World Lifetime) : Prop where
  deleted : w.client.deleted = true
  inCallback : w.client.inCallback = none
  dead : ∀ con, ¬ Live w con
  valid : ∀ a ∈ w.client.accesses, a.Valid

private theorem destruct_gone (h : InUse true w) (hsettled : Settled w) (hrun : destruct w = (.ret (), v)) :
    Gone v := by
  have noCallback : w.client.inCallback = none := by
    cases hin : w.client.inCallback with
    | none => rfl
    | some con =>
      -- its connection is alive and connected
      obtain ⟨hlive, hconnected⟩ := h.running con hin
      have idle := (hsettled con hlive).2.1
      rw [hconnected] at idle
      cases idle
  have quiet : Quiet (clusterDestructCB w).2 := ⟨noCallback, fun con hcon => (hsettled con hcon).2⟩
  have begun : clusterDestructCB w = (.ret (), (clusterDestructCB w).2) := rfl
  unfold destruct at hrun
  rw [Code.bind_of_ret begun] at hrun
  obtain ⟨_, u, hdisconnect, hrun⟩ := Code.ret_of_bind hrun
  obtain ⟨hclient, hlive⟩ := disconnect_quiet quiet hdisconnect
  cases hrun
  refine ⟨rfl, ?_, fun con hcon => ?_, ?_⟩
  · show u.client.inCallback = none
    rw [hclient]
    exact noCallback
  · obtain ⟨hw, hstored⟩ := hlive con hcon
    exact hstored (hsettled con hw).1
  · show ∀ a ∈ u.client.accesses, a.Valid
    rw [hclient]
    exact h.valid

/-- Nothing happens any more. -/
private theorem Gone.exec (h : Gone w) (x : Happening) (hrun : x.exec w = (.ret (), v)) : Gone v := by
  have notRunning : ¬ w.client.inCallback.isSome = true := by
    rw [h.inCallback]
    exact Bool.false_ne_true
  have unchanged : x ≠ .returned → x.exec w = (.ret (), w) := by
    intro hx
    cases x with
    | command key => exact congrFun (if_pos h.deleted) w
    | disconnect => exact congrFun (if_pos h.deleted) w
    | delete => exact congrFun (if_pos h.deleted) w
    | connected con => exact congrArg (Prod.mk _) (if_neg (h.dead con))
    | replied con => exact congrArg (Prod.mk _) (if_neg fun hreply => h.dead con hreply.1)
    | send con => exact congrFun (if_neg notRunning) w
    | createNewConnection host port connects => exact congrFun (if_neg notRunning) w
    | deleteCommand con => exact congrFun (if_neg notRunning) w
    | returned => exact absurd rfl hx
    | closed con => exact congrFun (if_neg fun hclose => h.dead con hclose.1) w
  by_cases hx : x = .returned
  · subst hx
    cases hrun
    exact ⟨h.deleted, rfl, h.dead, h.valid⟩
  · rw [unchanged hx] at hrun
    cases hrun
    exact h

/-! ### Runs -/

private theorem Created.inUse (h : Created w) : InUse true w := by
  obtain ⟨reply, connects, w₀, hw₀, hrun⟩ := h
  unfold createCluster at hrun
  obtain ⟨_, w₁, hcheck, hrun⟩ := Code.ret_of_bind hrun
  have unborn : w₁.client = .unborn connects := by
    have kept := checkCritical_preserves (I := fun v : World Lifetime => v.client = .unborn connects)
      (fun _ _ _ hclient _ h => hclient.trans h) reply true true [] w₀ hw₀
    rw [hcheck] at kept
    exact kept
  rw [Code.bind_of_ret (Code.modify_apply _ _)] at hrun
  obtain ⟨_, w₂, hconstruct, hrun⟩ := Code.ret_of_bind hrun
  rw [Code.bind_of_ret (Code.modify_apply _ _)] at hrun
  have allocated : InUse false (updClient w₁ fun c =>
      { c with data_ := { adapter := true, pcluster := false, lifetime := 0, freed := false } }) := by
    refine ⟨rfl, rfl, ?_, fun con hcon => ?_, fun a ha => ?_⟩
    · exact congrArg Lifetime.deleted unborn
    · cases (congrArg Lifetime.inCallback unborn).symm.trans hcon
    · have none_yet : w₁.client.accesses = [] := congrArg Lifetime.accesses unborn
      replace ha : a ∈ w₁.client.accesses := ha
      rw [none_yet] at ha
      exact absurd ha List.not_mem_nil
  have constructed :=
    Cluster.construct_preserves functions (InUse.ignoresCluster false) connect_inUse reply _ allocated
  rw [hconstruct] at constructed
  have assigned : InUse true (updClient w₂ fun c => { c with data_ := { c.data_ with pcluster := true } }) :=
    ⟨constructed.freed, rfl, constructed.deleted, constructed.running, constructed.valid⟩
  have made := freeReply_preserves (InUse.ignoresCluster true).tables reply _ assigned
  rw [show freeReply reply _ = (.ret (), w) from hrun] at made
  exact made

/-- In a run that deletes the cluster only when nothing is left of its connections, `connect` and `disconnectCb` find the
`ConnectContext` and `disconnectCb` finds the cluster. -/
theorem accesses_valid {hist : List (World Lifetime × Happening)} (r : TeardownRun w hist)
    (hdelete : ∀ p ∈ hist, p.2 = .delete → Settled p.1) : ∀ a ∈ w.client.accesses, a.Valid := by
  have inUse_or_gone : InUse true w ∨ Gone w := by
    refine Run.invariant_of (I := fun _ => True) (P := fun w => InUse true w ∨ Gone w)
      (C := fun w x => x = .delete → Settled w) (fun _ _ _ => trivial) (fun _ h => Or.inl h.inUse) ?_ r hdelete
    intro w x v _ h hc hrun
    rcases h with h | h
    · by_cases hx : x = .delete
      · subst hx
        refine Or.inr (destruct_gone h (hc rfl) ?_)
        have notDeleted : ¬ w.client.deleted = true := by
          rw [h.deleted]
          exact Bool.false_ne_true
        exact (congrFun (if_neg notDeleted) w).symm.trans hrun
      · have kept := exec_inUse h hx
        rw [hrun] at kept
        exact Or.inl kept
    · exact Or.inr (h.exec x hrun)
  rcases inUse_or_gone with h | h
  · exact h.valid
  · exact h.valid

/-- The state after something happened. -/
def next (w : World Lifetime) (x : Happening) : World Lifetime := (x.exec w).2

private theorem created_run {w : World Lifetime} (h : Created w) (xs : List Happening)
    (hrun : ∀ p ∈ trail next w xs, (p.2.exec p.1).1 = .ret ()) : TeardownRun (after next w xs) (trail next w xs) :=
  Run.follow (.start h) xs fun p hp => Prod.ext (hrun p hp) rfl

/-- The cluster of one node, just made. -/
def oneNode : World Lifetime :=
  (createCluster (.object 0 (.array [.array [.integer 0, .integer 16383,
    .array [.string (.ofText "10.0.0.1"), .integer 7000]]])) ⟨Cluster.initial, [], 1, [], .unborn []⟩).2

private theorem oneNode_created : Created oneNode := ⟨_, _, _, rfl, Prod.ext (by decide +kernel) rfl⟩

/-- `disconnect()` while a command waits, and the cluster is deleted after the connection has ended. -/
theorem accesses_valid_disconnect :
    let xs : List Happening :=
      [.connected 0, .command (text "k"), .disconnect, .replied 0, .returned, .closed 0, .delete]
    ∀ a ∈ (after next oneNode xs).client.accesses, a.Valid := by
  intro xs
  refine accesses_valid (created_run oneNode_created xs (by decide +kernel)) ?_
  have ended : ∀ x ∈ (after next oneNode xs.dropLast).contexts, x.disconnected = true := by decide +kernel
  have settled : Settled (after next oneNode xs.dropLast) := by
    rintro con ⟨⟨ctx, hctx, hdis⟩, -⟩
    rw [ended ctx (List.mem_of_getElem? hctx)] at hdis
    cases hdis
  simp only [xs, trail, List.forall_mem_cons, reduceCtorEq, false_imp_iff, true_and]
  exact ⟨fun _ => settled, fun p hp => absurd hp List.not_mem_nil⟩

/-- The cluster is deleted while its connection is idle: the destructor frees the `ConnectContext`, and `disconnectCb`
uses it when the container closes the connection. -/
theorem not_accesses_valid :
    let xs : List Happening := [.connected 0, .delete]
    TeardownRun (after next oneNode xs) (trail next oneNode xs) ∧
      ∃ a ∈ (after next oneNode xs).client.accesses, a.con = some 0 ∧ a.freed = true ∧ ¬ a.Valid := by
  intro xs
  refine ⟨created_run oneNode_created xs (by decide +kernel), ⟨some 0, true, true, false⟩, ?_, rfl, rfl, by decide⟩
  decide +kernel

end Teardown

end HiredisCluster
