import HiredisCluster.AsyncEffects

/-!
# The callback of a command

`processCommandReply` first finds the connection a redirection names (`ensureConnection`) and then settles the command
like `runRedisCallback`.  `commandAttempt` says what its `try` block does, as a function of the object, the reply and
the tables; an exception leaves the callback only when the port of the redirection is not a number
(`processCommandReply_settles`).
-/

namespace HiredisCluster

open Cxx AsyncHiredisCommand

namespace World

/-- Opening a connection leaves everything else as it was. -/
structure Dialled (w v : AsyncWorld) : Prop where
  client : ∃ connects lifetime, v.client = { w.client with
    choices := { w.client.choices with connects := connects },
    data_ := { w.client.data_ with lifetime := lifetime } }
  contexts : ∃ more, v.contexts = w.contexts ++ more ∧ ∀ x ∈ more, x.disconnecting = false ∧ x.disconnected = false
  nodes : v.nodes = w.nodes
  replies : v.replies = w.replies
  freed : v.freed = w.freed

/-- The outcome of the next connect is used up and the contexts `more` are created. -/
def dialled (w : AsyncWorld) (more : List Context) (n : Int) : AsyncWorld :=
  { w with
    contexts := w.contexts ++ more
    client := { w.client with
      choices := { w.client.choices with connects := w.client.choices.connects.tail }
      data_ := { w.client.data_ with lifetime := w.client.data_.lifetime + n } } }

private theorem dialled_dialled (w : AsyncWorld) {more : List Context} (n : Int)
    (h : ∀ x ∈ more, x.disconnecting = false ∧ x.disconnected = false) : w.Dialled (w.dialled more n) where
  client := ⟨_, _, rfl⟩
  contexts := ⟨more, rfl, h⟩
  nodes := rfl
  replies := rfl
  freed := rfl

theorem Dialled.refl (w : AsyncWorld) : w.Dialled w where
  client := ⟨_, _, rfl⟩
  contexts := ⟨[], by simp, by simp⟩
  nodes := rfl
  replies := rfl
  freed := rfl

variable (w : AsyncWorld)

/-- The next connection that is opened is healthy. -/
def Connects : Prop := w.client.data_.adapter = true ∧ w.client.choices.connects.headD .healthy = .healthy

instance : Decidable w.Connects := inferInstanceAs (Decidable (_ ∧ _))

end World

variable {w : AsyncWorld} {that : ObjPtr} {obj : AsyncHiredisCommand} {con : ConPtr}

/-- Opening an asynchronous connection fails with an exception or answers a new healthy context. -/
theorem connect_cases (hd : w.client.data_.freed = false) (host : Bytes) (port : Int32) :
    (¬ w.Connects ∧ ∃ v, w.Dialled v ∧ v.redirects = w.redirects ∧
        connect host port w = (.throws (.cluster .connectionFailed), v)) ∨
      (w.Connects ∧ ∃ v, w.Dialled v ∧ v.redirects = w.redirects ∧
        v.contexts = w.contexts ++ [Context.opened host port] ∧
        connect host port w = (.ret (some w.contexts.length), v)) := by
  have fails (more : List Context) (hmore : ∀ x ∈ more, x.disconnecting = false ∧ x.disconnected = false)
      (hc : w.client.choices.connects.headD .healthy ≠ .healthy)
      (hrun : connect host port w = (.throws (.cluster .connectionFailed), w.dialled more 0)) :
      ¬ w.Connects ∧ ∃ v, w.Dialled v ∧ v.redirects = w.redirects ∧
        connect host port w = (.throws (.cluster .connectionFailed), v) :=
    ⟨fun h => hc h.2, _, w.dialled_dialled 0 hmore, rfl, hrun⟩
  by_cases ha : w.client.data_.adapter = true
  · have hstart : connect host port w = _ := Code.bind_of_ret (Code.get_apply w) _
    rw [if_neg (by simp [hd]), if_neg (by simp [ha]), Code.bind_of_ret (Code.modify_apply _ w)] at hstart
    have hnone : w.dialled [] 0 = w.updClient fun c =>
        { c with choices := { c.choices with connects := c.choices.connects.tail } } := by
      simp only [World.dialled, List.append_nil, Int.add_zero]
      rfl
    have hone (x : Context) : w.dialled [x] 0 = (w.updClient fun c =>
        { c with choices := { c.choices with connects := c.choices.connects.tail } }).addContext x := by
      simp only [World.dialled, Int.add_zero]
      rfl
    -- the contexts of failed connects stay as they are, so each failure is a `dialled` world
    cases hc : w.client.choices.connects.headD .healthy with
    | null =>
      rw [hc] at hstart
      exact Or.inl (fails [] (by simp) (by rw [hc]; simp) (hstart.trans (congrArg (Prod.mk _) hnone.symm)))
    | broken errstr =>
      rw [hc] at hstart
      exact Or.inl (fails _ (by simp [Context.opened]) (by rw [hc]; simp) (hstart.trans (congrArg (Prod.mk _)
        (hone { Context.opened host port with err := true, errstr := errstr }).symm)))
    | attachFails =>
      rw [hc] at hstart
      exact Or.inl (fails _ (by simp [Context.opened]) (by rw [hc]; simp) (hstart.trans (congrArg (Prod.mk _)
        (hone (Context.opened host port)).symm)))
    | healthy =>
      rw [hc] at hstart
      exact Or.inr ⟨⟨ha, hc⟩, _, w.dialled_dialled 1 (by simp [Context.opened]), rfl, rfl, hstart⟩
  · left
    refine ⟨fun h => ha h.1, w, .refl w, rfl, ?_⟩
    simp [connect, hd, ha]

theorem World.Dialled.isOpen {v : AsyncWorld} (h : w.Dialled v) {c : ConPtr} (hc : w.Open c) : v.Open c := by
  obtain ⟨more, hmore, -⟩ := h.contexts
  obtain ⟨ctx, hctx, hdis⟩ := hc
  refine ⟨ctx, ?_, hdis⟩
  rw [hmore, List.getElem?_append_left (List.getElem?_eq_some_iff.1 hctx).1]
  exact hctx

/-- The context that was created first. -/
theorem World.Dialled.isOpen_new {v : AsyncWorld} (h : w.Dialled v) (hlt : w.contexts.length < v.contexts.length) :
    v.Open w.contexts.length := by
  obtain ⟨more, hmore, hfresh⟩ := h.contexts
  obtain ⟨ctx, hctx⟩ : ∃ ctx, v.contexts[w.contexts.length]? = some ctx := ⟨_, List.getElem?_eq_getElem hlt⟩
  refine ⟨ctx, hctx, (hfresh ctx ?_).2⟩
  rw [hmore, List.getElem?_append_right (Nat.le_refl _)] at hctx
  exact List.mem_of_getElem? hctx

/-- New connections accept messages, and nothing changes for the others. -/
private theorem World.Dialled.accepts_iff {v : AsyncWorld} (h : w.Dialled v) (c : ConPtr) (s : Status) :
    v.Accepts c s ↔ w.Accepts c s := by
  obtain ⟨more, hmore, hfresh⟩ := h.contexts
  apply and_congr_right
  intro _
  rw [hmore]
  constructor
  · intro hv ctx hctx
    exact hv ctx (by rw [List.getElem?_append_left (List.getElem?_eq_some_iff.1 hctx).1]; exact hctx)
  · intro hw ctx hctx
    by_cases hlt : c < w.contexts.length
    · rw [List.getElem?_append_left hlt] at hctx
      exact hw ctx hctx
    · rw [List.getElem?_append_right (Nat.le_of_not_lt hlt)] at hctx
      exact (hfresh ctx (List.mem_of_getElem? hctx)).1

/-- No connection is known for a redirection, and `std::stoi` throws `e` on its port. -/
def World.PortFails (w : AsyncWorld) (host port : Bytes) (e : StdException) : Prop :=
  w.redirects.lookup (DefaultContainer.hostKey host port) = none ∧ stoi port = .throws e

/-- `createNewConnection` answers the cached connection, fails on the port, fails to connect, or answers a new
connection that is cached from then on. -/
theorem createNewConnection_cases (hd : w.client.data_.freed = false) (host port : Bytes) :
    (∃ c, w.redirects.lookup (DefaultContainer.hostKey host port) = some c ∧
        Cluster.createNewConnection functions host port w =
          (.ret (DefaultContainer.hostKey host port, some c), w)) ∨
      (∃ e, w.PortFails host port e ∧
        Cluster.createNewConnection functions host port w = (.throws (.std e), w)) ∨
      (w.redirects.lookup (DefaultContainer.hostKey host port) = none ∧ (∃ n, stoi port = .ret n) ∧
        ((¬ w.Connects ∧ ∃ v, w.Dialled v ∧ v.redirects = w.redirects ∧
            Cluster.createNewConnection functions host port w = (.throws (.cluster .connectionFailed), v)) ∨
          (w.Connects ∧ ∃ v, w.Dialled v ∧ w.contexts.length < v.contexts.length ∧
            v.redirects = w.redirects.insert (DefaultContainer.hostKey host port) w.contexts.length ∧
            Cluster.createNewConnection functions host port w =
              (.ret (DefaultContainer.hostKey host port, some w.contexts.length), v)))) := by
  unfold Cluster.createNewConnection DefaultContainer.insertHost
  rw [Code.bind_of_ret (Code.get_apply w)]
  cases hl : w.redirects.lookup (DefaultContainer.hostKey host port) with
  | some c => left; exact ⟨c, rfl, rfl⟩
  | none =>
    right
    rcases stoi_cases port with ⟨n, hn⟩ | ⟨e, he⟩
    · right
      refine ⟨rfl, ⟨n, hn⟩, ?_⟩
      have hport : (Code.lift ((stoi port).mapThrows .std) : Async Int32) w = (.ret n, w) := by rw [hn]; rfl
      dsimp only
      rw [Code.bind_of_ret hport]
      rcases connect_cases hd (cStr host) n with ⟨hno, v, hv, hr, hrun⟩ | ⟨hyes, v, hv, hr, hctx, hrun⟩
      · left
        exact ⟨hno, v, hv, hr, Code.bind_of_throws hrun _⟩
      · right
        have herr : errOf w.contexts.length v = (.ret false, v) :=
          errOf_eq (x := Context.opened (cStr host) n) (by rw [hctx]; simp)
        refine ⟨hyes, v.setRedirects (v.redirects.insert (DefaultContainer.hostKey host port) w.contexts.length),
          ⟨hv.client, hv.contexts, hv.nodes, hv.replies, hv.freed⟩, ?_, ?_, ?_⟩
        · show w.contexts.length < v.contexts.length
          rw [hctx]
          simp
        · rw [hr]
          rfl
        · exact (Code.bind_of_ret hrun _).trans (Code.bind_of_ret herr _)
    · left
      have hport : (Code.lift ((stoi port).mapThrows .std) : Async Int32) w = (.throws (.std e), w) := by rw [he]; rfl
      exact ⟨e, ⟨hl, he⟩, Code.bind_of_throws hport _⟩

/-- The connection a redirection is followed on: the one the object has, else the cached one, else a new one. -/
def World.redirectTarget (w : AsyncWorld) (obj : AsyncHiredisCommand) (host port : Bytes) : Option ConPtr :=
  match obj.con_.2 with
  | some c => some c
  | none =>
    match w.redirects.lookup (DefaultContainer.hostKey host port) with
    | some c => some c
    | none => if w.Connects then some w.contexts.length else none

/-- `Cluster::moved` was executed for each of the elements, which tell whether it threw. -/
def World.announced (w : AsyncWorld) (moves : List Bool) : AsyncWorld :=
  w.updClient fun c => { c with trace := c.trace ++ moves.map Event.moved }

private theorem World.announced_nil (w : AsyncWorld) : w.announced [] = w := by
  unfold World.announced
  simp only [List.map_nil, List.append_nil]
  rfl

/-- From `w` to `v` the object got the connection `target` for the address `key`, unless it had one or none could be
made. -/
structure Linked (that : ObjPtr) (obj obj' : AsyncHiredisCommand) (target : Option ConPtr) (w v : AsyncWorld) :
    Prop where
  dialled : ∃ moves u, (w.announced moves).Dialled u ∧ v = u.updClient fun c => { c with objects := c.objects.set that obj' }
  link : (obj' = obj ∧ v.redirects = w.redirects ∧ ∀ c, target = some c → obj.con_.2 = some c) ∨
    (obj.con_.2 = none ∧ ∃ key c, target = some c ∧ obj' = { obj with con_ := (key, some c) } ∧
      ((w.redirects.lookup key = some c ∧ v.redirects = w.redirects) ∨
        (w.redirects.lookup key = none ∧ c = w.contexts.length ∧ c < v.contexts.length ∧
          v.redirects = w.redirects.insert key c)))

theorem set_eq_self {α : Type} {l : List α} {i : Nat} {a : α} (h : l[i]? = some a) : l.set i a = l := by
  apply List.ext_getElem?
  intro j
  rw [List.getElem?_set]
  split
  · rename_i hij
    subst hij
    rw [h]
    simp [(List.getElem?_eq_some_iff.1 h).1]
  · rfl

namespace Linked

variable {obj' : AsyncHiredisCommand} {target : Option ConPtr} {v : AsyncWorld}

theorem kept (hw : w.Holds that obj) (hv : w.Dialled v) (hr : v.redirects = w.redirects)
    (ht : ∀ c, target = some c → obj.con_.2 = some c) : Linked that obj obj target w v := by
  refine ⟨⟨[], v, w.announced_nil.symm ▸ hv, ?_⟩, Or.inl ⟨rfl, hr, ht⟩⟩
  obtain ⟨connects, lifetime, hcl⟩ := hv.client
  have hset : v.client.objects.set that obj = v.client.objects := set_eq_self (by rw [hcl]; exact hw.1)
  simp only [World.updClient, hset]
  rfl

theorem holds (h : Linked that obj obj' target w v) (hw : w.Holds that obj) : v.Holds that obj' := by
  obtain ⟨⟨moves, u, hu, rfl⟩, hlink⟩ := h
  obtain ⟨connects, lifetime, hcl⟩ := hu.client
  constructor
  · show (u.client.objects.set that obj')[that]? = _
    rw [hcl]
    exact List.getElem?_set_self (List.getElem?_eq_some_iff.1 hw.1).1
  · rcases hlink with ⟨rfl, -⟩ | ⟨-, key, c, -, rfl, -⟩
    · exact hw.2
    · exact hw.2

theorem isOpen (h : Linked that obj obj' target w v) {c : ConPtr} (hc : w.Open c) : v.Open c := by
  obtain ⟨⟨moves, u, hu, rfl⟩, -⟩ := h
  exact hu.isOpen hc

theorem accepts_iff (h : Linked that obj obj' target w v) (c : ConPtr) (s : Status) :
    v.Accepts c s ↔ w.Accepts c s := by
  obtain ⟨⟨moves, u, hu, rfl⟩, -⟩ := h
  exact hu.accepts_iff c s

/-- The cache is as it was, or it has one more entry, whose connection is new. -/
theorem redirects_cases (h : Linked that obj obj' target w v) : v.redirects = w.redirects ∨
    ∃ key, w.redirects.lookup key = none ∧ v.redirects = w.redirects.insert key w.contexts.length ∧
      v.Open w.contexts.length := by
  rcases h with ⟨⟨moves, u, hu, rfl⟩, ⟨-, hr, -⟩ | ⟨-, key, c, -, -, ⟨-, hr⟩ | ⟨hl, rfl, hlt, hr⟩⟩⟩
  · exact Or.inl hr
  · exact Or.inl hr
  · exact Or.inr ⟨key, hl, hr, hu.isOpen_new hlt⟩

/-- What was cached stays cached. -/
theorem lookup (h : Linked that obj obj' target w v) {key : Bytes} {c : ConPtr}
    (hc : w.redirects.lookup key = some c) : v.redirects.lookup key = some c := by
  rcases h.redirects_cases with hr | ⟨key', hl, hr, -⟩
  · rw [hr]
    exact hc
  · rw [hr]
    exact OrderedMap.lookup_insert_of_some _ hl hc

/-- The connection of the object is cached. -/
theorem lookup_con (h : Linked that obj obj' target w v)
    (hobj : ∀ c, obj.con_.2 = some c → w.redirects.lookup obj.con_.1 = some c) {c : ConPtr}
    (hc : obj'.con_.2 = some c) : v.redirects.lookup obj'.con_.1 = some c := by
  rcases h.link with ⟨rfl, -⟩ | ⟨-, key, c', -, rfl, ⟨hl, -⟩ | ⟨hl, rfl, -, hr⟩⟩
  · exact h.lookup (hobj c hc)
  · cases hc
    exact h.lookup hl
  · cases hc
    rw [hr]
    exact OrderedMap.lookup_insert_self _ _ hl

/-- The connection the object has in the end exists. -/
private theorem isOpen_con (h : Linked that obj obj' target w v) (hcached : ∀ c, w.Stored c → w.Open c)
    (hobj : ∀ c, obj.con_.2 = some c → w.Open c) {c : ConPtr} (hc : obj'.con_.2 = some c) : v.Open c := by
  rcases h.link with ⟨rfl, -⟩ | ⟨-, key, c', -, rfl, ⟨hl, -⟩ | ⟨hl, rfl, -, hr⟩⟩
  · exact h.isOpen (hobj c hc)
  · cases hc
    obtain ⟨e, he, -, rfl⟩ := (OrderedMap.lookup_eq_some_iff _ _ _).1 hl
    exact h.isOpen (hcached _ (Or.inr ⟨e, he, rfl⟩))
  · cases hc
    rcases h.redirects_cases with hr' | ⟨_, -, -, hopen⟩
    · have hin := OrderedMap.lookup_insert_self w.redirects w.contexts.length hl
      rw [← hr, hr', hl] at hin
      cases hin
    · exact hopen

end Linked

/-- Before it sends a message the object gets a connection, unless the port or the connect fails. -/
private theorem ensureConnection_cases (h : w.Holds that obj) (hd : w.client.data_.freed = false) (host port : Bytes) :
    (∃ e, obj.con_.2 = none ∧ w.PortFails host port e ∧ ensureConnection that host port w = (.throws (.std e), w)) ∨
      (¬ (∃ e, obj.con_.2 = none ∧ w.PortFails host port e) ∧ w.redirectTarget obj host port = none ∧
        ∃ v, Linked that obj obj none w v ∧
          ensureConnection that host port w = (.throws (.cluster .connectionFailed), v)) ∨
      (¬ (∃ e, obj.con_.2 = none ∧ w.PortFails host port e) ∧ ∃ c obj' v,
        w.redirectTarget obj host port = some c ∧ obj'.con_.2 = some c ∧ obj'.cmd_ = obj.cmd_ ∧
          Linked that obj obj' (some c) w v ∧ ensureConnection that host port w = (.ret (), v)) := by
  have hcreate := createNewConnection_cases hd host port
  have hstart : ensureConnection that host port w = (if obj.con_.2 = none then
      Cluster.createNewConnection functions host port >>= fun con =>
        Code.modify fun w => w.updObject that fun o => { o with con_ := con } else pure ()) w :=
    Code.bind_of_ret (object_eq h) _
  cases hc : obj.con_.2 with
  | some c =>
    -- the object keeps its connection
    right; right
    rw [hc, if_neg (by simp)] at hstart
    refine ⟨by simp, c, obj, w, by simp [World.redirectTarget, hc], hc, rfl, ?_, hstart⟩
    exact .kept h (.refl w) rfl fun _ hx => hc.trans hx
  | none =>
    rw [if_pos hc] at hstart
    rcases hcreate with ⟨c, hl, hrun⟩ | ⟨e, he, hrun⟩ | ⟨hl, ⟨n, hn⟩, hno | hyes⟩
    · right; right
      refine ⟨?_, c, { obj with con_ := (DefaultContainer.hostKey host port, some c) }, _, ?_, rfl, rfl, ?_,
        hstart.trans (Code.bind_of_ret hrun _)⟩
      · rintro ⟨e, -, he, -⟩
        rw [hl] at he
        cases he
      · simp [World.redirectTarget, hc, hl]
      · refine ⟨⟨[], w, w.announced_nil.symm ▸ .refl w, ?_⟩, Or.inr ⟨hc, _, c, rfl, rfl, Or.inl ⟨hl, rfl⟩⟩⟩
        exact updObject_eq h.1 _
    · left
      exact ⟨e, rfl, he, hstart.trans (Code.bind_of_throws hrun _)⟩
    · obtain ⟨hconn, v, hv, hr, hrun⟩ := hno
      right; left
      refine ⟨?_, ?_, v, .kept h hv hr (by simp), hstart.trans (Code.bind_of_throws hrun _)⟩
      · rintro ⟨e, -, -, he⟩
        rw [hn] at he
        cases he
      · simp [World.redirectTarget, hc, hl, hconn]
    · obtain ⟨hconn, v, hv, hlt, hr, hrun⟩ := hyes
      obtain ⟨connects, lifetime, hcl⟩ := hv.client
      have hobj : v.client.objects[that]? = some obj := by rw [hcl]; exact h.1
      right; right
      refine ⟨?_, w.contexts.length, { obj with con_ := (DefaultContainer.hostKey host port, some w.contexts.length) },
        _, ?_, rfl, rfl, ?_, hstart.trans (Code.bind_of_ret hrun _)⟩
      · rintro ⟨e, -, -, he⟩
        rw [hn] at he
        cases he
      · simp [World.redirectTarget, hc, hl, hconn]
      · refine ⟨⟨[], v, w.announced_nil.symm ▸ hv, ?_⟩, Or.inr ⟨hc, _, _, rfl, rfl, Or.inr ⟨hl, rfl, hlt, hr⟩⟩⟩
        exact updObject_eq hobj _

/-! ### `processCommandReply` -/

/-- What the moved callback throws. -/
def World.movedException (w : AsyncWorld) : Option Exn :=
  if w.cluster.userMovedFn_ then w.client.choices.movedCb else none

/-- After `moved`, which has thrown or not. -/
def World.afterMoved (w : AsyncWorld) (threw : Bool) : AsyncWorld :=
  (w.updCluster fun c => { c with moved_ := true }).record (.moved threw)

theorem clusterMoved_eq (w : AsyncWorld) : clusterMoved w =
    (match w.movedException with
      | none => .ret ()
      | some e => .throws e, w.afterMoved w.movedException.isSome) := by
  have hrun : Cluster.moved functions w =
      (match w.movedException with
        | none => .ret ()
        | some e => .throws e, w.updCluster fun c => { c with moved_ := true }) := by
    unfold Cluster.moved World.movedException
    rw [Code.bind_of_ret (Code.modify_apply _ w), Code.bind_of_ret (Code.get_apply _)]
    by_cases hu : w.cluster.userMovedFn_ = true
    · simp only [World.cluster_updCluster, hu, ↓reduceIte, functions, World.client_updCluster]
      cases w.client.choices.movedCb <;> rfl
    · simp only [World.cluster_updCluster, hu]
      rfl
  unfold clusterMoved
  rw [hrun]
  cases w.movedException <;> rfl

/-- `moved` came before the object got its connection. -/
private theorem Linked.of_afterMoved {obj' : AsyncHiredisCommand} {target : Option ConPtr} {threw : Bool}
    {v : AsyncWorld} (h : Linked that obj obj' target (w.afterMoved threw) v) : Linked that obj obj' target w v := by
  obtain ⟨⟨moves, u, hu, hv⟩, hlink⟩ := h
  have hclient : ((w.afterMoved threw).announced moves).client = (w.announced (threw :: moves)).client := by
    simp [World.afterMoved, World.announced, World.record, World.updClient]
  have hdialled := hu.client
  rw [hclient] at hdialled
  exact ⟨⟨threw :: moves, u, ⟨hdialled, hu.contexts, hu.nodes, hu.replies, hu.freed⟩, hv⟩, hlink⟩

/-- The end of `processCommandReply`, with the state and the result of its `try` block. -/
def conclude (con : ConPtr) (r : ReplyPtr) (that : ObjPtr) (state : ProcessState) :
    Except ClusterException Action → Async Unit
  | .ok commandState => complete con r that commandState
  | .error ce => wantsRetry that ce state >>= fun b =>
    if b = true then complete con r that .retry else complete con r that .finish

/-- The connection a message goes to. -/
def Attempt.target : Attempt → Option ConPtr
  | sends req => some req.con
  | _ => none

/-- The message that follows a redirection. -/
def Attempt.follow (that : ObjPtr) (callback : Callback) (message : Message) : Option ConPtr → Attempt
  | some c => .sends ⟨c, callback, that, message⟩
  | none => .fails

private theorem Attempt.target_follow (that : ObjPtr) (callback : Callback) (message : Message) (t : Option ConPtr) :
    (Attempt.follow that callback message t).target = t := by
  cases t <;> rfl

/-- What the `try` block of `processCommandReply` does. -/
def World.commandAttempt (w : AsyncWorld) (that : ObjPtr) (obj : AsyncHiredisCommand) (reply : RedisReply) : Attempt :=
  if reply.mentionsClusterDown then .fails
  else
    match processResult reply with
    | .ret (.ready, _, _) => .ready
    | .ret (.ask, host, port) =>
      .follow that .runRedisCallback (.format (text "ASKING")) (w.redirectTarget obj host port)
    | .ret (.moved, host, port) =>
      if w.movedException.isSome then .fails
      else .follow that .processCommandReply (.formatted obj.cmd_) (w.redirectTarget obj host port)
    | _ => .fails

/-- The redirection in a reply fails on its port, or the moved callback throws a standard exception. -/
def World.Escapes (w : AsyncWorld) (obj : AsyncHiredisCommand) (reply : RedisReply) (e : StdException) : Prop :=
  reply.mentionsClusterDown = false ∧ ∃ host port,
    (processResult reply = .ret (.ask, host, port) ∧ obj.con_.2 = none ∧ w.PortFails host port e) ∨
      (processResult reply = .ret (.moved, host, port) ∧ (w.movedException = some (.std e) ∨
        (w.movedException = none ∧ obj.con_.2 = none ∧ w.PortFails host port e)))

section callback

variable {a : Nat} {reply : RedisReply}

variable (reply) in
/-- Following a redirection: the object gets its connection, a message is sent on it, and the callback settles the
command. -/
private theorem follow_settles (h : w.Holds that obj) (hd : w.client.data_.freed = false) (hcon : w.Open con)
    (hobj : ∀ c, obj.con_.2 = some c → w.Open c) (hcached : ∀ c, w.Stored c → w.Open c) (ha : a ∉ w.freed)
    (host port : Bytes) (state : ProcessState) (callback : Callback) (message : Message) (act : Action)
    (hact : act = .ask ∨ act = .redirect) (e : ClusterException) {send : Async Action}
    (hsend : ∀ v obj' c, v.Holds that obj' → obj'.cmd_ = obj.cmd_ → obj'.con_.2 = some c →
      send v = (redisAsyncSend (some c) callback that message >>= fun s =>
        if s = .ok then pure act else Code.throws (.cluster e)) v) :
    (∃ e', obj.con_.2 = none ∧ w.PortFails host port e' ∧
        Code.attempt Exn.clusterException (ensureConnection that host port >>= fun _ => send) w =
          (.throws (.std e'), w)) ∨
      (¬ (∃ e', obj.con_.2 = none ∧ w.PortFails host port e') ∧ ∃ obj' v w',
        (Code.attempt Exn.clusterException (ensureConnection that host port >>= fun _ => send) >>=
            conclude con (.object a reply) that state) w = (.ret (), w') ∧
          Linked that obj obj' (w.redirectTarget obj host port) w v ∧
          Settles that obj' con reply (.follow that callback message (w.redirectTarget obj host port)) v w') := by
  rcases ensureConnection_cases h hd host port with ⟨e', hc, he, hrun⟩ | ⟨hport, ht, v, hl, hrun⟩ |
    ⟨hport, c, obj', v, ht, hc, hcmd, hl, hrun⟩
  · left
    exact ⟨e', hc, he, Exn.passed (Code.bind_of_throws hrun _)⟩
  -- no connection: `ConnectionFailedException` is caught before anything was sent
  · right
    have hv : v.freed = w.freed := by obtain ⟨⟨moves, u, hu, rfl⟩, -⟩ := hl; exact hu.freed
    obtain ⟨w', hrest, hset⟩ := settles_fails reply (hl.holds h) (hl.isOpen hcon)
      (fun c hc => hl.isOpen (hobj c hc)) (hv ▸ ha) .connectionFailed state
    refine ⟨hport, obj, v, w', ?_, ht ▸ hl, by rw [ht]; exact hset⟩
    exact (Code.bind_of_ret (Exn.caught (Code.bind_of_throws hrun _)) _).trans hrest
  · right
    have hv : v.freed = w.freed := by obtain ⟨⟨moves, u, hu, rfl⟩, -⟩ := hl; exact hu.freed
    have hopen : ∀ c, obj'.con_.2 = some c → v.Open c := fun c hc => hl.isOpen_con hcached hobj hc
    refine ⟨hport, obj', v, ?_⟩
    rw [ht]
    obtain ⟨ch, hact', hsub, hsends, ⟨hacc, hs⟩ | ⟨hacc, hs⟩⟩ :=
      redisAsyncSend_cases (hopen c hc) callback that message
    · refine ⟨_, ?_, hl, settles_sent reply ⟨c, callback, that, message⟩ hacc ch⟩
      have htry := (Code.bind_of_ret hrun (fun _ => send)).trans ((hsend v obj' c (hl.holds h) hcmd hc).trans
        (Code.bind_of_ret hs _))
      refine (Code.bind_of_ret (Code.attempt_ret htry) _).trans ?_
      rcases hact with rfl | rfl <;> rfl
    · obtain ⟨w', hrest, hset⟩ := settles_refused reply (hl.holds h) (hl.isOpen hcon) hopen (hv ▸ ha)
        ⟨c, callback, that, message⟩ hacc hact' hsub hsends e state
      refine ⟨w', ?_, hl, hset⟩
      have htry := (Code.bind_of_ret hrun (fun _ => send)).trans ((hsend v obj' c (hl.holds h) hcmd hc).trans
        (Code.bind_of_ret hs _))
      exact (Code.bind_of_ret (Exn.caught htry) _).trans hrest

theorem processCommandReply_of_throws {e : ClusterException}
    (hclass : checkCritical (m := Code AsyncWorld Exn) (.object a reply) false false [] none w =
      (.throws (.cluster e), w)) :
    processCommandReply con (.object a reply) that w = conclude con (.object a reply) that .failed (.error e) w :=
  (Code.bind_of_ret (Exn.caught (Code.bind_of_throws hclass _)) _).trans rfl

section up

variable {state : ProcessState} {host port : Bytes} (ha : a ∉ w.freed) (hdown : reply.mentionsClusterDown = false)
  (hres : processResult reply = .ret (state, host, port))

include ha hdown hres

/-- The classification of a reply that does not mention `CLUSTERDOWN`. -/
private theorem classify_of_up :
    Code.attempt Exn.clusterException (checkCritical (m := Code AsyncWorld Exn) (.object a reply) false false [] none >>=
      fun _ => readReply (.object a reply) >>= fun reply => outcome (processResult reply)) w =
        (.ret (.ok (state, host, port)), w) := by
  have hclass := checkCritical_eq ha reply
  rw [hdown, if_neg (by decide)] at hclass
  have hlift : (outcome (processResult reply) : Async (ProcessState × Bytes × Bytes)) w =
      (.ret (state, host, port), w) := by
    rw [hres]
    rfl
  have hread := derefReply_object ha reply
  exact Code.attempt_ret ((Code.bind_of_ret hclass _).trans ((Code.bind_of_ret hread _).trans hlift))

variable (that con) in
theorem processCommandReply_of_up : processCommandReply con (.object a reply) that w =
    (Code.attempt Exn.clusterException (followState that state host port) >>=
      conclude con (.object a reply) that state) w :=
  (Code.bind_of_ret (classify_of_up ha hdown hres) _).trans rfl

end up

private theorem escapes_of_ask (hdown : reply.mentionsClusterDown = false) {host port : Bytes}
    (hres : processResult reply = .ret (.ask, host, port)) (e : StdException) :
    w.Escapes obj reply e ↔ obj.con_.2 = none ∧ w.PortFails host port e := by
  constructor
  · rintro ⟨-, host', port', ⟨hask, hc, he⟩ | ⟨hmoved, -⟩⟩
    · rw [hres] at hask
      cases hask
      exact ⟨hc, he⟩
    · rw [hres] at hmoved
      cases hmoved
  · rintro ⟨hc, he⟩
    exact ⟨hdown, host, port, Or.inl ⟨hres, hc, he⟩⟩

private theorem escapes_of_moved (hdown : reply.mentionsClusterDown = false) {host port : Bytes}
    (hres : processResult reply = .ret (.moved, host, port)) (e : StdException) :
    w.Escapes obj reply e ↔ w.movedException = some (.std e) ∨
      (w.movedException = none ∧ obj.con_.2 = none ∧ w.PortFails host port e) := by
  constructor
  · rintro ⟨-, host', port', ⟨hask, -⟩ | ⟨hmoved, he⟩⟩
    · rw [hres] at hask
      cases hask
    · rw [hres] at hmoved
      cases hmoved
      exact he
  · intro he
    exact ⟨hdown, host, port, Or.inr ⟨hres, he⟩⟩

/-- An exception of the standard library leaves `processCommandReply`, or it settles the command. -/
def ReplyHandled (w : AsyncWorld) (that : ObjPtr) (obj : AsyncHiredisCommand) (con : ConPtr) (a : Nat)
    (reply : RedisReply) : Prop :=
  (∃ e v, w.Escapes obj reply e ∧ processCommandReply con (.object a reply) that w = (.throws (.std e), v)) ∨
    ((¬ ∃ e, w.Escapes obj reply e) ∧ ∃ obj' v w',
      processCommandReply con (.object a reply) that w = (.ret (), w') ∧
        Linked that obj obj' (w.commandAttempt that obj reply).target w v ∧
        Settles that obj' con reply (w.commandAttempt that obj reply) v w')

/-- A reply that mentions `CLUSTERDOWN`. -/
private theorem replyHandled_down (h : w.Holds that obj) (hcon : w.Open con)
    (hobj : ∀ c, obj.con_.2 = some c → w.Open c)
    (ha : a ∉ w.freed) (hdown : reply.mentionsClusterDown = true) : ReplyHandled w that obj con a reply := by
  right
  have hcheck := checkCritical_eq ha reply
  rw [hdown, if_pos rfl] at hcheck
  obtain ⟨w', hrun, hset⟩ := settles_fails reply h hcon hobj ha .clusterDown .failed
  have hatt : w.commandAttempt that obj reply = .fails := by simp [World.commandAttempt, hdown]
  refine ⟨?_, obj, w, w', (processCommandReply_of_throws hcheck).trans hrun, hatt ▸ .kept h (.refl w) rfl ?_,
    hatt ▸ hset⟩
  · rintro ⟨e, he, -⟩
    rw [hdown] at he
    cases he
  · intro c hc
    cases hc

section up

variable (hdown : reply.mentionsClusterDown = false) (h : w.Holds that obj)
  (hobj : ∀ c, obj.con_.2 = some c → w.Open c) (ha : a ∉ w.freed)

include hdown h hobj ha

/-- A reply that is no redirection. -/
private theorem replyHandled_ready (con : ConPtr) (hres : processResult reply = .ret (.ready, [], [])) :
    ReplyHandled w that obj con a reply := by
  right
  obtain ⟨w', hrun, hset⟩ := settles_ready con reply h hobj ha
  have hatt : w.commandAttempt that obj reply = .ready := by simp [World.commandAttempt, hdown, hres]
  refine ⟨?_, obj, w, w', ?_, hatt ▸ .kept h (.refl w) rfl ?_, hatt ▸ hset⟩
  · rintro ⟨e, -, host, port, ⟨hask, -⟩ | ⟨hmoved, -⟩⟩
    · rw [hres] at hask
      cases hask
    · rw [hres] at hmoved
      cases hmoved
  · exact (processCommandReply_of_up that con ha hdown hres).trans hrun
  · intro c hc
    cases hc

variable (hd : w.client.data_.freed = false) (hcon : w.Open con) (hcached : ∀ c, w.Stored c → w.Open c)
  {host port : Bytes}

include hd hcon hcached

private theorem replyHandled_ask (hres : processResult reply = .ret (.ask, host, port)) :
    ReplyHandled w that obj con a reply := by
  have hrun := processCommandReply_of_up that con ha hdown hres
  have hatt : w.commandAttempt that obj reply =
      .follow that .runRedisCallback (.format (text "ASKING")) (w.redirectTarget obj host port) := by
    simp [World.commandAttempt, hdown, hres]
  have hsend (v : AsyncWorld) (obj' : AsyncHiredisCommand) (c : ConPtr) (hv : v.Holds that obj')
      (_ : obj'.cmd_ = obj.cmd_) (hc : obj'.con_.2 = some c) :
      (object that >>= fun obj => redisAsyncSend obj.con_.2 .runRedisCallback that (.format (text "ASKING")) >>=
        fun s => if s = .ok then pure Action.ask else Code.throws (.cluster .askingFailed)) v =
      (redisAsyncSend (some c) .runRedisCallback that (.format (text "ASKING")) >>=
        fun s => if s = .ok then pure Action.ask else Code.throws (.cluster .askingFailed)) v := by
    rw [Code.bind_of_ret (object_eq hv), hc]
  rcases follow_settles reply h hd hcon hobj hcached ha host port .ask .runRedisCallback (.format (text "ASKING")) .ask
    (Or.inl rfl) .askingFailed hsend with ⟨e, hc, he, hfollow⟩ | ⟨hno, obj', v, w', hfollow, hl, hs⟩
  · left
    exact ⟨e, w, (escapes_of_ask hdown hres e).2 ⟨hc, he⟩, hrun.trans (Code.bind_of_throws hfollow _)⟩
  · right
    refine ⟨fun ⟨e, he⟩ => hno ⟨e, (escapes_of_ask hdown hres e).1 he⟩, obj', v, w', hrun.trans hfollow, ?_, hatt ▸ hs⟩
    rw [hatt, Attempt.target_follow]
    exact hl

omit hd hcached in
/-- The moved callback throws. -/
private theorem replyHandled_movedThrows (hres : processResult reply = .ret (.moved, host, port)) {ex : Exn}
    (hex : w.movedException = some ex) : ReplyHandled w that obj con a reply := by
  have hrun := processCommandReply_of_up that con ha hdown hres
  have hmoved := clusterMoved_eq w
  rw [hex] at hmoved
  let w₁ := w.afterMoved true
  have htry : followState that .moved host port w = (.throws ex, w₁) := Code.bind_of_throws hmoved _
  cases ex with
  | std e =>
    left
    exact ⟨e, w₁, (escapes_of_moved hdown hres e).2 (Or.inl hex), hrun.trans (Code.bind_of_throws (Exn.passed htry) _)⟩
  | cluster e =>
    right
    have hatt : w.commandAttempt that obj reply = .fails := by simp [World.commandAttempt, hdown, hres, hex]
    obtain ⟨w', hend, hset⟩ := settles_fails (w := w₁) reply h hcon hobj ha e .moved
    refine ⟨?_, obj, w₁, w', hrun.trans ((Code.bind_of_ret (Exn.caught htry) _).trans hend), hatt ▸ ?_, hatt ▸ hset⟩
    · rintro ⟨e, he⟩
      rw [escapes_of_moved hdown hres, hex] at he
      simp at he
    · exact .of_afterMoved (.kept (w := w₁) h (.refl w₁) rfl (by simp [Attempt.target]))

private theorem replyHandled_moved (hres : processResult reply = .ret (.moved, host, port))
    (hex : w.movedException = none) :
    ReplyHandled w that obj con a reply := by
  have hrun := processCommandReply_of_up that con ha hdown hres
  have hmoved := clusterMoved_eq w
  rw [hex] at hmoved
  have hatt : w.commandAttempt that obj reply =
      .follow that .processCommandReply (.formatted obj.cmd_) (w.redirectTarget obj host port) := by
    simp [World.commandAttempt, hdown, hres, hex]
  have hsend (v : AsyncWorld) (obj' : AsyncHiredisCommand) (c : ConPtr) (hv : v.Holds that obj')
      (hcmd : obj'.cmd_ = obj.cmd_) (hc : obj'.con_.2 = some c) :
      (object that >>= fun obj => processHiredisCommand that obj.con_.2 >>=
        fun s => if s = .ok then pure Action.redirect else Code.throws (.cluster .movedFailed)) v =
      (redisAsyncSend (some c) .processCommandReply that (.formatted obj.cmd_) >>=
        fun s => if s = .ok then pure Action.redirect else Code.throws (.cluster .movedFailed)) v := by
    rw [Code.bind_of_ret (object_eq hv), hc, Code.bind_apply, Code.bind_apply, processHiredisCommand_eq hv, hcmd]
  have htry := Code.attempt_congr Exn.clusterException (Code.bind_of_ret hmoved fun _ =>
    ensureConnection that host port >>= fun _ => object that >>= fun obj => processHiredisCommand that obj.con_.2 >>=
      fun s => if s = .ok then pure Action.redirect else Code.throws (.cluster .movedFailed))
  let w₁ := w.afterMoved false
  rcases follow_settles (w := w₁) reply h hd hcon hobj hcached ha host port .moved .processCommandReply
    (.formatted obj.cmd_) .redirect (Or.inr rfl) .movedFailed hsend with
    ⟨e, hc, he, hfollow⟩ | ⟨hno, obj', v, w', hfollow, hl, hs⟩
  · left
    exact ⟨e, w₁, (escapes_of_moved hdown hres e).2 (Or.inr ⟨hex, hc, he⟩),
      hrun.trans (Code.bind_of_throws (htry.trans hfollow) _)⟩
  · right
    refine ⟨?_, obj', v, w', ?_, ?_, hatt ▸ hs⟩
    · rintro ⟨e, he⟩
      rcases (escapes_of_moved hdown hres e).1 he with hthrown | ⟨-, hfails⟩
      · rw [hex] at hthrown
        cases hthrown
      · exact hno ⟨e, hfails⟩
    · refine hrun.trans (Eq.trans ?_ hfollow)
      exact congrArg (andThen · _) htry
    · rw [hatt, Attempt.target_follow]
      exact hl.of_afterMoved

end up

/-- The callback of a command: an exception of the standard library leaves it, or it settles the command. -/
theorem processCommandReply_settles (h : w.Holds that obj) (hd : w.client.data_.freed = false) (hcon : w.Open con)
    (hobj : ∀ c, obj.con_.2 = some c → w.Open c) (hcached : ∀ c, w.Stored c → w.Open c) (ha : a ∉ w.freed)
    (reply : RedisReply) : ReplyHandled w that obj con a reply := by
  cases hdown : reply.mentionsClusterDown with
  | true => exact replyHandled_down h hcon hobj ha hdown
  | false =>
    rcases processResult_cases hdown with hres | ⟨host, port, hres | hres⟩
    · exact replyHandled_ready hdown h hobj ha con hres
    · exact replyHandled_ask hdown h hobj ha hd hcon hcached hres
    · cases hex : w.movedException with
      | some ex => exact replyHandled_movedThrows hdown h hobj ha hcon hres hex
      | none => exact replyHandled_moved hdown h hobj ha hd hcon hcached hres hex

end callback

end HiredisCluster
