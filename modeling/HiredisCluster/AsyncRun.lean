import HiredisCluster.AsyncCallbacks
import HiredisCluster.Cxx.Run

/-!
# Runs of the asynchronous client

Between callbacks the application may call `Command` or set the error handler of a command, and the replies of the
servers arrive: hiredis takes the oldest request of the connection and calls its callback.  A step is one of these
stimuli with everything the environment decides during it.  `Sound` is the invariant of all runs
(`sound_of_run`); `reply_cases` says what one reply does.
-/

namespace HiredisCluster

open Cxx AsyncHiredisCommand

/-- What happens to the client from outside. -/
inductive Stimulus where
  | command (args : Arguments) (choices : Choices)
  | setUserErrorCb (data : ObjPtr) (set : Bool)
  | reply (con : ConPtr) (reply : RedisReply) (choices : Choices)

namespace World

variable (w : AsyncWorld)

/-- The oldest request on a connection. -/
def oldest (con : ConPtr) : Option Request := w.client.pending.find? (·.con = con)

/-- hiredis has read a reply to the oldest request on `con` and is about to call its callback. -/
def fire (req : Request) (reply : RedisReply) (choices : Choices) : AsyncWorld :=
  { w with replies := w.replies + 1 }.updClient fun c => { c with
    pending := c.pending.eraseP (·.con = req.con)
    firing := some (req, .object w.replies reply)
    choices := choices }

/-- The callback has returned and hiredis frees the reply. -/
def release (address : Nat) : AsyncWorld :=
  { w with freed := address :: w.freed }.updClient fun c => { c with firing := none }

end World

/-- The function a callback stands for. -/
def Callback.run : Callback → ConPtr → ReplyPtr → ObjPtr → Async Unit
  | .processCommandReply => AsyncHiredisCommand.processCommandReply
  | .runRedisCallback => AsyncHiredisCommand.runRedisCallback

namespace Stimulus

/-- What a stimulus makes the client do.  The application catches what `Command` throws, a reply that nobody waits for is
dropped. -/
def exec : Stimulus → Async Unit
  | command args choices => do
    Code.modify fun w => w.updClient fun c => { c with choices := choices }
    match ← Code.attempt some (AsyncHiredisCommand.command args) with
    | .ok that => Code.modify fun w => w.record (.returned that)
    | .error _ => pure ()
  | setUserErrorCb data set => AsyncHiredisCommand.setUserErrorCb data set
  | reply con r choices => do
    let w ← Code.get
    match w.oldest con with
    | none => pure ()
    | some req =>
      Code.modify fun w => w.fire req r choices
      req.callback.run con (.object w.replies r) req.data
      Code.modify fun w' => w'.release w.replies

end Stimulus

/-- A step of the client: the stimulus is handled without undefined behaviour, and no exception leaves a callback. -/
def Step (w : AsyncWorld) (e : Stimulus) (w' : AsyncWorld) : Prop := e.exec w = (.ret (), w')

/-- A new cluster object with nothing in flight. -/
structure Initial (w : AsyncWorld) : Prop where
  data : w.client.data_.freed = false
  objects : w.client.objects = []
  pending : w.client.pending = []
  firing : w.client.firing = none
  trace : w.client.trace = []
  redirects : w.redirects.entries = []
  nodes : ∀ e ∈ w.nodes.entries, e.2 < w.contexts.length
  contexts : ∀ x ∈ w.contexts, x.disconnecting = false ∧ x.disconnected = false
  freed : ∀ a ∈ w.freed, a < w.replies

abbrev AsyncRun := Run Initial Step

/-! ### The invariant -/

/-- The request is one its object makes in its present state. -/
def Request.Expected (req : Request) (obj : AsyncHiredisCommand) : Prop :=
  match req.callback with
  | .processCommandReply => req.message = .formatted obj.cmd_
  | .runRedisCallback => req.message = .format (text "ASKING") ∧ obj.con_.2 = some req.con

/-- What holds of every reachable state, and also while a callback runs. -/
structure Sound (w : AsyncWorld) : Prop where
  data : w.client.data_.freed = false
  stored : ∀ c, w.Stored c → w.Open c
  injective : ∀ a ∈ w.redirects.entries, ∀ b ∈ w.redirects.entries, a.2 = b.2 → a = b
  freed : ∀ a ∈ w.freed, a < w.replies
  objects : ∀ obj ∈ w.client.objects, ∀ c, obj.con_.2 = some c → w.redirects.lookup obj.con_.1 = some c
  pending : ∀ req ∈ w.client.pending, w.Open req.con ∧ ∃ obj, w.Holds req.data obj ∧ req.Expected obj
  nodup : (w.client.pending.map Request.data).Nodup

/-- No request of the object is outstanding. -/
def World.Idle (w : AsyncWorld) (that : ObjPtr) : Prop := ∀ q ∈ w.client.pending, q.data ≠ that

namespace Sound

variable {w v : AsyncWorld} {that : ObjPtr} {obj obj' : AsyncHiredisCommand}

/-- The connection of an object is cached and exists. -/
theorem isOpen_con (h : Sound w) (hobj : obj ∈ w.client.objects) {c : ConPtr} (hc : obj.con_.2 = some c) : w.Open c := by
  obtain ⟨e, he, -, rfl⟩ := (OrderedMap.lookup_eq_some_iff _ _ _).1 (h.objects obj hobj c hc)
  exact h.stored _ (Or.inr ⟨e, he, rfl⟩)

theorem noted (h : Sound w) (ch : Choices) (evs : List Event) : Sound (w.noted ch evs) :=
  ⟨h.data, h.stored, h.injective, h.freed, h.objects, h.pending, h.nodup⟩

theorem enqueue (h : Sound w) (req : Request) (hopen : w.Open req.con) (hobj : w.Holds req.data obj)
    (he : req.Expected obj) (hidle : w.Idle req.data) : Sound (w.enqueue req) := by
  refine ⟨h.data, h.stored, h.injective, h.freed, h.objects, ?_, ?_⟩
  · intro q hq
    rcases List.mem_append.1 hq with hq | hq
    · exact h.pending q hq
    · rw [List.mem_singleton.1 hq]
      exact ⟨hopen, obj, hobj, he⟩
  · show ((w.client.pending ++ [req]).map Request.data).Nodup
    rw [List.map_append, List.nodup_append]
    refine ⟨h.nodup, by simp, ?_⟩
    intro a ha b hb
    obtain ⟨q, hq, rfl⟩ := List.mem_map.1 ha
    rw [List.map_singleton, List.mem_singleton] at hb
    rw [hb]
    exact hidle q hq

/-- Changing the object of an idle command keeps what the others wait for. -/
private theorem pending_set (h : Sound w) (hidle : w.Idle that) (obj' : AsyncHiredisCommand) :
    ∀ req ∈ w.client.pending, ∃ obj, (w.client.objects.set that obj')[req.data]? = some obj ∧ obj.alive = true ∧
      req.Expected obj := by
  intro req hreq
  obtain ⟨-, obj, hobj, he⟩ := h.pending req hreq
  refine ⟨obj, ?_, hobj.2, he⟩
  rw [List.getElem?_set_ne (fun heq => hidle req hreq heq.symm)]
  exact hobj.1

private theorem isOpen_kill {c : ConPtr} (hc : w.Open c) : (w.kill that obj).Open c := by
  obtain ⟨ctx, hctx, hdis⟩ := hc
  unfold World.kill
  cases obj.con_.2 with
  | none => exact ⟨ctx, hctx, hdis⟩
  | some c' =>
    refine ⟨if c' = c then { ctx with disconnecting := true } else ctx, ?_, by split <;> exact hdis⟩
    show (w.contexts.modify c' _)[c]? = _
    rw [List.getElem?_modify, hctx]
    split <;> rfl

theorem nodes_kill : (w.kill that obj).nodes = w.nodes := by
  unfold World.kill
  cases obj.con_.2 <;> rfl

theorem redirects_kill : (w.kill that obj).redirects = w.redirects := by
  unfold World.kill
  cases obj.con_.2 <;> rfl

theorem client_kill : (w.kill that obj).client =
    { w.client with objects := w.client.objects.set that { obj with alive := false } } := by
  unfold World.kill
  cases obj.con_.2 <;> rfl

theorem trace_kill : (w.kill that obj).client.trace = w.client.trace := by rw [client_kill]

theorem pending_kill : (w.kill that obj).client.pending = w.client.pending := by rw [client_kill]

theorem objects_kill : (w.kill that obj).client.objects = w.client.objects.set that { obj with alive := false } := by
  rw [client_kill]

private theorem replies_kill : (w.kill that obj).replies = w.replies := by
  unfold World.kill
  cases obj.con_.2 <;> rfl

theorem kill (h : Sound w) (hobj : w.Holds that obj) (hidle : w.Idle that) : Sound (w.kill that obj) := by
  have hfreed : (w.kill that obj).freed = w.freed := by unfold World.kill; cases obj.con_.2 <;> rfl
  refine ⟨?_, ?_, ?_, ?_, ?_, ?_, ?_⟩
  · rw [client_kill]
    exact h.data
  · intro c hc
    unfold World.Stored at hc
    rw [nodes_kill, redirects_kill] at hc
    exact isOpen_kill (h.stored c hc)
  · rw [redirects_kill]
    exact h.injective
  · rw [hfreed, replies_kill]
    exact h.freed
  · rw [client_kill, redirects_kill]
    intro o ho c hc
    rcases List.mem_or_eq_of_mem_set ho with ho | rfl
    · exact h.objects o ho c hc
    · exact h.objects obj (List.mem_of_getElem? hobj.1) c hc
  · intro req hreq
    rw [client_kill] at hreq
    unfold World.Holds
    rw [client_kill]
    obtain ⟨o, ho, ha, he⟩ := h.pending_set hidle _ req hreq
    exact ⟨isOpen_kill (h.pending req hreq).1, o, ⟨ho, ha⟩, he⟩
  · rw [client_kill]
    exact h.nodup

/-- A connection number that is not in use yet is not stored. -/
theorem stored_lt (h : Sound w) {c : ConPtr} (hc : w.Stored c) : c < w.contexts.length := by
  obtain ⟨ctx, hctx, -⟩ := h.stored c hc
  exact (List.getElem?_eq_some_iff.1 hctx).1

/-- The cache is as it was, or it has got an entry for the connection that was opened. -/
def Caches (w v : AsyncWorld) : Prop :=
  v.redirects = w.redirects ∨ ∃ key, w.redirects.lookup key = none ∧
    v.redirects = w.redirects.insert key w.contexts.length ∧ v.Open w.contexts.length

/-- An entry of the cache is an old one or the new one. -/
private theorem Caches.entry (h : Caches w v) {e : Bytes × ConPtr} (he : e ∈ v.redirects.entries) :
    e ∈ w.redirects.entries ∨
      (e.2 = w.contexts.length ∧ v.Open e.2 ∧ ∀ e' ∈ v.redirects.entries, e' ∈ w.redirects.entries ∨ e' = e) := by
  rcases h with hr | ⟨key, hl, hr, hopen⟩
  · exact Or.inl (hr ▸ he)
  · have hins := fun e => OrderedMap.mem_insert w.redirects (v := w.contexts.length)
      ((OrderedMap.lookup_eq_none_iff _ _).1 hl) (e := e)
    rw [hr] at he ⊢
    rcases (hins e).1 he with rfl | he
    · exact Or.inr ⟨rfl, hopen, fun e' he' => ((hins e').1 he').symm⟩
    · exact Or.inl he

theorem Caches.lookup (h : Caches w v) {key : Bytes} {c : ConPtr} (hc : w.redirects.lookup key = some c) :
    v.redirects.lookup key = some c := by
  rcases h with hr | ⟨key', hl, hr, -⟩
  · rw [hr]
    exact hc
  · rw [hr]
    exact OrderedMap.lookup_insert_of_some _ hl hc

/-- The new entry is for a connection that no other entry has. -/
theorem Caches.injective (hc : Caches w v) (h : Sound w) :
    ∀ a ∈ v.redirects.entries, ∀ b ∈ v.redirects.entries, a.2 = b.2 → a = b := by
  intro a ha b hb hab
  have old (e : Bytes × ConPtr) (he : e ∈ w.redirects.entries) : e.2 < w.contexts.length :=
    h.stored_lt (Or.inr ⟨e, he, rfl⟩)
  rcases hc.entry ha with ha' | ⟨hla, -, honly⟩
  · rcases hc.entry hb with hb' | ⟨hlb, -, -⟩
    · exact h.injective a ha' b hb' hab
    · have := old a ha'
      rw [hab, hlb] at this
      exact absurd this (Nat.lt_irrefl _)
  · rcases honly b hb with hb' | rfl
    · have := old b hb'
      rw [← hab, hla] at this
      exact absurd this (Nat.lt_irrefl _)
    · rfl

/-- Opening a connection keeps the state sound, also when the cache gets an entry for it. -/
theorem dialled (h : Sound w) (hu : w.Dialled v) (hred : Caches w v) : Sound v := by
  obtain ⟨connects, lifetime, hcl⟩ := hu.client
  refine ⟨?_, ?_, hred.injective h, ?_, ?_, ?_, ?_⟩
  · rw [hcl]
    exact h.data
  · rintro c (hc | ⟨e, he, rfl⟩)
    · exact hu.isOpen (h.stored c (Or.inl (hu.nodes ▸ hc)))
    · rcases hred.entry he with he | ⟨-, hopen, -⟩
      · exact hu.isOpen (h.stored _ (Or.inr ⟨e, he, rfl⟩))
      · exact hopen
  · rw [hu.freed, hu.replies]
    exact h.freed
  · rw [hcl]
    exact fun o ho c hc => hred.lookup (h.objects o ho c hc)
  · intro req hreq
    rw [hcl] at hreq
    obtain ⟨hopen, o, ho, he⟩ := h.pending req hreq
    refine ⟨hu.isOpen hopen, o, ?_, he⟩
    unfold World.Holds
    rw [hcl]
    exact ho
  · rw [hcl]
    exact h.nodup

/-- An idle object may get a connection that is cached. -/
private theorem setObject (h : Sound w) (hidle : w.Idle that)
    (hcon : ∀ c, obj'.con_.2 = some c → w.redirects.lookup obj'.con_.1 = some c) :
    Sound (w.updClient fun c => { c with objects := c.objects.set that obj' }) := by
  refine ⟨h.data, h.stored, h.injective, h.freed, ?_, ?_, h.nodup⟩
  · intro o ho c hc
    rcases List.mem_or_eq_of_mem_set ho with ho | rfl
    · exact h.objects o ho c hc
    · exact hcon c hc
  · intro req hreq
    obtain ⟨o, ho, ha, he⟩ := h.pending_set hidle obj' req hreq
    exact ⟨(h.pending req hreq).1, o, ⟨ho, ha⟩, he⟩

private theorem announced (h : Sound w) (moves : List Bool) : Sound (w.announced moves) :=
  ⟨h.data, h.stored, h.injective, h.freed, h.objects, h.pending, h.nodup⟩

private theorem linked (h : Sound w) {target : Option ConPtr} (hobj : w.Holds that obj) (hidle : w.Idle that)
    (hl : Linked that obj obj' target w v) : Sound v := by
  have hred := hl.redirects_cases
  have hcon := fun c hc => hl.lookup_con (h.objects obj (List.mem_of_getElem? hobj.1)) (c := c) hc
  obtain ⟨⟨moves, u, hu, rfl⟩, -⟩ := hl
  obtain ⟨connects, lifetime, hcl⟩ := hu.client
  refine ((h.announced moves).dialled hu hred).setObject (fun q hq => hidle q ?_) hcon
  rw [hcl] at hq
  exact hq

/-- The attempt of a callback is a request its object makes on an existing connection. -/
def Fits (att : Attempt) (that : ObjPtr) (obj : AsyncHiredisCommand) (v : AsyncWorld) : Prop :=
  ∀ req, att = .sends req → req.data = that ∧ v.Open req.con ∧ req.Expected obj

private theorem settles (h : Sound v) (hobj : v.Holds that obj) (hidle : v.Idle that) {con : ConPtr} (hcon : v.Open con)
    {reply : RedisReply} {att : Attempt} (hfits : Fits att that obj v)
    (hset : Settles that obj con reply att v w) : Sound w := by
  cases hset with
  | sent req hatt hacc hw =>
    obtain ⟨ch, rfl⟩ := hw
    obtain ⟨rfl, hopen, he⟩ := hfits req hatt
    exact (h.noted ch _).enqueue _ hopen hobj he hidle
  | resent evs hr hq ht hw =>
    obtain ⟨ch, rfl⟩ := hw
    exact (h.noted ch _).enqueue (obj.commandOn that con) hcon hobj rfl hidle
  | ended evs hno hq ht hw =>
    rcases hw with ⟨-, ch, rfl⟩ | ⟨-, -, ch, rfl⟩
    · exact (h.noted ch _).kill hobj hidle
    · exact h.noted ch _

private theorem release (h : Sound w) {a : Nat} (ha : a < w.replies) : Sound (w.release a) := by
  refine ⟨h.data, h.stored, h.injective, ?_, h.objects, h.pending, h.nodup⟩
  intro b hb
  rcases List.mem_cons.1 hb with rfl | hb
  · exact ha
  · exact h.freed b hb

end Sound

/-! ### One reply -/

section reply

variable {w : AsyncWorld} {con : ConPtr} {req : Request}

theorem oldest_split (h : w.oldest con = some req) : req.con = con ∧ ∃ l₁ l₂, (∀ q ∈ l₁, q.con ≠ con) ∧
    w.client.pending = l₁ ++ req :: l₂ ∧ w.client.pending.eraseP (·.con = req.con) = l₁ ++ l₂ := by
  have hreq : req.con = con := by simpa using List.find?_some h
  refine ⟨hreq, ?_⟩
  obtain ⟨-, l₁, l₂, hp, hbefore⟩ := List.find?_eq_some_iff_append.1 h
  have hno : ∀ q ∈ l₁, ¬ (q.con = req.con) := by
    intro q hq
    have := hbefore q hq
    rw [hreq]
    simpa using this
  refine ⟨l₁, l₂, fun q hq hc => hno q hq (hc.trans hreq.symm), hp, ?_⟩
  rw [hp, List.eraseP_append_right _ (by simpa using hno), List.eraseP_cons_of_pos (by simp)]

variable (h : Sound w) (ho : w.oldest con = some req) (r : RedisReply) (ch : Choices)

include h ho

theorem fire_pending : ∃ obj, w.Holds req.data obj ∧ req.Expected obj ∧ w.Open con := by
  obtain ⟨hreq, l₁, l₂, -, hp, -⟩ := oldest_split ho
  obtain ⟨hopen, obj, hobj, he⟩ := h.pending req (by rw [hp]; simp)
  exact ⟨obj, hobj, he, hreq ▸ hopen⟩

private theorem fire_idle : (w.fire req r ch).Idle req.data := by
  obtain ⟨-, l₁, l₂, -, hp, he⟩ := oldest_split ho
  intro q hq
  replace hq : q ∈ w.client.pending.eraseP (·.con = req.con) := hq
  rw [he] at hq
  have hnodup := h.nodup
  rw [hp, List.map_append, List.map_cons, List.nodup_append, List.nodup_cons] at hnodup
  rcases List.mem_append.1 hq with hq | hq
  · exact hnodup.2.2 _ (List.mem_map_of_mem hq) _ (List.mem_cons_self ..)
  · intro heq
    exact hnodup.2.1.1 (heq ▸ List.mem_map_of_mem hq)

variable (req) in
omit ho in
theorem Sound.fire : Sound (w.fire req r ch) := by
  have hsub : (w.client.pending.eraseP (·.con = req.con)).Sublist w.client.pending := List.eraseP_sublist
  refine ⟨h.data, h.stored, h.injective, ?_, h.objects, ?_, ?_⟩
  · exact fun a ha => Nat.lt_succ_of_lt (h.freed a ha)
  · exact fun q hq => h.pending q (hsub.subset hq)
  · exact h.nodup.sublist (hsub.map _)

end reply

/-- What the `try` block of the callback of a request does. -/
def World.attemptOf (w : AsyncWorld) (req : Request) (obj : AsyncHiredisCommand) (reply : RedisReply) : Attempt :=
  match req.callback with
  | .processCommandReply => w.commandAttempt req.data obj reply
  | .runRedisCallback => askingAttempt req.data obj reply

/-- An exception of the standard library leaves the callback of a request. -/
def World.EscapesFrom (w : AsyncWorld) (req : Request) (obj : AsyncHiredisCommand) (reply : RedisReply)
    (e : StdException) : Prop :=
  req.callback = .processCommandReply ∧ w.Escapes obj reply e

/-- A callback settles its command, unless an exception leaves it. -/
theorem callback_settles {w : AsyncWorld} (h : Sound w) {req : Request} {obj : AsyncHiredisCommand}
    (hobj : w.Holds req.data obj) (he : req.Expected obj) (hopen : w.Open req.con) {a : Nat} (ha : a ∉ w.freed)
    (reply : RedisReply) :
    (∃ e v, w.EscapesFrom req obj reply e ∧
        req.callback.run req.con (.object a reply) req.data w = (.throws (.std e), v)) ∨
      ((¬ ∃ e, w.EscapesFrom req obj reply e) ∧ ∃ obj' v w',
        req.callback.run req.con (.object a reply) req.data w = (.ret (), w') ∧
          Linked req.data obj obj' (w.attemptOf req obj reply).target w v ∧
          Settles req.data obj' req.con reply (w.attemptOf req obj reply) v w') := by
  have hcon := fun c hc => h.isOpen_con (List.mem_of_getElem? hobj.1) (c := c) hc
  unfold World.EscapesFrom World.attemptOf
  cases hcb : req.callback with
  | processCommandReply =>
    rcases processCommandReply_settles hobj h.data hopen hcon h.stored ha reply with ⟨e, v, hesc, hrun⟩ | ⟨hno, hset⟩
    · exact Or.inl ⟨e, v, ⟨rfl, hesc⟩, hrun⟩
    · exact Or.inr ⟨fun ⟨e, _, hesc⟩ => hno ⟨e, hesc⟩, hset⟩
  | runRedisCallback =>
    have hc : obj.con_.2 = some req.con := by
      unfold Request.Expected at he
      rw [hcb] at he
      exact he.2
    obtain ⟨w', hrun, hset⟩ := runRedisCallback_settles hobj hc hopen hopen ha reply
    refine Or.inr ⟨(by rintro ⟨e, hp, -⟩; cases hp), obj, w, w', hrun, .kept hobj (.refl w) rfl ?_, hset⟩
    intro c ht
    unfold askingAttempt at ht
    rw [hc] at ht ⊢
    cases hok : reply.isOk with
    | true => rw [hok] at ht; exact ht
    | false => rw [hok] at ht; cases ht

/-- What a callback sends: `ASKING`, or the command of the object. -/
theorem attemptOf_sends {w : AsyncWorld} {req req' : Request} {obj : AsyncHiredisCommand} {reply : RedisReply}
    (h : w.attemptOf req obj reply = .sends req') :
    req' = askingOn req.data req'.con ∨ req' = obj.commandOn req.data req'.con := by
  have follow (callback : Callback) (message : Message) (t : Option ConPtr)
      (hf : Attempt.follow req.data callback message t = .sends req') :
      req' = ⟨req'.con, callback, req.data, message⟩ := by
    cases t with
    | none => cases hf
    | some c => cases hf; rfl
  unfold World.attemptOf at h
  split at h
  · unfold World.commandAttempt at h
    split at h
    · cases h
    · split at h
      · cases h
      · exact Or.inl (follow _ _ _ h)
      · split at h
        · cases h
        · exact Or.inr (follow _ _ _ h)
      · cases h
  · unfold askingAttempt at h
    split at h
    · cases h
      exact Or.inr rfl
    · cases h

theorem Linked.client_eq {that : ObjPtr} {obj obj' : AsyncHiredisCommand} {target : Option ConPtr} {w v : AsyncWorld}
    (h : Linked that obj obj' target w v) : ∃ moves connects lifetime, v.client = { w.client with
      objects := w.client.objects.set that obj'
      choices := { w.client.choices with connects := connects }
      data_ := { w.client.data_ with lifetime := lifetime }
      trace := w.client.trace ++ List.map Event.moved moves } := by
  obtain ⟨⟨moves, u, hu, rfl⟩, -⟩ := h
  obtain ⟨connects, lifetime, hcl⟩ := hu.client
  refine ⟨moves, connects, lifetime, ?_⟩
  show { u.client with objects := u.client.objects.set that obj' } = _
  rw [hcl]
  rfl

/-- Nothing but `moved` can have been recorded. -/
theorem Linked.trace_eq {that : ObjPtr} {obj obj' : AsyncHiredisCommand} {target : Option ConPtr} {w v : AsyncWorld}
    (h : Linked that obj obj' target w v) :
    ∃ moves : List Bool, v.client.trace = w.client.trace ++ moves.map Event.moved := by
  obtain ⟨moves, connects, lifetime, hcl⟩ := h.client_eq
  exact ⟨moves, by rw [hcl]⟩

theorem filterMap_moves {β : Type} {f : Event → Option β} (hf : ∀ threw, f (.moved threw) = none) (moves : List Bool) :
    (moves.map Event.moved).filterMap f = [] := by
  rw [List.filterMap_map, List.filterMap_eq_nil_iff]
  exact fun threw _ => hf threw

theorem Linked.filterMap_trace {β : Type} {that : ObjPtr} {obj obj' : AsyncHiredisCommand} {target : Option ConPtr}
    {w v : AsyncWorld} (h : Linked that obj obj' target w v) {f : Event → Option β} (hf : ∀ threw, f (.moved threw) = none) :
    v.client.trace.filterMap f = w.client.trace.filterMap f := by
  obtain ⟨moves, htrace⟩ := h.trace_eq
  rw [htrace, List.filterMap_append, filterMap_moves hf, List.append_nil]

theorem Linked.forall_trace_iff {that : ObjPtr} {obj obj' : AsyncHiredisCommand} {target : Option ConPtr} {w v : AsyncWorld}
    (h : Linked that obj obj' target w v) {P : Event → Prop} (hP : ∀ threw, P (.moved threw)) :
    (∀ e ∈ v.client.trace, P e) ↔ ∀ e ∈ w.client.trace, P e := by
  obtain ⟨moves, htrace⟩ := h.trace_eq
  rw [htrace, List.forall_mem_append, and_iff_left]
  exact List.forall_mem_map.2 fun threw _ => hP threw

private theorem Linked.con_eq {that : ObjPtr} {obj obj' : AsyncHiredisCommand} {target : Option ConPtr}
    {w v : AsyncWorld}
    (h : Linked that obj obj' target w v) {c : ConPtr} (hc : target = some c) : obj'.con_.2 = some c := by
  rcases h.link with ⟨rfl, -, ht⟩ | ⟨-, key, c', ht, rfl, -⟩
  · exact ht c hc
  · rw [ht] at hc
    cases hc
    rfl

private theorem Linked.cmd_eq {that : ObjPtr} {obj obj' : AsyncHiredisCommand} {target : Option ConPtr}
    {w v : AsyncWorld} (h : Linked that obj obj' target w v) : obj'.cmd_ = obj.cmd_ := by
  rcases h.link with ⟨rfl, -, -⟩ | ⟨-, key, c', -, rfl, -⟩ <;> rfl

section decisions

variable {w v : AsyncWorld} {that : ObjPtr} {obj obj' : AsyncHiredisCommand} {target : Option ConPtr}
  (h : Linked that obj obj' target w v)

include h

private theorem Linked.firstSend_eq : v.firstSend = w.firstSend := by
  obtain ⟨moves, connects, lifetime, hcl⟩ := h.client_eq
  unfold World.firstSend
  rw [hcl]

private theorem Linked.secondSend_eq : v.secondSend = w.secondSend := by
  obtain ⟨moves, connects, lifetime, hcl⟩ := h.client_eq
  unfold World.secondSend
  rw [hcl]

theorem Linked.wantsRetry_iff : v.WantsRetry obj' ↔ w.WantsRetry obj := by
  obtain ⟨moves, connects, lifetime, hcl⟩ := h.client_eq
  unfold World.WantsRetry
  rw [hcl]
  rcases h.link with ⟨rfl, -⟩ | ⟨-, _, _, -, rfl, -⟩ <;> rfl

/-- Getting a connection does not change how a callback is settled. -/
theorem Linked.resends_iff (con : ConPtr) (att : Attempt) : v.Resends con obj' att ↔ w.Resends con obj att := by
  cases att with
  | ready => rfl
  | sends req =>
    show ¬ v.Accepts req.con v.firstSend ∧ v.WantsRetry obj' ∧ v.Accepts con v.secondSend ↔ _
    rw [h.accepts_iff, h.accepts_iff, h.firstSend_eq, h.secondSend_eq, h.wantsRetry_iff]
    rfl
  | fails =>
    show v.WantsRetry obj' ∧ v.Accepts con v.firstSend ↔ _
    rw [h.accepts_iff, h.firstSend_eq, h.wantsRetry_iff]
    rfl

theorem Linked.survives_iff (con : ConPtr) (att : Attempt) : v.Survives con obj' att ↔ w.Survives con obj att := by
  unfold World.Survives
  rw [h.resends_iff, h.firstSend_eq]
  simp only [h.accepts_iff]

end decisions

/-- The request that a callback sends fits the object. -/
private theorem attempt_fits {w v : AsyncWorld} (h : Sound v) {req : Request} {obj obj' : AsyncHiredisCommand}
    {reply : RedisReply} (hobj : v.Holds req.data obj')
    (hl : Linked req.data obj obj' (w.attemptOf req obj reply).target w v) :
    Sound.Fits (w.attemptOf req obj reply) req.data obj' v := by
  intro req' hreq'
  have hc : obj'.con_.2 = some req'.con := hl.con_eq (by rw [hreq']; rfl)
  have hopen := h.isOpen_con (List.mem_of_getElem? hobj.1) hc
  rcases attemptOf_sends hreq' with he | he
  · rw [he] at hopen hc ⊢
    exact ⟨rfl, hopen, rfl, hc⟩
  · rw [he] at hopen ⊢
    exact ⟨rfl, hopen, congrArg _ hl.cmd_eq.symm⟩

/-- What settling a command leaves alone. -/
private theorem Settles.frame {that : ObjPtr} {obj : AsyncHiredisCommand} {con : ConPtr} {reply : RedisReply}
    {att : Attempt} {v u : AsyncWorld} (h : Settles that obj con reply att v u) :
    u.replies = v.replies ∧ u.nodes = v.nodes ∧ u.redirects = v.redirects ∧ u.client.firing = v.client.firing := by
  cases h with
  | sent req hatt hacc hw => obtain ⟨ch, rfl⟩ := hw; exact ⟨rfl, rfl, rfl, rfl⟩
  | resent evs hr hq ht hw => obtain ⟨ch, rfl⟩ := hw; exact ⟨rfl, rfl, rfl, rfl⟩
  | ended evs hno hq ht hw =>
    rcases hw with ⟨-, ch, rfl⟩ | ⟨-, -, ch, rfl⟩
    · rw [Sound.replies_kill, Sound.nodes_kill, Sound.redirects_kill, Sound.client_kill]
      exact ⟨rfl, rfl, rfl, rfl⟩
    · exact ⟨rfl, rfl, rfl, rfl⟩

/-- Settling a command changes no object but its own, which it may delete. -/
private theorem Settles.objects {that : ObjPtr} {obj : AsyncHiredisCommand} {con : ConPtr} {reply : RedisReply}
    {att : Attempt} {v u : AsyncWorld} (h : Settles that obj con reply att v u) (hobj : v.Holds that obj) :
    ∃ alive, u.client.objects = v.client.objects.set that { obj with alive := alive } := by
  have hself : v.client.objects = v.client.objects.set that { obj with alive := true } := by
    rw [← hobj.2]
    exact (set_eq_self hobj.1).symm
  cases h with
  | sent req hatt hacc hw => obtain ⟨ch, rfl⟩ := hw; exact ⟨true, hself⟩
  | resent evs hr hq ht hw => obtain ⟨ch, rfl⟩ := hw; exact ⟨true, hself⟩
  | ended evs hno hq ht hw =>
    rcases hw with ⟨-, ch, rfl⟩ | ⟨-, -, ch, rfl⟩
    · exact ⟨false, by rw [Sound.client_kill]; rfl⟩
    · exact ⟨true, hself⟩

/-- The callback of the oldest request is called. -/
theorem reply_exec {w : AsyncWorld} {con : ConPtr} {req : Request} (ho : w.oldest con = some req) (r : RedisReply)
    (ch : Choices) : (Stimulus.reply con r ch).exec w = (req.callback.run con (.object w.replies r) req.data >>= fun _ =>
      Code.modify fun w' => w'.release w.replies) (w.fire req r ch) := by
  refine (Code.bind_of_ret (Code.get_apply w) _).trans ?_
  rw [ho]
  rfl

/-- What a reply to the oldest request of a connection does: an exception leaves the callback, or from the world `w₀` in
which the callback starts the object gets a connection if it needs one (`v`) and the callback settles the command
(`u`). -/
theorem reply_cases {w : AsyncWorld} (h : Sound w) {con : ConPtr} {req : Request} (ho : w.oldest con = some req)
    (r : RedisReply) (ch : Choices) {w₀ : AsyncWorld} (hw₀ : w₀ = w.fire req r ch) :
    ∃ obj, w.Holds req.data obj ∧ req.Expected obj ∧ req.con = con ∧
      ((∃ e v, w₀.EscapesFrom req obj r e ∧ (Stimulus.reply con r ch).exec w = (.throws (.std e), v)) ∨
        ((¬ ∃ e, w₀.EscapesFrom req obj r e) ∧ ∃ obj' v u,
          (Stimulus.reply con r ch).exec w = (.ret (), u.release w.replies) ∧
            Linked req.data obj obj' (w₀.attemptOf req obj r).target w₀ v ∧
            Settles req.data obj' con r (w₀.attemptOf req obj r) v u ∧
            Sound v ∧ v.Idle req.data ∧ v.Holds req.data obj' ∧ Sound (u.release w.replies))) := by
  subst hw₀
  obtain ⟨obj, hobj, he, hopen⟩ := fire_pending h ho
  obtain ⟨hreq, -⟩ := oldest_split ho
  have hsound := h.fire req r ch
  have hidle := fire_idle h ho r ch
  have hfree : w.replies ∉ (w.fire req r ch).freed := fun ha => Nat.lt_irrefl _ (h.freed _ ha)
  have hstart : (Stimulus.reply con r ch).exec w =
      (req.callback.run req.con (.object w.replies r) req.data >>= fun _ =>
        Code.modify fun w' => w'.release w.replies) (w.fire req r ch) := by
    rw [hreq]
    exact reply_exec ho r ch
  refine ⟨obj, hobj, he, hreq, ?_⟩
  rcases callback_settles hsound hobj he (hreq ▸ hopen) hfree r with ⟨e, v, hesc, hrun⟩ | ⟨hno, obj', v, u, hrun, hl, hs⟩
  · left
    exact ⟨e, v, hesc, hstart.trans (Code.bind_of_throws hrun _)⟩
  · right
    have hv := hsound.linked hobj hidle hl
    have hvobj := hl.holds hobj
    have hvidle : v.Idle req.data := by
      obtain ⟨moves, connects, lifetime, hcl⟩ := hl.client_eq
      intro q hq
      rw [hcl] at hq
      exact hidle q hq
    have hu := hv.settles hvobj hvidle (hl.isOpen (hreq ▸ hopen)) (attempt_fits hv hvobj hl) hs
    refine ⟨hno, obj', v, u, hstart.trans (Code.bind_of_ret hrun _), hl, hreq ▸ hs, hv, hvidle, hvobj, hu.release ?_⟩
    obtain ⟨⟨moves, x, hx, rfl⟩, -⟩ := hl
    rw [hs.frame.1]
    show w.replies < x.replies
    rw [hx.replies]
    exact Nat.lt_succ_self _

/-! ### `Command` -/

namespace World

def choose (w : AsyncWorld) (ch : Choices) : AsyncWorld := w.updClient fun c => { c with choices := ch }

def alloc (w : AsyncWorld) (obj : AsyncHiredisCommand) : AsyncWorld :=
  w.updClient fun c => { c with objects := c.objects ++ [obj] }

private theorem record_enqueue (w : AsyncWorld) (ch : Choices) (evs : List Event) (e : Event) (req : Request) :
    ((w.noted ch evs).enqueue req).record e = (w.noted ch (evs ++ [e])).enqueue req := by
  simp [noted, enqueue, record, updClient, setClient]

theorem holds_alloc (w : AsyncWorld) (obj : AsyncHiredisCommand) (ha : obj.alive = true) :
    (w.alloc obj).Holds w.client.objects.length obj := by
  refine ⟨?_, ha⟩
  show (w.client.objects ++ [obj])[w.client.objects.length]? = some obj
  simp

end World

/-- How `Command` ends: it needs a cluster and a formatted command, the new object is leaked when its key cannot be
routed, and deleted when its request is refused. -/
inductive CommandCase (w : AsyncWorld) (args : Arguments) : Outcome Exn ObjPtr → AsyncWorld → Prop
  | null (hnull : args.clusterNull = true) : CommandCase w args (.throws (.cluster .invalidArgument)) w
  | unformatted (hnull : args.clusterNull = false) (hcmd : args.cmd = none) :
      CommandCase w args (.throws (.std .logicError)) w
  | unhashed {v : AsyncWorld} (hcmd : args.cmd.isSome = true) (hkey : 2 ^ 31 ≤ args.key.length) :
      CommandCase w args .undefined v
  | unrouted {cmd : Bytes} (hcmd : args.cmd = some cmd) (e : ClusterException) :
      CommandCase w args (.throws (.cluster e)) (w.alloc (args.object cmd))
  | accepted {cmd : Bytes} (hcmd : args.cmd = some cmd) {obj : AsyncHiredisCommand} (hobj : obj = args.object cmd)
      {that : ObjPtr} (hthat : that = w.client.objects.length) {c : ConPtr} (hc : w.Stored c) (ch : Choices) :
      CommandCase w args (.ret that)
        (((w.alloc obj).noted ch [.sent (obj.commandOn that c) w.client.firing]).enqueue (obj.commandOn that c))
  | refused {cmd : Bytes} (hcmd : args.cmd = some cmd) {obj : AsyncHiredisCommand} (hobj : obj = args.object cmd)
      {that : ObjPtr} (hthat : that = w.client.objects.length) {c : ConPtr} (hc : w.Stored c) (ch : Choices) :
      CommandCase w args (.throws (.cluster .disconnected))
        (((w.alloc obj).noted ch [.refused (obj.commandOn that c) w.client.firing, .deleted that]).kill that obj)

section command

variable {w : AsyncWorld} {args : Arguments}

theorem command_null (h : args.clusterNull = true) : command args w = (.throws (.cluster .invalidArgument), w) := by
  have hnew : new args w = (.throws (.cluster .invalidArgument), w) := by
    rw [new, if_pos h]
    rfl
  exact Code.bind_of_throws hnew _

theorem command_unformatted (h : args.clusterNull = false) (hcmd : args.cmd = none) :
    command args w = (.throws (.std .logicError), w) := by
  have hnew : new args w = (.throws (.std .logicError), w) := by
    rw [new, if_neg (by rw [h]; decide), hcmd]
    rfl
  exact Code.bind_of_throws hnew _

/-- What `Command` does with the new object. -/
theorem command_allocated (h : args.clusterNull = false) {cmd : Bytes} (hcmd : args.cmd = some cmd) :
    command args w = ((Cluster.getConnection args.key >>= fun con =>
      redisAsyncSend (some con.2) .processCommandReply w.client.objects.length (.formatted cmd)) >>= fun s =>
        if s ≠ .ok then delete w.client.objects.length >>= fun _ => Code.throws (.cluster .disconnected)
        else pure w.client.objects.length) (w.alloc (args.object cmd)) := by
  have hnew : new args w = (.ret w.client.objects.length, w.alloc (args.object cmd)) := by
    rw [new, if_neg (by rw [h]; decide), hcmd]
    rfl
  have hobj := w.holds_alloc (args.object cmd) rfl
  have hprocess : AsyncHiredisCommand.process w.client.objects.length (w.alloc (args.object cmd)) =
      (Cluster.getConnection args.key >>= fun con =>
        redisAsyncSend (some con.2) .processCommandReply w.client.objects.length (.formatted cmd))
          (w.alloc (args.object cmd)) := by
    refine (Code.bind_of_ret (object_eq hobj) _).trans ?_
    obtain ⟨o, hget, -⟩ := Cluster.getConnection_cases args.key (w.alloc (args.object cmd))
    have hkey : (args.object cmd).key_ = args.key := rfl
    rw [hkey, Code.bind_apply, Code.bind_apply, hget]
    cases o with
    | ret con => exact processHiredisCommand_eq hobj (some con.2)
    | throws e => rfl
    | undefined => rfl
  refine (Code.bind_of_ret hnew _).trans ?_
  rw [Code.bind_apply, hprocess]
  rfl

theorem command_cases (hstored : ∀ c, w.Stored c → w.Open c) (args : Arguments) :
    ∃ o v, AsyncHiredisCommand.command args w = (o, v) ∧ CommandCase w args o v := by
  cases hnull : args.clusterNull with
  | true => exact ⟨_, _, command_null hnull, .null hnull⟩
  | false =>
    cases hcmd : args.cmd with
    | none => exact ⟨_, _, command_unformatted hnull hcmd, .unformatted hnull hcmd⟩
    | some cmd =>
      have hcommand := command_allocated (w := w) hnull hcmd
      obtain ⟨o, hget, hmem, hdefined, hthrows⟩ := Cluster.getConnection_cases args.key (w.alloc (args.object cmd))
      cases o with
      | undefined =>
        have hrun := hcommand.trans (Code.bind_of_undefined (Code.bind_of_undefined hget _) _)
        exact ⟨_, _, hrun, .unhashed (by rw [hcmd]; rfl) (Nat.le_of_not_lt fun hk => hdefined hk rfl)⟩
      | throws e =>
        obtain ⟨ce, rfl⟩ := hthrows e rfl
        have hrun := hcommand.trans (Code.bind_of_throws (Code.bind_of_throws hget _) _)
        exact ⟨_, _, hrun, .unrouted hcmd ce⟩
      | ret conn =>
        have hcon : w.Stored conn.2 := Or.inl ⟨conn, hmem conn rfl, rfl⟩
        obtain ⟨ch, -, -, -, ⟨hacc, hsend⟩ | ⟨hacc, hsend⟩⟩ :=
          redisAsyncSend_cases (w := w.alloc (args.object cmd)) (hstored _ hcon) .processCommandReply
            w.client.objects.length (.formatted cmd)
        · have hrun := hcommand.trans (Code.bind_of_ret ((Code.bind_of_ret hget _).trans hsend) _)
          exact ⟨_, _, hrun, .accepted hcmd rfl rfl hcon ch⟩
        · have hrun := hcommand.trans (Code.bind_of_ret ((Code.bind_of_ret hget _).trans hsend) _)
          have hdel := delete_eq (w := (w.alloc (args.object cmd)).noted ch
            [.refused ((args.object cmd).commandOn w.client.objects.length conn.2) w.client.firing])
            (w.holds_alloc (args.object cmd) rfl) (fun c hc => by cases hc)
          rw [World.noted_noted] at hdel
          exact ⟨_, _, hrun.trans (Code.bind_of_ret hdel _), .refused hcmd rfl rfl hcon ch⟩

end command

/-- What a call of `Command` leaves, when the application catches what it throws. -/
theorem command_exec {w : AsyncWorld} (h : Sound w) (args : Arguments) (ch : Choices) :
    (2 ^ 31 ≤ args.key.length ∧ ∃ w', (Stimulus.command args ch).exec w = (.undefined, w')) ∨
      (Stimulus.command args ch).exec w = (.ret (), w.choose ch) ∨
      ∃ cmd obj that, args.cmd = some cmd ∧ obj = args.object cmd ∧ that = w.client.objects.length ∧
        ((Stimulus.command args ch).exec w = (.ret (), (w.choose ch).alloc obj) ∨
          ∃ c ch', w.Stored c ∧ w.Open c ∧
            (((Stimulus.command args ch).exec w = (.ret (), (((w.choose ch).alloc obj).noted ch'
                [.sent (obj.commandOn that c) w.client.firing, .returned that]).enqueue (obj.commandOn that c))) ∨
              ((Stimulus.command args ch).exec w = (.ret (), (((w.choose ch).alloc obj).noted ch'
                [.refused (obj.commandOn that c) w.client.firing, .deleted that]).kill that obj)))) := by
  have hstart : (Stimulus.command args ch).exec w =
      (Code.attempt some (AsyncHiredisCommand.command args) >>= fun x => match x with
        | .ok that => Code.modify fun w => w.record (.returned that)
        | .error _ => pure ()) (w.choose ch) := rfl
  rw [hstart]
  obtain ⟨o, v, hrun, hcase⟩ := command_cases (w := w.choose ch) h.stored args
  cases hcase with
  | null hnull => right; left; exact Code.bind_of_ret (Code.attempt_caught hrun rfl) _
  | unformatted hnull hcmd => right; left; exact Code.bind_of_ret (Code.attempt_caught hrun rfl) _
  | unhashed hcmd hkey => left; exact ⟨hkey, _, Code.bind_of_undefined (Code.attempt_undefined hrun) _⟩
  | @unrouted cmd hcmd e =>
    right; right
    exact ⟨cmd, _, _, hcmd, rfl, rfl, Or.inl (Code.bind_of_ret (Code.attempt_caught hrun rfl) _)⟩
  | @accepted cmd hcmd obj hobj that hthat c hc ch' =>
    right; right
    refine ⟨cmd, obj, that, hcmd, hobj, hthat, Or.inr ⟨c, ch', hc, h.stored c hc, Or.inl ?_⟩⟩
    refine (Code.bind_of_ret (Code.attempt_ret hrun) _).trans ?_
    exact congrArg (Prod.mk _) (World.record_enqueue _ ch' [_] (.returned that) _)
  | @refused cmd hcmd obj hobj that hthat c hc ch' =>
    right; right
    exact ⟨cmd, obj, that, hcmd, hobj, hthat,
      Or.inr ⟨c, ch', hc, h.stored c hc, Or.inr (Code.bind_of_ret (Code.attempt_caught hrun rfl) _)⟩⟩

/-! ### All runs -/

namespace Sound

variable {w : AsyncWorld} {that : ObjPtr} {obj : AsyncHiredisCommand}

theorem choose (h : Sound w) (ch : Choices) : Sound (w.choose ch) :=
  ⟨h.data, h.stored, h.injective, h.freed, h.objects, h.pending, h.nodup⟩

private theorem alloc (h : Sound w) (hcon : obj.con_.2 = none) : Sound (w.alloc obj) := by
  refine ⟨h.data, h.stored, h.injective, h.freed, ?_, ?_, h.nodup⟩
  · intro o ho c hc
    rcases List.mem_append.1 ho with ho | ho
    · exact h.objects o ho c hc
    · rw [List.mem_singleton.1 ho, hcon] at hc
      cases hc
  · intro req hreq
    obtain ⟨hopen, o, ho, he⟩ := h.pending req hreq
    refine ⟨hopen, o, ⟨?_, ho.2⟩, he⟩
    show (w.client.objects ++ [obj])[req.data]? = some o
    rw [List.getElem?_append_left (List.getElem?_eq_some_iff.1 ho.1).1]
    exact ho.1

/-- A new object is idle. -/
private theorem idle_length (h : Sound w) : w.Idle w.client.objects.length := by
  intro q hq heq
  obtain ⟨-, o, ho, -⟩ := h.pending q hq
  have hlt := (List.getElem?_eq_some_iff.1 ho.1).1
  rw [heq] at hlt
  exact Nat.lt_irrefl _ hlt

private theorem setUserErrorCb (h : Sound w) (hobj : w.Holds that obj) (set : Bool) :
    Sound (w.updObject that fun o => { o with userErrorCb_ := set }) := by
  rw [updObject_eq hobj.1]
  refine ⟨h.data, h.stored, h.injective, h.freed, ?_, ?_, h.nodup⟩
  · intro o ho c hc
    rcases List.mem_or_eq_of_mem_set ho with ho | rfl
    · exact h.objects o ho c hc
    · exact h.objects obj (List.mem_of_getElem? hobj.1) c hc
  · intro req hreq
    obtain ⟨hopen, o, ho, he⟩ := h.pending req hreq
    by_cases hd : that = req.data
    · subst hd
      have hoo : o = obj := Option.some.inj (ho.1.symm.trans hobj.1)
      subst hoo
      refine ⟨hopen, { o with userErrorCb_ := set }, ⟨?_, ho.2⟩, he⟩
      show (w.client.objects.set req.data _)[req.data]? = _
      rw [List.getElem?_set_self (List.getElem?_eq_some_iff.1 ho.1).1]
    · refine ⟨hopen, o, ⟨?_, ho.2⟩, he⟩
      show (w.client.objects.set that _)[req.data]? = _
      rw [List.getElem?_set_ne hd]
      exact ho.1

end Sound

/-- A new client is in a sound state. -/
theorem Initial.sound {w : AsyncWorld} (h : Initial w) : Sound w := by
  refine ⟨h.data, ?_, ?_, h.freed, ?_, ?_, ?_⟩
  · rintro c (⟨e, he, rfl⟩ | ⟨e, he, -⟩)
    · have hget := List.getElem?_eq_getElem (h.nodes e he)
      exact ⟨_, hget, (h.contexts _ (List.mem_of_getElem? hget)).2⟩
    · rw [h.redirects] at he
      cases he
  -- nothing is cached yet
  · intro a ha
    rw [h.redirects] at ha
    cases ha
  · intro o ho
    rw [h.objects] at ho
    cases ho
  · intro q hq
    rw [h.pending] at hq
    cases hq
  · rw [h.pending]
    exact List.nodup_nil

/-- The setter changes the handler of an object that is alive. -/
private theorem setUserErrorCb_step {w w' : AsyncWorld} {that : ObjPtr} {set : Bool}
    (hs : Step w (.setUserErrorCb that set) w') :
    ∃ obj, w.Holds that obj ∧ w' = w.updObject that fun o => { o with userErrorCb_ := set } := by
  rcases object_cases that w with ⟨obj, hrun, hobj⟩ | hrun
  · refine ⟨obj, hobj, ?_⟩
    have hstep := (Code.bind_of_ret hrun fun _ => Code.modify fun w => w.updObject that fun o =>
      { o with userErrorCb_ := set }).symm.trans hs
    exact (congrArg Prod.snd hstep).symm
  · have hstep := (Code.bind_of_undefined hrun fun _ => Code.modify fun w => w.updObject that fun o =>
      { o with userErrorCb_ := set }).symm.trans hs
    cases hstep

/-- Nothing is sent, recorded or connected: at most an object is created or its handler set. -/
structure Silent (w w' : AsyncWorld) : Prop where
  sound : Sound w'
  trace : w'.client.trace = w.client.trace
  pending : w'.client.pending = w.client.pending
  firing : w'.client.firing = w.client.firing
  contexts : w'.contexts = w.contexts
  nodes : w'.nodes = w.nodes
  redirects : w'.redirects = w.redirects
  kept : ∀ (i : ObjPtr) (o : AsyncHiredisCommand), w.client.objects[i]? = some o →
    ∃ set, w'.client.objects[i]? = some { o with userErrorCb_ := set }
  old : ∀ (i : ObjPtr) (o' : AsyncHiredisCommand), w'.client.objects[i]? = some o' →
    o'.con_.2 = none ∧ o'.alive = true ∨ ∃ o, w.client.objects[i]? = some o ∧ o'.con_ = o.con_ ∧ o'.alive = o.alive

/-- What a step can do. -/
inductive StepCase (w : AsyncWorld) : Stimulus → AsyncWorld → Prop where
  | silent {e : Stimulus} {w' : AsyncWorld} (h : Silent w w')
      (hnone : ∀ con r ch, e = .reply con r ch → w.oldest con = none) : StepCase w e w'
  | issued (args : Arguments) (ch ch' : Choices) (obj : AsyncHiredisCommand) (c : ConPtr) (hcon : obj.con_.2 = none)
      (halive : obj.alive = true) (hc : w.Stored c) :
      StepCase w (.command args ch) ((((w.choose ch).alloc obj).noted ch'
        [.sent (obj.commandOn w.client.objects.length c) w.client.firing, .returned w.client.objects.length]).enqueue
          (obj.commandOn w.client.objects.length c))
  | rejected (args : Arguments) (ch ch' : Choices) (obj : AsyncHiredisCommand) (c : ConPtr) (hcon : obj.con_.2 = none)
      (halive : obj.alive = true) :
      StepCase w (.command args ch) ((((w.choose ch).alloc obj).noted ch'
        [.refused (obj.commandOn w.client.objects.length c) w.client.firing, .deleted w.client.objects.length]).kill
          w.client.objects.length obj)
  | answered (con : ConPtr) (r : RedisReply) (ch : Choices) (req : Request) (obj obj' : AsyncHiredisCommand)
      (v u : AsyncWorld) (ho : w.oldest con = some req) (hobj : w.Holds req.data obj) (he : req.Expected obj)
      (hreq : req.con = con) (hno : ¬ ∃ e, (w.fire req r ch).EscapesFrom req obj r e)
      (hl : Linked req.data obj obj' ((w.fire req r ch).attemptOf req obj r).target (w.fire req r ch) v)
      (hs : Settles req.data obj' con r ((w.fire req r ch).attemptOf req obj r) v u)
      (hv : Sound v) (hidle : v.Idle req.data) (hvobj : v.Holds req.data obj') (hu : Sound (u.release w.replies)) :
      StepCase w (.reply con r ch) (u.release w.replies)

private theorem silent_alloc {w : AsyncWorld} (h : Sound w) (args : Arguments) (ch : Choices) (cmd : Bytes) :
    Silent w ((w.choose ch).alloc (args.object cmd)) := by
  refine ⟨(h.choose ch).alloc rfl, rfl, rfl, rfl, rfl, rfl, rfl, fun i o ho => ⟨o.userErrorCb_, ?_⟩, fun i o' ho' => ?_⟩
  · show (w.client.objects ++ [_])[i]? = some o
    rw [List.getElem?_append_left (List.getElem?_eq_some_iff.1 ho).1]
    exact ho
  · replace ho' : (w.client.objects ++ [args.object cmd])[i]? = some o' := ho'
    by_cases hi : i < w.client.objects.length
    · rw [List.getElem?_append_left hi] at ho'
      exact Or.inr ⟨o', ho', rfl, rfl⟩
    · rw [List.getElem?_append_right (Nat.le_of_not_lt hi)] at ho'
      have hm := List.mem_singleton.1 (List.mem_of_getElem? ho')
      rw [hm]
      exact Or.inl ⟨rfl, rfl⟩

private theorem silent_setUserErrorCb {w : AsyncWorld} (h : Sound w) {that : ObjPtr} {obj : AsyncHiredisCommand}
    (hobj : w.Holds that obj) (set : Bool) : Silent w (w.updObject that fun o => { o with userErrorCb_ := set }) := by
  have hset := h.setUserErrorCb hobj set
  rw [updObject_eq hobj.1] at hset ⊢
  have hlt := (List.getElem?_eq_some_iff.1 hobj.1).1
  refine ⟨hset, rfl, rfl, rfl, rfl, rfl, rfl, fun i o ho => ?_, fun i o' ho' => Or.inr ?_⟩
  · show ∃ s, (w.client.objects.set that _)[i]? = _
    by_cases hi : that = i
    · subst hi
      cases Option.some.inj (ho.symm.trans hobj.1)
      exact ⟨set, List.getElem?_set_self hlt⟩
    · rw [List.getElem?_set_ne hi]
      exact ⟨o.userErrorCb_, ho⟩
  · replace ho' : (w.client.objects.set that { obj with userErrorCb_ := set })[i]? = some o' := ho'
    by_cases hi : that = i
    · subst hi
      rw [List.getElem?_set_self hlt] at ho'
      cases ho'
      exact ⟨obj, hobj.1, rfl, rfl⟩
    · rw [List.getElem?_set_ne hi] at ho'
      exact ⟨o', ho', rfl, rfl⟩

theorem step_cases {w w' : AsyncWorld} {e : Stimulus} (h : Sound w) (hs : Step w e w') : StepCase w e w' := by
  cases e with
  | command args ch =>
    rcases command_exec h args ch with ⟨-, v, hrun⟩ | hrun | ⟨cmd, obj, that, -, rfl, rfl, hrun |
      ⟨c, ch', hc, -, hrun | hrun⟩⟩
    · cases hrun.symm.trans hs
    · cases hrun.symm.trans hs
      exact .silent ⟨h.choose ch, rfl, rfl, rfl, rfl, rfl, rfl, fun i o ho => ⟨_, ho⟩,
        fun i o' ho' => Or.inr ⟨o', ho', rfl, rfl⟩⟩ (by simp)
    · cases hrun.symm.trans hs
      exact .silent (silent_alloc h args ch cmd) (by simp)
    · cases hrun.symm.trans hs
      exact .issued args ch ch' _ c rfl rfl hc
    · cases hrun.symm.trans hs
      exact .rejected args ch ch' _ c rfl rfl
  | setUserErrorCb that set =>
    obtain ⟨obj, hobj, rfl⟩ := setUserErrorCb_step hs
    exact .silent (silent_setUserErrorCb h hobj set) (by simp)
  | reply con r ch =>
    cases ho : w.oldest con with
    | none =>
      have hrun : (Stimulus.reply con r ch).exec w = (.ret (), w) := by
        refine (Code.bind_of_ret (Code.get_apply w) _).trans ?_
        rw [ho]
        rfl
      cases hrun.symm.trans hs
      refine .silent ⟨h, rfl, rfl, rfl, rfl, rfl, rfl, fun i o ho => ⟨_, ho⟩,
        fun i o' ho' => Or.inr ⟨o', ho', rfl, rfl⟩⟩ ?_
      rintro con' r' ch' heq
      cases heq
      exact ho
    | some req =>
      obtain ⟨obj, hobj, he, hreq, ⟨e, v, -, hrun⟩ | ⟨hno, obj', v, u, hrun, hl, hset, hv, hidle, hvobj, hu⟩⟩ :=
        reply_cases h ho r ch rfl
      · cases hrun.symm.trans hs
      · cases hrun.symm.trans hs
        exact .answered con r ch req obj obj' v u ho hobj he hreq hno hl hset hv hidle hvobj hu

theorem step_sound {w w' : AsyncWorld} {e : Stimulus} (h : Sound w) (hs : Step w e w') : Sound w' := by
  have hidle := h.idle_length
  cases step_cases h hs with
  | silent hsil hnone => exact hsil.sound
  | issued args ch ch' obj c hcon halive hc =>
    exact (((h.choose ch).alloc hcon).noted ch' _).enqueue (obj.commandOn _ c) (h.stored c hc)
      ((w.choose ch).holds_alloc obj halive) rfl hidle
  | rejected args ch ch' obj c hcon halive =>
    exact (((h.choose ch).alloc hcon).noted ch' _).kill ((w.choose ch).holds_alloc obj halive) hidle
  | answered con r ch req obj obj' v u ho hobj he hreq hno hl hset hv hidle hvobj hu => exact hu

/-- Every reachable state is sound. -/
theorem sound_of_run {w : AsyncWorld} {hist : List (AsyncWorld × Stimulus)} (r : AsyncRun w hist) : Sound w :=
  Run.invariant (fun _ h => h.sound) (fun _ _ _ h hs => step_sound h hs) r

/-- Between the stimuli no callback runs. -/
theorem firing_of_run {w : AsyncWorld} {hist : List (AsyncWorld × Stimulus)} (r : AsyncRun w hist) :
    w.client.firing = none := by
  induction r with
  | start h => exact h.firing
  | next r hs ih =>
    cases step_cases (sound_of_run r) hs with
    | silent hsil hnone => rw [hsil.firing, ih]
    | issued args ch ch' obj c hcon halive hc => exact ih
    | rejected args ch ch' obj c hcon halive => rw [Sound.client_kill]; exact ih
    | answered con r ch req obj obj' v u ho hobj he hreq hno hl hset hv hidle hvobj hu => rfl

/-- Objects stay where they are, with their command and callback. -/
theorem step_object {w w' : AsyncWorld} {e : Stimulus} (h : StepCase w e w') {i : ObjPtr} {o : AsyncHiredisCommand}
    (ho : w.client.objects[i]? = some o) :
    ∃ o', w'.client.objects[i]? = some o' ∧ o'.cmd_ = o.cmd_ ∧ o'.redisCallback_ = o.redisCallback_ := by
  have hlt := (List.getElem?_eq_some_iff.1 ho).1
  cases h with
  | silent hsil hnone =>
    obtain ⟨set, hset⟩ := hsil.kept i o ho
    exact ⟨_, hset, rfl, rfl⟩
  | issued args ch ch' obj c hcon halive hc =>
    refine ⟨o, ?_, rfl, rfl⟩
    show (w.client.objects ++ [obj])[i]? = _
    rw [List.getElem?_append_left hlt]
    exact ho
  | rejected args ch ch' obj c hcon halive =>
    refine ⟨o, ?_, rfl, rfl⟩
    rw [Sound.client_kill]
    show ((w.client.objects ++ [obj]).set _ _)[i]? = _
    rw [List.getElem?_set_ne (Nat.ne_of_gt hlt), List.getElem?_append_left hlt]
    exact ho
  | answered con r ch req obj obj' v u hold hobj he hreq hno hl hset hv hidle hvobj hu =>
    -- only the object of the request changes: it may get a connection, and it may be deleted
    obtain ⟨alive, hobjs⟩ := hset.objects hvobj
    obtain ⟨moves, connects, lifetime, hcl⟩ := hl.client_eq
    have hfinal : (u.release w.replies).client.objects =
        (w.client.objects.set req.data obj').set req.data { obj' with alive := alive } := by
      show u.client.objects = _
      rw [hobjs, hcl]
      rfl
    rw [hfinal, List.set_set]
    by_cases hi : req.data = i
    · subst hi
      rw [List.getElem?_set_self hlt]
      have hoo : o = obj := Option.some.inj (ho.symm.trans hobj.1)
      subst hoo
      refine ⟨_, rfl, hl.cmd_eq, ?_⟩
      rcases hl.link with ⟨rfl, -⟩ | ⟨-, _, _, -, rfl, -⟩ <;> rfl
    · rw [List.getElem?_set_ne hi]
      exact ⟨o, ho, rfl, rfl⟩

/-! ### Runs that are computed -/

namespace Stimulus

/-- The state after a sequence of stimuli. -/
def after : List Stimulus → AsyncWorld → AsyncWorld
  | [], w => w
  | e :: es, w => after es (e.exec w).2

/-- The steps taken. -/
def trail : List Stimulus → AsyncWorld → List (AsyncWorld × Stimulus)
  | [], _ => []
  | e :: es, w => (w, e) :: trail es (e.exec w).2

/-- All of them are handled. -/
def handled : List Stimulus → AsyncWorld → Bool
  | [], _ => true
  | e :: es, w => (e.exec w).1 = .ret () && handled es (e.exec w).2

end Stimulus

/-- Stimuli that are handled make a run; `A` is what is assumed of each of them. -/
theorem run_after_of {A : Stimulus → Prop} {w : AsyncWorld} {hist : List (AsyncWorld × Stimulus)}
    (r : Run Initial (fun w e w' => A e ∧ Step w e w') w hist) (es : List Stimulus) (hA : ∀ e ∈ es, A e)
    (h : Stimulus.handled es w = true) :
    Run Initial (fun w e w' => A e ∧ Step w e w') (Stimulus.after es w) (hist ++ Stimulus.trail es w) := by
  induction es generalizing w hist with
  | nil => rw [Stimulus.trail, List.append_nil]; exact r
  | cons e es ih =>
    rw [Stimulus.handled, Bool.and_eq_true, decide_eq_true_eq] at h
    have hstep : Step w e (e.exec w).2 := Prod.ext h.1 rfl
    have hnext := ih (r.next ⟨hA e (List.mem_cons_self ..), hstep⟩) (fun e he => hA e (List.mem_cons_of_mem _ he)) h.2
    rwa [List.append_assoc] at hnext

theorem run_after {w : AsyncWorld} (h0 : Initial w) (es : List Stimulus) (h : Stimulus.handled es w = true) :
    AsyncRun (Stimulus.after es w) (Stimulus.trail es w) :=
  (run_after_of (A := fun _ => True) (.start h0) es (fun _ _ => trivial) h).mono fun _ _ _ hs => hs.2

/-- The environment at its best: every message is accepted, every connect succeeds. -/
def calm : Choices := { sends := [], connects := [], actions := [], subscribed := false, movedCb := none }

/-- A new client of a cluster of one node. -/
def oneNode : AsyncWorld :=
  { cluster :=
      { connections_ := { connections_ := .empty, nodes_ := OrderedMap.empty.insert (0, 16383) 0 }
        userMovedFn_ := false, readytouse_ := true, moved_ := false }
    contexts := [Context.opened (text "10.0.0.1") 7000]
    replies := 1
    freed := [0]
    client :=
      { data_ := { adapter := true, pcluster := true, lifetime := 1, freed := false }
        objects := [], pending := [], firing := none, choices := calm, trace := [] } }

theorem oneNode_initial : Initial oneNode where
  data := rfl
  objects := rfl
  pending := rfl
  firing := rfl
  trace := rfl
  redirects := rfl
  nodes := by
    intro e he
    rw [List.mem_singleton.1 he]
    exact Nat.zero_lt_one
  contexts := by
    intro x hx
    rw [List.mem_singleton.1 hx]
    exact ⟨rfl, rfl⟩
  freed := by
    intro a ha
    rw [List.mem_singleton.1 ha]
    exact Nat.zero_lt_one

/-- A command that is redirected with `ASK`; `ASKING` is answered with `OK`, and the environment decides how the
command can be sent then. -/
def askedOnce (sends : List Status) : List Stimulus :=
  [.command ⟨false, text "k", some (text "GET k"), true⟩ calm,
    .reply 0 (.error (.ofText "ASK 7629 10.0.0.2:7001")) calm,
    .reply 1 (.status (.ofText "OK")) { calm with sends }]

end HiredisCluster
