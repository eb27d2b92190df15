import HiredisCluster.OverlappingRanges
import HiredisCluster.PoolProgress
import HiredisCluster.RedirectionSyntax

/-!
# Where threads send their messages

The connections of a pool all lead to one node (`Tables`).  A program asks for a connection by a key or by the address
in the reply that it read last (`reading`), and what it gets, at once or after a wait, is of the pool of the range that
governs the slot of the key or of the address (`OnErrand`).  So whatever the order of the threads, and whoever had the
connection before, every message goes where its thread asked for (`messages_directed`).
-/

namespace HiredisCluster

open Cxx HiredisCommand

/-! ### What a program reads -/

/-- The reply that a program got last, unless it has sent a message since, and the one that it read last. -/
structure Reading where
  got : Option RedisReply
  read : Option RedisReply

/-- A program reads the reply that it got last, and asks for no address but the one in the reply that it read last. -/
def reading : Program.Protocol syncInterface Reading where
  allows g c :=
    match c with
    | .readReply p => p.object? = g.got
    | .createNewConnection host port => ∃ r state, g.read = some r ∧ processResult r = .ret (state, host, port)
    | _ => True
  after g c r :=
    match c, r with
    | .redisAppendFormattedCommand _ _, _ => ⟨none, none⟩
    | .redisGetReply _, reply | .redisCommand _ _, reply => ⟨reply.map (·.2), none⟩
    | .readReply _, reply => { g with read := some reply }
    | _, _ => g

namespace Reading

open Program

variable {g : Reading}

private theorem obeys_sync {c : SyncCall} {Q : Reading → c.Result → Prop} (ha : reading.allows g c)
    (hq : ∀ r, Q (reading.after g c r) r) : (sync c).Obeys reading Q g := ⟨ha, hq⟩

/-- A call that has nothing to do with replies. -/
private theorem other_obeys {c : SyncCall} (ha : reading.allows g c) (hk : ∀ r, reading.after g c r = g) :
    (sync c).Obeys reading (fun g' _ => g' = g) g := ⟨ha, hk⟩

private theorem obeys_outcome {α : Type} (o : Outcome Exn α) :
    (outcome o : Sync α).Obeys reading (fun g' a => g' = g ∧ o = .ret a) g := by
  cases o with
  | ret a => exact (⟨rfl, rfl⟩ : g = g ∧ _)
  | throws e => trivial
  | undefined => trivial

private theorem obeys_raise {α : Type} {Q : Reading → α → Prop} (reply : ReplyPtr) (e : ClusterException) :
    (raise reply e : Sync α).Obeys reading Q g := by
  cases reply with
  | null => trivial
  | unset => exact ⟨trivial, fun _ => trivial⟩
  | object a r => exact ⟨trivial, fun _ => trivial⟩

/-- A message is sent and its reply is the one to read. -/
private theorem processHiredisCommand_obeys (this : HiredisCommand) (con : ConPtr) :
    (this.processHiredisCommand con).Obeys reading (fun g' reply => g'.got = reply.object?) g := by
  refine Obeys.bind (obeys_sync (Q := fun _ _ => True) trivial fun _ => trivial) ?_
  intro g₁ _ _
  refine Obeys.bind (obeys_sync (c := .redisGetReply con) (Q := fun g' x => g'.got = x.map (·.2)) trivial
    fun _ => rfl) ?_
  intro g₂ x hx
  cases x <;> exact hx

private theorem asking_obeys (con : ConPtr) : (asking con).Obeys reading
    (fun g' reply => g'.got = reply.object?) g := by
  refine Obeys.bind (obeys_sync (c := .redisCommand con (text "ASKING")) (Q := fun g' x => g'.got = x.map (·.2)) trivial
    fun _ => rfl) ?_
  intro g₁ x hx
  cases x <;> exact hx

/-- The checks of the reply that was got. -/
private theorem checkCritical_obeys {reply : ReplyPtr} (h : g.got = reply.object?) (critical free : Bool)
    (error : Bytes) (con : Option ConPtr) : (checkCritical reply critical free error con : Sync Unit).Obeys reading
      (fun g' _ => g'.got = reply.object?) g := by
  have checked : (checkCritical reply critical free error none : Sync Unit).Obeys reading
      (fun g' _ => g'.got = reply.object?) g := by
    refine Obeys.bind (obeys_sync (c := .readReply reply) (Q := fun g' _ => g'.got = reply.object?) h.symm
      fun _ => h) ?_
    intro g₁ r hg
    split
    · split
      · exact obeys_raise _ _
      · refine Obeys.bind (obeys_outcome _) ?_
        rintro g₂ str ⟨rfl, -⟩
        split
        · exact obeys_raise _ _
        · exact hg
    · exact hg
  cases con with
  | none => exact checked
  | some c =>
    refine Obeys.bind (other_obeys trivial fun _ => rfl) ?_
    rintro g₁ e rfl
    cases e with
    | true => exact Obeys.bind (obeys_raise (Q := fun _ _ => False) _ _) fun _ _ h => h.elim
    | false => exact checked

private theorem processAsk_obeys (this : HiredisCommand) (reply : ReplyPtr) {host port : Bytes} {r : RedisReply}
    {state : ProcessState} (hread : g.read = some r) (hr : processResult r = .ret (state, host, port)) :
    (this.processAsk reply host port).Obeys reading (fun _ _ => True) g := by
  refine Obeys.bind (other_obeys (c := .freeReplyObject reply) trivial fun _ => rfl) ?_
  rintro g₁ _ rfl
  refine Obeys.bind (other_obeys (c := .createNewConnection host port) ⟨r, state, hread, hr⟩ fun _ => rfl) ?_
  rintro g₂ ⟨key, con⟩ rfl
  cases con with
  | none => exact obeys_raise _ _
  | some c =>
    refine Obeys.bind (other_obeys trivial fun _ => rfl) ?_
    rintro g₃ e rfl
    cases e with
    | true =>
      refine Obeys.bind (other_obeys trivial fun _ => rfl) ?_
      rintro g₄ _ rfl
      refine Obeys.bind (other_obeys trivial fun _ => rfl) ?_
      rintro g₅ _ rfl
      exact obeys_raise _ _
    | false =>
      refine Obeys.bind (asking_obeys c) ?_
      intro g₄ a ha
      refine Obeys.bind (checkCritical_obeys ha ..) ?_
      intro g₅ _ _
      refine Obeys.bind (other_obeys (c := .freeReplyObject a) trivial fun _ => rfl) ?_
      rintro g₆ _ rfl
      refine Obeys.bind (processHiredisCommand_obeys this c) ?_
      intro g₇ reply' hreply
      refine Obeys.bind (checkCritical_obeys hreply ..) ?_
      intro g₈ _ _
      refine Obeys.bind (other_obeys (c := .releaseHostConnection (key, some c)) trivial fun _ => rfl) ?_
      intro g₉ _ _
      trivial

private theorem processMoved_obeys (this : HiredisCommand) (reply : ReplyPtr) {host port : Bytes} {r : RedisReply}
    {state : ProcessState} (hread : g.read = some r) (hr : processResult r = .ret (state, host, port)) :
    (this.processMoved reply host port).Obeys reading (fun _ _ => True) g := by
  refine Obeys.bind (other_obeys (c := .freeReplyObject reply) trivial fun _ => rfl) ?_
  rintro g₁ _ rfl
  refine Obeys.bind (other_obeys (c := .createNewConnection host port) ⟨r, state, hread, hr⟩ fun _ => rfl) ?_
  rintro g₂ ⟨key, con⟩ rfl
  cases con with
  | none => exact obeys_raise _ _
  | some c =>
    refine Obeys.bind (other_obeys trivial fun _ => rfl) ?_
    rintro g₃ e rfl
    cases e with
    | true =>
      refine Obeys.bind (other_obeys trivial fun _ => rfl) ?_
      rintro g₄ _ rfl
      exact obeys_raise _ _
    | false =>
      refine Obeys.bind (processHiredisCommand_obeys this c) ?_
      intro g₄ reply' _
      refine Obeys.bind (other_obeys (c := .moved) trivial fun _ => rfl) ?_
      rintro g₅ _ rfl
      refine Obeys.bind (other_obeys (c := .releaseHostConnection (key, some c)) trivial fun _ => rfl) ?_
      intro g₆ _ _
      trivial

/-- `process` keeps the rule from the start. -/
theorem process_obeys (this : HiredisCommand) : this.process.Obeys reading (fun _ _ => True) ⟨none, none⟩ := by
  refine Obeys.bind (other_obeys (c := .getConnection this.key_) trivial fun _ => rfl) ?_
  rintro g₁ con rfl
  refine Obeys.bind (processHiredisCommand_obeys this con.2) ?_
  intro g₂ reply hreply
  refine Obeys.bind (checkCritical_obeys hreply ..) ?_
  intro g₃ _ hgot
  refine Obeys.bind (other_obeys (c := .releaseSlotConnection con) trivial fun _ => rfl) ?_
  rintro g₄ _ rfl
  refine Obeys.bind (obeys_sync (c := .readReply reply) (Q := fun g' r => g'.read = some r) hgot.symm fun _ => rfl) ?_
  intro g₅ r hread
  refine Obeys.bind (obeys_outcome _) ?_
  rintro g₆ ⟨state, host, port⟩ ⟨rfl, hr⟩
  cases state with
  | ask => exact processAsk_obeys this reply hread hr
  | moved => exact processMoved_obeys this reply hread hr
  | ready => trivial
  | clusterDown => exact obeys_raise _ _
  | failed => exact obeys_raise _ _

end Reading

namespace Threads

open ThreadedPool

variable {ι : Type} {answers : Nat → RedisReply} {s s' : Threads ι} {t : ι}

/-- What a thread got or read is the answer to the message that it sent last. -/
def Knows (answers : Nat → RedisReply) (x : ThreadState) (g : Reading) : Prop :=
  ∀ r, g.got = some r ∨ g.read = some r → ∃ m, x.sent = some m ∧ answers m = r

/-- A thread goes on by the rule, and the replies are its own. -/
def Reads (answers : Nat → RedisReply) (x : ThreadState) : Prop :=
  match x.activity with
  | .idle => True
  | .running p => ∃ g, p.Obeys reading (fun _ _ => True) g ∧ Knows answers x g
  | .waiting _ resume => ∃ g, (∀ con, (resume con).Obeys reading (fun _ _ => True) g) ∧ Knows answers x g

private theorem knows_nothing (x : ThreadState) : Knows answers x ⟨none, none⟩ := by
  rintro r (h | h) <;> cases h

variable [DecidableEq ι] {g : Reading}

private theorem Reads.goOn {p : Sync ReplyPtr} (hp : p.Obeys reading (fun _ _ => True) g)
    (hk : Knows answers (s.threads t) g) : Reads answers ((s.goOn t p).threads t) := by
  rw [goOn_self]
  exact ⟨g, hp, hk⟩

private theorem Reads.obtain {κ : Type} {x : Outcome Exn (Pulled κ) × ThreadedPool} {rest : κ × ConPtr → Sync ReplyPtr}
    (hrest : ∀ conn, (rest conn).Obeys reading (fun _ _ => True) g) (hk : Knows answers (s.threads t) g) :
    Reads answers ((s.obtain t x rest).threads t) := by
  obtain ⟨o, c⟩ := x
  cases o with
  | ret pulled =>
    cases pulled with
    | got conn pool =>
      simp only [Threads.obtain, setThread_self]
      exact ⟨g, hrest conn, hk⟩
    | waits key pool =>
      simp only [Threads.obtain, setThread_self]
      exact ⟨g, fun con => hrest (key, con), hk⟩
  | throws e => exact .goOn (g := g) trivial hk
  | undefined => exact .goOn (g := g) trivial hk

private theorem Reads.released {con : ConPtr} {x : Outcome Exn Unit × ThreadedPool} {rest : Unit → Sync ReplyPtr}
    (hrest : ∀ r, (rest r).Obeys reading (fun _ _ => True) g) (hk : Knows answers (s.threads t) g) :
    Reads answers ((s.released t con x rest).threads t) := by
  simp only [Threads.released, setThread_self]
  refine ⟨g, ?_, hk⟩
  cases x.1 with
  | ret r => exact hrest r
  | throws e => trivial
  | undefined => trivial

/-- A reply that a thread receives answers its last message. -/
theorem Reads.receive {con : ConPtr} {env : Surroundings} {rest : Option (Nat × RedisReply) → Sync ReplyPtr}
    (sound : Sound s) (hact : (s.threads t).activity = .running (.call (.redisGetReply con) rest))
    (hrest : ∀ x, (rest x).Obeys reading (fun _ _ => True) ⟨x.map (·.2), none⟩) :
    Reads answers ((s.receive answers t con env rest).threads t) := by
  unfold Threads.receive
  by_cases herr : s.err con = true
  · rw [if_pos herr]
    exact .goOn (hrest none) (knows_nothing _)
  · obtain ⟨m, hsent, -, hfl⟩ := sound.awaits hact (eq_false_of_ne_true herr)
    rw [if_neg herr, hfl]
    by_cases hworks : env.works = true
    · rw [if_pos hworks]
      refine .goOn (hrest (some (s.replies, answers m))) ?_
      rintro r (h | h)
      · cases h
        exact ⟨m, hsent, rfl⟩
      · cases h
    · rw [if_neg hworks]
      exact .goOn (hrest none) (knows_nothing _)

private theorem Reads.call (sound : Sound s) (env : Surroundings) {c : SyncCall} {rest : c.Result → Sync ReplyPtr}
    (hact : (s.threads t).activity = .running (.call c rest)) (hreads : Reads answers (s.threads t)) :
    Reads answers ((s.call answers t env c rest).threads t) := by
  have own := hreads
  unfold Reads at own
  rw [hact] at own
  obtain ⟨g, ⟨hallows, hrest⟩, hk⟩ := own
  cases c with
  | getConnection key => exact .obtain hrest hk
  | createNewConnection host port => exact .obtain (fun conn => hrest (conn.1, some conn.2)) hk
  | releaseSlotConnection conn => exact .released hrest hk
  | releaseHostConnection conn =>
    obtain ⟨key, con⟩ := conn
    cases con with
    | none => exact .goOn (g := g) trivial hk
    | some con => exact .released hrest hk
  | moved =>
    unfold Threads.call
    cases env.movedCb with
    | none => exact .goOn (hrest ()) hk
    | some e => exact .goOn (g := g) trivial hk
  | redisAppendFormattedCommand con cmd =>
    unfold Threads.call
    cases cmd with
    | none => exact .goOn (g := g) trivial hk
    | some bytes =>
      by_cases hworks : env.works = true
      · simp only [if_pos hworks]
        exact .goOn (hrest .ok) (knows_nothing _)
      · simp only [if_neg hworks]
        exact .goOn (hrest .err) (knows_nothing _)
  | redisGetReply con => exact .receive sound hact hrest
  | redisCommand con format =>
    unfold Threads.call
    by_cases hworks : env.works = true
    · -- the reply that it reads next is the one that the call returns
      simp only [if_pos hworks]
      exact .goOn (g := ⟨none, none⟩) ⟨trivial, fun x => hrest x⟩ (knows_nothing _)
    · simp only [if_neg hworks]
      exact .goOn (hrest none) (knows_nothing _)
  | err con => exact .goOn (hrest _) hk
  | errstr con => exact .goOn (hrest _) hk
  | readReply reply =>
    unfold Threads.call
    cases reply with
    | object a r =>
      by_cases hfreed : a ∈ s.freed
      · simp only [if_pos hfreed]
        exact .goOn (g := g) trivial hk
      · simp only [if_neg hfreed]
        refine .goOn (hrest r) ?_
        rintro r' (h | h)
        · exact hk r' (Or.inl h)
        · cases h
          exact hk r (Or.inl hallows.symm)
    | null => exact .goOn (g := g) trivial hk
    | unset => exact .goOn (g := g) trivial hk
  | freeReplyObject reply =>
    unfold Threads.call
    cases reply with
    | object a r =>
      by_cases hfreed : a ∈ s.freed
      · simp only [if_pos hfreed]
        exact .goOn (g := g) trivial hk
      · simp only [if_neg hfreed]
        exact .goOn (hrest ()) hk
    | null => exact .goOn (hrest ()) hk
    | unset => exact .goOn (g := g) trivial hk

/-- Every step keeps the rule. -/
private theorem Reads.exec (sound : Sound s) (h : ∀ u, Reads answers (s.threads u)) (e : ι × Turn) (u : ι) :
    Reads answers ((s.exec answers e).threads u) := by
  obtain ⟨t, turn⟩ := e
  by_cases hu : u = t
  · subst hu
    have own := h u
    cases turn with
    | start this =>
      unfold Threads.exec
      cases hact : (s.threads u).activity with
      | idle => exact .goOn (Reading.process_obeys this) (knows_nothing _)
      | running p => exact own
      | waiting pool resume => exact own
    | insertSlots slots host port connects =>
      rw [exec_insert_threads]
      exact own
    | proceed env =>
      show Reads answers ((s.proceed answers u env).threads u)
      unfold Threads.proceed
      cases hact : (s.threads u).activity with
      | idle => exact own
      | running p =>
        cases p with
        | ret a => simp only [setThread_self]; trivial
        | throws e => simp only [setThread_self]; trivial
        | undefined => exact own
        | call c rest => exact .call sound env hact own
      | waiting pool resume =>
        unfold Reads at own
        rw [hact] at own
        obtain ⟨g, hresume, hk⟩ := own
        exact .obtain (fun conn => hresume conn.2) hk
  · rw [exec_other hu]
    exact h u

private theorem ClusterRun.reads {hist : List (Threads ι × ι × Turn)} (r : ClusterRun answers s hist) (t : ι) :
    Reads answers (s.threads t) := by
  induction r generalizing t with
  | start h =>
    unfold Reads
    rw [(h.idle t).1]
    trivial
  | next r hs ih =>
    rw [hs]
    exact .exec (ClusterRun.sound r) ih _ t

end Threads

/-! ### The tables of the pool -/

/-- The key with which a section pulls a connection or waits for it, and the pool. -/
def Pulled.place {κ : Type} : Pulled κ → κ × PoolPtr
  | .got conn pool => (conn.1, pool)
  | .waits key pool => (key, pool)

namespace ThreadedPool

/-- Where the connections were opened to. -/
def addresses (c : ThreadedPool) : List (Bytes × Int32) := c.contexts.map fun x => (x.host, x.port)

/-- The connections of the pool lead to the address. -/
def Leads (c : ThreadedPool) (pool : PoolPtr) (address : Bytes × Int32) : Prop :=
  ∀ con, con / poolSize_ = pool → ∀ a, c.addresses[con]? = some a → a = address

/-- The tables are as before, and so are the addresses of the connections. -/
structure Steady (c c' : ThreadedPool) : Prop where
  nodes : c'.nodes_ = c.nodes_
  connections : c'.connections_ = c.connections_
  addresses : c'.addresses = c.addresses

variable {κ : Type} {c c' : ThreadedPool} {n : Nat} {address address' : Bytes × Int32}

private theorem Steady.refl (c : ThreadedPool) : Steady c c := ⟨rfl, rfl, rfl⟩

private theorem Steady.grows (h : Steady c c') : Grows c c' := by
  intro key pool hf
  cases key with
  | slots range => exact (congrArg (·.lookup range) h.nodes).trans hf
  | host key => exact (congrArg (·.lookup key) h.connections).trans hf

private theorem pullConnection_steady (key : κ) (pool : PoolPtr) (c : ThreadedPool) :
    Steady c (pullConnection key pool c).2 := by
  unfold pullConnection
  split <;> exact ⟨rfl, rfl, rfl⟩

private theorem getConnection_steady (index : SlotIndex) (c : ThreadedPool) : Steady c (getConnection index c).2 := by
  rcases getConnection_cases index c with ⟨e, -, -, hrun⟩ | hrun
  · rw [hrun]
    exact pullConnection_steady _ _ c
  · rw [hrun]
    exact .refl c

private theorem releaseSlotConnection_steady (conn : SlotConnection) (c : ThreadedPool) :
    Steady c (releaseSlotConnection conn c).2 := by
  unfold releaseSlotConnection
  rw [Code.bind_of_ret (Code.get_apply c)]
  cases c.nodes_.lookup conn.1 with
  | none => exact ⟨rfl, rfl, rfl⟩
  | some pool => exact ⟨rfl, rfl, rfl⟩

private theorem releaseHostConnection_steady (key : Bytes) (con : ConPtr) (c : ThreadedPool) :
    Steady c (releaseHostConnection key con c).2 := by
  unfold releaseHostConnection
  rw [Code.bind_of_ret (Code.get_apply c)]
  cases c.connections_.lookup key with
  | none => exact ⟨rfl, rfl, rfl⟩
  | some pool => exact ⟨rfl, rfl, rfl⟩

/-- A new pool leads to the address it was opened for, and the others lead where they led. -/
private theorem addresses_opened
    (h : c'.contexts = c.contexts ++ List.replicate poolSize_ (Context.opened address.1 address.2))
    (hlen : c.contexts.length = poolSize_ * n) :
    c'.Leads n address ∧ ∀ pool, pool < n → c.Leads pool address' → c'.Leads pool address' := by
  have haddresses : c'.addresses = c.addresses ++ List.replicate poolSize_ address := by
    unfold addresses
    rw [h, List.map_append, List.map_replicate]
    rfl
  have hlength : c.addresses.length = poolSize_ * n := by
    unfold addresses
    rw [List.length_map, hlen]
  have hsize : poolSize_ = 10 := rfl
  constructor
  · intro con hcon a ha
    have hle : c.addresses.length ≤ con := by
      rw [hlength, hsize]
      rw [hsize] at hcon
      omega
    rw [haddresses, List.getElem?_append_right hle] at ha
    exact List.eq_of_mem_replicate (List.mem_of_getElem? ha)
  · intro pool hlt hold con hcon a ha
    have hin : con < c.addresses.length := by
      rw [hlength, hsize]
      rw [hsize] at hcon
      omega
    rw [haddresses, List.getElem?_append_left hin] at ha
    exact hold con hcon a ha

private theorem Hands.place {tag : κ → PoolKey} {x : Outcome Exn (Pulled κ) × ThreadedPool} (h : Hands tag c x)
    {pulled : Pulled κ} (hx : x.1 = .ret pulled) : x.2.find (tag pulled.place.1) = some pulled.place.2 := by
  cases pulled with
  | got conn pool => exact h.got conn.1 conn.2 pool hx
  | waits key pool => exact h.waits key pool hx

private theorem pullConnection_place {key : κ} {pool : PoolPtr} {pulled : Pulled κ}
    (h : (pullConnection key pool c).1 = .ret pulled) : pulled.place = (key, pool) := by
  unfold pullConnection at h
  split at h <;> cases h <;> rfl

private theorem getConnection_place {index : SlotIndex} {pulled : Pulled SlotRange}
    (h : (getConnection index c).1 = .ret pulled) :
    DefaultContainer.searchBySlots index c.nodes_ = .ret pulled.place := by
  rcases getConnection_cases index c with ⟨e, he, -, hrun⟩ | hrun
  · rw [hrun] at h
    rw [he, pullConnection_place h]
  · rw [hrun] at h
    cases h

private theorem insertHost_place {host port : Bytes} {pulled : Pulled Bytes}
    (h : (insertHost host port c).1 = .ret pulled) :
    pulled.place.1 = DefaultContainer.hostKey host port := by
  cases hl : c.connections_.lookup (DefaultContainer.hostKey host port) with
  | some pool =>
    rw [insertHost_found hl] at h
    rw [pullConnection_place h]
  | none =>
    obtain ⟨j, c', -, -, -, -, -, ⟨-, hrun⟩ | ⟨-, e, hrun⟩⟩ := insertHost_new hl
    · rw [hrun] at h
      rw [pullConnection_place h]
    · rw [hrun] at h
      cases h

/-- What is drawn from a pool is a connection of the pool. -/
private theorem Sharing.Stocked.drawn {ι : Type} [DecidableEq ι] {a : Sharing ι} {t : ι} {tag : κ → PoolKey}
    {x : Outcome Exn (Pulled κ) × ThreadedPool} (h : (a.obtain t tag x).Stocked) {conn : κ × ConPtr} {pool : PoolPtr}
    (hx : x.1 = .ret (.got conn pool)) : conn.2 / poolSize_ = pool := by
  obtain ⟨o, c⟩ := x
  cases hx
  exact h.home ⟨t, tag conn.1, conn.2, pool⟩ List.mem_cons_self

end ThreadedPool

/-! ### What was inserted and what was asked for -/

/-- A range of slots that was inserted, with its node. -/
structure Insertion where
  slots : SlotRange
  host : Bytes
  port : Int32

def Insertion.address (e : Insertion) : Bytes × Int32 := (cStr e.host, e.port)

/-- Of the ranges that start at the slot or before it, the one that starts last, and it reaches the slot. -/
structure Insertion.Governs (ins : List Insertion) (slot : SlotIndex) (e : Insertion) : Prop where
  mem : e ∈ ins
  starts : e.slots.1 ≤ slot
  reaches : slot ≤ e.slots.2
  latest : ∀ e' ∈ ins, e'.slots.1 ≤ slot → e'.slots.1 ≤ e.slots.1

/-- A call that hands out a connection. -/
def SyncCall.takes : SyncCall → Bool
  | getConnection _ | createNewConnection _ _ => true
  | _ => false

/-- A thread waits only in a call that hands out a connection. -/
private theorem Activity.Next.waitsFor {c : SyncCall} {rest : c.Result → Sync ReplyPtr} {b : Activity}
    (h : Activity.Next (.running (.call c rest)) b) (hc : c.takes = false) : b.waitsFor = none := by
  cases h with
  | waitsSlots | waitsHost => cases hc
  | _ => rfl

namespace Threads

open ThreadedPool

variable {ι : Type}

/-- The range that a step inserts. -/
def insertion : Threads ι × ι × Turn → Option Insertion
  | (s, t, .insertSlots slots host port _) =>
    match (s.threads t).activity with
    | .idle => some ⟨slots, host, port⟩
    | _ => none
  | _ => none

/-- The ranges that were inserted, in order. -/
def inserted (hist : List (Threads ι × ι × Turn)) : List Insertion := hist.filterMap insertion

variable [DecidableEq ι]

/-- In this step the thread asks for a connection. -/
def requests (t : ι) : Threads ι × ι × Turn → Bool
  | (s, u, .proceed _) => decide (u = t) && (s.threads u).activity.nextCall.any SyncCall.takes
  | _ => false

/-- The last call with which the thread asked for a connection: after the steps `before`, in the state `v`. -/
structure LastRequest (hist : List (Threads ι × ι × Turn)) (t : ι) (before : List (Threads ι × ι × Turn))
    (v : Threads ι) (c : SyncCall) : Prop where
  takes : c.takes = true
  asked : (v.threads t).activity.nextCall = some c
  last : ∃ env after, hist = before ++ (v, t, .proceed env) :: after ∧ ∀ p ∈ after, requests t p = false

/-- The call asks for a connection to the address: that of the range that governs the slot of the key, or the one named
in the answer to the message that the thread sent last. -/
def Directs (answers : Nat → RedisReply) (ins : List Insertion) (sent : Option Nat) (address : Bytes × Int32) :
    SyncCall → Prop
  | .getConnection key => ∃ (slot : SlotIndex) (e : Insertion),
    SlotHash.slotByKey true key (Int32.ofNat key.length).toInt = some slot ∧ e.Governs ins slot ∧ address = e.address
  | .createNewConnection host port => ∃ m state n, sent = some m ∧
    processResult (answers m) = .ret (state, host, port) ∧ stoi port = .ret n ∧ address = (cStr host, n)
  | _ => False

/-- The call asks for a connection of the pool. -/
def Serves (answers : Nat → RedisReply) (ins : List Insertion) (sent : Option Nat) (container : ThreadedPool)
    (pool : PoolPtr) : SyncCall → Prop
  | .getConnection key => ∃ (slot : SlotIndex) (e : Insertion),
    SlotHash.slotByKey true key (Int32.ofNat key.length).toInt = some slot ∧ e.Governs ins slot ∧
    container.find (.slots e.slots) = some pool
  | .createNewConnection host port => (∃ m state, sent = some m ∧
    processResult (answers m) = .ret (state, host, port)) ∧
    container.find (.host (DefaultContainer.hostKey host port)) = some pool
  | _ => False

/-- The pool is the one for which the thread asked last. -/
def Asked (answers : Nat → RedisReply) (hist : List (Threads ι × ι × Turn)) (container : ThreadedPool) (t : ι)
    (pool : PoolPtr) : Prop :=
  ∃ before v c, LastRequest hist t before v c ∧ Serves answers (inserted before) (v.threads t).sent container pool c

/-- The pools of the tables lead where they were inserted or redirected to. -/
structure Tables (hist : List (Threads ι × ι × Turn)) (c : ThreadedPool) : Prop where
  inserted : ∀ e ∈ inserted hist, ∃ pool, c.nodes_.lookup e.slots = some pool ∧ c.Leads pool e.address
  only : ∀ x ∈ c.nodes_.entries, ∃ e ∈ Threads.inserted hist, e.slots = x.1
  redirected : ∀ key pool, c.connections_.lookup key = some pool → ∃ host port n,
    DefaultContainer.hostKey host port = key ∧ 0x3a ∉ host ∧ stoi port = .ret n ∧ c.Leads pool (cStr host, n)

/-- The thread holds, or waits for, connections of the pool for which it asked last. -/
structure OnErrand (answers : Nat → RedisReply) (hist : List (Threads ι × ι × Turn)) (s : Threads ι) (t : ι) :
    Prop where
  held : ∀ con ∈ (s.threads t).held, Asked answers hist s.container t (con / poolSize_)
  waits : ∀ pool, (s.threads t).activity.waitsFor = some pool → Asked answers hist s.container t pool

variable {answers : Nat → RedisReply} {s s' : Threads ι} {t : ι} {hist : List (Threads ι × ι × Turn)}
variable {a : Sharing (Option ι)} {n : Nat}

/-! ### The last request -/

private theorem requests_self (s : Threads ι) (t : ι) (env : Surroundings) :
    requests t (s, t, .proceed env) = (s.threads t).activity.nextCall.any SyncCall.takes := by
  show (decide (t = t) && _) = _
  rw [decide_eq_true rfl, Bool.true_and]

private theorem LastRequest.frame {before : List (Threads ι × ι × Turn)} {v : Threads ι} {c : SyncCall}
    (h : LastRequest hist t before v c) {p : Threads ι × ι × Turn} (hp : requests t p = false) :
    LastRequest (hist ++ [p]) t before v c := by
  obtain ⟨htakes, hasked, env, after, rfl, hafter⟩ := h
  refine ⟨htakes, hasked, env, after ++ [p], by simp, ?_⟩
  intro q hq
  rcases List.mem_append.1 hq with hq | hq
  · exact hafter q hq
  · rw [List.mem_singleton.1 hq]
    exact hp

private theorem LastRequest.new {c : SyncCall} (htakes : c.takes = true)
    (hasked : (s.threads t).activity.nextCall = some c)
    (env : Surroundings) : LastRequest (hist ++ [(s, t, .proceed env)]) t hist s c :=
  ⟨htakes, hasked, env, [], rfl, fun _ hp => absurd hp List.not_mem_nil⟩

/-- What was inserted before a request is still inserted. -/
private theorem LastRequest.inserted_subset {before : List (Threads ι × ι × Turn)} {v : Threads ι} {c : SyncCall}
    (h : LastRequest hist t before v c) {e : Insertion} (he : e ∈ inserted before) : e ∈ inserted hist := by
  obtain ⟨-, -, env, after, rfl, -⟩ := h
  unfold inserted at *
  rw [List.filterMap_append]
  exact List.mem_append_left _ he

omit [DecidableEq ι] in
private theorem Serves.grows {ins : List Insertion} {sent : Option Nat} {container container' : ThreadedPool}
    {pool : PoolPtr} {c : SyncCall} (h : Serves answers ins sent container pool c) (hg : Grows container container') :
    Serves answers ins sent container' pool c := by
  cases c with
  | getConnection key =>
    obtain ⟨slot, e, hslot, hgov, hfind⟩ := h
    exact ⟨slot, e, hslot, hgov, hg _ _ hfind⟩
  | createNewConnection host port => exact ⟨h.1, hg _ _ h.2⟩
  | _ => exact False.elim h

private theorem Asked.frame {container container' : ThreadedPool} {pool : PoolPtr}
    (h : Asked answers hist container t pool)
    (hg : Grows container container') {p : Threads ι × ι × Turn} (hp : requests t p = false) :
    Asked answers (hist ++ [p]) container' t pool := by
  obtain ⟨before, v, c, hlast, hserves⟩ := h
  exact ⟨before, v, c, hlast.frame hp, hserves.grows hg⟩

/-- A thread that asks for nothing, and takes and waits for nothing more. -/
private theorem OnErrand.frame (h : OnErrand answers hist s t) (hg : Grows s.container s'.container)
    {p : Threads ι × ι × Turn} (hp : requests t p = false)
    (hheld : ∀ con ∈ (s'.threads t).held, con ∈ (s.threads t).held)
    (hwaits : ∀ pool, (s'.threads t).activity.waitsFor = some pool → (s.threads t).activity.waitsFor = some pool) :
    OnErrand answers (hist ++ [p]) s' t where
  held con hcon := (h.held con (hheld con hcon)).frame hg hp
  waits pool hpool := (h.waits pool (hwaits pool hpool)).frame hg hp

/-- A thread that is as before and asks for nothing. -/
private theorem OnErrand.same (h : OnErrand answers hist s t) (hg : Grows s.container s'.container)
    {p : Threads ι × ι × Turn} (hp : requests t p = false) (hthread : s'.threads t = s.threads t) :
    OnErrand answers (hist ++ [p]) s' t := by
  refine h.frame hg hp ?_ ?_
  · rw [hthread]
    exact fun _ => id
  · rw [hthread]
    exact fun _ => id

/-- A thread that holds nothing and does not wait. -/
private theorem OnErrand.empty (hheld : (s.threads t).held = [])
    (hwaits : (s.threads t).activity.waitsFor = none) : OnErrand answers hist s t := by
  constructor
  · intro con hcon
    rw [hheld] at hcon
    exact absurd hcon List.not_mem_nil
  · intro pool hpool
    rw [hwaits] at hpool
    cases hpool

/-- A thread with empty hands gets a connection, or waits for one. -/
private theorem OnErrand.obtain {κ : Type} {x : Outcome Exn (Pulled κ) × ThreadedPool}
    {rest : κ × ConPtr → Sync ReplyPtr}
    (hfree : (s.threads t).held = []) (hasked : ∀ pulled, x.1 = .ret pulled → Asked answers hist x.2 t pulled.place.2)
    (hdrawn : ∀ conn pool, x.1 = .ret (.got conn pool) → conn.2 / poolSize_ = pool) :
    OnErrand answers hist (s.obtain t x rest) t := by
  obtain ⟨o, c⟩ := x
  cases o with
  | ret pulled =>
    have hpool := hasked pulled rfl
    cases pulled with
    | got conn pool =>
      simp only [Threads.obtain]
      constructor
      · rw [setThread_self, hfree]
        intro con hcon
        rw [List.mem_singleton.1 hcon, hdrawn conn pool rfl]
        exact hpool
      · rw [setThread_self]
        intro pool' hpool'
        cases hpool'
    | waits key pool =>
      simp only [Threads.obtain]
      constructor
      · rw [setThread_self, hfree]
        intro con hcon
        exact absurd hcon List.not_mem_nil
      · rw [setThread_self]
        intro pool' hpool'
        cases hpool'
        exact hpool
  | throws e =>
    simp only [Threads.obtain]
    exact .empty (by rw [goOn_self]; exact hfree) (by rw [goOn_self]; rfl)
  | undefined =>
    simp only [Threads.obtain]
    exact .empty (by rw [goOn_self]; exact hfree) (by rw [goOn_self]; rfl)

/-! ### What a step does to the tables -/

omit [DecidableEq ι] in
private theorem inserted_append (hist : List (Threads ι × ι × Turn)) (p : Threads ι × ι × Turn) :
    inserted (hist ++ [p]) = inserted hist ++ (insertion p).toList := by
  unfold inserted
  rw [List.filterMap_append]
  cases h : insertion p <;> simp [h]

section tables

variable {c c' : ThreadedPool}

omit [DecidableEq ι] in
private theorem Tables.steady (h : Tables hist c) (hc : Steady c c') {hist' : List (Threads ι × ι × Turn)}
    (hi : Threads.inserted hist' = Threads.inserted hist) : Tables hist' c' := by
  have leads : ∀ pool address, c.Leads pool address → c'.Leads pool address := by
    intro pool address hl
    unfold Leads
    rw [hc.addresses]
    exact hl
  constructor
  · intro e he
    rw [hi] at he
    obtain ⟨pool, hpool, hl⟩ := h.inserted e he
    rw [hc.nodes]
    exact ⟨pool, hpool, leads _ _ hl⟩
  · rw [hc.nodes, hi]
    exact h.only
  · rw [hc.connections]
    intro key pool hpool
    obtain ⟨host, port, n, hkey, hcolon, hport, hl⟩ := h.redirected key pool hpool
    exact ⟨host, port, n, hkey, hcolon, hport, leads _ _ hl⟩

variable (h : Tables hist c) (hlen : c.contexts.length = poolSize_ * c.pools.length)
  (hstored : ∀ key pool, c.find key = some pool → pool < c.pools.length)

include h hlen hstored

omit [DecidableEq ι] in
private theorem Tables.insertSlots {slots : SlotRange} {host : Bytes} {port : Int32}
    (hnew : c.nodes_.lookup slots = none) (hconnects : Connects poolSize_ c.connects) {p : Threads ι × ι × Turn}
    (hp : insertion p = some ⟨slots, host, port⟩) :
    Tables (hist ++ [p]) (ThreadedPool.insertSlots slots host port c).2 := by
  obtain ⟨j, c', -, -, hn, hc, -, hrun⟩ := insertSlots_spec slots host port c
  have hcontexts := insertSlots_contexts slots host port hconnects
  rw [hrun] at hcontexts ⊢
  have opened : ∀ address', c'.Leads c.pools.length (cStr host, port) ∧
      ∀ pool, pool < c.pools.length → c.Leads pool address' → c'.Leads pool address' := fun address' =>
    addresses_opened hcontexts hlen
  have hinserted : Threads.inserted (hist ++ [p]) = Threads.inserted hist ++ [⟨slots, host, port⟩] := by
    rw [inserted_append, hp]
    rfl
  constructor
  · intro e he
    rw [hinserted] at he
    rw [hn]
    rcases List.mem_append.1 he with he | he
    · obtain ⟨pool, hpool, hl⟩ := h.inserted e he
      exact ⟨pool, OrderedMap.lookup_assign_of_some _ hnew hpool,
        (opened _).2 pool (hstored (.slots e.slots) pool hpool) hl⟩
    · rw [List.mem_singleton.1 he]
      exact ⟨c.pools.length, by rw [OrderedMap.lookup_assign, if_pos rfl], (opened (cStr host, port)).1⟩
  · intro x hx
    rw [hinserted]
    rw [hn, OrderedMap.assign_of_lookup_none _ _ hnew] at hx
    rcases List.mem_cons.1 ((OrderedMap.entries_insert_perm _ _ hnew).mem_iff.1 hx) with rfl | hx
    · exact ⟨⟨slots, host, port⟩, by simp, rfl⟩
    · obtain ⟨e, he, hslots⟩ := h.only x hx
      exact ⟨e, List.mem_append_left _ he, hslots⟩
  · intro key pool hpool
    rw [hc] at hpool
    obtain ⟨host', port', n, hkey, hcolon, hport, hl⟩ := h.redirected key pool hpool
    exact ⟨host', port', n, hkey, hcolon, hport, (opened _).2 pool (hstored (.host key) pool hpool) hl⟩

omit [DecidableEq ι] in
private theorem Tables.insertHost {host port : Bytes} (hcolon : 0x3a ∉ host)
    (hfills : c.connections_.lookup (DefaultContainer.hostKey host port) = none →
      (∃ n, stoi port = .ret n) ∧ Connects poolSize_ c.connects) :
    Tables hist (ThreadedPool.insertHost host port c).2 := by
  cases hl : c.connections_.lookup (DefaultContainer.hostKey host port) with
  | some pool =>
    rw [insertHost_found hl]
    exact h.steady (pullConnection_steady _ _ c) rfl
  | none =>
    obtain ⟨⟨n, hport⟩, hconnects⟩ := hfills hl
    obtain ⟨j, c', -, -, hn, hc, hiff, ⟨-, hrun⟩ | ⟨hj, -⟩⟩ := insertHost_new hl
    · have hcontexts := insertHost_contexts hl hport hconnects
      rw [hrun, pullConnection_contexts] at hcontexts
      rw [hrun]
      have opened : ∀ address', c'.Leads c.pools.length (cStr host, n) ∧
          ∀ pool, pool < c.pools.length → c.Leads pool address' → c'.Leads pool address' := fun address' =>
        addresses_opened hcontexts hlen
      have made : Tables hist c' := by
        constructor
        · intro e he
          rw [hn]
          obtain ⟨pool, hpool, hleads⟩ := h.inserted e he
          exact ⟨pool, hpool, (opened _).2 pool (hstored (.slots e.slots) pool hpool) hleads⟩
        · rw [hn]
          exact h.only
        · intro key pool hpool
          rw [hc, OrderedMap.lookup_assign] at hpool
          by_cases hkey : hostRank key = hostRank (DefaultContainer.hostKey host port)
          · rw [if_pos hkey] at hpool
            cases hpool
            exact ⟨host, port, n, (hostRank_injective hkey).symm, hcolon, hport, (opened (cStr host, n)).1⟩
          · rw [if_neg hkey] at hpool
            obtain ⟨host', port', n', hkey', hcolon', hport', hleads⟩ := h.redirected key pool hpool
            exact ⟨host', port', n', hkey', hcolon', hport', (opened _).2 pool (hstored (.host key) pool hpool) hleads⟩
      exact made.steady (pullConnection_steady _ _ c') rfl
    · exact absurd (hiff.2 ⟨⟨n, hport⟩, hconnects⟩) hj

end tables

omit [DecidableEq ι] in
private theorem addresses_fail (s : Threads ι) (con : ConPtr) : Steady s.container (s.fail con).container := by
  refine ⟨rfl, rfl, ?_⟩
  show (s.container.contexts.modify con _).map _ = s.container.contexts.map _
  refine List.ext_getElem? fun i => ?_
  rw [List.getElem?_map, List.getElem?_map, List.getElem?_modify]
  cases s.container.contexts[i]? with
  | none => rfl
  | some x => by_cases hi : con = i <;> simp [hi]

private theorem obtain_container {κ : Type} (s : Threads ι) (t : ι) (x : Outcome Exn (Pulled κ) × ThreadedPool)
    (rest : κ × ConPtr → Sync ReplyPtr) : (s.obtain t x rest).container = x.2 := by
  obtain ⟨o, c⟩ := x
  cases o with
  | ret pulled => cases pulled <;> rfl
  | throws e => rfl
  | undefined => rfl

/-- Only a redirection may add a pool. -/
private theorem call_steady (env : Surroundings) (c : SyncCall) (rest : c.Result → Sync ReplyPtr)
    (hc : ∀ host port, c ≠ .createNewConnection host port) :
    Steady s.container (s.call answers t env c rest).container := by
  cases c with
  | getConnection key =>
    show Steady _ (s.obtain t (s.getConnection key) rest).container
    rw [obtain_container]
    unfold Threads.getConnection
    split
    · exact .refl _
    · split
      · exact .refl _
      · exact getConnection_steady _ _
  | createNewConnection host port => exact absurd rfl (hc host port)
  | releaseSlotConnection conn => exact releaseSlotConnection_steady conn s.container
  | releaseHostConnection conn =>
    obtain ⟨key, con⟩ := conn
    cases con with
    | none => exact .refl _
    | some con => exact releaseHostConnection_steady key con s.container
  | moved =>
    unfold Threads.call
    cases env.movedCb <;> exact .refl _
  | redisAppendFormattedCommand con cmd =>
    unfold Threads.call
    cases cmd with
    | none => exact .refl _
    | some bytes =>
      by_cases hworks : env.works = true
      · simp only [if_pos hworks]
        exact .refl _
      · simp only [if_neg hworks]
        exact addresses_fail s con
  | redisGetReply con =>
    show Steady _ (s.receive answers t con env rest).container
    unfold Threads.receive
    split
    · exact .refl _
    · split
      · split <;> exact .refl _
      · exact addresses_fail s con
  | redisCommand con format =>
    unfold Threads.call
    by_cases hworks : env.works = true
    · simp only [if_pos hworks]
      exact .refl _
    · simp only [if_neg hworks]
      exact addresses_fail s con
  | err | errstr => exact .refl _
  | readReply reply => cases reply <;> exact .refl _
  | freeReplyObject reply => cases reply <;> exact .refl _

/-- A step leaves the tables as they are, inserts a range, or follows a redirection. -/
private theorem exec_container (answers : Nat → RedisReply) (s : Threads ι) (e : ι × Turn) :
    (Steady s.container (s.exec answers e).container ∧ insertion (s, e) = none) ∨
      (∃ slots host port connects, e.2 = .insertSlots slots host port connects ∧ (s.threads e.1).activity = .idle ∧
        (s.exec answers e).container =
          (ThreadedPool.insertSlots slots host port { s.container with connects := connects }).2) ∨
      ∃ env host port rest, e.2 = .proceed env ∧
        (s.threads e.1).activity = .running (.call (.createNewConnection host port) rest) ∧
        (s.exec answers e).container =
          (ThreadedPool.insertHost host port { s.container with connects := env.connects }).2 := by
  obtain ⟨t, turn⟩ := e
  cases turn with
  | start this =>
    refine Or.inl ⟨?_, rfl⟩
    unfold Threads.exec
    dsimp only
    split <;> exact .refl _
  | insertSlots slots host port connects =>
    unfold Threads.exec insertion
    dsimp only
    cases hact : (s.threads t).activity with
    | idle => exact Or.inr (Or.inl ⟨slots, host, port, connects, rfl, rfl, rfl⟩)
    | running p => exact Or.inl ⟨.refl _, rfl⟩
    | waiting pool resume => exact Or.inl ⟨.refl _, rfl⟩
  | proceed env =>
    show (Steady s.container (s.proceed answers t env).container ∧ _) ∨ _ ∨
      ∃ env' host port rest, _ ∧ _ ∧ (s.proceed answers t env).container = _
    unfold Threads.proceed
    cases hact : (s.threads t).activity with
    | idle => exact Or.inl ⟨.refl _, rfl⟩
    | running p =>
      cases p with
      | ret a => exact Or.inl ⟨.refl _, rfl⟩
      | throws e => exact Or.inl ⟨.refl _, rfl⟩
      | undefined => exact Or.inl ⟨.refl _, rfl⟩
      | call c rest =>
        by_cases hc : ∃ host port, c = .createNewConnection host port
        · obtain ⟨host, port, rfl⟩ := hc
          exact Or.inr (Or.inr ⟨env, host, port, rest, rfl, rfl, obtain_container ..⟩)
        · exact Or.inl ⟨call_steady env c rest fun host port h => hc ⟨host, port, h⟩, rfl⟩
    | waiting pool resume =>
      refine Or.inl ⟨?_, rfl⟩
      dsimp only
      rw [obtain_container]
      exact pullConnection_steady _ _ _

omit [DecidableEq ι] in
/-- The results of `connect_` change no table. -/
private theorem connects_steady (c : ThreadedPool) (connects : List ConnectResult) :
    Steady c { c with connects := connects } := ⟨rfl, rfl, rfl⟩

omit [DecidableEq ι] in
private theorem Fills.insertSlots {slots : SlotRange} {host : Bytes} {port : Int32} {connects : List ConnectResult}
    (h : s.Fills (t, .insertSlots slots host port connects)) (hact : (s.threads t).activity = .idle) :
    s.container.nodes_.lookup slots = none ∧ Connects poolSize_ connects := by
  unfold Fills at h
  rw [hact] at h
  exact h

omit [DecidableEq ι] in
private theorem Fills.insertHost {env : Surroundings} {host port : Bytes} {rest : HostConnection → Sync ReplyPtr}
    (h : s.Fills (t, .proceed env))
    (hact : (s.threads t).activity = .running (.call (.createNewConnection host port) rest)) :
    s.container.connections_.lookup (DefaultContainer.hostKey host port) = none →
      (∃ n, stoi port = .ret n) ∧ Connects poolSize_ env.connects := by
  unfold Fills at h
  rw [hact] at h
  exact h

/-- The pools that were stored stay stored. -/
private theorem exec_grows {e : ι × Turn} (hfills : s.Fills e) : Grows s.container (s.exec answers e).container := by
  obtain ⟨t, turn⟩ := e
  rcases exec_container answers s (t, turn) with ⟨steady, -⟩ |
    ⟨slots, host, port, connects, hturn, hact, hrun⟩ | ⟨env, host, port, rest, hturn, hact, hrun⟩
  · exact steady.grows
  · cases hturn
    rw [hrun]
    intro key pool hf
    exact insertSlots_grows host port (c := { s.container with connects := connects }) (hfills.insertSlots hact).1 key
      pool ((connects_steady s.container connects).grows key pool hf)
  · rw [hrun]
    intro key pool hf
    exact (insertHost_hands host port _).grows key pool ((connects_steady s.container env.connects).grows key pool hf)

/-- A step in which pools are filled keeps the tables in order. -/
private theorem Tables.exec (h : Tables hist s.container) (tracked : Tracked s a n)
    (reads : ∀ t, Reads answers (s.threads t)) {e : ι × Turn} (hfills : s.Fills e) :
    Tables (hist ++ [(s, e)]) (s.exec answers e).container := by
  obtain ⟨t, turn⟩ := e
  have hlen : s.container.contexts.length = poolSize_ * s.container.pools.length := by
    rw [← tracked.container]
    exact tracked.stocked.contexts_length
  have hstored : ∀ connects key pool, { s.container with connects := connects }.find key = some pool →
      pool < s.container.pools.length := by
    intro connects key pool hf
    rw [← tracked.container] at hf ⊢
    refine tracked.valid.stored key pool ?_
    cases key <;> exact hf
  have same : insertion (s, t, turn) = none →
      Threads.inserted (hist ++ [(s, t, turn)]) = Threads.inserted hist := by
    intro hnone
    rw [inserted_append, hnone, Option.toList_none, List.append_nil]
  rcases exec_container answers s (t, turn) with ⟨steady, hnone⟩ |
    ⟨slots, host, port, connects, hturn, hact, hrun⟩ | ⟨env, host, port, rest, hturn, hact, hrun⟩
  · exact h.steady steady (same hnone)
  · cases hturn
    obtain ⟨hnew, hconnects⟩ := hfills.insertSlots hact
    rw [hrun]
    refine (h.steady (connects_steady _ connects) rfl).insertSlots hlen (hstored connects) hnew hconnects ?_
    unfold insertion
    dsimp only
    rw [hact]
  · cases hturn
    have own := reads t
    unfold Reads at own
    rw [hact] at own
    -- the address comes from a reply
    obtain ⟨g, ⟨⟨r, state, -, hr⟩, -⟩, -⟩ := own
    rw [hrun]
    have made := (h.steady (connects_steady _ env.connects) rfl).insertHost hlen (hstored env.connects)
      (colon_notMem_of_processResult hr) (hfills.insertHost hact)
    exact made.steady (.refl _) (same rfl)

/-! ### What a thread holds was asked for -/

/-- A call that hands out no connection. -/
private theorem call_held (env : Surroundings) {c : SyncCall} (rest : c.Result → Sync ReplyPtr) (hc : c.takes = false) :
    ∀ con ∈ ((s.call answers t env c rest).threads t).held, con ∈ (s.threads t).held := by
  have neutral : Neutral c → ∀ con ∈ ((s.call answers t env c rest).threads t).held, con ∈ (s.threads t).held := by
    intro hn con hcon
    rw [(call_frames env c rest hn).held] at hcon
    exact hcon
  cases c with
  | getConnection | createNewConnection => cases hc
  | releaseSlotConnection conn =>
    unfold Threads.call Threads.released
    rw [setThread_self]
    exact fun con => List.mem_of_mem_erase
  | releaseHostConnection conn =>
    obtain ⟨key, con⟩ := conn
    cases con with
    | none =>
      unfold Threads.call
      rw [goOn_self]
      exact fun _ => id
    | some con =>
      unfold Threads.call Threads.released
      rw [setThread_self]
      exact fun _ => List.mem_of_mem_erase
  | _ => exact neutral fun _ _ => rfl

omit [DecidableEq ι] in
private theorem getConnection_ret {key : Bytes} {pulled : Pulled SlotRange}
    (h : (s.getConnection key).1 = .ret pulled) :
    ∃ slot, SlotHash.slotByKey true key (Int32.ofNat key.length).toInt = some slot ∧
      s.getConnection key = ThreadedPool.getConnection slot s.container := by
  unfold Threads.getConnection at h ⊢
  split at h
  · cases h
  · rename_i hready
    rw [if_neg hready]
    split at h
    · cases h
    · rename_i slot hslot
      exact ⟨slot, hslot, rfl⟩

omit [DecidableEq ι] in
/-- The range under which a connection was found governs the slot. -/
private theorem Tables.governs (h : Tables hist s.container) {slot : SlotIndex} (hlt : slot < 16384)
    {x : SlotRange × PoolPtr} (hx : DefaultContainer.searchBySlots slot s.container.nodes_ = .ret x) :
    ∃ e, e.slots = x.1 ∧ Insertion.Governs (Threads.inserted hist) slot e := by
  obtain ⟨hmem, ⟨hstarts, hreaches⟩, hlatest⟩ := (DefaultContainer.searchBySlots_ret_iff hlt).1 hx
  obtain ⟨e, he, hslots⟩ := h.only _ hmem
  refine ⟨e, hslots, he, hslots ▸ hstarts, hslots ▸ hreaches, fun e' he' hle => ?_⟩
  obtain ⟨pool, hpool, -⟩ := h.inserted e' he'
  obtain ⟨y, hy, hrank, -⟩ := (OrderedMap.lookup_eq_some_iff _ _ _).1 hpool
  have hstart : y.1.1 = e'.slots.1 := UInt32.toNat_inj.1 hrank
  rw [hslots, ← hstart]
  exact hlatest y hy (hstart ▸ hle)

/-- A section that hands out a connection, or makes its thread wait, asks for it. -/
theorem OnErrand.getConnection (tables : Tables hist s.container) (tracked : Tracked s a n) (env : Surroundings)
    {key : Bytes} {rest : SlotConnection → Sync ReplyPtr}
    (hact : (s.threads t).activity = .running (.call (.getConnection key) rest)) :
    OnErrand answers (hist ++ [(s, t, .proceed env)]) (s.obtain t (s.getConnection key) rest) t := by
  obtain ⟨hfree, -⟩ := tracked.free hact fun _ => And.right
  refine .obtain (tracked.noHeld hfree) (fun pulled hpulled => ?_) fun conn pool hgot => ?_
  · obtain ⟨slot, hslot, hget⟩ := getConnection_ret hpulled
    rw [hget] at hpulled ⊢
    obtain ⟨e, hslots, hgov⟩ := tables.governs (SlotHash.slotByKey_lt hslot) (getConnection_place hpulled)
    have hfind : (ThreadedPool.getConnection slot s.container).2.find (.slots e.slots) = some pulled.place.2 := by
      rw [hslots]
      exact (getConnection_hands slot s.container).place hpulled
    exact ⟨hist, s, .getConnection key, .new rfl (congrArg Activity.nextCall hact) env, slot, e, hslot, hgov, hfind⟩
  · obtain ⟨slot, -, hget⟩ := getConnection_ret hgot
    rw [hget, ← tracked.container] at hgot
    exact (tracked.stocked.getConnection slot (some t)).drawn hgot

theorem OnErrand.createNewConnection (tracked : Tracked s a n) (reads : Reads answers (s.threads t))
    {env : Surroundings} (hfills : s.Fills (t, .proceed env)) {host port : Bytes}
    {rest : HostConnection → Sync ReplyPtr}
    (hact : (s.threads t).activity = .running (.call (.createNewConnection host port) rest)) :
    OnErrand answers (hist ++ [(s, t, .proceed env)])
      (s.obtain t (ThreadedPool.insertHost host port { s.container with connects := env.connects })
        fun conn => rest (conn.1, some conn.2)) t := by
  obtain ⟨hfree, -⟩ := tracked.free hact fun _ => And.right
  unfold Reads at reads
  rw [hact] at reads
  obtain ⟨g, ⟨⟨r, state, hread, hr⟩, -⟩, hknows⟩ := reads
  obtain ⟨m, hsent, rfl⟩ := hknows r (Or.inr hread)
  refine .obtain (tracked.noHeld hfree) (fun pulled hpulled => ?_) fun conn pool hgot => ?_
  · refine ⟨hist, s, .createNewConnection host port, .new rfl (congrArg Activity.nextCall hact) env,
      ⟨m, state, hsent, hr⟩, ?_⟩
    rw [← insertHost_place hpulled]
    exact (insertHost_hands host port _).place hpulled
  · have hfilled : (PoolCall.insertHost host port env.connects).Conserves a := by
      intro hnone
      rw [tracked.container] at hnone
      exact hfills.insertHost hact hnone
    rw [← tracked.container] at hgot
    exact (tracked.stocked.insertHost hfilled (some t)).drawn hgot

private theorem OnErrand.wake (h : OnErrand answers hist s t) (tracked : Tracked s a n) {env : Surroundings}
    {pool : PoolPtr} {resume : ConPtr → Sync ReplyPtr} (hact : (s.threads t).activity = .waiting pool resume) :
    OnErrand answers (hist ++ [(s, t, .proceed env)])
      (s.obtain t (pullConnection () pool s.container) fun conn => resume conn.2) t := by
  have hagrees := (tracked.agrees t).2
  rw [hact] at hagrees
  obtain ⟨hfree, key, -⟩ := hagrees
  have quiet : requests t (s, t, .proceed env) = false := by
    rw [requests_self, hact]
    rfl
  refine .obtain (tracked.noHeld hfree) (fun pulled hpulled => ?_) fun conn pool' hgot => ?_
  · rw [pullConnection_place hpulled]
    exact (h.waits pool (congrArg Activity.waitsFor hact)).frame (pullConnection_steady () pool s.container).grows quiet
  · rw [← tracked.container] at hgot
    exact (tracked.stocked.pull (some t) (fun _ => key) () pool).drawn hgot

/-- The turn of a thread. -/
private theorem OnErrand.proceed (h : OnErrand answers hist s t) (tables : Tables hist s.container)
    (tracked : Tracked s a n)
    (sound : Sound s) (reads : Reads answers (s.threads t)) {env : Surroundings} (hfills : s.Fills (t, .proceed env)) :
    OnErrand answers (hist ++ [(s, t, .proceed env)]) (s.exec answers (t, .proceed env)) t := by
  have grows : Grows s.container (s.exec answers (t, .proceed env)).container := exec_grows hfills
  have hstep : s.exec answers (t, .proceed env) = s.proceed answers t env := rfl
  unfold Threads.proceed at hstep
  cases hact : (s.threads t).activity with
  | idle =>
    rw [hact] at hstep
    exact h.same grows (by rw [requests_self, hact]; rfl) (by rw [hstep])
  | running p =>
    rw [hact] at hstep
    cases p with
    | ret value =>
      rw [hstep]
      exact .empty (by rw [setThread_self]) (by rw [setThread_self]; rfl)
    | throws e =>
      rw [hstep]
      exact .empty (by rw [setThread_self]) (by rw [setThread_self]; rfl)
    | undefined => exact h.same grows (by rw [requests_self, hact]; rfl) (by rw [hstep])
    | call c rest =>
      have hstep : s.exec answers (t, .proceed env) = s.call answers t env c rest := hstep
      by_cases htakes : c.takes = true
      · rw [hstep]
        cases c with
        | getConnection key => exact .getConnection tables tracked env hact
        | createNewConnection host port => exact .createNewConnection tracked reads hfills hact
        | _ => cases htakes
      · have htakes : c.takes = false := Bool.eq_false_iff.2 htakes
        refine h.frame grows ?_ ?_ ?_
        · rw [requests_self, hact]
          exact htakes
        · rw [hstep]
          exact call_held env rest htakes
        · rw [hstep, (sound.call_next env hact).waitsFor htakes]
          intro pool hpool
          cases hpool
  | waiting pool resume =>
    rw [hact] at hstep
    rw [hstep]
    exact h.wake tracked hact

/-- Every step keeps the threads on their errands. -/
private theorem OnErrand.exec (h : OnErrand answers hist s t) (tables : Tables hist s.container)
    (tracked : Tracked s a n)
    (sound : Sound s) (reads : Reads answers (s.threads t)) {e : ι × Turn} (hfills : s.Fills e) :
    OnErrand answers (hist ++ [(s, e)]) (s.exec answers e) t := by
  obtain ⟨u, turn⟩ := e
  have grows : Grows s.container (s.exec answers (u, turn)).container := exec_grows hfills
  by_cases hu : t = u
  · subst hu
    cases turn with
    | start this =>
      have started : s.exec answers (t, .start this) = s ∨ s.exec answers (t, .start this) = s.goOn t this.process := by
        unfold Threads.exec
        dsimp only
        split
        · exact Or.inr rfl
        · exact Or.inl rfl
      rcases started with hstep | hstep
      · exact h.same grows rfl (by rw [hstep])
      · refine h.frame grows rfl ?_ ?_
        · rw [hstep, goOn_self]
          exact fun _ => id
        · rw [hstep, goOn_self]
          intro pool hpool
          cases hpool
    | insertSlots slots host port connects => exact h.same grows rfl (by rw [exec_insert_threads])
    | proceed env => exact h.proceed tables tracked sound reads hfills
  · have quiet : requests t (s, u, turn) = false := by
      cases turn with
      | proceed env =>
        show (decide (u = t) && _) = false
        rw [decide_eq_false (Ne.symm hu), Bool.false_and]
      | _ => rfl
    exact h.same grows quiet (exec_other hu turn)

private theorem ClusterRun.onErrand (r : ClusterRun answers s hist) (h : ∀ p ∈ hist, p.1.Fills p.2) :
    Tables hist s.container ∧ ∀ t, OnErrand answers hist s t := by
  induction r with
  | start h0 =>
    refine ⟨⟨?_, ?_, ?_⟩, fun t => .empty (h0.idle t).2 (by rw [(h0.idle t).1]; rfl)⟩
    · intro e he
      exact absurd he List.not_mem_nil
    · rw [h0.nodes]
      intro x hx
      exact absurd hx List.not_mem_nil
    · rw [h0.connections]
      intro key pool hpool
      cases hpool
  | next r hs ih =>
    obtain ⟨tables, errands⟩ := ih fun p hp => h p (List.mem_append_left _ hp)
    obtain ⟨a, tracked⟩ := ClusterRun.tracked r fun p hp => h p (List.mem_append_left _ hp)
    have last := h _ (List.mem_append_right _ (List.mem_singleton_self _))
    have reads := ClusterRun.reads r
    rw [hs]
    exact ⟨tables.exec tracked reads last,
      fun t => (errands t).exec tables tracked (ClusterRun.sound r) (reads t) last⟩

/-- In every run in which the pools are filled, whatever the order of the threads, a message or a reply goes over a
connection to the address for which its thread asked last: that of the range that governs the slot of the key, or the
one named in the answer to the message that the thread had sent last. -/
theorem messages_directed (r : ClusterRun answers s hist) (h : ∀ p ∈ hist, p.1.Fills p.2) {con : ConPtr}
    (hexchange : (s.threads t).activity.nextCall.bind SyncCall.exchangesOn = some con) :
    ∃ before v c address, LastRequest hist t before v c ∧ s.container.addresses[con]? = some address ∧
      Directs answers (inserted before) (v.threads t).sent address c := by
  obtain ⟨tables, errands⟩ := r.onErrand h
  have hheld := r.sound.exchanges hexchange
  obtain ⟨before, v, c, hlast, hserves⟩ := (errands t).held con hheld
  obtain ⟨address, haddress⟩ : ∃ address, s.container.addresses[con]? = some address := by
    have hlt : con < s.container.addresses.length := by
      unfold addresses
      rw [List.length_map]
      exact r.sound.heldOpened t con hheld
    exact ⟨_, List.getElem?_eq_getElem hlt⟩
  refine ⟨before, v, c, address, hlast, haddress, ?_⟩
  cases c with
  | getConnection key =>
    obtain ⟨slot, e, hslot, hgov, hfind⟩ := hserves
    obtain ⟨pool, hpool, hleads⟩ := tables.inserted e (hlast.inserted_subset hgov.mem)
    cases hfind.symm.trans hpool
    exact ⟨slot, e, hslot, hgov, hleads con rfl address haddress⟩
  | createNewConnection host port =>
    obtain ⟨⟨m, state, hsent, hr⟩, hfind⟩ := hserves
    obtain ⟨host', port', n, hkey, hcolon, hport, hleads⟩ := tables.redirected _ _ hfind
    obtain ⟨rfl, rfl⟩ : host' = host ∧ port' = port := by
      refine (append_cons_inj hcolon (colon_notMem_of_processResult hr)).1 ?_
      simpa [DefaultContainer.hostKey, text] using hkey
    exact ⟨m, state, n, hsent, hr, hport, hleads con rfl address haddress⟩
  | _ => exact False.elim hserves

/-- A step that inserts no range and follows no redirection but one to a port that is a number, where the connects
succeed. -/
def keepsFilled (s : Threads ι) (e : ι × Turn) : Bool :=
  match e.2, (s.threads e.1).activity.nextCall with
  | .insertSlots .., _ => false
  | .proceed env, some (.createNewConnection _ port) =>
    match stoi port with
    | .ret _ => env.connects.isEmpty
    | _ => false
  | _, _ => true

omit [DecidableEq ι] in
private theorem fills_of_keepsFilled {e : ι × Turn} (h : s.keepsFilled e = true) : s.Fills e := by
  obtain ⟨t, turn⟩ := e
  unfold keepsFilled at h
  unfold Fills
  cases turn with
  | start this => exact trivial
  | insertSlots => cases h
  | proceed env =>
    dsimp only at h ⊢
    cases hact : (s.threads t).activity with
    | idle | waiting => exact trivial
    | running p =>
      rw [hact] at h
      cases p with
      | call c rest =>
        cases c with
        | createNewConnection host port =>
          simp only [Activity.nextCall] at h
          intro _
          cases hport : stoi port with
          | ret n =>
            rw [hport] at h
            rw [List.isEmpty_iff.1 h]
            exact ⟨⟨n, rfl⟩, by simp [Connects, poolSize_]⟩
          | throws e =>
            rw [hport] at h
            cases h
          | undefined =>
            rw [hport] at h
            cases h
        | _ => exact trivial
      | _ => exact trivial

/-- A thread follows a redirection to a new node. -/
theorem messages_directed_moved :
    let answers : Nat → RedisReply := fun m => if m = 0 then .error (.ofText "MOVED 12182 10.0.0.2:7001") else .nil
    let start : Threads Nat := ⟨true, ⟨.empty, .empty, [], [], []⟩, fun _ => ⟨.idle, [], none⟩, fun _ => [], [], 0, []⟩
    let es := (0, .insertSlots (0, 16383) (text "10.0.0.1") 7000 []) :: (1, .start getFoo) ::
      List.replicate 10 (1, .proceed ⟨[], true, none⟩)
    let s := after (exec answers) start es
    (s.threads 1).activity.nextCall.bind SyncCall.exchangesOn = some 10 ∧
      ∃ before v c address, LastRequest (trail (exec answers) start es) 1 before v c ∧
        s.container.addresses[10]? = some address ∧ Directs answers (inserted before) (v.threads 1).sent address c := by
  intro answers start es s
  have begun : ClusterRun answers start [] := .start ⟨⟨rfl, fun _ => ⟨rfl, rfl⟩, fun _ => rfl⟩, rfl, rfl, rfl⟩
  have run : ClusterRun answers s (trail (exec answers) start es) := begun.follow es fun _ _ => rfl
  have kept : ((trail (exec answers) start es).tail.all fun p => p.1.keepsFilled p.2) = true := by decide +kernel
  have fills : ∀ p ∈ trail (exec answers) start es, p.1.Fills p.2 := by
    intro p hp
    rcases List.mem_cons.1 hp with rfl | hp
    · exact ⟨rfl, by simp [Connects, poolSize_]⟩
    · exact fills_of_keepsFilled (List.all_eq_true.1 kept p hp)
  have sends : (s.threads 1).activity.nextCall.bind SyncCall.exchangesOn = some 10 := by decide +kernel
  exact ⟨sends, messages_directed run fills sends⟩

end Threads

end HiredisCluster
