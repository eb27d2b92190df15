import HiredisCluster.PoolStock

/-!
# Threads that share a pool do not block each other

`process` holds at most one connection at a time and gives it back under the key it was handed out with (`Tenancy`), so
a thread that waits for a connection holds none.  The threads then are clients of the pool in the sense of
`ThreadedPool.Sharing` (`Tracked`), and its conservation says that somebody who is not waiting has the connection that a
thread waits for: as long as pools are filled and no command ends with a connection in its hands, some thread can go on
(`some_thread_goes_on`).  A command ends after a bounded number of turns (`turns_bounded`).
-/

namespace HiredisCluster

open Cxx HiredisCommand

/-! ### What `process` holds, and how long -/

/-- The connection a program holds, with the key it was handed out with, and the number of turns it may take. -/
structure Tenancy where
  held : Option (ThreadedPool.PoolKey × ConPtr)
  turns : Nat

/-- The turns a thread needs for a call at most, the turns in which it waits in vain apart. -/
def SyncCall.turns : SyncCall → Nat
  | getConnection _ | createNewConnection _ _ | redisCommand _ _ => 2
  | _ => 1

private theorem SyncCall.turns_pos (c : SyncCall) : 1 ≤ c.turns := by
  cases c <;> simp [turns]

/-- A connection is taken only with empty hands, and goes back under its key. -/
def tenancy : Program.Protocol syncInterface Tenancy where
  allows g c := c.turns ≤ g.turns ∧
    match c with
    | .getConnection _ | .createNewConnection _ _ => g.held = none
    | .releaseSlotConnection conn => g.held = some (.slots conn.1, conn.2)
    | .releaseHostConnection (key, some con) => g.held = some (.host key, con)
    | .releaseHostConnection (_, none) => False
    | _ => True
  after g c r :=
    { turns := g.turns - c.turns
      held :=
        match c, r with
        | .getConnection _, conn => some (.slots conn.1, conn.2)
        | .createNewConnection _ _, (key, some con) => some (.host key, con)
        | .releaseSlotConnection _, _ | .releaseHostConnection _, _ => none
        | _, _ => g.held }

namespace Tenancy

open Program

variable {held : Option (ThreadedPool.PoolKey × ConPtr)} {n : Nat}

private theorem obeys_sync {g : Tenancy} {c : SyncCall} {Q : Tenancy → c.Result → Prop} (ha : tenancy.allows g c)
    (hq : ∀ r, Q (tenancy.after g c r) r) : (sync c).Obeys tenancy Q g := ⟨ha, hq⟩

/-- A call that takes one turn and leaves the hands as they are. -/
private theorem turn_obeys {c : SyncCall} (ha : ∀ g : Tenancy, 1 ≤ g.turns → tenancy.allows g c)
    (hk : ∀ g r, tenancy.after g c r = ⟨g.held, g.turns - 1⟩) :
    (sync c).Obeys tenancy (fun g _ => g = ⟨held, n⟩) ⟨held, n + 1⟩ :=
  ⟨ha ⟨held, n + 1⟩ (Nat.le_add_left 1 n), fun r => hk ⟨held, n + 1⟩ r⟩

private theorem obeys_outcome {α : Type} {g : Tenancy} (o : Outcome Exn α) :
    (outcome o : Sync α).Obeys tenancy (fun g' _ => g' = g) g := by
  cases o with
  | ret a => exact (rfl : g = g)
  | throws e => trivial
  | undefined => trivial

private theorem obeys_raise {α : Type} {Q : Tenancy → α → Prop} (reply : ReplyPtr) (e : ClusterException) :
    (raise reply e : Sync α).Obeys tenancy Q ⟨held, n + 1⟩ := by
  cases reply with
  | null => trivial
  | unset => exact ⟨⟨Nat.le_add_left 1 n, trivial⟩, fun _ => trivial⟩
  | object a r => exact ⟨⟨Nat.le_add_left 1 n, trivial⟩, fun _ => trivial⟩

private theorem processHiredisCommand_obeys (this : HiredisCommand) (con : ConPtr) :
    (this.processHiredisCommand con).Obeys tenancy (fun g _ => g = ⟨held, n⟩) ⟨held, n + 2⟩ := by
  refine Obeys.bind (turn_obeys (fun _ h => ⟨h, trivial⟩) fun _ _ => rfl) ?_
  rintro g _ rfl
  refine Obeys.bind (turn_obeys (fun _ h => ⟨h, trivial⟩) fun _ _ => rfl) ?_
  rintro g a rfl
  cases a <;> exact (rfl : (⟨held, n⟩ : Tenancy) = _)

private theorem asking_obeys (con : ConPtr) :
    (asking con).Obeys tenancy (fun g _ => g = ⟨held, n⟩) ⟨held, n + 2⟩ := by
  refine Obeys.bind (obeys_sync (Q := fun g _ => g = ⟨held, n⟩) ⟨Nat.le_add_left 2 n, trivial⟩ fun _ => rfl) ?_
  rintro g a rfl
  cases a <;> exact (rfl : (⟨held, n⟩ : Tenancy) = _)

/-- The check of a reply reads it, and where it throws it may free the reply. -/
private theorem checkReply_obeys (reply : ReplyPtr) (critical free : Bool) (error : Bytes) :
    (checkCritical reply critical free error none : Sync Unit).Obeys tenancy (fun g _ => g = ⟨held, n + 1⟩)
      ⟨held, n + 2⟩ := by
  refine Obeys.bind (turn_obeys (fun _ h => ⟨h, trivial⟩) fun _ _ => rfl) ?_
  rintro g r rfl
  split
  · split
    · exact obeys_raise _ _
    · refine Obeys.bind (obeys_outcome _) ?_
      rintro g str rfl
      split
      · exact obeys_raise _ _
      · exact (rfl : (⟨held, n + 1⟩ : Tenancy) = _)
  · exact (rfl : (⟨held, n + 1⟩ : Tenancy) = _)

private theorem checkCritical_obeys (reply : ReplyPtr) (critical free : Bool) (error : Bytes) (con : ConPtr) :
    (checkCritical reply critical free error (some con) : Sync Unit).Obeys tenancy (fun g _ => g = ⟨held, n + 1⟩)
      ⟨held, n + 3⟩ := by
  refine Obeys.bind (turn_obeys (fun _ h => ⟨h, trivial⟩) fun _ _ => rfl) ?_
  rintro g e rfl
  cases e with
  | true => exact Obeys.bind (obeys_raise (Q := fun _ _ => False) _ _) fun _ _ h => h.elim
  | false => exact checkReply_obeys reply critical free error

private theorem freeReply_obeys (reply : ReplyPtr) :
    (freeReplyObject reply : Sync Unit).Obeys tenancy (fun g _ => g = ⟨held, n⟩) ⟨held, n + 1⟩ :=
  turn_obeys (fun _ h => ⟨h, trivial⟩) fun _ _ => rfl

private theorem releaseHost_obeys (key : Bytes) (con : ConPtr) :
    (sync (.releaseHostConnection (key, some con))).Obeys tenancy (fun g _ => g = ⟨none, n⟩)
      ⟨some (.host key, con), n + 1⟩ :=
  obeys_sync ⟨Nat.le_add_left 1 n, rfl⟩ fun _ => rfl

/-- The redirection target hands out a connection, or a null pointer. -/
private theorem createNewConnection_obeys (host port : Bytes) :
    (sync (.createNewConnection host port)).Obeys tenancy
      (fun g hcon => g = ⟨hcon.2.map fun con => (.host hcon.1, con), n⟩) ⟨none, n + 2⟩ := by
  refine obeys_sync ⟨Nat.le_add_left 2 n, rfl⟩ ?_
  rintro ⟨key, con⟩
  cases con <;> rfl

private theorem processAsk_obeys (this : HiredisCommand) (reply : ReplyPtr) (host port : Bytes) :
    (this.processAsk reply host port).Obeys tenancy (fun g _ => g.held = none) ⟨none, 12⟩ := by
  refine Obeys.bind (freeReply_obeys reply) ?_
  rintro g _ rfl
  refine Obeys.bind (createNewConnection_obeys host port) ?_
  rintro g ⟨key, con⟩ rfl
  cases con with
  | none => exact obeys_raise _ _
  | some c =>
    refine Obeys.bind (turn_obeys (fun _ h => ⟨h, trivial⟩) fun _ _ => rfl) ?_
    rintro g e rfl
    cases e with
    | true =>
      refine Obeys.bind (releaseHost_obeys key c) ?_
      rintro g _ rfl
      refine Obeys.bind (turn_obeys (fun _ h => ⟨h, trivial⟩) fun _ _ => rfl) ?_
      rintro g _ rfl
      exact obeys_raise _ _
    | false =>
      refine Obeys.bind (asking_obeys c) ?_
      rintro g a rfl
      refine Obeys.bind (checkReply_obeys ..) ?_
      rintro g _ rfl
      refine Obeys.bind (freeReply_obeys a) ?_
      rintro g _ rfl
      refine Obeys.bind (processHiredisCommand_obeys this c) ?_
      rintro g r rfl
      refine Obeys.bind (checkReply_obeys ..) ?_
      rintro g _ rfl
      refine Obeys.bind (releaseHost_obeys key c) ?_
      rintro g _ rfl
      exact (rfl : (⟨none, 0⟩ : Tenancy).held = none)

private theorem processMoved_obeys (this : HiredisCommand) (reply : ReplyPtr) (host port : Bytes) :
    (this.processMoved reply host port).Obeys tenancy (fun g _ => g.held = none) ⟨none, 12⟩ := by
  refine Obeys.bind (freeReply_obeys reply) ?_
  rintro g _ rfl
  refine Obeys.bind (createNewConnection_obeys host port) ?_
  rintro g ⟨key, con⟩ rfl
  cases con with
  | none => exact obeys_raise _ _
  | some c =>
    refine Obeys.bind (turn_obeys (fun _ h => ⟨h, trivial⟩) fun _ _ => rfl) ?_
    rintro g e rfl
    cases e with
    | true =>
      refine Obeys.bind (turn_obeys (fun _ h => ⟨h, trivial⟩) fun _ _ => rfl) ?_
      rintro g _ rfl
      exact obeys_raise _ _
    | false =>
      refine Obeys.bind (processHiredisCommand_obeys this c) ?_
      rintro g r rfl
      refine Obeys.bind (turn_obeys (fun _ h => ⟨h, trivial⟩) fun _ _ => rfl) ?_
      rintro g _ rfl
      refine Obeys.bind (releaseHost_obeys key c) ?_
      rintro g _ rfl
      exact (rfl : (⟨none, 4⟩ : Tenancy).held = none)

/-- `process` starts and returns with empty hands. -/
theorem process_obeys (this : HiredisCommand) :
    this.process.Obeys tenancy (fun g _ => g.held = none) ⟨none, 20⟩ := by
  refine Obeys.bind (obeys_sync (c := .getConnection this.key_)
    (Q := fun g con => g = ⟨some (.slots con.1, con.2), 18⟩) ⟨Nat.le_of_ble_eq_true rfl, rfl⟩ fun _ => rfl) ?_
  rintro g con rfl
  refine Obeys.bind (processHiredisCommand_obeys this con.2) ?_
  rintro g reply rfl
  refine Obeys.bind (checkCritical_obeys ..) ?_
  rintro g _ rfl
  refine Obeys.bind (obeys_sync (c := .releaseSlotConnection con) (Q := fun g _ => g = ⟨none, 13⟩)
    ⟨Nat.le_of_ble_eq_true rfl, rfl⟩ fun _ => rfl) ?_
  rintro g _ rfl
  refine Obeys.bind (turn_obeys (fun _ h => ⟨h, trivial⟩) fun _ _ => rfl) ?_
  rintro g r rfl
  refine Obeys.bind (obeys_outcome _) ?_
  rintro g ⟨state, host, port⟩ rfl
  cases state with
  | ask => exact processAsk_obeys this reply host port
  | moved => exact processMoved_obeys this reply host port
  | ready => exact (rfl : (⟨none, 12⟩ : Tenancy).held = none)
  | clusterDown => exact obeys_raise _ _
  | failed => exact obeys_raise _ _

end Tenancy

/-! ### The turns of a thread -/

/-- What a turn that changes an activity makes of it. -/
inductive Activity.Next : Activity → Activity → Prop where
  | ended {a : ReplyPtr} : Next (.running (.ret a)) .idle
  | thrown {e : Exn} : Next (.running (.throws e)) .idle
  | answered {c : SyncCall} {rest : c.Result → Sync ReplyPtr} (r : c.Result) :
      Next (.running (.call c rest)) (.running (rest r))
  | failed {c : SyncCall} {rest : c.Result → Sync ReplyPtr} (e : Exn) :
      Next (.running (.call c rest)) (.running (.throws e))
  | undefined {c : SyncCall} {rest : c.Result → Sync ReplyPtr} :
      Next (.running (.call c rest)) (.running .undefined)
  | sent {con : ConPtr} {format : Bytes} {rest : Option (Nat × RedisReply) → Sync ReplyPtr} :
      Next (.running (.call (.redisCommand con format) rest)) (.running (.call (.redisGetReply con) rest))
  | waitsSlots {key : Bytes} {rest : SlotConnection → Sync ReplyPtr} (range : SlotRange) (pool : PoolPtr) :
      Next (.running (.call (.getConnection key) rest)) (.waiting pool fun con => rest (range, con))
  | waitsHost {host port : Bytes} {rest : HostConnection → Sync ReplyPtr} (key : Bytes) (pool : PoolPtr) :
      Next (.running (.call (.createNewConnection host port) rest)) (.waiting pool fun con => rest (key, some con))
  | pulled {pool : PoolPtr} {resume : ConPtr → Sync ReplyPtr} (con : ConPtr) :
      Next (.waiting pool resume) (.running (resume con))
  | lost {pool : PoolPtr} {resume : ConPtr → Sync ReplyPtr} : Next (.waiting pool resume) (.running .undefined)

/-- What follows a call is not the call. -/
private theorem rest_ne {c : SyncCall} (rest : c.Result → Sync ReplyPtr) (r : c.Result) :
    rest r ≠ Program.call (I := syncInterface) c rest := by
  have smaller : ∀ p : Sync ReplyPtr, ∀ (c : SyncCall) (rest : c.Result → Sync ReplyPtr) (r : c.Result),
      p = Program.call (I := syncInterface) c rest → rest r ≠ p := by
    intro p
    induction p with
    | call c rest ih =>
      intro c' rest' r' h hr
      cases h
      exact ih r' c rest r' hr rfl
    | _ => nofun
  exact smaller _ c rest r rfl

private theorem Activity.Next.ne {a b : Activity} (h : a.Next b) : b ≠ a := by
  intro hab
  cases h with
  | answered r => exact rest_ne _ r (Activity.running.inj hab)
  | _ => cases hab

/-- A thread in this activity goes on for at most `n` turns. -/
def Activity.Left (n : Nat) : Activity → Prop
  | .idle => True
  | .running p => ∃ held m, n = m + 1 ∧ p.Obeys tenancy (fun g _ => g.held = none) ⟨held, m⟩
  | .waiting _ resume => ∃ key m, n = m + 2 ∧
    ∀ con, (resume con).Obeys tenancy (fun g _ => g.held = none) ⟨some (key, con), m⟩

private theorem Activity.Next.left {a b : Activity} (h : a.Next b) {n : Nat} (ha : a.Left n) :
    ∃ m, m < n ∧ b.Left m := by
  cases h with
  | ended | thrown =>
    obtain ⟨_, m, rfl, -⟩ := ha
    exact ⟨0, Nat.succ_pos m, trivial⟩
  | @answered c rest r =>
    obtain ⟨held, m, rfl, ⟨hle, -⟩, hrest⟩ := ha
    have hpos := c.turns_pos
    have hle : c.turns ≤ m := hle
    exact ⟨m - c.turns + 1, by omega, _, _, rfl, hrest r⟩
  | @failed c _ _ | @undefined c _ =>
    obtain ⟨held, m, rfl, ⟨hle, -⟩, -⟩ := ha
    have hpos := c.turns_pos
    have hle : c.turns ≤ m := hle
    exact ⟨1, by omega, held, 0, rfl, trivial⟩
  | sent =>
    obtain ⟨held, m, rfl, ⟨hle, -⟩, hrest⟩ := ha
    have two : 2 ≤ m := hle
    refine ⟨m - 1 + 1, by omega, held, m - 1, rfl, ⟨by show 1 ≤ m - 1; omega, trivial⟩, fun r => ?_⟩
    exact hrest r
  | waitsSlots range pool =>
    obtain ⟨held, m, rfl, ⟨hle, -⟩, hrest⟩ := ha
    have two : 2 ≤ m := hle
    exact ⟨m - 2 + 2, by omega, .slots range, m - 2, rfl, fun con => hrest (range, con)⟩
  | waitsHost key pool =>
    obtain ⟨held, m, rfl, ⟨hle, -⟩, hrest⟩ := ha
    have two : 2 ≤ m := hle
    exact ⟨m - 2 + 2, by omega, .host key, m - 2, rfl, fun con => hrest (key, some con)⟩
  | pulled con =>
    obtain ⟨key, m, rfl, hrest⟩ := ha
    exact ⟨m + 1, by omega, _, m, rfl, hrest con⟩
  | lost =>
    obtain ⟨key, m, rfl, hrest⟩ := ha
    exact ⟨1, by omega, none, 0, rfl, trivial⟩

/-- The pool for whose connections a thread waits. -/
def Activity.waitsFor : Activity → Option PoolPtr
  | .waiting pool _ => some pool
  | _ => none

namespace Threads

variable {ι : Type} {s : Threads ι} {t : ι}

/-- The next turn of the thread does nothing: it has no command, or waits for a connection while there is none, or has
come to undefined behaviour. -/
def blocked (s : Threads ι) (t : ι) : Bool :=
  match (s.threads t).activity with
  | .idle | .running .undefined => true
  | .waiting pool _ => s.container.pools[pool]? == some []
  | _ => false

variable [DecidableEq ι] {answers : Nat → RedisReply}

private theorem exec_blocked (h : s.blocked t = true) (env : Surroundings) :
    ((s.exec answers (t, .proceed env)).threads t).activity = (s.threads t).activity := by
  show ((s.proceed answers t env).threads t).activity = _
  unfold blocked at h
  unfold Threads.proceed
  cases hact : (s.threads t).activity with
  | idle => exact hact
  | running p =>
    rw [hact] at h
    cases p with
    | undefined => exact hact
    | _ => cases h
  | waiting pool resume =>
    rw [hact] at h
    have empty : s.container.pools[pool]? = some [] := eq_of_beq h
    simp only [ThreadedPool.pullConnection, empty, Threads.obtain, setThread_self]

/-- The activity after a section that pulls a connection. -/
private theorem obtain_activity {κ : Type} (s : Threads ι) (t : ι) (x : Outcome Exn (Pulled κ) × ThreadedPool)
    (rest : κ × ConPtr → Sync ReplyPtr) : ((s.obtain t x rest).threads t).activity =
      match x.1 with
      | .ret (.got conn _) => .running (rest conn)
      | .ret (.waits key pool) => .waiting pool fun con => rest (key, con)
      | .throws e => .running (.throws e)
      | .undefined => .running .undefined := by
  obtain ⟨o, c⟩ := x
  cases o with
  | ret pulled => cases pulled <;> simp only [Threads.obtain, setThread_self]
  | throws e => simp only [Threads.obtain, goOn_self]
  | undefined => simp only [Threads.obtain, goOn_self]

/-- A reply that is owed has a message in flight, so reading it never blocks. -/
private theorem receive_next {con : ConPtr} {env : Surroundings} {rest : Option (Nat × RedisReply) → Sync ReplyPtr}
    (h : s.err con = false → s.inFlight con ≠ []) :
    Activity.Next (.running (.call (.redisGetReply con) rest))
      ((s.receive answers t con env rest).threads t).activity := by
  unfold Threads.receive
  by_cases herr : s.err con = true
  · rw [if_pos herr, goOn_self]
    exact .answered (c := .redisGetReply con) none
  · rw [if_neg herr]
    by_cases hworks : env.works = true
    · rw [if_pos hworks]
      cases hfl : s.inFlight con with
      | nil => exact absurd hfl (h (Bool.eq_false_iff.2 herr))
      | cons m ms =>
        rw [goOn_self]
        exact .answered (c := .redisGetReply con) (some (s.replies, answers m))
    · rw [if_neg hworks, goOn_self]
      exact .answered (c := .redisGetReply con) none

/-- A call of a thread ends, or waits for a connection. -/
private theorem call_next (env : Surroundings) (c : SyncCall) (rest : c.Result → Sync ReplyPtr)
    (h : ∀ con, c = .redisGetReply con → s.err con = false → s.inFlight con ≠ []) :
    Activity.Next (.running (.call c rest)) ((s.call answers t env c rest).threads t).activity := by
  cases c with
  | getConnection key =>
    unfold Threads.call
    rw [obtain_activity]
    split
    · exact .answered (c := .getConnection key) _
    · exact .waitsSlots _ _
    · exact .failed (c := .getConnection key) _
    · exact .undefined (c := .getConnection key)
  | createNewConnection host port =>
    unfold Threads.call
    rw [obtain_activity]
    split
    · rename_i conn pool _
      exact .answered (c := .createNewConnection host port) (conn.1, some conn.2)
    · exact .waitsHost _ _
    · exact .failed (c := .createNewConnection host port) _
    · exact .undefined (c := .createNewConnection host port)
  | releaseSlotConnection conn =>
    unfold Threads.call Threads.released settle
    rw [setThread_self]
    split
    · exact .answered (c := .releaseSlotConnection conn) _
    · exact .failed (c := .releaseSlotConnection conn) _
    · exact .undefined (c := .releaseSlotConnection conn)
  | releaseHostConnection conn =>
    obtain ⟨key, con⟩ := conn
    cases con with
    | none =>
      unfold Threads.call
      rw [goOn_self]
      exact .undefined (c := .releaseHostConnection (key, none))
    | some con =>
      unfold Threads.call Threads.released settle
      rw [setThread_self]
      split
      · exact .answered (c := .releaseHostConnection (key, some con)) _
      · exact .failed (c := .releaseHostConnection (key, some con)) _
      · exact .undefined (c := .releaseHostConnection (key, some con))
  | moved =>
    unfold Threads.call
    cases env.movedCb with
    | none => rw [goOn_self]; exact .answered (c := .moved) ()
    | some e => rw [goOn_self]; exact .failed (c := .moved) e
  | redisAppendFormattedCommand con cmd =>
    unfold Threads.call
    cases cmd with
    | none => rw [goOn_self]; exact .undefined (c := .redisAppendFormattedCommand con none)
    | some bytes =>
      by_cases hworks : env.works = true
      · simp only [if_pos hworks, goOn_self]
        exact .answered (c := .redisAppendFormattedCommand con (some bytes)) .ok
      · simp only [if_neg hworks, goOn_self]
        exact .answered (c := .redisAppendFormattedCommand con (some bytes)) .err
  | redisGetReply con => exact receive_next (h con rfl)
  | redisCommand con format =>
    unfold Threads.call
    by_cases hworks : env.works = true
    · simp only [if_pos hworks, goOn_self]
      exact .sent
    · simp only [if_neg hworks, goOn_self]
      exact .answered (c := .redisCommand con format) none
  | err con => exact goOn_self s t _ ▸ .answered (c := .err con) _
  | errstr con => exact goOn_self s t _ ▸ .answered (c := .errstr con) _
  | readReply reply =>
    unfold Threads.call
    cases reply with
    | object a r =>
      by_cases hfreed : a ∈ s.freed
      · simp only [if_pos hfreed, goOn_self]
        exact .undefined (c := .readReply (.object a r))
      · simp only [if_neg hfreed, goOn_self]
        exact .answered (c := .readReply (.object a r)) r
    | null => rw [goOn_self]; exact .undefined (c := .readReply .null)
    | unset => rw [goOn_self]; exact .undefined (c := .readReply .unset)
  | freeReplyObject reply =>
    unfold Threads.call
    cases reply with
    | object a r =>
      by_cases hfreed : a ∈ s.freed
      · simp only [if_pos hfreed, goOn_self]
        exact .undefined (c := .freeReplyObject (.object a r))
      · simp only [if_neg hfreed, goOn_self]
        exact .answered (c := .freeReplyObject (.object a r)) ()
    | null => rw [goOn_self]; exact .answered (c := .freeReplyObject .null) ()
    | unset => rw [goOn_self]; exact .undefined (c := .freeReplyObject .unset)

/-- A call of a thread changes what it does. -/
theorem Sound.call_next (h : Sound s) (env : Surroundings) {c : SyncCall} {rest : c.Result → Sync ReplyPtr}
    (hact : (s.threads t).activity = .running (.call c rest)) :
    Activity.Next (.running (.call c rest)) ((s.call answers t env c rest).threads t).activity := by
  refine Threads.call_next env c rest ?_
  rintro con rfl herr hempty
  obtain ⟨m, -, -, hfl⟩ := h.awaits hact herr
  rw [hempty] at hfl
  cases hfl

/-- The turn of a thread that is not blocked changes what it does. -/
private theorem Sound.exec_next (h : Sound s) (hb : s.blocked t = false) (env : Surroundings) :
    Activity.Next (s.threads t).activity ((s.exec answers (t, .proceed env)).threads t).activity := by
  show Activity.Next _ ((s.proceed answers t env).threads t).activity
  unfold blocked at hb
  unfold Threads.proceed
  cases hact : (s.threads t).activity with
  | idle =>
    rw [hact] at hb
    cases hb
  | running p =>
    rw [hact] at hb
    cases p with
    | ret a => rw [setThread_self]; exact .ended
    | throws e => rw [setThread_self]; exact .thrown
    | undefined => cases hb
    | call c rest => exact h.call_next env hact
  | waiting pool resume =>
    rw [hact] at hb
    rw [obtain_activity]
    unfold ThreadedPool.pullConnection
    cases hq : s.container.pools[pool]? with
    | none => exact .lost
    | some queue =>
      cases queue with
      | nil =>
        change (s.container.pools[pool]? == some []) = false at hb
        rw [hq] at hb
        cases hb
      | cons con queue => exact .pulled con

/-! ### A turn leaves the other threads alone -/

theorem exec_insert_threads (s : Threads ι) (t : ι) (slots : SlotRange) (host : Bytes) (port : Int32)
    (connects : List ConnectResult) :
    (s.exec answers (t, .insertSlots slots host port connects)).threads = s.threads := by
  unfold Threads.exec
  dsimp only
  split <;> rfl

section

variable {u : ι} (hu : u ≠ t)

include hu

private theorem goOn_other (s : Threads ι) (p : Sync ReplyPtr) :
    (s.goOn t p).threads u = s.threads u := setThread_other s _ hu

private theorem obtain_other {κ : Type} (s : Threads ι) (x : Outcome Exn (Pulled κ) × ThreadedPool)
    (rest : κ × ConPtr → Sync ReplyPtr) : (s.obtain t x rest).threads u = s.threads u := by
  obtain ⟨o, c⟩ := x
  cases o with
  | ret pulled => cases pulled <;> exact setThread_other _ _ hu
  | throws e => exact setThread_other _ _ hu
  | undefined => exact setThread_other _ _ hu

private theorem receive_other {con : ConPtr} {env : Surroundings} {rest : Option (Nat × RedisReply) → Sync ReplyPtr} :
    (s.receive answers t con env rest).threads u = s.threads u := by
  unfold Threads.receive
  split
  · exact goOn_other hu _ _
  · split
    · split
      · rfl
      · exact goOn_other hu _ _
    · exact goOn_other hu _ _

private theorem call_other (env : Surroundings) (c : SyncCall) (rest : c.Result → Sync ReplyPtr) :
    (s.call answers t env c rest).threads u = s.threads u := by
  have sent : ∀ (con : ConPtr) (p : Sync ReplyPtr), ((s.send t con).goOn t p).threads u = s.threads u := by
    intro con p
    rw [goOn_other hu]
    exact setThread_other _ _ hu
  cases c with
  | getConnection | createNewConnection => exact obtain_other hu _ _ _
  | releaseSlotConnection => exact setThread_other _ _ hu
  | releaseHostConnection conn =>
    obtain ⟨key, con⟩ := conn
    cases con <;> exact setThread_other _ _ hu
  | moved =>
    unfold Threads.call
    cases env.movedCb <;> exact goOn_other hu _ _
  | redisAppendFormattedCommand con cmd =>
    unfold Threads.call
    cases cmd with
    | none => exact goOn_other hu _ _
    | some bytes =>
      by_cases hworks : env.works = true
      · simp only [if_pos hworks]
        exact sent _ _
      · simp only [if_neg hworks]
        exact goOn_other hu _ _
  | redisGetReply => exact receive_other hu
  | redisCommand con format =>
    unfold Threads.call
    by_cases hworks : env.works = true
    · simp only [if_pos hworks]
      exact sent _ _
    · simp only [if_neg hworks]
      exact goOn_other hu _ _
  | err | errstr => exact goOn_other hu _ _
  | readReply reply => cases reply <;> exact goOn_other hu _ _
  | freeReplyObject reply => cases reply <;> exact goOn_other hu _ _

theorem exec_other (turn : Turn) : (s.exec answers (t, turn)).threads u = s.threads u := by
  cases turn with
  | start this =>
    unfold Threads.exec
    dsimp only
    split
    · exact goOn_other hu _ _
    · rfl
  | insertSlots slots host port connects => rw [exec_insert_threads]
  | proceed env =>
    show (s.proceed answers t env).threads u = _
    unfold Threads.proceed
    split
    · rfl
    · exact setThread_other _ _ hu
    · exact setThread_other _ _ hu
    · rfl
    · exact call_other hu _ _ _
    · exact obtain_other hu _ _ _

end

/-! ### Commands end -/

/-- In this step the thread starts a command. -/
def begins (s : Threads ι) (t : ι) (e : ι × Turn) : Bool :=
  decide (e.1 = t) && match e.2, (s.threads t).activity with
    | .start _, .idle => true
    | _, _ => false

/-- In this step the thread goes on with its command. -/
def advances (s : Threads ι) (t : ι) (e : ι × Turn) : Bool :=
  decide (e.1 = t) && match e.2 with
    | .proceed _ => !s.blocked t
    | _ => false

/-- A step takes a turn from the command of a thread, or starts one, or has nothing to do with it. -/
private theorem Sound.exec_left (h : Sound s) (e : ι × Turn) {n : Nat} (hn : (s.threads t).activity.Left n) :
    ∃ m, ((s.exec answers e).threads t).activity.Left m ∧
      (if s.advances t e then 1 else 0) + m ≤ n + 21 * (if s.begins t e then 1 else 0) := by
  obtain ⟨u, turn⟩ := e
  by_cases hu : u = t
  · subst hu
    unfold advances begins
    cases turn with
    | start this =>
      unfold Threads.exec
      cases hact : (s.threads u).activity with
      | idle =>
        refine ⟨21, ?_, by simp⟩
        simp only [goOn_self]
        exact ⟨none, 20, rfl, Tenancy.process_obeys this⟩
      | running p => exact ⟨n, hn, by simp⟩
      | waiting pool resume => exact ⟨n, hn, by simp⟩
    | insertSlots slots host port connects =>
      refine ⟨n, ?_, by simp⟩
      rw [exec_insert_threads]
      exact hn
    | proceed env =>
      cases hb : s.blocked u with
      | true =>
        refine ⟨n, ?_, by simp⟩
        rw [exec_blocked hb]
        exact hn
      | false =>
        have next : Activity.Next (s.threads u).activity ((s.exec answers (u, .proceed env)).threads u).activity :=
          h.exec_next hb env
        obtain ⟨m, hlt, hm⟩ := next.left hn
        exact ⟨m, hm, by simp; omega⟩
  · refine ⟨n, ?_, ?_⟩
    · rw [exec_other (Ne.symm hu)]
      exact hn
    · simp [advances, begins, hu]

/-- A command ends after 21 turns at most, the turns apart in which its thread waits in vain: in every run a thread has
taken no more turns than that for each command it started. -/
theorem turns_bounded {hist : List (Threads ι × ι × Turn)} (r : ThreadRun answers s hist) (t : ι) :
    hist.countP (fun p => p.1.advances t p.2) ≤ 21 * hist.countP (fun p => p.1.begins t p.2) := by
  have bound : ∃ n, (s.threads t).activity.Left n ∧
      hist.countP (fun p => p.1.advances t p.2) + n ≤ 21 * hist.countP (fun p => p.1.begins t p.2) := by
    induction r with
    | start h =>
      refine ⟨0, ?_, Nat.le_refl _⟩
      rw [(h.idle t).1]
      trivial
    | next r h ih =>
      obtain ⟨n, hleft, hcount⟩ := ih
      rw [h]
      obtain ⟨m, hm, hstep⟩ := (Sound.reachable r).exec_left _ hleft
      refine ⟨m, hm, ?_⟩
      simp only [List.countP_append, List.countP_singleton]
      omega
  obtain ⟨n, -, hcount⟩ := bound
  omega

/-- A thread has taken three turns for its command. -/
theorem turns_bounded_three :
    let answers : Nat → RedisReply := fun _ => .nil
    let start : Threads Nat := ⟨true, ⟨.empty, .empty, [], [], []⟩, fun _ => ⟨.idle, [], none⟩, fun _ => [], [], 0, []⟩
    let turn : Nat × Turn := (1, .proceed ⟨[], true, none⟩)
    let es := [(0, .insertSlots (0, 16383) (text "10.0.0.1") 7000 []), (1, .start getFoo), turn, turn, turn]
    let hist := trail (exec answers) start es
    hist.countP (fun p => p.1.advances 1 p.2) = 3 ∧ 3 ≤ 21 * hist.countP fun p => p.1.begins 1 p.2 := by
  intro answers start turn es hist
  have begun : ThreadRun answers start [] := .start ⟨rfl, fun _ => ⟨rfl, rfl⟩, fun _ => rfl⟩
  have run : ThreadRun answers (after (exec answers) start es) hist := begun.follow es fun _ _ => rfl
  have taken : hist.countP (fun p => p.1.advances 1 p.2) = 3 := by decide +kernel
  exact ⟨taken, taken ▸ turns_bounded run 1⟩

end Threads

/-! ### What a section does to the tables -/

namespace ThreadedPool

variable {ι κ : Type} {tag : κ → PoolKey} {c : ThreadedPool}

/-- The pools that were stored stay stored. -/
def Grows (c c' : ThreadedPool) : Prop := ∀ key pool, c.find key = some pool → c'.find key = some pool

/-- A section that pulls a connection pulls it, or waits for it, from the pool stored under the key it hands out. -/
structure Hands (tag : κ → PoolKey) (c : ThreadedPool) (x : Outcome Exn (Pulled κ) × ThreadedPool) : Prop where
  grows : Grows c x.2
  got : ∀ key con pool, x.1 = .ret (.got (key, con) pool) → x.2.find (tag key) = some pool
  waits : ∀ key pool, x.1 = .ret (.waits key pool) → x.2.find (tag key) = some pool

private theorem Hands.throws (e : Exn) {c' : ThreadedPool} (h : Grows c c') : Hands tag c (.throws e, c') :=
  ⟨h, nofun, nofun⟩

private theorem expect_grows (a : Sharing ι) (results : List ConnectResult) : Grows a.container (a.expect results) := by
  intro key pool hf
  cases key <;> exact hf

private theorem pullConnection_hands {key : κ} {pool : PoolPtr} (h : c.find (tag key) = some pool) :
    Hands tag c (pullConnection key pool c) := by
  unfold pullConnection
  split
  · exact ⟨fun _ _ => id, nofun, nofun⟩
  · refine ⟨fun _ _ => id, nofun, ?_⟩
    rintro key' pool' ⟨⟩
    exact h
  · have same : ∀ (key' : PoolKey) (pools : List (List ConPtr)), { c with pools := pools }.find key' = c.find key' := by
      intro key' pools
      cases key' <;> rfl
    refine ⟨fun key' pool' hf => (same key' _).trans hf, ?_, nofun⟩
    rintro key' con' pool' ⟨⟩
    exact (same _ _).trans h

private theorem Hands.of_grows {c' : ThreadedPool} {x : Outcome Exn (Pulled κ) × ThreadedPool} (h : Grows c c')
    (hx : Hands tag c' x) : Hands tag c x :=
  ⟨fun key pool hf => hx.grows key pool (h key pool hf), hx.got, hx.waits⟩

theorem getConnection_hands (index : SlotIndex) (c : ThreadedPool) : Hands .slots c (getConnection index c) := by
  rcases getConnection_cases index c with ⟨e, -, hlookup, hrun⟩ | hrun
  · rw [hrun]
    exact pullConnection_hands hlookup
  · rw [hrun]
    exact .throws _ fun _ _ => id

theorem insertHost_hands (host port : Bytes) (c : ThreadedPool) : Hands .host c (insertHost host port c) := by
  cases hl : c.connections_.lookup (DefaultContainer.hostKey host port) with
  | some pool =>
    rw [insertHost_found hl]
    exact pullConnection_hands hl
  | none =>
    obtain ⟨j, c', -, -, hn, hc, -, hend⟩ := insertHost_new hl
    have found : c'.find (.host (DefaultContainer.hostKey host port)) = some c.pools.length := by
      show c'.connections_.lookup _ = _
      rw [hc, OrderedMap.lookup_assign, if_pos rfl]
    have grows : Grows c c' := by
      intro key pool hf
      cases key with
      | slots range =>
        show c'.nodes_.lookup range = _
        rw [hn]
        exact hf
      | host key =>
        show c'.connections_.lookup key = _
        rw [hc]
        exact OrderedMap.lookup_assign_of_some _ hl hf
    rcases hend with ⟨-, hrun⟩ | ⟨-, e, hrun⟩
    · rw [hrun]
      exact .of_grows grows (pullConnection_hands found)
    · rw [hrun]
      exact .throws e grows

/-- A range is inserted under a new key. -/
theorem insertSlots_grows {slots : SlotRange} {c : ThreadedPool} (host : Bytes) (port : Int32)
    (h : c.nodes_.lookup slots = none) : Grows c (insertSlots slots host port c).2 := by
  obtain ⟨j, c', -, -, hn, hc, -, hrun⟩ := insertSlots_spec slots host port c
  rw [hrun]
  intro key pool hf
  cases key with
  | slots range =>
    show c'.nodes_.lookup range = _
    rw [hn]
    exact OrderedMap.lookup_assign_of_some _ h hf
  | host key =>
    show c'.connections_.lookup key = _
    rw [hc]
    exact hf

end ThreadedPool

/-! ### The threads as clients of the pool -/

namespace Threads

open ThreadedPool

variable {ι : Type} [DecidableEq ι] {answers : Nat → RedisReply}
variable {s s' : Threads ι} {a a' : Sharing (Option ι)} {n : Nat} {t : ι}

/-- A thread and the client it is agree on what it holds, one connection at most, and where it waits. -/
def Agrees (x : ThreadState) (held : List (HeldConnection (Option ι))) (place : Option (PoolKey × PoolPtr)) : Prop :=
  x.held = held.map (·.con) ∧
  match x.activity with
  | .idle => held = [] ∧ place = none
  | .running p => place = none ∧ ((held = [] ∧ ∃ m, p.Obeys tenancy (fun g _ => g.held = none) ⟨none, m⟩) ∨
    ∃ conn m, held = [conn] ∧ p.Obeys tenancy (fun g _ => g.held = none) ⟨some (conn.key, conn.con), m⟩)
  | .waiting pool resume => held = [] ∧ ∃ key m, place = some (key, pool) ∧
    ∀ con, (resume con).Obeys tenancy (fun g _ => g.held = none) ⟨some (key, con), m⟩

/-- The pool has its threads as clients, and every connection is in the pool stored under its key. -/
structure Tracked (s : Threads ι) (a : Sharing (Option ι)) (n : Nat) : Prop where
  container : a.container = s.container
  valid : a.Valid
  conserved : a.Conserved
  back : ∀ h ∈ a.held, a.container.find h.key = some h.pool
  stored : ∀ t key pool, a.waiting t = some (key, pool) → a.container.find key = some pool
  agrees : ∀ t, Agrees (s.threads t) (a.held.filter fun h => h.holder = some t) (a.waiting t)
  lost : a.held.countP (fun h => h.holder = none) = n
  stocked : a.Stocked

theorem Tracked.noHeld (h : Tracked s a n) (hfree : a.held.filter (fun h => h.holder = some t) = []) :
    (s.threads t).held = [] := by
  rw [(h.agrees t).1, hfree]
  rfl

/-- A step that leaves the tables and the queues alone. -/
private theorem Tracked.keep (h : Tracked s a n) (nodes : s'.container.nodes_ = s.container.nodes_)
    (connections : s'.container.connections_ = s.container.connections_)
    (pools : s'.container.pools = s.container.pools)
    (closed : s'.container.contexts.map (·.disconnected) = s.container.contexts.map (·.disconnected))
    (others : ∀ u, u ≠ t → s'.threads u = s.threads u)
    (hagrees : Agrees (s'.threads t) (a.held.filter fun h => h.holder = some t) (a.waiting t)) :
    Tracked s' (a.put s'.container) n := by
  have hfind : ∀ key, s'.container.find key = a.container.find key := by
    intro key
    rw [h.container]
    cases key with
    | slots range => exact congrArg (·.lookup range) nodes
    | host key => exact congrArg (·.lookup key) connections
  have hpools : s'.container.pools = a.container.pools := by rw [h.container, pools]
  have hqueue : ∀ pool, s'.container.queue pool = a.container.queue pool := by
    intro pool
    unfold queue
    rw [hpools]
  refine ⟨rfl, ?_, ?_, ?_, ?_, ?_, h.lost, ?_, fun pool con hcon => ?_, h.stocked.home, ?_⟩
  · refine h.valid.keep hfind (congrArg List.length hpools) (fun _ => Or.inl) fun _ _ _ => Or.inl
  · intro key pool hf
    have full := h.conserved key pool ((hfind key).symm.trans hf)
    unfold Sharing.size at full ⊢
    rw [← full]
    show (s'.container.queue pool).length + _ = _
    rw [hqueue]
    rfl
  · intro x hx
    exact (hfind x.key).trans (h.back x hx)
  · intro u key pool hw
    exact (hfind key).trans (h.stored u key pool hw)
  · intro u
    by_cases hu : u = t
    · rw [hu]
      exact hagrees
    · rw [others u hu]
      exact h.agrees u
  · show s'.container.contexts.map _ = List.replicate (poolSize_ * s'.container.pools.length) false
    rw [closed, hpools, ← h.container]
    exact h.stocked.opened
  · have hcon : con ∈ s'.container.queue pool := hcon
    rw [hqueue] at hcon
    exact h.stocked.queued pool con hcon
  · show (s'.container.nodes_.entries.map _ ++ s'.container.connections_.entries.map _).Perm
      (List.range s'.container.pools.length)
    rw [nodes, connections, hpools, ← h.container]
    exact h.stocked.stored

/-- A section that pulls a connection ends. -/
private theorem Tracked.obtain {κ : Type} {tag : κ → PoolKey} {x : Outcome Exn (Pulled κ) × ThreadedPool}
    {rest : κ × ConPtr → Sync ReplyPtr} {m : Nat} (h : Tracked s a n)
    (hfree : a.held.filter (fun h => h.holder = some t) = [])
    (hx : Hands tag a.container x) (hv : (a.obtain (some t) tag x).Valid) (hc : (a.obtain (some t) tag x).Conserved)
    (hs : (a.obtain (some t) tag x).Stocked)
    (hr : ∀ conn, (rest conn).Obeys tenancy (fun g _ => g.held = none) ⟨some (tag conn.1, conn.2), m⟩) :
    Tracked (s.obtain t x rest) (a.obtain (some t) tag x) n := by
  obtain ⟨o, c⟩ := x
  have noHeld := h.noHeld hfree
  have back : ∀ h ∈ a.held, c.find h.key = some h.pool := fun x hmem => hx.grows _ _ (h.back x hmem)
  have stored : ∀ u key pool, a.waiting u = some (key, pool) → c.find key = some pool :=
    fun u key pool hw => hx.grows _ _ (h.stored u key pool hw)
  -- where the thread does not wait, the others wait as before
  have awake : ∀ u key pool, a.setWaiting (some t) none u = some (key, pool) → c.find key = some pool := by
    intro u key pool hw
    rcases Sharing.setWaiting_some hw with hw | hw
    · cases hw
    · exact stored u key pool hw
  have elsewhere : ∀ u place, u ≠ t → a.setWaiting (some t) place (some u) = a.waiting (some u) :=
    fun u place hu => if_neg fun h => hu (Option.some.inj h)
  have here : ∀ place, a.setWaiting (some t) place (some t) = place := fun place => if_pos rfl
  cases o with
  | ret pulled =>
    cases pulled with
    | got conn pool =>
      obtain ⟨key, con⟩ := conn
      refine ⟨rfl, hv, hc, ?_, awake, fun u => ?_, by simpa [Sharing.obtain] using h.lost, hs⟩
      · intro x hmem
        rcases List.mem_cons.1 hmem with rfl | hmem
        · exact hx.got key con pool rfl
        · exact back x hmem
      · by_cases hu : u = t
        · subst hu
          simp only [Threads.obtain, setThread_self, Sharing.obtain, here, decide_true, List.filter_cons_of_pos, hfree,
            noHeld]
          exact ⟨rfl, rfl, Or.inr ⟨_, m, rfl, hr (key, con)⟩⟩
        · simp only [obtain_other hu, Sharing.obtain, elsewhere u _ hu, List.filter_cons]
          rw [if_neg (by simpa using Ne.symm hu)]
          exact h.agrees u
    | waits key pool =>
      refine ⟨rfl, hv, hc, back, ?_, fun u => ?_, h.lost, hs⟩
      · intro u key' pool' hw
        rcases Sharing.setWaiting_some hw with hw | hw
        · cases hw
          exact hx.waits key pool rfl
        · exact stored u key' pool' hw
      · by_cases hu : u = t
        · subst hu
          simp only [Threads.obtain, setThread_self, Sharing.obtain, here, hfree, noHeld]
          exact ⟨rfl, rfl, tag key, m, rfl, fun con => hr (key, con)⟩
        · simp only [obtain_other hu, Sharing.obtain, elsewhere u _ hu]
          exact h.agrees u
  | throws e =>
    refine ⟨rfl, hv, hc, back, awake, fun u => ?_, h.lost, hs⟩
    by_cases hu : u = t
    · subst hu
      simp only [Threads.obtain, goOn_self, Sharing.obtain, here, hfree]
      exact ⟨noHeld, rfl, Or.inl ⟨rfl, m, trivial⟩⟩
    · simp only [obtain_other hu, Sharing.obtain, elsewhere u _ hu]
      exact h.agrees u
  | undefined =>
    refine ⟨rfl, hv, hc, back, awake, fun u => ?_, h.lost, hs⟩
    by_cases hu : u = t
    · subst hu
      simp only [Threads.obtain, goOn_self, Sharing.obtain, here, hfree]
      exact ⟨noHeld, rfl, Or.inl ⟨rfl, m, trivial⟩⟩
    · simp only [obtain_other hu, Sharing.obtain, elsewhere u _ hu]
      exact h.agrees u

/-- A connection goes back to the pool it came from. -/
private theorem Tracked.released {conn : HeldConnection (Option ι)} {x : Outcome Exn Unit × ThreadedPool}
    {rest : Unit → Sync ReplyPtr} {m : Nat} (h : Tracked s a n) (hheld : a.held.filter (fun h => h.holder = some t) = [conn])
    (hx : x = ThreadedPool.release conn.con conn.key a.container) (hw : a.waiting (some t) = none)
    (hr : ∀ r, (rest r).Obeys tenancy (fun g _ => g.held = none) ⟨none, m⟩) :
    Tracked (s.released t conn.con x rest) ((PoolCall.release conn).perform (some t) a) n := by
  have hfilter : conn ∈ a.held ∧ conn.holder = some t := by
    have hmem : conn ∈ a.held.filter (fun h => h.holder = some t) := by rw [hheld]; exact List.mem_singleton_self conn
    simpa using hmem
  have hfound := h.back conn hfilter.1
  have allowed : (PoolCall.release conn).Allowed (some t) a := ⟨hw, hfilter.1, hfilter.2⟩
  obtain ⟨hv, hconserved⟩ := Sharing.perform_spec h.valid allowed
  have tables : ∀ key, x.2.find key = a.container.find key := by
    intro key
    rw [hx, Sharing.release_eq hfound]
    cases key <;> rfl
  refine ⟨by rw [hx]; rfl, hv, (hconserved h.conserved).2 hfound, ?_, ?_, fun u => ?_, ?_,
    h.stocked.release hfilter.1 hfound _⟩
  · intro y hy
    have hy : y ∈ a.held.erase conn := hy
    show (ThreadedPool.release conn.con conn.key a.container).2.find y.key = _
    rw [← hx, tables]
    exact h.back y (List.mem_of_mem_erase hy)
  · intro u key pool hu
    show (ThreadedPool.release conn.con conn.key a.container).2.find key = _
    rw [← hx, tables]
    exact h.stored u key pool hu
  · show Agrees _ ((a.held.erase conn).filter _) (a.waiting (some u))
    rw [← List.erase_filter]
    by_cases hu : u = t
    · subst hu
      have one : (s.threads u).held = [conn.con] := by
        rw [(h.agrees u).1, hheld]
        rfl
      simp only [Threads.released, setThread_self, hheld, one, hw, List.erase_cons_head]
      refine ⟨rfl, rfl, Or.inl ⟨rfl, m, ?_⟩⟩
      cases x.1 with
      | ret r => exact hr r
      | throws e => trivial
      | undefined => trivial
    · have notMem : conn ∉ a.held.filter (fun h => h.holder = some u) := by
        intro hmem
        have := of_decide_eq_true (List.mem_filter.1 hmem).2
        exact hu (Option.some.inj (this.symm.trans hfilter.2))
      rw [List.erase_of_not_mem notMem]
      have same : (s.released t conn.con x rest).threads u = s.threads u := setThread_other _ _ hu
      rw [same]
      exact h.agrees u
  · have perm := (List.perm_cons_erase hfilter.1).countP_eq fun h => h.holder = none
    simp only [List.countP_cons, hfilter.2, reduceCtorEq, decide_false, Bool.false_eq_true, ↓reduceIte,
      Nat.add_zero] at perm
    exact perm.symm.trans h.lost

/-- A call that takes no connection and gives none back. -/
def Neutral (c : SyncCall) : Prop := ∀ g r, (tenancy.after g c r).held = g.held

omit [DecidableEq ι] in
/-- The activity after a call of this kind still agrees. -/
private theorem Agrees.next {x y : ThreadState} {held : List (HeldConnection (Option ι))}
    {place : Option (PoolKey × PoolPtr)} {c : SyncCall} {rest : c.Result → Sync ReplyPtr} (h : Agrees x held place)
    (hact : x.activity = .running (.call c rest)) (hc : Neutral c)
    (hn : Activity.Next (.running (.call c rest)) y.activity) (hheld : y.held = x.held) : Agrees y held place := by
  obtain ⟨hmap, hx⟩ := h
  rw [hact] at hx
  obtain ⟨hplace, hx⟩ := hx
  -- the program that follows may do what the call left
  have follows : ∀ {p : Sync ReplyPtr}, (∀ g m, (Program.call (I := syncInterface) c rest : Sync ReplyPtr).Obeys tenancy
      (fun g _ => g.held = none) ⟨g, m⟩ → ∃ m', p.Obeys tenancy (fun g _ => g.held = none) ⟨g, m'⟩) →
      y.activity = .running p → Agrees y held place := by
    intro p hp hy
    refine ⟨hheld.trans hmap, ?_⟩
    rw [hy]
    refine ⟨hplace, ?_⟩
    rcases hx with ⟨hnil, m, hm⟩ | ⟨conn, m, hone, hm⟩
    · exact Or.inl ⟨hnil, hp _ m hm⟩
    · obtain ⟨m', hm'⟩ := hp _ m hm
      exact Or.inr ⟨conn, m', hone, hm'⟩
  generalize hya : y.activity = b at hn
  cases hn with
  | answered r =>
    refine follows (fun g m hm => ⟨m - c.turns, ?_⟩) hya
    have after := hm.2 r
    have same : tenancy.after ⟨g, m⟩ c r = ⟨g, m - c.turns⟩ := by
      have hkeep := hc ⟨g, m⟩ r
      exact congrArg (Tenancy.mk · (m - c.turns)) hkeep
    rwa [same] at after
  | failed e => exact follows (p := .throws e) (fun _ _ _ => ⟨0, trivial⟩) hya
  | undefined => exact follows (p := .undefined) (fun _ _ _ => ⟨0, trivial⟩) hya
  | @sent con format rest =>
    refine follows (p := .call (.redisGetReply con) rest) (fun g m hm => ⟨m - 1, ⟨?_, trivial⟩, hm.2⟩) hya
    have two : 2 ≤ m := hm.1.1
    show 1 ≤ m - 1
    omega
  | waitsSlots range pool =>
    have hkeep := hc ⟨none, 0⟩ (range, 0)
    cases hkeep
  | waitsHost key pool =>
    have hkeep := hc ⟨none, 0⟩ (key, some 0)
    cases hkeep

/-- The tables, the queues and what the thread holds are as before. -/
structure Frames (s s' : Threads ι) (t : ι) : Prop where
  nodes : s'.container.nodes_ = s.container.nodes_
  connections : s'.container.connections_ = s.container.connections_
  pools : s'.container.pools = s.container.pools
  closed : s'.container.contexts.map (·.disconnected) = s.container.contexts.map (·.disconnected)
  held : (s'.threads t).held = (s.threads t).held

private theorem Frames.goOn (s : Threads ι) (p : Sync ReplyPtr) : Frames s (s.goOn t p) t := by
  refine ⟨rfl, rfl, rfl, rfl, ?_⟩
  rw [goOn_self]

private theorem Frames.send (s : Threads ι) (con : ConPtr) (p : Sync ReplyPtr) : Frames s
    ((s.send t con).goOn t p) t := by
  refine ⟨rfl, rfl, rfl, rfl, ?_⟩
  rw [goOn_self, Threads.send, setThread_self]

private theorem Frames.fail (s : Threads ι) (con : ConPtr) (p : Sync ReplyPtr) : Frames s
    ((s.fail con).goOn t p) t := by
  refine ⟨rfl, rfl, rfl, ?_, ?_⟩
  · show (s.container.contexts.modify con _).map _ = _
    refine List.ext_getElem? fun i => ?_
    rw [List.getElem?_map, List.getElem?_map, List.getElem?_modify]
    cases s.container.contexts[i]? with
    | none => rfl
    | some x => by_cases hi : con = i <;> simp [hi]
  rw [goOn_self]
  rfl

private theorem receive_frames {con : ConPtr} {env : Surroundings} {rest : Option (Nat × RedisReply) → Sync ReplyPtr} :
    Frames s (s.receive answers t con env rest) t := by
  unfold Threads.receive
  split
  · exact .goOn s _
  · split
    · split
      · exact ⟨rfl, rfl, rfl, rfl, rfl⟩
      · refine ⟨rfl, rfl, rfl, rfl, ?_⟩
        rw [goOn_self]
    · exact .fail s con _

theorem call_frames (env : Surroundings) (c : SyncCall) (rest : c.Result → Sync ReplyPtr) (hc : Neutral c) :
    Frames s (s.call answers t env c rest) t := by
  cases c with
  | getConnection key =>
    have hkeep := hc ⟨none, 0⟩ ((0, 0), 0)
    cases hkeep
  | createNewConnection host port =>
    have hkeep := hc ⟨none, 0⟩ ([], some 0)
    cases hkeep
  | releaseSlotConnection conn =>
    have hkeep := hc ⟨some (.host [], 0), 0⟩ ()
    cases hkeep
  | releaseHostConnection conn =>
    have hkeep := hc ⟨some (.host [], 0), 0⟩ ()
    cases hkeep
  | moved =>
    unfold Threads.call
    cases env.movedCb <;> exact .goOn s _
  | redisAppendFormattedCommand con cmd =>
    unfold Threads.call
    cases cmd with
    | none => exact .goOn s _
    | some bytes =>
      by_cases hworks : env.works = true
      · simp only [if_pos hworks]
        exact .send s con _
      · simp only [if_neg hworks]
        exact .fail s con _
  | redisGetReply con => exact receive_frames
  | redisCommand con format =>
    unfold Threads.call
    by_cases hworks : env.works = true
    · simp only [if_pos hworks]
      exact .send s con _
    · simp only [if_neg hworks]
      exact .fail s con _
  | err | errstr => exact .goOn s _
  | readReply reply => cases reply <;> exact .goOn s _
  | freeReplyObject reply =>
    cases reply with
    | object a r =>
      refine ⟨rfl, rfl, rfl, rfl, ?_⟩
      show (((_ : Threads ι).goOn t _).threads t).held = _
      rw [goOn_self]
    | null | unset => exact .goOn s _

/-- A pool is made under a new key and is filled. -/
def Fills (s : Threads ι) (e : ι × Turn) : Prop :=
  match e.2, (s.threads e.1).activity with
  | .insertSlots slots _ _ connects, .idle => s.container.nodes_.lookup slots = none ∧ Connects poolSize_ connects
  | .proceed env, .running (.call (.createNewConnection host port) _) =>
    s.container.connections_.lookup (DefaultContainer.hostKey host port) = none →
      (∃ n, stoi port = .ret n) ∧ Connects poolSize_ env.connects
  | _, _ => True

/-- A command ends with a connection in its hands. -/
def leaks (s : Threads ι) (e : ι × Turn) : Bool :=
  match e.2, (s.threads e.1).activity with
  | .proceed _, .running (.throws _) => !(s.threads e.1).held.isEmpty
  | _, _ => false

/-- A thread whose next call takes a connection holds none and does not wait. -/
theorem Tracked.free (h : Tracked s a n) {c : SyncCall} {rest : c.Result → Sync ReplyPtr}
    (hact : (s.threads t).activity = .running (.call c rest)) (hc : ∀ g, tenancy.allows g c → g.held = none) :
    a.held.filter (fun h => h.holder = some t) = [] ∧ a.waiting (some t) = none ∧
      ∃ m, ∀ r, (rest r).Obeys tenancy (fun g _ => g.held = none) (tenancy.after ⟨none, m⟩ c r) := by
  have hagrees := (h.agrees t).2
  rw [hact] at hagrees
  obtain ⟨hplace, ⟨hnil, m, hm⟩ | ⟨conn, m, -, hm⟩⟩ := hagrees
  · exact ⟨hnil, hplace, m, hm.2⟩
  · cases hc _ hm.1

/-- A thread whose next call gives a connection back holds it. -/
private theorem Tracked.holds (h : Tracked s a n) {c : SyncCall} {rest : c.Result → Sync ReplyPtr} {key : PoolKey}
    {con : ConPtr} (hact : (s.threads t).activity = .running (.call c rest))
    (hc : ∀ g, tenancy.allows g c → g.held = some (key, con)) :
    ∃ conn, a.held.filter (fun h => h.holder = some t) = [conn] ∧ conn.key = key ∧ conn.con = con ∧
      a.waiting (some t) = none ∧ ∃ m, ∀ r,
        (rest r).Obeys tenancy (fun g _ => g.held = none) (tenancy.after ⟨some (key, con), m⟩ c r) := by
  have hagrees := (h.agrees t).2
  rw [hact] at hagrees
  obtain ⟨hplace, ⟨hnil, m, hm⟩ | ⟨conn, m, hone, hm⟩⟩ := hagrees
  · cases hc _ hm.1
  · have heq : some (conn.key, conn.con) = some (key, con) := hc _ hm.1
    cases heq
    exact ⟨conn, hone, rfl, rfl, hplace, m, hm.2⟩

/-- A call of a thread, of whichever kind. -/
private theorem Tracked.call (h : Tracked s a n) (sound : Sound s) (env : Surroundings) {c : SyncCall}
    {rest : c.Result → Sync ReplyPtr} (hact : (s.threads t).activity = .running (.call c rest))
    (hfills : s.Fills (t, .proceed env)) : ∃ a', Tracked (s.call answers t env c rest) a' n := by
  have neutral : Neutral c → ∃ a', Tracked (s.call answers t env c rest) a' n := by
    intro hc
    have frames : Frames s (s.call answers t env c rest) t := call_frames env c rest hc
    have next : Activity.Next (.running (.call c rest)) ((s.call answers t env c rest).threads t).activity :=
      sound.call_next env hact
    exact ⟨_, h.keep frames.nodes frames.connections frames.pools frames.closed (fun u hu => call_other hu env c rest)
      ((h.agrees t).next hact hc next frames.held)⟩
  cases c with
  | getConnection key =>
    obtain ⟨hfree, hplace, m, hrest⟩ := h.free hact fun _ => And.right
    show ∃ a', Tracked (s.obtain t (s.getConnection key) rest) a' n
    obtain ⟨hv, hc⟩ := Sharing.obtain_throws a (some t) PoolKey.slots (.cluster .notInitialized) a.container h.valid
    have hs : (a.obtain (some t) PoolKey.slots (.throws (.cluster .notInitialized), a.container)).Stocked :=
      ⟨h.stocked.opened, h.stocked.queued, h.stocked.home, h.stocked.stored⟩
    unfold Threads.getConnection
    split
    · rw [← h.container]
      exact ⟨_, h.obtain hfree (.throws _ fun _ _ => id) hv (hc.2 h.conserved) hs fun conn => hrest conn⟩
    · split
      · rw [← h.container]
        exact ⟨_, h.obtain hfree ⟨fun _ _ => id, nofun, nofun⟩ hv (hc.2 h.conserved) hs fun conn => hrest conn⟩
      · rename_i slot _
        have allowed : (PoolCall.getConnection slot).Allowed (some t) a := hplace
        obtain ⟨hv, hc⟩ := Sharing.perform_spec h.valid allowed
        rw [← h.container]
        exact ⟨_, h.obtain hfree (getConnection_hands slot _) hv ((hc h.conserved).2 trivial)
          (h.stocked.getConnection slot _) fun conn => hrest conn⟩
  | createNewConnection host port =>
    obtain ⟨hfree, hplace, m, hrest⟩ := h.free hact fun _ => And.right
    have hexpect : a.expect env.connects = { s.container with connects := env.connects } := by
      rw [← h.container]
      rfl
    have allowed : (PoolCall.insertHost host port env.connects).Allowed (some t) a := hplace
    obtain ⟨hv, hc⟩ := Sharing.perform_spec h.valid allowed
    have hfilled : (PoolCall.insertHost host port env.connects).Conserves a := by
      unfold Fills at hfills
      rw [hact] at hfills
      intro hnone
      rw [h.container] at hnone
      exact hfills hnone
    show ∃ a', Tracked (s.obtain t (ThreadedPool.insertHost host port { s.container with connects := env.connects })
      fun conn => rest (conn.1, some conn.2)) a' n
    rw [← hexpect]
    have hands : Hands .host a.container (ThreadedPool.insertHost host port (a.expect env.connects)) :=
      .of_grows (expect_grows _ _) (insertHost_hands host port _)
    exact ⟨_, h.obtain hfree hands hv ((hc h.conserved).2 hfilled) (h.stocked.insertHost hfilled _)
      fun conn => hrest (conn.1, some conn.2)⟩
  | releaseSlotConnection conn =>
    obtain ⟨held, hone, hkey, hcon, hplace, m, hrest⟩ := h.holds hact fun _ => And.right
    have hrelease : ThreadedPool.releaseSlotConnection conn s.container =
        ThreadedPool.release held.con held.key a.container := by
      rw [hkey, hcon, h.container]
      rfl
    show ∃ a', Tracked (s.released t conn.2 (ThreadedPool.releaseSlotConnection conn s.container) rest) a' n
    rw [← hcon]
    exact ⟨_, h.released hone hrelease hplace hrest⟩
  | releaseHostConnection conn =>
    obtain ⟨key, con⟩ := conn
    cases con with
    | none =>
      have hagrees := (h.agrees t).2
      rw [hact] at hagrees
      obtain ⟨-, ⟨-, m, hm⟩ | ⟨held, m, -, hm⟩⟩ := hagrees
      · exact hm.1.2.elim
      · exact hm.1.2.elim
    | some con =>
      obtain ⟨held, hone, hkey, hcon, hplace, m, hrest⟩ := h.holds hact fun _ => And.right
      have hrelease : ThreadedPool.releaseHostConnection key con s.container =
          ThreadedPool.release held.con held.key a.container := by
        rw [hkey, hcon, h.container]
        rfl
      show ∃ a', Tracked (s.released t con (ThreadedPool.releaseHostConnection key con s.container) rest) a' n
      rw [← hcon]
      rw [← hcon] at hrelease
      exact ⟨_, h.released hone hrelease hplace hrest⟩
  | moved => exact neutral fun _ _ => rfl
  | redisAppendFormattedCommand => exact neutral fun _ _ => rfl
  | redisGetReply => exact neutral fun _ _ => rfl
  | redisCommand => exact neutral fun _ _ => rfl
  | err => exact neutral fun _ _ => rfl
  | errstr => exact neutral fun _ _ => rfl
  | readReply => exact neutral fun _ _ => rfl
  | freeReplyObject => exact neutral fun _ _ => rfl

/-- A thread that has waited finds a connection, or waits on. -/
private theorem Tracked.wake (h : Tracked s a n) {pool : PoolPtr} {resume : ConPtr → Sync ReplyPtr}
    (hact : (s.threads t).activity = .waiting pool resume) :
    ∃ a', Tracked (s.obtain t (pullConnection () pool s.container) fun conn => resume conn.2) a' n := by
  have hagrees := (h.agrees t).2
  rw [hact] at hagrees
  obtain ⟨hfree, key, m, hplace, hresume⟩ := hagrees
  have hfound := h.stored t key pool hplace
  -- the thread gets the connection under the key it waits with
  obtain ⟨hv, hc⟩ := Sharing.obtain_pull a (some t) (fun _ : Unit => key) () h.valid (h.valid.stored key pool hfound)
    (Option.isSome_of_eq_some hfound)
  have hands : Hands (fun _ : Unit => key) a.container (pullConnection () pool a.container) :=
    pullConnection_hands hfound
  rw [← h.container]
  exact ⟨_, h.obtain hfree hands hv (hc.2 h.conserved) (h.stocked.pull _ _ () pool) fun conn => hresume conn.2⟩

/-- A connection of the thread `t` is nobody's any more. -/
def abandon (t : ι) (h : HeldConnection (Option ι)) : HeldConnection (Option ι) :=
  if h.holder = some t then { h with holder := none } else h

@[simp] theorem abandon_key (t : ι) (h : HeldConnection (Option ι)) : (abandon t h).key = h.key := by
  unfold abandon
  split <;> rfl

@[simp] theorem abandon_pool (t : ι) (h : HeldConnection (Option ι)) : (abandon t h).pool = h.pool := by
  unfold abandon
  split <;> rfl

@[simp] theorem abandon_con (t : ι) (h : HeldConnection (Option ι)) : (abandon t h).con = h.con := by
  unfold abandon
  split <;> rfl

private theorem abandon_holder (t : ι) (h : HeldConnection (Option ι)) :
    (abandon t h).holder = if h.holder = some t then none else h.holder := by
  unfold abandon
  split <;> rfl

/-- What the thread held counts as lost. -/
private theorem countP_abandon (t : ι) (held : List (HeldConnection (Option ι))) :
    (held.map (abandon t)).countP (fun h => h.holder = none) =
      held.countP (fun h => h.holder = none) + (held.filter fun h => h.holder = some t).length := by
  induction held with
  | nil => rfl
  | cons h held ih =>
    by_cases hh : h.holder = some t
    · simp [abandon_holder, hh, ih]
      omega
    · by_cases hn : h.holder = none
      · simp [abandon_holder, hn, ih]
        omega
      · simp [abandon_holder, hh, hn, ih]

/-- The others hold what they held. -/
private theorem filter_abandon (t u : ι) (held : List (HeldConnection (Option ι))) :
    (held.map (abandon t)).filter (fun h => h.holder = some u) =
      if u = t then [] else held.filter fun h => h.holder = some u := by
  induction held with
  | nil => simp
  | cons h held ih =>
    rw [List.map_cons, List.filter_cons, List.filter_cons, ih, abandon_holder]
    by_cases hh : h.holder = some t
    · by_cases hu : u = t
      · simp [hh, hu]
      · simp [hh, hu, Ne.symm hu]
    · by_cases hu : u = t
      · simp [hh, hu]
      · simp only [hh, hu, ↓reduceIte]
        split
        · rename_i hsome
          unfold abandon
          rw [if_neg hh]
        · rfl

/-- What a thread holds when its command ends is lost. -/
def lose (a : Sharing (Option ι)) (t : ι) : Sharing (Option ι) := { a with held := a.held.map (abandon t) }

private theorem Tracked.ended (h : Tracked s a n) (hplace : a.waiting (some t) = none) :
    Tracked (s.setThread t { s.threads t with activity := .idle, held := [] }) (lose a t)
      (n + (s.threads t).held.length) := by
  have mem : ∀ x ∈ (lose a t).held, ∃ y ∈ a.held, x.key = y.key ∧ x.pool = y.pool := by
    intro x hx
    obtain ⟨y, hy, rfl⟩ := List.mem_map.1 hx
    exact ⟨y, hy, abandon_key t y, abandon_pool t y⟩
  have sizes : ∀ pool, (lose a t).size pool = a.size pool := by
    intro pool
    have same : (lose a t).heldFrom pool = a.heldFrom pool := by
      simp [Sharing.heldFrom, lose, List.countP_map, Function.comp_def]
    unfold Sharing.size
    rw [same]
    rfl
  refine ⟨h.container, ⟨h.valid.stored, fun x hx => ?_, h.valid.waiting⟩, ?_, fun x hx => ?_, h.stored, fun u => ?_, ?_,
    h.stocked.opened, h.stocked.queued, fun x hx => ?_, h.stocked.stored⟩
  · obtain ⟨y, hy, hk, hp⟩ := mem x hx
    rw [hk, hp]
    exact h.valid.held y hy
  · intro key pool hf
    rw [sizes]
    exact h.conserved key pool hf
  · obtain ⟨y, hy, hk, hp⟩ := mem x hx
    rw [hk, hp]
    exact h.back y hy
  · show Agrees _ ((a.held.map (abandon t)).filter _) (a.waiting (some u))
    rw [filter_abandon]
    by_cases hu : u = t
    · rw [hu, setThread_self, if_pos rfl]
      exact ⟨rfl, rfl, hplace⟩
    · rw [setThread_other s _ hu, if_neg hu]
      exact h.agrees u
  · show (a.held.map (abandon t)).countP _ = _
    rw [countP_abandon, h.lost, (h.agrees t).1, List.length_map]
  · obtain ⟨y, hy, rfl⟩ := List.mem_map.1 hx
    rw [abandon_con, abandon_pool]
    exact h.stocked.home y hy

/-- A step in which pools are filled keeps the threads clients of the pool. -/
private theorem Tracked.exec (h : Tracked s a n) (sound : Sound s) {e : ι × Turn} (hfills : s.Fills e) :
    ∃ a', Tracked (s.exec answers e) a' (n + if s.leaks e then 1 else 0) := by
  obtain ⟨t, turn⟩ := e
  have hagrees := (h.agrees t).2
  cases turn with
  | start this =>
    unfold Threads.exec
    cases hact : (s.threads t).activity with
    | idle =>
      rw [hact] at hagrees
      refine ⟨_, h.keep (t := t) rfl rfl rfl rfl (fun u hu => goOn_other hu s _) ?_⟩
      dsimp only
      rw [goOn_self]
      exact ⟨(h.agrees t).1, hagrees.2, Or.inl ⟨hagrees.1, 20, Tenancy.process_obeys this⟩⟩
    | running p => exact ⟨a, h⟩
    | waiting pool resume => exact ⟨a, h⟩
  | insertSlots slots host port connects =>
    unfold Fills at hfills
    unfold Threads.exec
    cases hact : (s.threads t).activity with
    | idle =>
      rw [hact] at hagrees hfills
      have allowed : (PoolCall.insertSlots slots host port connects).Allowed (some t) a := hagrees.2
      obtain ⟨hv, hc⟩ := Sharing.perform_spec h.valid allowed
      have hnew : (a.expect connects).nodes_.lookup slots = none := by
        show a.container.nodes_.lookup slots = none
        rw [h.container]
        exact hfills.1
      have grows : Grows a.container (insertSlots slots host port (a.expect connects)).2 :=
        fun key pool hf => insertSlots_grows host port hnew key pool (expect_grows a connects key pool hf)
      refine ⟨_, ?_, hv, (hc h.conserved).2 hfills.2, fun x hx => ?_, fun u key pool hw => ?_, h.agrees, h.lost,
        h.stocked.insertSlots (by rw [h.container]; exact hfills.1) host port hfills.2 _⟩
      · rw [← h.container]
        rfl
      · exact grows _ _ (h.back x hx)
      · exact grows _ _ (h.stored u key pool hw)
    | running p => exact ⟨a, h⟩
    | waiting pool resume => exact ⟨a, h⟩
  | proceed env =>
    show ∃ a', Tracked (s.proceed answers t env) a' _
    unfold Threads.proceed leaks
    cases hact : (s.threads t).activity with
    | idle => exact ⟨a, h⟩
    | running p =>
      rw [hact] at hagrees
      cases p with
      | ret value =>
        -- where the command returns it holds nothing
        obtain ⟨hplace, ⟨hfree, -⟩ | ⟨conn, m, -, hm⟩⟩ := hagrees
        · have ended := h.ended hplace
          rw [h.noHeld hfree] at ended
          exact ⟨_, ended⟩
        · cases hm
      | throws e =>
        have held := (h.agrees t).1
        have ended := h.ended hagrees.1
        obtain ⟨-, ⟨hfree, -⟩ | ⟨conn, m, hone, -⟩⟩ := hagrees
        · rw [hfree] at held
          rw [held] at ended ⊢
          exact ⟨_, ended⟩
        · rw [hone] at held
          rw [held] at ended ⊢
          exact ⟨_, ended⟩
      | undefined => exact ⟨a, h⟩
      | call c rest => exact h.call sound env hact hfills
    | waiting pool resume => exact h.wake hact

/-! ### Some thread goes on -/

/-- A new cluster: nothing is stored, and the threads have not begun. -/
structure Unused (s : Threads ι) : Prop extends Constructed s where
  nodes : s.container.nodes_ = .empty
  connections : s.container.connections_ = .empty
  contexts : s.container.contexts = []

omit [DecidableEq ι] in
private theorem Unused.tracked [DecidableEq ι] (h : Unused s) : Tracked s ⟨s.container, [], fun _ => none⟩ 0 := by
  have constructed : Sharing.Constructed (⟨s.container, [], fun _ => none⟩ : Sharing (Option ι)) :=
    ⟨h.nodes, h.connections, h.pools, rfl, fun _ => rfl⟩
  refine ⟨rfl, constructed.valid.1, constructed.valid.2, nofun, nofun, fun t => ⟨(h.idle t).2, ?_⟩, rfl,
    ?_, fun pool con hcon => ?_, nofun, ?_⟩
  · rw [(h.idle t).1]
    exact ⟨rfl, rfl⟩
  · show s.container.contexts.map _ = List.replicate (poolSize_ * s.container.pools.length) false
    rw [h.contexts, h.pools]
    rfl
  · have hcon : con ∈ s.container.pools.getD pool [] := hcon
    rw [h.pools] at hcon
    exact absurd hcon List.not_mem_nil
  · show (s.container.nodes_.entries.map _ ++ s.container.connections_.entries.map _).Perm
      (List.range s.container.pools.length)
    rw [h.nodes, h.connections, h.pools]
    exact List.Perm.refl _

/-- A run of the threads of a new cluster, in any order. -/
abbrev ClusterRun (answers : Nat → RedisReply) : Threads ι → List (Threads ι × ι × Turn) → Prop :=
  Run Unused fun s e s' => s' = s.exec answers e

theorem ClusterRun.sound {hist : List (Threads ι × ι × Turn)} (r : ClusterRun answers s hist) : Sound s :=
  Sound.reachable (r.weaken fun _ h => h.toConstructed)

/-- The commands of a run that ended with a connection in their hands. -/
def leaked (hist : List (Threads ι × ι × Turn)) : Nat := hist.countP fun p => p.1.leaks p.2

theorem ClusterRun.tracked {hist : List (Threads ι × ι × Turn)} (r : ClusterRun answers s hist)
    (h : ∀ p ∈ hist, p.1.Fills p.2) : ∃ a, Tracked s a (leaked hist) := by
  induction r with
  | start h0 => exact ⟨_, h0.tracked⟩
  | next r hs ih =>
    obtain ⟨a, tracked⟩ := ih fun p hp => h p (List.mem_append_left _ hp)
    have last := h _ (List.mem_append_right _ (List.mem_singleton_self _))
    rw [hs, leaked, List.countP_append, List.countP_singleton]
    exact tracked.exec (ClusterRun.sound r) last

/-- A thread that waits holds nothing, and if there is no connection for it, a thread that is not waiting holds one of
the pool: not all of them are lost. -/
private theorem Tracked.waiting (h : Tracked s a n) (hn : n < poolSize_) {pool : PoolPtr}
    (hwaits : (s.threads t).activity.waitsFor = some pool) : (s.threads t).held = [] ∧ (s.container.queue pool = [] →
      ∃ u p con, (s.threads u).activity = .running p ∧ (s.threads u).held = [con] ∧ con / poolSize_ = pool) := by
  obtain ⟨hmap, hagrees⟩ := h.agrees t
  obtain ⟨resume, hact⟩ : ∃ resume, (s.threads t).activity = .waiting pool resume := by
    cases hact : (s.threads t).activity with
    | waiting pool' resume =>
      rw [hact] at hwaits
      cases hwaits
      exact ⟨resume, rfl⟩
    | _ => rw [hact] at hwaits; cases hwaits
  rw [hact] at hagrees
  obtain ⟨hfree, key, m, hplace, -⟩ := hagrees
  rw [hfree] at hmap
  refine ⟨hmap, fun hempty => ?_⟩
  rw [← h.container] at hempty
  have full := h.conserved key pool (h.stored _ key pool hplace)
  rw [Sharing.size, hempty, List.length_nil, Nat.zero_add, Sharing.heldFrom] at full
  obtain ⟨conn, hmem, hpool, u, hu⟩ : ∃ conn ∈ a.held, conn.pool = pool ∧ ∃ u, conn.holder = some u := by
    by_contra hnone
    have lost : a.held.countP (fun h => h.pool = pool) ≤ a.held.countP fun h => h.holder = none := by
      refine List.countP_mono_left fun x hx hp => ?_
      cases hholder : x.holder with
      | none => simp
      | some u => exact absurd ⟨x, hx, of_decide_eq_true hp, u, hholder⟩ hnone
    rw [h.lost] at lost
    omega
  have hin : conn ∈ a.held.filter fun h => h.holder = some u := List.mem_filter.2 ⟨hmem, by simp [hu]⟩
  obtain ⟨hheld, hother⟩ := h.agrees u
  cases hu : (s.threads u).activity with
  | running p =>
    rw [hu] at hother
    obtain ⟨-, ⟨hnil, -⟩ | ⟨one, m, hone, -⟩⟩ := hother
    · rw [hnil] at hin
      cases hin
    · rw [hone] at hheld hin
      have home := h.stocked.home conn hmem
      rw [hpool, List.mem_singleton.1 hin] at home
      exact ⟨u, p, one.con, hu, hheld, home⟩
  | _ =>
    rw [hu] at hother
    rw [hother.1] at hin
    cases hin

/-- In every run in which the pools are filled and fewer than ten commands ended with a connection in their hands, the
threads do not block each other: who waits holds nothing, who waits in vain waits while a thread that does not wait
holds a connection of the pool, and as long as some thread has a command and none has come to undefined behaviour,
there is a thread whose next turn takes it on. -/
theorem some_thread_goes_on {hist : List (Threads ι × ι × Turn)} (r : ClusterRun answers s hist)
    (h : ∀ p ∈ hist, p.1.Fills p.2) (hleaked : leaked hist < poolSize_) :
    (∀ t pool, (s.threads t).activity.waitsFor = some pool → (s.threads t).held = [] ∧
      (s.container.queue pool = [] → ∃ u p con, (s.threads u).activity = .running p ∧ (s.threads u).held = [con] ∧
        con / poolSize_ = pool)) ∧
    ((∀ t, (s.threads t).activity ≠ .running .undefined) → (∃ t, (s.threads t).activity ≠ .idle) →
      ∃ t, ∀ env, ((s.exec answers (t, .proceed env)).threads t).activity ≠ (s.threads t).activity) := by
  obtain ⟨a, tracked⟩ := r.tracked h
  refine ⟨fun t pool hwaits => tracked.waiting hleaked hwaits, ?_⟩
  rintro defined ⟨t, busy⟩
  have runs : ∀ u p, (s.threads u).activity = .running p → s.blocked u = false := by
    intro u p hu
    have hp := defined u
    unfold blocked
    rw [hu] at hp ⊢
    cases p with
    | undefined => exact absurd rfl hp
    | _ => rfl
  have someone : ∃ u, s.blocked u = false := by
    cases hact : (s.threads t).activity with
    | idle => exact absurd hact busy
    | running p => exact ⟨t, runs t p hact⟩
    | waiting pool resume =>
      cases hb : s.blocked t with
      | false => exact ⟨t, hb⟩
      | true =>
        unfold blocked at hb
        rw [hact] at hb
        have hempty : s.container.queue pool = [] := Sharing.queue_of_eq (eq_of_beq hb)
        obtain ⟨u, p, -, hu, -⟩ := (tracked.waiting hleaked (congrArg Activity.waitsFor hact)).2 hempty
        exact ⟨u, runs u p hu⟩
  obtain ⟨u, hu⟩ := someone
  exact ⟨u, fun env => (r.sound.exec_next hu env).ne⟩

/-- A step that makes no pool. -/
def keepsTables (s : Threads ι) (e : ι × Turn) : Bool :=
  match e.2, (s.threads e.1).activity.nextCall with
  | .insertSlots .., _ | .proceed _, some (.createNewConnection _ _) => false
  | _, _ => true

omit [DecidableEq ι] in
theorem fills_of_keepsTables {e : ι × Turn} (h : s.keepsTables e = true) : s.Fills e := by
  obtain ⟨t, turn⟩ := e
  unfold keepsTables at h
  unfold Fills
  cases turn with
  | start this => exact trivial
  | insertSlots => cases h
  | proceed env =>
    dsimp only at h ⊢
    cases hact : (s.threads t).activity with
    | idle | waiting => exact trivial
    | running p =>
      rw [hact] at h
      cases p with
      | call c rest =>
        cases c with
        | createNewConnection => cases h
        | _ => exact trivial
      | _ => exact trivial

/-- Eleven threads ask for the ten connections of the only node. -/
theorem some_thread_goes_on_eleven :
    let answers : Nat → RedisReply := fun _ => .nil
    let start : Threads Nat := ⟨true, ⟨.empty, .empty, [], [], []⟩, fun _ => ⟨.idle, [], none⟩, fun _ => [], [], 0, []⟩
    let env : Surroundings := ⟨[], true, none⟩
    let es := (0, .insertSlots (0, 16383) (text "10.0.0.1") 7000 []) ::
      (List.range 11).flatMap fun t => [(t, Turn.start getFoo), (t, Turn.proceed env)]
    let s := after (exec answers) start es
    (s.threads 10).activity.waitsFor = some 0 ∧ s.container.queue 0 = [] ∧
      ∃ u p con, (s.threads u).activity = .running p ∧ (s.threads u).held = [con] ∧ con / poolSize_ = 0 := by
  intro answers start env es s
  have begun : ClusterRun answers start [] := .start ⟨⟨rfl, fun _ => ⟨rfl, rfl⟩, fun _ => rfl⟩, rfl, rfl, rfl⟩
  have run : ClusterRun answers s (trail (exec answers) start es) := begun.follow es fun _ _ => rfl
  have kept : ((trail (exec answers) start es).tail.all fun p => p.1.keepsTables p.2) = true := by decide +kernel
  have fills : ∀ p ∈ trail (exec answers) start es, p.1.Fills p.2 := by
    intro p hp
    rcases List.mem_cons.1 hp with rfl | hp
    · exact ⟨rfl, by simp [Connects, poolSize_]⟩
    · exact fills_of_keepsTables (List.all_eq_true.1 kept p hp)
  have waits : (s.threads 10).activity.waitsFor = some 0 := by decide +kernel
  have empty : s.container.queue 0 = [] := by decide +kernel
  have few : leaked (trail (exec answers) start es) < poolSize_ := by decide +kernel
  exact ⟨waits, empty, ((some_thread_goes_on run fills few).1 10 0 waits).2 empty⟩

end Threads

end HiredisCluster
