import HiredisCluster.DeadConnections
import HiredisCluster.Dialogue

/-!
# Commands that cannot be sent

`Command` deletes the object it has allocated when hiredis refuses its request, but not when an exception tells that
there is no connection for the key: then the object is left behind, without a request and without a pointer to it
(`command_nothingBehind_iff`).
-/

namespace HiredisCluster

open Cxx AsyncHiredisCommand

/-- What happens to an asynchronous cluster that may be stopped. -/
inductive Use where
  | occurrence (x : Occurrence)
  | stop

def Use.exec : Use → Async Unit
  | occurrence x => x.exec
  | stop => Cluster.stop

abbrev UseRun := Run Initial fun w x w' => Use.exec x w = (.ret (), w')

def Event.deletes (that : ObjPtr) : Event → Bool
  | deleted data => data = that
  | _ => false

/-- How often the object was deleted. -/
def World.deletions (w : AsyncWorld) (that : ObjPtr) : Nat := w.client.trace.countP (Event.deletes that)

/-- `Command` was called in `w` and ended with `o` in `w'`: it returned a new object that is alive and has exactly one
request outstanding, or it threw, and what it allocated was deleted once and has no request. -/
structure NothingBehind (w w' : AsyncWorld) (o : Outcome Exn ObjPtr) : Prop where
  defined : o ≠ .undefined
  returns : ∀ that, o = .ret that → w.client.objects.length ≤ that ∧ (∃ obj, w'.Holds that obj) ∧
    w'.client.pending.countP (·.data = that) = 1
  throws : ∀ e, o = .throws e → ∀ that, w.client.objects.length ≤ that → that < w'.client.objects.length →
    w'.deletions that = w.deletions that + 1 ∧ (∀ obj, ¬ w'.Holds that obj) ∧
      ∀ req ∈ w'.client.pending, req.data ≠ that

/-- `getConnection` finds a connection for the key, and hiredis has not freed it. -/
def World.Serves (w : AsyncWorld) (key : Bytes) : Prop := ∃ conn, w.shared.route key = .ret conn ∧ w.Open conn.2

/-! ### Reachable states -/

private theorem Use.keeps (x : Use) (w : AsyncWorld) : Keeps w (x.exec w).2 := by
  cases x with
  | occurrence x => exact (Keeps.unaffected w).occurrence x w (.refl w)
  | stop => exact ⟨rfl, rfl, id, id⟩

private theorem Initial.known {w : AsyncWorld} (h : Initial w) : w.Known := by
  intro req hreq
  rw [h.pending] at hreq
  cases hreq

private theorem known_of_run {w : AsyncWorld} {hist : List (AsyncWorld × Use)} (r : UseRun w hist) : w.Known := by
  refine Run.invariant (fun w h => h.known) (fun w x w' h hs => ?_) r
  have hkeeps := x.keeps w
  rw [hs] at hkeeps
  exact hkeeps.known h

/-! ### One call -/

section call

variable {w : AsyncWorld} {args : Arguments}

/-- A call that threw before it allocated an object. -/
private theorem nothingBehind_unallocated (e : Exn) : NothingBehind w w (.throws e) where
  defined := by simp
  returns := by simp
  throws := fun _ _ that hle hlt => absurd hlt (Nat.not_lt.2 hle)

private theorem World.Known.count_eq_zero (h : w.Known) : w.client.pending.countP
    (·.data = w.client.objects.length) = 0 := by
  refine List.countP_eq_zero.2 fun req hreq heq => ?_
  have hlt := h req hreq
  rw [of_decide_eq_true heq] at hlt
  exact Nat.lt_irrefl _ hlt

/-- The request was accepted. -/
private theorem nothingBehind_accepted (h : w.Known) (obj : AsyncHiredisCommand) (halive : obj.alive = true)
    (ch : Choices) (evs : List Event) (c : ConPtr) :
    NothingBehind w (((w.alloc obj).noted ch evs).enqueue (obj.commandOn w.client.objects.length c))
      (.ret w.client.objects.length) where
  defined := by simp
  returns := by
    rintro that ⟨⟩
    refine ⟨Nat.le_refl _, ⟨obj, w.holds_alloc obj halive⟩, ?_⟩
    show (w.client.pending ++ [obj.commandOn w.client.objects.length c]).countP _ = 1
    rw [List.countP_append, h.count_eq_zero]
    simp [commandOn]
  throws := by simp

/-- The request was refused. -/
private theorem nothingBehind_refused (h : w.Known) (obj : AsyncHiredisCommand) (ch : Choices) (req : Request)
    (cause : Option (Request × ReplyPtr)) (e : Exn) :
    NothingBehind w (((w.alloc obj).noted ch
      [.refused req cause, .deleted w.client.objects.length]).kill w.client.objects.length obj) (.throws e) where
  defined := by simp
  returns := by simp
  throws := by
    intro _ _ that hle hlt
    have hobjects : (((w.alloc obj).noted ch [.refused req cause, .deleted w.client.objects.length]).kill
        w.client.objects.length obj).client.objects =
          (w.client.objects ++ [obj]).set w.client.objects.length { obj with alive := false } := Sound.objects_kill
    rw [hobjects, List.length_set, List.length_append, List.length_singleton] at hlt
    obtain rfl : that = w.client.objects.length := Nat.le_antisymm (Nat.le_of_lt_succ hlt) hle
    refine ⟨?_, ?_, ?_⟩
    · unfold World.deletions
      rw [Sound.trace_kill]
      show (w.client.trace ++ _).countP _ = _
      rw [List.countP_append]
      simp [Event.deletes]
    · rintro obj' ⟨hget, halive⟩
      rw [hobjects, List.getElem?_set_self (by simp)] at hget
      cases hget
      cases halive
    · intro q hq heq
      rw [Sound.pending_kill] at hq
      exact Nat.lt_irrefl _ (heq ▸ h q hq)

/-- The object is left behind. -/
private theorem not_nothingBehind_unrouted (obj : AsyncHiredisCommand) (e : Exn) :
    ¬ NothingBehind w (w.alloc obj) (.throws e) := by
  intro hall
  have hlt : w.client.objects.length < (w.alloc obj).client.objects.length := by
    show _ < (w.client.objects ++ [obj]).length
    simp
  obtain ⟨hdeleted, -⟩ := hall.throws e rfl _ (Nat.le_refl _) hlt
  have hsame : (w.alloc obj).deletions w.client.objects.length = w.deletions w.client.objects.length := rfl
  omega

/-- The object is allocated and its connection found, so its request is accepted or refused. -/
private theorem nothingBehind_sent (h : w.Known) {cmd : Bytes} (hnull : args.clusterNull = false)
    (hcmd : args.cmd = some cmd)
    {conn : SlotConnection} (hroute : w.shared.route args.key = .ret conn) (hopen : w.Open conn.2) :
    NothingBehind w (command args w).2 (command args w).1 := by
  have hcommand := command_allocated (w := w) hnull hcmd
  have hget := getConnection_route (w.alloc (args.object cmd)) args.key
  rw [show (w.alloc (args.object cmd)).shared = w.shared from rfl, hroute] at hget
  obtain ⟨ch, -, -, -, ⟨-, hsend⟩ | ⟨-, hsend⟩⟩ := redisAsyncSend_cases (w := w.alloc (args.object cmd)) hopen
    .processCommandReply w.client.objects.length (.formatted cmd)
  · rw [hcommand.trans (Code.bind_of_ret ((Code.bind_of_ret hget _).trans hsend) _)]
    exact nothingBehind_accepted h (args.object cmd) rfl ch _ conn.2
  · have hdel := delete_eq (w := (w.alloc (args.object cmd)).noted ch
      [.refused ⟨conn.2, .processCommandReply, w.client.objects.length, .formatted cmd⟩ w.client.firing])
      (w.holds_alloc (args.object cmd) rfl) (fun c hc => by cases hc)
    rw [World.noted_noted] at hdel
    rw [hcommand.trans ((Code.bind_of_ret ((Code.bind_of_ret hget _).trans hsend) _).trans
      (Code.bind_of_ret hdel _))]
    exact nothingBehind_refused h (args.object cmd) ch _ _ _

private theorem nothingBehind_iff (h : w.Known) (args : Arguments) :
    NothingBehind w (command args w).2 (command args w).1 ↔
      args.clusterNull = true ∨ args.cmd = none ∨ w.Serves args.key := by
  cases hnull : args.clusterNull with
  | true =>
    rw [command_null hnull]
    exact iff_of_true (nothingBehind_unallocated _) (Or.inl rfl)
  | false =>
    cases hcmd : args.cmd with
    | none =>
      rw [command_unformatted hnull hcmd]
      exact iff_of_true (nothingBehind_unallocated _) (Or.inr (Or.inl rfl))
    | some cmd =>
      have hcommand := command_allocated (w := w) hnull hcmd
      have hget := getConnection_route (w.alloc (args.object cmd)) args.key
      have hiff : (false = true ∨ some cmd = none ∨ w.Serves args.key) ↔ w.Serves args.key := by simp
      rw [hiff]
      cases hroute : (w.alloc (args.object cmd)).shared.route args.key with
      | undefined =>
        rw [hroute] at hget
        rw [hcommand.trans (Code.bind_of_undefined (Code.bind_of_undefined hget _) _)]
        refine iff_of_false (fun hall => hall.defined rfl) ?_
        rintro ⟨conn, hconn, -⟩
        cases hroute.symm.trans hconn
      | throws e =>
        rw [hroute] at hget
        rw [hcommand.trans (Code.bind_of_throws (Code.bind_of_throws hget _) _)]
        refine iff_of_false (not_nothingBehind_unrouted _ e) ?_
        rintro ⟨conn, hconn, -⟩
        cases hroute.symm.trans hconn
      | ret conn =>
        rw [hroute] at hget
        by_cases hopen : w.Open conn.2
        · exact iff_of_true (nothingBehind_sent h hnull hcmd hroute hopen) ⟨conn, hroute, hopen⟩
        · have hsend := redisAsyncSend_closed (w := w.alloc (args.object cmd)) hopen .processCommandReply
            w.client.objects.length (.formatted cmd)
          rw [hcommand.trans (Code.bind_of_undefined ((Code.bind_of_ret hget _).trans hsend) _)]
          refine iff_of_false (fun hall => hall.defined rfl) ?_
          rintro ⟨conn', hconn', hopen'⟩
          cases hroute.symm.trans hconn'
          exact hopen hopen'

end call

/-- In every reachable state, a call of `Command` leaves nothing behind exactly when it allocates no object or finds a
connection that hiredis has not freed. -/
theorem command_nothingBehind_iff {w : AsyncWorld} {hist : List (AsyncWorld × Use)} (r : UseRun w hist)
    (args : Arguments) (ch : Choices) :
    NothingBehind (w.choose ch) (command args (w.choose ch)).2 (command args (w.choose ch)).1 ↔
      args.clusterNull = true ∨ args.cmd = none ∨ w.Serves args.key :=
  nothingBehind_iff (w := w.choose ch) (show w.Known from known_of_run r) args

/-- `GET k` with a callback. -/
def getKey : Arguments := { clusterNull := false, key := text "k", cmd := some (text "GET k"), redisCallback := true }

/-- The connection refuses the request. -/
theorem command_nothingBehind_refused :
    NothingBehind (oneNode.choose { calm with sends := [.err] })
      (command getKey (oneNode.choose { calm with sends := [.err] })).2
      (command getKey (oneNode.choose { calm with sends := [.err] })).1 := by
  have hroute : oneNode.shared.route getKey.key = .ret ((0, 16383), 0) := by decide +kernel
  exact (command_nothingBehind_iff (.start oneNode_initial) getKey _).2 (Or.inr (Or.inr ⟨_, hroute, _, rfl, rfl⟩))

/-- After `stop` the exception leaves the object behind. -/
theorem not_command_nothingBehind : ∃ w hist, UseRun w hist ∧
    ¬ NothingBehind (w.choose calm) (command getKey (w.choose calm)).2 (command getKey (w.choose calm)).1 := by
  have hstop : UseRun (Use.stop.exec oneNode).2 [(oneNode, Use.stop)] := .next (.start oneNode_initial) rfl
  have hroute : (Use.stop.exec oneNode).2.shared.route getKey.key = .throws (.cluster .notInitialized) := by
    decide +kernel
  refine ⟨_, _, hstop, fun hall => ?_⟩
  have hknown : World.Known ((Use.stop.exec oneNode).2.choose calm) := known_of_run hstop
  rcases (nothingBehind_iff hknown getKey).1 hall with hnull | hcmd | ⟨conn, hconn, -⟩
  · cases hnull
  · cases hcmd
  · cases hroute.symm.trans hconn

end HiredisCluster
