import HiredisCluster.AsyncDialogue
import HiredisCluster.Resharding

/-!
# The asynchronous client in a cluster that was resharded

The same nodes, of which the same rules of redirection are assumed (`Servers.receive`), and the same commands: what
the asynchronous client does with one of them is decided by the condition that decides it for the synchronous one.
Where one redirection is enough the command is executed once by the holder of its key, and its user is answered.
Where two would be needed the synchronous client returns the second redirection to its user; the asynchronous one goes
on, but a command keeps the connection of its first redirection, so it sends every `ASKING` to the node that has
handed the key on, and never ends (`async_served`).
-/

namespace HiredisCluster

open Cxx AsyncHiredisCommand

/-- The nodes: the connections on which `ASKING` was the last thing they got, and what they have executed. -/
structure Backend where
  asked : List ConPtr
  executed : List Execution

/-- What the node at `node` answers to a message: `OK` to `ASKING`, and to a command by the rules of redirection that are
assumed of the nodes. -/
def Backend.answer (V : Servers) (τ : Topology) (b : Backend) (node : Bytes × Int32) (con : ConPtr) :
    Message → RedisReply × Backend
  | .format _ => (.status (.ofText "OK"), { b with asked := con :: b.asked })
  | .formatted cmd =>
    let x := V.receive τ node (con ∈ b.asked) cmd b.executed
    (x.1, ⟨b.asked.erase con, x.2⟩)

/-- The event loop when the nodes answer, for as many replies as there is fuel. -/
def nodesLoop (V : Servers) (τ : Topology) : (fuel : Nat) → Backend → Async Backend
  | 0, b => pure b
  | fuel + 1, b => do
    let w ← Code.get
    match w.client.pending with
    | [] => pure b
    | req :: _ =>
      match w.shared.addresses[req.con]? with
      | none => Code.undefined
      | some node => do
        let x := b.answer V τ node req.con req.message
        (Stimulus.reply req.con x.1 calm).exec
        let w ← Code.get
        hangUp w.closing
        nodesLoop V τ fuel x.2

/-- A new client issues one command. -/
def serveAsync {V : Servers} (q : Command V) (τ : Topology) (done : List Execution) (fuel : Nat) : Async Backend := do
  let _ ← AsyncHiredisCommand.command { clusterNull := false, key := q.key, cmd := some q.cmd, redisCallback := true }
  nodesLoop V τ fuel ⟨[], done⟩

/-- What is cached for a node is a connection to it. -/
def Shared.KnowsNodes (t : Shared) : Prop :=
  ∀ (n : Node) (c : ConPtr), t.redirects.lookup (DefaultContainer.hostKey n.host (decimal n.port)) = some c →
    t.addresses[c]? = some n.address

/-- A redirection to a node leads to a connection to it. -/
theorem Shared.KnowsNodes.connect {t : Shared} (h : t.KnowsNodes) (n : Node) :
    (t.connect n.host (decimal n.port)).2.addresses[(t.connect n.host (decimal n.port)).1]? = some n.address := by
  unfold Shared.connect
  cases hl : t.redirects.lookup (DefaultContainer.hostKey n.host (decimal n.port)) with
  | some c => exact h n c hl
  | none =>
    have hport : Shared.portNumber (decimal n.port) = Int32.ofNat n.port := by
      unfold Shared.portNumber
      rw [stoi_decimal (Nat.lt_of_le_of_lt n.portFits (by decide))]
    have hhost : cStr n.host = n.host := cStr_eq_self n.nulFree
    simp [Shared.addresses, Context.opened, Node.address, hport, hhost]

section loop

variable {t : Shared} {key cmd : Bytes} {con_ : HostConnection} {sent : List (ConPtr × Message)} {n : Nat}
variable {w u : AsyncWorld} {c : ConPtr} {m : Message} {r : RedisReply} {host port hostKey : Bytes}
variable {V : Servers} {τ : Topology} {b : Backend} {req : Request} {rest : List Request}

private theorem nodesLoop_step (hp : w.client.pending = req :: rest) {node : Bytes × Int32}
    (hnode : w.shared.addresses[req.con]? = some node)
    (h : Iterates none req (b.answer V τ node req.con req.message).1 w u) (fuel : Nat) :
    nodesLoop V τ (fuel + 1) b w = nodesLoop V τ fuel (b.answer V τ node req.con req.message).2 u := by
  obtain ⟨v, hreply, hclose⟩ := h
  refine (Code.bind_of_ret (Code.get_apply w) _).trans ?_
  rw [hp]
  dsimp only
  rw [hnode]
  exact (Code.bind_of_ret hreply _).trans ((Code.bind_of_ret (Code.get_apply v) _).trans (Code.bind_of_ret hclose _))

private theorem nodesLoop_done (hp : w.client.pending = []) (fuel : Nat) : nodesLoop V τ fuel b w = (.ret b, w) := by
  cases fuel with
  | zero => rfl
  | succ fuel =>
    refine (Code.bind_of_ret (Code.get_apply w) _).trans ?_
    rw [hp]
    rfl

/-- A command that has a connection already sends `ASKING` to it, whatever node the redirection names. -/
private theorem Stage.askAgain
    (h : Stage t (commandObject key cmd (hostKey, some c)) [⟨c, .processCommandReply, 0, m⟩] sent n w)
    (ht : t.Healthy) (hc : c < t.contexts.length) (hdown : r.mentionsClusterDown = false)
    (hres : processResult r = .ret (.ask, host, port)) :
    ∃ u, Iterates none ⟨c, .processCommandReply, 0, m⟩ r w u ∧
      Stage t (commandObject key cmd (hostKey, some c)) [askingOn 0 c] (sent ++ [(c, .format (text "ASKING"))])
        (n + 1) u := by
  obtain ⟨hfire, hcalm, hfree⟩ := h.fire none r
  obtain ⟨v, hsend, hv⟩ := hfire.send hcalm ht hc .runRedisCallback (.format (text "ASKING"))
  let w₀ := w.fire ⟨c, .processCommandReply, 0, m⟩ r { calm with movedCb := none }
  have hensure : ensureConnection 0 host port w₀ = (.ret (), w₀) := Code.bind_of_ret (object_eq hfire.holds) _
  have hfollow : followState 0 .ask host port w₀ = (.ret .ask, v) := by
    refine (Code.bind_of_ret hensure _).trans ((Code.bind_of_ret (object_eq hfire.holds) _).trans ?_)
    exact (Code.bind_of_ret hsend _).trans rfl
  have hrun := processCommandReply_of_up 0 c (w := w₀) hfree hdown hres
  exact h.iterates (hrun.trans (Code.bind_of_ret (Code.attempt_ret hfollow) _)) hv ht

end loop

section served

variable {V : Servers} {τ : Topology} {q : Command V} {done : List Execution} {t : Shared}

variable (V done) in
/-- The owner of the slot of a key that was handed on redirects every command, asked or not. -/
private theorem Servers.receive_handedOn {n : Node} (h : τ.migrated q.key = some n) (asked : Bool) :
    V.receive τ (τ.owner (keySlot q.key)).address asked q.cmd done =
      (.error (n.redirection true (keySlot q.key)).str, done) := by
  have haway := τ.away q.key n h
  unfold Servers.receive
  rw [q.about]
  dsimp only
  rw [h, if_neg fun hasked => haway (Option.some.inj hasked.2), if_pos rfl]

/-- What can be seen of a client that goes on for ever: after `fuel` replies nothing was executed or given to the user,
and a request is outstanding. -/
structure GoesOn (done : List Execution) (messages : Nat) (x : Outcome Exn Backend × AsyncWorld) : Prop where
  executed : ∃ b, x.1 = .ret b ∧ b.executed = done
  pending : x.2.client.pending.length = 1
  sent : (x.2.client.trace.filterMap Event.message).length = messages
  given : x.2.client.trace.filterMap Event.answer = []

/-- A client that is done: the command was executed once, by the holder of its key, and the user got the reply. -/
structure Served (V : Servers) (τ : Topology) (q : Command V) (done : List Execution)
    (x : Outcome Exn Backend × AsyncWorld) : Prop where
  executed : ∃ b, x.1 = .ret b ∧ b.executed = done ++ [q.execution τ]
  pending : x.2.client.pending = []
  given : x.2.client.trace.filterMap Event.answer = [V.answer done (q.execution τ)]

private theorem Stage.goesOn {obj : AsyncHiredisCommand} {req : Request} {sent : List (ConPtr × Message)} {n : Nat}
    {w : AsyncWorld} (h : Stage t obj [req] sent n w) {b : Backend} (hb : b.executed = done) :
    GoesOn done sent.length (.ret b, w) :=
  ⟨⟨b, rfl, hb⟩, by rw [h.pending]; rfl, by rw [h.sent], h.given⟩

/-- A command whose connection leads to the owner of its slot is sent back and forth when its key was handed on: by
induction on the fuel, from the state in which the command is outstanding and from the one in which `ASKING` is. -/
private theorem Stage.bounces (ht : t.Healthy) {c : ConPtr} {hostKey : Bytes}
    (hnode : t.addresses[c]? = some (τ.owner (keySlot q.key)).address) {n' : Node} (hmig : τ.migrated q.key = some n')
    (fuel : Nat) {sent : List (ConPtr × Message)} {n : Nat} {w : AsyncWorld} {b : Backend} (hb : b.executed = done) :
    (Stage t (commandObject q.key q.cmd (hostKey, some c)) [⟨c, .processCommandReply, 0, .formatted q.cmd⟩] sent n w →
      GoesOn done (sent.length + fuel) (nodesLoop V τ fuel b w)) ∧
    (Stage t (commandObject q.key q.cmd (hostKey, some c)) [askingOn 0 c] sent n w →
      GoesOn done (sent.length + fuel) (nodesLoop V τ fuel b w)) := by
  have hc : c < t.contexts.length := by
    have hlt := (List.getElem?_eq_some_iff.1 hnode).1
    rwa [Shared.addresses, List.length_map] at hlt
  induction fuel generalizing sent n w b with
  | zero => exact ⟨fun h => h.goesOn hb, fun h => h.goesOn hb⟩
  | succ fuel ih =>
    constructor
    · intro h
      have hanswer : b.answer V τ (τ.owner (keySlot q.key)).address c (.formatted q.cmd) =
          (.error (n'.redirection true (keySlot q.key)).str, ⟨b.asked.erase c, b.executed⟩) := by
        unfold Backend.answer
        dsimp only
        rw [V.receive_handedOn b.executed hmig]
      obtain ⟨u, hstep, hu⟩ := h.askAgain ht hc (n'.mentionsClusterDown_redirection true _)
        (n'.redirection true (keySlot q.key)).parsed
      have hloop := nodesLoop_step (V := V) (τ := τ) (b := b) h.pending (by rw [h.shared]; exact hnode)
        (by rw [hanswer]; exact hstep) fuel
      have hnext := (ih (b := ⟨b.asked.erase c, b.executed⟩) hb).2 hu
      rw [hloop, hanswer]
      rw [List.length_append, List.length_singleton] at hnext
      exact Nat.add_right_comm sent.length 1 fuel ▸ hnext
    · intro h
      obtain ⟨u, hstep, hu⟩ := h.asking none (r := .status (.ofText "OK")) ht hc (by decide +kernel)
      have hloop := nodesLoop_step (V := V) (τ := τ) (b := b) h.pending (by rw [h.shared]; exact hnode) hstep fuel
      have hnext := (ih (b := ⟨c :: b.asked, b.executed⟩) hb).1 hu
      rw [hloop]
      rw [List.length_append, List.length_singleton] at hnext
      exact Nat.add_right_comm sent.length 1 fuel ▸ hnext

/-- The holder of the key gets the command, and the client is done. -/
private theorem Stage.served (ht : t.Healthy) {con_ : HostConnection} {c : ConPtr} {sent : List (ConPtr × Message)}
    {n : Nat} {w : AsyncWorld} {b : Backend}
    (h : Stage t (commandObject q.key q.cmd con_) [⟨c, .processCommandReply, 0, .formatted q.cmd⟩] sent n w)
    (hcon : ∀ c', con_.2 = some c' → c' < t.contexts.length) {node : Bytes × Int32}
    (hnode : t.addresses[c]? = some node) (hreceive : V.receive τ node (c ∈ b.asked) q.cmd b.executed =
      (V.answer done (q.execution τ), done ++ [q.execution τ])) (fuel : Nat) :
    Served V τ q done (nodesLoop V τ (fuel + 1) b w) := by
  have hanswer : b.answer V τ node c (.formatted q.cmd) =
      (V.answer done (q.execution τ), ⟨b.asked.erase c, done ++ [q.execution τ]⟩) := by
    unfold Backend.answer
    dsimp only
    rw [hreceive]
  obtain ⟨hready, hdown⟩ := V.plain done (q.execution τ)
  obtain ⟨u, hstep, hended⟩ := h.ready none ht hcon hdown hready
  have hloop := nodesLoop_step (V := V) (τ := τ) (b := b) h.pending (by rw [h.shared]; exact hnode)
    (by rw [hanswer]; exact hstep) fuel
  rw [hloop, hanswer, nodesLoop_done hended.pending]
  exact ⟨⟨_, rfl, rfl⟩, hended.pending, hended.given⟩

section first

variable {c : ConPtr} {sent : List (ConPtr × Message)} {n : Nat} {w : AsyncWorld} {node : Bytes × Int32}
variable (h : Stage t (commandObject q.key q.cmd ([], none)) [⟨c, .processCommandReply, 0, .formatted q.cmd⟩] sent n w)
include h

/-- A node that does not serve the slot sends the command to the one that does. -/
private theorem Stage.redirectedMoved (ht : t.Healthy) (hknows : t.KnowsNodes) (hnode : t.addresses[c]? = some node)
    (hne : node ≠ (τ.owner (keySlot q.key)).address) :
    ∃ t' key c' u, t'.Healthy ∧ t'.addresses[c']? = some (τ.owner (keySlot q.key)).address ∧
      Stage t' (commandObject q.key q.cmd (key, some c')) [⟨c', .processCommandReply, 0, .formatted q.cmd⟩]
        (sent ++ [(c', .formatted q.cmd)]) (n + 1) u ∧
      ∀ fuel, nodesLoop V τ (fuel + 1) ⟨[], done⟩ w = nodesLoop V τ fuel ⟨[], done⟩ u := by
  have hreceive := V.receive_unasked done τ q node
  rw [if_neg hne] at hreceive
  have hanswer : Backend.answer V τ ⟨[], done⟩ node c (.formatted q.cmd) =
      (.error ((τ.owner (keySlot q.key)).redirection false (keySlot q.key)).str, ⟨[], done⟩) :=
    congrArg (fun x : RedisReply × List Execution => (x.1, (⟨[], x.2⟩ : Backend))) hreceive
  obtain ⟨u, hstep, hu⟩ := h.moved none ht ((τ.owner (keySlot q.key)).mentionsClusterDown_redirection false _)
    ((τ.owner (keySlot q.key)).redirection false (keySlot q.key)).parsed
    ⟨_, ((τ.owner (keySlot q.key)).redirection false (keySlot q.key)).accepted⟩ fun hthrows => by cases hthrows.2
  refine ⟨_, _, _, u, (ht.connect _ _).1.markMoved, hknows.connect _, hu, fun fuel => ?_⟩
  rw [nodesLoop_step (V := V) (τ := τ) (b := ⟨[], done⟩) h.pending (by rw [h.shared]; exact hnode)
    (by rw [hanswer]; exact hstep) fuel, hanswer]

/-- The node that has handed the key on sends the command after it, with `ASKING`. -/
private theorem Stage.redirectedAsk (ht : t.Healthy) (hknows : t.KnowsNodes)
    (hnode : t.addresses[c]? = some (τ.owner (keySlot q.key)).address) {n' : Node} (hmig : τ.migrated q.key = some n') :
    ∃ t' key c' sent' u, t'.Healthy ∧ t'.addresses[c']? = some n'.address ∧ c' < t'.contexts.length ∧
      Stage t' (commandObject q.key q.cmd (key, some c')) [⟨c', .processCommandReply, 0, .formatted q.cmd⟩]
        sent' (n + 2) u ∧
      ∀ fuel, nodesLoop V τ (fuel + 2) ⟨[], done⟩ w = nodesLoop V τ fuel ⟨[c'], done⟩ u := by
  have hanswer : Backend.answer V τ ⟨[], done⟩ (τ.owner (keySlot q.key)).address c (.formatted q.cmd) =
      (.error (n'.redirection true (keySlot q.key)).str, ⟨[], done⟩) :=
    congrArg (fun x : RedisReply × List Execution => (x.1, (⟨[], x.2⟩ : Backend))) (V.receive_handedOn done hmig false)
  obtain ⟨u, hstep, hu⟩ := h.ask none ht (n'.mentionsClusterDown_redirection true _)
    (n'.redirection true (keySlot q.key)).parsed ⟨_, (n'.redirection true (keySlot q.key)).accepted⟩
  obtain ⟨ht', hexists⟩ := ht.connect n'.host (decimal n'.port)
  have hnode' := hknows.connect n'
  obtain ⟨u', hstep', hu'⟩ := hu.asking none (r := .status (.ofText "OK")) ht' hexists (by decide +kernel)
  refine ⟨_, _, _, _, u', ht', hnode', hexists, hu', fun fuel => ?_⟩
  rw [nodesLoop_step (V := V) (τ := τ) (b := ⟨[], done⟩) h.pending (by rw [h.shared]; exact hnode)
    (by rw [hanswer]; exact hstep) (fuel + 1), hanswer]
  exact nodesLoop_step (V := V) (τ := τ) (b := ⟨[], done⟩) hu.pending (by rw [hu.shared]; exact hnode') hstep' fuel

end first

/-- Among nodes that redirect as `Servers.receive` says, and with cached connections that lead where their keys say: a
command of the asynchronous client that one redirection takes to the holder of its key is executed there once and answered;
any other is never executed, and the client sends a message for every reply, for ever. -/
theorem async_served (V : Servers) (ht : t.Healthy) (hknows : t.KnowsNodes) (q : Command V) (τ : Topology)
    (done : List Execution) {conn : SlotConnection} (hr : t.route q.key = .ret conn) {node : Bytes × Int32}
    (hnode : t.addresses[conn.2]? = some node) :
    (node = (τ.owner (keySlot q.key)).address ∨ τ.migrated q.key = none →
      ∀ fuel, Served V τ q done (serveAsync q τ done (fuel + 3) t.asyncClient)) ∧
    (¬ (node = (τ.owner (keySlot q.key)).address ∨ τ.migrated q.key = none) →
      ∀ fuel, GoesOn done (fuel + 1) (serveAsync q τ done fuel t.asyncClient)) := by
  obtain ⟨w, hstart, hw⟩ := Stage.start q.cmd ht hr
  have hserve (fuel : Nat) : serveAsync q τ done fuel t.asyncClient = nodesLoop V τ fuel ⟨[], done⟩ w :=
    Code.bind_of_ret hstart _
  have hlt {t' : Shared} {c : ConPtr} {x : Bytes × Int32} (h : t'.addresses[c]? = some x) : c < t'.contexts.length := by
    have hlength := (List.getElem?_eq_some_iff.1 h).1
    rwa [Shared.addresses, List.length_map] at hlength
  constructor
  · intro hcond fuel
    rw [hserve]
    by_cases haddress : node = (τ.owner (keySlot q.key)).address
    · cases hmig : τ.migrated q.key with
      | none =>
        have hreceive := V.receive_unasked done τ q node
        rw [if_pos haddress, hmig, haddress, ← q.execution_owner hmig] at hreceive
        rw [haddress] at hnode
        exact hw.served ht (fun _ hc => by cases hc) hnode hreceive (fuel + 2)
      | some n' =>
        rw [haddress] at hnode
        obtain ⟨t', key, c, sent, u, ht', hnode', hc, hu, hloop⟩ := hw.redirectedAsk ht hknows hnode hmig
        have hasked := V.receive_asked done hmig
        rw [← q.execution_migrated hmig] at hasked
        rw [hloop]
        exact hu.served ht' (fun _ heq => by cases heq; exact hc) hnode' (by simpa using hasked) fuel
    · have hmig := hcond.resolve_left haddress
      obtain ⟨t', key, c, u, ht', hnode', hu, hloop⟩ := hw.redirectedMoved ht hknows hnode haddress
      have hreceive := V.receive_unasked done τ q (τ.owner (keySlot q.key)).address
      rw [if_pos rfl, hmig, ← q.execution_owner hmig] at hreceive
      rw [hloop]
      exact hu.served ht' (fun _ heq => by cases heq; exact hlt hnode') hnode' hreceive (fuel + 1)
  · intro hcond fuel
    rw [not_or] at hcond
    obtain ⟨n', hmig⟩ := Option.ne_none_iff_exists'.1 hcond.2
    obtain ⟨t', key, c, u, ht', hnode', hu, hloop⟩ := hw.redirectedMoved ht hknows hnode hcond.1
    rw [hserve]
    cases fuel with
    | zero => exact hw.goesOn rfl
    | succ fuel =>
      have hgoes := (Stage.bounces (b := ⟨[], done⟩) ht' hnode' hmig fuel rfl).1 hu
      rw [hloop, Nat.add_comm (fuel + 1) 1, ← Nat.add_assoc, Nat.add_right_comm]
      exact hgoes

end served

/-- The second node has the upper half of the slots, as far as the client knows. -/
def Shared.twoNodes : Shared where
  cluster :=
    { connections_ :=
        { connections_ := .empty, nodes_ := (OrderedMap.empty.insert (0, 8191) 0).insert (8192, 16383) 1 }
      userMovedFn_ := true, readytouse_ := true, moved_ := false }
  contexts := [Context.opened (text "10.0.0.1") 7000, Context.opened (text "10.0.0.2") 7001]

private theorem Shared.twoNodes_healthy : Shared.twoNodes.Healthy where
  contexts := by decide +kernel
  nodes := by decide +kernel
  redirects := by decide +kernel

/-- The key is handed on to the third node; or the slot has gone there, and the key on to the first. -/
theorem async_served_moving :
    (∀ fuel, Served counting (upperAt 2 (some 3)) getFooCommand []
      (serveAsync getFooCommand (upperAt 2 (some 3)) [] (fuel + 3) Shared.twoNodes.asyncClient)) ∧
    ∀ fuel, GoesOn [] (fuel + 1)
      (serveAsync getFooCommand (upperAt 3 (some 1)) [] fuel Shared.twoNodes.asyncClient) := by
  have hknows : Shared.twoNodes.KnowsNodes := fun n c h => nomatch h
  have hr : Shared.twoNodes.route getFooCommand.key = .ret ((8192, 16383), 1) := by decide +kernel
  have hnode : Shared.twoNodes.addresses[1]? = some (text "10.0.0.2", 7001) := by decide +kernel
  exact ⟨(async_served counting Shared.twoNodes_healthy hknows getFooCommand (upperAt 2 (some 3)) [] hr hnode).1
      (by decide +kernel),
    (async_served counting Shared.twoNodes_healthy hknows getFooCommand (upperAt 3 (some 1)) [] hr hnode).2
      (by decide +kernel)⟩

end HiredisCluster
