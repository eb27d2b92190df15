import HiredisCluster.AsyncEffects
import HiredisCluster.RedirectionSyntax

/-!
# The dialogue of one command

What a client does for one command when nothing fails, without saying how: the command goes to the node of its slot, a
redirection in the first reply is followed once, and the last reply is for the user (`dialogue`).  A `Transcript` is what
can be seen of a client from outside.  Both clients are compared with it.
-/

namespace HiredisCluster

open Cxx

/-- What does not depend on the kind of client: the cluster object and the connections. -/
structure Shared where
  cluster : Cluster
  contexts : List Context

def World.shared {ρ : Type} (w : World ρ) : Shared := ⟨w.cluster, w.contexts⟩

/-- The messages that were sent, with the addresses they were sent to; the replies that the user got, or how the call
ended otherwise; the flag of the cluster and the keys of the redirect cache afterwards. -/
structure Transcript where
  messages : List (Option (Bytes × Int32) × Message)
  result : Outcome Exn (List RedisReply)
  isMoved : Bool
  cached : List Bytes

namespace Shared

variable (t : Shared)

def redirects : RedirectConnections := t.cluster.connections_.connections_

/-- The addresses of the connections. -/
def addresses : List (Bytes × Int32) := t.contexts.map fun x => (x.host, x.port)

/-- What can be seen at the end, when the messages `sent` were sent. -/
def transcript (sent : List (ConPtr × Message)) (result : Outcome Exn (List RedisReply)) : Transcript where
  messages := sent.map fun m => (t.addresses[m.1]?, m.2)
  result := result
  isMoved := t.cluster.moved_
  cached := t.redirects.entries.map (·.1)

/-- The connections of both tables exist, and none of the connections has failed or is being closed. -/
structure Healthy : Prop where
  contexts : ∀ x ∈ t.contexts, x.err = false ∧ x.disconnecting = false ∧ x.disconnected = false
  nodes : ∀ e ∈ t.cluster.connections_.nodes_.entries, e.2 < t.contexts.length
  redirects : ∀ e ∈ t.redirects.entries, e.2 < t.contexts.length

/-- The connection for a key. -/
def route (key : Bytes) : Outcome Exn SlotConnection :=
  (Cluster.getConnection key ({ cluster := t.cluster, contexts := [], replies := 0, freed := [], client := () } :
    World Unit)).1

/-- The port number of a redirection. -/
def portNumber (port : Bytes) : Int32 :=
  match stoi port with
  | .ret n => n
  | _ => 0

/-- The connection for the address in a redirection: the cached one, or a new one that is cached. -/
def connect (host port : Bytes) : ConPtr × Shared :=
  match t.redirects.lookup (DefaultContainer.hostKey host port) with
  | some c => (c, t)
  | none =>
    (t.contexts.length,
      { cluster := { t.cluster with connections_ := { t.cluster.connections_ with
          connections_ := t.redirects.insert (DefaultContainer.hostKey host port) t.contexts.length } }
        contexts := t.contexts ++ [Context.opened (cStr host) (portNumber port)] })

/-- `moved` was executed. -/
def markMoved : Shared := { t with cluster := { t.cluster with moved_ := true } }

end Shared

namespace RedisReply

/-- An error that starts like a redirection. -/
def IsRedirect (r : RedisReply) : Prop := r.IsMoved ∨ r.startsWith (text "ASK") = true

instance (r : RedisReply) : Decidable r.IsRedirect := inferInstanceAs (Decidable (_ ∨ _))

end RedisReply

/-- The replies of the servers, in order: none mentions `CLUSTERDOWN`, at most the first is a redirection, its port is a
number, and `ASKING` is answered with `OK`. -/
structure Script (replies : Nat → RedisReply) : Prop where
  up : ∀ n, (replies n).mentionsClusterDown = false
  last : ∀ n, 0 < n → ¬ (replies n).IsRedirect
  port : ∀ state host port, processResult (replies 0) = .ret (state, host, port) → (state = .ask ∨ state = .moved) →
    ∃ n, stoi port = .ret n
  asking : (replies 0).startsWith (text "ASK") = true → (replies 1).isOk = true

/-- The command is redirected with `MOVED`, and the moved callback throws. -/
def MovedAborts (t : Shared) (movedCb : Option Exn) (key : Bytes) (replies : Nat → RedisReply) : Prop :=
  (∃ conn, t.route key = .ret conn) ∧ (replies 0).IsMoved ∧ t.cluster.userMovedFn_ = true ∧ movedCb.isSome = true

/-- One command when nothing fails. -/
def dialogue (t : Shared) (key cmd : Bytes) (replies : Nat → RedisReply) : Transcript :=
  match t.route key with
  | .throws e => t.transcript [] (.throws e)
  | .undefined => t.transcript [] .undefined
  | .ret conn =>
    match processResult (replies 0) with
    | .ret (.ask, host, port) =>
      let target := t.connect host port
      target.2.transcript [(conn.2, .formatted cmd), (target.1, .format (text "ASKING")), (target.1, .formatted cmd)]
        (.ret [replies 2])
    | .ret (.moved, host, port) =>
      let target := t.connect host port
      target.2.markMoved.transcript [(conn.2, .formatted cmd), (target.1, .formatted cmd)] (.ret [replies 1])
    | _ => t.transcript [(conn.2, .formatted cmd)] (.ret [replies 0])

section dialogue

variable {t : Shared} {key : Bytes} (cmd : Bytes) (replies : Nat → RedisReply) {conn : SlotConnection} {host port : Bytes}

theorem dialogue_unrouted {e : Exn} (hr : t.route key = .throws e) :
    dialogue t key cmd replies = t.transcript [] (.throws e) := by
  rw [dialogue, hr]

theorem dialogue_unhashed (hr : t.route key = .undefined) :
    dialogue t key cmd replies = t.transcript [] .undefined := by
  rw [dialogue, hr]

theorem dialogue_ready (hr : t.route key = .ret conn) (hres : processResult (replies 0) = .ret (.ready, host, port)) :
    dialogue t key cmd replies = t.transcript [(conn.2, .formatted cmd)] (.ret [replies 0]) := by
  rw [dialogue, hr]
  dsimp only
  rw [hres]

theorem dialogue_ask (hr : t.route key = .ret conn) (hres : processResult (replies 0) = .ret (.ask, host, port)) :
    dialogue t key cmd replies = (t.connect host port).2.transcript [(conn.2, .formatted cmd),
      ((t.connect host port).1, .format (text "ASKING")), ((t.connect host port).1, .formatted cmd)]
        (.ret [replies 2]) := by
  rw [dialogue, hr]
  dsimp only
  rw [hres]

theorem dialogue_moved (hr : t.route key = .ret conn) (hres : processResult (replies 0) = .ret (.moved, host, port)) :
    dialogue t key cmd replies = (t.connect host port).2.markMoved.transcript [(conn.2, .formatted cmd),
      ((t.connect host port).1, .formatted cmd)] (.ret [replies 1]) := by
  rw [dialogue, hr]
  dsimp only
  rw [hres]

end dialogue

/-! ### What both clients use -/

theorem getConnection_route {ρ : Type} (w : World ρ) (key : Bytes) :
    Cluster.getConnection key w = (w.shared.route key, w) := by
  obtain ⟨o, hrun, -⟩ := Cluster.getConnection_cases key w
  have hsame : (Cluster.getConnection key w).1 = w.shared.route key := by
    unfold Shared.route Cluster.getConnection
    simp only [Code.bind_apply, Code.get_apply, andThen_ret]
    by_cases hr : w.cluster.readytouse_ = true
    · simp only [World.shared, hr, not_true_eq_false, ↓reduceIte]
      cases SlotHash.slotByKey true key (Int32.ofNat key.length).toInt <;> rfl
    · simp only [World.shared, hr]
      rfl
  rw [hrun] at hsame ⊢
  rw [← hsame]

theorem Shared.route_mem {t : Shared} {key : Bytes} {conn : SlotConnection} (h : t.route key = .ret conn) :
    conn ∈ t.cluster.connections_.nodes_.entries := by
  obtain ⟨o, hrun, hmem, -⟩ := Cluster.getConnection_cases key
    ({ cluster := t.cluster, contexts := [], replies := 0, freed := [], client := () } : World Unit)
  refine hmem conn ?_
  rw [← h, Shared.route, hrun]

/-- The next connection that is opened is healthy; `f` says what opening it does to the client. -/
def Functions.Connects {ρ : Type} (fn : Functions ρ) (f : ρ → ρ) (w : World ρ) : Prop :=
  ∀ host port, callConnect fn host port w =
    (.ret (some w.contexts.length), (w.addContext (Context.opened host port)).setClient (f w.client))

/-- `createNewConnection` when nothing fails. -/
theorem createNewConnection_connect {ρ : Type} {fn : Functions ρ} {f : ρ → ρ} {w : World ρ}
    (hconnect : fn.Connects f w) (host : Bytes) {port : Bytes} (hport : ∃ n, stoi port = .ret n) :
    ∃ client, (client = w.client ∨ client = f w.client) ∧ Cluster.createNewConnection fn host port w =
      (.ret (DefaultContainer.hostKey host port, some (w.shared.connect host port).1),
        { w with cluster := (w.shared.connect host port).2.cluster
                 contexts := (w.shared.connect host port).2.contexts
                 client := client }) := by
  obtain ⟨n, hn⟩ := hport
  unfold Cluster.createNewConnection DefaultContainer.insertHost Shared.connect
  rw [Code.bind_of_ret (Code.get_apply w)]
  cases hl : w.redirects.lookup (DefaultContainer.hostKey host port) with
  | some c =>
    refine ⟨w.client, Or.inl rfl, ?_⟩
    rw [show w.shared.redirects.lookup _ = some c from hl]
    rfl
  | none =>
    have hrun := hconnect (cStr host) n
    have hlift : (Code.lift ((Outcome.ret n).mapThrows .std) : Lib ρ Int32) w = (.ret n, w) := rfl
    have hnew : errOf w.contexts.length ((w.addContext (Context.opened (cStr host) n)).setClient (f w.client)) =
        (.ret false, (w.addContext (Context.opened (cStr host) n)).setClient (f w.client)) :=
      errOf_eq (x := Context.opened (cStr host) n) (by simp)
    refine ⟨f w.client, Or.inr rfl, ?_⟩
    rw [show w.shared.redirects.lookup _ = none from hl, Shared.portNumber, hn]
    dsimp only
    rw [Code.bind_of_ret hlift]
    exact (Code.bind_of_ret hrun _).trans (Code.bind_of_ret hnew _)

namespace Shared

variable {t : Shared}

/-- The order in which the two steps of a `MOVED` redirection are taken does not matter. -/
theorem connect_markMoved (t : Shared) (host port : Bytes) :
    t.markMoved.connect host port = ((t.connect host port).1, (t.connect host port).2.markMoved) := by
  unfold connect
  rw [show t.markMoved.redirects = t.redirects from rfl]
  cases t.redirects.lookup (DefaultContainer.hostKey host port) <;> rfl

theorem userMovedFn_connect (t : Shared) (host port : Bytes) :
    (t.connect host port).2.cluster.userMovedFn_ = t.cluster.userMovedFn_ := by
  unfold connect
  cases t.redirects.lookup (DefaultContainer.hostKey host port) <;> rfl

theorem Healthy.markMoved (h : t.Healthy) : t.markMoved.Healthy := ⟨h.contexts, h.nodes, h.redirects⟩

/-- A redirection leads to a connection that exists, and everything stays healthy. -/
theorem Healthy.connect (h : t.Healthy) (host port : Bytes) :
    (t.connect host port).2.Healthy ∧ (t.connect host port).1 < (t.connect host port).2.contexts.length := by
  unfold Shared.connect
  cases hl : t.redirects.lookup (DefaultContainer.hostKey host port) with
  | some c =>
    obtain ⟨e, he, -, rfl⟩ := (OrderedMap.lookup_eq_some_iff _ _ _).1 hl
    exact ⟨h, h.redirects e he⟩
  | none =>
    have hlt {c : ConPtr} (hc : c ≤ t.contexts.length) :
        c < (t.contexts ++ [Context.opened (cStr host) (portNumber port)]).length := by
      rw [List.length_append, List.length_singleton]
      exact Nat.lt_succ_of_le hc
    refine ⟨⟨fun x hx => ?_, fun e he => hlt (Nat.le_of_lt (h.nodes e he)), fun e he => ?_⟩, hlt (Nat.le_refl _)⟩
    · rcases List.mem_append.1 hx with hx | hx
      · exact h.contexts x hx
      · rw [List.mem_singleton.1 hx]
        exact ⟨rfl, rfl, rfl⟩
    · rcases (OrderedMap.mem_insert t.redirects ((OrderedMap.lookup_eq_none_iff _ _).1 hl)).1 he with rfl | he
      · exact hlt (Nat.le_refl _)
      · exact hlt (Nat.le_of_lt (h.redirects e he))

/-- Healthy connections are open. -/
theorem Healthy.context (h : t.Healthy) {c : ConPtr} (hc : c < t.contexts.length) :
    ∃ x, t.contexts[c]? = some x ∧ x.err = false ∧ x.disconnecting = false ∧ x.disconnected = false :=
  ⟨_, List.getElem?_eq_getElem hc, h.contexts _ (List.getElem_mem hc)⟩

theorem transcript_congr {t' : Shared} (hcluster : t'.cluster = t.cluster) (haddresses : t'.addresses = t.addresses)
    (sent : List (ConPtr × Message)) (result : Outcome Exn (List RedisReply)) :
    t'.transcript sent result = t.transcript sent result := by
  simp only [transcript, redirects, hcluster, haddresses]

end Shared

end HiredisCluster
