import HiredisCluster.Cxx.OrderedMap
import HiredisCluster.HiredisProcess

/-!
# The state the library works on

One `Cluster` with its `DefaultContainer`, the connection contexts that were opened, the reply objects that were
created and freed, and the part `client` that belongs to the synchronous or the asynchronous client.  A connection
pointer is the number of its context.  The user's functions are parameters of the code that calls them (`Functions`).
-/

namespace HiredisCluster

open Cxx

abbrev SlotIndex := UInt32

abbrev SlotRange := SlotIndex × SlotIndex

/-- `SlotComparator` compares the starts of the ranges only. -/
def slotRank (r : SlotRange) : Nat := r.1.toNat

/-- `std::less<std::string>` compares byte by byte. -/
def hostRank (h : Bytes) : List Nat := h.map UInt8.toNat

theorem hostRank_injective {a b : Bytes} (h : hostRank a = hostRank b) : a = b :=
  List.map_injective_iff.2 (fun _ _ => UInt8.toNat_inj.1) h

abbrev ClusterNodes := OrderedMap slotRank ConPtr

abbrev RedirectConnections := OrderedMap hostRank ConPtr

/-- A connection for a slot range; the slot table holds no null pointers. -/
abbrev SlotConnection := SlotRange × ConPtr

/-- A connection made to follow a redirection, possibly null. -/
abbrev HostConnection := Bytes × Option ConPtr

/-- The tables of `DefaultContainer`. -/
structure DefaultContainer where
  connections_ : RedirectConnections
  nodes_ : ClusterNodes

/-- `Cluster`; `userMovedFn_` tells whether a moved callback is set. -/
structure Cluster where
  connections_ : DefaultContainer
  userMovedFn_ : Bool
  readytouse_ : Bool
  moved_ : Bool

/-- `freed` lists the addresses of the reply objects that were freed; their next address is `replies`. -/
structure World (ρ : Type) where
  cluster : Cluster
  contexts : List Context
  replies : Nat
  freed : List Nat
  client : ρ

variable {ρ : Type}

/-- Code of the library. -/
abbrev Lib (ρ α : Type) := Code (World ρ) Exn α

/-- The functions the user passes in: `pt2RedisConnectFunc`, `pt2RedisFreeFunc` and `MovedCb`. -/
structure Functions (ρ : Type) where
  connect : Option (Bytes → Int32 → Lib ρ (Option ConPtr))
  disconnect : Option (ConPtr → Lib ρ Unit)
  userMovedFn : Lib ρ Unit

namespace World

/-- The slot table. -/
def nodes (w : World ρ) : ClusterNodes := w.cluster.connections_.nodes_

/-- The redirect cache. -/
def redirects (w : World ρ) : RedirectConnections := w.cluster.connections_.connections_

/-- The cluster object is changed. -/
def updCluster (w : World ρ) (f : Cluster → Cluster) : World ρ := { w with cluster := f w.cluster }

def setNodes (w : World ρ) (m : ClusterNodes) : World ρ :=
  { w with cluster := { w.cluster with connections_ := { w.cluster.connections_ with nodes_ := m } } }

def setRedirects (w : World ρ) (m : RedirectConnections) : World ρ :=
  { w with cluster := { w.cluster with connections_ := { w.cluster.connections_ with connections_ := m } } }

/-- A context is added; its number is the pointer to it. -/
def addContext (w : World ρ) (c : Context) : World ρ := { w with contexts := w.contexts ++ [c] }

/-- The client's part is replaced. -/
def setClient {ρ' : Type} (w : World ρ) (c : ρ') : World ρ' := { w with client := c }

/-- A connection pointer that is stored in one of the tables. -/
def Stored (w : World ρ) (con : ConPtr) : Prop :=
  (∃ e ∈ w.nodes.entries, e.2 = con) ∨ ∃ e ∈ w.redirects.entries, e.2 = con

section projections

variable (w : World ρ)

@[simp] theorem nodes_setNodes (m : ClusterNodes) : (w.setNodes m).nodes = m := rfl
@[simp] theorem redirects_setNodes (m : ClusterNodes) : (w.setNodes m).redirects = w.redirects := rfl
@[simp] theorem contexts_setNodes (m : ClusterNodes) : (w.setNodes m).contexts = w.contexts := rfl
@[simp] theorem client_setNodes (m : ClusterNodes) : (w.setNodes m).client = w.client := rfl
@[simp] theorem replies_setNodes (m : ClusterNodes) : (w.setNodes m).replies = w.replies := rfl
@[simp] theorem freed_setNodes (m : ClusterNodes) : (w.setNodes m).freed = w.freed := rfl
@[simp] theorem readytouse_setNodes (m : ClusterNodes) : (w.setNodes m).cluster.readytouse_ = w.cluster.readytouse_ := rfl
@[simp] theorem nodes_setRedirects (m : RedirectConnections) : (w.setRedirects m).nodes = w.nodes := rfl
@[simp] theorem redirects_setRedirects (m : RedirectConnections) : (w.setRedirects m).redirects = m := rfl
@[simp] theorem contexts_setRedirects (m : RedirectConnections) : (w.setRedirects m).contexts = w.contexts := rfl
@[simp] theorem client_setRedirects (m : RedirectConnections) : (w.setRedirects m).client = w.client := rfl
@[simp] theorem freed_setRedirects (m : RedirectConnections) : (w.setRedirects m).freed = w.freed := rfl
@[simp] theorem readytouse_setRedirects (m : RedirectConnections) :
    (w.setRedirects m).cluster.readytouse_ = w.cluster.readytouse_ := rfl
@[simp] theorem cluster_updCluster (f : Cluster → Cluster) : (w.updCluster f).cluster = f w.cluster := rfl
@[simp] theorem contexts_updCluster (f : Cluster → Cluster) : (w.updCluster f).contexts = w.contexts := rfl
@[simp] theorem client_updCluster (f : Cluster → Cluster) : (w.updCluster f).client = w.client := rfl
@[simp] theorem freed_updCluster (f : Cluster → Cluster) : (w.updCluster f).freed = w.freed := rfl
@[simp] theorem nodes_addContext (c : Context) : (w.addContext c).nodes = w.nodes := rfl
@[simp] theorem redirects_addContext (c : Context) : (w.addContext c).redirects = w.redirects := rfl
@[simp] theorem contexts_addContext (c : Context) : (w.addContext c).contexts = w.contexts ++ [c] := rfl
@[simp] theorem cluster_addContext (c : Context) : (w.addContext c).cluster = w.cluster := rfl
@[simp] theorem client_addContext (c : Context) : (w.addContext c).client = w.client := rfl
@[simp] theorem freed_addContext (c : Context) : (w.addContext c).freed = w.freed := rfl

@[simp] theorem nodes_setClient (c : ρ) : (w.setClient c).nodes = w.nodes := rfl
@[simp] theorem redirects_setClient (c : ρ) : (w.setClient c).redirects = w.redirects := rfl
@[simp] theorem cluster_setClient (c : ρ) : (w.setClient c).cluster = w.cluster := rfl
@[simp] theorem contexts_setClient (c : ρ) : (w.setClient c).contexts = w.contexts := rfl
@[simp] theorem client_setClient (c : ρ) : (w.setClient c).client = c := rfl
@[simp] theorem freed_setClient (c : ρ) : (w.setClient c).freed = w.freed := rfl

end projections

end World

/-! ### Replies and contexts -/

/-- Reading through a reply pointer; a null or unset pointer and a freed object must not be read. -/
def derefReply (p : ReplyPtr) : Lib ρ RedisReply := fun w =>
  match p with
  | .object a r => if a ∈ w.freed then (.undefined, w) else (.ret r, w)
  | _ => (.undefined, w)

/-- hiredis' `freeReplyObject`; freeing an object twice or through an unset pointer is undefined. -/
def freeReply (p : ReplyPtr) : Lib ρ Unit := fun w =>
  match p with
  | .null => (.ret (), w)
  | .unset => (.undefined, w)
  | .object a _ => if a ∈ w.freed then (.undefined, w) else (.ret (), { w with freed := a :: w.freed })

/-- `con->err`. -/
def errOf (c : ConPtr) : Lib ρ Bool := fun w =>
  match w.contexts[c]? with
  | some x => (.ret x.err, w)
  | none => (.undefined, w)

theorem errOf_eq {w : World ρ} {c : ConPtr} {x : Context} (h : w.contexts[c]? = some x) :
    errOf c w = (.ret x.err, w) := by
  simp [errOf, h]

theorem derefReply_object {w : World ρ} {a : Nat} (h : a ∉ w.freed) (r : RedisReply) :
    derefReply (.object a r) w = (.ret r, w) := by
  simp [derefReply, h]

instance : HiredisCalls (Code (World ρ) Exn) where
  outcome := Code.lift
  readReply := derefReply
  freeReplyObject := freeReply
  err := errOf

section preserves

variable {I : World ρ → Prop}

/-- A property of the contexts and the client alone. -/
def World.IgnoresCluster (I : World ρ → Prop) : Prop :=
  ∀ w w' : World ρ, w'.contexts = w.contexts → w'.client = w.client → I w → I w'

/-- A property of the contexts, the client and the flag `moved_`. -/
def World.IgnoresTables (I : World ρ → Prop) : Prop :=
  ∀ w w' : World ρ, w'.contexts = w.contexts → w'.client = w.client → w'.cluster.moved_ = w.cluster.moved_ → I w → I w'

theorem World.IgnoresCluster.tables (hI : World.IgnoresCluster I) : World.IgnoresTables I :=
  fun w w' hcontexts hclient _ => hI w w' hcontexts hclient

theorem errOf_preserves (I : World ρ → Prop) (c : ConPtr) : Code.Preserves I (errOf c : Lib ρ Bool) := by
  intro w hw
  unfold errOf
  split <;> exact hw

theorem derefReply_preserves (I : World ρ → Prop) (p : ReplyPtr) :
    Code.Preserves I (derefReply p : Lib ρ RedisReply) := by
  intro w hw
  unfold derefReply
  split
  · split <;> exact hw
  · exact hw

theorem freeReply_preserves (hI : World.IgnoresTables I) (p : ReplyPtr) :
    Code.Preserves I (freeReply p : Lib ρ Unit) := by
  intro w hw
  cases p with
  | null => exact hw
  | unset => exact hw
  | object a r =>
    unfold freeReply
    by_cases ha : a ∈ w.freed
    · simpa only [if_pos ha] using hw
    · simp only [if_neg ha]
      exact hI w _ rfl rfl rfl hw

theorem raise_preserves {α : Type} (hI : World.IgnoresTables I) (p : ReplyPtr) (e : ClusterException) :
    Code.Preserves I (raise p e : Lib ρ α) := by
  unfold raise
  cases p with
  | null => exact .bind (.pure _ _) fun _ => .lift _ _
  | unset => exact .bind (freeReply_preserves hI _) fun _ => .lift _ _
  | object a r => exact .bind (freeReply_preserves hI _) fun _ => .lift _ _

theorem checkCritical_preserves (hI : World.IgnoresTables I) (p : ReplyPtr) (errorcritical free_reply_obj : Bool)
    (error : Bytes) : Code.Preserves I (checkCritical p errorcritical free_reply_obj error none : Lib ρ Unit) := by
  refine .bind (derefReply_preserves I p) fun r => ?_
  split
  · split
    · exact raise_preserves hI _ _
    · refine .bind (.lift _ _) fun str => ?_
      split
      · exact raise_preserves hI _ _
      · exact .pure _ _
  · exact .pure _ _

end preserves

/-- Calling `connect_`. -/
def callConnect (fn : Functions ρ) (host : Bytes) (port : Int32) : Lib ρ (Option ConPtr) :=
  match fn.connect with
  | some f => f host port
  | none => Code.undefined

end HiredisCluster
