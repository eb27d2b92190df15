import HiredisCluster.Container
import HiredisCluster.SlotHash

/-!
# The cluster object (`cluster.h`)

The constructor parses the reply to `CLUSTER SLOTS` entry by entry and opens one connection for each entry, in order;
`getConnection` routes a key by its hash slot.  Both fail with exceptions and leave what was opened before in place.
-/

namespace HiredisCluster

open Cxx

namespace Cluster

variable {ρ : Type} (fn : Functions ρ)

/-- `Cluster::getConnection`; the length of the key is narrowed to `int`, `char` is signed. -/
def getConnection (key : Bytes) : Lib ρ SlotConnection := do
  let w ← Code.get
  if ¬ w.cluster.readytouse_ then
    Code.throws (.cluster .notInitialized)
  else
    match SlotHash.slotByKey true key (Int32.ofNat key.length).toInt with
    | none => Code.undefined
    | some slot => DefaultContainer.getConnection slot

/-- `Cluster::moved`. -/
def moved : Lib ρ Unit := do
  Code.modify fun w => w.updCluster fun c => { c with moved_ := true }
  let w ← Code.get
  if w.cluster.userMovedFn_ then
    fn.userMovedFn

/-- `Cluster::isMoved`. -/
def isMoved : Lib ρ Bool := do
  let w ← Code.get
  return w.cluster.moved_

/-- `Cluster::setMovedCb`; `given` tells whether the callback is not null. -/
def setMovedCb (given : Bool) : Lib ρ Unit := Code.modify fun w => w.updCluster fun c => { c with userMovedFn_ := given }

/-- `Cluster::stop`. -/
def stop : Lib ρ Unit := Code.modify fun w => w.updCluster fun c => { c with readytouse_ := false }

/-- `Cluster::createNewConnection`. -/
def createNewConnection (host port : Bytes) : Lib ρ HostConnection := DefaultContainer.insertHost fn host port

/-- `Cluster::releaseConnection`. -/
def releaseConnection {κ : Type} (conn : κ) : Lib ρ Unit := DefaultContainer.releaseConnection conn

/-- `Cluster::deleteConnection`. -/
def deleteConnection (con : ConPtr) : Lib ρ Unit := DefaultContainer.deleteConnection con

/-- `Cluster::disconnect`. -/
def disconnect : Lib ρ Unit := DefaultContainer.disconnect fn

/-- The condition of the `if` in the loop of `init`, tested from left to right. -/
def isSlotEntry (e : RedisReply) : Outcome Exn Bool := do
  if e.type ≠ .array then return false
  if e.elements < 3 then return false
  if (← e.elementAt 0).type ≠ .integer then return false
  if (← e.elementAt 1).type ≠ .integer then return false
  let node ← e.elementAt 2
  if node.type ≠ .array then return false
  if node.elements < 2 then return false
  if (← node.elementAt 0).type ≠ .string then return false
  if (← node.elementAt 1).type ≠ .integer then return false
  return true

/-- The values the loop of `init` reads from an entry: the slot range, converted to `unsigned int`, the host and the
port, converted to `int`. -/
def readSlotEntry (e : RedisReply) : Outcome Exn (SlotRange × Bytes × Int32) := do
  let start ← (← e.elementAt 0).integerOf
  let stop ← (← e.elementAt 1).integerOf
  let node ← e.elementAt 2
  let host ← (← node.elementAt 0).strOf
  let port ← (← node.elementAt 1).integerOf
  return ((UInt32.ofInt start.toInt, UInt32.ofInt stop.toInt), host.bytes, port.toInt32)

/-- The loop of `init` with `n` entries to go, at entry `i`. -/
def initLoop (reply : ReplyPtr) (r : RedisReply) : (n i : Nat) → Lib ρ Unit
  | 0, _ => pure ()
  | n + 1, i => do
    let e ← Code.lift (r.elementAt i)
    if ← Code.lift (isSlotEntry e) then
      let (slots, host, port) ← Code.lift (readSlotEntry e)
      DefaultContainer.insertSlots fn slots host port
      initLoop reply r n (i + 1)
    else
      raise reply .connectionFailed

/-- `Cluster::init`. -/
def init (reply : ReplyPtr) : Lib ρ Unit := do
  let r ← readReply reply
  if r.type = .array then
    initLoop fn reply r r.elements 0
    Code.modify fun w => w.updCluster fun c => { c with readytouse_ := true }
  else
    raise reply .connectionFailed

/-- The members as the constructor initialises them. -/
def initial : Cluster :=
  { connections_ := { connections_ := .empty, nodes_ := .empty }, userMovedFn_ := false, readytouse_ := false,
    moved_ := false }

/-- The constructor of `Cluster`. -/
def construct (reply : ReplyPtr) : Lib ρ Unit := do
  Code.modify fun w => w.updCluster fun _ => initial
  if fn.connect.isNone ∨ fn.disconnect.isNone then
    raise reply .invalidArgument
  else
    init fn reply

/-- The constructor keeps what the connect function keeps. -/
theorem construct_preserves {I : World ρ → Prop} (hI : World.IgnoresCluster I)
    (hconnect : ∀ host port, Code.Preserves I (callConnect fn host port)) (reply : ReplyPtr) :
    Code.Preserves I (construct fn reply) := by
  have loop : ∀ r n i, Code.Preserves I (initLoop fn reply r n i) := by
    intro r n
    induction n with
    | zero => exact fun i => .pure _ _
    | succ n ih =>
      intro i
      refine .bind (.lift _ _) fun e => .bind (.lift _ _) fun ok => ?_
      split
      · exact .bind (.lift _ _) fun x =>
          .bind (DefaultContainer.insertSlots_preserves fn hI.tables hconnect _ _ _) fun _ => ih _
      · exact raise_preserves hI.tables _ _
  refine .bind (.modify fun w => hI _ _ rfl rfl) fun _ => ?_
  split
  · exact raise_preserves hI.tables _ _
  · refine .bind (derefReply_preserves I reply) fun r => ?_
    split
    · exact .bind (loop _ _ _) fun _ => .modify fun w => hI _ _ rfl rfl
    · exact raise_preserves hI.tables _ _

/-- `getConnection` changes nothing and answers an entry of the slot table or throws a `ClusterException`; only keys of
`2^31` bytes and more are not hashed. -/
theorem getConnection_cases (key : Bytes) (w : World ρ) :
    ∃ o, getConnection key w = (o, w) ∧ (∀ conn, o = .ret conn → conn ∈ w.nodes.entries) ∧
      (key.length < 2 ^ 31 → o ≠ .undefined) ∧ ∀ e, o = .throws e → e.IsCluster := by
  unfold getConnection
  rw [Code.bind_of_ret (Code.get_apply w)]
  by_cases hr : w.cluster.readytouse_ = true
  · rw [if_neg (not_not.2 hr)]
    cases hslot : SlotHash.slotByKey true key (Int32.ofNat key.length).toInt with
    | none =>
      refine ⟨.undefined, rfl, fun _ h => (by cases h), fun hk => ?_, fun _ h => by cases h⟩
      obtain ⟨slot, hs, -⟩ := SlotHash.slotByKey_eq_some true key
      rw [Int32.toInt_ofNat_of_lt hk, hs] at hslot
      cases hslot
    | some slot =>
      refine ⟨DefaultContainer.searchBySlots slot w.nodes, rfl, fun conn h => (DefaultContainer.rangeAt_ret h).1, ?_⟩
      rcases DefaultContainer.searchBySlots_cases slot w.nodes with ⟨e, he⟩ | he
      · rw [he]
        exact ⟨fun _ hu => (by cases hu), fun _ ht => by cases ht⟩
      · rw [he]
        refine ⟨fun _ hu => (by cases hu), fun _ ht => ?_⟩
        cases ht
        exact ⟨_, rfl⟩
  · rw [if_pos hr]
    refine ⟨_, rfl, fun _ h => (by cases h), fun _ h => (by cases h), fun _ h => ?_⟩
    cases h
    exact ⟨_, rfl⟩

end Cluster

end HiredisCluster
