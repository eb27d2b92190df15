import HiredisCluster.Cluster

/-!
# Routing a key to its connection

`SlotsTable` is what a server answers to `CLUSTER SLOTS`: entries with slot ranges in `[0, 16383]` that do not overlap, in
any order and with gaps, and with ports that fit an `int`.  Its meaning is the partial map `owner` from slots to entries,
which does not depend on the order of the entries.  The cluster built from such a reply refines that map: the slot table
holds each range with the connection opened for it (`Routes`), construction establishes this (`construct_routes`), the
later operations keep it (`ClusterOp.preserves_routes`), and so `getConnection` answers the connection of the owner.
-/

namespace HiredisCluster

open Cxx

/-! ### Slot tables -/

/-- The fields of an entry of the reply to `CLUSTER SLOTS` that the library reads. -/
structure SlotEntry where
  start : Int64
  stop : Int64
  host : Chars
  port : Int64
  deriving DecidableEq

namespace SlotEntry

/-- The range of the entry contains the slot. -/
def Contains (e : SlotEntry) (slot : SlotIndex) : Prop :=
  e.start.toInt ≤ slot.toNat ∧ (slot.toNat : Int) ≤ e.stop.toInt

instance (e : SlotEntry) (slot : SlotIndex) : Decidable (e.Contains slot) := inferInstanceAs (Decidable (_ ∧ _))

/-- The range as `init` stores it. -/
def range (e : SlotEntry) : SlotRange := (UInt32.ofInt e.start.toInt, UInt32.ofInt e.stop.toInt)

/-- The connection `connect_` opens for the entry. -/
def opened (e : SlotEntry) : Context := Context.opened (cStr e.host.bytes) e.port.toInt32

/-- A well formed entry: its first three elements, and the first two of the third, are the fields; others may follow. -/
def Encodes (e : SlotEntry) (r : RedisReply) : Prop :=
  ∃ ids replicas, r = .array (.integer e.start :: .integer e.stop ::
    .array (.string e.host :: .integer e.port :: ids) :: replicas)

end SlotEntry

/-- What a server answers to `CLUSTER SLOTS`. -/
structure SlotsTable where
  entries : List SlotEntry
  bounds : ∀ e ∈ entries, 0 ≤ e.start.toInt ∧ e.start.toInt ≤ e.stop.toInt ∧ e.stop.toInt ≤ 16383
  disjoint : entries.Pairwise fun a b => a.stop.toInt < b.start.toInt ∨ b.stop.toInt < a.start.toInt
  ports : ∀ e ∈ entries, -2 ^ 31 ≤ e.port.toInt ∧ e.port.toInt < 2 ^ 31

namespace SlotsTable

/-- The reply is an array of well formed entries, the entries of the table in their order. -/
def Encodes (t : SlotsTable) (reply : RedisReply) : Prop :=
  ∃ es, reply = .array es ∧ es.length = t.entries.length ∧
    ∀ (i : Nat) (e : SlotEntry), t.entries[i]? = some e → ∃ r, es[i]? = some r ∧ e.Encodes r

/-- The entry that serves a slot. -/
def owner (t : SlotsTable) (slot : SlotIndex) : Option SlotEntry := t.entries.find? (·.Contains slot)

/-- No two positions of the table serve the same slot. -/
private theorem index_unique (t : SlotsTable) {slot : SlotIndex} {i j : Nat} {a b : SlotEntry}
    (hi : t.entries[i]? = some a)
    (hj : t.entries[j]? = some b) (ha : a.Contains slot) (hb : b.Contains slot) : i = j := by
  obtain ⟨hi', rfl⟩ := List.getElem?_eq_some_iff.1 hi
  obtain ⟨hj', rfl⟩ := List.getElem?_eq_some_iff.1 hj
  have hd := List.pairwise_iff_getElem.1 t.disjoint
  obtain ⟨ha1, ha2⟩ := ha
  obtain ⟨hb1, hb2⟩ := hb
  rcases Nat.lt_trichotomy i j with h | h | h
  · rcases hd i j hi' hj' h with h' | h' <;> omega
  · exact h
  · rcases hd j i hj' hi' h with h' | h' <;> omega

theorem owner_eq_some_iff (t : SlotsTable) (slot : SlotIndex) (e : SlotEntry) :
    t.owner slot = some e ↔ e ∈ t.entries ∧ e.Contains slot := by
  constructor
  · intro h
    exact ⟨List.mem_of_find?_eq_some h, by simpa using List.find?_some h⟩
  · rintro ⟨he, hc⟩
    cases ho : t.owner slot with
    | none =>
      have := List.find?_eq_none.1 ho e he
      simp [hc] at this
    | some e' =>
      obtain ⟨i, hi⟩ := List.getElem?_of_mem he
      obtain ⟨j, hj⟩ := List.getElem?_of_mem (List.mem_of_find?_eq_some ho)
      have hc' : e'.Contains slot := by simpa using List.find?_some ho
      obtain rfl := index_unique t hi hj hc hc'
      rw [hi] at hj
      exact hj.symm

/-- The owner of a slot does not depend on the order of the entries. -/
private theorem owner_perm {t t' : SlotsTable} (h : t'.entries.Perm t.entries) (slot : SlotIndex) :
    t'.owner slot = t.owner slot := by
  ext e
  rw [owner_eq_some_iff, owner_eq_some_iff, h.mem_iff]

end SlotsTable

/-! ### The slot table of a cluster -/

variable {ρ : Type} {fn : Functions ρ}

/-- Every call of `connect_` returns a fresh healthy connection, and a disconnect function is given. -/
def FreshHealthy (fn : Functions ρ) : Prop :=
  fn.disconnect.isSome ∧ ∃ f, fn.connect = some f ∧ ∀ host port (w : World ρ), ∃ client,
    f host port w = (.ret (some w.contexts.length), (w.addContext (Context.opened host port)).setClient client)

/-- The moved callback of the user leaves the cluster and the connections alone. -/
def LeavesClusterAlone (fn : Functions ρ) : Prop :=
  ∀ w : World ρ, (fn.userMovedFn w).2.cluster = w.cluster ∧ (fn.userMovedFn w).2.contexts = w.contexts

/-- The slot table holds, for each of the entries, its range with the connection opened for it, where `base` contexts
were opened before. -/
structure Routes (base : List Context) (entries : List SlotEntry) (w : World ρ) : Prop where
  mem_nodes : ∀ x, x ∈ w.nodes.entries ↔ ∃ i e, entries[i]? = some e ∧ x = (e.range, base.length + i)
  contexts : base ++ entries.map SlotEntry.opened <+: w.contexts

private theorem toNat_ofInt {i : Int} (h0 : 0 ≤ i) (h1 : i ≤ 16383) : (UInt32.ofInt i).toNat = i.toNat := by
  unfold UInt32.ofInt
  rw [Int.emod_eq_of_lt h0 (by omega), UInt32.toNat_ofNat']
  exact Nat.mod_eq_of_lt (by omega)

private theorem SlotsTable.range_iff (t : SlotsTable) {e : SlotEntry} (he : e ∈ t.entries) (slot : SlotIndex) :
    (e.range.1 ≤ slot ∧ slot ≤ e.range.2) ↔ e.Contains slot := by
  obtain ⟨h0, h1, h2⟩ := t.bounds e he
  simp only [SlotEntry.range, SlotEntry.Contains, UInt32.le_iff_toNat_le, toNat_ofInt h0 (by omega),
    toNat_ofInt (show 0 ≤ e.stop.toInt by omega) h2]
  omega

/-- The slot table of a cluster routes a slot to the connection of its owner. -/
theorem Routes.search {base : List Context} {t : SlotsTable} {w : World ρ} (h : Routes base t.entries w)
    {slot : SlotIndex} (hs : slot < 16384) {i : Nat} {e : SlotEntry} (hi : t.entries[i]? = some e)
    (hc : e.Contains slot) :
    DefaultContainer.searchBySlots slot w.nodes = .ret (e.range, base.length + i) := by
  have he : e ∈ t.entries := List.mem_of_getElem? hi
  have hr := (t.range_iff he slot).2 hc
  refine DefaultContainer.searchBySlots_of_mem hs ((h.mem_nodes _).2 ⟨i, e, hi, rfl⟩) hr.1 hr.2 ?_ ?_
  · intro x hx y hy hne
    obtain ⟨j, a, hj, rfl⟩ := (h.mem_nodes x).1 hx
    obtain ⟨k, b, hk, rfl⟩ := (h.mem_nodes y).1 hy
    obtain ⟨ha0, ha1, ha2⟩ := t.bounds a (List.mem_of_getElem? hj)
    obtain ⟨hb0, hb1, hb2⟩ := t.bounds b (List.mem_of_getElem? hk)
    simp only [SlotEntry.range, UInt32.lt_iff_toNat_lt, toNat_ofInt ha0 (by omega), toNat_ofInt hb0 (by omega),
      toNat_ofInt (show 0 ≤ a.stop.toInt by omega) ha2, toNat_ofInt (show 0 ≤ b.stop.toInt by omega) hb2]
    have hd := List.pairwise_iff_getElem.1 t.disjoint
    obtain ⟨hj', rfl⟩ := List.getElem?_eq_some_iff.1 hj
    obtain ⟨hk', rfl⟩ := List.getElem?_eq_some_iff.1 hk
    rcases Nat.lt_trichotomy j k with hjk | rfl | hjk
    · rcases hd j k hj' hk' hjk with h' | h' <;> omega
    · exact absurd rfl hne
    · rcases hd k j hk' hj' hjk with h' | h' <;> omega
  · intro x hx
    obtain ⟨j, a, hj, rfl⟩ := (h.mem_nodes x).1 hx
    obtain ⟨ha0, ha1, ha2⟩ := t.bounds a (List.mem_of_getElem? hj)
    simp only [SlotEntry.range, UInt32.le_iff_toNat_le, toNat_ofInt ha0 (by omega),
      toNat_ofInt (show 0 ≤ a.stop.toInt by omega) ha2]
    omega

/-- A slot without an owner is not found. -/
theorem Routes.search_none {base : List Context} {t : SlotsTable} {w : World ρ} (h : Routes base t.entries w)
    {slot : SlotIndex} (hn : ∀ e ∈ t.entries, ¬ e.Contains slot) :
    DefaultContainer.searchBySlots slot w.nodes = .throws (.cluster .nodeSearch) := by
  apply DefaultContainer.searchBySlots_of_not_mem
  intro x hx hr
  obtain ⟨i, e, hi, rfl⟩ := (h.mem_nodes x).1 hx
  have he : e ∈ t.entries := List.mem_of_getElem? hi
  exact hn e he ((t.range_iff he slot).1 hr)

/-! ### Construction -/

/-- What `connect_` does then: the context it returns is there and has no error. -/
theorem FreshHealthy.callConnect (hf : FreshHealthy fn) (host : Bytes) (port : Int32) (w : World ρ) :
    ∃ client, HiredisCluster.callConnect fn host port w =
        (.ret (some w.contexts.length), (w.addContext (Context.opened host port)).setClient client) ∧
      errOf w.contexts.length ((w.addContext (Context.opened host port)).setClient client) =
        (.ret false, (w.addContext (Context.opened host port)).setClient client) := by
  obtain ⟨-, f, hconn, hfresh⟩ := hf
  obtain ⟨client, hw⟩ := hfresh host port w
  have hctx : ((w.addContext (Context.opened host port)).setClient client).contexts[w.contexts.length]? =
      some (Context.opened host port) := by
    simp
  refine ⟨client, ?_, errOf_eq hctx⟩
  unfold HiredisCluster.callConnect
  rw [hconn]
  exact hw

/-- Inserting a range with a fresh healthy connection. -/
theorem insertSlots_fresh (hf : FreshHealthy fn) (slots : SlotRange) (host : Bytes) (port : Int32) (w : World ρ) :
    ∃ w', DefaultContainer.insertSlots fn slots host port w = (.ret (), w') ∧
      w'.nodes = w.nodes.insert slots w.contexts.length ∧ w'.contexts = w.contexts ++ [Context.opened (cStr host) port] ∧
      w'.freed = w.freed ∧ w'.cluster.readytouse_ = w.cluster.readytouse_ := by
  obtain ⟨client, hcall, herr⟩ := hf.callConnect (cStr host) port w
  refine ⟨((w.addContext (Context.opened (cStr host) port)).setClient client).setNodes
    (w.nodes.insert slots w.contexts.length), ?_, by simp, by simp, by simp, by simp⟩
  exact (Code.bind_of_ret hcall _).trans (Code.bind_of_ret herr _)

/-- Distinct entries of a table have distinct range starts. -/
private theorem SlotsTable.rank_ne (t : SlotsTable) {i j : Nat} {a b : SlotEntry} (hi : t.entries[i]? = some a)
    (hj : t.entries[j]? = some b) (h : i < j) : slotRank a.range ≠ slotRank b.range := by
  obtain ⟨ha0, ha1, ha2⟩ := t.bounds a (List.mem_of_getElem? hi)
  obtain ⟨hb0, hb1, hb2⟩ := t.bounds b (List.mem_of_getElem? hj)
  obtain ⟨hi', rfl⟩ := List.getElem?_eq_some_iff.1 hi
  obtain ⟨hj', rfl⟩ := List.getElem?_eq_some_iff.1 hj
  have hd := List.pairwise_iff_getElem.1 t.disjoint i j hi' hj' h
  simp only [slotRank, SlotEntry.range, toNat_ofInt ha0 (by omega), toNat_ofInt hb0 (by omega)]
  omega

theorem isSlotEntry_of_encodes {e : SlotEntry} {r : RedisReply} (h : e.Encodes r) :
    Cluster.isSlotEntry r = .ret true ∧ Cluster.readSlotEntry r = .ret (e.range, e.host.bytes, e.port.toInt32) := by
  obtain ⟨ids, replicas, rfl⟩ := h
  have h3 : ¬ replicas.length + 1 + 1 + 1 < 3 := by omega
  constructor
  · simp [Cluster.isSlotEntry, RedisReply.type, RedisReply.elements, RedisReply.elementAt, h3]
  · simp [Cluster.readSlotEntry, RedisReply.elementAt, RedisReply.integerOf, RedisReply.strOf, SlotEntry.range]

/-- The loop of `init` from entry `i` on, when the first `i` entries are in the table. -/
private theorem initLoop_routes (hf : FreshHealthy fn) (t : SlotsTable) {es : List RedisReply} (p : ReplyPtr)
    (henc : ∀ (i : Nat) (e : SlotEntry), t.entries[i]? = some e → ∃ r, es[i]? = some r ∧ e.Encodes r)
    (base : List Context) : ∀ (n i : Nat) (w : World ρ), i + n = t.entries.length →
    (∀ x, x ∈ w.nodes.entries ↔ ∃ j e, j < i ∧ t.entries[j]? = some e ∧ x = (e.range, base.length + j)) →
    w.contexts = base ++ (t.entries.take i).map SlotEntry.opened →
    ∃ w', Cluster.initLoop fn p (.array es) n i w = (.ret (), w') ∧ Routes base t.entries w' := by
  intro n
  induction n with
  | zero =>
    intro i w hi hm hc
    obtain rfl : i = t.entries.length := hi
    refine ⟨w, rfl, ⟨fun x => (hm x).trans ⟨?_, ?_⟩, ?_⟩⟩
    · rintro ⟨j, e, -, h⟩
      exact ⟨j, e, h⟩
    · rintro ⟨j, e, hj, rfl⟩
      exact ⟨j, e, (List.getElem?_eq_some_iff.1 hj).1, hj, rfl⟩
    · have hall : w.contexts = base ++ t.entries.map SlotEntry.opened := by rw [hc, List.take_length]
      exact hall ▸ List.prefix_rfl
  | succ n ih =>
    intro i w hi hm hc
    have hlt : i < t.entries.length := by omega
    have he : t.entries[i]? = some t.entries[i] := List.getElem?_eq_getElem hlt
    obtain ⟨r, hr, hencr⟩ := henc i _ he
    obtain ⟨htest, hread⟩ := isSlotEntry_of_encodes hencr
    have hlen : w.contexts.length = base.length + i := by
      rw [hc, List.length_append, List.length_map, List.length_take, Nat.min_eq_left hlt.le]
    obtain ⟨w', hins, hn', hc', -⟩ := insertSlots_fresh hf t.entries[i].range t.entries[i].host.bytes
      t.entries[i].port.toInt32 w
    -- no range in the table starts where the new one does
    have hfresh : ∀ x ∈ w.nodes.entries, slotRank x.1 ≠ slotRank t.entries[i].range := by
      intro x hx
      obtain ⟨j, a, hj, hja, rfl⟩ := (hm x).1 hx
      exact t.rank_ne hja he hj
    obtain ⟨w'', hloop, hroutes⟩ := ih (i + 1) w' (by omega)
      (by
        intro x
        rw [hn', OrderedMap.mem_insert _ hfresh, hm x, hlen]
        constructor
        · rintro (rfl | ⟨j, a, hj, h⟩)
          · exact ⟨i, _, Nat.lt_succ_self i, he, rfl⟩
          · exact ⟨j, a, Nat.lt_succ_of_lt hj, h⟩
        · rintro ⟨j, a, hj, hja, rfl⟩
          rcases Nat.lt_succ_iff_lt_or_eq.1 hj with hj | rfl
          · exact Or.inr ⟨j, a, hj, hja, rfl⟩
          · rw [he] at hja
            cases hja
            exact Or.inl rfl)
      (by
        rw [hc', hc, List.append_assoc, List.take_add_one, he, List.map_append]
        rfl)
    refine ⟨w'', ?_, hroutes⟩
    simp only [Cluster.initLoop, RedisReply.elementAt, hr, Code.bind_apply, Code.lift_apply, andThen_ret, htest,
      ↓reduceIte, hread, hins, hloop]

/-- The constructor succeeds on the reply of a server and the slot table routes to its entries. -/
theorem construct_routes (hf : FreshHealthy fn) (t : SlotsTable) {reply : RedisReply} (ht : t.Encodes reply)
    {w : World ρ} {a : Nat} (ha : a ∉ w.freed) :
    ∃ w', Cluster.construct fn (.object a reply) w = (.ret (), w') ∧ Routes w.contexts t.entries w' ∧
      w'.cluster.readytouse_ = true := by
  obtain ⟨es, rfl, hlen, henc⟩ := ht
  obtain ⟨w', hloop, hroutes⟩ := initLoop_routes hf t (.object a (.array es)) henc w.contexts es.length 0
    (w.updCluster fun _ => Cluster.initial) (by omega)
    (by
      intro x
      constructor
      · intro hx; cases hx
      · rintro ⟨j, e, hj, -⟩; exact absurd hj (Nat.not_lt_zero j))
    (by simp)
  refine ⟨w'.updCluster fun c => { c with readytouse_ := true }, ?_, ⟨hroutes.1, hroutes.2⟩, rfl⟩
  have hfn : ¬ (fn.connect.isNone = true ∨ fn.disconnect.isNone = true) := by
    obtain ⟨hd, f, hc, -⟩ := hf
    simp [hc, Option.isSome_iff_ne_none.1 hd]
  have hread := derefReply_object (show a ∉ (w.updCluster fun _ => Cluster.initial).freed from ha) (.array es)
  simp only [Cluster.construct, Cluster.init, Code.bind_apply, Code.modify_apply, andThen_ret, hfn, ↓reduceIte,
    readReply, hread, RedisReply.type, RedisReply.elements, hloop]

/-! ### Operations after construction -/

/-- The operations of a cluster in use; `createNewConnection` is the insert made for a redirection.  `stop`, `disconnect`
and `deleteConnection` end the use of the cluster or of a connection. -/
inductive ClusterOp where
  | getConnection (key : Bytes)
  | createNewConnection (host port : Bytes)
  | moved
  | releaseSlotConnection (conn : SlotConnection)
  | releaseHostConnection (conn : HostConnection)

namespace ClusterOp

/-- Calling an operation; its result goes to the caller. -/
def exec (fn : Functions ρ) : ClusterOp → Lib ρ Unit
  | getConnection key => do let _ ← Cluster.getConnection key
  | createNewConnection host port => do let _ ← Cluster.createNewConnection fn host port
  | moved => Cluster.moved fn
  | releaseSlotConnection conn => Cluster.releaseConnection conn
  | releaseHostConnection conn => Cluster.releaseConnection conn

/-- The state after a sequence of operations, whether or not some of them throw. -/
def after (fn : Functions ρ) (ops : List ClusterOp) (w : World ρ) : World ρ :=
  ops.foldl (fun w op => (op.exec fn w).2) w

end ClusterOp

/-- The slot table and the flag that the operations in use must not change, and the connections it points to. -/
def RoutesReady (base : List Context) (entries : List SlotEntry) (w : World ρ) : Prop :=
  Routes base entries w ∧ w.cluster.readytouse_ = true

theorem RoutesReady.of_eq {base : List Context} {entries : List SlotEntry} {w w' : World ρ}
    (h : RoutesReady base entries w) (hn : w'.nodes = w.nodes)
    (hr : w'.cluster.readytouse_ = w.cluster.readytouse_) (hc : w.contexts <+: w'.contexts) :
    RoutesReady base entries w' :=
  ⟨⟨by rw [hn]; exact h.1.mem_nodes, h.1.contexts.trans hc⟩, by rw [hr]; exact h.2⟩

/-- What depends only on the slot table, the flag and the connections that were made. -/
def TableBased (I : World ρ → Prop) : Prop :=
  ∀ {w w' : World ρ}, I w → w'.nodes = w.nodes → w'.cluster.readytouse_ = w.cluster.readytouse_ →
    w.contexts <+: w'.contexts → I w'

theorem RoutesReady.tableBased {base : List Context} {entries : List SlotEntry} :
    TableBased (RoutesReady (ρ := ρ) base entries) :=
  fun h hn hr hc => h.of_eq hn hr hc

section frame

variable {I : World ρ → Prop}

private theorem callConnect_preserves (hf : FreshHealthy fn) (hI : TableBased I) (host : Bytes) (port : Int32) :
    Code.Preserves I (callConnect fn host port) := by
  intro w hw
  obtain ⟨client, hcall, -⟩ := hf.callConnect host port w
  rw [hcall]
  exact hI hw rfl rfl (List.prefix_append _ _)

/-- Opening a redirect connection does not touch the slot table. -/
theorem createNewConnection_preserves (hf : FreshHealthy fn) (hI : TableBased I) (host port : Bytes) :
    Code.Preserves I (Cluster.createNewConnection fn host port) := by
  unfold Cluster.createNewConnection DefaultContainer.insertHost
  refine Code.Preserves.bind (Code.Preserves.get _) fun w => ?_
  split
  · exact Code.Preserves.pure _ _
  · refine Code.Preserves.bind (Code.Preserves.lift _ _) fun portNumber => ?_
    refine Code.Preserves.bind (callConnect_preserves hf hI _ _) fun conn => ?_
    cases conn with
    | none => exact Code.Preserves.pure _ _
    | some conn =>
      refine Code.Preserves.bind (errOf_preserves _ _) fun err => ?_
      split
      · exact Code.Preserves.pure _ _
      · refine Code.Preserves.bind (Code.Preserves.modify fun w hw => ?_) fun _ => Code.Preserves.pure _ _
        exact hI hw rfl rfl List.prefix_rfl

/-- No operation in use changes the slot table. -/
private theorem ClusterOp.preserves_table (hf : FreshHealthy fn) (hm : LeavesClusterAlone fn) (hI : TableBased I)
    (op : ClusterOp) : Code.Preserves I (op.exec fn) := by
  cases op with
  | getConnection key =>
    refine Code.Preserves.bind (Code.Preserves.bind (Code.Preserves.get _) fun w => ?_) fun _ => Code.Preserves.pure _ _
    split
    · exact Code.Preserves.throws _ _
    · split
      · exact Code.Preserves.undefined _
      · exact Code.Preserves.bind (Code.Preserves.get _) fun _ => Code.Preserves.lift _ _
  | createNewConnection host port =>
    exact Code.Preserves.bind (createNewConnection_preserves hf hI host port) fun _ => Code.Preserves.pure _ _
  | moved =>
    refine Code.Preserves.bind (Code.Preserves.modify fun w hw => hI hw rfl rfl List.prefix_rfl) fun _ => ?_
    refine Code.Preserves.bind (Code.Preserves.get _) fun w => ?_
    split
    · intro w hw
      obtain ⟨hcl, hco⟩ := hm w
      exact hI hw (by unfold World.nodes; rw [hcl]) (by rw [hcl]) (hco ▸ List.prefix_rfl)
    · exact Code.Preserves.pure _ _
  | releaseSlotConnection conn => exact Code.Preserves.pure _ _
  | releaseHostConnection conn => exact Code.Preserves.pure _ _

theorem ClusterOp.after_table (hf : FreshHealthy fn) (hm : LeavesClusterAlone fn) (hI : TableBased I)
    (ops : List ClusterOp) {w : World ρ} (hw : I w) : I (ClusterOp.after fn ops w) := by
  induction ops generalizing w with
  | nil => exact hw
  | cons op ops ih => exact ih (op.preserves_table hf hm hI w hw)

end frame

private theorem ClusterOp.after_routes (hf : FreshHealthy fn) (hm : LeavesClusterAlone fn) {base : List Context}
    {entries : List SlotEntry} (ops : List ClusterOp) {w : World ρ} (hw : RoutesReady base entries w) :
    RoutesReady base entries (ClusterOp.after fn ops w) :=
  ClusterOp.after_table hf hm RoutesReady.tableBased ops hw

/-! ### Routing -/

/-- A key shorter than `2^31` bytes is looked up by its slot. -/
theorem getConnection_eq {w : World ρ} (hr : w.cluster.readytouse_ = true) {key : Bytes} (hk : key.length < 2 ^ 31)
    {slot : SlotIndex} (hs : SlotHash.slotByKey true key key.length = some slot) :
    Cluster.getConnection key w = (DefaultContainer.searchBySlots slot w.nodes, w) := by
  simp [Cluster.getConnection, hr, Int32.toInt_ofNat_of_lt hk, hs, DefaultContainer.getConnection]

/-- The address of the connection that `getConnection` answers, or the way it fails. -/
def addressAnswer (x : Outcome Exn SlotConnection × World ρ) : Outcome Exn (Bytes × Int) :=
  x.1.bind fun conn =>
    match x.2.contexts[conn.2]? with
    | some ctx => .ret (ctx.host, ctx.port.toInt)
    | none => .undefined

/-- The connection of entry `i` is the one opened with its host and port. -/
private theorem Routes.context {base : List Context} {t : SlotsTable} {w : World ρ} (h : Routes base t.entries w)
    {i : Nat} {e : SlotEntry} (hi : t.entries[i]? = some e) :
    ∃ ctx, w.contexts[base.length + i]? = some ctx ∧ ctx.host = cStr e.host.bytes ∧ ctx.port.toInt = e.port.toInt := by
  obtain ⟨more, hmore⟩ := h.contexts
  have hp := t.ports e (List.mem_of_getElem? hi)
  refine ⟨e.opened, ?_, rfl, ?_⟩
  · rw [← hmore, List.append_assoc, List.getElem?_append_right (Nat.le_add_right _ _), Nat.add_sub_cancel_left,
      List.getElem?_append_left (by simpa using (List.getElem?_eq_some_iff.1 hi).1), List.getElem?_map, hi]
    rfl
  · show e.port.toInt32.toInt = e.port.toInt
    rw [Int64.toInt_toInt32]
    exact Int.bmod_eq_of_le (by omega) (by omega)

/-- In a state that routes to a table, `getConnection` answers the address of the owner of the slot. -/
private theorem RoutesReady.addressAnswer_eq {base : List Context} {t : SlotsTable} {w : World ρ}
    (h : RoutesReady base t.entries w) {key : Bytes} (hk : key.length < 2 ^ 31) {slot : SlotIndex}
    (hs : SlotHash.slotByKey true key key.length = some slot) (hlt : slot < 16384) :
    addressAnswer (Cluster.getConnection key w) = match t.owner slot with
      | some e => .ret (cStr e.host.bytes, e.port.toInt)
      | none => .throws (.cluster .nodeSearch) := by
  rw [getConnection_eq h.2 hk hs]
  cases ho : t.owner slot with
  | none =>
    have hn : ∀ e ∈ t.entries, ¬ e.Contains slot := fun e he hc => by
      rw [(t.owner_eq_some_iff slot e).2 ⟨he, hc⟩] at ho
      cases ho
    rw [h.1.search_none hn]
    rfl
  | some e =>
    obtain ⟨he, hc⟩ := (t.owner_eq_some_iff slot e).1 ho
    obtain ⟨i, hi⟩ := List.getElem?_of_mem he
    obtain ⟨ctx, hctx, hhost, hport⟩ := h.1.context hi
    rw [h.1.search hlt hi hc]
    show addressAnswer (.ret (e.range, base.length + i), w) = _
    simp only [addressAnswer, Outcome.bind, hctx, hhost, hport]

/-- From the reply to `CLUSTER SLOTS` to the connection of a key: after construction and any later operations,
`getConnection` answers the connection that was opened for the only entry whose range contains the slot of the key, with
its host and port; it throws `NodeSearchException` exactly when no entry contains the slot; and the order of the entries
in the reply does not matter. -/
theorem getConnection_routes (hf : FreshHealthy fn) (hm : LeavesClusterAlone fn) (t : SlotsTable) {reply : RedisReply}
    (ht : t.Encodes reply) {w₀ : World ρ} {a : Nat} (ha : a ∉ w₀.freed) (ops : List ClusterOp) {key : Bytes}
    (hk : key.length < 2 ^ 31) :
    ∃ slot w₁, SlotHash.slotByKey true key key.length = some slot ∧
      Cluster.construct fn (.object a reply) w₀ = (.ret (), w₁) ∧
      (∀ i e, t.entries[i]? = some e → e.Contains slot →
        (∀ j e', t.entries[j]? = some e' → e'.Contains slot → j = i) ∧
        Cluster.getConnection key (ClusterOp.after fn ops w₁) =
          (.ret (e.range, w₀.contexts.length + i), ClusterOp.after fn ops w₁) ∧
        ∃ ctx, (ClusterOp.after fn ops w₁).contexts[w₀.contexts.length + i]? = some ctx ∧
          ctx.host = cStr e.host.bytes ∧ ctx.port.toInt = e.port.toInt) ∧
      ((Cluster.getConnection key (ClusterOp.after fn ops w₁)).1 = .throws (.cluster .nodeSearch) ↔
        ∀ e ∈ t.entries, ¬ e.Contains slot) ∧
      ∀ (t' : SlotsTable) (reply' : RedisReply) (ops' : List ClusterOp), t'.Encodes reply' →
        t'.entries.Perm t.entries →
        addressAnswer (Cluster.getConnection key
            (ClusterOp.after fn ops' (Cluster.construct fn (.object a reply') w₀).2)) =
          addressAnswer (Cluster.getConnection key (ClusterOp.after fn ops w₁)) := by
  obtain ⟨slot, hs, hlt⟩ := SlotHash.slotByKey_eq_some true key
  obtain ⟨w₁, hcons, hroutes, hready⟩ := construct_routes hf t ht ha
  have hafter := ClusterOp.after_routes hf hm ops ⟨hroutes, hready⟩
  have hget := getConnection_eq hafter.2 hk hs
  refine ⟨slot, w₁, hs, hcons, ?_, ?_, ?_⟩
  · intro i e hi hc
    refine ⟨fun j e' hj hc' => t.index_unique hj hi hc' hc, ?_, hafter.1.context hi⟩
    rw [hget, hafter.1.search hlt hi hc]
  · rw [hget]
    constructor
    · intro hthrow e he hc
      obtain ⟨i, hi⟩ := List.getElem?_of_mem he
      rw [hafter.1.search hlt hi hc] at hthrow
      cases hthrow
    · exact fun hn => hafter.1.search_none hn
  · intro t' reply' ops' ht' hperm
    obtain ⟨w₁', hcons', hroutes', hready'⟩ := construct_routes hf t' ht' ha
    have hafter' := ClusterOp.after_routes hf hm ops' ⟨hroutes', hready'⟩
    rw [hcons', hafter'.addressAnswer_eq hk hs hlt, hafter.addressAnswer_eq hk hs hlt, t.owner_perm hperm]

/-- Functions of a user whose connections always open. -/
def healthyFunctions : Functions Unit :=
  { connect := some fun host port w => (.ret (some w.contexts.length), w.addContext (Context.opened host port))
    disconnect := some fun _ => pure ()
    userMovedFn := pure () }

theorem healthyFunctions_fresh : FreshHealthy healthyFunctions := ⟨rfl, _, rfl, fun _ _ _ => ⟨(), rfl⟩⟩

/-- Two nodes, the upper half of the slots listed first. -/
def twoNodes : SlotsTable :=
  { entries := [⟨8192, 16383, .ofText "10.0.0.2", 7001⟩, ⟨0, 8191, .ofText "10.0.0.1", 7000⟩]
    bounds := by decide
    disjoint := by decide
    ports := by decide }

/-- The reply that lists `twoNodes`. -/
def twoNodesReply : RedisReply :=
  .array (twoNodes.entries.map fun e =>
    .array [.integer e.start, .integer e.stop, .array [.string e.host, .integer e.port]])

/-- The key `foo` has slot 12182 and goes to the node that serves it, also after a redirection elsewhere. -/
theorem getConnection_routes_foo :
    addressAnswer (Cluster.getConnection (text "foo") (ClusterOp.after healthyFunctions
      [.createNewConnection (text "10.0.0.3") (text "7002"), .moved]
      (Cluster.construct healthyFunctions (.object 0 twoNodesReply) ⟨Cluster.initial, [], 1, [], ()⟩).2)) =
      .ret (text "10.0.0.2", 7001) := by
  have hm : LeavesClusterAlone healthyFunctions := fun w => ⟨rfl, rfl⟩
  have henc : twoNodes.Encodes twoNodesReply := by
    refine ⟨_, rfl, rfl, fun i e he => ?_⟩
    refine ⟨_, by rw [List.getElem?_map, he]; rfl, [], [], rfl⟩
  have hfree : 0 ∉ (⟨Cluster.initial, [], 1, [], ()⟩ : World Unit).freed := by decide
  have hkey : (text "foo").length < 2 ^ 31 := by decide
  obtain ⟨slot, w₁, hs, hcons, hfound, -, -⟩ := getConnection_routes healthyFunctions_fresh hm twoNodes henc hfree
    [.createNewConnection (text "10.0.0.3") (text "7002"), .moved] hkey
  obtain rfl : slot = 12182 := Option.some.inj (hs.symm.trans (by decide))
  obtain ⟨-, hget, ctx, hctx, hhost, hport⟩ := hfound 0 _ rfl (by decide)
  rw [hcons, hget]
  simp only [addressAnswer, Outcome.bind, hctx, hhost, hport]
  decide

end HiredisCluster
