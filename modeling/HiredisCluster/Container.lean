import HiredisCluster.World

/-!
# The connection container (`container.h`)

`DefaultContainer`: the slot table is looked up with `lower_bound` on the start after the wanted slot and one step back
(`searchBySlots`), the redirect cache by the text `host:port`.  A range start that is already in the table keeps its old
entry, a failed redirect connection is returned but not cached.
-/

namespace HiredisCluster

open Cxx

namespace DefaultContainer

variable {ρ : Type} (fn : Functions ρ)

/-- `insert(SlotRange, const char *, int)`. -/
def insertSlots (slots : SlotRange) (host : Bytes) (port : Int32) : Lib ρ Unit := do
  match ← callConnect fn (cStr host) port with
  | none => Code.throws (.cluster .connectionFailed)
  | some conn =>
    if ← errOf conn then
      Code.throws (.cluster .connectionFailed)
    else
      Code.modify fun w => w.setNodes (w.nodes.insert slots conn)

/-- The key of a redirect connection. -/
def hostKey (host port : Bytes) : Bytes := host ++ text ":" ++ port

/-- `insert(string, string)`. -/
def insertHost (host port : Bytes) : Lib ρ HostConnection := do
  let key := hostKey host port
  let w ← Code.get
  match w.redirects.lookup key with
  | some conn => return (key, some conn)
  | none =>
    -- outside of the `try` block, so what `std::stoi` throws leaves the function
    let portNumber ← Code.lift ((stoi port).mapThrows .std)
    match ← callConnect fn (cStr host) portNumber with
    | none => return (key, none)
    | some conn =>
      if ← errOf conn then
        return (key, some conn)
      else
        Code.modify fun w => w.setRedirects (w.redirects.insert key conn)
        return (key, some conn)

/-- The end of `searchBySlots`, at the iterator `node`; dereferencing `end()` is undefined. -/
def rangeAt (index : SlotIndex) (storage : ClusterNodes) (node : Nat) : Outcome Exn SlotConnection :=
  if node ≠ storage.entries.length then
    match storage.entries[node]? with
    | none => .undefined
    | some e => if e.1.1 > index ∨ e.1.2 < index then .throws (.cluster .nodeSearch) else .ret e
  else .throws (.cluster .nodeSearch)

/-- `searchBySlots`: `lower_bound` finds the next range, so step back unless that is the first one. -/
def searchBySlots (index : SlotIndex) (storage : ClusterNodes) : Outcome Exn SlotConnection :=
  let node := storage.lowerBound (index + 1, 0)
  rangeAt index storage (if node ≠ 0 then node - 1 else node)

/-- `getConnection(SlotIndex)`. -/
def getConnection (index : SlotIndex) : Lib ρ SlotConnection := do
  let w ← Code.get
  Code.lift (searchBySlots index w.nodes)

/-- Both overloads of `releaseConnection` are dummies in this container. -/
def releaseConnection {κ : Type} (_ : κ) : Lib ρ Unit := pure ()

/-- The loop of the template `deleteConnection`, as it leaves its parameter `connections`. -/
def eraseCon {κ ω : Type} [LinearOrder ω] {rank : κ → ω} (connections : OrderedMap rank ConPtr) (con : ConPtr) :
    OrderedMap rank ConPtr :=
  connections.filter fun e => e.2 ≠ con

/-- `deleteConnection(const redisConnection *)`.  The template takes the map by value, so both calls work on a copy
that is dropped when they return. -/
def deleteConnection (con : ConPtr) : Lib ρ Unit := do
  let w ← Code.get
  let _connections := eraseCon w.redirects con
  let _connections := eraseCon w.nodes con
  return ()

/-- The loop of `disconnect(T &)`. -/
def disconnectEach : List ConPtr → Lib ρ Unit
  | [] => pure ()
  | con :: rest => do
    match fn.disconnect with
    | some disconnect_ => disconnect_ con
    | none => pure ()
    disconnectEach rest

/-- `disconnect()`: slot connections first, then redirect connections. -/
def disconnect : Lib ρ Unit := do
  let w ← Code.get
  disconnectEach fn (w.nodes.entries.map (·.2))
  Code.modify fun w => w.setNodes .empty
  let w ← Code.get
  disconnectEach fn (w.redirects.entries.map (·.2))
  Code.modify fun w => w.setRedirects .empty

/-! ### What the container keeps -/

section preserves

variable {I : World ρ → Prop} (hI : World.IgnoresTables I)
include hI

theorem insertSlots_preserves (hconnect : ∀ host port, Code.Preserves I (callConnect fn host port)) (slots : SlotRange)
    (host : Bytes) (port : Int32) : Code.Preserves I (insertSlots fn slots host port) := by
  refine .bind (hconnect _ _) fun conn => ?_
  cases conn with
  | none => exact .throws _ _
  | some c =>
    refine .bind (errOf_preserves I c) fun err => ?_
    split
    · exact .throws _ _
    · exact .modify fun w => hI _ _ rfl rfl rfl

theorem insertHost_preserves (hconnect : ∀ host port, Code.Preserves I (callConnect fn host port)) (host port : Bytes) :
    Code.Preserves I (insertHost fn host port) := by
  refine .bind (.get _) fun w => ?_
  split
  · exact .pure _ _
  · refine .bind (.lift _ _) fun n => .bind (hconnect _ _) fun conn => ?_
    cases conn with
    | none => exact .pure _ _
    | some c =>
      refine .bind (errOf_preserves I c) fun err => ?_
      split
      · exact .pure _ _
      · exact .bind (.modify fun w => hI _ _ rfl rfl rfl) fun _ => .pure _ _

theorem disconnect_preserves (hdisconnect : ∀ f, fn.disconnect = some f → ∀ con, Code.Preserves I (f con)) :
    Code.Preserves I (disconnect fn) := by
  have loop : ∀ cons, Code.Preserves I (disconnectEach fn cons) := by
    intro cons
    induction cons with
    | nil => exact .pure _ _
    | cons con rest ih =>
      unfold disconnectEach
      split
      · rename_i f hf
        exact .bind (hdisconnect f hf con) fun _ => ih
      · exact ih
  exact .bind (.get _) fun _ => .bind (loop _) fun _ => .bind (.modify fun w => hI _ _ rfl rfl rfl) fun _ =>
    .bind (.get _) fun _ => .bind (loop _) fun _ => .modify fun w => hI _ _ rfl rfl rfl

end preserves

/-! ### Looking up a slot -/

/-- An answered entry contains the slot and is in the table. -/
theorem rangeAt_ret {index : SlotIndex} {storage : ClusterNodes} {node : Nat} {e : SlotConnection}
    (h : rangeAt index storage node = .ret e) : e ∈ storage.entries ∧ e.1.1 ≤ index ∧ index ≤ e.1.2 := by
  unfold rangeAt at h
  split at h
  · split at h
    · cases h
    · rename_i e' he
      split at h
      · cases h
      · rename_i hr
        cases h
        simp only [not_or, UInt32.not_lt] at hr
        exact ⟨List.mem_of_getElem? he, hr.1, hr.2⟩
  · cases h

/-- At a position of the table or at `end()` the answer is an entry or `NodeSearchException`. -/
private theorem rangeAt_cases {index : SlotIndex} {storage : ClusterNodes} {node : Nat}
    (h : node ≤ storage.entries.length) :
    (∃ e, rangeAt index storage node = .ret e) ∨ rangeAt index storage node = .throws (.cluster .nodeSearch) := by
  unfold rangeAt
  split
  · rename_i hne
    rw [List.getElem?_eq_getElem (by omega)]
    dsimp only
    split
    · exact Or.inr rfl
    · exact Or.inl ⟨_, rfl⟩
  · exact Or.inr rfl

/-- In a table of pairwise disjoint ranges the entry found is the one whose range contains the slot. -/
theorem searchBySlots_of_mem {index : SlotIndex} {storage : ClusterNodes} {e : SlotConnection} (hi : index < 16384)
    (he : e ∈ storage.entries) (h1 : e.1.1 ≤ index) (h2 : index ≤ e.1.2)
    (hd : ∀ a ∈ storage.entries, ∀ b ∈ storage.entries, a ≠ b → a.1.2 < b.1.1 ∨ b.1.2 < a.1.1)
    (hw : ∀ a ∈ storage.entries, a.1.1 ≤ a.1.2) : searchBySlots index storage = .ret e := by
  -- `index + 1` does not wrap around
  have hs : slotRank (index + 1, 0) = index.toNat + 1 := by
    have := UInt32.lt_iff_toNat_lt.1 hi
    simp only [slotRank, UInt32.toNat_add]
    exact Nat.mod_eq_of_lt (by simp at this ⊢; omega)
  have hlt : slotRank e.1 < slotRank (index + 1, 0) := by
    rw [hs]; exact Nat.lt_succ_of_le (UInt32.le_iff_toNat_le.1 h1)
  have hne : storage.lowerBound (index + 1, 0) ≠ 0 := fun h0 =>
    OrderedMap.not_rank_lt_of_lowerBound_eq_zero storage h0 e he hlt
  obtain ⟨p, hp, hpr, hmax⟩ := OrderedMap.lowerBound_pred storage hne
  have hpm : p ∈ storage.entries := List.mem_of_getElem? hp
  -- the predecessor starts between the start of `e` and the slot, so the two ranges overlap
  have hep : p = e := by
    by_contra hpe
    have hle : e.1.1.toNat ≤ p.1.1.toNat := hmax e he hlt
    have hp1 : p.1.1.toNat ≤ index.toNat := by rw [hs] at hpr; exact Nat.le_of_lt_succ hpr
    have hi2 := UInt32.le_iff_toNat_le.1 h2
    have hwp := UInt32.le_iff_toNat_le.1 (hw p hpm)
    rcases hd p hpm e he hpe with h | h
    · have := UInt32.lt_iff_toNat_lt.1 h; omega
    · have := UInt32.lt_iff_toNat_lt.1 h; omega
  subst hep
  have hlen := (List.getElem?_eq_some_iff.1 hp).1
  show rangeAt index storage (if storage.lowerBound (index + 1, 0) ≠ 0 then _ else _) = _
  rw [if_pos hne, rangeAt, if_pos (Nat.ne_of_lt hlen), hp]
  dsimp only
  rw [if_neg]
  simp only [not_or, UInt32.not_lt]
  exact ⟨h1, h2⟩

/-- `searchBySlots` answers an entry or throws `NodeSearchException`; it never dereferences `end()`. -/
theorem searchBySlots_cases (index : SlotIndex) (storage : ClusterNodes) :
    (∃ e, searchBySlots index storage = .ret e) ∨ searchBySlots index storage = .throws (.cluster .nodeSearch) := by
  apply rangeAt_cases
  have := OrderedMap.lowerBound_le storage (index + 1, 0)
  split <;> omega

/-- A slot that no range contains is answered with `NodeSearchException`. -/
theorem searchBySlots_of_not_mem {index : SlotIndex} {storage : ClusterNodes}
    (h : ∀ e ∈ storage.entries, ¬ (e.1.1 ≤ index ∧ index ≤ e.1.2)) :
    searchBySlots index storage = .throws (.cluster .nodeSearch) := by
  rcases searchBySlots_cases index storage with ⟨e, he⟩ | he
  · obtain ⟨hm, hr⟩ := rangeAt_ret he
    exact absurd hr (h e hm)
  · exact he

end DefaultContainer

end HiredisCluster
