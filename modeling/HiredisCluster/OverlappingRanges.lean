import HiredisCluster.SlotsReply

/-!
# Slot tables with overlapping ranges

`init` does not look whether the ranges of a reply overlap, and the container orders them by their starts only.  So one
range can hide another: a slot belongs to the entry that starts last at the slot or before it, and of several that start
there to the first in the reply (`Governs`).  If that entry does not reach the slot, no other is tried
(`getConnection_governs`).
-/

namespace HiredisCluster

open Cxx

/-- Of the entries whose range starts at the slot or before it, the one that starts last, the first in the reply if
several start there. -/
structure Governs (entries : List SlotEntry) (slot : SlotIndex) (i : Nat) (e : SlotEntry) : Prop where
  entry : entries[i]? = some e
  starts : e.range.1 ≤ slot
  latest : ∀ e' ∈ entries, e'.range.1 ≤ slot → e'.range.1 ≤ e.range.1
  first : ∀ j e', j < i → entries[j]? = some e' → e'.range.1 ≠ e.range.1

/-! ### The search -/

/-- A table answers an entry that contains the slot exactly if no other entry starts between that one and the slot. -/
theorem DefaultContainer.searchBySlots_ret_iff {slot : SlotIndex} {storage : ClusterNodes} {x : SlotConnection}
    (hi : slot < 16384) : DefaultContainer.searchBySlots slot storage = .ret x ↔
      x ∈ storage.entries ∧ (x.1.1 ≤ slot ∧ slot ≤ x.1.2) ∧
        ∀ y ∈ storage.entries, y.1.1 ≤ slot → y.1.1 ≤ x.1.1 := by
  -- `slot + 1` does not wrap around
  have hs : slotRank (slot + 1, 0) = slot.toNat + 1 := by
    have hlt := UInt32.lt_iff_toNat_lt.1 hi
    simp only [slotRank, UInt32.toNat_add]
    exact Nat.mod_eq_of_lt (by simp at hlt ⊢; omega)
  have below : ∀ y : SlotConnection, slotRank y.1 < slotRank (slot + 1, 0) ↔ y.1.1 ≤ slot := by
    intro y
    rw [hs, UInt32.le_iff_toNat_le]
    exact Nat.lt_succ_iff
  by_cases h0 : storage.lowerBound (slot + 1, 0) = 0
  · have none_starts : ∀ y ∈ storage.entries, ¬ y.1.1 ≤ slot := fun y hy hle =>
      OrderedMap.not_rank_lt_of_lowerBound_eq_zero storage h0 y hy ((below y).2 hle)
    constructor
    · intro h
      obtain ⟨hmem, hle, -⟩ := rangeAt_ret h
      exact absurd hle (none_starts x hmem)
    · rintro ⟨hmem, ⟨hle, -⟩, -⟩
      exact absurd hle (none_starts x hmem)
  · obtain ⟨p, hp, hpr, hmax⟩ := OrderedMap.lowerBound_pred storage h0
    have hpm : p ∈ storage.entries := List.mem_of_getElem? hp
    have hlen := (List.getElem?_eq_some_iff.1 hp).1
    have hsearch : DefaultContainer.searchBySlots slot storage =
        if p.1.1 > slot ∨ p.1.2 < slot then .throws (.cluster .nodeSearch) else .ret p := by
      show rangeAt slot storage (if storage.lowerBound (slot + 1, 0) ≠ 0 then _ else _) = _
      rw [if_pos h0, rangeAt, if_pos (Nat.ne_of_lt hlen), hp]
    have hlatest : ∀ y ∈ storage.entries, y.1.1 ≤ slot → y.1.1 ≤ p.1.1 := fun y hy hle =>
      UInt32.le_iff_toNat_le.2 (hmax y hy ((below y).2 hle))
    rw [hsearch]
    constructor
    · intro h
      split at h
      · cases h
      · rename_i hreach
        cases h
        simp only [not_or, UInt32.not_lt] at hreach
        exact ⟨hpm, hreach, hlatest⟩
    · rintro ⟨hmem, ⟨hstart, hstop⟩, hlast⟩
      -- both start last, and the table has one entry of a start
      have hle := UInt32.le_iff_toNat_le.1 (hlatest x hmem hstart)
      have hge := UInt32.le_iff_toNat_le.1 (hlast p hpm ((below p).1 hpr))
      obtain rfl : p = x := OrderedMap.eq_of_rank_eq storage hpm hmem (Nat.le_antisymm hge hle)
      rw [if_neg]
      simp only [not_or, UInt32.not_lt]
      exact ⟨hstart, hstop⟩

/-! ### The table of a reply -/

/-- The entries with the connections that are opened for them, where `base` were opened before. -/
def numbered (base : Nat) (entries : List SlotEntry) : List (SlotRange × ConPtr) :=
  entries.mapIdx fun i e => (e.range, base + i)

private theorem numbered_cons (base : Nat) (e : SlotEntry) (entries : List SlotEntry) :
    numbered base (e :: entries) = (e.range, base) :: numbered (base + 1) entries := by
  have shifted : (fun (i : Nat) (x : SlotEntry) => (x.range, base + (i + 1))) = fun i x => (x.range, base + 1 + i) := by
    funext i x
    rw [Nat.add_right_comm, Nat.add_assoc]
  unfold numbered
  rw [List.mapIdx_cons, shifted]
  rfl

private theorem getElem?_numbered (base : Nat) (entries : List SlotEntry) (i : Nat) :
    (numbered base entries)[i]? = entries[i]?.map fun e => (e.range, base + i) := by
  simp [numbered]

/-- The table has the first entry of each start. -/
private theorem mem_tabulated {base : Nat} {entries : List SlotEntry} {x : SlotConnection} :
    x ∈ ((OrderedMap.empty : ClusterNodes).insertAll (numbered base entries)).entries ↔
      ∃ i e, entries[i]? = some e ∧ (∀ j e', j < i → entries[j]? = some e' → e'.range.1 ≠ e.range.1) ∧
        x = (e.range, base + i) := by
  rw [OrderedMap.mem_insertAll]
  constructor
  · rintro (hx | ⟨-, i, hi, hfirst⟩)
    · cases hx
    · rw [getElem?_numbered] at hi
      obtain ⟨e, he, rfl⟩ := Option.map_eq_some_iff.1 hi
      refine ⟨i, e, he, fun j e' hj he' hstart => ?_, rfl⟩
      exact hfirst j (e'.range, base + j) hj (by rw [getElem?_numbered, he']; rfl) (congrArg UInt32.toNat hstart)
  · rintro ⟨i, e, he, hfirst, rfl⟩
    refine Or.inr ⟨fun y hy => absurd hy List.not_mem_nil, i, by rw [getElem?_numbered, he]; rfl, ?_⟩
    intro j y hj hy hrank
    rw [getElem?_numbered] at hy
    obtain ⟨e', he', rfl⟩ := Option.map_eq_some_iff.1 hy
    exact hfirst j e' hj he' (UInt32.toNat_inj.1 hrank)

/-- Among the entries of one start one is the first. -/
private theorem exists_first {entries : List SlotEntry} {e : SlotEntry} (h : e ∈ entries) :
    ∃ (i : Nat) (e' : SlotEntry), entries[i]? = some e' ∧ e'.range.1 = e.range.1 ∧
      ∀ (j : Nat) (e'' : SlotEntry), j < i → entries[j]? = some e'' → e''.range.1 ≠ e'.range.1 := by
  obtain ⟨n, hn⟩ := List.getElem?_of_mem h
  induction n using Nat.strongRecOn generalizing e with
  | ind n ih =>
    by_cases hbefore : ∃ (j : Nat) (e'' : SlotEntry), j < n ∧ entries[j]? = some e'' ∧ e''.range.1 = e.range.1
    · obtain ⟨j, e'', hj, he'', hstart⟩ := hbefore
      obtain ⟨i, e', he', hsame, hfirst⟩ := ih j hj (List.mem_of_getElem? he'') he''
      exact ⟨i, e', he', hsame.trans hstart, hfirst⟩
    · exact ⟨n, e, hn, rfl, fun j e'' hj he'' hstart => hbefore ⟨j, e'', hj, he'', hstart⟩⟩

variable {ρ : Type} {fn : Functions ρ}

/-- The slot table is made of the entries, one after the other. -/
structure Tabulates (base : List Context) (entries : List SlotEntry) (w : World ρ) : Prop where
  nodes : w.nodes = OrderedMap.empty.insertAll (numbered base.length entries)
  contexts : base ++ entries.map SlotEntry.opened <+: w.contexts
  readytouse : w.cluster.readytouse_ = true

private theorem Tabulates.tableBased {base : List Context} {entries : List SlotEntry} :
    TableBased (Tabulates (ρ := ρ) base entries) :=
  fun h hn hr hc => ⟨hn.trans h.nodes, h.contexts.trans hc, hr.trans h.readytouse⟩

private theorem insertEntries_tabulates (hf : FreshHealthy fn) (p : ReplyPtr) {es : List RedisReply} (w : World ρ)
    (h : ∀ e ∈ es, ∃ x : SlotEntry, x.Encodes e) :
    ∃ w', insertEntries fn p es w = (.ret (), w') ∧
      w'.nodes = w.nodes.insertAll (numbered w.contexts.length (SlotEntry.leading es)) ∧
      w'.contexts = w.contexts ++ (SlotEntry.leading es).map SlotEntry.opened := by
  induction es generalizing w with
  | nil => exact ⟨w, rfl, rfl, by simp [SlotEntry.leading]⟩
  | cons e es ih =>
    obtain ⟨x, hx⟩ := h e List.mem_cons_self
    have hparse := (SlotEntry.parse_eq_some_iff e x).2 hx
    obtain ⟨v, hrun, hnodes, hcontexts, -⟩ := insertSlots_fresh hf x.range x.host.bytes x.port.toInt32 w
    obtain ⟨w', hrest, hnodes', hcontexts'⟩ := ih v fun e he => h e (List.mem_cons_of_mem _ he)
    have hleading : SlotEntry.leading (e :: es) = x :: SlotEntry.leading es := by rw [SlotEntry.leading, hparse]
    refine ⟨w', ?_, ?_, ?_⟩
    · rw [insertEntries, hparse]
      exact (Code.bind_of_ret hrun _).trans hrest
    · rw [hnodes', hnodes, hcontexts, List.length_append, List.length_singleton, hleading, numbered_cons]
      rfl
    · rw [hcontexts', hcontexts, hleading, List.append_assoc]
      rfl

/-- The constructor makes the table of every reply that it accepts. -/
private theorem construct_tabulates (hf : FreshHealthy fn) {reply : RedisReply} (hr : reply.IsSlots) {w : World ρ}
    {a : Nat} (ha : a ∉ w.freed) : ∃ w', Cluster.construct fn (.object a reply) w = (.ret (), w') ∧
      Tabulates w.contexts reply.slotEntries w' := by
  obtain ⟨es, rfl, hes⟩ := hr
  obtain ⟨v, hrun, hnodes, hcontexts⟩ :=
    insertEntries_tabulates hf (.object a (.array es)) (w.updCluster fun _ => Cluster.initial) hes
  have hfn : ¬ (fn.connect.isNone = true ∨ fn.disconnect.isNone = true) := by
    obtain ⟨hd, f, hc, -⟩ := hf
    simp [hc, Option.isSome_iff_ne_none.1 hd]
  refine ⟨v.updCluster fun c => { c with readytouse_ := true }, ?_, hnodes, ?_, rfl⟩
  · refine (Code.bind_of_ret (Code.modify_apply _ w) _).trans ?_
    rw [if_neg hfn, init_array fn (w := w.updCluster fun _ => Cluster.initial) ha]
    exact Code.bind_of_ret hrun _
  · exact hcontexts ▸ List.prefix_rfl

/-- The table answers the entry that governs the slot, with the connection that was opened for it, if it reaches the
slot. -/
private theorem Tabulates.search_ret_iff {base : List Context} {entries : List SlotEntry} {w : World ρ}
    (h : Tabulates base entries w) {slot : SlotIndex} (hs : slot < 16384) {x : SlotConnection} :
    DefaultContainer.searchBySlots slot w.nodes = .ret x ↔
      ∃ i e, Governs entries slot i e ∧ slot ≤ e.range.2 ∧ x = (e.range, base.length + i) := by
  rw [DefaultContainer.searchBySlots_ret_iff hs, h.nodes, mem_tabulated]
  constructor
  · rintro ⟨⟨i, e, he, hfirst, rfl⟩, ⟨hstart, hstop⟩, hlast⟩
    refine ⟨i, e, ⟨he, hstart, fun e' he' hle => ?_, hfirst⟩, hstop, rfl⟩
    obtain ⟨j, e'', he'', hsame, hfirst'⟩ := exists_first he'
    rw [← hsame] at hle ⊢
    exact hlast (e''.range, base.length + j) (mem_tabulated.2 ⟨j, e'', he'', hfirst', rfl⟩) hle
  · rintro ⟨i, e, hgov, hstop, rfl⟩
    refine ⟨⟨i, e, hgov.entry, hgov.first, rfl⟩, ⟨hgov.starts, hstop⟩, fun y hy hle => ?_⟩
    obtain ⟨j, e', he', -, rfl⟩ := mem_tabulated.1 hy
    exact hgov.latest e' (List.mem_of_getElem? he') hle

/-- No two entries govern a slot. -/
private theorem Governs.unique {entries : List SlotEntry} {slot : SlotIndex} {i j : Nat} {e e' : SlotEntry}
    (h : Governs entries slot i e) (h' : Governs entries slot j e') : i = j ∧ e = e' := by
  have hle := UInt32.le_iff_toNat_le.1 (h.latest e' (List.mem_of_getElem? h'.entry) h'.starts)
  have hge := UInt32.le_iff_toNat_le.1 (h'.latest e (List.mem_of_getElem? h.entry) h.starts)
  have hstart : e.range.1 = e'.range.1 := UInt32.toNat_inj.1 (Nat.le_antisymm hge hle)
  have hij : i = j := by
    rcases Nat.lt_trichotomy i j with hlt | heq | hgt
    · exact absurd hstart (h'.first i e hlt h.entry)
    · exact heq
    · exact absurd hstart.symm (h.first j e' hgt h'.entry)
  subst hij
  exact ⟨rfl, Option.some.inj (h.entry.symm.trans h'.entry)⟩

/-- Whatever the ranges in a reply that the constructor accepts: after any calls of the members of `ClusterOp`
(`getConnection`, `createNewConnection`, `moved` and the two `releaseConnection`; there is no `stop`, `disconnect` or
`deleteConnection` among them) `getConnection` answers, for a key below 2 ^ 31 bytes, the connection that was opened for the
entry that governs its slot, if the range of that entry reaches the slot, and throws `NodeSearchException` exactly if it
does not, also where another entry would contain the slot.  The connects are fresh and healthy, and the moved callback
leaves the cluster alone. -/
theorem getConnection_governs (hf : FreshHealthy fn) (hm : LeavesClusterAlone fn) {reply : RedisReply}
    (hr : reply.IsSlots) {w₀ : World ρ} {a : Nat} (ha : a ∉ w₀.freed) (ops : List ClusterOp) {key : Bytes}
    (hk : key.length < 2 ^ 31) :
    ∃ slot w₁, SlotHash.slotByKey true key key.length = some slot ∧
      Cluster.construct fn (.object a reply) w₀ = (.ret (), w₁) ∧
      (∀ i e, Governs reply.slotEntries slot i e → slot ≤ e.range.2 →
        Cluster.getConnection key (ClusterOp.after fn ops w₁) =
          (.ret (e.range, w₀.contexts.length + i), ClusterOp.after fn ops w₁) ∧
        (ClusterOp.after fn ops w₁).contexts[w₀.contexts.length + i]? = some e.opened) ∧
      ((Cluster.getConnection key (ClusterOp.after fn ops w₁)).1 = .throws (.cluster .nodeSearch) ↔
        ∀ i e, Governs reply.slotEntries slot i e → e.range.2 < slot) := by
  obtain ⟨slot, hs, hlt⟩ := SlotHash.slotByKey_eq_some true key
  obtain ⟨w₁, hcons, htable⟩ := construct_tabulates hf hr ha
  have hafter := ClusterOp.after_table hf hm Tabulates.tableBased ops htable
  have hget := getConnection_eq hafter.readytouse hk hs
  refine ⟨slot, w₁, hs, hcons, fun i e hgov hstop => ⟨?_, ?_⟩, ?_⟩
  · rw [hget, (hafter.search_ret_iff hlt).2 ⟨i, e, hgov, hstop, rfl⟩]
  · obtain ⟨more, hmore⟩ := hafter.contexts
    have hilt := (List.getElem?_eq_some_iff.1 hgov.entry).1
    rw [← hmore, List.append_assoc, List.getElem?_append_right (Nat.le_add_right _ _), Nat.add_sub_cancel_left,
      List.getElem?_append_left (by simpa using hilt), List.getElem?_map, hgov.entry]
    rfl
  · rw [hget]
    constructor
    · intro hthrow i e hgov
      by_cases hstop : slot ≤ e.range.2
      · rw [(hafter.search_ret_iff hlt).2 ⟨i, e, hgov, hstop, rfl⟩] at hthrow
        cases hthrow
      · exact UInt32.not_le.1 hstop
    · intro hnone
      rcases DefaultContainer.searchBySlots_cases slot (ClusterOp.after fn ops w₁).nodes with ⟨x, hx⟩ | hthrow
      · obtain ⟨i, e, hgov, hstop, -⟩ := (hafter.search_ret_iff hlt).1 hx
        exact absurd hstop (UInt32.not_le.2 (hnone i e hgov))
      · exact hthrow

/-- A range of all slots, and one inside it. -/
def nestedEntries : List SlotEntry := [⟨0, 16383, .ofText "10.0.0.1", 7000⟩, ⟨8192, 9000, .ofText "10.0.0.2", 7001⟩]

/-- The reply that lists `nestedEntries`. -/
def nestedReply : RedisReply :=
  .array (nestedEntries.map fun e =>
    .array [.integer e.start, .integer e.stop, .array [.string e.host, .integer e.port]])

/-- The key `foo` has slot 12182, and the inner range hides the rest of the outer one. -/
theorem getConnection_governs_hidden :
    (Cluster.getConnection (text "foo") (ClusterOp.after healthyFunctions [.moved]
      (Cluster.construct healthyFunctions (.object 0 nestedReply) unconstructed).2)).1 =
      .throws (.cluster .nodeSearch) := by
  have hslots : nestedReply.IsSlots := (RedisReply.isSlots_array_iff _).2 (by decide +kernel)
  have hm : LeavesClusterAlone healthyFunctions := fun w => ⟨rfl, rfl⟩
  have hfree : 0 ∉ unconstructed.freed := by decide
  have hkey : (text "foo").length < 2 ^ 31 := by decide
  obtain ⟨slot, w₁, hs, hcons, -, hthrow⟩ := getConnection_governs healthyFunctions_fresh hm hslots hfree [.moved] hkey
  obtain rfl : slot = 12182 := Option.some.inj (hs.symm.trans (by decide +kernel))
  have inner : Governs nestedReply.slotEntries 12182 1 ⟨8192, 9000, .ofText "10.0.0.2", 7001⟩ :=
    { entry := by decide +kernel
      starts := by decide +kernel
      latest := by decide +kernel
      first := fun j e' hj he' => by
        obtain rfl : j = 0 := by omega
        obtain rfl := Option.some.inj (he'.symm.trans (by decide +kernel :
          nestedReply.slotEntries[0]? = some ⟨0, 16383, .ofText "10.0.0.1", 7000⟩))
        decide +kernel }
  rw [hcons]
  apply hthrow.2
  intro i e hgov
  obtain ⟨-, rfl⟩ := hgov.unique inner
  decide +kernel

end HiredisCluster
