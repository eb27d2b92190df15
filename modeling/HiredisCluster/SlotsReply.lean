import HiredisCluster.Routing

/-!
# Parsing the reply to `CLUSTER SLOTS`

`SlotEntry.parse` reads one entry, for any tree of replies; the tests in the loop of `init` decide whether it succeeds and
never look at an element or a field that is not there (`isSlotEntry_eq`).  So `init` takes the entries of an array one
after the other up to the first that is malformed (`initLoop_eq`), and opens a connection for each of them.  What it does
not test is whether the integers fit the types it converts them to (`init_exact_iff`, `integers_unaltered_iff`).
-/

namespace HiredisCluster

open Cxx

/-! ### The entries of a reply -/

/-- An entry that is well formed. -/
def SlotEntry.parse : RedisReply → Option SlotEntry
  | .array (.integer start :: .integer stop :: .array (.string host :: .integer port :: _) :: _) =>
    some ⟨start, stop, host, port⟩
  | _ => none

/-- The entries before the first malformed one. -/
def SlotEntry.leading : List RedisReply → List SlotEntry
  | [] => []
  | e :: es =>
    match parse e with
    | some x => x :: leading es
    | none => []

namespace RedisReply

/-- The entries of an array before the first malformed one. -/
def slotEntries : RedisReply → List SlotEntry
  | array es => SlotEntry.leading es
  | _ => []

/-- An array of well formed entries. -/
def IsSlots (r : RedisReply) : Prop := ∃ es, r = array es ∧ ∀ e ∈ es, ∃ x : SlotEntry, x.Encodes e

end RedisReply

theorem SlotEntry.parse_eq_some_iff (e : RedisReply) (x : SlotEntry) : SlotEntry.parse e = some x ↔ x.Encodes e := by
  constructor
  · intro h
    unfold parse at h
    split at h
    · cases h
      exact ⟨_, _, rfl⟩
    · cases h
  · rintro ⟨ids, replicas, rfl⟩
    rfl

/-- Whatever the shape of the node, the tests look only at elements that are there. -/
private theorem isSlotEntry_of_integers (start stop : Int64) (node : RedisReply) (replicas : List RedisReply) :
    Cluster.isSlotEntry (.array (.integer start :: .integer stop :: node :: replicas)) =
      .ret (SlotEntry.parse (.array (.integer start :: .integer stop :: node :: replicas))).isSome := by
  cases node with
  | array es =>
    match es with
    | [] => rfl
    | [host] => cases host <;> rfl
    | host :: port :: ids =>
      cases host with
      | string host => cases port <;> rfl
      | _ => rfl
  | _ => rfl

/-- The tests of `init` decide whether an entry is well formed. -/
theorem isSlotEntry_eq (e : RedisReply) : Cluster.isSlotEntry e = .ret (SlotEntry.parse e).isSome := by
  cases e with
  | array es =>
    match es with
    | [] => rfl
    | [start] => cases start <;> rfl
    | [start, stop] => cases start <;> cases stop <;> rfl
    | start :: stop :: node :: replicas =>
      cases start with
      | integer start =>
        cases stop with
        | integer stop => exact isSlotEntry_of_integers start stop node replicas
        | _ => rfl
      | _ => rfl
  | _ => rfl

private theorem readSlotEntry_of_parse {e : RedisReply} {x : SlotEntry} (h : SlotEntry.parse e = some x) :
    Cluster.readSlotEntry e = .ret (x.range, x.host.bytes, x.port.toInt32) :=
  (isSlotEntry_of_encodes ((SlotEntry.parse_eq_some_iff e x).1 h)).2

/-- All entries come before the first malformed one exactly if there is none. -/
private theorem SlotEntry.length_leading_iff (es : List RedisReply) :
    (SlotEntry.leading es).length = es.length ↔ ∀ e ∈ es, ∃ x : SlotEntry, x.Encodes e := by
  induction es with
  | nil => simp [leading]
  | cons e es ih =>
    simp only [leading, List.forall_mem_cons, ← parse_eq_some_iff] at ih ⊢
    cases hp : parse e with
    | none => simp
    | some x => simp [ih]

theorem RedisReply.isSlots_array_iff (es : List RedisReply) :
    (RedisReply.array es).IsSlots ↔ (SlotEntry.leading es).length = es.length := by
  rw [SlotEntry.length_leading_iff]
  constructor
  · rintro ⟨es', heq, h⟩
    cases heq
    exact h
  · exact fun h => ⟨es, rfl, h⟩

/-! ### The loop of `init` -/

section loop

variable {ρ : Type} (fn : Functions ρ)

/-- The loop of `init` over the entries themselves. -/
def insertEntries (reply : ReplyPtr) : List RedisReply → Lib ρ Unit
  | [] => pure ()
  | e :: es =>
    match SlotEntry.parse e with
    | some x => DefaultContainer.insertSlots fn x.range x.host.bytes x.port.toInt32 >>= fun _ => insertEntries reply es
    | none => raise reply .connectionFailed

/-- The loop by index visits the entries one after the other and reads each of them within its bounds. -/
theorem initLoop_eq (reply : ReplyPtr) (es : List RedisReply) (n i : Nat) (h : i + n = es.length) :
    Cluster.initLoop fn reply (.array es) n i = insertEntries fn reply (es.drop i) := by
  induction n generalizing i with
  | zero =>
    rw [List.drop_of_length_le (by omega)]
    rfl
  | succ n ih =>
    have hlt : i < es.length := by omega
    have hat : (RedisReply.array es).elementAt i = .ret es[i] := by
      simp only [RedisReply.elementAt, List.getElem?_eq_getElem hlt]
    rw [List.drop_eq_getElem_cons hlt, Cluster.initLoop, insertEntries, hat, ← ih (i + 1) (by omega)]
    funext w
    simp only [Code.bind_apply, Code.lift_apply, andThen_ret, isSlotEntry_eq]
    cases hp : SlotEntry.parse es[i] with
    | none => rfl
    | some x =>
      simp only [Option.isSome_some, ↓reduceIte, readSlotEntry_of_parse hp, Code.bind_apply, Code.lift_apply, andThen_ret]

/-- `init` on a reply object that was not freed. -/
theorem init_array {a : Nat} {w : World ρ} (ha : a ∉ w.freed) (es : List RedisReply) :
    Cluster.init fn (.object a (.array es)) w = (insertEntries fn (.object a (.array es)) es >>= fun _ =>
      Code.modify fun w => w.updCluster fun c => { c with readytouse_ := true }) w := by
  have hread : (readReply (.object a (.array es)) : Lib ρ RedisReply) w = (.ret (.array es), w) :=
    derefReply_object ha _
  have hloop := initLoop_eq fn (.object a (.array es)) es es.length 0 (by omega)
  rw [List.drop_zero] at hloop
  rw [← hloop]
  exact Code.bind_of_ret hread _

/-- The exception for a malformed reply frees it. -/
theorem raise_freed {a : Nat} {w : World ρ} (ha : a ∉ w.freed) (r : RedisReply) (e : ClusterException) {α : Type} :
    (raise (.object a r) e : Lib ρ α) w = (.throws (.cluster e), { w with freed := a :: w.freed }) := by
  have hfree : (freeReplyObject (.object a r) : Lib ρ Unit) w = (.ret (), { w with freed := a :: w.freed }) := by
    show freeReply (.object a r) w = _
    simp [freeReply, ha]
  exact Code.bind_of_ret hfree _

theorem init_malformed {a : Nat} {w : World ρ} (ha : a ∉ w.freed) {r : RedisReply} (hr : r.type ≠ .array) :
    Cluster.init fn (.object a r) w =
      (.throws (.cluster .connectionFailed), { w with freed := a :: w.freed }) := by
  have hread : (readReply (.object a r) : Lib ρ RedisReply) w = (.ret r, w) := derefReply_object ha r
  rw [Cluster.init, Code.bind_of_ret hread, if_neg hr, raise_freed ha]

end loop

/-! ### When every connection opens -/

/-- From `w` to `w'` a connection was opened for each of the entries `xs`, and the slot table got nothing else. -/
structure Inserted {ρ : Type} (w w' : World ρ) (xs : List SlotEntry) : Prop where
  contexts : w'.contexts = w.contexts ++ xs.map SlotEntry.opened
  readytouse : w'.cluster.readytouse_ = w.cluster.readytouse_
  nodes : ∀ x ∈ w'.nodes.entries, x ∈ w.nodes.entries ∨
    ∃ i e, xs[i]? = some e ∧ x = (e.range, w.contexts.length + i)

section fresh

variable {ρ : Type} {fn : Functions ρ}

/-- One entry more at the front. -/
private theorem Inserted.cons {w v u : World ρ} {x : SlotEntry} {xs : List SlotEntry}
    (hnodes : v.nodes = w.nodes.insert x.range w.contexts.length)
    (hcontexts : v.contexts = w.contexts ++ [x.opened]) (hready : v.cluster.readytouse_ = w.cluster.readytouse_)
    (h : Inserted v u xs) : Inserted w u (x :: xs) := by
  have hlen : v.contexts.length = w.contexts.length + 1 := by rw [hcontexts, List.length_append, List.length_singleton]
  refine ⟨?_, h.readytouse.trans hready, fun y hy => ?_⟩
  · rw [h.contexts, hcontexts, List.append_assoc]
    rfl
  · rcases h.nodes y hy with hy | ⟨i, e, hi, rfl⟩
    · rw [hnodes] at hy
      rcases OrderedMap.mem_insertEntry hy with rfl | hy
      · exact Or.inr ⟨0, x, rfl, rfl⟩
      · exact Or.inl hy
    · refine Or.inr ⟨i + 1, e, hi, ?_⟩
      rw [hlen, Nat.add_right_comm, Nat.add_assoc]

/-- The loop inserts the entries before the first malformed one, for which it frees the reply and throws. -/
private theorem insertEntries_fresh (hf : FreshHealthy fn) {a : Nat} (r : RedisReply) (es : List RedisReply)
    (w : World ρ) (ha : a ∉ w.freed) :
    ∃ w', Inserted w w' (SlotEntry.leading es) ∧
      (((SlotEntry.leading es).length = es.length ∧ insertEntries fn (.object a r) es w = (.ret (), w') ∧
          w'.freed = w.freed) ∨
        ((SlotEntry.leading es).length ≠ es.length ∧
          insertEntries fn (.object a r) es w = (.throws (.cluster .connectionFailed), w') ∧
          w'.freed = a :: w.freed)) := by
  induction es generalizing w with
  | nil => exact ⟨w, ⟨by simp [SlotEntry.leading], rfl, fun x hx => Or.inl hx⟩, Or.inl ⟨rfl, rfl, rfl⟩⟩
  | cons e es ih =>
    cases hp : SlotEntry.parse e with
    | none =>
      have hstop : insertEntries fn (.object a r) (e :: es) w = (raise (.object a r) .connectionFailed : Lib ρ Unit) w := by
        rw [insertEntries, hp]
      have hnone : SlotEntry.leading (e :: es) = [] := by rw [SlotEntry.leading, hp]
      rw [hnone]
      exact ⟨{ w with freed := a :: w.freed }, ⟨by simp, rfl, fun x hx => Or.inl hx⟩,
        Or.inr ⟨by simp, hstop.trans (raise_freed ha r _), rfl⟩⟩
    | some x =>
      obtain ⟨v, hrun, hnodes, hcontexts, hfreed, hready⟩ :=
        insertSlots_fresh hf x.range x.host.bytes x.port.toInt32 w
      have hstep : insertEntries fn (.object a r) (e :: es) w = insertEntries fn (.object a r) es v := by
        rw [insertEntries, hp]
        exact Code.bind_of_ret hrun _
      have hcons : SlotEntry.leading (e :: es) = x :: SlotEntry.leading es := by rw [SlotEntry.leading, hp]
      obtain ⟨w', hins, hend⟩ := ih v (by rw [hfreed]; exact ha)
      refine ⟨w', ?_, ?_⟩
      · rw [hcons]
        exact hins.cons hnodes hcontexts hready
      · rw [hstep, hcons, ← hfreed]
        exact hend.imp (fun h => ⟨congrArg (· + 1) h.1, h.2⟩) fun h => ⟨fun heq => h.1 (Nat.succ.inj heq), h.2⟩

/-- What `init` does with any reply. -/
private theorem init_cases (hf : FreshHealthy fn) (r : RedisReply) {w : World ρ} {a : Nat} (ha : a ∉ w.freed) :
    ∃ w', w'.contexts = w.contexts ++ r.slotEntries.map SlotEntry.opened ∧
      (∀ x ∈ w'.nodes.entries, x ∈ w.nodes.entries ∨
        ∃ i e, r.slotEntries[i]? = some e ∧ x = (e.range, w.contexts.length + i)) ∧
      ((r.IsSlots ∧ Cluster.init fn (.object a r) w = (.ret (), w') ∧ w'.cluster.readytouse_ = true ∧
          w'.freed = w.freed) ∨
        (¬ r.IsSlots ∧ Cluster.init fn (.object a r) w = (.throws (.cluster .connectionFailed), w') ∧
          w'.cluster.readytouse_ = w.cluster.readytouse_ ∧ w'.freed = a :: w.freed)) := by
  by_cases hr : r.type = .array
  · obtain ⟨es, rfl⟩ : ∃ es, r = .array es := by
      cases r with
      | array es => exact ⟨es, rfl⟩
      | _ => cases hr
    rw [RedisReply.isSlots_array_iff, init_array fn ha]
    obtain ⟨v, hins, ⟨hall, hrun, hfreed⟩ | ⟨hsome, hrun, hfreed⟩⟩ := insertEntries_fresh hf (.array es) es w ha
    · exact ⟨v.updCluster fun c => { c with readytouse_ := true }, hins.contexts, hins.nodes,
        Or.inl ⟨hall, Code.bind_of_ret hrun _, rfl, hfreed⟩⟩
    · exact ⟨v, hins.contexts, hins.nodes, Or.inr ⟨hsome, Code.bind_of_throws hrun _, hins.readytouse, hfreed⟩⟩
  · have hnone : r.slotEntries = [] := by
      cases r with
      | array es => exact absurd rfl hr
      | _ => rfl
    refine ⟨{ w with freed := a :: w.freed }, by rw [hnone]; simp, fun x hx => Or.inl hx,
      Or.inr ⟨?_, init_malformed fn ha hr, rfl, rfl⟩⟩
    rintro ⟨es, rfl, -⟩
    exact hr rfl

/-! ### The conversions -/

namespace SlotEntry

/-- The port fits an `int`. -/
def PortFits (e : SlotEntry) : Prop := -2 ^ 31 ≤ e.port.toInt ∧ e.port.toInt < 2 ^ 31

/-- The ends of the range fit an `unsigned int`. -/
def RangeFits (e : SlotEntry) : Prop :=
  (0 ≤ e.start.toInt ∧ e.start.toInt < 2 ^ 32) ∧ 0 ≤ e.stop.toInt ∧ e.stop.toInt < 2 ^ 32

instance (e : SlotEntry) : Decidable e.PortFits := inferInstanceAs (Decidable (_ ∧ _))

instance (e : SlotEntry) : Decidable e.RangeFits := inferInstanceAs (Decidable (_ ∧ _))

/-- The conversions change none of the integers. -/
structure Converts (e : SlotEntry) : Prop where
  start : (e.range.1.toNat : Int) = e.start.toInt
  stop : (e.range.2.toNat : Int) = e.stop.toInt
  port : e.port.toInt32.toInt = e.port.toInt

private theorem toNat_ofInt_eq_iff (i : Int) : ((UInt32.ofInt i).toNat : Int) = i ↔ 0 ≤ i ∧ i < 2 ^ 32 := by
  have hmod : ((UInt32.ofInt i).toNat : Int) = i % 2 ^ 32 := by
    unfold UInt32.ofInt
    rw [UInt32.toNat_ofNat', Nat.mod_eq_of_lt (by omega)]
    omega
  rw [hmod]
  omega

private theorem port_converts_iff (e : SlotEntry) : e.port.toInt32.toInt = e.port.toInt ↔ e.PortFits := by
  rw [Int64.toInt_toInt32]
  constructor
  · intro h
    have hle := Int.le_bmod (x := e.port.toInt) (m := 2 ^ 32) (by decide)
    have hlt := Int.bmod_lt (x := e.port.toInt) (m := 2 ^ 32) (by decide)
    rw [h] at hle hlt
    exact ⟨by omega, by omega⟩
  · rintro ⟨hle, hlt⟩
    exact Int.bmod_eq_of_le (by omega) (by omega)

private theorem converts_iff (e : SlotEntry) : e.Converts ↔ e.RangeFits ∧ e.PortFits := by
  have hstart := toNat_ofInt_eq_iff e.start.toInt
  have hstop := toNat_ofInt_eq_iff e.stop.toInt
  have hport := e.port_converts_iff
  constructor
  · intro h
    exact ⟨⟨hstart.1 h.start, hstop.1 h.stop⟩, hport.1 h.port⟩
  · rintro ⟨⟨h0, h1⟩, hp⟩
    exact ⟨hstart.2 h0, hstop.2 h1, hport.2 hp⟩

end SlotEntry

/-! ### The parser -/

/-- `init` accepts exactly arrays of well formed entries, and has called `connect_` once for each entry before the first
malformed one, in order and with the address in the entry. -/
structure InitExact (fn : Functions ρ) (a : Nat) (r : RedisReply) (w : World ρ) : Prop where
  defined : (Cluster.init fn (.object a r) w).1 ≠ .undefined
  completes : ((Cluster.init fn (.object a r) w).1 = .ret () ∧
    (Cluster.init fn (.object a r) w).2.cluster.readytouse_ = true) ↔ r.IsSlots
  rejects : ¬ r.IsSlots → (Cluster.init fn (.object a r) w).1 = .throws (.cluster .connectionFailed) ∧
    (Cluster.init fn (.object a r) w).2.cluster.readytouse_ = false ∧
      (Cluster.init fn (.object a r) w).2.freed = a :: w.freed
  connects : ∃ more, (Cluster.init fn (.object a r) w).2.contexts = w.contexts ++ more ∧
    more.map (fun x => (x.host, x.port.toInt)) = r.slotEntries.map fun e => (cStr e.host.bytes, e.port.toInt)

/-- The ports of the connections are those of the entries exactly if they fit an `int`. -/
private theorem addresses_eq_iff (xs : List SlotEntry) :
    (xs.map SlotEntry.opened).map (fun x => (x.host, x.port.toInt)) =
      xs.map (fun e => (cStr e.host.bytes, e.port.toInt)) ↔ ∀ e ∈ xs, e.PortFits := by
  rw [List.map_map, List.map_inj_left]
  refine forall_congr' fun e => imp_congr_right fun _ => ?_
  rw [← e.port_converts_iff]
  exact ⟨fun h => congrArg Prod.snd h, fun h => congrArg (Prod.mk _) h⟩

/-- The parser accepts exactly its format and connects to the addresses in the entries, except that a port that does not
fit an `int` is connected to as another one. -/
theorem init_exact_iff (hf : FreshHealthy fn) (r : RedisReply) {w : World ρ} {a : Nat} (ha : a ∉ w.freed)
    (hready : w.cluster.readytouse_ = false) : InitExact fn a r w ↔ ∀ e ∈ r.slotEntries, e.PortFits := by
  obtain ⟨w', hcontexts, -, hend⟩ := init_cases hf r ha
  have haddresses : (∃ more, w'.contexts = w.contexts ++ more ∧
      more.map (fun x => (x.host, x.port.toInt)) = r.slotEntries.map fun e => (cStr e.host.bytes, e.port.toInt)) ↔
      ∀ e ∈ r.slotEntries, e.PortFits := by
    rw [← addresses_eq_iff, hcontexts]
    constructor
    · rintro ⟨more, heq, hmap⟩
      rw [List.append_cancel_left heq]
      exact hmap
    · exact fun h => ⟨_, rfl, h⟩
  rw [← haddresses]
  rcases hend with ⟨hslots, hrun, hset, -⟩ | ⟨hslots, hrun, hset, hfreed⟩
  · refine ⟨fun h => by simpa only [hrun] using h.connects, fun h => ?_⟩
    refine ⟨?_, ?_, fun hno => absurd hslots hno, by simpa only [hrun] using h⟩
    · rw [hrun]
      simp
    · rw [hrun]
      exact iff_of_true ⟨rfl, hset⟩ hslots
  · refine ⟨fun h => by simpa only [hrun] using h.connects, fun h => ?_⟩
    refine ⟨?_, ?_, fun _ => ?_, by simpa only [hrun] using h⟩
    · rw [hrun]
      simp
    · rw [hrun]
      exact iff_of_false (by simp) hslots
    · rw [hrun]
      exact ⟨rfl, hset.trans hready, hfreed⟩

/-! ### The integers -/

/-- What the constructor has made of the integers in the entries, where `base` connections were opened before. -/
structure IntegersKept (entries : List SlotEntry) (base : Nat) (w : World ρ) : Prop where
  ports : ∀ i e, entries[i]? = some e → ∃ x, w.contexts[base + i]? = some x ∧ x.port.toInt = e.port.toInt
  slots : ∀ (slot : SlotIndex) (conn : SlotConnection), slot < 16384 →
    (DefaultContainer.getConnection slot w).1 = .ret conn → ∀ i e, entries[i]? = some e → conn.2 = base + i →
      e.Contains slot
  converts : ∀ e ∈ entries, e.Converts

/-- No integer is altered in a reply that the constructor accepts. -/
def IntegersUnaltered (fn : Functions ρ) (a : Nat) (r : RedisReply) (w : World ρ) : Prop :=
  ∀ w', Cluster.construct fn (.object a r) w = (.ret (), w') → IntegersKept r.slotEntries w.contexts.length w'

/-- A range whose ends fit contains the slots that its integers say. -/
private theorem SlotEntry.Converts.contains_iff {e : SlotEntry} (h : e.Converts) (slot : SlotIndex) :
    (e.range.1 ≤ slot ∧ slot ≤ e.range.2) ↔ e.Contains slot := by
  unfold SlotEntry.Contains
  rw [UInt32.le_iff_toNat_le, UInt32.le_iff_toNat_le, ← h.start, ← h.stop]
  omega

/-- The integers of an accepted reply are kept exactly if all of them fit: the constructor does not reject one that does
not. -/
theorem integers_unaltered_iff (hf : FreshHealthy fn) (r : RedisReply) {w : World ρ} {a : Nat} (ha : a ∉ w.freed) :
    IntegersUnaltered fn a r w ↔ (r.IsSlots → ∀ e ∈ r.slotEntries, e.RangeFits ∧ e.PortFits) := by
  let w₀ := w.updCluster fun _ => Cluster.initial
  obtain ⟨w', hcontexts, hnodes, hend⟩ := init_cases hf r (w := w₀) (a := a) ha
  have hconstruct : Cluster.construct fn (.object a r) w = Cluster.init fn (.object a r) w₀ := by
    have hfn : ¬ (fn.connect.isNone = true ∨ fn.disconnect.isNone = true) := by
      obtain ⟨hd, f, hc, -⟩ := hf
      simp [hc, Option.isSome_iff_ne_none.1 hd]
    refine (Code.bind_of_ret (Code.modify_apply _ w) _).trans ?_
    rw [if_neg hfn]
  unfold IntegersUnaltered
  rw [hconstruct]
  rcases hend with ⟨hslots, hrun, -⟩ | ⟨hslots, hrun, -⟩
  · rw [hrun]
    constructor
    · intro h _ e he
      exact e.converts_iff.1 ((h w' rfl).converts e he)
    · rintro hfits w'' heq
      cases heq
      have hconverts : ∀ e ∈ r.slotEntries, e.Converts := fun e he => e.converts_iff.2 (hfits hslots e he)
      refine ⟨fun i e hi => ⟨e.opened, ?_, (hconverts e (List.mem_of_getElem? hi)).port⟩, ?_, hconverts⟩
      · show w'.contexts[w₀.contexts.length + i]? = _
        rw [hcontexts, List.getElem?_append_right (Nat.le_add_right ..), Nat.add_sub_cancel_left, List.getElem?_map, hi]
        rfl
      · intro slot conn _ hget i e hi hcon
        obtain ⟨hmem, hle⟩ := DefaultContainer.rangeAt_ret hget
        rcases hnodes conn hmem with hmem | ⟨j, e', hj, rfl⟩
        · cases hmem
        · have hij : j = i := Nat.add_left_cancel hcon
          rw [hij, hi] at hj
          cases hj
          exact ((hconverts e (List.mem_of_getElem? hi)).contains_iff slot).1 hle
  · rw [hrun]
    exact iff_of_true (fun w'' heq => by cases heq) fun hyes => absurd hyes hslots

end fresh

/-- A cluster object as the constructor finds it. -/
def unconstructed : World Unit := ⟨Cluster.initial, [], 1, [], ()⟩

/-- One entry with two more elements than are read. -/
def extendedReply : RedisReply :=
  .array [.array [.integer 0, .integer 16383, .array [.string (.ofText "10.0.0.1"), .integer 7000, .nil], .array []]]

/-- The reply of a newer server is parsed as it stands. -/
theorem init_exact_extended : InitExact healthyFunctions 0 extendedReply unconstructed :=
  (init_exact_iff healthyFunctions_fresh extendedReply (by decide) rfl).2 (by decide +kernel)

/-- An entry whose port is `7000` more than `2 ^ 32`. -/
def farPort : RedisReply :=
  .array [.array [.integer 0, .integer 16383, .array [.string (.ofText "10.0.0.1"), .integer 4294974296]]]

/-- It is connected to on port `7000`. -/
theorem not_init_exact : ¬ InitExact healthyFunctions 0 farPort unconstructed := by
  intro h
  obtain ⟨more, hcontexts, hports⟩ := h.connects
  have hopened : (Cluster.init healthyFunctions (.object 0 farPort) unconstructed).2.contexts =
      [Context.opened (text "10.0.0.1") 7000] := by decide +kernel
  rw [hopened] at hcontexts
  rw [← show [Context.opened (text "10.0.0.1") 7000] = more from hcontexts] at hports
  exact absurd hports (by decide +kernel)

/-- Integers that fit are kept. -/
theorem integers_unaltered_extended : IntegersUnaltered healthyFunctions 0 extendedReply unconstructed :=
  (integers_unaltered_iff healthyFunctions_fresh extendedReply (by decide)).2 fun _ => by decide +kernel

/-- A range that starts and ends `2 ^ 32` too far. -/
def farRange : RedisReply :=
  .array [.array [.integer 4294967296, .integer 4294983679, .array [.string (.ofText "10.0.0.9"), .integer 7000]]]

/-- It is accepted and captures slot `0`. -/
theorem not_integers_unaltered : ¬ IntegersUnaltered healthyFunctions 0 farRange unconstructed := by
  intro h
  have hret : (Cluster.construct healthyFunctions (.object 0 farRange) unconstructed).1 = .ret () := by decide +kernel
  have hget : (DefaultContainer.getConnection 0
      (Cluster.construct healthyFunctions (.object 0 farRange) unconstructed).2).1 = .ret ((0, 16383), 0) := by
    decide +kernel
  have hcaptured := (h _ (Prod.ext hret rfl)).slots 0 _ (by decide) hget 0 _ rfl rfl
  exact absurd hcaptured (by decide +kernel)

end HiredisCluster
