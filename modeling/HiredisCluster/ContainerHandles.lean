import HiredisCluster.Cxx.Ledger
import HiredisCluster.Cxx.Run
import HiredisCluster.HiredisCommand

/-!
# Connections of a container are closed

A `DefaultContainer` owns what `connect_` gives it: the tables hold the connections, `disconnect()` passes them to
`disconnect_`, and the destructor does so at the end.  Two kinds of connections never get there (`closesAll_iff`): a
connection that was opened with an error, and the connection of a range whose start is in the slot table already.
-/

namespace HiredisCluster

open Cxx HiredisCommand

namespace DefaultContainer

/-- How the next call of `connect_` ends, and the connections it has returned and `disconnect_` was passed so far. -/
structure Handles where
  next : ConnectResult
  log : List (Holding ConPtr)
  deriving DecidableEq

/-- A connection was opened. -/
def opened (w : World Handles) (x : Context) : World Handles :=
  (w.addContext x).setClient { w.client with log := w.client.log ++ [.acquire w.contexts.length] }

/-- `connect_`; it does not look at the address. -/
def openHandle (host : Bytes) (port : Int32) : Lib Handles (Option ConPtr) := fun w =>
  match w.client.next with
  | .null => (.ret none, w)
  | .broken errstr =>
    (.ret (some w.contexts.length), opened w { Context.opened host port with err := true, errstr := errstr })
  | .healthy => (.ret (some w.contexts.length), opened w (Context.opened host port))

/-- `disconnect_`. -/
def closeHandle (con : ConPtr) : Lib Handles Unit :=
  Code.modify fun w => w.setClient { w.client with log := w.client.log ++ [.release con] }

def handleFunctions : Functions Handles :=
  { connect := some openHandle, disconnect := some closeHandle, userMovedFn := pure () }

/-- What a user of the container does; `result` is how `connect_` ends if the call gets that far. -/
inductive ContainerCall where
  | insertSlots (slots : SlotRange) (host : Bytes) (port : Int32) (result : ConnectResult)
  | insertHost (host port : Bytes) (result : ConnectResult)
  | getConnection (index : SlotIndex)
  | releaseSlotConnection (conn : SlotConnection)
  | releaseHostConnection (conn : HostConnection)
  | disconnect

/-- The next `connect_` ends with `result`. -/
def expect (result : ConnectResult) (w : World Handles) : World Handles :=
  w.setClient { w.client with next := result }

/-- The container after a call; an exception leaves what was done before it. -/
def perform (w : World Handles) : ContainerCall → World Handles
  | .insertSlots slots host port result =>
    (DefaultContainer.insertSlots handleFunctions slots host port (expect result w)).2
  | .insertHost host port result => (DefaultContainer.insertHost handleFunctions host port (expect result w)).2
  | .getConnection index => (DefaultContainer.getConnection index w).2
  | .releaseSlotConnection conn => (DefaultContainer.releaseConnection conn w).2
  | .releaseHostConnection conn => (DefaultContainer.releaseConnection conn w).2
  | .disconnect => (DefaultContainer.disconnect handleFunctions w).2

/-- The destructor. -/
def destruct (w : World Handles) : World Handles := (DefaultContainer.disconnect handleFunctions w).2

/-- The constructor leaves both tables empty; nothing has been opened for this container. -/
def Constructed (w : World Handles) : Prop := w.nodes = .empty ∧ w.redirects = .empty ∧ w.client.log = []

/-- A run of a container. -/
abbrev ContainerRun : World Handles → List (World Handles × ContainerCall) → Prop :=
  Run Constructed fun w call w' => w' = perform w call

/-- Both tables are empty. -/
def Emptied (w : World Handles) : Prop := w.nodes.entries = [] ∧ w.redirects.entries = []

/-- Every connection that was opened is closed once when the container is destroyed, nothing else is closed, and each
`disconnect()` empties the tables. -/
structure ClosesAll (hist : List (World Handles × ContainerCall)) (w : World Handles) : Prop where
  closed : ∀ k, (destruct w).client.log.count (.release k) = if .acquire k ∈ (destruct w).client.log then 1 else 0
  emptied : ∀ p ∈ hist, p.2 = .disconnect → Emptied (perform p.1 p.2)
  destroyed : Emptied (destruct w)

/-- The connection that the call opens, if it opens one, is stored. -/
def ContainerCall.Stores (w : World Handles) : ContainerCall → Prop
  | insertSlots slots _ _ result =>
    (∀ errstr, result ≠ .broken errstr) ∧ (result = .healthy → w.nodes.lookup slots = none)
  | insertHost host port result =>
    ∀ errstr, result = .broken errstr →
      w.redirects.lookup (hostKey host port) ≠ none ∨ ∃ e, stoi port = .throws e
  | _ => True

/-! ### What each call does -/

/-- The connections in both tables. -/
def handles (w : World Handles) : List ConPtr := w.nodes.entries.map (·.2) ++ w.redirects.entries.map (·.2)

/-- What a call does to the connections: nothing, it opens one and stores or drops it, or it closes all. -/
inductive Effect (w w' : World Handles) : Prop where
  | quiet (log : w'.client.log = w.client.log) (held : handles w' = handles w)
      (contexts : w'.contexts = w.contexts)
  | stored (log : w'.client.log = w.client.log ++ [.acquire w.contexts.length])
      (held : (handles w').Perm (w.contexts.length :: handles w))
      (contexts : w'.contexts.length = w.contexts.length + 1)
  | closed (log : w'.client.log = w.client.log ++ (handles w).map .release) (held : handles w' = [])
      (contexts : w'.contexts = w.contexts)

/-- The call opens a connection that no table holds. -/
structure Drops (w w' : World Handles) : Prop where
  log : w'.client.log = w.client.log ++ [.acquire w.contexts.length]
  held : handles w' = handles w
  contexts : w'.contexts.length = w.contexts.length + 1

private theorem openHandle_null (host : Bytes) (port : Int32) (w : World Handles) :
    callConnect handleFunctions host port (expect .null w) = (.ret none, expect .null w) := rfl

private theorem errOf_opened (w : World Handles) (x : Context) :
    errOf w.contexts.length (opened w x) = (.ret x.err, opened w x) :=
  errOf_eq List.getElem?_concat_length

/-- A connection that is opened is new, and its `err` says how the call ended. -/
private theorem openHandle_broken (host : Bytes) (port : Int32) (w : World Handles) (errstr : Bytes) :
    ∃ v, callConnect handleFunctions host port (expect (.broken errstr) w) = (.ret (some w.contexts.length), v) ∧
      errOf w.contexts.length v = (.ret true, v) ∧ Drops w v := by
  have herr := errOf_opened (expect (.broken errstr) w)
    { Context.opened host port with err := true, errstr := errstr }
  exact ⟨_, rfl, herr, ⟨rfl, rfl, List.length_append⟩⟩

private theorem openHandle_healthy (host : Bytes) (port : Int32) (w : World Handles) :
    ∃ v, callConnect handleFunctions host port (expect .healthy w) = (.ret (some w.contexts.length), v) ∧
      errOf w.contexts.length v = (.ret false, v) ∧ v.nodes = w.nodes ∧ v.redirects = w.redirects ∧ Drops w v := by
  have herr := errOf_opened (expect .healthy w) (Context.opened host port)
  exact ⟨_, rfl, herr, rfl, rfl, ⟨rfl, rfl, List.length_append⟩⟩

private theorem disconnectEach_eq (cons : List ConPtr) (w : World Handles) :
    disconnectEach handleFunctions cons w =
      (.ret (), w.setClient { w.client with log := w.client.log ++ cons.map .release }) := by
  induction cons generalizing w with
  | nil => simp [disconnectEach]; rfl
  | cons con rest ih =>
    have close : closeHandle con w = (.ret (), w.setClient { w.client with log := w.client.log ++ [.release con] }) := rfl
    show (closeHandle con >>= fun _ => disconnectEach handleFunctions rest) w = _
    rw [Code.bind_of_ret close, ih]
    simp [World.setClient]

private theorem disconnect_eq (w : World Handles) :
    (DefaultContainer.disconnect handleFunctions w).2 =
      ((w.setClient { w.client with log := w.client.log ++ (handles w).map .release }).setNodes .empty).setRedirects
        .empty := by
  unfold DefaultContainer.disconnect
  rw [Code.bind_of_ret (Code.get_apply w), Code.bind_of_ret (disconnectEach_eq _ w),
    Code.bind_of_ret (Code.modify_apply _ _), Code.bind_of_ret (Code.get_apply _),
    Code.bind_of_ret (disconnectEach_eq _ _), Code.modify_apply]
  simp [handles, World.setClient, World.setNodes, World.setRedirects, World.redirects, World.nodes]

private theorem handles_setNodes_insert (w : World Handles) (slots : SlotRange) (con : ConPtr)
    (h : w.nodes.lookup slots = none) :
    (handles (w.setNodes (w.nodes.insert slots con))).Perm (con :: handles w) := by
  have tables := (w.nodes.entries_insert_perm con h).map (·.2)
  exact tables.append_right _

private theorem handles_setRedirects_insert (w : World Handles) (key : Bytes) (con : ConPtr)
    (h : w.redirects.lookup key = none) :
    (handles (w.setRedirects (w.redirects.insert key con))).Perm (con :: handles w) := by
  have tables := (w.redirects.entries_insert_perm con h).map (·.2)
  exact (tables.append_left _).trans List.perm_middle

/-- A slot insert stores what it opens unless that has an error or the start of the range is taken. -/
private theorem insertSlots_effect (w : World Handles) (slots : SlotRange) (host : Bytes) (port : Int32)
    (result : ConnectResult) :
    let call := ContainerCall.insertSlots slots host port result
    (call.Stores w ∧ Effect w (perform w call)) ∨ (¬ call.Stores w ∧ Drops w (perform w call)) := by
  intro call
  have unfolded : perform w call =
      (DefaultContainer.insertSlots handleFunctions slots host port (expect result w)).2 := rfl
  unfold DefaultContainer.insertSlots at unfolded
  cases result with
  | null =>
    rw [Code.bind_of_ret (openHandle_null _ _ w)] at unfolded
    refine Or.inl ⟨⟨fun errstr hb => (by cases hb), fun hb => (by cases hb)⟩, ?_⟩
    rw [unfolded]
    exact .quiet rfl rfl rfl
  | broken errstr =>
    obtain ⟨v, hopen, herr, hdrops⟩ := openHandle_broken (cStr host) port w errstr
    rw [Code.bind_of_ret hopen] at unfolded
    dsimp only at unfolded
    rw [Code.bind_of_ret herr] at unfolded
    refine Or.inr ⟨fun h => h.1 errstr rfl, ?_⟩
    rw [unfolded]
    exact hdrops
  | healthy =>
    obtain ⟨v, hopen, herr, hnodes, -, hdrops⟩ := openHandle_healthy (cStr host) port w
    rw [Code.bind_of_ret hopen] at unfolded
    dsimp only at unfolded
    rw [Code.bind_of_ret herr] at unfolded
    cases hl : w.nodes.lookup slots with
    | none =>
      refine Or.inl ⟨⟨fun errstr hb => (by cases hb), fun _ => hl⟩, ?_⟩
      rw [unfolded]
      refine .stored hdrops.log ?_ hdrops.contexts
      rw [← hdrops.held]
      exact handles_setNodes_insert v slots _ (by rw [hnodes]; exact hl)
    | some con =>
      -- `std::map::insert` keeps the entry that is there
      refine Or.inr ⟨fun h => (by rw [h.2 rfl] at hl; cases hl), ?_⟩
      have kept : v.nodes.insert slots w.contexts.length = v.nodes := by
        rw [hnodes]
        exact OrderedMap.insert_of_lookup_some _ hl
      have same : perform w call = v.setNodes (v.nodes.insert slots w.contexts.length) := unfolded
      rw [same, kept]
      exact ⟨hdrops.log, hdrops.held, hdrops.contexts⟩

/-- A redirect insert stores what it opens unless that has an error. -/
private theorem insertHost_effect (w : World Handles) (host port : Bytes) (result : ConnectResult) :
    let call := ContainerCall.insertHost host port result
    (call.Stores w ∧ Effect w (perform w call)) ∨ (¬ call.Stores w ∧ Drops w (perform w call)) := by
  intro call
  have unfolded : perform w call =
      (DefaultContainer.insertHost handleFunctions host port (expect result w)).2 := rfl
  unfold DefaultContainer.insertHost at unfolded
  rw [Code.bind_of_ret (Code.get_apply _)] at unfolded
  have same : (expect result w).redirects = w.redirects := rfl
  rw [same] at unfolded
  cases hl : w.redirects.lookup (hostKey host port) with
  | some con =>
    rw [hl] at unfolded
    refine Or.inl ⟨fun _ _ => Or.inl (by rw [hl]; nofun), ?_⟩
    rw [unfolded]
    exact .quiet rfl rfl rfl
  | none =>
    rw [hl] at unfolded
    dsimp only at unfolded
    rcases stoi_cases port with ⟨n, hn⟩ | ⟨x, hx⟩
    · have hport : (Code.lift ((stoi port).mapThrows .std) : Lib Handles Int32) (expect result w) =
          (.ret n, expect result w) := by rw [hn]; rfl
      rw [Code.bind_of_ret hport] at unfolded
      cases result with
      | null =>
        rw [Code.bind_of_ret (openHandle_null _ _ w)] at unfolded
        refine Or.inl ⟨fun errstr hb => (by cases hb), ?_⟩
        rw [unfolded]
        exact .quiet rfl rfl rfl
      | broken errstr =>
        obtain ⟨v, hopen, herr, hdrops⟩ := openHandle_broken (cStr host) n w errstr
        rw [Code.bind_of_ret hopen] at unfolded
        dsimp only at unfolded
        rw [Code.bind_of_ret herr] at unfolded
        refine Or.inr ⟨fun h => ?_, ?_⟩
        · rcases h errstr rfl with h | ⟨e, he⟩
          · exact h hl
          · rw [hn] at he
            cases he
        · rw [unfolded]
          exact hdrops
      | healthy =>
        obtain ⟨v, hopen, herr, -, hred, hdrops⟩ := openHandle_healthy (cStr host) n w
        rw [Code.bind_of_ret hopen] at unfolded
        dsimp only at unfolded
        rw [Code.bind_of_ret herr] at unfolded
        refine Or.inl ⟨fun errstr hb => (by cases hb), ?_⟩
        rw [unfolded]
        refine .stored hdrops.log ?_ hdrops.contexts
        rw [← hdrops.held]
        exact handles_setRedirects_insert v _ _ (by rw [hred]; exact hl)
    · have hport : (Code.lift ((stoi port).mapThrows .std) : Lib Handles Int32) (expect result w) =
          (.throws (.std x), expect result w) := by rw [hx]; rfl
      rw [Code.bind_of_throws hport] at unfolded
      refine Or.inl ⟨fun _ _ => Or.inr ⟨x, hx⟩, ?_⟩
      rw [unfolded]
      exact .quiet rfl rfl rfl

private theorem destruct_effect (w : World Handles) : Effect w (destruct w) := by
  rw [destruct, disconnect_eq]
  exact .closed rfl rfl rfl

/-- Every call, by what it does to the connections. -/
private theorem perform_effect (w : World Handles) (call : ContainerCall) :
    (call.Stores w ∧ Effect w (perform w call)) ∨ (¬ call.Stores w ∧ Drops w (perform w call)) := by
  cases call with
  | insertSlots slots host port result => exact insertSlots_effect w slots host port result
  | insertHost host port result => exact insertHost_effect w host port result
  | getConnection index => exact Or.inl ⟨trivial, .quiet rfl rfl rfl⟩
  | releaseSlotConnection conn => exact Or.inl ⟨trivial, .quiet rfl rfl rfl⟩
  | releaseHostConnection conn => exact Or.inl ⟨trivial, .quiet rfl rfl rfl⟩
  | disconnect => exact Or.inl ⟨trivial, destruct_effect w⟩

/-! ### The account of a run -/

/-- A connection is opened once, under a number below the next one, and neither stored nor closed more often. -/
structure Tally (w : World Handles) : Prop where
  fresh : ∀ k, .acquire k ∈ w.client.log → k < w.contexts.length
  once : ∀ k, w.client.log.count (.acquire k) ≤ 1
  kept : ∀ k, w.client.log.count (.release k) + (handles w).count k ≤ w.client.log.count (.acquire k)

/-- Every connection that was opened is stored or closed. -/
def NothingLost (w : World Handles) : Prop :=
  ∀ k, w.client.log.count (.release k) + (handles w).count k = w.client.log.count (.acquire k)

private theorem count_acquire_concat (log : List (Holding ConPtr)) (n k : ConPtr) :
    (log ++ [Holding.acquire n]).count (Holding.acquire k) = log.count (.acquire k) + [n].count k := by
  rw [List.count_append]
  by_cases h : n = k
  · subst h; simp
  · simp [h]

private theorem count_release_concat (log : List (Holding ConPtr)) (n k : ConPtr) :
    (log ++ [Holding.acquire n]).count (Holding.release k) = log.count (.release k) := by
  rw [List.count_append]
  simp

/-- Closing a list of connections. -/
private theorem count_map_release (cons : List ConPtr) (k : ConPtr) :
    (cons.map Holding.release).count (.release k) = cons.count k ∧
      (cons.map Holding.release).count (.acquire k) = 0 := by
  constructor
  · exact List.count_map_of_injective cons Holding.release (fun a b h => by cases h; rfl) k
  · rw [List.count_eq_zero]
    simp

/-- A new connection was not opened before. -/
private theorem Tally.count_next {w : World Handles} (t : Tally w) :
    w.client.log.count (.acquire w.contexts.length) = 0 := by
  rw [List.count_eq_zero]
  intro h
  exact absurd (t.fresh _ h) (Nat.lt_irrefl _)

/-- Opening a connection keeps the account, whether it is stored or not. -/
private theorem Tally.opens {w w' : World Handles} (t : Tally w)
    (hlog : w'.client.log = w.client.log ++ [.acquire w.contexts.length])
    (hctx : w'.contexts.length = w.contexts.length + 1)
    (hheld : ∀ k, (handles w').count k ≤ (handles w).count k + [w.contexts.length].count k) : Tally w' := by
  refine ⟨?_, ?_, ?_⟩
  · intro k hk
    rw [hlog, List.mem_append] at hk
    rw [hctx]
    rcases hk with hk | hk
    · exact Nat.lt_succ_of_lt (t.fresh k hk)
    · cases List.mem_singleton.1 hk
      exact Nat.lt_succ_self _
  · intro k
    rw [hlog, count_acquire_concat]
    by_cases hk : w.contexts.length = k
    · subst hk
      rw [t.count_next]
      simp
    · have := t.once k
      simpa [hk] using this
  · intro k
    rw [hlog, count_acquire_concat, count_release_concat]
    have hkept := t.kept k
    have hnew := hheld k
    omega

private theorem Tally.step {w w' : World Handles} (t : Tally w) (h : Effect w w' ∨ Drops w w') : Tally w' := by
  rcases h with (⟨hlog, hheld, hctx⟩ | ⟨hlog, hheld, hctx⟩ | ⟨hlog, hheld, hctx⟩) | ⟨hlog, hheld, hctx⟩
  · refine ⟨?_, ?_, ?_⟩
    · rw [hlog, hctx]; exact t.fresh
    · rw [hlog]; exact t.once
    · rw [hlog, hheld]; exact t.kept
  · apply t.opens hlog hctx
    intro k
    rw [hheld.count_eq k, ← List.singleton_append, List.count_append]
    omega
  · refine ⟨?_, ?_, ?_⟩
    · rw [hlog, hctx]
      intro k hk
      apply t.fresh
      rcases List.mem_append.1 hk with hk | hk
      · exact hk
      · simp at hk
    · intro k
      rw [hlog, List.count_append, (count_map_release _ k).2]
      exact t.once k
    · intro k
      rw [hlog, hheld, List.count_append, List.count_append, (count_map_release _ k).1, (count_map_release _ k).2]
      exact t.kept k
  · apply t.opens hlog hctx
    intro k
    rw [hheld]
    omega

private theorem Tally.start {w : World Handles} (h : Constructed w) : Tally w := by
  obtain ⟨hn, hr, hlog⟩ := h
  have hheld : handles w = [] := by
    rw [handles, hn, hr]
    rfl
  refine ⟨?_, ?_, ?_⟩
  · rw [hlog]; nofun
  · rw [hlog]; intro k; simp
  · rw [hlog, hheld]; intro k; simp

/-- A call that stores what it opens loses nothing, and nothing that was lost is found again. -/
private theorem nothingLost_step {w w' : World Handles} (h : Effect w w') : NothingLost w' ↔ NothingLost w := by
  apply forall_congr'
  intro k
  rcases h with ⟨hlog, hheld, hctx⟩ | ⟨hlog, hheld, hctx⟩ | ⟨hlog, hheld, hctx⟩
  · rw [hlog, hheld]
  · rw [hlog, hheld.count_eq k, count_acquire_concat, count_release_concat, ← List.singleton_append, List.count_append]
    omega
  · rw [hlog, hheld, List.count_append, List.count_append, (count_map_release _ k).1, (count_map_release _ k).2]
    simp

/-- A connection that is opened and dropped is lost. -/
private theorem Drops.lost {w w' : World Handles} (t : Tally w) (h : Drops w w') : ¬ NothingLost w' := by
  intro hall
  have hk := hall w.contexts.length
  have hkept := t.kept w.contexts.length
  rw [h.log, h.held, count_acquire_concat, count_release_concat] at hk
  simp at hk
  omega

/-- After the destructor every connection is accounted for exactly when none was lost before. -/
private theorem destruct_closed_iff {w : World Handles} (t : Tally w) :
    (∀ k, (destruct w).client.log.count (.release k) = if .acquire k ∈ (destruct w).client.log then 1 else 0) ↔
      NothingLost w := by
  have t' := t.step (Or.inl (destruct_effect w))
  rw [← nothingLost_step (destruct_effect w)]
  have hheld : handles (destruct w) = [] := by
    rw [destruct, disconnect_eq]
    rfl
  apply forall_congr'
  intro k
  have opened : (if .acquire k ∈ (destruct w).client.log then 1 else 0) =
      (destruct w).client.log.count (.acquire k) := by
    have honce := t'.once k
    split
    · rename_i hmem
      have hpos := List.count_pos_iff.2 hmem
      omega
    · rename_i hmem
      exact (List.count_eq_zero.2 hmem).symm
  rw [opened, hheld, List.count_nil, Nat.add_zero]

private theorem emptied_disconnect (w : World Handles) : Emptied (destruct w) := by
  rw [destruct, disconnect_eq]
  exact ⟨rfl, rfl⟩

/-- At the end of a run every connection is closed exactly when each call of the run stored what it opened. -/
theorem closesAll_iff {w : World Handles} {hist : List (World Handles × ContainerCall)} (r : ContainerRun w hist) :
    ClosesAll hist w ↔ ∀ p ∈ hist, p.2.Stores p.1 := by
  have tally : ∀ w hist, ContainerRun w hist → Tally w := by
    intro w hist r
    refine Run.invariant (fun w => Tally.start) ?_ r
    rintro w call w' t rfl
    exact t.step ((perform_effect w call).imp And.right And.right)
  have lost : NothingLost w ↔ ∀ p ∈ hist, p.2.Stores p.1 := by
    refine Run.iff_forall (C := fun w call => call.Stores w) tally ?_ ?_ r
    · rintro w ⟨hn, hr, hlog⟩ k
      rw [hlog, handles, hn, hr]
      rfl
    · rintro w call w' t rfl
      rcases perform_effect w call with ⟨hs, he⟩ | ⟨hs, hd⟩
      · rw [nothingLost_step he]
        exact ⟨fun h => ⟨h, hs⟩, And.left⟩
      · exact iff_of_false (hd.lost t) fun h => hs h.2
  have t := tally w hist r
  rw [← lost, ← destruct_closed_iff t]
  constructor
  · intro h
    exact h.closed
  · intro h
    refine ⟨h, ?_, emptied_disconnect w⟩
    rintro ⟨v, call⟩ - rfl
    exact emptied_disconnect v

/-- A container that has opened nothing yet. -/
def constructed : World Handles :=
  { cluster :=
      { connections_ := { connections_ := .empty, nodes_ := .empty }
        userMovedFn_ := false, readytouse_ := true, moved_ := false }
    contexts := [], replies := 0, freed := [], client := { next := .healthy, log := [] } }

private theorem constructed_run (calls : List ContainerCall) :
    ContainerRun (after perform constructed calls) (trail perform constructed calls) :=
  Run.follow (.start ⟨rfl, rfl, rfl⟩) calls fun _ _ => rfl

/-- Two ranges, a redirection that does not connect, a reconnect and the destructor. -/
theorem closesAll_reconnect :
    let calls : List ContainerCall := [.insertSlots (0, 8191) (text "10.0.0.1") 7000 .healthy,
      .insertSlots (8192, 16383) (text "10.0.0.2") 7000 .healthy,
      .insertHost (text "10.0.0.3") (text "7000") .null, .disconnect,
      .insertHost (text "10.0.0.3") (text "7000") .healthy]
    ClosesAll (trail perform constructed calls) (after perform constructed calls) := by
  intro calls
  refine (closesAll_iff (constructed_run calls)).2 ?_
  simp only [calls, trail, List.forall_mem_cons]
  have healthy : ∀ errstr, ConnectResult.healthy ≠ .broken errstr := fun _ h => by cases h
  have null : ∀ errstr, ConnectResult.null ≠ .broken errstr := fun _ h => by cases h
  refine ⟨⟨healthy, fun _ => rfl⟩, ⟨healthy, fun _ => ?_⟩,
    fun errstr h => absurd h (null errstr), trivial, fun errstr h => absurd h (healthy errstr),
    fun p hp => absurd hp List.not_mem_nil⟩
  decide

/-- The second connection for a range is neither stored nor closed. -/
theorem not_closesAll_duplicate :
    let calls : List ContainerCall := [.insertSlots (0, 16383) (text "10.0.0.1") 7000 .healthy,
      .insertSlots (0, 16383) (text "10.0.0.2") 7000 .healthy]
    ContainerRun (after perform constructed calls) (trail perform constructed calls) ∧
      ¬ ClosesAll (trail perform constructed calls) (after perform constructed calls) := by
  intro calls
  refine ⟨constructed_run calls, fun h => ?_⟩
  have never := h.closed 1
  exact absurd never (by decide)

end DefaultContainer

end HiredisCluster
