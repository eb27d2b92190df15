import HiredisCluster.AsyncFrame

/-!
# Connections whose disconnect callback has fired

When a connection ends, hiredis calls `disconnectCb` and frees the context.  The template `deleteConnection` takes the
maps by value, so the tables stay as they are: they lose the entries of the connection exactly when there are none, and a
client keeps to living connections in the runs in which only connections end that are stored nowhere
(`tablesCleared_iff`).
-/

namespace HiredisCluster

open Cxx AsyncHiredisCommand

/-- The disconnect callback of the connection has fired. -/
def World.Dead (w : AsyncWorld) (con : ConPtr) : Prop := ∃ ctx, w.contexts[con]? = some ctx ∧ ctx.disconnected = true

/-- hiredis ends the requests on a connection: their callbacks get a null reply. -/
def endRequests (con : ConPtr) : List Request → Async Unit
  | [] => pure ()
  | req :: rest => do
    Code.modify fun w => w.updClient fun c => { c with pending := c.pending.eraseP (·.con = con) }
    req.callback.run con .null req.data
    endRequests con rest

/-- What happens to an asynchronous cluster. -/
inductive Occurrence where
  | stimulus (e : Stimulus)
  | insertSlots (slots : SlotRange) (host : Bytes) (port : Int32) (choices : Choices)
  | insertHost (host port : Bytes) (choices : Choices)
  | disconnected (con : ConPtr)

namespace Occurrence

/-- The application catches what the insertions throw. -/
def exec : Occurrence → Async Unit
  | stimulus e => e.exec
  | insertSlots slots host port choices => do
    Code.modify fun w => w.choose choices
    let _ ← Code.attempt some (DefaultContainer.insertSlots functions slots host port)
    pure ()
  | insertHost host port choices => do
    Code.modify fun w => w.choose choices
    let _ ← Code.attempt some (DefaultContainer.insertHost functions host port)
    pure ()
  | disconnected con => do
    let _ ← context con
    let w ← Code.get
    endRequests con (w.client.pending.filter (·.con = con))
    disconnectCb con
    Code.modify fun w => { w with contexts := w.contexts.modify con fun x => { x with disconnected := true } }

end Occurrence

/-- The data of the connect function is there and knows its cluster. -/
def Attached (w : AsyncWorld) : Prop := w.client.data_.freed = false ∧ w.client.data_.pcluster = true

/-- Runs in which connections may end. -/
abbrev OccurrenceRun :=
  Run (fun w : AsyncWorld => Initial w ∧ w.client.data_.pcluster = true) fun w x w' => Occurrence.exec x w = (.ret (), w')

/-- `disconnectCb` takes exactly the entries of the connection out of both tables. -/
def TablesCleared (w : AsyncWorld) (con : ConPtr) : Prop :=
  ∃ w', disconnectCb con w = (.ret (), w') ∧ w'.nodes.entries = w.nodes.entries.filter (·.2 ≠ con) ∧
    w'.redirects.entries = w.redirects.entries.filter (·.2 ≠ con)

/-- Neither `getConnection` nor `createNewConnection` returns a connection whose disconnect callback has fired. -/
def ReturnsLiving (w : AsyncWorld) : Prop :=
  (∀ key conn, (Cluster.getConnection key w).1 = .ret conn → ¬ w.Dead conn.2) ∧
    ∀ choices host port key c w', Cluster.createNewConnection functions host port (w.choose choices) =
      (.ret (key, some c), w') → ¬ w'.Dead c

/-- If a connection ends, then it is stored in neither table. -/
def EndsUnstored (w : AsyncWorld) : Occurrence → Prop
  | .disconnected con => ¬ w.Stored con
  | _ => True

/-! ### The connect data stays -/

section unaffected

variable {I : AsyncWorld → Prop} (hI : Unaffected (fun _ => True) (fun _ => True) True I) (con : ConPtr)

include hI

private theorem Unaffected.endRequests (reqs : List Request) : Code.Preserves I (endRequests con reqs) := by
  induction reqs with
  | nil => exact .pure _ _
  | cons req rest ih =>
    exact .bind (hI.modify (fun _ => ⟨rfl, rfl, id, fun hk => hk.eraseP _⟩) fun _ => rfl) fun _ =>
      .bind (hI.callback _ _ _ _) fun _ => ih

theorem Unaffected.disconnectCb : Code.Preserves I (disconnectCb con) := by
  refine .bind (.get _) fun w => ?_
  split
  · exact .undefined _
  · refine .bind (hI.modify (fun _ => ⟨rfl, rfl, id, id⟩) fun _ => rfl) fun _ => ?_
    split
    · exact .bind (.get _) fun _ => .pure _ _
    · exact .undefined _

theorem Unaffected.occurrence (x : Occurrence) : Code.Preserves I x.exec := by
  cases x with
  | stimulus e => exact hI.stimulus e
  | insertSlots slots host port ch =>
    exact .bind (hI.modify (fun _ => ⟨rfl, rfl, id, id⟩) fun _ => rfl) fun _ =>
      .bind (.attempt _ (hI.insertSlots slots host port)) fun _ => .pure _ _
  | insertHost host port ch =>
    exact .bind (hI.modify (fun _ => ⟨rfl, rfl, id, id⟩) fun _ => rfl) fun _ =>
      .bind (.attempt _ (hI.insertHost host port)) fun _ => .pure _ _
  | disconnected con =>
    exact .bind (context con) fun _ => .bind (.get _) fun _ => .bind (hI.endRequests con _) fun _ =>
      .bind (hI.disconnectCb con) fun _ => hI.modify (fun _ => ⟨rfl, rfl, id, id⟩) fun _ => rfl

end unaffected

theorem attached_of_run {w : AsyncWorld} {hist : List (AsyncWorld × Occurrence)} (r : OccurrenceRun w hist) :
    Attached w := by
  refine Run.invariant (fun w h => ⟨h.1.data, h.2⟩) (fun w x w' h hs => ?_) r
  have hkeeps := (Keeps.unaffected w).occurrence x w (Keeps.refl w)
  rw [hs] at hkeeps
  exact ⟨hkeeps.freed.trans h.1, hkeeps.pcluster.trans h.2⟩

/-! ### `disconnectCb` -/

theorem disconnectCb_eq {w : AsyncWorld} (h : Attached w) (con : ConPtr) :
    disconnectCb con w = (.ret (), w.updClient fun c =>
      { c with data_ := { c.data_ with lifetime := c.data_.lifetime - 1 } }) := by
  unfold disconnectCb
  rw [Code.bind_of_ret (Code.get_apply w), if_neg (by rw [h.1]; decide)]
  refine (Code.bind_of_ret (Code.modify_apply _ w) _).trans ?_
  rw [if_pos h.2]
  rfl

/-- The tables keep their entries, so they are right exactly when the connection was not stored. -/
private theorem tablesCleared_iff_unstored {w : AsyncWorld} (h : Attached w) (con : ConPtr) :
    TablesCleared w con ↔ ¬ w.Stored con := by
  have hall {κ : Type} (l : List (κ × ConPtr)) : l = l.filter (·.2 ≠ con) ↔ ∀ e ∈ l, e.2 ≠ con := by
    rw [eq_comm, List.filter_eq_self]
    simp
  have hstored : ¬ w.Stored con ↔ (∀ e ∈ w.nodes.entries, e.2 ≠ con) ∧ ∀ e ∈ w.redirects.entries, e.2 ≠ con := by
    simp only [World.Stored, not_or, not_exists, not_and]
  rw [hstored, ← hall, ← hall]
  constructor
  · rintro ⟨w', hrun, hnodes, hredirects⟩
    rw [disconnectCb_eq h con] at hrun
    cases hrun
    exact ⟨hnodes, hredirects⟩
  · rintro ⟨hnodes, hredirects⟩
    exact ⟨_, disconnectCb_eq h con, hnodes, hredirects⟩

/-! ### Runs in which only unstored connections end -/

namespace Sound

variable {w v : AsyncWorld}

private theorem setNodes (h : Sound w) {m : ClusterNodes} (hm : ∀ e ∈ m.entries, w.Open e.2) : Sound
    (w.setNodes m) := by
  refine ⟨h.data, ?_, h.injective, h.freed, h.objects, h.pending, h.nodup⟩
  rintro c (⟨e, he, rfl⟩ | hc)
  · exact hm e he
  · exact h.stored c (Or.inr hc)

/-- hiredis frees a connection that is not stored and has no requests. -/
private theorem ends (h : Sound w) {con : ConPtr} (hstored : ¬ w.Stored con)
    (hidle : ∀ q ∈ w.client.pending, q.con ≠ con) :
    Sound { w with contexts := w.contexts.modify con fun x => { x with disconnected := true } } := by
  have hopen {c : ConPtr} (hne : c ≠ con) (hc : w.Open c) :
      World.Open { w with contexts := w.contexts.modify con fun x => { x with disconnected := true } } c := by
    obtain ⟨ctx, hctx, hdis⟩ := hc
    refine ⟨ctx, ?_, hdis⟩
    show (w.contexts.modify con _)[c]? = _
    rw [List.getElem?_modify, hctx]
    simp [hne.symm]
  refine ⟨h.data, fun c hc => ?_, h.injective, h.freed, h.objects, fun req hreq => ?_, h.nodup⟩
  · exact hopen (fun heq => hstored (heq ▸ hc)) (h.stored c hc)
  · obtain ⟨hreqopen, hobj⟩ := h.pending req hreq
    exact ⟨hopen (hidle req hreq) hreqopen, hobj⟩

private theorem lifetime (h : Sound w) (n : Int) :
    Sound (w.updClient fun c => { c with data_ := { c.data_ with lifetime := n } }) :=
  ⟨h.data, h.stored, h.injective, h.freed, h.objects, h.pending, h.nodup⟩

private theorem insertHost (h : Sound w) (host port : Bytes) :
    Sound (DefaultContainer.insertHost functions host port w).2 := by
  show Sound (Cluster.createNewConnection functions host port w).2
  rcases createNewConnection_cases h.data host port with ⟨c, -, hrun⟩ | ⟨e, -, hrun⟩ | ⟨hl, -, ⟨-, v, hv, hr, hrun⟩ |
    ⟨-, v, hv, hlt, hr, hrun⟩⟩
  · rw [hrun]
    exact h
  · rw [hrun]
    exact h
  · rw [hrun]
    exact h.dialled hv (Or.inl hr)
  · rw [hrun]
    exact h.dialled hv (Or.inr ⟨_, hl, hr, hv.isOpen_new hlt⟩)

private theorem insertSlots (h : Sound w) (slots : SlotRange) (host : Bytes) (port : Int32) :
    Sound (DefaultContainer.insertSlots functions slots host port w).2 := by
  unfold DefaultContainer.insertSlots
  rcases connect_cases h.data (cStr host) port with ⟨-, v, hv, hr, hrun⟩ | ⟨-, v, hv, hr, hctx, hrun⟩
  · rw [Code.bind_of_throws (show callConnect functions (cStr host) port w = _ from hrun)]
    exact h.dialled hv (Or.inl hr)
  · have hnew : v.contexts[w.contexts.length]? = some (Context.opened (cStr host) port) := by rw [hctx]; simp
    have hsound := h.dialled hv (Or.inl hr)
    rw [Code.bind_of_ret (show callConnect functions (cStr host) port w = _ from hrun)]
    dsimp only
    rw [Code.bind_of_ret (errOf_eq hnew)]
    refine hsound.setNodes fun e he => ?_
    rcases OrderedMap.mem_insertEntry he with rfl | he
    · exact ⟨_, hnew, rfl⟩
    · exact hsound.stored _ (Or.inl ⟨e, he, rfl⟩)

end Sound

/-- No callback survives a null reply. -/
theorem callback_null (callback : Callback) (con : ConPtr) (that : ObjPtr) (w : AsyncWorld) :
    callback.run con .null that w = (.undefined, w) := by
  have hcheck : checkCritical (m := Code AsyncWorld Exn) .null false false [] none w = (.undefined, w) := rfl
  cases callback with
  | processCommandReply =>
    exact Code.bind_of_undefined (Code.attempt_undefined (Code.bind_of_undefined hcheck _)) _
  | runRedisCallback => exact Code.bind_of_undefined (Code.attempt_undefined (Code.bind_of_undefined hcheck _)) _

/-- The end of a connection on which a request is outstanding is undefined. -/
theorem disconnected_busy {w : AsyncWorld} {con : ConPtr} (hbusy : ∃ q ∈ w.client.pending, q.con = con) :
    ((Occurrence.disconnected con).exec w).1 = .undefined := by
  by_cases hopen : w.Open con
  · obtain ⟨ctx, hctx⟩ := context_open hopen
    obtain ⟨q, hq, hcon⟩ := hbusy
    have hmem : q ∈ w.client.pending.filter (·.con = con) := List.mem_filter.2 ⟨hq, decide_eq_true hcon⟩
    obtain ⟨req, rest, hpending⟩ := List.exists_cons_of_ne_nil (List.ne_nil_of_mem hmem)
    have hend : ∃ v, endRequests con (w.client.pending.filter (·.con = con)) w = (.undefined, v) := by
      rw [hpending]
      exact ⟨_, (Code.bind_of_ret (Code.modify_apply _ w) _).trans (Code.bind_of_undefined (callback_null ..) _)⟩
    obtain ⟨v, hv⟩ := hend
    have hrun : (Occurrence.disconnected con).exec w = (.undefined, v) :=
      (Code.bind_of_ret hctx _).trans ((Code.bind_of_ret (Code.get_apply w) _).trans (Code.bind_of_undefined hv _))
    rw [hrun]
  · exact congrArg Prod.fst (Code.bind_of_undefined (context_closed hopen) _)

/-- A connection without requests ends with its disconnect callback. -/
theorem disconnected_idle {w : AsyncWorld} (h : Attached w) {con : ConPtr} (hopen : w.Open con)
    (hidle : ∀ q ∈ w.client.pending, q.con ≠ con) :
    ∃ v, disconnectCb con w = (.ret (), v) ∧ (Occurrence.disconnected con).exec w =
      (.ret (), { v with contexts := v.contexts.modify con fun x => { x with disconnected := true } }) := by
  obtain ⟨ctx, hctx⟩ := context_open hopen
  have hpending : w.client.pending.filter (·.con = con) = [] :=
    List.filter_eq_nil_iff.2 fun q hq => by simpa using hidle q hq
  have hend : endRequests con (w.client.pending.filter (·.con = con)) w = (.ret (), w) := by
    rw [hpending]
    rfl
  refine ⟨_, disconnectCb_eq h con, ?_⟩
  exact (Code.bind_of_ret hctx _).trans ((Code.bind_of_ret (Code.get_apply w) _).trans
    ((Code.bind_of_ret hend _).trans (Code.bind_of_ret (disconnectCb_eq h con) _)))

/-- A connection only ends without undefined behaviour when no request is outstanding on it. -/
private theorem disconnected_step {w w' : AsyncWorld} (h : Attached w) {con : ConPtr}
    (hs : (Occurrence.disconnected con).exec w = (.ret (), w')) :
    (∀ q ∈ w.client.pending, q.con ≠ con) ∧ ∃ v, disconnectCb con w = (.ret (), v) ∧
      w' = { v with contexts := v.contexts.modify con fun x => { x with disconnected := true } } := by
  have hidle : ∀ q ∈ w.client.pending, q.con ≠ con := by
    intro q hq hcon
    have hundef := disconnected_busy ⟨q, hq, hcon⟩
    rw [hs] at hundef
    cases hundef
  have hopen : w.Open con := by
    by_contra hclosed
    cases (Code.bind_of_undefined (context_closed hclosed) _).symm.trans hs
  obtain ⟨v, hv, hrun⟩ := disconnected_idle h hopen hidle
  refine ⟨hidle, v, hv, ?_⟩
  cases hrun.symm.trans hs
  rfl

private theorem sound_occurrence {w w' : AsyncWorld} {x : Occurrence} (ha : Attached w) (h : Sound w)
    (hc : EndsUnstored w x) (hs : x.exec w = (.ret (), w')) : Sound w' := by
  have hcaught {α : Type} (m : Async α) (v : AsyncWorld) (hrun : (Code.attempt some m >>= fun _ => pure ()) v =
      (.ret (), w')) (hm : Sound (m v).2) : Sound w' := by
    rw [show w' = _ from (congrArg Prod.snd hrun).symm]
    rw [← Code.attempt_snd some] at hm
    exact Code.Preserves.after hm fun _ => .pure Sound _
  cases x with
  | stimulus e => exact step_sound h hs
  | insertSlots slots host port ch => exact hcaught _ _ hs ((h.choose ch).insertSlots slots host port)
  | insertHost host port ch => exact hcaught _ _ hs ((h.choose ch).insertHost host port)
  | disconnected con =>
    obtain ⟨hidle, v, hv, rfl⟩ := disconnected_step ha hs
    rw [disconnectCb_eq ha con] at hv
    cases hv
    exact (h.lifetime _).ends hc hidle

private theorem returnsLiving_of_sound {w : AsyncWorld} (h : Sound w) : ReturnsLiving w := by
  have hliving {v : AsyncWorld} {c : ConPtr} (hc : v.Open c) : ¬ v.Dead c := by
    rintro ⟨ctx, hctx, hdead⟩
    obtain ⟨ctx', hctx', hdis⟩ := hc
    rw [hctx] at hctx'
    cases hctx'
    rw [hdis] at hdead
    cases hdead
  constructor
  · intro key conn hget
    obtain ⟨o, hrun, hmem, -⟩ := Cluster.getConnection_cases key w
    rw [hrun] at hget
    exact hliving (h.stored _ (Or.inl ⟨conn, hmem conn hget, rfl⟩))
  · intro ch host port key c w' hrun
    have hsound := (h.choose ch).insertHost host port
    have hstored : w'.Stored c := by
      rcases createNewConnection_cases (w := w.choose ch) h.data host port with ⟨c', hl, hrun'⟩ | ⟨e, -, hrun'⟩ |
        ⟨hl, -, ⟨-, v, -, -, hrun'⟩ | ⟨-, v, -, -, hr, hrun'⟩⟩
      · cases hrun'.symm.trans hrun
        obtain ⟨e, he, -, hec⟩ := (OrderedMap.lookup_eq_some_iff _ _ _).1 hl
        exact Or.inr ⟨e, he, hec⟩
      · cases hrun'.symm.trans hrun
      · cases hrun'.symm.trans hrun
      · cases hrun'.symm.trans hrun
        have hin := OrderedMap.lookup_insert_self (w.choose ch).redirects (w.choose ch).contexts.length hl
        rw [← hr] at hin
        obtain ⟨e, he, -, hec⟩ := (OrderedMap.lookup_eq_some_iff _ _ _).1 hin
        exact Or.inr ⟨e, he, hec⟩
    have hw' : w' = (DefaultContainer.insertHost functions host port (w.choose ch)).2 := (congrArg Prod.snd hrun).symm
    rw [hw'] at hstored ⊢
    exact hliving (hsound.stored c hstored)

/-- In every reachable state `disconnectCb` takes the entries of a connection out of the tables exactly when there are
none; and no connection that has ended is returned in the runs in which only connections end that are not stored. -/
theorem tablesCleared_iff {w : AsyncWorld} {hist : List (AsyncWorld × Occurrence)} (r : OccurrenceRun w hist) :
    (∀ con, TablesCleared w con ↔ ¬ w.Stored con) ∧ ((∀ p ∈ hist, EndsUnstored p.1 p.2) → ReturnsLiving w) := by
  refine ⟨tablesCleared_iff_unstored (attached_of_run r), fun hc => returnsLiving_of_sound ?_⟩
  exact Run.invariant_of (fun w hist r => attached_of_run r) (fun w h => h.1.sound)
    (fun w x w' ha h hc hs => sound_occurrence ha h hc hs) r hc

/-- The only connection of a cluster ends: its entry stays in the slot table, and `getConnection` still returns it. -/
theorem not_tablesCleared : (∃ w hist con, OccurrenceRun w hist ∧ ¬ TablesCleared w con) ∧
    ∃ w hist, OccurrenceRun w hist ∧ ¬ ReturnsLiving w := by
  have hstart : OccurrenceRun oneNode [] := .start ⟨oneNode_initial, rfl⟩
  have hstep : (Occurrence.disconnected 0).exec oneNode = (.ret (), ((Occurrence.disconnected 0).exec oneNode).2) :=
    Prod.ext (by decide +kernel) rfl
  have hstored : oneNode.Stored 0 := Or.inl ⟨((0, 16383), 0), List.mem_singleton.2 rfl, rfl⟩
  refine ⟨⟨_, _, 0, hstart, fun h => ?_⟩, _, _, hstart.next hstep, fun h => ?_⟩
  · exact (tablesCleared_iff_unstored ⟨rfl, rfl⟩ 0).1 h hstored
  · have hget : (Cluster.getConnection (text "k") ((Occurrence.disconnected 0).exec oneNode).2).1 =
        .ret ((0, 16383), 0) := by decide +kernel
    have hdead : (((Occurrence.disconnected 0).exec oneNode).2.contexts[0]?).map Context.disconnected = some true := by
      decide +kernel
    obtain ⟨ctx, hctx, hdis⟩ := Option.map_eq_some_iff.1 hdead
    exact h.1 _ _ hget ⟨ctx, hctx, hdis⟩

/-- A connection for a range whose start is taken is not stored, so it may end. -/
theorem tablesCleared_iff_unused :
    let w := ((Occurrence.disconnected 1).exec
      ((Occurrence.insertSlots (0, 100) (text "10.0.0.2") 7001 calm).exec oneNode).2).2
    (∀ con, TablesCleared w con ↔ ¬ w.Stored con) ∧ ReturnsLiving w := by
  have hstart : OccurrenceRun oneNode [] := .start ⟨oneNode_initial, rfl⟩
  have hinsert : (Occurrence.insertSlots (0, 100) (text "10.0.0.2") 7001 calm).exec oneNode =
      (.ret (), ((Occurrence.insertSlots (0, 100) (text "10.0.0.2") 7001 calm).exec oneNode).2) :=
    Prod.ext (by decide +kernel) rfl
  have hend : (Occurrence.disconnected 1).exec
      ((Occurrence.insertSlots (0, 100) (text "10.0.0.2") 7001 calm).exec oneNode).2 = (.ret (), _) :=
    Prod.ext (show _ = Outcome.ret () by decide +kernel) rfl
  have hrun := tablesCleared_iff ((hstart.next hinsert).next hend)
  refine ⟨hrun.1, hrun.2 ?_⟩
  simp only [List.nil_append, List.cons_append, List.mem_cons, List.not_mem_nil, or_false, forall_eq_or_imp, forall_eq]
  refine ⟨trivial, ?_⟩
  have hnodes : ∀ e ∈ ((Occurrence.insertSlots (0, 100) (text "10.0.0.2") 7001 calm).exec oneNode).2.nodes.entries,
      e.2 ≠ 1 := by decide +kernel
  have hredirects :
      ((Occurrence.insertSlots (0, 100) (text "10.0.0.2") 7001 calm).exec oneNode).2.redirects.entries = [] := by
    decide +kernel
  rintro (⟨e, he, hcon⟩ | ⟨e, he, -⟩)
  · exact hnodes e he hcon
  · rw [hredirects] at he
    cases he

end HiredisCluster
