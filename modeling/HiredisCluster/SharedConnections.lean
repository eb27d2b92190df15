import HiredisCluster.AsyncRun

/-!
# Connections that commands share

A connection made for a redirection is cached for all commands, and each command that was redirected keeps it in `con_`
too.  The destructor disconnects `con_` and leaves the cache as it is, so the stored connections accept commands
exactly as long as no command is deleted that has a connection (`serving_iff`).
-/

namespace HiredisCluster

open Cxx AsyncHiredisCommand

/-- No disconnect was issued on a connection of the slot table or the redirect cache. -/
def Serving (w : AsyncWorld) : Prop :=
  ∀ c, w.Stored c → ∀ ctx, w.contexts[c]? = some ctx → ctx.disconnecting = false

/-- The callback ends with the deletion of the object. -/
def World.Deletes (w : AsyncWorld) (con : ConPtr) (obj : AsyncHiredisCommand) (att : Attempt) : Prop :=
  ¬ w.Survives con obj att ∧ (w.client.choices.subscribed = true → att ≠ .ready ∧ w.WantsRetry obj)

/-- If the step deletes a command, then the command was never redirected: it has no connection of its own and gets none
in its last callback. -/
def SparesShared (w : AsyncWorld) : Stimulus → Prop
  | .reply con r ch => ∀ req obj, w.oldest con = some req → w.Holds req.data obj →
      (w.fire req r ch).Deletes con obj ((w.fire req r ch).attemptOf req obj r) →
        obj.con_.2 = none ∧ ((w.fire req r ch).attemptOf req obj r).target = none
  | _ => True

section settle

variable {w v u : AsyncWorld} {that : ObjPtr} {obj obj' : AsyncHiredisCommand} {target : Option ConPtr} {con : ConPtr}
  {reply : RedisReply} {att : Attempt}

/-- Nothing that `Serving` speaks of has changed. -/
private theorem serving_of_eq (hn : u.nodes = v.nodes) (hr : u.redirects = v.redirects) (hc : u.contexts = v.contexts) :
    Serving u ↔ Serving v := by
  unfold Serving World.Stored
  rw [hn, hr, hc]

private theorem Linked.deletes_iff (h : Linked that obj obj' target w v) :
    v.Deletes con obj' att ↔ w.Deletes con obj att := by
  obtain ⟨moves, connects, lifetime, hcl⟩ := h.client_eq
  unfold World.Deletes
  rw [h.survives_iff, h.wantsRetry_iff, hcl]

/-- The object has no connection in the end when it had none and got none. -/
private theorem Linked.con_eq_none_iff (h : Linked that obj obj' target w v) :
    obj'.con_.2 = none ↔ obj.con_.2 = none ∧ target = none := by
  rcases h.link with ⟨rfl, -, ht⟩ | ⟨-, key, c, ht, rfl, -⟩
  · refine ⟨fun hnone => ⟨hnone, ?_⟩, And.left⟩
    cases target with
    | none => rfl
    | some c => rw [ht c rfl] at hnone; cases hnone
  · simp [ht]

/-- A connection that the object gets is stored and was not disconnected. -/
private theorem Linked.keeps_serving (h : Linked that obj obj' target w v) (hs : Sound w) : Serving v ↔ Serving w := by
  have hcases := h.redirects_cases
  obtain ⟨⟨moves, x, hx, rfl⟩, -⟩ := h
  obtain ⟨more, hmore, hfresh⟩ : ∃ more, x.contexts = w.contexts ++ more ∧
      ∀ y ∈ more, y.disconnecting = false ∧ y.disconnected = false := hx.contexts
  have hnodes : (x.updClient fun c => { c with objects := c.objects.set that obj' }).nodes = w.nodes := hx.nodes
  have hold {c : ConPtr} (hc : c < w.contexts.length) : x.contexts[c]? = w.contexts[c]? := by
    rw [hmore, List.getElem?_append_left hc]
  have hstored {c : ConPtr} (hc : w.Stored c) : x.Stored c := by
    rcases hc with hc | ⟨e, he, rfl⟩
    · exact Or.inl (hx.nodes ▸ hc)
    · refine Or.inr ⟨e, ?_, rfl⟩
      rcases hcases with hr | ⟨key, -, hr, -⟩
      · exact hr ▸ he
      · replace hr : x.redirects = w.redirects.insert key w.contexts.length := hr
        rw [hr]
        exact OrderedMap.subset_insertEntry he
  constructor
  · intro hv c hc ctx hctx
    have hlt := hs.stored_lt hc
    exact hv c (hstored hc) ctx ((hold hlt).trans hctx)
  · intro hw c hc ctx hctx
    replace hctx : x.contexts[c]? = some ctx := hctx
    by_cases hlt : c < w.contexts.length
    · have hcw : w.Stored c := by
        rcases hc with hc | ⟨e, he, rfl⟩
        · exact Or.inl (hnodes ▸ hc)
        · rcases hcases with hr | ⟨key, -, hr, -⟩
          · exact Or.inr ⟨e, hr ▸ he, rfl⟩
          · rw [hr] at he
            rcases OrderedMap.mem_insertEntry he with rfl | he
            · exact absurd hlt (Nat.lt_irrefl _)
            · exact Or.inr ⟨e, he, rfl⟩
      exact hw c hcw ctx ((hold hlt).symm.trans hctx)
    · rw [hmore, List.getElem?_append_right (Nat.le_of_not_lt hlt)] at hctx
      exact (hfresh ctx (List.mem_of_getElem? hctx)).1

/-- Deleting an object with a cached connection leaves a stored connection that refuses commands. -/
private theorem serving_kill_iff (hcached : ∀ c, obj.con_.2 = some c → w.redirects.lookup obj.con_.1 = some c)
    (hopen : ∀ c, obj.con_.2 = some c → w.Open c) :
    Serving (w.kill that obj) ↔ Serving w ∧ obj.con_.2 = none := by
  cases hc : obj.con_.2 with
  | none =>
    have hcontexts : (w.kill that obj).contexts = w.contexts := by
      unfold World.kill
      rw [hc]
      rfl
    rw [serving_of_eq Sound.nodes_kill Sound.redirects_kill hcontexts]
    exact (and_iff_left rfl).symm
  | some c =>
    obtain ⟨ctx, hctx, -⟩ := hopen c hc
    obtain ⟨e, he, -, hec⟩ := (OrderedMap.lookup_eq_some_iff _ _ _).1 (hcached c hc)
    have hmarked : (w.kill that obj).contexts[c]? = some { ctx with disconnecting := true } := by
      unfold World.kill
      rw [hc]
      show (w.contexts.modify c _)[c]? = _
      rw [List.getElem?_modify, hctx]
      simp
    have hstored : (w.kill that obj).Stored c := Or.inr ⟨e, by rw [Sound.redirects_kill]; exact he, hec⟩
    constructor
    · intro h
      have := h c hstored _ hmarked
      cases this
    · rintro ⟨-, h⟩
      cases h

private theorem Settles.serving_iff_spares (h : Settles that obj con reply att v u)
    (hcached : ∀ c, obj.con_.2 = some c → v.redirects.lookup obj.con_.1 = some c)
    (hopen : ∀ c, obj.con_.2 = some c → v.Open c) :
    Serving u ↔ Serving v ∧ (v.Deletes con obj att → obj.con_.2 = none) := by
  have hkeeps (hno : ¬ v.Deletes con obj att) : Serving v ↔ Serving v ∧ (v.Deletes con obj att → obj.con_.2 = none) :=
    (and_iff_left fun hd => absurd hd hno).symm
  cases h with
  | sent req hatt hacc hw =>
    obtain ⟨ch, rfl⟩ := hw
    exact hkeeps fun hd => hd.1 (Or.inl ⟨req, hatt, hacc⟩)
  | resent evs hr hq ht hw =>
    obtain ⟨ch, rfl⟩ := hw
    exact hkeeps fun hd => hd.1 (Or.inr hr)
  | ended evs hno hq ht hw =>
    rcases hw with ⟨hsub, ch, rfl⟩ | ⟨hsub, hretried, ch, rfl⟩
    · have hd : v.Deletes con obj att := ⟨hno, hsub⟩
      refine (serving_kill_iff (w := v.noted ch _) hcached hopen).trans ?_
      exact and_congr_right fun _ => ⟨fun h _ => h, fun h => h hd⟩
    · exact hkeeps fun hd => hretried (hd.2 hsub)

end settle

/-- One step keeps the stored connections serving exactly when it spares them. -/
private theorem serving_step {w w' : AsyncWorld} {e : Stimulus} (h : Sound w) (hs : StepCase w e w') :
    Serving w' ↔ Serving w ∧ SparesShared w e := by
  cases hs with
  | silent hsil hnone =>
    have hc : SparesShared w e := by
      cases e with
      | reply con r ch =>
        intro req obj ho
        rw [hnone con r ch rfl] at ho
        cases ho
      | _ => trivial
    rw [serving_of_eq hsil.nodes hsil.redirects hsil.contexts]
    exact (and_iff_left hc).symm
  | issued args ch ch' obj c hcon halive hc => exact (and_iff_left trivial).symm
  | rejected args ch ch' obj c hcon halive =>
    refine (serving_kill_iff (fun c hc => ?_) (fun c hc => ?_)).trans (and_congr Iff.rfl (iff_of_true hcon trivial))
    · rw [hcon] at hc
      cases hc
    · rw [hcon] at hc
      cases hc
  | answered con r ch req obj obj' v u ho hobj he hreq hno hl hset hv hidle hvobj hu =>
    have hmem := List.mem_of_getElem? hvobj.1
    have hserving := hset.serving_iff_spares (hv.objects obj' hmem) (fun c hc => hv.isOpen_con hmem hc)
    have hv : Serving v ↔ Serving w := hl.keeps_serving (h.fire req r ch)
    rw [hv, hl.deletes_iff, hl.con_eq_none_iff] at hserving
    refine hserving.trans (and_congr_right fun _ => ⟨fun hspare req' o ho' ho'' => ?_, fun hspare => ?_⟩)
    · rw [ho] at ho'
      cases ho'
      cases Option.some.inj (ho''.1.symm.trans hobj.1)
      exact hspare
    · exact hspare req obj ho hobj

/-- In a run all stored connections accept commands exactly when no step deletes a command that was redirected. -/
theorem serving_iff {w : AsyncWorld} {hist : List (AsyncWorld × Stimulus)} (r : AsyncRun w hist) :
    Serving w ↔ ∀ p ∈ hist, SparesShared p.1 p.2 := by
  refine Run.iff_forall (fun w hist r => sound_of_run r) ?_ (fun w e w' h hs => serving_step h (step_cases h hs)) r
  intro w h c _ ctx hctx
  exact (h.contexts ctx (List.mem_of_getElem? hctx)).1

/-- A command that is redirected, sent to the other node and answered there. -/
def redirectedAndAnswered : List Stimulus :=
  askedOnce [] ++ [.reply 1 (.string (.ofText "v")) calm]

/-- The cached connection of the other node then refuses all further commands. -/
theorem not_serving : ∃ w hist, AsyncRun w hist ∧ ¬ Serving w := by
  refine ⟨_, _, run_after oneNode_initial redirectedAndAnswered (by decide +kernel), fun h => ?_⟩
  have hstored : ((Stimulus.after redirectedAndAnswered oneNode).redirects.entries.any (·.2 = 1)) = true := by
    decide +kernel
  have hctx : ((Stimulus.after redirectedAndAnswered oneNode).contexts[1]?).map Context.disconnecting = some true := by
    decide +kernel
  obtain ⟨e, he, hcon⟩ := List.any_eq_true.1 hstored
  obtain ⟨ctx, hctx, hdis⟩ := Option.map_eq_some_iff.1 hctx
  have := h 1 (Or.inr ⟨e, he, of_decide_eq_true hcon⟩) ctx hctx
  rw [hdis] at this
  cases this

/-- A command that is answered by the node that has its slot leaves the connection as it was. -/
theorem serving_iff_answered :
    Serving (Stimulus.after [.command ⟨false, text "k", some (text "GET k"), true⟩ calm,
      .reply 0 (.string (.ofText "v")) calm] oneNode) := by
  refine (serving_iff (run_after oneNode_initial _ (by decide +kernel))).2 ?_
  intro p hp
  simp only [Stimulus.trail, List.mem_cons, List.not_mem_nil, or_false] at hp
  rcases hp with rfl | rfl
  · trivial
  · intro req obj ho hobj _
    have hdata := congrArg (Option.map Request.data) ho
    have hzero : 0 = req.data := Option.some.inj (Eq.trans (by decide +kernel) hdata)
    have hcon := congrArg (Option.map AsyncHiredisCommand.con_) hobj.1
    rw [← hzero] at hcon
    have hnone : (([], none) : HostConnection) = obj.con_ := Option.some.inj (Eq.trans (by decide +kernel) hcon)
    refine ⟨by rw [← hnone], ?_⟩
    unfold World.attemptOf
    cases req.callback <;> rfl

end HiredisCluster
