import HiredisCluster.AsyncRun

/-!
# The life of a command object

A command object that `Command` returned has exactly one request outstanding until its user callback has run; then it is
deleted and never touched again (`command_lifecycle`).  One callback keeps this because it either sends one more request
or passes the reply on and deletes the object, and never both (`Settles.life`).
-/

namespace HiredisCluster

open Cxx AsyncHiredisCommand

/-- The object an event is about. -/
def Event.object? : Event → Option ObjPtr
  | returned data | redisCallback data _ _ | deleted data => some data
  | _ => none

/-- The user callback of an object was called, or the object was deleted. -/
def Event.ends (that : ObjPtr) : Event → Bool
  | redisCallback data _ _ | deleted data => data = that
  | _ => false

/-- The calls of the user callback of an object and its deletions, in order. -/
def World.history (w : AsyncWorld) (that : ObjPtr) : List Event := w.client.trace.filter (Event.ends that)

/-- The object is alive with one request outstanding, and its user callback has not run. -/
def World.Running (w : AsyncWorld) (that : ObjPtr) (obj : AsyncHiredisCommand) : Prop :=
  obj.alive = true ∧ (∃ req, w.client.pending.filter (·.data = that) = [req]) ∧ w.history that = []

/-- No request is outstanding, the user callback was called once if it is set, and after that the object was deleted
once. -/
def World.Finished (w : AsyncWorld) (that : ObjPtr) (obj : AsyncHiredisCommand) : Prop :=
  obj.alive = false ∧ w.client.pending.filter (·.data = that) = [] ∧
    ∃ reply answered, w.history that = obj.given that reply answered ++ [.deleted that]

/-- Where in its life an object is. -/
def World.Lifecycle (w : AsyncWorld) (that : ObjPtr) : Prop :=
  ∃ obj, w.client.objects[that]? = some obj ∧ (w.Running that obj ∨ w.Finished that obj)

/-- What is assumed of the environment: a connection is not subscribed, the moved callback does not throw, and the port
in a redirection is a number. -/
def Stimulus.Assumed : Stimulus → Prop
  | .reply _ r ch => ch.subscribed = false ∧ ch.movedCb = none ∧ ∀ host port,
      processResult r = .ret (.ask, host, port) ∨ processResult r = .ret (.moved, host, port) →
        ∃ n, stoi port = .ret n
  | _ => True

abbrev LifeRun := Run Initial fun w e w' => e.Assumed ∧ Step w e w'

/-- What the application and the servers may do in a state. -/
def Stimulus.Allowed (w : AsyncWorld) : Stimulus → Prop
  | .command args _ => args.key.length < 2 ^ 31
  | .setUserErrorCb that _ => ∃ obj, w.Holds that obj
  | .reply con r ch => (Stimulus.reply con r ch).Assumed

section settle

variable {that : ObjPtr} {obj : AsyncHiredisCommand} {con : ConPtr} {reply : RedisReply} {att : Attempt}
  {v u : AsyncWorld}

private theorem quiet_object (that : ObjPtr) {e : Event} (h : e.Quiet) : e.object? = none ∧ e.ends that = false := by
  cases e <;> first | exact ⟨rfl, rfl⟩ | cases h

private theorem given_ends (r : Option (Request × ReplyPtr)) :
    (obj.given that reply r).filter (Event.ends that) = obj.given that reply r := by
  unfold AsyncHiredisCommand.given
  split <;> simp [Event.ends]

/-- What a callback of an object may record: events of that object, and no return of `Command`. -/
def Event.Of (that : ObjPtr) (e : Event) : Prop := (∀ i, e.object? = some i → i = that) ∧ ∀ i, e ≠ .returned i

private theorem Event.Quiet.of {e : Event} (h : e.Quiet) : e.Of that := by
  refine ⟨fun i hi => ?_, fun i he => ?_⟩
  · rw [(quiet_object that h).1] at hi
    cases hi
  · rw [he] at h
    cases h

private theorem given_of (r : Option (Request × ReplyPtr)) : ∀ e ∈ obj.given that reply r, e.Of that := by
  intro e he
  unfold AsyncHiredisCommand.given at he
  split at he
  · rw [List.mem_singleton.1 he]
    exact ⟨fun i hi => (Option.some.inj hi).symm, by simp⟩
  · cases he

/-- One callback either leaves one more request outstanding or ends the life of its object. -/
theorem Settles.life (h : Settles that obj con reply att v u) (hsub : v.client.choices.subscribed = false)
    (hdata : ∀ req, att = .sends req → req.data = that) :
    ∃ evs, u.client.trace = v.client.trace ++ evs ∧ (∀ e ∈ evs, e.Of that) ∧
      ((∃ req, req.data = that ∧ u.client.pending = v.client.pending ++ [req] ∧
          u.client.objects = v.client.objects ∧ evs.filter (Event.ends that) = []) ∨
        (u.client.pending = v.client.pending ∧
          u.client.objects = v.client.objects.set that { obj with alive := false } ∧
          evs.filter (Event.ends that) = obj.given that reply v.client.firing ++ [.deleted that])) := by
  have quiet (evs : List Event) (hq : ∀ e ∈ evs, e.Quiet) : evs.filter (Event.ends that) = [] := by
    rw [List.filter_eq_nil_iff]
    intro e he
    simp [quiet_object _ (hq e he)]
  have hsent (req : Request) : ∀ e ∈ [Event.sent req v.client.firing], e.Of that := by
    simp [Event.Of, Event.object?]
  cases h with
  | sent req hatt hacc hw =>
    obtain ⟨ch, rfl⟩ := hw
    exact ⟨[.sent req v.client.firing], rfl, hsent req, Or.inl ⟨req, hdata req hatt, rfl, rfl, rfl⟩⟩
  | resent evs hr hq ht hw =>
    obtain ⟨ch, rfl⟩ := hw
    refine ⟨evs ++ [.sent (obj.commandOn that con) v.client.firing], rfl, ?_, Or.inl ⟨_, rfl, rfl, rfl, ?_⟩⟩
    · exact List.forall_mem_append.2 ⟨fun e he => (hq e he).of, hsent _⟩
    · rw [List.filter_append, quiet evs hq]
      rfl
  | ended evs hno hq ht hw =>
    rcases hw with ⟨-, ch, rfl⟩ | ⟨hs, -⟩
    · refine ⟨evs ++ obj.given that reply v.client.firing ++ [.deleted that], ?_, ?_, Or.inr ⟨?_, ?_, ?_⟩⟩
      · rw [Sound.trace_kill]
        rfl
      · refine List.forall_mem_append.2 ⟨List.forall_mem_append.2 ⟨fun e he => (hq e he).of, given_of _⟩, ?_⟩
        simp [Event.Of, Event.object?]
      · rw [Sound.pending_kill]
        rfl
      · rw [Sound.objects_kill]
        rfl
      · rw [List.filter_append, List.filter_append, quiet evs hq, given_ends]
        simp [Event.ends]
    · rw [hsub] at hs
      cases hs

end settle

/-! ### The invariant -/

/-- An object as `command_lifecycle` describes it, with the request outstanding given by a member of `pending`. -/
def World.Lives (w : AsyncWorld) (that : ObjPtr) (obj : AsyncHiredisCommand) : Prop :=
  (obj.alive = true ∧ (∃ req ∈ w.client.pending, req.data = that) ∧ w.history that = []) ∨
    (obj.alive = false ∧ w.Idle that ∧
      ∃ reply answered, w.history that = obj.given that reply answered ++ [.deleted that])

structure Lively (w : AsyncWorld) : Prop where
  named : ∀ e ∈ w.client.trace, ∀ i, e.object? = some i → i < w.client.objects.length
  lives : ∀ that, .returned that ∈ w.client.trace → ∃ obj, w.client.objects[that]? = some obj ∧ w.Lives that obj

/-- Nothing was recorded of an object that does not exist yet. -/
private theorem Lively.history_length {w : AsyncWorld} (h : Lively w) : w.history w.client.objects.length = [] := by
  unfold World.history
  rw [List.filter_eq_nil_iff]
  intro e he hends
  have hobj : e.object? = some w.client.objects.length := by
    cases e <;> simp [Event.ends, Event.object?] at hends ⊢
    · exact hends
    · exact hends
  exact Nat.lt_irrefl _ (h.named e he _ hobj)

private theorem lively_of_silent {w w' : AsyncWorld} (h : Lively w) (hsil : Silent w w') : Lively w' := by
  refine ⟨?_, ?_⟩
  · rw [hsil.trace]
    intro e he i hi
    obtain ⟨set, hset⟩ := hsil.kept i _ (List.getElem?_eq_getElem (h.named e he i hi))
    exact (List.getElem?_eq_some_iff.1 hset).1
  · intro that hret
    rw [hsil.trace] at hret
    obtain ⟨obj, hobj, hlife⟩ := h.lives that hret
    obtain ⟨set, hset⟩ := hsil.kept that obj hobj
    refine ⟨_, hset, ?_⟩
    unfold World.Lives World.history World.Idle
    rw [hsil.pending, hsil.trace]
    exact hlife

/-- Objects that a step does not touch live on. -/
private theorem World.Lives.frame {w w' : AsyncWorld} {that : ObjPtr} {obj : AsyncHiredisCommand} (h : w.Lives that obj)
    (hp : ∀ q, q.data = that → (q ∈ w'.client.pending ↔ q ∈ w.client.pending)) (hh : w'.history that = w.history that) :
    w'.Lives that obj := by
  rcases h with ⟨ha, ⟨req, hreq, hd⟩, hist⟩ | ⟨ha, hidle, hist⟩
  · exact Or.inl ⟨ha, ⟨req, (hp req hd).2 hreq, hd⟩, hh.trans hist⟩
  · refine Or.inr ⟨ha, fun q hq hd => hidle q ((hp q hd).1 hq) hd, ?_⟩
    rw [hh]
    exact hist

/-- Events about one object are not in the history of another. -/
private theorem filter_ends_other {that i : ObjPtr} (hi : i ≠ that) {evs : List Event}
    (h : ∀ e ∈ evs, ∀ i, e.object? = some i → i = that) : evs.filter (Event.ends i) = [] := by
  rw [List.filter_eq_nil_iff]
  intro e he hends
  have hobj : e.object? = some i := by
    cases e <;> simp [Event.ends, Event.object?] at hends ⊢
    · exact hends
    · exact hends
  exact hi (h e he i hobj)

/-- `Command` adds one object and, at most, a request of that object. -/
private theorem lively_command {w w' : AsyncWorld} (h : Lively w) (evs : List Event) (more : List Request)
    (new : AsyncHiredisCommand)
    (htrace : w'.client.trace = w.client.trace ++ evs) (hpending : w'.client.pending = w.client.pending ++ more)
    (hobjects : w'.client.objects = w.client.objects ++ [new])
    (hevs : ∀ e ∈ evs, ∀ i, e.object? = some i → i = w.client.objects.length)
    (hmore : ∀ q ∈ more, q.data = w.client.objects.length) (hnew : .returned w.client.objects.length ∈ evs →
      new.alive = true ∧ more ≠ [] ∧ evs.filter (Event.ends w.client.objects.length) = []) : Lively w' := by
  refine ⟨?_, ?_⟩
  · intro e he i hi
    rw [hobjects, List.length_append, List.length_singleton]
    rw [htrace] at he
    rcases List.mem_append.1 he with he | he
    · exact Nat.lt_succ_of_lt (h.named e he i hi)
    · rw [hevs e he i hi]
      exact Nat.lt_succ_self _
  · intro that hret
    have hhist : w'.history that = w.history that ++ evs.filter (Event.ends that) := by
      unfold World.history
      rw [htrace, List.filter_append]
    rw [htrace] at hret
    rw [hobjects]
    rcases List.mem_append.1 hret with hret | hret
    · obtain ⟨o, ho, hlife⟩ := h.lives that hret
      have hlt := (List.getElem?_eq_some_iff.1 ho).1
      refine ⟨o, by rw [List.getElem?_append_left hlt]; exact ho, hlife.frame ?_ ?_⟩
      · intro q hd
        rw [hpending, List.mem_append]
        refine ⟨fun hq => hq.elim id fun hq => ?_, Or.inl⟩
        rw [hmore q hq] at hd
        exact absurd hlt (hd ▸ Nat.lt_irrefl _)
      · rw [hhist, filter_ends_other (Nat.ne_of_lt hlt) hevs, List.append_nil]
    · have hthat := hevs _ hret that rfl
      subst hthat
      obtain ⟨halive, hne, hends⟩ := hnew hret
      obtain ⟨q, hq⟩ := List.exists_mem_of_ne_nil _ hne
      refine ⟨new, by simp, Or.inl ⟨halive, ⟨q, ?_, hmore q hq⟩, ?_⟩⟩
      · rw [hpending]
        exact List.mem_append_right _ hq
      · rw [hhist, h.history_length, hends]
        rfl

/-- A callback changes the life of its own object only, which was running before it. -/
private theorem lively_touched {w w' : AsyncWorld} (h : Lively w) {that : ObjPtr} {obj new : AsyncHiredisCommand}
    (hobj : w.Holds that obj) (evs : List Event) (htrace : w'.client.trace = w.client.trace ++ evs)
    (hevs : ∀ e ∈ evs, e.Of that) (hobjects : w'.client.objects = w.client.objects.set that new)
    (hpending : ∀ q, q.data ≠ that → (q ∈ w'.client.pending ↔ q ∈ w.client.pending))
    (hlives : w'.history that = evs.filter (Event.ends that) → w'.Lives that new) : Lively w' := by
  have hlt := (List.getElem?_eq_some_iff.1 hobj.1).1
  have hhist (i : ObjPtr) : w'.history i = w.history i ++ evs.filter (Event.ends i) := by
    unfold World.history
    rw [htrace, List.filter_append]
  refine ⟨?_, ?_⟩
  · intro e he i hi
    rw [hobjects, List.length_set]
    rw [htrace] at he
    rcases List.mem_append.1 he with he | he
    · exact h.named e he i hi
    · rw [(hevs e he).1 i hi]
      exact hlt
  · intro i hret
    rw [htrace] at hret
    have hbefore : .returned i ∈ w.client.trace :=
      (List.mem_append.1 hret).resolve_right fun he => (hevs _ he).2 i rfl
    obtain ⟨o, ho, hlife⟩ := h.lives i hbefore
    by_cases hi : i = that
    · subst hi
      cases Option.some.inj (ho.symm.trans hobj.1)
      -- it was alive, so nothing had ended its life
      have hnil : w.history i = [] := by
        rcases hlife with ⟨-, -, hist⟩ | ⟨hdead, -⟩
        · exact hist
        · rw [hobj.2] at hdead
          cases hdead
      refine ⟨new, ?_, hlives ?_⟩
      · rw [hobjects, List.getElem?_set_self hlt]
      · rw [hhist, hnil, List.nil_append]
    · refine ⟨o, ?_, hlife.frame ?_ ?_⟩
      · rw [hobjects, List.getElem?_set_ne fun h => hi h.symm]
        exact ho
      · exact fun q hq => hpending q (hq ▸ hi)
      · rw [hhist, filter_ends_other hi fun e he => (hevs e he).1, List.append_nil]

private theorem lively_answered {w v u : AsyncWorld} (h : Lively w) {con : ConPtr} {r : RedisReply} {ch : Choices}
    {req : Request} {obj obj' : AsyncHiredisCommand} (ho : w.oldest con = some req) (hobj : w.Holds req.data obj)
    (hl : Linked req.data obj obj' ((w.fire req r ch).attemptOf req obj r).target (w.fire req r ch) v)
    (hs : Settles req.data obj' con r ((w.fire req r ch).attemptOf req obj r) v u) (hidle : v.Idle req.data)
    (hvobj : v.Holds req.data obj') (hsub : ch.subscribed = false) : Lively (u.release w.replies) := by
  obtain ⟨moves, connects, lifetime, hcl⟩ := hl.client_eq
  obtain ⟨-, l₁, l₂, -, hp, herase⟩ := oldest_split ho
  have hvpending : v.client.pending = l₁ ++ l₂ := by rw [hcl]; exact herase
  have hvobjects : v.client.objects = w.client.objects.set req.data obj' := by rw [hcl]; rfl
  have hvtrace : v.client.trace = w.client.trace ++ moves.map Event.moved := by rw [hcl]; rfl
  have hdata (req' : Request) (hreq' : (w.fire req r ch).attemptOf req obj r = .sends req') : req'.data = req.data := by
    rcases attemptOf_sends hreq' with he | he <;> rw [he] <;> rfl
  have hne (q : Request) (hq : q.data ≠ req.data) : q ≠ req := fun h => hq (h ▸ rfl)
  obtain ⟨evs', htrace', hevs', hend⟩ := hs.life (by rw [hcl]; exact hsub) hdata
  -- `moved` belongs to no object
  have hmoves : (moves.map Event.moved).filter (Event.ends req.data) = [] := by
    rw [List.filter_eq_nil_iff]
    exact List.forall_mem_map.2 fun _ _ => by simp [Event.ends]
  let evs := moves.map Event.moved ++ evs'
  have hfilter : evs.filter (Event.ends req.data) = evs'.filter (Event.ends req.data) := by
    rw [List.filter_append, hmoves, List.nil_append]
  have hevs : ∀ e ∈ evs, e.Of req.data := by
    refine List.forall_mem_append.2 ⟨List.forall_mem_map.2 fun _ _ => ?_, hevs'⟩
    simp [Event.Of, Event.object?]
  have htrace : (u.release w.replies).client.trace = w.client.trace ++ evs := by
    rw [← List.append_assoc, ← hvtrace]
    exact htrace'
  rcases hend with ⟨req', hd, hu, hobjs, hends⟩ | ⟨hu, hobjs, hends⟩
  · refine lively_touched h hobj evs htrace hevs (hobjs.trans hvobjects) ?_ fun hhist =>
      Or.inl ⟨hvobj.2, ⟨req', ?_, hd⟩, ?_⟩
    · intro q hq
      have hne' : q ≠ req' := fun h => hq (h ▸ hd)
      show q ∈ u.client.pending ↔ _
      rw [hu, hvpending, hp]
      simp [hne q hq, hne']
    · show req' ∈ u.client.pending
      rw [hu]
      simp
    · rw [hhist, hfilter, hends]
  · have hset : (u.release w.replies).client.objects =
        w.client.objects.set req.data { obj' with alive := false } := hobjs.trans (by rw [hvobjects, List.set_set])
    refine lively_touched h hobj evs htrace hevs hset ?_ fun hhist =>
      Or.inr ⟨rfl, ?_, r, v.client.firing, hhist.trans (hfilter.trans hends)⟩
    · intro q hq
      show q ∈ u.client.pending ↔ _
      rw [hu, hvpending, hp]
      simp [hne q hq]
    · intro q hq
      replace hq : q ∈ u.client.pending := hq
      rw [hu] at hq
      exact hidle q hq

private theorem lively_step {w w' : AsyncWorld} {e : Stimulus} (hlively : Lively w) (ha : e.Assumed)
    (h : StepCase w e w') :
    Lively w' := by
  cases h with
  | silent hsil hnone => exact lively_of_silent hlively hsil
  | issued args ch ch' obj c hcon halive hc =>
    refine lively_command hlively [_, _] [_] _ rfl rfl rfl ?_ ?_ ?_
    · simp [Event.object?]
    · simp [AsyncHiredisCommand.commandOn]
    · exact fun _ => ⟨halive, by simp, by simp [Event.ends]⟩
  | rejected args ch ch' obj c hcon halive =>
    refine lively_command hlively [.refused (obj.commandOn w.client.objects.length c) w.client.firing,
      .deleted w.client.objects.length] [] { obj with alive := false } ?_ ?_ ?_ ?_ ?_ ?_
    · rw [Sound.trace_kill]; rfl
    · rw [Sound.pending_kill, List.append_nil]; rfl
    · rw [Sound.objects_kill]
      show (w.client.objects ++ [obj]).set w.client.objects.length _ = _
      rw [List.set_append_right _ _ (Nat.le_refl _), Nat.sub_self]
      rfl
    · simp [Event.object?]
    · simp
    · simp
  | answered con r ch req obj obj' v u ho hobj he hreq hno hl hset hv hidle hvobj hu =>
    exact lively_answered hlively ho hobj hl hset hidle hvobj ha.1

/-- Whatever the application and the servers do, it is handled: no deleted object is touched, no null handler is called
and no exception leaves a callback. -/
private theorem step_exists {w : AsyncWorld} (h : Sound w) {e : Stimulus} (ha : e.Allowed w) : ∃ w', Step w e w' := by
  cases e with
  | command args ch =>
    rcases command_exec h args ch with ⟨hk, -⟩ | hrun | ⟨cmd, obj, that, -, -, -, hrun | ⟨c, ch', -, -, hrun | hrun⟩⟩
    · exact absurd ha (Nat.not_lt.2 hk)
    · exact ⟨_, hrun⟩
    · exact ⟨_, hrun⟩
    · exact ⟨_, hrun⟩
    · exact ⟨_, hrun⟩
  | setUserErrorCb that set =>
    obtain ⟨obj, hobj⟩ := ha
    exact ⟨_, Code.bind_of_ret (object_eq hobj) _⟩
  | reply con r ch =>
    obtain ⟨-, hmoved, hport⟩ := ha
    cases ho : w.oldest con with
    | none =>
      refine ⟨w, (Code.bind_of_ret (Code.get_apply w) _).trans ?_⟩
      rw [ho]
      rfl
    | some req =>
      obtain ⟨obj, -, -, -, ⟨e, v, ⟨-, -, host, port, hesc⟩, -⟩ | ⟨-, obj', v, u, hrun, -⟩⟩ := reply_cases h ho r ch rfl
      · have hno : (w.fire req r ch).movedException = none := by
          have hcb : (w.fire req r ch).client.choices.movedCb = none := hmoved
          simp [World.movedException, hcb]
        rcases hesc with ⟨hask, -, -, hfail⟩ | ⟨hmv, hex | ⟨-, -, -, hfail⟩⟩
        · obtain ⟨n, hn⟩ := hport host port (Or.inl hask)
          rw [hn] at hfail
          cases hfail
        · rw [hno] at hex
          cases hex
        · obtain ⟨n, hn⟩ := hport host port (Or.inr hmv)
          rw [hn] at hfail
          cases hfail
      · exact ⟨_, hrun⟩

/-- Of a list without repetitions, the elements with a given key are at most one. -/
private theorem filter_eq_singleton {l : List Request} (h : (l.map Request.data).Nodup) {req : Request}
    (hreq : req ∈ l) :
    l.filter (fun q => q.data = req.data) = [req] := by
  induction l with
  | nil => cases hreq
  | cons q l ih =>
    rw [List.map_cons, List.nodup_cons] at h
    rcases List.mem_cons.1 hreq with rfl | hreq
    · have hrest : l.filter (fun q => q.data = req.data) = [] := by
        rw [List.filter_eq_nil_iff]
        intro q' hq' heq
        exact h.1 (of_decide_eq_true heq ▸ List.mem_map_of_mem hq')
      rw [List.filter_cons_of_pos (by simp), hrest]
    · have hne : q.data ≠ req.data := fun heq => h.1 (heq ▸ List.mem_map_of_mem hreq)
      rw [List.filter_cons_of_neg (by simpa using hne)]
      exact ih h.2 hreq

/-- In every state that is reached, an object that `Command` returned either has exactly one request outstanding, is
alive and its user callback has not run, or it has none outstanding, its user callback has run once and it was deleted
once after that; and everything the application and the servers may do next is handled. -/
theorem command_lifecycle {w : AsyncWorld} {hist : List (AsyncWorld × Stimulus)} (r : LifeRun w hist) :
    (∀ that, .returned that ∈ w.client.trace → w.Lifecycle that) ∧ ∀ e, e.Allowed w → ∃ w', Step w e w' := by
  have hsound : ∀ w hist, LifeRun w hist → Sound w := fun w hist r => sound_of_run (r.mono fun _ _ _ hs => hs.2)
  have hlively : Lively w := by
    refine Run.invariant_of (I := Sound) (P := Lively) (C := fun _ _ => True) hsound ?_ ?_ r fun _ _ => trivial
    · intro w h
      exact ⟨by rw [h.trace]; simp, by rw [h.trace]; simp⟩
    · exact fun _ _ _ hs hl _ h => lively_step hl h.1 (step_cases hs h.2)
  refine ⟨?_, fun e ha => step_exists (hsound w hist r) ha⟩
  intro that hret
  obtain ⟨obj, hobj, hlife⟩ := hlively.lives that hret
  refine ⟨obj, hobj, ?_⟩
  rcases hlife with ⟨ha, ⟨req, hreq, rfl⟩, hh⟩ | ⟨ha, hidle, hh⟩
  · exact Or.inl ⟨ha, ⟨req, filter_eq_singleton (hsound w hist r).nodup hreq⟩, hh⟩
  · refine Or.inr ⟨ha, ?_, hh⟩
    rw [List.filter_eq_nil_iff]
    intro q hq heq
    exact hidle q hq (of_decide_eq_true heq)

/-- The life of a command that is redirected and cannot be sent again. -/
theorem command_lifecycle_askedOnce : (Stimulus.after (askedOnce [.err]) oneNode).Lifecycle 0 := by
  have hassumed : ∀ e ∈ askedOnce [.err], e.Assumed := by
    intro e he
    simp only [askedOnce, List.mem_cons, List.not_mem_nil, or_false] at he
    rcases he with rfl | rfl | rfl
    · trivial
    · refine ⟨rfl, rfl, fun host port hres => ⟨7001, ?_⟩⟩
      have hask : processResult (.error (.ofText "ASK 7629 10.0.0.2:7001")) =
          .ret (.ask, text "10.0.0.2", text "7001") := by decide +kernel
      rw [hask] at hres
      rcases hres with hres | hres
      · cases hres
        decide +kernel
      · cases hres
    · exact ⟨rfl, rfl, fun host port hres => by rcases hres with hres | hres <;> cases hres⟩
  have hreturned : ((Stimulus.after (askedOnce [.err]) oneNode).client.trace.any fun e => match e with
      | .returned data => data = 0
      | _ => false) = true := by decide +kernel
  obtain ⟨e, he, hmatch⟩ := List.any_eq_true.1 hreturned
  have hmem : .returned 0 ∈ (Stimulus.after (askedOnce [.err]) oneNode).client.trace := by
    split at hmatch
    · rw [of_decide_eq_true hmatch] at he
      exact he
    · cases hmatch
  exact (command_lifecycle (run_after_of (.start oneNode_initial) (askedOnce [.err]) hassumed (by decide +kernel))).1 0
    hmem

end HiredisCluster
