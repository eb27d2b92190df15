import HiredisCluster.AsyncRun

/-!
# Where redirected messages go

A redirection names a host and a port, and `createNewConnection` has a connection for them.  The code asks for it only
while the command has no connection of its own, so from its second redirection on a command goes wherever its first one
sent it (`goesWhereTold_iff`).
-/

namespace HiredisCluster

open Cxx AsyncHiredisCommand

/-- The reply redirects to a host and a port. -/
def RedisReply.RedirectsTo (r : RedisReply) (host port : Bytes) : Prop :=
  processResult r = .ret (.ask, host, port) ∨ processResult r = .ret (.moved, host, port)

/-- The connection that `createNewConnection` yields for a host and a port. -/
def World.Yields (w : AsyncWorld) (host port : Bytes) (c : ConPtr) : Prop :=
  ∃ key, (Cluster.createNewConnection functions host port w).1 = .ret (key, some c)

/-- The messages that are sent, whether hiredis accepts them or not, while a stimulus is handled. -/
def Stimulus.attempts (e : Stimulus) (w : AsyncWorld) : List Request :=
  ((e.exec w).2.client.trace.drop w.client.trace.length).filterMap Event.attempt

/-- If the step brings a redirection for a command, the first message that is sent then goes to the connection for the
host and port that the redirection names. -/
def GoesWhereTold (w : AsyncWorld) : Stimulus → Prop
  | .reply con r ch => ∀ req host port c, w.oldest con = some req → req.callback = .processCommandReply →
      r.RedirectsTo host port → (w.fire req r ch).Yields host port c →
        ∀ req', ((Stimulus.reply con r ch).attempts w).head? = some req' → req'.con = c
  | _ => True

/-- Nothing follows the redirection: it mentions `CLUSTERDOWN`, or the moved callback throws. -/
def World.Stops (w : AsyncWorld) (r : RedisReply) (host port : Bytes) : Prop :=
  r.mentionsClusterDown = true ∨ (processResult r = .ret (.moved, host, port) ∧ w.movedException.isSome = true)

/-- A redirection that is followed finds the command without a connection of its own or with one for the same host and
port; where nothing follows it, the command is not sent again on another connection than the one named. -/
def FollowsNamed (w : AsyncWorld) : Stimulus → Prop
  | .reply con r ch => ∀ req obj host port c, w.oldest con = some req → req.callback = .processCommandReply →
      w.Holds req.data obj → r.RedirectsTo host port → (w.fire req r ch).Yields host port c →
        (¬ (w.fire req r ch).Stops r host port →
            obj.con_.2 = none ∨ obj.con_.1 = DefaultContainer.hostKey host port) ∧
          ((w.fire req r ch).Stops r host port → (w.fire req r ch).WantsRetry obj → con = c)
  | _ => True

section target

variable {w : AsyncWorld} {obj : AsyncHiredisCommand} {host port : Bytes} {c : ConPtr}

private theorem yields_cases (hd : w.client.data_.freed = false) (h : w.Yields host port c) :
    w.redirects.lookup (DefaultContainer.hostKey host port) = some c ∨
      (w.redirects.lookup (DefaultContainer.hostKey host port) = none ∧ w.Connects ∧ c = w.contexts.length) := by
  obtain ⟨key, hy⟩ := h
  rcases createNewConnection_cases hd host port with ⟨c', hl, hrun⟩ | ⟨e, -, hrun⟩ | ⟨hl, -, ⟨-, v, -, -, hrun⟩ |
    ⟨hconn, v, -, -, -, hrun⟩⟩
  · rw [hrun] at hy
    cases hy
    exact Or.inl hl
  · rw [hrun] at hy
    cases hy
  · rw [hrun] at hy
    cases hy
  · rw [hrun] at hy
    cases hy
    exact Or.inr ⟨hl, hconn, rfl⟩

/-- Without a connection of its own the command goes where the redirection says. -/
private theorem redirectTarget_of_none (hd : w.client.data_.freed = false) (h : w.Yields host port c)
    (hc : obj.con_.2 = none) :
    w.redirectTarget obj host port = some c := by
  rcases yields_cases hd h with hl | ⟨hl, hconn, rfl⟩
  · simp [World.redirectTarget, hc, hl]
  · simp [World.redirectTarget, hc, hl, hconn]

/-- The connection of a command is the one that is named exactly when it was made for the same host and port. -/
private theorem con_eq_iff (hs : Sound w) (h : w.Yields host port c) (hobj : obj ∈ w.client.objects) {c' : ConPtr}
    (hc : obj.con_.2 = some c') : c' = c ↔ obj.con_.1 = DefaultContainer.hostKey host port := by
  have hl' := hs.objects obj hobj c' hc
  obtain ⟨e', he', hkey', rfl⟩ := (OrderedMap.lookup_eq_some_iff _ _ _).1 hl'
  constructor
  · intro heq
    rcases yields_cases hs.data h with hl | ⟨-, -, rfl⟩
    · obtain ⟨e, he, hkey, hec⟩ := (OrderedMap.lookup_eq_some_iff _ _ _).1 hl
      have hee := hs.injective e' he' e he (heq.trans hec.symm)
      rw [hee, hkey] at hkey'
      exact (hostRank_injective hkey').symm
    · have hlt := hs.stored_lt (Or.inr ⟨e', he', rfl⟩)
      rw [heq] at hlt
      exact absurd hlt (Nat.lt_irrefl _)
  · intro heq
    rcases yields_cases hs.data h with hl | ⟨hl, -⟩
    · rw [← heq, hl'] at hl
      exact Option.some.inj hl
    · rw [← heq, hl'] at hl
      cases hl

end target

/-- The first message that a callback sends. -/
private theorem Settles.first_attempt {that : ObjPtr} {obj : AsyncHiredisCommand} {con : ConPtr} {reply : RedisReply}
    {att : Attempt} {v u : AsyncWorld} (h : Settles that obj con reply att v u) (hready : att ≠ .ready) :
    ∃ evs, u.client.trace = v.client.trace ++ evs ∧ ∀ req', (evs.filterMap Event.attempt).head? = some req' ↔
      att = .sends req' ∨ (att = .fails ∧ v.WantsRetry obj ∧ req' = obj.commandOn that con) := by
  have given : (obj.given that reply v.client.firing).filterMap Event.attempt = [] := by
    unfold AsyncHiredisCommand.given
    split <;> rfl
  have first (more : List Request) (evs : List Event) (hevs : evs.filterMap Event.attempt = att.requests ++ more)
      (hmore : att = .fails → more = [] ∧ ¬ v.WantsRetry obj ∨ more = [obj.commandOn that con] ∧ v.WantsRetry obj)
      (req' : Request) : (evs.filterMap Event.attempt).head? = some req' ↔
        att = .sends req' ∨ (att = .fails ∧ v.WantsRetry obj ∧ req' = obj.commandOn that con) := by
    rw [hevs]
    cases att with
    | ready => exact absurd rfl hready
    | sends req => simp [Attempt.requests]
    | fails =>
      rcases hmore rfl with ⟨rfl, hno⟩ | ⟨rfl, hyes⟩
      · simp [Attempt.requests, hno]
      · simp [Attempt.requests, hyes, eq_comm]
  cases h with
  | sent req hatt hacc hw =>
    obtain ⟨ch, rfl⟩ := hw
    subst hatt
    exact ⟨_, rfl, first [] _ rfl (by simp)⟩
  | resent evs hr hq ht hw =>
    obtain ⟨ch, rfl⟩ := hw
    refine ⟨_, rfl, first [obj.commandOn that con] _ ?_ ?_⟩
    · rw [List.filterMap_append, ht]
      rfl
    · rintro rfl
      exact Or.inr ⟨rfl, hr.1⟩
  | ended evs hno hq ht hw =>
    obtain ⟨more, hevs, hmore⟩ := ht
    have hfails : att = .fails → more = [] ∧ ¬ v.WantsRetry obj ∨ more = [obj.commandOn that con] ∧ v.WantsRetry obj := by
      rintro rfl
      exact hmore.imp_left fun h => ⟨h.1, h.2.resolve_left (by simp)⟩
    rcases hw with ⟨-, ch, rfl⟩ | ⟨-, -, ch, rfl⟩
    · refine ⟨evs ++ obj.given that reply v.client.firing ++ [.deleted that], ?_, first more _ ?_ hfails⟩
      · rw [Sound.trace_kill]
        rfl
      · rw [List.filterMap_append, List.filterMap_append, given, List.append_nil, hevs]
        exact List.append_nil _
    · refine ⟨evs ++ obj.given that reply v.client.firing, rfl, first more _ ?_ hfails⟩
      rw [List.filterMap_append, given, List.append_nil, hevs]

/-! ### One step -/

private theorem commandAttempt_of_stops {w : AsyncWorld} (that : ObjPtr) (obj : AsyncHiredisCommand) {r : RedisReply}
    {host port : Bytes} (h : w.Stops r host port) : w.commandAttempt that obj r = .fails := by
  unfold World.commandAttempt
  rcases h with hdown | ⟨hres, hex⟩
  · rw [if_pos hdown]
  · rw [hres]
    dsimp only
    rw [if_pos hex, ite_self]

private theorem commandAttempt_of_redirects {w : AsyncWorld} (that : ObjPtr) {obj : AsyncHiredisCommand}
    {r : RedisReply} {host port : Bytes} (hr : r.RedirectsTo host port) (h : ¬ w.Stops r host port) {c : ConPtr}
    (hc : w.redirectTarget obj host port = some c) :
    ∃ req, w.commandAttempt that obj r = .sends req ∧ req.con = c := by
  have hdown : ¬ r.mentionsClusterDown = true := fun hd => h (Or.inl hd)
  rcases hr with hres | hres
  · refine ⟨askingOn that c, ?_, rfl⟩
    simp only [World.commandAttempt, if_neg hdown, hres, hc]
    rfl
  · have hex : ¬ w.movedException.isSome = true := fun he => h (Or.inr ⟨hres, he⟩)
    refine ⟨obj.commandOn that c, ?_, rfl⟩
    simp only [World.commandAttempt, if_neg hdown, hres, hc, if_neg hex]
    rfl

/-- A command goes to the connection that is named when it has none of its own or one for the same host and port. -/
private theorem target_eq_iff {w : AsyncWorld} {obj : AsyncHiredisCommand} {host port : Bytes} {c : ConPtr}
    (hs : Sound w) (h : w.Yields host port c) (hobj : obj ∈ w.client.objects) :
    ∃ c', w.redirectTarget obj host port = some c' ∧
      (c' = c ↔ obj.con_.2 = none ∨ obj.con_.1 = DefaultContainer.hostKey host port) := by
  cases hc : obj.con_.2 with
  | none => exact ⟨c, redirectTarget_of_none hs.data h hc, by simp⟩
  | some c' =>
    refine ⟨c', by simp [World.redirectTarget, hc], ?_⟩
    rw [con_eq_iff hs h hobj hc]
    simp

section redirected

variable {w u v : AsyncWorld} {con : ConPtr} {r : RedisReply} {ch : Choices} {req : Request}
  {obj obj' : AsyncHiredisCommand}

/-- The first message that a step sends, for a reply to a command which is not passed to the user at once. -/
private theorem attempts_head_iff (hrun : ((Stimulus.reply con r ch).exec w).2 = u.release w.replies)
    (hcb : req.callback = .processCommandReply)
    (hl : Linked req.data obj obj' ((w.fire req r ch).attemptOf req obj r).target (w.fire req r ch) v)
    (hset : Settles req.data obj' con r ((w.fire req r ch).attemptOf req obj r) v u)
    (hready : (w.fire req r ch).commandAttempt req.data obj r ≠ .ready) (req' : Request) :
    ((Stimulus.reply con r ch).attempts w).head? = some req' ↔
      (w.fire req r ch).commandAttempt req.data obj r = .sends req' ∨
        ((w.fire req r ch).commandAttempt req.data obj r = .fails ∧ (w.fire req r ch).WantsRetry obj ∧
          req' = obj'.commandOn req.data con) := by
  obtain ⟨moves, htrace⟩ := hl.trace_eq
  have hatt : (w.fire req r ch).attemptOf req obj r = (w.fire req r ch).commandAttempt req.data obj r := by
    rw [World.attemptOf, hcb]
  rw [hatt] at hset hl
  obtain ⟨evs, htr, hfirst⟩ := hset.first_attempt hready
  have hdrop : (u.release w.replies).client.trace.drop w.client.trace.length = moves.map Event.moved ++ evs := by
    show u.client.trace.drop _ = _
    rw [htr, htrace, List.append_assoc]
    exact List.drop_left
  rw [Stimulus.attempts, hrun, hdrop, List.filterMap_append, filterMap_moves fun _ => rfl, List.nil_append,
    ← hl.wantsRetry_iff]
  exact hfirst req'

/-- For one redirection, what the step does and what the condition asks for are the same. -/
private theorem goesWhereTold_redirected (h : Sound w)
    (hrun : ((Stimulus.reply con r ch).exec w).2 = u.release w.replies)
    (hobj : w.Holds req.data obj) (hcb : req.callback = .processCommandReply)
    (hl : Linked req.data obj obj' ((w.fire req r ch).attemptOf req obj r).target (w.fire req r ch) v)
    (hset : Settles req.data obj' con r ((w.fire req r ch).attemptOf req obj r) v u) {host port : Bytes} {c : ConPtr}
    (hr : r.RedirectsTo host port) (hy : (w.fire req r ch).Yields host port c) :
    (∀ req', ((Stimulus.reply con r ch).attempts w).head? = some req' → req'.con = c) ↔
      (¬ (w.fire req r ch).Stops r host port →
          obj.con_.2 = none ∨ obj.con_.1 = DefaultContainer.hostKey host port) ∧
        ((w.fire req r ch).Stops r host port → (w.fire req r ch).WantsRetry obj → con = c) := by
  have hattempts := attempts_head_iff hrun hcb hl hset
  by_cases hstop : (w.fire req r ch).Stops r host port
  · have hfails := commandAttempt_of_stops req.data obj hstop
    rw [hfails] at hattempts
    constructor
    · intro hall
      refine ⟨fun hn => absurd hstop hn, fun _ hretry => ?_⟩
      exact hall _ ((hattempts (by simp) _).2 (Or.inr ⟨rfl, hretry, rfl⟩))
    · rintro ⟨-, hcon⟩ req' hhead
      rcases (hattempts (by simp) req').1 hhead with hbad | ⟨-, hretry, rfl⟩
      · cases hbad
      · exact hcon hstop hretry
  · obtain ⟨c', hc', hiff⟩ := target_eq_iff (h.fire req r ch) hy (List.mem_of_getElem? hobj.1)
    obtain ⟨req₁, hsends, hcon₁⟩ := commandAttempt_of_redirects req.data hr hstop hc'
    rw [hsends] at hattempts
    rw [← hiff, ← hcon₁]
    constructor
    · intro hall
      exact ⟨fun _ => hall _ ((hattempts (by simp) _).2 (Or.inl rfl)), fun hs => absurd hs hstop⟩
    · rintro ⟨heq, -⟩ req' hhead
      replace heq := heq hstop
      rcases (hattempts (by simp) req').1 hhead with hs | ⟨hbad, -⟩
      · cases hs
        exact heq
      · cases hbad

end redirected

private theorem goesWhereTold_step {w w' : AsyncWorld} {e : Stimulus} (h : Sound w) (hs : Step w e w') :
    GoesWhereTold w e ↔ FollowsNamed w e := by
  have hrun : (e.exec w).2 = w' := congrArg Prod.snd hs
  cases step_cases h hs with
  | silent hsil hnone =>
    cases e with
    | reply con r ch =>
      have ho := hnone con r ch rfl
      constructor
      · intro _ req obj host port c ho'
        rw [ho] at ho'
        cases ho'
      · intro _ req host port c ho'
        rw [ho] at ho'
        cases ho'
    | _ => exact Iff.rfl
  | issued args ch ch' obj c hcon halive hc => exact Iff.rfl
  | rejected args ch ch' obj c hcon halive => exact Iff.rfl
  | answered con r ch req obj obj' v u ho hobj he hreq hno hl hset hv hidle hvobj hu =>
    constructor
    · intro hgoes req' o host port c ho' hcb ho'' hr hy
      rw [ho] at ho'
      cases ho'
      cases Option.some.inj (ho''.1.symm.trans hobj.1)
      exact (goesWhereTold_redirected h hrun hobj hcb hl hset hr hy).1 (hgoes req host port c ho hcb hr hy)
    · intro hfollows req' host port c ho' hcb hr hy
      rw [ho] at ho'
      cases ho'
      exact (goesWhereTold_redirected h hrun hobj hcb hl hset hr hy).2 (hfollows req obj host port c ho hcb hobj hr hy)

/-! ### All runs -/

/-- In a run the first message after each redirection goes where the redirection says exactly when every redirection
finds its command without a connection of its own or with one for the same host and port. -/
theorem goesWhereTold_iff {w : AsyncWorld} {hist : List (AsyncWorld × Stimulus)} (r : AsyncRun w hist) :
    (∀ p ∈ hist, GoesWhereTold p.1 p.2) ↔ ∀ p ∈ hist, FollowsNamed p.1 p.2 := by
  refine forall₂_congr fun p hp => ?_
  obtain ⟨⟨past, hpast⟩, w', hstep⟩ := r.of_mem hp
  exact goesWhereTold_step (sound_of_run hpast) hstep

/-- A command that is redirected to one node and from there to another. -/
def redirectedTwice : List Stimulus :=
  askedOnce [] ++ [.reply 1 (.error (.ofText "ASK 7629 10.0.0.3:7002")) calm]

/-- The second redirection is followed on the connection for the first. -/
theorem not_goesWhereTold : ∃ w hist, AsyncRun w hist ∧ ¬ ∀ p ∈ hist, GoesWhereTold p.1 p.2 := by
  refine ⟨_, _, run_after oneNode_initial redirectedTwice (by decide +kernel), fun h => ?_⟩
  have hgoes := h (Stimulus.after (askedOnce []) oneNode,
    .reply 1 (.error (.ofText "ASK 7629 10.0.0.3:7002")) calm) (by simp [redirectedTwice, askedOnce,
      Stimulus.trail, Stimulus.after])
  have ho : (Stimulus.after (askedOnce []) oneNode).oldest 1 =
      some ⟨1, .processCommandReply, 0, .formatted (text "GET k")⟩ := by decide +kernel
  have hyields : (Cluster.createNewConnection functions (text "10.0.0.3") (text "7002")
      ((Stimulus.after (askedOnce []) oneNode).fire ⟨1, .processCommandReply, 0, .formatted (text "GET k")⟩
        (.error (.ofText "ASK 7629 10.0.0.3:7002")) calm)).1 =
      .ret (DefaultContainer.hostKey (text "10.0.0.3") (text "7002"), some 2) := by decide +kernel
  have hsent : (((Stimulus.reply 1 (.error (.ofText "ASK 7629 10.0.0.3:7002")) calm).attempts
      (Stimulus.after (askedOnce []) oneNode)).head?).map Request.con = some 1 := by decide +kernel
  obtain ⟨req', hhead, hcon⟩ := Option.map_eq_some_iff.1 hsent
  have := hgoes _ (text "10.0.0.3") (text "7002") 2 ho rfl (Or.inl (by decide +kernel)) ⟨_, hyields⟩ req' hhead
  rw [hcon] at this
  cases this

/-- A command that is redirected once goes where it is told. -/
theorem goesWhereTold_iff_askedOnce :
    AsyncRun (Stimulus.after (askedOnce []) oneNode) (Stimulus.trail (askedOnce []) oneNode) ∧
      ∀ p ∈ Stimulus.trail (askedOnce []) oneNode, GoesWhereTold p.1 p.2 := by
  have hrun := run_after oneNode_initial (askedOnce []) (by decide +kernel)
  refine ⟨hrun, (goesWhereTold_iff hrun).2 ?_⟩
  intro p hp
  simp only [askedOnce, Stimulus.trail, List.mem_cons, List.not_mem_nil, or_false] at hp
  rcases hp with rfl | rfl | rfl
  · trivial
  · intro req obj host port c ho _ hobj _ _
    have hdata := congrArg (Option.map Request.data) ho
    have hzero : 0 = req.data := Option.some.inj (Eq.trans (by decide +kernel) hdata)
    have hcon := congrArg (Option.map AsyncHiredisCommand.con_) hobj.1
    rw [← hzero] at hcon
    have hnone : (([], none) : HostConnection) = obj.con_ := Option.some.inj (Eq.trans (by decide +kernel) hcon)
    refine ⟨fun _ => Or.inl (by rw [← hnone]), fun _ hretry => ?_⟩
    have hset := congrArg (Option.map AsyncHiredisCommand.userErrorCb_) hobj.1
    rw [← hzero] at hset
    have hno : false = obj.userErrorCb_ := Option.some.inj (Eq.trans (by decide +kernel) hset)
    rw [hretry.1] at hno
    cases hno
  · intro req obj host port c ho hcb
    have hasking := congrArg (Option.map Request.callback) ho
    rw [Option.map_some, hcb] at hasking
    exact absurd hasking (by decide +kernel)

end HiredisCluster
