import HiredisCluster.AsyncRun

/-!
# `ASKING` and the command after it

The flag that `ASKING` sets on a connection is consumed by the next command, so a command that follows an `ASK`
redirection must come right after an `ASKING` of its own.  The code sends the two in different callbacks on a connection
that all commands share.  Replies come in the order of the requests (`Fifo`), so when the answer to `ASKING` arrives, it
was the last message on the connection exactly when no other request is outstanding there (`adjacent_iff`).
-/

namespace HiredisCluster

open Cxx AsyncHiredisCommand

/-- A message that hiredis accepted, with its cause. -/
abbrev Accepted := Request × Option (Request × ReplyPtr)

def Event.accepted : Event → Option Accepted
  | .sent req cause => some (req, cause)
  | _ => none

/-- The messages accepted on a connection, in order. -/
def World.acceptedOn (w : AsyncWorld) (con : ConPtr) : List Accepted :=
  (w.client.trace.filterMap Event.accepted).filter (·.1.con = con)

/-- The reply redirects with `ASK`. -/
def RedisReply.Asks (r : RedisReply) : Prop :=
  r.mentionsClusterDown = false ∧ ∃ host port, processResult r = .ret (.ask, host, port)

/-- A command sent to follow an `ASK` redirection: in the callback for the answer to `ASKING`, or sent again in the
callback that got the redirection. -/
def Accepted.FollowsAsk (x : Accepted) : Prop :=
  x.1.callback = .processCommandReply ∧ ∃ q a r, x.2 = some (q, .object a r) ∧
    (q.callback = .runRedisCallback ∨ r.Asks)

/-- The last of the messages is an `ASKING` of the command `x`. -/
def AskedLast (l : List Accepted) (x : Accepted) : Prop :=
  ∃ l₀ y, l = l₀ ++ [y] ∧ y.1.message = .format (text "ASKING") ∧ y.1.data = x.1.data

/-- Each command that follows an `ASK` redirection is immediately preceded by an `ASKING` of the same command. -/
def Adjacent (w : AsyncWorld) : Prop :=
  ∀ con l x l', w.acceptedOn con = l ++ x :: l' → Accepted.FollowsAsk x → AskedLast l x

/-- The step sends no command after an answer to `ASKING` while another request is outstanding on the connection, and
does not send a command again because following an `ASK` redirection failed. -/
def AsksAlone (w : AsyncWorld) : Stimulus → Prop
  | .reply con r ch => ∀ req obj, w.oldest con = some req → w.Holds req.data obj →
      (req.callback = .runRedisCallback →
        (w.fire req r ch).Survives con obj (askingAttempt req.data obj r) →
          ∀ q ∈ w.client.pending, q.con = con → q = req) ∧
      (req.callback = .processCommandReply → r.Asks →
        ¬ (w.fire req r ch).Resends con obj ((w.fire req r ch).commandAttempt req.data obj r))
  | _ => True

/-- What holds at each place of a list holds after appending when it holds at the new place too. -/
private theorem forall_split_concat {α : Type} (Q : List α → α → Prop) (L : List α) (y : α) :
    (∀ l x l', L ++ [y] = l ++ x :: l' → Q l x) ↔ (∀ l x l', L = l ++ x :: l' → Q l x) ∧ Q L y := by
  constructor
  · intro h
    refine ⟨fun l x l' hl => h l x (l' ++ [y]) (by rw [hl]; simp), h L y [] rfl⟩
  · rintro ⟨h1, h2⟩ l x l' hl
    rcases List.eq_nil_or_concat l' with rfl | ⟨l₀, z, rfl⟩
    · obtain ⟨rfl, hyx⟩ := List.append_inj' hl rfl
      cases hyx
      exact h2
    · rw [List.concat_eq_append, ← List.cons_append, ← List.append_assoc] at hl
      obtain ⟨hL, -⟩ := List.append_inj' hl rfl
      exact h1 l x l₀ hL

/-- The callback sends `req`: in the `try` block, or because the handler has the command sent again. -/
def World.Emits (v : AsyncWorld) (that : ObjPtr) (obj : AsyncHiredisCommand) (con : ConPtr) (att : Attempt)
    (req : Request) : Prop :=
  (att = .sends req ∧ v.Accepts req.con v.firstSend) ∨ (v.Resends con obj att ∧ req = obj.commandOn that con)

/-- What a callback sends. -/
theorem Settles.accepted {that : ObjPtr} {obj : AsyncHiredisCommand} {con : ConPtr} {reply : RedisReply} {att : Attempt}
    {v u : AsyncWorld} (h : Settles that obj con reply att v u) :
    (∃ req, u.client.pending = v.client.pending ++ [req] ∧
        u.client.trace.filterMap Event.accepted =
          v.client.trace.filterMap Event.accepted ++ [(req, v.client.firing)] ∧ v.Emits that obj con att req) ∨
      (¬ v.Survives con obj att ∧ u.client.pending = v.client.pending ∧
        u.client.trace.filterMap Event.accepted = v.client.trace.filterMap Event.accepted) := by
  have quiet (evs : List Event) (hq : ∀ e ∈ evs, e.Quiet) : evs.filterMap Event.accepted = [] := by
    rw [List.filterMap_eq_nil_iff]
    intro e he
    have := hq e he
    cases e <;> first | rfl | cases this
  have given : (obj.given that reply v.client.firing).filterMap Event.accepted = [] := by
    unfold AsyncHiredisCommand.given
    split <;> rfl
  cases h with
  | sent req hatt hacc hw =>
    obtain ⟨ch, rfl⟩ := hw
    exact Or.inl ⟨req, rfl, List.filterMap_append .., Or.inl ⟨hatt, hacc⟩⟩
  | resent evs hr hq ht hw =>
    obtain ⟨ch, rfl⟩ := hw
    refine Or.inl ⟨_, rfl, ?_, Or.inr ⟨hr, rfl⟩⟩
    show List.filterMap _ (v.client.trace ++ (evs ++ [_])) = _
    rw [List.filterMap_append, List.filterMap_append, quiet evs hq]
    rfl
  | ended evs hno hq ht hw =>
    right
    rcases hw with ⟨-, ch, rfl⟩ | ⟨-, -, ch, rfl⟩
    · refine ⟨hno, by rw [Sound.pending_kill]; rfl, ?_⟩
      rw [Sound.trace_kill]
      show List.filterMap _ (v.client.trace ++ (evs ++ _ ++ [_])) = _
      rw [List.filterMap_append, List.filterMap_append, List.filterMap_append, quiet evs hq, given]
      exact List.append_nil _
    · refine ⟨hno, rfl, ?_⟩
      show List.filterMap _ (v.client.trace ++ (evs ++ _)) = _
      rw [List.filterMap_append, List.filterMap_append, quiet evs hq, given]
      exact List.append_nil _

/-! ### Replies come in the order of the requests -/

/-- On every connection the outstanding requests are the last ones that were accepted, in the same order. -/
def InOrder (pending : List Request) (accepted : List Accepted) : Prop :=
  ∀ con, pending.filter (·.con = con) <:+ (accepted.filter (·.1.con = con)).map Prod.fst

def Fifo (w : AsyncWorld) : Prop := InOrder w.client.pending (w.client.trace.filterMap Event.accepted)

private theorem InOrder.concat {p : List Request} {acc : List Accepted} (h : InOrder p acc) (req : Request)
    (cause : Option (Request × ReplyPtr)) : InOrder (p ++ [req]) (acc ++ [(req, cause)]) := by
  intro con
  rw [List.filter_append, List.filter_append, List.map_append]
  by_cases hc : req.con = con
  · have h1 : [req].filter (·.con = con) = [req] := by simp [hc]
    have h2 : ([(req, cause)].filter (·.1.con = con)).map Prod.fst = [req] := by simp [hc]
    rw [h1, h2]
    obtain ⟨l, hl⟩ := h con
    exact ⟨l, by rw [← hl, List.append_assoc]⟩
  · have h1 : [req].filter (·.con = con) = [] := by simp [hc]
    have h2 : ([(req, cause)].filter (·.1.con = con)).map Prod.fst = [] := by simp [hc]
    rw [h1, h2, List.append_nil, List.append_nil]
    exact h con

private theorem InOrder.erase {l₁ l₂ : List Request} {req : Request} {acc : List Accepted}
    (h : InOrder (l₁ ++ req :: l₂) acc) (hfirst : ∀ q ∈ l₁, q.con ≠ req.con) : InOrder (l₁ ++ l₂) acc := by
  intro con
  refine List.IsSuffix.trans ?_ (h con)
  rw [List.filter_append, List.filter_append]
  by_cases hc : req.con = con
  · have hnil : l₁.filter (·.con = con) = [] := by
      rw [List.filter_eq_nil_iff]
      intro q hq heq
      exact hfirst q hq ((of_decide_eq_true heq).trans hc.symm)
    rw [hnil, List.filter_cons_of_pos (by simpa using hc)]
    exact List.suffix_cons _ _
  · have hskip : (req :: l₂).filter (·.con = con) = l₂.filter (·.con = con) :=
      List.filter_cons_of_neg (by simpa using hc)
    exact hskip ▸ List.suffix_rfl

private theorem fifo_step {w w' : AsyncWorld} {e : Stimulus} (h : Fifo w) (hs : StepCase w e w') : Fifo w' := by
  cases hs with
  | silent hsil hnone =>
    unfold Fifo
    rw [hsil.pending, hsil.trace]
    exact h
  | issued args ch ch' obj c hcon halive hc =>
    have hacc : (w.client.trace ++ [Event.sent (obj.commandOn w.client.objects.length c) w.client.firing,
        Event.returned w.client.objects.length]).filterMap Event.accepted =
          w.client.trace.filterMap Event.accepted ++ [(obj.commandOn w.client.objects.length c, w.client.firing)] :=
      List.filterMap_append ..
    show InOrder (w.client.pending ++ [_]) ((w.client.trace ++ [_, _]).filterMap Event.accepted)
    rw [hacc]
    exact InOrder.concat h _ _
  | rejected args ch ch' obj c hcon halive =>
    unfold Fifo
    rw [Sound.pending_kill, Sound.trace_kill]
    show InOrder w.client.pending ((w.client.trace ++ [_, _]).filterMap _)
    rw [List.filterMap_append]
    exact (List.append_nil _).symm ▸ h
  | answered con r ch req obj obj' v u ho hobj he hreq hno hl hset hv hidle hvobj hu =>
    obtain ⟨moves, connects, lifetime, hcl⟩ := hl.client_eq
    obtain ⟨-, l₁, l₂, hfirst, hp, herase⟩ := oldest_split ho
    have hvpending : v.client.pending = l₁ ++ l₂ := by rw [hcl]; exact herase
    have hvaccepted := hl.filterMap_trace (f := Event.accepted) fun _ => rfl
    have hafter : InOrder v.client.pending (v.client.trace.filterMap Event.accepted) := by
      rw [hvpending, hvaccepted]
      unfold Fifo at h
      rw [hp] at h
      exact h.erase fun q hq hc => hfirst q hq (hc.trans hreq)
    show InOrder u.client.pending (u.client.trace.filterMap Event.accepted)
    rcases hset.accepted with ⟨req', hpend, hacc, -⟩ | ⟨-, hpend, hacc⟩
    · rw [hpend, hacc]
      exact hafter.concat req' _
    · rw [hpend, hacc]
      exact hafter

private theorem fifo_of_run {w : AsyncWorld} {hist : List (AsyncWorld × Stimulus)} (r : AsyncRun w hist) : Fifo w := by
  refine Run.invariant_of (C := fun _ _ => True) (fun _ _ r => sound_of_run r) ?_
    (fun _ _ _ hs hf _ h => fifo_step hf (step_cases hs h)) r fun _ _ => trivial
  intro w h
  unfold Fifo
  rw [h.pending]
  exact fun con => List.nil_suffix

/-- The last message that was accepted on a connection is the last request outstanding there. -/
private theorem Fifo.last_eq {w : AsyncWorld} (hf : Fifo w) {con : ConPtr} {l : List Accepted} {y : Accepted}
    (hy : w.acceptedOn con = l ++ [y]) {m : List Request} {q : Request}
    (hq : w.client.pending.filter (·.con = con) = m ++ [q]) : y.1 = q := by
  obtain ⟨k, hk⟩ := hf con
  have hmap : k ++ (m ++ [q]) = l.map Prod.fst ++ [y.1] := by
    rw [← hq, hk]
    show (w.acceptedOn con).map Prod.fst = _
    rw [hy, List.map_append]
    rfl
  rw [← List.append_assoc] at hmap
  exact (List.singleton_inj.1 (List.append_inj' hmap rfl).2).symm

/-- The oldest request on a connection is the first of those outstanding there. -/
private theorem pending_on_of_oldest {w : AsyncWorld} {con : ConPtr} {req : Request} (ho : w.oldest con = some req) :
    ∃ rest, w.client.pending.filter (·.con = con) = req :: rest := by
  obtain ⟨hreq, l₁, l₂, hfirst, hp, -⟩ := oldest_split ho
  have hnil : l₁.filter (·.con = con) = [] := by
    rw [List.filter_eq_nil_iff]
    intro q hq heq
    exact hfirst q hq (of_decide_eq_true heq)
  exact ⟨l₂.filter (·.con = con), by
    rw [hp, List.filter_append, hnil, List.filter_cons_of_pos (by simpa using hreq), List.nil_append]⟩

/-- When the reply to a request arrives, that request was the last message on its connection exactly when it is the only
one outstanding there; another one that is outstanding belongs to another command. -/
private theorem askedLast_iff {w : AsyncWorld} (hs : Sound w) (hf : Fifo w) {con : ConPtr} {req : Request}
    (ho : w.oldest con = some req) {x : Accepted} (hx : x.1.data = req.data) :
    AskedLast (w.acceptedOn con) x ↔
      req.message = .format (text "ASKING") ∧ ∀ q ∈ w.client.pending, q.con = con → q = req := by
  obtain ⟨rest, hfilter⟩ := pending_on_of_oldest ho
  have hmem (q : Request) : q ∈ req :: rest ↔ q ∈ w.client.pending ∧ q.con = con := by
    rw [← hfilter, List.mem_filter, decide_eq_true_iff]
  have hdistinct : ∀ q ∈ rest, q.data ≠ req.data := by
    have hnodup : ((w.client.pending.filter (·.con = con)).map Request.data).Nodup :=
      (List.filter_sublist.map Request.data).nodup hs.nodup
    rw [hfilter, List.map_cons, List.nodup_cons] at hnodup
    exact fun q hq heq => hnodup.1 (heq ▸ List.mem_map_of_mem hq)
  rcases List.eq_nil_or_concat rest with rfl | ⟨m, q, rfl⟩
  · have halone : ∀ q ∈ w.client.pending, q.con = con → q = req := fun q hq hc =>
      List.mem_singleton.1 ((hmem q).2 ⟨hq, hc⟩)
    constructor
    · rintro ⟨l, y, hy, hmsg, -⟩
      rw [hf.last_eq hy (m := []) hfilter] at hmsg
      exact ⟨hmsg, halone⟩
    · rintro ⟨hmsg, -⟩
      rcases List.eq_nil_or_concat (w.acceptedOn con) with hnil | ⟨l, y, hy⟩
      · obtain ⟨k, hk⟩ := hf con
        have hone : k ++ [req] = (w.acceptedOn con).map Prod.fst := hfilter ▸ hk
        rw [hnil] at hone
        simp at hone
      · rw [List.concat_eq_append] at hy
        have hyq := hf.last_eq hy (m := []) hfilter
        exact ⟨l, y, hy, by rw [hyq]; exact hmsg, by rw [hyq, hx]⟩
  · rw [List.concat_eq_append] at hfilter hmem hdistinct
    have hne : q.data ≠ req.data := hdistinct q (by simp)
    constructor
    · rintro ⟨l, y, hy, -, hd⟩
      rw [hf.last_eq hy (m := req :: m) hfilter, hx] at hd
      exact absurd hd hne
    · rintro ⟨-, halone⟩
      obtain ⟨hq, hc⟩ := (hmem q).1 (by simp)
      exact absurd (congrArg Request.data (halone q hq hc)) hne

/-! ### Adjacency -/

private theorem adjacent_of_accepted_eq {w w' : AsyncWorld}
    (h : w'.client.trace.filterMap Event.accepted = w.client.trace.filterMap Event.accepted) :
    Adjacent w' ↔ Adjacent w := by
  unfold Adjacent World.acceptedOn
  rw [h]

/-- One more message is accepted. -/
private theorem adjacent_concat {w w' : AsyncWorld} {x : Accepted}
    (h : w'.client.trace.filterMap Event.accepted = w.client.trace.filterMap Event.accepted ++ [x]) :
    Adjacent w' ↔ Adjacent w ∧ (Accepted.FollowsAsk x → AskedLast (w.acceptedOn x.1.con) x) := by
  have hon (con : ConPtr) : w'.acceptedOn con = if x.1.con = con then w.acceptedOn con ++ [x] else w.acceptedOn con := by
    unfold World.acceptedOn
    rw [h, List.filter_append]
    by_cases hc : x.1.con = con <;> simp [hc]
  have hsplit := forall_split_concat (fun l x => Accepted.FollowsAsk x → AskedLast l x) (w.acceptedOn x.1.con) x
  constructor
  · intro hw'
    have hx := hsplit.1 (by have := hw' x.1.con; rwa [hon, if_pos rfl] at this)
    refine ⟨fun con => ?_, hx.2⟩
    by_cases hc : x.1.con = con
    · subst hc
      exact hx.1
    · have := hw' con
      rwa [hon, if_neg hc] at this
  · rintro ⟨hw, hx⟩ con
    rw [hon]
    by_cases hc : x.1.con = con
    · subst hc
      rw [if_pos rfl]
      exact hsplit.2 ⟨hw x.1.con, hx⟩
    · rw [if_neg hc]
      exact hw con

section answered

variable {w v : AsyncWorld} {con : ConPtr} {r : RedisReply} {ch : Choices} {req : Request}
  {obj obj' : AsyncHiredisCommand}

/-- The condition, for the request whose reply arrives. -/
private theorem asksAlone_iff (ho : w.oldest con = some req) (hobj : w.Holds req.data obj)
    (hl : Linked req.data obj obj' ((w.fire req r ch).attemptOf req obj r).target (w.fire req r ch) v) :
    AsksAlone w (.reply con r ch) ↔
      (req.callback = .runRedisCallback → v.Survives con obj' ((w.fire req r ch).attemptOf req obj r) →
        ∀ q ∈ w.client.pending, q.con = con → q = req) ∧
      (req.callback = .processCommandReply → r.Asks →
        ¬ v.Resends con obj' ((w.fire req r ch).attemptOf req obj r)) := by
  rw [hl.survives_iff, hl.resends_iff]
  constructor
  · intro h
    obtain ⟨h1, h2⟩ := h req obj ho hobj
    constructor
    · intro hcb
      rw [World.attemptOf, hcb]
      exact h1 hcb
    · intro hcb
      rw [World.attemptOf, hcb]
      exact h2 hcb
  · rintro ⟨h1, h2⟩ req' o ho' ho''
    rw [ho] at ho'
    cases ho'
    cases Option.some.inj (ho''.1.symm.trans hobj.1)
    constructor
    · intro hcb
      have := h1 hcb
      rwa [World.attemptOf, hcb] at this
    · intro hcb
      have := h2 hcb
      rwa [World.attemptOf, hcb] at this

/-- Following an `ASK` redirection, the `try` block sends `ASKING`. -/
private theorem attempt_of_asks (hcb : req.callback = .processCommandReply) (hr : r.Asks) {req' : Request}
    (h : w.attemptOf req obj r = .sends req') : req'.callback = .runRedisCallback := by
  obtain ⟨hdown, host, port, hres⟩ := hr
  rw [World.attemptOf, hcb] at h
  simp only [World.commandAttempt, hdown, hres] at h
  cases ht : w.redirectTarget obj host port with
  | none => rw [ht] at h; cases h
  | some c => rw [ht] at h; cases h; rfl

private theorem World.Emits.survives {that : ObjPtr} {att : Attempt} {req' : Request}
    (h : v.Emits that obj' con att req') :
    v.Survives con obj' att := by
  rcases h with ⟨hatt, ha⟩ | ⟨hr, -⟩
  · exact Or.inl ⟨req', hatt, ha⟩
  · exact Or.inr hr

private theorem World.Emits.data_eq {req' : Request} (h : v.Emits req.data obj' con (w.attemptOf req obj r) req') :
    req'.data = req.data := by
  rcases h with ⟨hatt, -⟩ | ⟨-, rfl⟩
  · rcases attemptOf_sends hatt with heq | heq <;> rw [heq] <;> rfl
  · rfl

/-- After an answer to `ASKING` the command is sent, on the connection on which `ASKING` was sent. -/
private theorem World.Emits.afterAsking {req' : Request} (h : v.Emits req.data obj' con (w.attemptOf req obj r) req')
    (hcb : req.callback = .runRedisCallback) (hown : obj.con_.2 = some req.con) (hreq : req.con = con) :
    req'.con = con ∧ req'.callback = .processCommandReply := by
  rcases h with ⟨hatt, -⟩ | ⟨-, rfl⟩
  · rw [World.attemptOf, hcb] at hatt
    unfold askingAttempt at hatt
    rw [hown] at hatt
    cases hok : r.isOk <;> rw [hok] at hatt <;> cases hatt
    exact ⟨hreq, rfl⟩
  · exact ⟨rfl, rfl⟩

end answered

/-- The step in which the answer to a request arrives, when a request `req'` is accepted in it. -/
private theorem adjacent_sent {w v : AsyncWorld} {con : ConPtr} {r : RedisReply} {ch : Choices} {req req' : Request}
    {obj obj' : AsyncHiredisCommand} (hs : Sound w) (hf : Fifo w) (ho : w.oldest con = some req)
    (hobj : w.Holds req.data obj) (he : req.Expected obj)
    (hl : Linked req.data obj obj' ((w.fire req r ch).attemptOf req obj r).target (w.fire req r ch) v)
    (hwhich : v.Emits req.data obj' con ((w.fire req r ch).attemptOf req obj r) req') :
    (Accepted.FollowsAsk (req', some (req, .object w.replies r)) →
        AskedLast (w.acceptedOn req'.con) (req', some (req, .object w.replies r))) ↔
      AsksAlone w (.reply con r ch) := by
  have hasked := askedLast_iff hs hf ho (x := (req', some (req, .object w.replies r))) hwhich.data_eq
  rw [asksAlone_iff ho hobj hl]
  unfold Request.Expected at he
  cases hcb : req.callback with
  | runRedisCallback =>
    rw [hcb] at he
    obtain ⟨hcon, hcommand⟩ := hwhich.afterAsking hcb he.2 (oldest_split ho).1
    rw [hcon, hasked]
    constructor
    · intro h
      exact ⟨fun _ _ => (h ⟨hcommand, req, _, r, rfl, Or.inl hcb⟩).2, fun h => absurd h (by simp)⟩
    · rintro ⟨h, -⟩ -
      exact ⟨he.1, h rfl hwhich.survives⟩
  | processCommandReply =>
    rw [hcb] at he
    -- the message before is the command, so a command sent again does not follow an `ASKING`
    have hmsg : req.message ≠ .format (text "ASKING") := by
      rw [he]
      simp
    constructor
    · intro h
      refine ⟨fun h => absurd h (by simp), fun _ hr hresends => ?_⟩
      rcases hwhich with ⟨hatt, ha⟩ | ⟨-, rfl⟩
      · rw [hatt] at hresends
        exact hresends.1 ha
      · exact hmsg (hasked.1 (h ⟨rfl, req, _, r, rfl, Or.inr hr⟩)).1
    · rintro ⟨-, h⟩ ⟨hproc, q, a, r', heq, hq⟩
      cases heq
      have hr : r.Asks := by
        rcases hq with hq | hq
        · rw [hcb] at hq
          cases hq
        · exact hq
      rcases hwhich with ⟨hatt, -⟩ | ⟨hresends, -⟩
      · rw [attempt_of_asks hcb hr hatt] at hproc
        cases hproc
      · exact absurd hresends (h rfl hr)

private theorem adjacent_step {w w' : AsyncWorld} {e : Stimulus} (hs : Sound w) (hf : Fifo w)
    (hfiring : w.client.firing = none) (h : StepCase w e w') : Adjacent w' ↔ Adjacent w ∧ AsksAlone w e := by
  cases h with
  | silent hsil hnone =>
    have hc : AsksAlone w e := by
      cases e with
      | reply con r ch =>
        intro req obj ho
        rw [hnone con r ch rfl] at ho
        cases ho
      | _ => trivial
    refine (adjacent_of_accepted_eq (congrArg _ hsil.trace)).trans ?_
    exact ⟨fun h => ⟨h, hc⟩, And.left⟩
  | issued args ch ch' obj c hcon halive hc =>
    have hacc : (w.client.trace ++ [Event.sent (obj.commandOn w.client.objects.length c) w.client.firing,
        Event.returned w.client.objects.length]).filterMap Event.accepted =
          w.client.trace.filterMap Event.accepted ++ [(obj.commandOn w.client.objects.length c, w.client.firing)] :=
      List.filterMap_append ..
    refine (adjacent_concat hacc).trans (and_congr_right fun _ => ⟨fun _ => trivial, fun _ => ?_⟩)
    rintro ⟨-, q, a, r, heq, -⟩
    rw [hfiring] at heq
    cases heq
  | rejected args ch ch' obj c hcon halive =>
    have hacc : (w.client.trace ++ [Event.refused (obj.commandOn w.client.objects.length c) w.client.firing,
        Event.deleted w.client.objects.length]).filterMap Event.accepted = w.client.trace.filterMap Event.accepted :=
      (List.filterMap_append ..).trans (List.append_nil _)
    refine (adjacent_of_accepted_eq ((congrArg _ Sound.trace_kill).trans hacc)).trans ?_
    exact ⟨fun h => ⟨h, trivial⟩, And.left⟩
  | answered con r ch req obj obj' v u ho hobj he hreq hno hl hset hv hidle hvobj hu =>
    obtain ⟨moves, connects, lifetime, hcl⟩ := hl.client_eq
    have hvfiring : v.client.firing = some (req, .object w.replies r) := by rw [hcl]; rfl
    have hvaccepted := hl.filterMap_trace (f := Event.accepted) fun _ => rfl
    rcases hset.accepted with ⟨req', -, hacc, hwhich⟩ | ⟨hdead, -, hacc⟩
    · rw [hvaccepted, hvfiring] at hacc
      exact (adjacent_concat hacc).trans (and_congr_right fun _ => adjacent_sent hs hf ho hobj he hl hwhich)
    · rw [hvaccepted] at hacc
      refine (adjacent_of_accepted_eq hacc).trans ⟨fun h => ⟨h, (asksAlone_iff ho hobj hl).2 ?_⟩, And.left⟩
      exact ⟨fun _ hs => absurd hs hdead, fun _ _ hr => hdead (Or.inr hr)⟩

/-- In a run each command that follows an `ASK` redirection comes right after its own `ASKING` exactly when no step sends
it while another request is outstanding on the connection, or sends it again because following the redirection
failed. -/
theorem adjacent_iff {w : AsyncWorld} {hist : List (AsyncWorld × Stimulus)} (r : AsyncRun w hist) :
    Adjacent w ↔ ∀ p ∈ hist, AsksAlone p.1 p.2 := by
  refine Run.iff_forall (fun w hist r => (⟨sound_of_run r, fifo_of_run r, firing_of_run r⟩ :
    Sound w ∧ Fifo w ∧ w.client.firing = none)) ?_ ?_ r
  · intro w h con l x l' hl
    unfold World.acceptedOn at hl
    rw [h.trace] at hl
    simp at hl
  · exact fun w e w' h hs => adjacent_step h.1 h.2.1 h.2.2 (step_cases h.1 hs)

/-- Two commands that are redirected to the same node before the first `ASKING` is answered. -/
def askedTwice : List Stimulus :=
  [.command ⟨false, text "k", some (text "GET k"), true⟩ calm, .command ⟨false, text "k", some (text "GET k"), true⟩ calm,
    .reply 0 (.error (.ofText "ASK 7629 10.0.0.2:7001")) calm,
    .reply 0 (.error (.ofText "ASK 7629 10.0.0.2:7001")) calm,
    .reply 1 (.status (.ofText "OK")) calm]

/-- The first command then follows the `ASKING` of the second one. -/
theorem not_adjacent : ∃ w hist, AsyncRun w hist ∧ ¬ Adjacent w := by
  refine ⟨_, _, run_after oneNode_initial askedTwice (by decide +kernel), fun h => ?_⟩
  have hshape : ((Stimulus.after askedTwice oneNode).acceptedOn 1).map (fun x => (x.1.data, x.1.callback,
      x.2.map fun cause => (cause.1.callback, cause.2.object?.isSome))) =
      [(0, .runRedisCallback, some (.processCommandReply, true)),
        (1, .runRedisCallback, some (.processCommandReply, true)),
        (0, .processCommandReply, some (.runRedisCallback, true))] := by decide +kernel
  obtain ⟨x₁, rest, hacc, -, hshape⟩ := List.map_eq_cons_iff.1 hshape
  obtain ⟨x₂, rest, rfl, h₂, hshape⟩ := List.map_eq_cons_iff.1 hshape
  obtain ⟨x₃, rest, rfl, h₃, -⟩ := List.map_eq_cons_iff.1 hshape
  simp only [Prod.mk.injEq] at h₂ h₃
  have hfollows : Accepted.FollowsAsk x₃ := by
    refine ⟨h₃.2.1, ?_⟩
    obtain ⟨⟨q, p⟩, hcause, hq⟩ := Option.map_eq_some_iff.1 h₃.2.2
    obtain ⟨hcallback, hobject⟩ := Prod.mk.inj hq
    obtain ⟨reply, hreply⟩ := Option.isSome_iff_exists.1 hobject
    obtain ⟨address, rfl⟩ := ReplyPtr.eq_object hreply
    exact ⟨q, address, reply, hcause, Or.inl hcallback⟩
  obtain ⟨l₀, y, hl, -, hd⟩ := h 1 [x₁, x₂] x₃ rest hacc hfollows
  have hy : x₂ = y := by
    have := (List.append_inj' (show [x₁] ++ [x₂] = l₀ ++ [y] from hl) rfl).2
    exact List.singleton_inj.1 this
  rw [← hy, h₂.1, h₃.1] at hd
  cases hd

/-- A single command that is redirected follows its own `ASKING`. -/
theorem adjacent_iff_askedOnce : Adjacent (Stimulus.after (askedOnce []) oneNode) := by
  refine (adjacent_iff (run_after oneNode_initial (askedOnce []) (by decide +kernel))).2 ?_
  intro p hp
  simp only [askedOnce, Stimulus.trail, List.mem_cons, List.not_mem_nil, or_false] at hp
  rcases hp with rfl | rfl | rfl
  · trivial
  · intro req obj ho hobj
    have hreq := congrArg (Option.map fun q => (q.callback, q.data)) ho
    have hcb : (Callback.processCommandReply, 0) = (req.callback, req.data) :=
      Option.some.inj (Eq.trans (by decide +kernel) hreq)
    simp only [Prod.mk.injEq] at hcb
    refine ⟨fun h => absurd (hcb.1.trans h) (by simp), fun _ _ hresends => ?_⟩
    have hobj0 := congrArg (Option.map AsyncHiredisCommand.userErrorCb_) hobj.1
    rw [← hcb.2] at hobj0
    have hno : false = obj.userErrorCb_ := Option.some.inj (Eq.trans (by decide +kernel) hobj0)
    have hset : obj.userErrorCb_ = true := by
      generalize World.commandAttempt _ _ _ _ = att at hresends
      cases att with
      | ready => cases hresends
      | sends req => exact hresends.2.1.1
      | fails => exact hresends.1.1
    rw [← hno] at hset
    cases hset
  · intro req obj ho hobj
    have hreq : some req = some (askingOn 0 1) := ho.symm.trans (by decide +kernel)
    cases hreq
    refine ⟨fun _ _ => ?_, fun h => by cases h⟩
    decide +kernel

end HiredisCluster
