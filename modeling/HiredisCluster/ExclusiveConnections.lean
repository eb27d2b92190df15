import HiredisCluster.ThreadedClients

/-!
# Connections of a shared pool are exclusive

The invariant `Sound` counts where a connection is: in the queues and in the hands of each thread together it is found
at most once, and on a connection without an error at most one message waits for its reply, the one its holder sent
last.  Each step of a thread keeps it, whatever the other threads do (`Sound.advance`), so every reply is read by the
thread that sent the message (`exclusive_and_paired`).
-/

namespace HiredisCluster

open Cxx HiredisCommand

/-- The connection on which a call sends a message or reads a reply. -/
def SyncCall.exchangesOn : SyncCall → Option ConPtr
  | redisAppendFormattedCommand con _ | redisGetReply con | redisCommand con _ => some con
  | _ => none

/-! ### What the sections do to the queues -/

namespace ThreadedPool

/-- The connection that a section hands out. -/
def taken {κ : Type} : Outcome Exn (Pulled κ) → List ConPtr
  | .ret (.got conn _) => [conn.2]
  | _ => []

/-- The queues lose what is taken and gain only connections that were opened in the section. -/
structure Draws (c c' : ThreadedPool) (con : List ConPtr) : Prop where
  contexts : c.contexts <+: c'.contexts
  queued : ∀ x, c'.pools.flatten.count x + con.count x ≤
    c.pools.flatten.count x + if c.contexts.length ≤ x ∧ x < c'.contexts.length then 1 else 0

private theorem Draws.refl (c : ThreadedPool) : Draws c c [] := by
  refine ⟨List.prefix_refl _, fun x => ?_⟩
  simp

/-- Replacing one queue by another. -/
private theorem count_flatten_set {pools : List (List ConPtr)} {pool : PoolPtr} {q : List ConPtr}
    (h : pools[pool]? = some q) (q' : List ConPtr) (x : ConPtr) :
    (pools.set pool q').flatten.count x + q.count x = pools.flatten.count x + q'.count x := by
  induction pools generalizing pool with
  | nil => cases h
  | cons a pools ih =>
    cases pool with
    | zero =>
      obtain rfl : a = q := by simpa using h
      simp only [List.set_cons_zero, List.flatten_cons, List.count_append]
      omega
    | succ pool =>
      have tail := ih (by simpa using h : pools[pool]? = some q)
      simp only [List.set_cons_succ, List.flatten_cons, List.count_append]
      omega

private theorem count_flatten_push (pools : List (List ConPtr)) (pool : PoolPtr) (con x : ConPtr) :
    (pools.modify pool (· ++ [con])).flatten.count x ≤ pools.flatten.count x + [con].count x := by
  induction pools generalizing pool with
  | nil => simp
  | cons a pools ih =>
    cases pool with
    | zero =>
      simp only [List.modify_zero_cons, List.flatten_cons, List.count_append]
      omega
    | succ pool =>
      have tail := ih pool
      simp only [List.modify_succ_cons, List.flatten_cons, List.count_append]
      omega

private theorem pullConnection_draws {κ : Type} (key : κ) (pool : PoolPtr) (c : ThreadedPool) :
    Draws c (pullConnection key pool c).2 (taken (pullConnection key pool c).1) := by
  unfold pullConnection
  split
  · exact Draws.refl c
  · exact Draws.refl c
  · rename_i con rest hq
    refine ⟨List.prefix_refl _, fun x => ?_⟩
    have count := count_flatten_set hq rest x
    rw [← List.singleton_append, List.count_append] at count
    show (c.pools.set pool rest).flatten.count x + [con].count x ≤ _
    omega

private theorem Published.draws {j : Nat} {c c' : ThreadedPool} (h : Published j c c') : Draws c c' [] := by
  refine ⟨h.contexts, fun x => ?_⟩
  have opened := h.opened
  have once : (List.range' c.contexts.length j).count x ≤
      if c.contexts.length ≤ x ∧ x < c'.contexts.length then 1 else 0 := by
    rw [List.count_range_1']
    by_cases hin : c.contexts.length ≤ x ∧ x < c.contexts.length + j
    · have hnew : c.contexts.length ≤ x ∧ x < c'.contexts.length := ⟨hin.1, Nat.lt_of_lt_of_le hin.2 opened⟩
      rw [if_pos hin, if_pos hnew]
    · rw [if_neg hin]
      exact Nat.zero_le _
  rw [h.pools, List.flatten_append, List.count_append, List.flatten_singleton, List.count_nil]
  omega

private theorem Draws.trans {c c' c'' : ThreadedPool} {con : List ConPtr} (h : Draws c c' []) (h' : Draws c' c'' con)
    (hx : c''.contexts = c'.contexts) : Draws c c'' con := by
  refine ⟨h.contexts.trans h'.contexts, fun x => ?_⟩
  have first := h.queued x
  have second := h'.queued x
  rw [hx] at second ⊢
  rw [List.count_nil] at first
  have none_opened : ¬ (c'.contexts.length ≤ x ∧ x < c'.contexts.length) :=
    fun h => Nat.lt_irrefl _ (Nat.lt_of_le_of_lt h.1 h.2)
  rw [if_neg none_opened] at second
  omega

private theorem insertSlots_draws (slots : SlotRange) (host : Bytes) (port : Int32) (c : ThreadedPool) :
    Draws c (insertSlots slots host port c).2 [] := by
  obtain ⟨j, c', -, hpub, -, -, -, hrun⟩ := insertSlots_spec slots host port c
  rw [hrun]
  exact hpub.draws

theorem pullConnection_contexts {κ : Type} (key : κ) (pool : PoolPtr) (c : ThreadedPool) :
    (pullConnection key pool c).2.contexts = c.contexts := by
  unfold pullConnection
  split <;> rfl

private theorem insertHost_draws (host port : Bytes) (c : ThreadedPool) :
    Draws c (insertHost host port c).2 (taken (insertHost host port c).1) := by
  cases hl : c.connections_.lookup (DefaultContainer.hostKey host port) with
  | some pool =>
    rw [insertHost_found hl]
    exact pullConnection_draws _ _ _
  | none =>
    obtain ⟨j, c', -, hpub, -, -, -, ⟨-, hrun⟩ | ⟨-, e, hrun⟩⟩ := insertHost_new hl
    · rw [hrun]
      exact hpub.draws.trans (pullConnection_draws _ _ _) (pullConnection_contexts _ _ _)
    · rw [hrun]
      exact hpub.draws

private theorem getConnection_draws (index : SlotIndex) (c : ThreadedPool) :
    Draws c (getConnection index c).2 (taken (getConnection index c).1) := by
  rcases getConnection_cases index c with ⟨e, -, -, hrun⟩ | hrun
  · rw [hrun]
    exact pullConnection_draws _ _ _
  · rw [hrun]
    exact Draws.refl c

/-- What a release does to the queues. -/
structure Returns (con : ConPtr) (c c' : ThreadedPool) : Prop where
  contexts : c'.contexts = c.contexts
  queued : ∀ x, c'.pools.flatten.count x ≤ c.pools.flatten.count x + [con].count x

private theorem releaseSlotConnection_returns (conn : SlotConnection) (c : ThreadedPool) :
    Returns conn.2 c (releaseSlotConnection conn c).2 := by
  unfold releaseSlotConnection
  rw [Code.bind_of_ret (Code.get_apply c)]
  cases c.nodes_.lookup conn.1 with
  | some pool => exact ⟨rfl, fun x => count_flatten_push _ _ _ x⟩
  | none => exact ⟨rfl, fun x => Nat.le_add_right _ _⟩

private theorem releaseHostConnection_returns (key : Bytes) (con : ConPtr) (c : ThreadedPool) :
    Returns con c (releaseHostConnection key con c).2 := by
  unfold releaseHostConnection
  rw [Code.bind_of_ret (Code.get_apply c)]
  cases c.connections_.lookup key with
  | some pool => exact ⟨rfl, fun x => count_flatten_push _ _ _ x⟩
  | none => exact ⟨rfl, fun x => Nat.le_add_right _ _⟩

end ThreadedPool

/-! ### The invariant -/

namespace Threads

variable {ι : Type} {s s' : Threads ι} {t : ι}

/-- The only message in flight on the connection is the one that the thread sent last. -/
def Awaits (s : Threads ι) (t : ι) (x : ThreadState) (c : ConPtr) : Prop :=
  ∃ m, x.sent = some m ∧ s.messages[m]? = some (t, c) ∧ s.inFlight c = [m]

/-- On a held connection without an error nothing is in flight but the message whose reply is owed. -/
def Clear (s : Threads ι) (t : ι) (x : ThreadState) (owed : Option ConPtr) : Prop :=
  ∀ c ∈ x.held, s.err c = false → (owed = some c ∧ Awaits s t x c) ∨ (owed ≠ some c ∧ s.inFlight c = [])

/-- A thread goes on by the rule, from the connections it holds. -/
def Behaves (s : Threads ι) (t : ι) (x : ThreadState) : Prop :=
  match x.activity with
  | .idle => x.held = []
  | .running p => ∃ owed, p.Obeys custody (fun _ _ => True) ⟨x.held, owed⟩ ∧ Clear s t x owed
  | .waiting _ resume =>
    (∀ con, (resume con).Obeys custody (fun _ _ => True) ⟨con :: x.held, none⟩) ∧ Clear s t x none

structure Sound (s : Threads ι) : Prop where
  once : ∀ c, s.queued.count c ≤ 1
  place : ∀ t c, s.queued.count c + (s.threads t).held.count c ≤ 1
  alone : ∀ t u c, c ∈ (s.threads t).held → c ∈ (s.threads u).held → t = u
  queuedOpened : ∀ c ∈ s.queued, c < s.container.contexts.length
  heldOpened : ∀ t, ∀ c ∈ (s.threads t).held, c < s.container.contexts.length
  silent : ∀ c ∈ s.queued, s.err c = false → s.inFlight c = []
  new : ∀ c, s.container.contexts.length ≤ c → s.inFlight c = []
  behaves : ∀ t, Behaves s t (s.threads t)

private theorem Clear.frame {x : ThreadState} {owed : Option ConPtr} (h : Clear s t x owed)
    (hm : s.messages <+: s'.messages)
    (hf : ∀ c ∈ x.held, s'.err c = s.err c ∧ s'.inFlight c = s.inFlight c) : Clear s' t x owed := by
  intro c hc he
  obtain ⟨herr, hfl⟩ := hf c hc
  rw [herr] at he
  rcases h c hc he with ⟨howed, m, hsent, hm', hone⟩ | ⟨howed, hnone⟩
  · obtain ⟨later, hlater⟩ := hm
    refine Or.inl ⟨howed, m, hsent, ?_, hfl.trans hone⟩
    rw [← hlater, List.getElem?_append_left (List.getElem?_eq_some_iff.1 hm').1]
    exact hm'
  · exact Or.inr ⟨howed, hfl.trans hnone⟩

private theorem Behaves.frame {x : ThreadState} (h : Behaves s t x) (hm : s.messages <+: s'.messages)
    (hf : ∀ c ∈ x.held, s'.err c = s.err c ∧ s'.inFlight c = s.inFlight c) : Behaves s' t x := by
  obtain ⟨activity, held, sent⟩ := x
  cases activity with
  | idle => exact h
  | running p =>
    obtain ⟨owed, hobeys, hclear⟩ := h
    exact ⟨owed, hobeys, hclear.frame hm hf⟩
  | waiting pool resume => exact ⟨h.1, h.2.frame hm hf⟩

/-- What a step of the thread `t` may do: it changes only what it holds, may open connections, and what it returns is
silent. -/
structure Advances (s s' : Threads ι) (t : ι) : Prop where
  others : ∀ u, u ≠ t → s'.threads u = s.threads u
  contexts : s.container.contexts.length ≤ s'.container.contexts.length
  places : ∀ c, s'.queued.count c + (s'.threads t).held.count c ≤ s.queued.count c + (s.threads t).held.count c +
    if s.container.contexts.length ≤ c ∧ c < s'.container.contexts.length then 1 else 0
  err : ∀ c, c < s.container.contexts.length → c ∉ (s.threads t).held → s'.err c = s.err c
  inFlight : ∀ c, c ∉ (s.threads t).held → s'.inFlight c = s.inFlight c
  messages : s.messages <+: s'.messages
  returned : ∀ c ∈ (s.threads t).held, c ∈ s'.queued → s'.err c = false → s'.inFlight c = []

/-- A connection that was opened before the step has not more places than it had. -/
private theorem Advances.places_old (a : Advances s s' t) {c : ConPtr} (hc : c < s.container.contexts.length) :
    s'.queued.count c + (s'.threads t).held.count c ≤ s.queued.count c + (s.threads t).held.count c := by
  have places := a.places c
  rw [if_neg fun hnew => Nat.lt_irrefl _ (Nat.lt_of_le_of_lt hnew.1 hc)] at places
  exact places

/-- A connection that is not opened has no place. -/
private theorem Sound.unplaced (h : Sound s) {c : ConPtr} (hc : ¬ c < s.container.contexts.length) :
    s.queued.count c = 0 ∧ (s.threads t).held.count c = 0 := by
  constructor
  · exact List.count_eq_zero.2 fun hq => hc (h.queuedOpened c hq)
  · exact List.count_eq_zero.2 fun hq => hc (h.heldOpened t c hq)

/-- A connection that another thread holds is out of reach. -/
private theorem Sound.elsewhere (h : Sound s) {u : ι} (hu : u ≠ t) {c : ConPtr} (hc : c ∈ (s.threads u).held) :
    s.queued.count c = 0 ∧ c ∉ (s.threads t).held ∧ c < s.container.contexts.length := by
  have held := List.count_pos_iff.2 hc
  have place := h.place u c
  exact ⟨by omega, fun ht => hu (h.alone u t c hc ht), h.heldOpened u c hc⟩

private theorem Advances.place_self (a : Advances s s' t) (h : Sound s) (c : ConPtr) :
    s'.queued.count c + (s'.threads t).held.count c ≤ 1 := by
  by_cases hc : c < s.container.contexts.length
  · exact Nat.le_trans (a.places_old hc) (h.place t c)
  · have places := a.places c
    obtain ⟨hq, hh⟩ := h.unplaced (t := t) hc
    rw [hq, hh] at places
    split at places <;> omega

/-- What another thread holds stays out of reach. -/
private theorem Advances.place_other (a : Advances s s' t) (h : Sound s) {u : ι} (hu : u ≠ t) {c : ConPtr}
    (hc : c ∈ (s.threads u).held) : s'.queued.count c = 0 ∧ c ∉ (s'.threads t).held := by
  obtain ⟨hq, hh, hopen⟩ := h.elsewhere hu hc
  have places := a.places_old hopen
  rw [hq, List.count_eq_zero.2 hh] at places
  exact ⟨by omega, List.count_eq_zero.1 (by omega)⟩

/-- A connection that has a place was opened before or in the step. -/
private theorem Advances.opened (a : Advances s s' t) (h : Sound s) {c : ConPtr}
    (hc : 0 < s'.queued.count c + (s'.threads t).held.count c) : c < s'.container.contexts.length := by
  by_cases hold : c < s.container.contexts.length
  · exact Nat.lt_of_lt_of_le hold a.contexts
  · have places := a.places c
    obtain ⟨hq, hh⟩ := h.unplaced (t := t) hold
    rw [hq, hh] at places
    split at places
    · rename_i hnew
      exact hnew.2
    · omega

/-- The invariant survives a step of one thread whatever the others are doing. -/
theorem Sound.advance (h : Sound s) (a : Advances s s' t) (hb : Behaves s' t (s'.threads t)) : Sound s' where
  once c := Nat.le_trans (Nat.le_add_right _ _) (a.place_self h c)
  place u c := by
    by_cases hu : u = t
    · rw [hu]
      exact a.place_self h c
    · rw [a.others u hu]
      by_cases hc : c ∈ (s.threads u).held
      · rw [(a.place_other h hu hc).1, Nat.zero_add]
        exact Nat.le_trans (Nat.le_add_left _ _) (h.place u c)
      · rw [List.count_eq_zero.2 hc]
        exact Nat.le_trans (Nat.le_add_right _ _) (a.place_self h c)
  alone u v c hu hv := by
    by_cases hut : u = t <;> by_cases hvt : v = t
    · rw [hut, hvt]
    · rw [a.others v hvt] at hv
      rw [hut] at hu
      exact absurd hu (a.place_other h hvt hv).2
    · rw [a.others u hut] at hu
      rw [hvt] at hv
      exact absurd hv (a.place_other h hut hu).2
    · rw [a.others u hut] at hu
      rw [a.others v hvt] at hv
      exact h.alone u v c hu hv
  queuedOpened c hc := by
    have queued := List.count_pos_iff.2 hc
    exact a.opened h (by omega)
  heldOpened u c hc := by
    by_cases hu : u = t
    · rw [hu] at hc
      have held := List.count_pos_iff.2 hc
      exact a.opened h (by omega)
    · rw [a.others u hu] at hc
      exact Nat.lt_of_lt_of_le (h.heldOpened u c hc) a.contexts
  silent c hc he := by
    by_cases hheld : c ∈ (s.threads t).held
    · exact a.returned c hheld hc he
    · rw [a.inFlight c hheld]
      by_cases hold : c < s.container.contexts.length
      · have queued := List.count_pos_iff.2 hc
        have places := a.places_old hold
        rw [List.count_eq_zero.2 hheld] at places
        rw [a.err c hold hheld] at he
        exact h.silent c (List.count_pos_iff.1 (by omega)) he
      · exact h.new c (Nat.le_of_not_lt hold)
  new c hc := by
    have hold := Nat.le_trans a.contexts hc
    rw [a.inFlight c fun hheld => Nat.not_lt_of_le hold (h.heldOpened t c hheld)]
    exact h.new c hold
  behaves u := by
    by_cases hu : u = t
    · rw [hu]
      exact hb
    · rw [a.others u hu]
      refine (h.behaves u).frame a.messages fun c hc => ?_
      obtain ⟨-, hheld, hopen⟩ := h.elsewhere hu hc
      exact ⟨a.err c hopen hheld, a.inFlight c hheld⟩

/-- A step that changes only the thread and connections it holds. -/
private theorem Sound.own (h : Sound s) (others : ∀ u, u ≠ t → s'.threads u = s.threads u)
    (pools : s'.container.pools = s.container.pools)
    (contexts : s'.container.contexts.length = s.container.contexts.length)
    (messages : s.messages <+: s'.messages) (held : ∀ c, (s'.threads t).held.count c ≤ (s.threads t).held.count c)
    (frame : ∀ c, c ∉ (s.threads t).held → s'.err c = s.err c ∧ s'.inFlight c = s.inFlight c)
    (hb : Behaves s' t (s'.threads t)) : Sound s' := by
  have queued : s'.queued = s.queued := congrArg List.flatten pools
  refine h.advance ⟨others, Nat.le_of_eq contexts.symm, fun c => ?_, fun c _ hc => (frame c hc).1,
    fun c hc => (frame c hc).2, messages, fun c hc hq => ?_⟩ hb
  · have places := held c
    rw [queued]
    omega
  · have place := h.place t c
    have inHand := List.count_pos_iff.2 hc
    rw [queued] at hq
    have inQueue := List.count_pos_iff.2 hq
    omega

private theorem clear_none {x : ThreadState} :
    Clear s t x none ↔ ∀ c ∈ x.held, s.err c = false → s.inFlight c = [] := by
  constructor
  · intro h c hc he
    rcases h c hc he with ⟨howed, -⟩ | ⟨-, hsilent⟩
    · cases howed
    · exact hsilent
  · intro h c hc he
    exact Or.inr ⟨by simp, h c hc he⟩

/-- Connections on which no reply is owed are silent. -/
private theorem Clear.silent {x : ThreadState} {owed : Option ConPtr} (h : Clear s t x owed) {c : ConPtr}
    (hc : c ∈ x.held) (howed : owed ≠ some c) (he : s.err c = false) : s.inFlight c = [] := by
  rcases h c hc he with ⟨hsome, -⟩ | ⟨-, hsilent⟩
  · exact absurd hsome howed
  · exact hsilent

/-- On the connection whose reply is owed the message is in flight. -/
private theorem Clear.awaits {x : ThreadState} {c : ConPtr} (h : Clear s t x (some c)) (hc : c ∈ x.held)
    (he : s.err c = false) : Awaits s t x c := by
  rcases h c hc he with ⟨-, hawaits⟩ | ⟨hnot, -⟩
  · exact hawaits
  · exact absurd rfl hnot

/-- The errors of connections that were opened before are as before. -/
private theorem err_of_grown {c : ThreadedPool} (hp : s.container.contexts <+: c.contexts) {x : ConPtr}
    (hx : x < s.container.contexts.length) : ({ s with container := c } : Threads ι).err x = s.err x := by
  obtain ⟨opened, hopened⟩ := hp
  unfold err
  rw [← hopened, List.getElem?_append_left hx]

open ThreadedPool in
/-- A drawn connection comes from a queue or was just opened. -/
private theorem Sound.drawn_silent (h : Sound s) {c : ThreadedPool} {drawn : List ConPtr}
    (hx : Draws s.container c drawn)
    {x : ConPtr} (hmem : x ∈ drawn) (he : ({ s with container := c } : Threads ι).err x = false) :
    s.inFlight x = [] := by
  by_cases hold : x < s.container.contexts.length
  · have queued := hx.queued x
    rw [if_neg fun hnew => Nat.lt_irrefl _ (Nat.lt_of_le_of_lt hnew.1 hold)] at queued
    have once := List.count_pos_iff.2 hmem
    rw [err_of_grown hx.contexts hold] at he
    have hq : 0 < s.container.pools.flatten.count x := by omega
    exact h.silent x (List.count_pos_iff.1 hq) he
  · exact h.new x (Nat.le_of_not_lt hold)

private theorem err_fail {con : ConPtr} (hlt : con < s.container.contexts.length) (c : ConPtr) :
    (s.fail con).err c = if c = con then true else s.err c := by
  show (((s.container.contexts.modify con fun x => { x with err := true })[c]?).any (·.err)) = _
  rw [List.getElem?_modify]
  by_cases hcon : c = con
  · rw [hcon, List.getElem?_eq_getElem hlt]
    simp
  · have hne : con ≠ c := fun h => hcon h.symm
    rw [if_neg hcon]
    cases h : s.container.contexts[c]? with
    | none => simp [err, h]
    | some x => simp [err, h, hne]

/-- Freeing a reply touches no connection. -/
private theorem Sound.freeing (h : Sound s) (a : Nat) : Sound { s with freed := a :: s.freed } :=
  ⟨h.once, h.place, h.alone, h.queuedOpened, h.heldOpened, h.silent, h.new, h.behaves⟩

private theorem getConnection_draws (s : Threads ι) (key : Bytes) :
    ThreadedPool.Draws s.container (s.getConnection key).2 (ThreadedPool.taken (s.getConnection key).1) := by
  unfold Threads.getConnection
  split
  · exact ThreadedPool.Draws.refl _
  · split
    · exact ThreadedPool.Draws.refl _
    · exact ThreadedPool.getConnection_draws _ _

/-- No connection is open yet. -/
private theorem Sound.constructed (h : Constructed s) : Sound s := by
  have noQueued : s.queued = [] := by
    unfold queued
    rw [h.pools]
    rfl
  have noHeld : ∀ t, (s.threads t).held = [] := fun t => (h.idle t).2
  refine ⟨fun c => ?_, fun t c => ?_, fun t u c hc => ?_, fun c hc => ?_, fun t c hc => ?_, fun c _ _ => h.silent c,
    fun c _ => h.silent c, fun t => ?_⟩
  · rw [noQueued]
    exact Nat.zero_le _
  · rw [noQueued, noHeld]
    exact Nat.zero_le _
  · rw [noHeld] at hc
    exact absurd hc List.not_mem_nil
  · rw [noQueued] at hc
    exact absurd hc List.not_mem_nil
  · rw [noHeld] at hc
    exact absurd hc List.not_mem_nil
  · unfold Behaves
    rw [(h.idle t).1]
    exact noHeld t

/-- A thread exchanges messages only on a connection it holds. -/
theorem Sound.exchanges {con : ConPtr} (h : Sound s)
    (hcall : (s.threads t).activity.nextCall.bind SyncCall.exchangesOn = some con) : con ∈ (s.threads t).held := by
  have behaves := h.behaves t
  unfold Behaves at behaves
  cases hact : (s.threads t).activity with
  | idle => rw [hact] at hcall; cases hcall
  | waiting pool resume => rw [hact] at hcall; cases hcall
  | running p =>
    rw [hact] at hcall behaves
    obtain ⟨owed, hobeys, -⟩ := behaves
    cases p with
    | call c rest =>
      have allows := hobeys.1
      cases c <;> cases hcall <;> exact allows.1
    | _ => cases hcall

/-- The message whose reply a thread is about to read is the only one in flight on the connection. -/
theorem Sound.awaits {con : ConPtr} {rest : Option (Nat × RedisReply) → Sync ReplyPtr} (h : Sound s)
    (hact : (s.threads t).activity = .running (.call (.redisGetReply con) rest)) (he : s.err con = false) :
    Awaits s t (s.threads t) con := by
  have behaves := h.behaves t
  unfold Behaves at behaves
  rw [hact] at behaves
  obtain ⟨owed, hobeys, hclear⟩ := behaves
  obtain ⟨hheld, rfl⟩ : con ∈ (s.threads t).held ∧ owed = some con := hobeys.1
  exact hclear.awaits hheld he

/-! ### The steps of a thread -/

variable [DecidableEq ι] {answers : Nat → RedisReply} {owed : Option ConPtr} {p : Sync ReplyPtr} {con : ConPtr}

@[simp] theorem setThread_self (s : Threads ι) (t : ι) (x : ThreadState) : (s.setThread t x).threads t = x :=
  if_pos rfl

private theorem setThread_same {s s' : Threads ι} (h : s'.threads = s.threads) (t : ι) :
    s'.setThread t (s.threads t) = s' := by
  have same : (fun u => if u = t then s.threads t else s'.threads u) = s'.threads := by
    funext u
    by_cases hu : u = t
    · rw [if_pos hu, hu, h]
    · exact if_neg hu
  unfold setThread
  rw [same]

@[simp] theorem goOn_self (s : Threads ι) (t : ι) (p : Sync ReplyPtr) :
    (s.goOn t p).threads t = { s.threads t with activity := .running p } := setThread_self _ _ _

theorem setThread_other (s : Threads ι) (x : ThreadState) {u : ι} (hu : u ≠ t) :
    (s.setThread t x).threads u = s.threads u := if_neg hu

private theorem settle_obeys {α : Type} {g : Custody} {rest : α → Sync ReplyPtr}
    (h : ∀ a, (rest a).Obeys custody (fun _ _ => True) g) (o : Outcome Exn α) :
    (settle o rest).Obeys custody (fun _ _ => True) g := by
  cases o with
  | ret a => exact h a
  | throws e => trivial
  | undefined => trivial

private theorem Sound.goOn (h : Sound s) (hp : p.Obeys custody (fun _ _ => True) ⟨(s.threads t).held, owed⟩)
    (hc : Clear s t (s.threads t) owed) : Sound (s.goOn t p) := by
  refine h.own (t := t) (fun u hu => setThread_other s _ hu) rfl rfl (List.prefix_refl _) (fun c => ?_)
    (fun c _ => ⟨rfl, rfl⟩) ?_
  · rw [goOn_self]
  · rw [goOn_self]
    exact ⟨owed, hp, hc⟩

open ThreadedPool in
/-- A section that draws connections ends. -/
private theorem Sound.draw (h : Sound s) {c : ThreadedPool} {drawn : List ConPtr} {y : ThreadState}
    (hx : Draws s.container c drawn) (hheld : y.held = drawn ++ (s.threads t).held)
    (hc : Clear s t (s.threads t) none) (hb : Clear ({ s with container := c }.setThread t y) t y none →
      Behaves ({ s with container := c }.setThread t y) t y) :
    Sound ({ s with container := c }.setThread t y) := by
  have clear : Clear ({ s with container := c }.setThread t y) t y none := by
    refine clear_none.2 fun x hmem he => ?_
    rw [hheld] at hmem
    rcases List.mem_append.1 hmem with hdrawn | hold
    · exact h.drawn_silent hx hdrawn he
    · have herr : ({ s with container := c } : Threads ι).err x = s.err x :=
        err_of_grown hx.contexts (h.heldOpened t x hold)
      exact clear_none.1 hc x hold (herr.symm.trans he)
  refine h.advance (t := t) ⟨fun u hu => setThread_other _ _ hu, hx.contexts.length_le, fun x => ?_,
    fun x hold _ => err_of_grown hx.contexts hold, fun _ _ => rfl, List.prefix_refl _, fun x hmem _ he => ?_⟩ ?_
  · have queued := hx.queued x
    rw [setThread_self, hheld, List.count_append]
    show c.pools.flatten.count x + _ ≤ s.container.pools.flatten.count x + _ +
      if s.container.contexts.length ≤ x ∧ x < c.contexts.length then 1 else 0
    omega
  · have herr : ({ s with container := c } : Threads ι).err x = s.err x :=
      err_of_grown hx.contexts (h.heldOpened t x hmem)
    exact clear_none.1 hc x hmem (herr.symm.trans he)
  · rw [setThread_self]
    exact hb clear

open ThreadedPool in
private theorem Sound.obtain {κ : Type} {x : Outcome Exn (Pulled κ) × ThreadedPool} {rest : κ × ConPtr → Sync ReplyPtr}
    (h : Sound s) (hx : Draws s.container x.2 (taken x.1))
    (hr : ∀ conn, (rest conn).Obeys custody (fun _ _ => True) ⟨conn.2 :: (s.threads t).held, none⟩)
    (hc : Clear s t (s.threads t) none) : Sound (s.obtain t x rest) := by
  obtain ⟨o, c⟩ := x
  cases o with
  | ret pulled =>
    cases pulled with
    | got conn pool => exact h.draw hx rfl hc fun clear => ⟨none, hr conn, clear⟩
    | waits key pool => exact h.draw hx rfl hc fun clear => ⟨fun con => hr (key, con), clear⟩
  | throws e => exact h.draw hx rfl hc fun clear => ⟨none, trivial, clear⟩
  | undefined => exact h.draw hx rfl hc fun clear => ⟨none, trivial, clear⟩

open ThreadedPool in
private theorem Sound.released {x : Outcome Exn Unit × ThreadedPool} {rest : Unit → Sync ReplyPtr} (h : Sound s)
    (hx : Returns con s.container x.2) (hheld : con ∈ (s.threads t).held)
    (hr : ∀ r, (rest r).Obeys custody (fun _ _ => True) ⟨(s.threads t).held.erase con, none⟩)
    (hc : Clear s t (s.threads t) none) : Sound (s.released t con x rest) := by
  have herr : ∀ c, (s.released t con x rest).err c = s.err c := by
    intro c
    show ((x.2.contexts[c]?).any (·.err)) = _
    rw [hx.contexts]
    rfl
  have silent := clear_none.1 hc
  refine h.advance (t := t) ⟨fun u hu => setThread_other _ _ hu, ?_, fun c => ?_, fun c _ _ => herr c, fun _ _ => rfl,
    List.prefix_refl _, fun c hmem _ he => ?_⟩ ?_
  · exact Nat.le_of_eq (congrArg List.length hx.contexts).symm
  · have queued := hx.queued c
    have inHand := List.count_pos_iff.2 hheld
    rw [Threads.released, setThread_self, List.count_erase]
    show x.2.pools.flatten.count c + _ ≤ s.container.pools.flatten.count c + _ + _
    rw [List.count_singleton] at queued
    by_cases hcon : con = c
    · rw [← hcon] at queued ⊢
      simp only [BEq.rfl, ↓reduceIte] at queued ⊢
      omega
    · have hne : (con == c) = false := beq_false_of_ne hcon
      rw [hne] at queued ⊢
      simp only [Bool.false_eq_true, ↓reduceIte] at queued ⊢
      omega
  · rw [herr] at he
    exact silent c hmem he
  · rw [Threads.released, setThread_self]
    refine ⟨none, settle_obeys hr x.1, clear_none.2 fun c hmem he => ?_⟩
    have hmem : c ∈ (s.threads t).held := List.mem_of_mem_erase hmem
    exact silent c hmem ((herr c).symm.trans he)

/-- A thread sends on a connection it holds. -/
private theorem Sound.send (h : Sound s) (hheld : con ∈ (s.threads t).held)
    (hp : p.Obeys custody (fun _ _ => True) ⟨(s.threads t).held, some con⟩) (hc : Clear s t (s.threads t) none) :
    Sound ((s.send t con).goOn t p) := by
  have silent := clear_none.1 hc
  have hthread : ((s.send t con).goOn t p).threads t =
      { activity := .running p, held := (s.threads t).held, sent := some s.messages.length } := by
    rw [goOn_self, Threads.send, setThread_self]
  refine h.own (t := t) (fun u hu => ?_) rfl rfl (List.prefix_append _ _) (fun c => ?_) (fun c hc => ⟨rfl, ?_⟩) ?_
  · exact (setThread_other _ _ hu).trans (setThread_other _ _ hu)
  · rw [hthread]
  · exact if_neg (ne_of_mem_of_not_mem hheld hc).symm
  · rw [hthread]
    refine ⟨some con, hp, fun c hmem he => ?_⟩
    have before : s.inFlight c = [] := silent c hmem he
    by_cases hcon : c = con
    · refine Or.inl ⟨congrArg some hcon.symm, s.messages.length, rfl, ?_, ?_⟩
      · rw [hcon]
        exact List.getElem?_concat_length
     
      show (if c = con then s.inFlight c ++ [s.messages.length] else s.inFlight c) = [s.messages.length]
      rw [if_pos hcon, before]
      rfl
    · refine Or.inr ⟨fun hsome => hcon (Option.some.inj hsome).symm, ?_⟩
      show (if c = con then s.inFlight c ++ [s.messages.length] else s.inFlight c) = []
      rw [if_neg hcon, before]

/-- An exchange on a held connection fails, so whatever is in flight on it does not matter any more. -/
private theorem Sound.fail (h : Sound s) {owed' : Option ConPtr} (hheld : con ∈ (s.threads t).held)
    (hp : p.Obeys custody (fun _ _ => True) ⟨(s.threads t).held, owed'⟩) (hc : Clear s t (s.threads t) owed)
    (howed : ∀ c, c ≠ con → owed ≠ some c ∧ owed' ≠ some c) : Sound ((s.fail con).goOn t p) := by
  have herr : ∀ c, ((s.fail con).goOn t p).err c = if c = con then true else s.err c :=
    err_fail (h.heldOpened t con hheld)
  refine h.own (t := t) (fun u hu => setThread_other _ _ hu) rfl ?_ (List.prefix_refl _) (fun c => ?_)
    (fun c hc => ⟨?_, rfl⟩) ?_
  · exact List.length_modify _ _ _
  · rw [goOn_self]
    exact Nat.le_refl _
  · rw [herr c]
    exact if_neg (ne_of_mem_of_not_mem hheld hc).symm
  · rw [goOn_self]
    refine ⟨owed', hp, fun c hmem he => ?_⟩
    have errs := (herr c).symm.trans he
    have hne : c ≠ con := by
      intro hcon
      rw [if_pos hcon] at errs
      cases errs
    have same : s.err c = false := by
      rw [if_neg hne] at errs
      exact errs
    exact Or.inr ⟨(howed c hne).2, hc.silent hmem (howed c hne).1 same⟩

/-- `redisGetReply` on a held connection whose reply is owed. -/
theorem Sound.receive {env : Surroundings} {rest : Option (Nat × RedisReply) → Sync ReplyPtr} (h : Sound s)
    (hheld : con ∈ (s.threads t).held)
    (hp : ∀ r, (rest r).Obeys custody (fun _ _ => True) ⟨(s.threads t).held, none⟩)
    (hc : Clear s t (s.threads t) (some con)) : Sound (s.receive answers t con env rest) := by
  have others : ∀ c, c ≠ con → some con ≠ some c ∧ (none : Option ConPtr) ≠ some c :=
    fun c hne => ⟨fun hsome => hne (Option.some.inj hsome).symm, by simp⟩
  unfold Threads.receive
  by_cases herr : s.err con = true
  · rw [if_pos herr]
    refine h.goOn (hp none) (clear_none.2 fun c hmem he => ?_)
    have hne : c ≠ con := by
      rintro rfl
      rw [herr] at he
      cases he
    exact hc.silent hmem (others c hne).1 he
  · rw [if_neg herr]
    by_cases hworks : env.works = true
    · rw [if_pos hworks]
      obtain ⟨m, -, -, hfl⟩ := hc.awaits hheld (Bool.eq_false_iff.2 herr)
      rw [hfl]
      refine h.own (t := t) (fun u hu => setThread_other _ _ hu) rfl rfl (List.prefix_refl _) (fun c => ?_)
        (fun c hc => ⟨rfl, ?_⟩) ?_
      · rw [goOn_self]
      · exact if_neg (ne_of_mem_of_not_mem hheld hc).symm
      · rw [goOn_self]
        refine ⟨none, hp _, clear_none.2 fun c hmem he => ?_⟩
        show (if c = con then [] else s.inFlight c) = []
        by_cases hcon : c = con
        · exact if_pos hcon
        · rw [if_neg hcon]
          exact hc.silent hmem (others c hcon).1 he
    · rw [if_neg hworks]
      exact h.fail hheld (hp none) hc others

/-- A call of a thread that keeps the rule. -/
private theorem Sound.call (h : Sound s) (env : Surroundings) (c : SyncCall) (rest : c.Result → Sync ReplyPtr)
    (hp : (Program.call (I := syncInterface) c rest : Sync ReplyPtr).Obeys custody (fun _ _ => True)
      ⟨(s.threads t).held, owed⟩) (hc : Clear s t (s.threads t) owed) : Sound (s.call answers t env c rest) := by
  obtain ⟨hallows, hrest⟩ := hp
  cases c with
  | getConnection key =>
    obtain rfl : owed = none := hallows
    exact h.obtain (getConnection_draws s key) hrest hc
  | createNewConnection host port =>
    obtain rfl : owed = none := hallows
    refine h.obtain ?_ (fun conn => hrest (conn.1, some conn.2)) hc
    have draws := ThreadedPool.insertHost_draws host port { s.container with connects := env.connects }
    exact ⟨draws.contexts, draws.queued⟩
  | releaseSlotConnection conn =>
    obtain ⟨hheld, rfl⟩ : conn.2 ∈ (s.threads t).held ∧ owed = none := hallows
    exact h.released (ThreadedPool.releaseSlotConnection_returns conn s.container) hheld hrest hc
  | releaseHostConnection conn =>
    obtain ⟨key, con⟩ := conn
    cases con with
    | none => exact absurd hallows id
    | some con =>
      obtain ⟨hheld, rfl⟩ : con ∈ (s.threads t).held ∧ owed = none := hallows
      exact h.released (ThreadedPool.releaseHostConnection_returns key con s.container) hheld hrest hc
  | moved =>
    unfold Threads.call
    cases env.movedCb with
    | none => exact h.goOn (hrest ()) hc
    | some e => exact h.goOn (p := .throws e) trivial hc
  | redisAppendFormattedCommand con cmd =>
    obtain ⟨hheld, rfl⟩ : con ∈ (s.threads t).held ∧ owed = none := hallows
    unfold Threads.call
    cases cmd with
    | none => exact h.goOn (p := .undefined) trivial hc
    | some bytes =>
      by_cases hworks : env.works = true
      · simp only [if_pos hworks]
        exact h.send hheld (hrest .ok) hc
      · simp only [if_neg hworks]
        exact h.fail hheld (hrest .err) hc fun c hne => ⟨by simp, fun hsome => hne (Option.some.inj hsome).symm⟩
  | redisGetReply con =>
    obtain ⟨hheld, rfl⟩ : con ∈ (s.threads t).held ∧ owed = some con := hallows
    exact h.receive hheld hrest hc
  | redisCommand con format =>
    obtain ⟨hheld, rfl⟩ : con ∈ (s.threads t).held ∧ owed = none := hallows
    unfold Threads.call
    by_cases hworks : env.works = true
    · simp only [if_pos hworks]
      exact h.send (p := .call (.redisGetReply con) rest) hheld ⟨⟨hheld, rfl⟩, hrest⟩ hc
    · simp only [if_neg hworks]
      exact h.fail hheld (hrest none) hc fun c hne => ⟨by simp, by simp⟩
  | err con => exact h.goOn (hrest _) hc
  | errstr con => exact h.goOn (hrest _) hc
  | readReply reply =>
    unfold Threads.call
    cases reply with
    | object a r =>
      by_cases hfreed : a ∈ s.freed
      · simp only [if_pos hfreed]
        exact h.goOn (p := .undefined) trivial hc
      · simp only [if_neg hfreed]
        exact h.goOn (hrest r) hc
    | null => exact h.goOn (p := .undefined) trivial hc
    | unset => exact h.goOn (p := .undefined) trivial hc
  | freeReplyObject reply =>
    unfold Threads.call
    cases reply with
    | null => exact h.goOn (hrest ()) hc
    | unset => exact h.goOn (p := .undefined) trivial hc
    | object a r =>
      have freed := h.freeing a
      have clear : Clear { s with freed := a :: s.freed } t (s.threads t) owed := hc
      by_cases hfreed : a ∈ s.freed
      · simp only [if_pos hfreed]
        exact freed.goOn (p := .undefined) trivial clear
      · simp only [if_neg hfreed]
        exact freed.goOn (hrest ()) clear

/-- A thread whose command has ended holds nothing any more. -/
private theorem Sound.ended (h : Sound s) :
    Sound (s.setThread t { s.threads t with activity := .idle, held := [] }) := by
  refine h.own (t := t) (fun u hu => setThread_other _ _ hu) rfl rfl (List.prefix_refl _) (fun c => ?_)
    (fun c _ => ⟨rfl, rfl⟩) ?_
  · rw [setThread_self]
    exact Nat.zero_le _
  · rw [setThread_self]
    exact (rfl : ([] : List ConPtr) = [])

private theorem Sound.proceed (h : Sound s) (env : Surroundings) : Sound (s.proceed answers t env) := by
  have behaves := h.behaves t
  unfold Behaves at behaves
  unfold Threads.proceed
  cases hact : (s.threads t).activity with
  | idle => exact h
  | running p =>
    rw [hact] at behaves
    obtain ⟨owed, hobeys, hclear⟩ := behaves
    cases p with
    | ret a => exact h.ended
    | throws e => exact h.ended
    | undefined => exact h
    | call c rest => exact h.call env c rest hobeys hclear
  | waiting pool resume =>
    rw [hact] at behaves
    exact h.obtain (ThreadedPool.pullConnection_draws () pool s.container) (fun conn => behaves.1 conn.2) behaves.2

/-- Every step of every thread keeps the invariant. -/
private theorem Sound.exec (h : Sound s) (e : ι × Turn) : Sound (s.exec answers e) := by
  obtain ⟨t, turn⟩ := e
  have behaves := h.behaves t
  unfold Behaves at behaves
  cases turn with
  | proceed env => exact h.proceed env
  | start this =>
    unfold Threads.exec
    cases hact : (s.threads t).activity with
    | idle =>
      rw [hact] at behaves
      have noHeld : (s.threads t).held = [] := behaves
      have hobeys : this.process.Obeys custody (fun _ _ => True) ⟨(s.threads t).held, none⟩ := by
        rw [noHeld]
        exact Custody.process_obeys this
      refine h.goOn hobeys (clear_none.2 fun c hmem => ?_)
      rw [noHeld] at hmem
      exact absurd hmem List.not_mem_nil
    | running p => exact h
    | waiting pool resume => exact h
  | insertSlots slots host port connects =>
    unfold Threads.exec
    cases hact : (s.threads t).activity with
    | idle =>
      rw [hact] at behaves
      have noHeld : (s.threads t).held = [] := behaves
      have clear : Clear s t (s.threads t) none := clear_none.2 fun c hmem => by
        rw [noHeld] at hmem
        exact absurd hmem List.not_mem_nil
      have draws := ThreadedPool.insertSlots_draws slots host port { s.container with connects := connects }
      have inserted := h.draw (y := s.threads t) ⟨draws.contexts, draws.queued⟩ rfl clear fun _ => by
        unfold Behaves
        rw [hact]
        exact noHeld
      rw [setThread_same rfl] at inserted
      exact inserted
    | running p => exact h
    | waiting pool resume => exact h

/-! ### Exclusive connections -/

theorem Sound.reachable {hist : List (Threads ι × ι × Turn)} (r : ThreadRun answers s hist) : Sound s := by
  refine Run.invariant (I := Sound) (fun _ => Sound.constructed) ?_ r
  rintro s e _ h rfl
  exact h.exec e

/-- A thread that reads a reply gets the answer to the message it sent last. -/
private theorem Sound.reads (h : Sound s) {rest : Option (Nat × RedisReply) → Sync ReplyPtr} {env : Surroundings}
    (hact : (s.threads t).activity = .running (.call (.redisGetReply con) rest)) (he : s.err con = false)
    (hworks : env.works = true) : ∃ m, (s.threads t).sent = some m ∧ s.messages[m]? = some (t, con) ∧
      ((s.exec answers (t, .proceed env)).threads t).activity = .running (rest (some (s.replies, answers m))) := by
  obtain ⟨m, hsent, hm, hfl⟩ := h.awaits hact he
  refine ⟨m, hsent, hm, ?_⟩
  have read : s.exec answers (t, .proceed env) = s.receive answers t con env rest := by
    show s.proceed answers t env = _
    unfold Threads.proceed
    rw [hact]
    rfl
  rw [read, Threads.receive, if_neg (Bool.eq_false_iff.1 he), if_pos hworks, hfl, goOn_self]

/-- In every run a connection is in one queue or in the hands of one thread, which alone exchanges messages on it and
reads the answer to the message it sent last. -/
theorem exclusive_and_paired {hist : List (Threads ι × ι × Turn)} (r : ThreadRun answers s hist) :
    (∀ c, s.queued.count c ≤ 1) ∧
    (∀ t, ∀ c ∈ (s.threads t).held,
      (s.threads t).held.count c = 1 ∧ c ∉ s.queued ∧ ∀ u, c ∈ (s.threads u).held → u = t) ∧
    (∀ t con, (s.threads t).activity.nextCall.bind SyncCall.exchangesOn = some con → con ∈ (s.threads t).held) ∧
    (∀ t con rest env, (s.threads t).activity = .running (.call (.redisGetReply con) rest) → s.err con = false →
      env.works = true → ∃ m, (s.threads t).sent = some m ∧ s.messages[m]? = some (t, con) ∧
        ((s.exec answers (t, .proceed env)).threads t).activity = .running (rest (some (s.replies, answers m)))) := by
  have h := Sound.reachable r
  refine ⟨h.once, fun t c hc => ?_, fun t con => h.exchanges, fun t con rest env => h.reads⟩
  have place := h.place t c
  have held := List.count_pos_iff.2 hc
  exact ⟨by omega, List.count_eq_zero.1 (by omega), fun u hu => h.alone u t c hu hc⟩

/-- Two threads of many share the pool of the only node. -/
theorem exclusive_and_paired_two :
    let answers : Nat → RedisReply := fun _ => .nil
    let start : Threads Nat := ⟨true, ⟨.empty, .empty, [], [], []⟩, fun _ => ⟨.idle, [], none⟩, fun _ => [], [], 0, []⟩
    let env : Surroundings := ⟨[], true, none⟩
    let s := after (exec answers) start [(0, .insertSlots (0, 16383) (text "10.0.0.1") 7000 []), (1, .start getFoo),
      (2, .start getFoo), (1, .proceed env), (2, .proceed env), (2, .proceed env), (1, .proceed env)]
    (s.threads 1).activity.nextCall.bind SyncCall.exchangesOn = some 0 ∧
      (s.threads 2).activity.nextCall.bind SyncCall.exchangesOn = some 1 ∧ 0 ∉ s.queued ∧ 0 ∉ (s.threads 2).held := by
  intro answers start env s
  have unused : Constructed start := ⟨rfl, fun _ => ⟨rfl, rfl⟩, fun _ => rfl⟩
  have begun : ThreadRun answers start [] := .start unused
  have run : ThreadRun answers s _ := begun.follow _ fun _ _ => rfl
  obtain ⟨-, hheld, hexchanges, -⟩ := exclusive_and_paired run
  have first : (s.threads 1).activity.nextCall.bind SyncCall.exchangesOn = some 0 := by decide +kernel
  have second : (s.threads 2).activity.nextCall.bind SyncCall.exchangesOn = some 1 := by decide +kernel
  have alone := hheld 1 0 (hexchanges 1 0 first)
  exact ⟨first, second, alone.2.1, fun h => absurd (alone.2.2 2 h) (by decide)⟩

end Threads

end HiredisCluster
