import HiredisCluster.Cxx.Ledger
import HiredisCluster.SyncCourse

/-!
# Who frees the replies of the synchronous client

When every request is answered and the moved callback returns, `process` frees each reply it gets, either itself or in
the constructor of the exception it throws, except for the last one if it returns; it reads none of them after that
(`process_ownsReplies`).
-/

namespace HiredisCluster

open Cxx HiredisCommand

/-- What a call does to a reply object, given by its address. -/
def replyEvent : Program.Answered syncInterface Exn → Option (Holding Nat)
  | ⟨.redisGetReply _, .ret (some (a, _))⟩ => some (.acquire a)
  | ⟨.redisCommand _ _, .ret (some (a, _))⟩ => some (.acquire a)
  | ⟨.readReply (.object a _), _⟩ => some (.use a)
  | ⟨.freeReplyObject (.object a _), _⟩ => some (.release a)
  | _ => none

/-- The reply objects in a log, in order. -/
def replyEvents (log : SyncLog) : List (Holding Nat) := log.filterMap replyEvent

/-- What was acquired, in order. -/
def obtained (evs : List (Holding Nat)) : List Nat :=
  evs.filterMap fun e => match e with
    | .acquire a => some a
    | _ => none

/-- The moved callback, if it is called, returns. -/
def movedReturns : Program.Answered syncInterface Exn → Bool
  | ⟨.moved, .ret _⟩ => true
  | ⟨.moved, _⟩ => false
  | _ => true

/-- The reply that the caller gets. -/
def handedOver : Outcome Exn ReplyPtr → Option Nat
  | .ret (.object a _) => some a
  | _ => none

/-- A call that ended with `o`: the replies are distinct objects, none is read or freed when it is not held, all but the
one that is returned are freed once, and that is the last one. -/
structure OwnsReplies (o : Outcome Exn ReplyPtr) (evs : List (Holding Nat)) : Prop where
  fresh : (obtained evs).Nodup
  guarded : Holding.Guarded [] evs
  freed : ∀ a ∈ obtained evs, handedOver o ≠ some a → evs.count (.release a) = 1
  returned : ∀ p, o = .ret p → ∃ a r, p = .object a r ∧ (obtained evs).getLast? = some a ∧ evs.count (.release a) = 0

namespace OwnsReplies

variable {evs : List (Holding Nat)}

/-- Nothing is left at the end. -/
private theorem of_none {o : Outcome Exn ReplyPtr} (ho : ∀ p, o ≠ .ret p) (hfresh : (obtained evs).Nodup)
    (hledger : Holding.ledger [] evs = some []) (hfreed : ∀ a ∈ obtained evs, evs.count (.release a) = 1) :
    OwnsReplies o evs where
  fresh := hfresh
  guarded := Holding.ledger_isSome_iff.1 (by rw [hledger]; rfl)
  freed := fun a ha _ => hfreed a ha
  returned := fun p hp => absurd hp (ho p)

/-- One reply is left, and returned. -/
private theorem of_last {a : Nat} (r : RedisReply) (hfresh : (obtained evs).Nodup)
    (hledger : Holding.ledger [] evs = some [a])
    (hlast : (obtained evs).getLast? = some a) (hkept : evs.count (.release a) = 0)
    (hfreed : ∀ b ∈ obtained evs, b ≠ a → evs.count (.release b) = 1) : OwnsReplies (.ret (.object a r)) evs where
  fresh := hfresh
  guarded := Holding.ledger_isSome_iff.1 (by rw [hledger]; rfl)
  freed := fun b hb hne => hfreed b hb fun heq => hne (by rw [heq]; rfl)
  returned := by
    rintro p ⟨⟩
    exact ⟨a, r, rfl, hlast, hkept⟩

end OwnsReplies

variable {σ : Type} {ops : ClusterOps σ} {replies : Nat → RedisReply} {this : HiredisCommand} {s s' : σ}
  {o : Outcome Exn ReplyPtr} {log : SyncLog}

/-- The first reply has been read twice and freed. -/
def firstFreed : List (Holding Nat) := [.acquire 0, .use 0, .use 0, .release 0]

private theorem Follows.ownsReplies {host port : Bytes} {state : ProcessState}
    (h : Follows ops (fun n => some (replies n)) this s host port state o s' log)
    (hmoved : ∀ x ∈ log, movedReturns x = true) : OwnsReplies o (firstFreed ++ replyEvents log) := by
  have hnothing (heq : replyEvents log = []) (ho : ∀ p, o ≠ .ret p) :
      OwnsReplies o (firstFreed ++ replyEvents log) := by
    rw [heq]
    exact .of_none ho (by decide) (by decide) (by decide)
  cases h with
  | thrown hs h => exact hnothing rfl (by simp)
  | undefined hs h => exact hnothing rfl (by simp)
  | null hs h => exact hnothing rfl (by simp)
  | askBroken h he => exact hnothing rfl (by simp)
  | movedBroken h he => exact hnothing rfl (by simp)
  | askingLost h he ha => cases ha
  | askingRefused h he ha hr =>
    rw [show replyEvents _ = [.acquire 1, .use 1, .release 1] from rfl]
    exact .of_none (by simp) (by decide) (by decide) (by decide)
  | askLost hcmd h he ha hok hr => cases hr
  | askDown hcmd h he ha hok hr hdown =>
    rw [show replyEvents _ = [.acquire 1, .use 1, .release 1, .acquire 2, .use 2, .release 2] from rfl]
    exact .of_none (by simp) (by decide) (by decide) (by decide)
  | asked hcmd h he ha hok hr hdown =>
    rw [show replyEvents _ = [.acquire 1, .use 1, .release 1, .acquire 2, .use 2] from rfl]
    exact .of_last _ (by decide) (by decide) (by decide) (by decide) (by decide)
  | movedThrown hcmd h he hm =>
    have hreturns := hmoved _ (List.mem_append_right _ (List.mem_singleton.2 rfl))
    cases hreturns
  | movedUndefined hcmd h he hm =>
    have hreturns := hmoved _ (List.mem_append_right _ (List.mem_singleton.2 rfl))
    cases hreturns
  | moved hcmd h he hm =>
    rw [show replyEvents _ = [.acquire 1] from rfl]
    exact .of_last _ (by decide) (by decide) (by decide) (by decide) (by decide)

private theorem Course.ownsReplies (h : Course ops (fun n => some (replies n)) this s o s' log)
    (hmoved : ∀ x ∈ log, movedReturns x = true) : OwnsReplies o (replyEvents log) := by
  cases h with
  | unrouted h => exact .of_none (by simp) List.nodup_nil rfl (by simp [replyEvents, replyEvent, obtained])
  | unhashed h => exact .of_none (by simp) List.nodup_nil rfl (by simp [replyEvents, replyEvent, obtained])
  | unformatted h hcmd => exact .of_none (by simp) List.nodup_nil rfl (by simp [replyEvents, replyEvent, obtained])
  | lost h hcmd hlost =>
    exact .of_none (by simp) List.nodup_nil rfl (by simp [replyEvents, replyEvent, obtained, requestLog])
  | down h hcmd he hr hdown =>
    rw [show replyEvents _ = [.acquire 0, .use 0, .release 0] from rfl]
    exact .of_none (by simp) (by decide) (by decide) (by decide)
  | ready h hcmd he hr hdown hres =>
    rw [show replyEvents _ = [.acquire 0, .use 0, .use 0] from rfl]
    exact .of_last _ (by decide) (by decide) (by decide) (by decide) (by decide)
  | @redirected con s' s'' cmd host port r state o log h hcmd he hr hdown hres hf =>
    have hsplit : replyEvents (opening this con cmd r ++ ⟨.freeReplyObject (.object 0 r), .ret ()⟩ :: log) =
        firstFreed ++ replyEvents log := by
      rw [replyEvents, List.filterMap_append]
      rfl
    rw [hsplit]
    exact hf.ownsReplies fun x hx => hmoved x (List.mem_append_right _ (List.mem_cons_of_mem _ hx))

/-- Every reply of a call is freed once, except for the last one of a call that returns, which its caller gets; and none
is read after it was freed. -/
theorem process_ownsReplies (ops : ClusterOps σ) (replies : Nat → RedisReply) (this : HiredisCommand) (s : σ)
    (hmoved : ∀ x ∈ (runSync ops (fun n => some (replies n)) this.process (SyncWorld.start s, [])).2.2,
      movedReturns x = true) :
    OwnsReplies (runSync ops (fun n => some (replies n)) this.process (SyncWorld.start s, [])).1
      (replyEvents (runSync ops (fun n => some (replies n)) this.process (SyncWorld.start s, [])).2.2) := by
  obtain ⟨o, w', log, hrun, hcourse⟩ := process_course ops (fun n => some (replies n)) this s
  rw [hrun] at hmoved ⊢
  exact hcourse.ownsReplies hmoved

/-- The slot is being migrated, and the other node answers. -/
def migrating (n : Nat) : RedisReply :=
  if n = 0 then .error (.ofText "ASK 12182 10.0.0.2:7000") else .status (.ofText "OK")

/-- `GET foo` gets three replies and returns the last. -/
theorem process_ownsReplies_migrating :
    OwnsReplies (runSync (Cluster.ops functions) (fun n => some (migrating n)) getFoo.process
        (SyncWorld.start HiredisCommand.oneNode, [])).1
      (replyEvents (runSync (Cluster.ops functions) (fun n => some (migrating n)) getFoo.process
        (SyncWorld.start HiredisCommand.oneNode, [])).2.2) := by
  refine process_ownsReplies (Cluster.ops functions) migrating getFoo HiredisCommand.oneNode (List.all_eq_true.1 ?_)
  decide +kernel

end HiredisCluster
