import HiredisCluster.SyncCourse

/-!
# How far the synchronous client follows redirections

`process` follows the redirection of the first reply and returns the answer to that, after `ASK` checked for
`CLUSTERDOWN`, after `MOVED` not checked at all.  So the reply of a second hop may be a redirection again, and a lost
connection may leave no reply (`followsToEnd_iff`).
-/

namespace HiredisCluster

open Cxx HiredisCommand

/-- A redirection or a `CLUSTERDOWN` error. -/
def RedisReply.IsUnfinished (r : RedisReply) : Prop :=
  r.startsWith (text "MOVED") = true ∨ r.startsWith (text "ASK") = true ∨ r.startsWith (text "CLUSTERDOWN") = true

instance (r : RedisReply) : Decidable r.IsUnfinished := inferInstanceAs (Decidable (_ ∨ _))

/-- A reply that is neither a redirection nor a `CLUSTERDOWN` error is returned, or a `ClusterException` is thrown. -/
def FollowsToEnd : Outcome Exn ReplyPtr → Prop
  | .ret (.object _ r) => ¬ r.IsUnfinished
  | .throws e => e.IsCluster
  | _ => False

instance (o : Outcome Exn ReplyPtr) : Decidable (FollowsToEnd o) :=
  match o with
  | .ret (.object _ r) => inferInstanceAs (Decidable (¬ r.IsUnfinished))
  | .ret .null | .ret .unset | .undefined => inferInstanceAs (Decidable False)
  | .throws e => inferInstanceAs (Decidable e.IsCluster)

variable {σ : Type}

/-- A redirection is answered on the connection that is made for it, and not by another one; or no healthy connection is
made, or the servers answer with an error that is reported. -/
def RedirectEnds (ops : ClusterOps σ) (replies : Nat → Option RedisReply) (s : σ) (state : ProcessState)
    (host port : Bytes) : Prop :=
  match ops.createNewConnection host port s with
  | (.ret (_, some c), s') => ops.errstr c s' = none →
      (state = .ask → ∃ a, replies 1 = some a ∧ (¬ a.IsError → ∃ r, replies 2 = some r ∧
        (r.mentionsClusterDown = true ∨ ¬ r.IsUnfinished))) ∧
      (state = .moved → match ops.moved s' with
        | (.ret _, _) => ∃ r, replies 1 = some r ∧ ¬ r.IsUnfinished
        | (.throws e, _) => e.IsCluster
        | (.undefined, _) => False)
  | (.ret (_, none), _) => True
  | (.throws e, _) => e.IsCluster
  | (.undefined, _) => False

/-- The key has a connection or the lookup fails with a `ClusterException`, the command is formatted, and a redirection
in the first reply is the last one. -/
def EndsInOneHop (ops : ClusterOps σ) (replies : Nat → Option RedisReply) (this : HiredisCommand) (s : σ) : Prop :=
  match ops.getConnection this.key_ s with
  | (.ret con, s') => this.cmd_.isSome = true ∧ ∀ r state host port, ops.errstr con.2 s' = none → replies 0 = some r →
      r.mentionsClusterDown = false → processResult r = .ret (state, host, port) → (state = .ask ∨ state = .moved) →
        RedirectEnds ops replies (ops.releaseSlotConnection con s') state host port
  | (.throws e, _) => e.IsCluster
  | (.undefined, _) => False

/-- A reply that is classified as `READY` is finished. -/
private theorem not_isUnfinished_of_ready {r : RedisReply} (hdown : r.mentionsClusterDown = false)
    (hres : processResult r = .ret (.ready, [], [])) : ¬ r.IsUnfinished := by
  cases r with
  | error str =>
    obtain ⟨host, port, hp⟩ := parsehostport_ret str.fits
    have hzero {word : Bytes} (h : (RedisReply.error str).startsWith word = true) : find str.bytes word 0 = 0 :=
      (find_eq_zero_iff str.fits).2 (List.isPrefixOf_iff_prefix.1 h)
    simp only [processResult, RedisReply.type, RedisReply.strOf, Outcome.ret_bind, hp, ↓reduceIte] at hres
    rintro (hmoved | hask | hcluster)
    · rw [if_pos (hzero hmoved)] at hres
      split at hres <;> cases hres
    · rw [if_pos (hzero hask)] at hres
      cases hres
    · rw [if_pos (hzero hcluster)] at hres
      split at hres
      · cases hres
      · split at hres <;> cases hres
  | _ => rintro (h | h | h) <;> cases h

private theorem Follows.redirectEnds_iff {ops : ClusterOps σ} {replies : Nat → Option RedisReply}
    {this : HiredisCommand}
    {s s' : σ} {host port : Bytes} {state : ProcessState} {o : Outcome Exn ReplyPtr} {log : SyncLog}
    (h : Follows ops replies this s host port state o s' log) :
    FollowsToEnd o ↔ RedirectEnds ops replies s state host port := by
  cases h with
  | thrown hs h => simp only [RedirectEnds, h]; exact Iff.rfl
  | undefined hs h => simp only [RedirectEnds, h]; exact Iff.rfl
  | null hs h => simp only [RedirectEnds, h]; exact iff_of_true ⟨_, rfl⟩ trivial
  | askBroken h he => simp [RedirectEnds, h, he, FollowsToEnd]
  | movedBroken h he => simp [RedirectEnds, h, he, FollowsToEnd]
  | askingLost h he ha => simp [RedirectEnds, h, he, ha, FollowsToEnd]
  | askingRefused h he ha hr => simp [RedirectEnds, h, he, ha, hr, FollowsToEnd]
  | askLost hcmd h he ha hok hr => simp [RedirectEnds, h, he, ha, hok, hr, FollowsToEnd]
  | askDown hcmd h he ha hok hr hdown => simp [RedirectEnds, h, he, ha, hr, hdown, FollowsToEnd]
  | asked hcmd h he ha hok hr hdown => simp [RedirectEnds, h, he, ha, hok, hr, hdown, FollowsToEnd]
  | movedThrown hcmd h he hm => simp [RedirectEnds, h, he, hm, FollowsToEnd]
  | movedUndefined hcmd h he hm => simp [RedirectEnds, h, he, hm, FollowsToEnd]
  | moved hcmd h he hm =>
    cases hr : replies 1 <;> simp [RedirectEnds, h, he, hm, hr, FollowsToEnd, answerOf, replyPtr]

/-- `process` returns a finished reply or throws a `ClusterException` exactly when there is at most one hop. -/
theorem followsToEnd_iff (ops : ClusterOps σ) (replies : Nat → Option RedisReply) (this : HiredisCommand) (s : σ) :
    FollowsToEnd (Program.run (handler ops replies) this.process (SyncWorld.start s)).1 ↔
      EndsInOneHop ops replies this s := by
  obtain ⟨o, w', log, hrun, hcourse⟩ := run_course ops replies this s
  rw [hrun]
  dsimp only
  generalize w'.cluster = s' at hcourse
  cases hcourse with
  | unrouted h => simp only [EndsInOneHop, h]; exact Iff.rfl
  | unhashed h => simp only [EndsInOneHop, h]; exact Iff.rfl
  | unformatted h hcmd => simp [EndsInOneHop, h, hcmd, FollowsToEnd]
  | lost h hcmd hlost =>
    simp only [EndsInOneHop, h, hcmd]
    refine iff_of_true ⟨_, rfl⟩ ⟨rfl, fun r state host port he hr => ?_⟩
    rw [hlost he] at hr
    cases hr
  | down h hcmd he hr hdown =>
    simp only [EndsInOneHop, h, hcmd]
    refine iff_of_true ⟨_, rfl⟩ ⟨rfl, fun r state host port _ hr' hup => ?_⟩
    rw [hr] at hr'
    cases hr'
    rw [hdown] at hup
    cases hup
  | ready h hcmd he hr hdown hres =>
    simp only [EndsInOneHop, h, hcmd]
    refine iff_of_true (not_isUnfinished_of_ready hdown hres) ⟨rfl, fun r state host port _ hr' _ hres' hs => ?_⟩
    rw [hr] at hr'
    cases hr'
    rw [hres] at hres'
    cases hres'
    rcases hs with hs | hs <;> cases hs
  | redirected h hcmd he hr hdown hres hf =>
    rw [hf.redirectEnds_iff]
    simp only [EndsInOneHop, h, hcmd]
    constructor
    · intro hends
      refine ⟨rfl, fun r state host port _ hr' _ hres' _ => ?_⟩
      rw [hr] at hr'
      cases hr'
      rw [hres] at hres'
      cases hres'
      exact hends
    · rintro ⟨-, hall⟩
      exact hall _ _ _ _ he hr hdown hres hf.state_cases

/-- A `MOVED` redirection to a node that answers with the next one. -/
def movedTwice : Nat → Option RedisReply
  | 0 => some (.error (.ofText "MOVED 12182 10.0.0.2:7001"))
  | 1 => some (.error (.ofText "MOVED 12182 10.0.0.3:7002"))
  | _ => none

/-- The second redirection is returned to the caller. -/
theorem not_followsToEnd : ¬ FollowsToEnd
    (Program.run (handler (Cluster.ops functions) movedTwice) getFoo.process (SyncWorld.start HiredisCommand.oneNode)).1 :=
  by
  decide +kernel

end HiredisCluster
