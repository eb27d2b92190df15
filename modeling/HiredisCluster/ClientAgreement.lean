import HiredisCluster.AsyncDialogue
import HiredisCluster.SyncDialogue

/-!
# Agreement of the two clients

Both clients are compared with the dialogue.  They differ in one place: the synchronous client sends the command to the
new node before it calls `moved`, the asynchronous one after it.  So they agree unless the moved callback throws
(`clients_agree_iff`).
-/

namespace HiredisCluster

open Cxx

/-- The two clients, each started with the same tables, have the same transcript exactly when the moved callback does not
throw on a redirection of the command. -/
theorem clients_agree_iff {t : Shared} (ht : t.Healthy) {replies : Nat → RedisReply} (hs : Script replies)
    (movedCb : Option Exn) (key cmd : Bytes) (fuel : Nat) :
    syncTranscript t movedCb key cmd replies = asyncTranscript t movedCb key cmd replies (fuel + 3) ↔
      ¬ MovedAborts t movedCb key replies := by
  obtain ⟨hmessages, hsync⟩ := syncTranscript_cases ht hs
  constructor
  · -- the synchronous client has sent the command twice, the asynchronous one once
    intro heq habort
    have hone := asyncTranscript_aborts cmd ht hs habort (fuel + 2)
    rw [← heq, hmessages] at hone
    obtain ⟨⟨conn, hr⟩, hm, -⟩ := habort
    obtain ⟨host, port, hres⟩ := hm.processResult_eq
    rw [dialogue_moved cmd replies hr hres] at hone
    cases hone
  · intro hno
    exact (hsync hno).trans (asyncTranscript_eq ht hs hno fuel).symm

/-- One node that has all slots; `callback` tells whether the moved callback is set. -/
def Shared.oneNode (callback : Bool) : Shared where
  cluster :=
    { connections_ := { connections_ := .empty, nodes_ := OrderedMap.empty.insert (0, 16383) 0 }
      userMovedFn_ := callback, readytouse_ := true, moved_ := false }
  contexts := [Context.opened (text "10.0.0.1") 7000]

/-- A `MOVED` redirection, then the answer of the new node. -/
def movedAway : Nat → RedisReply
  | 0 => .error (.ofText "MOVED 12182 10.0.0.2:7001")
  | _ + 1 => .string (.ofText "bar")

private theorem Shared.oneNode_healthy (callback : Bool) : (Shared.oneNode callback).Healthy where
  contexts := by
    intro x hx
    rw [List.mem_singleton.1 hx]
    exact ⟨rfl, rfl, rfl⟩
  nodes := by
    intro e he
    rw [List.mem_singleton.1 he]
    exact Nat.zero_lt_one
  redirects := by
    intro e he
    cases he

private theorem movedAway_script : Script movedAway where
  up := by
    intro n
    cases n with
    | zero => decide +kernel
    | succ n => rfl
  last := by
    intro n hn
    cases n with
    | zero => exact absurd hn (Nat.lt_irrefl 0)
    | succ n => exact fun h => by rcases h with h | h <;> cases h
  port := by
    intro state host port hres _
    have hmoved : processResult (movedAway 0) = .ret (.moved, text "10.0.0.2", text "7001") := by decide +kernel
    cases hmoved.symm.trans hres
    exact ⟨7001, by decide +kernel⟩
  asking := by
    intro hask
    revert hask
    decide +kernel

/-- Without a callback the clients agree on this script. -/
theorem clients_agree_movedAway :
    syncTranscript (.oneNode false) none (text "foo") (text "GET foo") movedAway =
        asyncTranscript (.oneNode false) none (text "foo") (text "GET foo") movedAway (0 + 3) ↔
      ¬ MovedAborts (.oneNode false) none (text "foo") movedAway :=
  clients_agree_iff (Shared.oneNode_healthy false) movedAway_script none (text "foo") (text "GET foo") 0

/-- The callback throws: the synchronous client has already sent the command to the new node. -/
theorem not_clients_agree :
    (Shared.oneNode true).Healthy ∧ Script movedAway ∧
      syncTranscript (.oneNode true) (some (.cluster .disconnected)) (text "foo") (text "GET foo") movedAway ≠
        asyncTranscript (.oneNode true) (some (.cluster .disconnected)) (text "foo") (text "GET foo") movedAway 3 := by
  refine ⟨Shared.oneNode_healthy true, movedAway_script, fun heq => ?_⟩
  have hlength := congrArg (fun x => x.messages.length) heq
  revert hlength
  decide +kernel

end HiredisCluster
