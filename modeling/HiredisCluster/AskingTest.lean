import HiredisCluster.Resharding
import HiredisCluster.TestOneSlot

/-!
# The test of a slot that is handed on (`testing.cpp`)

`getSyncKeyVal` as the callback of `testOneSLot`: each key of slot 1 is read with a command of its own, and the program stops
when an assertion about the reply fails.  The test passes exactly when every key of the slot is at most one redirection
away from the node in the table and holds `test` (`askingTest_passes_iff`).  What the nodes answer is the environment of
`Servers`: they redirect as Redis documents it.
-/

namespace HiredisCluster

open Cxx TestOneSlot

/-- The test is left by an exception or by an assertion that fails. -/
inductive Exit where
  | exception (e : Exn)
  | abort

/-- The assertions about a reply: it is a string, and it says `test`. -/
def assertTest : RedisReply → Bool
  | .string str => cStr str.bytes = text "test"
  | _ => false

section askingTest

variable {ρ : Type} (fn : Functions ρ) (V : Servers) (τ : Topology) (format : Bytes → Bytes)

/-- The body of `getSyncKeyVal`; the result tells whether the assertions hold. -/
def getSyncKeyValBody (command : HiredisCommand) : Sync Bool := do
  let reply ← command.process
  if assertTest (← readReply reply) then
    freeReplyObject reply
    return true
  else return false

/-- `getSyncKeyVal`, where `format` makes the command `GET %s`. -/
def getSyncKeyVal (str : Bytes) : Code (Session ρ) Exit Unit := fun s =>
  let x := runNodes fn V τ (getSyncKeyValBody { key_ := str, cmd_ := some (format str) })
    (Net.start s.world s.executed)
  (match x.1 with
    | .ret true => .ret ()
    | .ret false => .throws .abort
    | .throws e => .throws (.exception e)
    | .undefined => .undefined, ⟨x.2.client.cluster, x.2.executed⟩)

variable {fn V τ format} {t : SlotsTable} {base : List Context}

/-- The assertions are about the reply that the user gets; freeing it changes nothing that stays. -/
private theorem getSyncKeyValBody_answered {command : HiredisCommand} {s net : Net ρ} {a : Nat} {r : RedisReply}
    (hrun : runNodes fn V τ command.process s = (.ret (.object a r), net)) (hfree : a ∉ net.client.freed) :
    ∃ net', runNodes fn V τ (getSyncKeyValBody command) s = (.ret (assertTest r), net') ∧
      net'.client.cluster = net.client.cluster ∧ net'.executed = net.executed := by
  have hbody : runNodes fn V τ (getSyncKeyValBody command) s = runNodes fn V τ
      (if assertTest r then do freeReplyObject (.object a r); return true else return false) net :=
    (runNodes_of_ret hrun _).trans (runNodes_of_ret (runNodes_readReply hfree r) _)
  rw [hbody]
  by_cases h : assertTest r = true
  · rw [if_pos h, h]
    exact ⟨_, runNodes_of_ret (runNodes_free hfree r) _, rfl, rfl⟩
  · rw [if_neg h, eq_false_of_ne_true h]
    exact ⟨net, rfl, rfl, rfl⟩

/-- What is due for a command passes the assertions exactly if one redirection at most leads to the key and its value
passes. -/
private theorem due_passes_iff (q : Command V) {done : List Execution} {value : RedisReply}
    (hvalue : V.answer done (q.execution τ) = value) :
    (∃ r, V.due t done q τ = .ret r ∧ assertTest r = true) ↔ τ.reaches t q.key = true ∧ assertTest value = true := by
  unfold Servers.due
  by_cases hreach : τ.reaches t q.key = true
  · have howner : ¬ (t.owner (keySlot q.key)).isNone = true := by
      intro hnone
      unfold Topology.reaches at hreach
      rw [Option.isNone_iff_eq_none.1 hnone] at hreach
      cases hreach
    rw [if_neg howner, if_pos hreach, hvalue]
    simp [hreach]
  · rw [if_neg hreach]
    constructor
    · rintro ⟨r, hr, hpass⟩
      split at hr <;> cases hr
      cases hpass
    · exact fun h => absurd h.1 hreach

/-- A key passes if one redirection at most leads to it and its value is right. -/
private theorem getSyncKeyVal_returns (hf : FreshHealthy fn) (hm : LeavesClusterAlone fn) (hr : CallbackReturns fn)
    {key : Bytes} (hshort : key.length < 2 ^ 31) (habout : V.keyOf (format key) = key) {value : RedisReply}
    (hvalue : ∀ done node, V.answer done ⟨node, format key⟩ = value) (s : Session ρ)
    (hs : InService base t s.world) :
    InService base t (getSyncKeyVal fn V τ format key s).2.world ∧
      ((getSyncKeyVal fn V τ format key s).1 = .ret () ↔
        τ.reaches t key = true ∧ assertTest value = true) := by
  let q : Command V := ⟨key, format key, habout, hshort⟩
  obtain ⟨hreply, -, hservice, -, hfree⟩ := hs.step V hf hm hr s.executed (q, τ)
  rw [← due_passes_iff q (hvalue s.executed _), ← hreply]
  unfold Session.exec at hservice
  unfold Session.reply at hreply ⊢
  cases hx : Session.process fn V s (q, τ) with
  | mk o net =>
    have hrun : runNodes fn V τ q.object.process (Net.start s.world s.executed) = (o, net) := hx
    have hown : Session.process fn V ⟨s.world, s.executed⟩ (q, τ) = (o, net) := hx
    rw [hown] at hreply hservice hfree
    unfold getSyncKeyVal
    cases o with
    | throws e =>
      have hbody : runNodes fn V τ (getSyncKeyValBody q.object) (Net.start s.world s.executed) = (.throws e, net) :=
        Program.run_of_throws (nodesHandler fn V τ) hrun _
      rw [show ({ key_ := key, cmd_ := some (format key) } : HiredisCommand) = q.object from rfl, hbody]
      exact ⟨hservice, iff_of_false (fun h => nomatch h) fun ⟨r, h, _⟩ => nomatch h⟩
    | undefined =>
      have hbody : runNodes fn V τ (getSyncKeyValBody q.object) (Net.start s.world s.executed) = (.undefined, net) :=
        Program.run_of_undefined (nodesHandler fn V τ) hrun _
      rw [show ({ key_ := key, cmd_ := some (format key) } : HiredisCommand) = q.object from rfl, hbody]
      exact ⟨hservice, iff_of_false (fun h => nomatch h) fun ⟨r, h, _⟩ => nomatch h⟩
    | ret p =>
      cases hp : p.object? with
      | none =>
        -- the user always gets a reply object
        exfalso
        simp only [Outcome.bind, hp] at hreply
        unfold Servers.due at hreply
        split at hreply
        · cases hreply
        · split at hreply <;> cases hreply
      | some r =>
        obtain ⟨a, rfl⟩ := ReplyPtr.eq_object hp
        obtain ⟨net', hbody, hcluster, -⟩ := getSyncKeyValBody_answered hrun (hfree a r rfl)
        rw [show ({ key_ := key, cmd_ := some (format key) } : HiredisCommand) = q.object from rfl, hbody]
        refine ⟨show InService base t net'.client.cluster by rw [hcluster]; exact hservice, ?_⟩
        cases hpass : assertTest r <;> simp [Outcome.bind, ReplyPtr.object?, hpass]

/-- The test of the slot passes, whatever keys were handed on in the middle of a migration, exactly when the counter holds
the number of the calls, as it does up to six characters, and every printable key of the slot is at most one redirection
away from the node in the table and has the value `test`. -/
theorem askingTest_passes_iff (hf : FreshHealthy fn) (hm : LeavesClusterAlone fn) (hr : CallbackReturns fn)
    (t : SlotsTable) {reply : RedisReply} (ht : t.Encodes reply) {w₀ : World ρ} {a : Nat} (ha : a ∉ w₀.freed)
    (habout : ∀ key, 0 ∉ key → V.keyOf (format key) = key) {value : Bytes → RedisReply}
    (hvalue : ∀ key done node, V.answer done ⟨node, format key⟩ = value key) {maxdepth : Nat} (hdepth : maxdepth < 2 ^ 31)
    (fuel : Nat) :
    ∃ w₁, Cluster.construct fn (.object a reply) w₀ = (.ret (), w₁) ∧
      ((∃ n, (testOneSLot true (getSyncKeyVal fn V τ format) maxdepth (2 * 94 ^ maxdepth + fuel) ⟨w₁, []⟩).1 =
          .ret (some n)) ↔
        (keysOf true maxdepth).length < 2 ^ 31 ∧
        ∀ key : Bytes, key.length = maxdepth → (∀ c ∈ key, minprintable ≤ c ∧ c < maxprintable) → keySlot key = 1 →
          τ.reaches t key = true ∧ assertTest (value key) = true) ∧
      (maxdepth ≤ 6 → (keysOf true maxdepth).length < 2 ^ 31) := by
  obtain ⟨w₁, hrun, hservice, -⟩ := construct_inService hf t ht ha
  have hloop : ((keysOf true maxdepth).forM (getSyncKeyVal fn V τ format) ⟨w₁, []⟩).1 = .ret () ↔
      ∀ key ∈ keysOf true maxdepth, τ.reaches t key = true ∧ assertTest (value key) = true := by
    apply Code.forM_returns_iff (I := fun s : Session ρ => InService w₀.contexts t s.world) ?_ hservice
    intro key hkey s hs
    have hshort : key.length < 2 ^ 31 := by
      rw [(mem_keysOf hkey).1]
      exact hdepth
    have hnul : (0 : UInt8) ∉ key := by
      intro h
      exact absurd ((mem_keysOf hkey).2.1 0 h).1 (by decide)
    exact getSyncKeyVal_returns hf hm hr hshort (habout key hnul) (hvalue key) s hs
  have hslot : ∀ key : Bytes, SlotHash.slotByKey true key key.length = some 1 ↔ keySlot key = 1 := by
    intro key
    rw [slotByKey_keySlot, Option.some.injEq]
  simp only [mem_keysOf_iff, hslot, and_imp] at hloop
  refine ⟨w₁, hrun, ?_, length_keysOf_lt⟩
  rw [← hloop]
  by_cases hcount : (keysOf true maxdepth).length < 2 ^ 31
  · rw [and_iff_right hcount, testOneSLot_of_lt hcount, Code.bind_apply]
    cases (keysOf true maxdepth).forM (getSyncKeyVal fn V τ format) ⟨w₁, []⟩ with
    | mk o s => cases o <;> simp
  · refine iff_of_false ?_ fun h => hcount h.1
    rintro ⟨n, hn⟩
    rw [testOneSLot_of_le (Nat.le_of_not_lt hcount)] at hn
    -- the counter overflows after the last call
    obtain ⟨_, _, -, hundefined⟩ := Code.ret_of_bind (Prod.ext hn rfl)
    cases hundefined

end askingTest

/-- `GET %s` as hiredis writes it. -/
def getCommand (key : Bytes) : Bytes :=
  text "*2\r\n$3\r\nGET\r\n$" ++ decimal key.length ++ text "\r\n" ++ key ++ text "\r\n"

/-- The key behind the second length. -/
def keyOfGet (cmd : Bytes) : Bytes := ((cmd.drop 14).dropWhile (· ≠ 0x0a)).tail.dropLast.dropLast

/-- Nodes that hold `test` for every key. -/
def testServers : Servers where
  keyOf := keyOfGet
  answer _ _ := .string (.ofText "test")
  plain _ _ := ⟨rfl, rfl⟩

private theorem keyOf_testServers : testServers.keyOf = keyOfGet := rfl

private theorem keyOfGet_getCommand (key : Bytes) : keyOfGet (getCommand key) = key := by
  have hdigits : ∀ c ∈ decimal key.length ++ [0x0d], (decide (c ≠ 0x0a)) = true := by
    intro c hc
    rcases List.mem_append.1 hc with hc | hc
    · have hdigit := isDigit_decimal _ c hc
      apply decide_eq_true
      rintro rfl
      exact absurd hdigit (by decide)
    · rw [List.mem_singleton.1 hc]
      decide
  have hcommand : getCommand key = text "*2\r\n$3\r\nGET\r\n$" ++
      (decimal key.length ++ [0x0d] ++ 0x0a :: (key ++ [0x0d] ++ [0x0a])) := by
    simp [getCommand, show text "\r\n" = [0x0d, 0x0a] by decide]
  have hdrop : (getCommand key).drop 14 = decimal key.length ++ [0x0d] ++ 0x0a :: (key ++ [0x0d] ++ [0x0a]) := by
    rw [hcommand]
    exact List.drop_left' (by decide)
  unfold keyOfGet
  rw [hdrop, List.dropWhile_append_of_pos hdigits, List.dropWhile_cons_of_neg (by decide), List.tail_cons,
    List.dropLast_concat, List.dropLast_concat]

/-- The keys of the test program. -/
theorem askingTest_passes_iff_handedOn :
    ∃ w₁, Cluster.construct healthyFunctions (.object 0 twoNodesReply) ⟨Cluster.initial, [], 1, [], ()⟩ = (.ret (), w₁) ∧
      ∃ n, (testOneSLot true (getSyncKeyVal healthyFunctions testServers handedOn getCommand) 5 (2 * 94 ^ 5 + 0)
        ⟨w₁, []⟩).1 = .ret (some n) := by
  have hm : LeavesClusterAlone healthyFunctions := fun w => ⟨rfl, rfl⟩
  have hfree : 0 ∉ (⟨Cluster.initial, [], 1, [], ()⟩ : World Unit).freed := by decide
  have habout : ∀ key, 0 ∉ key → testServers.keyOf (getCommand key) = key := by
    intro key _
    rw [keyOf_testServers, keyOfGet_getCommand]
  obtain ⟨w₁, hrun, hpasses, hcount⟩ := askingTest_passes_iff healthyFunctions_fresh hm (fun _ => rfl) twoNodes twoNodes_encodes
    hfree (τ := handedOn) habout (fun _ _ _ => rfl) (show 5 < 2 ^ 31 by decide) 0
  refine ⟨w₁, hrun, hpasses.2 ⟨hcount (by decide), fun key _ _ hslot => ⟨?_, by decide⟩⟩⟩
  unfold Topology.reaches Topology.stale
  rw [hslot, Bool.and_eq_true, Bool.or_eq_true]
  exact ⟨by decide, Or.inl (by decide)⟩

end HiredisCluster
