import HiredisCluster.Hiredis

/-!
# Classifying replies (`hiredisprocess.h`)

`processResult` recognises redirections by the first word of an error text and lets `parsehostport` cut out the
address; `checkCritical` is the test both clients apply first.  `parsehostport` computes with positions of type
`size_t`: where `find` answers `npos` the added one wraps to `0`, so its own test for `npos` never fails
(`parsehostport_ret`) and every text that starts with `ASK` or `MOVED` yields some host and port.
-/

namespace HiredisCluster

open Cxx

/-- `HiredisProcess::processState`. -/
inductive ProcessState where
  | moved | ask | clusterDown | ready | failed
  deriving DecidableEq, Repr

/-- `HiredisProcess::parsehostport`, returning the two output parameters. -/
def parsehostport (error : Bytes) : Outcome Exn (Bytes × Bytes) := do
  -- `npos + 1` is `0`: without a second space the host starts at `0`, without a colon the port does
  let hostPotision := sizeAdd (find error (text " ") (sizeAdd (find error (text " ") 0) 1)) 1
  let portPosition := sizeAdd (find error (text ":") hostPotision) 1
  if hostPotision ≠ npos ∧ portPosition ≠ npos then
    let host ← (substr error hostPotision (sizeSub (sizeSub portPosition hostPotision) 1)).mapThrows .std
    let port ← (substr error portPosition npos).mapThrows .std
    return (host, port)
  else
    .throws (.cluster (.logicError (text "error while parsing host port in redis redirection reply")))

/-- `HiredisProcess::processResult` on the object the reply points at, with `result_host` and `result_port`, which
stay empty unless the reply is a redirection. -/
def processResult (reply : RedisReply) : Outcome Exn (ProcessState × Bytes × Bytes) := do
  if reply.type = .error then
    let str ← reply.strOf
    let error := str.bytes
    if find error (text "ASK") 0 = 0 then
      let (host, port) ← parsehostport error
      return (.ask, host, port)
    else if find error (text "MOVED") 0 = 0 then
      let (host, port) ← parsehostport error
      return (.moved, host, port)
    else if find error (text "CLUSTERDOWN") 0 = 0 then
      return (.clusterDown, [], [])
    else
      return (.ready, [], [])
  else
    return (.ready, [], [])

/-- `HiredisProcess::checkCritical`. -/
def checkCritical {m : Type → Type} [Monad m] [HiredisCalls m] (reply : ReplyPtr) (errorcritical free_reply_obj : Bool)
    (error : Bytes) (con : Option ConPtr) : m Unit := do
  if let some c := con then
    if ← HiredisCalls.err c then
      raise .null .disconnected
  let r ← readReply reply
  if r.type = .error then
    if errorcritical then
      raise (if free_reply_obj then reply else .null) (.logicError error)
    else
      let str ← outcome r.strOf
      -- anywhere in the text, unlike in `processResult`
      if find (cStr str.bytes) (text "CLUSTERDOWN") 0 ≠ npos then
        raise (if free_reply_obj then reply else .null) .clusterDown

/-! ### What the classification says -/

namespace RedisReply

def IsError (r : RedisReply) : Prop := r.type = .error

instance (r : RedisReply) : Decidable r.IsError := inferInstanceAs (Decidable (r.type = .error))

/-- An error whose text, read as a C string, contains `CLUSTERDOWN`. -/
def mentionsClusterDown : RedisReply → Bool
  | error str => find (cStr str.bytes) (text "CLUSTERDOWN") 0 ≠ npos
  | _ => false

/-- An error whose text starts with `word`. -/
def startsWith (word : Bytes) : RedisReply → Bool
  | error str => word.isPrefixOf str.bytes
  | _ => false

end RedisReply

/-- The host is what stands between a position of the text and the next colon, or the end. -/
private theorem parsehostport_cut {error : Bytes} (h : error.length < npos) :
    ∃ hostPotision port, hostPotision ≤ error.length ∧ parsehostport error =
      .ret ((error.drop hostPotision).take (find error (text ":") hostPotision - hostPotision), port) := by
  have hn : npos = 2 ^ 64 - 1 := rfl
  have succ_le : ∀ (c : UInt8) (pos : Nat), sizeAdd (find error [c] pos) 1 ≤ error.length := by
    intro c pos
    unfold sizeAdd
    rcases find_singleton error c pos with hf | hf
    · rw [hf]; simp [npos]
    · rw [Nat.mod_eq_of_lt (by omega)]; omega
  have hhost := succ_le 32 (sizeAdd (find error (text " ") 0) 1)
  have hport := succ_le 58 (sizeAdd (find error (text " ") (sizeAdd (find error (text " ") 0) 1)) 1)
  unfold parsehostport
  rw [show text " " = [32] by decide, show text ":" = [58] by decide] at *
  generalize sizeAdd (find error [32] (sizeAdd (find error [32] 0) 1)) 1 = p at hhost hport
  have hcolon : find error [58] p ≤ npos := by
    rcases find_singleton error 58 p with hf | hf <;> omega
  -- when there is no colon, `npos + 1` wraps to `0` and the subtractions wrap back
  have hcount : sizeSub (sizeSub (sizeAdd (find error [58] p) 1) p) 1 = find error [58] p - p := by
    have hle := (notMem_take_find h 58 hhost).1
    unfold sizeSub sizeAdd
    omega
  simp only [ne_eq, substr, hhost, hport, ↓reduceIte, hcount]
  rw [if_pos ⟨by omega, by omega⟩]
  exact ⟨p, _, hhost, rfl⟩

theorem parsehostport_ret {error : Bytes} (h : error.length < npos) :
    ∃ host port, parsehostport error = .ret (host, port) := by
  obtain ⟨_, port, -, hrun⟩ := parsehostport_cut h
  exact ⟨_, port, hrun⟩

/-- The host has no colon and only bytes of the text, whatever the text is. -/
theorem parsehostport_host {error host port : Bytes} (h : error.length < npos)
    (hp : parsehostport error = .ret (host, port)) : 0x3a ∉ host ∧ ∀ c ∈ host, c ∈ error := by
  obtain ⟨pos, port', hpos, hrun⟩ := parsehostport_cut h
  rw [hrun] at hp
  cases hp
  refine ⟨?_, fun c hc => List.mem_of_mem_drop (List.mem_of_mem_take hc)⟩
  rw [show text ":" = [0x3a] by decide]
  exact (notMem_take_find h 0x3a hpos).2

/-- What starts with `CLUSTERDOWN` mentions it. -/
theorem RedisReply.mentions_of_prefix {str : Chars} (h : text "CLUSTERDOWN" <+: str.bytes) :
    (error str).mentionsClusterDown = true := by
  have hpre := prefix_cStr h (by decide +kernel)
  have hlen : (cStr str.bytes).length < npos := Nat.lt_of_le_of_lt (List.takeWhile_sublist _).length_le str.fits
  have hzero := (find_eq_zero_iff hlen).2 hpre
  simp [mentionsClusterDown, hzero, npos]

/-- An error that starts with `CLUSTERDOWN` is caught by `checkCritical` before `processResult` sees it, so what
`processResult` answers is a redirection or `READY`. -/
theorem processResult_cases {r : RedisReply} (h : r.mentionsClusterDown = false) :
    processResult r = .ret (.ready, [], []) ∨
      ∃ host port, processResult r = .ret (.ask, host, port) ∨ processResult r = .ret (.moved, host, port) := by
  cases r with
  | error str =>
    obtain ⟨host, port, hp⟩ := parsehostport_ret str.fits
    simp only [processResult, RedisReply.type, RedisReply.strOf, Outcome.ret_bind, hp, ↓reduceIte]
    split
    · right; exact ⟨host, port, Or.inl rfl⟩
    · split
      · right; exact ⟨host, port, Or.inr rfl⟩
      · split
        · rename_i hdown
          rw [RedisReply.mentions_of_prefix ((find_eq_zero_iff str.fits).1 hdown)] at h
          cases h
        · left; rfl
  | _ => left; rfl

end HiredisCluster
