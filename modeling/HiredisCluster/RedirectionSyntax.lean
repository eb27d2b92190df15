import HiredisCluster.HiredisProcess

/-!
# The syntax of redirections

A server redirects with `MOVED slot host:port` or `ASK slot host:port`.  `parsehostport` takes what follows the second
space apart at its first colon (`parsehostport_eq`), so the address comes back exactly when the host has no colon of its
own.  What has no second space or no colon behind it is not rejected: the test for `npos` comes after the addition.
-/

namespace HiredisCluster

open Cxx

/-- A redirection by its parts: a word, a non-empty word without spaces and an address, with one space between them. -/
def IsRedirection (word error host port : Bytes) : Prop :=
  ∃ slot : Bytes, slot ≠ [] ∧ 0x20 ∉ slot ∧ error = word ++ 0x20 :: (slot ++ 0x20 :: (host ++ 0x3a :: port))

/-- A text with no second space, or with no colon after the second space. -/
def Incomplete (error : Bytes) : Prop :=
  ∀ a b c : Bytes, error = a ++ 0x20 :: (b ++ 0x20 :: c) → 0x20 ∉ a → 0x20 ∉ b → 0x3a ∉ c

/-- What the two functions promise about one error text: only redirections are answered as such, with their own host and
port, and an incomplete one is a `LogicError`. -/
structure AcceptsRedirections (str : Chars) : Prop where
  ask : ∀ host port, processResult (.error str) = .ret (.ask, host, port) →
    IsRedirection (text "ASK") str.bytes host port
  moved : ∀ host port, processResult (.error str) = .ret (.moved, host, port) →
    IsRedirection (text "MOVED") str.bytes host port
  incomplete : text "ASK" <+: str.bytes ∨ text "MOVED" <+: str.bytes → Incomplete str.bytes →
    ∃ what, parsehostport str.bytes = .throws (.cluster (.logicError what))

/-- The host ends at the first colon after the second space. -/
theorem parsehostport_eq {error word slot host port : Bytes}
    (herr : error = word ++ 0x20 :: (slot ++ 0x20 :: (host ++ 0x3a :: port))) (hw : 0x20 ∉ word) (hs : 0x20 ∉ slot)
    (hh : 0x3a ∉ host) (hlen : error.length < npos) : parsehostport error = .ret (host, port) := by
  have hn : npos = 2 ^ 64 - 1 := rfl
  -- what stands before the slot, the host and the port
  have toSlot : error = (word ++ [0x20]) ++ (slot ++ 0x20 :: (host ++ 0x3a :: port)) := by simp [herr]
  have toHost : error = (word ++ 0x20 :: (slot ++ [0x20])) ++ (host ++ 0x3a :: port) := by simp [herr]
  have toPort : error = (word ++ 0x20 :: (slot ++ 0x20 :: (host ++ [0x3a]))) ++ port := by simp [herr]
  have slotAt : (word ++ [(0x20 : UInt8)]).length = word.length + 1 := List.length_append
  have hostAt : (word ++ 0x20 :: (slot ++ [(0x20 : UInt8)])).length = word.length + 1 + slot.length + 1 := by
    simp only [List.length_append, List.length_cons, List.length_nil]
    omega
  have portAt : (word ++ 0x20 :: (slot ++ 0x20 :: (host ++ [(0x3a : UInt8)]))).length =
      word.length + 1 + slot.length + 1 + host.length + 1 := by
    simp only [List.length_append, List.length_cons, List.length_nil]
    omega
  have hsum := congrArg List.length toPort
  rw [List.length_append, portAt] at hsum
  have succ : ∀ n, n < error.length → sizeAdd n 1 = n + 1 := by
    intro n hlt
    exact Nat.mod_eq_of_lt (by omega)
  have first : find error [0x20] 0 = 0 + word.length := find_of_append (p := []) herr rfl hw
  have hostPos : sizeAdd (find error (text " ") (sizeAdd (find error (text " ") 0) 1)) 1 =
      word.length + 1 + slot.length + 1 := by
    rw [show text " " = [0x20] by decide, first, Nat.zero_add, succ word.length (by omega),
      find_of_append toSlot slotAt hs, succ _ (by omega)]
  have portPos : sizeAdd (find error (text ":") (word.length + 1 + slot.length + 1)) 1 =
      word.length + 1 + slot.length + 1 + host.length + 1 := by
    rw [show text ":" = [0x3a] by decide, find_of_append toHost hostAt hh, succ _ (by omega)]
  have hostLen : sizeSub (sizeSub (word.length + 1 + slot.length + 1 + host.length + 1)
      (word.length + 1 + slot.length + 1)) 1 = host.length := by
    unfold sizeSub
    omega
  unfold parsehostport
  rw [hostPos]
  dsimp only
  rw [portPos, hostLen, substr_of_append toHost hostAt, substr_npos toPort portAt hlen,
    if_pos ⟨by omega, by omega⟩]
  rfl

/-- What `processResult` does with an error text that starts with a redirection word. -/
private theorem processResult_ask {str : Chars} (h : text "ASK" <+: str.bytes) :
    processResult (.error str) = (parsehostport str.bytes).bind fun r => .ret (.ask, r.1, r.2) := by
  have hfind := (find_eq_zero_iff str.fits).2 h
  simp only [processResult, RedisReply.type, RedisReply.strOf, Outcome.ret_bind, hfind, ↓reduceIte]
  rfl

private theorem processResult_moved {str : Chars} (h : text "MOVED" <+: str.bytes) :
    processResult (.error str) = (parsehostport str.bytes).bind fun r => .ret (.moved, r.1, r.2) := by
  have hfind := (find_eq_zero_iff str.fits).2 h
  have hask : find str.bytes (text "ASK") 0 ≠ 0 := by
    intro hz
    obtain ⟨a, ha⟩ := (find_eq_zero_iff str.fits).1 hz
    obtain ⟨m, hm⟩ := h
    have hfirst : text "ASK" ++ a = text "MOVED" ++ m := ha.trans hm.symm
    cases hfirst
  simp only [processResult, RedisReply.type, RedisReply.strOf, Outcome.ret_bind, hfind, hask, ↓reduceIte]
  rfl

/-- Any other error has no address. -/
private theorem processResult_other {str : Chars} (ha : ¬ text "ASK" <+: str.bytes)
    (hm : ¬ text "MOVED" <+: str.bytes) :
    processResult (.error str) = .ret (.clusterDown, [], []) ∨ processResult (.error str) = .ret (.ready, [], []) := by
  have hask : find str.bytes (text "ASK") 0 ≠ 0 := fun hz => ha ((find_eq_zero_iff str.fits).1 hz)
  have hmoved : find str.bytes (text "MOVED") 0 ≠ 0 := fun hz => hm ((find_eq_zero_iff str.fits).1 hz)
  simp only [processResult, RedisReply.type, RedisReply.strOf, Outcome.ret_bind, hask, hmoved, ↓reduceIte]
  split
  · exact Or.inl rfl
  · exact Or.inr rfl

/-- The host that a reply yields has no colon. -/
theorem colon_notMem_of_processResult {r : RedisReply} {state : ProcessState} {host port : Bytes}
    (h : processResult r = .ret (state, host, port)) : 0x3a ∉ host := by
  cases r with
  | error str =>
    obtain ⟨host', port', hp⟩ := parsehostport_ret str.fits
    have hcolon := (parsehostport_host str.fits hp).1
    by_cases hask : text "ASK" <+: str.bytes
    · rw [processResult_ask hask, hp] at h
      cases h
      exact hcolon
    · by_cases hmoved : text "MOVED" <+: str.bytes
      · rw [processResult_moved hmoved, hp] at h
        cases h
        exact hcolon
      · rcases processResult_other hask hmoved with hother | hother
        · cases hother.symm.trans h
          exact List.not_mem_nil
        · cases hother.symm.trans h
          exact List.not_mem_nil
  | _ =>
    cases h
    exact List.not_mem_nil

private theorem processResult_neither {str : Chars} (ha : ¬ text "ASK" <+: str.bytes)
    (hm : ¬ text "MOVED" <+: str.bytes)
    {state : ProcessState} {host port : Bytes} (h : processResult (.error str) = .ret (state, host, port)) :
    state ≠ .ask ∧ state ≠ .moved := by
  rcases processResult_other ha hm with hother | hother
  · cases hother.symm.trans h
    exact ⟨by decide, by decide⟩
  · cases hother.symm.trans h
    exact ⟨by decide, by decide⟩

/-- An error that is no redirection has the port `""`, which `std::stoi` rejects. -/
theorem parsehostport_of_processResult {str : Chars} {state : ProcessState} {host port : Bytes} {n : Int32}
    (h : processResult (.error str) = .ret (state, host, port)) (hport : stoi port = .ret n) :
    parsehostport str.bytes = .ret (host, port) := by
  obtain ⟨host', port', hp⟩ := parsehostport_ret str.fits
  by_cases hask : text "ASK" <+: str.bytes
  · rw [processResult_ask hask, hp] at h
    cases h
    exact hp
  · by_cases hmoved : text "MOVED" <+: str.bytes
    · rw [processResult_moved hmoved, hp] at h
      cases h
      exact hp
    · rcases processResult_other hask hmoved with hother | hother
      · cases hother.symm.trans h
        cases hport
      · cases hother.symm.trans h
        cases hport

/-- A `MOVED` redirection, whatever follows the word. -/
def RedisReply.IsMoved (r : RedisReply) : Prop := r.startsWith (text "MOVED") = true

instance (r : RedisReply) : Decidable r.IsMoved := inferInstanceAs (Decidable (_ = _))

theorem RedisReply.IsMoved.processResult_eq {r : RedisReply} (h : r.IsMoved) :
    ∃ host port, processResult r = .ret (.moved, host, port) := by
  cases r with
  | error str =>
    obtain ⟨host, port, hp⟩ := parsehostport_ret str.fits
    refine ⟨host, port, ?_⟩
    rw [processResult_moved (List.isPrefixOf_iff_prefix.1 h), hp]
    rfl
  | _ => cases h

theorem RedisReply.isMoved_of_processResult {r : RedisReply} {host port : Bytes}
    (h : processResult r = .ret (.moved, host, port)) : r.IsMoved := by
  cases r with
  | error str =>
    refine Decidable.byContradiction fun hm => ?_
    have hno : ¬ text "MOVED" <+: str.bytes := fun hpre => hm (List.isPrefixOf_iff_prefix.2 hpre)
    by_cases ha : text "ASK" <+: str.bytes
    · obtain ⟨host', port', hp⟩ := parsehostport_ret str.fits
      rw [processResult_ask ha, hp] at h
      cases h
    · exact (processResult_neither ha hno h).2 rfl
  | _ => cases h

theorem RedisReply.isAsk_of_processResult {r : RedisReply} {host port : Bytes}
    (h : processResult r = .ret (.ask, host, port)) : r.startsWith (text "ASK") = true := by
  cases r with
  | error str =>
    refine Decidable.byContradiction fun ha => ?_
    have hno : ¬ text "ASK" <+: str.bytes := fun hpre => ha (List.isPrefixOf_iff_prefix.2 hpre)
    by_cases hm : text "MOVED" <+: str.bytes
    · obtain ⟨host', port', hp⟩ := parsehostport_ret str.fits
      rw [processResult_moved hm, hp] at h
      cases h
    · exact (processResult_neither hno hm h).1 rfl
  | _ => cases h

/-! ### What is accepted -/

private theorem word_spacefree : (0x20 : UInt8) ∉ text "ASK" ∧ (0x20 : UInt8) ∉ text "MOVED" := by decide

/-- A redirection is taken apart into a host without colons and the rest. -/
private theorem IsRedirection.parsed {word error host port : Bytes} (h : IsRedirection word error host port)
    (hw : 0x20 ∉ word) (hlen : error.length < npos) :
    ∃ host' port', parsehostport error = .ret (host', port') ∧ IsRedirection word error host' port' := by
  obtain ⟨slot, hne, hs, herr⟩ := h
  obtain ⟨host', port', haddr, hh⟩ := List.eq_append_cons_of_mem
    (List.mem_append_right host (List.mem_cons_self (a := (0x3a : UInt8)) (l := port)))
  rw [haddr] at herr
  exact ⟨host', port', parsehostport_eq herr hw hs hh hlen, slot, hne, hs, herr⟩

private theorem IsRedirection.prefix {word error host port : Bytes} (h : IsRedirection word error host port) :
    word <+: error := by
  obtain ⟨slot, -, -, rfl⟩ := h
  exact List.prefix_append _ _

private theorem IsRedirection.not_incomplete {word error host port : Bytes} (h : IsRedirection word error host port)
    (hw : 0x20 ∉ word) : ¬ Incomplete error := by
  obtain ⟨slot, -, hs, herr⟩ := h
  intro hinc
  exact hinc word slot _ herr hw hs (by simp)

/-- The two functions keep their promise on a text exactly when it does not start as a redirection or is one. -/
theorem acceptsRedirections_iff (str : Chars) : AcceptsRedirections str ↔
    (¬ text "ASK" <+: str.bytes ∧ ¬ text "MOVED" <+: str.bytes) ∨
      ∃ host port, IsRedirection (text "ASK") str.bytes host port ∨
        IsRedirection (text "MOVED") str.bytes host port := by
  constructor
  · intro h
    by_cases ha : text "ASK" <+: str.bytes
    · obtain ⟨host, port, hp⟩ := parsehostport_ret str.fits
      refine Or.inr ⟨host, port, Or.inl (h.ask host port ?_)⟩
      rw [processResult_ask ha, hp]
      rfl
    · by_cases hm : text "MOVED" <+: str.bytes
      · obtain ⟨host, port, hp⟩ := parsehostport_ret str.fits
        refine Or.inr ⟨host, port, Or.inr (h.moved host port ?_)⟩
        rw [processResult_moved hm, hp]
        rfl
      · exact Or.inl ⟨ha, hm⟩
  · rintro (⟨ha, hm⟩ | ⟨host, port, h | h⟩)
    · refine ⟨?_, ?_, ?_⟩
      · intro host port hr
        exact absurd rfl (processResult_neither ha hm hr).1
      · intro host port hr
        exact absurd rfl (processResult_neither ha hm hr).2
      · rintro (h | h)
        · exact absurd h ha
        · exact absurd h hm
    · obtain ⟨host', port', hp, hr⟩ := h.parsed word_spacefree.1 str.fits
      refine ⟨?_, ?_, fun _ hinc => absurd hinc (h.not_incomplete word_spacefree.1)⟩
      · intro host₁ port₁ h₁
        rw [processResult_ask h.prefix, hp] at h₁
        cases h₁
        exact hr
      · intro host₁ port₁ h₁
        rw [processResult_ask h.prefix, hp] at h₁
        cases h₁
    · obtain ⟨host', port', hp, hr⟩ := h.parsed word_spacefree.2 str.fits
      refine ⟨?_, ?_, fun _ hinc => absurd hinc (h.not_incomplete word_spacefree.2)⟩
      · intro host₁ port₁ h₁
        rw [processResult_moved h.prefix, hp] at h₁
        cases h₁
      · intro host₁ port₁ h₁
        rw [processResult_moved h.prefix, hp] at h₁
        cases h₁
        exact hr

/-- Without a colon the port starts at `0`: the whole text is the port of `MOVED 1 10.0.0.1`. -/
theorem accepts_colonless : ¬ AcceptsRedirections (Chars.ofText "MOVED 1 10.0.0.1") := by
  intro h
  obtain ⟨what, hwhat⟩ := h.incomplete (Or.inr (by decide +kernel)) (fun a b c herr _ _ hc => by
    have hmem : (0x3a : UInt8) ∈ (Chars.ofText "MOVED 1 10.0.0.1").bytes := by
      rw [herr]
      simp [hc]
    exact absurd hmem (by decide +kernel))
  have hret : parsehostport (Chars.ofText "MOVED 1 10.0.0.1").bytes =
      .ret (text "10.0.0.1", text "MOVED 1 10.0.0.1") := by decide +kernel
  rw [hret] at hwhat
  cases hwhat

/-! ### Addresses come back -/

/-- The error a server prints to redirect to `host` and `port`. -/
def redirectionText (asking : Bool) (slot : Nat) (host : Bytes) (port : Nat) : Bytes :=
  text (if asking then "ASK" else "MOVED") ++ 0x20 :: (decimal slot ++ 0x20 :: (host ++ 0x3a :: decimal port))

/-- `processResult` hands back the address a server printed, with a port that `std::stoi` reads. -/
def RoundTrips (asking : Bool) (host : Bytes) (port : Nat) (str : Chars) : Prop :=
  processResult (.error str) = .ret (if asking then .ask else .moved, host, decimal port) ∧
    stoi (decimal port) = .ret (Int32.ofNat port)

private theorem decimal_spacefree (n : Nat) : (0x20 : UInt8) ∉ decimal n := by
  intro h
  exact absurd (isDigit_decimal n _ h) (by decide)

theorem processResult_redirectionText {asking : Bool} {slot port : Nat} {host h p : Bytes} {str : Chars}
    (hstr : str.bytes = redirectionText asking slot host port) (haddr : host ++ 0x3a :: decimal port = h ++ 0x3a :: p)
    (hh : 0x3a ∉ h) : processResult (.error str) = .ret (if asking then .ask else .moved, h, p) := by
  have herr : str.bytes =
      text (if asking then "ASK" else "MOVED") ++ 0x20 :: (decimal slot ++ 0x20 :: (h ++ 0x3a :: p)) := by
    rw [hstr, redirectionText, haddr]
  have hw : (0x20 : UInt8) ∉ text (if asking then "ASK" else "MOVED") := by
    cases asking
    · exact word_spacefree.2
    · exact word_spacefree.1
  have hp := parsehostport_eq herr hw (decimal_spacefree slot) hh str.fits
  have hpre : text (if asking then "ASK" else "MOVED") <+: str.bytes := by
    rw [herr]
    exact List.prefix_append _ _
  cases asking with
  | true => rw [processResult_ask hpre, hp]; rfl
  | false => rw [processResult_moved hpre, hp]; rfl

/-- The printed address comes back exactly when the host has no colon. -/
theorem roundTrips_iff (asking : Bool) (slot port : Nat) (host : Bytes) (str : Chars) (hport : port ≤ 65535)
    (hstr : str.bytes = redirectionText asking slot host port) :
    RoundTrips asking host port str ↔ 0x3a ∉ host := by
  constructor
  · intro h hc
    obtain ⟨h₁, h₂, rfl, hh⟩ := List.eq_append_cons_of_mem hc
    have parsed := processResult_redirectionText (p := h₂ ++ 0x3a :: decimal port) hstr (by simp) hh
    rw [h.1] at parsed
    injection parsed with parsed
    have hlen := congrArg (fun r : ProcessState × Bytes × Bytes => r.2.1.length) parsed
    simp at hlen
  · intro hh
    exact ⟨processResult_redirectionText hstr rfl hh, stoi_decimal (by omega)⟩

/-- `MOVED 3999 127.0.0.1:6381`. -/
theorem roundTrips_ipv4 : RoundTrips false (text "127.0.0.1") 6381 (Chars.ofText "MOVED 3999 127.0.0.1:6381") ↔
    0x3a ∉ text "127.0.0.1" :=
  roundTrips_iff false 3999 6381 (text "127.0.0.1") (Chars.ofText "MOVED 3999 127.0.0.1:6381") (by decide)
    (by decide +kernel)

/-- `MOVED 3999 2001:db8::5:6379` comes back as the host `2001`. -/
theorem not_roundTrips_ipv6 :
    ¬ RoundTrips false (text "2001:db8::5") 6379 (Chars.ofText "MOVED 3999 2001:db8::5:6379") := by
  intro h
  have parsed : processResult (.error (Chars.ofText "MOVED 3999 2001:db8::5:6379")) =
      .ret (.moved, text "2001", text "db8::5:6379") := by decide +kernel
  rw [h.1] at parsed
  exact absurd parsed (by decide +kernel)

end HiredisCluster
