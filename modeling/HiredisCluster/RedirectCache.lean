import HiredisCluster.Cxx.Numbering
import HiredisCluster.RedirectionSyntax
import HiredisCluster.Routing

/-!
# The redirect cache

The cache is keyed by the text `host:port`.  A host that `parsehostport` cuts out has no colon, so the key determines
the address it was made of (`Redirection.key_inj`), and a container that follows redirections numbers their addresses in
the order in which it first sees them (`Cached`): it opens one connection for each.
-/

namespace HiredisCluster

open Cxx

/-- A redirection error with the host and the port that `processResult` reads in it, and the number `std::stoi` makes of
the port. -/
structure Redirection where
  str : Chars
  state : ProcessState
  host : Bytes
  port : Bytes
  portNumber : Int32
  nulFree : 0 ∉ str.bytes
  parsed : processResult (.error str) = .ret (state, host, port)
  accepted : stoi port = .ret portNumber

namespace Redirection

def address (r : Redirection) : Bytes × Bytes := (r.host, r.port)

/-- The key of the redirection in the cache. -/
def key (r : Redirection) : Bytes := DefaultContainer.hostKey r.host r.port

/-- The context that `connect_` makes for the redirection. -/
def opened (r : Redirection) : Context := Context.opened r.host r.portNumber

end Redirection

section follow

variable {ρ : Type} (fn : Functions ρ)

/-- Taking a redirection error apart and asking the cluster for the connection. -/
def follow (str : Chars) : Lib ρ HostConnection := do
  let (_, host, port) ← Code.lift (processResult (.error str))
  Cluster.createNewConnection fn host port

/-- Following redirections one after the other. -/
def followAll : List Chars → Lib ρ (List HostConnection)
  | [] => pure []
  | str :: strs => do
    let conn ← follow fn str
    return conn :: (← followAll strs)

end follow

/-- From `w` to `w'` the redirections `rs` were followed, with the answers `conns`: the answers are the same connection
exactly for the same address, each was opened for its address, and `connect_`, which adds a context at every call, was
called once for each address. -/
structure IdentifiesNodes {ρ : Type} (rs : List Redirection) (w w' : World ρ) (conns : List HostConnection) : Prop where
  length : conns.length = rs.length
  same : ∀ a ∈ rs.zip conns, ∀ b ∈ rs.zip conns, a.2.2 = b.2.2 ↔ a.1.address = b.1.address
  opened : ∀ a ∈ rs.zip conns, ∃ c, a.2.2 = some c ∧ w.contexts.length ≤ c ∧ w'.contexts[c]? = some a.1.opened
  once : ∃ dialled : List Redirection, dialled.Sublist rs ∧ (dialled.map Redirection.address).Nodup ∧
    (∀ r ∈ rs, r.address ∈ dialled.map Redirection.address) ∧ w'.contexts = w.contexts ++ dialled.map Redirection.opened
  nodes : w'.nodes = w.nodes

/-! ### The keys -/

namespace Redirection

theorem parsehostport_eq (r : Redirection) : parsehostport r.str.bytes = .ret (r.host, r.port) :=
  parsehostport_of_processResult r.parsed r.accepted

private theorem colon_notMem_host (r : Redirection) : 0x3a ∉ r.host :=
    (parsehostport_host r.str.fits r.parsehostport_eq).1

/-- `connect_` gets the whole host. -/
private theorem cStr_host (r : Redirection) : cStr r.host = r.host :=
  cStr_eq_self fun hzero => r.nulFree ((parsehostport_host r.str.fits r.parsehostport_eq).2 0 hzero)

/-- The first colon of a key is the one between host and port. -/
theorem key_inj {r r' : Redirection} : r.key = r'.key ↔ r.address = r'.address := by
  have hkey (r : Redirection) : r.key = r.host ++ 0x3a :: r.port := by
    show r.host ++ text ":" ++ r.port = _
    rw [show text ":" = [0x3a] by decide, List.append_assoc, List.singleton_append]
  rw [hkey, hkey, append_cons_inj r.colon_notMem_host r'.colon_notMem_host]
  simp [address]

-- for other hosts it does not determine the address
example : DefaultContainer.hostKey (text "a:1") (text "2") = DefaultContainer.hostKey (text "a") (text "1:2") := by decide

private theorem opened_congr {r r' : Redirection} (h : r.address = r'.address) : r.opened = r'.opened := by
  obtain ⟨hhost, hport⟩ := Prod.mk.inj h
  have hnumber : (.ret r.portNumber : Outcome StdException Int32) = .ret r'.portNumber := by
    rw [← r.accepted, ← r'.accepted, hport]
  rw [opened, opened, hhost, Outcome.ret.inj hnumber]

private theorem map_key_nodup {rs : List Redirection} (h : (rs.map key).Nodup) : (rs.map address).Nodup := by
  rw [List.Nodup, List.pairwise_map] at h ⊢
  exact h.imp fun hne haddr => hne (key_inj.2 haddr)

end Redirection

/-! ### The cache -/

variable {ρ : Type} {fn : Functions ρ} {w₀ w : World ρ} {dialled : List Redirection}

/-- From `w₀` on the connections of `dialled` were opened and cached, in this order. -/
structure Cached (w₀ : World ρ) (dialled : List Redirection) (w : World ρ) : Prop where
  contexts : w.contexts = w₀.contexts ++ dialled.map Redirection.opened
  numbers : w.redirects.Numbers w₀.contexts.length (dialled.map Redirection.key)
  nodes : w.nodes = w₀.nodes

/-- The connection opened for a redirection that is cached. -/
theorem Cached.opened (h : Cached w₀ dialled w) {r : Redirection} (hr : r.key ∈ dialled.map Redirection.key) :
    ∃ c, w.redirects.lookup r.key = some c ∧ w₀.contexts.length ≤ c ∧ w.contexts[c]? = some r.opened := by
  obtain ⟨i, hi, hlookup⟩ := h.numbers.lookup_of_mem hr
  rw [List.getElem?_map] at hi
  obtain ⟨r', hr', hkey⟩ := Option.map_eq_some_iff.1 hi
  refine ⟨_, hlookup, Nat.le_add_right _ _, ?_⟩
  rw [h.contexts, List.getElem?_append_right (Nat.le_add_right _ _), Nat.add_sub_cancel_left, List.getElem?_map, hr',
    Option.map_some, Redirection.opened_congr (Redirection.key_inj.1 hkey)]

private theorem createNewConnection_hit {host port : Bytes} {c : ConPtr}
    (h : w.redirects.lookup (DefaultContainer.hostKey host port) = some c) :
    Cluster.createNewConnection fn host port w = (.ret (DefaultContainer.hostKey host port, some c), w) := by
  unfold Cluster.createNewConnection DefaultContainer.insertHost
  rw [Code.bind_of_ret (Code.get_apply w), h]
  rfl

private theorem createNewConnection_miss (hf : FreshHealthy fn) {host port : Bytes} {n : Int32}
    (hn : stoi port = .ret n) (h : w.redirects.lookup (DefaultContainer.hostKey host port) = none) :
    ∃ w', Cluster.createNewConnection fn host port w =
        (.ret (DefaultContainer.hostKey host port, some w.contexts.length), w') ∧
      w'.contexts = w.contexts ++ [Context.opened (cStr host) n] ∧ w'.nodes = w.nodes ∧
      w'.redirects = w.redirects.insert (DefaultContainer.hostKey host port) w.contexts.length := by
  obtain ⟨client, hcall, herr⟩ := hf.callConnect (cStr host) n w
  refine ⟨((w.addContext (Context.opened (cStr host) n)).setClient client).setRedirects
    (w.redirects.insert (DefaultContainer.hostKey host port) w.contexts.length), ?_, by simp, by simp, by simp⟩
  have hport : Code.lift ((stoi port).mapThrows Exn.std) w = (.ret n, w) := by
    rw [hn]
    rfl
  unfold Cluster.createNewConnection DefaultContainer.insertHost
  rw [Code.bind_of_ret (Code.get_apply w), h]
  exact (Code.bind_of_ret hport _).trans ((Code.bind_of_ret hcall _).trans (Code.bind_of_ret herr _))

/-- A cached address is answered from the cache, any other is dialled and cached. -/
theorem follow_cached (hf : FreshHealthy fn) (h : Cached w₀ dialled w) (r : Redirection) :
    ∃ new w' c, (new = [] ∨ new = [r]) ∧ Cached w₀ (dialled ++ new) w' ∧ w'.redirects.lookup r.key = some c ∧
      follow fn r.str w = (.ret (r.key, some c), w') := by
  have hfollow : follow fn r.str w = Cluster.createNewConnection fn r.host r.port w := by
    have hread : Code.lift (processResult (.error r.str)) w = (.ret (r.state, r.host, r.port), w) := by
      rw [Code.lift_apply, r.parsed]
    exact Code.bind_of_ret hread _
  rw [hfollow]
  cases hlookup : w.redirects.lookup r.key with
  | some c => exact ⟨[], w, c, Or.inl rfl, by rwa [List.append_nil], hlookup, createNewConnection_hit hlookup⟩
  | none =>
    obtain ⟨w', hrun, hcontexts, hnodes, hredirects⟩ := createNewConnection_miss hf r.accepted hlookup
    have hlength : w.contexts.length = w₀.contexts.length + (dialled.map Redirection.key).length := by
      rw [h.contexts, List.length_append, List.length_map, List.length_map]
    refine ⟨[r], w', w.contexts.length, Or.inr rfl, ⟨?_, ?_, hnodes.trans h.nodes⟩, ?_, hrun⟩
    · rw [hcontexts, h.contexts, r.cStr_host, List.map_append, List.append_assoc]
      rfl
    · rw [hredirects, List.map_append, hlength]
      exact h.numbers.insert (fun _ _ => hostRank_injective) hlookup
    · rw [hredirects]
      exact OrderedMap.lookup_insert_self _ _ hlookup

/-- After a run every address is cached, and the answers are what the cache then holds. -/
private theorem followAll_cached (hf : FreshHealthy fn) (rs : List Redirection) (h : Cached w₀ dialled w) :
    ∃ new w', new.Sublist rs ∧ Cached w₀ (dialled ++ new) w' ∧
      (∀ r ∈ rs, r.key ∈ (dialled ++ new).map Redirection.key) ∧
      followAll fn (rs.map Redirection.str) w = (.ret (rs.map fun r => (r.key, w'.redirects.lookup r.key)), w') := by
  induction rs generalizing dialled w with
  | nil => exact ⟨[], w, List.Sublist.refl [], by rwa [List.append_nil], by simp, rfl⟩
  | cons r rs ih =>
    obtain ⟨new, v, c, hnew, hv, hlookup, hfirst⟩ := follow_cached hf h r
    obtain ⟨more, w', hsub, hw', hmem, hrest⟩ := ih hv
    -- the answer stays in the cache while the rest is followed
    have hnumbers := hw'.numbers
    rw [List.map_append] at hnumbers
    have hkept := hv.numbers.lookup_append hnumbers hlookup
    rw [List.append_assoc] at hw' hmem
    refine ⟨new ++ more, w', ?_, hw', ?_, ?_⟩
    · rcases hnew with rfl | rfl
      · exact hsub.cons r
      · exact hsub.cons_cons r
    · intro r' hr'
      rcases List.mem_cons.1 hr' with rfl | hr'
      · obtain ⟨i, hi, -⟩ := (hw'.numbers.lookup_iff _ _).1 hkept
        exact List.mem_of_getElem? hi
      · exact hmem r' hr'
    · rw [List.map_cons, List.map_cons, hkept]
      exact (Code.bind_of_ret hfirst _).trans (Code.bind_of_ret hrest _)

/-- Every sequence of redirections gets the same connection for the same address only, and a connection of its own for
each address. -/
theorem followAll_identifiesNodes (hf : FreshHealthy fn) (rs : List Redirection) (h : w.redirects.entries = []) :
    ∃ conns w', followAll fn (rs.map Redirection.str) w = (.ret conns, w') ∧ IdentifiesNodes rs w w' conns := by
  have hstart : Cached w [] w := ⟨by simp, .of_empty h, rfl⟩
  obtain ⟨dialled, w', hsub, hcached, hmem, hrun⟩ := followAll_cached hf rs hstart
  rw [List.nil_append] at hcached hmem
  have hzip : ∀ a ∈ rs.zip (rs.map fun r => (r.key, w'.redirects.lookup r.key)),
      a.1 ∈ rs ∧ a.2.2 = w'.redirects.lookup a.1.key := by
    intro a ha
    obtain ⟨i, hi⟩ := List.mem_iff_getElem?.1 ha
    obtain ⟨hr, hconn⟩ := List.getElem?_zip_eq_some.1 hi
    rw [List.getElem?_map, hr] at hconn
    exact ⟨List.mem_of_getElem? hr, congrArg Prod.snd (Option.some.inj hconn).symm⟩
  refine ⟨_, w', hrun, List.length_map _, ?_, ?_, ?_, hcached.nodes⟩
  · intro a ha b hb
    obtain ⟨har, hac⟩ := hzip a ha
    obtain ⟨-, hbc⟩ := hzip b hb
    rw [hac, hbc, ← Redirection.key_inj]
    constructor
    · exact hcached.numbers.injective (hmem _ har)
    · intro hkey
      rw [hkey]
  · intro a ha
    obtain ⟨har, hac⟩ := hzip a ha
    rw [hac]
    exact hcached.opened (hmem _ har)
  · refine ⟨dialled, hsub, Redirection.map_key_nodup hcached.numbers.nodup, fun r hr => ?_, hcached.contexts⟩
    obtain ⟨r', hr', hkey⟩ := List.mem_map.1 (hmem r hr)
    exact List.mem_map.2 ⟨r', hr', Redirection.key_inj.1 hkey⟩

/-- `MOVED 3999 10.0.0.1:7001`. -/
def movedTo7001 : Redirection where
  str := .ofText "MOVED 3999 10.0.0.1:7001"
  state := .moved
  host := text "10.0.0.1"
  port := text "7001"
  portNumber := 7001
  nulFree := by decide +kernel
  parsed := by decide +kernel
  accepted := by decide +kernel

/-- Without a space the host starts with the text. -/
def askSpaceless : Redirection where
  str := .ofText "ASK:7001"
  state := .ask
  host := text "ASK"
  port := text "7001"
  portNumber := 7001
  nulFree := by decide +kernel
  parsed := by decide +kernel
  accepted := by decide +kernel

/-- Two redirections to one node and one to another. -/
theorem followAll_identifiesNodes_spaceless :
    ∃ conns w', followAll healthyFunctions ([movedTo7001, askSpaceless, movedTo7001].map Redirection.str)
        ⟨Cluster.initial, [], 0, [], ()⟩ = (.ret conns, w') ∧
      IdentifiesNodes [movedTo7001, askSpaceless, movedTo7001] ⟨Cluster.initial, [], 0, [], ()⟩ w' conns :=
  followAll_identifiesNodes healthyFunctions_fresh _ rfl

end HiredisCluster
