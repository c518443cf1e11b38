/-
Where the rules send a flow: the server that evaluating the program gives, and the socket address the
engine makes of the answer on its way through `is_address_allowed`.
-/
import SunProxy.Net.Ip

namespace SunProxy.Net

open SunProxy.Buffer SunProxy.Kotlin SunProxy.Redirect

/-! ## Servers and socket addresses -/

/-- Where a server is, or else the destination of the flow. The address of a server may be a text that
`inet_pton` refuses, and then it is nowhere. -/
def serverTarget (flow : Flow) : Option Server → Option Endpoint
  | none => some ⟨some flow.daddr, flow.dest⟩
  | some server =>
    (inetPton (if ':' ∈ server.address then 6 else 4) server.address).map fun addr => ⟨some addr, server.port.toNat⟩

/-- The endpoint, if its address was set. -/
def Endpoint.set? (e : Endpoint) : Option Endpoint := e.addr.map fun addr => ⟨some addr, e.port⟩

theorem set?_eq_some {e dst : Endpoint} : e.set? = some dst ↔ e = dst ∧ dst.addr.isSome = true := by
  obtain ⟨_ | addr, port⟩ := e
  · constructor
    · exact fun h => by cases h
    · rintro ⟨rfl, h⟩
      cases h
  · constructor
    · intro h
      cases h
      exact ⟨rfl, rfl⟩
    · rintro ⟨rfl, -⟩
      rfl

theorem set?_target (flow : Flow) (a : Allowed) : (target flow (some a)).set? =
    (inetPton (if ':' ∈ a.raddr then 6 else 4) a.raddr).map fun addr => ⟨some addr, a.rport⟩ := rfl

theorem isSome_of_serverTarget {flow : Flow} {server : Option Server} {dst : Endpoint}
    (h : serverTarget flow server = some dst) : dst.addr.isSome = true := by
  cases server with
  | none =>
    cases h
    rfl
  | some server =>
    obtain ⟨addr, -, rfl⟩ := Option.map_eq_some_iff.1 h
    rfl

/-- The answer of the rules for a flow. -/
def evalFlow (args : Arguments) (protocol : Nat) (flow : Flow) (hostname : Str) (tls : Bool) (uid : Int) :
    Except JavaException (Option Server) :=
  args.rules.eval (protocolName protocol) hostname (inetNtop flow.daddr) flow.dest (inetNtop flow.saddr) flow.source
    tls uid

/-- The server for a flow: the rules' answer, and none for the flows of the app itself. -/
def ruleServer (args : Arguments) (protocol : Nat) (flow : Flow) (hostname : Str) (tls : Bool) (uid : Int) :
    Except JavaException (Option Server) :=
  if uid = args.myUid then .ok none else evalFlow args protocol flow hostname tls uid

/-! ## The answer of `is_address_allowed` -/

variable {args : Arguments}

theorem usable_of_isAddressAllowed {packet : Packet} {server : Server}
    (h : args.isAddressAllowed packet = .ok (some server)) : server.Usable := by
  unfold Arguments.isAddressAllowed at h
  split_ifs at h
  · cases h
  · split at h
    · cases h
    · obtain ⟨rule, hr, rfl⟩ := RedirectRule.eval_mem h
      exact (usable_of_compile args.compiled rule hr).server

/-- The service answers every packet that has a host name. -/
theorem isAddressAllowed_total (args : Arguments) (packet : Packet) (h : packet.hostname ≠ none) :
    ∃ server, args.isAddressAllowed packet = .ok server := by
  unfold Arguments.isAddressAllowed
  split
  · exact ⟨none, rfl⟩
  · split
    · rename_i hnone
      exact absurd hnone h
    · exact eval_total_of_compile args.compiled ..

theorem jniIsAddressAllowed_eq_none {packet : Packet} :
    args.jniIsAddressAllowed packet = none ↔ ∃ e, args.isAddressAllowed packet = .error e := by
  unfold Arguments.jniIsAddressAllowed
  split
  · rename_i h
    simp [h]
  · rename_i h
    simp [h]
  · rename_i e h
    simp [h]

/-- A redirection goes to where the server is. -/
theorem target_redirectOf {packet : Packet} {a : Allowed} (h : args.jniIsAddressAllowed packet = some a) (flow : Flow) :
    ∃ server, args.isAddressAllowed packet = .ok server ∧
      (target flow (redirectOf (some a))).set? = serverTarget flow server := by
  unfold Arguments.jniIsAddressAllowed at h
  split at h
  · rename_i hnone
    cases h
    exact ⟨none, hnone, rfl⟩
  · rename_i server hsome
    cases h
    have hu := usable_of_isAddressAllowed hsome
    have hport : (server.port % 65536).toNat = server.port.toNat := by
      have := hu.port
      omega
    refine ⟨some server, hsome, ?_⟩
    have hredirect : redirectOf (some ⟨server.address, (server.port % 65536).toNat⟩) =
        some ⟨server.address, server.port.toNat⟩ := by
      have hpos := hu.port
      rw [hport, redirectOf, if_neg]
      rintro (h | h)
      · exact hu.address h
      · dsimp only at h
        omega
    rw [hredirect, set?_target]
    rfl
  · cases h

/-- `handle_ip` denies no packet. -/
theorem verdict_allowed (args : Arguments) (ctx : Context) (p : IpPacket) (ports : Ports) (host : HostInfo)
    (uid : Int) :
    (verdict args ctx p ports host uid).allowed = true := by
  unfold verdict
  split
  · rfl
  · obtain ⟨server, hserver⟩ := isAddressAllowed_total args (createPacket args p ports host uid) nofun
    have hanswer : args.jniIsAddressAllowed (createPacket args p ports host uid) ≠ none := fun hnone => by
      obtain ⟨e, he⟩ := jniIsAddressAllowed_eq_none.1 hnone
      rw [hserver] at he
      cases he
    simp only [isDomainBlocked, Bool.and_false, Bool.not_false, Bool.and_true, Option.isSome_iff_ne_none.2 hanswer]

/-! ## Packets without a host name -/

theorem newStringUTF_nil (args : Arguments) : args.newStringUTF [] = [] := by
  rw [args.newStringUTF_ascii [] (by simp), List.map_nil]

theorem isAddressAllowed_noHost (p : IpPacket) (ports : Ports) (uid : Int) :
    args.isAddressAllowed (createPacket args p ports noHost uid) =
      ruleServer args p.protocol (flowOf p ports) [] false uid := by
  have hname : (createPacket args p ports noHost uid).hostname = some [] := by
    simp only [createPacket, noHost, ite_self, newStringUTF_nil]
  simp only [Arguments.isAddressAllowed, hname]
  rfl

/-- A packet that the rules were asked about goes where they say. -/
theorem target_verdict_noHost {ctx : Context} {p : IpPacket} {ports : Ports} {uid : Int}
    (ha : assumedAllowed args ctx p ports noHost uid = false) :
    ∃ server, ruleServer args p.protocol (flowOf p ports) [] false uid = .ok server ∧
      (target (flowOf p ports) (verdict args ctx p ports noHost uid).redirect).set? =
        serverTarget (flowOf p ports) server := by
  have hallowed := verdict_allowed args ctx p ports noHost uid
  simp only [verdict, ha, Bool.false_eq_true, if_false, Bool.and_eq_true] at hallowed ⊢
  obtain ⟨a, hanswer⟩ := Option.isSome_iff_exists.1 hallowed.1
  rw [hanswer, ← isAddressAllowed_noHost]
  exact target_redirectOf hanswer _

/-- Assumed packets keep their destination. -/
theorem verdict_assumed {ctx : Context} {p : IpPacket} {ports : Ports} {host : HostInfo} {uid : Int}
    (ha : assumedAllowed args ctx p ports host uid = true) : verdict args ctx p ports host uid = ⟨true, none⟩ := by
  rw [verdict, if_pos ha]

end SunProxy.Net
