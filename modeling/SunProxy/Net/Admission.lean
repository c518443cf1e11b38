/-
`check_allowed`, which asks about every session that is there when the loop starts. It asks without a
host name, where `handle_ip` gives one: so it ends every open session but those of the app itself, while
`handle_ip` denies nothing.
-/
import SunProxy.Net.Flows
import SunProxy.Net.Rules

namespace SunProxy.Net

open SunProxy.Buffer SunProxy.Kotlin

variable {args : Arguments}

/-! ## Sessions -/

def SessionData.uid : SessionData → Int
  | .icmp i => i.uid
  | .udp u => u.uid
  | .tcp t => t.uid

/-- A packet of the traffic of a session, as `handle_ip` fills it in. -/
inductive TrafficPacket (args : Arguments) : SessionData → Packet → Prop
  | icmp {i : IcmpSession} {p : IpPacket} (ports : Ports) (host : HostInfo) (protocol : isIcmp p.protocol = true)
      (version : p.version = i.version) (saddr : p.saddr = i.saddr) (daddr : p.daddr = i.daddr) :
      TrafficPacket args (.icmp i) (createPacket args p ports host i.uid)
  | udp {u : UdpSession} {p : IpPacket} {ports : Ports} (host : HostInfo) (protocol : p.protocol = IPPROTO_UDP)
      (flow : flowOf p ports = u.flow) : TrafficPacket args (.udp u) (createPacket args p ports host u.uid)
  | tcp {t : TcpSession} {p : IpPacket} {ports : Ports} (host : HostInfo) (protocol : p.protocol = IPPROTO_TCP)
      (flow : flowOf p ports = t.flow) : TrafficPacket args (.tcp t) (createPacket args p ports host t.uid)

/-- `isAddressAllowed` answers all traffic. -/
theorem TrafficPacket.answer_ne_none {data : SessionData} {packet : Packet} (h : TrafficPacket args data packet) :
    args.jniIsAddressAllowed packet ≠ none := by
  intro hnone
  obtain ⟨e, he⟩ := jniIsAddressAllowed_eq_none.1 hnone
  have hname : packet.hostname ≠ none := by cases h <;> nofun
  obtain ⟨server, hserver⟩ := isAddressAllowed_total args packet hname
  rw [hserver] at he
  cases he

/-- Without a host name there is no answer but for the app itself. -/
theorem jniIsAddressAllowed_sessionPacket (protocol : Nat) (saddr : Bytes) (sport : Nat) (daddr : Bytes) (dport : Nat)
    (uid : Int) : args.jniIsAddressAllowed (sessionPacket protocol saddr sport daddr dport uid) = none ↔
      uid ≠ args.myUid := by
  rw [jniIsAddressAllowed_eq_none]
  constructor
  · rintro ⟨e, he⟩ huid
    have hself : (sessionPacket protocol saddr sport daddr dport uid).uid = args.myUid := huid
    rw [Arguments.isAddressAllowed, if_pos hself] at he
    cases he
  · intro huid
    exact ⟨.nullPointer, if_neg huid⟩

/-- An active session of the app itself is kept as it is, and any other one ends. -/
theorem checkAllowed_active (args : Arguments) {s : NgSession} (h : s.isActive = true) :
    s.data.uid = args.myUid ∧ (checkAllowed args s).1 = some s ∨
      s.data.uid ≠ args.myUid ∧ ∃ s', (checkAllowed args s).1 = some s' ∧ s'.isActive = false := by
  obtain ⟨id, data, socket, ev⟩ := s
  by_cases huid : data.uid = args.myUid
  · refine .inl ⟨huid, ?_⟩
    -- the uid alone decides what the Kotlin side answers
    have hasked : ∀ protocol saddr sport daddr dport,
        args.jniIsAddressAllowed (sessionPacket protocol saddr sport daddr dport data.uid) ≠ none :=
      fun _ _ _ _ _ hnone => (jniIsAddressAllowed_sessionPacket ..).1 hnone huid
    cases data with
    | icmp i => exact congrArg Prod.fst (if_neg fun hc => hasked _ _ _ _ _ hc.2)
    | udp u =>
      have hstate : u.state = .active := by simpa [NgSession.isActive] using h
      have hblocked : ¬ u.state = .blocked := by rw [hstate]; decide
      simp only [checkAllowed]
      rw [if_neg hblocked, if_neg fun hc => hasked _ _ _ _ _ hc.2]
    | tcp t =>
      simp only [checkAllowed]
      rw [if_neg fun hc => hasked _ _ _ _ _ hc.2]
  · refine .inr ⟨huid, ?_⟩
    have hasked : ∀ protocol saddr sport daddr dport,
        args.jniIsAddressAllowed (sessionPacket protocol saddr sport daddr dport data.uid) = none :=
      fun _ _ _ _ _ => (jniIsAddressAllowed_sessionPacket ..).2 huid
    cases data with
    | icmp i =>
      have hstop : i.stop = false := by simpa [NgSession.isActive] using h
      exact ⟨_, congrArg Prod.fst (if_pos ⟨hstop, hasked _ _ _ _ _⟩), rfl⟩
    | udp u =>
      have hstate : u.state = .active := by simpa [NgSession.isActive] using h
      have hblocked : ¬ u.state = .blocked := by rw [hstate]; decide
      simp only [checkAllowed]
      rw [if_neg hblocked, if_pos ⟨hstate, hasked _ _ _ _ _⟩]
      exact ⟨_, rfl, rfl⟩
    | tcp t =>
      have hopen : t.isClosed = false := by simpa [NgSession.isActive] using h
      simp only [checkAllowed]
      rw [if_pos ⟨hopen, hasked _ _ _ _ _⟩]
      refine ⟨_, rfl, ?_⟩
      simp only [NgSession.isActive, NgSession.withTcp, isClosed_writeRst, Bool.not_true]

/-! ## The table -/

/-- `check_allowed` ends a session only if `handle_ip` would deny its traffic. -/
def Engine.ChecksAlike (args : Arguments) (e : Engine) : Prop :=
  ∀ s ∈ e.ctx.sessions, s.isActive = true → s ∉ (e.sweep (checkAllowed args)).1.ctx.sessions →
    ∃ packet, TrafficPacket args s.data packet ∧ args.jniIsAddressAllowed packet = none

/-- It does exactly when all sessions that are active are the app's own. -/
theorem checksAlike_iff (args : Arguments) (e : Engine) :
    e.ChecksAlike args ↔ ∀ s ∈ e.ctx.sessions, s.isActive = true → s.data.uid = args.myUid := by
  have hmem : ∀ s', s' ∈ (e.sweep (checkAllowed args)).1.ctx.sessions ↔
      ∃ s ∈ e.ctx.sessions, (checkAllowed args s).1 = some s' := fun s' => List.mem_filterMap
  constructor
  · intro h s hs ha
    by_contra huid
    obtain ⟨packet, htraffic, hnone⟩ := h s hs ha fun hkept => by
      -- what is kept as it is was active before, and then it is the app's own
      obtain ⟨s₀, hs₀, hs'⟩ := (hmem s).1 hkept
      have ha₀ := (NgSession.Later.checkAllowed hs').active ha
      rcases checkAllowed_active args ha₀ with ⟨huid₀, hsame⟩ | ⟨-, s', hended, hclosed⟩
      · rw [hsame] at hs'
        cases hs'
        exact huid huid₀
      · rw [hended] at hs'
        cases hs'
        rw [hclosed] at ha
        cases ha
    exact htraffic.answer_ne_none hnone
  · intro h s hs ha hgone
    rcases checkAllowed_active args ha with ⟨-, hsame⟩ | ⟨huid, -⟩
    · exact absurd ((hmem s).2 ⟨s, hs, hsame⟩) hgone
    · exact absurd (h s hs ha) huid

/-- The session that a datagram of another app opens. -/
def datagramSession : NgSession :=
  ⟨0, .udp ⟨0, 10002, UDP4_MAXMSG, 1, 0, flowOf datagramPacket ⟨1000, 9, false⟩, .active⟩, 3, ⟨true, false⟩⟩

theorem run_datagram : ∃ acts, (⟨⟨[], 0⟩, 0⟩ : Engine).run (.plain [] _ compiled_redirectAll)
    [.tun (datagramTo 9) .working] = .ok (⟨⟨[datagramSession], 1⟩, 0⟩, acts) := ⟨_, rfl⟩

/-- It is ended when it is there as the loop starts again. -/
theorem not_checksAlike_udp : ¬ ∀ (args : Arguments) (events : List Event) (t : Trace),
    Run.final (Run.stepOk (Trace.step args)) (.ok .init) events = .ok t → t.engine.ChecksAlike args := by
  intro h
  obtain ⟨acts, hrun⟩ := run_datagram
  have hended : datagramSession ∉ ((⟨⟨[datagramSession], 1⟩, 0⟩ : Engine).sweep
      (checkAllowed (.plain [] _ compiled_redirectAll))).1.ctx.sessions := by decide +kernel
  obtain ⟨packet, htraffic, hnone⟩ :=
    h _ _ _ (final_of_run hrun []) datagramSession (List.mem_singleton.2 rfl) rfl hended
  exact htraffic.answer_ne_none hnone

end SunProxy.Net
