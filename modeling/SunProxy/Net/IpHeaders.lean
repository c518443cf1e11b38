/-
What `handle_ip` makes of two parts of the IP header. The walk over IPv6 extension headers stops before
it has an upper-layer protocol, so that it goes back to the first header. The fragment test takes a bit
of the raw field by a constant in host order: on a little-endian target that is a bit of the offset.
-/
import SunProxy.Net.Bounds
import Mathlib.Data.Nat.Bitwise

namespace SunProxy.Net

open SunProxy.Buffer SunProxy.Result

/-! ## Chains of extension headers -/

/-- The bytes of an extension header of a kind with a length byte. -/
def extensionLength (kind : Nat) (len : UInt8) : Nat := if kind = 44 then 8 else 8 * (len.toNat + 1)

/-- `ChainAt pkt first off kinds upper stop`: from `off` on, a header of the kind `first` and the headers
it leads to are extension headers of the given kinds up to one of an upper layer at `stop`. -/
inductive ChainAt (pkt : Bytes) : Nat → Nat → List Nat → Nat → Nat → Prop
  | upper {upper stop : Nat} (h : isUpperLayer upper = true) : ChainAt pkt upper stop [] upper stop
  | extension {kind off upper stop : Nat} {kinds : List Nat} {next len : UInt8} (hkind : kind ∈ [0, 43, 44, 60])
      (hnext : load pkt off = .ok next) (hlen : load pkt (off + 1) = .ok len)
      (hfits : off + extensionLength kind len ≤ pkt.length)
      (h : ChainAt pkt next.toNat (off + extensionLength kind len) kinds upper stop) :
      ChainAt pkt kind off (kind :: kinds) upper stop

/-- An IPv6 packet with its chain of headers, the last one inside the packet. -/
structure ExtendedPacket where
  pkt : Bytes
  kinds : List Nat
  upper : Nat
  stop : Nat
  isIp6 : IsIp6 pkt
  chain : ChainAt pkt (byteAt pkt 6) 40 kinds upper stop
  inside : stop + headerSize upper ≤ pkt.length

/-- The packet is taken for one of its upper-layer protocol, with the payload behind the last extension header. -/
def ExtendedPacket.Followed (r : ExtendedPacket) : Prop :=
  ∃ p, parseIp r.pkt = .ok (some p) ∧ p.protocol = r.upper ∧ p.payload = r.stop

theorem ChainAt.isUpperLayer {pkt : Bytes} {first off upper stop : Nat} {kinds : List Nat}
    (h : ChainAt pkt first off kinds upper stop) : isUpperLayer upper = true := by
  induction h with
  | upper h => exact h
  | extension _ _ _ _ _ ih => exact ih

/-- A chain with an extension header starts at no upper layer. -/
theorem ChainAt.first_lower {pkt : Bytes} {first off upper stop : Nat} {kinds : List Nat}
    (h : ChainAt pkt first off kinds upper stop) (hne : kinds ≠ []) : Net.isUpperLayer first = false := by
  cases h with
  | upper => exact absurd rfl hne
  | extension hkind =>
    simp only [List.mem_cons, List.not_mem_nil, or_false] at hkind
    rcases hkind with rfl | rfl | rfl | rfl <;> decide

/-- The loop goes from one lower layer to the next. -/
theorem skipExtensions_lower {pkt : Bytes} {fuel off protocol : Nat} {r : Nat × Nat}
    (hlower : isUpperLayer protocol = false) (h : skipExtensions pkt fuel off protocol = .ok r) :
    isUpperLayer r.2 = false := by
  induction fuel generalizing off protocol with
  | zero => cases h
  | succ fuel ih =>
    unfold skipExtensions at h
    obtain ⟨next, -, h⟩ := bind_eq_ok h
    split at h
    · rename_i hgo
      obtain ⟨len, -, h⟩ := bind_eq_ok h
      exact ih (isUpperLayer_of_isLowerLayer (Bool.and_eq_true_iff.1 hgo).1) h
    · cases h
      exact hlower

/-- Whatever extension headers there are, the protocol is the one of the IPv6 header. -/
theorem extensionOffset_protocol {pkt : Bytes} {next : Nat} {r : Nat × Nat} (h : extensionOffset pkt next = .ok r) :
    r.2 = next := by
  unfold extensionOffset at h
  split at h
  · cases h
    rfl
  · rename_i hlower
    obtain ⟨⟨off, protocol⟩, hskip, h⟩ := bind_eq_ok h
    have hprotocol := skipExtensions_lower (Bool.eq_false_iff.2 hlower) hskip
    cases h
    simp only [hprotocol, Bool.false_eq_true, if_false]

theorem ChainAt.of_nil {pkt : Bytes} {first off upper stop : Nat} (h : ChainAt pkt first off [] upper stop) :
    first = upper ∧ off = stop := by
  cases h
  exact ⟨rfl, rfl⟩

/-- The chain is followed exactly when it has no extension header. -/
theorem followed_iff (r : ExtendedPacket) : r.Followed ↔ r.kinds = [] := by
  have hchain := r.chain
  unfold ExtendedPacket.Followed
  rw [parseIp_ip6_eq r.isIp6]
  constructor
  · rintro ⟨p, hp, hprotocol, -⟩
    by_contra hne
    obtain ⟨s, hs, hp⟩ := bind_eq_ok hp
    cases hp
    have hfirst := hchain.first_lower hne
    have hupper := hchain.isUpperLayer
    rw [← hprotocol, extensionOffset_protocol hs, hfirst] at hupper
    cases hupper
  · intro hkinds
    have hupper := hchain.isUpperLayer
    rw [hkinds] at hchain
    obtain ⟨hfirst, hstop⟩ := hchain.of_nil
    rw [extensionOffset, hfirst, if_pos hupper]
    exact ⟨_, rfl, rfl, hstop⟩

/-- A UDP datagram behind a hop-by-hop header of eight bytes. -/
def hopByHopPacket : ExtendedPacket where
  pkt := [0x60, 0, 0, 0, 0, 16, 0, 64] ++ List.replicate 32 1 ++ [17, 0, 1, 4, 0, 0, 0, 0] ++
    [3, 232, 0, 53, 0, 8, 0, 0]
  kinds := [0]
  upper := IPPROTO_UDP
  stop := 48
  isIp6 := ⟨by decide, by decide⟩
  chain := .extension (by decide) (show load _ 40 = .ok 17 from rfl) (show load _ 41 = .ok 0 from rfl) (by decide)
    (.upper (by decide))
  inside := by decide

theorem not_followed_hopByHop : ¬∀ r : ExtendedPacket, r.Followed := by
  intro h
  obtain ⟨p, hp, hprotocol, -⟩ := h hopByHopPacket
  have hrun : (parseIp hopByHopPacket.pkt).map (·.map (·.protocol)) = .ok (some 0) := by decide +kernel
  rw [hp] at hrun
  rw [show p.protocol = 0 from Option.some.inj (Except.ok.inj hrun)] at hprotocol
  cases hprotocol

/-! ## Handlers -/

inductive Handler where
  | icmp
  | udp
  | tcp
  | blockUdp
deriving DecidableEq, Repr

/-- The handler that `dispatch` calls. -/
def handlerOf (p : IpPacket) (host : HostInfo) (v : Verdict) : Option Handler :=
  if v.allowed then
    if isIcmp p.protocol then some .icmp
    else if p.protocol = IPPROTO_UDP then some .udp
    else if p.protocol = IPPROTO_TCP then some .tcp
    else none
  else if p.protocol = IPPROTO_UDP then some .blockUdp
  else if p.protocol = IPPROTO_TCP ∧ host.serverName ≠ [] then some .tcp
  else none

/-- Without a handler nothing is done. -/
theorem dispatch_of_handlerOf {args : Arguments} {ctx : Context} {p : IpPacket} {host : HostInfo} {v : Verdict}
    (h : handlerOf p host v = none) (pkt : TunPacket) (ports : Ports) (uid : Int) (calls : TunCalls) :
    dispatch args ctx pkt p ports host uid v calls = .ok (ctx, []) := by
  unfold handlerOf at h
  unfold dispatch
  split_ifs at h ⊢ <;> rfl

/-- Every packet is allowed, so that the protocol alone decides. -/
theorem handlerOf_verdict (args : Arguments) (ctx : Context) (p : IpPacket) (ports : Ports) (host : HostInfo)
    (uid : Int) : handlerOf p host (verdict args ctx p ports host uid) ≠ none ↔ isUpperLayer p.protocol = true := by
  have hupper : isUpperLayer p.protocol = true ↔
      isIcmp p.protocol = true ∨ p.protocol = IPPROTO_UDP ∨ p.protocol = IPPROTO_TCP := by
    simp only [isUpperLayer, isIcmp, Bool.or_eq_true, decide_eq_true_eq]
    tauto
  rw [hupper, handlerOf, if_pos (verdict_allowed ..)]
  split_ifs with hicmp hudp htcp
  · simp only [ne_eq, reduceCtorEq, not_false_eq_true, hicmp, true_or]
  · simp only [ne_eq, reduceCtorEq, not_false_eq_true, hudp, true_or, or_true]
  · simp only [ne_eq, reduceCtorEq, not_false_eq_true, htcp, or_true]
  · simp only [ne_eq, not_true_eq_false, hicmp, hudp, htcp, Bool.false_eq_true, or_self]

/-- A packet with the header `p` passes what `handle_ip` checks after the header, and gets to a handler
whatever its data tell of the host. -/
def ReachesHandler (args : Arguments) (ctx : Context) (sessions : Int) (pkt : TunPacket) (p : IpPacket)
    (calls : TunCalls) : Prop :=
  ∃ ports, readPorts pkt p = .ok (some ports) ∧ ¬(args.maxsessions ≤ sessions ∧ startsFlow args ctx p ports = true) ∧
    ∀ host, handlerOf p host (verdict args ctx p ports host (packetUid args ctx p ports host calls)) ≠ none

/-- `handle_ip` hands the packet to a handler. -/
def HandsOn (args : Arguments) (ctx : Context) (sessions : Int) (pkt : TunPacket) (calls : TunCalls) : Prop :=
  ∃ p, parseIp pkt = .ok (some p) ∧ ReachesHandler args ctx sessions pkt p calls

/-! ## Fragments -/

/-- The flags and the fragment offset, in network byte order. -/
def fragField (pkt : TunPacket) : Nat := byteAt pkt.buffer 6 * 256 + byteAt pkt.buffer 7

def moreFragments (pkt : TunPacket) : Bool := (fragField pkt).testBit 13

/-- The fragment offset, in units of eight bytes. -/
def fragmentOffset (pkt : TunPacket) : Nat := fragField pkt % 2 ^ 13

def IsFragment (pkt : TunPacket) : Prop := moreFragments pkt = true ∨ fragmentOffset pkt ≠ 0

/-- An IPv4 packet with its header inside and a correct total length. -/
structure WholeIp4 (pkt : TunPacket) : Prop where
  version : byteAt pkt.buffer 0 / 16 = 4
  header : 20 ≤ pkt.length
  total : byteAt pkt.buffer 2 * 256 + byteAt pkt.buffer 3 = pkt.length

/-- A packet handed on is no fragment, and one that is no fragment passes the header checks. -/
structure FragmentSafe (args : Arguments) (ctx : Context) (sessions : Int) (pkt : TunPacket) (calls : TunCalls) :
    Prop where
  handed : byteAt pkt.buffer 0 / 16 = 4 → HandsOn args ctx sessions pkt calls → ¬IsFragment pkt
  kept : WholeIp4 pkt → ¬IsFragment pkt → ∃ p, parseIp pkt = .ok (some p)

/-- A fragment whose offset has not the bit 5, and that passes all other checks. -/
structure MissedFragment (args : Arguments) (ctx : Context) (sessions : Int) (pkt : TunPacket) (calls : TunCalls) :
    Prop where
  whole : WholeIp4 pkt
  fragment : IsFragment pkt
  bit : (fragmentOffset pkt).testBit 5 = false
  reaches : ReachesHandler args ctx sessions pkt (ip4Fields pkt.buffer) calls

theorem byteAt_lt (pkt : Bytes) (i : Nat) : byteAt pkt i < 256 := by
  unfold byteAt
  cases pkt[i]? with
  | none => decide
  | some b => exact b.toNat_lt

/-- The test of the raw field is one of the bit 5 of the second byte, so of the offset. -/
theorem fragmentTest_iff (pkt : TunPacket) :
    (byteAt pkt.buffer 6 + 256 * byteAt pkt.buffer 7) &&& IP_MF = 0 ↔ (fragmentOffset pkt).testBit 5 = false := by
  have hlow := byteAt_lt pkt.buffer 6
  have hhigh := byteAt_lt pkt.buffer 7
  have hraw : (byteAt pkt.buffer 6 + 256 * byteAt pkt.buffer 7).testBit 13 = (byteAt pkt.buffer 7).testBit 5 := by
    rw [Nat.add_comm, show 256 = 2 ^ 8 from rfl, Nat.testBit_two_pow_mul_add _ (by simpa using hlow)]
    rfl
  have hoffset : (fragmentOffset pkt).testBit 5 = (byteAt pkt.buffer 7).testBit 5 := by
    rw [fragmentOffset, Nat.testBit_mod_two_pow, fragField, Nat.mul_comm, show 256 = 2 ^ 8 from rfl,
      Nat.testBit_two_pow_mul_add _ (by simpa using hhigh)]
    rfl
  rw [hoffset, ← hraw, show IP_MF = 2 ^ 13 from rfl, Nat.and_two_pow]
  cases (byteAt pkt.buffer 6 + 256 * byteAt pkt.buffer 7).testBit 13 <;> decide

theorem parseIp_whole {pkt : TunPacket} (h : WholeIp4 pkt) : parseIp pkt =
    .ok (if (fragmentOffset pkt).testBit 5 = false then some (ip4Fields pkt.buffer) else none) := by
  rw [parseIp_ip4_eq h.version h.header, if_neg (not_not.2 h.total)]
  by_cases hbit : (fragmentOffset pkt).testBit 5 = false
  · rw [if_neg (not_not.2 ((fragmentTest_iff pkt).2 hbit)), if_pos hbit]
  · rw [if_pos (mt (fragmentTest_iff pkt).1 hbit), if_neg hbit]

/-- An IPv4 packet that is taken is whole. -/
theorem whole_of_parseIp {pkt : TunPacket} {p : IpPacket} (hversion : byteAt pkt.buffer 0 / 16 = 4)
    (h : parseIp pkt = .ok (some p)) : WholeIp4 pkt := by
  by_cases hlen : 20 ≤ pkt.length
  · rw [parseIp_ip4_eq hversion hlen] at h
    split_ifs at h with hmf htotal
    · cases h
    · cases h
    · exact ⟨hversion, hlen, not_not.1 htotal⟩
  · obtain ⟨first, hfirst, h⟩ := bind_eq_ok h
    obtain ⟨b, hload, hbyte⟩ := load_byteAt (load_lt_of_ok hfirst)
    cases hfirst.symm.trans hload
    rw [hbyte, if_pos hversion, parseIp4, if_pos (not_le.1 hlen)] at h
    cases h

/-- A packet that is no fragment has no bit of an offset. -/
theorem bit_of_not_fragment {pkt : TunPacket} (h : ¬IsFragment pkt) : (fragmentOffset pkt).testBit 5 = false := by
  rw [not_not.1 fun hne => h (.inr hne)]
  rfl

/-- Fragments are kept from the handlers exactly when none is missed by the test. -/
theorem fragmentSafe_iff (args : Arguments) (ctx : Context) (sessions : Int) (pkt : TunPacket) (calls : TunCalls) :
    FragmentSafe args ctx sessions pkt calls ↔ ¬MissedFragment args ctx sessions pkt calls := by
  constructor
  · rintro ⟨hhanded, -⟩ ⟨hwhole, hfragment, hbit, hreaches⟩
    refine hhanded hwhole.version ⟨ip4Fields pkt.buffer, ?_, hreaches⟩ hfragment
    rw [parseIp_whole hwhole, if_pos hbit]
  · intro hmissed
    constructor
    · rintro hversion ⟨p, hp, hreaches⟩ hfragment
      have hwhole := whole_of_parseIp hversion hp
      rw [parseIp_whole hwhole] at hp
      split_ifs at hp with hbit
      · cases hp
        exact hmissed ⟨hwhole, hfragment, hbit, hreaches⟩
      · cases hp
    · intro hwhole hfragment
      exact ⟨ip4Fields pkt.buffer, by rw [parseIp_whole hwhole, if_pos (bit_of_not_fragment hfragment)]⟩

/-- The second fragment of a UDP datagram, from byte 8 on. -/
def secondFragment : Bytes :=
  [0x45, 0, 0, 29, 0, 0, 0, 1, 64, 17, 0, 0, 10, 1, 10, 1, 8, 8, 8, 8, 3, 232, 0, 9, 0, 9, 0, 0, 7]

/-- Its data is taken for ports. -/
theorem not_fragmentSafe_second : ¬∀ (args : Arguments) (ctx : Context) (sessions : Int) (pkt : TunPacket)
    (calls : TunCalls), FragmentSafe args ctx sessions pkt calls := by
  intro h
  have hsafe := h (.plain [] _ compiled_redirectAll) ⟨[], 0⟩ 0 secondFragment .working
  have hparse : parseIp secondFragment = .ok (some datagramPacket) := by decide +kernel
  have hports : readPorts secondFragment datagramPacket = .ok (some ⟨1000, 9, false⟩) := by decide +kernel
  have hroom : ¬(100 : Int) ≤ 0 := by decide
  refine hsafe.handed (by decide) ⟨datagramPacket, hparse, _, hports, fun hlimit => hroom hlimit.1, fun host => ?_⟩
    (.inr (by decide))
  exact (handlerOf_verdict ..).2 (by decide)

end SunProxy.Net
