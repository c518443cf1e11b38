/-
What a DHCP answer has to be: a BOOTP reply to its request with a list of options. The parts that
`check_dhcp` makes up are one, for a discover; but the options are written outside of the answer,
whatever the request.
-/
import SunProxy.Net.Steps

namespace SunProxy.Net

open SunProxy.Buffer SunProxy.Result

variable {flow : Flow} {request : Bytes}

/-! ## Replies -/

/-- A list of options: pads are skipped, and the end option ends it. -/
inductive OptionList : Bytes → List (UInt8 × Bytes) → Prop
  | done (rest : Bytes) : OptionList (255 :: rest) []
  | pad {bytes : Bytes} {os : List (UInt8 × Bytes)} (list : OptionList bytes os) : OptionList (0 :: bytes) os
  | option {code : UInt8} {value bytes : Bytes} {os : List (UInt8 × Bytes)} (pad : code ≠ 0) (done : code ≠ 255)
      (length : value.length < 256) (list : OptionList bytes os) :
      OptionList (code :: UInt8.ofNat value.length :: (value ++ bytes)) ((code, value) :: os)

/-- The number of the message type among the options. -/
def DHCP_MESSAGE_TYPE : UInt8 := 53

/-- A BOOTP reply to the request: its code, the hardware address and the transaction of the request,
and behind the magic number a list of options of which the first says offer or acknowledgment. -/
structure DhcpReply (request response : Bytes) : Prop where
  opcode : load response 0 = .ok 2
  hardware : loadBytes response 1 2 = loadBytes request 1 2
  xid : loadBytes response 4 4 = loadBytes request 4 4
  chaddr : loadBytes response 28 16 = loadBytes request 28 16
  magic : loadBe32 response 236 = .ok DHCP_OPTION_MAGIC_NUMBER
  options : ∃ kind os, OptionList (response.drop 240) ((DHCP_MESSAGE_TYPE, [kind]) :: os) ∧ (kind = 2 ∨ kind = 5)

/-- A payload that `check_dhcp` takes as a request. -/
structure DhcpRequest (flow : Flow) (request : Bytes) : Prop where
  port : flow.source = 68 ∨ flow.dest = 67
  long : dhcpPacketSize ≤ request.length
  magic : loadBe32 request 236 = .ok DHCP_OPTION_MAGIC_NUMBER
  htype : load request 1 = .ok 1
  hlen : load request 2 = .ok 6
  opcode : load request 0 = .ok 1

/-! ## The parts of an answer -/

theorem optionList_dhcpOptions (discover : Bool) (rest : Bytes) :
    OptionList (dhcpOptions discover ++ rest)
      [(53, [if discover then 2 else 5]), (1, [255, 255, 255, 0]), (3, [10, 1, 10, 1]), (51, [0x10, 0x0E, 0, 0]),
       (54, [10, 1, 10, 1]), (6, [8, 8, 8, 8])] := by
  refine @OptionList.option 53 [_] _ _ (by decide) (by decide) (by simp) ?_
  refine @OptionList.option 1 [255, 255, 255, 0] _ _ (by decide) (by decide) (by decide) ?_
  refine @OptionList.option 3 [10, 1, 10, 1] _ _ (by decide) (by decide) (by decide) ?_
  refine @OptionList.option 51 [0x10, 0x0E, 0, 0] _ _ (by decide) (by decide) (by decide) ?_
  refine @OptionList.option 54 [10, 1, 10, 1] _ _ (by decide) (by decide) (by decide) ?_
  refine @OptionList.option 6 [8, 8, 8, 8] _ _ (by decide) (by decide) (by decide) ?_
  exact .done rest

section Fixed

variable (discover : Bool) (rest : Bytes)

/-- The fixed part without its code: the hardware, hops and transaction of the request, what is
made up, and the rest of the request. -/
theorem drop_dhcpHeader : (dhcpHeader request discover ++ rest).drop 1 =
    (request.drop 1).take 7 ++ ([0, 0, 0, 0, 0, 0, 0, 0, 10, 1, 10, 2, 10, 1, 10, 1, 0, 0, 0, 0] ++
      ((request.drop 28).take 212 ++ rest)) := by
  simp [dhcpHeader]

theorem length_dhcpHeader (hlong : dhcpPacketSize ≤ request.length) : (dhcpHeader request discover).length = 240 := by
  unfold dhcpPacketSize at hlong
  simp only [dhcpHeader, List.length_append, List.length_take, List.length_drop, List.length_cons, List.length_nil]
  omega

/-- The bytes taken over from the front of the request. -/
theorem front_dhcpHeader (hlong : dhcpPacketSize ≤ request.length) {i n : Nat} (hi : 1 ≤ i) (hn : i + n ≤ 8) :
    loadBytes (dhcpHeader request discover ++ rest) i n = loadBytes request i n := by
  have hlen := length_dhcpHeader discover hlong
  unfold dhcpPacketSize at hlong
  obtain ⟨i, rfl⟩ := Nat.exists_eq_add_of_le hi
  have hfront : ((request.drop 1).take 7).length = 7 := by
    rw [List.length_take, List.length_drop]
    omega
  rw [loadBytes, loadBytes, if_pos (by rw [List.length_append, hlen]; omega), if_pos (by omega), ← List.drop_drop,
    ← List.drop_drop, drop_dhcpHeader, List.drop_append_of_le_length (by omega),
    List.take_append_of_le_length (by rw [List.length_drop]; omega), List.drop_take, List.take_take,
    Nat.min_eq_left (by omega)]

/-- The end of the fixed part is that of the request. -/
theorem drop_dhcpHeader_back (hlong : dhcpPacketSize ≤ request.length) :
    (dhcpHeader request discover ++ rest).drop 28 = (request.drop 28).take 212 ++ rest := by
  have hlast : (dhcpHeader request discover ++ rest).drop 28 =
      ((dhcpHeader request discover ++ rest).drop 1).drop 27 := by
    rw [List.drop_drop]
  have hfront : ((request.drop 1).take 7).length = 7 := by
    unfold dhcpPacketSize at hlong
    rw [List.length_take, List.length_drop]
    omega
  rw [hlast, drop_dhcpHeader, List.drop_append, hfront, List.drop_eq_nil_of_le (by omega), List.nil_append]
  exact List.drop_left' rfl

theorem back_dhcpHeader (hlong : dhcpPacketSize ≤ request.length) {i n : Nat} (hi : 28 ≤ i) (hn : i + n ≤ 240) :
    loadBytes (dhcpHeader request discover ++ rest) i n = loadBytes request i n := by
  have hback := drop_dhcpHeader_back discover rest hlong
  have hlen := length_dhcpHeader discover hlong
  unfold dhcpPacketSize at hlong
  obtain ⟨i, rfl⟩ := Nat.exists_eq_add_of_le hi
  rw [loadBytes, loadBytes, if_pos (by rw [List.length_append, hlen]; omega), if_pos (by omega), ← List.drop_drop,
    hback, ← List.drop_drop, List.drop_append_of_le_length (by rw [List.length_take, List.length_drop]; omega),
    List.take_append_of_le_length (by rw [List.length_drop, List.length_take, List.length_drop]; omega), List.drop_take,
    List.take_take, Nat.min_eq_left (by omega)]

theorem load_dhcpHeader (hlong : dhcpPacketSize ≤ request.length) {i : Nat} (hi : 28 ≤ i) (hend : i < 240) :
    load (dhcpHeader request discover ++ rest) i = load request i := by
  have hback := drop_dhcpHeader_back discover rest hlong
  unfold dhcpPacketSize at hlong
  obtain ⟨i, rfl⟩ := Nat.exists_eq_add_of_le hi
  rw [load, load, ← List.getElem?_drop, hback,
    List.getElem?_append_left (by rw [List.length_take, List.length_drop]; omega), List.getElem?_take_of_lt (by omega),
    List.getElem?_drop]

end Fixed

/-- The fixed part and the options behind it are a reply to a discover; the code of an acknowledgment
is none of a reply. -/
theorem dhcpReply_iff (hlong : dhcpPacketSize ≤ request.length)
    (hmagic : loadBe32 request 236 = .ok DHCP_OPTION_MAGIC_NUMBER) (discover : Bool) (rest : Bytes) :
    DhcpReply request (dhcpHeader request discover ++ (dhcpOptions discover ++ rest)) ↔ discover = true := by
  have hlen := length_dhcpHeader discover hlong
  constructor
  · intro h
    have hop := h.opcode
    cases discover with
    | true => rfl
    | false => cases hop
  · rintro rfl
    constructor
    · rfl
    · exact front_dhcpHeader true _ hlong (by decide) (by decide)
    · exact front_dhcpHeader true _ hlong (by decide) (by decide)
    · exact back_dhcpHeader true _ hlong (by decide) (by decide)
    · have hload : ∀ i, 28 ≤ i → i < 240 →
          load (dhcpHeader request true ++ (dhcpOptions true ++ rest)) i = load request i :=
        fun i hi hend => load_dhcpHeader true _ hlong hi hend
      rw [← hmagic]
      simp only [loadBe32, loadBe16]
      rw [hload 236 (by decide) (by decide), hload (236 + 1) (by decide) (by decide),
        hload (236 + 2) (by decide) (by decide), hload (236 + 2 + 1) (by decide) (by decide)]
    · have hlist := optionList_dhcpOptions true rest
      rw [List.drop_left' hlen]
      exact ⟨2, _, hlist, .inl rfl⟩

/-! ## Requests -/

/-- The request is answered without a write outside of the answer, with a reply of 500 bytes. -/
def DhcpAnswered (flow : Flow) (request : Bytes) : Prop :=
  ∃ o response, dhcpCheck flow request = .ok (some o) ∧ o.response = some response ∧ response.length = 500 ∧
    (∀ st ∈ o.stores, st.1 + st.2.length ≤ response.length) ∧ DhcpReply request response

theorem dhcpCheck_request (h : DhcpRequest flow request) : ∃ discover, dhcpCheck flow request =
    .ok (some ⟨flow.leased, dhcpStores request discover, some (dhcpResponse (dhcpStores request discover))⟩) := by
  have hlong := h.long
  obtain ⟨siaddr, hsiaddr, -⟩ : Returns (fun b => b.length = 4) (loadBytes request 20 4) :=
    returns_loadBytes (by unfold dhcpPacketSize at hlong; omega)
  refine ⟨siaddr == [0, 0, 0, 0], ?_⟩
  unfold dhcpCheck checkDhcp
  rw [if_pos h.port, if_neg (Nat.not_lt_of_le hlong)]
  simp only [h.magic, h.htype, h.hlen, h.opcode, hsiaddr, bind, Except.bind]
  rfl

/-- The options are written 57600 bytes behind the start of the answer. -/
theorem dhcpStores_outside (h : DhcpRequest flow request) {o : DhcpOutcome}
    (hrun : dhcpCheck flow request = .ok (some o)) : ∃ st ∈ o.stores, 500 < st.1 + st.2.length := by
  obtain ⟨discover, hrun'⟩ := dhcpCheck_request h
  cases hrun.symm.trans hrun'
  refine ⟨(dhcpPacketSize * dhcpPacketSize, dhcpOptions discover), List.mem_cons_of_mem _ (List.mem_singleton.2 rfl),
    ?_⟩
  have hstart : 500 < dhcpPacketSize * dhcpPacketSize := by decide
  exact Nat.lt_add_right _ hstart

/-- No request is answered. -/
theorem not_dhcpAnswered (h : DhcpRequest flow request) : ¬ DhcpAnswered flow request := by
  rintro ⟨o, response, hrun, -, hlen, hinside, -⟩
  obtain ⟨st, hst, hout⟩ := dhcpStores_outside h hrun
  exact absurd (hinside st hst) (by omega)

/-- The broadcast of a client without an address. -/
def discoverFlow : Flow := ⟨4, [0, 0, 0, 0], 68, [255, 255, 255, 255], 67⟩

/-- A discover with the transaction 1.2.3.4 and no hardware address. -/
def discoverRequest : Bytes := [1, 1, 6, 0, 1, 2, 3, 4] ++ List.replicate 228 0 ++ [0x63, 0x82, 0x53, 0x63]

theorem dhcpRequest_discover : DhcpRequest discoverFlow discoverRequest :=
  ⟨.inl rfl, by decide +kernel, by decide +kernel, rfl, rfl, rfl⟩

theorem not_dhcpAnswered_discover : ¬ DhcpAnswered discoverFlow discoverRequest := not_dhcpAnswered dhcpRequest_discover

/-- A discover is a request that is not answered. -/
theorem not_forall_dhcpAnswered : ¬ ∀ flow request, DhcpRequest flow request → DhcpAnswered flow request := by
  intro h
  obtain ⟨o, response, hrun, -, hlen, hinside, -⟩ := h discoverFlow discoverRequest dhcpRequest_discover
  obtain ⟨st, hst, hout⟩ := dhcpStores_outside dhcpRequest_discover hrun
  exact absurd (hinside st hst) (by omega)

end SunProxy.Net
