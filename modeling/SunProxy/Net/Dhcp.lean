/-
`check_dhcp`: the answer to a DHCP request, and where its options are written.
-/
import SunProxy.Net.Wire

namespace SunProxy.Net

open SunProxy.Buffer

def DHCP_OPTION_MAGIC_NUMBER : Nat := 0x63825363

/-- `sizeof(struct dhcp_packet)` -/
def dhcpPacketSize : Nat := 240

/-- The fixed part of the answer to `request`. -/
def dhcpHeader (request : Bytes) (discover : Bool) : Bytes :=
  [if discover then 2 else 4] ++ (request.drop 1).take 7 ++ [0, 0, 0, 0] ++ [0, 0, 0, 0] ++
    [10, 1, 10, 2] ++ [10, 1, 10, 1] ++ [0, 0, 0, 0] ++ (request.drop 28).take 212

/-- The options: message type, subnet mask, gateway, lease time, DHCP server, DNS server, end. -/
def dhcpOptions (discover : Bool) : Bytes :=
  [53, 1, if discover then 2 else 5] ++ [1, 4, 255, 255, 255, 0] ++ [3, 4, 10, 1, 10, 1] ++
    [51, 4, 0x10, 0x0E, 0, 0] ++ [54, 4, 10, 1, 10, 1] ++ [6, 4, 8, 8, 8, 8] ++ [255]

/-- The stores to the response: at which offset they start, and what they store. The options go to
`response + sizeof(struct dhcp_packet)`, which counts in packets. -/
def dhcpStores (request : Bytes) (discover : Bool) : List (Nat × Bytes) :=
  [(0, dhcpHeader request discover), (dhcpPacketSize * dhcpPacketSize, dhcpOptions discover)]

/-- The 500 bytes of the response after the stores. What is stored outside of them is in memory that no
other part of the model has, so that the code goes on. -/
def dhcpResponse (stores : List (Nat × Bytes)) : Bytes :=
  stores.foldl (fun response s => (storeBytes response s.1 s.2).toOption.getD response) (List.replicate 500 0)

/-- The flow of a session whose request was answered: `check_dhcp` puts `10.1.10.1` over its source. -/
def Flow.leased (flow : Flow) : Flow := { flow with saddr := overwrite flow.saddr 0 [10, 1, 10, 1] }

/-- What `check_dhcp` does with a packet it takes. -/
structure DhcpOutcome where
  flow : Flow
  stores : List (Nat × Bytes)
  response : Option Bytes

/-- `check_dhcp`; `none` is -1. -/
def checkDhcp (flow : Flow) (data : Bytes) (datalen : Nat := data.length) : Except Fault (Option DhcpOutcome) :=
  if datalen < dhcpPacketSize then .ok none
  else do
    let optionFormat ← loadBe32 data 236
    let htype ← load data 1
    let hlen ← load data 2
    let opcode ← load data 0
    if optionFormat ≠ DHCP_OPTION_MAGIC_NUMBER then return none
    if htype ≠ 1 || hlen ≠ 6 then return none
    if opcode = 1 then
      let siaddr ← loadBytes data 20 4
      let stores := dhcpStores data (siaddr == [0, 0, 0, 0])
      return some ⟨flow.leased, stores, some (dhcpResponse stores)⟩
    else return some ⟨flow, [], none⟩

end SunProxy.Net
