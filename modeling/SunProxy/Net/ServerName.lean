/-
The host names the engine finds in TCP data: `get_sni` in a TLS client hello, and the `Host` header
of `http.c`.
-/
import SunProxy.Net.Header

namespace SunProxy.Net

open SunProxy.Buffer

def TLS_SNI_LENGTH : Nat := 255
def TLS_HANDSHAKE_RECORD : Nat := 22
def TLS_MESSAGE_CLIENTHELLO : Nat := 1
def TLS_EXTENSION_TYPE_SERVER_NAME : Nat := 0

/-! ## TLS -/

/-- The name in a server name extension at `eindex` of the extension data; `none` for a return of 0. -/
def sniName (pkt : Bytes) (edata edatalen eindex : Nat) : Except Fault (Option Bytes) := do
  if edatalen ≤ eindex + 1 then return none
  let sniLen ← loadBe16 pkt (edata + eindex)
  let eindex := (eindex + 2) % 65536
  if edatalen ≤ eindex + sniLen then return none
  if edatalen ≤ eindex then return none
  let sniType ← load pkt (edata + eindex)
  let eindex := (eindex + 1) % 65536
  if sniType ≠ 0 then return none
  if edatalen ≤ eindex + 1 then return none
  let nameLen ← loadBe16 pkt (edata + eindex)
  let eindex := (eindex + 2) % 65536
  if edatalen ≤ eindex + nameLen then return none
  if TLS_SNI_LENGTH ≤ nameLen then return none
  let name ← loadBytes pkt (edata + eindex) nameLen
  return some name

/-- The loop over extensions. An extension has a header of four bytes, so the length of the extension
data is enough fuel; a loop that takes more does not end. -/
def sniExtensions (pkt : Bytes) (edata edatalen : Nat) : Nat → Nat → Except Fault (Option Bytes)
  | 0, eindex => if edatalen ≤ eindex then .ok none else .error .hang
  | fuel + 1, eindex => do
    if edatalen ≤ eindex then return none
    if edatalen ≤ eindex + 1 then return none
    let extType ← loadBe16 pkt (edata + eindex)
    let eindex := (eindex + 2) % 65536
    if edatalen ≤ eindex + 1 then return none
    let extLen ← loadBe16 pkt (edata + eindex)
    let eindex := (eindex + 2) % 65536
    if edatalen < eindex + extLen then return none
    if extType = TLS_EXTENSION_TYPE_SERVER_NAME then sniName pkt edata edatalen eindex
    else sniExtensions pkt edata edatalen fuel ((eindex + extLen) % 65536)

/-- `get_sni` on the `datalen` bytes at `data`: the bytes it copies, `none` when it returns 0. The
index into the record is a `uint8_t`. -/
def getSni (pkt : Bytes) (data datalen : Nat) : Except Fault (Option Bytes) := do
  if datalen < 6 then return none
  let contentType ← load pkt data
  let majorVersion ← load pkt (data + 1)
  let _minorVersion ← load pkt (data + 2)
  let contentLength ← loadBe16 pkt (data + 3)
  let messageType ← load pkt (data + 5)
  if contentType.toNat ≠ TLS_HANDSHAKE_RECORD || (majorVersion.toNat < 3 || (5 + contentLength ≠ datalen ||
      messageType.toNat ≠ TLS_MESSAGE_CLIENTHELLO)) then return none
  let index := 43
  if datalen ≤ index then return none
  -- the version of the hello, for the log
  let _version ← loadBe16 pkt (data + 9)
  let sessionLen ← load pkt (data + index)
  let index := (index + 1 + sessionLen.toNat) % 256
  if datalen ≤ index + 1 then return none
  let suitesLen ← loadBe16 pkt (data + index)
  let index := (index + 2 + suitesLen) % 256
  if datalen ≤ index then return none
  let compressionLen ← load pkt (data + index)
  let index := (index + 1 + compressionLen.toNat) % 256
  if datalen ≤ index + 1 then return none
  let edatalen ← loadBe16 pkt (data + index)
  let index := (index + 2) % 256
  if edatalen = 0 || index + edatalen ≠ datalen then return none
  sniExtensions pkt (data + index) edatalen edatalen 0

/-- `get_sni` with its return value and the buffer `server_name` as it leaves it. -/
def getSniTo (pkt : Bytes) (data datalen : Nat) (serverName : Bytes) : Except Fault (Bool × Bytes) := do
  match ← getSni pkt data datalen with
  | some name =>
    let serverName ← storeBytes serverName 0 name
    let serverName ← storeBytes serverName name.length [0]
    return (true, serverName)
  | none => return (false, serverName)

/-! ## HTTP -/

/-- `next_header`: the length of the next header, and the data from it on. -/
def nextHeader : Bytes → Nat × Bytes
  | [] => (0, [])
  | data =>
    -- the line feed, or the last byte
    let skipped := ((data.take (data.length - 1)).takeWhile (· != 10)).length
    let rest := data.drop (skipped + 1)
    let line := rest.takeWhile (· != 10)
    (if line.getLast? = some 13 then line.length - 1 else line.length, rest)

def isBlank (b : UInt8) : Bool := b == 32 || b == 9

def asciiLowerByte (b : UInt8) : UInt8 := if 65 ≤ b.toNat ∧ b.toNat ≤ 90 then b + 32 else b

/-- The value of the header line that starts `data` and is `len` long, as `strncpy` copies it. -/
def headerValue (data : Bytes) (len : Nat) : Bytes :=
  let value := ((data.take len).drop 5).dropWhile isBlank
  cString value ++ List.replicate (value.length - (cString value).length) 0

/-- `get_header("Host:", …)`; a header takes bytes, so that the length of the data is enough fuel. -/
def getHeader : Nat → Bytes → Option Bytes
  | 0, _ => none
  | fuel + 1, data =>
    let (len, data) := nextHeader data
    if len = 0 then none
    else if 5 < len ∧ (data.take 5).map asciiLowerByte = [104, 111, 115, 116, 58] then some (headerValue data len)
    else getHeader fuel data

def isDigitByte (b : UInt8) : Bool := 48 ≤ b.toNat && b.toNat ≤ 57

/-- A host name without the port a request may add to it. -/
def trimPort (hostname : Bytes) : Bytes :=
  match hostname.reverse.dropWhile isDigitByte with
  | 58 :: rest => rest.reverse
  | _ => hostname

/-- `parse_http_header`: the host name, `none` when it leaves the pointer alone. -/
def parseHttpHeader (data : Bytes) : Option Bytes := (getHeader (data.length + 1) data).map trimPort

/-- Whether `get_header` comes to its end on lines that end within `data`. -/
def headersEnd : Nat → Bytes → Bool
  | 0, _ => false
  | fuel + 1, data =>
    let (len, data) := nextHeader data
    data.contains 10 && (len = 0 || (5 < len && (data.take 5).map asciiLowerByte = [104, 111, 115, 116, 58]) ||
      headersEnd fuel data)

/-- The host name that `parse_http_header` finds in the `datalen` bytes at `data`. Where these lead out
of the buffer, it has to come to its end before. -/
def httpHost (buffer : Bytes) (data datalen : Nat) : Except Fault Bytes :=
  let inside := (buffer.drop data).take datalen
  if datalen ≤ inside.length ∨ headersEnd (inside.length + 1) inside = true then
    .ok (cString ((parseHttpHeader inside).getD []))
  else .error (.read (max data buffer.length))

example : parseHttpHeader ("GET / HTTP/1.1\r\nhOST: \ta.b:80\r\n\r\n".toList.map fun c => UInt8.ofNat c.toNat) =
    some [97, 46, 98] := by decide

end SunProxy.Net
