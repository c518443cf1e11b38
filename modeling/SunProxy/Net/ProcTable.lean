/-
The socket tables of `/proc/net` as `get_uid_sub` reads them: `sscanf` with its format, and the
addresses put in network order.
-/
import SunProxy.Net.Wire
import SunProxy.Utils.Denotes

namespace SunProxy.Net

open SunProxy.Buffer SunProxy.Kotlin SunProxy.Utils

/-! ## `sscanf` -/

/-- Conversions one after another, each from what is left of the line. -/
abbrev Scan := StateT Str Option

/-- `isspace` -/
def isSpace (c : Char) : Bool := c == ' ' || (9 ≤ c.toNat && c.toNat ≤ 13)

def scanLiteral (d : Char) : Scan Unit
  | c :: s => if c = d then some ((), s) else none
  | [] => none

/-- `%s` with a width. -/
def scanWord (width : Nat) : Scan Str := fun s =>
  let s := s.dropWhile isSpace
  let word := (s.take width).takeWhile (!isSpace ·)
  if word.isEmpty then none else some (word, s.drop word.length)

def isDigit (radix : Nat) (c : Char) : Bool := (asciiDigit c).any (· < radix)

/-- `0x` before a hexadecimal digit. -/
def dropHexPrefix (radix : Nat) (s : Str) : Str :=
  match s with
  | '0' :: x :: d :: s => if radix = 16 && (x == 'x' || x == 'X') && isDigit 16 d then d :: s else '0' :: x :: d :: s
  | s => s

/-- `%d` and `%X`, as `strtol` reads a number; one that does not fit its type is kept as it is written. -/
def scanNumber (radix : Nat) : Scan Int := fun s =>
  let s := s.dropWhile isSpace
  let negative := s.head? = some '-'
  let s := dropHexPrefix radix (if negative || s.head? = some '+' then s.tail else s)
  let digits := s.takeWhile (isDigit radix)
  let n : Int := digitsNat radix digits
  if digits.isEmpty then none else some (if negative then -n else n, s.drop digits.length)

/-- What `sscanf` assigns. -/
structure ProcFields where
  shex : Str
  sport : Int
  dhex : Str
  dport : Int
  uid : Int

/-- The words of an address, 32 bits each. -/
def wordCount (version : Nat) : Nat := if version = 4 then 1 else 4

/-- `%*d: %32s:%X %32s:%X %*X %*lX:%*lX %*X:%*X %*X %d`, or with `%8s`. A blank of the format stands
before a conversion that skips white space itself, and what follows the last assigned field in the
format does not count. -/
def scanFields (version : Nat) : Scan ProcFields := do
  let width := wordCount version * 8
  let _ ← scanNumber 10
  scanLiteral ':'
  let shex ← scanWord width
  scanLiteral ':'
  let sport ← scanNumber 16
  let dhex ← scanWord width
  scanLiteral ':'
  let dport ← scanNumber 16
  let _ ← scanNumber 16
  let _ ← scanNumber 16
  scanLiteral ':'
  let _ ← scanNumber 16
  let _ ← scanNumber 16
  scanLiteral ':'
  let _ ← scanNumber 16
  let _ ← scanNumber 16
  let uid ← scanNumber 10
  return ⟨shex, sport, dhex, dport, uid⟩

/-! ## Rows -/

def char2nible (c : Char) : UInt8 :=
  if '0' ≤ c ∧ c ≤ '9' then UInt8.ofNat (c.toNat - 48)
  else if 'a' ≤ c ∧ c ≤ 'f' then UInt8.ofNat (c.toNat - 97 + 10)
  else if 'A' ≤ c ∧ c ≤ 'F' then UInt8.ofNat (c.toNat - 65 + 10)
  else 255

/-- Two characters a byte; after an odd number of them the terminating zero is read, which is no digit. -/
def hex2bytes : Str → Bytes
  | hi :: lo :: hex => ((char2nible hi <<< 4) ||| char2nible lo) :: hex2bytes hex
  | [hi] => [(char2nible hi <<< 4) ||| 255]
  | [] => []

/-- `htonl` of every 32-bit word, on a little-endian target. -/
def htonlWords : Bytes → Bytes
  | a :: b :: c :: d :: bytes => d :: c :: b :: a :: htonlWords bytes
  | bytes => bytes

/-- A row of a socket table. -/
structure UidRow where
  saddr : Bytes
  sport : Int
  daddr : Bytes
  dport : Int
  uid : Int

/-- The row a line holds, if it is one. -/
def readRow (version : Nat) (line : Str) : Option UidRow :=
  match scanFields version line with
  | none => none
  | some (fields, _) =>
    if fields.shex.length = wordCount version * 8 ∧ fields.dhex.length = wordCount version * 8 then
      some { saddr := htonlWords (hex2bytes fields.shex), sport := fields.sport
             daddr := htonlWords (hex2bytes fields.dhex), dport := fields.dport, uid := fields.uid }
    else none

/-- The rows before the first line that is none. -/
def readRows (version : Nat) : List Str → List UidRow
  | [] => []
  | line :: lines =>
    match readRow version line with
    | none => []
    | some row => row :: readRows version lines

example : (readRow 4 "  46: 0101A8C0:1F90 08080808:0035 01 00000000:00000000 00:00000000 00000000 10001 0 1".toList).map
    (fun row => (row.saddr, row.sport, row.daddr, row.dport, row.uid)) =
      some ([192, 168, 1, 1], 8080, [8, 8, 8, 8], 53, 10001) := by decide +kernel

theorem length_hex2bytes {hex : Str} {n : Nat} (h : hex.length = 2 * n) : (hex2bytes hex).length = n := by
  induction n generalizing hex with
  | zero =>
    rw [List.length_eq_zero_iff.1 h]
    rfl
  | succ n ih =>
    match hex, h with
    | _ :: _ :: hex, h =>
      have hlen : hex.length = 2 * n := by
        simp only [List.length_cons] at h
        omega
      rw [hex2bytes, List.length_cons, ih hlen]

theorem length_htonlWords (bytes : Bytes) : (htonlWords bytes).length = bytes.length := by
  fun_induction htonlWords bytes with
  | case1 a b c d bytes ih => simp only [List.length_cons, ih]
  | case2 => rfl

/-- The addresses of a row have the length of the version. -/
theorem length_readRow {version : Nat} {line : Str} {row : UidRow} (h : readRow version line = some row) :
    row.saddr.length = wordCount version * 4 ∧ row.daddr.length = wordCount version * 4 := by
  unfold readRow at h
  split at h
  · cases h
  · split_ifs at h with hlen
    obtain rfl := Option.some.inj h
    constructor
    · rw [length_htonlWords]
      exact length_hex2bytes (by omega)
    · rw [length_htonlWords]
      exact length_hex2bytes (by omega)

theorem length_readRows {version : Nat} {lines : List Str} {row : UidRow} (h : row ∈ readRows version lines) :
    row.saddr.length = wordCount version * 4 ∧ row.daddr.length = wordCount version * 4 := by
  induction lines with
  | nil => cases h
  | cons line lines ih =>
    rw [readRows] at h
    split at h
    · cases h
    · rename_i first hfirst
      rcases List.mem_cons.1 h with rfl | h
      · exact length_readRow hfirst
      · exact ih h

/-! ## Files -/

inductive ProcFile
  | icmp | icmp6 | tcp | tcp6 | udp | udp6
  deriving DecidableEq

/-- `fn`, the file with the sockets of a protocol. -/
def procFile (version protocol : Nat) : Option ProcFile :=
  if protocol = IPPROTO_ICMP ∧ version = 4 then some .icmp
  else if protocol = IPPROTO_ICMPV6 ∧ version = 6 then some .icmp6
  else if protocol = IPPROTO_TCP then some (if version = 4 then .tcp else .tcp6)
  else if protocol = IPPROTO_UDP then some (if version = 4 then .udp else .udp6)
  else none

theorem protocol_lt_of_procFile {version protocol : Nat} {file : ProcFile} (h : procFile version protocol = some file) :
    protocol < 256 := by
  unfold procFile IPPROTO_ICMP IPPROTO_ICMPV6 IPPROTO_TCP IPPROTO_UDP at h
  split_ifs at h <;> omega

/-- The tables as the kernel shows them: the lines `fgets` gives, or none where `fopen` fails. -/
abbrev ProcTables := ProcFile → Option (List Str)

end SunProxy.Net
