/-
What `get_sni` finds in a well-formed client hello. Its index into the record is a `uint8_t`, and its
comparisons of the name's end with the end of the extensions are not strict where they should be: as long
as the index keeps its value, the name is found when another extension follows the server name. Where it
wraps, the lengths are read elsewhere, and what is found depends on the bytes there.
-/
import SunProxy.Net.NameAccess

namespace SunProxy.Net

open SunProxy.Buffer SunProxy.Result

/-! ## Client hellos -/

/-- An extension. The only kind of name there is in a server name list is the host name, and there is
at most one name of a kind, so that the list has one entry. -/
inductive Extension where
  | serverName (name : Bytes)
  | other (type : Nat) (data : Bytes)
deriving DecidableEq, Repr

namespace Extension

def WellFormed : Extension → Prop
  | .serverName name => 1 ≤ name.length
  | .other type _ => type ≠ TLS_EXTENSION_TYPE_SERVER_NAME ∧ type < 65536

instance : DecidablePred WellFormed
  | .serverName name => inferInstanceAs (Decidable (1 ≤ name.length))
  | .other type _ => inferInstanceAs (Decidable (type ≠ TLS_EXTENSION_TYPE_SERVER_NAME ∧ type < 65536))

def name? : Extension → Option Bytes
  | .serverName name => some name
  | .other .. => none

def bytes : Extension → Bytes
  | .serverName name =>
    be16 TLS_EXTENSION_TYPE_SERVER_NAME ++ (be16 (name.length + 5) ++ (be16 (name.length + 3) ++
      ([0] ++ (be16 name.length ++ name))))
  | .other type data => be16 type ++ (be16 data.length ++ data)

theorem four_le_length (e : Extension) : 4 ≤ e.bytes.length := by
  cases e <;> simp only [bytes, List.length_append, length_be16] <;> omega

end Extension

/-- Bytes that start as extensions of other types and then the server name `name`, with at least one byte
behind it. The lengths of the extension and of its list may be anything that fits. -/
inductive Carries (name : Bytes) : Bytes → Prop where
  | here {extLen sniLen : Nat} {rest : Bytes} (hrest : rest ≠ []) (hname : name.length ≤ 254)
      (hext : extLen ≤ 5 + name.length + rest.length) (hsni : sniLen < 3 + name.length + rest.length) :
    Carries name (be16 TLS_EXTENSION_TYPE_SERVER_NAME ++ (be16 extLen ++ (be16 sniLen ++
      ([0] ++ (be16 name.length ++ (name ++ rest))))))
  | there {type : Nat} {data rest : Bytes} (he : (Extension.other type data).WellFormed) (h : Carries name rest) :
    Carries name ((Extension.other type data).bytes ++ rest)

/-- A vector with a length of one byte, and one with a length of two. -/
def vec8 (b : Bytes) : Bytes := UInt8.ofNat b.length :: b

def vec16 (b : Bytes) : Bytes := be16 b.length ++ b

/-- A TLS record with a client hello, the payload of a TCP segment. -/
structure ClientHello where
  major : UInt8
  minor : UInt8
  version : Bytes
  random : Bytes
  sessionId : Bytes
  cipherSuites : Bytes
  compressionMethods : Bytes
  /-- The block of extensions may be missing. -/
  extensions : Option (List Extension)
  hmajor : 3 ≤ major.toNat
  hversion : version.length = 2
  hrandom : random.length = 32
  hsession : sessionId.length ≤ 255
  hcompression : compressionMethods.length ≤ 255
  wellFormed : ∀ e ∈ extensions.getD [], e.WellFormed
  size : 49 + sessionId.length + cipherSuites.length + compressionMethods.length +
    ((extensions.getD []).flatMap Extension.bytes).length < 65536

namespace ClientHello

def extensionBytes (h : ClientHello) : Bytes := (h.extensions.getD []).flatMap Extension.bytes

def tail (h : ClientHello) : Bytes := if h.extensions.isSome then vec16 h.extensionBytes else []

/-- The hello behind its header of four bytes. -/
def body (h : ClientHello) : Bytes :=
  h.version ++ (h.random ++ (vec8 h.sessionId ++ (vec16 h.cipherSuites ++ (vec8 h.compressionMethods ++ h.tail))))

/-- The record, with the length of the hello in three bytes. -/
def bytes (h : ClientHello) : Bytes :=
  [UInt8.ofNat TLS_HANDSHAKE_RECORD, h.major, h.minor] ++ (be16 (h.body.length + 4) ++
    ([UInt8.ofNat TLS_MESSAGE_CLIENTHELLO, 0] ++ (be16 h.body.length ++ h.body)))

/-- The host name the hello asks for, of 1 to 254 bytes. -/
def hostName (h : ClientHello) : Option Bytes :=
  ((h.extensions.getD []).findSome? Extension.name?).filter (·.length ≤ 254)

/-- Behind any bytes of a packet `get_sni` copies the host name, and returns 0 when there is none. -/
def NameFound (h : ClientHello) : Prop := ∀ pre, getSni (pre ++ h.bytes) pre.length h.bytes.length = .ok h.hostName

/-- The server name is the last extension. -/
def NameLast (h : ClientHello) : Prop :=
  ∃ es name, h.extensions.getD [] = es ++ [.serverName name] ∧ (∀ e ∈ es, e.name? = none) ∧ name.length ≤ 254

/-- A byte holds all offsets that are looked at: those of the lengths, and of the extensions if there are any. -/
def Unwrapped (h : ClientHello) : Prop :=
  47 + h.sessionId.length + h.cipherSuites.length + h.compressionMethods.length +
    (if h.extensions.getD [] = [] then 0 else 2) ≤ 255

instance : DecidablePred Unwrapped := fun _ => inferInstanceAs (Decidable (_ ≤ 255))

/-- The lengths that the record has where the offsets, counted modulo 256, lead: of the cipher suites, the
compression methods and a block of extensions that ends with the record. -/
structure Misread (h : ClientHello) (suitesLen : Nat) (compressionLen : UInt8) (edatalen : Nat) : Prop where
  suites : loadBe16 h.bytes ((44 + h.sessionId.length) % 256) = .ok suitesLen
  compression : load h.bytes ((46 + h.sessionId.length + suitesLen) % 256) = .ok compressionLen
  extensions : loadBe16 h.bytes ((47 + h.sessionId.length + suitesLen + compressionLen.toNat) % 256) = .ok edatalen
  some : edatalen ≠ 0
  rest : (49 + h.sessionId.length + suitesLen + compressionLen.toNat) % 256 + edatalen = h.bytes.length

/-- What the offsets modulo 256 lead to carries the server name `name`. -/
def MisreadName (h : ClientHello) (name : Bytes) : Prop :=
  ∃ suitesLen compressionLen edatalen, h.Misread suitesLen compressionLen edatalen ∧
    Carries name (h.bytes.drop ((49 + h.sessionId.length + suitesLen + compressionLen.toNat) % 256))

/-- What the offsets modulo 256 lead to carries the very host name, and none when the hello asks for none. -/
def MisreadRight (h : ClientHello) : Prop := ∀ name, h.hostName = some name ↔ h.MisreadName name

end ClientHello

/-! ## The extensions -/

/-- The name the loop over extensions stops at. -/
def foundName : List Extension → Option Bytes
  | [] => none
  | .serverName name :: es => if es = [] ∨ TLS_SNI_LENGTH ≤ name.length then none else some name
  | .other .. :: es => foundName es

theorem length_extensions_pos {es : List Extension} (h : es ≠ []) : 4 ≤ (es.flatMap Extension.bytes).length := by
  cases es with
  | nil => exact absurd rfl h
  | cons e es =>
    have := e.four_le_length
    rw [List.flatMap_cons, List.length_append]
    omega

theorem sniName_eq {A : Bytes} {name : Bytes} {es : List Extension} {edata edatalen eindex : Nat}
    (hA : A.length = edata + eindex) (hlen : edatalen = eindex + 5 + name.length + (es.flatMap Extension.bytes).length)
    (hsize : edatalen < 65536) :
    sniName (A ++ (be16 (name.length + 3) ++ ([0] ++ (be16 name.length ++ (name ++ es.flatMap Extension.bytes))))) edata
      edatalen eindex = .ok (if es = [] ∨ TLS_SNI_LENGTH ≤ name.length then none else some name) := by
  -- the four reads: the length of the list, the type, the length of the name, the name
  have hlist := loadBe16_append A ([0] ++ (be16 name.length ++ (name ++ es.flatMap Extension.bytes)))
    (n := name.length + 3) hA.symm (by omega)
  have htype := load_append (A ++ be16 (name.length + 3)) (be16 name.length ++ (name ++ es.flatMap Extension.bytes))
    (b := 0) (i := edata + (eindex + 2)) (by simp only [List.length_append, length_be16]; omega)
  have hname := loadBe16_append (A ++ be16 (name.length + 3) ++ [0]) (name ++ es.flatMap Extension.bytes)
    (n := name.length) (i := edata + (eindex + 2 + 1))
    (by simp only [List.length_append, length_be16, List.length_singleton]; omega) (by omega)
  have hcopy := loadBytes_append (A ++ be16 (name.length + 3) ++ [0] ++ be16 name.length) (es.flatMap Extension.bytes)
    (i := edata + (eindex + 2 + 1 + 2)) (n := name.length)
    (by simp only [List.length_append, length_be16, List.length_singleton]; omega) rfl
  simp only [List.append_assoc] at htype hname hcopy
  have h2 : (eindex + 2) % 65536 = eindex + 2 := Nat.mod_eq_of_lt (by omega)
  have h3 : (eindex + 2 + 1) % 65536 = eindex + 2 + 1 := Nat.mod_eq_of_lt (by omega)
  have h5 : (eindex + 2 + 1 + 2) % 65536 = eindex + 2 + 1 + 2 := Nat.mod_eq_of_lt (by omega)
  unfold sniName
  rw [if_neg (by omega), hlist]
  simp only [bind, Except.bind, h2]
  by_cases hes : es = []
  · -- the end of the list is the end of the extensions
    subst hes
    rw [if_pos (by simp only [List.flatMap_nil, List.length_nil] at hlen; omega)]
    rfl
  · have hmore := length_extensions_pos hes
    rw [if_neg (by omega), if_neg (by omega)]
    simp only [List.singleton_append] at htype hname hcopy ⊢
    simp only [htype, h3, ne_eq, not_true_eq_false, if_false]
    rw [if_neg (by omega), hname]
    simp only [h5]
    rw [if_neg (by omega)]
    by_cases hlong : TLS_SNI_LENGTH ≤ name.length
    · rw [if_pos hlong, if_pos (.inr hlong)]
      rfl
    · rw [if_neg hlong, if_neg (by simp [hes, hlong]), hcopy]
      rfl

/-- The header of an extension of the given type and length. -/
theorem sniExtensions_header {A rest : Bytes} {type len edata edatalen eindex fuel : Nat}
    (hA : A.length = edata + eindex) (htype : type < 65536) (hlen : eindex + 4 + len ≤ edatalen)
    (hsize : edatalen < 65536) :
    sniExtensions (A ++ (be16 type ++ (be16 len ++ rest))) edata edatalen (fuel + 1) eindex =
      if type = TLS_EXTENSION_TYPE_SERVER_NAME then
        sniName (A ++ (be16 type ++ (be16 len ++ rest))) edata edatalen (eindex + 4)
      else sniExtensions (A ++ (be16 type ++ (be16 len ++ rest))) edata edatalen fuel (eindex + 4 + len) := by
  have hext := loadBe16_append A (be16 len ++ rest) hA.symm htype
  have hextLen := loadBe16_append (A ++ be16 type) rest (n := len) (i := edata + (eindex + 2))
    (by simp only [List.length_append, length_be16]; omega) (by omega)
  rw [List.append_assoc] at hextLen
  have h2 : (eindex + 2) % 65536 = eindex + 2 := Nat.mod_eq_of_lt (by omega)
  have h4 : (eindex + 2 + 2) % 65536 = eindex + 4 := Nat.mod_eq_of_lt (by omega)
  have hnext : (eindex + 4 + len) % 65536 = eindex + 4 + len := Nat.mod_eq_of_lt (by omega)
  conv_lhs => unfold sniExtensions
  rw [if_neg (by omega), if_neg (by omega), hext]
  simp only [bind, Except.bind, h2]
  rw [if_neg (by omega), hextLen]
  simp only [h4, hnext]
  rw [if_neg (by omega)]

theorem sniExtensions_eq {es : List Extension} (hes : ∀ e ∈ es, e.WellFormed) {A : Bytes}
    {edata edatalen eindex fuel : Nat} (hA : A.length = edata + eindex)
    (hlen : edatalen = eindex + (es.flatMap Extension.bytes).length) (hsize : edatalen < 65536)
    (hfuel : (es.flatMap Extension.bytes).length ≤ fuel) :
    sniExtensions (A ++ es.flatMap Extension.bytes) edata edatalen fuel eindex = .ok (foundName es) := by
  induction es generalizing A eindex fuel with
  | nil =>
    have hend : edatalen ≤ eindex := by simp [hlen]
    cases fuel with
    | zero => exact if_pos hend
    | succ fuel => simp only [sniExtensions, hend, if_true, foundName, pure, Except.pure]
  | cons e es ih =>
    have hfour := e.four_le_length
    have hcons : ((e :: es).flatMap Extension.bytes) = e.bytes ++ es.flatMap Extension.bytes := List.flatMap_cons
    rw [hcons] at hlen hfuel ⊢
    rw [List.length_append] at hlen hfuel
    obtain ⟨fuel, rfl⟩ := Nat.exists_eq_add_one_of_ne_zero (show fuel ≠ 0 by omega)
    cases e with
    | serverName name =>
      simp only [Extension.bytes, List.append_assoc, List.length_append, length_be16, List.length_singleton] at hlen ⊢
      rw [sniExtensions_header hA (by decide) (by omega) hsize, if_pos rfl, ← List.append_assoc, ← List.append_assoc]
      exact sniName_eq (by simp only [List.length_append, length_be16]; omega) (by omega) hsize
    | other type data =>
      obtain ⟨hne, htype⟩ := hes _ (List.mem_cons_self ..)
      simp only [Extension.bytes, List.append_assoc, List.length_append, length_be16] at hlen hfuel ⊢
      rw [sniExtensions_header hA htype (by omega) hsize, if_neg hne, ← List.append_assoc, ← List.append_assoc,
        ← List.append_assoc]
      exact ih (fun e he => hes e (List.mem_cons_of_mem _ he)) (by simp only [List.length_append, length_be16]; omega)
        (by omega) (by omega)

/-! ## Extensions anywhere in a buffer -/

section Shift

variable (pre : Bytes) {data : Bytes} {edatalen eindex : Nat}

theorem sniName_shift (hlen : data.length = edatalen) (hsize : edatalen < 65536) :
    sniName (pre ++ data) pre.length edatalen eindex = sniName data 0 edatalen eindex := by
  unfold sniName
  simp only [Nat.zero_add]
  split
  · rfl
  · rw [loadBe16_shift pre (by omega)]
    obtain ⟨sniLen, hsniLen, -⟩ := returns_loadBe16 (show eindex + 1 < data.length by omega)
    have h2 : (eindex + 2) % 65536 = eindex + 2 := Nat.mod_eq_of_lt (by omega)
    simp only [hsniLen, bind, Except.bind, h2]
    split
    · rfl
    · split
      · rfl
      · rw [load_shift pre (by omega)]
        obtain ⟨sniType, hsniType, -⟩ := returns_load (show eindex + 2 < data.length by omega)
        have h3 : (eindex + 2 + 1) % 65536 = eindex + 2 + 1 := Nat.mod_eq_of_lt (by omega)
        simp only [hsniType, h3]
        split
        · rfl
        · split
          · rfl
          · rw [loadBe16_shift pre (by omega)]
            obtain ⟨nameLen, hnameLen, -⟩ := returns_loadBe16 (show eindex + 2 + 1 + 1 < data.length by omega)
            have h5 : (eindex + 2 + 1 + 2) % 65536 = eindex + 2 + 1 + 2 := Nat.mod_eq_of_lt (by omega)
            simp only [hnameLen, h5]
            split
            · rfl
            · split
              · rfl
              · rw [loadBytes_shift pre (by omega)]

theorem sniExtensions_shift (hlen : data.length = edatalen) (hsize : edatalen < 65536) (fuel : Nat) :
    sniExtensions (pre ++ data) pre.length edatalen fuel eindex = sniExtensions data 0 edatalen fuel eindex := by
  induction fuel generalizing eindex with
  | zero => rfl
  | succ fuel ih =>
    unfold sniExtensions
    simp only [Nat.zero_add]
    split
    · rfl
    · split
      · rfl
      · rw [loadBe16_shift pre (by omega)]
        obtain ⟨extType, hextType, -⟩ := returns_loadBe16 (show eindex + 1 < data.length by omega)
        have h2 : (eindex + 2) % 65536 = eindex + 2 := Nat.mod_eq_of_lt (by omega)
        simp only [hextType, bind, Except.bind, h2]
        split
        · rfl
        · rw [loadBe16_shift pre (by omega)]
          obtain ⟨extLen, hextLen, -⟩ := returns_loadBe16 (show eindex + 2 + 1 < data.length by omega)
          simp only [hextLen]
          split
          · rfl
          · split
            · exact sniName_shift pre hlen hsize
            · exact ih

end Shift

/-! ## Bytes taken for extensions -/

section Walk

variable {data name : Bytes} {fuel i : Nat}

theorem sniName_sound (hsize : data.length < 65536) (h : sniName data 0 data.length i = .ok (some name)) :
    ∃ sniLen rest, data.drop i = be16 sniLen ++ ([0] ++ (be16 name.length ++ (name ++ rest))) ∧ rest ≠ [] ∧
      name.length ≤ 254 ∧ sniLen < 3 + name.length + rest.length := by
  unfold sniName at h
  simp only [Nat.zero_add] at h
  split at h
  · cases h
  obtain ⟨sniLen, hsniLen, h⟩ := bind_eq_ok h
  simp only [Nat.mod_eq_of_lt (show i + 2 < 65536 by omega)] at h
  split at h
  · cases h
  split at h
  · cases h
  obtain ⟨sniType, hsniType, h⟩ := bind_eq_ok h
  simp only [Nat.mod_eq_of_lt (show i + 2 + 1 < 65536 by omega)] at h
  split at h
  · cases h
  rename_i hzero
  split at h
  · cases h
  obtain ⟨nameLen, hnameLen, h⟩ := bind_eq_ok h
  simp only [Nat.mod_eq_of_lt (show i + 2 + 1 + 2 < 65536 by omega)] at h
  split at h
  · cases h
  split at h
  · cases h
  rename_i hend hshort
  obtain ⟨name', hname, h⟩ := bind_eq_ok h
  cases h
  rw [not_not] at hzero
  subst hzero
  have hlen := length_of_loadBytes hname
  subst hlen
  -- what was read stands one after another, and something is left
  refine ⟨sniLen, data.drop (i + 2 + 1 + 2 + name.length), ?_, ?_, ?_, ?_⟩
  · rw [drop_of_loadBe16 hsniLen, drop_of_load hsniType, drop_of_loadBe16 hnameLen, drop_of_loadBytes hname]
    rfl
  · rw [Ne, List.drop_eq_nil_iff]
    omega
  · exact Nat.le_of_lt_succ (Nat.lt_of_not_le hshort)
  · rw [List.length_drop]
    omega

theorem sniName_complete {sniLen : Nat} {rest : Bytes} (hsize : data.length < 65536)
    (h : data.drop i = be16 sniLen ++ ([0] ++ (be16 name.length ++ (name ++ rest)))) (hrest : rest ≠ [])
    (hname : name.length ≤ 254) (hsni : sniLen < 3 + name.length + rest.length) :
    sniName data 0 data.length i = .ok (some name) := by
  have hlen : data.length = i + (5 + name.length + rest.length) := by
    have := congrArg List.length h
    simp only [List.length_drop, List.length_append, length_be16, List.length_singleton] at this
    omega
  have hpos := List.length_pos_of_ne_nil hrest
  have h2 : data.drop (i + 2) = 0 :: (be16 name.length ++ (name ++ rest)) := by
    rw [← List.drop_drop, h]
    rfl
  have h3 : data.drop (i + 2 + 1) = be16 name.length ++ (name ++ rest) := by
    rw [← List.drop_drop, h2]
    rfl
  have h5 : data.drop (i + 2 + 1 + 2) = name ++ rest := by
    rw [← List.drop_drop, h3]
    rfl
  unfold sniName
  simp only [Nat.zero_add]
  rw [if_neg (by omega), loadBe16_of_drop (by omega) h]
  simp only [bind, Except.bind, Nat.mod_eq_of_lt (show i + 2 < 65536 by omega)]
  rw [if_neg (by omega), if_neg (by omega), load_of_drop h2]
  simp only [Nat.mod_eq_of_lt (show i + 2 + 1 < 65536 by omega), ne_eq, not_true_eq_false, if_false]
  rw [if_neg (by omega), loadBe16_of_drop (by omega) h3]
  simp only [Nat.mod_eq_of_lt (show i + 2 + 1 + 2 < 65536 by omega)]
  rw [if_neg (by omega), if_neg (show ¬TLS_SNI_LENGTH ≤ name.length from Nat.not_le.2 (Nat.lt_succ_of_le hname)),
    loadBytes_of_drop (by omega) h5]
  rfl

/-- A name is found in bytes that carry it, and in no others. -/
theorem carries_of_sniExtensions (hsize : data.length < 65536)
    (h : sniExtensions data 0 data.length fuel i = .ok (some name)) : Carries name (data.drop i) := by
  induction fuel generalizing i with
  | zero =>
    unfold sniExtensions at h
    split at h <;> cases h
  | succ fuel ih =>
    unfold sniExtensions at h
    simp only [Nat.zero_add] at h
    split at h
    · cases h
    split at h
    · cases h
    obtain ⟨extType, hextType, h⟩ := bind_eq_ok h
    simp only [Nat.mod_eq_of_lt (show i + 2 < 65536 by omega)] at h
    split at h
    · cases h
    obtain ⟨extLen, hextLen, h⟩ := bind_eq_ok h
    simp only [Nat.mod_eq_of_lt (show i + 2 + 2 < 65536 by omega)] at h
    split at h
    · cases h
    rename_i hinside
    have hdrop : data.drop i = be16 extType ++ (be16 extLen ++ data.drop (i + 2 + 2)) := by
      rw [drop_of_loadBe16 hextType, drop_of_loadBe16 hextLen]
    split at h
    -- the server name ends the loop
    · rename_i htype
      obtain ⟨sniLen, rest, hname, hrest, hshort, hsni⟩ := sniName_sound hsize h
      have hlen : data.length = i + 2 + 2 + (5 + name.length + rest.length) := by
        have := congrArg List.length hname
        simp only [List.length_drop, List.length_append, length_be16, List.length_singleton] at this
        omega
      rw [hdrop, hname, htype]
      exact .here hrest hshort (by omega) hsni
    -- any other extension is skipped, with the length that was read
    · rename_i htype
      have hnext := ih (i := i + 2 + 2 + extLen)
        (by rwa [Nat.mod_eq_of_lt (show i + 2 + 2 + extLen < 65536 by omega)] at h)
      have hlen : ((data.drop (i + 2 + 2)).take extLen).length = extLen := by
        rw [List.length_take, List.length_drop]
        omega
      have hbytes : data.drop i =
          (Extension.other extType ((data.drop (i + 2 + 2)).take extLen)).bytes ++ data.drop (i + 2 + 2 + extLen) := by
        rw [hdrop, Extension.bytes, hlen, List.append_assoc, List.append_assoc, ← List.drop_drop (i := extLen),
          List.take_append_drop]
      rw [hbytes]
      exact .there ⟨htype, lt_of_loadBe16 hextType⟩ hnext

theorem sniExtensions_of_carries (hsize : data.length < 65536) (hfuel : data.length ≤ i + fuel)
    (h : Carries name (data.drop i)) : sniExtensions data 0 data.length fuel i = .ok (some name) := by
  generalize hbs : data.drop i = bs at h
  induction h generalizing i fuel with
  | @here extLen sniLen rest hrest hname hext hsni =>
    have hlen := congrArg List.length hbs
    simp only [List.length_drop, List.length_append, length_be16, List.length_singleton] at hlen
    obtain ⟨fuel, rfl⟩ := Nat.exists_eq_add_one_of_ne_zero (show fuel ≠ 0 by omega)
    have hsplit : data = data.take i ++ data.drop i := (List.take_append_drop i data).symm
    have htake : (data.take i).length = 0 + i := by rw [List.length_take]; omega
    have hheader : sniExtensions (data.take i ++ (be16 TLS_EXTENSION_TYPE_SERVER_NAME ++ (be16 extLen ++ (be16 sniLen ++
        ([0] ++ (be16 name.length ++ (name ++ rest))))))) 0 data.length (fuel + 1) i = _ :=
      sniExtensions_header htake (by decide) (by omega) hsize
    rw [← hbs, ← hsplit, if_pos rfl] at hheader
    rw [hheader]
    refine sniName_complete hsize ?_ hrest hname hsni
    rw [← List.drop_drop, hbs]
    rfl
  -- another extension takes one round
  | @there type content rest he h ih =>
    simp only [Extension.bytes, List.append_assoc] at hbs
    have hlen := congrArg List.length hbs
    simp only [List.length_drop, List.length_append, length_be16] at hlen
    obtain ⟨fuel, rfl⟩ := Nat.exists_eq_add_one_of_ne_zero (show fuel ≠ 0 by omega)
    have hsplit : data = data.take i ++ data.drop i := (List.take_append_drop i data).symm
    have htake : (data.take i).length = 0 + i := by rw [List.length_take]; omega
    have hheader : sniExtensions (data.take i ++ (be16 type ++ (be16 content.length ++ (content ++ rest)))) 0
        data.length (fuel + 1) i = _ :=
      sniExtensions_header htake he.2 (by omega) hsize
    rw [← hbs, ← hsplit, if_neg he.1] at hheader
    rw [hheader]
    refine ih (by omega) ?_
    have hcontent : data.drop (i + 4) = content ++ rest := by
      rw [← List.drop_drop, hbs]
      rfl
    rw [← List.drop_drop, hcontent]
    exact List.drop_left

end Walk
/-! ## The fields before the extensions -/

theorem load_vec8 (A b rest : Bytes) {i : Nat} (hi : i = A.length) :
    load (A ++ (vec8 b ++ rest)) i = .ok (UInt8.ofNat b.length) := load_append A (b ++ rest) hi

theorem loadBe16_vec16 (A b rest : Bytes) {i : Nat} (hi : i = A.length) (hb : b.length < 65536) :
    loadBe16 (A ++ (vec16 b ++ rest)) i = .ok b.length := by
  rw [vec16, List.append_assoc]
  exact loadBe16_append A (b ++ rest) hi hb

@[simp] theorem length_vec8 (b : Bytes) : (vec8 b).length = b.length + 1 := rfl

@[simp] theorem length_vec16 (b : Bytes) : (vec16 b).length = b.length + 2 := by
  rw [vec16, List.length_append, length_be16]
  omega

theorem toNat_ofNat_length {b : Bytes} (h : b.length ≤ 255) : (UInt8.ofNat b.length).toNat = b.length := by
  rw [UInt8.toNat_ofNat']
  omega

namespace ClientHello

variable (h : ClientHello)

/-- The fields of fixed length that start the record. -/
def front : Bytes :=
  [UInt8.ofNat TLS_HANDSHAKE_RECORD, h.major, h.minor] ++ (be16 (h.body.length + 4) ++
    ([UInt8.ofNat TLS_MESSAGE_CLIENTHELLO, 0] ++ (be16 h.body.length ++ (h.version ++ h.random))))

theorem bytes_eq : h.bytes =
    h.front ++ (vec8 h.sessionId ++ (vec16 h.cipherSuites ++ (vec8 h.compressionMethods ++ h.tail))) := by
  simp only [bytes, front, body, List.append_assoc]

theorem length_front : h.front.length = 43 := by
  simp only [front, List.length_append, List.length_cons, List.length_nil, length_be16, h.hversion, h.hrandom]

theorem length_tail : h.tail.length = if h.extensions.isSome then h.extensionBytes.length + 2 else 0 := by
  unfold tail
  split
  · exact length_vec16 _
  · rfl

theorem length_bytes : h.bytes.length = 47 + h.sessionId.length + h.cipherSuites.length + h.compressionMethods.length +
    h.tail.length := by
  rw [bytes_eq]
  simp only [List.length_append, length_front, length_vec8, length_vec16]
  omega

theorem length_body : h.body.length + 9 = h.bytes.length := by
  simp only [bytes, List.length_append, List.length_cons, List.length_nil, length_be16]
  omega

theorem length_bytes_lt : h.bytes.length < 65536 := by
  have hsize := h.size
  rw [length_bytes, length_tail]
  unfold extensionBytes
  split <;> omega

/-- The checks of the record header pass. -/
theorem getSni_header (pre : Bytes) :
    load (pre ++ h.bytes) pre.length = .ok (UInt8.ofNat TLS_HANDSHAKE_RECORD) ∧
      load (pre ++ h.bytes) (pre.length + 1) = .ok h.major ∧ load (pre ++ h.bytes) (pre.length + 2) = .ok h.minor ∧
      loadBe16 (pre ++ h.bytes) (pre.length + 3) = .ok (h.body.length + 4) ∧
      load (pre ++ h.bytes) (pre.length + 5) = .ok (UInt8.ofNat TLS_MESSAGE_CLIENTHELLO) := by
  have hbody := h.length_body
  have hlt := h.length_bytes_lt
  refine ⟨load_append pre _ rfl, ?_, ?_, ?_, ?_⟩
  · have := load_append (pre ++ [UInt8.ofNat TLS_HANDSHAKE_RECORD]) (h.minor :: (be16 (h.body.length + 4) ++
      ([UInt8.ofNat TLS_MESSAGE_CLIENTHELLO, 0] ++ (be16 h.body.length ++ h.body)))) (b := h.major)
      (i := pre.length + 1) (by simp)
    rwa [List.append_assoc] at this
  · have := load_append (pre ++ [UInt8.ofNat TLS_HANDSHAKE_RECORD, h.major]) (be16 (h.body.length + 4) ++
      ([UInt8.ofNat TLS_MESSAGE_CLIENTHELLO, 0] ++ (be16 h.body.length ++ h.body))) (b := h.minor)
      (i := pre.length + 2) (by simp)
    rwa [List.append_assoc] at this
  · have := loadBe16_append (pre ++ [UInt8.ofNat TLS_HANDSHAKE_RECORD, h.major, h.minor])
      ([UInt8.ofNat TLS_MESSAGE_CLIENTHELLO, 0] ++ (be16 h.body.length ++ h.body)) (n := h.body.length + 4)
      (i := pre.length + 3) (by simp) (by omega)
    rwa [List.append_assoc] at this
  · have := load_append (pre ++ [UInt8.ofNat TLS_HANDSHAKE_RECORD, h.major, h.minor] ++ be16 (h.body.length + 4))
      (0 :: (be16 h.body.length ++ h.body)) (b := UInt8.ofNat TLS_MESSAGE_CLIENTHELLO) (i := pre.length + 5)
      (by simp)
    rwa [List.append_assoc, List.append_assoc] at this

/-- Past the checks of the record header the lengths are read, that of the session id where it is. -/
theorem getSni_session (pre : Bytes) : getSni (pre ++ h.bytes) pre.length h.bytes.length =
    (if h.bytes.length ≤ (44 + h.sessionId.length) % 256 + 1 then .ok none
    else do
      let suitesLen ← loadBe16 (pre ++ h.bytes) (pre.length + (44 + h.sessionId.length) % 256)
      let index := ((44 + h.sessionId.length) % 256 + 2 + suitesLen) % 256
      if h.bytes.length ≤ index then return none
      let compressionLen ← load (pre ++ h.bytes) (pre.length + index)
      let index := (index + 1 + compressionLen.toNat) % 256
      if h.bytes.length ≤ index + 1 then return none
      let edatalen ← loadBe16 (pre ++ h.bytes) (pre.length + index)
      let index := (index + 2) % 256
      if edatalen = 0 || index + edatalen ≠ h.bytes.length then return none
      sniExtensions (pre ++ h.bytes) (pre.length + index) edatalen edatalen 0) := by
  obtain ⟨hcontent, hmajor, hminor, hlength, hmessage⟩ := h.getSni_header pre
  have hbody := h.length_body
  have hlen := h.length_bytes
  have hdata : pre ++ h.bytes = (pre ++ h.front) ++
      (vec8 h.sessionId ++ (vec16 h.cipherSuites ++ (vec8 h.compressionMethods ++ h.tail))) := by
    rw [bytes_eq, List.append_assoc]
  have hsession : load (pre ++ h.bytes) (pre.length + 43) = .ok (UInt8.ofNat h.sessionId.length) := by
    rw [hdata]
    exact load_vec8 _ _ _ (by simp only [List.length_append, h.length_front])
  have i1 : (43 + 1 + h.sessionId.length) % 256 = (44 + h.sessionId.length) % 256 := rfl
  -- all checks of the record and the message pass
  have hok : (((UInt8.ofNat TLS_HANDSHAKE_RECORD).toNat ≠ TLS_HANDSHAKE_RECORD) || (h.major.toNat < 3 ||
      (5 + (h.body.length + 4) ≠ h.bytes.length ||
        (UInt8.ofNat TLS_MESSAGE_CLIENTHELLO).toNat ≠ TLS_MESSAGE_CLIENTHELLO))) = false := by
    have hmaj := h.hmajor
    simp only [Bool.or_eq_false_iff, decide_eq_false_iff_not, Nat.not_lt]
    exact ⟨by decide, hmaj, by omega, by decide⟩
  obtain ⟨version, hlogged, -⟩ := returns_loadBe16 (show pre.length + 9 + 1 < (pre ++ h.bytes).length by
    rw [List.length_append]
    omega)
  unfold getSni
  rw [if_neg (by omega), hcontent]
  simp only [bind, Except.bind, hmajor, hminor, hlength, hmessage]
  rw [if_neg (by simpa using hok), if_neg (by omega), hlogged, hsession]
  simp only [toNat_ofNat_length h.hsession, i1]
  rfl

/-- Where the index keeps its value, the extensions are walked. -/
theorem getSni_eq (hindex : h.Unwrapped) (pre : Bytes) :
    getSni (pre ++ h.bytes) pre.length h.bytes.length = .ok (foundName (h.extensions.getD [])) := by
  have hlen := h.length_bytes
  have htail := h.length_tail
  have hfront := h.length_front
  have hlt := h.length_bytes_lt
  unfold Unwrapped at hindex
  -- the record, split at each of the fields
  have hdata1 : pre ++ h.bytes = (pre ++ h.front) ++
      (vec8 h.sessionId ++ (vec16 h.cipherSuites ++ (vec8 h.compressionMethods ++ h.tail))) := by
    rw [bytes_eq, List.append_assoc]
  have hdata2 : pre ++ h.bytes = (pre ++ h.front ++ vec8 h.sessionId) ++
      (vec16 h.cipherSuites ++ (vec8 h.compressionMethods ++ h.tail)) := by
    rw [hdata1, List.append_assoc (pre ++ h.front)]
  have hdata3 : pre ++ h.bytes = (pre ++ h.front ++ vec8 h.sessionId ++ vec16 h.cipherSuites) ++
      (vec8 h.compressionMethods ++ h.tail) := by
    rw [hdata2, List.append_assoc (pre ++ h.front ++ vec8 h.sessionId)]
  have hdata4 : pre ++ h.bytes =
      (pre ++ h.front ++ vec8 h.sessionId ++ vec16 h.cipherSuites ++ vec8 h.compressionMethods) ++ h.tail := by
    rw [hdata3, List.append_assoc (pre ++ h.front ++ vec8 h.sessionId ++ vec16 h.cipherSuites)]
  have hsuites : loadBe16 (pre ++ h.bytes) (pre.length + (44 + h.sessionId.length)) = .ok h.cipherSuites.length := by
    rw [hdata2]
    exact loadBe16_vec16 _ _ _ (by simp only [List.length_append, length_vec8, hfront]; omega) (by omega)
  have hcompression : load (pre ++ h.bytes) (pre.length + (46 + h.sessionId.length + h.cipherSuites.length)) =
      .ok (UInt8.ofNat h.compressionMethods.length) := by
    rw [hdata3]
    exact load_vec8 _ _ _ (by simp only [List.length_append, length_vec8, length_vec16, hfront]; omega)
  have i1 : (44 + h.sessionId.length) % 256 = 44 + h.sessionId.length := by omega
  have i2 : (44 + h.sessionId.length + 2 + h.cipherSuites.length) % 256 =
      46 + h.sessionId.length + h.cipherSuites.length := by
    omega
  have i3 : (46 + h.sessionId.length + h.cipherSuites.length + 1 + h.compressionMethods.length) % 256 =
      47 + h.sessionId.length + h.cipherSuites.length + h.compressionMethods.length := by omega
  rw [h.getSni_session pre, i1]
  rw [if_neg (by omega), hsuites]
  simp only [bind, Except.bind, i2]
  rw [if_neg (by omega), hcompression]
  simp only [toNat_ofNat_length h.hcompression, i3]
  cases hext : h.extensions with
  | none =>
    rw [hext] at htail
    rw [if_pos (by simp only [Option.isSome_none, Bool.false_eq_true, if_false] at htail; omega)]
    rfl
  | some es =>
    have hbytes : h.extensionBytes = es.flatMap Extension.bytes := by rw [extensionBytes, hext]; rfl
    have htailEq : h.tail = vec16 (es.flatMap Extension.bytes) := by rw [tail, if_pos (by rw [hext]; rfl), hbytes]
    have hes : ∀ e ∈ es, e.WellFormed := by simpa [hext] using h.wellFormed
    rw [hext, hbytes] at htail
    simp only [Option.isSome_some, if_true] at htail
    have hedata : loadBe16 (pre ++ h.bytes)
        (pre.length + (47 + h.sessionId.length + h.cipherSuites.length + h.compressionMethods.length)) =
          .ok (es.flatMap Extension.bytes).length := by
      have := loadBe16_vec16 (pre ++ h.front ++ vec8 h.sessionId ++ vec16 h.cipherSuites ++ vec8 h.compressionMethods)
        (es.flatMap Extension.bytes) [] (i := pre.length + (47 + h.sessionId.length + h.cipherSuites.length +
          h.compressionMethods.length))
        (by simp only [List.length_append, length_vec8, length_vec16, hfront]; omega) (by omega)
      rwa [List.append_nil, ← htailEq, ← hdata4] at this
    rw [if_neg (by omega), hedata]
    by_cases hnil : es = []
    · subst hnil
      rfl
    · have hfour := length_extensions_pos hnil
      rw [hext, Option.getD_some, if_neg hnil] at hindex
      have i4 : (47 + h.sessionId.length + h.cipherSuites.length + h.compressionMethods.length + 2) % 256 =
          49 + h.sessionId.length + h.cipherSuites.length + h.compressionMethods.length := by omega
      simp only [i4]
      rw [if_neg (by simp only [Bool.or_eq_true, decide_eq_true_eq, not_or]; omega)]
      have hwhole : pre ++ h.bytes = (pre ++ h.front ++ vec8 h.sessionId ++ vec16 h.cipherSuites ++
          vec8 h.compressionMethods ++ be16 (es.flatMap Extension.bytes).length) ++ es.flatMap Extension.bytes := by
        rw [hdata4, htailEq]
        exact (List.append_assoc _ _ _).symm
      rw [hwhole]
      exact sniExtensions_eq hes
        (by simp only [List.length_append, length_vec8, length_vec16, length_be16, hfront]; omega) (by omega) (by omega)
        (Nat.le_refl _)

/-- Whatever the index comes to, the bytes at the places that it has then are read as lengths. -/
theorem getSni_cases (pre : Bytes) :
    ∃ found, getSni (pre ++ h.bytes) pre.length h.bytes.length = .ok found ∧
      ∀ name, found = some name ↔ h.MisreadName name := by
  have hlt := h.length_bytes_lt
  -- no name, as the lengths lead out of the record
  have hnone (hread : ∀ suitesLen compressionLen edatalen, ¬h.Misread suitesLen compressionLen edatalen) :
      ∃ found, (.ok none : Except Fault (Option Bytes)) = .ok found ∧ ∀ name, found = some name ↔ h.MisreadName name :=
    ⟨none, rfl, fun name => iff_of_false nofun fun ⟨suitesLen, compressionLen, edatalen, hmisread, _⟩ =>
      hread suitesLen compressionLen edatalen hmisread⟩
  rw [h.getSni_session pre]
  -- the lengths one after another, each read where the ones before lead
  by_cases hsuites : h.bytes.length ≤ (44 + h.sessionId.length) % 256 + 1
  · rw [if_pos hsuites]
    refine hnone fun suitesLen compressionLen edatalen hread => ?_
    have hinside := le_of_loadBe16 hread.suites
    omega
  obtain ⟨suitesLen, hsuitesLen, -⟩ := returns_loadBe16 (not_le.1 hsuites)
  rw [if_neg hsuites, loadBe16_shift pre (not_le.1 hsuites), hsuitesLen]
  have i2 : ((44 + h.sessionId.length) % 256 + 2 + suitesLen) % 256 = (46 + h.sessionId.length + suitesLen) % 256 := by
    omega
  simp only [bind, Except.bind, i2]
  by_cases hcompression : h.bytes.length ≤ (46 + h.sessionId.length + suitesLen) % 256
  · rw [if_pos hcompression]
    refine hnone fun suitesLen' compressionLen edatalen hread => ?_
    cases hsuitesLen.symm.trans hread.suites
    have hinside := load_lt_of_ok hread.compression
    omega
  obtain ⟨compressionLen, hcompressionLen, -⟩ := returns_load (not_le.1 hcompression)
  rw [if_neg hcompression, load_shift pre (not_le.1 hcompression), hcompressionLen]
  have i3 : ((46 + h.sessionId.length + suitesLen) % 256 + 1 + compressionLen.toNat) % 256 =
      (47 + h.sessionId.length + suitesLen + compressionLen.toNat) % 256 := by
    omega
  simp only [i3]
  by_cases hextensions : h.bytes.length ≤ (47 + h.sessionId.length + suitesLen + compressionLen.toNat) % 256 + 1
  · rw [if_pos hextensions]
    refine hnone fun suitesLen' compressionLen' edatalen hread => ?_
    cases hsuitesLen.symm.trans hread.suites
    cases hcompressionLen.symm.trans hread.compression
    have hinside := le_of_loadBe16 hread.extensions
    omega
  obtain ⟨edatalen, hedatalen, -⟩ := returns_loadBe16 (not_le.1 hextensions)
  rw [if_neg hextensions, loadBe16_shift pre (not_le.1 hextensions), hedatalen]
  have i4 : ((47 + h.sessionId.length + suitesLen + compressionLen.toNat) % 256 + 2) % 256 =
      (49 + h.sessionId.length + suitesLen + compressionLen.toNat) % 256 := by
    omega
  simp only [i4]
  by_cases hrest : edatalen = 0 ∨
      (49 + h.sessionId.length + suitesLen + compressionLen.toNat) % 256 + edatalen ≠ h.bytes.length
  · rw [if_pos (by simpa using hrest)]
    refine hnone fun suitesLen' compressionLen' edatalen' hread => ?_
    cases hsuitesLen.symm.trans hread.suites
    cases hcompressionLen.symm.trans hread.compression
    cases hedatalen.symm.trans hread.extensions
    rcases hrest with hempty | hne
    · exact hread.some hempty
    · exact hne hread.rest
  · rw [if_neg (by simpa using hrest)]
    rw [not_or, not_not] at hrest
    have hread : h.Misread suitesLen compressionLen edatalen :=
      ⟨hsuitesLen, hcompressionLen, hedatalen, hrest.1, hrest.2⟩
    generalize hindex : (49 + h.sessionId.length + suitesLen + compressionLen.toNat) % 256 = index at *
    have hlen : (h.bytes.drop index).length = edatalen := by
      rw [List.length_drop]
      omega
    have hshift : sniExtensions (pre ++ h.bytes) (pre.length + index) edatalen edatalen 0 =
        sniExtensions (h.bytes.drop index) 0 edatalen edatalen 0 := by
      have hsplit : pre ++ h.bytes = (pre ++ h.bytes.take index) ++ h.bytes.drop index := by
        rw [List.append_assoc, List.take_append_drop]
      have hstart : pre.length + index = (pre ++ h.bytes.take index).length := by
        rw [List.length_append, List.length_take]
        omega
      rw [hsplit, hstart]
      exact sniExtensions_shift _ hlen (by omega) edatalen
    obtain ⟨found, hfound⟩ : ∃ found, sniExtensions (h.bytes.drop index) 0 edatalen edatalen 0 = .ok found := by
      obtain ⟨found, hfound, -⟩ := returns_sniExtensions (show 0 + edatalen ≤ (h.bytes.drop index).length by omega)
        (by omega) edatalen (show edatalen ≤ 0 + edatalen by omega)
      exact ⟨found, hfound⟩
    refine ⟨found, hshift.trans hfound, fun name => ⟨fun hname => ?_, ?_⟩⟩
    · subst hname
      refine ⟨suitesLen, compressionLen, edatalen, hread, ?_⟩
      rw [hindex]
      exact carries_of_sniExtensions (i := 0) (by omega) (by rwa [hlen])
    · rintro ⟨suitesLen', compressionLen', edatalen', hread', hcarries⟩
      cases hread.suites.symm.trans hread'.suites
      cases hread.compression.symm.trans hread'.compression
      rw [hindex] at hcarries
      have hwalk : sniExtensions (h.bytes.drop index) 0 (h.bytes.drop index).length edatalen 0 = .ok (some name) :=
        sniExtensions_of_carries (by omega) (by omega) hcarries
      rw [hlen] at hwalk
      exact Except.ok.inj (hfound.symm.trans hwalk)

/-- What is found of a hello does not depend on what is in front of it. -/
theorem nameFound_iff_misreadRight : h.NameFound ↔ h.MisreadRight := by
  have hsame {found : Option Bytes} (hfound : ∀ name, found = some name ↔ h.MisreadName name) :
      found = h.hostName ↔ h.MisreadRight := by
    constructor
    · rintro rfl
      exact hfound
    · intro hright
      exact Option.ext fun name => (hfound name).trans (hright name).symm
  constructor
  · intro hname
    obtain ⟨found, hget, hfound⟩ := h.getSni_cases []
    exact (hsame hfound).1 (Except.ok.inj (hget.symm.trans (hname [])))
  · intro hright pre
    obtain ⟨found, hget, hfound⟩ := h.getSni_cases pre
    rw [hget, (hsame hfound).2 hright]

/-! ## Whether the name is found -/

theorem foundName_eq_iff {es : List Extension} : foundName es = (es.findSome? Extension.name?).filter (·.length ≤ 254) ↔
    ¬∃ es' name, es = es' ++ [.serverName name] ∧ (∀ e ∈ es', e.name? = none) ∧ name.length ≤ 254 := by
  induction es with
  | nil => exact iff_of_true rfl (by rintro ⟨es', name, hes, -⟩; simp at hes)
  | cons e es ih =>
    cases e with
    | other type data =>
      have hfind : ((Extension.other type data :: es).findSome? Extension.name?) = es.findSome? Extension.name? := rfl
      rw [foundName, hfind, ih, not_iff_not]
      constructor
      · rintro ⟨es', name, rfl, hnone, hlen⟩
        exact ⟨.other type data :: es', name, rfl, List.forall_mem_cons.2 ⟨rfl, hnone⟩, hlen⟩
      · rintro ⟨es', name, hes, hnone, hlen⟩
        cases es' with
        | nil => cases hes
        | cons e' es' =>
          obtain ⟨rfl, rfl⟩ := List.cons.inj hes
          exact ⟨es', name, rfl, (List.forall_mem_cons.1 hnone).2, hlen⟩
    | serverName name =>
      have hfind : ((Extension.serverName name :: es).findSome? Extension.name?) = some name := rfl
      -- a server name is lost exactly when nothing follows it
      have hlast : (∃ es' name', Extension.serverName name :: es = es' ++ [.serverName name'] ∧
          (∀ e ∈ es', e.name? = none) ∧ name'.length ≤ 254) ↔ es = [] ∧ name.length ≤ 254 := by
        constructor
        · rintro ⟨es', name', hes, hnone, hlen⟩
          cases es' with
          | nil =>
            cases hes
            exact ⟨rfl, hlen⟩
          | cons e' es' =>
            obtain ⟨rfl, -⟩ := List.cons.inj hes
            exact absurd (hnone _ (List.mem_cons_self ..)) (by simp [Extension.name?])
        · rintro ⟨rfl, hlen⟩
          exact ⟨[], name, rfl, by simp, hlen⟩
      rw [foundName, hfind, hlast]
      by_cases hlen : name.length ≤ 254
      · have hshort : ¬TLS_SNI_LENGTH ≤ name.length := Nat.not_le.2 (Nat.lt_succ_of_le hlen)
        by_cases hes : es = [] <;> simp [Option.filter, hes, hlen, hshort]
      · have hlong : TLS_SNI_LENGTH ≤ name.length := Nat.lt_of_not_le hlen
        simp [Option.filter, hlen, hlong]

/-- The name is found: as long as a byte holds all offsets, unless it is the last extension; and else where
what is read instead of the lengths leads to it. -/
theorem nameFound_iff : h.NameFound ↔ h.Unwrapped ∧ ¬h.NameLast ∨ ¬h.Unwrapped ∧ h.MisreadRight := by
  by_cases hindex : h.Unwrapped
  · have hfound : h.NameFound ↔ foundName (h.extensions.getD []) = h.hostName := by
      constructor
      · intro hname
        have := hname []
        rw [h.getSni_eq hindex []] at this
        exact Except.ok.inj this
      · intro heq pre
        rw [h.getSni_eq hindex pre, heq]
    simp only [hindex, not_true_eq_false, true_and, false_and, or_false]
    rw [hfound]
    exact foundName_eq_iff
  · simp only [hindex, not_false_eq_true, true_and, false_and, false_or]
    exact h.nameFound_iff_misreadRight

/-- A hello with `suites` cipher suites. -/
def withSuites (suites : Nat) (hsuites : suites ≤ 120) (es : List Extension) (hes : ∀ e ∈ es, e.WellFormed)
    (hlen : (es.flatMap Extension.bytes).length ≤ 100) : ClientHello where
  major := 3
  minor := 1
  version := [3, 3]
  random := List.replicate 32 7
  sessionId := []
  cipherSuites := List.replicate (2 * suites) 19
  compressionMethods := [0]
  extensions := some es
  hmajor := by decide
  hversion := rfl
  hrandom := rfl
  hsession := by decide
  hcompression := by decide
  wellFormed := hes
  size := by
    simp only [List.length_nil, List.length_replicate, List.length_singleton, Option.getD_some]
    omega

/-- The server name `a`, and then an extension without data, behind `suites` cipher suites. -/
def nameFirst (suites : Nat) (hsuites : suites ≤ 120) : ClientHello :=
  withSuites suites hsuites [.serverName [97], .other 23 []] (by decide) (by decide)

theorem not_nameLast_nameFirst (suites : Nat) (hsuites : suites ≤ 120) : ¬(nameFirst suites hsuites).NameLast := by
  rintro ⟨es, name, hes, -⟩
  have hlast := congrArg List.getLast? hes
  rw [List.getLast?_append] at hlast
  cases hlast

theorem nameFound_nameFirst : (nameFirst 1 (by decide)).NameFound :=
  (nameFound_iff (nameFirst 1 (by decide))).2 (.inl ⟨by decide, not_nameLast_nameFirst 1 (by decide)⟩)

/-- The server name `a` alone is not found, nor is it in front of another extension behind 120 cipher
suites. -/
theorem not_nameFound_last : ¬(withSuites 1 (by decide) [.serverName [97]] (by decide) (by decide)).NameFound ∧
    ¬(nameFirst 120 (by decide)).NameFound := by
  constructor
  · intro h
    have hfound := h []
    revert hfound
    decide +kernel
  · intro h
    have hfound := h []
    revert hfound
    decide +kernel

end ClientHello

end SunProxy.Net
