/-
The accesses of `get_qname` and `get_sni`: whatever the data holds, both return, having read inside the
data and written inside the 256 bytes they are given for a name.
-/
import SunProxy.Net.Dns
import SunProxy.Net.ServerName

namespace SunProxy.Net

open SunProxy.Buffer SunProxy.Result

variable {data pkt buf : Bytes}

/-! ## Names of DNS messages -/

/-- The place in the data is inside, and the name is one of the 256 bytes. -/
structure QnameState.Inside (data : Bytes) (s : QnameState) : Prop where
  ptr : s.ptr < data.length
  noff : s.noff < 256
  qname : s.qname.length = 256

/-- A round of the loop stops, or goes on from another place inside. -/
theorem returns_qnameLoop (hdata : data.length ≤ 65535) (left : Nat) {s : QnameState} (hs : s.Inside data) :
    Returns (fun s' => s'.noff < 256 ∧ s'.qname.length = 256) (qnameLoop data left s) := by
  induction left generalizing s with
  | zero => exact .ok ⟨hs.noff, hs.qname⟩
  | succ left ih =>
    unfold qnameLoop
    split
    · exact .ok ⟨hs.noff, hs.qname⟩
    · split
      · rename_i hpointer
        refine (returns_load hpointer.1).bind fun low _ => ?_
        dsimp only
        split
        · exact .ok ⟨hs.noff, hs.qname⟩
        · rename_i hjump
          -- the pointer leads anywhere inside, ahead or back
          refine (returns_load (Nat.lt_of_not_le hjump)).bind fun len _ => ?_
          exact ih ⟨Nat.lt_of_not_le hjump, hs.noff, hs.qname⟩
      · split
        · rename_i hlabel
          obtain ⟨hinside, hroom⟩ := hlabel
          refine (returns_loadBytes (Nat.le_of_lt hinside)).bind fun label hlen => ?_
          have hfits : s.noff + (label ++ [46]).length ≤ s.qname.length := by
            rw [List.length_append, hlen, hs.qname, List.length_singleton]
            unfold DNS_QNAME_MAX at hroom
            omega
          refine (returns_storeBytes hfits).bind fun qname hqname => ?_
          have hnext : (s.ptr + 1 + s.len.toNat) % 65536 < data.length := by
            rw [Nat.mod_eq_of_lt (by omega)]
            exact hinside
          have hnoff : (s.noff + s.len.toNat + 1) % 256 < 256 := Nat.mod_lt _ (by decide)
          dsimp only
          rw [if_neg (Nat.not_le_of_lt hnext)]
          refine (returns_load hnext).bind fun len _ => ?_
          exact ih ⟨hnext, hnoff, hqname.trans hs.qname⟩
        · exact .ok ⟨hs.noff, hs.qname⟩

/-- `get_qname` returns for all data, from every offset. -/
theorem getQname_inside {off : Nat} (hdata : data.length ≤ 65535) (hbuf : buf.length = 256) :
    ∃ next name, getQname data off buf = .ok (next, name) ∧ name.length = 256 := by
  have hreturns : Returns (fun r => r.2.length = 256) (getQname data off buf) := by
    unfold getQname
    have hstart : 0 + [(0 : UInt8)].length ≤ buf.length := by
      rw [hbuf]
      decide
    refine (returns_storeBytes hstart).bind fun qname hqname => ?_
    split
    · exact .ok (hqname.trans hbuf)
    · rename_i hoff
      refine (returns_load (Nat.lt_of_not_le hoff)).bind fun len _ => ?_
      refine (returns_qnameLoop hdata 26 ⟨Nat.lt_of_not_le hoff, Nat.succ_pos _, hqname.trans hbuf⟩).bind fun s hs => ?_
      split
      · exact .ok hs.2
      · -- the last dot becomes the end of the name
        have hlast : s.noff - 1 + [(0 : UInt8)].length ≤ s.qname.length := by
          rw [hs.2, List.length_singleton]
          omega
        refine (returns_storeBytes hlast).bind fun name hname => ?_
        exact .ok (hname.trans hs.2)
  obtain ⟨⟨next, name⟩, hrun, hlen⟩ := hreturns
  exact ⟨next, name, hrun, hlen⟩

/-- A pointer to itself. -/
theorem getQname_inside_selfPointer :
    ∃ next name, getQname [0xC0, 0] 0 nameBuffer = .ok (next, name) ∧ name.length = 256 :=
  getQname_inside (by decide) (List.length_replicate ..)

/-! ## Server names -/

/-- A server name that is found has at most 254 bytes. -/
theorem returns_sniName {edata edatalen eindex : Nat} (hinside : edata + edatalen ≤ pkt.length) :
    Returns (fun found => ∀ name ∈ found, name.length < 255) (sniName pkt edata edatalen eindex) := by
  unfold sniName
  split
  · exact .ok nofun
  · refine (returns_loadBe16 (by omega)).bind fun sniLen _ => ?_
    dsimp only
    split
    · exact .ok nofun
    · split
      · exact .ok nofun
      · refine (returns_load (by omega)).bind fun sniType _ => ?_
        split
        · exact .ok nofun
        · split
          · exact .ok nofun
          · refine (returns_loadBe16 (by omega)).bind fun nameLen _ => ?_
            split
            · exact .ok nofun
            · split
              · exact .ok nofun
              · rename_i hshort
                refine (returns_loadBytes (by omega)).bind fun name hname => ?_
                refine .ok fun name' hname' => ?_
                cases hname'
                rw [hname]
                exact Nat.lt_of_not_le hshort

/-- An extension takes at least four bytes, so that the loop ends before the fuel does. -/
theorem returns_sniExtensions {edata edatalen : Nat} (hinside : edata + edatalen ≤ pkt.length)
    (hsize : edatalen < 65536) (fuel : Nat) {eindex : Nat} (hfuel : edatalen ≤ eindex + fuel) :
    Returns (fun found => ∀ name ∈ found, name.length < 255) (sniExtensions pkt edata edatalen fuel eindex) := by
  induction fuel generalizing eindex with
  | zero =>
    unfold sniExtensions
    rw [if_pos (by simpa using hfuel)]
    exact .ok nofun
  | succ fuel ih =>
    unfold sniExtensions
    split
    · exact .ok nofun
    · split
      · exact .ok nofun
      · refine (returns_loadBe16 (by omega)).bind fun extType _ => ?_
        dsimp only
        split
        · exact .ok nofun
        · refine (returns_loadBe16 (by omega)).bind fun extLen _ => ?_
          split
          · exact .ok nofun
          · split
            · exact returns_sniName hinside
            · -- the index has passed the header and the data, and has not wrapped
              exact ih (by omega)

theorem returns_getSni {start datalen : Nat} (hinside : start + datalen ≤ pkt.length) :
    Returns (fun found => ∀ name ∈ found, name.length < 255) (getSni pkt start datalen) := by
  unfold getSni
  split
  · exact .ok nofun
  · refine (returns_load (by omega)).bind fun contentType _ => ?_
    refine (returns_load (by omega)).bind fun majorVersion _ => ?_
    refine (returns_load (by omega)).bind fun minorVersion _ => ?_
    refine (returns_loadBe16 (by omega)).bind fun contentLength _ => ?_
    refine (returns_load (by omega)).bind fun messageType _ => ?_
    dsimp only
    split
    · exact .ok nofun
    · split
      · exact .ok nofun
      · refine (returns_loadBe16 (by omega)).bind fun version _ => ?_
        refine (returns_load (by omega)).bind fun sessionLen _ => ?_
        split
        · exact .ok nofun
        · refine (returns_loadBe16 (by omega)).bind fun suitesLen _ => ?_
          split
          · exact .ok nofun
          · refine (returns_load (by omega)).bind fun compressionLen _ => ?_
            split
            · exact .ok nofun
            · refine (returns_loadBe16 (by omega)).bind fun edatalen hedatalen => ?_
              split
              · exact .ok nofun
              · rename_i hexact
                simp only [Bool.or_eq_true, decide_eq_true_eq, not_or, not_not] at hexact
                exact returns_sniExtensions (by omega) hedatalen edatalen (by omega)

/-- `get_sni` returns for all data, wherever it stands, and keeps to the 256 bytes of `server_name`. -/
theorem getSniTo_inside (pre data : Bytes) {serverName : Bytes} (hbuf : serverName.length = 256) :
    ∃ found name, getSniTo (pre ++ data) pre.length data.length serverName = .ok (found, name) ∧ name.length = 256 := by
  have hreturns : Returns (fun r => r.2.length = 256) (getSniTo (pre ++ data) pre.length data.length serverName) := by
    unfold getSniTo
    refine (returns_getSni (by rw [List.length_append])).bind fun found hfound => ?_
    cases found with
    | none => exact .ok hbuf
    | some name =>
      have hname := hfound name rfl
      refine (returns_storeBytes (by omega)).bind fun stored hstored => ?_
      refine (returns_storeBytes (by rw [List.length_singleton]; omega)).bind fun ended hended => ?_
      exact .ok (hended.trans (hstored.trans hbuf))
  obtain ⟨⟨found, name⟩, hrun, hlen⟩ := hreturns
  exact ⟨found, name, hrun, hlen⟩

/-- A hello that ends in the session id: its length makes the index wrap. -/
theorem getSniTo_inside_wrapping : ∃ found name,
    getSniTo ([] ++ ([22, 3, 1, 0, 39, 1] ++ List.replicate 37 0 ++ [255])) 0 44 nameBuffer = .ok (found, name) ∧
      name.length = 256 :=
  getSniTo_inside [] ([22, 3, 1, 0, 39, 1] ++ List.replicate 37 0 ++ [255]) (List.length_replicate ..)

end SunProxy.Net
