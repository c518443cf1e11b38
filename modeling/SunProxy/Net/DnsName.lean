/-
What `get_qname` reads from a name in wire form: the labels, each followed by a dot, with the last dot
made the terminating zero. It reads the same behind one compression pointer, but the pointer counts
as a round of its loop: 26 labels are read in place, and 25 behind a pointer.
-/
import SunProxy.Net.Dns

namespace SunProxy.Net

open SunProxy.Buffer SunProxy.Kotlin

/-! ## Names on the wire -/

/-- The uncompressed wire form of a name: each label after its length, then the root. -/
def wireName (labels : List Bytes) : Bytes := labels.flatMap (fun l => UInt8.ofNat l.length :: l) ++ [0]

/-- The labels as `get_qname` writes them. -/
def dots (labels : List Bytes) : Bytes := labels.flatMap (· ++ [46])

/-- The name as text: the labels joined by dots, as far as a C string holds them. -/
def nameText (labels : List Bytes) : Bytes := cString ([46].intercalate labels)

/-- The first byte of the wire form. -/
def wireHead : List Bytes → UInt8
  | [] => 0
  | l :: _ => UInt8.ofNat l.length

def Labels (labels : List Bytes) : Prop := ∀ l ∈ labels, 1 ≤ l.length ∧ l.length ≤ 63

theorem wireName_cons (l : Bytes) (ls : List Bytes) :
    wireName (l :: ls) = UInt8.ofNat l.length :: (l ++ wireName ls) := by
  simp [wireName]

theorem wireName_eq_head (labels : List Bytes) : ∃ tail, wireName labels = wireHead labels :: tail := by
  cases labels with
  | nil => exact ⟨[], rfl⟩
  | cons l ls => exact ⟨l ++ wireName ls, wireName_cons l ls⟩

theorem length_wireName (labels : List Bytes) : (wireName labels).length = (dots labels).length + 1 := by
  induction labels with
  | nil => rfl
  | cons l ls ih =>
    have hdots : dots (l :: ls) = l ++ 46 :: dots ls := by simp [dots]
    rw [wireName_cons, hdots]
    simp only [List.length_cons, List.length_append, ih]

theorem dots_eq {labels : List Bytes} (h : labels ≠ []) : dots labels = [46].intercalate labels ++ [46] := by
  induction labels with
  | nil => exact absurd rfl h
  | cons l ls ih =>
    cases ls with
    | nil => simp [dots]
    | cons l' ls =>
      have hrest := ih (by simp)
      have hcons : dots (l :: l' :: ls) = l ++ [46] ++ dots (l' :: ls) := by simp [dots]
      rw [hcons, hrest]
      simp [List.intercalate, List.intersperse]

theorem load_wireHead (pre rest : Bytes) (labels : List Bytes) :
    load (pre ++ (wireName labels ++ rest)) pre.length = .ok (wireHead labels) := by
  obtain ⟨tail, htail⟩ := wireName_eq_head labels
  rw [htail]
  exact load_append pre _ rfl

/-- The length byte of a label is neither the root nor a pointer. -/
theorem labelByte_spec : ∀ n < 64, 1 ≤ n →
    UInt8.ofNat n ≠ 0 ∧ UInt8.ofNat n &&& 0xC0 = 0 ∧ (UInt8.ofNat n).toNat = n := by decide

theorem length_nameBuffer : nameBuffer.length = 256 := List.length_replicate

/-! ## The loop over labels -/

theorem qnameLoop_root (data : Bytes) (left : Nat) {s : QnameState} (h : s.len = 0) :
    qnameLoop data left s = .ok s := by
  cases left with
  | zero => rfl
  | succ left => simp only [qnameLoop, h, if_true]

/-- The state after reading `labels`. -/
def afterLabels (s : QnameState) (labels : List Bytes) : QnameState :=
  { s with
    noff := s.noff + (dots labels).length, ptr := s.ptr + (dots labels).length, len := 0
    qname := overwrite s.qname s.noff (dots labels) }

theorem afterLabels_nil {s : QnameState} (h : s.len = 0) : afterLabels s [] = s := by
  cases s
  simp_all [afterLabels, dots, overwrite_nil]

/-- One round on a label. -/
theorem qnameLoop_label {l : Bytes} {ls : List Bytes} {pre rest : Bytes} {left : Nat} {s : QnameState}
    (hl : 1 ≤ l.length ∧ l.length ≤ 63) (hptr : s.ptr = pre.length) (hlen : s.len = wireHead (l :: ls))
    (hnoff : s.noff + l.length + 1 ≤ 255) (hbuf : s.qname.length = 256) (hpre : pre.length + l.length < 65535) :
    qnameLoop (pre ++ (wireName (l :: ls) ++ rest)) (left + 1) s =
      qnameLoop (pre ++ (wireName (l :: ls) ++ rest)) left
        { s with
          noff := s.noff + l.length + 1, ptr := s.ptr + 1 + l.length, len := wireHead ls
          qname := overwrite s.qname s.noff (l ++ [46]) } := by
  obtain ⟨hne, hmask, hnat⟩ := labelByte_spec l.length (by omega) hl.1
  have hdata : pre ++ (wireName (l :: ls) ++ rest) =
      (pre ++ [UInt8.ofNat l.length]) ++ (l ++ (wireName ls ++ rest)) := by
    rw [wireName_cons]
    simp
  have hlabel : loadBytes (pre ++ (wireName (l :: ls) ++ rest)) (s.ptr + 1) l.length = .ok l := by
    rw [hdata]
    exact loadBytes_append _ _ (by simp [hptr]) rfl
  have hnext : load (pre ++ (wireName (l :: ls) ++ rest)) (s.ptr + 1 + l.length) = .ok (wireHead ls) := by
    have h := load_wireHead ((pre ++ [UInt8.ofNat l.length]) ++ l) rest ls
    rw [hdata, hptr]
    have hplace : ((pre ++ [UInt8.ofNat l.length]) ++ l).length = pre.length + 1 + l.length := by
      simp only [List.length_append, List.length_cons, List.length_nil, Nat.zero_add]
    rw [hplace, List.append_assoc] at h
    exact h
  have hroom : s.ptr + 1 + l.length < (pre ++ (wireName (l :: ls) ++ rest)).length := by
    have h1 := length_wireName ls
    rw [hdata, hptr]
    simp only [List.length_append, List.length_cons, List.length_nil]
    omega
  have hstore : storeBytes s.qname s.noff (l ++ [46]) = .ok (overwrite s.qname s.noff (l ++ [46])) :=
    storeBytes_fits (by simp [hbuf]; omega)
  have hjump : (s.ptr + 1 + l.length) % 65536 = s.ptr + 1 + l.length := Nat.mod_eq_of_lt (by omega)
  have hwrap : (s.noff + l.length + 1) % 256 = s.noff + l.length + 1 := Nat.mod_eq_of_lt (by omega)
  have hmax : s.noff + l.length ≤ DNS_QNAME_MAX := by
    show s.noff + l.length ≤ 255
    omega
  have hlen' : s.len = UInt8.ofNat l.length := hlen
  conv_lhs => unfold qnameLoop
  simp only [hlen', hne, hmask, hnat, if_false, ne_eq, not_true_eq_false, and_false, hroom, hmax, and_self, if_true,
    hlabel, hstore, hjump, hwrap, Nat.not_le.mpr hroom, hnext, bind, Except.bind]

theorem qnameLoop_labels {labels : List Bytes} (hl : Labels labels) (pre rest : Bytes) (left : Nat) {s : QnameState}
    (hptr : s.ptr = pre.length) (hlen : s.len = wireHead labels) (hleft : labels.length ≤ left)
    (hnoff : s.noff + (dots labels).length ≤ 255) (hbuf : s.qname.length = 256)
    (hpre : pre.length + (dots labels).length < 65536) :
    qnameLoop (pre ++ (wireName labels ++ rest)) left s = .ok (afterLabels s labels) := by
  induction labels generalizing pre s left with
  | nil => rw [qnameLoop_root _ _ hlen, afterLabels_nil hlen]
  | cons l ls ih =>
    have hdots : dots (l :: ls) = l ++ 46 :: dots ls := by simp [dots]
    have hlength : (dots (l :: ls)).length = l.length + 1 + (dots ls).length := by
      rw [hdots]
      simp only [List.length_append, List.length_cons]
      omega
    rw [hlength] at hnoff hpre
    obtain ⟨left, rfl⟩ := Nat.exists_eq_add_one_of_ne_zero (show left ≠ 0 by simp at hleft; omega)
    rw [qnameLoop_label (hl l (by simp)) hptr hlen (by omega) hbuf (by omega)]
    have hdata : pre ++ (wireName (l :: ls) ++ rest) =
        (pre ++ UInt8.ofNat l.length :: l) ++ (wireName ls ++ rest) := by
      rw [wireName_cons]
      simp
    rw [hdata, ih (fun x hx => hl x (by simp [hx]))]
    -- the label with its dot and the rest of the name are one write
    · have hwrite : overwrite (overwrite s.qname s.noff (l ++ [46])) (s.noff + l.length + 1) (dots ls) =
          overwrite s.qname s.noff (dots (l :: ls)) := by
        have h := overwrite_overwrite (l ++ [46]) (dots ls) (show s.noff ≤ s.qname.length by omega)
        have hdots' : l ++ [46] ++ dots ls = dots (l :: ls) := by rw [hdots]; simp
        rw [hdots'] at h
        rw [← h]
        simp [Nat.add_assoc]
      simp only [afterLabels, hlength, hwrite, Except.ok.injEq, QnameState.mk.injEq, true_and, and_true]
      omega
    · simp [hptr]
      omega
    · rfl
    · simpa using hleft
    · show s.noff + l.length + 1 + (dots ls).length ≤ 255
      omega
    · exact (length_overwrite (by simp; omega)).trans hbuf
    · simp
      omega

/-! ## The whole name -/

/-- The last dot made a zero: the buffer then holds the name as text. -/
theorem storeBytes_lastDot {labels : List Bytes} (hne : labels ≠ []) (buf : Bytes)
    (h : (dots labels).length ≤ buf.length) :
    ∃ name, storeBytes (overwrite buf 0 (dots labels)) ((dots labels).length - 1) [0] = .ok name ∧
      cString name = nameText labels ∧ name.length = buf.length := by
  have hbuf : (overwrite buf 0 (dots labels)).length = buf.length := length_overwrite (by omega)
  have hdots := dots_eq hne
  have hlast : (dots labels).length = ([46].intercalate labels).length + 1 := by
    rw [hdots]
    simp
  refine ⟨_, storeBytes_fits ?_, ?_, ?_⟩
  · simp only [hbuf, List.length_cons, List.length_nil]
    omega
  · have hsplit : overwrite buf 0 (dots labels) =
        [46].intercalate labels ++ 46 :: buf.drop (dots labels).length := by
      simp [overwrite, hdots]
    rw [hsplit, hlast, Nat.add_sub_cancel, cString_overwrite]
    rfl
  · rw [length_overwrite, hbuf]
    simp only [hbuf, List.length_cons, List.length_nil]
    omega

/-- A name at `off`, as `get_qname` finishes reading it. -/
def ReadsName (data : Bytes) (off : Nat) (buf : Bytes) (labels : List Bytes) (next : Nat) : Prop :=
  ∃ name, getQname data off buf = .ok (some next, name) ∧ cString name = nameText labels ∧ name.length = 256

theorem length_dots_pos {labels : List Bytes} (h : labels ≠ []) : 0 < (dots labels).length := by
  rw [dots_eq h]
  simp

/-- What `get_qname` does once its loop has read the labels into a fresh buffer. -/
theorem readsName_of_loop {data buf : Bytes} {off : Nat} {len : UInt8} {labels : List Bytes} {s : QnameState}
    (hne : labels ≠ []) (hlen : (dots labels).length ≤ 254) (hbuf : buf.length = 256) (hoff : off < data.length)
    (hload : load data off = .ok len) (hnoff : s.noff = 0) (hq : s.qname = overwrite buf 0 [0])
    (hloop : qnameLoop data 26
      { c := false, off := off, noff := 0, ptr := off, len := len, qname := overwrite buf 0 [0] } =
        .ok (afterLabels s labels)) :
    ReadsName data off buf labels (if s.c then s.off else (s.ptr + (dots labels).length + 1) % 65536) := by
  have hfirst : storeBytes buf 0 [0] = .ok (overwrite buf 0 [0]) := storeBytes_fits (by simp; omega)
  have hfresh : (overwrite buf 0 [0]).length = 256 := (length_overwrite (by simp; omega)).trans hbuf
  obtain ⟨name, hname, htext, hlength⟩ := storeBytes_lastDot hne (overwrite buf 0 [0]) (by omega)
  have hpos := length_dots_pos hne
  refine ⟨name, ?_, htext, hlength.trans hfresh⟩
  unfold getQname
  simp only [hfirst, Nat.not_le.mpr hoff, if_false, hload, hloop, bind, Except.bind, afterLabels, hnoff, hq,
    Nat.zero_add, ne_eq, not_true_eq_false, false_or, Nat.ne_of_gt hpos, hname, pure, Except.pure]

/-- At most 26 labels are read where they stand. -/
theorem getQname_wire {labels : List Bytes} (hl : Labels labels) (hne : labels ≠ []) (h26 : labels.length ≤ 26)
    (hwire : (wireName labels).length ≤ 255) (pre rest : Bytes) (hpre : pre.length + 255 < 65536) {buf : Bytes}
    (hbuf : buf.length = 256) :
    ReadsName (pre ++ (wireName labels ++ rest)) pre.length buf labels (pre.length + (wireName labels).length) := by
  have hlen := length_wireName labels
  have hnext : pre.length + (wireName labels).length = (pre.length + (dots labels).length + 1) % 65536 := by omega
  have hfresh : (overwrite buf 0 [0]).length = 256 := (length_overwrite (by simp; omega)).trans hbuf
  have hloop := qnameLoop_labels hl pre rest 26
    (s := { c := false, off := pre.length, noff := 0, ptr := pre.length, len := wireHead labels,
            qname := overwrite buf 0 [0] }) rfl rfl h26 (by show 0 + _ ≤ _; omega) hfresh (by omega)
  rw [hnext]
  exact readsName_of_loop hne (by omega) hbuf (by simp; omega) (load_wireHead pre rest labels) rfl rfl hloop

/-- At most 25 labels are read behind a pointer, which is a round of the loop as well. -/
theorem getQname_pointer {labels : List Bytes} (hl : Labels labels) (hne : labels ≠ []) (h25 : labels.length ≤ 25)
    (hwire : (wireName labels).length ≤ 255) {data pre rest : Bytes} {off : Nat} {b0 b1 : UInt8}
    (hdata : data = pre ++ (wireName labels ++ rest)) (hpre : pre.length + 255 < 65536)
    (h0 : load data off = .ok b0) (h1 : load data (off + 1) = .ok b1) (hoff : off + 1 < data.length)
    (hmask : b0 &&& 0xC0 ≠ 0) (hjump : (b0 &&& 0x3F).toNat * 256 + b1.toNat = pre.length) {buf : Bytes}
    (hbuf : buf.length = 256) :
    ReadsName data off buf labels ((off + 2) % 65536) := by
  have hlen := length_wireName labels
  have hb0 : b0 ≠ 0 := by
    rintro rfl
    exact hmask (by decide)
  have hfresh : (overwrite buf 0 [0]).length = 256 := (length_overwrite (by simp; omega)).trans hbuf
  have htarget : ¬ data.length ≤ pre.length := by
    rw [hdata]
    simp only [List.length_append]
    omega
  have hhead : load data pre.length = .ok (wireHead labels) := by
    rw [hdata]
    exact load_wireHead pre rest labels
  have hround : qnameLoop data 26
      { c := false, off := off, noff := 0, ptr := off, len := b0, qname := overwrite buf 0 [0] } =
        qnameLoop data 25
          { c := true, off := (off + 2) % 65536, noff := 0, ptr := pre.length, len := wireHead labels,
            qname := overwrite buf 0 [0] } := by
    conv_lhs => unfold qnameLoop
    simp only [hb0, if_false, hoff, hmask, ne_eq, not_false_eq_true, and_self, if_true, h1, hjump, htarget, hhead, bind,
      Except.bind, Bool.false_eq_true]
  have hloop := qnameLoop_labels hl pre rest 25
    (s := { c := true, off := (off + 2) % 65536, noff := 0, ptr := pre.length, len := wireHead labels,
            qname := overwrite buf 0 [0] }) rfl rfl h25 (by show 0 + _ ≤ _; omega) hfresh (by omega)
  rw [← hdata] at hloop
  exact readsName_of_loop hne (by omega) hbuf (by omega) h0 rfl rfl (hround.trans hloop)

end SunProxy.Net
