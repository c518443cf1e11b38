/-
The text `inet_ntop` gives for an address, and which of these texts `Utils.isIpInRange` can read:
every IPv4 text, and every IPv6 text but the dotted ones and those in which `::` stands for just
the first or the last two groups. On the texts it reads, a range test compares the first bits.
-/
import SunProxy.Utils.Denotes

namespace SunProxy.Net

open SunProxy.Kotlin SunProxy.Seq SunProxy.Bits SunProxy.Utils

/-! ## Printing an address -/

def hexChar (n : Nat) : Char := if n < 10 then Char.ofNat (48 + n) else Char.ofNat (87 + n)

/-- `%x` of a 16-bit number. -/
def hexText (w : Nat) : Str :=
  if w < 16 then [hexChar w]
  else if w < 256 then [hexChar (w / 16), hexChar (w % 16)]
  else if w < 4096 then [hexChar (w / 256), hexChar (w / 16 % 16), hexChar (w % 16)]
  else [hexChar (w / 4096), hexChar (w / 256 % 16), hexChar (w / 16 % 16), hexChar (w % 16)]

/-- `%u` of a byte. -/
def decText (x : UInt8) : Str :=
  if x.toNat < 10 then [hexChar x.toNat]
  else if x.toNat < 100 then [hexChar (x.toNat / 10), hexChar (x.toNat % 10)]
  else [hexChar (x.toNat / 100), hexChar (x.toNat / 10 % 10), hexChar (x.toNat % 10)]

/-- `inet_ntop(AF_INET, b)` -/
def inetNtop4 (b : List UInt8) : Str := ['.'].intercalate (b.map decText)

/-- The 16-bit words of an address. -/
def words : List UInt8 → List Nat
  | hi :: lo :: b => (hi.toNat * 256 + lo.toNat) :: words b
  | _ => []

/-- The number of zero words from place `i` on. -/
def zerosAt (ws : List Nat) (i : Nat) : Nat := ((ws.drop i).takeWhile (· == 0)).length

/-- The place and length of the leftmost longest run of zero words. -/
def bestRun (ws : List Nat) : Nat × Nat :=
  (List.range ws.length).foldl (fun best i => if best.2 < zerosAt ws i then (i, zerosAt ws i) else best) (0, 0)

/-- The IPv4-compatible and IPv4-mapped addresses: their run of zeros is the first six words, or
the first five before `ffff`. -/
def isDotted (ws : List Nat) : Bool :=
  bestRun ws == (0, 6) || (bestRun ws == (0, 5) && ws[5]? == some 0xFFFF)

/-- `inet_ntop(AF_INET6, b)` -/
def inetNtop6 (b : List UInt8) : Str :=
  let ws := words b
  let (base, len) := bestRun ws
  if len < 2 then joinGroups (ws.map hexText)
  else if isDotted ws then
    "::".toList ++ joinGroups (((ws.drop len).take (6 - len)).map hexText ++ [inetNtop4 (b.drop 12)])
  else joinGroups ((ws.take base).map hexText) ++ ("::".toList ++ joinGroups ((ws.drop (base + len)).map hexText))

example : inetNtop6 ([0x20, 0x01] ++ List.replicate 13 0 ++ [1]) = "2001::1".toList := by decide

/-- `inet_ntop` of an address of either family. -/
def inetNtop (b : List UInt8) : Str := if b.length = 4 then inetNtop4 b else inetNtop6 b

/-! ## The digits of a number -/

theorem hexChar_spec : ∀ n < 16, isHexDigit (hexChar n) = true ∧ asciiDigit (hexChar n) = some n := by decide

theorem hexText_spec {w : Nat} (hw : w < 65536) : isGroup (hexText w) = true ∧ groupValue (hexText w) = w := by
  have h : ∀ n < 16, isHexDigit (hexChar n) = true := fun n hn => (hexChar_spec n hn).1
  have v : ∀ n < 16, asciiDigit (hexChar n) = some n := fun n hn => (hexChar_spec n hn).2
  unfold hexText
  split_ifs with h1 h2 h3
  · simp [isGroup, groupValue, digitsNat, h w h1, v w h1]
  · simp [isGroup, groupValue, digitsNat, h (w / 16) (by omega), h (w % 16) (by omega), v (w / 16) (by omega),
      v (w % 16) (by omega)]
    omega
  · simp [isGroup, groupValue, digitsNat, h (w / 256) (by omega), h (w / 16 % 16) (by omega), h (w % 16) (by omega),
      v (w / 256) (by omega), v (w / 16 % 16) (by omega), v (w % 16) (by omega)]
    omega
  · simp [isGroup, groupValue, digitsNat, h (w / 4096) (by omega), h (w / 256 % 16) (by omega),
      h (w / 16 % 16) (by omega), h (w % 16) (by omega), v (w / 4096) (by omega), v (w / 256 % 16) (by omega),
      v (w / 16 % 16) (by omega), v (w % 16) (by omega)]
    omega

theorem isDigit_hexChar {n : Nat} (h : n < 10) : IsDigit 10 (hexChar n) :=
  ⟨n, (hexChar_spec n (by omega)).2, h, (isDigit_of_hex (hexChar_spec n (by omega)).1).choose_spec.2.2⟩

theorem hexChar_ne_zero {n : Nat} (h0 : n ≠ 0) (h : n < 10) : hexChar n ≠ '0' := by
  intro he
  have := (hexChar_spec n (by omega)).2
  rw [he] at this
  exact h0 (Option.some.inj this).symm

theorem decText_spec (t : CharTables) (x : UInt8) :
    isValidIpv4Part t (decText x) = true ∧ toIntOrNull t 10 (decText x) = some (x.toNat : Int) := by
  have hx := x.toNat_lt
  have v : ∀ n < 10, asciiDigit (hexChar n) = some n := fun n hn => (hexChar_spec n (by omega)).2
  have hval : toIntOrNull t 10 (decText x) = some (x.toNat : Int) := by
    have hd : ∀ c ∈ decText x, IsDigit 10 c := by
      unfold decText
      split_ifs <;> simp only [List.mem_cons, List.not_mem_nil, or_false, forall_eq_or_imp, forall_eq]
      · exact isDigit_hexChar (by omega)
      · exact ⟨isDigit_hexChar (by omega), isDigit_hexChar (by omega)⟩
      · exact ⟨isDigit_hexChar (by omega), isDigit_hexChar (by omega), isDigit_hexChar (by omega)⟩
    have hv : digitsNat 10 (decText x) = x.toNat := by
      unfold decText digitsNat
      split_ifs
      · simp [v x.toNat (by omega)]
      · simp [v (x.toNat / 10) (by omega), v (x.toNat % 10) (by omega)]; omega
      · simp [v (x.toNat / 100) (by omega), v (x.toNat / 10 % 10) (by omega), v (x.toNat % 10) (by omega)]; omega
    have hne : decText x ≠ [] := by unfold decText; split_ifs <;> simp
    rw [toIntOrNull_digits hd hne (by omega), hv]
  refine ⟨?_, hval⟩
  have hshape : ((decText x).isEmpty || (3 < (decText x).length ||
      ((decText x).head? == some '0' && 1 < (decText x).length))) = false := by
    unfold decText
    split_ifs
    · simp
    · simp [hexChar_ne_zero (show x.toNat / 10 ≠ 0 by omega) (by omega)]
    · simp [hexChar_ne_zero (show x.toNat / 100 ≠ 0 by omega) (by omega)]
  rw [isValidIpv4Part, hshape, hval]
  simp
  omega

/-! ## IPv4 -/

/-- A printed IPv4 address is accepted, and writes the address. -/
theorem inetNtop4_spec (t : CharTables) {b : List UInt8} (hb : b.length = 4) :
    isValidIpv4 t (inetNtop4 b) = true ∧ Ipv4Denotes t (inetNtop4 b) b := by
  obtain ⟨w, x, y, z, rfl⟩ := List.length_eq_four.1 hb
  have hd : Ipv4Denotes t (inetNtop4 [w, x, y, z]) [w, x, y, z] :=
    .dotted (decText_spec t w).2 (decText_spec t x).2 (decText_spec t y).2 (decText_spec t z).2
  refine ⟨?_, hd⟩
  have hs : split '.' (inetNtop4 [w, x, y, z]) = [decText w, decText x, decText y, decText z] := by
    refine List.splitOn_intercalate '.' ?_ (by simp)
    simp only [List.map_cons, List.map_nil, List.mem_cons, List.not_mem_nil, or_false, forall_eq_or_imp, forall_eq]
    have hdot : ∀ x, '.' ∉ decText x := fun x =>
      notMem_number (decText_spec t x).2 (by decide) (by decide) (by decide) (by decide)
    exact ⟨hdot w, hdot x, hdot y, hdot z⟩
  rw [isValidIpv4, if_neg (by simp [inetNtop4, List.intercalate_cons_cons]), hs]
  simp [(decText_spec t _).1]

/-! ## IPv6 -/

theorem words_spec : ∀ {n : Nat} {b : List UInt8}, b.length = 2 * n →
    (words b).length = n ∧ (∀ w ∈ words b, w < 65536) ∧
      (words b).flatMap (fun w => [UInt8.ofNat (w / 256), UInt8.ofNat (w % 256)]) = b
  | 0, b, h => by
    obtain rfl : b = [] := by simpa using h
    simp [words]
  | n + 1, b, h => by
    obtain ⟨hi, lo, b, rfl⟩ : ∃ hi lo b', b = hi :: lo :: b' := by
      rcases b with _ | ⟨x, _ | ⟨y, b⟩⟩ <;> simp at h
      · omega
      · exact ⟨x, y, b, rfl⟩
    obtain ⟨h1, h2, h3⟩ := words_spec (n := n) (b := b) (by simp at h; omega)
    have hh := hi.toNat_lt
    have hl := lo.toNat_lt
    refine ⟨by simp [words, h1], ?_, ?_⟩
    · simp only [words, List.mem_cons, forall_eq_or_imp]
      exact ⟨by omega, h2⟩
    · have e1 : (hi.toNat * 256 + lo.toNat) / 256 = hi.toNat := by omega
      have e2 : (hi.toNat * 256 + lo.toNat) % 256 = lo.toNat := by omega
      simp only [words, List.flatMap_cons, h3, e1, e2, UInt8.ofNat_toNat, List.cons_append, List.nil_append]

/-- The words of a best run are zeros. -/
theorem bestRun_spec {ws : List Nat} {base len : Nat} (h : bestRun ws = (base, len)) (h0 : 0 < len) :
    base + len ≤ ws.length ∧ ws = ws.take base ++ (List.replicate len 0 ++ ws.drop (base + len)) := by
  have hle : len ≤ zerosAt ws base := by
    have : ∀ (is : List Nat) (best : Nat × Nat), best.2 ≤ zerosAt ws best.1 →
        let r := is.foldl (fun best i => if best.2 < zerosAt ws i then (i, zerosAt ws i) else best) best
        r.2 ≤ zerosAt ws r.1 := by
      intro is
      induction is with
      | nil => exact fun _ h => h
      | cons i is ih =>
        intro best hb
        refine ih _ ?_
        by_cases hi : best.2 < zerosAt ws i
        · simp only [if_pos hi]; exact le_rfl
        · simp only [if_neg hi]; exact hb
    have hr := this (List.range ws.length) (0, 0) (Nat.zero_le _)
    rw [bestRun] at h
    rwa [h] at hr
  have hpre : (ws.drop base).takeWhile (· == 0) <+: ws.drop base := List.takeWhile_prefix _
  have hlen : zerosAt ws base ≤ ws.length - base := by
    have := hpre.length_le
    rwa [List.length_drop] at this
  have hz : (ws.drop base).take len = List.replicate len 0 := by
    rw [List.eq_replicate_iff]
    refine ⟨by rw [List.length_take, List.length_drop]; omega, fun w hw => ?_⟩
    have hsub : (ws.drop base).take len <+: (ws.drop base).takeWhile (· == 0) :=
      List.prefix_of_prefix_length_le (List.take_prefix _ _) hpre
        (by rw [List.length_take]; exact (Nat.min_le_left _ _).trans hle)
    simpa using List.mem_takeWhile_imp (hsub.subset hw)
  refine ⟨by omega, ?_⟩
  rw [← hz, ← List.drop_drop, List.take_append_drop, List.take_append_drop]

/-- The addresses whose text `isValidIpv6` refuses. -/
def isUnreadable (b : List UInt8) : Bool :=
  isDotted (words b) || (bestRun (words b) == (0, 2) || bestRun (words b) == (6, 2))

theorem flatMap_hexText {ws : List Nat} (h : ∀ w ∈ ws, w < 65536) :
    (ws.map hexText).flatMap groupBytes = ws.flatMap fun w => [UInt8.ofNat (w / 256), UInt8.ofNat (w % 256)] := by
  induction ws with
  | nil => rfl
  | cons w ws ih =>
    simp only [List.map_cons, List.flatMap_cons, ih fun w hw => h w (List.mem_cons_of_mem _ hw)]
    rw [groupBytes, (hexText_spec (h w (List.mem_cons_self ..))).2]

theorem isGroup_hexText {ws : List Nat} (h : ∀ w ∈ ws, w < 65536) : ∀ g ∈ ws.map hexText, isGroup g = true := by
  simp only [List.mem_map, forall_exists_index, and_imp, forall_apply_eq_imp_iff₂]
  exact fun w hw => (hexText_spec (h w hw)).1

/-- A printed IPv6 address that is not dotted writes the address, and is accepted unless `::` stands
for just the first or the last two words. -/
theorem inetNtop6_spec {b : List UInt8} (hb : b.length = 16) (hd : isDotted (words b) = false) :
    Ipv6Denotes (inetNtop6 b) b ∧ isValidIpv6 (inetNtop6 b) = !isUnreadable b := by
  obtain ⟨h8, hw, hbytes⟩ := words_spec (n := 8) hb
  obtain ⟨base, len, hrun⟩ : ∃ base len, bestRun (words b) = (base, len) := ⟨_, _, rfl⟩
  by_cases hlen : len < 2
  · have ht : inetNtop6 b = joinGroups ((words b).map hexText) := by simp only [inetNtop6, hrun, if_pos hlen]
    have hg := isGroup_hexText hw
    rw [ht]
    have hden := Ipv6Denotes.full hg (by simpa using h8)
    rw [flatMap_hexText hw, hbytes] at hden
    refine ⟨hden, ?_⟩
    rw [isValidIpv6_full hg (by simpa using h8)]
    simp [isUnreadable, hd, hrun, show len ≠ 2 by omega]
  -- the longest run of zeros is left out, and counted back in by the reader
  · obtain ⟨hle, hz⟩ := bestRun_spec hrun (by omega)
    have ht : inetNtop6 b = joinGroups (((words b).take base).map hexText) ++
        ("::".toList ++ joinGroups (((words b).drop (base + len)).map hexText)) := by
      simp only [inetNtop6, hrun, if_neg hlen, hd]
      rfl
    have hwl : ∀ w ∈ (words b).take base, w < 65536 := fun w h => hw w (List.mem_of_mem_take h)
    have hwr : ∀ w ∈ (words b).drop (base + len), w < 65536 := fun w h => hw w (List.mem_of_mem_drop h)
    have hl := isGroup_hexText hwl
    have hr := isGroup_hexText hwr
    have nl : (((words b).take base).map hexText).length = base := by simp; omega
    have nr : (((words b).drop (base + len)).map hexText).length = 8 - (base + len) := by simp [h8]
    rw [ht]
    constructor
    · have hden := Ipv6Denotes.compressed hl hr (by omega)
      have hzeros : (List.replicate len 0).flatMap (fun w => [UInt8.ofNat (w / 256), UInt8.ofNat (w % 256)]) =
          List.replicate (2 * len) 0 := by
        clear hrun hlen hle hz ht hwr hr nr hden
        induction len with
        | zero => rfl
        | succ n ih => rw [List.replicate_succ, List.flatMap_cons, ih]; rfl
      rw [nl, nr, show 8 - base - (8 - (base + len)) = len by omega, flatMap_hexText hwl, flatMap_hexText hwr,
        ← hzeros, ← List.flatMap_append, ← List.flatMap_append, ← hz, hbytes] at hden
      exact hden
    · rw [isValidIpv6_compressed hl hr, nl, nr, isUnreadable, hd, hrun, Bool.false_or, Bool.eq_iff_iff]
      simp only [decide_eq_true_eq, Bool.not_eq_true', Bool.or_eq_false_iff, beq_eq_false_iff_ne, ne_eq,
        Prod.mk.injEq]
      omega

theorem suffix_joinGroups (gs : List Str) (g : Str) : g <:+ joinGroups (gs ++ [g]) := by
  induction gs with
  | nil => simp [joinGroups]
  | cons h gs ih =>
    refine ih.trans ?_
    rw [joinGroups, joinGroups, List.cons_append, List.intercalate_cons_of_ne_nil (by simp)]
    exact List.suffix_append _ _

/-- A dotted text has a dot, which no text `isValidIpv6` accepts has. -/
theorem inetNtop6_dotted {b : List UInt8} (hb : b.length = 16) (hd : isDotted (words b) = true) :
    ':' ∈ inetNtop6 b ∧ isValidIpv6 (inetNtop6 b) = false := by
  have hlen : ¬ (bestRun (words b)).2 < 2 := by
    simp only [isDotted, Bool.or_eq_true, Bool.and_eq_true, beq_iff_eq] at hd
    rcases hd with h | ⟨h, -⟩ <;> rw [h] <;> decide
  have ht : ∃ gs, inetNtop6 b = "::".toList ++ joinGroups (gs ++ [inetNtop4 (b.drop 12)]) :=
    ⟨_, by simp only [inetNtop6, if_neg hlen, hd, if_true]; rfl⟩
  obtain ⟨gs, ht⟩ := ht
  have hdot : '.' ∈ inetNtop6 b := by
    obtain ⟨w, x, y, z, h4⟩ := List.length_eq_four.1 (show (b.drop 12).length = 4 by simp [hb])
    rw [ht]
    refine List.mem_append_right _ ((suffix_joinGroups gs _).subset ?_)
    simp [inetNtop4, h4, List.intercalate_cons_cons]
  refine ⟨by rw [ht]; simp, ?_⟩
  cases hv : isValidIpv6 (inetNtop6 b) with
  | false => rfl
  | true => exact absurd (mem_of_valid hv hdot) (by decide)

/-! ## Ranges -/

/-- What a range test gives on a printed IPv4 address. -/
theorem isIpInRange_inetNtop4 (t : CharTables) {b a : List UInt8} {range address : Str} {n : Nat}
    (hb : b.length = 4) (hvr : isValidIpv4Range t range = true) (hr : RangeText t range address n)
    (ha : Ipv4Denotes t address a) :
    isIpInRange t (inetNtop4 b) range = .ok (decide ((bits b).take n = (bits a).take n)) :=
  isIpInRange_ipv4 (inetNtop4_spec t hb).1 (inetNtop4_spec t hb).2 hvr hr ha

/-- What a range test gives on a printed IPv6 address. -/
theorem isIpInRange_inetNtop6 (t : CharTables) {b a : List UInt8} {range address : Str} {n : Nat}
    (hb : b.length = 16) (hvr : isValidIpv6Range t range = true) (hr : RangeText t range address n)
    (ha : Ipv6Denotes address a) :
    isIpInRange t (inetNtop6 b) range =
      .ok (!isUnreadable b && decide ((bits b).take n = (bits a).take n)) := by
  have refused : ':' ∈ inetNtop6 b → isValidIpv6 (inetNtop6 b) = false →
      isIpInRange t (inetNtop6 b) range = .ok false := fun hc hv => by
    rw [isIpInRange, isValidIpv4_of_colon hc, hv]; rfl
  cases hd : isDotted (words b) with
  | true =>
    obtain ⟨hc, hv⟩ := inetNtop6_dotted hb hd
    rw [refused hc hv, isUnreadable, hd]; rfl
  | false =>
    obtain ⟨hden, hv⟩ := inetNtop6_spec hb hd
    cases hu : isUnreadable b with
    | true => rw [refused (colon_mem_of_denotes hden) (by rw [hv, hu]; rfl)]; rfl
    | false =>
      rw [isIpInRange_ipv6 (by rw [hv, hu]; rfl) hden hvr hr ha]
      simp

/-- `range` is an accepted range of the family of `b`, with prefix length `n` and address `a`. -/
inductive RangeFor (t : CharTables) (b : List UInt8) (range : Str) (n : Nat) (a : List UInt8) : Prop
  | ipv4 {address : Str} (hb : b.length = 4) (hvr : isValidIpv4Range t range = true)
      (hr : RangeText t range address n) (ha : Ipv4Denotes t address a)
  | ipv6 {address : Str} (hb : b.length = 16) (hvr : isValidIpv6Range t range = true)
      (hr : RangeText t range address n) (ha : Ipv6Denotes address a)

/-- Every accepted range of the family of `b` has a prefix length and an address. -/
theorem exists_rangeFor (t : CharTables) {b : List UInt8} {range : Str}
    (h : (b.length = 4 ∧ isValidIpv4Range t range = true) ∨ (b.length = 16 ∧ isValidIpv6Range t range = true)) :
    ∃ n a, RangeFor t b range n a := by
  rcases h with ⟨hb, hvr⟩ | ⟨hb, hvr⟩
  · obtain ⟨address, n, hr, -, hv⟩ := isValidRange_shape 32 hvr
    obtain ⟨a, ha⟩ := isValidIpv4_denotes hv
    exact ⟨n, a, .ipv4 hb hvr hr ha⟩
  · obtain ⟨address, n, hr, -, hv⟩ := isValidRange_shape 128 hvr
    obtain ⟨a, ha⟩ := isValidIpv6_denotes hv
    exact ⟨n, a, .ipv6 hb hvr hr ha⟩

/-- The range test on the printed address says whether the first `n` bits agree. -/
def RangeTestAgrees (t : CharTables) (b : List UInt8) (range : Str) (n : Nat) (a : List UInt8) : Prop :=
  isIpInRange t (inetNtop b) range = .ok true ↔ (bits b).take n = (bits a).take n

/-- The range test is right on every IPv4 address. On an IPv6 address it is right when the printed
text can be read, and otherwise, being false then, only when the first bits differ. -/
theorem rangeTestAgrees_iff {t : CharTables} {b a : List UInt8} {range : Str} {n : Nat} (h : RangeFor t b range n a) :
    RangeTestAgrees t b range n a ↔
      b.length = 4 ∨ isUnreadable b = false ∨ (bits b).take n ≠ (bits a).take n := by
  cases h with
  | ipv4 hb hvr hr ha =>
    simp [RangeTestAgrees, inetNtop, hb, isIpInRange_inetNtop4 t hb hvr hr ha]
  | ipv6 hb hvr hr ha =>
    rw [RangeTestAgrees, inetNtop, if_neg (by omega), isIpInRange_inetNtop6 t hb hvr hr ha]
    cases isUnreadable b <;> simp [hb]

theorem rangeTestAgrees_iff_loopback : RangeTestAgrees .ascii (List.replicate 15 0 ++ [1]) "::/8".toList 8
    (List.replicate 16 0) ↔ (List.replicate 15 (0 : UInt8) ++ [1]).length = 4 ∨
      isUnreadable (List.replicate 15 0 ++ [1]) = false ∨
      (bits (List.replicate 15 0 ++ [1])).take 8 ≠ (bits (List.replicate 16 0)).take 8 :=
  rangeTestAgrees_iff (.ipv6 rfl (by decide) (@RangeText.slash .ascii "::".toList "8".toList 8 (by decide) (by decide))
    (.compressed (l := []) (r := []) (by simp) (by simp) (by simp)))

/-- `::ffff:1.2.3.4` is not found in the range of the IPv4-mapped addresses. -/
theorem not_rangeTestAgrees_mapped : ¬ ∀ (t : CharTables) (b : List UInt8) (range : Str) (n : Nat) (a : List UInt8),
    RangeFor t b range n a → RangeTestAgrees t b range n a := by
  intro h
  have hr : RangeFor .ascii (List.replicate 10 0 ++ [255, 255, 1, 2, 3, 4]) "::ffff:0:0/96".toList 96
      (List.replicate 10 0 ++ [255, 255, 0, 0, 0, 0]) :=
    .ipv6 rfl (by decide) (@RangeText.slash .ascii "::ffff:0:0".toList "96".toList 96 (by decide) (by decide))
      (.compressed (l := []) (r := ["ffff".toList, "0".toList, "0".toList]) (by simp) (by decide) (by simp))
  have := (h _ _ _ _ _ hr).2 (by decide)
  exact absurd this (by decide)

end SunProxy.Net
