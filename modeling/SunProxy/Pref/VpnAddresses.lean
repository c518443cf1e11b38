/-
The settings `enable_ipv6` and `vpn_addresses`: the check each edit passes, the loader of the
addresses, and the runs of edits after which the VPN has an address. The edit that can take the
last address away, or bring a text that is no address, is the one of `vpn_addresses`.
-/
import SunProxy.Net.DottedText
import SunProxy.Net.Ntop
import SunProxy.Utils.InRange
import SunProxy.Utils.Ipv6Text
import SunProxy.Lib.Run

namespace SunProxy.Pref

open SunProxy.Kotlin SunProxy.Net SunProxy.Seq SunProxy.Utils SunProxy.Run

/-- The stored values of the two settings. -/
structure Settings where
  enableIpv6 : Bool
  vpnAddresses : Str
  deriving DecidableEq, Repr

/-- The default values in `preferences.xml`. -/
def defaults : Settings := ⟨true, "10.1.10.1\nfd00:1:fd00:1:fd00:1:fd00:1".toList⟩

section Checks

variable (t : CharTables)

def trimComments (s : Str) : Str := if s.isEmpty then [] else trim ((split '#' s).headD [])

/-- An address with its prefix length, read from one line by `loadVpnAddresses`. -/
def loadVpnAddress (line : Str) : Except JavaException (Str × Int) := do
  let parts := split '/' line
  let address ← arrayGet parts 0
  if parts.length > 1 then
    let p ← arrayGet parts 1
    let prefixLength ← toInt t 10 p
    return (address, prefixLength)
  else return (address, if ':' ∈ address then 128 else 32)

/-- The lines `loadVpnAddresses` keeps. -/
def keptLines (enableIpv6 : Bool) (preference : Str) : List Str :=
  ((lines preference).map trimComments).filter fun s => !s.isEmpty && (enableIpv6 || !decide (':' ∈ s))

/-- `Pref.loadVpnAddresses`, with the stored values in place of the arguments that are not given. -/
def loadVpnAddresses (enableIpv6 : Bool) (preference : Str) : Except JavaException (List (Str × Int)) :=
  (keptLines enableIpv6 preference).mapM (loadVpnAddress t)

/-- `isValidVpnAddressLine` -/
def isValidVpnAddressLine (line : Str) : Bool :=
  let s := trimComments line
  if s.isEmpty then true else isValidIp t s || isValidIpRange t s

/-- Both checks end by loading the addresses once more, for the summary. -/
def checkEnableIpv6Validity (s : Settings) (enableIpv6 : Bool) : Except JavaException Bool := do
  let addresses ← loadVpnAddresses t enableIpv6 s.vpnAddresses
  if !addresses.isEmpty then
    let _ ← loadVpnAddresses t enableIpv6 s.vpnAddresses
    return true
  else return false

def checkVpnAddressesValidity (s : Settings) (input : Str) : Except JavaException Bool := do
  if (lines input).all (isValidVpnAddressLine t) && (lines input).any (fun line => !(trimComments line).isEmpty) then
    let _ ← loadVpnAddresses t s.enableIpv6 input
    return true
  else return false

/-- An edit of one of the settings. -/
inductive Edit
  | enableIpv6 (value : Bool)
  | vpnAddresses (input : Str)
  deriving DecidableEq, Repr

/-- An edit takes effect when its check returns true. -/
def step (s : Settings) : Edit → Settings
  | .enableIpv6 b => if checkEnableIpv6Validity t s b = .ok true then { s with enableIpv6 := b } else s
  | .vpnAddresses input =>
    if checkVpnAddressesValidity t s input = .ok true then { s with vpnAddresses := input } else s

end Checks

/-! ## What the loader gives for checked lines -/

/-- An address of either family, dotted decimal or in hexadecimal groups, with a prefix length of the family. -/
inductive ValidAddress : Str × Int → Prop
  | ipv4 {address : Str} {n : Int} (h : Ipv4Text address) (h0 : 0 ≤ n) (h32 : n ≤ 32) : ValidAddress (address, n)
  | ipv6 {address : Str} {n : Int} (h : Ipv6Text address) (h0 : 0 ≤ n) (h128 : n ≤ 128) : ValidAddress (address, n)

/-- The addresses load, there is one, and each is valid. -/
def Usable (t : CharTables) (s : Settings) : Prop :=
  ∃ addresses, loadVpnAddresses t s.enableIpv6 s.vpnAddresses = .ok addresses ∧ addresses ≠ [] ∧
    ∀ p ∈ addresses, ValidAddress p

/-- The part of a line in front of its prefix length. -/
def addressPart (line : Str) : Str := (split '/' (trimComments line)).headD []

/-- What the check of the addresses lets through: a valid address, or four bytes with a sign or a digit of
another script. -/
def AcceptedAddress (t : CharTables) (p : Str × Int) : Prop :=
  ValidAddress p ∨ SignedOrForeign t p.1 ∧ 0 ≤ p.2 ∧ p.2 ≤ 32

section Loading

variable {t : CharTables}

theorem split_plain {s : Str} (h : '/' ∉ s) : split '/' s = [s] := List.splitOn_eq_singleton h

theorem loadVpnAddress_plain {s : Str} (h : '/' ∉ s) :
    loadVpnAddress t s = .ok (s, if ':' ∈ s then 128 else 32) := by
  simp only [loadVpnAddress, split_plain h, arrayGet]
  rfl

theorem split_range {s address : Str} {n : Nat} (h : RangeText t s address n) :
    ∃ p, split '/' s = [address, p] ∧ toInt t 10 p = .ok (n : Int) := by
  obtain ⟨ha, hp⟩ := h
  rename_i p
  have hpn : '/' ∉ p := notMem_number hp (by decide) (by decide) (by decide) (by decide)
  refine ⟨p, ?_, by rw [toInt, hp]⟩
  have := List.splitOn_intercalate '/' (show ∀ l ∈ [address, p], '/' ∉ l by simp [ha, hpn]) (by simp)
  rwa [List.intercalate_cons_cons, List.intercalate_singleton, List.append_assoc] at this

theorem loadVpnAddress_range {s address : Str} {n : Nat} (h : RangeText t s address n) :
    loadVpnAddress t s = .ok (address, n) ∧ (split '/' s).headD [] = address := by
  obtain ⟨p, hs, hv⟩ := split_range h
  refine ⟨?_, by rw [hs]; rfl⟩
  simp only [loadVpnAddress, hs, arrayGet, List.getElem?_cons_zero, List.getElem?_cons_succ, hv, bind, Except.bind]
  rfl

theorem slash_notMem_ipv4 {s : Str} (h : isValidIpv4 t s = true) : '/' ∉ s := by
  obtain ⟨b, hb⟩ := isValidIpv4_denotes h
  cases hb with
  | dotted hp hq hr hs =>
    have hn : ∀ {p : Str} {n : Int}, toIntOrNull t 10 p = some n → '/' ∉ p := fun h =>
      notMem_number h (by decide) (by decide) (by decide) (by decide)
    simp [List.intercalate_cons_cons, hn hp, hn hq, hn hr, hn hs]

theorem AcceptedAddress.ipv4 {address : Str} {n : Int} (h : isValidIpv4 t address = true) (h0 : 0 ≤ n) (h32 : n ≤ 32) :
    AcceptedAddress t (address, n) :=
  (text_or_signedOrForeign h).imp (.ipv4 · h0 h32) (⟨·, h0, h32⟩)

theorem AcceptedAddress.ipv6 {address : Str} {n : Int} (h : isValidIpv6 address = true) (h0 : 0 ≤ n) (h128 : n ≤ 128) :
    AcceptedAddress t (address, n) :=
  .inl (.ipv6 (ipv6Text_of_valid h) h0 h128)

theorem colon_mem_of_text {s : Str} (h : Ipv6Text s) : ':' ∈ s := by
  cases h with
  | @full gs _ h8 =>
    obtain ⟨g, gs, rfl⟩ := List.exists_cons_of_length_eq_add_one h8
    obtain ⟨g', gs, rfl⟩ := List.exists_cons_of_length_eq_add_one (Nat.succ.inj h8)
    rw [joinGroups, List.intercalate_cons_cons]
    exact List.mem_append_left _ (List.mem_append_right _ (List.mem_singleton_self _))
  | compressed => exact List.mem_append_right _ (List.mem_append_left _ (by decide))

/-- An accepted address is valid unless a part of it has a sign or a digit of another script. -/
theorem AcceptedAddress.valid_iff {p : Str × Int} (h : AcceptedAddress t p) : ValidAddress p ↔
    ¬SignedOrForeign t p.1 := by
  constructor
  · rintro (⟨htext, -, -⟩ | ⟨htext, -, -⟩) hs
    · exact hs.not_text htext
    · exact Bool.false_ne_true ((isValidIpv4_of_colon (colon_mem_of_text htext)).symm.trans hs.valid)
  · exact fun hs => h.resolve_right fun h => hs h.1

/-- The loader reads what the check accepts, the address as it stands in the line. -/
theorem loadVpnAddress_of_valid {s : Str} (h : isValidIp t s = true ∨ isValidIpRange t s = true) :
    ∃ p, loadVpnAddress t s = .ok p ∧ (split '/' s).headD [] = p.1 ∧ AcceptedAddress t p := by
  rcases h with h | h
  · rcases Bool.or_eq_true_iff.1 h with h4 | h6
    · obtain ⟨b, hb⟩ := isValidIpv4_denotes h4
      have hs := slash_notMem_ipv4 h4
      rw [loadVpnAddress_plain hs, if_neg (colon_notMem_of_denotes hb), split_plain hs]
      exact ⟨_, rfl, rfl, .ipv4 h4 (by simp) (by simp)⟩
    · obtain ⟨b, hb⟩ := isValidIpv6_denotes h6
      have hs : '/' ∉ s := fun hm => absurd (mem_of_valid h6 hm) (by decide)
      rw [loadVpnAddress_plain hs, if_pos (colon_mem_of_denotes hb), split_plain hs]
      exact ⟨_, rfl, rfl, .ipv6 h6 (by simp) (by simp)⟩
  · rcases Bool.or_eq_true_iff.1 h with h4 | h6
    · obtain ⟨address, n, hr, hn, hv⟩ := isValidRange_shape 32 h4
      obtain ⟨hload, hpart⟩ := loadVpnAddress_range hr
      exact ⟨_, hload, hpart, .ipv4 hv (by simp) (by simpa using hn)⟩
    · obtain ⟨address, n, hr, hn, hv⟩ := isValidRange_shape 128 h6
      obtain ⟨hload, hpart⟩ := loadVpnAddress_range hr
      exact ⟨_, hload, hpart, .ipv6 hv (by simp) (by simpa using hn)⟩

theorem mapM_valid {α β : Type} {f : α → Except JavaException β} {R : α → β → Prop} {l : List α}
    (h : ∀ x ∈ l, ∃ y, f x = .ok y ∧ R x y) : ∃ ys, l.mapM f = .ok ys ∧ List.Forall₂ R l ys := by
  induction l with
  | nil => exact ⟨[], rfl, .nil⟩
  | cons x l ih =>
    obtain ⟨y, hy, hr⟩ := h x (List.mem_cons_self ..)
    obtain ⟨ys, hys, hall⟩ := ih fun x hx => h x (List.mem_cons_of_mem _ hx)
    refine ⟨y :: ys, ?_, .cons hr hall⟩
    rw [List.mapM_cons, hy, hys]; rfl

/-- Every line of the stored addresses passes the check. -/
def Checked (t : CharTables) (s : Settings) : Prop :=
  ∀ line ∈ lines s.vpnAddresses, isValidVpnAddressLine t line = true

theorem mem_keptLines {b : Bool} {preference s : Str} :
    s ∈ keptLines b preference ↔
    (∃ line ∈ lines preference, trimComments line = s) ∧ s ≠ [] ∧ (b = false → ':' ∉ s) := by
  simp only [keptLines, List.mem_filter, List.mem_map, Bool.and_eq_true, Bool.not_eq_true', List.isEmpty_eq_false_iff,
    Bool.or_eq_true, decide_eq_false_iff_not]
  cases b <;> simp

/-- Checked addresses load, to one address for each line that is kept. -/
theorem loadVpnAddresses_of_checked {b : Bool} {preference : Str}
    (h : ∀ line ∈ lines preference, isValidVpnAddressLine t line = true) :
    ∃ addresses, loadVpnAddresses t b preference = .ok addresses ∧
      List.Forall₂ (fun line p => (split '/' line).headD [] = p.1 ∧ AcceptedAddress t p) (keptLines b preference)
        addresses := by
  refine mapM_valid fun s hs => ?_
  obtain ⟨⟨line, hl, rfl⟩, hne, -⟩ := mem_keptLines.1 hs
  have hv := h line hl
  rw [isValidVpnAddressLine] at hv
  simp only [List.isEmpty_eq_false_iff.2 hne, Bool.false_eq_true, if_false, Bool.or_eq_true] at hv
  exact loadVpnAddress_of_valid hv

/-- Four bytes with a sign or a digit of another script in front of the prefix length of a line. -/
def Doubtful (t : CharTables) (preference : Str) : Prop :=
  ∃ line ∈ lines preference, SignedOrForeign t (addressPart line)

theorem colon_notMem_of_signed {s address : Str} (h : SignedOrForeign t address) (hmem : ':' ∈ s) : s ≠ address := by
  rintro rfl
  exact Bool.false_ne_true ((isValidIpv4_of_colon hmem).symm.trans h.valid)

/-- A doubtful line is kept whether IPv6 is on or off. -/
theorem mem_keptLines_of_signed {b : Bool} {preference line : Str} (hline : line ∈ lines preference)
    (h : isValidVpnAddressLine t line = true) (hs : SignedOrForeign t (addressPart line)) :
    trimComments line ∈ keptLines b preference := by
  unfold addressPart at hs
  unfold isValidVpnAddressLine at h
  have hne : trimComments line ≠ [] := by
    intro hnil
    rw [hnil] at hs
    exact Bool.false_ne_true hs.valid
  simp only [List.isEmpty_eq_false_iff.2 hne, Bool.false_eq_true, if_false, Bool.or_eq_true] at h
  refine mem_keptLines.2 ⟨⟨line, hline, rfl⟩, hne, fun _ hcolon => ?_⟩
  rcases h with h | h
  · rcases Bool.or_eq_true_iff.1 h with h4 | h6
    · obtain ⟨bytes, hbytes⟩ := isValidIpv4_denotes h4
      exact colon_notMem_of_denotes hbytes hcolon
    · have hslash : '/' ∉ trimComments line := fun hm => absurd (mem_of_valid h6 hm) (by decide)
      rw [split_plain hslash] at hs
      exact colon_notMem_of_signed hs hcolon rfl
  · obtain ⟨address, n, hr, -⟩ := isValidIpRange_shape h
    rw [(loadVpnAddress_range hr).2] at hs
    generalize trimComments line = s at hr hcolon
    cases hr with
    | slash _ hp =>
      rcases List.mem_append.1 hcolon with hmem | hmem
      · exact colon_notMem_of_signed hs hmem rfl
      · have hnumber := (List.mem_cons.1 hmem).resolve_left (by decide)
        exact notMem_number hp (by decide) (by decide) (by decide) (by decide) hnumber

/-- What checked addresses load to is valid when no line is doubtful. -/
theorem usable_iff_of_checked {s : Settings} (h : Checked t s) :
    Usable t s ↔ keptLines s.enableIpv6 s.vpnAddresses ≠ [] ∧ ¬Doubtful t s.vpnAddresses := by
  obtain ⟨addresses, hl, hall⟩ := loadVpnAddresses_of_checked (b := s.enableIpv6) h
  have hne : addresses ≠ [] ↔ keptLines s.enableIpv6 s.vpnAddresses ≠ [] := by
    rw [← List.length_pos_iff, ← List.length_pos_iff, hall.length_eq]
  have hvalid : (∀ p ∈ addresses, ValidAddress p) ↔ ¬Doubtful t s.vpnAddresses := by
    constructor
    · rintro hvalid ⟨line, hline, hs⟩
      obtain ⟨p, hp, hpart, haccepted⟩ :=
        exists_of_mem_forall₂ (List.Forall₂.flip hall) (mem_keptLines_of_signed hline (h line hline) hs)
      exact haccepted.valid_iff.1 (hvalid p hp) (hpart ▸ hs)
    · intro hdoubt p hp
      obtain ⟨line, hline, hpart, haccepted⟩ := exists_of_mem_forall₂ hall hp
      obtain ⟨⟨line, hmem, rfl⟩, -⟩ := mem_keptLines.1 hline
      refine haccepted.valid_iff.2 fun hs => hdoubt ⟨line, hmem, ?_⟩
      rwa [addressPart, hpart]
  rw [← hne, ← hvalid]
  constructor
  · rintro ⟨addresses', hl', hne, hvalid⟩
    cases hl.symm.trans hl'
    exact ⟨hne, hvalid⟩
  · rintro ⟨hne, hvalid⟩
    exact ⟨addresses, hl, hne, hvalid⟩

/-! ## The checks -/

/-- The check of `enable_ipv6` asks for an address under the new value. -/
theorem checkEnableIpv6Validity_eq {s : Settings} (h : Checked t s) (b : Bool) :
    checkEnableIpv6Validity t s b = .ok (decide (keptLines b s.vpnAddresses ≠ [])) := by
  obtain ⟨addresses, hl, hall⟩ := loadVpnAddresses_of_checked (b := b) h
  simp only [checkEnableIpv6Validity, hl, bind, Except.bind, pure, Except.pure]
  generalize keptLines b s.vpnAddresses = kept at hall
  cases hall with
  | nil => rfl
  | cons => rfl

/-- An address text that is checked line by line and is not blank. -/
def Acceptable (t : CharTables) (input : Str) : Prop :=
  (∀ line ∈ lines input, isValidVpnAddressLine t line = true) ∧ ∃ line ∈ lines input, trimComments line ≠ []

/-- The check of `vpn_addresses` looks at the new text alone. -/
theorem checkVpnAddressesValidity_iff (s : Settings) (input : Str) :
    checkVpnAddressesValidity t s input = .ok true ↔ Acceptable t input := by
  have hcond : ((lines input).all (isValidVpnAddressLine t) &&
      (lines input).any (fun line => !(trimComments line).isEmpty)) = true ↔ Acceptable t input := by
    simp [Acceptable]
  unfold checkVpnAddressesValidity
  split
  · rename_i hc
    obtain ⟨addresses, hl, -⟩ := loadVpnAddresses_of_checked (b := s.enableIpv6) (hcond.1 hc).1
    rw [hl]
    exact iff_of_true rfl (hcond.1 hc)
  · rename_i hc
    exact iff_of_false nofun fun h => hc (hcond.2 h)

/-! ## Runs of edits -/

theorem checked_step {s : Settings} (h : Checked t s) (e : Edit) : Checked t (step t s e) := by
  cases e with
  | enableIpv6 b => rw [step]; split <;> exact h
  | vpnAddresses input =>
    rw [step]
    split
    · rename_i hc
      exact ((checkVpnAddressesValidity_iff s input).1 hc).1
    · exact h

/-- An edit leaves an address, and addresses only: it is not an acceptable text with only IPv6 addresses while
IPv6 is off, and no acceptable text with a line that is no address. -/
def LeavesAddress (t : CharTables) (s : Settings) (e : Edit) : Prop :=
  ∀ input, e = .vpnAddresses input → Acceptable t input →
    (s.enableIpv6 = false → ∃ line ∈ lines input, trimComments line ≠ [] ∧ ':' ∉ trimComments line) ∧ ¬Doubtful t input

theorem keptLines_ne_nil {b : Bool} {preference : Str} : keptLines b preference ≠ [] ↔
    ∃ line ∈ lines preference, trimComments line ≠ [] ∧ (b = false → ':' ∉ trimComments line) := by
  constructor
  · intro h
    obtain ⟨s, hs⟩ := List.exists_mem_of_ne_nil _ h
    obtain ⟨⟨line, hl, rfl⟩, hk⟩ := mem_keptLines.1 hs
    exact ⟨line, hl, hk⟩
  · rintro ⟨line, hl, hk⟩
    exact List.ne_nil_of_mem (mem_keptLines.2 ⟨⟨line, hl, rfl⟩, hk⟩)

theorem usable_step_iff {s : Settings} (h : Checked t s) (hu : Usable t s) (e : Edit) :
    Usable t (step t s e) ↔ LeavesAddress t s e := by
  rw [usable_iff_of_checked (checked_step h e)]
  rw [usable_iff_of_checked h] at hu
  cases e with
  -- the check of `enable_ipv6` looks at the list that is loaded under the new value
  | enableIpv6 b =>
    refine iff_of_true ?_ fun _ he => nomatch he
    rw [step, checkEnableIpv6Validity_eq h]
    split
    · rename_i hc
      exact ⟨by simpa using hc, hu.2⟩
    · exact hu
  -- the one of `vpn_addresses` looks at the lines alone
  | vpnAddresses input =>
    by_cases hc : Acceptable t input
    · rw [step, if_pos ((checkVpnAddressesValidity_iff s input).2 hc), keptLines_ne_nil]
      constructor
      · rintro ⟨⟨line, hl, hne, hcol⟩, hdoubt⟩ _ ⟨⟩ -
        exact ⟨fun hoff => ⟨line, hl, hne, hcol hoff⟩, hdoubt⟩
      · intro hleaves
        obtain ⟨hleft, hdoubt⟩ := hleaves input rfl hc
        refine ⟨?_, hdoubt⟩
        cases hen : s.enableIpv6 with
        | false =>
          obtain ⟨line, hl, hne, hcol⟩ := hleft hen
          exact ⟨line, hl, hne, fun _ => hcol⟩
        | true =>
          obtain ⟨line, hl, hne⟩ := hc.2
          exact ⟨line, hl, hne, nofun⟩
    · rw [step, if_neg fun h => hc ((checkVpnAddressesValidity_iff s input).1 h)]
      refine iff_of_true hu ?_
      rintro _ ⟨⟩ ha
      exact absurd ha hc

theorem checked_defaults : Checked t defaults := by
  have accepted : ∀ s, trimComments s = s → isValidIp t s = true → isValidVpnAddressLine t s = true := fun s hs hv => by
    rw [isValidVpnAddressLine]
    simp only [hs, hv, Bool.true_or, ite_self]
  intro line hl
  simp only [show lines defaults.vpnAddresses =
    ["10.1.10.1".toList, "fd00:1:fd00:1:fd00:1:fd00:1".toList] from rfl, List.mem_cons, List.not_mem_nil,
      or_false] at hl
  rcases hl with rfl | rfl
  · have h4 : isValidIpv4 t "10.1.10.1".toList = true := (Net.inetNtop4_spec t (b := [10, 1, 10, 1]) rfl).1
    exact accepted _ (by decide) (Bool.or_eq_true_iff.2 (.inl h4))
  · have h6 : isValidIpv6 "fd00:1:fd00:1:fd00:1:fd00:1".toList = true := by decide
    exact accepted _ (by decide) (Bool.or_eq_true_iff.2 (.inr h6))

theorem usable_defaults : Usable t defaults := by
  refine (usable_iff_of_checked checked_defaults).2 ⟨by decide, ?_⟩
  rintro ⟨line, hl, hs⟩
  simp only [show lines defaults.vpnAddresses =
    ["10.1.10.1".toList, "fd00:1:fd00:1:fd00:1:fd00:1".toList] from rfl, List.mem_cons, List.not_mem_nil,
      or_false] at hl
  rcases hl with rfl | rfl
  · exact hs.not_text ((inetPton4_isSome _).1 (by decide))
  · refine colon_notMem_of_signed hs (s := "fd00:1:fd00:1:fd00:1:fd00:1".toList) (by decide) ?_
    decide

/-- In a run of edits from the defaults, the addresses are usable throughout exactly when every
edit leaves addresses. -/
theorem usable_states_iff (es : List Edit) :
    (∀ s ∈ states (step t) defaults es, Usable t s) ↔ EveryStep (step t) (LeavesAddress t) defaults es :=
  forall_states_iff (Checked t) (Usable t) (fun _ e h => checked_step h e)
    (fun _ e h hu => usable_step_iff h hu e) checked_defaults usable_defaults es

/-- Turning IPv6 off and then leaving only an IPv6 address leaves no address; and `+1.2.3.4` is loaded. -/
theorem not_usable_states_ipv6 :
    (¬∀ s ∈ states (step .ascii) defaults [.enableIpv6 false, .vpnAddresses "::1".toList], Usable .ascii s) ∧
      ¬∀ s ∈ states (step .ascii) defaults [.vpnAddresses "+1.2.3.4".toList], Usable .ascii s := by
  constructor
  · intro h
    obtain ⟨addresses, hl, hne, -⟩ := h ⟨false, "::1".toList⟩ (by decide)
    cases hl
    exact hne rfl
  · intro h
    obtain ⟨addresses, hl, -, hvalid⟩ := h ⟨true, "+1.2.3.4".toList⟩ (by decide)
    cases hl
    rcases hvalid _ (List.mem_singleton_self _) with ⟨htext, -, -⟩ | ⟨htext, -, -⟩
    · exact absurd ((inetPton4_isSome _).2 htext) (by decide)
    · exact absurd (colon_mem_of_text htext) (by decide)

end Loading

end SunProxy.Pref
