/-
The grammar of IPv6 texts: eight groups of hexadecimal digits, or two lists of groups around `::`,
which stands for two groups of zeros or more. `Utils.isValidIpv6` decides it by the number of
colons, and six groups with `::` at one end have seven colons, as many as eight groups: these texts,
and no others, are refused although the grammar has them.
-/
import SunProxy.Utils.Denotes

namespace SunProxy.Utils

open SunProxy.Kotlin

/-- One to four hexadecimal digits. -/
def HexGroup (g : Str) : Prop := 1 ≤ g.length ∧ g.length ≤ 4 ∧ ∀ c ∈ g, c ∈ "0123456789abcdefABCDEF".toList

/-- An address text without a zone and without dotted bytes. -/
inductive Ipv6Text : Str → Prop
  | full {gs : List Str} (h : ∀ g ∈ gs, HexGroup g) (h8 : gs.length = 8) : Ipv6Text (joinGroups gs)
  | compressed {l r : List Str} (hl : ∀ g ∈ l, HexGroup g) (hr : ∀ g ∈ r, HexGroup g)
      (h6 : l.length + r.length ≤ 6) : Ipv6Text (joinGroups l ++ ("::".toList ++ joinGroups r))

/-- Six groups, all before `::` or all after it. -/
inductive SixAtEnd : Str → Prop
  | trailing {gs : List Str} (h : ∀ g ∈ gs, HexGroup g) (h6 : gs.length = 6) : SixAtEnd (joinGroups gs ++ "::".toList)
  | leading {gs : List Str} (h : ∀ g ∈ gs, HexGroup g) (h6 : gs.length = 6) : SixAtEnd ("::".toList ++ joinGroups gs)

theorem char_mem_range {c lo hi : Char} {s : Str} (hs : ∀ n, lo.toNat ≤ n → n ≤ hi.toNat → Char.ofNat n ∈ s)
    (h : lo ≤ c ∧ c ≤ hi) : c ∈ s := by
  have := hs c.toNat h.1 h.2
  rwa [Char.ofNat_toNat] at this

theorem isHexDigit_iff (c : Char) : isHexDigit c = true ↔ c ∈ "0123456789abcdefABCDEF".toList := by
  constructor
  · intro h
    simp only [isHexDigit, Bool.or_eq_true, Bool.and_eq_true, decide_eq_true_eq] at h
    rcases h with h | h | h
    · exact char_mem_range (by decide) h
    · exact char_mem_range (by decide) h
    · exact char_mem_range (by decide) h
  · exact List.all_eq_true.1 (by decide) c

theorem isGroup_iff (g : Str) : isGroup g = true ↔ HexGroup g := by
  simp only [isGroup, HexGroup, Bool.and_eq_true, decide_eq_true_eq, List.all_eq_true, isHexDigit_iff, and_assoc]

theorem isGroup_forall_iff (gs : List Str) : (∀ g ∈ gs, isGroup g = true) ↔ ∀ g ∈ gs, HexGroup g := by
  simp only [isGroup_iff]

/-! ## What is accepted and what is refused -/

/-- The validator accepts texts of the grammar only. -/
theorem ipv6Text_of_valid {s : Str} (h : isValidIpv6 s = true) : Ipv6Text s := by
  obtain ⟨gs, hg, h8, rfl⟩ | ⟨l, r, hl, hr, h4, rfl⟩ := isValidIpv6_shape h
  · exact .full ((isGroup_forall_iff gs).1 hg) h8
  · exact .compressed ((isGroup_forall_iff l).1 hl) ((isGroup_forall_iff r).1 hr) (by omega)

theorem isValidIpv6_of_sixAtEnd {s : Str} (h : SixAtEnd s) : isValidIpv6 s = false := by
  cases h with
  | @trailing gs h h6 =>
    have := isValidIpv6_compressed ((isGroup_forall_iff gs).2 h) (r := []) (by simp)
    rw [h6] at this
    exact this
  | @leading gs h h6 =>
    have := isValidIpv6_compressed (l := []) (by simp) ((isGroup_forall_iff gs).2 h)
    rw [h6] at this
    exact this

theorem SixAtEnd.text {s : Str} (h : SixAtEnd s) : Ipv6Text s := by
  cases h with
  | @trailing gs h h6 => exact .compressed (r := []) h (by simp) (by simp [h6])
  | @leading gs h h6 => exact .compressed (l := []) (by simp) h (by simp [h6])

/-- A text of the grammar is accepted, six groups with `::` at one end apart. -/
theorem isValidIpv6_of_text {s : Str} (h : Ipv6Text s) (hs : ¬ SixAtEnd s) : isValidIpv6 s = true := by
  cases h with
  | @full gs h h8 => exact isValidIpv6_full ((isGroup_forall_iff gs).2 h) h8
  | @compressed l r hl hr h6 =>
    rw [isValidIpv6_compressed ((isGroup_forall_iff l).2 hl) ((isGroup_forall_iff r).2 hr), decide_eq_true_eq]
    -- an empty side has no colon to save: only then do six groups have too many
    by_contra hc
    rcases Nat.lt_or_ge 0 l.length with h0 | h0
    · obtain rfl : r = [] := List.length_eq_zero_iff.1 (by omega)
      exact hs (.trailing hl (by simp only [List.length_nil] at *; omega))
    · obtain rfl : l = [] := List.length_eq_zero_iff.1 (by omega)
      exact hs (.leading hr (by simp only [List.length_nil] at *; omega))

/-- The validator follows the grammar exactly on the texts that are not six groups with `::` at
one end. -/
theorem isValidIpv6_iff_text (s : Str) : (isValidIpv6 s = true ↔ Ipv6Text s) ↔ ¬ SixAtEnd s := by
  constructor
  · intro h h6
    have := h.2 h6.text
    rw [isValidIpv6_of_sixAtEnd h6] at this
    cases this
  · exact fun hs => ⟨ipv6Text_of_valid, fun h => isValidIpv6_of_text h hs⟩

/-- `::1:2:3:4:5:6` is in the grammar and is refused. -/
theorem not_isValidIpv6_sixGroups :
    isValidIpv6 "::1:2:3:4:5:6".toList = false ∧ Ipv6Text "::1:2:3:4:5:6".toList := by
  have h6 : SixAtEnd ("::".toList ++ joinGroups [['1'], ['2'], ['3'], ['4'], ['5'], ['6']]) :=
    .leading (by simp [HexGroup]) rfl
  exact ⟨by decide +kernel, h6.text⟩

end SunProxy.Utils
