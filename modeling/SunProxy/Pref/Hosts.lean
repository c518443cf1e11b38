/-
The setting `hosts`: the check its text passes and the loader of its entries, two parsers of one
line format. They cut an accepted line at the same blank, since the address the check accepts has
no white space at its end that the loader could still trim away.
-/
import SunProxy.Net.Session
import SunProxy.Pref.VpnAddresses

namespace SunProxy.Pref

open SunProxy.Kotlin SunProxy.Seq SunProxy.Utils SunProxy.Net

/-- `isValidHostsLine` -/
def isValidHostsLine (t : CharTables) (line : Str) : Bool :=
  let s := trimComments line
  if s.isEmpty then true
  else match s.idxOf? ' ' with
    | none => false
    | some spaceIndex =>
      let domain := trim (s.drop (spaceIndex + 1))
      let ip := s.take spaceIndex
      isValidIp t ip && isValidDomainWildcard t domain

/-- `checkHostsValidity` -/
def checkHostsValidity (t : CharTables) (hostsInput : Str) : Bool :=
  (lines hostsInput).all (isValidHostsLine t)

/-- One iteration of the loop over the lines in `loadHosts`. -/
def addHost (result : List HostsEntry) (line : Str) : Except JavaException (List HostsEntry) := do
  let l := trim ((split '#' line).headD [])
  if l.isEmpty then return result
  match l.idxOf? ' ' with
  | none => .error .stringIndexOutOfBounds -- `substring(0, -1)`
  | some spaceIndex =>
    let ip := trim (l.take spaceIndex)
    let version := if ':' ∈ ip then 6 else 4
    let host := trim (l.drop (spaceIndex + 1))
    let hostRegex ← domainWildcardToRegex host
    return result ++ [⟨hostRegex, ip, version⟩]

/-- `Pref.loadHosts`, with the stored value in place of the argument that is not given. -/
def loadHosts (preference : Str) : Except JavaException (List HostsEntry) := (lines preference).foldlM addHost []

/-! ## Where a line is cut -/

theorem trim_split_head (line : Str) : trim ((split '#' line).headD []) = trimComments line := by
  cases line with
  | nil => rfl
  | cons c s => rfl

theorem isWhitespace_ascii {c : Char} {d : Nat} (h : asciiDigit c = some d) : isWhitespace c = false :=
  (CharTables.ascii.digitOf_not_whitespace c (d + 1) d
    (by show (asciiDigit c).filter (· < d + 1) = some d; simp [h])).1

theorem isWhitespace_number {t : CharTables} {p : Str} {n : Int} (h : toIntOrNull t 10 p = some n) {c : Char}
    (hc : c ∈ p) : isWhitespace c = false := by
  rcases (toIntOrNull_chars h).2 c hc with rfl | rfl | hd
  · decide
  · decide
  · obtain ⟨d, hd⟩ := Option.isSome_iff_exists.1 hd
    exact (t.digitOf_not_whitespace c 10 d hd).1

/-- No white space is in an address the check accepts. -/
theorem isWhitespace_ip {t : CharTables} {ip : Str} (h : isValidIp t ip = true) {c : Char} (hc : c ∈ ip) :
    isWhitespace c = false := by
  rcases Bool.or_eq_true_iff.1 h with h4 | h6
  · obtain ⟨b, hb⟩ := isValidIpv4_denotes h4
    cases hb with
    | dotted hp hq hr hs =>
      simp only [List.intercalate_cons_cons, List.intercalate_singleton, List.mem_append, List.mem_singleton] at hc
      rcases hc with (hc | rfl) | (hc | rfl) | (hc | rfl) | hc
      · exact isWhitespace_number hp hc
      · decide
      · exact isWhitespace_number hq hc
      · decide
      · exact isWhitespace_number hr hc
      · decide
      · exact isWhitespace_number hs hc
  · rcases mem_of_valid h6 hc with rfl | hx
    · decide
    · obtain ⟨d, hd, -⟩ := isDigit_of_hex hx
      exact isWhitespace_ascii hd

theorem ip_ne_nil {t : CharTables} {ip : Str} (h : isValidIp t ip = true) : ip ≠ [] := by
  rintro rfl
  cases h

/-- The loader's `trim` leaves an accepted address as it is. -/
theorem trim_ip {t : CharTables} {ip : Str} (h : isValidIp t ip = true) : trim ip = ip := by
  have := trim_eq (p := []) (q := []) (by simp) (by simp) (ip_ne_nil h)
    fun c hc => isWhitespace_ip h (hc.elim List.mem_of_mem_head? List.mem_of_mem_getLast?)
  simpa using this

/-! ## The entries -/

/-- The lines that are not blank without their comments. -/
def keptHosts (preference : Str) : List Str := ((lines preference).map trimComments).filter fun s => !s.isEmpty

/-- An entry for a line: its address and its wildcard are the parts the check has looked at. -/
structure CheckedEntry (t : CharTables) (s : Str) (e : HostsEntry) : Prop where
  cut : ∃ domain, s.idxOf? ' ' = some e.address.length ∧ e.address = s.take e.address.length ∧
    domain = trim (s.drop (e.address.length + 1)) ∧ isValidDomainWildcard t domain = true ∧
    domainWildcardToRegex domain = .ok e.regex
  family : (e.version = 4 ∧ isValidIpv4 t e.address = true) ∨ (e.version = 6 ∧ isValidIpv6 e.address = true)

/-- The version the loader takes from the colon is the family of the address. -/
theorem family_of_valid {t : CharTables} {ip : Str} (h : isValidIp t ip = true) :
    ((if ':' ∈ ip then 6 else 4) = 4 ∧ isValidIpv4 t ip = true) ∨
      ((if ':' ∈ ip then 6 else 4) = 6 ∧ isValidIpv6 ip = true) := by
  rcases Bool.or_eq_true_iff.1 h with h4 | h6
  · obtain ⟨b, hb⟩ := isValidIpv4_denotes h4
    exact .inl ⟨if_neg (colon_notMem_of_denotes hb), h4⟩
  · obtain ⟨b, hb⟩ := isValidIpv6_denotes h6
    exact .inr ⟨if_pos (colon_mem_of_denotes hb), h6⟩

/-- What the loader does with a line that passes the check. -/
theorem addHost_of_valid {t : CharTables} {line : Str} (h : isValidHostsLine t line = true) (result : List HostsEntry) :
    (trimComments line = [] ∧ addHost result line = .ok result) ∨
      (trimComments line ≠ [] ∧ ∃ e, CheckedEntry t (trimComments line) e ∧
        addHost result line = .ok (result ++ [e])) := by
  unfold isValidHostsLine at h
  simp only [addHost, trim_split_head]
  by_cases hs : trimComments line = []
  · exact .inl ⟨hs, by simp [hs, pure, Except.pure]⟩
  · refine .inr ⟨hs, ?_⟩
    simp only [List.isEmpty_eq_false_iff.2 hs, Bool.false_eq_true, if_false] at h ⊢
    cases hi : (trimComments line).idxOf? ' ' with
    | none => simp [hi] at h
    | some i =>
      simp only [hi, Bool.and_eq_true] at h ⊢
      obtain ⟨hip, hdomain⟩ := h
      have hlen : ((trimComments line).take i).length = i := by
        have := (List.findIdx?_eq_some_iff_findIdx_eq.1 hi).1
        rw [List.length_take]
        omega
      refine ⟨⟨globPieces (trim ((trimComments line).drop (i + 1))), (trimComments line).take i,
        if ':' ∈ (trimComments line).take i then 6 else 4⟩, ⟨⟨_, ?_, ?_, rfl, ?_⟩, family_of_valid hip⟩, ?_⟩
      · rw [hlen]; exact hi
      · rw [hlen]
      · rw [hlen]; exact ⟨hdomain, domainWildcardToRegex_eq hdomain⟩
      · rw [trim_ip hip, domainWildcardToRegex_eq hdomain]; rfl

theorem addHosts_of_valid {t : CharTables} : ∀ (ls : List Str) (result : List HostsEntry),
    (∀ line ∈ ls, isValidHostsLine t line = true) →
    ∃ entries, ls.foldlM addHost result = .ok (result ++ entries) ∧
      List.Forall₂ (CheckedEntry t) ((ls.map trimComments).filter fun s => !s.isEmpty) entries
  | [], result, _ => ⟨[], by rw [List.append_nil]; rfl, .nil⟩
  | line :: ls, result, h => by
    have hl := h line (List.mem_cons_self ..)
    have htail := fun x hx => h x (List.mem_cons_of_mem _ hx)
    rw [List.foldlM_cons, List.map_cons]
    rcases addHost_of_valid hl result with ⟨hs, hadd⟩ | ⟨hs, e, he, hadd⟩
    · obtain ⟨entries, hf, hall⟩ := addHosts_of_valid ls result htail
      rw [hadd]
      exact ⟨entries, hf, by rwa [List.filter_cons_of_neg (by simp [hs])]⟩
    · obtain ⟨entries, hf, hall⟩ := addHosts_of_valid ls (result ++ [e]) htail
      rw [hadd]
      refine ⟨e :: entries, ?_, ?_⟩
      · rw [List.append_assoc] at hf
        exact hf
      · rw [List.filter_cons_of_pos (by simp [hs])]
        exact .cons he hall

/-- Checked hosts load, to one entry for each line that is kept, in order. -/
theorem loadHosts_of_checked {t : CharTables} {preference : Str} (h : checkHostsValidity t preference = true) :
    ∃ entries, loadHosts preference = .ok entries ∧ List.Forall₂ (CheckedEntry t) (keptHosts preference) entries :=
  addHosts_of_valid (lines preference) [] (List.all_eq_true.1 h)

theorem loadHosts_of_checked_example : ∃ entries, loadHosts "10.0.0.1 a # one\n\n::1  *.b".toList = .ok entries ∧
    List.Forall₂ (CheckedEntry .ascii) (keptHosts "10.0.0.1 a # one\n\n::1  *.b".toList) entries :=
  loadHosts_of_checked (by decide +kernel)

end SunProxy.Pref
