/-
All settings together: what the settings page and the rule editor store of an input, the defaults, and
the loaders that `MyVpnService` calls when it starts. Whatever is edited, and in which order, the loaders
read what is stored, and the tunnel is built of values that were checked. The platform's builder has checks
of its own, and throws at what they refuse.
-/
import SunProxy.Net.Header
import SunProxy.Pref.Hosts
import SunProxy.Redirect.Compile

namespace SunProxy.Pref

open SunProxy.Kotlin SunProxy.Redirect SunProxy.Result SunProxy.Run SunProxy.Seq SunProxy.Utils

/-! ## The other settings -/

/-- What the check of a DNS server asks an `InetAddress`. -/
structure Inet where
  isAnyLocalAddress : Bool
  isLoopbackAddress : Bool
deriving DecidableEq, Repr

section Checks

variable (t : CharTables)

def isDomainChar (c : Char) : Bool := t.isWord c || (0x100 ≤ c.toNat && c.toNat ≤ 0xFFFF) || c == '-' || c == '_'

/-- `isValidDomain`: labels of one character or more, separated by dots. -/
def isValidDomain (s : Str) : Bool := (split '.' s).all fun label => !label.isEmpty && label.all (isDomainChar t)

/-- `isValidSearchDomainLine` -/
def isValidSearchDomainLine (line : Str) : Bool :=
  let s := trimComments line
  s.isEmpty || isValidDomain t s

/-- `checkSearchDomainsValidity` -/
def checkSearchDomainsValidity (input : Str) : Bool := (lines input).all (isValidSearchDomainLine t)

variable (getByName : Str → Option Inet)

def isRemote (address : Inet) : Bool := !address.isAnyLocalAddress && !address.isLoopbackAddress

/-- `isValidDnsListLine`; it throws what `InetAddress.getByName` throws. -/
def isValidDnsListLine (line : Str) : Option Bool :=
  let s := trimComments line
  if s.isEmpty then some true
  else if isValidIpv4 t s then (getByName s).map isRemote
  else if isValidIpv6 s then (getByName s).map isRemote
  else some false

/-- `checkDnsListValidity` -/
def checkDnsListValidity (dnsListInput : Str) : Option Bool :=
  (lines dnsListInput).allM (isValidDnsListLine t getByName)

end Checks

/-- `preference.lines().map(Utils::trimComments).filter { it.isNotEmpty() }` -/
def keptEntries (preference : Str) : List Str := ((lines preference).map trimComments).filter fun s => !s.isEmpty

/-! ## What is stored -/

/-- The stored settings, none where nothing is stored. -/
structure Preferences where
  redirectRule : Option Str
  enableIpv6 : Option Bool
  vpnAddresses : Option Str
  useDefaultDns : Option Bool
  dnsList : Option Str
  hosts : Option Str
  searchDomains : Option Str
deriving DecidableEq, Repr

namespace Preferences

/-- A new installation. -/
def installed : Preferences := ⟨none, none, none, none, none, none, none⟩

variable (p : Preferences)

/-- The values that `checkEnableIpv6Validity` and `loadVpnAddresses` read. -/
def settings : Settings := ⟨p.enableIpv6.getD true, p.vpnAddresses.getD []⟩

def dnsListText : Str := p.dnsList.getD "8.8.8.8\n8.8.4.4".toList

/-- The settings page stores the defaults of `preferences.xml` when it is opened. -/
def opened : Preferences where
  redirectRule := p.redirectRule
  enableIpv6 := some (p.enableIpv6.getD defaults.enableIpv6)
  vpnAddresses := some (p.vpnAddresses.getD defaults.vpnAddresses)
  useDefaultDns := some (p.useDefaultDns.getD true)
  dnsList := some (p.dnsList.getD "8.8.8.8\n8.8.4.4".toList)
  hosts := some (p.hosts.getD [])
  searchDomains := some (p.searchDomains.getD [])

end Preferences

inductive Change where
  | opened
  | enableIpv6 (newValue : Bool)
  | vpnAddresses (newValue : Str)
  | useDefaultDns (newValue : Bool)
  | dnsList (newValue : Str)
  | hosts (newValue : Str)
  | searchDomains (newValue : Str)
  /-- `saveRedirectRule` -/
  | redirectRule (input : Str)
deriving DecidableEq, Repr

section Store

variable (t : CharTables) (getByName : Str → Option Inet)

/-- A setting is stored when its check returns true, and the rule when it compiles. -/
def store (p : Preferences) : Change → Preferences
  | .opened => p.opened
  | .enableIpv6 b => if checkEnableIpv6Validity t p.settings b = .ok true then { p with enableIpv6 := some b } else p
  | .vpnAddresses input =>
    if checkVpnAddressesValidity t p.settings input = .ok true then { p with vpnAddresses := some input } else p
  | .useDefaultDns b => { p with useDefaultDns := some b }
  | .dnsList input => if checkDnsListValidity t getByName input = some true then { p with dnsList := some input } else p
  | .hosts input => if checkHostsValidity t input then { p with hosts := some input } else p
  | .searchDomains input => if checkSearchDomainsValidity t input then { p with searchDomains := some input } else p
  | .redirectRule input =>
    match compile t input with
    | .ok _ => { p with redirectRule := some input }
    | .error _ => p

end Store

/-! ## The loaders -/

/-- The DNS servers of the active network: `getDefaultDNS`. -/
def getDefaultDns (dnsServers : List Str) : List Str :=
  let pick (dns : Option Str) (other : Str) : Str :=
    match dns with
    | some s => if s.isEmpty then other else s
    | none => other
  [pick dnsServers[0]? "8.8.8.8".toList, pick dnsServers[1]? "8.8.4.4".toList]

def loadDnsList (dnsServers : List Str) (p : Preferences) : List Str :=
  if p.useDefaultDns.getD true then getDefaultDns dnsServers else keptEntries p.dnsListText

def loadSearchDomains (p : Preferences) : List Str := keptEntries (p.searchDomains.getD [])

/-- What `getBuilder` tells the `VpnService.Builder`, besides the applications. -/
structure Builder where
  addresses : List (Str × Int)
  dnsServers : List Str
  searchDomains : List Str
  routes : List (Str × Nat)
  mtu : Nat
deriving DecidableEq, Repr

/-- What `addAddress` and `addDnsServer` take; they throw an `IllegalArgumentException` at anything else. -/
structure Takes where
  address : Str × Int → Bool
  dnsServer : Str → Bool

def Builder.takenBy (takes : Takes) (b : Builder) : Bool :=
  b.addresses.all takes.address && b.dnsServers.all takes.dnsServer

/-- `getBuilder` -/
def getBuilder (t : CharTables) (takes : Takes) (dnsServers : List Str) (p : Preferences) :
    Except JavaException Builder := do
  let addresses ← loadVpnAddresses t p.settings.enableIpv6 p.settings.vpnAddresses
  if !addresses.all takes.address then throw .illegalArgument
  let servers := loadDnsList dnsServers p
  if !servers.all takes.dnsServer then throw .illegalArgument
  return {
    addresses
    dnsServers := servers
    searchDomains := loadSearchDomains p
    routes := ("0.0.0.0".toList, 0) :: if p.enableIpv6.getD true then [("2000::".toList, 3)] else []
    mtu := Net.getMtu }

/-! ## What every change keeps -/

section Changes

variable {t : CharTables} {getByName : Str → Option Inet} {p : Preferences}

/-- Each text that is stored has passed its check, or is the default. -/
structure Kept (t : CharTables) (getByName : Str → Option Inet) (p : Preferences) : Prop where
  vpnAddresses : Checked t p.settings
  hosts : checkHostsValidity t (p.hosts.getD []) = true
  redirectRule : ∃ rule, compile t (p.redirectRule.getD []) = .ok rule
  searchDomains : checkSearchDomainsValidity t (p.searchDomains.getD []) = true
  dnsList : ∀ input, p.dnsList = some input → input = "8.8.8.8\n8.8.4.4".toList ∨
    checkDnsListValidity t getByName input = some true

theorem kept_installed (t : CharTables) (getByName : Str → Option Inet) : Kept t getByName .installed where
  vpnAddresses := by
    intro line hline
    rw [List.mem_singleton.1 hline]
    rfl
  hosts := rfl
  redirectRule := ⟨_, rfl⟩
  searchDomains := rfl
  dnsList := nofun

theorem Kept.opened (h : Kept t getByName p) : Kept t getByName p.opened where
  vpnAddresses := by
    have hkept := h.vpnAddresses
    unfold Preferences.opened Preferences.settings
    unfold Preferences.settings at hkept
    cases hvpn : p.vpnAddresses with
    | none => exact checked_defaults
    | some input =>
      rw [hvpn] at hkept
      exact hkept
  hosts := h.hosts
  redirectRule := h.redirectRule
  searchDomains := h.searchDomains
  dnsList := by
    rintro _ ⟨⟩
    cases hdns : p.dnsList with
    | none => exact .inl rfl
    | some input => exact h.dnsList input hdns

/-- A change keeps what is stored in order. -/
theorem Kept.store (h : Kept t getByName p) (change : Change) : Kept t getByName (store t getByName p change) := by
  -- each check is about the text that it lets be stored, and about no other setting
  cases change with
  | opened => exact h.opened
  | enableIpv6 b =>
    rw [Pref.store]
    split
    · exact ⟨h.vpnAddresses, h.hosts, h.redirectRule, h.searchDomains, h.dnsList⟩
    · exact h
  | vpnAddresses input =>
    rw [Pref.store]
    split
    · rename_i hchecked
      have haccepted := (checkVpnAddressesValidity_iff p.settings input).1 hchecked
      exact ⟨haccepted.1, h.hosts, h.redirectRule, h.searchDomains, h.dnsList⟩
    · exact h
  | useDefaultDns b => exact ⟨h.vpnAddresses, h.hosts, h.redirectRule, h.searchDomains, h.dnsList⟩
  | dnsList input =>
    rw [Pref.store]
    split
    · rename_i hchecked
      refine ⟨h.vpnAddresses, h.hosts, h.redirectRule, h.searchDomains, ?_⟩
      rintro _ ⟨⟩
      exact .inr hchecked
    · exact h
  | hosts input =>
    rw [Pref.store]
    split
    · rename_i hchecked
      exact ⟨h.vpnAddresses, hchecked, h.redirectRule, h.searchDomains, h.dnsList⟩
    · exact h
  | searchDomains input =>
    rw [Pref.store]
    split
    · rename_i hchecked
      exact ⟨h.vpnAddresses, h.hosts, h.redirectRule, hchecked, h.dnsList⟩
    · exact h
  | redirectRule input =>
    rw [Pref.store]
    split
    · rename_i rule hrule
      exact ⟨h.vpnAddresses, h.hosts, ⟨rule, hrule⟩, h.searchDomains, h.dnsList⟩
    · exact h

/-! ## What the loaders give -/

theorem allM_eq_some_true {α : Type} {f : α → Option Bool} {l : List α} (h : l.allM f = some true) :
    ∀ x ∈ l, f x = some true := by
  induction l with
  | nil => nofun
  | cons x l ih =>
    rw [List.allM] at h
    cases hx : f x with
    | none =>
      rw [hx] at h
      cases h
    | some b =>
      rw [hx] at h
      cases b with
      | false => cases h
      | true => exact List.forall_mem_cons.2 ⟨hx, ih h⟩

theorem mem_keptEntries {preference s : Str} : s ∈ keptEntries preference ↔
    (∃ line ∈ lines preference, trimComments line = s) ∧ s ≠ [] := by
  simp only [keptEntries, List.mem_filter, List.mem_map, Bool.not_eq_true', List.isEmpty_eq_false_iff]

/-- An address that the tunnel may use as a DNS server. -/
def UsableDns (t : CharTables) (getByName : Str → Option Inet) (s : Str) : Prop :=
  isValidIp t s = true ∧ ∃ address, getByName s = some address ∧ isRemote address = true

theorem usableDns_of_valid {line : Str} (hne : trimComments line ≠ [])
    (h : isValidDnsListLine t getByName line = some true) :
    UsableDns t getByName (trimComments line) := by
  rw [isValidDnsListLine] at h
  simp only [List.isEmpty_eq_false_iff.2 hne, Bool.false_eq_true, if_false] at h
  split_ifs at h with h4 h6
  · exact ⟨Bool.or_eq_true_iff.2 (.inl h4), Option.map_eq_some_iff.1 h⟩
  · exact ⟨Bool.or_eq_true_iff.2 (.inr h6), Option.map_eq_some_iff.1 h⟩
  · cases h

theorem keptEntries_defaultDns : keptEntries "8.8.8.8\n8.8.4.4".toList = ["8.8.8.8".toList, "8.8.4.4".toList] := by
  decide

/-- The DNS servers that are not those of the network are the defaults, or were checked. -/
theorem Kept.dns (h : Kept t getByName p) {s : Str} (hs : s ∈ keptEntries p.dnsListText) :
    s = "8.8.8.8".toList ∨ s = "8.8.4.4".toList ∨ UsableDns t getByName s := by
  have default : s ∈ keptEntries "8.8.8.8\n8.8.4.4".toList → s = "8.8.8.8".toList ∨ s = "8.8.4.4".toList ∨
      UsableDns t getByName s := by
    intro hs
    rw [keptEntries_defaultDns, List.mem_cons, List.mem_singleton] at hs
    exact hs.imp id .inl
  unfold Preferences.dnsListText at hs
  cases hdns : p.dnsList with
  | none =>
    rw [hdns] at hs
    exact default hs
  | some input =>
    rw [hdns, Option.getD_some] at hs
    rcases h.dnsList input hdns with rfl | hchecked
    · exact default hs
    · obtain ⟨⟨line, hline, rfl⟩, hne⟩ := mem_keptEntries.1 hs
      exact .inr (.inr (usableDns_of_valid hne (allM_eq_some_true hchecked line hline)))

theorem Kept.searchDomain (h : Kept t getByName p) {s : Str} (hs : s ∈ loadSearchDomains p) :
    isValidDomain t s = true := by
  obtain ⟨⟨line, hline, rfl⟩, hne⟩ := mem_keptEntries.1 hs
  have hchecked := List.all_eq_true.1 h.searchDomains line hline
  rw [isValidSearchDomainLine] at hchecked
  simpa only [List.isEmpty_eq_false_iff.2 hne, Bool.false_or] using hchecked

theorem mem_of_head_split {d c : Char} {s first : Str} (h : arrayGet (split d s) 0 = .ok first)
    (hc : c ∈ first) : c ∈ s := by
  by_cases hd : d ∈ s
  · obtain ⟨pre, rest, rfl, hpre⟩ := List.eq_append_cons_of_mem hd
    rw [split, List.splitOn_append_cons_self_of_not_mem hpre] at h
    cases h
    exact List.mem_append_left _ hc
  · rw [split, List.splitOn_eq_singleton hd] at h
    cases h
    exact hc

/-- An address is part of its line. -/
theorem mem_of_loadVpnAddress {line : Str} {a : Str × Int} (h : loadVpnAddress t line = .ok a) {c : Char}
    (hc : c ∈ a.1) : c ∈ line := by
  obtain ⟨address, haddress, h⟩ := bind_eq_ok h
  refine mem_of_head_split haddress ?_
  split at h
  · obtain ⟨part, -, h⟩ := bind_eq_ok h
    obtain ⟨prefixLength, -, h⟩ := bind_eq_ok h
    cases h
    exact hc
  · cases h
    exact hc

theorem mem_of_mapM_ok {α β ε : Type} {f : α → Except ε β} {l : List α} {ys : List β} (h : l.mapM f = .ok ys) :
    ∀ y ∈ ys, ∃ x ∈ l, f x = .ok y := by
  induction l generalizing ys with
  | nil =>
    cases h
    nofun
  | cons x l ih =>
    rw [List.mapM_cons] at h
    obtain ⟨y, hy, h⟩ := bind_eq_ok h
    obtain ⟨rest, hrest, h⟩ := bind_eq_ok h
    cases h
    rw [List.forall_mem_cons]
    refine ⟨⟨x, List.mem_cons_self, hy⟩, fun y' hy' => ?_⟩
    obtain ⟨x', hx', hf⟩ := ih hrest y' hy'
    exact ⟨x', List.mem_cons_of_mem _ hx', hf⟩

/-! ## Runs of changes -/

/-- What the builder is given: an address for each line that is kept, as the line has it, and values that were
checked. While IPv6 is off there are no addresses and no route of it. -/
structure Builder.Checked (t : CharTables) (getByName : Str → Option Inet) (dnsServers : List Str) (p : Preferences)
    (b : Builder) : Prop where
  addresses : List.Forall₂ (fun line a => (split '/' line).headD [] = a.1 ∧ AcceptedAddress t a)
    (keptLines p.settings.enableIpv6 p.settings.vpnAddresses) b.addresses
  dnsServers : ∀ d ∈ b.dnsServers, d ∈ getDefaultDns dnsServers ∨ d = "8.8.8.8".toList ∨ d = "8.8.4.4".toList ∨
    UsableDns t getByName d
  searchDomains : ∀ d ∈ b.searchDomains, isValidDomain t d = true
  ipv4 : p.enableIpv6 = some false → (∀ a ∈ b.addresses, ':' ∉ a.1) ∧ b.routes = [("0.0.0.0".toList, 0)]

/-- What the service finds when it starts: everything loads, and has the form that is asked of it. The builder
is there unless the platform refuses some of it. -/
structure Starts (t : CharTables) (getByName : Str → Option Inet) (dnsServers : List Str) (p : Preferences) : Prop where
  hosts : ∃ entries, loadHosts (p.hosts.getD []) = .ok entries ∧
    List.Forall₂ (CheckedEntry t) (keptHosts (p.hosts.getD [])) entries
  redirectRule : ∃ rule, compile t (p.redirectRule.getD []) = .ok rule ∧ ∀ r ∈ rule.rules, r.Usable
  builder : ∃ b : Builder, b.Checked t getByName dnsServers p ∧
    ∀ takes, getBuilder t takes dnsServers p = if b.takenBy takes then .ok b else .error .illegalArgument

theorem Kept.starts (h : Kept t getByName p) (dnsServers : List Str) : Starts t getByName dnsServers p where
  hosts := addHosts_of_valid (lines (p.hosts.getD [])) [] (List.all_eq_true.1 h.hosts)
  redirectRule := by
    obtain ⟨rule, hrule⟩ := h.redirectRule
    exact ⟨rule, hrule, usable_of_compile hrule⟩
  builder := by
    obtain ⟨addresses, hload, hall⟩ := loadVpnAddresses_of_checked (b := p.settings.enableIpv6) h.vpnAddresses
    refine ⟨⟨addresses, loadDnsList dnsServers p, loadSearchDomains p,
      ("0.0.0.0".toList, 0) :: if p.enableIpv6.getD true then [("2000::".toList, 3)] else [], Net.getMtu⟩,
      ⟨hall, ?_, fun d hd => h.searchDomain hd, fun hoff => ⟨fun a ha hcolon => ?_, ?_⟩⟩, fun takes => ?_⟩
    · intro d hd
      dsimp only at hd
      rw [loadDnsList] at hd
      split at hd
      · exact .inl hd
      · exact .inr (h.dns hd)
    · -- with IPv6 off no line with a colon is kept
      obtain ⟨line, hline, haddress⟩ := mem_of_mapM_ok hload a ha
      obtain ⟨-, -, hnone⟩ := mem_keptLines.1 hline
      exact hnone (by rw [Preferences.settings, hoff]; rfl) (mem_of_loadVpnAddress haddress hcolon)
    · rw [hoff]
      rfl
    · simp only [getBuilder, hload, Builder.takenBy, bind, Except.bind]
      by_cases ha : addresses.all takes.address = true
      · by_cases hd : (loadDnsList dnsServers p).all takes.dnsServer = true
        · simp only [ha, hd, Bool.not_true, Bool.and_true, Bool.false_eq_true, if_false, if_true]
          rfl
        · simp only [ha, hd, Bool.not_true, Bool.not_false, if_true, Bool.and_false, Bool.false_eq_true, if_false]
          rfl
      · simp only [ha, Bool.not_false, if_true, Bool.false_and, Bool.false_eq_true, if_false]
        rfl

/-- The settings page is opened, and settings are changed with and without success. -/
def editedSettings : List Change :=
  [.opened, .enableIpv6 false, .dnsList "127.0.0.1".toList, .useDefaultDns false, .dnsList "9.9.9.9 # quad".toList,
    .hosts "10.0.0.1 a".toList, .redirectRule "10.0.0.1:80 $ true".toList, .redirectRule "10.0.0.1:80 $ (".toList]

end Changes

end SunProxy.Pref
