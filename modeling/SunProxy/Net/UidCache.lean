/-
The uid cache of `get_uid_sub`. A query that finds no entry scans its socket table and caches every
row, so a later query finds the first row that matches it, where the scan gives the uid of the last
one. A cached answer is the answer of a scan exactly where the two rows have the same uid.
-/
import SunProxy.Lib.Run
import SunProxy.Lib.Seq
import SunProxy.Net.ProcTable

namespace SunProxy.Net

open SunProxy.Buffer SunProxy.Kotlin SunProxy.Run SunProxy.Seq

/-- Milliseconds. -/
def UID_MAX_AGE : Int := 30000

/-- `struct uid_cache_entry` -/
structure UidCacheEntry where
  version : Nat
  protocol : Nat
  saddr : Bytes
  sport : Nat
  daddr : Bytes
  dport : Nat
  uid : Int
  time : Int

/-- The arguments of `get_uid_sub`. -/
structure UidQuery where
  version : Nat
  protocol : Nat
  saddr : Bytes
  sport : Nat
  daddr : Bytes
  dport : Nat
  now : Int
  version_eq : version = 4 ∨ version = 6

/-- The number of bytes `memcmp` and `memcpy` are given. -/
def UidQuery.width (q : UidQuery) : Nat := wordCount q.version * 4

/-- An address is the one asked for, or zero. -/
def addressMatches (width : Nat) (own asked : Bytes) : Bool :=
  own.take width == asked.take width || own.take width == (List.replicate 16 0).take width

def UidCacheEntry.isFresh (now : Int) (e : UidCacheEntry) : Bool := now - e.time ≤ UID_MAX_AGE

/-- The test of the loop over the cache. -/
def UidCacheEntry.answers (q : UidQuery) (e : UidCacheEntry) : Bool :=
  e.isFresh q.now && e.version == q.version && e.protocol == q.protocol && e.sport == q.sport &&
    (e.dport == q.dport || e.dport == 0) && addressMatches q.width e.saddr q.saddr &&
    addressMatches q.width e.daddr q.daddr

/-- The test of the scan. -/
def UidRow.answers (q : UidQuery) (row : UidRow) : Bool :=
  row.sport == q.sport && (row.dport == q.dport || row.dport == 0) && addressMatches q.width row.saddr q.saddr &&
    addressMatches q.width row.daddr q.daddr

/-- A row in an entry; of the addresses only the bytes of the version are copied. -/
def UidCacheEntry.store (e : UidCacheEntry) (q : UidQuery) (row : UidRow) : UidCacheEntry where
  version := q.version % 256
  protocol := q.protocol % 256
  saddr := row.saddr.take q.width ++ e.saddr.drop q.width
  sport := (row.sport % 65536).toNat
  daddr := row.daddr.take q.width ++ e.daddr.drop q.width
  dport := (row.dport % 65536).toNat
  uid := row.uid
  time := q.now

/-- An entry the array was extended by. -/
def UidCacheEntry.unset : UidCacheEntry := ⟨0, 0, [], 0, [], 0, 0, 0⟩

/-- The loop over `c`, from an entry that is too old or to the end. -/
def nextSlot (now : Int) (cache : List UidCacheEntry) (c : Nat) : Nat :=
  c + ((cache.drop c).takeWhile (·.isFresh now)).length

/-- A row is cached at `c` or behind, in place of an entry that is too old if there is one. -/
def cacheRow (q : UidQuery) (cache : List UidCacheEntry) (c : Nat) (row : UidRow) : List UidCacheEntry × Nat :=
  let c := nextSlot q.now cache c
  match cache[c]? with
  | some e => (cache.set c (e.store q row), c)
  | none => (cache ++ [UidCacheEntry.unset.store q row], cache.length)

/-- The loop over the lines of a table, with `c` and `uid`. -/
def scanLines (q : UidQuery) : List Str → List UidCacheEntry → Nat → Int → Int × List UidCacheEntry
  | [], cache, _, uid => (uid, cache)
  | line :: lines, cache, c, uid =>
    match readRow q.version line with
    | none => (-2, cache)
    | some row =>
      let uid := if row.answers q then row.uid else uid
      let (cache, c) := cacheRow q cache c row
      scanLines q lines cache c uid

/-- `get_uid_sub`, with the cache after it. -/
def getUidSub (tables : ProcTables) (cache : List UidCacheEntry) (q : UidQuery) : Int × List UidCacheEntry :=
  match cache.find? (·.answers q) with
  | some e => (e.uid, cache)
  | none =>
    match procFile q.version q.protocol with
    | none => (-1, cache)
    | some file =>
      match tables file with
      | none => (-2, cache)
      -- the first line is the header
      | some lines => scanLines q lines.tail cache 0 (-1)

/-- `::ffff:a.b.c.d` -/
def mapped (addr : Bytes) : Bytes := List.replicate 10 0 ++ [0xFF, 0xFF] ++ addr

/-- The query for an IPv4 flow in the tables of IPv6. -/
def UidQuery.asIpv6 (q : UidQuery) : UidQuery :=
  { q with version := 6, saddr := mapped q.saddr, daddr := mapped q.daddr, version_eq := .inr rfl }

/-- `get_uid`, with the cache after it; for IPv4 the tables of IPv6 are asked first. -/
def getUid (tables : ProcTables) (cache : List UidCacheEntry) (q : UidQuery) : Int × List UidCacheEntry :=
  let first := if q.version = 4 then getUidSub tables cache q.asIpv6 else (-1, cache)
  if first.1 = -1 then getUidSub tables first.2 q else first

/-! ## The properties -/

/-- What scanning the table gives, the cache left out. -/
def scanUid (tables : ProcTables) (q : UidQuery) : Int := (getUidSub tables [] q).1

/-- The cache a query leaves. -/
def cacheAfter (tables : ProcTables) (cache : List UidCacheEntry) (q : UidQuery) : List UidCacheEntry :=
  (getUidSub tables cache q).2

/-- The answer is that of a scan. -/
def AnsweredAlike (tables : ProcTables) (cache : List UidCacheEntry) (q : UidQuery) : Prop :=
  (getUidSub tables cache q).1 = scanUid tables q

instance (tables : ProcTables) (cache : List UidCacheEntry) (q : UidQuery) : Decidable (AnsweredAlike tables cache q) :=
  inferInstanceAs (Decidable (_ = _))

/-- The lines of the query's table. -/
def tableLines (tables : ProcTables) (q : UidQuery) : List Str :=
  (((procFile q.version q.protocol).bind tables).getD []).tail

/-- The test a row passes once it is in the cache, where its ports have 16 bits. -/
def UidRow.answersStored (q : UidQuery) (row : UidRow) : Bool :=
  { row with sport := row.sport % 65536, dport := row.dport % 65536 : UidRow }.answers q

/-- The uid of the first row that answers from the cache. -/
def firstUid (q : UidQuery) (lines : List Str) : Option Int :=
  ((readRows q.version lines).find? (·.answersStored q)).map (·.uid)

/-- The uid of the last row that answers the scan, `uid` without one; `-2` with a line that is no row. -/
def lastUid (q : UidQuery) (lines : List Str) (uid : Int) : Int :=
  if lines.all fun line => (readRow q.version line).isSome then
    ((findLast (·.answers q) (readRows q.version lines)).map (·.uid)).getD uid
  else -2

/-- The first and the last row of the table for the query have the same uid. -/
def SameUid (tables : ProcTables) (q : UidQuery) : Prop :=
  firstUid q (tableLines tables q) = some (lastUid q (tableLines tables q) (-1))

instance (tables : ProcTables) (q : UidQuery) : Decidable (SameUid tables q) :=
  inferInstanceAs (Decidable (_ = _))

/-- A query that is answered from the cache is one for which the table names one uid. -/
def HitSettled (tables : ProcTables) (cache : List UidCacheEntry) (q : UidQuery) : Prop :=
  (cache.find? (·.answers q)).isSome → SameUid tables q

instance (tables : ProcTables) (cache : List UidCacheEntry) (q : UidQuery) : Decidable (HitSettled tables cache q) :=
  inferInstanceAs (Decidable (_ → _))

/-! ## A row in the cache -/

/-- An entry a row was stored in by the query. -/
def Stored (q : UidQuery) (row : UidRow) (e : UidCacheEntry) : Prop := ∃ old : UidCacheEntry, e = old.store q row

theorem take_store {width : Nat} {own : Bytes} (h : own.length = width) (rest : Bytes) :
    (own.take width ++ rest).take width = own.take width := by
  rw [List.take_append_of_le_length (by rw [List.length_take, h, Nat.min_self]), List.take_take, Nat.min_self]

theorem toNat_beq_mod (n : Int) (m : Nat) : ((n % 65536).toNat == m) = (n % 65536 == (m : Int)) := by
  rw [Bool.eq_iff_iff, beq_iff_eq, beq_iff_eq]
  omega

/-- An entry of a query's table answers as the row in it does, while it is fresh. -/
theorem Stored.answers {q q' : UidQuery} {row : UidRow} {e : UidCacheEntry} (h : Stored q row e)
    (hrow : row.saddr.length = q.width ∧ row.daddr.length = q.width) (hversion : q.version = q'.version)
    (hprotocol : q.protocol = q'.protocol) (hp : q.protocol < 256) (hfresh : q'.now - q.now ≤ UID_MAX_AGE) :
    e.answers q' = row.answersStored q' := by
  obtain ⟨old, rfl⟩ := h
  have hv : q.version % 256 = q'.version := by
    rw [← hversion]
    rcases q.version_eq with hq | hq <;> rw [hq]
  have hp' : q.protocol % 256 = q'.protocol := by rw [Nat.mod_eq_of_lt hp, hprotocol]
  have hwidth : q'.width = q.width := congrArg (wordCount · * 4) hversion.symm
  have hzero : ((row.dport % 65536).toNat == 0) = (row.dport % 65536 == 0) := toNat_beq_mod row.dport 0
  simp only [UidCacheEntry.answers, UidCacheEntry.store, UidCacheEntry.isFresh, UidRow.answersStored, UidRow.answers,
    addressMatches, hwidth, hv, hp', toNat_beq_mod, hzero, take_store hrow.1, take_store hrow.2, decide_eq_true hfresh,
    beq_self_eq_true, Bool.true_and]

theorem Stored.not_answers {q q' : UidQuery} {row : UidRow} {e : UidCacheEntry} (h : Stored q row e)
    (hp : q.protocol < 256) (hother : ¬ (q.version = q'.version ∧ q.protocol = q'.protocol)) :
    e.answers q' = false := by
  obtain ⟨old, rfl⟩ := h
  have hv : q.version % 256 = q.version := by
    rcases q.version_eq with hq | hq <;> rw [hq]
  rw [Bool.eq_false_iff]
  intro ha
  simp only [UidCacheEntry.answers, UidCacheEntry.store, hv, Nat.mod_eq_of_lt hp, Bool.and_eq_true, beq_iff_eq] at ha
  exact hother ⟨ha.1.1.1.1.1.2, ha.1.1.1.1.2⟩

/-! ## Filling the cache -/

variable {q : UidQuery} {fresh old cache : List UidCacheEntry}

/-- The loop over `c` ends behind the fresh entries. -/
theorem nextSlot_append {now : Int} {c : Nat} (hfresh : ∀ e ∈ fresh, e.isFresh now)
    (hold : ∀ e ∈ old, ¬ e.isFresh now) (hc : c ≤ fresh.length) : nextSlot now (fresh ++ old) c = fresh.length := by
  have htake : ((fresh ++ old).drop c).takeWhile (·.isFresh now) = fresh.drop c := by
    rw [List.drop_append_of_le_length hc, List.takeWhile_append_of_pos fun e he => hfresh e (List.mem_of_mem_drop he)]
    cases old with
    | nil => rw [List.takeWhile_nil, List.append_nil]
    | cons e old => rw [List.takeWhile_cons_of_neg (hold e List.mem_cons_self), List.append_nil]
  rw [nextSlot, htake, List.length_drop]
  omega

/-- A row comes behind the fresh entries, in place of an old one if there is one. -/
theorem cacheRow_append {c : Nat} (hfresh : ∀ e ∈ fresh, e.isFresh q.now) (hold : ∀ e ∈ old, ¬ e.isFresh q.now)
    (hc : c ≤ fresh.length) (row : UidRow) :
    ∃ e, Stored q row e ∧ cacheRow q (fresh ++ old) c row = (fresh ++ [e] ++ old.tail, fresh.length) := by
  unfold cacheRow
  rw [nextSlot_append hfresh hold hc]
  dsimp only
  cases old with
  | nil =>
    refine ⟨_, ⟨.unset, rfl⟩, ?_⟩
    rw [List.append_nil, List.tail_nil, List.append_nil, List.getElem?_eq_none (Nat.le_refl _)]
  | cons e old =>
    refine ⟨_, ⟨e, rfl⟩, ?_⟩
    rw [List.getElem?_append_right (Nat.le_refl _), Nat.sub_self]
    simp

/-- A scan answers with the last row of the table, whatever is in the cache. -/
theorem scanLines_fst (q : UidQuery) (lines : List Str) (cache : List UidCacheEntry) (c : Nat) (uid : Int) :
    (scanLines q lines cache c uid).1 = lastUid q lines uid := by
  induction lines generalizing cache c uid with
  | nil => rfl
  | cons line lines ih =>
    unfold scanLines
    cases hrow : readRow q.version line with
    | none =>
      unfold lastUid
      rw [List.all_cons, hrow, if_neg (by simp)]
    | some row =>
      dsimp only
      rw [ih]
      unfold lastUid
      rw [List.all_cons, hrow, Option.isSome_some, Bool.true_and, readRows, hrow, getD_findLast_cons]

/-- A scan puts its rows behind the fresh entries, in the order of the table. -/
theorem scanLines_snd (lines : List Str) {c : Nat} (uid : Int) (hfresh : ∀ e ∈ fresh, e.isFresh q.now)
    (hold : ∀ e ∈ old, ¬ e.isFresh q.now) (hc : c ≤ fresh.length) :
    ∃ block rest, List.Forall₂ (Stored q) (readRows q.version lines) block ∧ rest <:+ old ∧
      (scanLines q lines (fresh ++ old) c uid).2 = fresh ++ block ++ rest := by
  induction lines generalizing fresh old c uid with
  | nil => exact ⟨[], old, .nil, List.suffix_refl old, by rw [List.append_nil]; rfl⟩
  | cons line lines ih =>
    unfold scanLines readRows
    cases hrow : readRow q.version line with
    | none => exact ⟨[], old, .nil, List.suffix_refl old, by rw [List.append_nil]⟩
    | some row =>
      obtain ⟨e, he, hcache⟩ := cacheRow_append hfresh hold hc row
      have hnow : e.isFresh q.now := by
        obtain ⟨old', rfl⟩ := he
        simp [UidCacheEntry.isFresh, UidCacheEntry.store, UID_MAX_AGE]
      have hfresh' : ∀ e' ∈ fresh ++ [e], e'.isFresh q.now := by
        intro e' he'
        rcases List.mem_append.1 he' with he' | he'
        · exact hfresh e' he'
        · rwa [List.mem_singleton.1 he']
      have hold' : ∀ e' ∈ old.tail, ¬ e'.isFresh q.now := fun e' he' => hold e' (List.mem_of_mem_tail he')
      -- `c` stays at the entry just written, which is fresh now
      have hc' : fresh.length ≤ (fresh ++ [e]).length := by simp
      obtain ⟨block, rest, hblock, hrest, hscan⟩ := ih (if row.answers q then row.uid else uid) hfresh' hold' hc'
      refine ⟨e :: block, rest, .cons he hblock, hrest.trans (List.tail_suffix old), ?_⟩
      dsimp only
      rw [hcache, hscan, List.append_assoc fresh, List.singleton_append]

/-! ## What is cached -/

/-- The time of a query or of an entry is in the period that starts at `start`. -/
def Within (start time : Int) : Prop := start ≤ time ∧ time ≤ start + UID_MAX_AGE

instance (start time : Int) : Decidable (Within start time) := inferInstanceAs (Decidable (_ ∧ _))

theorem Within.le {start t u : Int} (h : Within start t) (h' : Within start u) : t - u ≤ UID_MAX_AGE := by
  unfold Within at h h'
  omega

/-- The tables the scans of the period have cached, one after another. -/
inductive Scanned (tables : ProcTables) (start : Int) : List UidCacheEntry → Prop
  | nil : Scanned tables start []
  | scan {fresh block : List UidCacheEntry} (q : UidQuery) (file : ProcFile) (lines : List Str)
      (before : Scanned tables start fresh) (now : Within start q.now)
      (name : procFile q.version q.protocol = some file) (content : tables file = some lines)
      (rows : List.Forall₂ (Stored q) (readRows q.version lines.tail) block) : Scanned tables start (fresh ++ block)

/-- The tables scanned in the period, and entries from before it that are too old. -/
def Filled (tables : ProcTables) (start : Int) (cache : List UidCacheEntry) : Prop :=
  ∃ fresh old, cache = fresh ++ old ∧ Scanned tables start fresh ∧ ∀ e ∈ old, UID_MAX_AGE < start - e.time

variable {tables : ProcTables} {start : Int}

theorem Scanned.within (h : Scanned tables start fresh) : ∀ e ∈ fresh, Within start e.time := by
  induction h with
  | nil => rintro e ⟨⟩
  | scan q file lines _ hnow _ _ hrows ih =>
    intro e he
    rcases List.mem_append.1 he with he | he
    · exact ih e he
    · obtain ⟨row, -, old, rfl⟩ := exists_of_mem_forall₂ hrows he
      exact hnow

/-- A cached answer is that of the first row of the query's table. -/
theorem Scanned.find? (h : Scanned tables start fresh) (hq : Within start q.now) :
    fresh.find? (·.answers q) = none ∨
      (fresh.find? (·.answers q)).map (·.uid) = firstUid q (tableLines tables q) := by
  induction h with
  | nil => exact .inl rfl
  | @scan fresh block q' file lines _ hnow hname hcontent hrows ih =>
    rw [List.find?_append]
    cases hfind : fresh.find? (·.answers q) with
    | some e =>
      -- an earlier scan of the same table comes first
      rw [hfind] at ih
      exact .inr (ih.resolve_left (Option.some_ne_none e))
    | none =>
      rw [Option.none_or]
      have hp := protocol_lt_of_procFile hname
      by_cases hsame : q'.version = q.version ∧ q'.protocol = q.protocol
      · right
        obtain ⟨hversion, hprotocol⟩ := hsame
        have hlines : tableLines tables q = lines.tail := by
          unfold tableLines
          rw [← hversion, ← hprotocol, hname, Option.bind_some, hcontent, Option.getD_some]
        rw [firstUid, hlines, ← hversion]
        refine (map_find?_of_forall₂ hrows fun row hrow e he => ?_).symm
        constructor
        · exact (he.answers (length_readRows hrow) hversion hprotocol hp (hq.le hnow)).symm
        · obtain ⟨old, rfl⟩ := he
          rfl
      · left
        rw [List.find?_eq_none]
        intro e he
        obtain ⟨row, -, hstored⟩ := exists_of_mem_forall₂ hrows he
        exact Bool.eq_false_iff.1 (hstored.not_answers hp hsame)

namespace Filled

theorem isFresh (h : Within start q.now) (hs : Scanned tables start fresh) : ∀ e ∈ fresh, e.isFresh q.now :=
  fun e he => decide_eq_true (h.le (hs.within e he))

theorem not_isFresh (h : Within start q.now) (hold : ∀ e ∈ old, UID_MAX_AGE < start - e.time) :
    ∀ e ∈ old, ¬ e.isFresh q.now := by
  intro e he hfresh
  have hage := hold e he
  have hnow : q.now - e.time ≤ UID_MAX_AGE := of_decide_eq_true hfresh
  have hstart := h.1
  omega

/-- What the cache answers is the uid of the first row of the table. -/
theorem find? (h : Filled tables start cache) (hq : Within start q.now) {e : UidCacheEntry}
    (he : cache.find? (·.answers q) = some e) : firstUid q (tableLines tables q) = some e.uid := by
  obtain ⟨fresh, old, rfl, hs, hold⟩ := h
  have hnone : old.find? (·.answers q) = none := by
    rw [List.find?_eq_none]
    intro e' he' ha
    have hfresh : e'.isFresh q.now = true := by
      simp only [UidCacheEntry.answers, Bool.and_eq_true] at ha
      exact ha.1.1.1.1.1.1
    exact not_isFresh hq hold e' he' hfresh
  rw [List.find?_append, hnone, Option.or_none] at he
  rcases hs.find? hq with hfind | hfind
  · rw [he] at hfind
    cases hfind
  · rw [← hfind, he]
    rfl

/-- A query leaves a filled cache. -/
theorem getUidSub (h : Filled tables start cache) (hq : Within start q.now) :
    Filled tables start (getUidSub tables cache q).2 := by
  unfold Net.getUidSub
  split
  · exact h
  · split
    · exact h
    · rename_i file hname
      split
      · exact h
      · rename_i lines hcontent
        obtain ⟨fresh, old, rfl, hs, hold⟩ := h
        obtain ⟨block, rest, hrows, hrest, hscan⟩ :=
          scanLines_snd lines.tail (-1) (isFresh hq hs) (not_isFresh hq hold) (Nat.zero_le _)
        rw [hscan]
        refine ⟨fresh ++ block, rest, rfl, .scan q file lines hs hq hname hcontent hrows, ?_⟩
        exact fun e he => hold e (hrest.subset he)

end Filled

/-! ## The answers -/

/-- Without an entry, the answer does not depend on the cache. -/
theorem getUidSub_of_miss (h : cache.find? (·.answers q) = none) : (getUidSub tables cache q).1 = scanUid tables q := by
  unfold scanUid getUidSub
  rw [h, List.find?_nil]
  dsimp only
  cases procFile q.version q.protocol with
  | none => rfl
  | some file =>
    dsimp only
    cases tables file with
    | none => rfl
    | some lines => exact (scanLines_fst q lines.tail cache 0 (-1)).trans (scanLines_fst q lines.tail [] 0 (-1)).symm

/-- What a scan gives when the table has a row that the cache could answer from. -/
theorem scanUid_eq_lastUid {uid : Int} (h : firstUid q (tableLines tables q) = some uid) :
    scanUid tables q = lastUid q (tableLines tables q) (-1) := by
  unfold scanUid getUidSub tableLines
  unfold tableLines at h
  rw [List.find?_nil]
  dsimp only
  cases hname : procFile q.version q.protocol with
  | none =>
    rw [hname] at h
    cases h
  | some file =>
    dsimp only
    cases hcontent : tables file with
    | none =>
      rw [hname, Option.bind_some, hcontent] at h
      cases h
    | some lines =>
      rw [Option.bind_some, hcontent, Option.getD_some]
      exact scanLines_fst q lines.tail [] 0 (-1)

theorem answeredAlike_iff_hitSettled (h : Filled tables start cache) (hq : Within start q.now) :
    AnsweredAlike tables cache q ↔ HitSettled tables cache q := by
  unfold AnsweredAlike HitSettled
  cases he : cache.find? (·.answers q) with
  | none => exact iff_of_true (getUidSub_of_miss he) nofun
  | some e =>
    have hfirst := h.find? hq he
    have hanswer : (getUidSub tables cache q).1 = e.uid := by
      unfold getUidSub
      rw [he]
    unfold SameUid
    rw [hanswer, scanUid_eq_lastUid hfirst, hfirst, Option.some.injEq]
    exact ⟨fun heq _ => heq, fun heq => heq rfl⟩

/-- For all tables that stay as they are, and all queries of one period: every query is answered as
a scan would answer it exactly when every query that is answered from the cache is one for which the
first and the last row of its table have the same uid. -/
theorem answeredAlike_iff (tables : ProcTables) (start : Int) {cache : List UidCacheEntry}
    (hold : ∀ e ∈ cache, UID_MAX_AGE < start - e.time) {qs : List UidQuery} (hqs : ∀ q ∈ qs, Within start q.now) :
    EveryStep (cacheAfter tables) (AnsweredAlike tables) cache qs ↔
      EveryStep (cacheAfter tables) (HitSettled tables) cache qs := by
  have hfilled : Filled tables start cache := ⟨[], cache, rfl, .nil, hold⟩
  refine everyStep_iff (fun cache q h hq => ?_) (fun cache q h hq => ?_) hfilled hqs
  · exact h.getUidSub hq
  · exact answeredAlike_iff_hitSettled h hq

/-- `/proc/net/udp6` with sockets of these users at port 5353 of all addresses. -/
def mdnsTable (uids : List Str) : ProcTables
  | .udp6 => some (
      "  sl  local_address remote_address st tx_queue rx_queue tr tm->when retrnsmt uid timeout inode".toList ::
      uids.map fun uid =>
        " 812: 00000000000000000000000000000000:14E9 00000000000000000000000000000000:0000 07 ".toList ++
          "00000000:00000000 00:00000000 00000000 ".toList ++ uid ++ "        0 71930 2 0000000000000000 0".toList)
  | _ => none

/-- A datagram from `::ffff:10.1.10.1` port 5353 to `::ffff:224.0.0.251` port 5353. -/
def mdnsQuery (now : Int) : UidQuery where
  version := 6
  protocol := IPPROTO_UDP
  saddr := mapped [10, 1, 10, 1]
  sport := 5353
  daddr := mapped [224, 0, 0, 251]
  dport := 5353
  now := now
  version_eq := .inr rfl

theorem answeredAlike_oneUser :
    EveryStep (cacheAfter (mdnsTable ["10001".toList, "10001".toList]))
      (AnsweredAlike (mdnsTable ["10001".toList, "10001".toList])) [] [mdnsQuery 0, mdnsQuery 30000] := by
  refine (answeredAlike_iff (mdnsTable ["10001".toList, "10001".toList]) 0 (List.forall_mem_nil _) ?_).2
    (by decide +kernel)
  show ∀ q ∈ [mdnsQuery 0, mdnsQuery 30000], Within 0 q.now
  decide

/-- The scan finds the socket of 10002 and the cache, for the same query, that of 10001. -/
theorem not_answeredAlike_twoUsers :
    ¬ EveryStep (cacheAfter (mdnsTable ["10001".toList, "10002".toList]))
      (AnsweredAlike (mdnsTable ["10001".toList, "10002".toList])) [] [mdnsQuery 0, mdnsQuery 1] := by
  decide +kernel

/-! ## `get_uid` -/

/-- What `get_uid` would give without a cache. -/
def scanBoth (tables : ProcTables) (q : UidQuery) : Int :=
  if q.version = 4 ∧ scanUid tables q.asIpv6 ≠ -1 then scanUid tables q.asIpv6 else scanUid tables q

/-- The rows of the table for the query name at most one uid. -/
def Unambiguous (tables : ProcTables) (q : UidQuery) : Prop :=
  (firstUid q (tableLines tables q)).isSome → SameUid tables q

theorem Unambiguous.getUidSub_eq (h : Unambiguous tables q) (hf : Filled tables start cache) (hq : Within start q.now) :
    (getUidSub tables cache q).1 = scanUid tables q := by
  refine (answeredAlike_iff_hitSettled hf hq).2 fun hit => h ?_
  obtain ⟨e, he⟩ := Option.isSome_iff_exists.1 hit
  rw [hf.find? hq he]
  rfl

theorem Filled.getUid (h : Filled tables start cache) (hq : Within start q.now) :
    Filled tables start (getUid tables cache q).2 := by
  unfold Net.getUid
  by_cases hv : q.version = 4
  · rw [if_pos hv]
    have hfirst : Filled tables start (Net.getUidSub tables cache q.asIpv6).2 := h.getUidSub hq
    dsimp only
    split
    · exact hfirst.getUidSub hq
    · exact hfirst
  · rw [if_neg hv]
    exact h.getUidSub hq

/-- In a run of queries whose rows name one uid each, `get_uid` gives what the tables say. -/
theorem getUid_eq_scanBoth (hold : ∀ e ∈ cache, UID_MAX_AGE < start - e.time) {qs : List UidQuery}
    (hqs : ∀ q ∈ qs, Within start q.now ∧ Unambiguous tables q ∧ (q.version = 4 → Unambiguous tables q.asIpv6)) :
    EveryStep (fun cache q => (getUid tables cache q).2) (fun cache q => (getUid tables cache q).1 = scanBoth tables q)
      cache qs := by
  have hfilled : Filled tables start cache := ⟨[], cache, rfl, .nil, hold⟩
  refine (everyStep_iff (fun cache q h hq => h.getUid hq.1) (fun cache q h hq => ?_) hfilled hqs).2
    (everyStep_true cache qs)
  obtain ⟨hnow, hown, hmapped⟩ := hq
  refine iff_of_true ?_ trivial
  unfold getUid scanBoth
  by_cases hv : q.version = 4
  · have hfirst : (getUidSub tables cache q.asIpv6).1 = scanUid tables q.asIpv6 := (hmapped hv).getUidSub_eq h hnow
    rw [if_pos hv]
    dsimp only
    rw [hfirst]
    by_cases hnone : scanUid tables q.asIpv6 = -1
    · rw [if_pos hnone, if_neg fun hboth => hboth.2 hnone]
      exact hown.getUidSub_eq (h.getUidSub hnow) hnow
    · rw [if_neg hnone, if_pos ⟨hv, hnone⟩, hfirst]
  · rw [if_neg hv, if_neg (fun hboth : q.version = 4 ∧ _ => hv hboth.1)]
    exact hown.getUidSub_eq h hnow

end SunProxy.Net
