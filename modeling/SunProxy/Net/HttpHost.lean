/-
The host name of an HTTP request. The loop over headers finds the first `Host` header of the lines before
the blank one, whatever bytes it is given; a request with such a header gives its name back, without the port.
-/
import SunProxy.Net.ServerName

namespace SunProxy.Net

open SunProxy.Buffer

variable {data rest line : Bytes}

/-! ## Lines -/

/-- A line without the carriage return it may end with. -/
def withoutCr (line : Bytes) : Bytes := if line.getLast? = some 13 then line.dropLast else line

/-- The lines after the first one, up to a blank one or the end. -/
def headerLines (data : Bytes) : List Bytes := (((data.splitOn 10).drop 1).map withoutCr).takeWhile (· ≠ [])

def isHostLine (line : Bytes) : Bool := 5 < line.length && (line.take 5).map asciiLowerByte = [104, 111, 115, 116, 58]

/-- What follows the key and the blanks, as a C string in a buffer of its length. -/
def hostValue (line : Bytes) : Bytes :=
  let value := (line.drop 5).dropWhile isBlank
  cString value ++ List.replicate (value.length - (cString value).length) 0

theorem isPrefix_withoutCr (line : Bytes) : withoutCr line <+: line := by
  unfold withoutCr
  split
  · exact List.dropLast_prefix line
  · exact List.prefix_refl line

theorem length_withoutCr (line : Bytes) :
    (withoutCr line).length = if line.getLast? = some 13 then line.length - 1 else line.length := by
  unfold withoutCr
  split
  · exact List.length_dropLast
  · rfl

theorem withoutCr_crlf (line : Bytes) : withoutCr (line ++ [13]) = line := by
  rw [withoutCr, if_pos List.getLast?_concat, List.dropLast_concat]

/-- Data without a line feed are one line; others are a line, and what follows its feed. -/
theorem exists_line (data : Bytes) : 10 ∉ data ∨ ∃ pre rest, data = pre ++ 10 :: rest ∧ 10 ∉ pre := by
  by_cases h : 10 ∈ data
  · exact .inr (List.eq_append_cons_of_mem h)
  · exact .inl h

theorem headerLines_of_notMem (h : 10 ∉ data) : headerLines data = [] := by
  rw [headerLines, List.splitOn_eq_singleton h]
  rfl

theorem takeWhile_line (h : 10 ∉ line) : line.takeWhile (· != 10) = line := by
  rw [List.takeWhile_eq_self_iff]
  intro b hb
  rw [bne_iff_ne]
  rintro rfl
  exact h hb

theorem takeWhile_line_append (h : 10 ∉ line) (rest : Bytes) : (line ++ 10 :: rest).takeWhile (· != 10) = line := by
  have hall : ∀ b ∈ line, (b != 10) = true := List.takeWhile_eq_self_iff.1 (takeWhile_line h)
  rw [List.takeWhile_append_of_pos hall, List.takeWhile_cons_of_neg (by decide), List.append_nil]

/-- The line at the start of some data. -/
theorem splitOn_eq_cons (rest : Bytes) : rest.splitOn 10 = rest.takeWhile (· != 10) :: (rest.splitOn 10).drop 1 := by
  rcases exists_line rest with h | ⟨pre, rest, rfl, h⟩
  · rw [List.splitOn_eq_singleton h, takeWhile_line h]
    rfl
  · rw [List.splitOn_append_cons_self_of_not_mem h, takeWhile_line_append h]
    rfl

theorem headerLines_append {pre : Bytes} (h : 10 ∉ pre) (rest : Bytes) :
    headerLines (pre ++ 10 :: rest) =
      if withoutCr (rest.takeWhile (· != 10)) = [] then []
      else withoutCr (rest.takeWhile (· != 10)) :: headerLines rest := by
  rw [headerLines, List.splitOn_append_cons_self_of_not_mem h, List.drop_succ_cons, List.drop_zero,
    splitOn_eq_cons rest, List.map_cons]
  split
  · rename_i hnil
    rw [List.takeWhile_cons_of_neg (by simp [hnil])]
  · rename_i hline
    rw [List.takeWhile_cons_of_pos (by simpa using hline)]
    rfl

/-! ## The loop -/

theorem nextHeader_eq {skipped : Bytes} (hne : data ≠ [])
    (h : (data.take (data.length - 1)).takeWhile (· != 10) = skipped) : nextHeader data =
      ((withoutCr ((data.drop (skipped.length + 1)).takeWhile (· != 10))).length, data.drop (skipped.length + 1)) := by
  cases data with
  | nil => exact absurd rfl hne
  | cons b data =>
    unfold nextHeader
    dsimp only
    rw [h, length_withoutCr]

theorem nextHeader_append {pre : Bytes} (h : 10 ∉ pre) (rest : Bytes) :
    nextHeader (pre ++ 10 :: rest) = ((withoutCr (rest.takeWhile (· != 10))).length, rest) := by
  have hskipped : ((pre ++ 10 :: rest).take ((pre ++ 10 :: rest).length - 1)).takeWhile (· != 10) = pre := by
    rw [List.length_append, List.length_cons]
    cases rest with
    | nil => rw [List.length_nil, Nat.add_sub_cancel, List.take_left, takeWhile_line h]
    | cons b rest =>
      have hlen : pre.length + ((b :: rest).length + 1) - 1 = pre.length + (rest.length + 1) := by
        rw [List.length_cons]
        omega
      rw [hlen, List.take_length_add_append, List.take_succ_cons, takeWhile_line_append h]
  have hdrop : (pre ++ 10 :: rest).drop (pre.length + 1) = rest := List.drop_length_add_append ..
  rw [nextHeader_eq (by simp) hskipped, hdrop]

theorem nextHeader_of_notMem (h : 10 ∉ data) : nextHeader data = (0, []) := by
  by_cases hne : data = []
  · subst hne
    rfl
  · have htake : 10 ∉ data.take (data.length - 1) := fun hb => h (List.mem_of_mem_take hb)
    have hdrop : data.drop ((data.take (data.length - 1)).length + 1) = [] := by
      rw [List.drop_eq_nil_iff, List.length_take]
      omega
    rw [nextHeader_eq hne (takeWhile_line htake), hdrop]
    rfl

/-- The value of a line is read from the data it starts. -/
theorem headerValue_eq (h : line <+: data) : headerValue data line.length = hostValue line := by
  rw [headerValue, ← List.prefix_iff_eq_take.1 h]
  rfl

/-- The loop finds the first `Host` header of the lines. -/
theorem getHeader_eq (fuel : Nat) (data : Bytes) (hfuel : data.length < fuel) :
    getHeader fuel data = ((headerLines data).find? isHostLine).map hostValue := by
  induction fuel generalizing data with
  | zero => cases hfuel
  | succ fuel ih =>
    unfold getHeader
    rcases exists_line data with h | ⟨pre, rest, rfl, h⟩
    · rw [nextHeader_of_notMem h, headerLines_of_notMem h]
      rfl
    · have hline : withoutCr (rest.takeWhile (· != 10)) <+: rest :=
        (isPrefix_withoutCr _).trans (List.takeWhile_prefix _)
      rw [nextHeader_append h, headerLines_append h]
      generalize withoutCr (rest.takeWhile (· != 10)) = line at hline ⊢
      dsimp only
      by_cases hnil : line = []
      · rw [if_pos (List.length_eq_zero_iff.2 hnil), if_pos hnil]
        rfl
      · rw [if_neg (mt List.length_eq_zero_iff.1 hnil), if_neg hnil, List.find?_cons]
        have hrest : rest.length < fuel := by
          rw [List.length_append, List.length_cons] at hfuel
          omega
        have hhost : (5 < line.length ∧ (rest.take 5).map asciiLowerByte = [104, 111, 115, 116, 58]) ↔
            isHostLine line = true := by
          rw [isHostLine, Bool.and_eq_true, decide_eq_true_eq, decide_eq_true_eq]
          refine and_congr_right fun hlen => ?_
          rw [List.prefix_iff_eq_take.1 hline, List.take_take, Nat.min_eq_left (Nat.le_of_lt hlen)]
        by_cases hmatch : isHostLine line = true
        · rw [if_pos (hhost.2 hmatch), hmatch, headerValue_eq hline]
          rfl
        · rw [if_neg (mt hhost.1 hmatch), ih rest hrest, Bool.eq_false_iff.2 hmatch]

/-- `parse_http_header` gives the value of the first `Host` header of any data, without a port. -/
theorem parseHttpHeader_eq (data : Bytes) :
    parseHttpHeader data = ((headerLines data).find? isHostLine).map fun line => trimPort (hostValue line) := by
  rw [parseHttpHeader, getHeader_eq _ _ (Nat.lt_succ_self _), Option.map_map]
  rfl

/-! ## Requests -/

theorem trimPort_port (name : Bytes) {digits : Bytes} (h : ∀ b ∈ digits, isDigitByte b = true) :
    trimPort (name ++ 58 :: digits) = name := by
  have hreverse : (name ++ 58 :: digits).reverse.dropWhile isDigitByte = 58 :: name.reverse := by
    rw [List.reverse_append, List.reverse_cons, List.append_assoc,
      List.dropWhile_append_of_pos fun b hb => h b (List.mem_reverse.1 hb)]
    rfl
  unfold trimPort
  rw [hreverse]
  exact List.reverse_reverse name

/-- A `Host` header as a client writes it: a key in any case, blanks, and a name that may have a port. -/
structure HostHeader where
  key : Bytes
  blanks : Bytes
  name : Bytes
  port : Option Bytes
  host : key.map asciiLowerByte = [104, 111, 115, 116, 58]
  blank : ∀ b ∈ blanks, isBlank b = true
  named : ∃ b rest, name = b :: rest ∧ isBlank b = false
  bytes : ∀ b ∈ name, b ≠ 0 ∧ b ≠ 10
  portless : trimPort name = name
  digits : ∀ p, port = some p → ∀ b ∈ p, isDigitByte b = true

namespace HostHeader

def value (h : HostHeader) : Bytes := h.name ++ (h.port.elim [] fun p => 58 :: p)

def text (h : HostHeader) : Bytes := h.key ++ (h.blanks ++ h.value)

variable (h : HostHeader)

theorem length_key : h.key.length = 5 := by
  have hlen := congrArg List.length h.host
  rwa [List.length_map] at hlen

theorem bytes_value : ∀ b ∈ h.value, b ≠ 0 ∧ b ≠ 10 := by
  intro b hb
  rcases List.mem_append.1 hb with hb | hb
  · exact h.bytes b hb
  · cases hport : h.port with
    | none =>
      rw [hport] at hb
      cases hb
    | some p =>
      rw [hport] at hb
      rcases List.mem_cons.1 hb with rfl | hb
      · decide
      · have hdigit := h.digits p hport b hb
        refine ⟨?_, ?_⟩ <;> rintro rfl <;> exact absurd hdigit (by decide)

theorem trimPort_value : trimPort h.value = h.name := by
  unfold value
  cases hport : h.port with
  | none =>
    show trimPort (h.name ++ []) = h.name
    rw [List.append_nil, h.portless]
  | some p => exact trimPort_port h.name (h.digits p hport)

theorem isHostLine_text : isHostLine h.text = true := by
  obtain ⟨b, rest, hname, -⟩ := h.named
  have hkey := h.length_key
  rw [isHostLine, Bool.and_eq_true, decide_eq_true_eq, decide_eq_true_eq]
  constructor
  · simp only [text, value, List.length_append, hkey, hname, List.length_cons]
    omega
  · rw [text, ← hkey, List.take_left, h.host]

theorem hostValue_text : hostValue h.text = h.value := by
  have hvalue : (h.text.drop 5).dropWhile isBlank = h.value := by
    obtain ⟨b, rest, hname, hb⟩ := h.named
    rw [text, ← h.length_key, List.drop_left, List.dropWhile_append_of_pos h.blank, value, hname, List.cons_append,
      List.dropWhile_cons_of_neg (by rw [hb]; exact Bool.false_ne_true)]
  have hstring : cString h.value = h.value := by
    rw [cString, List.takeWhile_eq_self_iff]
    exact fun b hb => by simpa using (h.bytes_value b hb).1
  rw [hostValue, hvalue, hstring, Nat.sub_self, List.replicate_zero, List.append_nil]

theorem notMem_text : 10 ∉ h.text := by
  intro hmem
  rcases List.mem_append.1 hmem with hkey | hmem
  · have hlower : asciiLowerByte 10 ∈ h.key.map asciiLowerByte := List.mem_map_of_mem hkey
    rw [h.host] at hlower
    exact absurd hlower (by decide)
  · rcases List.mem_append.1 hmem with hblank | hvalue
    · exact absurd (h.blank 10 hblank) (by decide)
    · exact (h.bytes_value 10 hvalue).2 rfl

end HostHeader

/-- Lines as they are sent. -/
def crlfLines (lines : List Bytes) : Bytes := lines.flatMap (· ++ [13, 10])

theorem crlfLines_cons (line : Bytes) (lines : List Bytes) (rest : Bytes) :
    crlfLines (line :: lines) ++ rest = (line ++ [13]) ++ 10 :: (crlfLines lines ++ rest) := by
  simp only [crlfLines, List.flatMap_cons, List.append_assoc, List.cons_append, List.nil_append]

theorem notMem_concat_cr (h : 10 ∉ line) : 10 ∉ line ++ [13] := by
  intro hmem
  rcases List.mem_append.1 hmem with hmem | hmem
  · exact h hmem
  · exact absurd hmem (by decide)

/-- A line that is sent after another one is a header, unless it is blank. -/
theorem headerLines_crlfLines {first : Bytes} (hfirst : 10 ∉ first) (hline : 10 ∉ line) (hne : line ≠ [])
    (lines : List Bytes) (rest : Bytes) : headerLines (crlfLines (first :: line :: lines) ++ rest) =
      line :: headerLines (crlfLines (line :: lines) ++ rest) := by
  rw [crlfLines_cons, headerLines_append (notMem_concat_cr hfirst), crlfLines_cons,
    takeWhile_line_append (notMem_concat_cr hline), withoutCr_crlf, if_neg hne]

/-- A request gives back the name of its first `Host` header, whatever follows. -/
theorem parseHttpHeader_request (request : Bytes) (others : List Bytes) (h : HostHeader) (rest : Bytes)
    (hrequest : 10 ∉ request) (hothers : ∀ l ∈ others, l ≠ [] ∧ 10 ∉ l ∧ isHostLine l = false) :
    parseHttpHeader (crlfLines (request :: others ++ [h.text]) ++ rest) = some h.name := by
  have hfind : (headerLines (crlfLines (request :: others ++ [h.text]) ++ rest)).find? isHostLine = some h.text := by
    induction others generalizing request with
    | nil =>
      have hne : h.text ≠ [] := by
        intro hnil
        have hhost := h.isHostLine_text
        rw [hnil] at hhost
        cases hhost
      rw [List.cons_append, List.nil_append, headerLines_crlfLines hrequest h.notMem_text hne,
        List.find?_cons_of_pos h.isHostLine_text]
    | cons l others ih =>
      obtain ⟨⟨hne, hline, hother⟩, hothers⟩ := List.forall_mem_cons.1 hothers
      rw [List.cons_append, List.cons_append, headerLines_crlfLines hrequest hline hne,
        List.find?_cons_of_neg (by rw [hother]; exact Bool.false_ne_true)]
      exact ih l hline hothers
  rw [parseHttpHeader_eq, hfind, Option.map_some, h.hostValue_text, h.trimPort_value]

/-- `hOST:`, a tab, and `a.b` with the port 80. -/
def tabbedHost : HostHeader where
  key := [104, 79, 83, 84, 58]
  blanks := [32, 9]
  name := [97, 46, 98]
  port := some [56, 48]
  host := by decide +kernel
  blank := by decide +kernel
  named := ⟨97, [46, 98], rfl, rfl⟩
  bytes := by decide +kernel
  portless := by decide +kernel
  digits := by
    rintro _ ⟨⟩
    decide +kernel

theorem parseHttpHeader_request_get :
    parseHttpHeader (crlfLines ([71, 69, 84] :: [[65, 58]] ++ [tabbedHost.text]) ++ [13, 10]) = some [97, 46, 98] :=
  parseHttpHeader_request _ _ tabbedHost _ (by decide) (by decide)

end SunProxy.Net
