import Marina.Lib.MatchTable
import Marina.SameKey

/-!
# Header lengths and packet sizes

`build_header_length_table` of `create_static_tables.py`, and the tables of
`p4/include/features/size.p4` that compute `packet_size` from the length field of the IP
header.

The generator takes every subset of the protocols, and the columns of a row depend on it.
`buildHeaderLengthTable_exact` says for every subset that a header stack has one row with
its length if all of it is enabled and long enough, and none otherwise.
`packetSize_announced` says what that makes of a parsed frame: the payload of the transport
protocol, as far as the length fields go, and for a packet without a transport header, which
misses, everything that the IP header announces.
-/

namespace Marina

open Lib

/-! ## The table -/

/-- A tuple of `build_header_length_table`: the length, and the columns of the match
specification. -/
structure HeaderLengthRow where
  headerLength : Nat
  columns : List Nat
deriving DecidableEq, Repr

def HeaderLengthRow.append (row other : HeaderLengthRow) : HeaderLengthRow :=
  ⟨row.headerLength + other.headerLength, row.columns ++ other.columns⟩

/-- `range(0x5, 0x10)`. -/
def headerWords : List Nat := List.range' 5 11

/-- `l3_opts`. -/
def l3Opts (ipv4 ipv6 : Bool) : List HeaderLengthRow :=
  let opts := if ipv4 then headerWords.map fun i => ⟨i * 4, [1, i, 0xFF]⟩ else []
  if ipv6 then
    opts.map (fun o => o.append ⟨0, [0]⟩) ++ [⟨0, (if ipv4 then [0, 0, 0] else []) ++ [1]⟩]
  else opts

def buildHeaderLengthTable (ipv4 ipv6 tcp udp : Bool) : List HeaderLengthRow :=
  let l3Opts := l3Opts ipv4 ipv6
  let l4Opts := if tcp then
      l3Opts.flatMap fun o => headerWords.map fun i => o.append ⟨i * 4, [1, i, 0xFF]⟩
    else []
  if udp then
    l4Opts.map (fun o => o.append ⟨0, [0]⟩) ++
      l3Opts.map fun o => o.append ⟨8, (if tcp then [0, 0, 0] else []) ++ [1]⟩
  else l4Opts

/-! ## Header stacks -/

/-- The valid header of layer 3, with the field that the table reads. -/
inductive L3Header
  | absent
  | ipv4 (ihl : Fin 16)
  | ipv6
deriving DecidableEq, Repr

inductive L4Header
  | absent
  | tcp (dataOffset : Fin 16)
  | udp
deriving DecidableEq, Repr

structure HeaderStack where
  l3 : L3Header
  l4 : L4Header
deriving DecidableEq, Repr

/-- The fields of `header_length_table` up to those of layer 4. A field of a header that is
not valid is zero. -/
def L3Header.fields (ipv4 ipv6 : Bool) (l3 : L3Header) : List KeyField :=
  let isIpv4 := match l3 with | .ipv4 _ => 1 | _ => 0
  let ihl := match l3 with | .ipv4 ihl => ihl.val | _ => 0
  let isIpv6 := match l3 with | .ipv6 => 1 | _ => 0
  (if ipv4 then [.exact isIpv4, .ternary ihl] else []) ++ (if ipv6 then [.exact isIpv6] else [])

def L4Header.fields (tcp udp : Bool) (l4 : L4Header) : List KeyField :=
  let isTcp := match l4 with | .tcp _ => 1 | _ => 0
  let dataOffset := match l4 with | .tcp dataOffset => dataOffset.val | _ => 0
  let isUdp := match l4 with | .udp => 1 | _ => 0
  (if tcp then [.exact isTcp, .ternary dataOffset] else []) ++ (if udp then [.exact isUdp] else [])

/-- The row matches the packet. -/
def HeaderStack.Matches (ipv4 ipv6 tcp udp : Bool) (stack : HeaderStack) (row : HeaderLengthRow) :
    Bool :=
  KeyField.Matches (stack.l3.fields ipv4 ipv6 ++ stack.l4.fields tcp udp) row.columns

/-- The part of the IP header that its length field counts. -/
def L3Header.length (ipv4 ipv6 : Bool) : L3Header → Option Nat
  | .absent => none
  | .ipv4 ihl => if ipv4 ∧ 5 ≤ ihl.val then some (4 * ihl) else none
  | .ipv6 => if ipv6 then some 0 else none

def L4Header.length (tcp udp : Bool) : L4Header → Option Nat
  | .absent => none
  | .tcp dataOffset => if tcp ∧ 5 ≤ dataOffset.val then some (4 * dataOffset) else none
  | .udp => if udp then some 8 else none

/-- The length of the headers, if both are enabled and no shorter than they can be. -/
def HeaderStack.length (ipv4 ipv6 tcp udp : Bool) (stack : HeaderStack) : Option Nat := do
  let l3 ← stack.l3.length ipv4 ipv6
  let l4 ← stack.l4.length tcp udp
  pure (l3 + l4)

/-! ## Layer by layer -/

/-- The columns that a TCP packet adds to those of layer 3. -/
def tcpOpts (tcp udp : Bool) : List HeaderLengthRow :=
  if tcp then headerWords.map fun i => ⟨i * 4, [1, i, 0xFF] ++ if udp then [0] else []⟩ else []

/-- And those of a UDP packet. -/
def udpOpts (tcp udp : Bool) : List HeaderLengthRow :=
  if udp then [⟨8, (if tcp then [0, 0, 0] else []) ++ [1]⟩] else []

section Layers

variable (ipv4 ipv6 tcp udp : Bool)

/-- The table is a product of the layers. -/
theorem buildHeaderLengthTable_eq :
    buildHeaderLengthTable ipv4 ipv6 tcp udp =
      ((l3Opts ipv4 ipv6).flatMap fun o => (tcpOpts tcp udp).map o.append) ++
        (l3Opts ipv4 ipv6).flatMap fun o => (udpOpts tcp udp).map o.append := by
  unfold buildHeaderLengthTable tcpOpts udpOpts
  generalize l3Opts ipv4 ipv6 = opts
  have single : ∀ row : HeaderLengthRow,
      (opts.flatMap fun o => [o.append row]) = opts.map fun o => o.append row :=
    fun row => (List.map_eq_flatMap ..).symm
  have nothing : (opts.flatMap fun _ => ([] : List HeaderLengthRow)) = [] := by simp
  have both : ∀ (o : HeaderLengthRow) (i : Nat),
      (o.append ⟨i * 4, [1, i, 0xFF]⟩).append ⟨0, [0]⟩ =
        o.append ⟨i * 4, [1, i, 0xFF] ++ [0]⟩ := by
    intro o i
    simp [HeaderLengthRow.append]
  cases tcp <;> cases udp <;>
    simp only [Bool.false_eq_true, if_true, if_false, List.map_nil, List.nil_append,
      List.append_nil, List.map_cons, List.map_flatMap, List.map_map, Function.comp_def, single,
      nothing, both]

theorem length_l3Opts (l3 : L3Header) :
    ∀ row ∈ l3Opts ipv4 ipv6, row.columns.length = KeyField.widths (l3.fields ipv4 ipv6) := by
  have same : KeyField.widths (l3.fields ipv4 ipv6) =
      KeyField.widths (L3Header.absent.fields ipv4 ipv6) := by
    cases l3 <;> cases ipv4 <;> cases ipv6 <;> rfl
  rw [same]
  cases ipv4 <;> cases ipv6 <;> decide

/-- The rows of a layer that match, by their lengths. -/
theorem filter_l3Opts (l3 : L3Header) :
    ((l3Opts ipv4 ipv6).filter fun row => KeyField.Matches (l3.fields ipv4 ipv6) row.columns).map
      HeaderLengthRow.headerLength = (l3.length ipv4 ipv6).toList := by
  cases l3 with
  | absent => cases ipv4 <;> cases ipv6 <;> decide
  | ipv4 ihl =>
      revert ihl
      cases ipv4 <;> cases ipv6 <;> decide
  | ipv6 => cases ipv4 <;> cases ipv6 <;> decide

theorem filter_l4Opts (l4 : L4Header) :
    ((tcpOpts tcp udp).filter fun row => KeyField.Matches (l4.fields tcp udp) row.columns).map
        HeaderLengthRow.headerLength ++
      ((udpOpts tcp udp).filter fun row => KeyField.Matches (l4.fields tcp udp) row.columns).map
        HeaderLengthRow.headerLength = (l4.length tcp udp).toList := by
  cases l4 with
  | absent => cases tcp <;> cases udp <;> decide
  | tcp dataOffset =>
      revert dataOffset
      cases tcp <;> cases udp <;> decide
  | udp => cases tcp <;> cases udp <;> decide

/-- The matching rows of a product of two layers, by their lengths. -/
theorem map_filter_product (stack : HeaderStack) (opts : List HeaderLengthRow) :
    (((l3Opts ipv4 ipv6).flatMap fun o => opts.map o.append).filter
        (stack.Matches ipv4 ipv6 tcp udp)).map HeaderLengthRow.headerLength =
      (stack.l3.length ipv4 ipv6).toList.flatMap fun l3 =>
        ((opts.filter fun row => KeyField.Matches (stack.l4.fields tcp udp) row.columns).map
          HeaderLengthRow.headerLength).map (l3 + ·) := by
  have splits : ∀ a ∈ l3Opts ipv4 ipv6, ∀ b ∈ opts,
      stack.Matches ipv4 ipv6 tcp udp (a.append b) =
        (KeyField.Matches (stack.l3.fields ipv4 ipv6) a.columns &&
          KeyField.Matches (stack.l4.fields tcp udp) b.columns) :=
    fun a member b _ => KeyField.matches_append (length_l3Opts ipv4 ipv6 stack.l3 a member)
  rw [filter_product (l3Opts ipv4 ipv6) opts HeaderLengthRow.append splits, ← filter_l3Opts, List.map_flatMap, List.flatMap_map]
  simp only [List.map_map]
  rfl

end Layers

/-- For every choice of protocols, a header stack has one row with its length if it has a
length, and none otherwise. -/
theorem buildHeaderLengthTable_exact (ipv4 ipv6 tcp udp : Bool) (stack : HeaderStack) :
    ((buildHeaderLengthTable ipv4 ipv6 tcp udp).filter (stack.Matches ipv4 ipv6 tcp udp)).map
      HeaderLengthRow.headerLength = (stack.length ipv4 ipv6 tcp udp).toList := by
  rw [buildHeaderLengthTable_eq, List.filter_append, List.map_append, map_filter_product,
    map_filter_product]
  unfold HeaderStack.length
  cases stack.l3.length ipv4 ipv6 with
  | none => rfl
  | some l3 =>
      simp only [Option.toList_some, List.flatMap_singleton]
      rw [← List.map_append, filter_l4Opts]
      cases stack.l4.length tcp udp <;> rfl

/-! ## Packet sizes -/

section PacketSize

variable (frame : List UInt8) (headers : ParsedHeaders)

/-- `l3_lookup.len`, which the parser sets from `ipv4.totalLen` or `ipv6.payloadLen`. -/
def l3LookupLen : UInt16 :=
  match headers.ipv4, headers.ipv6 with
  | some _, _ => be16 (byteAt frame 16) (byteAt frame 17)
  | none, some _ => be16 (byteAt frame 18) (byteAt frame 19)
  | none, none => 0

/-- Where the transport header starts. -/
def transportOffset : Nat :=
  match headers.ipv4 with
  | some ipv4 => 34 + 4 * (ipv4.ihl - 5)
  | none => 54

/-- `tcp.dataOffset`. -/
def tcpDataOffset : Nat := (byteAt frame (transportOffset headers + 12)).toNat / 16

/-- What the table reads of a parsed packet. -/
def headerStack : HeaderStack where
  l3 :=
    match headers.ipv4, headers.ipv6 with
    | some ipv4, _ => .ipv4 (Fin.ofNat 16 ipv4.ihl)
    | none, some _ => .ipv6
    | none, none => .absent
  l4 :=
    if headers.tcp.isSome then .tcp (Fin.ofNat 16 (tcpDataOffset frame headers))
    else if headers.udp.isSome then .udp
    else .absent

/-- `alu_size_m.header_length`, with the table that `prepare_dataplane` installs for all
protocols. Rows before others have priority; a miss leaves it zero. -/
def headerLength : UInt8 :=
  match (buildHeaderLengthTable true true true true).find?
    ((headerStack frame headers).Matches true true true true) with
  | some row => UInt8.ofNat row.headerLength
  | none => 0

/-- `subtract_header_length_action`. -/
def packetSize : UInt16 := l3LookupLen frame headers - (headerLength frame headers).toUInt16

/-- Where the payload of the transport protocol starts, if there is a transport header no
shorter than it can be. -/
def payloadOffset : Option Nat :=
  if headers.tcp.isSome then
    if 5 ≤ tcpDataOffset frame headers then
      some (transportOffset headers + 4 * tcpDataOffset frame headers)
    else none
  else if headers.udp.isSome then some (transportOffset headers + 8)
  else none

/-- Where the packet ends by its IP header. The length of IPv4 counts from that header, the
one of IPv6 from behind it. -/
def announcedEnd : Nat :=
  (if headers.ipv4.isSome then 14 else 54) + (l3LookupLen frame headers).toNat

end PacketSize

section Announced

variable {frame : List UInt8} {headers : ParsedHeaders}

theorem headerLength_eq (frame : List UInt8) (headers : ParsedHeaders) :
    headerLength frame headers =
      UInt8.ofNat (((headerStack frame headers).length true true true true).getD 0) := by
  have exact := buildHeaderLengthTable_exact true true true true (headerStack frame headers)
  unfold headerLength
  rw [← List.head?_filter]
  cases length : (headerStack frame headers).length true true true true with
  | none =>
      rw [length] at exact
      rw [List.map_eq_nil_iff.mp exact]
      rfl
  | some n =>
      rw [length] at exact
      obtain ⟨row, rest, rows, here, -⟩ := List.map_eq_cons_iff.mp exact
      rw [rows, ← here]
      rfl

theorem tcpDataOffset_lt : tcpDataOffset frame headers < 16 := by
  have byte := (byteAt frame (transportOffset headers + 12)).toNat_lt
  unfold tcpDataOffset
  omega

/-- The table measures from where the length field starts to count up to the payload. -/
theorem headerStack_length (parsed : parseStart frame = some headers) :
    (headerStack frame headers).length true true true true =
      (payloadOffset frame headers).map fun payload =>
        payload - if headers.ipv4.isSome then 14 else 54 := by
  have offset : tcpDataOffset frame headers < 16 := tcpDataOffset_lt
  by_cases valid : headers.tcp.isSome = true ∨ headers.udp.isSome = true
  · have layer3 : ∃ n, (headerStack frame headers).l3.length true true = some n ∧
        transportOffset headers = n + if headers.ipv4.isSome then 14 else 54 := by
      unfold headerStack transportOffset
      rcases parseStart_eq_some parsed valid with ⟨_, ipv4, _, long, _⟩ | ⟨_, ipv6, ipv4, _⟩
      · have short : (ipv4HeaderAt frame 14).ihl < 16 := Nat.mod_lt _ (by decide)
        rw [ipv4]
        refine ⟨4 * (ipv4HeaderAt frame 14).ihl, ?_, ?_⟩
        · simp only [L3Header.length, Fin.ofNat, Nat.mod_eq_of_lt short, true_and]
          rw [if_pos long]
        · simp only [Option.isSome_some, if_true]
          omega
      · rw [ipv4, ipv6]
        exact ⟨0, rfl, rfl⟩
    obtain ⟨n, length, start⟩ := layer3
    unfold HeaderStack.length
    rw [length]
    unfold headerStack payloadOffset
    dsimp only
    split
    · simp only [L4Header.length, Fin.ofNat, Nat.mod_eq_of_lt offset, true_and]
      split
      · simp only [Option.bind_eq_bind, Option.bind_some, Option.pure_def, Option.map_some,
          Option.some.injEq]
        omega
      · rfl
    · rename_i noTcp
      rw [if_pos (valid.resolve_left noTcp), if_pos (valid.resolve_left noTcp)]
      show some (n + 8) = some (transportOffset headers + 8 - _)
      rw [Option.some.injEq]
      omega
  · push Not at valid
    obtain ⟨noTcp, noUdp⟩ := valid
    unfold HeaderStack.length payloadOffset headerStack
    simp only [noTcp, noUdp, Bool.false_eq_true, if_false, L4Header.length, Option.map_none]
    cases L3Header.length true true _ <;> rfl

/-- The payload lies behind the IP header. -/
theorem le_payloadOffset {payload : Nat} (here : payloadOffset frame headers = some payload) :
    (if headers.ipv4.isSome then 14 else 54) ≤ payload := by
  have start : (if headers.ipv4.isSome then 14 else 54) ≤ transportOffset headers := by
    unfold transportOffset
    cases headers.ipv4 with
    | none => exact le_rfl
    | some ipv4 => exact le_trans (by decide : 14 ≤ 34) (Nat.le_add_right _ _)
  unfold payloadOffset at here
  split at here
  · split at here
    · cases here
      omega
    · cases here
  · split at here
    · cases here
      omega
    · cases here

/-- No header is longer than an octet says. -/
theorem headerStack_length_le {n : Nat}
    (length : (headerStack frame headers).length true true true true = some n) : n ≤ 120 := by
  unfold HeaderStack.length at length
  obtain ⟨l3, isL3, length⟩ := Option.bind_eq_some_iff.mp length
  obtain ⟨l4, isL4, length⟩ := Option.bind_eq_some_iff.mp length
  have short3 : l3 ≤ 60 := by
    generalize (headerStack frame headers).l3 = header at isL3
    cases header with
    | absent => cases isL3
    | ipv4 ihl =>
        have small := ihl.isLt
        simp only [L3Header.length] at isL3
        split at isL3
        · cases isL3
          omega
        · cases isL3
    | ipv6 =>
        cases isL3
        omega
  have short4 : l4 ≤ 60 := by
    generalize (headerStack frame headers).l4 = header at isL4
    cases header with
    | absent => cases isL4
    | tcp dataOffset =>
        have small := dataOffset.isLt
        simp only [L4Header.length] at isL4
        split at isL4
        · cases isL4
          omega
        · cases isL4
    | udp =>
        cases isL4
        omega
  cases length
  omega

end Announced

/-- For every parsed frame with a transport header, `packet_size` is the number of bytes
between the payload and the end that the IP header announces, counted backwards modulo
`2^16` if the headers reach beyond that end. For every other frame it is the length field. -/
theorem packetSize_announced (frame : List UInt8) (headers : ParsedHeaders)
    (parsed : parseStart frame = some headers) :
    (∀ payload, payloadOffset frame headers = some payload →
      (payload ≤ announcedEnd frame headers →
        (packetSize frame headers).toNat = announcedEnd frame headers - payload) ∧
      (announcedEnd frame headers < payload →
        (packetSize frame headers).toNat = 2 ^ 16 - (payload - announcedEnd frame headers))) ∧
    (payloadOffset frame headers = none → packetSize frame headers = l3LookupLen frame headers) := by
  have length := headerStack_length parsed
  unfold packetSize
  rw [headerLength_eq]
  constructor
  · intro payload here
    rw [here, Option.map_some] at length
    have short := headerStack_length_le length
    have start := le_payloadOffset here
    rw [length, Option.getD_some]
    unfold announcedEnd
    generalize (if headers.ipv4.isSome then 14 else 54) = first at short start ⊢
    have announced := (l3LookupLen frame headers).toNat_lt
    have octet : (UInt8.ofNat (payload - first)).toUInt16.toNat = payload - first := by
      rw [UInt8.toNat_toUInt16]
      exact UInt8.toNat_ofNat_of_lt' (by rw [UInt8.size]; omega)
    rw [UInt16.toNat_sub, octet]
    constructor
    · intro inside
      omega
    · intro beyond
      omega
  · intro missing
    rw [missing, Option.map_none] at length
    rw [length]
    exact sub_zero _

/-- A TCP packet that is all headers. -/
theorem packetSize_announced_plain :
    parseStart (sampleFrame []) = some (sampleHeaders 5) ∧
      (packetSize (sampleFrame []) (sampleHeaders 5)).toNat = 0 := by
  have parsed : parseStart (sampleFrame []) = some (sampleHeaders 5) := by decide
  exact ⟨parsed, ((packetSize_announced _ _ parsed).1 54 (by decide)).1 (by decide)⟩

end Marina
