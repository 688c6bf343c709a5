import Marina.Lib.Exec

/-!
# Configuration constants and shared structures

The constants of `controller/config.h` and `p4/config.p4`, the five-tuple structures
of `controller/datastructures/structs.h`, and the forwarding table that
`prepare_dataplane` fills. Ids and array indices are integers; a field whose width the
program relies on keeps its width.
-/

namespace Marina

/-! ## Constants -/

/-- The number of registers of one pipe. -/
def maxFlows : Nat := 131072

/-- The number of pipes of the data plane. -/
def numPipes : Nat := 4

/-- The length of every array indexed by a flow id or a session id. -/
def featureSize : Nat := maxFlows * numPipes

/-- The lowest id in use. -/
def minSessionId : Int := 4

/-- The capacity of one id pool. -/
def heapSize : Nat := maxFlows - 1

def flowHashtableMultiplier : Nat := 16

/-- The exclusive bound on device ports, which are nine bits wide. -/
def maxDevPortId : Nat := 512

/-- The capacity of the ring of data plane commands. -/
def dataplaneRingbufferSize : Nat := 1 <<< 12

def numBloomfilters : Nat := 4

/-! ## Faults -/

/-- The memory faults an execution of the controller can commit. -/
inductive Fault
  /-- `heap_push` on a heap that already holds `HEAPSIZE` items writes past `data[]`. -/
  | heapOverflow
  /-- Any other access outside an array. -/
  | outOfBounds
  deriving DecidableEq, Repr

/-- The outcome of running a function of the controller. -/
abbrev Outcome (α : Type) : Type := Lib.Exec Fault α

/-! ## Five-tuples -/

/-- `L3_IPV4 = AF_INET` and `L3_IPV6 = AF_INET6`. -/
inductive L3Proto
  | ipv4
  | ipv6
  deriving DecidableEq, Repr

inductive L4Proto
  | udp
  | tcp
  deriving DecidableEq, Repr

/-- The union of an IPv4 and an IPv6 address, as the sixteen bytes that comparing and
hashing it read. -/
structure Address where
  bytes : Vector UInt8 16
  deriving DecidableEq, Repr

/-- The part of a five-tuple that identifies a flow. -/
structure FiveTupleForHash where
  srcAddr : Address
  dstAddr : Address
  srcPort : UInt16
  dstPort : UInt16
  l3Proto : L3Proto
  l4Proto : L4Proto
  deriving DecidableEq, Repr

/-- The part of a five-tuple that identifies a session: the client, and whether the
packets go to the server. -/
structure FiveTupleForSessionHash where
  clientAddr : Address
  toServer : Bool
  deriving DecidableEq, Repr

structure FiveTuple where
  h : FiveTupleForHash
  sh : FiveTupleForSessionHash
  ingressTs : UInt64
  devPort : UInt16
  sessionIdEgressOffset : Int8
  deriving DecidableEq, Repr

/-- The all-zero address of a freshly cleared array entry. -/
def Address.zero : Address := ⟨Vector.replicate 16 0⟩

/-- A cleared address whose first bytes have been written. -/
def Address.ofBytes (bytes : List UInt8) : Address := ⟨Vector.ofFn fun i => bytes.getD i.val 0⟩

/-- The all-zero five-tuple of a freshly cleared array entry. -/
def FiveTuple.zero : FiveTuple where
  h := ⟨.zero, .zero, 0, 0, .ipv4, .udp⟩
  sh := ⟨.zero, false⟩
  ingressTs := 0
  devPort := 0
  sessionIdEgressOffset := 0

/-- The pipe of a device port: ports are numbered pipe by pipe, 128 to a pipe. -/
def devPortToPipe (devPort : Int) : Int := devPort / 128

def flowIdToPipe (flowId : Int) : Int := flowId % 4

def flowIdToRegisterIndex (flowId : Int) : Int := flowId / 4

/-- The pipe of the port a packet came in on. -/
def FiveTuple.pipe (fiveTuple : FiveTuple) : Int := devPortToPipe fiveTuple.devPort.toNat

theorem FiveTuple.pipe_nonneg (fiveTuple : FiveTuple) : 0 ≤ fiveTuple.pipe := by
  unfold FiveTuple.pipe devPortToPipe
  omega

theorem FiveTuple.pipe_lt {fiveTuple : FiveTuple} (port : fiveTuple.devPort.toNat < maxDevPortId) :
    fiveTuple.pipe < numPipes := by
  unfold FiveTuple.pipe devPortToPipe
  unfold maxDevPortId at port
  unfold numPipes
  omega

/-- A packet on a given port, with a given source port. -/
def FiveTuple.onPort (devPort : Nat) (srcPort : UInt16) : FiveTuple :=
  { FiveTuple.zero with
    h := { FiveTuple.zero.h with srcPort := srcPort }
    devPort := UInt16.ofNat devPort }

theorem FiveTuple.onPort_devPort {devPort : Nat} (srcPort : UInt16)
    (small : devPort < maxDevPortId) : (FiveTuple.onPort devPort srcPort).devPort.toNat = devPort := by
  unfold FiveTuple.onPort maxDevPortId at *
  exact UInt16.toNat_ofNat_of_lt' (by simp only [UInt16.size]; omega)

/-! ## The forwarding table -/

/-- `DEVPORT_MAPPING`: the port each device port is forwarded to, or `-1`. -/
structure DevportMapping where
  port : Nat → Int
  port_range : ∀ devPort, port devPort = -1 ∨ 0 ≤ port devPort ∧ port devPort < maxDevPortId

/-- One entry of the configured forwarding list, as device ports. -/
structure ForwardEntry where
  fromPort : Fin maxDevPortId
  toPort : Fin maxDevPortId

/-- No port is forwarded before the configured entries are installed. -/
def DevportMapping.unmapped : DevportMapping where
  port _ := -1
  port_range _ := Or.inl rfl

def DevportMapping.install (mapping : DevportMapping) (entry : ForwardEntry) :
    DevportMapping where
  port := Function.update mapping.port entry.fromPort.val entry.toPort.val
  port_range devPort := by
    by_cases same : devPort = entry.fromPort.val
    · subst same
      rw [Function.update_self]
      exact Or.inr ⟨by omega, by exact_mod_cast entry.toPort.isLt⟩
    · rw [Function.update_of_ne same]
      exact mapping.port_range devPort

/-- The part of `prepare_dataplane` that fills the table from the configured list. -/
def prepareDevportMapping (forwardEntries : List ForwardEntry) : DevportMapping :=
  forwardEntries.foldl DevportMapping.install DevportMapping.unmapped

/-- The port a packet leaves on, or `-1`. -/
def DevportMapping.egress (mapping : DevportMapping) (fiveTuple : FiveTuple) : Int :=
  mapping.port fiveTuple.devPort.toNat

/-- The forwarding of a five-tuple, recorded in it by `add_flow`: the distance from the
pipe it comes in on to the pipe it leaves on. -/
def FiveTuple.withEgressOffset (fiveTuple : FiveTuple) (egressPort : Int) : FiveTuple :=
  { fiveTuple with
    sessionIdEgressOffset := Int8.ofInt (devPortToPipe egressPort - fiveTuple.pipe) }

/-! ## Commands to the data plane -/

/-- `dataplane_command_t`. -/
inductive DataplaneCommand
  | addFlow (fiveTuple : FiveTuple) (flowId sessionId : Int)
  | removeFlow (fiveTuple : FiveTuple) (flowId : Int)
  | clearRegisters (fiveTuple : FiveTuple) (sessionId : Int)
  | addBloomFilter (indices : Vector Int numBloomfilters) (pipeId : Int)
  | removeBloomFilter (indices : Vector Int numBloomfilters) (pipeId : Int)
  deriving DecidableEq, Repr

/-! ## The environment of a run -/

/-- What stays fixed over a run of the controller: the session mode, the forwarding
table, and the hash of each kind of key. -/
structure Env where
  useSessions : Bool
  devportMapping : DevportMapping
  murmurFlow : FiveTupleForHash → UInt32
  murmurSession : FiveTupleForSessionHash → UInt32

/-- Two device ports on different pipes forwarded to each other, under a hash that
collides everywhere. -/
def Env.twoPorts (useSessions : Bool) : Env where
  useSessions := useSessions
  devportMapping := prepareDevportMapping
    [⟨⟨0, by decide⟩, ⟨128, by decide⟩⟩, ⟨⟨128, by decide⟩, ⟨0, by decide⟩⟩]
  murmurFlow _ := 0
  murmurSession _ := 0

end Marina
