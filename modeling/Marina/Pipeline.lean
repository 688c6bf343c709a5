import Marina.Classification
import Marina.FeatureRounds
import Marina.HeaderLength
import Marina.SquareTable

/-!
# Packets through the pipeline

`ingress` and `egress` of `p4/marina_data_plane.p4` with the registers of
`p4/include/features.p4`, and the queues of the traffic manager between them.

`ingress` reads and replaces the last timestamp of the packet's flow, looks up the
logarithms and hands them on with the packet; `egress` counts the packet and adds the
logarithms. Between the two a packet waits, and packets leave in any order or are dropped
on the way. A copy for the CPU waits like any other packet and is not counted.
`Pipeline.Accounts` is the invariant: no packet is lost or duplicated, and a register holds
what it started with and the amounts of the packets that have left at its slot.
-/

namespace Marina

open Lib (byteAt)

/-! ## Logarithms -/

/-- What a longest-prefix table finds. -/
def lookupLog (rows : List SquareRow) (width key : Nat) : Option SquareRow :=
  (rows.filter fun row => row.matchSpec.Matches width key).argmax SquareRow.prefixLength

/-- The entries of `iat_compute_log_table` and `compute_size_log_table`. -/
structure LogTables where
  iat : List SquareRow
  size : List SquareRow

/-- The entries that `prepare_dataplane` installs. -/
def logTables (roundedLogMean : Nat → List Nat → Nat) : LogTables :=
  ⟨computeSquareTable roundedLogMean 32 8, computeSquareTable roundedLogMean 16 8⟩

/-- `alu_iat_m.iat_log` and its powers. -/
structure IatLogs where
  iatLog : UInt8
  iatLogSquare : UInt16
  iatLogCube : UInt16
  deriving DecidableEq, Repr

/-- `alu_size_m.size_log` and its powers. The field of the square is eight bits wide. -/
structure SizeLogs where
  sizeLog : UInt8
  sizeLogSquare : UInt8
  sizeLogCube : UInt16
  deriving DecidableEq, Repr

/-- `iat_compute_log_table`. A miss leaves the fields zero. -/
def LogTables.computeIatLog (tables : LogTables) (iat : UInt32) : IatLogs :=
  match lookupLog tables.iat 32 iat.toNat with
  | some row => ⟨.ofNat row.value, .ofNat row.square, .ofNat row.cube⟩
  | none => ⟨0, 0, 0⟩

def LogTables.computeSizeLog (tables : LogTables) (packetSize : UInt16) : SizeLogs :=
  match lookupLog tables.size 16 packetSize.toNat with
  | some row => ⟨.ofNat row.value, .ofNat row.square, .ofNat row.cube⟩
  | none => ⟨0, 0, 0⟩

/-! ## The pipeline -/

/-- `CPU_PORT`. -/
def cpuPort : Fin maxDevPortId := ⟨320, by decide⟩

/-- A packet between `ingress` and `egress`, with the metadata that `egress` reads. -/
structure BridgedPacket where
  frame : List UInt8
  ingressPort : Fin maxDevPortId
  ingressMacTstamp : Fin (2 ^ 48)
  egressPort : Fin maxDevPortId
  flowId : Int
  lastTimestampLow : UInt32
  iatLogs : IatLogs
  sizeLogs : SizeLogs
  deriving DecidableEq, Repr

/-- The registers, and the packets that wait in the traffic manager. -/
structure Pipeline where
  iatLastTimestampReg : Int → UInt32
  registers : SwitchRegisters
  queue : List BridgedPacket

/-- The installed logarithms, and what `forward_table` and its default action make of the
ingress port. -/
structure PipelineConfig where
  tables : LogTables
  ucastEgressPort : Fin maxDevPortId → Fin maxDevPortId

/-- The slot of a register on the pipe of a port, in a read of all pipes. -/
def registerSlot (port : Fin maxDevPortId) (flowId : Int) : Int :=
  4 * flowId + devPortToPipe port.val

/-- A packet on its way to the traffic manager: `features_ingress`, the size logarithm and
the forwarding. -/
def Pipeline.bridge (config : PipelineConfig) (pipeline : Pipeline) (flowId : Int)
    (headers : ParsedHeaders) (frame : List UInt8) (ingressPort : Fin maxDevPortId)
    (ingressMacTstamp : Fin (2 ^ 48)) : BridgedPacket :=
  let timestampLow := UInt32.ofNat ingressMacTstamp
  let lastTimestampLow := pipeline.iatLastTimestampReg (registerSlot ingressPort flowId)
  { frame := frame
    ingressPort := ingressPort
    ingressMacTstamp := ingressMacTstamp
    egressPort := config.ucastEgressPort ingressPort
    flowId := flowId
    lastTimestampLow := lastTimestampLow
    iatLogs :=
      if lastTimestampLow ≠ 0 then config.tables.computeIatLog (timestampLow - lastTimestampLow)
      else ⟨0, 0, 0⟩
    sizeLogs := config.tables.computeSizeLog (packetSize frame headers) }

/-- The packet, and its copy if `ingress` makes one. -/
def BridgedPacket.copies (packet : BridgedPacket) (headers : ParsedHeaders)
    (notIn : Fin numBloomfilters → Bool) : List BridgedPacket :=
  packet :: match ingressCopies headers packet.flowId.toNat notIn with
    | some _ => [{ packet with egressPort := cpuPort }]
    | none => []

/-- A stateful ALU adds to a register. -/
def SwitchRegisters.add (registers : SwitchRegisters) (feature : Feature) (slot : Int)
    (amount : Nat) : SwitchRegisters :=
  Function.update registers feature
    (Function.update (registers feature) slot (registers feature slot + UInt32.ofNat amount))

/-- Where a packet is counted. -/
def BridgedPacket.slot (packet : BridgedPacket) : Int :=
  registerSlot packet.egressPort packet.flowId

/-- `features_egress`. -/
def BridgedPacket.featuresEgress (packet : BridgedPacket) (registers : SwitchRegisters) :
    SwitchRegisters :=
  let registers := registers.add .count packet.slot 1
  let registers := if packet.lastTimestampLow ≠ 0 then
      ((registers.add .iatLog packet.slot packet.iatLogs.iatLog.toNat).add
        .iatLogSquare packet.slot packet.iatLogs.iatLogSquare.toNat).add
        .iatLogCube packet.slot packet.iatLogs.iatLogCube.toNat
    else registers
  ((registers.add .sizeLog packet.slot packet.sizeLogs.sizeLog.toNat).add
    .sizeLogSquare packet.slot packet.sizeLogs.sizeLogSquare.toNat).add
    .sizeLogCube packet.slot packet.sizeLogs.sizeLogCube.toNat

/-- `egress`. -/
def BridgedPacket.egress (packet : BridgedPacket) (registers : SwitchRegisters) :
    SwitchRegisters :=
  if packet.egressPort = cpuPort then registers else packet.featuresEgress registers

/-- What leaves the switch. -/
def BridgedPacket.out (packet : BridgedPacket) : List UInt8 :=
  if packet.egressPort = cpuPort then
    cpuFrame packet.frame packet.ingressPort packet.ingressMacTstamp
  else packet.frame

/-- A packet comes in, and classification and bloom filter have set `m.flow_id` and
`bloom_m.not_in`; the packet at a position of the queue is sent or dropped; or
`clear_registers` writes the last timestamp of a session. -/
inductive PipelineEvent
  | ingress (flowId : Int) (notIn : Fin numBloomfilters → Bool) (frame : List UInt8)
      (ingressPort : Fin maxDevPortId) (ingressMacTstamp : Fin (2 ^ 48))
  | egress (position : Nat)
  | drop (position : Nat)
  | writeLastTimestamp (sessionId : Int)

/-- A frame that does not parse goes no further. -/
def Pipeline.ingress (config : PipelineConfig) (pipeline : Pipeline) (flowId : Int)
    (notIn : Fin numBloomfilters → Bool) (frame : List UInt8) (ingressPort : Fin maxDevPortId)
    (ingressMacTstamp : Fin (2 ^ 48)) : Pipeline :=
  match parseStart frame with
  | none => pipeline
  | some headers =>
      let packet := pipeline.bridge config flowId headers frame ingressPort ingressMacTstamp
      { pipeline with
        iatLastTimestampReg := Function.update pipeline.iatLastTimestampReg
          (registerSlot ingressPort flowId) (UInt32.ofNat ingressMacTstamp)
        queue := pipeline.queue ++ packet.copies headers notIn }

def Pipeline.step (config : PipelineConfig) (pipeline : Pipeline) : PipelineEvent → Pipeline
  | .ingress flowId notIn frame ingressPort ingressMacTstamp =>
      pipeline.ingress config flowId notIn frame ingressPort ingressMacTstamp
  | .egress position =>
      match pipeline.queue[position]? with
      | none => pipeline
      | some packet =>
          { pipeline with
            registers := packet.egress pipeline.registers
            queue := pipeline.queue.eraseIdx position }
  | .drop position => { pipeline with queue := pipeline.queue.eraseIdx position }
  | .writeLastTimestamp sessionId =>
      { pipeline with
        iatLastTimestampReg := Function.update pipeline.iatLastTimestampReg sessionId 0 }

/-! ## Accounts -/

/-- What `features_egress` adds for a packet. -/
def BridgedPacket.amount (packet : BridgedPacket) : Feature → Nat
  | .count => 1
  | .sizeLog => packet.sizeLogs.sizeLog.toNat
  | .sizeLogSquare => packet.sizeLogs.sizeLogSquare.toNat
  | .sizeLogCube => packet.sizeLogs.sizeLogCube.toNat
  | .iatLog => if packet.lastTimestampLow ≠ 0 then packet.iatLogs.iatLog.toNat else 0
  | .iatLogSquare => if packet.lastTimestampLow ≠ 0 then packet.iatLogs.iatLogSquare.toNat else 0
  | .iatLogCube => if packet.lastTimestampLow ≠ 0 then packet.iatLogs.iatLogCube.toNat else 0

/-- What a packet adds to a slot. A copy for the CPU adds nothing. -/
def BridgedPacket.counted (feature : Feature) (slot : Int) (packet : BridgedPacket) : Nat :=
  if packet.egressPort ≠ cpuPort ∧ packet.slot = slot then packet.amount feature else 0

/-- The sum over some packets. -/
def countedAt (feature : Feature) (slot : Int) (packets : List BridgedPacket) : Nat :=
  (packets.map (BridgedPacket.counted feature slot)).sum

/-- The packets that an event puts into the queue. -/
def Pipeline.arrivals (config : PipelineConfig) (pipeline : Pipeline) :
    PipelineEvent → List BridgedPacket
  | .ingress flowId notIn frame ingressPort ingressMacTstamp =>
      match parseStart frame with
      | none => []
      | some headers =>
          (pipeline.bridge config flowId headers frame ingressPort ingressMacTstamp).copies
            headers notIn
  | _ => []

/-- The packet that an event sends. -/
def Pipeline.departures (pipeline : Pipeline) : PipelineEvent → List BridgedPacket
  | .egress position => pipeline.queue[position]?.toList
  | _ => []

/-- The packet that an event drops. -/
def Pipeline.losses (pipeline : Pipeline) : PipelineEvent → List BridgedPacket
  | .drop position => pipeline.queue[position]?.toList
  | _ => []

/-- The pipeline, with the packets that have come in, left, and been dropped. -/
structure PipelineTrace where
  pipeline : Pipeline
  arrived : List BridgedPacket
  sent : List BridgedPacket
  dropped : List BridgedPacket

namespace PipelineTrace

def start (pipeline : Pipeline) : PipelineTrace := ⟨pipeline, [], [], []⟩

def step (config : PipelineConfig) (trace : PipelineTrace) (event : PipelineEvent) :
    PipelineTrace where
  pipeline := trace.pipeline.step config event
  arrived := trace.arrived ++ trace.pipeline.arrivals config event
  sent := trace.sent ++ trace.pipeline.departures event
  dropped := trace.dropped ++ trace.pipeline.losses event

def run (config : PipelineConfig) (trace : PipelineTrace) (events : List PipelineEvent) :
    PipelineTrace :=
  events.foldl (step config) trace

/-- No packet is lost or duplicated, and a register holds what it started with and what the
packets that have left at its slot add. -/
structure Accounts (start : Pipeline) (trace : PipelineTrace) : Prop where
  packets : (trace.pipeline.queue ++ trace.sent ++ trace.dropped).Perm
    (start.queue ++ trace.arrived)
  registers : ∀ feature slot, trace.pipeline.registers feature slot =
    start.registers feature slot + UInt32.ofNat (countedAt feature slot trace.sent)

end PipelineTrace

section Registers

variable {registers : SwitchRegisters} {feature : Feature} {slot : Int} {packet : BridgedPacket}

@[simp] theorem countedAt_nil (feature : Feature) (slot : Int) : countedAt feature slot [] = 0 :=
  rfl

@[simp] theorem countedAt_append (feature : Feature) (slot : Int)
    (packets more : List BridgedPacket) :
    countedAt feature slot (packets ++ more) =
      countedAt feature slot packets + countedAt feature slot more := by
  simp [countedAt]

@[simp] theorem countedAt_cons (feature : Feature) (slot : Int) (packet : BridgedPacket)
    (packets : List BridgedPacket) :
    countedAt feature slot (packet :: packets) =
      packet.counted feature slot + countedAt feature slot packets := by
  simp [countedAt]

theorem countedAt_perm {packets packets' : List BridgedPacket} (perm : packets.Perm packets') :
    countedAt feature slot packets = countedAt feature slot packets' :=
  (perm.map _).sum_eq

theorem SwitchRegisters.add_apply (registers : SwitchRegisters) (feature other : Feature)
    (slot i : Int) (amount : Nat) :
    registers.add feature slot amount other i =
      registers other i + UInt32.ofNat (if other = feature ∧ i = slot then amount else 0) := by
  unfold SwitchRegisters.add
  by_cases same : other = feature
  · subst same
    by_cases here : i = slot
    · subst here
      simp
    · simp [here]
  · simp [same]

/-- `features_egress` adds the packet's amounts at its slot. -/
theorem featuresEgress_apply (packet : BridgedPacket) (registers : SwitchRegisters)
    (feature : Feature) (slot : Int) :
    packet.featuresEgress registers feature slot = registers feature slot +
      UInt32.ofNat (if packet.slot = slot then packet.amount feature else 0) := by
  unfold BridgedPacket.featuresEgress BridgedPacket.amount
  split <;> cases feature <;> simp [SwitchRegisters.add_apply, eq_comm]

theorem egress_apply (packet : BridgedPacket) (registers : SwitchRegisters)
    (feature : Feature) (slot : Int) :
    packet.egress registers feature slot =
      registers feature slot + UInt32.ofNat (packet.counted feature slot) := by
  unfold BridgedPacket.egress BridgedPacket.counted
  split
  · rename_i copy
    simp [copy]
  · rename_i packetOut
    rw [featuresEgress_apply]
    simp [packetOut]

end Registers

namespace PipelineTrace

variable {config : PipelineConfig} {start : Pipeline} {trace : PipelineTrace}

/-- Taking a packet out of the queue leaves the rest. -/
theorem eraseIdx_perm (queue : List BridgedPacket) (position : Nat) :
    (queue[position]?.toList ++ queue.eraseIdx position).Perm queue := by
  rcases Nat.lt_or_ge position queue.length with inside | beyond
  · rw [List.getElem?_eq_getElem inside]
    exact List.getElem_cons_eraseIdx_perm inside
  · rw [List.getElem?_eq_none beyond, List.eraseIdx_of_length_le beyond]
    exact List.Perm.refl _

theorem start_accounts (start : Pipeline) : (PipelineTrace.start start).Accounts start where
  packets := by simp [PipelineTrace.start]
  registers feature slot := by simp [PipelineTrace.start]

/-- Whatever comes in is in the queue. -/
theorem ingress_queue (config : PipelineConfig) (pipeline : Pipeline) (flowId : Int)
    (notIn : Fin numBloomfilters → Bool) (frame : List UInt8) (ingressPort : Fin maxDevPortId)
    (ingressMacTstamp : Fin (2 ^ 48)) :
    (pipeline.ingress config flowId notIn frame ingressPort ingressMacTstamp).queue =
      pipeline.queue ++
        pipeline.arrivals config (.ingress flowId notIn frame ingressPort ingressMacTstamp) := by
  unfold Pipeline.ingress Pipeline.arrivals
  cases parsed : parseStart frame with
  | none => simp [parsed]
  | some headers => simp [parsed]

theorem ingress_registers (config : PipelineConfig) (pipeline : Pipeline) (flowId : Int)
    (notIn : Fin numBloomfilters → Bool) (frame : List UInt8) (ingressPort : Fin maxDevPortId)
    (ingressMacTstamp : Fin (2 ^ 48)) :
    (pipeline.ingress config flowId notIn frame ingressPort ingressMacTstamp).registers =
      pipeline.registers := by
  unfold Pipeline.ingress
  split <;> rfl

/-- What an event takes out of the queue, and what it puts in. -/
theorem step_queue (config : PipelineConfig) (pipeline : Pipeline) (event : PipelineEvent) :
    ((pipeline.step config event).queue ++ pipeline.departures event ++
      pipeline.losses event).Perm (pipeline.queue ++ pipeline.arrivals config event) := by
  cases event with
  | ingress flowId notIn frame ingressPort ingressMacTstamp =>
      unfold Pipeline.step Pipeline.departures Pipeline.losses
      dsimp only
      rw [ingress_queue, List.append_nil, List.append_nil]
  | egress position =>
      have taken := eraseIdx_perm pipeline.queue position
      unfold Pipeline.step Pipeline.departures Pipeline.losses Pipeline.arrivals
      cases found : pipeline.queue[position]? with
      | none => simp [found]
      | some packet =>
          rw [found] at taken
          simpa [found] using (List.perm_append_comm).trans taken
  | drop position =>
      have taken := eraseIdx_perm pipeline.queue position
      unfold Pipeline.step Pipeline.departures Pipeline.losses Pipeline.arrivals
      simpa using (List.perm_append_comm).trans taken
  | writeLastTimestamp sessionId => simp [Pipeline.step, Pipeline.departures, Pipeline.losses,
      Pipeline.arrivals]

/-- A register gains what the packet that leaves adds to it. -/
theorem step_registers (config : PipelineConfig) (pipeline : Pipeline) (event : PipelineEvent)
    (feature : Feature) (slot : Int) :
    (pipeline.step config event).registers feature slot = pipeline.registers feature slot +
      UInt32.ofNat (countedAt feature slot (pipeline.departures event)) := by
  cases event with
  | ingress flowId notIn frame ingressPort ingressMacTstamp =>
      unfold Pipeline.step Pipeline.departures
      dsimp only
      rw [ingress_registers]
      simp
  | egress position =>
      unfold Pipeline.step Pipeline.departures
      cases found : pipeline.queue[position]? with
      | none => simp [found]
      | some packet => simp [found, egress_apply]
  | drop position => simp [Pipeline.step, Pipeline.departures]
  | writeLastTimestamp sessionId => simp [Pipeline.step, Pipeline.departures]

theorem Accounts.step (accounts : trace.Accounts start) (event : PipelineEvent) :
    (trace.step config event).Accounts start where
  packets := by
    have before := accounts.packets
    have moved := step_queue config trace.pipeline event
    rw [List.perm_iff_count] at before moved ⊢
    intro packet
    have before := before packet
    have moved := moved packet
    simp only [PipelineTrace.step, List.count_append] at before moved ⊢
    omega
  registers feature slot := by
    unfold PipelineTrace.step
    dsimp only
    rw [step_registers, accounts.registers, countedAt_append, UInt32.ofNat_add, add_assoc]

/-- The step lemma along a run. -/
theorem run_accounts (config : PipelineConfig) (start : Pipeline) (events : List PipelineEvent) :
    ((PipelineTrace.start start).run config events).Accounts start := by
  unfold PipelineTrace.run
  have accounts := start_accounts start
  generalize PipelineTrace.start start = trace at accounts
  induction events generalizing trace with
  | nil => exact accounts
  | cons event events ih => exact ih _ (accounts.step event)

end PipelineTrace

end Marina
