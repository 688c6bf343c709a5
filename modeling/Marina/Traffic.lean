import Marina.Pipeline

/-!
# What the registers say of the traffic

The registers of a flow against the packets of the flow, in the order in which they come in.
The last timestamp is kept where a packet comes in and the sums where it goes out, so this
needs ports whose pipes stay apart on the way (`PipelineConfig.Aligned`); then the order in
which the packets of the flow leave makes no difference (`registers_count_traffic`).

The gaps between the packets are measured with the low 32 bits of the timestamps, and a
timestamp whose low 32 bits are zero is taken for none at all. `measuredGaps_eq_iff` says of
which traffic they are the gaps.
-/

namespace Marina

/-! ## Traffic -/

/-- What happens to a flow where it comes in: a packet, or `clear_registers`. -/
inductive TrafficEvent
  | packet (timestamp : Nat) (size : UInt16)
  | clear
  deriving DecidableEq, Repr

/-- The sizes of the packets. -/
def packetSizes : List TrafficEvent → List UInt16
  | [] => []
  | .packet _ size :: traffic => size :: packetSizes traffic
  | .clear :: traffic => packetSizes traffic

/-- The gaps before the packets that have one before them, in nanoseconds. -/
def gaps : Option Nat → List TrafficEvent → List Nat
  | _, [] => []
  | _, .clear :: traffic => gaps none traffic
  | none, .packet timestamp _ :: traffic => gaps (some timestamp) traffic
  | some last, .packet timestamp _ :: traffic =>
      (timestamp - last) :: gaps (some timestamp) traffic

/-- The gaps that the pipeline computes, when the register holds `last`. -/
def measuredGaps : UInt32 → List TrafficEvent → List UInt32
  | _, [] => []
  | _, .clear :: traffic => measuredGaps 0 traffic
  | last, .packet timestamp _ :: traffic =>
      (if last ≠ 0 then [UInt32.ofNat timestamp - last] else []) ++
        measuredGaps (UInt32.ofNat timestamp) traffic

/-- Timestamps do not decrease between two clears. -/
def InOrder : Option Nat → List TrafficEvent → Prop
  | _, [] => True
  | _, .clear :: traffic => InOrder none traffic
  | none, .packet timestamp _ :: traffic => InOrder (some timestamp) traffic
  | some last, .packet timestamp _ :: traffic => last ≤ timestamp ∧ InOrder (some timestamp) traffic

/-- Each packet follows within 2^32 nanoseconds of one that does not count as none. -/
def Measurable : Option Nat → List TrafficEvent → Prop
  | _, [] => True
  | _, .clear :: traffic => Measurable none traffic
  | none, .packet timestamp _ :: traffic => Measurable (some timestamp) traffic
  | some last, .packet timestamp _ :: traffic =>
      (last % 2 ^ 32 ≠ 0 ∧ timestamp - last < 2 ^ 32) ∧ Measurable (some timestamp) traffic

/-- The register that goes with the last timestamp. -/
def lastRegister : Option Nat → UInt32
  | none => 0
  | some timestamp => UInt32.ofNat timestamp

/-- What the pipeline adds to the registers for some traffic. -/
def LogTables.sums (tables : LogTables) (last : UInt32) (traffic : List TrafficEvent) :
    Feature → Nat
  | .count => (packetSizes traffic).length
  | .sizeLog =>
      ((packetSizes traffic).map fun size => (tables.computeSizeLog size).sizeLog.toNat).sum
  | .sizeLogSquare =>
      ((packetSizes traffic).map fun size => (tables.computeSizeLog size).sizeLogSquare.toNat).sum
  | .sizeLogCube =>
      ((packetSizes traffic).map fun size => (tables.computeSizeLog size).sizeLogCube.toNat).sum
  | .iatLog =>
      ((measuredGaps last traffic).map fun gap => (tables.computeIatLog gap).iatLog.toNat).sum
  | .iatLogSquare =>
      ((measuredGaps last traffic).map fun gap => (tables.computeIatLog gap).iatLogSquare.toNat).sum
  | .iatLogCube =>
      ((measuredGaps last traffic).map fun gap => (tables.computeIatLog gap).iatLogCube.toNat).sum

/-! ## Gaps -/

section Gaps

@[simp] theorem lastRegister_eq_zero_iff (timestamp : Nat) :
    lastRegister (some timestamp) = 0 ↔ timestamp % 2 ^ 32 = 0 := by
  rw [← UInt32.toNat_inj, lastRegister, UInt32.toNat_ofNat']
  rfl

/-- The pipeline measures no gap that is not there. -/
theorem measuredGaps_length_le (last : Option Nat) (traffic : List TrafficEvent) :
    (measuredGaps (lastRegister last) traffic).length ≤ (gaps last traffic).length := by
  induction traffic generalizing last with
  | nil => cases last <;> simp [measuredGaps, gaps]
  | cons event traffic ih =>
      cases event with
      | clear => cases last <;> simpa [measuredGaps, gaps, lastRegister] using ih none
      | packet timestamp size =>
          have rest := ih (some timestamp)
          cases last with
          | none => simpa [measuredGaps, gaps, lastRegister] using rest
          | some last =>
              unfold measuredGaps gaps
              split <;> simp [lastRegister] at rest ⊢ <;> omega

/-- The difference of the low halves is the difference of the timestamps if that is small. -/
theorem toNat_difference {last timestamp : Nat} (order : last ≤ timestamp) :
    (UInt32.ofNat timestamp - lastRegister (some last)).toNat = (timestamp - last) % 2 ^ 32 := by
  unfold lastRegister
  rw [UInt32.toNat_sub, UInt32.toNat_ofNat', UInt32.toNat_ofNat']
  omega

/-- The measured gaps are the gaps exactly when all of them are measurable. -/
theorem measuredGaps_eq_gaps_iff {last : Option Nat} {traffic : List TrafficEvent}
    (order : InOrder last traffic) :
    (measuredGaps (lastRegister last) traffic).map UInt32.toNat = gaps last traffic ↔
      Measurable last traffic := by
  induction traffic generalizing last with
  | nil => cases last <;> simp [measuredGaps, gaps, Measurable]
  | cons event traffic ih =>
      cases event with
      | clear =>
          cases last <;> simpa [measuredGaps, gaps, Measurable, lastRegister] using ih order
      | packet timestamp size =>
          cases last with
          | none =>
              have rest := @ih (some timestamp) order
              simpa [measuredGaps, gaps, Measurable, lastRegister] using rest
          | some last =>
              rcases order with ⟨later, order⟩
              have rest := @ih (some timestamp) order
              have measured : measuredGaps (lastRegister (some last))
                  (.packet timestamp size :: traffic) =
                  (if lastRegister (some last) ≠ 0 then
                    [UInt32.ofNat timestamp - lastRegister (some last)] else []) ++
                  measuredGaps (lastRegister (some timestamp)) traffic := rfl
              rw [measured, gaps, Measurable, ← rest]
              rcases eq_or_ne (lastRegister (some last)) 0 with zero | known
              · -- A gap is missing, and no gap later makes up for it.
                have missing := measuredGaps_length_le (some timestamp) traffic
                have nothing := (lastRegister_eq_zero_iff last).mp zero
                simp only [zero, ne_eq, not_true_eq_false, if_false, List.nil_append, nothing,
                  false_and, iff_false]
                intro same
                have length := congrArg List.length same
                simp only [List.length_map, List.length_cons] at length
                omega
              · have known' : last % 2 ^ 32 ≠ 0 := fun zero =>
                  known ((lastRegister_eq_zero_iff last).mpr zero)
                rw [if_pos known, List.singleton_append, List.map_cons, List.cons.injEq,
                  toNat_difference later]
                refine and_congr_left fun _ => ?_
                rw [Nat.mod_eq_iff_lt (by decide)]
                exact ⟨fun small => ⟨known', small⟩, And.right⟩

end Gaps

/-! ## One event -/

/-- Packets stay on their way: what comes in on different pipes goes out on different pipes,
what comes in on one pipe goes out on one pipe, and nothing goes to the CPU. -/
structure PipelineConfig.Aligned (config : PipelineConfig) (ports : Set (Fin maxDevPortId)) :
    Prop where
  out : ∀ p ∈ ports, config.ucastEgressPort p ≠ cpuPort
  pipes : ∀ p ∈ ports, ∀ q ∈ ports,
    devPortToPipe (config.ucastEgressPort p).val = devPortToPipe (config.ucastEgressPort q).val ↔
      devPortToPipe p.val = devPortToPipe q.val

/-- Packets come in on the given ports only. -/
def PipelineEvent.EntersAt (ports : Set (Fin maxDevPortId)) : PipelineEvent → Prop
  | .ingress _ _ _ ingressPort _ => ingressPort ∈ ports
  | _ => True

/-- What an event is to the flow with the given slot. -/
def PipelineEvent.trafficAt (slot : Int) : PipelineEvent → List TrafficEvent
  | .ingress flowId _ frame ingressPort ingressMacTstamp =>
      match parseStart frame with
      | none => []
      | some headers =>
          if registerSlot ingressPort flowId = slot then
            [.packet ingressMacTstamp (packetSize frame headers)]
          else []
  | .writeLastTimestamp sessionId => if sessionId = slot then [.clear] else []
  | _ => []

section Events

variable {config : PipelineConfig} {ports : Set (Fin maxDevPortId)} {port : Fin maxDevPortId}

theorem registerSlot_eq_iff (p q : Fin maxDevPortId) (flowId flowId' : Int) :
    registerSlot p flowId = registerSlot q flowId' ↔
      flowId = flowId' ∧ devPortToPipe p.val = devPortToPipe q.val := by
  have p_lt := p.isLt
  have q_lt := q.isLt
  unfold maxDevPortId at p_lt q_lt
  unfold registerSlot devPortToPipe
  omega

/-- A packet leaves at the slot of a flow if it came in at the slot of the flow. -/
theorem PipelineConfig.Aligned.slot_iff (aligned : config.Aligned ports) {p q : Fin maxDevPortId}
    (p_mem : p ∈ ports) (q_mem : q ∈ ports) (flowId flowId' : Int) :
    registerSlot (config.ucastEgressPort p) flowId =
        registerSlot (config.ucastEgressPort q) flowId' ↔
      registerSlot p flowId = registerSlot q flowId' := by
  rw [registerSlot_eq_iff, registerSlot_eq_iff, aligned.pipes p p_mem q q_mem]

/-- A copy for the CPU adds nothing. -/
theorem countedAt_copies (packet : BridgedPacket) (headers : ParsedHeaders)
    (notIn : Fin numBloomfilters → Bool) (feature : Feature) (slot : Int) :
    countedAt feature slot (packet.copies headers notIn) = packet.counted feature slot := by
  unfold BridgedPacket.copies
  split <;> simp [BridgedPacket.counted]

/-- One packet makes the sums of its own traffic. -/
theorem amount_bridge (pipeline : Pipeline) (flowId : Int) (headers : ParsedHeaders)
    (frame : List UInt8) (ingressPort : Fin maxDevPortId) (ingressMacTstamp : Fin (2 ^ 48))
    (feature : Feature) :
    (pipeline.bridge config flowId headers frame ingressPort ingressMacTstamp).amount feature =
      config.tables.sums (pipeline.iatLastTimestampReg (registerSlot ingressPort flowId))
        [.packet ingressMacTstamp (packetSize frame headers)] feature := by
  unfold Pipeline.bridge BridgedPacket.amount LogTables.sums
  generalize pipeline.iatLastTimestampReg (registerSlot ingressPort flowId) = last
  rcases eq_or_ne last 0 with first | known
  · cases feature <;> simp [packetSizes, measuredGaps, first]
  · cases feature <;> simp [packetSizes, measuredGaps, known]

/-- The register that traffic leaves behind. -/
def lastAfter : UInt32 → List TrafficEvent → UInt32
  | last, [] => last
  | _, .clear :: traffic => lastAfter 0 traffic
  | _, .packet timestamp _ :: traffic => lastAfter (UInt32.ofNat timestamp) traffic

@[simp] theorem LogTables.sums_nil (tables : LogTables) (last : UInt32) (feature : Feature) :
    tables.sums last [] feature = 0 := by
  cases feature <;> rfl

@[simp] theorem LogTables.sums_clear (tables : LogTables) (last : UInt32) (feature : Feature) :
    tables.sums last [.clear] feature = 0 := by
  cases feature <;> rfl

theorem packetSizes_append (traffic more : List TrafficEvent) :
    packetSizes (traffic ++ more) = packetSizes traffic ++ packetSizes more := by
  induction traffic with
  | nil => rfl
  | cons event traffic ih => cases event <;> simp [packetSizes, ih]

theorem measuredGaps_append (last : UInt32) (traffic more : List TrafficEvent) :
    measuredGaps last (traffic ++ more) =
      measuredGaps last traffic ++ measuredGaps (lastAfter last traffic) more := by
  induction traffic generalizing last with
  | nil => rfl
  | cons event traffic ih => cases event <;> simp [measuredGaps, lastAfter, ih]

theorem LogTables.sums_append (tables : LogTables) (last : UInt32)
    (traffic more : List TrafficEvent) (feature : Feature) :
    tables.sums last (traffic ++ more) feature =
      tables.sums last traffic feature + tables.sums (lastAfter last traffic) more feature := by
  unfold LogTables.sums
  cases feature <;> simp [packetSizes_append, measuredGaps_append]

/-- What arrives in one step is the traffic of the step. -/
theorem countedAt_arrivals (aligned : config.Aligned ports) (port_mem : port ∈ ports)
    (flowId : Int) (pipeline : Pipeline) {event : PipelineEvent} (enters : event.EntersAt ports)
    (feature : Feature) :
    countedAt feature (registerSlot (config.ucastEgressPort port) flowId)
        (pipeline.arrivals config event) =
      config.tables.sums (pipeline.iatLastTimestampReg (registerSlot port flowId))
        (event.trafficAt (registerSlot port flowId)) feature := by
  cases event with
  | ingress other notIn frame ingressPort ingressMacTstamp =>
      unfold Pipeline.arrivals PipelineEvent.trafficAt
      cases parsed : parseStart frame with
      | none => simp [parsed]
      | some headers =>
          have out := aligned.out ingressPort enters
          have slot := aligned.slot_iff enters port_mem other flowId
          simp only [parsed]
          rw [countedAt_copies]
          unfold BridgedPacket.counted BridgedPacket.slot
          change (if config.ucastEgressPort ingressPort ≠ cpuPort ∧
            registerSlot (config.ucastEgressPort ingressPort) other =
              registerSlot (config.ucastEgressPort port) flowId then _ else 0) = _
          simp only [slot, out, ne_eq, not_false_eq_true, true_and]
          split
          · rename_i here
            rw [amount_bridge, here]
          · simp
  | writeLastTimestamp sessionId =>
      unfold Pipeline.arrivals PipelineEvent.trafficAt
      dsimp only
      split <;> simp
  | egress position => simp [Pipeline.arrivals, PipelineEvent.trafficAt]
  | drop position => simp [Pipeline.arrivals, PipelineEvent.trafficAt]

/-- The last timestamp follows the traffic. -/
theorem lastTimestamp_step (pipeline : Pipeline) (event : PipelineEvent) (slot : Int) :
    (pipeline.step config event).iatLastTimestampReg slot =
      lastAfter (pipeline.iatLastTimestampReg slot) (event.trafficAt slot) := by
  cases event with
  | ingress flowId notIn frame ingressPort ingressMacTstamp =>
      unfold Pipeline.step Pipeline.ingress PipelineEvent.trafficAt
      cases parsed : parseStart frame with
      | none => simp [parsed, lastAfter]
      | some headers =>
          rcases eq_or_ne (registerSlot ingressPort flowId) slot with here | elsewhere
          · simp [parsed, here, lastAfter]
          · simp [parsed, elsewhere, Ne.symm elsewhere, lastAfter]
  | writeLastTimestamp sessionId =>
      unfold Pipeline.step PipelineEvent.trafficAt
      rcases eq_or_ne sessionId slot with here | elsewhere
      · simp [here, lastAfter]
      · simp [elsewhere, Ne.symm elsewhere, lastAfter]
  | egress position =>
      unfold Pipeline.step
      dsimp only
      split <;> rfl
  | drop position => rfl

end Events

/-! ## Runs -/

/-- The traffic of a flow in a run. -/
def trafficAt (slot : Int) (events : List PipelineEvent) : List TrafficEvent :=
  events.flatMap (PipelineEvent.trafficAt slot)

section Runs

variable {config : PipelineConfig} {ports : Set (Fin maxDevPortId)} {port : Fin maxDevPortId}

/-- What arrives in a run is the traffic of the run. -/
theorem countedAt_run (aligned : config.Aligned ports) (port_mem : port ∈ ports) (flowId : Int)
    {events : List PipelineEvent} (enter : ∀ event ∈ events, event.EntersAt ports)
    (feature : Feature) (trace : PipelineTrace) :
    countedAt feature (registerSlot (config.ucastEgressPort port) flowId)
        (trace.run config events).arrived =
      countedAt feature (registerSlot (config.ucastEgressPort port) flowId) trace.arrived +
        config.tables.sums (trace.pipeline.iatLastTimestampReg (registerSlot port flowId))
          (trafficAt (registerSlot port flowId) events) feature := by
  induction events generalizing trace with
  | nil => simp [PipelineTrace.run, trafficAt]
  | cons event events ih =>
      have enters := enter event (List.mem_cons_self ..)
      have rest := ih (fun later member => enter later (List.mem_cons_of_mem _ member))
        (trace.step config event)
      have arrived : (trace.step config event).arrived =
          trace.arrived ++ trace.pipeline.arrivals config event := rfl
      have last : (trace.step config event).pipeline.iatLastTimestampReg
          (registerSlot port flowId) =
          lastAfter (trace.pipeline.iatLastTimestampReg (registerSlot port flowId))
            (event.trafficAt (registerSlot port flowId)) :=
        lastTimestamp_step trace.pipeline event _
      rw [arrived, countedAt_append, countedAt_arrivals aligned port_mem flowId _ enters,
        last] at rest
      have traffic : trafficAt (registerSlot port flowId) (event :: events) =
          event.trafficAt (registerSlot port flowId) ++
            trafficAt (registerSlot port flowId) events := List.flatMap_cons
      rw [traffic, config.tables.sums_append, ← Nat.add_assoc]
      exact rest

end Runs

/-- In every run over aligned ports, a register of a flow and what the packets of the flow
that wait or were dropped would add make what it started with and the sums over the flow's
traffic, in whatever order the packets leave. -/
theorem registers_count_traffic {config : PipelineConfig} {ports : Set (Fin maxDevPortId)}
    (aligned : config.Aligned ports) {port : Fin maxDevPortId} (port_mem : port ∈ ports)
    (flowId : Int) (start : Pipeline) {events : List PipelineEvent}
    (enter : ∀ event ∈ events, event.EntersAt ports) (feature : Feature) :
    let slot := registerSlot (config.ucastEgressPort port) flowId
    let trace := (PipelineTrace.start start).run config events
    trace.pipeline.registers feature slot +
        UInt32.ofNat (countedAt feature slot (trace.pipeline.queue ++ trace.dropped)) =
      start.registers feature slot + UInt32.ofNat (countedAt feature slot start.queue +
        config.tables.sums (start.iatLastTimestampReg (registerSlot port flowId))
          (trafficAt (registerSlot port flowId) events) feature) := by
  intro slot trace
  have accounts : trace.Accounts start := PipelineTrace.run_accounts config start events
  have arrived : countedAt feature slot trace.arrived =
      0 + config.tables.sums (start.iatLastTimestampReg (registerSlot port flowId))
        (trafficAt (registerSlot port flowId) events) feature :=
    countedAt_run aligned port_mem flowId enter feature (PipelineTrace.start start)
  have packets : countedAt feature slot (trace.pipeline.queue ++ trace.sent ++ trace.dropped) =
      countedAt feature slot (start.queue ++ trace.arrived) := countedAt_perm accounts.packets
  rw [countedAt_append, countedAt_append, countedAt_append] at packets
  rw [accounts.registers, countedAt_append, add_assoc, ← UInt32.ofNat_add]
  congr 2
  omega

theorem lowPort_lt : 0 < maxDevPortId := by decide

def lowPort : Fin maxDevPortId := ⟨0, lowPort_lt⟩

theorem highPort_lt : 128 < maxDevPortId := by decide

def highPort : Fin maxDevPortId := ⟨128, highPort_lt⟩

/-- Everything is forwarded to one port on the second pipe. -/
def onePath (tables : LogTables) : PipelineConfig := ⟨tables, fun _ => highPort⟩

def quietPipeline : Pipeline := ⟨fun _ => 0, fun _ _ => 0, []⟩

theorem onePath_aligned (tables : LogTables) (port : Fin maxDevPortId) :
    (onePath tables).Aligned {port} where
  out p _ := by
    change highPort ≠ cpuPort
    decide
  pipes p p_mem q q_mem := by
    rw [Set.mem_singleton_iff.mp p_mem, Set.mem_singleton_iff.mp q_mem]
    simp

/-- Two packets of flow `5` that overtake each other. -/
def overtaking : List PipelineEvent :=
  [.ingress 5 (fun _ => false) (sampleFrame []) lowPort 7,
    .ingress 5 (fun _ => false) (sampleFrame []) lowPort 9, .egress 1, .egress 0]

theorem overtaking_enter : ∀ event ∈ overtaking, event.EntersAt {lowPort} := by
  intro event member
  simp only [overtaking, List.mem_cons, List.not_mem_nil, or_false] at member
  rcases member with rfl | rfl | rfl | rfl <;> simp [PipelineEvent.EntersAt]

theorem trafficAt_overtaking :
    trafficAt (registerSlot lowPort 5) overtaking = [.packet 7 0, .packet 9 0] := by decide

theorem onePath_slot (tables : LogTables) :
    registerSlot ((onePath tables).ucastEgressPort lowPort) 5 = 21 := by
  simp [registerSlot, onePath, devPortToPipe, highPort]

theorem registers_count_traffic_overtaking :
    ((PipelineTrace.start quietPipeline).run (onePath ⟨[], []⟩) overtaking).pipeline.registers
      .count 21 = 2 := by
  have counted := registers_count_traffic (onePath_aligned ⟨[], []⟩ lowPort)
    (Set.mem_singleton _) 5 quietPipeline overtaking_enter .count
  have queue : ((PipelineTrace.start quietPipeline).run (onePath ⟨[], []⟩)
      overtaking).pipeline.queue = [] := by decide
  have dropped : ((PipelineTrace.start quietPipeline).run (onePath ⟨[], []⟩)
      overtaking).dropped = [] := by decide
  dsimp only at counted
  rw [onePath_slot, queue, dropped, trafficAt_overtaking] at counted
  simpa [LogTables.sums, packetSizes, quietPipeline] using counted

end Marina
