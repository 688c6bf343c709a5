import Marina.LogAccuracy

/-!
# From packets to exported values

The pipeline and the rounds of `read_features` together: what a session's values say of the
packets that came in for it.

A value counts the packets that had left when the last round read its register. The session
starts with `clear_registers`; `Fresh` is the state that it should leave behind, in which
nothing of an earlier session is in the register or on its way to it. From there on a value
and what the packets that wait or were dropped would add is the sum over the session's
traffic (`exported_value_counts_traffic`), and so close to the sum over the powers of the
exact logarithms (`exported_value_approximates_logs`).
-/

namespace Marina

open Lib

/-! ## Packets, rounds and clears -/

/-- The pipeline, the controller's copy of its registers, and the packets that have left since
the last round. -/
structure ExportTrace where
  trace : PipelineTrace
  bank : FeatureBank
  recent : List BridgedPacket

inductive ExportEvent
  | pipeline (event : PipelineEvent)
  | round (ageing : AgeingRound)
  /-- `clear_registers`. -/
  | clear (fiveTuple : FiveTuple) (sessionId : Int)

/-- What the pipeline sees of an event. -/
def ExportEvent.pipelineEvents : ExportEvent → List PipelineEvent
  | .pipeline event => [event]
  | .round _ => []
  | .clear _ sessionId => [.writeLastTimestamp sessionId]

namespace ExportTrace

def start (pipeline : Pipeline) (bank : FeatureBank) : ExportTrace :=
  ⟨PipelineTrace.start pipeline, bank, []⟩

def step (config : PipelineConfig) (onEgress : Feature → Bool) (exported : ExportTrace) :
    ExportEvent → ExportTrace
  | .pipeline event =>
      { exported with
        trace := exported.trace.step config event
        recent := exported.recent ++ exported.trace.pipeline.departures event }
  | .round ageing =>
      { exported with
        bank := (readFeatures ageing ⟨exported.trace.pipeline.registers, exported.bank⟩).bank
        recent := [] }
  | .clear fiveTuple sessionId =>
      { exported with
        trace := exported.trace.step config (.writeLastTimestamp sessionId)
        bank := clearRegisters onEgress fiveTuple sessionId exported.bank }

def run (config : PipelineConfig) (onEgress : Feature → Bool) (exported : ExportTrace)
    (events : List ExportEvent) : ExportTrace :=
  events.foldl (step config onEgress) exported

/-- The value of a feature at a slot. -/
def value (exported : ExportTrace) (feature : Feature) (slot : Int) : Nat :=
  ((exported.bank.registers feature).values slot).toNat

/-- A round finds fewer than 2^32 more in the register, and the value has room for them. -/
def Bounded (feature : Feature) (slot : Int) (exported : ExportTrace) : ExportEvent → Prop
  | .round _ => countedAt feature slot exported.recent < 2 ^ 32 ∧
      countedAt feature slot exported.trace.sent < 2 ^ 64
  | _ => True

/-- The slot is left alone by `clear_registers` of the other sessions. -/
def Spares (onEgress : Feature → Bool) (feature : Feature) (slot : Int) : ExportEvent → Prop
  | .clear fiveTuple sessionId => feature.slot onEgress fiveTuple sessionId ≠ slot
  | _ => True

/-- The buffer holds what was read in the last round, and the value counts what had left by
then. -/
structure Counts (feature : Feature) (slot : Int) (exported : ExportTrace) : Prop where
  register : exported.trace.pipeline.registers feature slot =
    ((exported.bank.registers feature).at slot).current +
      UInt32.ofNat (countedAt feature slot exported.recent)
  value : exported.value feature slot + countedAt feature slot exported.recent =
    countedAt feature slot exported.trace.sent

/-- What a cleared session starts with. -/
structure Fresh (feature : Feature) (ingressSlot slot : Int) (pipeline : Pipeline)
    (bank : FeatureBank) : Prop where
  value : ((bank.registers feature).at slot).value = 0
  register : pipeline.registers feature slot = ((bank.registers feature).at slot).current
  nothing_waits : countedAt feature slot pipeline.queue = 0
  no_timestamp : pipeline.iatLastTimestampReg ingressSlot = 0

section Amounts

variable {feature : Feature} {slot : Int}

/-- What is added for one packet has sixteen bits. -/
theorem amount_lt (packet : BridgedPacket) (feature : Feature) : packet.amount feature < 2 ^ 16 := by
  have size := packet.sizeLogs.sizeLog.toNat_lt
  have sizeSquare := packet.sizeLogs.sizeLogSquare.toNat_lt
  have sizeCube := packet.sizeLogs.sizeLogCube.toNat_lt
  have iat := packet.iatLogs.iatLog.toNat_lt
  have iatSquare := packet.iatLogs.iatLogSquare.toNat_lt
  have iatCube := packet.iatLogs.iatLogCube.toNat_lt
  unfold BridgedPacket.amount
  cases feature <;> dsimp only <;> (try split) <;> omega

/-- The sum for a few packets is small. -/
theorem countedAt_le (packets : List BridgedPacket) :
    countedAt feature slot packets ≤ packets.length * 2 ^ 16 := by
  induction packets with
  | nil => simp
  | cons packet packets ih =>
      have head : packet.counted feature slot ≤ 2 ^ 16 := by
        unfold BridgedPacket.counted
        split
        · exact (amount_lt packet feature).le
        · exact Nat.zero_le _
      rw [countedAt_cons, List.length_cons]
      omega

/-- A round after fewer than 2^16 packets finds fewer than 2^32 more. -/
theorem bounded_of_few {exported : ExportTrace} (recent : exported.recent.length < 2 ^ 16)
    (sent : exported.trace.sent.length < 2 ^ 48) (event : ExportEvent) :
    exported.Bounded feature slot event := by
  have recent_le : countedAt feature slot exported.recent ≤ _ := countedAt_le exported.recent
  have sent_le : countedAt feature slot exported.trace.sent ≤ _ := countedAt_le exported.trace.sent
  cases event with
  | round ageing => exact ⟨by omega, by omega⟩
  | pipeline event => exact True.intro
  | clear fiveTuple sessionId => exact True.intro

theorem departures_length_le (pipeline : Pipeline) (event : PipelineEvent) :
    (pipeline.departures event).length ≤ 1 := by
  cases event with
  | egress position => exact Option.length_toList_le
  | ingress flowId notIn frame ingressPort ingressMacTstamp => exact Nat.zero_le _
  | drop position => exact Nat.zero_le _
  | writeLastTimestamp sessionId => exact Nat.zero_le _

theorem sent_length_step (config : PipelineConfig) (onEgress : Feature → Bool)
    (exported : ExportTrace) (event : ExportEvent) :
    (exported.step config onEgress event).trace.sent.length ≤ exported.trace.sent.length + 1 := by
  cases event with
  | pipeline event =>
      have one := departures_length_le exported.trace.pipeline event
      simpa [step, PipelineTrace.step] using one
  | round ageing => exact Nat.le_succ _
  | clear fiveTuple sessionId => simp [step, PipelineTrace.step, Pipeline.departures]

theorem recent_length_step (config : PipelineConfig) (onEgress : Feature → Bool)
    (exported : ExportTrace) (event : ExportEvent) :
    (exported.step config onEgress event).recent.length ≤ exported.recent.length + 1 := by
  cases event with
  | pipeline event =>
      have one := departures_length_le exported.trace.pipeline event
      simpa [step] using one
  | round ageing => simp [step]
  | clear fiveTuple sessionId => simp [step]

end Amounts

section Steps

variable {config : PipelineConfig} {onEgress : Feature → Bool} {feature : Feature}
  {ingressSlot slot : Int} {pipeline : Pipeline} {bank : FeatureBank} {exported : ExportTrace}

/-- The pipeline of a run is that of the run of its pipeline events. -/
theorem run_trace (exported : ExportTrace) (events : List ExportEvent) :
    (exported.run config onEgress events).trace =
      exported.trace.run config (events.flatMap ExportEvent.pipelineEvents) := by
  induction events generalizing exported with
  | nil => rfl
  | cons event events ih =>
      have rest := ih (exported.step config onEgress event)
      cases event <;> exact rest

/-- A clear after a round leaves a fresh session behind, if nothing of the slot is on its way. -/
theorem Fresh.of_clear (fiveTuple : FiveTuple) (sessionId : Int)
    (home : feature.slot onEgress fiveTuple sessionId = slot)
    (read : pipeline.registers feature slot = ((bank.registers feature).at slot).current)
    (nothing_waits : countedAt feature slot pipeline.queue = 0) :
    Fresh feature sessionId slot (pipeline.step config (.writeLastTimestamp sessionId))
      (clearRegisters onEgress fiveTuple sessionId bank) where
  value := by rw [at_clearRegisters, if_pos home]
  register := by
    rw [at_clearRegisters, if_pos home]
    exact read
  nothing_waits := nothing_waits
  no_timestamp := Function.update_self ..

theorem Fresh.counts (fresh : Fresh feature ingressSlot slot pipeline bank) :
    (start pipeline bank).Counts feature slot where
  register := by simpa [start, PipelineTrace.start] using fresh.register
  value := by
    have zero := fresh.value
    unfold FeatureRegister.at at zero
    unfold ExportTrace.value start PipelineTrace.start
    dsimp only at zero ⊢
    rw [zero]
    rfl

theorem Counts.packets (counts : exported.Counts feature slot) (event : PipelineEvent) :
    (exported.step config onEgress (.pipeline event)).Counts feature slot where
  register := by
    unfold step PipelineTrace.step
    dsimp only
    rw [PipelineTrace.step_registers, counts.register, countedAt_append, UInt32.ofNat_add,
      add_assoc]
  value := by
    have before := counts.value
    unfold step PipelineTrace.step
    dsimp only
    rw [countedAt_append, countedAt_append]
    exact (Nat.add_assoc ..).symm.trans (congrArg (· + _) before)

theorem Counts.round (counts : exported.Counts feature slot) (member : slot ∈ featureSlots)
    (ageing : AgeingRound) (bounded : exported.Bounded feature slot (.round ageing)) :
    (exported.step config onEgress (.round ageing)).Counts feature slot ∧
      (exported.step config onEgress (.round ageing)).value feature slot =
        countedAt feature slot exported.trace.sent := by
  rcases bounded with ⟨small, room⟩
  have after := at_readFeatures member ageing
    ⟨exported.trace.pipeline.registers, exported.bank⟩ feature
  have value : (exported.step config onEgress (.round ageing)).value feature slot =
      countedAt feature slot exported.trace.sent := by
    have before := counts.value
    have gained : (exported.trace.pipeline.registers feature slot -
        ((exported.bank.registers feature).at slot).current).toNat =
        countedAt feature slot exported.recent := by
      rw [counts.register, add_sub_cancel_left, UInt32.toNat_ofNat', Nat.mod_eq_of_lt small]
    have values := congrArg (fun slot : SlotValues => slot.value.toNat) after
    unfold SlotValues.processed at values
    dsimp only at values
    rw [UInt64.toNat_add, UInt32.toNat_toUInt64, gained] at values
    refine values.trans ?_
    change (exported.value feature slot + _) % _ = _
    rw [before, Nat.mod_eq_of_lt room]
  refine ⟨⟨?_, ?_⟩, value⟩
  · have current := congrArg SlotValues.current after
    refine Eq.trans ?_ (add_zero _).symm
    exact current.symm
  · exact value

theorem Counts.clear (counts : exported.Counts feature slot) (fiveTuple : FiveTuple)
    (sessionId : Int) (spares : Spares onEgress feature slot (.clear fiveTuple sessionId)) :
    (exported.step config onEgress (.clear fiveTuple sessionId)).Counts feature slot := by
  have same : ((clearRegisters onEgress fiveTuple sessionId exported.bank).registers feature).at
      slot = (exported.bank.registers feature).at slot := by
    rw [at_clearRegisters, if_neg spares]
  refine ⟨?_, ?_⟩
  · unfold step
    dsimp only
    rw [same]
    exact counts.register
  · have value := counts.value
    have same_value := congrArg (fun slot : SlotValues => slot.value.toNat) same
    unfold ExportTrace.value at value ⊢
    unfold step PipelineTrace.step Pipeline.departures
    dsimp only
    rw [List.append_nil]
    exact (congrArg (· + _) same_value).trans value

theorem Counts.step (counts : exported.Counts feature slot) (member : slot ∈ featureSlots)
    {event : ExportEvent} (spares : Spares onEgress feature slot event)
    (bounded : exported.Bounded feature slot event) :
    (exported.step config onEgress event).Counts feature slot := by
  cases event with
  | pipeline event => exact counts.packets event
  | round ageing => exact (counts.round member ageing bounded).1
  | clear fiveTuple sessionId => exact counts.clear fiveTuple sessionId spares

end Steps

/-! ## Sessions -/

/-- The step of a run, for the rules of runs. -/
def next (config : PipelineConfig) (onEgress : Feature → Bool) (exported : ExportTrace)
    (event : ExportEvent) : Outcome ExportTrace :=
  pure (exported.step config onEgress event)

/-- The traffic of a flow among the events. -/
def trafficOf (slot : Int) (events : List ExportEvent) : List TrafficEvent :=
  trafficAt slot (events.flatMap ExportEvent.pipelineEvents)

/-- A run of a session: packets come in on the given ports, other sessions are cleared, and
rounds come often enough. -/
structure Session (config : PipelineConfig) (onEgress : Feature → Bool)
    (ports : Set (Fin maxDevPortId)) (feature : Feature) (slot : Int) (exported : ExportTrace)
    (events : List ExportEvent) : Prop where
  enter : ∀ event ∈ events.flatMap ExportEvent.pipelineEvents, event.EntersAt ports
  spare : ∀ event ∈ events, Spares onEgress feature slot event
  bounded : AllSteps (next config onEgress) (Bounded feature slot) exported events

section Sessions

variable {config : PipelineConfig} {onEgress : Feature → Bool} {feature : Feature}
  {ingressSlot slot : Int} {pipeline : Pipeline} {bank : FeatureBank} {exported : ExportTrace}
  {ports : Set (Fin maxDevPortId)} {port : Fin maxDevPortId} {flowId : Int}
  {events : List ExportEvent}

theorem foldlM_next (exported : ExportTrace) (events : List ExportEvent) :
    events.foldlM (next config onEgress) exported = pure (exported.run config onEgress events) := by
  induction events generalizing exported with
  | nil => rfl
  | cons event events ih =>
      rw [List.foldlM_cons, next, pure_bind, ih]
      rfl

theorem Session.of_append {first rest : List ExportEvent}
    (session : Session config onEgress ports feature slot exported (first ++ rest)) :
    Session config onEgress ports feature slot exported first where
  enter event member := session.enter event (by
    rw [List.flatMap_append]
    exact List.mem_append_left _ member)
  spare event member := session.spare event (List.mem_append_left _ member)
  bounded := session.bounded.of_append

/-- A run of fewer than 2^16 events is bounded. -/
theorem bounded_of_length (sent : exported.trace.sent.length + events.length < 2 ^ 16)
    (recent : exported.recent.length + events.length < 2 ^ 16) :
    AllSteps (next config onEgress) (Bounded feature slot) exported events := by
  induction events generalizing exported with
  | nil => exact True.intro
  | cons event events ih =>
      rw [List.length_cons] at sent recent
      refine .cons (bounded_of_few (by omega) (by omega) event) rfl (ih ?_ ?_)
      · have one := sent_length_step config onEgress exported event
        omega
      · have one := recent_length_step config onEgress exported event
        omega

/-- What is counted at the end of a run. -/
theorem Session.counts (session : Session config onEgress ports feature slot exported events)
    (counts : exported.Counts feature slot) (member : slot ∈ featureSlots) :
    (exported.run config onEgress events).Counts feature slot := by
  have spared : AllSteps (next config onEgress) (fun _ event => Spares onEgress feature slot event)
      exported events := .of_forall fun _ event member => session.spare event member
  refine (session.bounded.and spared).holds_after (I := Counts feature slot) ?_ counts
    (foldlM_next exported events)
  intro exported event exported' counts met stepped
  rw [next, Exec.pure_inj] at stepped
  rw [← stepped]
  exact counts.step member met.2 met.1

/-- What a fresh session's packets that have left add, and the others, is its traffic. -/
theorem Fresh.sent_eq (onEgress : Feature → Bool) (aligned : config.Aligned ports)
    (port_mem : port ∈ ports)
    (fresh : Fresh feature (registerSlot port flowId)
      (registerSlot (config.ucastEgressPort port) flowId) pipeline bank)
    (enter : ∀ event ∈ events.flatMap ExportEvent.pipelineEvents, event.EntersAt ports) :
    let slot := registerSlot (config.ucastEgressPort port) flowId
    let trace := ((start pipeline bank).run config onEgress events).trace
    countedAt feature slot trace.sent +
        countedAt feature slot (trace.pipeline.queue ++ trace.dropped) =
      config.tables.sums 0 (trafficOf (registerSlot port flowId) events) feature := by
  intro slot trace
  have ran : trace = (PipelineTrace.start pipeline).run config
      (events.flatMap ExportEvent.pipelineEvents) := run_trace (start pipeline bank) events
  have accounts : trace.Accounts pipeline := ran ▸ PipelineTrace.run_accounts config pipeline _
  have arrived : countedAt feature slot trace.arrived =
      0 + config.tables.sums (pipeline.iatLastTimestampReg (registerSlot port flowId))
        (trafficOf (registerSlot port flowId) events) feature :=
    ran ▸ countedAt_run aligned port_mem flowId enter feature (PipelineTrace.start pipeline)
  have packets : countedAt feature slot (trace.pipeline.queue ++ trace.sent ++ trace.dropped) =
      countedAt feature slot (pipeline.queue ++ trace.arrived) := countedAt_perm accounts.packets
  have nothing : countedAt feature slot pipeline.queue = 0 := fresh.nothing_waits
  rw [fresh.no_timestamp] at arrived
  rw [countedAt_append, countedAt_append, countedAt_append] at packets
  rw [countedAt_append]
  omega

/-- The value after a round. -/
theorem Fresh.value_add (aligned : config.Aligned ports) (port_mem : port ∈ ports)
    (member : registerSlot (config.ucastEgressPort port) flowId ∈ featureSlots)
    (fresh : Fresh feature (registerSlot port flowId)
      (registerSlot (config.ucastEgressPort port) flowId) pipeline bank)
    {ageing : AgeingRound}
    (session : Session config onEgress ports feature
      (registerSlot (config.ucastEgressPort port) flowId) (start pipeline bank)
      (events ++ [.round ageing])) :
    let slot := registerSlot (config.ucastEgressPort port) flowId
    let exported := (start pipeline bank).run config onEgress (events ++ [.round ageing])
    exported.value feature slot +
        countedAt feature slot (exported.trace.pipeline.queue ++ exported.trace.dropped) =
      config.tables.sums 0 (trafficOf (registerSlot port flowId) events) feature := by
  intro slot exported
  have first := session.of_append
  have counts := first.counts fresh.counts member
  have sent := fresh.sent_eq onEgress aligned port_mem first.enter
  have bounded : ((start pipeline bank).run config onEgress events).Bounded feature slot
      (.round ageing) :=
    (session.bounded.after (foldlM_next (start pipeline bank) events)).1
  have last : exported = ((start pipeline bank).run config onEgress events).step config onEgress
      (.round ageing) := List.foldl_concat ..
  rw [last, (counts.round member ageing bounded).2]
  exact sent

end Sessions

end ExportTrace

/-- After every round of a session that starts fresh, the exported value and what the packets
that wait or were dropped would add make the sum over all the traffic of the session, whatever
the other flows do and in whatever order the packets leave. -/
theorem exported_value_counts_traffic {config : PipelineConfig} {onEgress : Feature → Bool}
    {ports : Set (Fin maxDevPortId)} (aligned : config.Aligned ports) {port : Fin maxDevPortId}
    (port_mem : port ∈ ports) {flowId : Int}
    (low : minSessionId ≤ registerSlot (config.ucastEgressPort port) flowId)
    (high : registerSlot (config.ucastEgressPort port) flowId < featureSize) {feature : Feature}
    {pipeline : Pipeline} {bank : FeatureBank}
    (fresh : ExportTrace.Fresh feature (registerSlot port flowId)
      (registerSlot (config.ucastEgressPort port) flowId) pipeline bank)
    {events : List ExportEvent} {ageing : AgeingRound}
    (session : ExportTrace.Session config onEgress ports feature
      (registerSlot (config.ucastEgressPort port) flowId) (.start pipeline bank)
      (events ++ [.round ageing])) :
    let slot := registerSlot (config.ucastEgressPort port) flowId
    let exported := (ExportTrace.start pipeline bank).run config onEgress
      (events ++ [.round ageing])
    exported.value feature slot +
        countedAt feature slot (exported.trace.pipeline.queue ++ exported.trace.dropped) =
      config.tables.sums 0 (ExportTrace.trafficOf (registerSlot port flowId) events) feature :=
  fresh.value_add aligned port_mem (mem_featureSlots.mpr ⟨low, high⟩) session

/-- The packets that overtake each other, and the values after the round that follows. -/
def overtakingExport : List ExportEvent := overtaking.map .pipeline

def quietAgeing : AgeingRound := ⟨fun _ => -1, 0, fun _ => true⟩

abbrev overtakingEnd (tables : LogTables) : ExportTrace :=
  (ExportTrace.start quietPipeline emptyBank).run (onePath tables) allIngress
    (overtakingExport ++ [.round quietAgeing])

theorem quietPipeline_fresh (tables : LogTables) (feature : Feature) :
    ExportTrace.Fresh feature (registerSlot lowPort 5)
      (registerSlot ((onePath tables).ucastEgressPort lowPort) 5) quietPipeline emptyBank where
  value := rfl
  register := rfl
  nothing_waits := rfl
  no_timestamp := rfl

theorem overtaking_session (tables : LogTables) (feature : Feature) :
    ExportTrace.Session (onePath tables) allIngress {lowPort} feature
      (registerSlot ((onePath tables).ucastEgressPort lowPort) 5)
      (.start quietPipeline emptyBank) (overtakingExport ++ [.round quietAgeing]) where
  enter := overtaking_enter
  spare event member := by
    simp only [overtakingExport, overtaking, List.map_cons, List.map_nil, List.cons_append,
      List.nil_append, List.mem_cons, List.not_mem_nil, or_false] at member
    rcases member with rfl | rfl | rfl | rfl | rfl <;> exact True.intro
  bounded := ExportTrace.bounded_of_length (by decide) (by decide)

theorem trafficOf_overtaking :
    ExportTrace.trafficOf (registerSlot lowPort 5) overtakingExport =
      [.packet 7 0, .packet 9 0] := trafficAt_overtaking

/-- Both packets are gone at the end. -/
theorem overtaking_settled (tables : LogTables) (feature : Feature) (slot : Int) :
    countedAt feature slot ((overtakingEnd tables).trace.pipeline.queue ++
      (overtakingEnd tables).trace.dropped) = 0 := by
  have gone : (overtakingEnd tables).trace.pipeline.queue ++
      (overtakingEnd tables).trace.dropped = [] := rfl
  rw [gone, countedAt_nil]

theorem onePath_slot_bounds (tables : LogTables) :
    minSessionId ≤ registerSlot ((onePath tables).ucastEgressPort lowPort) 5 ∧
      registerSlot ((onePath tables).ucastEgressPort lowPort) 5 < featureSize := by
  rw [onePath_slot]
  decide

theorem exported_value_counts_traffic_overtaking :
    (overtakingEnd ⟨[], []⟩).value .count 21 = 2 := by
  -- The tables stay a name, so that nothing evaluates the round.
  obtain ⟨tables, empty⟩ : ∃ tables : LogTables, tables = ⟨[], []⟩ := ⟨_, rfl⟩
  rw [← empty]
  obtain ⟨low, high⟩ := onePath_slot_bounds tables
  have total := exported_value_counts_traffic (onePath_aligned tables lowPort)
    (Set.mem_singleton _) low high (quietPipeline_fresh tables .count)
    (overtaking_session tables .count)
  dsimp only at total
  rw [overtaking_settled, trafficOf_overtaking, onePath_slot, Nat.add_zero] at total
  simpa [LogTables.sums, packetSizes] using total

/-- When in addition `prepare_dataplane` has installed the logarithms, nothing of the session
waits or was dropped, and its gaps can be measured, then the exported value is the sum of the
powers of the logarithms to base two of the session's sizes or gaps, up to the bound for each
of them. -/
theorem exported_value_approximates_logs {roundedLogMean : Nat → List Nat → Nat} {error : ℝ}
    (rounds : RoundsLogMean roundedLogMean error) (small : error ≤ 1 / 2)
    {config : PipelineConfig} (installed : config.tables = logTables roundedLogMean)
    {onEgress : Feature → Bool} {ports : Set (Fin maxDevPortId)}
    (aligned : config.Aligned ports) {port : Fin maxDevPortId} (port_mem : port ∈ ports)
    {flowId : Int} (low : minSessionId ≤ registerSlot (config.ucastEgressPort port) flowId)
    (high : registerSlot (config.ucastEgressPort port) flowId < featureSize) {feature : Feature}
    {pipeline : Pipeline} {bank : FeatureBank}
    (fresh : ExportTrace.Fresh feature (registerSlot port flowId)
      (registerSlot (config.ucastEgressPort port) flowId) pipeline bank)
    {events : List ExportEvent} {ageing : AgeingRound}
    (session : ExportTrace.Session config onEgress ports feature
      (registerSlot (config.ucastEgressPort port) flowId) (.start pipeline bank)
      (events ++ [.round ageing])) :
    let slot := registerSlot (config.ucastEgressPort port) flowId
    let traffic := ExportTrace.trafficOf (registerSlot port flowId) events
    let exported := (ExportTrace.start pipeline bank).run config onEgress
      (events ++ [.round ageing])
    countedAt feature slot (exported.trace.pipeline.queue ++ exported.trace.dropped) = 0 →
      InOrder none traffic → Measurable none traffic → feature.SizesFit traffic →
      |(exported.value feature slot : ℝ) - logSum feature.power (feature.observed none traffic)| ≤
        (feature.observed none traffic).length * feature.error error := by
  intro slot traffic exported settled order measurable fit
  have total := fresh.value_add aligned port_mem (mem_featureSlots.mpr ⟨low, high⟩) session
  have value : exported.value feature slot =
      (logTables roundedLogMean).sums 0 traffic feature := by
    rw [← installed]
    refine Eq.trans ?_ total
    exact (congrArg (exported.value feature slot + ·) settled).symm
  rw [value]
  have close := sums_close rounds small order measurable fit
  exact close

/-- The gap of two nanoseconds has the logarithm `1`. -/
theorem exported_value_approximates_logs_overtaking :
    |((overtakingEnd (logTables nearestLogMean)).value .iatLog 21 : ℝ) - logSum 1 [2]| ≤
      1 * logError 32 8 1 0 := by
  -- The tables stay a name, so that nothing evaluates them.
  obtain ⟨tables, installed⟩ : ∃ tables, tables = logTables nearestLogMean := ⟨_, rfl⟩
  obtain ⟨low, high⟩ := onePath_slot_bounds tables
  have installed' : (onePath tables).tables = logTables nearestLogMean := installed
  have close := exported_value_approximates_logs nearestLogMean_rounds (by norm_num)
    installed' (onePath_aligned tables lowPort)
    (Set.mem_singleton _) low high (quietPipeline_fresh tables .iatLog)
    (overtaking_session tables .iatLog)
  dsimp only at close
  rw [trafficOf_overtaking, onePath_slot] at close
  have bound := close (overtaking_settled tables .iatLog 21) ⟨by decide, True.intro⟩
    ⟨by decide, True.intro⟩ (fun square => by cases square)
  rw [← installed]
  simpa [Feature.observed, gaps, Feature.power, Feature.error] using bound

end Marina
