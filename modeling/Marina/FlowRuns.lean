import Marina.FlowDbLedger
import Marina.Lib.Run

/-!
# Runs of the flow database

`flowdb_thread` fills the pools and then runs commands forever. This module gives its
start and its runs, and the first property of all runs: whatever the commands, the
answers of the data plane ring and the contents of uninitialised memory, no id is lost,
handed out twice, or both free and in use, until a removal overflows a pool.
-/

namespace Marina

open Lib (Exec)

/-! ## The start -/

/-- The ids of a pipe. -/
noncomputable def Ledger.residents (pipe : Int) : Finset Int :=
  Ledger.ids.filter fun id => flowIdToPipe id = pipe

/-- Nothing is live, and every pipe has all its ids. -/
noncomputable def Ledger.initial : Ledger where
  flows := 0
  sessions := 0
  flowPool pipe := (Ledger.residents pipe).val
  sessionPool pipe := (Ledger.residents pipe).val
  flowCount _ := 0

theorem Ledger.mem_residents {pipe id : Int} :
    id ∈ residents pipe ↔ id ∈ ids ∧ flowIdToPipe id = pipe := by
  unfold residents
  rw [Finset.mem_filter]

/-- The loop of `flowdb_thread` writes exactly the ids of the pipe. -/
theorem items_fill (heap : HeapQueue) {pipe : Nat} (inside : pipe < numPipes) :
    Lib.HeapOrder.items heapSize (heap.fill pipe).data = (Ledger.residents pipe).val := by
  unfold numPipes at inside
  have written : ∀ i < heapSize, (heap.fill pipe).data i = ((i : Int) + 1) * 4 + pipe :=
    fun i small => if_pos small
  rw [Lib.HeapOrder.items_congr written]
  apply Multiset.Nodup.ext _ (Finset.nodup _) |>.mpr
  · intro id
    rw [Lib.HeapOrder.mem_items, Finset.mem_val, Ledger.mem_residents]
    unfold Ledger.ids flowIdToPipe minSessionId featureSize heapSize maxFlows numPipes
    rw [Finset.mem_Ico]
    constructor
    · intro found
      obtain ⟨i, small, rfl⟩ := found
      omega
    · intro facts
      refine ⟨(id / 4 - 1).toNat, by omega, by omega⟩
  · unfold Lib.HeapOrder.items
    refine Multiset.Nodup.map_on ?_ (Multiset.nodup_range _)
    intro i _ j _ same
    omega

theorem Ledger.card_residents {pipe : Int} (inside : pipe ∈ pipes) :
    (residents pipe).card = heapSize := by
  unfold pipes at inside
  rw [Finset.mem_Ico] at inside
  obtain ⟨p, rfl⟩ := Int.eq_ofNat_of_zero_le inside.1
  rw [← Finset.card_val]
  exact (congrArg Multiset.card (items_fill ⟨0, fun _ => 0⟩ (by omega))).symm.trans
    Lib.HeapOrder.card_items

theorem Ledger.residents_eq_empty {pipe : Int} (outside : pipe ∉ pipes) : residents pipe = ∅ := by
  unfold residents
  rw [Finset.filter_eq_empty_iff]
  intro id _ home
  apply outside
  unfold flowIdToPipe at home
  unfold pipes numPipes
  rw [Finset.mem_Ico]
  omega

/-- The pools of the start hold every id once. -/
theorem Ledger.sum_residents : ∑ pipe ∈ pipes, (residents pipe).val = ids.val := by
  ext id
  rw [Multiset.count_sum']
  have counts : ∀ pipe, Multiset.count id (residents pipe).val =
      if flowIdToPipe id = pipe then Multiset.count id ids.val else 0 := by
    intro pipe
    unfold residents
    rw [Finset.filter_val]
    split
    · rename_i home
      exact Multiset.count_filter_of_pos home
    · rename_i away
      exact Multiset.count_filter_of_neg away
  rw [Finset.sum_congr rfl fun pipe _ => counts pipe, Finset.sum_ite_eq, if_pos]
  unfold pipes flowIdToPipe numPipes
  rw [Finset.mem_Ico]
  omega

theorem Ledger.initial_sound : Ledger.initial.Sound where
  flowIds := by
    unfold Lib.IdPool.total Ledger.initial
    rw [Multiset.map_zero, add_zero]
    exact sum_residents
  sessionIds := by
    unfold Lib.IdPool.total Ledger.initial
    rw [Multiset.map_zero, add_zero]
    exact sum_residents
  ports b member := absurd member (Multiset.notMem_zero b)

/-- The state after `n` rounds of the loop that fills the pools. -/
structure Filled (n : Nat) (db : FlowDb) : Prop where
  flowHeap : ∀ pipe, (db.flowIdHeap pipe).Valid
  sessionHeap : ∀ pipe, (db.sessionIdHeap pipe).Valid
  flowDone : ∀ pipe : Nat, pipe < n → (db.flowIdHeap pipe).ids = (Ledger.residents pipe).val
  sessionDone : ∀ pipe : Nat, pipe < n → (db.sessionIdHeap pipe).ids = (Ledger.residents pipe).val
  flowRest : ∀ pipe : Int, pipe < 0 ∨ n ≤ pipe → (db.flowIdHeap pipe).ids = 0
  sessionRest : ∀ pipe : Int, pipe < 0 ∨ n ≤ pipe → (db.sessionIdHeap pipe).ids = 0
  tables : db.flowHashtable = flowHashtableInit ∧ db.sessionHashtable = sessionHashtableInit

theorem FlowDb.zero_filled : Filled 0 FlowDb.zero := by
  have empty : (⟨0, fun _ => 0⟩ : HeapQueue).Valid :=
    ⟨Nat.zero_le _, fun j _ inside => absurd inside (Nat.not_lt_zero j)⟩
  exact ⟨fun _ => empty, fun _ => empty, fun _ none => absurd none (Nat.not_lt_zero _),
    fun _ none => absurd none (Nat.not_lt_zero _), fun _ _ => rfl, fun _ _ => rfl, rfl, rfl⟩

/-- Replacing the heap of one pipe in a family that is done up to it. -/
theorem done_update {heaps : Int → HeapQueue} {heap : HeapQueue} {n : Nat}
    (done : ∀ pipe : Nat, pipe < n → (heaps pipe).ids = (Ledger.residents pipe).val)
    (new : heap.ids = (Ledger.residents n).val) (pipe : Nat) (small : pipe < n + 1) :
    (Function.update heaps n heap pipe).ids = (Ledger.residents pipe).val := by
  rcases Nat.lt_succ_iff_lt_or_eq.mp small with before | rfl
  · rw [Function.update_of_ne (by omega)]
    exact done pipe before
  · rw [Function.update_self]
    exact new

theorem rest_update {heaps : Int → HeapQueue} {heap : HeapQueue} {n : Nat}
    (rest : ∀ pipe : Int, pipe < 0 ∨ n ≤ pipe → (heaps pipe).ids = 0) (pipe : Int)
    (outside : pipe < 0 ∨ ((n + 1 : Nat) : Int) ≤ pipe) :
    (Function.update heaps n heap pipe).ids = 0 := by
  rw [Function.update_of_ne (by omega)]
  exact rest pipe (by omega)

theorem flowdbInitPipe_returns {db : FlowDb} {n : Nat} (inside : n < numPipes)
    (filled : Filled n db) : Exec.Returns (flowdbInitPipe db n) (Filled (n + 1)) := by
  unfold flowdbInitPipe
  apply (heapBuild_returns le_rfl).bind
  intro flowHeap flowFacts
  apply (heapBuild_returns le_rfl).bind
  intro sessionHeap sessionFacts
  rw [items_fill _ inside] at flowFacts sessionFacts
  exact .pure ⟨valid_update filled.flowHeap flowFacts.1,
    valid_update filled.sessionHeap sessionFacts.1, done_update filled.flowDone flowFacts.2,
    done_update filled.sessionDone sessionFacts.2, rest_update filled.flowRest,
    rest_update filled.sessionRest, filled.tables⟩

theorem flowdbInit_filled (n : Nat) (inside : n ≤ numPipes) :
    Exec.Returns ((List.range n).foldlM flowdbInitPipe FlowDb.zero) (Filled n) := by
  induction n with
  | zero => exact .pure FlowDb.zero_filled
  | succ n ih =>
      rw [List.range_succ, List.foldlM_append]
      apply (ih (by omega)).bind
      intro db filled
      rw [List.foldlM_cons]
      apply (flowdbInitPipe_returns inside filled).bind
      intro db' filled'
      exact .pure filled'

/-- `flowdb_thread` starts its command loop with full pools and empty tables. -/
theorem flowdbInit_returns (env : Env) :
    Exec.Returns flowdbInit fun db =>
      db.Valid env ∧ db.ledger = Ledger.initial ∧ db.sessionHashtable = sessionHashtableInit := by
  apply (flowdbInit_filled numPipes le_rfl).mono
  intro db filled
  have pools : ∀ {heaps : Int → HeapQueue},
      (∀ pipe : Nat, pipe < numPipes → (heaps pipe).ids = (Ledger.residents pipe).val) →
      (∀ pipe : Int, pipe < 0 ∨ (numPipes : Int) ≤ pipe → (heaps pipe).ids = 0) →
      (fun pipe => (heaps pipe).ids) = fun pipe => (Ledger.residents pipe).val := by
    intro heaps done rest
    funext pipe
    by_cases inside : pipe ∈ Ledger.pipes
    · rw [Ledger.pipes, Finset.mem_Ico] at inside
      obtain ⟨p, rfl⟩ := Int.eq_ofNat_of_zero_le inside.1
      exact done p (by omega)
    · rw [Ledger.residents_eq_empty inside, Finset.empty_val]
      rw [Ledger.pipes, Finset.mem_Ico] at inside
      exact rest pipe (by omega)
  have start : db.ledger = Ledger.initial := by
    unfold FlowDb.ledger Ledger.initial
    rw [pools filled.flowDone filled.flowRest, pools filled.sessionDone filled.sessionRest,
      filled.tables.1, filled.tables.2, flowHashtableInit_bindings, sessionHashtableInit_bindings]
    rfl
  refine ⟨⟨filled.flowHeap, filled.sessionHeap, ?_, ?_, ?_⟩, start, filled.tables.2⟩
  · rw [filled.tables.1]
    exact flowHashtableInit_valid env
  · rw [filled.tables.2]
    exact sessionHashtableInit_valid env
  · rw [start]
    exact Ledger.initial_sound

/-! ## Runs -/

/-- One command of the loop of `flowdb_thread`. -/
def flowdbStep (env : Env) (db : FlowDb) (input : FlowInput) : Outcome FlowDb := do
  let (db, _) ← flowdbCommand env db input
  pure db

theorem flowdbStep_returns {env : Env} {db : FlowDb} (valid : db.Valid env) (input : FlowInput) :
    Exec.ReturnsUnless .heapOverflow (db.ledger.Overflows env input) (flowdbStep env db input)
      fun db' => db'.Valid env ∧ db.EgressKept db' ∧
        ∃ puts, Ledger.Step env input db.ledger db'.ledger puts := by
  unfold flowdbStep
  apply (flowdbCommand_returns valid input).bind id
  intro result facts
  obtain ⟨after, kept, step⟩ := facts
  exact Exec.Returns.unless (.pure ⟨after, kept, result.2, step⟩)

/-- A run of commands that all return ends in a valid state. -/
theorem flowdbRun_valid {env : Env} (inputs : List FlowInput) :
    ∀ {db db' : FlowDb}, db.Valid env → inputs.foldlM (flowdbStep env) db = pure db' →
      db'.Valid env := by
  induction inputs with
  | nil =>
      intro db db' valid run
      rw [List.foldlM_nil, Exec.pure_inj] at run
      exact run ▸ valid
  | cons input rest ih =>
      intro db db' valid run
      rw [List.foldlM_cons, Exec.bind_eq_pure] at run
      obtain ⟨middle, next, later⟩ := run
      exact ih ((flowdbStep_returns valid input).of_pure next).1 later

/-! ## The next flow of a pipe -/

/-- The ids of a pipe without the lowest `n`. -/
noncomputable def Ledger.residentsFrom (pipe : Int) (n : Nat) : Finset Int :=
  (residents pipe).filter fun id => 4 * (n + 1) + pipe ≤ id

section NextFlow

variable {env : Env} {packet : FiveTuple} {ledger ledger' : Ledger} {n m : Nat}
  {put : Option DataplaneCommand} {puts : List DataplaneCommand} {input : FlowInput}

theorem Ledger.mem_residentsFrom {pipe id : Int} :
    id ∈ residentsFrom pipe n ↔
      4 * (n + 1) + pipe ≤ id ∧ id < featureSize ∧ flowIdToPipe id = pipe ∧ 4 ≤ id := by
  unfold residentsFrom
  rw [Finset.mem_filter, mem_residents]
  unfold ids minSessionId
  rw [Finset.mem_Ico]
  exact ⟨fun facts => ⟨facts.2, facts.1.1.2, facts.1.2, facts.1.1.1⟩,
    fun facts => ⟨⟨⟨facts.2.2.2, facts.2.1⟩, facts.2.2.1⟩, facts.1⟩⟩

theorem Ledger.residentsFrom_zero {pipe : Int} (inside : pipe ∈ pipes) :
    residentsFrom pipe 0 = residents pipe := by
  unfold residentsFrom
  rw [Finset.filter_true_of_mem]
  intro id member
  rw [mem_residents] at member
  unfold ids minSessionId flowIdToPipe at member
  unfold pipes numPipes at inside
  rw [Finset.mem_Ico] at member inside
  omega

/-- Ids are handed out in order. -/
theorem Ledger.takes_residentsFrom {pipe id : Int} {rest : Multiset Int} (inside : pipe ∈ pipes)
    (left : n + 1 < maxFlows) (takes : Takes (residentsFrom pipe n).val id rest) :
    id = 4 * (n + 1) + pipe ∧ rest = (residentsFrom pipe (n + 1)).val := by
  have range := inside
  unfold pipes numPipes at range
  rw [Finset.mem_Ico] at range
  have first : 4 * (n + 1) + pipe ∈ residentsFrom pipe n := by
    rw [mem_residentsFrom]
    unfold flowIdToPipe featureSize numPipes
    omega
  have here : id ∈ residentsFrom pipe n := by
    rw [← Finset.mem_val, takes.eq]
    exact Multiset.mem_cons_self _ _
  have least : id ≤ 4 * (n + 1) + pipe := by
    rw [← Finset.mem_val, takes.eq, Multiset.mem_cons] at first
    rcases first with same | later
    · exact same.ge
    · exact takes.least _ later
  have lowest : id = 4 * (n + 1) + pipe :=
    le_antisymm least (mem_residentsFrom.mp here).1
  refine ⟨lowest, ?_⟩
  have nodup := (residentsFrom pipe n).nodup
  rw [takes.eq, Multiset.nodup_cons] at nodup
  refine (Multiset.Nodup.ext nodup.2 (Finset.nodup _)).mpr fun x => ?_
  have before : x ∈ residentsFrom pipe n ↔ x = id ∨ x ∈ rest := by
    rw [← Finset.mem_val, takes.eq, Multiset.mem_cons]
  rw [Finset.mem_val, mem_residentsFrom]
  rw [mem_residentsFrom] at before
  unfold flowIdToPipe at before ⊢
  constructor
  · intro member
    have facts := before.mpr (Or.inr member)
    have other : x ≠ id := fun same => nodup.1 (same ▸ member)
    push_cast
    omega
  · intro facts
    push_cast at facts
    refine (before.mp ⟨by omega, facts.2⟩).resolve_left ?_
    omega

theorem Ledger.residentsFrom_ne_zero {pipe : Int} (inside : pipe ∈ pipes)
    (left : n + 1 < maxFlows) : (residentsFrom pipe n).val ≠ 0 := by
  intro empty
  have first : 4 * (n + 1) + pipe ∈ residentsFrom pipe n := by
    unfold pipes numPipes at inside
    rw [Finset.mem_Ico] at inside
    rw [mem_residentsFrom]
    unfold flowIdToPipe featureSize numPipes
    omega
  rw [← Finset.mem_val, empty] at first
  exact Multiset.notMem_zero _ first

theorem Ledger.card_residentsFrom_lt {pipe : Int} (inside : pipe ∈ pipes) :
    (residentsFrom pipe (n + 1)).card < heapSize := by
  rw [← card_residents inside, ← residentsFrom_zero inside]
  refine Finset.card_lt_card ⟨?_, ?_⟩
  · intro id member
    rw [mem_residentsFrom] at member ⊢
    push_cast at member ⊢
    omega
  · intro all
    have first : 4 + pipe ∈ residentsFrom pipe 0 := by
      unfold pipes numPipes at inside
      rw [Finset.mem_Ico] at inside
      rw [mem_residentsFrom]
      unfold flowIdToPipe featureSize numPipes maxFlows
      push_cast
      omega
    have later := mem_residentsFrom.mp (all first)
    push_cast at later
    omega

/-- An accepted new flow of a pipe with free flow ids. -/
theorem Ledger.AddFlow.placed_of_new (mapped : env.Mapped packet)
    (filled : ledger.flowPool packet.pipe ≠ 0)
    (absent : ∀ b ∈ ledger.flows, b.1.h ≠ packet.h)
    (served : ledger.sessionPool packet.pipe ≠ 0)
    (adds : AddFlow env packet true ledger ledger' put) :
    ∃ flowId sessionId rest middle, NewFlow env packet flowId rest ledger ∧
      TakeSession env (env.record packet) sessionId ledger middle ∧
      ledger' = middle.placeFlow (env.record packet) flowId rest ∧
      put = some (.addFlow (env.record packet) flowId sessionId) := by
  cases adds with
  | unmapped unmapped => exact absurd mapped unmapped
  | noFlowId _ empty => exact absurd empty filled
  | known _ _ member same => exact absurd same (absent _ member)
  | noSessionId _ _ empty => exact absurd empty served
  | refused _ full _ => cases full
  | placed new _ session => exact ⟨_, _, _, _, new, session, rfl, rfl⟩

/-- The next flow of a pipe, when it creates the next session of the pipe. -/
theorem Ledger.AddFlow.creates (mapped : env.Mapped packet)
    (port : packet.devPort.toNat < maxDevPortId) (flowsLeft : n + 1 < maxFlows)
    (sessionsLeft : m + 1 < maxFlows)
    (flowPool : ledger.flowPool packet.pipe = (residentsFrom packet.pipe n).val)
    (sessionPool : ledger.sessionPool packet.pipe = (residentsFrom packet.pipe m).val)
    (absent : ∀ b ∈ ledger.flows, b.1.h ≠ packet.h)
    (alone : ∀ b ∈ ledger.sessions, sessionKey env b.1 ≠ sessionKey env packet)
    (adds : AddFlow env packet true ledger ledger' put) :
    put = some (.addFlow (env.record packet) (4 * (n + 1) + packet.pipe)
      (4 * (m + 1) + packet.pipe)) ∧
    ∃ flowCount, (egressSlot (env.record packet) (4 * (m + 1) + packet.pipe) < featureSize →
        flowCount = ledger.flowCount) ∧
      ledger' =
        { flows := (env.record packet, 4 * (n + 1) + packet.pipe) ::ₘ ledger.flows
          sessions := (env.record packet, 4 * (m + 1) + packet.pipe) ::ₘ ledger.sessions
          flowPool := Function.update ledger.flowPool packet.pipe
            (residentsFrom packet.pipe (n + 1)).val
          sessionPool := Function.update ledger.sessionPool packet.pipe
            (residentsFrom packet.pipe (m + 1)).val
          flowCount := flowCount } := by
  have inside := pipe_mem port
  obtain ⟨flowId, sessionId, rest, middle, new, session, rfl, rfl⟩ := adds.placed_of_new mapped
    (by rw [flowPool]; exact residentsFrom_ne_zero inside flowsLeft) absent
    (by rw [sessionPool]; exact residentsFrom_ne_zero inside sessionsLeft)
  obtain ⟨rfl, rfl⟩ := takes_residentsFrom inside flowsLeft (flowPool ▸ new.takes)
  cases session with
  | join member known => exact absurd known (alone _ member)
  | create _ takes count =>
      obtain ⟨rfl, rfl⟩ := takes_residentsFrom inside sessionsLeft (sessionPool ▸ takes)
      exact ⟨rfl, _, count, rfl⟩

/-- The next flow of a pipe, when it joins a live session. -/
theorem Ledger.AddFlow.joins (mapped : env.Mapped packet)
    (port : packet.devPort.toNat < maxDevPortId) (flowsLeft : n + 1 < maxFlows)
    (flowPool : ledger.flowPool packet.pipe = (residentsFrom packet.pipe n).val)
    (served : ledger.sessionPool packet.pipe ≠ 0)
    (absent : ∀ b ∈ ledger.flows, b.1.h ≠ packet.h) (keyed : ledger.Keyed env)
    {b : FiveTuple × Int} (member : b ∈ ledger.sessions)
    (known : sessionKey env b.1 = sessionKey env packet)
    (adds : AddFlow env packet true ledger ledger' put) :
    put = some (.addFlow (env.record packet) (4 * (n + 1) + packet.pipe) b.2) ∧
    ∃ flowCount, ledger' =
      { ledger with
        flows := (env.record packet, 4 * (n + 1) + packet.pipe) ::ₘ ledger.flows
        flowPool := Function.update ledger.flowPool packet.pipe
          (residentsFrom packet.pipe (n + 1)).val
        flowCount := flowCount } := by
  have inside := pipe_mem port
  obtain ⟨flowId, sessionId, rest, middle, new, session, rfl, rfl⟩ := adds.placed_of_new mapped
    (by rw [flowPool]; exact residentsFrom_ne_zero inside flowsLeft) absent served
  obtain ⟨rfl, rfl⟩ := takes_residentsFrom inside flowsLeft (flowPool ▸ new.takes)
  cases session with
  | join member' known' =>
      obtain rfl := keyed.sessions _ member _ member' (known.trans known'.symm)
      exact ⟨rfl, _, rfl⟩
  | create absent' _ _ => exact absurd known (absent' _ member)

theorem Ledger.initial_pool (port : packet.devPort.toNat < maxDevPortId) :
    initial.flowPool packet.pipe = (residentsFrom packet.pipe 0).val ∧
      initial.sessionPool packet.pipe = (residentsFrom packet.pipe 0).val := by
  rw [residentsFrom_zero (pipe_mem port)]
  exact ⟨rfl, rfl⟩

/-- What was taken on another pipe is no matter. -/
theorem Ledger.pool_elsewhere {pipe : Int} (port : packet.devPort.toNat < maxDevPortId)
    (apart : packet.pipe ≠ pipe) (rest : Multiset Int) :
    Function.update initial.flowPool pipe rest packet.pipe = (residentsFrom packet.pipe 0).val ∧
      Function.update initial.sessionPool pipe rest packet.pipe =
        (residentsFrom packet.pipe 0).val := by
  rw [Function.update_of_ne apart, Function.update_of_ne apart]
  exact initial_pool port

theorem zero_sessionId_valid : (0 : Int) ≤ 0 ∧ (0 : Int) < featureSize := by decide

/-- An accepted command that adds a flow. -/
def FlowInput.add (packet : FiveTuple) (port : packet.devPort.toNat < maxDevPortId) : FlowInput :=
  ⟨.addFlow packet, true, "", 0, port, zero_sessionId_valid⟩

/-- The first flow of a forwarded port gets the lowest flow id and the lowest session id
of its pipe, and joins nobody. -/
theorem Ledger.AddFlow.of_initial (mapped : env.Mapped packet)
    (port : packet.devPort.toNat < maxDevPortId)
    (adds : AddFlow env packet true Ledger.initial ledger' put) :
    put = some (.addFlow (env.record packet) (4 + packet.pipe) (4 + packet.pipe)) ∧
    ∃ flowCount, (egressSlot (env.record packet) (4 + packet.pipe) < featureSize →
        flowCount = 0) ∧
      ledger' =
        { flows := {(env.record packet, 4 + packet.pipe)}
          sessions := {(env.record packet, 4 + packet.pipe)}
          flowPool := Function.update initial.flowPool packet.pipe
            (residentsFrom packet.pipe 1).val
          sessionPool := Function.update initial.sessionPool packet.pipe
            (residentsFrom packet.pipe 1).val
          flowCount := flowCount } := by
  obtain ⟨flowPool, sessionPool⟩ := initial_pool port
  exact adds.creates mapped port (by decide) (by decide) flowPool sessionPool
    (fun _ member => absurd member (Multiset.notMem_zero _))
    (fun _ member => absurd member (Multiset.notMem_zero _))

/-- What the first flow of a port leaves: itself, its session, and the other ids. -/
theorem Ledger.AddFlow.placed_of_initial (mapped : env.Mapped packet)
    (port : packet.devPort.toNat < maxDevPortId)
    (adds : AddFlow env packet true Ledger.initial ledger' put) :
    ledger'.flows = {(env.record packet, 4 + packet.pipe)} ∧
      ledger'.sessions = {(env.record packet, 4 + packet.pipe)} ∧
      ledger'.flowPool packet.pipe = (residentsFrom packet.pipe 1).val ∧
      ledger'.sessionPool packet.pipe = (residentsFrom packet.pipe 1).val := by
  obtain ⟨_, _, _, ledger⟩ := adds.of_initial mapped port
  rw [ledger]
  exact ⟨rfl, rfl, Function.update_self _ _ _, Function.update_self _ _ _⟩

/-- A command that adds a flow does so by `add_flow`. -/
theorem Ledger.Step.adds (step : Step env input ledger ledger' puts)
    (command : input.command = .addFlow packet) :
    ∃ put, puts = put.toList ∧ AddFlow env packet input.accepted ledger ledger' put := by
  cases step with
  | @add packet' _ put command' adds =>
      rw [command] at command'
      cases command'
      exact ⟨put, rfl, adds⟩
  | missed others _ => exact absurd command (others packet)
  | remove removes _ _ =>
      rw [command] at removes
      cases removes

end NextFlow

/-! ## Conservation -/

/-- Every id is exactly once in the disjoint union of the free ids and the ids of the
table, and neither table is full. -/
structure FlowDb.IdsConserved (db : FlowDb) : Prop where
  flowIds : ∑ pipe ∈ Ledger.pipes, (db.flowIdHeap pipe).ids +
    db.flowHashtable.bindings.map Prod.snd = Ledger.ids.val
  sessionIds : ∑ pipe ∈ Ledger.pipes, (db.sessionIdHeap pipe).ids +
    db.sessionHashtable.bindings.map Prod.snd = Ledger.ids.val
  flowsLive : db.flowHashtable.numEntries = db.flowHashtable.bindings.card ∧
    db.flowHashtable.numEntries ≤ numPipes * heapSize ∧
    db.flowHashtable.numEntries < flowHashtableSize
  sessionsLive : db.sessionHashtable.numEntries = db.sessionHashtable.bindings.card ∧
    db.sessionHashtable.numEntries ≤ numPipes * heapSize ∧
    db.sessionHashtable.numEntries < sessionHashtableSize

theorem FlowDb.Valid.idsConserved {env : Env} {db : FlowDb} (valid : db.Valid env) :
    db.IdsConserved where
  flowIds := valid.sound.flowIds
  sessionIds := valid.sound.sessionIds
  flowsLive := by
    rw [valid.flowTable.count]
    exact ⟨rfl, valid.sound.card_flows_le, valid.sound.flow_room⟩
  sessionsLive := by
    rw [valid.sessionTable.count]
    exact ⟨rfl, valid.sound.card_sessions_le, valid.sound.session_room⟩

/-- Over every run of commands, every command returns with all ids accounted for, up to
the first push onto a full pool. -/
theorem flowdb_conserves_ids (env : Env) (inputs : List FlowInput) :
    Exec.Returns flowdbInit fun db =>
      Lib.StatesUntil .heapOverflow (flowdbStep env) FlowDb.IdsConserved db inputs := by
  apply (flowdbInit_returns env).mono
  intro db start
  refine Lib.StatesUntil.of_invariant ?_ (fun _ => FlowDb.Valid.idsConserved) start.1 .always
  intro db input valid _
  exact (flowdbStep_returns valid input).orFault.mono fun _ facts => facts.1

end Marina
