import Marina.FlowRuns

/-!
# Ids reside on the pipe they were taken from

An id tells the pipe it belongs to by its remainder modulo four, and the pool of a pipe
should hold only its own ids. Ids are taken from the pool of the adding packet's pipe,
but given back to the pool of whatever five-tuple the removal goes by, and neither hash
table has the port in its key. `Ledger.ReleasesHome` is the condition under which one
removal keeps the pools apart; it is exact.
-/

namespace Marina

open Lib (Exec)

/-- The pools hold only ids of their own pipe, and a live flow has an id of the pipe it
comes in on. -/
structure Ledger.Resident (ledger : Ledger) : Prop where
  flowPool : ∀ pipe, ∀ id ∈ ledger.flowPool pipe, flowIdToPipe id = pipe
  sessionPool : ∀ pipe, ∀ id ∈ ledger.sessionPool pipe, flowIdToPipe id = pipe
  flows : ∀ b ∈ ledger.flows, flowIdToPipe b.2 = b.1.pipe

/-- The flow id and the session id that a command gives back belong to the pipe of the
five-tuple it goes by. -/
def Ledger.ReleasesHome (env : Env) (ledger : Ledger) (input : FlowInput) : Prop :=
  ∀ flow b, ledger.Removes input.command flow b →
    flowIdToPipe b.2 = flow.pipe ∧
      ∀ session, ledger.Drops env flow input.sessionId session →
        flowIdToPipe session.2 = flow.pipe

namespace Ledger

section Transitions

variable {env : Env} {input : FlowInput} {packet flow : FiveTuple} {accepted : Bool}
  {pipe value id : Int} {ledger ledger' : Ledger} {b : FiveTuple × Int}
  {put : Option DataplaneCommand} {puts : List DataplaneCommand}

/-- What remains of a pool after an id was taken was there before. -/
theorem mem_of_mem_rest {pool : Int → Multiset Int} {rest : Multiset Int} {taken at_ : Int}
    (takes : Takes (pool pipe) taken rest) (member : id ∈ Function.update pool pipe rest at_) :
    id ∈ pool at_ := by
  by_cases same : at_ = pipe
  · subst same
    rw [Function.update_self] at member
    rw [takes.eq]
    exact Multiset.mem_cons_of_mem member
  · rw [Function.update_of_ne same] at member
    exact member

/-- What is in a pool after an id was given back was there before, or is that id. -/
theorem mem_of_mem_given {pool : Int → Multiset Int} {given at_ : Int}
    (member : id ∈ Function.update pool pipe (given ::ₘ pool pipe) at_) :
    id ∈ pool at_ ∨ id = given ∧ at_ = pipe := by
  by_cases same : at_ = pipe
  · subst same
    rw [Function.update_self, Multiset.mem_cons] at member
    exact member.symm.imp_right fun isGiven => ⟨isGiven, rfl⟩
  · rw [Function.update_of_ne same] at member
    exact Or.inl member

theorem initial_resident : initial.Resident where
  flowPool _ _ member := (mem_residents.mp member).2
  sessionPool _ _ member := (mem_residents.mp member).2
  flows b member := absurd member (Multiset.notMem_zero b)

theorem TakeSession.resident {sessionId : Int}
    (session : TakeSession env flow sessionId ledger ledger') (resident : ledger.Resident) :
    ledger'.Resident := by
  cases session with
  | join member known => exact ⟨resident.flowPool, resident.sessionPool, resident.flows⟩
  | create absent takes count =>
      refine ⟨resident.flowPool, ?_, resident.flows⟩
      intro at_ id member
      exact resident.sessionPool at_ id (mem_of_mem_rest takes member)

theorem Resident.placeFlow {flowId : Int} {rest : Multiset Int} (resident : ledger.Resident)
    (takes : Takes (ledger.flowPool flow.pipe) flowId rest) :
    (ledger.placeFlow flow flowId rest).Resident := by
  refine ⟨?_, resident.sessionPool, ?_⟩
  · intro at_ id member
    exact resident.flowPool at_ id (mem_of_mem_rest takes member)
  · intro b member
    rcases Multiset.mem_cons.mp member with rfl | member
    · exact resident.flowPool _ _ takes.mem
    · exact resident.flows b member

theorem AddFlow.resident (step : AddFlow env packet accepted ledger ledger' put)
    (resident : ledger.Resident) : ledger'.Resident := by
  cases step with
  | unmapped _ => exact resident
  | noFlowId _ _ => exact resident
  | known _ _ _ _ => exact resident
  | noSessionId new _ _ => exact resident.placeFlow new.takes
  | placed new _ session =>
      apply (session.resident resident).placeFlow
      rw [session.flowPool_eq]
      exact new.takes
  | refused _ _ session => exact session.resident resident

theorem ReleaseFlow.resident (step : ReleaseFlow pipe b ledger ledger')
    (resident : ledger.Resident) (home : flowIdToPipe b.2 = pipe) : ledger'.Resident := by
  cases step with
  | intro held =>
      refine ⟨?_, resident.sessionPool, fun b member => resident.flows b ?_⟩
      · intro at_ id member
        rcases mem_of_mem_given member with before | ⟨rfl, rfl⟩
        · exact resident.flowPool at_ id before
        · exact home
      · rw [held]
        exact Multiset.mem_cons_of_mem member

theorem Cleanup.resident (step : Cleanup env flow value ledger ledger' put)
    (resident : ledger.Resident)
    (home : ∀ session, ledger.Drops env flow value session →
      flowIdToPipe session.2 = flow.pipe) : ledger'.Resident := by
  cases step with
  | kept _ => exact ⟨resident.flowPool, resident.sessionPool, resident.flows⟩
  | dropped drops held =>
      refine ⟨resident.flowPool, ?_, resident.flows⟩
      intro at_ id member
      rcases mem_of_mem_given member with before | ⟨rfl, rfl⟩
      · exact resident.sessionPool at_ id before
      · exact home _ drops

theorem Step.resident (step : Step env input ledger ledger' puts) (resident : ledger.Resident)
    (home : ledger.ReleasesHome env input) : ledger'.Resident := by
  cases step with
  | add _ adds => exact adds.resident resident
  | missed _ _ => exact resident
  | remove removes release cleanup =>
      obtain ⟨flowHome, sessionHome⟩ := home _ _ removes
      refine cleanup.resident (release.resident resident flowHome) ?_
      intro session drops
      exact sessionHome session (release.drops_iff.mp drops)

/-- A pool of residents is not full while one of them is live. -/
theorem Resident.not_overflows (sound : ledger.Sound) (resident : ledger.Resident)
    (home : ledger.ReleasesHome env input) : ¬ ledger.Overflows env input := by
  intro overflows
  cases overflows with
  | @flow flow b removes full =>
      have inside := pipe_mem (removes.port sound input.command_valid)
      apply absurd full
      rw [← card_residents inside]
      refine (Lib.IdPool.card_lt_of_resident (Lib.IdPool.pool_nodup sound.flow_nodup inside)
        ?_ (mem_residents.mpr ⟨sound.flow_id removes.member, (home _ _ removes).1⟩) ?_).ne
      · intro x free
        exact mem_residents.mpr ⟨sound.free_flow_id inside free, resident.flowPool _ x free⟩
      · intro free
        exact sound.flow_fresh inside free _ removes.member rfl
  | @session flow b session removes drops full =>
      have inside := pipe_mem (removes.port sound input.command_valid)
      apply absurd full
      rw [← card_residents inside]
      refine (Lib.IdPool.card_lt_of_resident (Lib.IdPool.pool_nodup sound.session_nodup inside)
        ?_ (mem_residents.mpr ⟨sound.session_id drops.member, (home _ _ removes).2 _ drops⟩) ?_).ne
      · intro x free
        exact mem_residents.mpr ⟨sound.free_session_id inside free, resident.sessionPool _ x free⟩
      · intro free
        exact sound.session_fresh inside free _ drops.member rfl

theorem ReleaseFlow.given (step : ReleaseFlow pipe b ledger ledger') :
    b.2 ∈ ledger'.flowPool pipe := by
  cases step with
  | intro held =>
      dsimp only
      rw [Function.update_self]
      exact Multiset.mem_cons_self _ _

theorem Cleanup.given {session : FiveTuple × Int} (keyed : ledger.Keyed env)
    (step : Cleanup env flow value ledger ledger' put)
    (drops : ledger.Drops env flow value session) : session.2 ∈ ledger'.sessionPool flow.pipe := by
  cases step with
  | kept stays => exact absurd drops (stays session)
  | dropped drops' held =>
      obtain rfl := drops.unique keyed drops'
      dsimp only
      rw [Function.update_self]
      exact Multiset.mem_cons_self _ _

/-- A removal that gives an id to a foreign pool shows in the state after it. -/
theorem Step.releasesHome (step : Step env input ledger ledger' puts) (keyed : ledger.Keyed env)
    (sound : ledger.Sound) (resident : ledger'.Resident) : ledger.ReleasesHome env input := by
  intro flow b removes
  cases step with
  | add command _ =>
      rw [command] at removes
      cases removes
  | missed _ unknown => exact absurd removes (unknown flow b)
  | remove removes' release cleanup =>
      obtain ⟨rfl, rfl⟩ := removes.unique keyed sound removes'
      refine ⟨resident.flowPool _ _ ?_, ?_⟩
      · rw [cleanup.flows_eq.2]
        exact release.given
      · intro session drops
        exact resident.sessionPool _ _
          (cleanup.given (release.keyed keyed) (release.drops_iff.mpr drops))

end Transitions

end Ledger

/-! ## Runs -/

/-- Pools and flows keep to their pipes, and no pool is larger than its array. -/
structure FlowDb.ResidentIds (db : FlowDb) : Prop where
  resident : db.ledger.Resident
  sizes : ∀ pipe, (db.flowIdHeap pipe).curSize ≤ heapSize ∧
    (db.sessionIdHeap pipe).curSize ≤ heapSize

theorem FlowDb.Valid.residentIds {env : Env} {db : FlowDb} (valid : db.Valid env)
    (resident : db.ledger.Resident) : db.ResidentIds :=
  ⟨resident, fun pipe => ⟨(valid.flowHeap pipe).fits, (valid.sessionHeap pipe).fits⟩⟩

/-- A removal that gives its ids back home returns to a valid state of residents. -/
theorem flowdbStep_resident {env : Env} {db : FlowDb} {input : FlowInput} (valid : db.Valid env)
    (resident : db.ledger.Resident) (home : db.ledger.ReleasesHome env input) :
    Exec.Returns (flowdbStep env db input) fun db' =>
      db'.Valid env ∧ db'.ledger.Resident ∧ db.EgressKept db' ∧
        ∃ puts, Ledger.Step env input db.ledger db'.ledger puts := by
  apply ((flowdbStep_returns valid input).returns
    (resident.not_overflows valid.sound home)).mono
  intro db' facts
  obtain ⟨after, kept, puts, step⟩ := facts
  exact ⟨after, step.resident resident home, kept, puts, step⟩

/-- A run overflows no pool and keeps every id on its pipe exactly when every removal
gives its ids to the pool they came from. -/
theorem flowdb_resident_iff_releasesHome (env : Env) (inputs : List FlowInput) :
    Exec.Returns flowdbInit fun db =>
      (Lib.AllStates (flowdbStep env) FlowDb.ResidentIds db inputs ↔
        Lib.AllSteps (flowdbStep env) (fun db input => db.ledger.ReleasesHome env input)
          db inputs) := by
  apply (flowdbInit_returns env).mono
  intro db start
  obtain ⟨valid, initial, _⟩ := start
  have resident : db.ledger.Resident := by
    rw [initial]
    exact Ledger.initial_resident
  refine Lib.allStates_iff_allSteps (I := fun db => db.Valid env ∧ db.ledger.Resident)
    ?_ ?_ ?_ ⟨valid, resident⟩
  · intro db input holds home
    exact (flowdbStep_resident holds.1 holds.2 home).mono fun db' facts => ⟨facts.1, facts.2.1⟩
  · intro db input holds away returned
    obtain ⟨db', next, after⟩ := returned
    obtain ⟨_, _, puts, step⟩ := (flowdbStep_returns holds.1 input).of_pure next
    exact away (step.releasesHome holds.1.keyed holds.1.sound after.resident)
  · intro db holds
    exact holds.1.residentIds holds.2

/-- A flow that came in on port 0 and is removed under port 128 leaves its id in the
pool of pipe 1. -/
theorem flowdb_not_resident_across_ports :
    ¬ Exec.Returns flowdbInit fun db =>
      Lib.AllStates (flowdbStep (.twoPorts false)) FlowDb.ResidentIds db
        [⟨.addFlow .zero, true, "", 0, by decide, by decide⟩,
          ⟨.removeFlow { FiveTuple.zero with devPort := 128 }, true, "", 0, by decide,
            by decide⟩] := by
  intro claimed
  obtain ⟨db, init, states⟩ := claimed
  obtain ⟨valid, initial, _⟩ := (flowdbInit_returns (.twoPorts false)).of_pure init
  obtain ⟨_, first, added, _, second, removed, last⟩ := states
  obtain ⟨firstValid, _, _, step⟩ := (flowdbStep_returns valid _).of_pure added
  obtain ⟨_, _, adds⟩ := step.adds rfl
  rw [initial] at adds
  obtain ⟨_, _, _, ledger⟩ := adds.of_initial (by decide) (by decide)
  obtain ⟨_, _, _, step⟩ := (flowdbStep_returns firstValid _).of_pure removed
  have home := step.releasesHome firstValid.keyed firstValid.sound last.resident
  have removes : first.ledger.Removes (.removeFlow { FiveTuple.zero with devPort := 128 })
      { FiveTuple.zero with devPort := 128 }
      ((Env.twoPorts false).record .zero, 4 + FiveTuple.zero.pipe) := by
    refine .byFiveTuple ?_ rfl
    rw [ledger]
    exact Multiset.mem_singleton_self _
  exact absurd (home _ _ removes).1 (by decide)

end Marina
