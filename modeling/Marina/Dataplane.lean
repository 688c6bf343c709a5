import Marina.Structs
import Marina.Lib.PendingQueue

/-!
# Classification entries of the switch

The commands of `controller/dataplane/dataplane.c` that concern the classification
tables, over the entries installed in the switch and the cache `entry_hdls` of their
handles. The driver is taken as in `controller/dataplane/dp_api.c`: an add succeeds and
returns a handle, and a delete removes the entry of the given handle from the table of
the five-tuple's protocol. `DP_CLEAR_REGISTERS` and the bloom filter commands write
registers, which are no part of this state.

`Installed` is the abstract switch: for every flow id, what the last `DP_ADD_FLOW` under
it put there. `Switch.Follows` says that every entry is accounted for by it, and
`Switch.Matches` that it is exact.
-/

namespace Marina

/-! ## The tables -/

/-- `match_spec`, with the addresses most significant byte last. -/
structure MatchSpec where
  srcAddr : List UInt8
  dstAddr : List UInt8
  l4LookupSrc : UInt16
  l4LookupDst : UInt16
  tcpValid : L4Proto
  deriving DecidableEq, Repr

/-- The four bytes of `ipv4` or the sixteen of `ipv6`, with their order swapped. -/
def Address.swapped (address : Address) : L3Proto → List UInt8
  | .ipv4 => (address.bytes.toList.take 4).reverse
  | .ipv6 => address.bytes.toList.reverse

def FiveTupleForHash.matchSpec (h : FiveTupleForHash) : MatchSpec where
  srcAddr := h.srcAddr.swapped h.l3Proto
  dstAddr := h.dstAddr.swapped h.l3Proto
  l4LookupSrc := h.srcPort
  l4LookupDst := h.dstPort
  tcpValid := h.l4Proto

/-- An entry of `classification_ipv4` or `classification_ipv6`. The switch does not hold
`flowId`; it names the command that installed the entry. -/
structure ClassificationEntry where
  table : L3Proto
  entryHdl : UInt32
  pipe : Int
  matchSpec : MatchSpec
  registerIndex : Int
  flowId : Int
  deriving DecidableEq, Repr

/-- The entry that `DP_ADD_FLOW` installs when the driver returns the given handle. -/
def classificationEntry (fiveTuple : FiveTuple) (flowId sessionId : Int) (entryHdl : UInt32) :
    ClassificationEntry where
  table := fiveTuple.h.l3Proto
  entryHdl := entryHdl
  pipe := fiveTuple.pipe
  matchSpec := fiveTuple.h.matchSpec
  registerIndex := flowIdToRegisterIndex sessionId
  flowId := flowId

/-- The installed entries, and the handles that the controller keeps. -/
structure Switch where
  entries : List ClassificationEntry
  entryHdls : Int → UInt32

/-- No entry is installed and the cache is cleared. -/
def Switch.empty : Switch := ⟨[], fun _ => 0⟩

def Switch.addClassificationEntry (switch : Switch) (fiveTuple : FiveTuple)
    (flowId sessionId : Int) (entryHdl : UInt32) : Switch where
  entries := classificationEntry fiveTuple flowId sessionId entryHdl :: switch.entries
  entryHdls := Function.update switch.entryHdls flowId entryHdl

def Switch.removeClassificationEntry (switch : Switch) (fiveTuple : FiveTuple)
    (entryHdl : UInt32) : Switch :=
  { switch with
    entries := switch.entries.filter fun entry =>
      ¬ (entry.table = fiveTuple.h.l3Proto ∧ entry.entryHdl = entryHdl) }

/-- The `switch` of `dataplane_thread`, where `entryHdl` is the handle that the driver
returns for an add. -/
def Switch.execute (switch : Switch) (entryHdl : UInt32) : DataplaneCommand → Switch
  | .addFlow fiveTuple flowId sessionId =>
      switch.addClassificationEntry fiveTuple flowId sessionId entryHdl
  | .removeFlow fiveTuple flowId =>
      switch.removeClassificationEntry fiveTuple (switch.entryHdls flowId)
  | .clearRegisters _ _ => switch
  | .addBloomFilter _ _ => switch
  | .removeBloomFilter _ _ => switch

/-- The handle that the driver returns is that of no installed entry of the table. -/
def Switch.FreshHdl (switch : Switch) (entryHdl : UInt32) : DataplaneCommand → Prop
  | .addFlow fiveTuple _ _ => ∀ entry ∈ switch.entries, entry.table = fiveTuple.h.l3Proto →
      entry.entryHdl ≠ entryHdl
  | _ => True

/-! ## The abstract switch -/

/-- The five-tuple and the session that each flow id was installed with. -/
abbrev Installed : Type := Int → Option (FiveTuple × Int)

namespace Installed

def apply (installed : Installed) : DataplaneCommand → Installed
  | .addFlow fiveTuple flowId sessionId =>
      Function.update installed flowId (some (fiveTuple, sessionId))
  | .removeFlow _ flowId => Function.update installed flowId none
  | .clearRegisters _ _ => installed
  | .addBloomFilter _ _ => installed
  | .removeBloomFilter _ _ => installed

/-- Nothing is installed under the id of an add, and what is installed under the id of a
removal has its key. -/
def Enabled (installed : Installed) : DataplaneCommand → Prop
  | .addFlow _ flowId _ => installed flowId = none
  | .removeFlow fiveTuple flowId => ∀ owner, installed flowId = some owner →
      owner.1.h = fiveTuple.h
  | _ => True

/-- A removal also finds something to remove. -/
def EnabledFound (installed : Installed) (command : DataplaneCommand) : Prop :=
  installed.Enabled command ∧
    ∀ fiveTuple flowId, command = .removeFlow fiveTuple flowId → installed flowId ≠ none

end Installed

/-- The commands that leave the classification tables alone. -/
def DataplaneCommand.Neutral : DataplaneCommand → Prop
  | .addFlow _ _ _ => False
  | .removeFlow _ _ => False
  | _ => True

theorem DataplaneCommand.Neutral.enabledFound {command : DataplaneCommand}
    (neutral : command.Neutral) (installed : Installed) :
    installed.EnabledFound command ∧ installed.apply command = installed := by
  cases command with
  | addFlow _ _ _ => cases neutral
  | removeFlow _ _ => cases neutral
  | clearRegisters _ _ => exact ⟨⟨True.intro, fun _ _ same => by cases same⟩, rfl⟩
  | addBloomFilter _ _ => exact ⟨⟨True.intro, fun _ _ same => by cases same⟩, rfl⟩
  | removeBloomFilter _ _ => exact ⟨⟨True.intro, fun _ _ same => by cases same⟩, rfl⟩

/-- Every entry is what was installed under its flow id, with the handle kept for it. -/
def Switch.Follows (switch : Switch) (installed : Installed) : Prop :=
  ∀ entry ∈ switch.entries, ∃ owner, installed entry.flowId = some owner ∧
    entry = classificationEntry owner.1 entry.flowId owner.2 (switch.entryHdls entry.flowId)

/-- The entries are exactly those installed, one for each flow id, with different handles
in each table. -/
structure Switch.Matches (switch : Switch) (installed : Installed) : Prop where
  follows : switch.Follows installed
  complete : ∀ flowId owner, installed flowId = some owner →
    classificationEntry owner.1 flowId owner.2 (switch.entryHdls flowId) ∈ switch.entries
  nodup : switch.entries.Nodup
  handles : ∀ a ∈ switch.entries, ∀ b ∈ switch.entries, a.table = b.table →
    a.entryHdl = b.entryHdl → a = b

namespace Switch

variable {switch : Switch} {installed : Installed} {command : DataplaneCommand}
  {entryHdl : UInt32} {fiveTuple : FiveTuple} {flowId sessionId : Int}
  {entry : ClassificationEntry}

theorem mem_removeClassificationEntry :
    entry ∈ (switch.removeClassificationEntry fiveTuple entryHdl).entries ↔
      entry ∈ switch.entries ∧
        ¬ (entry.table = fiveTuple.h.l3Proto ∧ entry.entryHdl = entryHdl) := by
  unfold removeClassificationEntry
  rw [List.mem_filter, decide_eq_true_iff]

/-! ## Executing a command -/

theorem empty_follows : empty.Follows fun _ => none := by
  intro entry member
  cases member

theorem Follows.ne_of_none (follows : switch.Follows installed)
    (unused : installed flowId = none) (member : entry ∈ switch.entries) :
    entry.flowId ≠ flowId := by
  intro same
  obtain ⟨owner, held, _⟩ := follows entry member
  rw [same, unused] at held
  cases held

theorem Follows.addClassificationEntry (follows : switch.Follows installed)
    (unused : installed flowId = none) :
    (switch.addClassificationEntry fiveTuple flowId sessionId entryHdl).Follows
      (installed.apply (.addFlow fiveTuple flowId sessionId)) := by
  intro entry member
  simp only [Switch.addClassificationEntry, Installed.apply] at member ⊢
  rcases List.mem_cons.mp member with rfl | old
  · refine ⟨(fiveTuple, sessionId), Function.update_self _ _ _, ?_⟩
    rw [show (classificationEntry fiveTuple flowId sessionId entryHdl).flowId = flowId from rfl,
      Function.update_self]
  · have other := follows.ne_of_none unused old
    rw [Function.update_of_ne other, Function.update_of_ne other]
    exact follows entry old

/-- The entry of a flow id is deleted with the handle kept for it. -/
theorem Follows.removeClassificationEntry (follows : switch.Follows installed)
    (ready : installed.Enabled (.removeFlow fiveTuple flowId)) :
    (switch.removeClassificationEntry fiveTuple (switch.entryHdls flowId)).Follows
      (installed.apply (.removeFlow fiveTuple flowId)) := by
  intro entry member
  obtain ⟨old, kept⟩ := mem_removeClassificationEntry.mp member
  obtain ⟨owner, held, eq⟩ := follows entry old
  have other : entry.flowId ≠ flowId := by
    intro same
    rw [same] at held eq
    apply kept
    rw [eq]
    exact ⟨congrArg FiveTupleForHash.l3Proto (ready owner held), rfl⟩
  refine ⟨owner, ?_, eq⟩
  exact (Function.update_of_ne other _ _).trans held

/-- Executing an enabled command keeps every entry accounted for. -/
theorem Follows.execute (follows : switch.Follows installed) (ready : installed.Enabled command) :
    (switch.execute entryHdl command).Follows (installed.apply command) := by
  cases command with
  | addFlow _ _ _ => exact follows.addClassificationEntry ready
  | removeFlow _ _ => exact follows.removeClassificationEntry ready
  | clearRegisters _ _ => exact follows
  | addBloomFilter _ _ => exact follows
  | removeBloomFilter _ _ => exact follows

theorem empty_matches : empty.Matches fun _ => none where
  follows := empty_follows
  complete _ _ held := by cases held
  nodup := List.nodup_nil
  handles _ member := by cases member

theorem Matches.addClassificationEntry (matched : switch.Matches installed)
    (unused : installed flowId = none)
    (fresh : switch.FreshHdl entryHdl (.addFlow fiveTuple flowId sessionId)) :
    (switch.addClassificationEntry fiveTuple flowId sessionId entryHdl).Matches
      (installed.apply (.addFlow fiveTuple flowId sessionId)) := by
  refine ⟨matched.follows.addClassificationEntry unused, ?_, ?_, ?_⟩
  · intro id owner held
    simp only [Installed.apply, Switch.addClassificationEntry] at held ⊢
    by_cases same : id = flowId
    · subst same
      rw [Function.update_self] at held ⊢
      cases held
      exact List.mem_cons_self
    · rw [Function.update_of_ne same] at held ⊢
      exact List.mem_cons_of_mem _ (matched.complete id owner held)
  · refine List.nodup_cons.mpr ⟨?_, matched.nodup⟩
    intro member
    exact matched.follows.ne_of_none unused member rfl
  · intro a ha b hb table handle
    rcases List.mem_cons.mp ha with rfl | ha
    · rcases List.mem_cons.mp hb with rfl | hb
      · rfl
      · exact absurd handle.symm (fresh b hb table.symm)
    · rcases List.mem_cons.mp hb with rfl | hb
      · exact absurd handle (fresh a ha table)
      · exact matched.handles a ha b hb table handle

/-- A removal that finds its entry deletes no other. -/
theorem Matches.removeClassificationEntry (matched : switch.Matches installed)
    (ready : installed.EnabledFound (.removeFlow fiveTuple flowId)) :
    (switch.removeClassificationEntry fiveTuple (switch.entryHdls flowId)).Matches
      (installed.apply (.removeFlow fiveTuple flowId)) := by
  obtain ⟨owner, found⟩ := Option.ne_none_iff_exists'.mp (ready.2 fiveTuple flowId rfl)
  have member := matched.complete flowId owner found
  refine ⟨matched.follows.removeClassificationEntry ready.1, ?_, ?_, ?_⟩
  · intro id other held
    have apart : id ≠ flowId := by
      intro same
      rcases same with rfl
      exact absurd held (by simp only [Installed.apply, Function.update_self]; exact nofun)
    have held' : installed id = some other := (Function.update_of_ne apart _ _).symm.trans held
    have old := matched.complete id other held'
    refine mem_removeClassificationEntry.mpr ⟨old, ?_⟩
    intro deleted
    have table : other.1.h.l3Proto = owner.1.h.l3Proto := by
      rw [ready.1 owner found]
      exact deleted.1
    have same := matched.handles _ old _ member table deleted.2
    exact apart (congrArg ClassificationEntry.flowId same)
  · exact matched.nodup.filter _
  · intro a ha b hb
    exact matched.handles a (mem_removeClassificationEntry.mp ha).1 b
      (mem_removeClassificationEntry.mp hb).1

/-- Executing an enabled command with a fresh handle keeps the switch exact. -/
theorem Matches.execute (matched : switch.Matches installed)
    (ready : installed.EnabledFound command) (fresh : switch.FreshHdl entryHdl command) :
    (switch.execute entryHdl command).Matches (installed.apply command) := by
  cases command with
  | addFlow _ _ _ => exact matched.addClassificationEntry ready.1 fresh
  | removeFlow _ _ => exact matched.removeClassificationEntry ready
  | clearRegisters _ _ => exact matched
  | addBloomFilter _ _ => exact matched
  | removeBloomFilter _ _ => exact matched

end Switch

end Marina
