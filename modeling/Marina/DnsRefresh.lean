import Marina.Heuristic
import Marina.Lib.PendingQueue
import Marina.Lib.Run

/-!
# Refreshing and expiring DNS entries

The packet thread and the DNS thread over the DNS ring. The packet thread puts DNS
responses into the ring, and runs `heuristic` on other packets, which puts a removal for
every expired entry it meets; the DNS thread takes one item after the other and changes
the table. A response counts as a store of the key that lookups use. Both threads stop at
every access to what they share, so that the other thread may come in between.

A removal is decided on when it is put and executed later. `DnsThreads.Outdated` is the
condition under which that is harmless: when the removal of a key is put, no store of the
key is on its way, and the entry seen has not been refreshed since. Under it the removals
in the ring only ever meet expired entries (`removals_spare_fresh_entries`).
-/

namespace Marina

open Lib (Exec Drains AllSteps)

def dnsRingbufferSize : Nat := 1 <<< 12

/-- An item of the ring, with a response taken as the store it causes. -/
inductive DnsMessage
  | store (key : DnsHashtableKey) (ttl : UInt32)
  | removeIp (key : DnsHashtableKey)
  deriving DecidableEq, Repr

/-- Where the packet thread stands in `heuristic`: before the lookup of one of the two
addresses, or before the removal of its key. `now` is the second `heuristic` was called
in. -/
inductive HeuristicPc
  | idle
  | src (fiveTuple : FiveTuple) (now : Int)
  | removeSrc (fiveTuple : FiveTuple) (now : Int)
  | dst (fiveTuple : FiveTuple) (now : Int)
  | removeDst (fiveTuple : FiveTuple) (now : Int)
  deriving DecidableEq, Repr

def FiveTuple.srcKey (fiveTuple : FiveTuple) : DnsHashtableKey :=
  toDnsHashtableKey fiveTuple.h.srcAddr fiveTuple.h.l3Proto

def FiveTuple.dstKey (fiveTuple : FiveTuple) : DnsHashtableKey :=
  toDnsHashtableKey fiveTuple.h.dstAddr fiveTuple.h.l3Proto

/-- The state of both threads: the clock, the table, the ring, the item the DNS thread has
taken off the ring and not yet handled, and the place of the packet thread. -/
structure DnsThreads where
  clock : Int
  table : DnsHashtable
  ring : List DnsMessage
  handling : Option DnsMessage
  pc : HeuristicPc

/-- A step: time passes; the packet thread takes a response or another packet, or goes on
with `heuristic`; the DNS thread takes an item, or handles the item it has taken. -/
inductive DnsEvent
  | tick (seconds : Nat)
  | response (address : Address) (proto : L3Proto) (ttl : UInt32)
  | packet (fiveTuple : FiveTuple)
  | heuristic
  | take
  | handle
  deriving DecidableEq, Repr

namespace DnsThreads

/-- Nothing is known and nothing is under way. -/
def start (clock : Int) : DnsThreads := ⟨clock, dnsHashtableInit, [], none, .idle⟩

def HasRoom (threads : DnsThreads) : Prop := threads.ring.length < dnsRingbufferSize

instance (threads : DnsThreads) : Decidable threads.HasRoom := inferInstanceAs (Decidable (_ < _))

/-- `dns_ringbuffer_put`. -/
def put (threads : DnsThreads) (message : DnsMessage) : DnsThreads :=
  if threads.HasRoom then { threads with ring := threads.ring ++ [message] } else threads

/-- `heuristic`, from one access to the table or the ring to the next. -/
def heuristicStep (murmur : DnsHashtableKey → UInt32) (threads : DnsThreads) :
    Outcome DnsThreads :=
  match threads.pc with
  | .idle => pure threads
  | .src fiveTuple now => do
      match ← heuristicLookup murmur threads.table fiveTuple.srcKey now with
      | .fresh => pure { threads with pc := .idle }
      | .expired => pure { threads with pc := .removeSrc fiveTuple now }
      | .unknown => pure { threads with pc := .dst fiveTuple now }
  | .removeSrc fiveTuple now =>
      pure { threads.put (.removeIp fiveTuple.srcKey) with pc := .dst fiveTuple now }
  | .dst fiveTuple now => do
      match ← heuristicLookup murmur threads.table fiveTuple.dstKey now with
      | .fresh => pure { threads with pc := .idle }
      | .expired => pure { threads with pc := .removeDst fiveTuple now }
      | .unknown => pure { threads with pc := .idle }
  | .removeDst fiveTuple _ =>
      pure { threads.put (.removeIp fiveTuple.dstKey) with pc := .idle }

/-- The DNS thread handles the item it has taken. -/
def handleStep (murmur : DnsHashtableKey → UInt32) (threads : DnsThreads) : Outcome DnsThreads :=
  match threads.handling with
  | none => pure threads
  | some (.store key ttl) => do
      let (_, table) ← dnsHashtableAddOrChange murmur threads.table key (threads.clock + ttl.toNat)
      pure { threads with table := table, handling := none }
  | some (.removeIp key) => do
      let (_, table) ← dnsHashtableRemove murmur threads.table key
      pure { threads with table := table, handling := none }

/-- The DNS thread takes the next item, unless it is still handling one. -/
def takeStep (threads : DnsThreads) : DnsThreads :=
  match threads.handling, threads.ring with
  | none, message :: rest => { threads with ring := rest, handling := some message }
  | _, _ => threads

/-- One step; a thread that cannot take the step stays where it is. -/
def step (murmur : DnsHashtableKey → UInt32) (threads : DnsThreads) :
    DnsEvent → Outcome DnsThreads
  | .tick seconds => pure { threads with clock := threads.clock + seconds }
  | .response address proto ttl =>
      if threads.pc = .idle then
        pure (threads.put (.store (toDnsHashtableKey address proto) ttl))
      else
        pure threads
  | .packet fiveTuple =>
      if threads.pc = .idle then
        pure { threads with pc := .src fiveTuple threads.clock }
      else
        pure threads
  | .heuristic => threads.heuristicStep murmur
  | .take => pure threads.takeStep
  | .handle => threads.handleStep murmur

/-! ## What is to be shown -/

/-- Every entry of the key has expired. -/
def Expired (threads : DnsThreads) (key : DnsHashtableKey) : Prop :=
  ∀ expiry, (key, expiry) ∈ threads.table.bindings → expiry < threads.clock

/-- A removal that is executed meets no entry that has not expired. -/
def SparesFresh (threads : DnsThreads) (event : DnsEvent) : Prop :=
  ∀ key, event = .handle → threads.handling = some (.removeIp key) → threads.Expired key

/-- The items on their way to the table, in the order they will be handled in. -/
def pending (threads : DnsThreads) : List DnsMessage := threads.handling.toList ++ threads.ring

/-- The key's entry has expired, and no store of the key is on its way. -/
def Outdated (threads : DnsThreads) (key : DnsHashtableKey) : Prop :=
  threads.Expired key ∧ ∀ ttl, .store key ttl ∉ threads.pending

end DnsThreads

/-- The key whose removal is the next access of the packet thread. -/
def HeuristicPc.removing : HeuristicPc → Option DnsHashtableKey
  | .removeSrc fiveTuple _ => some fiveTuple.srcKey
  | .removeDst fiveTuple _ => some fiveTuple.dstKey
  | _ => none

/-- A removal is put into the ring only while it is due. -/
def DnsThreads.RemovesOutdated (threads : DnsThreads) (event : DnsEvent) : Prop :=
  ∀ key, event = .heuristic → threads.pc.removing = some key → threads.HasRoom →
    threads.Outdated key

/-! ## Draining the ring -/

namespace DnsMessage

/-- The keys without a fresh entry after a message, given those before it. -/
def after (expired : Set DnsHashtableKey) : DnsMessage → Set DnsHashtableKey
  | .store key _ => expired \ {key}
  | .removeIp _ => expired

/-- A removal is harmless for a key without a fresh entry. -/
def Harmless (expired : Set DnsHashtableKey) : DnsMessage → Prop
  | .store _ _ => True
  | .removeIp key => key ∈ expired

theorem after_mono {smaller larger : Set DnsHashtableKey} (message : DnsMessage)
    (below : smaller ⊆ larger) : after smaller message ⊆ after larger message := by
  cases message with
  | store key ttl => exact Set.sdiff_subset_sdiff_left below
  | removeIp key => exact below

theorem Harmless.mono {smaller larger : Set DnsHashtableKey} {message : DnsMessage}
    (below : smaller ⊆ larger) (harmless : Harmless smaller message) :
    Harmless larger message := by
  cases message with
  | store key ttl => exact True.intro
  | removeIp key => exact below harmless

/-- Only stores of a key bring it a fresh entry. -/
theorem mem_foldl_after {key : DnsHashtableKey} {queue : List DnsMessage} :
    ∀ {expired : Set DnsHashtableKey},
      key ∈ queue.foldl after expired ↔ key ∈ expired ∧ ∀ ttl, .store key ttl ∉ queue := by
  induction queue with
  | nil => simp
  | cons message queue ih =>
      intro expired
      rw [List.foldl_cons, ih]
      cases message with
      | store other ttl =>
          simp only [after, Set.mem_sdiff, Set.mem_singleton_iff, List.mem_cons, not_or]
          constructor
          · intro facts
            refine ⟨facts.1.1, fun ttl' => ⟨?_, facts.2 ttl'⟩⟩
            intro same
            exact facts.1.2 (DnsMessage.store.inj same).1
          · intro facts
            refine ⟨⟨facts.1, ?_⟩, fun ttl' => (facts.2 ttl').2⟩
            intro same
            subst same
            exact (facts.2 ttl).1 rfl
      | removeIp other => simp [after]

end DnsMessage

namespace DnsThreads

variable {murmur : DnsHashtableKey → UInt32} {threads threads' : DnsThreads}

/-- The keys without a fresh entry. -/
def expiredKeys (threads : DnsThreads) : Set DnsHashtableKey := { key | threads.Expired key }

/-- The table is valid, and every removal on its way will find its key without a fresh
entry. -/
structure Orderly (murmur : DnsHashtableKey → UInt32) (threads : DnsThreads) : Prop where
  valid : threads.table.Valid murmur
  drains : ∃ last, Drains DnsMessage.after DnsMessage.Harmless threads.expiredKeys
    threads.pending last

theorem start_orderly (murmur : DnsHashtableKey → UInt32) (clock : Int) :
    (start clock).Orderly murmur where
  valid := dnsHashtableInit_valid murmur
  drains := ⟨_, .nil _⟩

/-- A change that refreshes no key outside those of `expired` keeps the rest of the queue
harmless. -/
theorem Orderly.of_drains (valid : threads'.table.Valid murmur) {expired : Set DnsHashtableKey}
    {queue : List DnsMessage} {last : Set DnsHashtableKey}
    (drains : Drains DnsMessage.after DnsMessage.Harmless expired queue last)
    (pending : threads'.pending = queue) (above : expired ⊆ threads'.expiredKeys) :
    threads'.Orderly murmur := by
  obtain ⟨last', drains', _⟩ := drains.mono (R := fun smaller larger => smaller ⊆ larger)
    (fun _ _ message below => DnsMessage.after_mono message below)
    (fun _ _ _ below harmless => harmless.mono below) above
  rw [← pending] at drains'
  exact ⟨valid, last', drains'⟩

/-- Only the table, the clock and the queue matter. -/
theorem Orderly.congr (orderly : threads.Orderly murmur) (table : threads'.table = threads.table)
    (clock : threads'.clock = threads.clock) (pending : threads'.pending = threads.pending) :
    threads'.Orderly murmur := by
  obtain ⟨last, drains⟩ := orderly.drains
  refine Orderly.of_drains (by rw [table]; exact orderly.valid) drains pending ?_
  intro key expired expiry
  rw [table, clock]
  exact expired expiry

theorem put_pending (room : threads.HasRoom) (message : DnsMessage) :
    (threads.put message).pending = threads.pending ++ [message] := by
  unfold put
  rw [if_pos room]
  exact (List.append_assoc _ _ _).symm

theorem put_table (threads : DnsThreads) (message : DnsMessage) :
    (threads.put message).table = threads.table := by
  unfold put
  split <;> rfl

theorem put_clock (threads : DnsThreads) (message : DnsMessage) :
    (threads.put message).clock = threads.clock := by
  unfold put
  split <;> rfl

theorem Orderly.put (orderly : threads.Orderly murmur) {message : DnsMessage}
    (harmless : threads.HasRoom →
      DnsMessage.Harmless (threads.pending.foldl DnsMessage.after threads.expiredKeys) message) :
    (threads.put message).Orderly murmur := by
  by_cases room : threads.HasRoom
  · obtain ⟨last, drains⟩ := orderly.drains
    rw [drains.eq_foldl] at drains
    refine Orderly.of_drains (by rw [put_table]; exact orderly.valid)
      (drains.put (harmless room)) (put_pending room message) ?_
    intro key expired expiry
    rw [put_table, put_clock]
    exact expired expiry
  · unfold DnsThreads.put
    rw [if_neg room]
    exact orderly

/-- A removal that is due is harmless at the end of the queue. -/
theorem Orderly.putRemoval (orderly : threads.Orderly murmur) {key : DnsHashtableKey}
    (due : threads.HasRoom → threads.Outdated key) :
    (threads.put (.removeIp key)).Orderly murmur :=
  orderly.put fun room => DnsMessage.mem_foldl_after.mpr (due room)

theorem Orderly.take (orderly : threads.Orderly murmur) : threads.takeStep.Orderly murmur := by
  unfold takeStep
  split
  · rename_i message rest idle ring
    refine orderly.congr rfl rfl ?_
    simp only [pending, idle, ring, Option.toList_none, Option.toList_some]
    rfl
  · exact orderly

theorem Orderly.handle (orderly : threads.Orderly murmur)
    (returned : threads.handleStep murmur = pure threads') : threads'.Orderly murmur := by
  unfold handleStep at returned
  obtain ⟨last, drains⟩ := orderly.drains
  cases held : threads.handling with
  | none =>
      rw [held, Exec.pure_inj] at returned
      exact returned ▸ orderly
  | some message =>
      simp only [pending, held, Option.toList_some, List.singleton_append] at drains
      cases message with
      | store key ttl =>
          rw [held] at returned
          obtain ⟨⟨code, table⟩, stored, final⟩ := Exec.bind_eq_pure.mp returned
          rw [Exec.pure_inj] at final
          subst final
          obtain ⟨valid, bindings⟩ := dnsHashtableAddOrChange_sound orderly.valid stored
          refine Orderly.of_drains valid drains.get.2 rfl ?_
          intro other expired expiry bound
          rcases bindings _ bound with old | new
          · exact expired.1 expiry old
          · exact absurd (congrArg Prod.fst new) expired.2
      | removeIp key =>
          rw [held] at returned
          obtain ⟨⟨code, table⟩, removed, final⟩ := Exec.bind_eq_pure.mp returned
          rw [Exec.pure_inj] at final
          subst final
          obtain ⟨valid, bindings⟩ := dnsHashtableRemove_sound orderly.valid removed
          refine Orderly.of_drains valid drains.get.2 rfl ?_
          intro other expired expiry bound
          exact expired expiry ((bindings _).mp bound).1

theorem Orderly.heuristic (orderly : threads.Orderly murmur)
    (due : threads.RemovesOutdated .heuristic)
    (returned : threads.heuristicStep murmur = pure threads') : threads'.Orderly murmur := by
  unfold heuristicStep at returned
  cases place : threads.pc with
  | idle =>
      rw [place, Exec.pure_inj] at returned
      exact returned ▸ orderly
  | src fiveTuple now =>
      rw [place] at returned
      obtain ⟨seen, _, final⟩ := Exec.bind_eq_pure.mp returned
      cases seen <;> rw [Exec.pure_inj] at final <;> subst final <;> exact orderly.congr rfl rfl rfl
  | removeSrc fiveTuple now =>
      rw [place, Exec.pure_inj] at returned
      subst returned
      have removed := orderly.putRemoval (due fiveTuple.srcKey rfl (by rw [place]; rfl))
      exact removed.congr rfl rfl rfl
  | dst fiveTuple now =>
      rw [place] at returned
      obtain ⟨seen, _, final⟩ := Exec.bind_eq_pure.mp returned
      cases seen <;> rw [Exec.pure_inj] at final <;> subst final <;> exact orderly.congr rfl rfl rfl
  | removeDst fiveTuple now =>
      rw [place, Exec.pure_inj] at returned
      subst returned
      have removed := orderly.putRemoval (due fiveTuple.dstKey rfl (by rw [place]; rfl))
      exact removed.congr rfl rfl rfl

theorem Orderly.step (orderly : threads.Orderly murmur) {event : DnsEvent}
    (due : threads.RemovesOutdated event)
    (returned : threads.step murmur event = pure threads') : threads'.Orderly murmur := by
  cases event with
  | tick seconds =>
      simp only [DnsThreads.step, Exec.pure_inj] at returned
      subst returned
      obtain ⟨last, drains⟩ := orderly.drains
      refine Orderly.of_drains orderly.valid drains rfl ?_
      intro key expired expiry bound
      have earlier := expired expiry bound
      change expiry < threads.clock + seconds
      omega
  | response address proto ttl =>
      simp only [DnsThreads.step] at returned
      split at returned
      · rw [Exec.pure_inj] at returned
        subst returned
        exact orderly.put fun _ => True.intro
      · rw [Exec.pure_inj] at returned
        exact returned ▸ orderly
  | packet fiveTuple =>
      simp only [DnsThreads.step] at returned
      split at returned
      · rw [Exec.pure_inj] at returned
        subst returned
        exact orderly.congr rfl rfl rfl
      · rw [Exec.pure_inj] at returned
        exact returned ▸ orderly
  | heuristic => exact orderly.heuristic due returned
  | take =>
      simp only [DnsThreads.step, Exec.pure_inj] at returned
      subst returned
      exact orderly.take
  | handle => exact orderly.handle returned

/-- A removal at the head of an orderly queue spares fresh entries. -/
theorem Orderly.sparesFresh (orderly : threads.Orderly murmur) (event : DnsEvent) :
    threads.SparesFresh event := by
  intro key _ held
  obtain ⟨last, drains⟩ := orderly.drains
  simp only [pending, held, Option.toList_some, List.singleton_append] at drains
  exact drains.get.1

end DnsThreads

/-- In every run of the two threads in which removals are only put into the ring for keys
whose entry has expired and of which no store is on its way, every removal that is
executed meets no entry that has not expired. -/
theorem removals_spare_fresh_entries (murmur : DnsHashtableKey → UInt32) (clock : Int)
    (events : List DnsEvent)
    (due : AllSteps (DnsThreads.step murmur) DnsThreads.RemovesOutdated (.start clock) events) :
    AllSteps (DnsThreads.step murmur) DnsThreads.SparesFresh (.start clock) events :=
  due.of_invariant (I := DnsThreads.Orderly murmur)
    (fun _ _ _ orderly due' next => orderly.step due' next)
    (fun _ event orderly _ => orderly.sparesFresh event)
    (DnsThreads.start_orderly murmur clock)

/-! ## A refresh overtaken by a removal -/

namespace DnsThreads

/-- The key of `10.0.0.1`. -/
def sampleKey : DnsHashtableKey := sampleFiveTuple.srcKey

/-- A response that is taken and handled at once. -/
def learn (ttl : UInt32) : List DnsEvent :=
  [.response sampleFiveTuple.h.srcAddr .ipv4 ttl, .take, .handle]

/-- An address is learned for a second and looked up five seconds later. -/
def expiryRun : List DnsEvent :=
  learn 1 ++ [.tick 5, .packet sampleFiveTuple, .heuristic, .heuristic, .take, .handle]

/-- The same, with a response for the address waiting in the ring during the lookup. -/
def refreshRun : List DnsEvent :=
  learn 1 ++ [.tick 5, .response sampleFiveTuple.h.srcAddr .ipv4 60, .packet sampleFiveTuple,
    .heuristic, .heuristic, .take, .handle, .take]

/-- Storing the key in an empty table or over its entry. -/
theorem store_sampleKey {table : DnsHashtable} (valid : table.Valid fun _ => 0)
    (before : table.bindings = 0 ∨ ∃ old, table.bindings = {(sampleKey, old)}) (expiry : Int) :
    Exec.Returns (dnsHashtableAddOrChange (fun _ => 0) table sampleKey expiry) fun result =>
      result.2.Valid (fun _ => 0) ∧ result.2.bindings = {(sampleKey, expiry)} := by
  have size : 1 < dnsHashtableSize := by unfold dnsHashtableSize; decide
  rcases before with empty | ⟨old, one⟩
  · have absent : ∀ b ∈ table.bindings, b.1 ≠ sampleKey := by
      rw [empty]
      intro b member
      exact absurd member (Multiset.notMem_zero b)
    apply (dnsHashtableAddOrChange_of_absent valid
      (by rw [empty, Multiset.card_zero]; omega) absent).mono
    intro result facts
    rw [empty] at facts
    exact facts.2
  · have member : (sampleKey, old) ∈ table.bindings := by
      rw [one]
      exact Multiset.mem_singleton_self _
    apply (dnsHashtableAddOrChange_of_mem valid
      (by rw [one, Multiset.card_singleton]; omega) member).mono
    intro result post
    rcases post with ⟨-, valid', others, before, after⟩
    rw [one, ← Multiset.cons_zero, Multiset.cons_inj_right] at before
    refine ⟨valid', ?_⟩
    rw [after, ← before]
    rfl

/-- The lookup of an entry that has expired. -/
theorem lookup_sampleKey {table : DnsHashtable} (valid : table.Valid fun _ => 0) {expiry now : Int}
    (bindings : table.bindings = {(sampleKey, expiry)}) (expired : expiry < now) :
    heuristicLookup (fun _ => 0) table sampleFiveTuple.srcKey now = pure .expired := by
  have member : (sampleFiveTuple.srcKey, expiry) ∈ table.bindings := by
    rw [bindings]
    exact Multiset.mem_singleton_self _
  unfold heuristicLookup
  rw [dnsHashtableGet_of_mem valid member, pure_bind]
  simp only [if_pos expired]

/-- The first response is stored. -/
theorem learn_returns :
    ∃ table, table.Valid (fun _ => 0) ∧ table.bindings = {(sampleKey, 101)} ∧
      (learn 1).foldlM (step fun _ => 0) (start 100) = pure ⟨100, table, [], none, .idle⟩ := by
  obtain ⟨⟨code, table⟩, stored, valid, bindings⟩ := store_sampleKey
    (dnsHashtableInit_valid _) (Or.inl dnsHashtableInit_bindings) 101
  refine ⟨table, valid, bindings, ?_⟩
  have waiting : step (fun _ => 0) (start 100) (.response sampleFiveTuple.h.srcAddr .ipv4 1) =
      pure ⟨100, dnsHashtableInit, [.store sampleKey 1], none, .idle⟩ := rfl
  have handled : step (fun _ => 0)
      ⟨100, dnsHashtableInit, [], some (.store sampleKey 1), .idle⟩ .handle =
      pure ⟨100, table, [], none, .idle⟩ := by
    change (dnsHashtableAddOrChange (fun _ => 0) dnsHashtableInit sampleKey 101 >>= _) = _
    rw [stored]
    rfl
  rw [learn, List.foldlM_cons, waiting, pure_bind, List.foldlM_cons]
  change ([DnsEvent.handle].foldlM _ _ : Outcome DnsThreads) = _
  rw [List.foldlM_cons]
  change step (fun _ => 0) ⟨100, dnsHashtableInit, [], some (.store sampleKey 1), .idle⟩ .handle >>=
    _ = _
  rw [handled]
  rfl

/-- After the lookup the removal stands behind the response it has overtaken, and the
response is handled. -/
theorem refreshRun_returns :
    ∃ table, table.Valid (fun _ => 0) ∧ table.bindings = {(sampleKey, 165)} ∧
      refreshRun.foldlM (step fun _ => 0) (start 100) =
        pure ⟨105, table, [], some (.removeIp sampleKey), .dst sampleFiveTuple 105⟩ := by
  obtain ⟨table, valid, bindings, learned⟩ := learn_returns
  obtain ⟨⟨code, fresh⟩, stored, valid', bindings'⟩ :=
    store_sampleKey valid (Or.inr ⟨101, bindings⟩) 165
  refine ⟨fresh, valid', bindings', ?_⟩
  have looked : step (fun _ => 0)
      ⟨105, table, [.store sampleKey 60], none, .src sampleFiveTuple 105⟩ .heuristic =
      pure ⟨105, table, [.store sampleKey 60], none, .removeSrc sampleFiveTuple 105⟩ := by
    change (heuristicLookup (fun _ => 0) table sampleFiveTuple.srcKey 105 >>= _) = _
    rw [lookup_sampleKey valid bindings (by omega)]
    rfl
  have handled : step (fun _ => 0)
      ⟨105, table, [.removeIp sampleKey], some (.store sampleKey 60), .dst sampleFiveTuple 105⟩
      .handle = pure ⟨105, fresh, [.removeIp sampleKey], none, .dst sampleFiveTuple 105⟩ := by
    change (dnsHashtableAddOrChange (fun _ => 0) table sampleKey 165 >>= _) = _
    rw [stored]
    rfl
  rw [refreshRun, List.foldlM_append, learned, pure_bind]
  calc _ = step (fun _ => 0)
        ⟨105, table, [.store sampleKey 60], none, .src sampleFiveTuple 105⟩ .heuristic >>=
          fun threads => [.heuristic, .take, .handle, .take].foldlM (step fun _ => 0) threads := rfl
    _ = step (fun _ => 0)
        ⟨105, table, [.removeIp sampleKey], some (.store sampleKey 60), .dst sampleFiveTuple 105⟩
        .handle >>= fun threads => [.take].foldlM (step fun _ => 0) threads := by
          rw [looked]
          rfl
    _ = _ := by
          rw [handled]
          rfl

end DnsThreads

/-- A run that takes an expired entry away and meets the condition. -/
theorem removals_spare_fresh_entries_expiry :
    AllSteps (DnsThreads.step fun _ => 0) DnsThreads.RemovesOutdated (.start 100)
        DnsThreads.expiryRun ∧
      AllSteps (DnsThreads.step fun _ => 0) DnsThreads.SparesFresh (.start 100)
        DnsThreads.expiryRun := by
  have others : ∀ (event : DnsEvent), event ≠ .heuristic → ∀ threads : DnsThreads,
      threads.RemovesOutdated event := fun event other threads key isHeuristic =>
    absurd isHeuristic other
  have due : AllSteps (DnsThreads.step fun _ => 0) DnsThreads.RemovesOutdated (.start 100)
      DnsThreads.expiryRun := by
    obtain ⟨table, valid, bindings, learned⟩ := DnsThreads.learn_returns
    refine AllSteps.append ?_ ?_
    · apply AllSteps.of_forall
      intro threads event member
      refine others event ?_ threads
      intro same
      rcases same with rfl
      exact absurd member (by decide)
    · intro threads run
      rw [learned, Exec.pure_inj] at run
      subst run
      refine AllSteps.cons (others _ (by decide) _) rfl ?_
      refine AllSteps.cons (others _ (by decide) _) rfl ?_
      refine AllSteps.cons ?_
        (?_ : _ = pure ⟨105, table, [], none, .removeSrc sampleFiveTuple 105⟩) ?_
      · intro key _ none
        cases none
      · change (heuristicLookup (fun _ => 0) table sampleFiveTuple.srcKey 105 >>= _) = _
        rw [DnsThreads.lookup_sampleKey valid bindings (by omega)]
        rfl
      refine AllSteps.cons ?_ rfl ?_
      · intro key _ removing _
        cases removing
        refine ⟨fun expiry bound => ?_, fun ttl => List.not_mem_nil⟩
        change _ ∈ table.bindings at bound
        rw [bindings, Multiset.mem_singleton] at bound
        have seen : expiry = 101 := congrArg Prod.snd bound
        change expiry < 105
        omega
      · apply AllSteps.of_forall
        intro threads event member
        refine others event ?_ threads
        intro same
        rcases same with rfl
        exact absurd member (by decide)
  exact ⟨due, removals_spare_fresh_entries _ _ _ due⟩

/-- A refresh that waits in the ring while its old entry is looked up is undone by the
removal behind it, which deletes an entry that is good for another minute. -/
theorem removals_do_not_spare_fresh_entries :
    ¬ AllSteps (DnsThreads.step fun _ => 0) DnsThreads.SparesFresh (.start 100)
      (DnsThreads.refreshRun ++ [.handle]) := by
  intro spares
  obtain ⟨table, _, bindings, returned⟩ := DnsThreads.refreshRun_returns
  have last := (AllSteps.after returned spares).1 DnsThreads.sampleKey rfl rfl 165 (by
    change _ ∈ table.bindings
    rw [bindings]
    exact Multiset.mem_singleton_self _)
  change (165 : Int) < 105 at last
  omega

end Marina
