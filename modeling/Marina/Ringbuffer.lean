import Marina.Lib.RingQueue

/-!
# Ring buffers

The functions that `MK_RINGBUFFER_IMPL` of `controller/datastructures/mk_ringbuffer.h`
generates, for any type of items and any size, and any number of threads that run them:
producers in `put` and `ensure_put`, and one consumer in `get`. A thread stops before
every unlocked read of `full` or `empty` and before every locked section.

The state records the items stored and the items taken, in the order of the locked
sections. `ringbuffer_lossless_fifo` says that the items taken are always a prefix of
those stored, that the flags and `length` tell how many are in between, and what each
return code means.
-/

namespace Marina

open Lib (Holds)

/-- The size of a ring buffer: a positive constant of type `int`. -/
structure RingbufferSize where
  val : Nat
  pos : 0 < val
  isInt : val < 2 ^ 31

/-- The size in the type of `head` and `tail`. -/
def RingbufferSize.word (size : RingbufferSize) : UInt32 := UInt32.ofNat size.val

structure Ringbuffer (α : Type) where
  head : UInt32
  tail : UInt32
  empty : Bool
  full : Bool
  data : Nat → α

namespace Ringbuffer

variable {α : Type} (size : RingbufferSize) (buffer : Ringbuffer α)

/-- `ringbuffer_init`, which leaves the array as it is. -/
def init (data : Nat → α) : Ringbuffer α := ⟨0, 0, true, false, data⟩

/-- `ringbuffer_length`. -/
def length : Int :=
  if buffer.full then size.val
  else ((buffer.head + size.word - buffer.tail) % size.word).toNat

/-- The locked section of `ringbuffer_get`. -/
def load : α × Ringbuffer α :=
  let tail := (buffer.tail + 1) % size.word
  (buffer.data buffer.tail.toNat,
    { buffer with tail := tail, empty := decide (buffer.head = tail), full := false })

/-- The locked section of `ringbuffer_put` and `ringbuffer_ensure_put` behind the second
test of `full`. -/
def store (item : α) : Ringbuffer α :=
  let head := (buffer.head + 1) % size.word
  { buffer with
    data := Function.update buffer.data buffer.head.toNat item
    head := head
    full := decide (head = buffer.tail)
    empty := false }

end Ringbuffer

/-! ## Threads -/

/-- Where a producer stands. -/
inductive ProducerPc (α : Type)
  | idle
  | putLock (item : α)
  | ensureWait (item : α)
  | ensureLock (item : α)

/-- Where the consumer stands: outside `get`, or before its locked section. -/
inductive ConsumerPc
  | idle
  | getLock
  deriving DecidableEq

/-- A step: a producer calls `put` and reads `full`, or calls `ensure_put`, or goes on; the
consumer calls `get` and reads `empty`, or goes on. -/
inductive RingEvent (ι α : Type)
  | put (producer : ι) (item : α)
  | ensurePut (producer : ι) (item : α)
  | producer (producer : ι)
  | get
  | consumer

/-- What a call that ends in a step returns. -/
inductive RingAnswer (ι α : Type)
  | put (producer : ι) (item : α) (code : Int)
  | ensurePut (producer : ι) (item : α)
  | get (code : Int) (item : Option α)

/-- The buffer and its threads, and the items that locked sections have stored and
taken. -/
structure RingThreads (ι α : Type) where
  buffer : Ringbuffer α
  producers : ι → ProducerPc α
  consumer : ConsumerPc
  accepted : List α
  taken : List α

namespace RingThreads

variable {ι α : Type} [DecidableEq ι]

/-- After `ringbuffer_init`, with no call under way. -/
def start (data : Nat → α) : RingThreads ι α := ⟨.init data, fun _ => .idle, .idle, [], []⟩

def goTo (threads : RingThreads ι α) (producer : ι) (pc : ProducerPc α) : RingThreads ι α :=
  { threads with producers := Function.update threads.producers producer pc }

/-- A producer stores its item and returns. -/
def accept (size : RingbufferSize) (threads : RingThreads ι α) (producer : ι) (item : α) :
    RingThreads ι α :=
  { threads.goTo producer .idle with
    buffer := threads.buffer.store size item
    accepted := threads.accepted ++ [item] }

/-- A producer going on with its call. -/
def producerStep (size : RingbufferSize) (threads : RingThreads ι α) (producer : ι) :
    RingThreads ι α × Option (RingAnswer ι α) :=
  match threads.producers producer with
  | .idle => (threads, none)
  | .putLock item =>
      if threads.buffer.full then (threads.goTo producer .idle, some (.put producer item 1))
      else (threads.accept size producer item, some (.put producer item 0))
  | .ensureWait item =>
      if threads.buffer.full then (threads, none)
      else (threads.goTo producer (.ensureLock item), none)
  | .ensureLock item =>
      if threads.buffer.full then (threads.goTo producer (.ensureWait item), none)
      else (threads.accept size producer item, some (.ensurePut producer item))

/-- One step, and the answer of a call that ends in it. A thread that cannot take the step
stays where it is. -/
def step (size : RingbufferSize) (threads : RingThreads ι α) :
    RingEvent ι α → RingThreads ι α × Option (RingAnswer ι α)
  | .put producer item =>
      match threads.producers producer with
      | .idle =>
          if threads.buffer.full then (threads, some (.put producer item 1))
          else (threads.goTo producer (.putLock item), none)
      | _ => (threads, none)
  | .ensurePut producer item =>
      match threads.producers producer with
      | .idle => (threads.goTo producer (.ensureWait item), none)
      | _ => (threads, none)
  | .producer producer => threads.producerStep size producer
  | .get =>
      match threads.consumer with
      | .idle =>
          if threads.buffer.empty then (threads, some (.get (-1) none))
          else ({ threads with consumer := .getLock }, none)
      | .getLock => (threads, none)
  | .consumer =>
      match threads.consumer with
      | .idle => (threads, none)
      | .getLock =>
          let (item, buffer) := threads.buffer.load size
          ({ threads with
              buffer := buffer
              consumer := .idle
              taken := threads.taken ++ [item] },
            some (.get 0 (some item)))

/-- The state after a sequence of steps. -/
def run (size : RingbufferSize) (threads : RingThreads ι α) (events : List (RingEvent ι α)) :
    RingThreads ι α :=
  events.foldl (fun threads event => (threads.step size event).1) threads

/-- The number of items stored and not yet taken. -/
def queueLength (threads : RingThreads ι α) : Nat :=
  threads.accepted.length - threads.taken.length

end RingThreads

/-! ## What an answer means -/

/-- The items that an answer reports as stored. -/
def RingAnswer.stored {ι α : Type} : Option (RingAnswer ι α) → List α
  | some (.put _ item code) => if code = 0 then [item] else []
  | some (.ensurePut _ item) => [item]
  | _ => []

/-- The items that an answer reports as taken. -/
def RingAnswer.loaded {ι α : Type} : Option (RingAnswer ι α) → List α
  | some (.get code item) => if code = 0 then item.toList else []
  | _ => []

/-- What the codes of an answer say about the number of items at that moment. -/
def RingAnswer.Means {ι α : Type} (size : RingbufferSize) (queueLength : Nat) :
    Option (RingAnswer ι α) → Prop
  | none => True
  | some (.put _ _ code) => code = 0 ∨ code = 1 ∧ queueLength = size.val
  | some (.ensurePut _ _) => True
  | some (.get code item) =>
      code = 0 ∧ 0 < queueLength ∧ item.isSome = true ∨ code = -1 ∧ queueLength = 0

/-- A step stores exactly the item of a `put` that returns `0` in it, or of an `ensure_put`
that returns in it, and takes exactly the item of a `get` that returns `0` in it. -/
structure RingThreads.Answers {ι α : Type} [DecidableEq ι] (size : RingbufferSize)
    (threads : RingThreads ι α) (event : RingEvent ι α) : Prop where
  accepted : (threads.step size event).1.accepted =
    threads.accepted ++ RingAnswer.stored (threads.step size event).2
  taken : (threads.step size event).1.taken =
    threads.taken ++ RingAnswer.loaded (threads.step size event).2
  means : RingAnswer.Means size threads.queueLength (threads.step size event).2

/-! ## The buffer holds a queue -/

/-- The ring holds the queue `items`, and the flags say when it is empty or full. -/
structure Ringbuffer.Represents {α : Type} (size : RingbufferSize) (buffer : Ringbuffer α)
    (items : List α) : Prop where
  holds : Holds size.val buffer.data buffer.tail.toNat buffer.head.toNat items
  empty : buffer.empty = true ↔ items.length = 0
  full : buffer.full = true ↔ items.length = size.val

theorem RingbufferSize.toNat_word (size : RingbufferSize) : size.word.toNat = size.val := by
  have small := size.isInt
  exact UInt32.toNat_ofNat_of_lt' (by simp only [UInt32.size]; omega)

/-- The step to the next cell does not overflow. -/
theorem RingbufferSize.toNat_next (size : RingbufferSize) {index : UInt32}
    (inside : index.toNat < size.val) :
    ((index + 1) % size.word).toNat = (index.toNat + 1) % size.val := by
  have small := size.isInt
  rw [UInt32.toNat_mod, size.toNat_word, UInt32.toNat_add, UInt32.toNat_one,
    Nat.mod_eq_of_lt (by omega : index.toNat + 1 < 2 ^ 32)]

namespace Ringbuffer.Represents

variable {α : Type} {size : RingbufferSize} {buffer : Ringbuffer α} {items : List α} {x : α}

theorem init (size : RingbufferSize) (data : Nat → α) : (Ringbuffer.init data).Represents size [] where
  holds := .nil size.pos
  empty := by simp [Ringbuffer.init]
  full := by
    have pos := size.pos
    simp only [Ringbuffer.init, Bool.false_eq_true, List.length_nil, false_iff]
    omega

theorem store (rep : buffer.Represents size items) (free : buffer.full ≠ true) :
    (buffer.store size x).Represents size (items ++ [x]) := by
  have fits := rep.holds.fits
  have room : items.length < size.val := by
    have notFull := mt rep.full.mpr free
    omega
  have pushed : Holds size.val (buffer.store size x).data (buffer.store size x).tail.toNat
      (buffer.store size x).head.toNat (items ++ [x]) := by
    change Holds size.val (Function.update buffer.data buffer.head.toNat x) buffer.tail.toNat
      ((buffer.head + 1) % size.word).toNat (items ++ [x])
    rw [size.toNat_next rep.holds.head_lt]
    exact rep.holds.push room
  refine ⟨pushed, ?_, ?_⟩
  · simp [Ringbuffer.store]
  · change decide ((buffer.store size x).head = (buffer.store size x).tail) = true ↔ _
    rw [decide_eq_true_iff, ← UInt32.toNat_inj, pushed.head_eq_tail_iff, List.length_append,
      List.length_singleton]
    omega

theorem load (rep : buffer.Represents size (x :: items)) :
    (buffer.load size).1 = x ∧ (buffer.load size).2.Represents size items := by
  obtain ⟨first, rest⟩ := rep.holds.pop
  have fits := rep.holds.fits
  rw [List.length_cons] at fits
  have popped : Holds size.val (buffer.load size).2.data (buffer.load size).2.tail.toNat
      (buffer.load size).2.head.toNat items := by
    change Holds size.val buffer.data ((buffer.tail + 1) % size.word).toNat buffer.head.toNat items
    rw [size.toNat_next rep.holds.tail_lt]
    exact rest
  refine ⟨first, popped, ?_, ?_⟩
  · change decide ((buffer.load size).2.head = (buffer.load size).2.tail) = true ↔ _
    rw [decide_eq_true_iff, ← UInt32.toNat_inj, popped.head_eq_tail_iff]
    omega
  · change false = true ↔ _
    simp only [Bool.false_eq_true, false_iff]
    omega

theorem length (rep : buffer.Represents size items) : buffer.length size = items.length := by
  have small := size.isInt
  have head := rep.holds.head_lt
  have tail := rep.holds.tail_lt
  unfold Ringbuffer.length
  split
  · rename_i full
    rw [rep.full.mp full]
  · rename_i notFull
    have room : items.length < size.val := by
      have fits := rep.holds.fits
      have other := mt rep.full.mpr notFull
      omega
    rw [UInt32.toNat_mod, size.toNat_word, UInt32.toNat_sub, UInt32.toNat_add, size.toNat_word,
      Nat.mod_eq_of_lt (by omega : buffer.head.toNat + size.val < 2 ^ 32),
      show 2 ^ 32 - buffer.tail.toNat + (buffer.head.toNat + size.val) =
        buffer.head.toNat + size.val - buffer.tail.toNat + 2 ^ 32 by omega, Nat.add_mod_right,
      Nat.mod_eq_of_lt (by omega : buffer.head.toNat + size.val - buffer.tail.toNat < 2 ^ 32),
      rep.holds.distance room]

end Ringbuffer.Represents

/-! ## Every interleaving -/

namespace RingThreads

variable {ι α : Type} [DecidableEq ι] {size : RingbufferSize} {threads : RingThreads ι α}

/-- The buffer holds what has been accepted and not yet taken, and the consumer only
enters its locked section when there is something to take. -/
def Sound (size : RingbufferSize) (threads : RingThreads ι α) : Prop :=
  ∃ items, threads.buffer.Represents size items ∧ threads.accepted = threads.taken ++ items ∧
    (threads.consumer = .getLock → items ≠ [])

omit [DecidableEq ι] in
theorem start_sound (size : RingbufferSize) (data : Nat → α) :
    (start data : RingThreads ι α).Sound size :=
  ⟨[], .init size data, rfl, fun place => by cases place⟩

/-- Moving a producer changes nothing else. -/
theorem Sound.goTo (sound : threads.Sound size) (producer : ι) (pc : ProducerPc α) :
    (threads.goTo producer pc).Sound size := sound

theorem Sound.accept (sound : threads.Sound size) (free : threads.buffer.full ≠ true)
    (producer : ι) (item : α) : (threads.accept size producer item).Sound size := by
  obtain ⟨items, rep, accepted, _⟩ := sound
  refine ⟨items ++ [item], rep.store free, ?_, fun _ => by simp⟩
  change threads.accepted ++ [item] = threads.taken ++ (items ++ [item])
  rw [accepted, List.append_assoc]

theorem Sound.producerStep (sound : threads.Sound size) (producer : ι) :
    (threads.producerStep size producer).1.Sound size := by
  unfold RingThreads.producerStep
  split
  · exact sound
  · split
    · exact sound
    · rename_i free
      exact sound.accept free producer _
  · split
    · exact sound
    · exact sound
  · split
    · exact sound
    · rename_i free
      exact sound.accept free producer _

theorem Sound.step (sound : threads.Sound size) (event : RingEvent ι α) :
    (threads.step size event).1.Sound size := by
  cases event with
  | put producer item =>
      simp only [RingThreads.step]
      split
      · split <;> exact sound
      · exact sound
  | ensurePut producer item =>
      simp only [RingThreads.step]
      split <;> exact sound
  | producer producer => exact sound.producerStep producer
  | get =>
      simp only [RingThreads.step]
      split
      · split
        · exact sound
        · rename_i filled
          obtain ⟨items, rep, accepted, _⟩ := sound
          refine ⟨items, rep, accepted, fun _ none => filled (rep.empty.mpr ?_)⟩
          rw [none, List.length_nil]
      · exact sound
  | consumer =>
      simp only [RingThreads.step]
      split
      · exact sound
      · rename_i place
        obtain ⟨items, rep, accepted, filled⟩ := sound
        obtain ⟨x, rest, rfl⟩ := List.exists_cons_of_ne_nil (filled place)
        obtain ⟨first, rep'⟩ := rep.load
        refine ⟨rest, rep', ?_, fun impossible => by cases impossible⟩
        change threads.accepted = threads.taken ++ [(threads.buffer.load size).1] ++ rest
        rw [first, accepted, List.append_assoc]
        rfl

theorem Sound.run (events : List (RingEvent ι α)) :
    ∀ {threads : RingThreads ι α}, threads.Sound size → (threads.run size events).Sound size := by
  induction events with
  | nil =>
      intro threads sound
      exact sound
  | cons event events ih =>
      intro threads sound
      exact ih (sound.step event)

omit [DecidableEq ι] in
theorem Sound.queueLength {items : List α} (accepted : threads.accepted = threads.taken ++ items) :
    threads.queueLength = items.length := by
  unfold RingThreads.queueLength
  rw [accepted, List.length_append, Nat.add_sub_cancel_left]

theorem Answers.of_eq {threads' : RingThreads ι α} {event : RingEvent ι α}
    {answer : Option (RingAnswer ι α)} (equal : threads.step size event = (threads', answer))
    (accepted : threads'.accepted = threads.accepted ++ RingAnswer.stored answer)
    (taken : threads'.taken = threads.taken ++ RingAnswer.loaded answer)
    (means : RingAnswer.Means size threads.queueLength answer) : threads.Answers size event := by
  constructor <;> rw [equal]
  · exact accepted
  · exact taken
  · exact means

/-- A step that neither stores nor takes anything and ends no call. -/
theorem Answers.silent {threads' : RingThreads ι α} {event : RingEvent ι α}
    (equal : threads.step size event = (threads', none))
    (accepted : threads'.accepted = threads.accepted) (taken : threads'.taken = threads.taken) :
    threads.Answers size event :=
  .of_eq equal (by rw [accepted]; exact (List.append_nil _).symm)
    (by rw [taken]; exact (List.append_nil _).symm) True.intro

/-- The end of a `put` that found the buffer full. -/
theorem Answers.refused {threads' : RingThreads ι α} {event : RingEvent ι α} {producer : ι}
    {item : α} (equal : threads.step size event = (threads', some (.put producer item 1)))
    (accepted : threads'.accepted = threads.accepted) (taken : threads'.taken = threads.taken)
    (full : threads.queueLength = size.val) : threads.Answers size event :=
  .of_eq equal (by rw [accepted]; exact (List.append_nil _).symm)
    (by rw [taken]; exact (List.append_nil _).symm) (Or.inr ⟨rfl, full⟩)

theorem Sound.answers_producer {items : List α} (rep : threads.buffer.Represents size items)
    (queueLength : threads.queueLength = items.length) (producer : ι) :
    threads.Answers size (.producer producer) := by
  have equal : threads.step size (.producer producer) = threads.producerStep size producer := rfl
  unfold RingThreads.producerStep at equal
  by_cases full : threads.buffer.full = true
  · simp only [if_pos full] at equal
    cases place : threads.producers producer with
    | idle =>
        rw [place] at equal
        exact .silent equal rfl rfl
    | putLock item =>
        rw [place] at equal
        exact .refused equal rfl rfl (queueLength.trans (rep.full.mp full))
    | ensureWait item =>
        rw [place] at equal
        exact .silent equal rfl rfl
    | ensureLock item =>
        rw [place] at equal
        exact .silent equal rfl rfl
  · simp only [if_neg full] at equal
    cases place : threads.producers producer with
    | idle =>
        rw [place] at equal
        exact .silent equal rfl rfl
    | putLock item =>
        rw [place] at equal
        exact .of_eq equal rfl (List.append_nil _).symm (Or.inl rfl)
    | ensureWait item =>
        rw [place] at equal
        exact .silent equal rfl rfl
    | ensureLock item =>
        rw [place] at equal
        exact .of_eq equal rfl (List.append_nil _).symm True.intro

/-- A producer that calls an operation. -/
theorem Sound.answers_call {items : List α} (rep : threads.buffer.Represents size items)
    (queueLength : threads.queueLength = items.length) (producer : ι) (item : α) :
    threads.Answers size (.put producer item) ∧ threads.Answers size (.ensurePut producer item) := by
  have put := RingThreads.step.eq_1 size threads producer item
  have ensurePut := RingThreads.step.eq_2 size threads producer item
  cases place : threads.producers producer with
  | idle =>
      simp only [place] at put ensurePut
      refine ⟨?_, .silent ensurePut rfl rfl⟩
      by_cases full : threads.buffer.full = true
      · rw [if_pos full] at put
        exact .refused put rfl rfl (queueLength.trans (rep.full.mp full))
      · rw [if_neg full] at put
        exact .silent put rfl rfl
  | putLock other =>
      simp only [place] at put ensurePut
      exact ⟨.silent put rfl rfl, .silent ensurePut rfl rfl⟩
  | ensureWait other =>
      simp only [place] at put ensurePut
      exact ⟨.silent put rfl rfl, .silent ensurePut rfl rfl⟩
  | ensureLock other =>
      simp only [place] at put ensurePut
      exact ⟨.silent put rfl rfl, .silent ensurePut rfl rfl⟩

/-- What a step returns is what it has done. -/
theorem Sound.answers (sound : threads.Sound size) (event : RingEvent ι α) :
    threads.Answers size event := by
  obtain ⟨items, rep, accepted, filled⟩ := sound
  have queueLength := Sound.queueLength accepted
  cases event with
  | put producer item => exact (Sound.answers_call rep queueLength producer item).1
  | ensurePut producer item => exact (Sound.answers_call rep queueLength producer item).2
  | producer producer => exact Sound.answers_producer rep queueLength producer
  | get =>
      have equal := RingThreads.step.eq_4 size threads
      cases place : threads.consumer with
      | idle =>
          simp only [place] at equal
          by_cases empty : threads.buffer.empty = true
          · rw [if_pos empty] at equal
            exact .of_eq equal (List.append_nil _).symm (List.append_nil _).symm
              (Or.inr ⟨rfl, queueLength.trans (rep.empty.mp empty)⟩)
          · rw [if_neg empty] at equal
            exact .silent equal rfl rfl
      | getLock =>
          simp only [place] at equal
          exact .silent equal rfl rfl
  | consumer =>
      have equal := RingThreads.step.eq_5 size threads
      cases place : threads.consumer with
      | idle =>
          simp only [place] at equal
          exact .silent equal rfl rfl
      | getLock =>
          simp only [place] at equal
          have some := List.length_pos_iff.mpr (filled place)
          exact .of_eq equal (List.append_nil _).symm rfl (Or.inl ⟨rfl, by omega, rfl⟩)

end RingThreads

/-- In every state that any number of producers and one consumer can reach, in any order of
their steps: the items taken are a prefix of the items accepted, `empty` and `full` say
whether as many as none or as the buffer's size lie in between, `length` returns their
number, and the next step of any thread returns what it does. -/
theorem ringbuffer_lossless_fifo {ι α : Type} [DecidableEq ι] (size : RingbufferSize)
    (data : Nat → α) (events : List (RingEvent ι α)) :
    let threads := (RingThreads.start data : RingThreads ι α).run size events
    threads.taken <+: threads.accepted ∧
    (threads.buffer.empty = true ↔ threads.queueLength = 0) ∧
    (threads.buffer.full = true ↔ threads.queueLength = size.val) ∧
    threads.buffer.length size = threads.queueLength ∧
    ∀ event, threads.Answers size event := by
  intro threads
  have sound : threads.Sound size := .run events (RingThreads.start_sound size data)
  have answers := sound.answers
  obtain ⟨items, rep, accepted, _⟩ := sound
  rw [RingThreads.Sound.queueLength accepted]
  exact ⟨⟨items, accepted.symm⟩, rep.empty, rep.full, rep.length, answers⟩

end Marina
