import Marina.Lib.Cyclic

/-!
# Linear probing with backward-shift deletion

An open-addressing table keeps its bindings in a ring of slots. A key is looked for
from its home position forward until its slot or an unoccupied slot is met
(`probe`), and a deletion moves later entries back into the hole it leaves, as long
as that keeps them at or behind their home (`backShift`).

The table is well formed (`Wf`) when every entry caches the hash of its key, no two
entries have the same key part, and every position on the walk from an entry's home
to the entry is occupied. `live` is the multiset of bindings the slots hold: it is all
that lookups see, an insertion adds one binding to it and a deletion takes one away.

A table may carry more than its slots (counters, reverse maps). `Mover` is such a
table together with what it does when one entry moves, and `backShift_returns` is the
invariant rule for the whole shifting loop.
-/

namespace Marina.Lib.LinearProbing

open Cyclic

/-- One position of the table. The other fields keep their last contents while the
position is unoccupied. -/
structure Slot (K V H : Type) where
  key : K
  value : V
  hash : H
  occupied : Bool

/-- The fixed data of a table: its size, the part of a key it compares, the hash of
that part, the home position of a hash, and the test for moving the entry at `item`,
whose home is `desired`, to the unoccupied position `empty`. -/
structure Layout (K κ H : Type) where
  size : Nat
  part : K → κ
  hash : κ → H
  home : H → Nat
  home_lt : ∀ hash, home hash < size
  canMove : (desired empty item : Nat) → Bool
  canMove_iff : ∀ {desired empty item}, desired < size → empty < size → item < size →
    (canMove desired empty item = true ↔
      ahead size desired empty < ahead size desired item)

variable {ε T K κ V H : Type}

/-- Walk forward from `index` to the slot that holds the key part `k`, or to the
first unoccupied slot. -/
def probe [DecidableEq κ] [DecidableEq H] (L : Layout K κ H) (slots : Nat → Slot K V H)
    (k : κ) (hash : H) (i : Nat) : Exec ε (Bool × Nat) :=
  if (slots i).occupied = false then
    pure (false, i)
  else if (slots i).hash = hash ∧ L.part (slots i).key = k then
    pure (true, i)
  else
    -- Only the position changes from pass to pass.
    (probe L slots k (i := (i + 1) % L.size)) hash
partial_fixpoint

/-- The slots after the entry at `src` has moved to `dst`. -/
def moveSlot (slots : Nat → Slot K V H) (src dst : Nat) : Nat → Slot K V H :=
  Function.update
    (Function.update slots src { slots src with occupied := false })
    dst { slots src with occupied := true }

/-- A table with slots, and its update when one entry moves. -/
structure Mover (T K V H : Type) where
  slots : T → Nat → Slot K V H
  move : T → (src dst : Nat) → T
  slots_move : ∀ t src dst, slots (move t src dst) = moveSlot (slots t) src dst

/-- Walk forward from the hole `empty`, moving back every entry that may take it,
until an unoccupied slot ends the cluster. -/
def backShift (L : Layout K κ H) (M : Mover T K V H) (t : T) (empty i : Nat) : Exec ε T :=
  if (M.slots t ((i + 1) % L.size)).occupied = false then
    pure t
  else if (i + 1) % L.size ≠ L.home (M.slots t ((i + 1) % L.size)).hash ∧
      L.canMove (L.home (M.slots t ((i + 1) % L.size)).hash) empty ((i + 1) % L.size) = true then
    (backShift L M (M.move t ((i + 1) % L.size) empty) (i := (i + 1) % L.size))
      ((i + 1) % L.size)
  else
    (backShift L M t (i := (i + 1) % L.size)) empty
partial_fixpoint

/-! ## The bindings a table holds -/

/-- The binding in a slot, if any. -/
def Slot.entry (slot : Slot K V H) : Multiset (K × V) :=
  if slot.occupied then {(slot.key, slot.value)} else 0

theorem Slot.entry_of_occupied {slot : Slot K V H} (occupied : slot.occupied = true) :
    slot.entry = {(slot.key, slot.value)} := if_pos occupied

theorem Slot.entry_of_free {slot : Slot K V H} (free : slot.occupied = false) :
    slot.entry = 0 := if_neg (by simp [free])

/-- The bindings held by the first `n` slots. -/
def live (n : Nat) (slots : Nat → Slot K V H) : Multiset (K × V) :=
  ∑ i ∈ Finset.range n, (slots i).entry

section Live

variable {n i : Nat} {slots : Nat → Slot K V H}

theorem mem_live {binding : K × V} :
    binding ∈ live n slots ↔
      ∃ i < n, (slots i).occupied = true ∧ (slots i).key = binding.1 ∧
        (slots i).value = binding.2 := by
  unfold live
  rw [Multiset.mem_sum]
  constructor
  · intro given
    rcases given with ⟨i, inside, held⟩
    rw [Finset.mem_range] at inside
    by_cases occupied : (slots i).occupied = true
    · rw [Slot.entry_of_occupied occupied, Multiset.mem_singleton] at held
      exact ⟨i, inside, occupied, by rw [held], by rw [held]⟩
    · rw [Slot.entry_of_free (by simpa using occupied)] at held
      exact absurd held (Multiset.notMem_zero _)
  · intro given
    rcases given with ⟨i, inside, occupied, key, value⟩
    refine ⟨i, Finset.mem_range.mpr inside, ?_⟩
    rw [Slot.entry_of_occupied occupied, Multiset.mem_singleton, key, value]

theorem entry_mem_live (inside : i < n) (occupied : (slots i).occupied = true) :
    ((slots i).key, (slots i).value) ∈ live n slots :=
  mem_live.mpr ⟨i, inside, occupied, rfl, rfl⟩

/-- Rewriting one slot exchanges its binding. -/
theorem live_update (slots : Nat → Slot K V H) (inside : i < n) (slot : Slot K V H) :
    live n (Function.update slots i slot) + (slots i).entry = live n slots + slot.entry := by
  have member : i ∈ Finset.range n := Finset.mem_range.mpr inside
  have entries : (fun j => (Function.update slots i slot j).entry) =
      Function.update (fun j => (slots j).entry) i slot.entry := by
    funext j
    by_cases same : j = i
    · subst same
      simp
    · simp [Function.update_of_ne same]
  unfold live
  rw [entries, Finset.sum_update_of_mem member, ← Finset.add_sum_erase _ _ member,
    ← Finset.erase_eq]
  abel

theorem live_insert (inside : i < n) (free : (slots i).occupied = false)
    (slot : Slot K V H) (occupied : slot.occupied = true) :
    live n (Function.update slots i slot) = (slot.key, slot.value) ::ₘ live n slots := by
  have exchanged := live_update slots inside slot
  rw [Slot.entry_of_free free, add_zero, Slot.entry_of_occupied occupied] at exchanged
  rw [exchanged, add_comm, Multiset.singleton_add]

theorem live_clear (inside : i < n) (occupied : (slots i).occupied = true)
    (slot : Slot K V H) (free : slot.occupied = false) :
    live n slots =
      ((slots i).key, (slots i).value) ::ₘ live n (Function.update slots i slot) := by
  have exchanged := live_update slots inside slot
  rw [Slot.entry_of_free free, add_zero, Slot.entry_of_occupied occupied] at exchanged
  rw [← exchanged, add_comm, Multiset.singleton_add]

/-- Overwriting the value of an entry exchanges its binding. -/
theorem live_setValue (inside : i < n) (occupied : (slots i).occupied = true) (value : V) :
    ∃ others, live n slots = ((slots i).key, (slots i).value) ::ₘ others ∧
      live n (Function.update slots i { slots i with value := value }) =
        ((slots i).key, value) ::ₘ others := by
  have taken := live_clear inside occupied { slots i with occupied := false } rfl
  refine ⟨_, taken, ?_⟩
  have exchanged := live_update slots inside { slots i with value := value }
  have entry : Slot.entry { slots i with value := value } = {((slots i).key, value)} :=
    Slot.entry_of_occupied occupied
  rw [taken, Slot.entry_of_occupied occupied, entry] at exchanged
  rw [add_comm, Multiset.singleton_add, Multiset.cons_add] at exchanged
  have rest := (Multiset.cons_inj_right _).mp exchanged
  rw [rest, add_comm, Multiset.singleton_add]

theorem live_eq_zero (empty : ∀ i < n, (slots i).occupied = false) : live n slots = 0 :=
  Finset.sum_eq_zero fun i inside => Slot.entry_of_free (empty i (Finset.mem_range.mp inside))

theorem Slot.card_entry_le (slot : Slot K V H) : slot.entry.card ≤ 1 := by
  unfold Slot.entry
  split <;> simp

theorem card_live_le : (live n slots).card ≤ n := by
  unfold live
  rw [Multiset.card_sum]
  calc ∑ j ∈ Finset.range n, ((slots j).entry).card
      ≤ ∑ _j ∈ Finset.range n, 1 := Finset.sum_le_sum fun j _ => (slots j).card_entry_le
    _ = n := by rw [Finset.sum_const, Finset.card_range, smul_eq_mul, mul_one]

/-- A table with as many bindings as slots has no unoccupied slot. -/
theorem occupied_of_full (full : (live n slots).card = n) :
    ∀ i < n, (slots i).occupied = true := by
  intro i inside
  by_contra free
  have missing : ((slots i).entry).card < 1 := by
    rw [Slot.entry_of_free (by simpa using free), Multiset.card_zero]
    exact Nat.one_pos
  have fewer : ∑ j ∈ Finset.range n, ((slots j).entry).card < ∑ _j ∈ Finset.range n, 1 :=
    Finset.sum_lt_sum (fun j _ => (slots j).card_entry_le)
      ⟨i, Finset.mem_range.mpr inside, missing⟩
  rw [← Multiset.card_sum, Finset.sum_const, Finset.card_range, smul_eq_mul, mul_one] at fewer
  unfold live at full
  omega

/-- A table with fewer bindings than slots has an unoccupied slot. -/
theorem exists_free (room : (live n slots).card < n) :
    ∃ i < n, (slots i).occupied = false := by
  by_contra full
  push Not at full
  have entries : ∀ i ∈ Finset.range n, ((slots i).entry).card = 1 := by
    intro i inside
    rw [Slot.entry_of_occupied (by simpa using full i (Finset.mem_range.mp inside)),
      Multiset.card_singleton]
  have count : (live n slots).card = n := by
    unfold live
    rw [Multiset.card_sum, Finset.sum_congr rfl entries, Finset.sum_const,
      Finset.card_range, smul_eq_mul, mul_one]
  omega

end Live

attribute [irreducible] live

/-! ## Well-formed tables -/

section WellFormed

variable {L : Layout K κ H} {slots : Nat → Slot K V H}

/-- Every position on the walk from an entry's home to the entry is occupied, the
position `hole` excepted. -/
def PathsOccupied (L : Layout K κ H) (slots : Nat → Slot K V H) (hole : Option Nat) : Prop :=
  ∀ j < L.size, (slots j).occupied = true → ∀ x < L.size,
    ahead L.size (L.home (slots j).hash) x < ahead L.size (L.home (slots j).hash) j →
    some x ≠ hole → (slots x).occupied = true

/-- Entries cache the hash of their key part, and their key parts are distinct. -/
structure Keyed (L : Layout K κ H) (slots : Nat → Slot K V H) : Prop where
  hash_eq : ∀ i < L.size, (slots i).occupied = true →
    (slots i).hash = L.hash (L.part (slots i).key)
  inj : ∀ i < L.size, (slots i).occupied = true → ∀ j < L.size, (slots j).occupied = true →
    L.part (slots i).key = L.part (slots j).key → i = j

/-- A table in which every entry can be found. -/
structure Wf (L : Layout K κ H) (slots : Nat → Slot K V H) : Prop extends Keyed L slots where
  paths : PathsOccupied L slots none

theorem Wf.of_empty (empty : ∀ i < L.size, (slots i).occupied = false) : Wf L slots where
  hash_eq i inside occupied := by simp [empty i inside] at occupied
  inj i inside occupied := by simp [empty i inside] at occupied
  paths i inside occupied := by simp [empty i inside] at occupied

/-- One key part has one binding. -/
theorem Keyed.binding_unique (keyed : Keyed L slots) {a b : K × V}
    (ha : a ∈ live L.size slots) (hb : b ∈ live L.size slots)
    (same : L.part a.1 = L.part b.1) : a = b := by
  obtain ⟨i, hi, occupiedI, keyI, valueI⟩ := mem_live.mp ha
  obtain ⟨j, hj, occupiedJ, keyJ, valueJ⟩ := mem_live.mp hb
  rw [← keyI, ← keyJ] at same
  have equal := keyed.inj i hi occupiedI j hj occupiedJ same
  subst equal
  exact Prod.ext (keyI.symm.trans keyJ) (valueI.symm.trans valueJ)

/-- No binding occurs twice. -/
theorem Keyed.live_nodup (keyed : Keyed L slots) : (live L.size slots).Nodup := by
  classical
  have held : ∀ (binding : K × V) i, Multiset.count binding (slots i).entry ≠ 0 →
      (slots i).occupied = true ∧ (slots i).key = binding.1 := by
    intro binding i counted
    by_cases occupied : (slots i).occupied = true
    · refine ⟨occupied, ?_⟩
      have member := Multiset.count_ne_zero.mp counted
      rw [Slot.entry_of_occupied occupied, Multiset.mem_singleton] at member
      rw [member]
    · rw [Slot.entry_of_free (by simpa using occupied), Multiset.count_zero] at counted
      exact absurd rfl counted
  rw [Multiset.nodup_iff_count_le_one]
  intro binding
  unfold live
  rw [Multiset.count_sum']
  by_cases absent : ∀ i ∈ Finset.range L.size, Multiset.count binding (slots i).entry = 0
  · rw [Finset.sum_eq_zero absent]
    exact Nat.zero_le _
  · push Not at absent
    obtain ⟨i, inside, counted⟩ := absent
    obtain ⟨occupiedI, keyI⟩ := held binding i counted
    have others : ∀ j ∈ Finset.range L.size, j ≠ i →
        Multiset.count binding (slots j).entry = 0 := by
      intro j insideJ other
      by_contra countedJ
      obtain ⟨occupiedJ, keyJ⟩ := held binding j countedJ
      exact other (keyed.inj j (Finset.mem_range.mp insideJ) occupiedJ i
        (Finset.mem_range.mp inside) occupiedI (by rw [keyJ, keyI]))
    rw [Finset.sum_eq_single i others (fun outside => absurd inside outside),
      Slot.entry_of_occupied occupiedI]
    exact Multiset.nodup_iff_count_le_one.mp (Multiset.nodup_singleton _) binding

/-- Placing a new key part at the end of its walk keeps the table well formed. -/
theorem Wf.insert (wf : Wf L slots) {i : Nat} (inside : i < L.size)
    {slot : Slot K V H} (filled : slot.occupied = true)
    (hash : slot.hash = L.hash (L.part slot.key))
    (walk : ∀ x < L.size, ahead L.size (L.home slot.hash) x < ahead L.size (L.home slot.hash) i →
      (slots x).occupied = true)
    (absent : ∀ j < L.size, (slots j).occupied = true → L.part (slots j).key ≠ L.part slot.key) :
    Wf L (Function.update slots i slot) where
  hash_eq j hj occupied := by
    by_cases same : j = i
    · subst same
      rw [Function.update_self]
      exact hash
    · rw [Function.update_of_ne same] at occupied ⊢
      exact wf.hash_eq j hj occupied
  inj j hj occupiedJ k hk occupiedK parts := by
    by_cases sameJ : j = i <;> by_cases sameK : k = i
    · rw [sameJ, sameK]
    · subst sameJ
      rw [Function.update_self, Function.update_of_ne sameK] at parts
      rw [Function.update_of_ne sameK] at occupiedK
      exact absurd parts.symm (absent k hk occupiedK)
    · subst sameK
      rw [Function.update_self, Function.update_of_ne sameJ] at parts
      rw [Function.update_of_ne sameJ] at occupiedJ
      exact absurd parts (absent j hj occupiedJ)
    · rw [Function.update_of_ne sameJ] at occupiedJ parts
      rw [Function.update_of_ne sameK] at occupiedK parts
      exact wf.inj j hj occupiedJ k hk occupiedK parts
  paths j hj occupied x hx between _ := by
    by_cases target : x = i
    · subst target
      rw [Function.update_self]
      exact filled
    · rw [Function.update_of_ne target]
      by_cases same : j = i
      · subst same
        rw [Function.update_self] at between
        exact walk x hx between
      · rw [Function.update_of_ne same] at occupied between
        exact wf.paths j hj occupied x hx between (by simp)

/-- Overwriting the value of an entry keeps the table well formed. -/
theorem Wf.setValue (wf : Wf L slots) {i : Nat} (value : V) :
    Wf L (Function.update slots i { slots i with value := value }) := by
  have same : ∀ j, (Function.update slots i { slots i with value := value } j).key =
        (slots j).key ∧
      (Function.update slots i { slots i with value := value } j).hash = (slots j).hash ∧
      (Function.update slots i { slots i with value := value } j).occupied =
        (slots j).occupied := by
    intro j
    by_cases here : j = i
    · subst here
      rw [Function.update_self]
      exact ⟨rfl, rfl, rfl⟩
    · rw [Function.update_of_ne here]
      exact ⟨rfl, rfl, rfl⟩
  constructor
  · constructor
    · intro j hj occupied
      rw [(same j).2.2] at occupied
      rw [(same j).1, (same j).2.1]
      exact wf.hash_eq j hj occupied
    · intro j hj occupiedJ k hk occupiedK parts
      rw [(same j).2.2] at occupiedJ
      rw [(same k).2.2] at occupiedK
      rw [(same j).1, (same k).1] at parts
      exact wf.inj j hj occupiedJ k hk occupiedK parts
  · intro j hj occupied x hx between notHole
    rw [(same j).2.2] at occupied
    rw [(same j).2.1] at between
    rw [(same x).2.2]
    exact wf.paths j hj occupied x hx between notHole

end WellFormed

/-! ## Lookups -/

section Lookup

variable [DecidableEq κ] [DecidableEq H] {L : Layout K κ H} {slots : Nat → Slot K V H}

/-- From any position on its walk, the probe arrives at the slot of a held key part. -/
theorem probe_from_walk (wf : Wf L slots) {i : Nat} (hi : i < L.size)
    (occupied : (slots i).occupied = true) (steps : Nat) :
    ∀ x < L.size,
      ahead L.size (L.home (slots i).hash) x + steps = ahead L.size (L.home (slots i).hash) i →
      (probe L slots (L.part (slots i).key) (slots i).hash x : Exec ε _) = pure (true, i) := by
  have home := L.home_lt (slots i).hash
  induction steps with
  | zero =>
      intro x hx distance
      have arrived : x = i := (ahead_inj home hx hi).mp distance
      subst arrived
      rw [probe, if_neg (by simp [occupied]), if_pos ⟨rfl, rfl⟩]
  | succ steps ih =>
      intro x hx distance
      have onWalk : (slots x).occupied = true :=
        wf.paths i hi occupied x hx (by omega) (by simp)
      have other : ¬ ((slots x).hash = (slots i).hash ∧
          L.part (slots x).key = L.part (slots i).key) := by
        intro given
        rcases given with ⟨_, parts⟩
        have equal := wf.inj x hx onWalk i hi occupied parts
        subst equal
        omega
      have notHome : (x + 1) % L.size ≠ L.home (slots i).hash := by
        intro closed
        have furthest := ahead_of_next_eq home hx closed
        have bound := ahead_lt (a := L.home (slots i).hash) hi
        omega
      rw [probe, if_neg (by simp [onWalk]), if_neg other]
      apply ih _ (next_lt hx)
      rw [ahead_next home hx notHome]
      omega

/-- A held key part is found at its slot. -/
theorem probe_of_occupied (wf : Wf L slots) {i : Nat} (hi : i < L.size)
    (occupied : (slots i).occupied = true) {k : κ} (part : L.part (slots i).key = k) :
    (probe L slots k (L.hash k) (L.home (L.hash k)) : Exec ε _) = pure (true, i) := by
  subst part
  rw [← wf.hash_eq i hi occupied]
  exact probe_from_walk wf hi occupied _ _ (L.home_lt _)
    (by rw [ahead_self (L.home_lt _), Nat.zero_add])

/-- From a position before the unoccupied slot `free`, the probe for an absent key
part stops at the first unoccupied slot. -/
theorem probe_to_free {k : κ} {hash : H} {free : Nat} (hfree : free < L.size)
    (unoccupied : (slots free).occupied = false)
    (absent : ∀ j < L.size, (slots j).occupied = true → L.part (slots j).key ≠ k)
    (steps : Nat) :
    ∀ x < L.size, ahead L.size (L.home hash) x + steps = ahead L.size (L.home hash) free →
      (∀ y < L.size, ahead L.size (L.home hash) y < ahead L.size (L.home hash) x →
        (slots y).occupied = true) →
      ∃ i < L.size, (probe L slots k hash x : Exec ε _) = pure (false, i) ∧
        (slots i).occupied = false ∧
        ∀ y < L.size, ahead L.size (L.home hash) y < ahead L.size (L.home hash) i →
          (slots y).occupied = true := by
  have home := L.home_lt hash
  induction steps with
  | zero =>
      intro x hx distance walked
      have arrived : x = free := (ahead_inj home hx hfree).mp distance
      subst arrived
      refine ⟨x, hx, ?_, unoccupied, walked⟩
      rw [probe, if_pos unoccupied]
  | succ steps ih =>
      intro x hx distance walked
      by_cases stop : (slots x).occupied = false
      · refine ⟨x, hx, ?_, stop, walked⟩
        rw [probe, if_pos stop]
      · have occupied : (slots x).occupied = true := by simpa using stop
        have notHome : (x + 1) % L.size ≠ L.home hash := by
          intro closed
          have furthest := ahead_of_next_eq home hx closed
          have bound := ahead_lt (a := L.home hash) hfree
          omega
        rw [probe, if_neg stop, if_neg (fun found => absent x hx occupied found.2)]
        apply ih _ (next_lt hx)
        · rw [ahead_next home hx notHome]
          omega
        · intro y hy before
          rw [ahead_next home hx notHome] at before
          by_cases here : ahead L.size (L.home hash) y = ahead L.size (L.home hash) x
          · rw [(ahead_inj home hy hx).mp here]
            exact occupied
          · exact walked y hy (by omega)

/-- In a table with an unoccupied slot, the probe for an absent key part returns the
first unoccupied slot on its walk. -/
theorem probe_of_absent {k : κ} (room : (live L.size slots).card < L.size)
    (absent : ∀ j < L.size, (slots j).occupied = true → L.part (slots j).key ≠ k) :
    ∃ i < L.size,
      (probe L slots k (L.hash k) (L.home (L.hash k)) : Exec ε _) = pure (false, i) ∧
      (slots i).occupied = false ∧
      ∀ y < L.size, ahead L.size (L.home (L.hash k)) y < ahead L.size (L.home (L.hash k)) i →
        (slots y).occupied = true := by
  obtain ⟨free, hfree, unoccupied⟩ := exists_free room
  refine probe_to_free hfree unoccupied absent _ _ (L.home_lt _)
    (by rw [ahead_self (L.home_lt _), Nat.zero_add]) ?_
  intro y _ before
  rw [ahead_self (L.home_lt _)] at before
  omega

/-- In a table without an unoccupied slot, the probe for an absent key part never
returns: it goes round the slots forever. -/
theorem probe_diverges {k : κ} {hash : H}
    (full : ∀ i < L.size, (slots i).occupied = true)
    (absent : ∀ i < L.size, L.part (slots i).key ≠ k) :
    ∀ index < L.size, (probe L slots k hash index : Exec ε _) = (none : Option _) := by
  refine probe.fixpoint_induct L slots k
    (fun walk => ∀ index < L.size, walk hash index = (none : Option _)) ?_ ?_
  · -- The walks that return nothing inside the table are closed under limits: the limit
    -- is below the walk that returns nothing there and agrees with it elsewhere.
    intro walks chain silent index inside
    change (Classical.choose _ : H → Nat → Exec ε (Bool × Nat)) hash index = _
    generalize_proofs bounded
    have least := Classical.choose_spec bounded
    generalize Classical.choose bounded = limit at least
    have upper : ∀ walk, walks walk → ∀ h i, _ := (least limit).mp (by intro h i; constructor)
    have below := (least fun h i =>
        if h = hash ∧ i < L.size then (none : Option _) else limit h i).mpr (by
      intro walk member h i
      by_cases within : h = hash ∧ i < L.size
      · rw [within.1, silent walk member i within.2]
        constructor
      · simp only [within, if_false]
        exact upper walk member h i)
    have here := below hash index
    simp only [inside, and_self, if_true] at here
    cases result : limit hash index with
    | none => rfl
    | some outcome =>
        rw [result] at here
        cases here
  · intro walk silent index inside
    change (if _ then _ else _) = _
    rw [if_neg (by simp [full index inside]), if_neg (fun found => absent index inside found.2)]
    exact silent _ (Nat.mod_lt _ (by omega))

end Lookup

/-! ## One move -/

section Move

variable {L : Layout K κ H} {slots : Nat → Slot K V H} {src dst : Nat}

@[simp] theorem moveSlot_dst :
    moveSlot slots src dst dst = { slots src with occupied := true } :=
  Function.update_self _ _ _

theorem moveSlot_src (other : src ≠ dst) :
    moveSlot slots src dst src = { slots src with occupied := false } := by
  unfold moveSlot
  rw [Function.update_of_ne other, Function.update_self]

theorem moveSlot_of_ne {x : Nat} (notSrc : x ≠ src) (notDst : x ≠ dst) :
    moveSlot slots src dst x = slots x := by
  unfold moveSlot
  rw [Function.update_of_ne notDst, Function.update_of_ne notSrc]

/-- An occupied slot after a move is the moved entry or an untouched one. -/
theorem moveSlot_occupied_cases (other : src ≠ dst) {x : Nat}
    (occupied : (moveSlot slots src dst x).occupied = true) :
    x = dst ∨ (x ≠ src ∧ x ≠ dst ∧ (slots x).occupied = true) := by
  by_cases isDst : x = dst
  · exact Or.inl isDst
  · by_cases isSrc : x = src
    · subst isSrc
      rw [moveSlot_src other] at occupied
      cases occupied
    · rw [moveSlot_of_ne isSrc isDst] at occupied
      exact Or.inr ⟨isSrc, isDst, occupied⟩

/-- A move keeps the bindings. -/
theorem live_moveSlot {n : Nat} (hsrc : src < n) (hdst : dst < n)
    (occupied : (slots src).occupied = true) (free : (slots dst).occupied = false) :
    live n (moveSlot slots src dst) = live n slots := by
  have other : dst ≠ src := by
    intro same
    rcases same with rfl
    rw [occupied] at free
    cases free
  have cleared := live_clear hsrc occupied { slots src with occupied := false } rfl
  have stillFree : (Function.update slots src { slots src with occupied := false } dst).occupied =
      false := by
    rw [Function.update_of_ne other]
    exact free
  unfold moveSlot
  rw [live_insert hdst stillFree { slots src with occupied := true } rfl, cleared]

theorem Keyed.move (keyed : Keyed L slots) (hsrc : src < L.size)
    (occupied : (slots src).occupied = true) (other : src ≠ dst) :
    Keyed L (moveSlot slots src dst) where
  hash_eq i hi occupiedI := by
    rcases moveSlot_occupied_cases other occupiedI with rfl | ⟨notSrc, notDst, held⟩
    · rw [moveSlot_dst]
      exact keyed.hash_eq src hsrc occupied
    · rw [moveSlot_of_ne notSrc notDst]
      exact keyed.hash_eq i hi held
  inj i hi occupiedI j hj occupiedJ parts := by
    rcases moveSlot_occupied_cases other occupiedI with rfl | ⟨notSrcI, notDstI, heldI⟩ <;>
      rcases moveSlot_occupied_cases other occupiedJ with rfl | ⟨notSrcJ, notDstJ, heldJ⟩
    · rfl
    · rw [moveSlot_dst, moveSlot_of_ne notSrcJ notDstJ] at parts
      exact absurd (keyed.inj src hsrc occupied j hj heldJ parts).symm notSrcJ
    · rw [moveSlot_dst, moveSlot_of_ne notSrcI notDstI] at parts
      exact absurd (keyed.inj i hi heldI src hsrc occupied parts) notSrcI
    · rw [moveSlot_of_ne notSrcI notDstI, moveSlot_of_ne notSrcJ notDstJ] at parts
      exact keyed.inj i hi heldI j hj heldJ parts

end Move

/-! ## The shifting loop -/

section BackShift

variable {L : Layout K κ H} {slots : Nat → Slot K V H} {hole index : Nat}

/-- The loop's invariant: every walk is occupied but for the hole, and no entry the
loop has passed since the hole opened walks over it. -/
structure Hole (L : Layout K κ H) (slots : Nat → Slot K V H) (hole index : Nat) : Prop
    extends Keyed L slots where
  hole_lt : hole < L.size
  index_lt : index < L.size
  free : (slots hole).occupied = false
  paths : PathsOccupied L slots (some hole)
  passed : ∀ j < L.size, (slots j).occupied = true →
    ahead L.size hole j ≤ ahead L.size hole index →
    ¬ ahead L.size (L.home (slots j).hash) hole < ahead L.size (L.home (slots j).hash) j

/-- Clearing a slot of a well-formed table opens a hole there. -/
theorem Wf.clear (wf : Wf L slots) {i : Nat} (hi : i < L.size) {slot : Slot K V H}
    (free : slot.occupied = false) : Hole L (Function.update slots i slot) i i := by
  have kept : ∀ {x}, (Function.update slots i slot x).occupied = true → x ≠ i := by
    intro x occupied same
    rcases same with rfl
    rw [Function.update_self, free] at occupied
    cases occupied
  constructor
  · constructor
    · intro j hj occupied
      have other := kept occupied
      rw [Function.update_of_ne other] at occupied ⊢
      exact wf.hash_eq j hj occupied
    · intro j hj occupiedJ k hk occupiedK parts
      have otherJ := kept occupiedJ
      have otherK := kept occupiedK
      rw [Function.update_of_ne otherJ] at occupiedJ parts
      rw [Function.update_of_ne otherK] at occupiedK parts
      exact wf.inj j hj occupiedJ k hk occupiedK parts
  · exact hi
  · exact hi
  · rw [Function.update_self]
    exact free
  · intro j hj occupied x hx between notHole
    have other := kept occupied
    rw [Function.update_of_ne other] at occupied between
    rw [Function.update_of_ne (fun same => notHole (by rw [same]))]
    exact wf.paths j hj occupied x hx between (by simp)
  · intro j hj occupied near
    rw [ahead_self hi, Nat.le_zero, ahead_eq_zero hi hj] at near
    exact absurd near.symm (kept occupied)

/-- An unoccupied slot after the passed ones ends the cluster: no walk leads over the
hole. -/
theorem Hole.finish (inv : Hole L slots hole index)
    (stop : (slots ((index + 1) % L.size)).occupied = false) : Wf L slots where
  toKeyed := inv.toKeyed
  paths := by
    intro j hj occupied x hx between _
    by_cases isHole : x = hole
    · subst isHole
      exfalso
      have beyond : ahead L.size x index < ahead L.size x j := by
        by_contra near
        exact inv.passed j hj occupied (by omega) between
      have notBack : (index + 1) % L.size ≠ x := by
        intro closed
        have furthest := ahead_of_next_eq inv.hole_lt inv.index_lt closed
        have bound := ahead_lt (a := x) hj
        omega
      have step := ahead_next inv.hole_lt inv.index_lt notBack
      have notEntry : ahead L.size x ((index + 1) % L.size) ≠ ahead L.size x j := by
        intro same
        rw [(ahead_inj inv.hole_lt (next_lt inv.index_lt) hj).mp same, occupied] at stop
        cases stop
      have onWalk := ahead_lt_of_between (L.home_lt (slots j).hash) inv.hole_lt hj
        (next_lt inv.index_lt) between (by omega)
      have filled := inv.paths j hj occupied _ (next_lt inv.index_lt) onWalk
        (fun same => notBack (Option.some.inj same))
      rw [stop] at filled
      cases filled
    · exact inv.paths j hj occupied x hx between (fun same => isHole (Option.some.inj same))

/-- The next slot is not the hole when it is occupied. -/
theorem Hole.next_ne (inv : Hole L slots hole index)
    (occupied : (slots ((index + 1) % L.size)).occupied = true) :
    (index + 1) % L.size ≠ hole := by
  intro closed
  rw [closed, inv.free] at occupied
  cases occupied

/-- Passing an entry that may not take the hole. -/
theorem Hole.pass (inv : Hole L slots hole index)
    (occupied : (slots ((index + 1) % L.size)).occupied = true)
    (stays : ¬ ((index + 1) % L.size ≠ L.home (slots ((index + 1) % L.size)).hash ∧
      L.canMove (L.home (slots ((index + 1) % L.size)).hash) hole ((index + 1) % L.size) = true)) :
    Hole L slots hole ((index + 1) % L.size) where
  toKeyed := inv.toKeyed
  hole_lt := inv.hole_lt
  index_lt := next_lt inv.index_lt
  free := inv.free
  paths := inv.paths
  passed := by
    intro j hj held near
    have step := ahead_next inv.hole_lt inv.index_lt (inv.next_ne occupied)
    by_cases here : ahead L.size hole j = ahead L.size hole ((index + 1) % L.size)
    · have same := (ahead_inj inv.hole_lt hj (next_lt inv.index_lt)).mp here
      subst same
      intro crosses
      apply stays
      refine ⟨?_, (L.canMove_iff (L.home_lt _) inv.hole_lt hj).mpr crosses⟩
      intro atHome
      rw [← atHome, ahead_self hj] at crosses
      omega
    · exact inv.passed j hj held (by omega)

/-- Moving an entry into the hole opens the hole where the entry was. -/
theorem Hole.move (inv : Hole L slots hole index)
    (occupied : (slots ((index + 1) % L.size)).occupied = true)
    (moves : L.canMove (L.home (slots ((index + 1) % L.size)).hash) hole
      ((index + 1) % L.size) = true) :
    Hole L (moveSlot slots ((index + 1) % L.size) hole)
      ((index + 1) % L.size) ((index + 1) % L.size) := by
  have other := inv.next_ne occupied
  have hsrc := next_lt inv.index_lt
  rw [L.canMove_iff (L.home_lt _) inv.hole_lt hsrc] at moves
  generalize (index + 1) % L.size = src at *
  refine ⟨inv.toKeyed.move hsrc occupied other, hsrc, hsrc, ?_, ?_, ?_⟩
  · rw [moveSlot_src other]
  · intro j hj held x hx between notHole
    have notSrc : x ≠ src := fun same => notHole (by rw [same])
    by_cases isDst : x = hole
    · subst isDst
      rw [moveSlot_dst]
    · rw [moveSlot_of_ne notSrc isDst]
      rcases moveSlot_occupied_cases other held with rfl | ⟨notSrcJ, notDstJ, heldJ⟩
      · rw [moveSlot_dst] at between
        dsimp only at between
        exact inv.paths src hsrc occupied x hx (by omega)
          (fun same => isDst (Option.some.inj same))
      · rw [moveSlot_of_ne notSrcJ notDstJ] at between
        exact inv.paths j hj heldJ x hx between (fun same => isDst (Option.some.inj same))
  · intro j hj held near
    rw [ahead_self hsrc, Nat.le_zero, ahead_eq_zero hsrc hj] at near
    subst near
    rw [moveSlot_src other] at held
    cases held

/-- The distance all entries together are away from their homes. -/
def displacement (L : Layout K κ H) (slots : Nat → Slot K V H) : Nat :=
  ∑ j ∈ Finset.range L.size,
    if (slots j).occupied then ahead L.size (L.home (slots j).hash) j else 0

/-- Every move brings an entry nearer to its home. -/
theorem displacement_move_lt {src dst : Nat} (hsrc : src < L.size) (hdst : dst < L.size)
    (occupied : (slots src).occupied = true) (free : (slots dst).occupied = false)
    (nearer : ahead L.size (L.home (slots src).hash) dst <
      ahead L.size (L.home (slots src).hash) src) :
    displacement L (moveSlot slots src dst) < displacement L slots := by
  have other : src ≠ dst := by
    intro same
    rcases same with rfl
    rw [occupied] at free
    cases free
  have memSrc : src ∈ Finset.range L.size := Finset.mem_range.mpr hsrc
  have memDst : dst ∈ (Finset.range L.size).erase src :=
    Finset.mem_erase.mpr ⟨other.symm, Finset.mem_range.mpr hdst⟩
  unfold displacement
  rw [← Finset.add_sum_erase _ _ memSrc, ← Finset.add_sum_erase _ _ memDst,
    ← Finset.add_sum_erase (Finset.range L.size) _ memSrc,
    ← Finset.add_sum_erase ((Finset.range L.size).erase src) _ memDst]
  have rest : ∀ j ∈ ((Finset.range L.size).erase src).erase dst,
      (if (moveSlot slots src dst j).occupied then
        ahead L.size (L.home (moveSlot slots src dst j).hash) j else 0) =
      if (slots j).occupied then ahead L.size (L.home (slots j).hash) j else 0 := by
    intro j member
    rw [Finset.mem_erase, Finset.mem_erase] at member
    rw [moveSlot_of_ne member.2.1 member.1]
  rw [Finset.sum_congr rfl rest, moveSlot_src other, moveSlot_dst]
  simp only [occupied, free, if_true, Bool.false_eq_true, if_false]
  omega

variable {M : Mover T K V H}

/-- The rule of the shifting loop, with a second table that the first is mapped to. From a
table with a hole the loop returns a well-formed table with the same bindings, and every
property of the table that single moves keep; and when the map keeps the slots and commutes
with every move, it commutes with the loop. -/
theorem backShift_returns_map {T' : Type} (L : Layout K κ H) (M : Mover T K V H)
    (N : Mover T' K V H) (f : T → T') (slots : ∀ t, N.slots (f t) = M.slots t)
    (commutes : ∀ t src dst, N.move (f t) src dst = f (M.move t src dst)) (P : T → Prop)
    (keeps : ∀ t src dst, src < L.size → dst < L.size → (M.slots t src).occupied = true →
      (M.slots t dst).occupied = false → P t → P (M.move t src dst))
    (budget : Nat) :
    ∀ t hole index, Hole L (M.slots t) hole index → P t →
      displacement L (M.slots t) * L.size + (L.size - ahead L.size hole index) ≤ budget →
      Exec.Returns (backShift L M t hole index : Exec ε T) fun t' =>
        Wf L (M.slots t') ∧ live L.size (M.slots t') = live L.size (M.slots t) ∧ P t' ∧
          (backShift L N (f t) hole index : Exec ε T') = pure (f t') := by
  induction budget with
  | zero =>
      intro t hole index inv _ bound
      have inside := ahead_lt (a := hole) inv.index_lt
      omega
  | succ budget ih =>
      intro t hole index inv holds bound
      rw [backShift, backShift, slots]
      by_cases stop : (M.slots t ((index + 1) % L.size)).occupied = false
      · rw [if_pos stop, if_pos stop]
        exact .pure ⟨inv.finish stop, rfl, holds, rfl⟩
      · have occupied : (M.slots t ((index + 1) % L.size)).occupied = true := by simpa using stop
        have hsrc := next_lt inv.index_lt
        rw [if_neg stop, if_neg stop]
        split
        · rename_i moves
          have nearer := (L.canMove_iff (L.home_lt _) inv.hole_lt hsrc).mp moves.2
          have less := displacement_move_lt hsrc inv.hole_lt occupied inv.free nearer
          have shifted := inv.move occupied moves.2
          have kept := keeps t _ hole hsrc inv.hole_lt occupied inv.free holds
          rw [← M.slots_move] at less shifted
          have smaller : displacement L (M.slots (M.move t ((index + 1) % L.size) hole)) * L.size +
              L.size ≤ displacement L (M.slots t) * L.size := by
            rw [← Nat.succ_mul]
            exact Nat.mul_le_mul_right _ less
          have inside := ahead_lt (a := hole) inv.index_lt
          rw [commutes]
          apply (ih _ _ _ shifted kept (by omega)).mono
          intro t' post
          rcases post with ⟨wf, same, result⟩
          refine ⟨wf, ?_, result⟩
          rw [same, M.slots_move, live_moveSlot hsrc inv.hole_lt occupied inv.free]
        · rename_i stays
          have passed := inv.pass occupied stays
          have step := ahead_next inv.hole_lt inv.index_lt (inv.next_ne occupied)
          have inside := ahead_lt (a := hole) inv.index_lt
          exact ih t hole _ passed holds (by omega)

/-- The invariant rule of the shifting loop. From a table with a hole it returns a
well-formed table with the same bindings, and every property of the table that single
moves keep. -/
theorem backShift_returns (L : Layout K κ H) (M : Mover T K V H) (P : T → Prop)
    (keeps : ∀ t src dst, src < L.size → dst < L.size → (M.slots t src).occupied = true →
      (M.slots t dst).occupied = false → P t → P (M.move t src dst))
    (budget : Nat) (t : T) (hole index : Nat) (inv : Hole L (M.slots t) hole index) (holds : P t)
    (bound : displacement L (M.slots t) * L.size + (L.size - ahead L.size hole index) ≤ budget) :
    Exec.Returns (backShift L M t hole index : Exec ε T) fun t' =>
      Wf L (M.slots t') ∧ live L.size (M.slots t') = live L.size (M.slots t) ∧ P t' := by
  apply (backShift_returns_map L M M id (fun _ => rfl) (fun _ _ _ => rfl) P keeps budget t hole
    index inv holds bound).mono
  rintro t' ⟨wf, same, result, _⟩
  exact ⟨wf, same, result⟩

/-- Around a hole that no entry has passed, the loop moves nothing. -/
theorem backShift_of_settled {L : Layout K κ H} {M : Mover T K V H} {t : T} {hole : Nat}
    (inside : hole < L.size) (free : (M.slots t hole).occupied = false)
    (paths : PathsOccupied L (M.slots t) none) (steps : Nat) :
    ∀ index < L.size, ahead L.size ((index + 1) % L.size) hole = steps →
      (backShift L M t hole index : Exec ε T) = pure t := by
  induction steps with
  | zero =>
      intro index hindex distance
      have arrived := (ahead_eq_zero (next_lt hindex) inside).mp distance
      rw [backShift, if_pos (by rw [arrived]; exact free)]
  | succ steps ih =>
      intro index hindex distance
      have hsrc := next_lt hindex
      rw [backShift]
      by_cases stop : (M.slots t ((index + 1) % L.size)).occupied = false
      · rw [if_pos stop]
      · have occupied : (M.slots t ((index + 1) % L.size)).occupied = true := by simpa using stop
        have home := L.home_lt (M.slots t ((index + 1) % L.size)).hash
        have stays : ¬ L.canMove (L.home (M.slots t ((index + 1) % L.size)).hash) hole
            ((index + 1) % L.size) = true := by
          intro moves
          have between := (L.canMove_iff home inside hsrc).mp moves
          have passed := paths _ hsrc occupied hole inside between (by simp)
          rw [free] at passed
          cases passed
        rw [if_neg stop, if_neg fun moves => stays moves.2]
        apply ih _ hsrc
        rw [ahead_eq_ite (next_lt hsrc) inside]
        rw [ahead_eq_ite hsrc inside] at distance
        rw [next_eq_ite hsrc]
        split at distance <;> split <;> split <;> omega

/-- Deleting the entry at `i`: from a table whose slots are those of a well-formed
table with `i` cleared, the loop returns a well-formed table that holds every other
binding. -/
theorem backShift_of_clear {P : T → Prop}
    (keeps : ∀ t src dst, src < L.size → dst < L.size → (M.slots t src).occupied = true →
      (M.slots t dst).occupied = false → P t → P (M.move t src dst))
    (wf : Wf L slots) {i : Nat} (hi : i < L.size) (occupied : (slots i).occupied = true)
    (slot : Slot K V H) (free : slot.occupied = false) {t : T}
    (cleared : M.slots t = Function.update slots i slot) (holds : P t) :
    Exec.Returns (backShift L M t i i : Exec ε T) fun t' =>
      Wf L (M.slots t') ∧
      live L.size slots = ((slots i).key, (slots i).value) ::ₘ live L.size (M.slots t') ∧
      P t' := by
  have inv : Hole L (M.slots t) i i := by
    rw [cleared]
    exact wf.clear hi free
  apply (backShift_returns L M P keeps _ t i i inv holds le_rfl).mono
  intro t' post
  rcases post with ⟨wf', same, result⟩
  refine ⟨wf', ?_, result⟩
  rw [same, cleared, ← live_clear hi occupied slot free]

/-- Deleting an entry commutes with a map of tables that keeps the slots and commutes with
every move. -/
theorem backShift_map {T' : Type} {N : Mover T' K V H} (f : T → T')
    (same : ∀ t, N.slots (f t) = M.slots t)
    (commutes : ∀ t src dst, N.move (f t) src dst = f (M.move t src dst))
    (wf : Wf L slots) {i : Nat} (hi : i < L.size) {slot : Slot K V H}
    (free : slot.occupied = false) {t t' : T} (cleared : M.slots t = Function.update slots i slot)
    (returned : (backShift L M t i i : Exec ε T) = pure t') :
    (backShift L N (f t) i i : Exec ε T') = pure (f t') := by
  have inv : Hole L (M.slots t) i i := by
    rw [cleared]
    exact wf.clear hi free
  rcases backShift_returns_map (ε := ε) L M N f same commutes (fun _ => True)
    (fun _ _ _ _ _ _ _ holds => holds) _ t i i inv True.intro le_rfl
    with ⟨last, returned', _, _, _, mapped⟩
  rw [returned] at returned'
  rw [mapped, Exec.pure_inj.mp returned']

end BackShift

/-! ## Reverse indices -/

section Indexed

variable [DecidableEq V] {n : Nat} {slots : Nat → Slot K V H} {index : V → Int}

/-- `index` sends the value of every entry to the entry's position, and every other
value to `-1`. -/
structure Indexed (n : Nat) (slots : Nat → Slot K V H) (index : V → Int) : Prop where
  of_slot : ∀ i < n, (slots i).occupied = true → index (slots i).value = i
  to_slot : ∀ v, index v ≠ -1 →
    ∃ i < n, (slots i).occupied = true ∧ (slots i).value = v ∧ index v = i

omit [DecidableEq V] in
theorem Indexed.of_empty (empty : ∀ i < n, (slots i).occupied = false)
    (none : ∀ v, index v = -1) : Indexed n slots index where
  of_slot i inside occupied := by simp [empty i inside] at occupied
  to_slot v held := absurd (none v) held

omit [DecidableEq V] in
/-- A value has index `-1` exactly when no binding has it. -/
theorem Indexed.eq_neg_one_iff (indexed : Indexed n slots index) (v : V) :
    index v = -1 ↔ ∀ binding ∈ live n slots, binding.2 ≠ v := by
  constructor
  · intro unheld binding member same
    rcases same with rfl
    obtain ⟨i, inside, occupied, _, value⟩ := mem_live.mp member
    have held := indexed.of_slot i inside occupied
    rw [value, unheld] at held
    omega
  · intro fresh
    by_contra held
    obtain ⟨i, inside, occupied, value, _⟩ := indexed.to_slot v held
    exact fresh _ (entry_mem_live inside occupied) value

omit [DecidableEq V] in
/-- One value has one binding. -/
theorem Indexed.binding_unique (indexed : Indexed n slots index) {a b : K × V}
    (ha : a ∈ live n slots) (hb : b ∈ live n slots) (same : a.2 = b.2) : a = b := by
  obtain ⟨i, hi, occupiedI, keyI, valueI⟩ := mem_live.mp ha
  obtain ⟨j, hj, occupiedJ, keyJ, valueJ⟩ := mem_live.mp hb
  have atI := indexed.of_slot i hi occupiedI
  have atJ := indexed.of_slot j hj occupiedJ
  rw [valueI, same, ← valueJ, atJ] at atI
  have equal : j = i := by omega
  subst equal
  exact Prod.ext (keyI.symm.trans keyJ) same

theorem Indexed.insert (indexed : Indexed n slots index) {i : Nat} (inside : i < n)
    (free : (slots i).occupied = false) {slot : Slot K V H} (filled : slot.occupied = true)
    (fresh : index slot.value = -1) :
    Indexed n (Function.update slots i slot) (Function.update index slot.value i) where
  of_slot j hj occupied := by
    by_cases same : j = i
    · subst same
      rw [Function.update_self, Function.update_self]
    · rw [Function.update_of_ne same] at occupied ⊢
      have held := indexed.of_slot j hj occupied
      rw [Function.update_of_ne]
      · exact held
      · intro clash
        rw [clash, fresh] at held
        omega
  to_slot v held := by
    by_cases isNew : v = slot.value
    · subst isNew
      refine ⟨i, inside, ?_, ?_, Function.update_self _ _ _⟩
      · rw [Function.update_self]
        exact filled
      · rw [Function.update_self]
    · rw [Function.update_of_ne isNew] at held ⊢
      obtain ⟨j, hj, occupied, value, place⟩ := indexed.to_slot v held
      have other : j ≠ i := by
        intro same
        rcases same with rfl
        rw [free] at occupied
        cases occupied
      refine ⟨j, hj, ?_, ?_, place⟩
      · rw [Function.update_of_ne other]
        exact occupied
      · rw [Function.update_of_ne other]
        exact value

theorem Indexed.clear (indexed : Indexed n slots index) {i : Nat} (inside : i < n)
    (occupied : (slots i).occupied = true) {slot : Slot K V H} (free : slot.occupied = false) :
    Indexed n (Function.update slots i slot) (Function.update index (slots i).value (-1)) where
  of_slot j hj held := by
    have other : j ≠ i := by
      intro same
      rcases same with rfl
      rw [Function.update_self, free] at held
      cases held
    rw [Function.update_of_ne other] at held ⊢
    have place := indexed.of_slot j hj held
    rw [Function.update_of_ne]
    · exact place
    · intro clash
      rw [clash, indexed.of_slot i inside occupied] at place
      omega
  to_slot v held := by
    by_cases isOld : v = (slots i).value
    · rw [isOld, Function.update_self] at held
      exact absurd rfl held
    · rw [Function.update_of_ne isOld] at held ⊢
      obtain ⟨j, hj, occupiedJ, value, place⟩ := indexed.to_slot v held
      have other : j ≠ i := by
        intro same
        rcases same with rfl
        exact isOld value.symm
      refine ⟨j, hj, ?_, ?_, place⟩
      · rw [Function.update_of_ne other]
        exact occupiedJ
      · rw [Function.update_of_ne other]
        exact value

theorem Indexed.move (indexed : Indexed n slots index) {src dst : Nat} (hsrc : src < n)
    (hdst : dst < n) (occupied : (slots src).occupied = true)
    (free : (slots dst).occupied = false) :
    Indexed n (moveSlot slots src dst) (Function.update index (slots src).value dst) := by
  have other : src ≠ dst := by
    intro same
    rcases same with rfl
    rw [occupied] at free
    cases free
  constructor
  · intro j hj held
    rcases moveSlot_occupied_cases other held with rfl | ⟨notSrc, notDst, heldJ⟩
    · rw [moveSlot_dst, Function.update_self]
    · rw [moveSlot_of_ne notSrc notDst]
      have place := indexed.of_slot j hj heldJ
      rw [Function.update_of_ne]
      · exact place
      · intro clash
        rw [clash, indexed.of_slot src hsrc occupied] at place
        omega
  · intro v held
    by_cases moved : v = (slots src).value
    · subst moved
      refine ⟨dst, hdst, ?_, ?_, Function.update_self _ _ _⟩
      · rw [moveSlot_dst]
      · rw [moveSlot_dst]
    · rw [Function.update_of_ne moved] at held ⊢
      obtain ⟨j, hj, occupiedJ, value, place⟩ := indexed.to_slot v held
      have notSrc : j ≠ src := by
        intro same
        rcases same with rfl
        exact moved value.symm
      have notDst : j ≠ dst := by
        intro same
        rcases same with rfl
        rw [free] at occupiedJ
        cases occupiedJ
      refine ⟨j, hj, ?_, ?_, place⟩
      · rw [moveSlot_of_ne notSrc notDst]
        exact occupiedJ
      · rw [moveSlot_of_ne notSrc notDst]
        exact value

end Indexed

end Marina.Lib.LinearProbing
