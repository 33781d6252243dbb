/-! A ring with a cursor.

The slots stand in evaluation order and the cursor names the next one to look at.
Read from the cursor and around, a ring is a queue whose front is the slot at the
cursor (`toQueue`): putting a value in at the cursor puts it in front, advancing
the cursor moves the front to the back. -/
namespace SurfaceRelay

structure Ring (α : Type) where
  slots : List α
  cursor : Nat

namespace Ring
variable {α : Type}

def empty : Ring α := ⟨[], 0⟩

def size (r : Ring α) : Nat := r.slots.length

def isEmpty (r : Ring α) : Bool := r.slots.isEmpty

/-- The slot at the cursor, nothing when the ring is empty. -/
def current? (r : Ring α) : Option α := r.slots[r.cursor]?

/-- Puts a value in at the cursor, ahead of the slot that was there. -/
def insert (r : Ring α) (a : α) : Ring α := { r with slots := r.slots.insertIdx r.cursor a }

/-- Replaces the slot at the cursor. -/
def setCurrent (r : Ring α) (a : α) : Ring α := { r with slots := r.slots.set r.cursor a }

/-- Moves the cursor on by one slot, around the end. -/
def advance (r : Ring α) : Ring α := { r with cursor := (r.cursor + 1) % r.slots.length }

/-- The ring read from its cursor. -/
def toQueue (r : Ring α) : List α := r.slots.drop r.cursor ++ r.slots.take r.cursor

/-- Where a value with a property stands: the slot at the cursor is tried first,
then the slots in order. -/
def locate? (p : α → Bool) (r : Ring α) : Option Nat :=
  if r.current?.any p then some r.cursor else r.slots.findIdx? p

def find? (p : α → Bool) (r : Ring α) : Option α := (r.locate? p).bind (r.slots[·]?)

/-- The cursor names a slot, or the ring is empty and the cursor is at its start. -/
def Sound (r : Ring α) : Prop := r.cursor < r.size ∨ r.slots = [] ∧ r.cursor = 0

theorem empty_sound : Sound (empty : Ring α) := .inr ⟨rfl, rfl⟩

theorem Sound.cursor_le {r : Ring α} (h : r.Sound) : r.cursor ≤ r.slots.length := by
  rcases h with h | ⟨h, h'⟩
  · exact Nat.le_of_lt h
  · simp [h']

theorem size_insert {r : Ring α} (h : r.Sound) (a : α) : (r.insert a).size = r.size + 1 := by
  simp [insert, size, List.length_insertIdx, h.cursor_le]

theorem size_setCurrent (r : Ring α) (a : α) : (r.setCurrent a).size = r.size := by
  simp [setCurrent, size]

theorem size_advance (r : Ring α) : r.advance.size = r.size := rfl

theorem insert_sound {r : Ring α} (h : r.Sound) (a : α) : (r.insert a).Sound :=
  .inl (by rw [size_insert h]; exact Nat.lt_succ_of_le h.cursor_le)

theorem setCurrent_sound {r : Ring α} (h : r.Sound) (a : α) : (r.setCurrent a).Sound := by
  rcases h with h | ⟨h, h'⟩
  · exact .inl (by rw [size_setCurrent]; exact h)
  · exact .inr ⟨by simp [setCurrent, h], h'⟩

theorem advance_sound {r : Ring α} (h : r.cursor < r.size) : r.advance.Sound :=
  .inl (Nat.mod_lt _ (Nat.lt_of_le_of_lt (Nat.zero_le _) h))

theorem slots_insert {r : Ring α} (h : r.Sound) (a : α) :
    (r.insert a).slots = r.slots.take r.cursor ++ a :: r.slots.drop r.cursor := by
  have split : ∀ (l : List α) (n : Nat), n ≤ l.length →
      l.insertIdx n a = l.take n ++ a :: l.drop n := by
    intro l n hn
    induction n generalizing l with
    | zero => simp
    | succ n ih =>
      cases l with
      | nil => simp at hn
      | cons b l => simp at hn; simp [ih l hn]
  exact split _ _ h.cursor_le

/-- Where a property is found there is a slot that has it. -/
theorem locate?_some {p : α → Bool} {r : Ring α} {i : Nat} (h : r.locate? p = some i) :
    ∃ a, r.slots[i]? = some a ∧ p a = true := by
  simp only [locate?] at h
  split at h
  · rename_i hc
    cases h
    exact (Option.any_eq_true p _).1 hc
  · obtain ⟨hlt, hp, -⟩ := List.findIdx?_eq_some_iff_getElem.1 h
    exact ⟨_, List.getElem?_eq_getElem hlt, hp⟩

/-- A property that is found somewhere is found of a slot. -/
theorem find?_some {p : α → Bool} {r : Ring α} {a : α} (h : r.find? p = some a) :
    a ∈ r.slots ∧ p a = true := by
  obtain ⟨i, hi, ha⟩ := Option.bind_eq_some_iff.1 h
  obtain ⟨a', ha', hp⟩ := locate?_some hi
  obtain rfl : a' = a := Option.some.inj (ha'.symm.trans ha)
  exact ⟨List.mem_of_getElem? ha, hp⟩

/-- A property of some slot is found. -/
theorem find?_isSome {p : α → Bool} {r : Ring α} {a : α} (h : a ∈ r.slots) (hp : p a = true) :
    ∃ a', r.find? p = some a' := by
  cases hc : r.current?.any p with
  | true =>
    obtain ⟨a', ha', -⟩ := (Option.any_eq_true p _).1 hc
    exact ⟨a', by rw [find?, locate?, if_pos hc]; exact ha'⟩
  | false =>
    cases hi : r.slots.findIdx? p with
    | none => exact absurd hp (by simp [List.findIdx?_eq_none_iff.1 hi a h])
    | some i =>
      have hlt := (List.findIdx?_eq_some_iff_getElem.1 hi).1
      refine ⟨r.slots[i], ?_⟩
      rw [find?, locate?, hc, hi]
      exact List.getElem?_eq_getElem hlt

/-- Replacing the slot at the cursor by one of the same kind changes no kind. -/
theorem map_setCurrent {β : Type} {r : Ring α} {a a' : α} (f : α → β) (h : r.current? = some a)
    (hf : f a' = f a) : (r.setCurrent a').slots.map f = r.slots.map f := by
  obtain ⟨hlt, ha⟩ := List.getElem?_eq_some_iff.1 h
  rw [setCurrent, List.map_set, hf, ← ha, ← List.getElem_map f (h := by simpa using hlt)]
  exact List.set_getElem_self _

/-! ### The queue a ring stands for -/

theorem toQueue_empty : (empty : Ring α).toQueue = [] := rfl

theorem length_toQueue (r : Ring α) : r.toQueue.length = r.size := by
  simp only [toQueue, size, List.length_append, List.length_drop, List.length_take]
  omega

theorem toQueue_perm (r : Ring α) : r.toQueue.Perm r.slots := by
  have h : r.toQueue.Perm (r.slots.take r.cursor ++ r.slots.drop r.cursor) :=
    List.perm_append_comm
  rwa [List.take_append_drop] at h

/-- The slot at the cursor is the front of the queue. -/
theorem current?_eq {r : Ring α} (h : r.Sound) : r.current? = r.toQueue.head? := by
  rcases h with h | ⟨h, h'⟩
  · have : r.cursor < r.slots.length := h
    simp [current?, toQueue, this, List.head?_append, List.head?_drop]
  · simp [current?, toQueue, h]

theorem mem_toQueue (r : Ring α) (a : α) : a ∈ r.toQueue ↔ a ∈ r.slots := (toQueue_perm r).mem_iff

theorem cursor_lt {r : Ring α} {a : α} (h : r.current? = some a) : r.cursor < r.size :=
  (List.getElem?_eq_some_iff.1 h).1

/-- A ring with a slot at the cursor is a queue with that slot in front. -/
theorem toQueue_of_current {r : Ring α} {a : α} (h : r.current? = some a) :
    r.toQueue = a :: r.toQueue.tail := by
  have hf := current?_eq (.inl (cursor_lt h))
  rw [h] at hf
  cases hq : r.toQueue with
  | nil => rw [hq] at hf; cases hf
  | cons x rest => rw [hq] at hf; cases hf; rfl

theorem current?_mem {r : Ring α} {a : α} (h : r.current? = some a) : a ∈ r.slots :=
  List.mem_of_getElem? h

/-- A value put in at the cursor stands in front of the queue. -/
theorem toQueue_insert {r : Ring α} (h : r.Sound) (a : α) :
    (r.insert a).toQueue = a :: r.toQueue := by
  have hl : (r.slots.take r.cursor).length = r.cursor := by simp [h.cursor_le]
  have hc : (r.insert a).cursor = r.cursor := rfl
  rw [toQueue, toQueue, hc, slots_insert h, List.drop_append_of_le_length (by simp [hl]),
    List.take_append_of_le_length (by simp [hl])]
  simp [List.take_take]

/-- Replacing the slot at the cursor replaces the front of the queue. -/
theorem toQueue_setCurrent {r : Ring α} (h : r.cursor < r.size) (a : α) :
    (r.setCurrent a).toQueue = a :: r.toQueue.tail := by
  have h' : r.cursor < r.slots.length := h
  simp only [setCurrent, toQueue]
  rw [List.drop_set, List.take_set_of_le (Nat.le_refl _), if_neg (Nat.lt_irrefl _), Nat.sub_self,
    List.drop_eq_getElem_cons h']
  rfl

theorem mem_setCurrent_self {r : Ring α} (h : r.cursor < r.size) (a : α) :
    a ∈ (r.setCurrent a).slots := by
  rw [← mem_toQueue, toQueue_setCurrent h]
  exact List.mem_cons_self ..

theorem setCurrent_self {r : Ring α} {a : α} (h : r.current? = some a) : r.setCurrent a = r := by
  obtain ⟨hlt, ha⟩ := List.getElem?_eq_some_iff.1 h
  rw [setCurrent, ← ha, List.set_getElem_self]

theorem mem_setCurrent {r : Ring α} {a b b' : α} (h : r.current? = some b) (ha : a ∈ r.slots)
    (hne : a ≠ b) : a ∈ (r.setCurrent b').slots := by
  rw [← mem_toQueue, toQueue_of_current h] at ha
  rw [← mem_toQueue, toQueue_setCurrent (cursor_lt h)]
  rcases List.mem_cons.1 ha with rfl | ha
  · exact absurd rfl hne
  · exact List.mem_cons_of_mem _ ha

theorem mem_insert {r : Ring α} (h : r.Sound) {a b : α} :
    a ∈ (r.insert b).slots ↔ a = b ∨ a ∈ r.slots := by
  rw [← mem_toQueue, ← mem_toQueue, toQueue_insert h, List.mem_cons]

theorem current?_setCurrent {r : Ring α} (h : r.cursor < r.size) (a : α) :
    (r.setCurrent a).current? = some a := by
  rw [current?_eq (setCurrent_sound (.inl h) a), toQueue_setCurrent h]
  rfl

theorem current?_insert {r : Ring α} (h : r.Sound) (a : α) : (r.insert a).current? = some a := by
  rw [current?_eq (insert_sound h a), toQueue_insert h]
  rfl

/-- Advancing the cursor moves the front of the queue to its back. -/
theorem toQueue_advance {r : Ring α} {a : α} {rest : List α} (h : r.cursor < r.size)
    (hq : r.toQueue = a :: rest) : r.advance.toQueue = rest ++ [a] := by
  have h' : r.cursor < r.slots.length := h
  simp only [toQueue, List.drop_eq_getElem_cons h', List.cons_append, List.cons.injEq] at hq
  obtain ⟨rfl, rfl⟩ := hq
  simp only [advance, toQueue]
  by_cases hw : r.cursor + 1 = r.slots.length
  · rw [hw, Nat.mod_self]
    simp only [List.drop_zero, List.take_zero, List.append_nil, List.drop_length, List.nil_append]
    rw [List.take_append_getElem h', hw, List.take_length]
  · rw [Nat.mod_eq_of_lt (by omega), List.append_assoc, List.take_append_getElem h']

end Ring
end SurfaceRelay
