import SurfaceRelay.Proofs.Pool.Fifo

/-! The shape of a ring between operations, and its indices.

The operations of a pool name slots by index and move the cursor by a remainder. `Checked` has
the operations once more with every such step spelled out: an index that names no slot, or a
remainder by zero, leaves them without a result. On a pool in shape there always is a result,
and it is that of the plain operation (`checked_turn`), so no run ever reaches outside the ring.
`ring_in_shape` says so, together with what callers can see of a ring (`Shape`). -/
namespace SurfaceRelay

namespace Ring
variable {α : Type}

/-- Replaces the slot at an index, which must be there. -/
def replaceAt? (r : Ring α) (i : Nat) (a : α) : Option (Ring α) :=
  if i < r.size then some { r with slots := r.slots.set i a } else none

/-- Puts a value in at an index, which is at most one behind the last slot. -/
def insertAt? (r : Ring α) (i : Nat) (a : α) : Option (Ring α) :=
  if i ≤ r.size then some { r with slots := r.slots.insertIdx i a } else none

/-- Moves the cursor on by one slot. There is no remainder by zero. -/
def advance? (r : Ring α) : Option (Ring α) :=
  if r.size = 0 then none else some { r with cursor := (r.cursor + 1) % r.size }

theorem replaceAt?_cursor {r : Ring α} (h : r.cursor < r.size) (a : α) :
    r.replaceAt? r.cursor a = some (r.setCurrent a) := if_pos h

theorem insertAt?_cursor {r : Ring α} (h : r.Sound) (a : α) :
    r.insertAt? r.cursor a = some (r.insert a) := if_pos h.cursor_le

theorem advance?_eq {r : Ring α} (h : r.cursor < r.size) : r.advance? = some r.advance :=
  if_neg (Nat.ne_of_gt (Nat.lt_of_le_of_lt (Nat.zero_le _) h))

theorem setCurrent_setCurrent (r : Ring α) (a a' : α) :
    (r.setCurrent a).setCurrent a' = r.setCurrent a' := by
  simp only [setCurrent, List.set_set]

/-- A value that was put in and replaced at once might as well have been put in itself. -/
theorem setCurrent_insert {r : Ring α} (h : r.Sound) (a a' : α) :
    (r.insert a).setCurrent a' = r.insert a' := by
  have hlength : (r.slots.take r.cursor).length = r.cursor := by simp [h.cursor_le]
  have hslots : ((r.insert a).setCurrent a').slots = (r.insert a').slots := by
    show (r.insert a).slots.set r.cursor a' = _
    rw [slots_insert h, slots_insert h, List.set_append_right _ _ (Nat.le_of_eq hlength), hlength,
      Nat.sub_self, List.set_cons_zero]
  exact congrArg (fun slots => (⟨slots, r.cursor⟩ : Ring α)) hslots

/-- A slot that is not at the cursor stands behind the front of the queue. -/
theorem mem_tail_of_ne {r : Ring α} {i : Nat} {a : α} (h : r.cursor < r.size)
    (ha : r.slots[i]? = some a) (hi : i ≠ r.cursor) : a ∈ r.toQueue.tail := by
  have h' : r.cursor < r.slots.length := h
  have hq : r.toQueue.tail = r.slots.drop (r.cursor + 1) ++ r.slots.take r.cursor := by
    rw [toQueue, List.drop_eq_getElem_cons h']
    rfl
  rw [hq, List.mem_append]
  rcases Nat.lt_or_gt_of_ne hi with hlt | hgt
  · refine .inr (List.mem_of_getElem? (i := i) ?_)
    rw [List.getElem?_take_of_lt hlt, ha]
  · refine .inl (List.mem_of_getElem? (i := i - (r.cursor + 1)) ?_)
    rw [List.getElem?_drop, Nat.add_sub_cancel' hgt, ha]

end Ring

namespace Pool
variable {W T K V : Type}

/-! ### Checked operations -/

namespace Checked
variable (b : Backend W T K V)

/-- How an operation ends. -/
abbrev Ending (W T K V α : Type) := EStateM.Result Fault (Pool T K V × W) α

/-- Marks the slot at the cursor as out, and answers with its handle. -/
def handOut (p : Pool T K V) (w : W) : Option (Ending W T K V Handle) := do
  let s ← p.ring.slots[p.ring.cursor]?
  let ring ← p.ring.replaceAt? p.ring.cursor { s with phase := .writing }
  return .ok s.handle ({ p with ring }, w)

def grow (p : Pool T K V) (w : W) : Option (Ending W T K V Handle) :=
  let h : Handle := ⟨p.nextHandle⟩
  match Surface.build b h p.size p.stagingSize w with
  | .error e w => some (.error e (p, b.note (.creationFailed h e) w))
  | .ok s w => do
    let ring ← p.ring.insertAt? p.ring.cursor s
    handOut
      { p with
        ring, nextHandle := p.nextHandle + 1, stats := { p.stats with built := p.stats.built + 1 } }
      (b.note (.grew ring.size) w)

def stall (p : Pool T K V) (w : W) : Option (Ending W T K V Handle) := do
  let s ← p.ring.slots[p.ring.cursor]?
  match b.producer.drain s.texture s.staging p.stagingSize w with
  | .error e w => some (.error e (p, b.note (.producerWaitFailed s.handle e) w))
  | .ok _ w =>
    let ring ← p.ring.replaceAt? p.ring.cursor { s with phase := .idle }
    handOut { p with ring, stats := { p.stats with stalls := p.stats.stalls + 1 } }
      (b.note (.underflow ring.cursor) w)

def growOrStall (p : Pool T K V) (w : W) : Option (Ending W T K V Handle) :=
  if p.ring.size < p.capacity then grow b p w else stall b p w

def acquire (p : Pool T K V) (w : W) : Option (Ending W T K V Handle) :=
  if p.closed then some (.error .closed (p, w))
  else if p.ring.isEmpty then growOrStall b p w
  else do
    let s ← p.ring.slots[p.ring.cursor]?
    match probe b s w with
    | (.reusable marker, w) =>
      let ring ← p.ring.replaceAt? p.ring.cursor { s with marker }
      handOut { p with ring } w
    | (.busy, w) => growOrStall b p w
    | (.unknown _, w) => growOrStall b p.countMarkerFault w

def passOn (p : Pool T K V) (s : Surface T K V) (stats : Stats) : Option (Pool T K V) := do
  let ring ← p.ring.replaceAt? p.ring.cursor { s with phase := .released }
  let ring ← ring.advance?
  return { p with ring, stats }

/-- A release looks whether there is a slot at the cursor; only what it does to it is checked. -/
def release (h : Handle) (p : Pool T K V) (w : W) : Option (Ending W T K V Unit) :=
  if p.closed then some (.error .closed (p, w))
  else
    match p.ring.current? with
    | none => some (.error (.staleHandle h) (p, w))
    | some s =>
      if s.handle ≠ h ∨ s.phase ≠ .writing then some (.error (.staleHandle h) (p, w))
      else
        match b.producer.record (s.marker, w) with
        | .ok _ (marker, w) => do
          let p ← passOn p { s with marker, armed := true }
            { p.stats with markersRecorded := p.stats.markersRecorded + 1 }
          return .ok () (p, w)
        | .error e (marker, w) => do
          let p ← passOn p { s with marker, armed := false }
            { p.stats with markerFaults := p.stats.markerFaults + 1 }
          return .ok () (p, b.note (.recordFailed s.handle e) w)

def awaitConsumer (h : Handle) (p : Pool T K V) (w : W) : Option (Ending W T K V Unit) :=
  if p.closed then some (.error .closed (p, w))
  else
    match p.locate? h with
    | none => some (.error (.staleHandle h) (p, w))
    | some i => do
      let s ← p.ring.slots[i]?
      match b.consumer.drain s.view s.viewStaging p.stagingSize w with
      | .error e w => return .error e (p, b.note (.consumerWaitFailed s.handle e) w)
      | .ok _ w => return .ok () (p, w)

/-- Carries out one request. Tearing down names no slot by its index. -/
def turn (x : Pool T K V × W) : Op → Option (Turn W T K V)
  | .acquire => (acquire b x.1 x.2).map fun r =>
    ⟨.acquire, (Attempt.answers r).map some, x, Attempt.leaves r⟩
  | .release h => (release b h x.1 x.2).map fun r =>
    ⟨.release h, (Attempt.answers r).map fun _ => none, x, Attempt.leaves r⟩
  | .awaitConsumer h => (awaitConsumer b h x.1 x.2).map fun r =>
    ⟨.awaitConsumer h, (Attempt.answers r).map fun _ => none, x, Attempt.leaves r⟩
  | .close => some ⟨.close, .ok none, x, Pool.close b x⟩

/-- The turns of a list of requests, nothing when one of them was not possible. -/
def turns : Pool T K V × W → List Op → Option (List (Turn W T K V))
  | _, [] => some []
  | x, op :: rest => do
    let t ← turn b x op
    let later ← turns t.after rest
    return t :: later

end Checked

/-! ### They agree with the plain ones -/

variable {b : Backend W T K V} {p : Pool T K V} {w : W} {s : Surface T K V}

theorem checked_handOut (hc : p.ring.current? = some s) (w : W) :
    Checked.handOut p w = some (.ok s.handle (p.handOut s, w)) := by
  have hs : p.ring.slots[p.ring.cursor]? = some s := hc
  simp only [Checked.handOut, hs, Option.bind_eq_bind, Option.bind_some,
    Ring.replaceAt?_cursor (Ring.cursor_lt hc)]
  rfl

/-- A pool whose slot at the cursor was just replaced hands out the new one. -/
theorem checked_handOut_replaced {s' : Surface T K V} (hc : p.ring.current? = some s)
    (stats : Stats) (w : W) :
    Checked.handOut { p with ring := p.ring.setCurrent s', stats } w =
      some (.ok s'.handle ({ p.handOut s' with stats }, w)) := by
  have hlt := Ring.cursor_lt hc
  rw [checked_handOut (Ring.current?_setCurrent hlt s')]
  simp only [Pool.handOut, Ring.setCurrent_setCurrent]

theorem checked_grow (h : p.Inv) (w : W) : Checked.grow b p w = some (grow b (p, w)) := by
  simp only [Checked.grow, grow]
  cases hb : Surface.build b ⟨p.nextHandle⟩ p.size p.stagingSize w with
  | error e w' => rfl
  | ok s w' =>
    have hs := (Surface.build_ok b _ hb).1
    simp only [Ring.insertAt?_cursor h.sound, Option.bind_eq_bind, Option.bind_some]
    rw [checked_handOut (Ring.current?_insert h.sound s), hs]
    simp only [Pool.handOut, Pool.extend, Ring.setCurrent_insert h.sound, Ring.size_insert h.sound]

theorem checked_stall (hc : p.ring.current? = some s) (w : W) :
    Checked.stall b p w = some (stall b s (p, w)) := by
  have hs : p.ring.slots[p.ring.cursor]? = some s := hc
  have hlt := Ring.cursor_lt hc
  simp only [Checked.stall, stall, hs, Option.bind_eq_bind, Option.bind_some]
  rcases b.producer.drain s.texture s.staging p.stagingSize w with ⟨_, w'⟩ | ⟨e, w'⟩
  · simp only [Ring.replaceAt?_cursor hlt, Option.bind_some]
    rw [checked_handOut_replaced hc]
    rfl
  · rfl

/-- A ring with nothing at its cursor is empty, so there is room for a surface. -/
theorem Inv.vacant (h : p.Inv) (hc : p.ring.current? = none) :
    p.ring.slots = [] ∧ p.ring.size < p.capacity := by
  have hempty : p.ring.slots = [] := by
    have hq := Ring.current?_eq h.sound
    rw [hc] at hq
    exact List.Perm.eq_nil (List.head?_eq_none_iff.1 hq.symm ▸ p.ring.toQueue_perm.symm)
  refine ⟨hempty, ?_⟩
  rw [Ring.size, hempty]
  exact h.positive

theorem checked_growOrStall (h : p.Inv) (hc : p.ring.current? = some s) (w : W) :
    Checked.growOrStall b p w = some (growOrStall b s (p, w)) := by
  simp only [Checked.growOrStall, growOrStall]
  split
  · exact checked_grow h w
  · exact checked_stall hc w

theorem checked_acquire (h : p.Inv) (w : W) : Checked.acquire b p w = some (acquire b (p, w)) := by
  simp only [Checked.acquire, acquire]
  split
  · rfl
  · cases hc : p.ring.current? with
    | none =>
      obtain ⟨hempty, hroom⟩ := h.vacant hc
      have hempty : p.ring.isEmpty = true := by simp [Ring.isEmpty, hempty]
      simp only [hempty, if_true, Checked.growOrStall, if_pos hroom]
      exact checked_grow h w
    | some s =>
      have hs : p.ring.slots[p.ring.cursor]? = some s := hc
      have hempty : ¬p.ring.isEmpty = true := by
        rw [Ring.isEmpty, List.isEmpty_iff]
        exact List.ne_nil_of_mem (Ring.current?_mem hc)
      simp only [if_neg hempty, hs, Option.bind_eq_bind, Option.bind_some]
      rcases probe b s w with ⟨marker | _ | e, w'⟩
      · simp only [Ring.replaceAt?_cursor (Ring.cursor_lt hc), Option.bind_some]
        exact checked_handOut_replaced hc p.stats w'
      · exact checked_growOrStall h hc w'
      · exact checked_growOrStall h.countMarkerFault hc w'

theorem checked_passOn (hc : p.ring.current? = some s) (s' : Surface T K V) (stats : Stats) :
    Checked.passOn p s' stats = some (p.passOn s' stats) := by
  have hlt := Ring.cursor_lt hc
  have hlt' : (p.ring.setCurrent { s' with phase := .released }).cursor <
      (p.ring.setCurrent { s' with phase := .released }).size := by
    rw [Ring.size_setCurrent]
    exact hlt
  simp only [Checked.passOn, Ring.replaceAt?_cursor hlt, Option.bind_eq_bind, Option.bind_some,
    Ring.advance?_eq hlt']
  rfl

theorem checked_release (k : Handle) (p : Pool T K V) (w : W) :
    Checked.release b k p w = some (release b k (p, w)) := by
  simp only [Checked.release, release]
  split
  · rfl
  · cases hc : p.ring.current? with
    | none => rfl
    | some s =>
      dsimp only
      split
      · rfl
      · rcases b.producer.record (s.marker, w) with ⟨_, m, w'⟩ | ⟨e, m, w'⟩ <;>
          simp only [checked_passOn hc, Option.bind_eq_bind, Option.bind_some] <;> rfl

/-- Looking a handle up gives the index of a slot. -/
theorem locate?_lt {k : Handle} {i : Nat} (hi : p.locate? k = some i) : i < p.ring.size := by
  obtain ⟨s, hs, -⟩ := Ring.locate?_some hi
  exact (List.getElem?_eq_some_iff.1 hs).1

/-- What `find?` finds stands where `locate?` says. -/
theorem checked_awaitConsumer (k : Handle) (p : Pool T K V) (w : W) :
    Checked.awaitConsumer b k p w = some (awaitConsumer b k (p, w)) := by
  simp only [Checked.awaitConsumer, awaitConsumer]
  split
  · rfl
  · cases hi : p.locate? k with
    | none =>
      have hf : p.find? k = none := by
        show (p.locate? k).bind _ = none
        rw [hi]
        rfl
      rw [hf]
    | some i =>
      obtain ⟨s, hs⟩ : ∃ s, p.ring.slots[i]? = some s :=
        ⟨_, List.getElem?_eq_getElem (locate?_lt hi)⟩
      have hf : p.find? k = some s := by
        show (p.locate? k).bind _ = some s
        rw [hi]
        exact hs
      simp only [hf, hs, Option.bind_eq_bind, Option.bind_some]
      rcases b.consumer.drain s.view s.viewStaging p.stagingSize w with ⟨_, w'⟩ | ⟨e, w'⟩ <;> rfl

theorem checked_turn {x : Pool T K V × W} (h : x.1.Inv) (op : Op) :
    Checked.turn b x op = some (turn b x op) := by
  cases op with
  | acquire =>
    rw [Checked.turn, checked_acquire h, turn_acquire]
    rfl
  | release k =>
    rw [Checked.turn, checked_release, turn_release]
    rfl
  | awaitConsumer k =>
    rw [Checked.turn, checked_awaitConsumer, turn_awaitConsumer]
    rfl
  | close => rfl

theorem checked_turns {x : Pool T K V × W} (h : x.1.Inv) (ops : List Op) :
    Checked.turns b x ops = some (turns b x ops) := by
  induction ops generalizing x with
  | nil => rfl
  | cons op ops ih =>
    simp only [Checked.turns, checked_turn h, Option.bind_eq_bind, Option.bind_some,
      ih (inv_turn h op)]
    rfl

/-! ### What callers can see -/

/-- A ring between operations. -/
structure Shape (p : Pool T K V) : Prop where
  room : p.ring.size ≤ p.capacity ∧ p.capacity ≤ maxSurfaces
  cursor : p.ring.slots ≠ [] → p.ring.cursor < p.ring.size
  cursor_empty : p.ring.slots = [] → p.ring.cursor = 0
  /-- Only the surface at the cursor can be out. -/
  others : ∀ i s, p.ring.slots[i]? = some s → i ≠ p.ring.cursor → s.phase = .released
  current : ∀ s, p.ring.slots[p.ring.cursor]? = some s → s.phase = .writing ∨ s.phase = .released
  one_out : ∀ (i j : Nat) (s t : Surface T K V), p.ring.slots[i]? = some s → p.ring.slots[j]? = some t →
    s.phase = .writing → t.phase = .writing → i = j
  none_idle : ∀ s ∈ p.ring.slots, s.phase ≠ .idle
  /-- Whoever looks a handle up is given the index of a slot. -/
  located : ∀ k i, p.locate? k = some i → i < p.ring.size
  /-- The handles of a pool that stands are numbered from 1, and it built no other surfaces. -/
  numbered : p.closed = false →
    p.handles.Perm (firstHandles p.ring.size) ∧ p.stats.built = p.ring.size

theorem Inv.cursor_lt (h : p.Inv) (hs : p.ring.slots ≠ []) : p.ring.cursor < p.ring.size := by
  rcases h.sound with hlt | ⟨hempty, -⟩
  · exact hlt
  · exact absurd hempty hs

theorem Inv.shape (h : p.Inv) : p.Shape := by
  have hothers (i : Nat) (s : Surface T K V) (hs : p.ring.slots[i]? = some s)
      (hi : i ≠ p.ring.cursor) : s.phase = .released :=
    h.behind s (Ring.mem_tail_of_ne (h.cursor_lt (List.ne_nil_of_mem (List.mem_of_getElem? hs)))
      hs hi)
  have hcurrent (s : Surface T K V) (hs : p.ring.slots[p.ring.cursor]? = some s) :
      s.phase = .writing ∨ s.phase = .released := by
    by_cases hr : s.phase = .released
    · exact .inr hr
    · exact .inl (h.writing_of_current hs hr)
  have hout (i : Nat) (s : Surface T K V) (hs : p.ring.slots[i]? = some s)
      (hw : s.phase = .writing) : i = p.ring.cursor := by
    by_contra hi
    rw [hothers i s hs hi] at hw
    cases hw
  refine ⟨⟨h.room, h.limited⟩, h.cursor_lt, fun hempty => ?_, hothers, hcurrent, ?_, ?_,
    fun k i => locate?_lt, ?_⟩
  · rcases h.sound with hlt | ⟨-, hcursor⟩
    · rw [Ring.size, hempty] at hlt
      exact absurd hlt (Nat.not_lt_zero _)
    · exact hcursor
  · intro i j s t hs ht hsw htw
    rw [hout i s hs hsw, hout j t ht htw]
  · intro s hs hidle
    obtain ⟨i, hi⟩ := List.getElem?_of_mem hs
    by_cases hcursor : i = p.ring.cursor
    · rcases hcurrent s (hcursor ▸ hi) with hw | hr
      · rw [hidle] at hw
        cases hw
      · rw [hidle] at hr
        cases hr
    · have hr := hothers i s hi hcursor
      rw [hidle] at hr
      cases hr
  · exact fun hp => ⟨h.numbered hp, (h.counted hp).2⟩

/-! ### A ring only grows -/

theorem Acquiring.grows {r : EStateM.Result Fault (Pool T K V × W) Handle} (h : p.Inv)
    (ha : Acquiring b p w r) : p.ring.size ≤ (Attempt.leaves r).1.ring.size ∧
      (Attempt.leaves r).1.capacity = p.capacity := by
  cases ha with
  | closed => exact ⟨Nat.le_refl _, rfl⟩
  | again => exact ⟨Nat.le_of_eq (Ring.size_setCurrent ..).symm, rfl⟩
  | ready => exact ⟨Nat.le_of_eq (Ring.size_setCurrent ..).symm, rfl⟩
  | @grew o s p₁ w₁ w₂ hp hd =>
    refine ⟨?_, hd.ring.2.1⟩
    show p.ring.size ≤ (p₁.ring.insert _).size
    rw [Ring.size_insert (h.declined hd).sound, hd.ring.1]
    exact Nat.le_succ _
  | growthFailed hp hd => exact ⟨Nat.le_of_eq (congrArg Ring.size hd.ring.1.symm), hd.ring.2.1⟩
  | @stalled s p₁ w₁ w₂ hp hd =>
    have hsize : (p₁.ring.setCurrent { s with phase := .writing }).size = p.ring.size := by
      rw [Ring.size_setCurrent, hd.ring.1]
    exact ⟨Nat.le_of_eq hsize.symm, hd.ring.2.1⟩
  | stallFailed hp hd => exact ⟨Nat.le_of_eq (congrArg Ring.size hd.ring.1.symm), hd.ring.2.1⟩

theorem Releasing.keeps {k : Handle} {r : EStateM.Result Fault (Pool T K V × W) Unit}
    (hr : Releasing b k p w r) : (Attempt.leaves r).1.ring.size = p.ring.size ∧
      (Attempt.leaves r).1.capacity = p.capacity := by
  cases hr with
  | closed => exact ⟨rfl, rfl⟩
  | stale => exact ⟨rfl, rfl⟩
  | recorded => exact ⟨Ring.size_setCurrent .., rfl⟩
  | unrecorded => exact ⟨Ring.size_setCurrent .., rfl⟩

/-- Only tearing down takes surfaces out of a ring. -/
theorem grows_turn {x : Pool T K V × W} (h : x.1.Inv) (op : Op) :
    ((turn b x op).after.1.closed = false → x.1.ring.size ≤ (turn b x op).after.1.ring.size) ∧
      (turn b x op).after.1.capacity = x.1.capacity := by
  cases op with
  | acquire =>
    obtain ⟨hsize, hcapacity⟩ := (acquiring b x.1 x.2).grows h
    rw [turn_acquire]
    exact ⟨fun _ => hsize, hcapacity⟩
  | release k =>
    obtain ⟨hsize, hcapacity⟩ := (releasing b k x.1 x.2).keeps
    rw [turn_release]
    exact ⟨fun _ => Nat.le_of_eq hsize.symm, hcapacity⟩
  | awaitConsumer k =>
    have hpool := (awaiting b k x.1 x.2).pool
    rw [turn_awaitConsumer]
    exact ⟨fun _ => Nat.le_of_eq (congrArg (·.ring.size) hpool.symm), congrArg (·.capacity) hpool⟩
  | close =>
    rw [turn_close]
    simp only [close]
    split
    · exact ⟨fun _ => Nat.le_refl _, rfl⟩
    · exact ⟨fun hp => (by cases hp), rfl⟩

theorem grows_turns {x : Pool T K V × W} (h : x.1.Inv) (ops : List Op) :
    (∀ t ∈ turns b x ops, t.after.1.closed = false → t.before.1.ring.size ≤ t.after.1.ring.size) ∧
      (run b x ops).1.capacity = x.1.capacity := by
  induction ops generalizing x with
  | nil => exact ⟨fun t ht => (by cases ht), rfl⟩
  | cons op ops ih =>
    obtain ⟨hnow, hcapacity⟩ := grows_turn (b := b) h op
    obtain ⟨hlater, hcapacity'⟩ := ih (inv_turn (b := b) h op)
    refine ⟨fun t ht => ?_, hcapacity'.trans hcapacity⟩
    rcases List.mem_cons.1 ht with rfl | ht
    · exact hnow
    · exact hlater t ht

/-- **A ring stays in shape, and nothing reaches outside it.** Whatever the two domains answer,
after any list of requests with any handles the ring is within the capacity the pool was made
with, its cursor names a slot unless there is none, only the surface at the cursor can be out,
all others are released and none is idle; while the pool stands its surfaces are numbered from
1 without gaps, no request makes them fewer, and every request of the list finds all the slots
that it names by index, and has no remainder by zero to take. -/
theorem ring_in_shape {c : Config} {p : Pool T K V} (hp : make c = .ok p) (b : Backend W T K V)
    (w : W) (ops : List Op) :
    (run b (p, w) ops).1.Shape ∧ (run b (p, w) ops).1.capacity = c.capacity ∧
      (∀ t ∈ turns b (p, w) ops, t.after.1.closed = false →
        t.before.1.ring.size ≤ t.after.1.ring.size) ∧
      Checked.turns b (p, w) ops = some (turns b (p, w) ops) := by
  have hinv := inv_make hp
  have hcapacity : p.capacity = c.capacity := congrArg Fifo.capacity (make_empty hp).2
  obtain ⟨hgrows, hkept⟩ := grows_turns (b := b) (x := (p, w)) hinv ops
  exact ⟨(inv_run (x := (p, w)) hinv ops).shape, hkept.trans hcapacity, hgrows,
    checked_turns (x := (p, w)) hinv ops⟩

/-- With room for two and markers that never retire, the ring has grown once and then stalled. -/
theorem ring_in_shape_lagging :
    ∃ p : Pool Unit Unit Unit, make ⟨⟨4, 4⟩, 2⟩ = .ok p ∧
      (run (steady false) (p, ())
        [.acquire, .release ⟨1⟩, .acquire, .release ⟨2⟩, .acquire]).1.Shape ∧
      (run (steady false) (p, ())
        [.acquire, .release ⟨1⟩, .acquire, .release ⟨2⟩, .acquire]).1.handles = [⟨2⟩, ⟨1⟩] := by
  obtain ⟨p, hp⟩ : ∃ p : Pool Unit Unit Unit, make ⟨⟨4, 4⟩, 2⟩ = .ok p := ⟨_, rfl⟩
  refine ⟨p, hp, (ring_in_shape hp (steady false) () _).1, ?_⟩
  cases hp
  rfl

end Pool
end SurfaceRelay
