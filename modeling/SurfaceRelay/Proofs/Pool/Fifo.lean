import SurfaceRelay.Proofs.Pool.Invariant

/-! A pool is a first-in first-out queue.

`Fifo` is a pool without a ring and without a cursor: the surface that is out, if any, and a
queue of released surfaces. Reading the ring from its cursor turns a pool into such a queue
(`toFifo`), and every hand-over does to the one what it does to the other, with the same
answer, whatever the domains answer (`pool_is_fifo`). Putting a new surface in at the cursor
is what makes this so: the queue behind it is neither cut nor turned.

The one thing a queue cannot know is the cursor, which a pool names in the notice of a stall.
Both are compared before an observer that is not told it (`unplaced`). -/
namespace SurfaceRelay
variable {W T K V : Type}

/-- The notice without the cursor it may name. -/
def Notice.unplaced : Notice → Notice
  | .underflow _ => .underflow 0
  | n => n

/-- The backend with an observer that is not told the cursor. -/
def Backend.unplaced (b : Backend W T K V) : Backend W T K V :=
  { b with note := fun n => b.note n.unplaced }

/-- A pool as a queue. -/
structure Fifo (T K V : Type) where
  size : Extent
  capacity : Nat
  /-- The surface being written. -/
  out : Option (Surface T K V)
  /-- The released surfaces, the least recently released in front. -/
  released : List (Surface T K V)
  nextHandle : Nat
  stats : Pool.Stats

namespace Fifo
variable (b : Backend W T K V)

def empty (c : Pool.Config) : Fifo T K V :=
  { size := c.size, capacity := c.capacity, out := none, released := [], nextHandle := 1
    stats := {} }

def stagingSize (q : Fifo T K V) : Extent := q.size.clamp stagingEdge

/-- The surfaces, the one that is out first. -/
def surfaces (q : Fifo T K V) : List (Surface T K V) := q.out.toList ++ q.released

def countMarkerFault (q : Fifo T K V) : Fifo T K V :=
  { q with stats := { q.stats with markerFaults := q.stats.markerFaults + 1 } }

/-- The queue with a surface out, and these left. -/
def handOut (q : Fifo T K V) (s : Surface T K V) (rest : List (Surface T K V)) : Fifo T K V :=
  { q with out := some { s with phase := .writing }, released := rest }

/-- The queue with a new surface out. -/
def extend (q : Fifo T K V) (s : Surface T K V) : Fifo T K V :=
  { q.handOut s q.released with
    nextHandle := q.nextHandle + 1
    stats := { q.stats with built := q.stats.built + 1 } }

/-- The queue after a forced wait cleared its front. -/
def reclaim (q : Fifo T K V) (s : Surface T K V) (rest : List (Surface T K V)) : Fifo T K V :=
  { q.handOut s rest with stats := { q.stats with stalls := q.stats.stalls + 1 } }

/-- The queue after the surface that was out went to its back. -/
def takeBack (q : Fifo T K V) (s : Surface T K V) (stats : Pool.Stats) : Fifo T K V :=
  { q with out := none, released := q.released ++ [{ s with phase := .released }], stats }

/-- Builds a surface and hands it out. -/
def grow : Attempt (Fifo T K V × W) Handle := fun (q, w) =>
  match Surface.build b ⟨q.nextHandle⟩ q.size q.stagingSize w with
  | .error e w => .error e (q, b.note (.creationFailed ⟨q.nextHandle⟩ e) w)
  | .ok s w => .ok ⟨q.nextHandle⟩ (q.extend s, b.note (.grew (q.extend s).surfaces.length) w)

/-- What is done when the front is not proven idle: a new surface while there is room, else
the front after a forced wait. -/
def growOrStall (s : Surface T K V) (rest : List (Surface T K V)) :
    Attempt (Fifo T K V × W) Handle := fun (q, w) =>
  if q.surfaces.length < q.capacity then grow b (q, w)
  else
    match b.producer.drain s.texture s.staging q.stagingSize w with
    | .error e w => .error e (q, b.note (.producerWaitFailed s.handle e) w)
    | .ok _ w => .ok s.handle (q.reclaim s rest, b.note (.underflow 0) w)

/-- Hands out the surface that is out already, else the front of the queue when its marker
has retired, else what `growOrStall` gives. -/
def acquire : Attempt (Fifo T K V × W) Handle := fun (q, w) =>
  match q.out, q.released with
  | some s, _ => .ok s.handle (q, w)
  | none, [] => grow b (q, w)
  | none, s :: rest =>
    if s.armed then
      match b.producer.poll s.marker w with
      | .ok (some marker) w => .ok s.handle (q.handOut { s with marker } rest, w)
      | .ok none w => growOrStall b s rest (q, w)
      | .error e w =>
        growOrStall b s rest (q.countMarkerFault, b.note (.pollFailed s.handle e) w)
    else growOrStall b s rest (q, w)

/-- Takes the surface that is out to the back of the queue. -/
def release (h : Handle) : Attempt (Fifo T K V × W) Unit := fun (q, w) =>
  match q.out with
  | none => .error (.staleHandle h) (q, w)
  | some s =>
    if s.handle = h then
      match b.producer.record (s.marker, w) with
      | .ok _ (marker, w) =>
        .ok () (q.takeBack { s with marker, armed := true }
          { q.stats with markersRecorded := q.stats.markersRecorded + 1 }, w)
      | .error e (marker, w) =>
        .ok () (q.takeBack { s with marker, armed := false }
          { q.stats with markerFaults := q.stats.markerFaults + 1 },
          b.note (.recordFailed s.handle e) w)
    else .error (.staleHandle h) (q, w)

def awaitConsumer (h : Handle) : Attempt (Fifo T K V × W) Unit := fun (q, w) =>
  match q.surfaces.find? (·.handle == h) with
  | none => .error (.staleHandle h) (q, w)
  | some s =>
    match b.consumer.drain s.view s.viewStaging q.stagingSize w with
    | .error e w => .error e (q, b.note (.consumerWaitFailed s.handle e) w)
    | .ok _ w => .ok () (q, w)

end Fifo

/-! ### A pool read as a queue -/

namespace Pool

/-- The ring read from its cursor: the surface that is not released, and those that are. -/
def toFifo (p : Pool T K V) : Fifo T K V :=
  { size := p.size, capacity := p.capacity
    out := p.ring.toQueue.find? (!·.isBusy)
    released := p.ring.toQueue.filter (·.isBusy)
    nextHandle := p.nextHandle, stats := p.stats }

/-- A queue with its front taken out. -/
theorem toFifo_eq {p : Pool T K V} {s : Surface T K V} {rest : List (Surface T K V)}
    (hq : p.ring.toQueue = s :: rest) (hs : s.phase ≠ .released)
    (hrest : ∀ t ∈ rest, t.phase = .released) :
    p.toFifo = ⟨p.size, p.capacity, some s, rest, p.nextHandle, p.stats⟩ := by
  have hbusy : s.isBusy = false := by simpa [Surface.isBusy] using hs
  have hfilter : rest.filter (·.isBusy) = rest :=
    List.filter_eq_self.2 fun t ht => by simpa [Surface.isBusy] using hrest t ht
  simp only [toFifo, hq, List.find?_cons, List.filter_cons, hbusy, hfilter]
  rfl

/-- A queue with nothing out. -/
theorem toFifo_eq_of_released {p : Pool T K V} (h : ∀ t ∈ p.ring.toQueue, t.phase = .released) :
    p.toFifo = ⟨p.size, p.capacity, none, p.ring.toQueue, p.nextHandle, p.stats⟩ := by
  have hfind : p.ring.toQueue.find? (!·.isBusy) = none :=
    List.find?_eq_none.2 fun t ht => by simpa [Surface.isBusy] using h t ht
  have hfilter : p.ring.toQueue.filter (·.isBusy) = p.ring.toQueue :=
    List.filter_eq_self.2 fun t ht => by simpa [Surface.isBusy] using h t ht
  simp only [toFifo, hfind, hfilter]

variable {p : Pool T K V} {s : Surface T K V}

/-- When the surface at the cursor is released, all are. -/
theorem Inv.all_released (h : p.Inv) (hc : ∀ s, p.ring.current? = some s → s.phase = .released) :
    ∀ t ∈ p.ring.toQueue, t.phase = .released := by
  intro t ht
  have hb := h.behind
  rw [Ring.current?_eq h.sound] at hc
  cases hq : p.ring.toQueue with
  | nil => rw [hq] at ht; cases ht
  | cons s rest =>
    rw [hq] at ht hb hc
    rcases List.mem_cons.1 ht with rfl | ht
    · exact hc t rfl
    · exact hb t ht

/-- The queue has the surfaces of the ring, in its order. -/
theorem Inv.surfaces_toFifo (h : p.Inv) : p.toFifo.surfaces = p.ring.toQueue := by
  cases hc : p.ring.current? with
  | none =>
    rw [toFifo_eq_of_released (h.all_released (by simp [hc]))]
    rfl
  | some s =>
    have hq := Ring.toQueue_of_current hc
    by_cases hs : s.phase = .released
    · rw [toFifo_eq_of_released (h.all_released (by simp [hc, hs]))]
      rfl
    · rw [toFifo_eq hq hs h.behind]
      exact hq.symm

/-! ### One operation -/

theorem toFifo_handOut (h : p.Inv) (hc : p.ring.current? = some s) (s' : Surface T K V) :
    (p.handOut s').toFifo = p.toFifo.handOut s' p.ring.toQueue.tail :=
  toFifo_eq (Ring.toQueue_setCurrent (Ring.cursor_lt hc) _) (by simp) h.behind

theorem toFifo_reclaim (h : p.Inv) (hc : p.ring.current? = some s) :
    (p.reclaim s).toFifo = p.toFifo.reclaim s p.ring.toQueue.tail :=
  toFifo_eq (Ring.toQueue_setCurrent (Ring.cursor_lt hc) _) (by simp) h.behind

/-- A surface that is put in at the cursor goes out ahead of the queue. -/
theorem toFifo_extend (h : p.Inv)
    (hc : ∀ s, p.ring.current? = some s → s.phase = .released) :
    (p.extend s).toFifo = p.toFifo.extend s := by
  have hall := h.all_released hc
  rw [toFifo_eq_of_released hall]
  exact toFifo_eq (Ring.toQueue_insert h.sound _) (by simp) hall

/-- Moving the cursor on takes the surface that was out to the back of the queue. -/
theorem toFifo_passOn (h : p.Inv) (hc : p.ring.current? = some s) (hs : s.phase ≠ .released)
    (s' : Surface T K V) (stats : Stats) :
    (p.passOn s' stats).toFifo = p.toFifo.takeBack s' stats := by
  rw [toFifo_eq_of_released (h.released_passOn hc s' stats),
    toFifo_eq (Ring.toQueue_of_current hc) hs h.behind, toQueue_passOn hc]
  rfl

/-- The result of an operation, with the pool read as a queue. -/
def asFifo {α : Type} :
    EStateM.Result Fault (Pool T K V × W) α → EStateM.Result Fault (Fifo T K V × W) α
  | .ok a (p, w) => .ok a (p.toFifo, w)
  | .error e (p, w) => .error e (p.toFifo, w)

section Simulation
variable {b : Backend W T K V}

theorem stagingSize_toFifo (p : Pool T K V) : p.toFifo.stagingSize = p.stagingSize := rfl

theorem fifo_grow (h : p.Inv) (hc : ∀ s, p.ring.current? = some s → s.phase = .released) (w : W) :
    Fifo.grow b (p.toFifo, w) = asFifo (grow b (p, w)) := by
  have hlength (s : Surface T K V) :
      (p.toFifo.extend s).surfaces.length = (p.extend s).ring.size := by
    show (p.toFifo.released.length + 1) = (Ring.insert _ _).size
    rw [Ring.size_insert h.sound, toFifo_eq_of_released (h.all_released hc), Ring.length_toQueue]
  simp only [Fifo.grow, grow, stagingSize_toFifo]
  show (match Surface.build b ⟨p.nextHandle⟩ p.size p.stagingSize w with
    | .error e w => _
    | .ok s w => _) = _
  rcases Surface.build b ⟨p.nextHandle⟩ p.size p.stagingSize w with ⟨s, w'⟩ | ⟨e, w'⟩
  · simp only [asFifo, toFifo_extend h hc, hlength]
    rfl
  · rfl

variable (hnote : ∀ n w, b.note (.underflow n) w = b.note (.underflow 0) w)
include hnote

theorem fifo_growOrStall (h : p.Inv) (hc : p.ring.current? = some s) (hr : s.phase = .released)
    (w : W) :
    Fifo.growOrStall b s p.ring.toQueue.tail (p.toFifo, w) = asFifo (growOrStall b s (p, w)) := by
  have hlength : p.toFifo.surfaces.length = p.ring.size := by
    rw [h.surfaces_toFifo, Ring.length_toQueue]
  simp only [Fifo.growOrStall, growOrStall, hlength, stagingSize_toFifo]
  show (if p.ring.size < p.capacity then _ else _) = _
  split
  · exact fifo_grow h (by rw [hc]; rintro _ ⟨⟩; exact hr) w
  · simp only [stall]
    rcases b.producer.drain s.texture s.staging p.stagingSize w with ⟨_, w'⟩ | ⟨e, w'⟩
    · simp only [asFifo, toFifo_reclaim h hc, hnote p.ring.cursor]
    · rfl

/-- Acquiring from a pool is acquiring from its queue. -/
theorem fifo_acquire (h : p.Inv) (hp : p.closed = false) (w : W) :
    Fifo.acquire b (p.toFifo, w) = asFifo (acquire b (p, w)) := by
  simp only [acquire, hp, Bool.false_eq_true, if_false]
  cases hc : p.ring.current? with
  | none =>
    have hcr : ∀ s, p.ring.current? = some s → s.phase = .released := by simp [hc]
    have hempty : p.toFifo.out = none ∧ p.toFifo.released = [] := by
      rw [toFifo_eq_of_released (h.all_released hcr)]
      exact ⟨rfl, List.head?_eq_none_iff.1 (Ring.current?_eq h.sound ▸ hc)⟩
    simp only [Fifo.acquire, hempty]
    exact fifo_grow h hcr w
  | some s =>
    have hq := Ring.toQueue_of_current hc
    by_cases hr : s.phase = .released
    · have hfront : p.toFifo.out = none ∧ p.toFifo.released = s :: p.ring.toQueue.tail := by
        rw [toFifo_eq_of_released (h.all_released (by simp [hc, hr]))]
        exact ⟨rfl, hq⟩
      simp only [Fifo.acquire, hfront]
      cases ha : s.armed with
      | false =>
        simp only [probe_unarmed b hr ha]
        exact fifo_growOrStall hnote h hc hr w
      | true =>
        simp only [probe_armed b hr ha]
        rcases b.producer.poll s.marker w with ⟨_ | k, w'⟩ | ⟨e, w'⟩
        · exact fifo_growOrStall hnote h hc hr w'
        · simp only [asFifo, toFifo_handOut h hc, if_true]
        · exact fifo_growOrStall (p := p.countMarkerFault) hnote h.countMarkerFault hc hr _
    · have hw := h.writing_of_current hc hr
      -- it is out already, so putting it out again changes nothing
      have hsame : (p.handOut s).toFifo = p.toFifo := by
        rw [toFifo_handOut h hc, toFifo_eq hq hr h.behind, Fifo.handOut, ← hw]
      simp only [probe_free b hr]
      show _ = EStateM.Result.ok s.handle ((p.handOut s).toFifo, w)
      rw [hsame]
      simp only [Fifo.acquire, toFifo_eq hq hr h.behind]

omit hnote

/-- Releasing a surface takes it to the back of the queue. -/
theorem fifo_release (h : p.Inv) (hp : p.closed = false) (k : Handle) (w : W) :
    Fifo.release b k (p.toFifo, w) = asFifo (release b k (p, w)) := by
  simp only [release, hp, Bool.false_eq_true, if_false]
  cases hc : p.ring.current? with
  | none =>
    have hout : p.toFifo.out = none := by
      rw [toFifo_eq_of_released (h.all_released (by simp [hc]))]
    simp only [Fifo.release, hout, asFifo]
  | some s =>
    by_cases hr : s.phase = .released
    · have hout : p.toFifo.out = none := by
        rw [toFifo_eq_of_released (h.all_released (by simp [hc, hr]))]
      have hstale : s.handle ≠ k ∨ s.phase ≠ .writing := .inr (by simp [hr])
      simp only [Fifo.release, hout, asFifo, if_pos hstale]
    · have hw := h.writing_of_current hc hr
      have hout : p.toFifo.out = some s := by
        rw [toFifo_eq (Ring.toQueue_of_current hc) hr h.behind]
      simp only [Fifo.release, hout]
      by_cases hk : s.handle = k
      · have hfits : ¬(s.handle ≠ k ∨ s.phase ≠ .writing) := by simp [hk, hw]
        simp only [if_pos hk, if_neg hfits]
        rcases b.producer.record (s.marker, w) with ⟨_, m, w'⟩ | ⟨e, m, w'⟩
        · simp only [asFifo, toFifo_passOn h hc hr]
          rfl
        · simp only [asFifo, toFifo_passOn h hc hr]
          rfl
      · simp only [if_neg hk, if_pos (show s.handle ≠ k ∨ s.phase ≠ .writing from .inl hk), asFifo]

/-- A handle means the same surface to the queue. -/
theorem Inv.find?_surfaces (h : p.Inv) (k : Handle) :
    p.toFifo.surfaces.find? (·.handle == k) = p.find? k := by
  rw [h.surfaces_toFifo]
  ext s
  rw [h.find?_eq_some, ← Ring.mem_toQueue]
  constructor
  · intro hs
    exact ⟨List.mem_of_find?_eq_some hs, by simpa using List.find?_some hs⟩
  · rintro ⟨hs, rfl⟩
    obtain ⟨t, ht⟩ := Option.isSome_iff_exists.1
      ((List.find?_isSome (p := (·.handle == s.handle))).2 ⟨s, hs, by simp⟩)
    have htq := (Ring.mem_toQueue _ _).1 (List.mem_of_find?_eq_some ht)
    rw [ht, h.unique htq ((Ring.mem_toQueue _ _).1 hs) (by simpa using List.find?_some ht)]

theorem fifo_awaitConsumer (h : p.Inv) (hp : p.closed = false) (k : Handle) (w : W) :
    Fifo.awaitConsumer b k (p.toFifo, w) = asFifo (awaitConsumer b k (p, w)) := by
  simp only [awaitConsumer, hp, Fifo.awaitConsumer, h.find?_surfaces, stagingSize_toFifo]
  cases p.find? k with
  | none => rfl
  | some s =>
    simp only [Bool.false_eq_true, if_false]
    rcases b.consumer.drain s.view s.viewStaging p.stagingSize w with ⟨_, w'⟩ | ⟨e, w'⟩ <;> rfl

end Simulation

/-! ### Every run -/

/-- What hands surfaces over, and leaves the pool standing. -/
inductive Transfer
  | acquire
  | release (h : Handle)
  | awaitConsumer (h : Handle)
deriving DecidableEq, Repr

def Transfer.op : Transfer → Op
  | .acquire => .acquire
  | .release h => .release h
  | .awaitConsumer h => .awaitConsumer h

end Pool

namespace Fifo
variable (b : Backend W T K V)

/-- Carries out one transfer. Only an acquire has something to answer. -/
def perform : Pool.Transfer → Attempt (Fifo T K V × W) (Option Handle)
  | .acquire => some <$> acquire b
  | .release h => (fun _ => none) <$> release b h
  | .awaitConsumer h => (fun _ => none) <$> awaitConsumer b h

/-- The answers to a list of transfers, and the state they lead to. -/
def run (x : Fifo T K V × W) :
    List Pool.Transfer → List (Except Fault (Option Handle)) × (Fifo T K V × W)
  | [] => ([], x)
  | m :: rest =>
    let (answer, x) := Attempt.outcome (perform b m) x
    let (answers, x) := run x rest
    (answer :: answers, x)

end Fifo

namespace Pool
variable {p : Pool T K V} {b : Backend W T K V} {w : W}

/-- Only tearing down ends a pool. -/
theorem Acquiring.standing {r : EStateM.Result Fault (Pool T K V × W) Handle}
    (ha : Acquiring b p w r) : (Attempt.leaves r).1.closed = p.closed := by
  cases ha with
  | closed => rfl
  | again => rfl
  | ready => rfl
  | grew hp hd => exact hd.ring.2.2.2.1
  | growthFailed hp hd => exact hd.ring.2.2.2.1
  | stalled hp hd => exact hd.ring.2.2.2.1
  | stallFailed hp hd => exact hd.ring.2.2.2.1

theorem Releasing.standing {k : Handle} {r : EStateM.Result Fault (Pool T K V × W) Unit}
    (hr : Releasing b k p w r) : (Attempt.leaves r).1.closed = p.closed := by
  cases hr <;> rfl

theorem standing_transfer (x : Pool T K V × W) (m : Transfer) :
    (turn b x m.op).after.1.closed = x.1.closed := by
  cases m with
  | acquire =>
    rw [Transfer.op, turn_acquire]
    exact (acquiring b x.1 x.2).standing
  | release h =>
    rw [Transfer.op, turn_release]
    exact (releasing b h x.1 x.2).standing
  | awaitConsumer h =>
    rw [Transfer.op, turn_awaitConsumer]
    have hr : Awaiting b h x.1 x.2 (awaitConsumer b h x) := awaiting b h x.1 x.2
    rw [hr.pool]

theorem answers_asFifo {α : Type} (r : EStateM.Result Fault (Pool T K V × W) α) :
    Attempt.answers (asFifo r) = Attempt.answers r := by
  cases r <;> rfl

theorem leaves_asFifo {α : Type} (r : EStateM.Result Fault (Pool T K V × W) α) :
    Attempt.leaves (asFifo r) = ((Attempt.leaves r).1.toFifo, (Attempt.leaves r).2) := by
  cases r <;> rfl

section Simulation
variable (hnote : ∀ n w, b.note (.underflow n) w = b.note (.underflow 0) w)
include hnote

/-- One transfer does to the queue what it does to the pool. -/
theorem fifo_turn (h : p.Inv) (hp : p.closed = false) (w : W) (m : Transfer) :
    Attempt.outcome (Fifo.perform b m) (p.toFifo, w) =
      ((turn b (p, w) m.op).answer, (turn b (p, w) m.op).after.1.toFifo,
        (turn b (p, w) m.op).after.2) := by
  cases m with
  | acquire =>
    rw [Transfer.op, turn_acquire, Fifo.perform, Attempt.outcome_map, fifo_acquire hnote h hp,
      answers_asFifo, leaves_asFifo]
  | release k =>
    rw [Transfer.op, turn_release, Fifo.perform, Attempt.outcome_map, fifo_release h hp,
      answers_asFifo, leaves_asFifo]
  | awaitConsumer k =>
    rw [Transfer.op, turn_awaitConsumer, Fifo.perform, Attempt.outcome_map,
      fifo_awaitConsumer h hp, answers_asFifo, leaves_asFifo]

theorem fifo_run (h : p.Inv) (hp : p.closed = false) (w : W) (moves : List Transfer) :
    Fifo.run b (p.toFifo, w) moves =
      ((turns b (p, w) (moves.map (·.op))).map (·.answer),
        (run b (p, w) (moves.map (·.op))).1.toFifo, (run b (p, w) (moves.map (·.op))).2) := by
  induction moves generalizing p w with
  | nil => rfl
  | cons m moves ih =>
    have hnext := ih (inv_turn (b := b) (x := (p, w)) h m.op)
      ((standing_transfer (b := b) (p, w) m).trans hp) (turn b (p, w) m.op).after.2
    simp only [Fifo.run, fifo_turn hnote h hp, hnext]
    rfl

end Simulation

/-! ### The order of release -/

/-- Where an acquire finds the surface it hands out: it is the one that is out, or the least
recently released one, or a new one. What is left released stays in its order. -/
theorem Acquiring.source (h : p.Inv) {k : Handle} {x : Pool T K V × W}
    (ha : Acquiring b p w (.ok k x)) :
    (∃ s, p.toFifo.out = some s ∧ s.handle = k ∧ x.1.toFifo.released = p.toFifo.released) ∨
    (∃ s, p.toFifo.released = s :: x.1.toFifo.released ∧ s.handle = k) ∨
    ((∀ s ∈ p.ring.slots, s.handle ≠ k) ∧ x.1.toFifo.released = p.toFifo.released) := by
  have hfront {s : Surface T K V} (hc : p.ring.current? = some s) (hr : s.phase = .released) :
      p.toFifo.released = s :: p.ring.toQueue.tail := by
    rw [toFifo_eq_of_released (h.all_released (by simp [hc, hr]))]
    exact Ring.toQueue_of_current hc
  cases ha with
  | @again s hp hc hs =>
    have hp' := toFifo_eq (Ring.toQueue_of_current hc) hs h.behind
    refine .inl ⟨s, by rw [hp'], rfl, ?_⟩
    rw [toFifo_handOut h hc, hp']
    rfl
  | @ready s m w' hp hc hr =>
    refine .inr (.inl ⟨s, ?_, rfl⟩)
    rw [toFifo_handOut h hc]
    exact hfront hc hr
  | @grew o s p₁ w₁ w₂ hp hd =>
    refine .inr (.inr ⟨fun t ht he => ?_, ?_⟩)
    · have hlt := h.fresh hp ht
      rw [he, hd.ring.2.2.2.2.1] at hlt
      exact absurd hlt (Nat.lt_irrefl _)
    · have hc : ∀ s, p₁.ring.current? = some s → s.phase = .released := by
        rw [hd.ring.1, hd.current]
        rintro s rfl
        exact hd.released
      rw [toFifo_extend (h.declined hd) hc]
      show p₁.ring.toQueue.filter _ = p.ring.toQueue.filter _
      rw [hd.ring.1]
  | @stalled s p₁ w₁ w₂ hp hd =>
    have hc : p₁.ring.current? = some s := by rw [hd.ring.1]; exact hd.current
    refine .inr (.inl ⟨s, ?_, rfl⟩)
    rw [toFifo_reclaim (h.declined hd) hc, hfront hd.current hd.released]
    show _ = s :: p₁.ring.toQueue.tail
    rw [hd.ring.1]

/-- The handles of the released surfaces, the least recently released first. -/
def line (p : Pool T K V) : List Handle := p.toFifo.released.map (·.handle)

/-- A turn takes a surface that goes out from wherever it waits, and puts a released one
last. -/
def Turn.pass (waiting : List Handle) (t : Turn W T K V) : List Handle :=
  match t.op, t.answer with
  | .acquire, .ok (some h) => waiting.erase h
  | .release h, .ok _ => waiting ++ [h]
  | .close, _ => []
  | _, _ => waiting

/-- Who waits after some turns, by the turns alone. -/
def waiting (history : List (Turn W T K V)) : List Handle := history.foldl Turn.pass []

theorem Acquiring.failed {e : Fault} {x : Pool T K V × W} (ha : Acquiring b p w (.error e x)) :
    x.1.ring = p.ring := by
  cases ha with
  | closed => rfl
  | growthFailed hp hd => exact hd.ring.1
  | stallFailed hp hd => exact hd.ring.1

theorem Acquiring.line (h : p.Inv) {k : Handle} {x : Pool T K V × W}
    (ha : Acquiring b p w (.ok k x)) : x.1.line = p.line.erase k := by
  have hqueue (s : Surface T K V) (hs : s ∈ p.toFifo.released) : s ∈ p.ring.slots := by
    rw [← Ring.mem_toQueue]
    exact List.mem_of_mem_filter hs
  simp only [Pool.line]
  rcases ha.source h with ⟨s, hout, rfl, hkept⟩ | ⟨s, hfront, rfl⟩ | ⟨hnew, hkept⟩
  · -- what is out does not wait
    rw [hkept, List.erase_of_not_mem]
    rintro hmem
    obtain ⟨t, ht, hts⟩ := List.mem_map.1 hmem
    have hs : s ∈ p.ring.slots := (Ring.mem_toQueue _ _).1 (List.mem_of_find?_eq_some hout)
    have hbusy := List.find?_some hout
    rw [← h.unique (hqueue t ht) hs hts, (List.mem_filter.1 ht).2] at hbusy
    cases hbusy
  · rw [hfront, List.map_cons, List.erase_cons_head]
  · rw [hkept, List.erase_of_not_mem]
    rintro hmem
    obtain ⟨t, ht, hts⟩ := List.mem_map.1 hmem
    exact hnew t (hqueue t ht) hts

theorem Releasing.line {k : Handle} (h : p.Inv) {x : Pool T K V × W}
    (hr : Releasing b k p w (.ok () x)) : x.1.line = p.line ++ [k] := by
  cases hr with
  | recorded hp hc hh hs =>
    subst hh
    simp only [Pool.line, toFifo_passOn h hc (by simp [hs]), Fifo.takeBack, List.map_append]
    rfl
  | unrecorded hp hc hh hs =>
    subst hh
    simp only [Pool.line, toFifo_passOn h hc (by simp [hs]), Fifo.takeBack, List.map_append]
    rfl

theorem line_turn {x : Pool T K V × W} (h : x.1.Inv) (op : Op) :
    (turn b x op).after.1.line = (turn b x op).pass x.1.line := by
  cases op with
  | acquire =>
    have ha : Acquiring b x.1 x.2 (acquire b x) := acquiring b x.1 x.2
    rw [turn_acquire]
    rcases hr : acquire b x with ⟨k, y⟩ | ⟨e, y⟩ <;> rw [hr] at ha
    · exact ha.line h
    · simp only [Turn.pass, Attempt.answers, Attempt.leaves, Except.map, Pool.line, toFifo,
        ha.failed]
  | release k =>
    have hr : Releasing b k x.1 x.2 (release b k x) := releasing b k x.1 x.2
    rw [turn_release]
    rcases hk : release b k x with ⟨_, y⟩ | ⟨e, y⟩ <;> rw [hk] at hr
    · exact hr.line h
    · cases hr <;> rfl
  | awaitConsumer k =>
    have hr : Awaiting b k x.1 x.2 (awaitConsumer b k x) := awaiting b k x.1 x.2
    rw [turn_awaitConsumer]
    exact congrArg Pool.line hr.pool
  | close =>
    have hempty : (close b x).1.ring = .empty := by
      simp only [close]
      split
      · exact h.emptied ‹_›
      · rfl
    rw [turn_close]
    simp only [Turn.pass, Pool.line, toFifo, hempty]
    rfl

theorem line_run {x : Pool T K V × W} (h : x.1.Inv) (ops : List Op) :
    (run b x ops).1.line = (turns b x ops).foldl Turn.pass x.1.line := by
  induction ops generalizing x with
  | nil => rfl
  | cons op ops ih => simp only [run, turns, List.foldl_cons, ih (inv_turn h op), line_turn h op]

theorem make_empty {c : Config} (hp : make c = .ok p) :
    p.closed = false ∧ p.toFifo = .empty c := by
  obtain ⟨rfl, -⟩ := make_ok hp
  exact ⟨rfl, rfl⟩

/-- **A pool is a first-in first-out queue.** Whatever the domains answer, a run of hand-overs
on a pool gives the answers that the same run gives on an empty queue, leaves the world as it
does, and leaves a pool that reads as that queue. The surfaces that wait are those that the
history says were released and did not go out since, in the order of their releases; and an
acquire that succeeds hands out the surface that is out already, or the one that waited
longest, or one that the pool did not have. -/
theorem pool_is_fifo {c : Config} {p : Pool T K V} (hp : make c = .ok p) (b : Backend W T K V)
    (w : W) (moves : List Transfer) :
    let history := turns b.unplaced (p, w) (moves.map (·.op))
    let x := run b.unplaced (p, w) (moves.map (·.op))
    Fifo.run b.unplaced (.empty c, w) moves = (history.map (·.answer), x.1.toFifo, x.2) ∧
      x.1.toFifo.surfaces = x.1.ring.toQueue ∧
      x.1.toFifo.released.map (·.handle) = waiting history ∧
      ∀ past acq rest h, history = past ++ acq :: rest → acq.answer = .ok (some h) →
        (∃ s, acq.before.1.toFifo.out = some s ∧ s.handle = h) ∨
        (waiting past).head? = some h ∨
        (∀ s ∈ acq.before.1.ring.slots, s.handle ≠ h) := by
  intro history x
  have hinv := inv_make hp
  obtain ⟨hopen, hempty⟩ := make_empty hp
  have hline : p.line = [] := by rw [line, hempty]; rfl
  refine ⟨?_, (inv_run (x := (p, w)) hinv _).surfaces_toFifo, ?_, ?_⟩
  · rw [← hempty]
    exact fifo_run (fun _ _ => rfl) hinv hopen w moves
  · rw [waiting, ← hline]
    exact line_run (x := (p, w)) hinv _
  · intro past acq rest h hhistory hok
    obtain ⟨ops₁, ops₂, hpast, hturns⟩ := turns_split _ hhistory
    obtain ⟨hacq, -⟩ := turns_cons _ hturns.symm
    have hwaiting : waiting past = (run b.unplaced (p, w) ops₁).1.line := by
      rw [line_run (x := (p, w)) hinv ops₁, hline, ← hpast]
      rfl
    have hy := inv_run (b := b.unplaced) (x := (p, w)) hinv ops₁
    generalize run b.unplaced (p, w) ops₁ = y at hacq hwaiting hy
    have hbefore : acq.before = y := by rw [hacq]; rfl
    rw [hacq] at hok
    obtain ⟨-, hacquire⟩ := acquire_of_answer _ hok
    have ha : Acquiring b.unplaced y.1 y.2 (acquire b.unplaced y) := acquiring _ y.1 y.2
    rw [hacquire] at ha
    rw [hbefore, hwaiting]
    rcases ha.source hy with ⟨s, hout, hs, -⟩ | ⟨s, hfront, hs⟩ | ⟨hnew, -⟩
    · exact .inl ⟨s, hout, hs⟩
    · refine .inr (.inl ?_)
      rw [line, hfront, List.map_cons, List.head?_cons, hs]
    · exact .inr (.inr hnew)

/-- With room for two, and markers that never retire: the ring grows once and then stalls on
the first surface. -/
theorem pool_is_fifo_lagging :
    (∃ p : Pool Unit Unit Unit, make ⟨⟨4, 4⟩, 2⟩ = .ok p) ∧
      (Fifo.run (steady false).unplaced (.empty ⟨⟨4, 4⟩, 2⟩, ())
        [.acquire, .release ⟨1⟩, .acquire, .release ⟨2⟩, .acquire]).1 =
        [.ok (some ⟨1⟩), .ok none, .ok (some ⟨2⟩), .ok none, .ok (some ⟨1⟩)] := by
  obtain ⟨p, hp⟩ : ∃ p : Pool Unit Unit Unit, make ⟨⟨4, 4⟩, 2⟩ = .ok p := ⟨_, rfl⟩
  refine ⟨⟨p, hp⟩, ?_⟩
  rw [(pool_is_fifo hp (steady false) ()
    [.acquire, .release ⟨1⟩, .acquire, .release ⟨2⟩, .acquire]).1]
  cases hp
  rfl

end Pool
end SurfaceRelay
