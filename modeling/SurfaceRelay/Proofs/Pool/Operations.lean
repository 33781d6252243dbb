import SurfaceRelay.Pool.Handover
import SurfaceRelay.Proofs.Attempt

/-! Everything an operation of a pool can do.

For each operation there is a relation between the pool and world it starts from and its
result, with one case for each way through it: `Acquiring`, `Releasing`, `Awaiting`. A case
names the answers the domains gave on that way and says what the pool is afterwards, so
that whatever is said of an operation is said by looking at its cases.

`Op` is what a caller can ask of a pool, and `turns` what becomes of a list of requests:
one turn after the other, each with its answer and the states around it. -/
namespace SurfaceRelay.Pool
variable {W T K V : Type} (b : Backend W T K V)

/-! ### Acquiring -/

/-- The surface at the cursor cannot be handed out as it is: there is none, or it is released
and was not found to have retired. Gives the surface, and the pool and world after it was
judged. -/
inductive Declined (p : Pool T K V) (w : W) :
    Option (Surface T K V) → Pool T K V → W → Prop
  | vacant (hc : p.ring.current? = none) : Declined p w none p w
  | unarmed {s} (hc : p.ring.current? = some s) (hr : s.phase = .released)
      (ha : s.armed = false) : Declined p w (some s) p w
  | pending {s w'} (hc : p.ring.current? = some s) (hr : s.phase = .released)
      (ha : s.armed = true) (hpoll : b.producer.poll s.marker w = .ok none w') :
      Declined p w (some s) p w'
  | unknown {s e w'} (hc : p.ring.current? = some s) (hr : s.phase = .released)
      (ha : s.armed = true) (hpoll : b.producer.poll s.marker w = .error e w') :
      Declined p w (some s) p.countMarkerFault (b.note (.pollFailed s.handle e) w')

/-- The ways through an acquire. -/
inductive Acquiring (p : Pool T K V) (w : W) :
    EStateM.Result Fault (Pool T K V × W) Handle → Prop
  | closed (hp : p.closed = true) : Acquiring p w (.error .closed (p, w))
  | again {s} (hp : p.closed = false) (hc : p.ring.current? = some s)
      (hs : s.phase ≠ .released) : Acquiring p w (.ok s.handle (p.handOut s, w))
  | ready {s k w'} (hp : p.closed = false) (hc : p.ring.current? = some s)
      (hr : s.phase = .released) (ha : s.armed = true)
      (hpoll : b.producer.poll s.marker w = .ok (some k) w') :
      Acquiring p w (.ok s.handle (p.handOut { s with marker := k }, w'))
  | grew {o s p₁ w₁ w₂} (hp : p.closed = false) (hd : Declined b p w o p₁ w₁)
      (hroom : o = none ∨ p.ring.size < p.capacity)
      (hb : Surface.build b ⟨p₁.nextHandle⟩ p₁.size p₁.stagingSize w₁ = .ok s w₂) :
      Acquiring p w (.ok ⟨p₁.nextHandle⟩
        (p₁.extend s, b.note (.grew (p₁.extend s).ring.size) w₂))
  | growthFailed {o e p₁ w₁ w₂} (hp : p.closed = false) (hd : Declined b p w o p₁ w₁)
      (hroom : o = none ∨ p.ring.size < p.capacity)
      (hb : Surface.build b ⟨p₁.nextHandle⟩ p₁.size p₁.stagingSize w₁ = .error e w₂) :
      Acquiring p w (.error e (p₁, b.note (.creationFailed ⟨p₁.nextHandle⟩ e) w₂))
  | stalled {s p₁ w₁ w₂} (hp : p.closed = false) (hd : Declined b p w (some s) p₁ w₁)
      (hfull : p.capacity ≤ p.ring.size)
      (hw : b.producer.drain s.texture s.staging p₁.stagingSize w₁ = .ok () w₂) :
      Acquiring p w (.ok s.handle (p₁.reclaim s, b.note (.underflow p₁.ring.cursor) w₂))
  | stallFailed {s e p₁ w₁ w₂} (hp : p.closed = false) (hd : Declined b p w (some s) p₁ w₁)
      (hfull : p.capacity ≤ p.ring.size)
      (hw : b.producer.drain s.texture s.staging p₁.stagingSize w₁ = .error e w₂) :
      Acquiring p w (.error e (p₁, b.note (.producerWaitFailed s.handle e) w₂))

theorem acquiring_grow {p p₁ : Pool T K V} {w w₁ : W} {o : Option (Surface T K V)}
    (hp : p.closed = false) (hd : Declined b p w o p₁ w₁)
    (hroom : o = none ∨ p.ring.size < p.capacity) : Acquiring b p w (grow b (p₁, w₁)) := by
  simp only [grow]
  split <;> rename_i hb
  · exact .growthFailed hp hd hroom hb
  · exact .grew hp hd hroom hb

theorem Declined.ring {b : Backend W T K V} {p p₁ : Pool T K V} {w w₁ : W}
    {o : Option (Surface T K V)} (h : Declined b p w o p₁ w₁) :
    p₁.ring = p.ring ∧ p₁.capacity = p.capacity ∧ p₁.size = p.size ∧ p₁.closed = p.closed ∧
      p₁.nextHandle = p.nextHandle ∧ p₁.stats.built = p.stats.built := by
  cases h <;> exact ⟨rfl, rfl, rfl, rfl, rfl, rfl⟩

theorem Declined.current {b : Backend W T K V} {p p₁ : Pool T K V} {w w₁ : W}
    {o : Option (Surface T K V)} (h : Declined b p w o p₁ w₁) : p.ring.current? = o := by
  cases h <;> assumption

/-- Only a released surface is declined. -/
theorem Declined.released {b : Backend W T K V} {p p₁ : Pool T K V} {w w₁ : W}
    {s : Surface T K V} (h : Declined b p w (some s) p₁ w₁) : s.phase = .released := by
  cases h <;> assumption

theorem acquiring_growOrStall {p p₁ : Pool T K V} {w w₁ : W} {s : Surface T K V}
    (hp : p.closed = false) (hd : Declined b p w (some s) p₁ w₁) :
    Acquiring b p w (growOrStall b s (p₁, w₁)) := by
  obtain ⟨hring, hcapacity, -⟩ := hd.ring
  simp only [growOrStall, hring, hcapacity]
  split
  · rename_i hroom
    exact acquiring_grow b hp hd (.inr hroom)
  · rename_i hfull
    simp only [stall]
    split <;> rename_i hw
    · exact .stallFailed hp hd (Nat.le_of_not_lt hfull) hw
    · exact .stalled hp hd (Nat.le_of_not_lt hfull) hw

theorem probe_free {s : Surface T K V} (hs : s.phase ≠ .released) (w : W) :
    probe b s w = (.reusable s.marker, w) := if_pos hs

theorem probe_unarmed {s : Surface T K V} (hr : s.phase = .released) (ha : s.armed = false)
    (w : W) : probe b s w = (.busy, w) := by
  have hr' : ¬s.phase ≠ .released := by simp [hr]
  have ha' : (!s.armed) = true := by simp [ha]
  exact (if_neg hr').trans (if_pos ha')

theorem probe_armed {s : Surface T K V} (hr : s.phase = .released) (ha : s.armed = true) (w : W) :
    probe b s w =
      match b.producer.poll s.marker w with
      | .ok (some marker) w => (.reusable marker, w)
      | .ok none w => (.busy, w)
      | .error e w => (.unknown e, b.note (.pollFailed s.handle e) w) := by
  have hr' : ¬s.phase ≠ .released := by simp [hr]
  have ha' : ¬(!s.armed) = true := by simp [ha]
  exact (if_neg hr').trans (if_neg ha')

/-- Every acquire goes one of the ways. -/
theorem acquiring (p : Pool T K V) (w : W) : Acquiring b p w (acquire b (p, w)) := by
  simp only [acquire]
  split
  · rename_i hp
    exact .closed hp
  · rename_i hp
    have hp : p.closed = false := by simpa using hp
    split
    · rename_i hc
      exact acquiring_grow b hp (.vacant hc) (.inl rfl)
    · rename_i s hc
      by_cases hr : s.phase = .released
      · cases ha : s.armed with
        | false =>
          rw [probe_unarmed b hr ha]
          exact acquiring_growOrStall b hp (.unarmed hc hr ha)
        | true =>
          rw [probe_armed b hr ha]
          rcases hpoll : b.producer.poll s.marker w with ⟨_ | k, w'⟩ | ⟨e, w'⟩
          · exact acquiring_growOrStall b hp (.pending hc hr ha hpoll)
          · simpa only [ha] using Acquiring.ready hp hc hr ha hpoll
          · exact acquiring_growOrStall b hp (.unknown hc hr ha hpoll)
      · rw [probe_free b hr]
        exact .again hp hc hr

/-! ### Releasing and awaiting -/

/-- The ways through a release. -/
inductive Releasing (h : Handle) (p : Pool T K V) (w : W) :
    EStateM.Result Fault (Pool T K V × W) Unit → Prop
  | closed (hp : p.closed = true) : Releasing h p w (.error .closed (p, w))
  | stale (hp : p.closed = false)
      (hs : ∀ s, p.ring.current? = some s → s.handle ≠ h ∨ s.phase ≠ .writing) :
      Releasing h p w (.error (.staleHandle h) (p, w))
  | recorded {s k w'} (hp : p.closed = false) (hc : p.ring.current? = some s)
      (hh : s.handle = h) (hs : s.phase = .writing)
      (hrec : b.producer.record (s.marker, w) = .ok () (k, w')) :
      Releasing h p w (.ok () (p.passOn { s with marker := k, armed := true }
        { p.stats with markersRecorded := p.stats.markersRecorded + 1 }, w'))
  | unrecorded {s e k w'} (hp : p.closed = false) (hc : p.ring.current? = some s)
      (hh : s.handle = h) (hs : s.phase = .writing)
      (hrec : b.producer.record (s.marker, w) = .error e (k, w')) :
      Releasing h p w (.ok () (p.passOn { s with marker := k, armed := false }
        { p.stats with markerFaults := p.stats.markerFaults + 1 },
        b.note (.recordFailed s.handle e) w'))

theorem releasing (h : Handle) (p : Pool T K V) (w : W) :
    Releasing b h p w (release b h (p, w)) := by
  simp only [release]
  split
  · rename_i hp
    exact .closed hp
  · rename_i hp
    have hp : p.closed = false := by simpa using hp
    split
    · rename_i hc
      exact .stale hp (by simp [hc])
    · rename_i s hc
      split
      · rename_i hs
        exact .stale hp (by rw [hc]; rintro _ ⟨⟩; exact hs)
      · rename_i hs
        obtain ⟨hh, hs⟩ : s.handle = h ∧ s.phase = .writing := by simpa using hs
        split <;> rename_i hrec
        · exact .recorded hp hc hh hs hrec
        · exact .unrecorded hp hc hh hs hrec

/-- The ways through a wait for the consumer. None of them changes the pool. -/
inductive Awaiting (h : Handle) (p : Pool T K V) (w : W) :
    EStateM.Result Fault (Pool T K V × W) Unit → Prop
  | closed (hp : p.closed = true) : Awaiting h p w (.error .closed (p, w))
  | stale (hp : p.closed = false) (hf : p.find? h = none) :
      Awaiting h p w (.error (.staleHandle h) (p, w))
  | landed {s w'} (hp : p.closed = false) (hf : p.find? h = some s)
      (hw : b.consumer.drain s.view s.viewStaging p.stagingSize w = .ok () w') :
      Awaiting h p w (.ok () (p, w'))
  | failed {s e w'} (hp : p.closed = false) (hf : p.find? h = some s)
      (hw : b.consumer.drain s.view s.viewStaging p.stagingSize w = .error e w') :
      Awaiting h p w (.error e (p, b.note (.consumerWaitFailed s.handle e) w'))

theorem awaiting (h : Handle) (p : Pool T K V) (w : W) :
    Awaiting b h p w (awaitConsumer b h (p, w)) := by
  simp only [awaitConsumer]
  split
  · rename_i hp
    exact .closed hp
  · rename_i hp
    have hp : p.closed = false := by simpa using hp
    split
    · rename_i hf
      exact .stale hp hf
    · rename_i s hf
      split <;> rename_i hw
      · exact .failed hp hf hw
      · exact .landed hp hf hw

/-! ### Draining a domain -/

/-- A domain that was drained accepted the copy and completed the map behind it. -/
theorem drain_ok {d : Domain W T} {texture staging : T} {region : Extent} {w w' : W}
    (h : d.drain texture staging region w = .ok () w') :
    ∃ w₁, d.stage texture staging region w = .ok () w₁ ∧ d.blockOn staging w₁ = .ok () w' := by
  obtain ⟨_, w₁, hstage, hblock⟩ := Attempt.bind_ok h
  exact ⟨w₁, hstage, hblock⟩

/-! ### Runs -/

/-- What a caller can ask of a pool. -/
inductive Op
  | acquire
  | release (h : Handle)
  | awaitConsumer (h : Handle)
  | close
deriving DecidableEq, Repr

/-- Carries out one request. Only an acquire has something to answer. -/
def perform : Op → Attempt (Pool T K V × W) (Option Handle)
  | .acquire => some <$> acquire b
  | .release h => (fun _ => none) <$> release b h
  | .awaitConsumer h => (fun _ => none) <$> awaitConsumer b h
  | .close => fun x => .ok none (close b x)

/-- One request that was carried out. -/
structure Turn (W T K V : Type) where
  op : Op
  answer : Except Fault (Option Handle)
  before : Pool T K V × W
  after : Pool T K V × W

def turn (x : Pool T K V × W) (op : Op) : Turn W T K V :=
  let (answer, after) := Attempt.outcome (perform b op) x
  { op, answer, before := x, after }

theorem turn_acquire (x : Pool T K V × W) :
    turn b x .acquire =
      { op := .acquire, answer := (Attempt.answers (acquire b x)).map some, before := x
        after := Attempt.leaves (acquire b x) } := by
  simp only [turn, perform, Attempt.outcome_map]

theorem turn_release (x : Pool T K V × W) (h : Handle) :
    turn b x (.release h) =
      { op := .release h, answer := (Attempt.answers (release b h x)).map fun _ => none, before := x
        after := Attempt.leaves (release b h x) } := by
  simp only [turn, perform, Attempt.outcome_map]

theorem turn_awaitConsumer (x : Pool T K V × W) (h : Handle) :
    turn b x (.awaitConsumer h) =
      { op := .awaitConsumer h
        answer := (Attempt.answers (awaitConsumer b h x)).map fun _ => none, before := x
        after := Attempt.leaves (awaitConsumer b h x) } := by
  simp only [turn, perform, Attempt.outcome_map]

theorem turn_close (x : Pool T K V × W) :
    turn b x .close = { op := .close, answer := .ok none, before := x, after := close b x } := rfl

/-- Only an acquire names a surface. -/
theorem acquire_of_answer {x : Pool T K V × W} {op : Op} {h : Handle}
    (ha : (turn b x op).answer = .ok (some h)) :
    op = .acquire ∧ acquire b x = .ok h (turn b x op).after := by
  cases op with
  | acquire =>
    rw [turn_acquire] at ha ⊢
    rcases hr : acquire b x with ⟨k, y⟩ | ⟨e, y⟩ <;> rw [hr] at ha <;> cases ha
    exact ⟨rfl, rfl⟩
  | release k =>
    rw [turn_release] at ha
    cases hr : Attempt.answers (release b k x) <;> rw [hr] at ha <;> cases ha
  | awaitConsumer k =>
    rw [turn_awaitConsumer] at ha
    cases hr : Attempt.answers (awaitConsumer b k x) <;> rw [hr] at ha <;> cases ha
  | close => cases ha

/-- The turns of a list of requests. -/
def turns : Pool T K V × W → List Op → List (Turn W T K V)
  | _, [] => []
  | x, op :: rest => turn b x op :: turns (turn b x op).after rest

/-- The state a list of requests leads to. -/
def run (x : Pool T K V × W) : List Op → Pool T K V × W
  | [] => x
  | op :: rest => run (turn b x op).after rest

/-- Turns come apart where their requests do. -/
theorem turns_split {x : Pool T K V × W} {ops : List Op} {first rest : List (Turn W T K V)}
    (h : turns b x ops = first ++ rest) :
    ∃ ops₁ ops₂, first = turns b x ops₁ ∧ rest = turns b (run b x ops₁) ops₂ := by
  induction first generalizing x ops with
  | nil => exact ⟨[], ops, rfl, h.symm⟩
  | cons t first ih =>
    cases ops with
    | nil => cases h
    | cons op ops =>
      simp only [turns, List.cons_append, List.cons.injEq] at h
      obtain ⟨ops₁, ops₂, hfirst, hrest⟩ := ih h.2
      exact ⟨op :: ops₁, ops₂, by rw [turns, ← h.1, hfirst, h.1], hrest⟩

/-- The first of some turns is the turn of the first request. -/
theorem turns_cons {x : Pool T K V × W} {ops : List Op} {t : Turn W T K V}
    {rest : List (Turn W T K V)} (h : turns b x ops = t :: rest) :
    t = turn b x t.op ∧ ∃ ops', rest = turns b t.after ops' := by
  cases ops with
  | nil => cases h
  | cons op ops =>
    simp only [turns, List.cons.injEq] at h
    obtain ⟨rfl, hrest⟩ := h
    exact ⟨rfl, ops, hrest.symm⟩

/-- While the turn lasted these lines came to a log of the world, one right behind the
other. -/
def Turn.Shows {E : Type} (log : W → List E) (t : Turn W T K V) (lines : List E) : Prop :=
  ∃ first last, log t.after.2 = log t.before.2 ++ (first ++ lines ++ last)

/-- A line that a turn shows is among those that came to the log. -/
theorem Turn.Shows.mem {E : Type} {log : W → List E} {t : Turn W T K V} {lines new : List E}
    (h : t.Shows log lines) (hnew : log t.after.2 = log t.before.2 ++ new) {e : E}
    (he : e ∈ lines) : e ∈ new := by
  obtain ⟨first, last, hlog⟩ := h
  rw [hnew, List.append_cancel_left_eq] at hlog
  rw [hlog]
  simp [he]

/-- Domains that do everything they are asked at once, except that markers retire at once or
never. -/
def steady (retires : Bool) : Backend Unit Unit Unit Unit where
  producer :=
    { newStaging := fun _ => pure (), stage := fun _ _ _ => pure (), blockOn := fun _ => pure ()
      freeTexture := fun _ => pure (), freeStaging := fun _ => pure ()
      newTexture := fun _ => pure (), share := fun _ => pure 0, newMarker := pure ()
      record := pure (), poll := fun _ => pure (if retires then some () else none)
      freeMarker := fun _ => pure () }
  consumer :=
    { newStaging := fun _ => pure (), stage := fun _ _ _ => pure (), blockOn := fun _ => pure ()
      freeTexture := fun _ => pure (), freeStaging := fun _ => pure ()
      openShare := fun _ _ => pure () }
  note := fun _ w => w

end SurfaceRelay.Pool
