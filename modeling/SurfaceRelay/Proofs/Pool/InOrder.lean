import SurfaceRelay.Proofs.Pool.Fifo
import SurfaceRelay.Proofs.Pool.Reuse

/-! Producers that retire in order.

Most producers number their markers: a marker is given a target beyond all earlier ones, and it
has retired once a count of retired work has come that far (`Backend.InOrder`). Over such a
producer the released surfaces stand in the ring in the order of their targets (`Ordered`),
because a release puts its surface behind all others and nothing else changes their order. So
the surface at the cursor is the first to be free, and when it is not, none is: the one poll of
an acquire speaks for the whole ring (`none_free_when_growing_or_stalling`). -/
namespace SurfaceRelay
variable {W F T K V : Type}

/-- Markers are numbered in the order in which they are recorded and retire in that order, and
recording or polling one never fails. Everything else may fail. -/
structure Backend.InOrder (b : Backend W T K V) (target : K → Nat) (issued retired : W → Nat) :
    Prop where
  /-- A recorded marker has a target beyond all that were issued before. -/
  record : ∀ k w, ∃ k' w', b.producer.record (k, w) = .ok () (k', w') ∧ issued w < target k' ∧
    target k' ≤ issued w'
  /-- A marker is found retired when its target has been reached. -/
  poll : ∀ k w, ∃ o w', b.producer.poll k w = .ok o w' ∧ (o.isSome ↔ target k ≤ retired w)
  /-- Targets are never taken back. -/
  keeps : ∀ n, b.Keeps fun w => n ≤ issued w

namespace Pool

/-! ### The order of the released surfaces -/

/-- The released surfaces, the least recently released first, are armed with targets that
increase and that were all issued. -/
structure Ordered (target : K → Nat) (issued : Nat) (p : Pool T K V) : Prop where
  armed : ∀ s ∈ p.toFifo.released, s.armed = true
  increasing : p.toFifo.released.Pairwise fun s t => target s.marker < target t.marker
  bounded : ∀ s ∈ p.toFifo.released, target s.marker ≤ issued

variable {b : Backend W T K V} {target : K → Nat} {issued retired : W → Nat} {p q : Pool T K V}
  {w : W} {n m : Nat}

/-- Fewer surfaces, and more targets. -/
theorem Ordered.mono (h : Ordered target n p) (hq : q.toFifo.released.Sublist p.toFifo.released)
    (hn : n ≤ m) : Ordered target m q :=
  ⟨fun s hs => h.armed s (hq.subset hs), h.increasing.sublist hq,
    fun s hs => Nat.le_trans (h.bounded s (hq.subset hs)) hn⟩

/-- A surface that is released behind all others, with a new target. -/
theorem Ordered.takeBack (h : Ordered target n p) {s : Surface T K V}
    (hq : q.toFifo.released = p.toFifo.released ++ [s]) (ha : s.armed = true)
    (hnew : n < target s.marker) (hm : target s.marker ≤ m) : Ordered target m q := by
  have hbounded (t : Surface T K V) (ht : t ∈ p.toFifo.released) :
      target t.marker < target s.marker := Nat.lt_of_le_of_lt (h.bounded t ht) hnew
  refine ⟨fun t ht => ?_, ?_, fun t ht => ?_⟩
  · rw [hq, List.mem_append, List.mem_singleton] at ht
    rcases ht with ht | rfl
    · exact h.armed t ht
    · exact ha
  · rw [hq, List.pairwise_append]
    refine ⟨h.increasing, List.pairwise_singleton .., fun t ht u hu => ?_⟩
    rw [List.mem_singleton.1 hu]
    exact hbounded t ht
  · rw [hq, List.mem_append, List.mem_singleton] at ht
    rcases ht with ht | rfl
    · exact Nat.le_trans (Nat.le_of_lt (hbounded t ht)) hm
    · exact hm

/-- Everything behind the cursor is released. -/
theorem Inv.tail_sublist (h : p.Inv) : p.ring.toQueue.tail.Sublist p.toFifo.released := by
  have hall : p.ring.toQueue.tail.filter (·.isBusy) = p.ring.toQueue.tail :=
    List.filter_eq_self.2 fun s hs => by simpa [Surface.isBusy] using h.behind s hs
  rw [← hall]
  exact (List.tail_sublist _).filter _

/-! ### Every operation keeps it -/

theorem Declined.released_toFifo {o : Option (Surface T K V)} {p₁ : Pool T K V} {w₁ : W}
    (h : Declined b p w o p₁ w₁) : p₁.toFifo.released = p.toFifo.released := by
  simp only [toFifo, h.ring.1]

theorem Acquiring.ordered (h : p.Inv) (ho : Ordered target n p) (hn : n ≤ m)
    {r : EStateM.Result Fault (Pool T K V × W) Handle} (ha : Acquiring b p w r) :
    Ordered target m (Attempt.leaves r).1 := by
  have hsame {q : Pool T K V} (hq : q.toFifo.released = p.toFifo.released) :
      Ordered target m q := ho.mono (hq ▸ List.Sublist.refl _) hn
  have hrest {q : Pool T K V} (hq : q.toFifo.released = p.ring.toQueue.tail) :
      Ordered target m q := ho.mono (hq ▸ h.tail_sublist) hn
  cases ha with
  | closed => exact hsame rfl
  | again hp hc => exact hrest (by rw [Attempt.leaves, toFifo_handOut h hc]; rfl)
  | ready hp hc => exact hrest (by rw [Attempt.leaves, toFifo_handOut h hc]; rfl)
  | grew hp hd =>
    refine hsame ?_
    rw [Attempt.leaves, toFifo_extend (h.declined hd)]
    · exact hd.released_toFifo
    · intro s hs
      rw [hd.ring.1, hd.current] at hs
      exact (hs ▸ hd).released
  | growthFailed hp hd => exact hsame hd.released_toFifo
  | @stalled s p₁ w₁ w₂ hp hd =>
    have hc : p₁.ring.current? = some s := by rw [hd.ring.1, hd.current]
    refine hrest ?_
    rw [Attempt.leaves, toFifo_reclaim (h.declined hd) hc, ← hd.ring.1]
    rfl
  | stallFailed hp hd => exact hsame hd.released_toFifo

theorem Releasing.ordered (h : p.Inv) (hb : b.InOrder target issued retired)
    (ho : Ordered target (issued w) p) {k : Handle}
    {r : EStateM.Result Fault (Pool T K V × W) Unit} (hr : Releasing b k p w r) :
    Ordered target (issued (Attempt.leaves r).2) (Attempt.leaves r).1 := by
  cases hr with
  | closed => exact ho
  | stale => exact ho
  | @recorded s k' w' hp hc hh hs hrec =>
    obtain ⟨k'', w'', hrec', hnew, hissued⟩ := hb.record s.marker w
    rw [hrec] at hrec'
    cases hrec'
    refine ho.takeBack (s := { s with marker := k', armed := true, phase := .released }) ?_ rfl
      hnew hissued
    rw [Attempt.leaves, toFifo_passOn h hc (by rw [hs]; simp)]
    rfl
  | @unrecorded s e k' w' hp hc hh hs hrec =>
    obtain ⟨k'', w'', hrec', -⟩ := hb.record s.marker w
    rw [hrec] at hrec'
    cases hrec'

theorem ordered_turn (hb : b.InOrder target issued retired) {x : Pool T K V × W} (h : x.1.Inv)
    (ho : Ordered target (issued x.2) x.1) (op : Op) :
    Ordered target (issued (turn b x op).after.2) (turn b x op).after.1 := by
  have hissued := (hb.keeps (issued x.2)).turn (Nat.le_refl _) op
  cases op with
  | acquire =>
    rw [turn_acquire] at hissued ⊢
    exact (acquiring b x.1 x.2).ordered h ho hissued
  | release k =>
    rw [turn_release]
    exact (releasing b k x.1 x.2).ordered h hb ho
  | awaitConsumer k =>
    rw [turn_awaitConsumer] at hissued ⊢
    rw [(awaiting b k x.1 x.2).pool]
    exact ho.mono (List.Sublist.refl _) hissued
  | close =>
    rw [turn_close] at hissued ⊢
    refine ho.mono ?_ hissued
    simp only [close]
    split
    · exact List.Sublist.refl _
    · exact List.nil_sublist _

/-! ### When the surface at the cursor is not free -/

/-- No surface is free: all are released, and none of their targets has been reached. -/
def NoneFree (target : K → Nat) (retired : Nat) (p : Pool T K V) : Prop :=
  ∀ s ∈ p.ring.slots, s.phase = .released ∧ retired < target s.marker

/-- The surface at the cursor is the first that retires. -/
theorem Declined.noneFree (h : p.Inv) (hb : b.InOrder target issued retired)
    (ho : Ordered target n p) {o : Option (Surface T K V)} {p₁ : Pool T K V} {w₁ : W}
    (hd : Declined b p w o p₁ w₁) : NoneFree target (retired w) p := by
  have hall : ∀ s ∈ p.ring.toQueue, s.phase = .released :=
    h.all_released fun s hs => by
      rw [hd.current] at hs
      exact (hs ▸ hd).released
  have hq : p.toFifo.released = p.ring.toQueue := by rw [toFifo_eq_of_released hall]
  have harmed := ho.armed
  have hincreasing := ho.increasing
  rw [hq] at harmed hincreasing
  have hfront : ∀ s, p.ring.current? = some s → retired w < target s.marker := by
    cases hd with
    | vacant hc => simp [hc]
    | @unarmed s hc hr ha =>
      have hs := harmed s ((Ring.mem_toQueue _ _).2 (Ring.current?_mem hc))
      rw [ha] at hs
      cases hs
    | @pending s w' hc hr ha hpoll =>
      obtain ⟨o, w'', hpoll', hretired⟩ := hb.poll s.marker w
      rw [hpoll] at hpoll'
      cases hpoll'
      intro t ht
      rw [hc] at ht
      cases ht
      simpa using hretired
    | @unknown s e w' hc hr ha hpoll =>
      obtain ⟨o, w'', hpoll', -⟩ := hb.poll s.marker w
      rw [hpoll] at hpoll'
      cases hpoll'
  intro s hs
  rw [← Ring.mem_toQueue] at hs
  refine ⟨hall s hs, ?_⟩
  rw [Ring.current?_eq h.sound] at hfront
  cases hqueue : p.ring.toQueue with
  | nil => rw [hqueue] at hs; cases hs
  | cons front rest =>
    rw [hqueue] at hs hfront hincreasing
    rcases List.mem_cons.1 hs with rfl | hs
    · exact hfront s rfl
    · exact Nat.lt_trans (hfront front rfl) ((List.pairwise_cons.1 hincreasing).1 s hs)

/-! ### On the trace of a recorded backend -/

/-- The producer was asked for the texture of a new surface, whatever it answered. -/
def Grows (t : Turn (Recorded W (Entry F T K V)) T K V) : Prop :=
  ∃ size answer, t.Shows Recorded.trace [.producer (.newTexture size answer)]

/-- The producer was asked for the copy that a forced wait starts with, whatever it answered. -/
def Stalls (t : Turn (Recorded W (Entry F T K V)) T K V) : Prop :=
  ∃ texture staging region answer,
    t.Shows Recorded.trace [.producer (.image (.stage texture staging region answer))]

end Pool

/-- Recording a call changes nothing about what it keeps. -/
theorem Recorded.keeps_call {α E : Type} {J : W → Prop} {act : Attempt W α} (h : act.Keeps J)
    (entry : Except Fault α → E) : (Recorded.call act entry).Keeps fun r => J r.world := by
  refine Attempt.keeps_of_leaves fun r hr => ?_
  simp only [Recorded.call]
  rcases hact : act r.world with ⟨a, w⟩ | ⟨e, w⟩
  · exact h.ok hact hr
  · exact h.error hact hr

theorem Recorded.keeps_recording {J : W → Prop} {act : Attempt (K × W) Unit}
    (h : act.Keeps fun x => J x.2) :
    (Recorded.recording (F := F) (T := T) (V := V) act).Keeps fun x => J x.2.world := by
  refine Attempt.keeps_of_leaves fun x hx => ?_
  simp only [Recorded.recording]
  rcases hact : act (x.1, x.2.world) with ⟨_, k, w⟩ | ⟨e, k, w⟩
  · exact h.ok hact hx
  · exact h.error hact hx

theorem Backend.Keeps.recorded {b : Backend W T K V} {J : W → Prop} (h : b.Keeps J) :
    (b.recorded (F := F)).Keeps fun r => J r.world where
  newTexture _ := Recorded.keeps_call (h.newTexture _) _
  share _ := Recorded.keeps_call (h.share _) _
  newStaging _ := Recorded.keeps_call (h.newStaging _) _
  newMarker := Recorded.keeps_call h.newMarker _
  openShare _ _ := Recorded.keeps_call (h.openShare _ _) _
  newViewStaging _ := Recorded.keeps_call (h.newViewStaging _) _
  freeTexture _ := Recorded.keeps_call (h.freeTexture _) _
  freeStaging _ := Recorded.keeps_call (h.freeStaging _) _
  freeMarker _ := Recorded.keeps_call (h.freeMarker _) _
  freeView _ := Recorded.keeps_call (h.freeView _) _
  freeViewStaging _ := Recorded.keeps_call (h.freeViewStaging _) _
  note _ _ hw := h.note _ _ hw
  record := Recorded.keeps_recording h.record
  poll _ := Recorded.keeps_call (h.poll _) _
  stage _ _ _ := Recorded.keeps_call (h.stage _ _ _) _
  blockOn _ := Recorded.keeps_call (h.blockOn _) _
  stageView _ _ _ := Recorded.keeps_call (h.stageView _ _ _) _
  blockOnView _ := Recorded.keeps_call (h.blockOnView _) _

/-- Recording a producer does not change the order in which it retires. -/
theorem Backend.InOrder.recorded {b : Backend W T K V} {target : K → Nat} {issued retired : W → Nat}
    (h : b.InOrder target issued retired) :
    (b.recorded (F := F)).InOrder target (issued ·.world) (retired ·.world) where
  record k r := by
    obtain ⟨k', w', hrec, hnew, hissued⟩ := h.record k r.world
    refine ⟨k', ⟨w', r.trace ++ [.producer (.record k (.ok k'))]⟩, ?_, hnew, hissued⟩
    show Recorded.recording _ (k, r) = _
    simp only [Recorded.recording, hrec]
  poll k r := by
    obtain ⟨o, w', hpoll, hretired⟩ := h.poll k r.world
    refine ⟨o, ⟨w', r.trace ++ [.producer (.poll k (.ok o))]⟩, ?_, hretired⟩
    show Recorded.call _ _ r = _
    simp only [Recorded.call, hpoll]
    rfl
  keeps n := (h.keeps n).recorded

namespace Pool
variable {b : Backend W T K V} {target : K → Nat} {issued retired : W → Nat}

/-- An acquire makes no call but one poll, unless the surface at the cursor was declined. -/
theorem Acquiring.declined {p : Pool T K V} {r₀ : Recorded W (Entry F T K V)}
    {r : EStateM.Result Fault (Pool T K V × Recorded W (Entry F T K V)) Handle}
    (ha : Acquiring b.recorded p r₀ r) :
    (∃ o p₁ r₁, Declined b.recorded p r₀ o p₁ r₁) ∨
      (Attempt.leaves r).2.trace = r₀.trace ∨
      ∃ k answer, (Attempt.leaves r).2.trace = r₀.trace ++ [.producer (.poll k answer)] := by
  cases ha with
  | closed => exact .inr (.inl rfl)
  | again => exact .inr (.inl rfl)
  | ready hp hc hr ha hpoll => exact .inr (.inr ⟨_, _, call_ok hpoll⟩)
  | grew hp hd => exact .inl ⟨_, _, _, hd⟩
  | growthFailed hp hd => exact .inl ⟨_, _, _, hd⟩
  | stalled hp hd => exact .inl ⟨_, _, _, hd⟩
  | stallFailed hp hd => exact .inl ⟨_, _, _, hd⟩

/-- **A pool grows or stalls only when none of its surfaces is free.** Over a producer that
retires in order, and however far it gets between the requests to the pool: an acquire that asks
for a new surface or starts a forced wait finds every surface released and no marker's target
reached, though it polled one marker only. Making surfaces and waiting may fail. -/
theorem none_free_when_growing_or_stalling {c : Config} {p : Pool T K V} (hp : make c = .ok p)
    (hb : b.InOrder target issued retired) {w : W}
    {history : List (Turn (Recorded W (Entry F T K V)) T K V)}
    (hcourse : Course b.recorded (fun r r' => issued r.world ≤ issued r'.world) (p, .ofWorld w)
      history)
    {t : Turn (Recorded W (Entry F T K V)) T K V} (ht : t ∈ history) (hop : t.op = .acquire)
    (hasked : Grows t ∨ Stalls t) : NoneFree target (retired t.before.2.world) t.before.1 := by
  have hb' := hb.recorded (F := F)
  have hempty : Ordered target (issued w) p := by
    have hnone : p.toFifo.released = [] := congrArg Fifo.released (make_empty hp).2
    exact ⟨by simp [hnone], by simp [hnone], by simp [hnone]⟩
  obtain ⟨hturn, hinv, hordered⟩ :=
    hcourse.before
      (J := fun x : Pool T K V × Recorded W (Entry F T K V) =>
        x.1.Inv ∧ Ordered target (issued x.2.world) x.1)
      (fun _ _ _ hmay h => ⟨h.1, h.2.mono (List.Sublist.refl _) hmay⟩)
      (fun _ op h => ⟨inv_turn h.1 op, ordered_turn hb' h.1 h.2 op⟩) ⟨inv_make hp, hempty⟩ ht
  have hafter : t.after = Attempt.leaves (acquire b.recorded t.before) := by
    rw [hop, turn_acquire] at hturn
    exact congrArg Turn.after hturn
  have ha : Acquiring b.recorded t.before.1 t.before.2 (acquire b.recorded t.before) :=
    acquiring b.recorded t.before.1 t.before.2
  rcases ha.declined with ⟨o, p₁, r₁, hd⟩ | hsilent | ⟨k, answer, hpolled⟩
  · have hnone := hd.noneFree hinv hb' hordered
    exact hnone
  · rw [← hafter] at hsilent
    have hnew : t.after.2.trace = t.before.2.trace ++ [] := by rw [hsilent, List.append_nil]
    rcases hasked with ⟨_, _, hshows⟩ | ⟨_, _, _, _, hshows⟩ <;>
      cases hshows.mem hnew (List.mem_singleton_self _)
  · rw [← hafter] at hpolled
    rcases hasked with ⟨_, _, hshows⟩ | ⟨_, _, _, _, hshows⟩ <;>
      cases List.mem_singleton.1 (hshows.mem hpolled (List.mem_singleton_self _))

/-- Domains that do everything at once, with a producer that numbers its markers and gets no
further. The world counts what was issued. -/
def counting : Backend Nat Unit Nat Unit where
  producer :=
    { newStaging := fun _ => pure (), stage := fun _ _ _ => pure (), blockOn := fun _ => pure ()
      freeTexture := fun _ => pure (), freeStaging := fun _ => pure ()
      newTexture := fun _ => pure (), share := fun _ => pure 0, newMarker := pure 0
      record := fun x => .ok () (x.2 + 1, x.2 + 1)
      poll := fun k => pure (if k = 0 then some k else none), freeMarker := fun _ => pure () }
  consumer :=
    { newStaging := fun _ => pure (), stage := fun _ _ _ => pure (), blockOn := fun _ => pure ()
      freeTexture := fun _ => pure (), freeStaging := fun _ => pure ()
      openShare := fun _ _ => pure () }
  note := fun _ n => n

theorem counting_inOrder : counting.InOrder id id fun _ => 0 where
  record _ n := ⟨n + 1, n + 1, rfl, Nat.lt_succ_self n, Nat.le_refl _⟩
  poll k n := by
    refine ⟨if k = 0 then some k else none, n, rfl, ?_⟩
    by_cases hk : k = 0 <;> simp [hk]
  keeps n :=
    { newTexture := fun _ _ h => h, share := fun _ _ h => h, newStaging := fun _ _ h => h
      newMarker := fun _ h => h, openShare := fun _ _ _ h => h, newViewStaging := fun _ _ h => h
      freeTexture := fun _ _ h => h, freeStaging := fun _ _ h => h, freeMarker := fun _ _ h => h
      freeView := fun _ _ h => h, freeViewStaging := fun _ _ h => h, note := fun _ _ h => h
      record := fun _ h => Nat.le_succ_of_le h, poll := fun _ _ h => h
      stage := fun _ _ _ _ h => h, blockOn := fun _ _ h => h
      stageView := fun _ _ _ _ h => h, blockOnView := fun _ _ h => h }

/-- A full ring of two stalls: the targets of its surfaces are 1 and 2, and nothing has
retired. -/
theorem none_free_when_growing_or_stalling_full :
    ∃ (p : Pool Unit Nat Unit)
      (t : Turn (Recorded Nat (Entry Unit Unit Nat Unit)) Unit Nat Unit),
      make ⟨⟨4, 4⟩, 2⟩ = .ok p ∧
      t ∈ turns counting.recorded (p, .ofWorld 0)
        [.acquire, .release ⟨1⟩, .acquire, .release ⟨2⟩, .acquire] ∧
      Stalls t ∧ (t.before.1.ring.slots.map (·.marker)) = [2, 1] ∧ NoneFree id 0 t.before.1 := by
  obtain ⟨p, hp⟩ : ∃ p : Pool Unit Nat Unit, make ⟨⟨4, 4⟩, 2⟩ = .ok p := ⟨_, rfl⟩
  obtain ⟨t, ht, hop, hstalls, hmarkers⟩ :
      ∃ t ∈ turns (W := Recorded Nat (Entry Unit Unit Nat Unit)) counting.recorded (p, .ofWorld 0)
        [.acquire, .release ⟨1⟩, .acquire, .release ⟨2⟩, .acquire],
      t.op = .acquire ∧ Stalls t ∧ t.before.1.ring.slots.map (·.marker) = [2, 1] := by
    cases hp
    exact ⟨_, List.mem_of_getElem? (i := 4) rfl, rfl, ⟨(), (), _, _, [_], [_, _], rfl⟩, rfl⟩
  exact ⟨p, t, hp, ht, hstalls, hmarkers,
    none_free_when_growing_or_stalling hp counting_inOrder
      ((course_turns _ _).mono fun r r' h => Nat.le_of_eq (congrArg (·.world) h)) ht hop
      (.inr hstalls)⟩

end Pool
end SurfaceRelay
