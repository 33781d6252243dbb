import SurfaceRelay.Proofs.Lines
import SurfaceRelay.Proofs.Resources.Pool

/-! What a failed operation leaves.

An operation of a pool that fails leaves the pool as it was; only a poll that failed on the way
is counted (`Declined.counted`, `Acquiring.unchanged`). Because the pool is as it was, so is the
list of what is outstanding, and everything that was made on the way was destroyed again
(`Books.settled`). The number of the next surface changes only in a turn that builds one
(`numbering_turn`), so the surface that could not be built leaves its number to the next one
that can (`failed_operation_is_atomic`). -/
namespace SurfaceRelay
variable {W F T K V : Type}

/-- A marker was polled in vain. -/
def Entry.isFailedPoll : Entry F T K V → Bool
  | producer (.poll _ (.error _)) => true
  | _ => false

theorem Entry.errand_of_isFailedPoll {e : Entry F T K V} (h : e.isFailedPoll = true) :
    e.errand = .poll := by
  rcases e with (_ | _ | _ | _ | _ | ⟨k, a⟩ | _) | _ | _ <;> simp [isFailedPoll] at h
  rfl

/-- When the same is outstanding as before, everything made since was destroyed since. -/
theorem Books.settled {L : List Resource} {past lines : List (Line F T K V)} {n n' : Nat}
    (h : Books L past n) (h' : Books L (past ++ lines) n') {r : Resource} (hr : r ∈ made lines) :
    r ∈ freed lines := by
  have hmade : made (past ++ lines) = made past ++ made lines := List.filterMap_append
  have hfreed : freed (past ++ lines) = freed past ++ freed lines := List.filterMap_append
  have hnew : r ∉ made past := by
    have hnodup := h'.proper.nodup
    rw [hmade, List.nodup_append] at hnodup
    exact fun hold => hnodup.2.2 r hold r hr rfl
  by_contra hnot
  have hout : r ∈ outstanding (past ++ lines) := by
    refine mem_outstanding.2 ⟨hmade ▸ List.mem_append_right _ hr, fun hmem => ?_⟩
    rcases List.mem_append.1 (hfreed ▸ hmem) with hmem | hmem
    · exact hnew (h.proper.freed_made hmem)
    · exact hnot hmem
  exact hnew (mem_outstanding.1 (h.mem_iff.2 (h'.mem_iff.1 hout))).1

namespace Pool

/-! ### A failed call -/

/-- The pool, with a failed poll counted if there is one among the lines. -/
def withPolls (p : Pool T K V) (lines : List (Entry F T K V)) : Pool T K V :=
  if lines.any Entry.isFailedPoll then p.countMarkerFault else p

variable {p p₁ : Pool T K V} {b : Backend W T K V} {r r₁ : Recorded W (Entry F T K V)}

theorem withPolls_append (errands : List Errand) {lines rest : List (Entry F T K V)}
    (hrest : ∀ e ∈ rest, e.errand ∈ errands) (hpoll : .poll ∉ errands) :
    p.withPolls (lines ++ rest) = p.withPolls lines := by
  have hnone : rest.any Entry.isFailedPoll = false := by
    rw [List.any_eq_false]
    intro e he hfailed
    exact hpoll (Entry.errand_of_isFailedPoll hfailed ▸ hrest e he)
  simp only [withPolls, List.any_append, hnone, Bool.or_false]

/-- Judging a surface changes the pool only by counting. -/
theorem Declined.counted {o : Option (Surface T K V)} (h : Declined b.recorded p r o p₁ r₁) :
    ∃ lines, r₁.trace = r.trace ++ lines ∧ p₁ = p.withPolls lines := by
  cases h with
  | vacant => exact ⟨[], (List.append_nil _).symm, rfl⟩
  | unarmed => exact ⟨[], (List.append_nil _).symm, rfl⟩
  | pending hc hr ha hpoll => exact ⟨_, call_ok hpoll, rfl⟩
  | @unknown s e r' hc hr ha hpoll =>
    refine ⟨[.producer (.poll s.marker (.error e)), .notice (.pollFailed s.handle e)], ?_, rfl⟩
    show r'.trace ++ _ = _
    rw [call_error hpoll, List.append_assoc]
    rfl

/-- What came after a surface was declined and ends in a notice. -/
theorem Declined.behind {o : Option (Surface T K V)} (h : Declined b.recorded p r o p₁ r₁)
    {r₂ : Recorded W (Entry F T K V)} {errands : List Errand}
    (hext : Extends errands r₁.trace r₂) (hpoll : .poll ∉ errands) (n : Notice) :
    ∃ lines, (b.recorded.note n r₂).trace = r.trace ++ lines ∧ p₁ = p.withPolls lines ∧
      lines.getLast? = some (.notice n) := by
  obtain ⟨first, hfirst, hp₁⟩ := h.counted
  obtain ⟨rest, hrest, hall⟩ := hext
  refine ⟨first ++ rest ++ [.notice n], ?_, ?_, List.getLast?_concat⟩
  · show r₂.trace ++ _ = _
    rw [hrest, hfirst]
    simp only [List.append_assoc]
  · rw [withPolls_append [.report, .remark] _ (by decide), withPolls_append errands hall hpoll]
    · exact hp₁
    · intro e he
      rw [List.mem_singleton.1 he, Entry.errand]
      split <;> decide

/-- A failed acquire leaves the pool as it was, but for a failed poll. When it could not build a
surface, that is the last thing it reports. -/
theorem Acquiring.unchanged {e : Fault} {x : Pool T K V × Recorded W (Entry F T K V)}
    (h : Acquiring b.recorded p r (.error e x)) :
    ∃ lines, x.2.trace = r.trace ++ lines ∧ x.1 = p.withPolls lines ∧
      ∀ k cause, lines.getLast? = some (.notice (.creationFailed k cause)) →
        k = ⟨p.nextHandle⟩ := by
  cases h with
  | closed => exact ⟨[], (List.append_nil _).symm, rfl, fun _ _ h => (by cases h)⟩
  | @growthFailed o e p₁ r₁ r₂ hp hd hroom hb =>
    have hext : Extends [.supply, .report] r₁.trace r₂ :=
      (Surface.build_keeps _ (fun _ _ _ r => Extends.note (by decide) _ r rfl)
        (extends_untouched b (by decide)) _ _).error hb (.refl r₁)
    obtain ⟨lines, hlines, hp₁, hlast⟩ :=
      hd.behind hext (by decide) (.creationFailed ⟨p₁.nextHandle⟩ e)
    refine ⟨lines, hlines, hp₁, fun k cause hk => ?_⟩
    rw [hlast] at hk
    cases hk
    rw [hd.ring.2.2.2.2.1]
  | @stallFailed s e p₁ r₁ r₂ hp hd hfull hw =>
    have hext : Extends [.wait] r₁.trace r₂ :=
      (Extends.drain (fun _ => rfl) (by decide) _ _ _).error hw (.refl r₁)
    obtain ⟨lines, hlines, hp₁, hlast⟩ := hd.behind hext (by decide) (.producerWaitFailed s.handle e)
    refine ⟨lines, hlines, hp₁, fun k cause hk => ?_⟩
    rw [hlast] at hk
    cases hk

/-- A failed release leaves everything as it was. -/
theorem Releasing.unchanged {b : Backend W T K V} {w : W} {k : Handle} {e : Fault}
    {x : Pool T K V × W} (h : Releasing b k p w (.error e x)) : x = (p, w) := by
  cases h <;> rfl

/-- A failed wait for the consumer leaves the pool as it was. It builds nothing. -/
theorem Awaiting.unchanged {k : Handle} {e : Fault} {x : Pool T K V × Recorded W (Entry F T K V)}
    (h : Awaiting b.recorded k p r (.error e x)) :
    x.1 = p ∧ ∃ lines, x.2.trace = r.trace ++ lines ∧
      ∀ k cause, lines.getLast? ≠ some (.notice (.creationFailed k cause)) := by
  cases h with
  | closed => exact ⟨rfl, [], (List.append_nil _).symm, fun _ _ h => (by cases h)⟩
  | stale => exact ⟨rfl, [], (List.append_nil _).symm, fun _ _ h => (by cases h)⟩
  | @failed s e r' hp hf hw =>
    obtain ⟨lines, hlines, -⟩ : Extends [.wait] r.trace r' :=
      (Extends.drain (fun _ => rfl) (by decide) _ _ _).error hw (.refl r)
    refine ⟨rfl, lines ++ [.notice (.consumerWaitFailed s.handle e)], ?_, fun k cause hk => ?_⟩
    · show r'.trace ++ _ = _
      rw [hlines, List.append_assoc]
    · rw [List.getLast?_concat] at hk
      cases hk

/-! ### A failed turn -/

/-- What a failed turn leaves. These lines are what it asked of the domains, and reported. -/
structure Turn.Atomic (t : Turn (Recorded W (Entry F T K V)) T K V)
    (lines : List (Entry F T K V)) : Prop where
  trace : t.after.2.trace = t.before.2.trace ++ lines
  /-- The pool is as it was. Only an acquire whose own poll failed is counted. -/
  pool : t.after.1 =
    if t.op = .acquire ∧ lines.any Entry.isFailedPoll then t.before.1.countMarkerFault
    else t.before.1
  /-- A failing release asks nothing. -/
  silent : ∀ h, t.op = .release h → lines = []
  /-- A surface that could not be built is reported under the number of the next one. -/
  reported : ∀ h cause, lines.getLast? = some (.notice (.creationFailed h cause)) →
    h = ⟨t.before.1.nextHandle⟩

theorem atomic_turn {x : Pool T K V × Recorded W (Entry F T K V)} {op : Op} {e : Fault}
    (h : (turn b.recorded x op).answer = .error e) :
    ∃ lines, (turn b.recorded x op).Atomic lines := by
  cases op with
  | acquire =>
    have ha : Acquiring b.recorded x.1 x.2 (acquire b.recorded x) := acquiring b.recorded x.1 x.2
    rw [turn_acquire] at h ⊢
    rcases hres : acquire b.recorded x with ⟨k, y⟩ | ⟨e', y⟩ <;> rw [hres] at ha h
    · cases h
    · obtain ⟨lines, htrace, hpool, hlast⟩ := ha.unchanged
      exact ⟨lines, htrace, by simpa [Attempt.leaves, withPolls] using hpool,
        fun _ h => (by cases h), hlast⟩
  | release k =>
    have hr : Releasing b.recorded k x.1 x.2 (release b.recorded k x) :=
      releasing b.recorded k x.1 x.2
    rw [turn_release] at h ⊢
    rcases hres : release b.recorded k x with ⟨_, y⟩ | ⟨e', y⟩ <;> rw [hres] at hr h
    · cases h
    · obtain rfl := hr.unchanged
      exact ⟨[], (List.append_nil _).symm, by simp [Attempt.leaves], fun _ _ => rfl,
        fun _ _ h => (by cases h)⟩
  | awaitConsumer k =>
    have hw : Awaiting b.recorded k x.1 x.2 (awaitConsumer b.recorded k x) :=
      awaiting b.recorded k x.1 x.2
    rw [turn_awaitConsumer] at h ⊢
    rcases hres : awaitConsumer b.recorded k x with ⟨_, y⟩ | ⟨e', y⟩ <;> rw [hres] at hw h
    · cases h
    · obtain ⟨hpool, lines, htrace, hlast⟩ := hw.unchanged
      exact ⟨lines, htrace, by simpa [Attempt.leaves] using hpool, fun _ h => (by cases h),
        fun k cause hk => absurd hk (hlast k cause)⟩
  | close => cases h

/-! ### The number of the next surface -/

/-- The turn built a surface. -/
def Turn.Grows (t : Turn W T K V) : Prop := t.before.1.ring.size < t.after.1.ring.size

section
variable {b : Backend W T K V} {w : W}

theorem Acquiring.numbering (h : p.Inv) {res : EStateM.Result Fault (Pool T K V × W) Handle}
    (ha : Acquiring b p w res) :
    (Attempt.leaves res).1.nextHandle = p.nextHandle ∧
        (Attempt.leaves res).1.ring.size = p.ring.size ∨
      Attempt.answers res = .ok ⟨p.nextHandle⟩ ∧
        p.ring.size < (Attempt.leaves res).1.ring.size := by
  cases ha with
  | closed => exact .inl ⟨rfl, rfl⟩
  | again => exact .inl ⟨rfl, Ring.size_setCurrent ..⟩
  | ready => exact .inl ⟨rfl, Ring.size_setCurrent ..⟩
  | @grew o s p₁ w₁ w₂ hp hd =>
    refine .inr ⟨congrArg (Except.ok ∘ Handle.mk) hd.ring.2.2.2.2.1, ?_⟩
    show p.ring.size < (p₁.ring.insert _).size
    rw [Ring.size_insert (h.declined hd).sound, hd.ring.1]
    exact Nat.lt_succ_self _
  | growthFailed hp hd => exact .inl ⟨hd.ring.2.2.2.2.1, congrArg Ring.size hd.ring.1⟩
  | stalled hp hd =>
    exact .inl ⟨hd.ring.2.2.2.2.1, (Ring.size_setCurrent ..).trans (congrArg Ring.size hd.ring.1)⟩
  | stallFailed hp hd => exact .inl ⟨hd.ring.2.2.2.2.1, congrArg Ring.size hd.ring.1⟩

theorem Releasing.numbering {k : Handle} {res : EStateM.Result Fault (Pool T K V × W) Unit}
    (hr : Releasing b k p w res) :
    (Attempt.leaves res).1.nextHandle = p.nextHandle ∧
      (Attempt.leaves res).1.ring.size = p.ring.size := by
  cases hr with
  | closed => exact ⟨rfl, rfl⟩
  | stale => exact ⟨rfl, rfl⟩
  | recorded => exact ⟨rfl, Ring.size_setCurrent ..⟩
  | unrecorded => exact ⟨rfl, Ring.size_setCurrent ..⟩

/-- The number changes only in a turn that builds a surface, and that surface gets it. -/
theorem numbering_turn {x : Pool T K V × W} (hx : x.1.Inv) (op : Op) :
    (turn b x op).after.1.nextHandle = x.1.nextHandle ∧ ¬(turn b x op).Grows ∨
      (turn b x op).answer = .ok (some ⟨x.1.nextHandle⟩) ∧ (turn b x op).Grows := by
  cases op with
  | acquire =>
    rw [turn_acquire]
    rcases (acquiring b x.1 x.2).numbering hx with ⟨hnext, hsize⟩ | ⟨hanswer, hsize⟩
    · exact .inl ⟨hnext, Nat.not_lt_of_le (Nat.le_of_eq hsize)⟩
    · exact .inr ⟨congrArg (Except.map some) hanswer, hsize⟩
  | release k =>
    rw [turn_release]
    obtain ⟨hnext, hsize⟩ := (releasing b k x.1 x.2).numbering
    exact .inl ⟨hnext, Nat.not_lt_of_le (Nat.le_of_eq hsize)⟩
  | awaitConsumer k =>
    rw [turn_awaitConsumer]
    have hpool := (awaiting b k x.1 x.2).pool
    exact .inl ⟨congrArg (·.nextHandle) hpool,
      Nat.not_lt_of_le (Nat.le_of_eq (congrArg (·.ring.size) hpool))⟩
  | close =>
    refine .inl ?_
    rw [turn_close]
    simp only [Turn.Grows, close]
    split
    · exact ⟨rfl, Nat.lt_irrefl _⟩
    · exact ⟨rfl, Nat.not_lt_zero _⟩

/-- The first surface that is built gets the number that stands at the beginning. -/
theorem Course.numbering {may : W → W → Prop} {x : Pool T K V × W} (hx : x.1.Inv)
    {mid later : List (Turn W T K V)} {u : Turn W T K V}
    (h : Course b may x (mid ++ u :: later)) (hmid : ∀ v ∈ mid, ¬v.Grows) (hu : u.Grows) :
    u.answer = .ok (some ⟨x.1.nextHandle⟩) := by
  obtain ⟨y, hy, hcourse⟩ := h.carry
    (J := fun y => y.1.Inv ∧ y.1.nextHandle = x.1.nextHandle) (fun _ _ _ _ h => h) ⟨hx, rfl⟩
    fun v hv hturn hbefore => by
      have hsame := hmid v hv
      rw [hturn] at hsame ⊢
      refine ⟨inv_turn hbefore.1 _, ?_⟩
      rcases numbering_turn (b := b) hbefore.1 v.op with ⟨hnext, -⟩ | ⟨-, hgrows⟩
      · exact hnext.trans hbefore.2
      · exact absurd hgrows hsame
  obtain ⟨hturn, ⟨hinv, hnext⟩, -⟩ := hcourse.split
    (J := fun y => y.1.Inv ∧ y.1.nextHandle = x.1.nextHandle) (fun _ _ _ _ h => h) hy
  rw [hturn] at hu ⊢
  rcases numbering_turn (b := b) hinv u.op with ⟨-, hsame⟩ | ⟨hanswer, -⟩
  · exact absurd hu hsame
  · exact hnext ▸ hanswer

end

/-! ### Histories -/

/-- The domains did something that nobody asked of them through the pool. -/
def Elsewhere (r r' : Recorded (Numbered W) (Line F T K V)) : Prop :=
  r'.trace = r.trace ∧ r'.world.next = r.world.next

theorem accounted_unmoved : Unmoved (Elsewhere (W := W) (F := F))
    (Accounted (T := T) (K := K) (V := V)) := by
  rintro p r r' ⟨htrace, hnext⟩ ⟨hinv, howes⟩
  refine ⟨hinv, ?_⟩
  rw [Owes, htrace, hnext]
  exact howes

theorem accounted_turn (b : Backend W T K V)
    {x : Pool (Tagged T) (Tagged K) (Tagged V) × Recorded (Numbered W) (Line F T K V)}
    (hx : Accounted x) (op : Op) : Accounted (turn b.audited x op).after :=
  (accounted_kept b fun _ _ => pure ()).turn hx op

/-- **A failed operation is atomic.** Whatever the domains answer and whatever happens in them
between the requests to the pool: when a request fails, the pool is left exactly as it was, apart
from the count of an acquire whose own poll failed; everything that was made on the way has been
destroyed, and a failing release has asked nothing of the domains. The next surface that the
pool builds gets the number that a surface built then would have had. -/
theorem failed_operation_is_atomic {c : Config} {p : Pool (Tagged T) (Tagged K) (Tagged V)}
    (hp : make c = .ok p) (b : Backend W T K V) (w : W)
    {past rest : List (Turn (Recorded (Numbered W) (Line F T K V)) (Tagged T) (Tagged K) (Tagged V))}
    {t : Turn (Recorded (Numbered W) (Line F T K V)) (Tagged T) (Tagged K) (Tagged V)}
    (hcourse : Course b.audited Elsewhere (p, .ofWorld ⟨w, 0⟩) (past ++ t :: rest)) {e : Fault}
    (hfail : t.answer = .error e) :
    (∃ lines, t.Atomic lines ∧ ∀ r ∈ made lines, r ∈ freed lines) ∧
      ∀ mid u later, rest = mid ++ u :: later → (∀ v ∈ mid, ¬v.Grows) → u.Grows →
        u.answer = .ok (some ⟨t.before.1.nextHandle⟩) := by
  have hstart : Accounted (p, Recorded.ofWorld (E := Line F T K V) (Numbered.mk w 0)) := by
    have hnone : p.resources = [] := by
      rw [Pool.resources, Pool.make_ring hp]
      rfl
    exact ⟨inv_make hp, hnone ▸ Books.nil⟩
  obtain ⟨y, hy, hcourse⟩ := hcourse.carry accounted_unmoved hstart fun v _ hv hbefore => by
    rw [hv]
    exact accounted_turn b hbefore _
  obtain ⟨ht, hbefore, hcourse⟩ := hcourse.split accounted_unmoved hy
  have hafter : Accounted t.after := by
    rw [ht]
    exact accounted_turn b hbefore _
  obtain ⟨lines, hatomic⟩ : ∃ lines, t.Atomic lines := by
    rw [ht] at hfail ⊢
    exact atomic_turn hfail
  have hsame : t.after.1.ring = t.before.1.ring ∧ t.after.1.nextHandle = t.before.1.nextHandle := by
    rw [hatomic.pool]
    split <;> exact ⟨rfl, rfl⟩
  refine ⟨⟨lines, hatomic, fun r hr => ?_⟩, fun mid u later hrest hmid hu => ?_⟩
  · have howes := hafter.2
    rw [Owes, hatomic.trace, Pool.resources, hsame.1] at howes
    exact hbefore.2.settled howes hr
  · subst hrest
    exact hsame.2 ▸ hcourse.numbering hafter.1 hmid hu

/-- Markers cannot be polled, and the second staging resource of the consumer cannot be made. The
world counts those that were asked for. -/
def faltering : Backend Nat Unit Unit Unit where
  producer :=
    { newStaging := fun _ => pure (), stage := fun _ _ _ => pure (), blockOn := fun _ => pure ()
      freeTexture := fun _ => pure (), freeStaging := fun _ => pure ()
      newTexture := fun _ => pure (), share := fun _ => pure 0, newMarker := pure ()
      record := pure (), poll := fun _ => throw (.marker "lost")
      freeMarker := fun _ => pure () }
  consumer :=
    { newStaging := fun _ n =>
        if n = 1 then .error (.allocation "out of memory") (n + 1) else .ok () (n + 1)
      stage := fun _ _ _ => pure (), blockOn := fun _ => pure ()
      freeTexture := fun _ => pure (), freeStaging := fun _ => pure ()
      openShare := fun _ _ => pure () }
  note := fun _ n => n

/-- The third request fails in the last step of building a surface, behind a poll that failed as
well. The fourth one builds surface 2. -/
theorem failed_operation_is_atomic_faltering :
    ∃ (p : Pool (Tagged Unit) (Tagged Unit) (Tagged Unit))
      (t u : Turn (Recorded (Numbered Nat) (Line Unit Unit Unit Unit)) (Tagged Unit) (Tagged Unit)
        (Tagged Unit)),
      make ⟨⟨4, 4⟩, 2⟩ = .ok p ∧
      (turns faltering.audited (p, .ofWorld ⟨0, 0⟩)
        [.acquire, .release ⟨1⟩, .acquire, .acquire]).drop 2 = [t, u] ∧
      t.answer = .error (.allocation "out of memory") ∧
      (made t.after.2.trace).length = (made t.before.2.trace).length + 4 ∧
      t.after.1.stats.markerFaults = t.before.1.stats.markerFaults + 1 ∧
      (∃ lines, t.Atomic lines ∧ ∀ r ∈ made lines, r ∈ freed lines) ∧
      u.answer = .ok (some ⟨t.before.1.nextHandle⟩) := by
  obtain ⟨p, hp⟩ : ∃ p : Pool (Tagged Unit) (Tagged Unit) (Tagged Unit),
      make ⟨⟨4, 4⟩, 2⟩ = .ok p := ⟨_, rfl⟩
  obtain ⟨past, t, u, hturns, htwo, hfail, hmade, hcount, hgrows⟩ :
      ∃ past t u,
        turns (W := Recorded (Numbered Nat) (Line Unit Unit Unit Unit)) faltering.audited
          (p, .ofWorld ⟨0, 0⟩) [.acquire, .release ⟨1⟩, .acquire, .acquire] = past ++ t :: [u] ∧
        past.length = 2 ∧ t.answer = .error (.allocation "out of memory") ∧
        (made t.after.2.trace).length = (made t.before.2.trace).length + 4 ∧
        t.after.1.stats.markerFaults = t.before.1.stats.markerFaults + 1 ∧ u.Grows := by
    cases hp
    refine ⟨[_, _], _, _, rfl, rfl, rfl, rfl, rfl, ?_⟩
    show (1 : Nat) < 2
    decide
  have hcourse : Course faltering.audited Elsewhere (p, .ofWorld ⟨0, 0⟩) (past ++ t :: [u]) :=
    hturns ▸ (course_turns _ _).mono fun r r' h => ⟨congrArg (·.trace) h.symm,
      congrArg (·.world.next) h.symm⟩
  obtain ⟨hatomic, hnumber⟩ := failed_operation_is_atomic hp faltering 0 hcourse hfail
  refine ⟨p, t, u, hp, ?_, hfail, hmade, hcount, hatomic,
    hnumber [] u [] rfl (fun v hv => (by cases hv)) hgrows⟩
  rw [hturns, ← htwo, List.drop_left]

end Pool
end SurfaceRelay
