import SurfaceRelay.Proofs.Pool.Course
import SurfaceRelay.Trace

/-! When a released surface goes out again.

From its release until it is handed out, a surface stays in the ring as the release left it
(`holds_turn`), because operations change the surface at the cursor only, and that one only
when it goes out or is released. The acquire that hands it out must then have found its
marker retired or have completed a forced wait on it (`Reuse`): there is no other way out for
a released surface (`reuse_course`). Over a recorded backend these are lines of the trace
(`released_surface_proven_unused`). -/
namespace SurfaceRelay.Pool
variable {W T K V : Type} {b : Backend W T K V}

/-! ### A released surface stays as it is -/

/-- The surface stands in the ring, unless the pool was torn down. -/
def Holds (p : Pool T K V) (s : Surface T K V) : Prop := p.closed = true ∨ s ∈ p.ring.slots

theorem Acquiring.holds {p : Pool T K V} {w : W} (h : p.Inv) {s : Surface T K V}
    (hs : s ∈ p.ring.slots) (hr : s.phase = .released)
    {r : EStateM.Result Fault (Pool T K V × W) Handle} (ha : Acquiring b p w r)
    (hout : ∀ x, r ≠ .ok s.handle x) : s ∈ (Attempt.leaves r).1.ring.slots := by
  cases ha with
  | closed => exact hs
  | again hp hc ht =>
    exact Ring.mem_setCurrent hc hs (by rintro rfl; exact ht hr)
  | ready hp hc ht ha hpoll =>
    exact Ring.mem_setCurrent hc hs (by rintro rfl; exact hout _ rfl)
  | grew hp hd =>
    show s ∈ (Ring.insert _ _).slots
    rw [hd.ring.1]
    exact (Ring.mem_insert h.sound).2 (.inr hs)
  | growthFailed hp hd => exact hd.ring.1 ▸ hs
  | stalled hp hd =>
    show s ∈ (Ring.setCurrent _ _).slots
    rw [hd.ring.1]
    exact Ring.mem_setCurrent hd.current hs (by rintro rfl; exact hout _ rfl)
  | stallFailed hp hd => exact hd.ring.1 ▸ hs

theorem Releasing.holds {p : Pool T K V} {w : W} {s : Surface T K V} (hs : s ∈ p.ring.slots)
    (hr : s.phase = .released) {k : Handle} {r : EStateM.Result Fault (Pool T K V × W) Unit}
    (ha : Releasing b k p w r) : s ∈ (Attempt.leaves r).1.ring.slots := by
  have hne {t : Surface T K V} (ht : t.phase = .writing) : s ≠ t := by
    rintro rfl
    rw [hr] at ht
    cases ht
  cases ha with
  | closed => exact hs
  | stale => exact hs
  | recorded hp hc hh ht => exact Ring.mem_setCurrent hc hs (hne ht)
  | unrecorded hp hc hh ht => exact Ring.mem_setCurrent hc hs (hne ht)

/-- A pool that was torn down stays as it is, and so does its world. -/
theorem closed_turn {x : Pool T K V × W} (hp : x.1.closed = true) (op : Op) :
    (turn b x op).after = x := by
  cases op with
  | acquire =>
    have h : acquire b x = .error .closed x := if_pos hp
    rw [turn_acquire, h]
    rfl
  | release k =>
    have h : release b k x = .error .closed x := if_pos hp
    rw [turn_release, h]
    rfl
  | awaitConsumer k =>
    have h : awaitConsumer b k x = .error .closed x := if_pos hp
    rw [turn_awaitConsumer, h]
    rfl
  | close => exact if_pos hp

/-- Whatever a turn does, it leaves a released surface as it is unless it hands it out. -/
theorem holds_turn {x : Pool T K V × W} (hx : x.1.Inv) {s : Surface T K V} (hs : x.1.Holds s)
    (hr : s.phase = .released) (op : Op) (hout : (turn b x op).answer ≠ .ok (some s.handle)) :
    (turn b x op).after.1.Holds s := by
  rcases hs with hp | hs
  · exact .inl (by rw [closed_turn hp op]; exact hp)
  · cases op with
    | acquire =>
      rw [turn_acquire] at hout ⊢
      refine .inr ((acquiring b x.1 x.2).holds hx hs hr fun y hy => hout ?_)
      show (Attempt.answers (acquire b x)).map some = _
      rw [show acquire b x = _ from hy]
      rfl
    | release k =>
      rw [turn_release]
      exact .inr ((releasing b k x.1 x.2).holds hs hr)
    | awaitConsumer k =>
      rw [turn_awaitConsumer]
      exact .inr ((awaiting b k x.1 x.2).pool ▸ hs)
    | close =>
      refine .inl ?_
      simp only [turn_close, close]
      split
      · assumption
      · rfl

/-! ### Releasing a surface and handing it out again -/

/-- What a release leaves: the surface, released, with a marker that is armed if and only if
it could be recorded. -/
inductive Released (b : Backend W T K V) (h : Handle) (w w' : W) (s : Surface T K V) : Prop
  | armed {k} (hh : s.handle = h) (hr : s.phase = .released) (ha : s.armed = true)
      (hrec : b.producer.record (k, w) = .ok () (s.marker, w'))
  | unarmed {k e w₁} (hh : s.handle = h) (hr : s.phase = .released) (ha : s.armed = false)
      (hrec : b.producer.record (k, w) = .error e (s.marker, w₁))
      (hw : w' = b.note (.recordFailed h e) w₁)

theorem Released.phase {h : Handle} {w w' : W} {s : Surface T K V} (hs : Released b h w w' s) :
    s.handle = h ∧ s.phase = .released := by
  cases hs with
  | armed hh hr => exact ⟨hh, hr⟩
  | unarmed hh hr => exact ⟨hh, hr⟩

theorem released_turn {x : Pool T K V × W} {h : Handle} {a : Option Handle}
    (hok : (turn b x (.release h)).answer = .ok a) :
    ∃ s ∈ (turn b x (.release h)).after.1.ring.slots,
      Released b h x.2 (turn b x (.release h)).after.2 s := by
  rw [turn_release] at hok ⊢
  have hr : Releasing b h x.1 x.2 (release b h x) := releasing b h x.1 x.2
  generalize release b h x = r at hr hok ⊢
  cases hr with
  | closed => cases hok
  | stale => cases hok
  | recorded hp hc hh hs hrec =>
    exact ⟨_, Ring.mem_setCurrent_self (Ring.cursor_lt hc) _, .armed hh rfl rfl hrec⟩
  | unrecorded hp hc hh hs hrec =>
    subst hh
    exact ⟨_, Ring.mem_setCurrent_self (Ring.cursor_lt hc) _, .unarmed rfl rfl rfl hrec rfl⟩

/-- How a released surface comes to be handed out. -/
inductive Reuse (b : Backend W T K V) (x : Pool T K V × W) (s : Surface T K V) (w' : W) : Prop
  /-- Its marker, recorded by the release, had retired. -/
  | retired {k} (ha : s.armed = true) (hpoll : b.producer.poll s.marker x.2 = .ok (some k) w')
  /-- The producer was drained behind a copy of the surface. -/
  | drained {p₁ w₁ w₂} (hd : Declined b x.1 x.2 (some s) p₁ w₁)
      (hw : b.producer.drain s.texture s.staging p₁.stagingSize w₁ = .ok () w₂)
      (hn : w' = b.note (.underflow p₁.ring.cursor) w₂)

theorem reuse_acquire {x y : Pool T K V × W} (hx : x.1.Inv) {s : Surface T K V}
    (hs : s ∈ x.1.ring.slots) (hr : s.phase = .released) (hok : acquire b x = .ok s.handle y) :
    Reuse b x s y.2 := by
  have ha : Acquiring b x.1 x.2 (acquire b x) := acquiring b x.1 x.2
  rw [hok] at ha
  generalize hh : s.handle = h at ha
  cases ha with
  | @again t hp hc ht =>
    rw [hx.unique hs (Ring.current?_mem hc) hh] at hr
    exact absurd hr ht
  | @ready t k w' hp hc ht ha hpoll =>
    obtain rfl := hx.unique hs (Ring.current?_mem hc) hh
    exact .retired ha hpoll
  | grew hp hd =>
    have hlt := hx.fresh hp hs
    rw [hh, hd.ring.2.2.2.2.1] at hlt
    exact absurd hlt (Nat.lt_irrefl _)
  | @stalled t p₁ w₁ w₂ hp hd hfull hw =>
    obtain rfl := hx.unique hs (Ring.current?_mem hd.current) hh
    exact .drained hd hw rfl

/-- In a run, the turn `acq` hands out the surface that the turn `rel` released, for the first
time since. -/
structure HandedOutAgain (history : List (Turn W T K V)) (h : Handle) (rel acq : Turn W T K V) :
    Prop where
  order : ∃ past mid rest, history = past ++ rel :: (mid ++ acq :: rest) ∧
    ∀ t ∈ mid, t.answer ≠ .ok (some h)
  released : rel.op = .release h
  accepted : rel.answer = .ok none
  handedOut : acq.answer = .ok (some h)

/-- A history from a release to the next time its surface goes out. -/
theorem HandedOutAgain.parts {may : W → W → Prop} {J : Pool T K V × W → Prop}
    (hmay : Unmoved may J) (hturn : ∀ x op, J x → J (turn b x op).after) {x : Pool T K V × W}
    {history : List (Turn W T K V)} (hcourse : Course b may x history) (hx : J x) {h : Handle}
    {rel acq : Turn W T K V} (hagain : HandedOutAgain history h rel acq) :
    rel = turn b rel.before (.release h) ∧ J rel.before ∧
      ∃ mid rest, Course b may rel.after (mid ++ acq :: rest) ∧
        ∀ t ∈ mid, t.answer ≠ .ok (some h) := by
  obtain ⟨⟨past, mid, rest, rfl, hmid⟩, hop, -, -⟩ := hagain
  obtain ⟨y, hy, hcourse⟩ := hcourse.carry hmay hx fun t _ ht hbefore => by
    rw [ht]
    exact hturn _ _ hbefore
  obtain ⟨hrel, hbefore, hcourse⟩ := hcourse.split hmay hy
  exact ⟨hop ▸ hrel, hbefore, mid, rest, hcourse, hmid⟩

/-- A released surface goes out again as its release left it, and only when its marker had
retired or the producer was drained. -/
theorem HandedOutAgain.reuse_course {may : W → W → Prop} {x : Pool T K V × W}
    {history : List (Turn W T K V)} (hcourse : Course b may x history) (hx : x.1.Inv) {h : Handle}
    {rel acq : Turn W T K V} (hagain : HandedOutAgain history h rel acq) :
    ∃ s, rel.after.1.find? h = some s ∧ acq.before.1.find? h = some s ∧
      Released b h rel.before.2 rel.after.2 s ∧ Reuse b acq.before s acq.after.2 := by
  obtain ⟨hrel, hbefore, mid, rest, hcourse, hmid⟩ :=
    hagain.parts unmoved_of_pool (fun _ op hx => inv_turn hx op) hcourse hx
  -- the release
  have hlive : rel.after.1.Inv := by
    rw [hrel]
    exact inv_turn hbefore _
  have hrelok := hagain.accepted
  rw [hrel] at hrelok
  obtain ⟨s, hs, hreleased⟩ := released_turn hrelok
  rw [← hrel] at hs hreleased
  obtain ⟨rfl, hphase⟩ := hreleased.phase
  -- the turns between
  obtain ⟨y, ⟨hy, hkept⟩, hcourse⟩ :=
    hcourse.carry (J := fun x => x.1.Inv ∧ x.1.Holds s) (fun _ _ _ _ h => h) ⟨hlive, .inr hs⟩
      fun t htmid ht hbefore => by
        have hout := hmid t htmid
        rw [ht] at hout ⊢
        exact ⟨inv_turn hbefore.1 _, holds_turn hbefore.1 hbefore.2 hphase _ hout⟩
  -- the acquire
  obtain ⟨hacq, ⟨hinv, hkept⟩, -⟩ :=
    hcourse.split (J := fun x => x.1.Inv ∧ x.1.Holds s) (fun _ _ _ _ h => h) ⟨hy, hkept⟩
  have hacqok := hagain.handedOut
  rw [hacq] at hacqok
  obtain ⟨hop, hacquire⟩ := acquire_of_answer b hacqok
  rw [← hacq] at hacquire
  rcases hkept with hclosed | hmem
  · have : acquire b acq.before = .error .closed acq.before := if_pos hclosed
    rw [this] at hacquire
    cases hacquire
  · exact ⟨s, hlive.find?_eq_some.2 ⟨hs, rfl⟩, hinv.find?_eq_some.2 ⟨hmem, rfl⟩, hreleased,
      reuse_acquire hinv hmem hphase hacquire⟩

/-- The same in a run, whose world never moves on by itself. -/
theorem HandedOutAgain.reuse {x : Pool T K V × W} (hx : x.1.Inv) {ops : List Op} {h : Handle}
    {rel acq : Turn W T K V} (hagain : HandedOutAgain (turns b x ops) h rel acq) :
    ∃ s, rel.after.1.find? h = some s ∧ acq.before.1.find? h = some s ∧
      Released b h rel.before.2 rel.after.2 s ∧ Reuse b acq.before s acq.after.2 :=
  hagain.reuse_course (course_turns x ops) hx

/-! ### On the trace of a recorded backend -/

variable {E F : Type}

/-- A call that was recorded adds the one line with its answer. -/
theorem call_ok {α : Type} {act : Attempt W α} {entry : Except Fault α → E} {r r' : Recorded W E}
    {a : α} (h : Recorded.call act entry r = .ok a r') : r'.trace = r.trace ++ [entry (.ok a)] := by
  simp only [Recorded.call] at h
  split at h <;> cases h
  rfl

theorem call_error {α : Type} {act : Attempt W α} {entry : Except Fault α → E}
    {r r' : Recorded W E} {e : Fault} (h : Recorded.call act entry r = .error e r') :
    r'.trace = r.trace ++ [entry (.error e)] := by
  simp only [Recorded.call] at h
  split at h <;> cases h
  rfl

/-- The release recorded the marker of the surface, behind everything the producer was given. -/
def Marked (s : Surface T K V) (rel : Turn (Recorded W (Entry F T K V)) T K V) : Prop :=
  ∃ k, rel.Shows Recorded.trace [.producer (.record k (.ok s.marker))]

/-- The release could not record a marker. -/
def Unmarked (rel : Turn (Recorded W (Entry F T K V)) T K V) : Prop :=
  ∃ k e, rel.Shows Recorded.trace [.producer (.record k (.error e))]

/-- The surface's marker was polled and had retired. -/
def SeenRetired (s : Surface T K V) (acq : Turn (Recorded W (Entry F T K V)) T K V) : Prop :=
  ∃ k, acq.Shows Recorded.trace [.producer (.poll s.marker (.ok (some k)))]

/-- The surface was copied into its staging resource, and the map of that resource completed. -/
def Drained (s : Surface T K V) (acq : Turn (Recorded W (Entry F T K V)) T K V) : Prop :=
  ∃ region, acq.Shows Recorded.trace
    [.producer (.image (.stage s.texture s.staging region (.ok ()))),
      .producer (.image (.blockOn s.staging (.ok ())))]

/-- What a recording made of a marker stands in its line. -/
theorem recording_ok {act : Attempt (K × W) Unit} {k k' : K}
    {r r' : Recorded W (Entry F T K V)} (h : Recorded.recording act (k, r) = .ok () (k', r')) :
    r'.trace = r.trace ++ [.producer (.record k (.ok k'))] := by
  simp only [Recorded.recording] at h
  split at h <;> cases h
  rfl

theorem recording_error {act : Attempt (K × W) Unit} {k k' : K} {e : Fault}
    {r r' : Recorded W (Entry F T K V)} (h : Recorded.recording act (k, r) = .error e (k', r')) :
    r'.trace = r.trace ++ [.producer (.record k (.error e))] := by
  simp only [Recorded.recording] at h
  split at h <;> cases h
  rfl

variable {b : Backend W T K V}

/-- Judging a surface adds the lines of what was asked. -/
theorem Declined.trace {p p₁ : Pool T K V} {r r₁ : Recorded W (Entry F T K V)}
    {o : Option (Surface T K V)} (h : Declined b.recorded p r o p₁ r₁) :
    ∃ lines, r₁.trace = r.trace ++ lines := by
  cases h with
  | vacant => exact ⟨[], by simp⟩
  | unarmed => exact ⟨[], by simp⟩
  | pending hc hr ha hpoll => exact ⟨_, call_ok hpoll⟩
  | @unknown s e r' hc hr ha hpoll =>
    refine ⟨[.producer (.poll s.marker (.error e)), .notice (.pollFailed s.handle e)], ?_⟩
    show r'.trace ++ _ = _
    rw [call_error hpoll, List.append_assoc]
    rfl

theorem drained_shown {s : Surface T K V} {acq : Turn (Recorded W (Entry F T K V)) T K V}
    {p₁ : Pool T K V} {r₁ r₂ : Recorded W (Entry F T K V)}
    (hd : Declined b.recorded acq.before.1 acq.before.2 (some s) p₁ r₁)
    (hw : b.recorded.producer.drain s.texture s.staging p₁.stagingSize r₁ = .ok () r₂)
    (hn : acq.after.2 = b.recorded.note (.underflow p₁.ring.cursor) r₂) : Drained s acq := by
  obtain ⟨lines, hlines⟩ := hd.trace
  obtain ⟨r', hstage, hblock⟩ := drain_ok hw
  refine ⟨p₁.stagingSize, lines, [.notice (.underflow p₁.ring.cursor)], ?_⟩
  rw [hn]
  show r₂.trace ++ _ = _
  rw [call_ok hblock, call_ok hstage, hlines]
  simp

/-- **A released surface goes out again only when it is proven unused.** Whatever the two
domains answer, and whatever else is asked of the pool in between: when a surface goes out for
the first time since a release, then during this acquire either its own marker was polled and
had retired, and the release had recorded that marker; or the surface was copied into its
staging resource and the map of that resource completed. After a release that could not
record its marker, only the latter will do. -/
theorem released_surface_proven_unused {c : Config} {p : Pool T K V} (hp : make c = .ok p)
    (w : W) {ops : List Op} {h : Handle} {rel acq : Turn (Recorded W (Entry F T K V)) T K V}
    (hagain : HandedOutAgain (turns b.recorded (p, .ofWorld w) ops) h rel acq) :
    ∃ s, rel.after.1.find? h = some s ∧ acq.before.1.find? h = some s ∧
      (Marked s rel ∧ SeenRetired s acq ∨ Drained s acq) ∧ (Unmarked rel → Drained s acq) := by
  obtain ⟨s, hrel, hacq, hreleased, hreuse⟩ :=
    hagain.reuse (x := (p, Recorded.ofWorld w)) (inv_make hp)
  refine ⟨s, hrel, hacq, ?_⟩
  cases hreuse with
  | drained hd hw hn =>
    have hdrained := drained_shown hd hw hn
    exact ⟨.inr hdrained, fun _ => hdrained⟩
  | @retired k ha hpoll =>
    cases hreleased with
    | unarmed hh hr ha' => rw [ha'] at ha; cases ha
    | @armed m hh hr ha' hrec =>
      have hline := recording_ok hrec
      refine ⟨.inl ⟨⟨m, [], [], by simpa using hline⟩, k, [], [], by simpa using call_ok hpoll⟩, ?_⟩
      rintro ⟨m', e, hlost⟩
      -- the release made one call only, and that one was answered
      simpa using hlost.mem hline (List.mem_singleton_self _)

theorem released_surface_proven_unused_steady :
    ∃ (p : Pool Unit Unit Unit)
      (rel acq : Turn (Recorded Unit (Entry Unit Unit Unit Unit)) Unit Unit Unit) (s : _),
      make ⟨⟨1, 1⟩, 1⟩ = .ok p ∧
      HandedOutAgain
        (turns (steady true).recorded (p, .ofWorld ()) [.acquire, .release ⟨1⟩, .acquire])
        ⟨1⟩ rel acq ∧
      acq.before.1.find? ⟨1⟩ = some s ∧ (Marked s rel ∧ SeenRetired s acq ∨ Drained s acq) := by
  obtain ⟨p, hp⟩ : ∃ p : Pool Unit Unit Unit, make ⟨⟨1, 1⟩, 1⟩ = .ok p := ⟨_, rfl⟩
  obtain ⟨rel, acq, hagain⟩ : ∃ rel acq, HandedOutAgain (W := Recorded Unit (Entry Unit _ _ _))
      (turns (steady true).recorded (p, .ofWorld ()) [.acquire, .release ⟨1⟩, .acquire])
      ⟨1⟩ rel acq := by
    cases hp
    exact ⟨_, _, ⟨[_], [], [], rfl, by simp⟩, rfl, rfl, rfl⟩
  obtain ⟨s, -, hs, hshown, -⟩ := released_surface_proven_unused hp () hagain
  exact ⟨p, rel, acq, s, hp, hagain, hs, hshown⟩

end SurfaceRelay.Pool
