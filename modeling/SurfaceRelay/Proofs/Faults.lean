import SurfaceRelay.Proofs.Frames
import SurfaceRelay.Proofs.Histories

/-! Faults that tell what failed.

Callers branch on the kind of a fault. What domains owe them is that an operation fails with one
kind only (`Backend.Classified`); a converter owes the same, but for the frames that it loses in
other ways (`Converter.Classified`). A pool adds no faults of its own to these except that it was
torn down, and one for handles that do not name what they should, which a presenter never passes.
So the kind of the fault with which presenting a frame fails, and what is known of the pool, tell
which operation it was (`Presenter.Failing`). -/
namespace SurfaceRelay
variable {W F T K V α β : Type}

/-! ### Attempts -/

namespace Attempt
variable {kind : Fault.Kind} {act : Attempt W α}

/-- Whenever the attempt fails, its fault is of this kind. -/
def FailsAs (kind : Fault.Kind) (act : Attempt W α) : Prop :=
  ∀ ⦃w e w'⦄, act w = .error e w' → e.kind = kind

theorem failsAs_of_ok (h : ∀ w, ∃ a w', act w = .ok a w') : act.FailsAs kind := by
  intro w e w' he
  obtain ⟨a, w₁, hok⟩ := h w
  cases he.symm.trans hok

theorem failsAs_bind {next : α → Attempt W β} (hact : act.FailsAs kind)
    (hnext : ∀ a, (next a).FailsAs kind) : (act >>= next).FailsAs kind := by
  intro w e w' he
  simp only [bind, EStateM.bind] at he
  split at he
  · exact hnext _ he
  · rename_i hfail
    cases he
    exact hact hfail

theorem failsAs_of_map {f : α → β} (h : (f <$> act).FailsAs kind) : act.FailsAs kind :=
  fun _ _ _ he => h (map_of_error f he)

theorem failsAs_inPlace {act : α → Attempt W α} {left : α → α} (h : ∀ a, (act a).FailsAs kind) :
    (inPlace act left).FailsAs kind := fun _ _ _ he => h _ (inPlace_error he).1

end Attempt

/-- What is taken back does not change why the rest failed. -/
theorem Surface.holding_failsAs {kind : Fault.Kind} {make : Attempt W α} {undo : α → W → W}
    {rest : α → Attempt W β} (hmake : make.FailsAs kind) (hrest : ∀ a, (rest a).FailsAs kind) :
    Attempt.FailsAs kind (holding make undo rest) := by
  intro w e w' he
  simp only [holding] at he
  split at he
  · rename_i hfail
    cases he
    exact hmake hfail
  · split at he
    · cases he
    · rename_i hfail
      cases he
      exact hrest _ hfail

/-! ### Domains -/

/-- Creating fails as an allocation, copying and mapping as a mapping. -/
structure Domain.Classified (d : Domain W T) : Prop where
  newStaging : ∀ size, (d.newStaging size).FailsAs .allocation
  stage : ∀ texture staging region, (d.stage texture staging region).FailsAs .mapping
  blockOn : ∀ staging, (d.blockOn staging).FailsAs .mapping

/-- Recording and polling fail as a marker, whatever else makes up a surface as an allocation. -/
structure Producer.Classified (p : Producer W T K) : Prop extends p.toDomain.Classified where
  newTexture : ∀ size, (p.newTexture size).FailsAs .allocation
  share : ∀ texture, (p.share texture).FailsAs .allocation
  newMarker : p.newMarker.FailsAs .allocation
  record : p.record.FailsAs .marker
  poll : ∀ marker, (p.poll marker).FailsAs .marker

structure Consumer.Classified (c : Consumer W V) : Prop extends c.toDomain.Classified where
  openShare : ∀ shared size, (c.openShare shared size).FailsAs .allocation

structure Backend.Classified (b : Backend W T K V) : Prop where
  producer : b.producer.Classified
  consumer : b.consumer.Classified

/-- A converter that fails could not write the frame, or has lost it as `lost` says, with the fault
that stands there. What `lost` says does happen. -/
structure Converter.Classified (convert : Converter W F V) (lost : F → V → W → Fault → Prop) :
    Prop where
  failed : ∀ {frame view w e w'}, convert frame view w = .error e w' →
    e.kind = .conversion ∨ lost frame view w e
  lost : ∀ {frame view w e}, lost frame view w e → ∃ w', convert frame view w = .error e w'

theorem Domain.Classified.drain {d : Domain W T} (h : d.Classified) (texture staging : T)
    (region : Extent) : (d.drain texture staging region).FailsAs .mapping :=
  Attempt.failsAs_bind (h.stage texture staging region) fun _ => h.blockOn staging

/-- Whichever of the six steps fails. -/
theorem Backend.Classified.build {b : Backend W T K V} (h : b.Classified) (k : Handle)
    (size stagingSize : Extent) : (Surface.build b k size stagingSize).FailsAs .allocation := by
  refine Surface.holding_failsAs (h.producer.newTexture size) fun texture => ?_
  refine Attempt.failsAs_bind (h.producer.share texture) fun shared => ?_
  refine Surface.holding_failsAs (h.producer.newStaging stagingSize) fun staging => ?_
  refine Surface.holding_failsAs h.producer.newMarker fun marker => ?_
  refine Surface.holding_failsAs (h.consumer.openShare shared size) fun view => ?_
  exact Attempt.failsAs_bind (h.consumer.newStaging stagingSize) fun _ =>
    Attempt.failsAs_of_ok fun w => ⟨_, w, rfl⟩

/-! ### Recording -/

theorem Recorded.call_error {E : Type} {act : Attempt W α} {entry : Except Fault α → E}
    {r r' : Recorded W E} {e : Fault} (h : Recorded.call act entry r = .error e r') :
    act r.world = .error e r'.world := by
  simp only [Recorded.call] at h
  split at h <;> cases h
  assumption

theorem Recorded.call_failsAs {E : Type} {kind : Fault.Kind} {act : Attempt W α}
    {entry : Except Fault α → E} (h : act.FailsAs kind) :
    (Recorded.call act entry).FailsAs kind := fun _ _ _ he => h (Recorded.call_error he)

theorem Recorded.recording_failsAs {kind : Fault.Kind} {act : Attempt (K × W) Unit}
    (h : act.FailsAs kind) :
    (Recorded.recording (F := F) (T := T) (V := V) act).FailsAs kind := by
  intro x e x' he
  simp only [recording] at he
  split at he <;> cases he
  exact h ‹_›

theorem Domain.Classified.recorded {E : Type} {d : Domain W T} (h : d.Classified)
    (entry : ImageCall T → E) : (Recorded.domain d entry).Classified where
  newStaging size := Recorded.call_failsAs (h.newStaging size)
  stage texture staging region := Recorded.call_failsAs (h.stage texture staging region)
  blockOn staging := Recorded.call_failsAs (h.blockOn staging)

/-- A recorded backend fails as the backend does. -/
theorem Backend.Classified.recorded {b : Backend W T K V} (h : b.Classified) :
    (b.recorded : Backend (Recorded W (Entry F T K V)) T K V).Classified where
  producer :=
    { h.producer.toClassified.recorded _ with
      newTexture := fun size => Recorded.call_failsAs (h.producer.newTexture size)
      share := fun texture => Recorded.call_failsAs (h.producer.share texture)
      newMarker := Recorded.call_failsAs h.producer.newMarker
      record := Recorded.recording_failsAs h.producer.record
      poll := fun marker => Recorded.call_failsAs (h.producer.poll marker) }
  consumer :=
    { h.consumer.toClassified.recorded _ with
      openShare := fun shared size => Recorded.call_failsAs (h.consumer.openShare shared size) }

theorem Converter.Classified.recorded {convert : Converter W F V}
    {lost : F → V → W → Fault → Prop} (h : convert.Classified lost) :
    Converter.Classified (Converter.recorded (T := T) (K := K) convert)
      fun frame view r => lost frame view r.world where
  failed he := h.failed (Recorded.call_error he)
  lost {frame view r e} hlost := by
    obtain ⟨w', he⟩ := h.lost hlost
    simp only [Converter.recorded, Recorded.call, he]
    exact ⟨_, rfl⟩

/-! ### Acquiring -/

/-- An acquire fails as an allocation while the ring may grow, and as a mapping once it is full. -/
theorem Pool.Acquiring.kind {b : Backend W T K V} {p : Pool T K V} {w : W} {e : Fault}
    {y : Pool T K V × W} (ha : Acquiring b p w (.error e y)) (hb : b.Classified) (hinv : p.Inv)
    (hopen : p.closed = false) :
    p.ring.size < p.capacity ∧ e.kind = .allocation ∨
      p.capacity ≤ p.ring.size ∧ e.kind = .mapping := by
  cases ha with
  | closed hp => exact absurd hp (ne_true_of_eq_false hopen)
  | growthFailed hp hd hroom hbuild =>
    exact .inl ⟨(hd.room hinv hroom).1, hb.build _ _ _ hbuild⟩
  | stallFailed hp hd hfull hdrain =>
    exact .inr ⟨hfull, hb.producer.drain _ _ _ hdrain⟩

/-- A pool that hands out a surface was not torn down. -/
theorem Pool.open_of_acquire {b : Backend W T K V} {x y : Pool T K V × W} {k : Handle}
    (h : acquire b x = .ok k y) : y.1.closed = false := by
  have ha : Acquiring b x.1 x.2 (acquire b x) := acquiring b x.1 x.2
  have hclosed := ha.closed_after
  rw [h] at ha hclosed
  refine hclosed.trans (eq_false_of_ne_true fun hx => ?_)
  cases h.symm.trans (show acquire b x = .error .closed x from if_pos hx)

namespace Presenter

/-! ### Filling a surface -/

/-- Why a frame could not be put on display, when the pool and its world were `q` and it was not
torn down. -/
inductive Failing (b : Backend W T K V) (convert : Converter W F V)
    (lost : F → V → W → Fault → Prop) (frame : F) (q : Pool T K V × W) (e : Fault) : Prop
  /-- The ring was to grow by a surface, which could not be built. -/
  | unbuilt {y} (hroom : q.1.ring.size < q.1.capacity) (ha : Pool.acquire b q = .error e y)
      (hkind : e.kind = .allocation)
  /-- The ring was full, and the producer could not be waited for. -/
  | stalled {y} (hfull : q.1.capacity ≤ q.1.ring.size) (ha : Pool.acquire b q = .error e y)
      (hkind : e.kind = .mapping)
  /-- The converter failed to write the frame into the surface that was acquired. -/
  | unconverted {s p₁ w₁ w₂} (ha : Pool.acquire b q = .ok s.handle (p₁, w₁))
      (hc : p₁.ring.current? = some s) (hv : convert frame s.view w₁ = .error e w₂)
      (hkind : e.kind = .conversion ∨ lost frame s.view w₁ e)
  /-- The consumer could not be waited for. -/
  | unlanded {s p₁ w₁ w₂ w₃} (ha : Pool.acquire b q = .ok s.handle (p₁, w₁))
      (hc : p₁.ring.current? = some s) (hv : convert frame s.view w₁ = .ok () w₂)
      (hw : b.consumer.drain s.view s.viewStaging p₁.stagingSize w₂ = .error e w₃)
      (hkind : e.kind = .mapping)

theorem Filling.failing {b : Backend W T K V} {convert : Converter W F V}
    {lost : F → V → W → Fault → Prop} {frame : F} {q y : Pool T K V × W} {e : Fault}
    (h : Filling b convert frame q (.error e y)) (hb : b.Classified)
    (hconvert : convert.Classified lost) (hinv : q.1.Inv) (hopen : q.1.closed = false) :
    Failing b convert lost frame q e := by
  have hacquiring : Pool.Acquiring b q.1 q.2 (Pool.acquire b q) := Pool.acquiring b q.1 q.2
  cases h with
  | refused ha =>
    rw [ha] at hacquiring
    rcases hacquiring.kind hb hinv hopen with ⟨hroom, hkind⟩ | ⟨hfull, hkind⟩
    · exact .unbuilt hroom ha hkind
    · exact .stalled hfull ha hkind
  | unconverted ha hc hs hv => exact .unconverted ha hc hv (hconvert.failed hv)
  | @lost s p₁ w₁ w₂ _ w₃ ha hc hs hv hw =>
    have hopen₁ : p₁.closed = false := Pool.open_of_acquire ha
    rw [ha] at hacquiring
    have hinv₁ : p₁.Inv := hacquiring.inv hinv
    have hfind : p₁.find? s.handle = some s := hinv₁.find?_eq_some.2 ⟨Ring.current?_mem hc, rfl⟩
    have hawaiting := Pool.awaiting b s.handle p₁ w₂
    rw [hw] at hawaiting
    -- the surface is still there under its handle, so only the drain can have failed
    cases hawaiting with
    | closed hp => exact absurd hp (ne_true_of_eq_false hopen₁)
    | stale hp hf => cases hf.symm.trans hfind
    | failed hp hf hdrain =>
      obtain rfl := Option.some.inj (hf.symm.trans hfind)
      exact .unlanded ha hc hv hdrain (hb.consumer.drain _ _ _ hdrain)

/-! ### Presenting -/

/-- Presenting fails as filling the surface does. -/
theorem fill_of_present {b : Backend W T K V} {convert : Converter W F V}
    {x : Presenter T K V × W} {frame : F} {e : Fault}
    (h : (turn b convert x (.present frame)).answer = .error e) :
    ∃ y, fill b convert frame ((retract b x).1.pool, (retract b x).2) = .error e y := by
  rw [turn_present] at h
  simp only [present] at h
  rcases hfill : fill b convert frame ((retract b x).1.pool, (retract b x).2) with ⟨k, y⟩ | ⟨e', y⟩
  · rw [hfill] at h
    cases h
  · rw [hfill] at h
    cases h
    exact ⟨y, rfl⟩

/-- Over a pool that was torn down no frame is presented, and no domain is asked for anything. -/
theorem present_closed (b : Backend W T K V) (convert : Converter W F V)
    {x : Presenter T K V × Recorded W (Entry F T K V)} (hclosed : x.1.pool.closed = true)
    (frame : F) :
    let t := turn b.recorded (Converter.recorded convert) x (.present frame)
    t.answer = .error .closed ∧
      ∃ notices : List Notice, t.after.2.trace = t.before.2.trace ++ notices.map .notice := by
  obtain ⟨⟨pool, shown, dropped⟩, r⟩ := x
  have hfill (r : Recorded W (Entry F T K V)) :
      fill b.recorded (Converter.recorded convert) frame (pool, r) = .error .closed (pool, r) :=
    fill_closed hclosed
  intro t
  have ht : t = _ := turn_present b.recorded (Converter.recorded convert) _ frame
  rw [ht]
  cases shown with
  | none =>
    simp only [present, retract, hfill]
    exact ⟨rfl, [.frameDropped (dropped + 1) .closed], rfl⟩
  | some k =>
    have hrelease : Pool.release b.recorded k (pool, r) = .error .closed (pool, r) :=
      if_pos hclosed
    simp only [present, retract, hrelease, hfill]
    exact ⟨rfl, [.retractIgnored k .closed, .frameDropped (dropped + 1) .closed],
      List.append_assoc ..⟩

/-- Why a frame was dropped in this turn, with this fault. -/
inductive Turn.Blames (b : Backend W T K V) (convert : Converter W F V)
    (lost : F → V → W → Fault → Prop) (frame : F)
    (t : Turn (Recorded W (Entry F T K V)) F T K V) (e : Fault) : Prop
  /-- The pool was torn down before, and no domain was asked for anything. -/
  | closed (hclosed : t.before.1.pool.closed = true) (he : e = .closed) {notices : List Notice}
      (hsilent : t.after.2.trace = t.before.2.trace ++ notices.map .notice)
  /-- Behind the retraction, a step on the way to the display failed. -/
  | failed (hopen : t.before.1.pool.closed = false) {q : Presenter T K V × Recorded W _}
      (hretract : q = retract b.recorded t.before)
      (h : Failing b.recorded (Converter.recorded convert)
        (fun frame view r => lost frame view r.world) frame (q.1.pool, q.2) e)

/-- **The fault with which a frame is dropped tells why.** This follows from what domains and
converter owe, whatever happens in them between the moves. A pool that was torn down says so
before any domain is asked; otherwise the acquire, the converter or the wait has failed, each in
its own way. -/
theorem Course.present_fails {b : Backend W T K V} {convert : Converter W F V}
    {lost : F → V → W → Fault → Prop} (hb : b.Classified) (hconvert : convert.Classified lost)
    {may : Recorded W (Entry F T K V) → Recorded W (Entry F T K V) → Prop}
    {x : Presenter T K V × Recorded W (Entry F T K V)} (hinv : x.1.pool.Inv)
    {first rest : List (Turn (Recorded W (Entry F T K V)) F T K V)}
    {t : Turn (Recorded W (Entry F T K V)) F T K V}
    (hcourse : Course b.recorded (Converter.recorded convert) may x (first ++ t :: rest))
    {frame : F} (hmove : t.move = .present frame) {e : Fault} (hfail : t.answer = .error e) :
    t.Blames b convert lost frame e := by
  have hkept := inv_kept b.recorded (Converter.recorded convert)
  have hstart : OnTrack (fun _ _ x => x.1.Inv) [] x := hinv
  obtain ⟨ht, hbefore, -⟩ := hcourse.tracked hkept.tracks (fun _ h => h) hstart
  rw [hmove] at ht
  rw [ht] at hfail
  cases hclosed : t.before.1.pool.closed with
  | true =>
    obtain ⟨hanswer, notices, hsilent⟩ := present_closed b convert hclosed frame
    obtain rfl : .closed = e := Except.error.inj (hanswer.symm.trans hfail)
    rw [← ht] at hsilent
    exact .closed hclosed rfl hsilent
  | false =>
    obtain ⟨y, hfill⟩ := fill_of_present hfail
    have hopen : (retract b.recorded t.before).1.pool.closed = false :=
      (closed_retract b.recorded t.before).trans hclosed
    have hinv' : (retract b.recorded t.before).1.pool.Inv := hkept.make .retract t.before hbefore
    have hfilling := filling b.recorded (Converter.recorded convert) frame
      (q := ((retract b.recorded t.before).1.pool, (retract b.recorded t.before).2)) hinv'
    rw [hfill] at hfilling
    exact .failed hclosed rfl (hfilling.failing hb.recorded hconvert.recorded hinv' hopen)

end Presenter
end SurfaceRelay
