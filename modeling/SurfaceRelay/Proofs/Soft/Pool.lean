import SurfaceRelay.Proofs.Pool.Invariant
import SurfaceRelay.Proofs.Soft.Building

/-! A pool of software surfaces, on the ledger.

The surfaces of a pool say which status their storages have (`Assigned`): staging storages are
scratch, a released surface is guarded by its own marker if it has one, and the surface that is
out is writable, or shows what is on display. Every operation of the pool keeps this in step
with the ledger, while the workers do what they like (`Tracked`). -/
namespace SurfaceRelay.Soft
open SurfaceRelay.Pool (Acquiring Releasing Awaiting Declined)

variable {p c : Nat} {σ : Statuses} {issued : List (Nat × Option Pixels)} {x : Concurrent}
  {pool : SurfaceRelay.Pool Texture Marker Texture} {display : Option Pixels}
  {s : Surface Texture Marker Texture}

/-! ### The surfaces of a pool -/

/-- The status that a surface says its texture has, with this frame on display or none. -/
def expected (display : Option Pixels) (s : Surface Texture Marker Texture) : Status :=
  if s.phase = .released then .guarded (if s.armed then some s.marker.count else none)
  else
    match display with
    | some frame => .shown frame
    | none => .writable

theorem expected_released (hs : s.phase = .released) (display : Option Pixels) :
    expected display s = .guarded (if s.armed then some s.marker.count else none) := if_pos hs

theorem expected_out (hs : s.phase ≠ .released) (display : Option Pixels) :
    expected display s =
      match display with
      | some frame => .shown frame
      | none => .writable := if_neg hs

theorem expected_ne_scratch (display : Option Pixels) (s : Surface Texture Marker Texture) :
    expected display s ≠ .scratch := by
  simp only [expected]
  split
  · simp
  · split <;> simp

/-- The storages of a surface are entered, the one of its texture with this status. -/
structure Entered (σ : Statuses) (st : Status) (s : Surface Texture Marker Texture) : Prop where
  view : s.view.storage = s.texture.storage
  texture : σ s.texture.storage = some st
  staging : σ s.staging.storage = some .scratch
  viewStaging : σ s.viewStaging.storage = some .scratch

/-- The surfaces of a ring are entered as they say, each with a texture of its own. -/
structure Assigned (σ : Statuses) (display : Option Pixels)
    (slots : List (Surface Texture Marker Texture)) : Prop where
  entered : ∀ s ∈ slots, Entered σ (expected display s) s
  distinct : ∀ s ∈ slots, ∀ t ∈ slots, s.texture.storage = t.texture.storage →
    s.handle = t.handle

theorem Assigned.nil : Assigned σ display [] :=
  ⟨fun s hs => (by cases hs), fun s hs => (by cases hs)⟩

theorem Assigned.mono {σ' : Statuses} {slots : List (Surface Texture Marker Texture)}
    (h : Assigned σ display slots) (hle : ∀ i st, σ i = some st → σ' i = some st) :
    Assigned σ' display slots := by
  refine ⟨fun t ht => ?_, h.distinct⟩
  obtain ⟨hview, htexture, hstaging, hviewStaging⟩ := h.entered t ht
  exact ⟨hview, hle _ _ htexture, hle _ _ hstaging, hle _ _ hviewStaging⟩

/-- The surface at the cursor changes its books, and the others stay as they are entered. -/
theorem Assigned.replace (h : Assigned σ display pool.ring.slots) (hinv : pool.Inv)
    (hc : pool.ring.current? = some s) (marker : Marker) (armed : Bool) (phase : Phase)
    (display' : Option Pixels) :
    Assigned
      (Table.put σ s.texture.storage (some (expected display' { s with marker, armed, phase })))
      display' (pool.ring.setCurrent { s with marker, armed, phase }).slots := by
  have hs := h.entered s (Ring.current?_mem hc)
  have hscratch {i : Nat} (hi : σ i = some .scratch) : i ≠ s.texture.storage := by
    intro he
    rw [he, hs.texture, Option.some_inj] at hi
    exact expected_ne_scratch _ _ hi
  refine ⟨fun t ht => ?_, fun t ht t' ht' he => ?_⟩
  · rcases hinv.mem_setCurrent hc ht with rfl | ⟨ht, hreleased, hne⟩
    · exact ⟨hs.view, Table.put_same .., (Table.put_other _ (hscratch hs.staging)).trans hs.staging,
        (Table.put_other _ (hscratch hs.viewStaging)).trans hs.viewStaging⟩
    · obtain ⟨hview, htexture, hstaging, hviewStaging⟩ := h.entered t ht
      have hother : t.texture.storage ≠ s.texture.storage :=
        fun he => hne (h.distinct t ht s (Ring.current?_mem hc) he)
      have hsame : expected display' t = expected display t := by
        rw [expected_released hreleased, expected_released hreleased]
      exact ⟨hview, by rw [Table.put_other _ hother, hsame, htexture],
        (Table.put_other _ (hscratch hstaging)).trans hstaging,
        (Table.put_other _ (hscratch hviewStaging)).trans hviewStaging⟩
  · have hold {t : Surface Texture Marker Texture}
        (ht : t ∈ (pool.ring.setCurrent { s with marker, armed, phase }).slots) :
        ∃ t₀ ∈ pool.ring.slots, t₀.texture = t.texture ∧ t₀.handle = t.handle := by
      rcases hinv.mem_setCurrent hc ht with rfl | ⟨ht, -⟩
      · exact ⟨s, Ring.current?_mem hc, rfl, rfl⟩
      · exact ⟨t, ht, rfl, rfl⟩
    obtain ⟨t₀, ht₀, htexture, hhandle⟩ := hold ht
    obtain ⟨t₁, ht₁, htexture', hhandle'⟩ := hold ht'
    rw [← hhandle, ← hhandle']
    exact h.distinct t₀ ht₀ t₁ ht₁ (by rw [htexture, htexture', he])

/-- What the surface at the cursor shows can change while it is out. -/
theorem Assigned.redisplay (h : Assigned σ display pool.ring.slots) (hinv : pool.Inv)
    (hc : pool.ring.current? = some s) (display' : Option Pixels) :
    Assigned (Table.put σ s.texture.storage (some (expected display' s))) display'
      pool.ring.slots := by
  have hsame : Assigned (Table.put σ s.texture.storage (some (expected display' s))) display'
      (pool.ring.setCurrent s).slots := h.replace hinv hc s.marker s.armed s.phase display'
  rwa [Ring.setCurrent_self hc] at hsame

/-- A surface with a new texture can be put in. -/
theorem Assigned.insert {σ' : Statuses} (h : Assigned σ display pool.ring.slots) (hinv : pool.Inv)
    (hle : ∀ i st, σ i = some st → σ' i = some st) (hnew : σ s.texture.storage = none)
    (hs : Entered σ' (expected display s) s) :
    Assigned σ' display (pool.ring.insert s).slots := by
  have hother {t : Surface Texture Marker Texture} (ht : t ∈ pool.ring.slots) :
      t.texture.storage ≠ s.texture.storage := by
    intro he
    have htexture := (h.entered t ht).texture
    rw [he, hnew] at htexture
    cases htexture
  refine ⟨fun t ht => ?_, fun t ht t' ht' he => ?_⟩
  · rcases (Ring.mem_insert hinv.sound).1 ht with rfl | ht
    · exact hs
    · exact (h.mono hle).entered t ht
  · rw [Ring.mem_insert hinv.sound] at ht ht'
    rcases ht with ht | ht <;> rcases ht' with ht' | ht'
    · rw [ht, ht']
    · exact absurd (ht ▸ he.symm) (hother ht')
    · exact absurd (ht' ▸ he) (hother ht)
    · exact h.distinct t ht t' ht' he

/-- A surface whose texture may be written can be handed out. -/
theorem Assigned.handOut (h : Assigned σ none pool.ring.slots) (hinv : pool.Inv)
    (hc : pool.ring.current? = some s) (marker : Marker) :
    Assigned (Table.put σ s.texture.storage (some .writable)) none
      (pool.handOut { s with marker }).ring.slots :=
  h.replace hinv hc marker s.armed .writing none

/-! ### The operations of a pool -/

/-- Some ledger has the surfaces of the pool as they say. -/
def Tracked (p c : Nat) (issued : List (Nat × Option Pixels)) (display : Option Pixels)
    (pool : SurfaceRelay.Pool Texture Marker Texture) (w : World) : Prop :=
  ∃ σ, Ledger p c σ issued w ∧ Assigned σ display pool.ring.slots

theorem declined_ledger (h : Ledger p c σ issued x.world)
    {o : Option (Surface Texture Marker Texture)} {pool' : SurfaceRelay.Pool Texture Marker Texture}
    {x' : Concurrent} (hd : Declined (Concurrent.backend p c) pool x o pool' x') :
    Ledger p c σ issued x'.world := by
  cases hd with
  | vacant => exact h
  | unarmed => exact h
  | pending hc hr ha hpoll => exact (keeps_call (poll_keeps p _)).ok hpoll h
  | unknown hc hr ha hpoll => exact (keeps_call (poll_keeps p _)).error hpoll h

/-- An acquire that nothing is on display during. What it hands out may be written: the surface
was out already, or its marker has retired, or it is new, or the producer has nothing to do. -/
theorem acquire_tracked (h : Tracked p c issued none pool x.world) (hinv : pool.Inv)
    {r : EStateM.Result Fault (SurfaceRelay.Pool Texture Marker Texture × Concurrent) Handle}
    (ha : Acquiring (Concurrent.backend p c) pool x r) :
    Tracked p c issued none (Attempt.leaves r).1 (Attempt.leaves r).2.world := by
  obtain ⟨σ, hledger, hassigned⟩ := h
  cases ha with
  | closed => exact ⟨σ, hledger, hassigned⟩
  | again hp hc hs =>
    have hwritable := (hassigned.entered _ (Ring.current?_mem hc)).texture
    rw [expected_out hs] at hwritable
    exact ⟨_, hledger.restate _ hwritable (hledger.holds _ _ hwritable) (fun hf => by cases hf),
      hassigned.handOut hinv hc _⟩
  | ready hp hc hr ha hpoll =>
    have hguarded := (hassigned.entered _ (Ring.current?_mem hc)).texture
    rw [expected_released hr, if_pos ha] at hguarded
    obtain ⟨rfl, hretired, hworld⟩ := poll_some (Concurrent.call_ok hpoll)
    refine ⟨_, ?_, hassigned.handOut hinv hc _⟩
    exact hworld ▸ hledger.yield.retired hguarded hretired
  | @grew o s pool₁ x₁ x₂ hp hd hroom hb =>
    obtain ⟨σ', hle, hledger', hview, hnew, htexture, hstaging, hviewStaging⟩ :=
      build_ledger (declined_ledger hledger hd) hb
    refine ⟨σ', hledger', ?_⟩
    show Assigned σ' none (pool₁.ring.insert { s with phase := .writing }).slots
    rw [hd.ring.1]
    exact hassigned.insert hinv hle hnew ⟨hview, htexture, hstaging, hviewStaging⟩
  | @growthFailed o e pool₁ x₁ x₂ hp hd hroom hb =>
    obtain ⟨σ', hle, hledger'⟩ :=
      (Surface.build_keeps _ (fun _ _ _ _ h => h) untouched _ _).error hb
        (declined_ledger hledger hd).extends
    refine ⟨σ', hledger', ?_⟩
    show Assigned σ' none pool₁.ring.slots
    rw [hd.ring.1]
    exact hassigned.mono hle
  | @stalled s pool₁ x₁ x₂ hp hd hfull hw =>
    have hentered := hassigned.entered s (Ring.current?_mem hd.current)
    have hguarded := hentered.texture
    rw [expected_released hd.released] at hguarded
    have hledger' := (drain_keeps hentered.staging _).ok hw (declined_ledger hledger hd)
    refine ⟨_, hledger'.drained hguarded (drain_idle hw).1, ?_⟩
    show Assigned _ none (pool₁.ring.setCurrent { s with phase := .writing }).slots
    rw [hd.ring.1]
    exact hassigned.handOut hinv hd.current s.marker
  | @stallFailed s e pool₁ x₁ x₂ hp hd hfull hw =>
    have hentered := hassigned.entered s (Ring.current?_mem hd.current)
    refine ⟨σ, (drain_keeps hentered.staging _).error hw (declined_ledger hledger hd), ?_⟩
    show Assigned σ none pool₁.ring.slots
    rw [hd.ring.1]
    exact hassigned

/-- A release of the surface on display. It is guarded from here on by the marker that was
recorded, or by none when the producer is dead. -/
theorem release_tracked {frame : Pixels} (h : Tracked p c issued (some frame) pool x.world)
    (hinv : pool.Inv) (hc : pool.ring.current? = some s) (hs : s.phase = .writing)
    {r : EStateM.Result Fault (SurfaceRelay.Pool Texture Marker Texture × Concurrent) Unit}
    (hr : Releasing (Concurrent.backend p c) s.handle pool x r) :
    Tracked p c issued none (Attempt.leaves r).1 (Attempt.leaves r).2.world := by
  obtain ⟨σ, hledger, hassigned⟩ := h
  have hshown := (hassigned.entered s (Ring.current?_mem hc)).texture
  rw [expected_out (by rw [hs]; decide)] at hshown
  cases hr with
  | closed hp =>
    rw [hinv.emptied hp] at hc
    cases hc
  | stale hp hstale => exact absurd hs ((hstale s hc).resolve_left fun hne => hne rfl)
  | @recorded s' k x' hp hc' hh hs' hrec =>
    obtain rfl : s = s' := Option.some.inj (hc.symm.trans hc')
    have hrecord := record_ledger hledger.yield hshown s.marker
    have hcall := Attempt.inPlace_ok (f := fun m => Concurrent.call (record p m)) hrec
    rw [show record p s.marker _ = _ from Concurrent.call_ok hcall] at hrecord
    rcases hrecord with ⟨m, w', heq, hguarded⟩ | ⟨e, w', heq, -⟩
    · cases heq
      exact ⟨_, hguarded, hassigned.replace hinv hc k true .released none⟩
    · cases heq
  | @unrecorded s' e k x' hp hc' hh hs' hrec =>
    obtain rfl : s = s' := Option.some.inj (hc.symm.trans hc')
    have hrecord := record_ledger hledger.yield hshown s.marker
    obtain ⟨hcall, -⟩ :=
      Attempt.inPlace_error (f := fun m => Concurrent.call (record p m)) hrec
    rw [show record p s.marker _ = _ from Concurrent.call_error hcall] at hrecord
    rcases hrecord with ⟨m, w', heq, -⟩ | ⟨e, w', heq, hguarded⟩
    · cases heq
    · cases heq
      exact ⟨_, hguarded, hassigned.replace hinv hc k false .released none⟩

/-- A wait for the consumer that succeeds leaves it alive and with nothing to do. -/
theorem await_ledger (h : Ledger p c σ issued x.world) (hinv : pool.Inv)
    (hs : s ∈ pool.ring.slots) (hscratch : σ s.viewStaging.storage = some .scratch)
    {r : EStateM.Result Fault (SurfaceRelay.Pool Texture Marker Texture × Concurrent) Unit}
    (hr : Awaiting (Concurrent.backend p c) s.handle pool x r) :
    Ledger p c σ issued (Attempt.leaves r).2.world ∧
      ∀ y, r = .ok () y → y.2.world.queue c = [] ∧ ¬y.2.world.Dead c := by
  have hfind : pool.find? s.handle = some s := hinv.find?_eq_some.2 ⟨hs, rfl⟩
  cases hr with
  | closed => exact ⟨h, fun y hy => by cases hy⟩
  | stale => exact ⟨h, fun y hy => by cases hy⟩
  | @landed s' x' hp hf hw =>
    obtain rfl : s = s' := Option.some.inj (hfind.symm.trans hf)
    refine ⟨(drain_keeps hscratch _).ok hw h, fun y hy => ?_⟩
    cases hy
    exact drain_idle hw
  | @failed s' e x' hp hf hw =>
    obtain rfl : s = s' := Option.some.inj (hfind.symm.trans hf)
    exact ⟨(drain_keeps hscratch _).error hw h, fun y hy => by cases hy⟩

theorem close_tracked (h : Ledger p c σ issued x.world) (hinv : pool.Inv)
    (display : Option Pixels) :
    Tracked p c issued display (Pool.close (Concurrent.backend p c) (pool, x)).1
      (Pool.close (Concurrent.backend p c) (pool, x)).2.world := by
  simp only [Pool.close]
  split
  · rename_i hp
    exact ⟨σ, h, by rw [hinv.emptied hp]; exact .nil⟩
  · obtain ⟨σ', -, hledger⟩ :=
      Surface.dismantleAll_keeps (fun _ _ _ _ h => h) untouched pool.ring.slots h.extends
    exact ⟨σ', hledger, .nil⟩

end SurfaceRelay.Soft
