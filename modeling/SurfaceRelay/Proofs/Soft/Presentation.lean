import SurfaceRelay.Proofs.Soft.Pool

/-! What is read of the surface on display.

A presenter puts frame after frame on display through a pool between two software domains of
one device. Between its moves, and in the middle of them, the workers execute what they have
accepted, or die; reads of the surface on display are handed in to the producer's domain at any
time, and may execute long after the surface went on to other frames, or was destroyed.
`delivered_read_is_presented_frame` says that nobody can tell: a read that delivers at all
delivers the frame that was presented last when the read was handed in. -/
namespace SurfaceRelay.Soft
open SurfaceRelay.Pool (acquiring releasing awaiting)

/-! ### A presenter and the reads of what it shows -/

structure Presentation where
  /-- Nothing once the presenter was dropped. -/
  presenter : Option (Presenter Texture Marker Texture)
  world : World
  /-- The frame that was presented last. -/
  latest : Option Pixels
  /-- The reads that were accepted, each with the frame that had been presented last. -/
  issued : List (Nat × Option Pixels)

namespace Presentation

/-- What can be done with a presentation. A step of the presenter comes with what happens in
the world while it is made. -/
inductive Step
  | present (frame : Pixels) (schedule : List (List Event))
  | retract (schedule : List (List Event))
  /-- Reads the surface on display. -/
  | read
  /-- Takes what a receiver holds. -/
  | receive (r : Nat)
  | close (schedule : List (List Event))
  /-- Closes the presenter and lets go of its handles to the domains. -/
  | drop (schedule : List (List Event))
  | happen (e : Event)
deriving DecidableEq, Repr

/-- A presenter over an empty pool. -/
def start (pool : Pool Texture Marker Texture) (w : World) : Presentation :=
  { presenter := some (.ofPool pool), world := w, latest := none, issued := [] }

variable (p c : Nat)

/-- Makes one step. Without a presenter only the workers are left. -/
def step (t : Presentation) : Step → Presentation
  | .present frame schedule =>
    match t.presenter with
    | none => t
    | some s =>
      match Presenter.present (Concurrent.backend p c) (Concurrent.identity c) frame
        (s, ⟨t.world, schedule⟩) with
      | .ok _ (s, x) => { t with presenter := some s, world := x.world, latest := some frame }
      | .error _ (s, x) => { t with presenter := some s, world := x.world }
  | .retract schedule =>
    match t.presenter with
    | none => t
    | some s =>
      let (s, x) := Presenter.retract (Concurrent.backend p c) (s, ⟨t.world, schedule⟩)
      { t with presenter := some s, world := x.world }
  | .read =>
    match t.presenter.bind (·.shownTexture?) with
    | none => t
    | some texture =>
      match Soft.read p texture t.world with
      | .ok receiver world => { t with world, issued := (receiver, t.latest) :: t.issued }
      | .error _ world => { t with world }
  | .receive r => { t with world := (t.world.receive r).2 }
  | .close schedule =>
    match t.presenter with
    | none => t
    | some s =>
      let (s, x) := Presenter.close (Concurrent.backend p c) (s, ⟨t.world, schedule⟩)
      { t with presenter := some s, world := x.world }
  | .drop schedule =>
    match t.presenter with
    | none => t
    | some s =>
      let (_, x) := Presenter.close (Concurrent.backend p c) (s, ⟨t.world, schedule⟩)
      { t with presenter := none, world := ((x.letGo p).letGo c).world }
  | .happen e => { t with world := t.world.happen e }

def run : Presentation → List Step → Presentation
  | t, [] => t
  | t, e :: rest => run (step p c t e) rest

/-! With nothing scheduled, a step is what the presenter does over the plain domains. -/

section Idle
variable {p c} {t : Presentation} {s : Presenter Texture Marker Texture}

theorem step_present_idle (hs : t.presenter = some s) (frame : Pixels) :
    step p c t (.present frame []) =
      match Presenter.present (backend p c) (identity c) frame (s, t.world) with
      | .ok _ (s, world) => { t with presenter := some s, world, latest := some frame }
      | .error _ (s, world) => { t with presenter := some s, world } := by
  have hpresent := (Concurrent.backend_idle p c).present (Concurrent.identity_idle c) frame
    (s, t.world)
  rw [Backend.Follows.onWorld_mk] at hpresent
  simp only [step, hs]
  rw [show (⟨t.world, []⟩ : Concurrent) = .idle t.world from rfl, hpresent]
  rcases Presenter.present (backend p c) (identity c) frame (s, t.world) with _ | _ <;> rfl

theorem step_retract_idle (hs : t.presenter = some s) :
    step p c t (.retract []) =
      { t with
        presenter := some (Presenter.retract (backend p c) (s, t.world)).1
        world := (Presenter.retract (backend p c) (s, t.world)).2 } := by
  have hretract := (Concurrent.backend_idle p c).retract s t.world
  simp only [step, hs]
  rw [show (⟨t.world, []⟩ : Concurrent) = .idle t.world from rfl, hretract]
  rfl

theorem step_close_idle (hs : t.presenter = some s) :
    step p c t (.close []) =
      { t with
        presenter := some (Presenter.close (backend p c) (s, t.world)).1
        world := (Presenter.close (backend p c) (s, t.world)).2 } := by
  have hclose := (Concurrent.backend_idle p c).close s t.world
  simp only [step, hs]
  rw [show (⟨t.world, []⟩ : Concurrent) = .idle t.world from rfl, hclose]
  rfl

end Idle

end Presentation

variable {p c : Nat} {σ : Statuses} {issued : List (Nat × Option Pixels)} {x : Concurrent}
  {latest : Option Pixels} {w : World} {pool : Pool Texture Marker Texture}
  {s : Presenter Texture Marker Texture}

/-! ### What is on display -/

/-- What a presenter shows: nothing, or the frame that was presented last, on the surface that
is out. -/
inductive Displays (p c : Nat) (issued : List (Nat × Option Pixels)) (latest : Option Pixels)
    (s : Presenter Texture Marker Texture) (w : World) : Prop
  | dark (hinv : s.pool.Inv) (hshown : s.shown = none) (h : Tracked p c issued none s.pool w)
  | lit {surface : Surface Texture Marker Texture} {frame : Pixels} (hinv : s.pool.Inv)
      (hshown : s.shown = some surface.handle) (hc : s.pool.ring.current? = some surface)
      (hout : surface.phase = .writing) (hlatest : latest = some frame)
      (h : Tracked p c issued (some frame) s.pool w)

theorem Displays.inv (h : Displays p c issued latest s w) : s.pool.Inv := by
  cases h <;> assumption

theorem Displays.ledger (h : Displays p c issued latest s w) : ∃ σ, Ledger p c σ issued w := by
  cases h with
  | dark _ _ h => exact h.imp fun _ h => h.1
  | lit _ _ _ _ _ h => exact h.imp fun _ h => h.1

/-- Whatever changes in the world alone changes nothing on display. -/
theorem Displays.world {w' : World} (h : Displays p c issued latest s w)
    (hw : ∀ σ, Ledger p c σ issued w → Ledger p c σ issued w') :
    Displays p c issued latest s w' := by
  have htracked {display : Option Pixels} (h : Tracked p c issued display s.pool w) :
      Tracked p c issued display s.pool w' := h.imp fun σ h => ⟨hw σ h.1, h.2⟩
  cases h with
  | dark hinv hshown h => exact .dark hinv hshown (htracked h)
  | lit hinv hshown hc hout hlatest h => exact .lit hinv hshown hc hout hlatest (htracked h)

theorem Displays.tracked (h : Displays p c issued latest s w) (hshown : s.shown = none) :
    Tracked p c issued none s.pool w := by
  cases h with
  | dark _ _ h => exact h
  | lit _ hlit =>
    rw [hshown] at hlit
    cases hlit

/-! ### Presenting and retracting -/

theorem retract_displays (h : Displays p c issued latest s x.world) :
    Displays p c issued latest (Presenter.retract (Concurrent.backend p c) (s, x)).1
        (Presenter.retract (Concurrent.backend p c) (s, x)).2.world ∧
      (Presenter.retract (Concurrent.backend p c) (s, x)).1.shown = none := by
  cases h with
  | dark hinv hshown h =>
    have hsame : Presenter.retract (Concurrent.backend p c) (s, x) = (s, x) := by
      simp only [Presenter.retract, hshown]
    rw [hsame]
    exact ⟨.dark hinv hshown h, hshown⟩
  | @lit surface frame hinv hshown hc hout hlatest h =>
    have hr := releasing (Concurrent.backend p c) surface.handle s.pool x
    have htracked := release_tracked h hinv hc hout hr
    have hinv' := hr.inv hinv
    simp only [Presenter.retract, hshown]
    rcases hrelease : Pool.release (Concurrent.backend p c) surface.handle (s.pool, x) with
      ⟨_, pool', x'⟩ | ⟨e, pool', x'⟩ <;> rw [hrelease] at htracked hinv'
    · exact ⟨.dark hinv' rfl htracked, rfl⟩
    · exact ⟨.dark hinv' rfl htracked, rfl⟩

/-- How filling a surface with a frame can end. -/
inductive Filling (p c : Nat) (issued : List (Nat × Option Pixels)) (frame : Pixels) :
    EStateM.Result Fault (Pool Texture Marker Texture × Concurrent) Handle → Prop
  | filled {surface : Surface Texture Marker Texture} {pool : Pool Texture Marker Texture}
      {x : Concurrent} (hinv : pool.Inv) (hc : pool.ring.current? = some surface)
      (hout : surface.phase = .writing) (h : Tracked p c issued (some frame) pool x.world) :
      Filling p c issued frame (.ok surface.handle (pool, x))
  | failed {e : Fault} {pool : Pool Texture Marker Texture} {x : Concurrent} (hinv : pool.Inv)
      (h : Tracked p c issued none pool x.world) :
      Filling p c issued frame (.error e (pool, x))

variable {surface : Surface Texture Marker Texture} {frame : Pixels}

/-- A frame on its way has arrived when the wait for the consumer succeeds. When the wait fails
the surface can still be written over. -/
theorem await_tracked
    (h : Ledger p c (Table.put σ surface.texture.storage (some (.landing frame))) issued x.world)
    (hassigned : Assigned σ none pool.ring.slots) (hinv : pool.Inv)
    (hc : pool.ring.current? = some surface) (hout : surface.phase = .writing)
    {r : EStateM.Result Fault (Pool Texture Marker Texture × Concurrent) Unit}
    (hr : Pool.awaitConsumer (Concurrent.backend p c) surface.handle (pool, x) = r) :
    (Attempt.leaves r).1 = pool ∧
      match r with
      | .ok _ y => Tracked p c issued (some frame) pool y.2.world
      | .error _ y => Tracked p c issued none pool y.2.world := by
  have hawait := awaiting (Concurrent.backend p c) surface.handle pool x
  rw [hr] at hawait
  have hentered := hassigned.entered surface (Ring.current?_mem hc)
  have hother : surface.viewStaging.storage ≠ surface.texture.storage := by
    intro he
    have hscratch := hentered.viewStaging
    rw [he, hentered.texture, Option.some_inj] at hscratch
    exact expected_ne_scratch _ _ hscratch
  obtain ⟨hledger, hidle⟩ := await_ledger h hinv (Ring.current?_mem hc)
    ((Table.put_other _ hother).trans hentered.viewStaging) hawait
  refine ⟨hawait.pool, ?_⟩
  have hne : surface.phase ≠ .released := by
    rw [hout]
    decide
  cases r with
  | ok _ y =>
    obtain ⟨hqueue, hlive⟩ := hidle y rfl
    have hlanded := hledger.landed (Table.put_same ..) hqueue hlive
    rw [Table.put_put] at hlanded
    have hredisplay := hassigned.redisplay hinv hc (some frame)
    rw [expected_out hne] at hredisplay
    exact ⟨_, hlanded, hredisplay⟩
  | error e y =>
    have habandoned := hledger.abandon (Table.put_same ..)
    rw [Table.put_put] at habandoned
    have hredisplay := hassigned.redisplay hinv hc none
    rw [expected_out hne] at hredisplay
    exact ⟨_, habandoned, hredisplay⟩

theorem filling (h : Tracked p c issued none pool x.world) (hinv : pool.Inv) (frame : Pixels) :
    Filling p c issued frame
      (Presenter.fill (Concurrent.backend p c) (Concurrent.identity c) frame (pool, x)) := by
  have ha := acquiring (Concurrent.backend p c) pool x
  have hinv₁ := ha.inv hinv
  have htracked₁ := acquire_tracked h hinv ha
  simp only [Presenter.fill]
  rcases hacquire : Pool.acquire (Concurrent.backend p c) (pool, x) with
    ⟨k, pool₁, x₁⟩ | ⟨e, pool₁, x₁⟩ <;> rw [hacquire] at ha hinv₁ htracked₁ <;>
    simp only [Attempt.leaves] at hinv₁ htracked₁
  · obtain ⟨surface, hc, rfl, hout⟩ := ha.out hinv
    obtain ⟨σ, hledger, hassigned⟩ := htracked₁
    have hentered := hassigned.entered surface (Ring.current?_mem hc)
    have hview : pool₁.view? surface.handle = some surface.view := by
      rw [Pool.view?, hinv₁.find?_eq_some.2 ⟨Ring.current?_mem hc, rfl⟩, Option.map_some]
    have hwritable : σ surface.view.storage = some .writable := by
      rw [hentered.view, hentered.texture, expected_out (by rw [hout]; decide)]
    dsimp only
    rw [hview]
    dsimp only
    rcases identity_ledger hledger hwritable frame with
      ⟨x₂, hwrite, hlanding⟩ | ⟨e, x₂, hwrite, hledger₂⟩
    · rw [hwrite]
      rw [hentered.view] at hlanding
      dsimp only
      rcases hawait : Pool.awaitConsumer (Concurrent.backend p c) surface.handle (pool₁, x₂) with
        ⟨_, pool₂, x₃⟩ | ⟨e, pool₂, x₃⟩
      · obtain ⟨rfl, htracked⟩ := await_tracked hlanding hassigned hinv₁ hc hout hawait
        exact .filled hinv₁ hc hout htracked
      · obtain ⟨rfl, htracked⟩ := await_tracked hlanding hassigned hinv₁ hc hout hawait
        exact .failed hinv₁ htracked
    · rw [hwrite]
      exact .failed hinv₁ ⟨σ, hledger₂, hassigned⟩
  · exact .failed hinv₁ htracked₁

/-! ### Steps -/

namespace Presentation
variable {t : Presentation}

/-- Every issued read is on a ledger, together with what is on display. -/
def Faithful (p c : Nat) (t : Presentation) : Prop :=
  match t.presenter with
  | some s => Displays p c t.issued t.latest s t.world
  | none => ∃ σ, Ledger p c σ t.issued t.world

theorem Faithful.ledger (h : t.Faithful p c) : ∃ σ, Ledger p c σ t.issued t.world := by
  simp only [Faithful] at h
  split at h
  · exact h.ledger
  · exact h

theorem faithful_present (h : t.Faithful p c) (frame : Pixels) (schedule : List (List Event)) :
    (step p c t (.present frame schedule)).Faithful p c := by
  simp only [step]
  split
  · exact h
  · rename_i s hs
    simp only [Faithful, hs] at h
    obtain ⟨hdisplays, hdark⟩ := retract_displays (x := ⟨t.world, schedule⟩) h
    have hfill := filling (hdisplays.tracked hdark) hdisplays.inv frame
    simp only [Presenter.present]
    generalize Presenter.fill _ _ frame _ = r at hfill
    cases hfill with
    | filled hinv hc hout h => exact .lit hinv rfl hc hout rfl h
    | failed hinv h => exact .dark hinv hdark h

theorem faithful_retract (h : t.Faithful p c) (schedule : List (List Event)) :
    (step p c t (.retract schedule)).Faithful p c := by
  simp only [step]
  split
  · exact h
  · rename_i s hs
    simp only [Faithful, hs] at h
    exact (retract_displays (x := ⟨t.world, schedule⟩) h).1

/-- A read that is accepted shows the frame on display, which was presented last. -/
theorem faithful_read (h : t.Faithful p c) : (step p c t .read).Faithful p c := by
  simp only [step]
  split
  · exact h
  · rename_i texture htexture
    obtain ⟨s, hs, htexture⟩ := Option.bind_eq_some_iff.1 htexture
    simp only [Faithful, hs] at h
    cases h with
    | dark hinv hshown =>
      rw [Presenter.shownTexture?, hshown] at htexture
      cases htexture
    | @lit surface frame hinv hshown hc hout hlatest h =>
      have hmem := Ring.current?_mem hc
      have hfind : s.pool.texture? surface.handle = some surface.texture := by
        rw [Pool.texture?, hinv.find?_eq_some.2 ⟨hmem, rfl⟩, Option.map_some]
      rw [Presenter.shownTexture?, hshown, Option.bind_some, hfind] at htexture
      cases htexture
      obtain ⟨σ, hledger, hassigned⟩ := h
      have hframe := (hassigned.entered surface hmem).texture
      rw [expected_out (by rw [hout]; decide)] at hframe
      rcases read_ledger hledger hframe with ⟨r, w', hread, hledger'⟩ | ⟨e, hread⟩
      · simp only [hread, Faithful, hs]
        exact .lit hinv hshown hc hout hlatest ⟨σ, hlatest ▸ hledger', hassigned⟩
      · simp only [hread, Faithful, hs]
        exact .lit hinv hshown hc hout hlatest ⟨σ, hledger, hassigned⟩

theorem faithful_close (h : t.Faithful p c) (schedule : List (List Event)) :
    (step p c t (.close schedule)).Faithful p c := by
  simp only [step]
  split
  · exact h
  · rename_i s hs
    simp only [Faithful, hs] at h
    obtain ⟨σ, hledger⟩ := h.ledger
    exact .dark (h.inv.close _ _) rfl (close_tracked (x := ⟨t.world, schedule⟩) hledger h.inv none)

theorem faithful_drop (h : t.Faithful p c) (schedule : List (List Event)) :
    (step p c t (.drop schedule)).Faithful p c := by
  simp only [step]
  split
  · exact h
  · rename_i s hs
    simp only [Faithful, hs] at h
    obtain ⟨σ, hledger⟩ := h.ledger
    obtain ⟨σ', hclosed, -⟩ := close_tracked (x := ⟨t.world, schedule⟩) hledger h.inv none
    exact ⟨σ', (hclosed.yield.letGo p).yield.letGo c⟩

theorem faithful_world (h : t.Faithful p c) (hw : t.world.Progress w) :
    ({ t with world := w } : Presentation).Faithful p c := by
  simp only [Faithful] at h ⊢
  cases hs : t.presenter with
  | some s =>
    rw [hs] at h
    exact h.world fun σ hledger => hledger.progress hw
  | none =>
    rw [hs] at h
    exact h.imp fun σ hledger => hledger.progress hw

/-- **Every step keeps the reads faithful.** -/
theorem faithful_step (h : t.Faithful p c) (e : Step) : (step p c t e).Faithful p c := by
  cases e with
  | present frame schedule => exact faithful_present h frame schedule
  | retract schedule => exact faithful_retract h schedule
  | read => exact faithful_read h
  | close schedule => exact faithful_close h schedule
  | drop schedule => exact faithful_drop h schedule
  | receive r => exact faithful_world h (World.progress_receive _ r)
  | happen e => exact faithful_world h (World.progress_happen _ e)

theorem faithful_run (h : t.Faithful p c) (steps : List Step) :
    (run p c t steps).Faithful p c := by
  induction steps generalizing t with
  | nil => exact h
  | cons e rest ih => exact ih (faithful_step h e)

/-- Nothing is promised yet, and nothing is on display. -/
theorem faithful_start {config : Pool.Config} (hmake : Pool.make config = .ok pool)
    (hsound : w.Sound) (hdevice : (w.workers p).device = (w.workers c).device) :
    (start pool w).Faithful p c := by
  have hring : pool.ring = .empty := Pool.make_ring hmake
  refine .dark (Pool.inv_make hmake) rfl ⟨fun _ => none, ⟨hsound, hdevice, ?_, ?_, ?_⟩, ?_⟩
  · intro i st hi
    cases hi
  · intro i st hi
    cases hi
  · intro r o hr
    cases hr
  · show Assigned _ none pool.ring.slots
    rw [hring]
    exact .nil

/-! ### Reads -/

/-- **A read that is delivered yields the frame that was presented last when it was issued.** The
presenter starts with an empty pool of any extent and any capacity, and `steps` is any sequence
of frames, retractions, reads, deliveries taken, tearing down and work or deaths of the workers:
later frames may be on their way, the surface may be destroyed, and the presenter gone, when the
read executes. -/
theorem delivered_read_is_presented_frame {config : Pool.Config}
    (hmake : Pool.make config = .ok pool) (hsound : w.Sound)
    (hdevice : (w.workers p).device = (w.workers c).device) (steps : List Step) {r : Nat}
    {presented : Option Pixels} {data : Pixels}
    (hissued : (r, presented) ∈ (run p c (start pool w) steps).issued)
    (hdelivered : (run p c (start pool w) steps).world.receivers r = .delivered data) :
    presented = some data := by
  obtain ⟨σ, hledger⟩ := (faithful_run (faithful_start hmake hsound hdevice) steps).ledger
  obtain ⟨frame, hpresented, hreceipt⟩ := hledger.receipts r presented hissued
  rcases hreceipt.holds with hpending | hclosed | hframe
  · rw [hpending] at hdelivered
    cases hdelivered
  · rw [hclosed] at hdelivered
    cases hdelivered
  · rw [hframe] at hdelivered
    cases hdelivered
    exact hpresented

/-- Two workers of one device, of which nothing was asked yet. -/
def twoWorkers : World := ((({} : World).startWorker "P" 0).2.startWorker "C" 0).2

def smallPool : Pool Texture Marker Texture :=
  { size := ⟨1, 1⟩, capacity := 2, ring := .empty, nextHandle := 1, stats := {}, closed := false }

/-- A frame is put on display and read. The read executes when the next frame was presented and
the pool torn down. -/
def lateRead : List Step :=
  [.present [1, 2, 3, 4] [], .read, .present [5, 6, 7, 8] [[], [.execute 1]], .close [],
    .happen (.execute 0)]

theorem delivered_read_is_presented_frame_late :
    Pool.make { size := ⟨1, 1⟩, capacity := 2 } = .ok smallPool ∧ twoWorkers.Sound ∧
    (twoWorkers.workers 0).device = (twoWorkers.workers 1).device ∧
    ∃ presented, (0, presented) ∈ (run 0 1 (start smallPool twoWorkers) lateRead).issued ∧
      (run 0 1 (start smallPool twoWorkers) lateRead).world.receivers 0 =
        .delivered [1, 2, 3, 4] ∧
      presented = some [1, 2, 3, 4] := by
  have hmake : Pool.make { size := ⟨1, 1⟩, capacity := 2 } = .ok smallPool := rfl
  have hdevice : (twoWorkers.workers 0).device = (twoWorkers.workers 1).device := rfl
  have hsound : twoWorkers.Sound := (World.sound_blank.startWorker "P" 0).startWorker "C" 0
  have hissued : (0, some [1, 2, 3, 4]) ∈
      (run 0 1 (start smallPool twoWorkers) lateRead).issued := by decide
  have hdelivered : (run 0 1 (start smallPool twoWorkers) lateRead).world.receivers 0 =
      .delivered [1, 2, 3, 4] := rfl
  exact ⟨hmake, hsound, hdevice, _, hissued, hdelivered,
    delivered_read_is_presented_frame hmake hsound hdevice lateRead hissued hdelivered⟩

end Presentation
end SurfaceRelay.Soft
