import SurfaceRelay.Proofs.Following
import SurfaceRelay.Proofs.Histories
import SurfaceRelay.Proofs.Soft.Granting

/-! Nothing fails over live workers.

A presenter over two workers of one device is followed through a history in which the workers
execute at times of their own, also in the middle of a request, and the embedder uses the domains
for itself between two moves. As long as neither worker has died every request is granted, every
copy that was asked for was a proper one and no marker was lost (`WellServed`). So a frame fails to
be presented only when the pool was torn down or the frame does not have the bytes of a surface
(`present_fails_iff`), and these are the frames that count as dropped (`no_spurious_failures`). -/
namespace SurfaceRelay.Soft
open Presentation (smallPool twoWorkers)
open Watched (Meanwhile call call_ok call_error)
open Presenter (Move OnTrack Tracks Course)

/-- Writes the bytes of a frame as they are, over a watched domain. -/
def Watched.identity (c : Nat) : Converter Watched Pixels Texture := fun frame view =>
  call (write c view frame)

/-- A watched world and the calls and notices that were seen of a pool. -/
abbrev Logged := Recorded Watched (Entry Pixels Texture Marker Texture)

/-- The domains of a pool, with what is seen of them. -/
abbrev Logged.backend (p c : Nat) : Backend Logged Texture Marker Texture :=
  (Watched.backend p c).recorded

abbrev Logged.identity (c : Nat) : Converter Logged Pixels Texture :=
  Converter.recorded (Watched.identity c)

/-- The embedder's own calls are not the pool's. -/
def Logged.Meanwhile (r r' : Logged) : Prop :=
  r'.trace = r.trace ∧ Watched.Meanwhile r.world r'.world

/-- Neither worker has died. -/
def World.BothLive (p c : Nat) (w : World) : Prop := ¬w.Dead p ∧ ¬w.Dead c

instance (p c : Nat) (w : World) : Decidable (w.BothLive p c) :=
  inferInstanceAs (Decidable (¬(w.workers p).health = .dead ∧ ¬(w.workers c).health = .dead))

/-- If the line asks for a copy, nothing is wrong with it. -/
def CopiesProperly : Entry Pixels Texture Marker Texture → Prop
  | .producer (.image (.stage t s region _)) => Stageable t s region
  | .consumer (.image (.stage v s region _)) => Stageable v s region
  | _ => True

variable {p c : Nat} {size : Extent} {pool : Pool Texture Marker Texture} {r r' : Logged}
  {past : List (Pool.Turn Logged Texture Marker Texture)} {α : Type}

theorem World.Onward.bothLive {w w' : World} (h : w.Onward w') (hlive : w'.BothLive p c) :
    w.BothLive p c :=
  ⟨fun hp => hlive.1 (h.dead p hp), fun hc => hlive.2 (h.dead c hc)⟩

/-! ### Copies -/

section
variable {W : Type}

/-- All copies that were asked for were proper ones. -/
def CopiedProperly (r : Recorded W (Entry Pixels Texture Marker Texture)) : Prop :=
  ∀ line ∈ r.trace, CopiesProperly line

theorem CopiedProperly.snoc {r : Recorded W (Entry Pixels Texture Marker Texture)}
    (h : CopiedProperly r) {w : W} {line : Entry Pixels Texture Marker Texture}
    (hline : CopiesProperly line) : CopiedProperly ⟨w, r.trace ++ [line]⟩ := by
  intro line' hline'
  rcases List.mem_append.1 hline' with hmem | hmem
  · exact h line' hmem
  · exact List.mem_singleton.1 hmem ▸ hline

theorem properly_of_supply {line : Entry Pixels Texture Marker Texture}
    (h : line.errand = .supply) : CopiesProperly line := by
  rcases line with (c | _ | _ | _ | _ | _ | _) | (c | _ | _) | _
  all_goals try cases c
  all_goals trivial

theorem copies_call {act : Attempt W α}
    {entry : Except Fault α → Entry Pixels Texture Marker Texture}
    (hentry : ∀ a, CopiesProperly (entry a)) :
    (Recorded.call act entry).Keeps CopiedProperly :=
  Recorded.call_keeps fun a _ _ hr => hr.snoc (hentry a)

/-- Only waits copy, and they copy what the surfaces of the pool have. -/
theorem copies_keepsFor (b : Backend W Texture Marker Texture)
    (h : ∀ s ∈ pool.ring.slots, Stageable s.texture s.staging pool.stagingSize ∧
      Stageable s.view s.viewStaging pool.stagingSize) :
    b.recorded.KeepsFor (CopiedProperly (W := W)) pool where
  toUntouched := Surface.untouched_of_supply b fun _ _ _ he hr => hr.snoc (properly_of_supply he)
  note _ _ _ hr := hr.snoc trivial
  poll _ := copies_call fun _ => trivial
  record := Recorded.recording_keeps fun _ _ _ _ hr => hr.snoc trivial
  drain s hs := Attempt.keeps_bind (copies_call fun _ => (h s hs).1) fun _ =>
    copies_call fun _ => trivial
  drainView s hs := Attempt.keeps_bind (copies_call fun _ => (h s hs).2) fun _ =>
    copies_call fun _ => trivial

end

/-! ### Service -/

/-- What holds of a pool over the domains, of its requests so far and of what was seen of them. -/
structure WellServed (p c : Nat) (size : Extent)
    (past : List (Pool.Turn Logged Texture Marker Texture))
    (x : Pool Texture Marker Texture × Logged) : Prop where
  housed : Housed p c size (x.1, x.2.world)
  fits : x.2.world.world.Fits
  copies : CopiedProperly x.2
  served : x.2.world.world.BothLive p c → x.1.stats.markerFaults = 0 ∧ ∀ t ∈ past, t.Granted

/-- The world moving on takes nothing back. -/
theorem WellServed.onward (h : WellServed p c size past (pool, r))
    (hworld : r.world.world.Onward r'.world.world) (hcopies : CopiedProperly r') :
    WellServed p c size past (pool, r') where
  housed := h.housed.onward hworld
  fits := hworld.fits h.fits
  copies := hcopies
  served hlive := h.served (hworld.bothLive hlive)

theorem wellServed_turn {x : Pool Texture Marker Texture × Logged}
    (h : WellServed p c size past x) (op : Pool.Op) :
    WellServed p c size (past ++ [Pool.turn (Logged.backend p c) x op])
      (Pool.turn (Logged.backend p c) x op).after := by
  have hcopies :=
    (copies_keepsFor (Watched.backend p c) fun _ => h.housed.stageable).turn h.copies op
  -- what is not about the trace is known of the domains themselves
  have hturn := ((Watched.backend p c).recorded_follows (F := Pixels)).turn x op
  have hanswer := congrArg Pool.Turn.answer hturn
  have hafter := congrArg Pool.Turn.after hturn
  have honward : x.2.world.world.Onward _ :=
    (Watched.onward_backend p c x.2.world.world).turn (x := (x.1, x.2.world)) (.refl _) op
  have hhoused := housed_turn h.housed op
  have hgranted := granted_turn h.housed h.fits op
  have hfaults := markerFaults_turn (p := p) (c := c) (x.1, x.2.world) op
  rw [show (x.1, x.2.world) = Backend.Follows.onWorld Recorded.world x from rfl] at *
  rw [hafter] at honward hhoused hgranted hfaults
  refine ⟨hhoused, honward.fits h.fits, hcopies, fun hlive => ?_⟩
  obtain ⟨hnone, hpast⟩ := h.served (honward.bothLive hlive)
  refine ⟨(hfaults hlive.1).trans hnone, fun t ht => ?_⟩
  rcases List.mem_append.1 ht with ht | ht
  · exact hpast t ht
  · obtain rfl := List.mem_singleton.1 ht
    have hgranted := hgranted hlive.1 hlive.2
    rw [hturn] at hgranted
    exact ⟨hgranted.acquire, hgranted.wait⟩

theorem wellServed_tracks (p c : Nat) (size : Extent) :
    Tracks (Logged.backend p c) (Logged.identity c)
      fun past _ => WellServed p c size past where
  turn op h := wellServed_turn h op
  convert {past n pool} frame h view hview := by
    refine Attempt.keeps_of_leaves fun r hr => hr.onward ?_ ?_
    · have hmoved := (Watched.onward_call (.write c view frame) r.world.world).leaves
        (.refl _)
      simp only [Logged.identity, Converter.recorded, Watched.identity, Recorded.call]
      generalize call (write c view frame) r.world = res at hmoved ⊢
      cases res <;> exact hmoved
    · exact (copies_call fun a => show CopiesProperly (.consumer (.convert frame view a)) from
        trivial).leaves hr.copies
  dropped e h := h.onward (.refl _) (h.copies.snoc trivial)
  ignored k e h := h.onward (.refl _) (h.copies.snoc trivial)

/-! ### Presenting -/

/-- A frame that was accepted had the bytes of the texture. -/
theorem write_ok {d : Nat} {t : Texture} {data : Pixels} {w w' : World}
    (h : write d t data w = .ok () w') : data.length = t.size.byteCount := by
  by_contra hlength
  have hrefused : write d t data w = refuse (.wrongLength t.size data.length) w := if_pos hlength
  rw [hrefused] at h
  cases h

theorem identity_call (frame : Pixels) (v : Texture) (r : Logged) :
    (Watched.identity c) frame v r.world =
      Attempt.mapState Recorded.world (Logged.identity c frame v r) :=
  Recorded.call_follows _ _ r

/-- Whether a frame fits is all that a live consumer asks. -/
theorem identity_fails {frame : Pixels} {v : Texture} {e : Fault}
    (h : Logged.identity c frame v r = .error e r') (hlength : frame.length = v.size.byteCount) :
    r'.world.world.Dead c := by
  have hcall := identity_call (c := c) frame v r
  rw [h] at hcall
  exact write_fails hlength (call_error hcall)

theorem identity_ok {frame : Pixels} {v : Texture} (h : Logged.identity c frame v r = .ok () r') :
    frame.length = v.size.byteCount := by
  have hcall := identity_call (c := c) frame v r
  rw [h] at hcall
  exact write_ok (call_ok hcall)

/-- A pool with a surface at the cursor is not torn down, and the view has its extent. -/
theorem WellServed.current (h : WellServed p c size past (pool, r))
    {s : Surface Texture Marker Texture} (hc : pool.ring.current? = some s) :
    pool.closed = false ∧ s ∈ pool.ring.slots ∧ s.view.size = size := by
  have hs := Ring.current?_mem hc
  refine ⟨?_, hs, (h.housed.placed.formed _ (Pool.fixture_mem hs)).view⟩
  cases hclosed : pool.closed with
  | false => rfl
  | true =>
    rw [h.housed.inv.emptied hclosed] at hs
    cases hs

/-- Filling a surface fails when the pool was torn down, when the frame does not fit, and not
otherwise. -/
theorem fill_fails_iff {q : Pool Texture Marker Texture × Logged}
    (h : WellServed p c size past q) (frame : Pixels)
    (hlive : (Attempt.leaves (Presenter.fill (Logged.backend p c) (Logged.identity c) frame
      q)).2.world.world.BothLive p c) :
    (∃ e y, Presenter.fill (Logged.backend p c) (Logged.identity c) frame q = .error e y) ↔
      q.1.closed = true ∨ frame.length ≠ size.byteCount := by
  have htracks := wellServed_tracks p c size
  have hacquired := htracks.acquire (n := 0) h
  obtain ⟨-, hgranted⟩ := (htracks.fill (n := 0) frame h).served hlive
  have hfilling := Presenter.filling (Logged.backend p c) (Logged.identity c) frame h.housed.inv
  generalize hfill : Presenter.fill (Logged.backend p c) (Logged.identity c) frame q = res
    at hfilling hlive
  cases hfilling with
  | @refused e q₁ ha =>
    refine iff_of_true ⟨e, q₁, rfl⟩ (.inl ?_)
    have hasked : (Pool.turn (Logged.backend p c) q .acquire).Granted :=
      hgranted _ (List.mem_append_right _ (List.mem_cons_self ..))
    exact hasked.closed ha
  | @unconverted s pool₁ r₁ e r₂ ha hc hs hv =>
    rw [ha] at hacquired
    refine iff_of_true ⟨e, _, rfl⟩ (.inr fun hlength => ?_)
    rw [← (hacquired.current hc).2.2] at hlength
    exact hlive.2 (identity_fails hv hlength)
  | @lost s pool₁ r₁ r₂ e r₃ ha hc hs hv hw =>
    rw [ha] at hacquired
    obtain ⟨hopen, hmem, -⟩ := hacquired.current hc
    have hview : pool₁.view? s.handle = some s.view :=
      (hacquired.housed.inv.lookup (Pool.fixture_mem hmem)).2
    have hasked :
        (Pool.turn (Logged.backend p c) (pool₁, r₂) (.awaitConsumer s.handle)).Granted := by
      refine hgranted _ (List.mem_append_right _ ?_)
      simp only [Presenter.fillRequests, ha, hview, hv]
      exact List.mem_cons_of_mem _ (List.mem_singleton_self _)
    obtain ⟨y, hok⟩ := hasked.awaited hopen (List.mem_map_of_mem hmem)
    rw [hw] at hok
    cases hok
  | @filled s pool₁ r₁ r₂ r₃ ha hc hs hv hw =>
    rw [ha] at hacquired
    refine iff_of_false (by rintro ⟨e, y, herror⟩; cases herror) ?_
    rintro (hclosed | hlength)
    · have hrefused : Pool.acquire (Logged.backend p c) q = .error .closed q := if_pos hclosed
      rw [ha] at hrefused
      cases hrefused
    · rw [← (hacquired.current hc).2.2] at hlength
      exact hlength (identity_ok hv)

theorem drops_present_iff {x : Presenter Texture Marker Texture × Logged}
    (h : WellServed p c size past (x.1.pool, x.2)) (frame : Pixels)
    (hlive : (Presenter.turn (Logged.backend p c) (Logged.identity c) x
      (.present frame)).after.2.world.world.BothLive p c) :
    (Presenter.turn (Logged.backend p c) (Logged.identity c) x (.present frame)).drops = true ↔
      x.1.pool.closed = true ∨ frame.length ≠ size.byteCount := by
  have hretracted : WellServed p c size _ _ := (wellServed_tracks p c size).retract h
  have hclosed := Presenter.closed_retract (Logged.backend p c) x
  rw [Presenter.turn_present] at hlive ⊢
  simp only [Presenter.present] at hlive ⊢
  generalize Presenter.retract (Logged.backend p c) x = y at hretracted hclosed hlive ⊢
  have hfails := fill_fails_iff hretracted frame
  rw [← hclosed]
  rcases hfill : Presenter.fill (Logged.backend p c) (Logged.identity c) frame
    (y.1.pool, y.2) with ⟨k, z⟩ | ⟨e, z⟩
  · rw [hfill] at hfails hlive
    refine iff_of_false Bool.false_ne_true fun hspoilt => ?_
    obtain ⟨e, y, herror⟩ := (hfails hlive).2 hspoilt
    cases herror
  · rw [hfill] at hfails hlive
    exact iff_of_true rfl ((hfails hlive).1 ⟨e, z, rfl⟩)

/-! ### Histories -/

/-- A frame is presented to a pool that was torn down, or does not have four bytes for each pixel
of a surface. -/
def spoilt (size : Extent) (t : Presenter.Turn Logged Pixels Texture Marker Texture) : Bool :=
  match t.move with
  | .present frame =>
    t.before.1.pool.closed ||
      decide (frame.length ≠ size.width.toNat * size.height.toNat * 4)
  | _ => false

theorem drops_eq_spoilt {x : Presenter Texture Marker Texture × Logged}
    (h : WellServed p c size past (x.1.pool, x.2)) (m : Move Pixels)
    (hlive : (Presenter.turn (Logged.backend p c) (Logged.identity c) x
      m).after.2.world.world.BothLive p c) :
    (Presenter.turn (Logged.backend p c) (Logged.identity c) x m).drops =
      spoilt size (Presenter.turn (Logged.backend p c) (Logged.identity c) x m) := by
  cases m with
  | present frame =>
    rw [Bool.eq_iff_iff, drops_present_iff h frame hlive, Extent.byteCount_eq]
    simp [spoilt, Presenter.turn]
  | acquire | release | cycle | awaitConsumer | retract | closePool | close | phase | images
  | shown | settings => rfl

/-- A move that went well: whatever it asked of the pool was granted, and if it dropped a frame
that was the frame's or the caller's fault. -/
structure Faultless (p c : Nat) (size : Extent)
    (t : Presenter.Turn Logged Pixels Texture Marker Texture) : Prop where
  granted : ∀ request ∈ t.asked (Logged.backend p c) (Logged.identity c), request.Granted
  copies : CopiedProperly t.after.2
  drops : t.drops = spoilt size t
  markerFaults : t.after.1.pool.stats.markerFaults = 0

/-- Before anything was asked. -/
theorem wellServed_make {config : Pool.Config} (hmake : Pool.make config = .ok pool) {w : World}
    (hfits : w.Fits) (hdevice : (w.workers p).device = (w.workers c).device)
    (schedule : List (List Event)) :
    WellServed p c config.size [] (pool, .ofWorld (.start w schedule)) := by
  refine ⟨housed_make hmake hdevice schedule, hfits, fun _ h => (List.not_mem_nil h).elim,
    fun _ => ⟨?_, fun _ h => (List.not_mem_nil h).elim⟩⟩
  obtain ⟨rfl, -⟩ := Pool.make_ok hmake
  rfl

theorem wellServed_meanwhile (hr : Logged.Meanwhile r r')
    (h : WellServed p c size past (pool, r)) : WellServed p c size past (pool, r') := by
  refine h.onward hr.2.onward ?_
  rw [CopiedProperly, hr.1]
  exact h.copies

/-- **Every move goes well as long as both workers live.** -/
theorem faultless_turns {x : Presenter Texture Marker Texture × Logged}
    {history : List (Presenter.Turn Logged Pixels Texture Marker Texture)}
    (hcourse : Course (Logged.backend p c) (Logged.identity c) Logged.Meanwhile x history)
    (hx : OnTrack (fun past _ => WellServed p c size past) past x)
    (hlive : ∀ t ∈ history, t.after.2.world.world.BothLive p c) :
    ∀ t ∈ history, Faultless p c size t := by
  intro t ht
  obtain ⟨first, rest, rfl⟩ := List.append_of_mem ht
  obtain ⟨hturn, hbefore, hafter⟩ :=
    hcourse.tracked (wellServed_tracks p c size) wellServed_meanwhile hx
  have hserved := hafter.served (hlive t ht)
  refine ⟨fun request hrequest => hserved.2 _ (List.mem_append_right _ hrequest), hafter.copies,
    ?_, hserved.1⟩
  rw [hturn]
  exact drops_eq_spoilt hbefore t.move (hturn ▸ hlive t ht)

/-- **Live workers give no cause to fail.** A presenter starts with an empty pool, of any extent and
any capacity, over two workers of one device or over one worker on both sides. Moves of all kinds
follow; the workers execute at any time, and in between the embedder does with the domains what it
likes. As long as neither worker has died: until the pool is torn down every acquire of it succeeds
and a wait fails only for a handle that it does not have; all copies that it asks for lie within
both images, which are stored apart; a frame fails to be presented when the pool was torn down or
the length of the frame is not that of a surface, and not otherwise; so the frames that count as
dropped are these, and no marker is ever at fault. Extents are meant to be of less than `2 ^ 64`
bytes. -/
theorem no_spurious_failures {config : Pool.Config} (hmake : Pool.make config = .ok pool)
    {w : World} (hfits : w.Fits) (hdevice : (w.workers p).device = (w.workers c).device)
    {schedule : List (List Event)}
    {history : List (Presenter.Turn Logged Pixels Texture Marker Texture)}
    (hcourse : Course (Logged.backend p c) (Logged.identity c) Logged.Meanwhile
      (.ofPool pool, .ofWorld (.start w schedule)) history)
    (hlive : ∀ t ∈ history, t.after.2.world.world.BothLive p c) :
    (∀ t ∈ history, ∀ request ∈ t.asked (Logged.backend p c) (Logged.identity c),
      request.Granted) ∧
    (∀ t ∈ history, CopiedProperly t.after.2) ∧
    (∀ t ∈ history, ∀ frame, t.move = .present frame → ((∃ e, t.answer = .error e) ↔
      t.before.1.pool.closed = true ∨
        frame.length ≠ config.size.width.toNat * config.size.height.toNat * 4)) ∧
    ∀ first t rest, history = first ++ t :: rest →
      t.after.1.dropped = (first ++ [t]).countP (spoilt config.size) ∧
        t.after.1.pool.stats.markerFaults = 0 := by
  have hfaultless := faultless_turns hcourse (wellServed_make hmake hfits hdevice schedule) hlive
  refine ⟨fun t ht => (hfaultless t ht).granted, fun t ht => (hfaultless t ht).copies,
    fun t ht frame hmove => ?_, ?_⟩
  · rw [← Presenter.Turn.drops_iff hmove, (hfaultless t ht).drops]
    simp [spoilt, hmove]
  · rintro first t rest rfl
    have hmem {u : Presenter.Turn Logged Pixels Texture Marker Texture} (hu : u ∈ first ++ [t]) :
        u ∈ first ++ t :: rest := by
      simp only [List.mem_append, List.mem_cons, List.not_mem_nil, or_false] at hu ⊢
      tauto
    have hsame : (first ++ [t]).countP (·.drops) = (first ++ [t]).countP (spoilt config.size) :=
      List.countP_congr fun u hu => by rw [(hfaultless u (hmem hu)).drops]
    refine ⟨?_, (hfaultless t (hmem (by simp))).markerFaults⟩
    rw [hcourse.dropped, hsame]
    exact Nat.zero_add _

/-- A frame is put on display, one does not fit, and one is presented when the pool is gone. -/
theorem no_spurious_failures_torn_down :
    Pool.make { size := ⟨1, 1⟩, capacity := 2 } = .ok smallPool ∧ twoWorkers.Fits ∧
    (twoWorkers.workers 0).device = (twoWorkers.workers 1).device ∧
    ∃ (first : List (Presenter.Turn Logged Pixels Texture Marker Texture))
      (t : Presenter.Turn Logged Pixels Texture Marker Texture),
      Course (Logged.backend 0 1) (Logged.identity 1) Logged.Meanwhile
        (.ofPool smallPool, .ofWorld (.start twoWorkers [[.execute 0]])) (first ++ [t]) ∧
      (∀ u ∈ first ++ [t], u.after.2.world.world.BothLive 0 1) ∧
      t.before.1.pool.closed = true ∧ (∃ e, t.answer = .error e) ∧
      t.after.1.dropped = (first ++ [t]).countP (spoilt ⟨1, 1⟩) ∧ t.after.1.dropped = 2 := by
  have hmake : Pool.make { size := ⟨1, 1⟩, capacity := 2 } = .ok smallPool := rfl
  have hfits : twoWorkers.Fits := ((World.shaped_blank.startWorker "P" 0).startWorker "C" 0).fits
  have hdevice : (twoWorkers.workers 0).device = (twoWorkers.workers 1).device := rfl
  have hstill (r r' : Logged) (h : r = r') : Logged.Meanwhile r r' :=
    ⟨congrArg (·.trace) h.symm, [], congrArg (·.world) h.symm⟩
  obtain ⟨first, t, hturns, hlive, hclosed, hmove, hspoilt⟩ :
      ∃ (first : List (Presenter.Turn Logged Pixels Texture Marker Texture))
        (t : Presenter.Turn Logged Pixels Texture Marker Texture),
        Presenter.turns (Logged.backend 0 1) (Logged.identity 1)
          (.ofPool smallPool, .ofWorld (.start twoWorkers [[.execute 0]]))
          [.present [1, 2, 3, 4], .present [5], .close, .present [1, 2, 3, 4]] = first ++ [t] ∧
        (∀ u ∈ first ++ [t], u.after.2.world.world.BothLive 0 1) ∧
        t.before.1.pool.closed = true ∧ t.move = .present [1, 2, 3, 4] ∧
        (first ++ [t]).countP (spoilt ⟨1, 1⟩) = 2 := by
    exact ⟨[_, _, _], _, rfl, by decide, rfl, rfl, rfl⟩
  have hcourse : Course (Logged.backend 0 1) (Logged.identity 1) Logged.Meanwhile
      (.ofPool smallPool, .ofWorld (.start twoWorkers [[.execute 0]])) (first ++ [t]) :=
    hturns ▸ (Presenter.course_turns _ _).mono hstill
  obtain ⟨-, -, hfails, hcounted⟩ := no_spurious_failures hmake hfits hdevice hcourse hlive
  obtain ⟨hdropped, -⟩ := hcounted first t [] rfl
  exact ⟨hmake, hfits, hdevice, first, t, hcourse, hlive, hclosed,
    (hfails t (by simp) _ hmove).2 (.inl hclosed), hdropped, hdropped.trans hspoilt⟩

end SurfaceRelay.Soft
