import SurfaceRelay.Proofs.Display
import SurfaceRelay.Side

/-! A producer that never catches up.

When no marker ever retires, every acquire behind the first finds the surface at the cursor busy:
the ring grows until it is full, and from then on every acquire is a forced wait. The ring always
grows at its first surface, so that one comes to stand last and the others follow each other in
the order in which they were built (`turned`). Between two cycles the pool is `Rested`, within one
the surface at the cursor is `Lent`; an acquire leads from the first to the second
(`Acquiring.contended`), a release back (`Releasing.contended`), and after so many cycles
everything about the pool is known in closed form (`maximal_contention`).

That nothing failed and nothing retired is said of the trace (`Stuck`), so it is asked only of the
calls that were made. -/
namespace SurfaceRelay
variable {W F T K V α : Type}

/-! ### Lines of a trace -/

def ImageCall.failed : ImageCall T → Bool
  | newStaging _ (.error _) | stage _ _ _ (.error _) | blockOn _ (.error _)
  | freeTexture _ (.error _) | freeStaging _ (.error _) => true
  | _ => false

namespace Entry

/-- The call was answered with a fault. -/
def failed : Entry F T K V → Bool
  | producer (.image call) => call.failed
  | producer (.newTexture _ (.error _)) | producer (.share _ (.error _))
  | producer (.newMarker (.error _)) | producer (.record _ (.error _))
  | producer (.poll _ (.error _)) | producer (.freeMarker _ (.error _)) => true
  | consumer (.image call) => call.failed
  | consumer (.openShare _ _ (.error _)) | consumer (.convert _ _ (.error _)) => true
  | _ => false

/-- A marker was polled and had retired. -/
def retired : Entry F T K V → Bool
  | producer (.poll _ (.ok (some _))) => true
  | _ => false

/-- The domain that was asked for a staging copy. -/
def copied? : Entry F T K V → Option Side
  | producer (.image (.stage ..)) => some .producer
  | consumer (.image (.stage ..)) => some .consumer
  | _ => none

/-- The domain that was asked for a blocking map. -/
def mapped? : Entry F T K V → Option Side
  | producer (.image (.blockOn ..)) => some .producer
  | consumer (.image (.blockOn ..)) => some .consumer
  | _ => none

theorem errand_of_copied {e : Entry F T K V} {side : Side} (h : e.copied? = some side) :
    e.errand = .wait := by
  rcases e with (c | _ | _ | _ | _ | _ | _) | (c | _ | _) | _ <;> try cases c
  all_goals first | rfl | cases h

theorem errand_of_mapped {e : Entry F T K V} {side : Side} (h : e.mapped? = some side) :
    e.errand = .wait := by
  rcases e with (c | _ | _ | _ | _ | _ | _) | (c | _ | _) | _ <;> try cases c
  all_goals first | rfl | cases h

end Entry

/-- The staging copies, by the domain they were asked of. -/
def copies (lines : List (Entry F T K V)) : List Side := lines.filterMap Entry.copied?

/-- The blocking maps, by the domain they were asked of. -/
def maps (lines : List (Entry F T K V)) : List Side := lines.filterMap Entry.mapped?

/-- No call failed, and no marker was found retired. -/
def Stuck (lines : List (Entry F T K V)) : Prop :=
  ∀ e ∈ lines, e.failed = false ∧ e.retired = false

theorem Stuck.past {past lines : List (Entry F T K V)} (h : Stuck lines) (hpast : past <+: lines) :
    Stuck past := fun e he => h e (hpast.subset he)

/-- Lines that are no waits ask for no copy and no map. -/
theorem Extends.waits {errands : List Errand} {past : List (Entry F T K V)}
    {r : Recorded W (Entry F T K V)} (h : Extends errands past r) (hwait : .wait ∉ errands) :
    copies r.trace = copies past ∧ maps r.trace = maps past :=
  ⟨h.filterMap (fun _ _ => Entry.errand_of_copied) hwait,
    h.filterMap (fun _ _ => Entry.errand_of_mapped) hwait⟩

/-! ### Failures show -/

/-- Some call of the trace failed. -/
def Faulted (r : Recorded W (Entry F T K V)) : Prop := ∃ e ∈ r.trace, e.failed = true

theorem Faulted.not_stuck {r : Recorded W (Entry F T K V)} (h : Faulted r) : ¬Stuck r.trace := by
  obtain ⟨e, he, hfailed⟩ := h
  intro hstuck
  rw [(hstuck e he).1] at hfailed
  cases hfailed

theorem Faulted.snoc {r : Recorded W (Entry F T K V)} (h : Faulted r) (w : W)
    (e : Entry F T K V) : Faulted ⟨w, r.trace ++ [e]⟩ := by
  obtain ⟨e', he', hfailed⟩ := h
  exact ⟨e', List.mem_append_left _ he', hfailed⟩

theorem faulted_call_keeps (act : Attempt W α) (entry : Except Fault α → Entry F T K V) :
    (Recorded.call act entry).Keeps Faulted :=
  Recorded.call_keeps fun _ _ _ hr => hr.snoc _ _

/-- A call that fails shows in the trace. -/
theorem faulted_call {act : Attempt W α} {entry : Except Fault α → Entry F T K V}
    (he : ∀ e, (entry (.error e)).failed = true) :
    (Recorded.call act entry).Meets (fun _ => True) (fun _ _ => True) Faulted := by
  refine Attempt.meets_of_result fun r _ => ?_
  simp only [Recorded.call]
  rcases act r.world with ⟨a, w⟩ | ⟨e, w⟩
  · trivial
  · exact ⟨_, List.mem_append_right _ (List.mem_singleton_self _), he e⟩

/-- A surface that cannot be built is one for which a call failed. -/
theorem build_faulted (b : Backend W T K V) (h : Handle) (size stagingSize : Extent) :
    (Surface.build (b.recorded (F := F)) h size stagingSize).Meets (fun _ => True)
      (fun _ _ => True) Faulted := by
  have hdispose (part : Part) (destroy : Attempt W Unit)
      (entry : Except Fault Unit → Entry F T K V) (r : Recorded W (Entry F T K V))
      (hr : Faulted r) :
      Faulted (Surface.dispose b.recorded h part (Recorded.call destroy entry) r) :=
    Surface.dispose_keeps h (fun _ _ _ r hr => hr.snoc _ _) (faulted_call_keeps destroy entry) hr
  refine Surface.holding_meets (faulted_call fun _ => rfl) (fun _ => hdispose _ _ _) fun _ => ?_
  refine Attempt.meets_bind (faulted_call fun _ => rfl) fun _ => ?_
  refine Surface.holding_meets (faulted_call fun _ => rfl) (fun _ => hdispose _ _ _) fun _ => ?_
  refine Surface.holding_meets (faulted_call fun _ => rfl) (fun _ => hdispose _ _ _) fun _ => ?_
  refine Surface.holding_meets (faulted_call fun _ => rfl) (fun _ => hdispose _ _ _) fun _ => ?_
  exact Attempt.meets_bind (faulted_call fun _ => rfl) fun _ =>
    Attempt.meets_pure fun _ _ => trivial

/-- So is a forced wait that fails. -/
theorem drain_faulted (b : Backend W T K V) (t s : T) (region : Extent) :
    ((b.recorded (F := F)).producer.drain t s region).Meets (fun _ => True) (fun _ _ => True)
      Faulted :=
  Attempt.meets_bind (faulted_call fun _ => rfl) fun _ => faulted_call fun _ => rfl

/-- A forced wait that succeeds asks the producer for one copy and one map. -/
theorem drain_waits {b : Backend W T K V} {t s : T} {region : Extent}
    {r r' : Recorded W (Entry F T K V)}
    (h : b.recorded.producer.drain t s region r = .ok () r') :
    copies r'.trace = copies r.trace ++ [.producer] ∧
      maps r'.trace = maps r.trace ++ [.producer] := by
  obtain ⟨r₁, hstage, hblock⟩ := Pool.drain_ok h
  rw [Pool.call_ok hblock, Pool.call_ok hstage]
  simp only [copies, maps, List.filterMap_append]
  exact ⟨List.append_nil _, congrArg (· ++ _) (List.append_nil _)⟩

namespace Pool

/-! ### The order of the ring -/

/-- The handles of a ring that always grew at its first surface, which stands last. -/
def turned : Nat → List Handle
  | 0 => []
  | m + 1 => (List.range' 2 m).map Handle.mk ++ [⟨1⟩]

/-- Growing in front of the last surface. -/
theorem turned_grow (m : Nat) :
    (turned m).take (m - 1) ++ ⟨m + 1⟩ :: (turned m).drop (m - 1) = turned (m + 1) := by
  cases m with
  | zero => rfl
  | succ m =>
    have hl : ((List.range' 2 m).map Handle.mk).length = m := by simp
    have hnew : 2 + 1 * m = m + 1 + 1 := by omega
    simp only [turned, Nat.add_sub_cancel]
    rw [List.take_left' hl, List.drop_left' hl, List.range'_concat, List.map_append, hnew,
      List.append_assoc]
    rfl

/-- The surfaces follow each other around the ring by number. -/
theorem getElem?_turned {m i : Nat} (h : i < m) : (turned m)[i]? = some ⟨(i + 1) % m + 1⟩ := by
  obtain ⟨m, rfl⟩ : ∃ k, m = k + 1 := ⟨m - 1, by omega⟩
  have hl : ((List.range' 2 m).map Handle.mk).length = m := by simp
  simp only [turned]
  by_cases hi : i < m
  · rw [List.getElem?_append_left (by omega), Nat.mod_eq_of_lt (by omega), List.getElem?_map,
      List.getElem?_range' hi]
    simp only [Option.map_some]
    congr 2
    omega
  · obtain rfl : i = m := by omega
    rw [List.getElem?_append_right (by omega), hl, Nat.sub_self, Nat.mod_self]
    rfl

/-! ### The pool between and within cycles -/

/-- Of `n` acquires all have been met, by growth as far as there was room and by forced waits
beyond, and `k` markers have been recorded. -/
structure Served (limit n k : Nat) (p : Pool T K V) (lines : List (Entry F T K V)) : Prop where
  inv : p.Inv
  opened : p.closed = false
  capacity : p.capacity = limit
  stats : p.stats =
    { built := min n limit, stalls := n - min n limit, markersRecorded := k, markerFaults := 0 }
  handles : p.handles = turned (min n limit)
  copies : copies lines = List.replicate (n - min n limit) .producer
  maps : maps lines = List.replicate (n - min n limit) .producer

/-- All surfaces are back, behind so many cycles. -/
structure Rested (limit n : Nat) (p : Pool T K V) (lines : List (Entry F T K V)) : Prop
    extends Served limit n n p lines where
  cursor : p.ring.cursor = (n - 1) % limit
  armed : ∀ s ∈ p.ring.slots, s.phase = .released ∧ s.armed = true

/-- The surface at the cursor is out, in the cycle behind so many others. -/
structure Lent (limit n : Nat) (p : Pool T K V) (lines : List (Entry F T K V)) : Prop
    extends Served limit (n + 1) n p lines where
  cursor : p.ring.cursor = (n - 1) % limit
  front : ∃ s, p.ring.current? = some s ∧ s.handle = ⟨n % limit + 1⟩ ∧ s.phase = .writing
  armed : ∀ s ∈ p.ring.toQueue.tail, s.armed = true

variable {b : Backend W T K V} {p : Pool T K V} {r : Recorded W (Entry F T K V)} {limit n : Nat}

theorem Served.size {k : Nat} {lines : List (Entry F T K V)} (h : Served limit n k p lines) :
    p.ring.size = min n limit := by
  rw [← (h.inv.counted h.opened).2, h.stats]

/-- A fresh pool has been through no cycle. -/
theorem rested_make {c : Config} (hp : make c = .ok p) :
    Rested c.capacity 0 p ([] : List (Entry F T K V)) := by
  have hinv := inv_make hp
  obtain ⟨rfl, -⟩ := make_ok hp
  refine ⟨⟨hinv, rfl, rfl, ?_, ?_, ?_, ?_⟩, ?_, fun s hs => (by cases hs)⟩
  all_goals simp [turned, SurfaceRelay.copies, SurfaceRelay.maps, Pool.handles, Ring.empty]

/-- The ring grows as long as it has not been gone around. -/
theorem Rested.room {lines : List (Entry F T K V)} (h : Rested limit n p lines)
    (hroom : p.ring.current? = none ∨ p.ring.size < p.capacity) : n < limit := by
  have hpositive : 0 < limit := h.capacity ▸ h.inv.positive
  have hsize := h.size
  have hcapacity := h.capacity
  rcases hroom with hempty | hroom
  · rw [Ring.current?_eq h.inv.sound, List.head?_eq_none_iff] at hempty
    rw [← Ring.length_toQueue, hempty, List.length_nil] at hsize
    omega
  · omega

/-- A surface at the cursor is the one whose turn it is when the ring is full. -/
theorem Rested.front {lines : List (Entry F T K V)} (h : Rested limit n p lines)
    (hfull : limit ≤ n) {s : Surface T K V} (hc : p.ring.current? = some s) :
    s.handle = ⟨n % limit + 1⟩ := by
  have hlt : p.ring.cursor < min n limit := h.size ▸ Ring.cursor_lt hc
  have hs : p.handles[p.ring.cursor]? = some s.handle := by
    rw [handles, List.getElem?_map, show p.ring.slots[p.ring.cursor]? = some s from hc]
    rfl
  have hn : n - 1 + 1 = n := by omega
  rw [h.handles, getElem?_turned hlt, h.cursor, Nat.min_eq_right hfull, Nat.mod_add_mod, hn] at hs
  exact (Option.some.inj hs).symm

/-- The surface at the cursor is declined with one poll at most, and none is counted. -/
theorem Declined.stuck {o : Option (Surface T K V)} {p₁ : Pool T K V}
    {r₁ : Recorded W (Entry F T K V)} (hd : Declined b.recorded p r o p₁ r₁)
    (hstuck : Stuck r₁.trace) : p₁ = p ∧ copies r₁.trace = copies r.trace ∧
      maps r₁.trace = maps r.trace := by
  cases hd with
  | vacant => exact ⟨rfl, rfl, rfl⟩
  | unarmed => exact ⟨rfl, rfl, rfl⟩
  | pending hc hr ha hpoll =>
    rw [call_ok hpoll]
    exact ⟨rfl, List.filterMap_append.trans (List.append_nil _),
      List.filterMap_append.trans (List.append_nil _)⟩
  | @unknown s e r' hc hr ha hpoll =>
    have hfailed : Faulted (b.recorded.note (.pollFailed s.handle e) r') :=
      ((faulted_call fun _ => rfl).error hpoll trivial).snoc _ _
    exact absurd hstuck hfailed.not_stuck

/-- A poll that finds its marker retired is a line of the trace. -/
theorem not_stuck_of_retired {m k : K} {r' : Recorded W (Entry F T K V)}
    (hpoll : b.recorded.producer.poll m r = .ok (some k) r') : ¬Stuck r'.trace := by
  intro hstuck
  have hline : (.producer (.poll m (.ok (some k))) : Entry F T K V) ∈ r'.trace := by
    rw [call_ok hpoll]
    exact List.mem_append_right _ (List.mem_singleton_self _)
  cases (hstuck _ hline).2

/-- Growing while there is room. -/
theorem Rested.extend {lines lines' : List (Entry F T K V)} (h : Rested limit n p lines)
    (hroom : n < limit) (hpositive : 0 < limit) {s : Surface T K V} (hs : s.handle = ⟨p.nextHandle⟩)
    (hinv : (p.extend s).Inv) (hcopies : copies lines' = copies lines)
    (hmaps : maps lines' = maps lines) : Lent limit n (p.extend s) lines' := by
  have hnow : min n limit = n := Nat.min_eq_left (Nat.le_of_lt hroom)
  have hnext : min (n + 1) limit = n + 1 := Nat.min_eq_left hroom
  have hnumber : p.nextHandle = n + 1 := by rw [(h.inv.counted h.opened).1, h.size, hnow]
  have hcursor : p.ring.cursor = n - 1 := by
    rw [h.cursor, Nat.mod_eq_of_lt (by omega)]
  refine ⟨⟨hinv, h.opened, h.capacity, ?_, ?_, ?_, ?_⟩, h.cursor,
    ⟨_, Ring.current?_insert h.inv.sound _, ?_, rfl⟩, fun t ht => ?_⟩
  · simp only [Pool.extend, h.stats, hnow, hnext, Nat.sub_self]
  · have hhandles : p.ring.slots.map (·.handle) = turned n := hnow ▸ h.handles
    rw [hnext, ← turned_grow n, Pool.extend, handles, Ring.slots_insert h.inv.sound,
      List.map_append, List.map_cons, List.map_take, List.map_drop, hhandles, hcursor, hs, hnumber]
  · rw [hcopies, h.copies, hnow, hnext]
    simp
  · rw [hmaps, h.maps, hnow, hnext]
    simp
  · rw [hs, hnumber, Nat.mod_eq_of_lt hroom]
  · rw [Pool.extend, Ring.toQueue_insert h.inv.sound, List.tail_cons, Ring.mem_toQueue] at ht
    exact (h.armed t ht).2

/-- A forced wait once the ring is full. -/
theorem Rested.reclaim {lines lines' : List (Entry F T K V)} (h : Rested limit n p lines)
    (hfull : limit ≤ n) {s : Surface T K V} (hc : p.ring.current? = some s)
    (hcopies : copies lines' = copies lines ++ [.producer])
    (hmaps : maps lines' = maps lines ++ [.producer]) : Lent limit n (p.reclaim s) lines' := by
  have hnow : min n limit = limit := Nat.min_eq_right hfull
  have hnext : min (n + 1) limit = limit := Nat.min_eq_right (by omega)
  have hone : n + 1 - limit = n - limit + 1 := by omega
  have hlt := Ring.cursor_lt hc
  refine ⟨⟨h.inv.reclaim hc, h.opened, h.capacity, ?_, ?_, ?_, ?_⟩, h.cursor,
    ⟨_, Ring.current?_setCurrent hlt _, ?_, rfl⟩, fun t ht => ?_⟩
  · simp only [Pool.reclaim, h.stats, hnow, hnext, hone]
  · rw [hnext, ← hnow, ← h.handles]
    exact handles_setCurrent hc rfl .writing
  · rw [hcopies, h.copies, hnow, hnext, hone, List.replicate_succ']
  · rw [hmaps, h.maps, hnow, hnext, hone, List.replicate_succ']
  · exact (h.front hfull hc :)
  · rw [Pool.reclaim, Pool.handOut, Ring.toQueue_setCurrent hlt, List.tail_cons] at ht
    exact (h.armed t ((Ring.mem_toQueue _ _).1 (List.mem_of_mem_tail ht))).2

/-- An acquire of a pool whose surfaces are all back hands out the next one in turn. -/
theorem Acquiring.contended (h : Rested limit n p r.trace)
    {x : EStateM.Result Fault (Pool T K V × Recorded W (Entry F T K V)) Handle}
    (ha : Acquiring b.recorded p r x) (hstuck : Stuck (Attempt.leaves x).2.trace) :
    Attempt.answers x = .ok ⟨n % limit + 1⟩ ∧
      Lent limit n (Attempt.leaves x).1 (Attempt.leaves x).2.trace := by
  have hpositive : 0 < limit := h.capacity ▸ h.inv.positive
  have hinv := ha.inv h.inv
  cases ha with
  | closed hp =>
    rw [h.opened] at hp
    cases hp
  | again hp hc hs => exact absurd (h.armed _ (Ring.current?_mem hc)).1 hs
  | @ready s k r' hp hc hr ha hpoll =>
    exact absurd hstuck (not_stuck_of_retired hpoll)
  | @grew o s p₁ r₁ r₂ hp hd hroom hb =>
    have hbuild : Extends [.supply, .report] r₁.trace
        (b.recorded.note (.grew (p₁.extend s).ring.size) r₂) :=
      Extends.note (by decide) _ _ rfl
        ((Surface.build_keeps _ (fun _ _ _ r => Extends.note (by decide) _ r rfl)
          (extends_untouched b (by decide)) _ _).ok hb (.refl r₁))
    obtain ⟨hcopies, hmaps⟩ := hbuild.waits (by decide)
    obtain ⟨rfl, hcopies₁, hmaps₁⟩ := hd.stuck (hstuck.past hbuild.grows)
    have hroom : n < limit := h.room (hroom.imp_left hd.current.trans)
    refine ⟨?_, h.extend hroom hpositive (Surface.build_ok _ _ hb).1 hinv
      (hcopies.trans hcopies₁) (hmaps.trans hmaps₁)⟩
    rw [Attempt.answers, (h.inv.counted h.opened).1, h.size, Nat.min_eq_left (Nat.le_of_lt hroom),
      Nat.mod_eq_of_lt hroom]
  | @growthFailed o e p₁ r₁ r₂ hp hd hroom hb =>
    have hfaulted : Faulted r₂ := (build_faulted b _ _ _).error hb trivial
    exact absurd hstuck (hfaulted.snoc _ _).not_stuck
  | @stalled s p₁ r₁ r₂ hp hd hfull hw =>
    have hdrain : Extends [.wait, .report] r₁.trace
        (b.recorded.note (.underflow p₁.ring.cursor) r₂) :=
      Extends.note (by decide) _ _ rfl
        ((Extends.drain (fun _ => rfl) (by decide) _ _ _).ok hw (.refl r₁))
    obtain ⟨hcopies, hmaps⟩ := drain_waits hw
    obtain ⟨rfl, hcopies₁, hmaps₁⟩ := hd.stuck (hstuck.past hdrain.grows)
    have hfull : limit ≤ n := by
      have hsize := h.size
      have hcapacity := h.capacity
      omega
    refine ⟨?_, h.reclaim hfull hd.current ?_ ?_⟩
    · rw [Attempt.answers, h.front hfull hd.current]
    · rw [← hcopies₁, ← hcopies]
      exact List.filterMap_append.trans (List.append_nil _)
    · rw [← hmaps₁, ← hmaps]
      exact List.filterMap_append.trans (List.append_nil _)
  | @stallFailed s e p₁ r₁ r₂ hp hd hfull hw =>
    have hfaulted : Faulted r₂ := (drain_faulted b _ _ _).error hw trivial
    exact absurd hstuck (hfaulted.snoc _ _).not_stuck

/-- Releasing the surface that is out moves the cursor on to the next in turn. -/
theorem Lent.passOn {lines lines' : List (Entry F T K V)} (h : Lent limit n p lines)
    {s : Surface T K V} (hc : p.ring.current? = some s) {k : K} {stats : Stats}
    (hstats : stats = { p.stats with markersRecorded := p.stats.markersRecorded + 1 })
    (hcopies : copies lines' = copies lines) (hmaps : maps lines' = maps lines) :
    Rested limit (n + 1) (p.passOn { s with marker := k, armed := true } stats) lines' := by
  subst hstats
  have hpositive : 0 < limit := h.capacity ▸ h.inv.positive
  have hlt := Ring.cursor_lt hc
  refine ⟨⟨h.inv.passOn hc rfl rfl, h.opened, h.capacity, ?_, ?_, hcopies.trans h.copies,
    hmaps.trans h.maps⟩, ?_, fun t ht => ?_⟩
  · simp only [Pool.passOn, h.stats]
  · rw [← h.handles]
    have hhandle : ({ s with marker := k, armed := true } : Surface T K V).handle = s.handle := rfl
    exact handles_setCurrent hc hhandle .released
  · have hsize : p.ring.slots.length = min (n + 1) limit := h.size
    simp only [Pool.passOn, Ring.advance, Ring.setCurrent, List.length_set]
    rw [hsize, h.cursor, Nat.add_sub_cancel]
    -- around the end only when the ring is full
    by_cases hfull : limit ≤ n
    · have hn : n - 1 + 1 = n := by omega
      rw [Nat.min_eq_right (by omega), Nat.mod_add_mod, hn]
    · rw [Nat.min_eq_left (by omega), Nat.mod_eq_of_lt (a := n - 1) (by omega),
        Nat.mod_eq_of_lt (a := n) (by omega)]
      cases n with
      | zero => rfl
      | succ n => exact Nat.mod_eq_of_lt (by omega)
  · have ht : t ∈ (p.ring.setCurrent _).toQueue := (Ring.mem_toQueue _ _).2 ht
    rw [Ring.toQueue_setCurrent hlt] at ht
    rcases List.mem_cons.1 ht with rfl | ht
    · exact ⟨rfl, rfl⟩
    · exact ⟨h.inv.behind t ht, h.armed t ht⟩

/-- The release of a cycle takes back what the acquire handed out. -/
theorem Releasing.contended (h : Lent limit n p r.trace)
    {x : EStateM.Result Fault (Pool T K V × Recorded W (Entry F T K V)) Unit}
    (hr : Releasing b.recorded ⟨n % limit + 1⟩ p r x) (hstuck : Stuck (Attempt.leaves x).2.trace) :
    Attempt.answers x = .ok () ∧
      Rested limit (n + 1) (Attempt.leaves x).1 (Attempt.leaves x).2.trace := by
  have hwaits := hr.errands.waits (by decide)
  obtain ⟨s, hc, hh, hs⟩ := h.front
  cases hr with
  | closed hp =>
    rw [h.opened] at hp
    cases hp
  | stale hp hstale =>
    rcases hstale s hc with hne | hne
    · exact absurd hh hne
    · exact absurd hs hne
  | @recorded s' k r' hp hc' hh' hs' hrec =>
    exact ⟨rfl, h.passOn hc' rfl hwaits.1 hwaits.2⟩
  | @unrecorded s' e k r' hp hc' hh' hs' hrec =>
    have hfaulted : Faulted r' := ⟨.producer (.record s'.marker (.error e)), by
      rw [recording_error hrec]
      exact List.mem_append_right _ (List.mem_singleton_self _), rfl⟩
    exact absurd hstuck (hfaulted.snoc _ _).not_stuck

/-! ### Cycles -/

/-- A cycle of a recorded pool only adds lines. -/
theorem cycle_past (b : Backend W T K V) (x : Pool T K V × Recorded W (Entry F T K V)) :
    x.2.trace <+: (Attempt.leaves (Presenter.cycle b.recorded x)).2.trace := by
  have hkeeps : (Presenter.cycle b.recorded).Keeps
      fun y : Pool T K V × Recorded W (Entry F T K V) => x.2.trace <+: y.2.trace :=
    Attempt.keeps_bind
      (Attempt.keeps_of_leaves fun y hy => hy.trans (acquiring b.recorded y.1 y.2).errands.grows)
      fun h => Attempt.keeps_bind
        (Attempt.keeps_of_leaves fun y hy =>
          hy.trans (releasing b.recorded h y.1 y.2).errands.grows)
        fun _ => Attempt.keeps_pure h
  exact hkeeps.leaves (List.prefix_refl _)

theorem cycle_contended {x : Pool T K V × Recorded W (Entry F T K V)}
    (h : Rested limit n x.1 x.2.trace)
    (hstuck : Stuck (Attempt.leaves (Presenter.cycle b.recorded x)).2.trace) :
    Attempt.answers (Presenter.cycle b.recorded x) = .ok ⟨n % limit + 1⟩ ∧
      Rested limit (n + 1) (Attempt.leaves (Presenter.cycle b.recorded x)).1
        (Attempt.leaves (Presenter.cycle b.recorded x)).2.trace := by
  have ha : Acquiring b.recorded x.1 x.2 (acquire b.recorded x) := acquiring b.recorded x.1 x.2
  rcases hacquire : acquire b.recorded x with ⟨k, y⟩ | ⟨e, y⟩
  · have hcycle : Presenter.cycle b.recorded x =
        (do release b.recorded k; return k : Attempt _ Handle) y := Attempt.bind_of_ok hacquire
    have hr : Releasing b.recorded k y.1 y.2 (release b.recorded k y) :=
      releasing b.recorded k y.1 y.2
    have hleaves : Attempt.leaves (Presenter.cycle b.recorded x) =
        Attempt.leaves (release b.recorded k y) := by
      rw [hcycle]
      simp only [bind, EStateM.bind]
      cases release b.recorded k y <;> rfl
    rw [hleaves] at hstuck ⊢
    rw [hacquire] at ha
    obtain ⟨hk, hlent⟩ := ha.contended h (hstuck.past hr.errands.grows)
    cases hk
    obtain ⟨hreleased, hrested⟩ := hr.contended hlent hstuck
    refine ⟨?_, hrested⟩
    rw [hcycle, Attempt.bind_of_ok (Attempt.eq_ok_of_answers hreleased)]
    rfl
  · have hcycle : Presenter.cycle b.recorded x = .error e y := by
      simp only [Presenter.cycle, bind, EStateM.bind, hacquire]
    rw [hacquire] at ha
    rw [hcycle] at hstuck
    cases (ha.contended h hstuck).1

end Pool

namespace Presenter
open Pool

theorem turn_cycle (b : Backend W T K V) (convert : Converter W F V) (x : Presenter T K V × W) :
    turn b convert x .cycle =
      { move := .cycle
        answer := (Attempt.answers (cycle b (x.1.pool, x.2))).map .surface, before := x
        after := ({ x.1 with pool := (Attempt.leaves (cycle b (x.1.pool, x.2))).1 },
          (Attempt.leaves (cycle b (x.1.pool, x.2))).2) } := by
  simp only [turn, make, Attempt.outcome_map, onPool]
  cases cycle b (x.1.pool, x.2) <;> rfl

/-- One cycle more is one more turn at the end. -/
theorem run_replicate_succ (b : Backend W T K V) (convert : Converter W F V) (n : Nat)
    (m : Move F) (x : Presenter T K V × W) :
    run b convert (List.replicate (n + 1) m) x =
      (turn b convert (run b convert (List.replicate n m) x) m).after := by
  rw [List.replicate_succ', run_append]
  rfl

theorem turn_cycle_past (b : Backend W T K V) (convert : Converter W F V)
    (x : Presenter T K V × Recorded W (Entry F T K V)) :
    x.2.trace <+: (turn b.recorded (Converter.recorded convert) x .cycle).after.2.trace := by
  rw [turn_cycle]
  exact cycle_past b (x.1.pool, x.2)

theorem rested_turn {b : Backend W T K V} {convert : Converter W F V} {limit n : Nat}
    {x : Presenter T K V × Recorded W (Entry F T K V)} (h : Rested limit n x.1.pool x.2.trace) :
    let t := turn b.recorded (Converter.recorded convert) x .cycle
    Stuck t.after.2.trace →
      t.answer = .ok (.surface ⟨n % limit + 1⟩) ∧
        Rested limit (n + 1) t.after.1.pool t.after.2.trace := by
  intro t hstuck
  have ht : t = _ := turn_cycle b.recorded (Converter.recorded convert) x
  rw [ht] at hstuck ⊢
  obtain ⟨hanswer, hrested⟩ := cycle_contended h hstuck
  exact ⟨by rw [hanswer]; rfl, hrested⟩

/-- A stuck trace was stuck all the way, so the pool was at rest before every cycle. -/
theorem rested_run {c : Config} {p : Pool T K V} (hp : Pool.make c = .ok p)
    (b : Backend W T K V) (convert : Converter W F V) (w : W) (n : Nat) :
    let x := run b.recorded (Converter.recorded convert) (List.replicate n .cycle)
      (ofPool p, .ofWorld w)
    Stuck x.2.trace → Rested c.capacity n x.1.pool x.2.trace := by
  induction n with
  | zero => exact fun _ => rested_make hp
  | succ n ih =>
    rw [run_replicate_succ]
    intro x hstuck
    exact (rested_turn (ih (hstuck.past (turn_cycle_past b convert _))) hstuck).2

/-- **Maximal contention in closed form.** A fresh pool goes through cycles of one acquire and
one release, over any domains: as long as no call fails and no marker is found retired, the ring
grows to its capacity and every later acquire is a forced wait. The surfaces take turns, with the
first one standing last in the ring, and the producer alone is asked for copies and maps, once
for every forced wait. -/
theorem maximal_contention {c : Config} {p : Pool T K V} (hp : Pool.make c = .ok p)
    (b : Backend W T K V) (convert : Converter W F V) (w : W) {n : Nat} (hn : 0 < n)
    (hstuck : Stuck (run b.recorded (Converter.recorded convert) (List.replicate n .cycle)
      (ofPool p, .ofWorld w)).2.trace) :
    let start : Presenter T K V × Recorded W (Entry F T K V) := (ofPool p, .ofWorld w)
    let before := run b.recorded (Converter.recorded convert) (List.replicate (n - 1) .cycle) start
    let x := run b.recorded (Converter.recorded convert) (List.replicate n .cycle) start
    let m := min n c.capacity
    x.1.pool.stats = { built := m, stalls := n - m, markersRecorded := n, markerFaults := 0 } ∧
    x.1.pool.ring.size = m ∧ x.1.pool.ring.cursor = (n - 1) % c.capacity ∧
    x.1.pool.handles = (List.range' 2 (m - 1)).map Handle.mk ++ [⟨1⟩] ∧
    (turn b.recorded (Converter.recorded convert) before .cycle).answer =
      .ok (.surface ⟨(n - 1) % c.capacity + 1⟩) ∧
    copies x.2.trace = List.replicate (n - m) .producer ∧
    maps x.2.trace = List.replicate (n - m) .producer := by
  intro start before x m
  have h : Rested c.capacity n x.1.pool x.2.trace := rested_run hp b convert w n hstuck
  have hpositive : 0 < c.capacity := h.capacity ▸ h.inv.positive
  have hlast : x = (turn b.recorded (Converter.recorded convert) before .cycle).after := by
    rw [← run_replicate_succ, Nat.sub_add_cancel hn]
  refine ⟨h.stats, h.size, h.cursor, ?_, ?_, h.copies, h.maps⟩
  · have hm : min n c.capacity = m - 1 + 1 := by omega
    rw [h.handles, hm]
    rfl
  · have hstuck :
        Stuck (turn b.recorded (Converter.recorded convert) before .cycle).after.2.trace :=
      hlast ▸ hstuck
    have hbefore : Rested c.capacity (n - 1) before.1.pool before.2.trace :=
      rested_run hp b convert w (n - 1) (hstuck.past (turn_cycle_past b convert before))
    exact (rested_turn hbefore hstuck).1

/-- Five cycles of two surfaces: three forced waits. -/
theorem maximal_contention_two_surfaces :
    ∃ p : Pool Unit Unit Unit, Pool.make ⟨⟨4, 4⟩, 2⟩ = .ok p ∧
      let start : Presenter Unit Unit Unit × Recorded Unit (Entry Unit Unit Unit Unit) :=
        (ofPool p, .ofWorld ())
      let x := run (steady false).recorded (Converter.recorded fun _ _ => pure ())
        (List.replicate 5 .cycle) start
      Stuck x.2.trace ∧ x.1.pool.ring.cursor = 0 ∧ x.1.pool.handles = [⟨2⟩, ⟨1⟩] ∧
      x.1.pool.stats = { built := 2, stalls := 3, markersRecorded := 5, markerFaults := 0 } ∧
      copies x.2.trace = [.producer, .producer, .producer] := by
  obtain ⟨p, hp⟩ : ∃ p : Pool Unit Unit Unit, Pool.make ⟨⟨4, 4⟩, 2⟩ = .ok p := ⟨_, rfl⟩
  have hstuck : Stuck (run (F := Unit) (steady false).recorded
      (Converter.recorded fun _ _ => pure ()) (List.replicate 5 .cycle)
      (ofPool p, .ofWorld ())).2.trace := by
    cases hp
    unfold Stuck
    decide
  obtain ⟨hstats, -, hcursor, hhandles, -, hcopies, -⟩ :=
    maximal_contention hp (steady false) (fun _ _ => pure ()) () (by decide) hstuck
  exact ⟨p, hp, hstuck, hcursor, hhandles, hstats, hcopies⟩

end Presenter
end SurfaceRelay
