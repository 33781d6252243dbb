import Mathlib.Data.List.Nodup
import SurfaceRelay.Proofs.Pool.Operations
import SurfaceRelay.Proofs.Surface

/-! What holds of a pool between its operations.

`Inv` is the shape of a pool that callers can rely on: the surfaces are numbered from 1
without gaps, only the surface at the cursor can be out, every other one is released, and
none is idle. Every operation keeps it, in whatever way it goes, so it holds after every
run (`inv_run`). -/
namespace SurfaceRelay.Pool
variable {W T K V : Type}

/-- The handles of the first surfaces. -/
def firstHandles (n : Nat) : List Handle := (List.range' 1 n).map Handle.mk

structure Inv (p : Pool T K V) : Prop where
  sound : p.ring.Sound
  room : p.ring.size ≤ p.capacity
  positive : 0 < p.capacity
  limited : p.capacity ≤ maxSurfaces
  emptied : p.closed = true → p.ring = .empty
  counted : p.closed = false → p.nextHandle = p.ring.size + 1 ∧ p.stats.built = p.ring.size
  numbered : p.closed = false → p.handles.Perm (firstHandles p.ring.size)
  /-- The surface at the cursor is out or released. -/
  front : ∀ s, p.ring.current? = some s → s.phase ≠ .idle
  /-- All others are released. -/
  behind : ∀ s ∈ p.ring.toQueue.tail, s.phase = .released

variable {p : Pool T K V}

/-- Handing out and releasing the surface at the cursor renumbers nothing. -/
theorem handles_setCurrent {s s' : Surface T K V} (hc : p.ring.current? = some s)
    (hh : s'.handle = s.handle) (phase : Phase) :
    (p.ring.setCurrent { s' with phase }).slots.map (·.handle) = p.handles :=
  Ring.map_setCurrent (·.handle) hc (show ({ s' with phase } : Surface T K V).handle = _ from hh)

/-- The surface that was released goes to the back of the queue. -/
theorem toQueue_passOn {s : Surface T K V} (hc : p.ring.current? = some s) (s' : Surface T K V)
    (stats : Stats) :
    (p.passOn s' stats).ring.toQueue = p.ring.toQueue.tail ++ [{ s' with phase := .released }] := by
  have hlt := Ring.cursor_lt hc
  refine Ring.toQueue_advance ?_ (Ring.toQueue_setCurrent hlt { s' with phase := .released })
  rw [Ring.size_setCurrent]
  exact hlt

namespace Inv

theorem handles_nodup (h : p.Inv) : p.handles.Nodup := by
  cases hp : p.closed with
  | true => simp [handles, h.emptied hp, Ring.empty]
  | false =>
    rw [(h.numbered hp).nodup_iff]
    refine List.Nodup.map (fun i j hij => ?_) (List.nodup_range' ..)
    injection hij

/-- A surface is known by its handle. -/
theorem unique (h : p.Inv) {s t : Surface T K V} (hs : s ∈ p.ring.slots) (ht : t ∈ p.ring.slots)
    (he : s.handle = t.handle) : s = t :=
  List.inj_on_of_nodup_map h.handles_nodup hs ht he

/-- The next handle is new. -/
theorem fresh (h : p.Inv) (hp : p.closed = false) {s : Surface T K V} (hs : s ∈ p.ring.slots) :
    s.handle.number < p.nextHandle := by
  have hmem := (h.numbered hp).mem_iff.1 (List.mem_map_of_mem hs)
  simp only [firstHandles, List.mem_map, List.mem_range'_1] at hmem
  obtain ⟨n, hn, he⟩ := hmem
  rw [← he, (h.counted hp).1]
  show n < p.ring.size + 1
  omega

/-- Looking a handle up finds the surface that has it. -/
theorem find?_eq_some (h : p.Inv) {s : Surface T K V} {k : Handle} :
    p.find? k = some s ↔ s ∈ p.ring.slots ∧ s.handle = k := by
  constructor
  · intro hf
    obtain ⟨hs, hk⟩ := Ring.find?_some hf
    exact ⟨hs, by simpa using hk⟩
  · rintro ⟨hs, hk⟩
    obtain ⟨t, ht⟩ := Ring.find?_isSome (p := (·.handle == k)) hs (by simpa using hk)
    obtain ⟨hmem, htk⟩ := Ring.find?_some ht
    rw [find?, ht, h.unique hs hmem (by rw [hk]; exact (eq_of_beq htk).symm)]

/-- A surface at the cursor that is not released is out. -/
theorem writing_of_current (h : p.Inv) {s : Surface T K V} (hc : p.ring.current? = some s)
    (hs : s.phase ≠ .released) : s.phase = .writing := by
  have hi := h.front s hc
  cases hphase : s.phase with
  | idle => exact absurd hphase hi
  | writing => rfl
  | released => exact absurd hphase hs

/-- With the surface at the cursor replaced, all others are as they were, and released. -/
theorem mem_setCurrent (h : p.Inv) {s s' t : Surface T K V} (hc : p.ring.current? = some s)
    (ht : t ∈ (p.ring.setCurrent s').slots) :
    t = s' ∨ t ∈ p.ring.slots ∧ t.phase = .released ∧ t.handle ≠ s.handle := by
  rw [← Ring.mem_toQueue, Ring.toQueue_setCurrent (Ring.cursor_lt hc)] at ht
  rcases List.mem_cons.1 ht with rfl | ht
  · exact .inl rfl
  · refine .inr ⟨(Ring.mem_toQueue _ _).1 (List.mem_of_mem_tail ht), h.behind t ht, fun he => ?_⟩
    have hnodup := h.handles_nodup
    rw [handles, ← (p.ring.toQueue_perm.map _).nodup_iff, Ring.toQueue_of_current hc,
      List.map_cons, List.nodup_cons] at hnodup
    exact hnodup.1 (he ▸ List.mem_map_of_mem ht)

/-! ### Each change to a pool -/

theorem countMarkerFault (h : p.Inv) : p.countMarkerFault.Inv :=
  ⟨h.sound, h.room, h.positive, h.limited, h.emptied, h.counted, h.numbered, h.front, h.behind⟩

/-- What a declined acquire leaves. -/
theorem declined {b : Backend W T K V} {p₁ : Pool T K V} {w w₁ : W}
    {o : Option (Surface T K V)} (h : p.Inv) (hd : Declined b p w o p₁ w₁) : p₁.Inv := by
  cases hd with
  | unknown => exact h.countMarkerFault
  | _ => exact h

theorem handOut (h : p.Inv) {s s' : Surface T K V} (hc : p.ring.current? = some s)
    (hh : s'.handle = s.handle) : (p.handOut s').Inv := by
  have hlt := Ring.cursor_lt hc
  have hq := Ring.toQueue_setCurrent hlt { s' with phase := .writing }
  have hsize := Ring.size_setCurrent p.ring { s' with phase := .writing }
  have hcopen : p.closed = false := by
    cases hp : p.closed with
    | false => rfl
    | true => rw [h.emptied hp] at hc; cases hc
  refine ⟨Ring.setCurrent_sound h.sound _, hsize ▸ h.room, h.positive, h.limited,
    fun hp => absurd hp (by simp [Pool.handOut, hcopen]), fun hp => ?_, fun hp => ?_,
    fun t ht => ?_, fun t ht => ?_⟩
  · simpa only [Pool.handOut, hsize] using h.counted hp
  · simp only [Pool.handOut, handles, hsize]
    rw [handles_setCurrent hc hh]
    exact h.numbered hp
  · simp only [Pool.handOut] at ht
    rw [Ring.current?_setCurrent hlt] at ht
    cases ht
    simp
  · simp only [Pool.handOut, hq, List.tail_cons] at ht
    exact h.behind t ht

theorem reclaim (h : p.Inv) {s : Surface T K V} (hc : p.ring.current? = some s) :
    (p.reclaim s).Inv :=
  have h' := h.handOut hc rfl
  ⟨h'.sound, h'.room, h'.positive, h'.limited, h'.emptied, h'.counted, h'.numbered, h'.front,
    h'.behind⟩

theorem extend (h : p.Inv) (hp : p.closed = false) (hroom : p.ring.size < p.capacity)
    (hr : ∀ s, p.ring.current? = some s → s.phase = .released) {s : Surface T K V}
    (hs : s.handle = ⟨p.nextHandle⟩) : (p.extend s).Inv := by
  have hq := Ring.toQueue_insert h.sound { s with phase := .writing }
  have hsize := Ring.size_insert h.sound { s with phase := .writing }
  obtain ⟨hnext, hbuilt⟩ := h.counted hp
  refine ⟨Ring.insert_sound h.sound _,
    by simpa only [Pool.extend, hsize] using Nat.succ_le_of_lt hroom, h.positive, h.limited,
    fun hp' => absurd hp' (by simp [Pool.extend, hp]), fun _ => ?_, fun _ => ?_, fun t ht => ?_,
    fun t ht => ?_⟩
  · simp only [Pool.extend, hsize, hnext, hbuilt, and_self]
  · have hperm : (p.extend s).handles.Perm (s.handle :: p.handles) := by
      have := ((p.extend s).ring.toQueue_perm.map (·.handle)).symm
      simp only [Pool.extend, hq, List.map_cons] at this
      exact this.trans ((p.ring.toQueue_perm.map (·.handle)).cons _)
    have hsnoc : firstHandles (p.ring.size + 1) = firstHandles p.ring.size ++ [s.handle] := by
      simp only [firstHandles, List.range'_concat, List.map_append, hs, hnext]
      simp [Nat.add_comm]
    simp only [Pool.extend, hsize] at hperm ⊢
    rw [hsnoc]
    exact hperm.trans (((h.numbered hp).cons _).trans (List.perm_append_singleton _ _).symm)
  · simp only [Pool.extend] at ht
    rw [Ring.current?_insert h.sound] at ht
    cases ht
    simp
  · simp only [Pool.extend, hq, List.tail_cons] at ht
    cases hc : p.ring.toQueue with
    | nil => rw [hc] at ht; cases ht
    | cons t' rest =>
      rw [hc] at ht
      rcases List.mem_cons.1 ht with rfl | ht
      · exact hr t (by rw [Ring.current?_eq h.sound, hc]; rfl)
      · exact h.behind t (by rw [hc]; exact ht)

/-- After a release all surfaces are released. -/
theorem released_passOn (h : p.Inv) {s : Surface T K V} (hc : p.ring.current? = some s)
    (s' : Surface T K V) (stats : Stats) :
    ∀ t ∈ (p.passOn s' stats).ring.toQueue, t.phase = .released := by
  intro t ht
  rw [toQueue_passOn hc, List.mem_append, List.mem_singleton] at ht
  rcases ht with ht | rfl
  · exact h.behind t ht
  · rfl

theorem passOn (h : p.Inv) {s s' : Surface T K V} {stats : Stats}
    (hc : p.ring.current? = some s) (hh : s'.handle = s.handle)
    (hb : stats.built = p.stats.built) : (p.passOn s' stats).Inv := by
  have hlt : (p.ring.setCurrent { s' with phase := .released }).cursor <
      (p.ring.setCurrent { s' with phase := .released }).size := by
    rw [Ring.size_setCurrent]
    exact Ring.cursor_lt hc
  have hsize : (p.passOn s' stats).ring.size = p.ring.size := Ring.size_setCurrent ..
  have hall := h.released_passOn hc s' stats
  refine ⟨Ring.advance_sound hlt, hsize ▸ h.room, h.positive, h.limited, fun hp => ?_, fun hp => ?_,
    fun hp => ?_, fun t ht => ?_, fun t ht => hall t (List.mem_of_mem_tail ht)⟩
  · rw [h.emptied hp] at hc
    cases hc
  · rw [hsize]
    obtain ⟨hnext, hbuilt⟩ := h.counted hp
    exact ⟨hnext, hb.trans hbuilt⟩
  · rw [hsize]
    have hkept : (p.passOn s' stats).handles = p.handles :=
      handles_setCurrent hc hh .released
    rw [hkept]
    exact h.numbered hp
  · rw [hall t]
    · simp
    · rw [Ring.toQueue_of_current ht]
      exact List.mem_cons_self ..

theorem close (h : p.Inv) (b : Backend W T K V) (w : W) : (Pool.close b (p, w)).1.Inv := by
  simp only [Pool.close]
  split
  · exact h
  · exact ⟨Ring.empty_sound, Nat.zero_le _, h.positive, h.limited, fun _ => rfl,
      fun hp => (by cases hp), fun hp => (by cases hp), fun s hs => (by cases hs),
      fun s hs => (by cases hs)⟩

end Inv

/-! ### Every operation -/

variable {b : Backend W T K V} {p : Pool T K V} {w : W}

/-- A surface is built only while there is room, and only a released one stands in its way. -/
theorem Declined.room {o : Option (Surface T K V)} {p₁ : Pool T K V} {w₁ : W}
    (hd : Declined b p w o p₁ w₁) (h : p.Inv) (hroom : o = none ∨ p.ring.size < p.capacity) :
    p.ring.size < p.capacity ∧ ∀ s, p.ring.current? = some s → s.phase = .released := by
  refine ⟨?_, fun s hc => ?_⟩
  · rcases hroom with rfl | hroom
    · have hempty := Ring.current?_eq h.sound
      rw [hd.current] at hempty
      rw [← Ring.length_toQueue, List.head?_eq_none_iff.1 hempty.symm]
      exact h.positive
    · exact hroom
  · obtain rfl : o = some s := hd.current.symm.trans hc
    exact hd.released

theorem Acquiring.inv (h : p.Inv) {r : EStateM.Result Fault (Pool T K V × W) Handle}
    (ha : Acquiring b p w r) : (Attempt.leaves r).1.Inv := by
  cases ha with
  | closed => exact h
  | again hp hc => exact h.handOut hc rfl
  | ready hp hc => exact h.handOut hc rfl
  | grew hp hd hroom hb =>
    obtain ⟨hring, hcapacity, -, hclosed, -⟩ := hd.ring
    obtain ⟨hroom, hreleased⟩ := hd.room h hroom
    refine (h.declined hd).extend (hclosed.trans hp) ?_ (fun s hs => ?_) (Surface.build_ok b _ hb).1
    · rw [hring, hcapacity]
      exact hroom
    · rw [hring] at hs
      exact hreleased s hs
  | growthFailed hp hd => exact h.declined hd
  | stalled hp hd =>
    refine (h.declined hd).reclaim ?_
    rw [hd.ring.1]
    exact hd.current
  | stallFailed hp hd => exact h.declined hd

/-- What an acquire hands out is out, and stands at the cursor. -/
theorem Acquiring.out {k : Handle} {x : Pool T K V × W} (h : p.Inv)
    (ha : Acquiring b p w (.ok k x)) :
    ∃ s, x.1.ring.current? = some s ∧ s.handle = k ∧ s.phase = .writing := by
  have hset {p : Pool T K V} {s : Surface T K V} (hc : p.ring.current? = some s)
      (s' : Surface T K V) : (p.handOut s').ring.current? = some { s' with phase := .writing } :=
    Ring.current?_setCurrent (Ring.cursor_lt hc) _
  cases ha with
  | again hp hc => exact ⟨_, hset hc _, rfl, rfl⟩
  | ready hp hc => exact ⟨_, hset hc _, rfl, rfl⟩
  | @grew o s p₁ w₁ w₂ hp hd hroom hb =>
    exact ⟨{ s with phase := .writing }, Ring.current?_insert (h.declined hd).sound _,
      (Surface.build_ok b _ hb).1, rfl⟩
  | stalled hp hd => exact ⟨_, hset (by rw [hd.ring.1]; exact hd.current) _, rfl, rfl⟩

theorem Releasing.inv {k : Handle} (h : p.Inv) {r : EStateM.Result Fault (Pool T K V × W) Unit}
    (hr : Releasing b k p w r) : (Attempt.leaves r).1.Inv := by
  cases hr with
  | closed => exact h
  | stale => exact h
  | recorded hp hc => exact h.passOn hc rfl rfl
  | unrecorded hp hc => exact h.passOn hc rfl rfl

/-- Waiting for the consumer changes nothing in the pool. -/
theorem Awaiting.pool {k : Handle} {r : EStateM.Result Fault (Pool T K V × W) Unit}
    (hr : Awaiting b k p w r) : (Attempt.leaves r).1 = p := by
  cases hr <;> rfl

theorem inv_turn {x : Pool T K V × W} (h : x.1.Inv) (op : Op) : (turn b x op).after.1.Inv := by
  cases op with
  | acquire =>
    rw [turn_acquire]
    exact (acquiring b x.1 x.2).inv h
  | release k =>
    rw [turn_release]
    exact (releasing b k x.1 x.2).inv h
  | awaitConsumer k =>
    rw [turn_awaitConsumer, (awaiting b k x.1 x.2).pool]
    exact h
  | close => exact h.close b x.2

theorem inv_run {x : Pool T K V × W} (h : x.1.Inv) (ops : List Op) : (run b x ops).1.Inv := by
  induction ops generalizing x with
  | nil => exact h
  | cons op ops ih => exact ih (inv_turn h op)

/-- A pool is made empty, of an extent that is not, and with a capacity within the limit. -/
theorem make_ok {c : Config} (h : make c = .ok p) :
    p = { size := c.size, capacity := c.capacity, ring := .empty, nextHandle := 1, stats := {}
          closed := false } ∧
      c.size.isSolid = true ∧ 0 < c.capacity ∧ c.capacity ≤ maxSurfaces := by
  simp only [make] at h
  split at h
  · cases h
  · rename_i hsolid
    split at h
    · cases h
    · rename_i hcapacity
      cases h
      exact ⟨rfl, by simpa using hsolid, Nat.pos_of_ne_zero fun h0 => hcapacity (.inl h0),
        Nat.le_of_not_lt fun hlt => hcapacity (.inr hlt)⟩

theorem make_ring {c : Config} (h : make c = .ok p) : p.ring = .empty := by
  rw [(make_ok h).1]

theorem inv_make {c : Config} (h : make c = .ok p) : p.Inv := by
  obtain ⟨rfl, -, hpos, hlimit⟩ := make_ok h
  exact ⟨Ring.empty_sound, Nat.zero_le _, hpos, hlimit, fun _ => rfl, fun _ => ⟨rfl, rfl⟩,
    fun _ => .refl _, fun s hs => (by cases hs), fun s hs => (by cases hs)⟩

end SurfaceRelay.Pool
