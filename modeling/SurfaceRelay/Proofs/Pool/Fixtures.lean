import SurfaceRelay.Proofs.Pool.Course

/-! What of a surface never changes.

A surface keeps its handle and its images as long as it lives: they are its fixture. Operations
move surfaces about and change their phases and markers, but they leave the fixtures of a pool as
they are, except that a surface that is built brings its own and that tearing the pool down takes
all of them away (`refitted_turn`). Whatever is said of fixtures is said by looking at these three
cases. Handles are looked up through the cursor and through a ring whose positions shift; what is
found under a handle stays the same all the same (`Course.sameImages`). -/
namespace SurfaceRelay
variable {W T K V : Type}

/-- The handle and the images of a surface. -/
structure Fixture (T V : Type) where
  handle : Handle
  texture : T
  staging : T
  view : V
  viewStaging : V
deriving DecidableEq

def Surface.fixture (s : Surface T K V) : Fixture T V :=
  ⟨s.handle, s.texture, s.staging, s.view, s.viewStaging⟩

namespace Pool

/-- The fixtures of the surfaces, in ring order. -/
def fixtures (p : Pool T K V) : List (Fixture T V) := p.ring.slots.map (·.fixture)

variable {b : Backend W T K V} {p p₁ : Pool T K V} {w w₁ : W} {s : Surface T K V}
  {f : Fixture T V}

theorem mem_fixtures : f ∈ p.fixtures ↔ ∃ s ∈ p.ring.slots, s.fixture = f := List.mem_map

theorem handles_eq (p : Pool T K V) : p.handles = p.fixtures.map (·.handle) := by
  rw [handles, fixtures, List.map_map]
  rfl

theorem length_fixtures (p : Pool T K V) : p.fixtures.length = p.ring.size := List.length_map _

theorem fixture_mem (hs : s ∈ p.ring.slots) : s.fixture ∈ p.fixtures := List.mem_map_of_mem hs

/-- A surface is replaced by itself in another phase. -/
theorem fixtures_setCurrent {s' : Surface T K V} (hc : p.ring.current? = some s)
    (h : s'.fixture = s.fixture) : (p.ring.setCurrent s').slots.map (·.fixture) = p.fixtures :=
  Ring.map_setCurrent (·.fixture) hc h

theorem fixtures_handOut {s' : Surface T K V} (hc : p.ring.current? = some s)
    (h : s'.fixture = s.fixture) : (p.handOut s').fixtures = p.fixtures := fixtures_setCurrent hc h

theorem fixtures_passOn {s' : Surface T K V} {stats : Stats} (hc : p.ring.current? = some s)
    (h : s'.fixture = s.fixture) : (p.passOn s' stats).fixtures = p.fixtures :=
  fixtures_setCurrent hc h

theorem fixtures_insert {ring : Ring (Surface T K V)} (h : ring.Sound) (s : Surface T K V) :
    ((ring.insert s).slots.map (·.fixture)).Perm (s.fixture :: ring.slots.map (·.fixture)) := by
  have hslots : (ring.insert s).slots.Perm (s :: ring.slots) :=
    (ring.insert s).toQueue_perm.symm.trans
      (Ring.toQueue_insert h s ▸ ring.toQueue_perm.cons s)
  exact hslots.map _

/-- What is looked up under the handle of a fixture is the fixture's. -/
theorem Inv.lookup (hinv : p.Inv) (hf : f ∈ p.fixtures) :
    p.texture? f.handle = some f.texture ∧ p.view? f.handle = some f.view := by
  obtain ⟨s, hs, rfl⟩ := mem_fixtures.1 hf
  have hfind : p.find? s.fixture.handle = some s := hinv.find?_eq_some.2 ⟨hs, rfl⟩
  rw [texture?, view?, hfind]
  exact ⟨rfl, rfl⟩

/-- Whatever can be looked up belongs to a fixture. -/
theorem Inv.fixture_of_lookup (hinv : p.Inv) {k : Handle} :
    (∀ t, p.texture? k = some t → ∃ f ∈ p.fixtures, f.handle = k ∧ f.texture = t) ∧
      ∀ v, p.view? k = some v → ∃ f ∈ p.fixtures, f.handle = k ∧ f.view = v := by
  refine ⟨fun t ht => ?_, fun v hv => ?_⟩
  · obtain ⟨s, hs, rfl⟩ := Option.map_eq_some_iff.1 ht
    obtain ⟨hmem, rfl⟩ := hinv.find?_eq_some.1 hs
    exact ⟨_, fixture_mem hmem, rfl, rfl⟩
  · obtain ⟨s, hs, rfl⟩ := Option.map_eq_some_iff.1 hv
    obtain ⟨hmem, rfl⟩ := hinv.find?_eq_some.1 hs
    exact ⟨_, fixture_mem hmem, rfl, rfl⟩

theorem Inv.fixtures_nodup (hinv : p.Inv) : (p.fixtures.map (·.handle)).Nodup :=
  p.handles_eq ▸ hinv.handles_nodup

/-! ### Every turn -/

/-- What becomes of the fixtures of a pool. -/
inductive Refitted (b : Backend W T K V) (x : Pool T K V × W) : Pool T K V × W → Prop
  | kept {y} (hf : y.1.fixtures = x.1.fixtures) (hclosed : y.1.closed = x.1.closed) :
      Refitted b x y
  | built {o p₁ w₁ s w₂ p₂} (n : Notice) (hd : Declined b x.1 x.2 o p₁ w₁)
      (hb : Surface.build b ⟨x.1.nextHandle⟩ x.1.size x.1.stagingSize w₁ = .ok s w₂)
      (hf : p₂.fixtures.Perm (s.fixture :: x.1.fixtures)) (hclosed : p₂.closed = x.1.closed) :
      Refitted b x (p₂, b.note n w₂)
  | emptied {y} (hf : y.1.fixtures = []) (hclosed : y.1.closed = true) : Refitted b x y

theorem Declined.fixtures {o : Option (Surface T K V)} (hd : Declined b p w o p₁ w₁) :
    p₁.fixtures = p.fixtures := by
  rw [Pool.fixtures, Pool.fixtures, hd.ring.1]

theorem Acquiring.refitted (hinv : p.Inv) {r : EStateM.Result Fault (Pool T K V × W) Handle}
    (ha : Acquiring b p w r) : Refitted b (p, w) (Attempt.leaves r) := by
  cases ha with
  | closed => exact .kept rfl rfl
  | again hp hc => exact .kept (fixtures_handOut hc rfl) rfl
  | ready hp hc => exact .kept (fixtures_handOut hc rfl) rfl
  | @grew o s p₁ w₁ w₂ hp hd hroom hb =>
    obtain ⟨-, -, hsize, hclosed, hnext, -⟩ := hd.ring
    have hinsert := fixtures_insert (hinv.declined hd).sound { s with phase := .writing }
    rw [stagingSize, hnext, hsize] at hb
    refine .built _ hd hb ?_ hclosed
    show (p₁.extend s).fixtures.Perm _
    rw [← hd.fixtures]
    exact hinsert
  | growthFailed hp hd => exact .kept hd.fixtures hd.ring.2.2.2.1
  | @stalled s p₁ w₁ w₂ hp hd =>
    have hc : p₁.ring.current? = some s := by rw [hd.ring.1, hd.current]
    exact .kept ((fixtures_handOut hc rfl).trans hd.fixtures) hd.ring.2.2.2.1
  | stallFailed hp hd => exact .kept hd.fixtures hd.ring.2.2.2.1

theorem Releasing.fixtures {k : Handle} {r : EStateM.Result Fault (Pool T K V × W) Unit}
    (hr : Releasing b k p w r) : (Attempt.leaves r).1.fixtures = p.fixtures := by
  cases hr with
  | closed | stale => rfl
  | recorded hp hc | unrecorded hp hc => exact fixtures_passOn hc rfl

theorem Releasing.refitted {k : Handle} {r : EStateM.Result Fault (Pool T K V × W) Unit}
    (hr : Releasing b k p w r) : Refitted b (p, w) (Attempt.leaves r) := by
  refine .kept hr.fixtures ?_
  cases hr <;> rfl

/-- A turn leaves the fixtures as they are, adds one, or takes them away. -/
theorem refitted_turn {x : Pool T K V × W} (hinv : x.1.Inv) (op : Op) :
    Refitted b x (turn b x op).after := by
  cases op with
  | acquire =>
    rw [turn_acquire]
    exact (acquiring b x.1 x.2).refitted hinv
  | release k =>
    rw [turn_release]
    exact (releasing b k x.1 x.2).refitted
  | awaitConsumer k =>
    have hpool := (awaiting b k x.1 x.2).pool
    rw [turn_awaitConsumer]
    exact .kept (congrArg _ hpool) (congrArg _ hpool)
  | close =>
    rw [turn_close]
    by_cases hclosed : x.1.closed = true
    · have hsame : close b x = x := if_pos hclosed
      rw [hsame]
      exact .kept rfl rfl
    · simp only [close, if_neg hclosed]
      exact .emptied rfl rfl

/-- A turn that fails leaves them as they are. -/
theorem fixtures_of_error {x : Pool T K V × W} {op : Op} {e : Fault}
    (h : (turn b x op).answer = .error e) : (turn b x op).after.1.fixtures = x.1.fixtures := by
  cases op with
  | acquire =>
    have ha : Acquiring b x.1 x.2 (acquire b x) := acquiring b x.1 x.2
    rw [turn_acquire] at h ⊢
    rcases hres : acquire b x with ⟨k, y⟩ | ⟨e', y⟩ <;> rw [hres] at ha h
    · cases h
    · cases ha with
      | closed => rfl
      | growthFailed hp hd | stallFailed hp hd => exact hd.fixtures
  | release k =>
    rw [turn_release]
    exact (releasing b k x.1 x.2).fixtures
  | awaitConsumer k =>
    rw [turn_awaitConsumer]
    exact congrArg Pool.fixtures (awaiting b k x.1 x.2).pool
  | close => cases h

theorem Acquiring.size {r : EStateM.Result Fault (Pool T K V × W) Handle}
    (ha : Acquiring b p w r) : (Attempt.leaves r).1.size = p.size := by
  cases ha with
  | closed | again | ready => rfl
  | grew hp hd | growthFailed hp hd | stalled hp hd | stallFailed hp hd => exact hd.ring.2.2.1

theorem Releasing.size {k : Handle} {r : EStateM.Result Fault (Pool T K V × W) Unit}
    (hr : Releasing b k p w r) : (Attempt.leaves r).1.size = p.size := by
  cases hr <;> rfl

/-- The extent of a pool is settled when it is made. -/
theorem size_turn (x : Pool T K V × W) (op : Op) : (turn b x op).after.1.size = x.1.size := by
  cases op with
  | acquire =>
    rw [turn_acquire]
    exact (acquiring b x.1 x.2).size
  | release k =>
    rw [turn_release]
    exact (releasing b k x.1 x.2).size
  | awaitConsumer k =>
    rw [turn_awaitConsumer]
    exact congrArg Pool.size (awaiting b k x.1 x.2).pool
  | close =>
    rw [turn_close]
    simp only [close]
    split <;> rfl

/-! ### Over a history -/

/-- As long as the pool stands, it has the fixture. -/
def Keeps (p : Pool T K V) (f : Fixture T V) : Prop :=
  p.Inv ∧ (p.closed = false → f ∈ p.fixtures)

theorem keeps_turn {x : Pool T K V × W} (op : Op) (h : x.1.Keeps f) :
    (turn b x op).after.1.Keeps f := by
  refine ⟨inv_turn h.1 op, fun hopen => ?_⟩
  have hrefitted := refitted_turn (b := b) h.1 op
  generalize (turn b x op).after = y at hrefitted hopen
  cases hrefitted with
  | kept hf hclosed => exact hf ▸ h.2 (hclosed ▸ hopen)
  | built n hd hb hf hclosed =>
    exact hf.mem_iff.2 (List.mem_cons_of_mem _ (h.2 (hclosed ▸ hopen)))
  | emptied hf hclosed => exact absurd hopen (by simp [hclosed])

/-- The surface that was handed out is in the pool. -/
theorem fixture_of_lent {x : Pool T K V × W} (hinv : x.1.Inv) {op : Op} {h : Handle}
    (hlent : (turn b x op).answer = .ok (some h)) :
    ∃ f ∈ (turn b x op).after.1.fixtures, f.handle = h := by
  obtain ⟨rfl, hacquire⟩ := acquire_of_answer b hlent
  have ha : Acquiring b x.1 x.2 (acquire b x) := acquiring b x.1 x.2
  rw [hacquire] at ha
  obtain ⟨s, hc, rfl, -⟩ := ha.out hinv
  exact ⟨_, fixture_mem (Ring.current?_mem hc), rfl⟩

/-- From when a surface is handed out until the pool is torn down, the same images are found under
its handle. -/
def SameImages (history : List (Turn W T K V)) : Prop :=
  ∀ past t later h, history = past ++ t :: later → t.answer = .ok (some h) →
    ∃ texture view, ∀ u ∈ t :: later, u.after.1.closed = false →
      u.after.1.texture? h = some texture ∧ u.after.1.view? h = some view

theorem Course.sameImages {may : W → W → Prop} {x : Pool T K V × W} (hinv : x.1.Inv)
    {history : List (Turn W T K V)} (hcourse : Course b may x history) : SameImages history := by
  rintro past t later h rfl hlent
  obtain ⟨y, hy, hcourse⟩ :=
    hcourse.carry (unmoved_of_pool (J := Inv)) hinv fun u _ hu hbefore => by
      rw [hu]
      exact inv_turn hbefore _
  obtain ⟨ht, hbefore, hlater⟩ := hcourse.split (unmoved_of_pool (J := Inv)) hy
  obtain ⟨f, hf, rfl⟩ : ∃ f ∈ t.after.1.fixtures, f.handle = h := by
    rw [ht] at hlent ⊢
    exact fixture_of_lent hbefore hlent
  have hafter : t.after.1.Keeps f := by
    refine ⟨?_, fun _ => hf⟩
    rw [ht]
    exact inv_turn hbefore _
  refine ⟨f.texture, f.view, fun u hu hopen => ?_⟩
  have hkeeps : u.after.1.Keeps f := by
    rcases List.mem_cons.1 hu with rfl | hu
    · exact hafter
    · exact hlater.after (unmoved_of_pool (J := fun p => p.Keeps f)) (fun _ op => keeps_turn op)
        hafter hu
  exact hkeeps.1.lookup (hkeeps.2 hopen)

end Pool
end SurfaceRelay
