import SurfaceRelay.Proofs.Pool.Invariant

/-! Histories of a pool whose world moves on by itself.

Between two requests to a pool its world need not stand still: workers go on with their queues,
and whoever embeds the pool goes on using its domains. A `Course` is a history in which the
world may move on before every turn, by steps of a given kind; the turns of a list of requests
are one in which it never does (`course_turns`). What neither a step of the world nor a turn
changes holds before every turn (`Course.before`) and is carried over any part of a history
(`Course.carry`). A property of the world is not changed by a turn when no call changes it
(`Backend.Keeps.turn`). -/
namespace SurfaceRelay

/-- A property of the world that every call keeps which an acquire may make. -/
structure Backend.KeepsAcquiring {W T K V : Type} (b : Backend W T K V) (J : W → Prop) : Prop
    extends Surface.Untouched b J where
  poll : ∀ k, (b.producer.poll k).Keeps J
  stage : ∀ t s region, (b.producer.stage t s region).Keeps J
  blockOn : ∀ s, (b.producer.blockOn s).Keeps J

/-- A property of the world that every call keeps, and every notice. -/
structure Backend.Keeps {W T K V : Type} (b : Backend W T K V) (J : W → Prop) : Prop
    extends b.KeepsAcquiring J where
  note : ∀ n w, J w → J (b.note n w)
  record : b.producer.record.Keeps fun x => J x.2
  stageView : ∀ v s region, (b.consumer.stage v s region).Keeps J
  blockOnView : ∀ s, (b.consumer.blockOn s).Keeps J

namespace Pool
variable {W T K V : Type} {b : Backend W T K V} {may : W → W → Prop}

/-! ### Histories -/

/-- A history that starts from a pool and its world. -/
inductive Course (b : Backend W T K V) (may : W → W → Prop) :
    Pool T K V × W → List (Turn W T K V) → Prop
  | done {x} : Course b may x []
  | next {p w w' rest} (hmay : may w w') (op : Op)
      (hrest : Course b may (turn b (p, w') op).after rest) :
      Course b may (p, w) (turn b (p, w') op :: rest)

/-- A world that stands still gives the turns of a list of requests. -/
theorem course_turns (x : Pool T K V × W) (ops : List Op) :
    Course b Eq x (turns b x ops) := by
  induction ops generalizing x with
  | nil => exact .done
  | cons op ops ih => exact .next rfl op (ih _)

theorem Course.mono {may' : W → W → Prop} (hmay : ∀ w w', may w w' → may' w w')
    {x : Pool T K V × W} {history : List (Turn W T K V)} (h : Course b may x history) :
    Course b may' x history := by
  induction h with
  | done => exact .done
  | next hw op _ ih => exact .next (hmay _ _ hw) op ih

/-- The world moving on does not change a property of a pool and its world. -/
def Unmoved (may : W → W → Prop) (J : Pool T K V × W → Prop) : Prop :=
  ∀ p w w', may w w' → J (p, w) → J (p, w')

/-- Only the world moves on. -/
theorem unmoved_of_pool {J : Pool T K V → Prop} : Unmoved may fun x => J x.1 :=
  fun _ _ _ _ h => h

/-- The first turn of a history starts from where the world moved on to. -/
theorem Course.split {J : Pool T K V × W → Prop} (hmay : Unmoved may J) {x : Pool T K V × W}
    {t : Turn W T K V} {rest : List (Turn W T K V)} (h : Course b may x (t :: rest)) (hx : J x) :
    t = turn b t.before t.op ∧ J t.before ∧ Course b may t.after rest := by
  cases h with
  | next hw _ hrest => exact ⟨rfl, hmay _ _ _ hw hx, hrest⟩

/-- What the turns of a part of a history keep holds behind it. -/
theorem Course.carry {J : Pool T K V × W → Prop} (hmay : Unmoved may J)
    {first rest : List (Turn W T K V)} {x : Pool T K V × W} (h : Course b may x (first ++ rest))
    (hx : J x)
    (hturn : ∀ t ∈ first, t = turn b t.before t.op → J t.before → J t.after) :
    ∃ y, J y ∧ Course b may y rest := by
  induction first generalizing x with
  | nil => exact ⟨x, hx, h⟩
  | cons t first ih =>
    obtain ⟨ht, hbefore, hrest⟩ := h.split hmay hx
    exact ih hrest (hturn t (List.mem_cons_self ..) ht hbefore)
      fun u hu => hturn u (List.mem_cons_of_mem _ hu)

/-- What every turn keeps holds before every turn. -/
theorem Course.before {J : Pool T K V × W → Prop} (hmay : Unmoved may J)
    (hturn : ∀ x op, J x → J (turn b x op).after) {x : Pool T K V × W}
    {history : List (Turn W T K V)} (h : Course b may x history) (hx : J x) {t : Turn W T K V}
    (ht : t ∈ history) : t = turn b t.before t.op ∧ J t.before := by
  obtain ⟨past, rest, rfl⟩ := List.append_of_mem ht
  obtain ⟨y, hy, hrest⟩ := h.carry hmay hx fun u _ hu hbefore => by
    rw [hu]
    exact hturn _ _ hbefore
  obtain ⟨heq, hbefore, -⟩ := hrest.split hmay hy
  exact ⟨heq, hbefore⟩

/-- What every turn keeps holds after every turn. -/
theorem Course.after {J : Pool T K V × W → Prop} (hmay : Unmoved may J)
    (hturn : ∀ x op, J x → J (turn b x op).after) {x : Pool T K V × W}
    {history : List (Turn W T K V)} (h : Course b may x history) (hx : J x) {t : Turn W T K V}
    (ht : t ∈ history) : J t.after := by
  obtain ⟨hsame, hbefore⟩ := h.before hmay hturn hx ht
  rw [hsame]
  exact hturn _ _ hbefore

/-! ### What no call changes -/

section
variable {J : W → Prop} {p : Pool T K V} {w : W} {k : Handle}
  (hnote : ∀ n w, n.fromPool = true → J w → J (b.note n w))
include hnote

/-- What polling keeps. -/
theorem Declined.polled (hpoll : ∀ k, (b.producer.poll k).Keeps J) {o : Option (Surface T K V)}
    {p₁ : Pool T K V} {w₁ : W} (h : Declined b p w o p₁ w₁) (hw : J w) : J w₁ := by
  cases h with
  | vacant => exact hw
  | unarmed => exact hw
  | pending hc hr ha hpolled => exact (hpoll _).ok hpolled hw
  | unknown hc hr ha hpolled => exact hnote _ _ rfl ((hpoll _).error hpolled hw)

theorem Declined.world (hJ : b.KeepsAcquiring J) {o : Option (Surface T K V)} {p₁ : Pool T K V}
    {w₁ : W} (h : Declined b p w o p₁ w₁) (hw : J w) : J w₁ := h.polled hnote hJ.poll hw

/-- What making and destroying keep, polling, and waits for surfaces that the pool has. -/
theorem Acquiring.kept (hJ : Surface.Untouched b J) (hpoll : ∀ k, (b.producer.poll k).Keeps J)
    (hdrain : ∀ s ∈ p.ring.slots, (b.producer.drain s.texture s.staging p.stagingSize).Keeps J)
    {r : EStateM.Result Fault (Pool T K V × W) Handle} (h : Acquiring b p w r) (hw : J w) :
    J (Attempt.leaves r).2 := by
  have hbuild (k : Handle) (size stagingSize : Extent) :=
    Surface.build_keeps k (fun _ _ _ w => hnote _ w rfl) hJ size stagingSize
  have hwait {s : Surface T K V} {p₁ : Pool T K V} {w₁ : W}
      (hd : Declined b p w (some s) p₁ w₁) :
      (b.producer.drain s.texture s.staging p₁.stagingSize).Keeps J := by
    rw [stagingSize, hd.ring.2.2.1]
    exact hdrain s (Ring.current?_mem hd.current)
  cases h with
  | closed => exact hw
  | again => exact hw
  | ready hp hc hr ha hpolled => exact (hpoll _).ok hpolled hw
  | grew hp hd hroom hb => exact hnote _ _ rfl ((hbuild _ _ _).ok hb (hd.polled hnote hpoll hw))
  | growthFailed hp hd hroom hb =>
    exact hnote _ _ rfl ((hbuild _ _ _).error hb (hd.polled hnote hpoll hw))
  | stalled hp hd hfull hdrained =>
    exact hnote _ _ rfl ((hwait hd).ok hdrained (hd.polled hnote hpoll hw))
  | stallFailed hp hd hfull hlost =>
    exact hnote _ _ rfl ((hwait hd).error hlost (hd.polled hnote hpoll hw))

theorem Acquiring.world (hJ : b.KeepsAcquiring J)
    {r : EStateM.Result Fault (Pool T K V × W) Handle} (h : Acquiring b p w r) (hw : J w) :
    J (Attempt.leaves r).2 :=
  h.kept hnote hJ.toUntouched hJ.poll
    (fun s _ => Attempt.keeps_bind (hJ.stage s.texture s.staging _) fun _ => hJ.blockOn s.staging)
    hw

theorem Releasing.world (hrecord : b.producer.record.Keeps fun x => J x.2)
    {r : EStateM.Result Fault (Pool T K V × W) Unit} (h : Releasing b k p w r) (hw : J w) :
    J (Attempt.leaves r).2 := by
  cases h with
  | closed => exact hw
  | stale => exact hw
  | recorded hp hc hh hs hrec => exact hrecord.ok hrec hw
  | unrecorded hp hc hh hs hrec => exact hnote _ _ rfl (hrecord.error hrec hw)

theorem Awaiting.kept (hdrain : ∀ s, p.find? k = some s →
      (b.consumer.drain s.view s.viewStaging p.stagingSize).Keeps J)
    {r : EStateM.Result Fault (Pool T K V × W) Unit} (h : Awaiting b k p w r) (hw : J w) :
    J (Attempt.leaves r).2 := by
  cases h with
  | closed => exact hw
  | stale => exact hw
  | landed hp hf hlanded => exact (hdrain _ hf).ok hlanded hw
  | failed hp hf hlost => exact hnote _ _ rfl ((hdrain _ hf).error hlost hw)

theorem Awaiting.world (hdrain : ∀ v s region, (b.consumer.drain v s region).Keeps J)
    {r : EStateM.Result Fault (Pool T K V × W) Unit} (h : Awaiting b k p w r)
    (hw : J w) : J (Attempt.leaves r).2 := h.kept hnote (fun _ _ => hdrain _ _ _) hw

theorem close_world (hJ : Surface.Untouched b J) {x : Pool T K V × W} (hw : J x.2) :
    J (close b x).2 := by
  simp only [close]
  split
  · exact hw
  · exact hnote _ _ rfl (Surface.dismantleAll_keeps (fun _ _ _ w => hnote _ w rfl) hJ _ hw)

end
end Pool

/-- A property of the world that every call keeps which a request to this pool may make. -/
structure Backend.KeepsFor {W T K V : Type} (b : Backend W T K V) (J : W → Prop) (p : Pool T K V) :
    Prop extends Surface.Untouched b J where
  note : ∀ n w, n.fromPool = true → J w → J (b.note n w)
  poll : ∀ k, (b.producer.poll k).Keeps J
  record : b.producer.record.Keeps fun x => J x.2
  drain : ∀ s ∈ p.ring.slots, (b.producer.drain s.texture s.staging p.stagingSize).Keeps J
  drainView : ∀ s ∈ p.ring.slots, (b.consumer.drain s.view s.viewStaging p.stagingSize).Keeps J

/-- What the calls of a request keep, its turn keeps. -/
theorem Backend.KeepsFor.turn {W T K V : Type} {b : Backend W T K V} {J : W → Prop}
    {x : Pool T K V × W} (hJ : b.KeepsFor J x.1) (hx : J x.2) (op : Pool.Op) :
    J (Pool.turn b x op).after.2 := by
  cases op with
  | acquire =>
    rw [Pool.turn_acquire]
    exact (Pool.acquiring b x.1 x.2).kept hJ.note hJ.toUntouched hJ.poll hJ.drain hx
  | release k =>
    rw [Pool.turn_release]
    exact (Pool.releasing b k x.1 x.2).world hJ.note hJ.record hx
  | awaitConsumer k =>
    rw [Pool.turn_awaitConsumer]
    exact (Pool.awaiting b k x.1 x.2).kept hJ.note
      (fun s hs => hJ.drainView s (Ring.find?_some hs).1) hx
  | close => exact Pool.close_world hJ.note hJ.toUntouched hx

/-- What every call keeps, every turn keeps. -/
theorem Backend.Keeps.turn {W T K V : Type} {b : Backend W T K V} {J : W → Prop} (hJ : b.Keeps J)
    {x : Pool T K V × W} (hx : J x.2) (op : Pool.Op) : J (Pool.turn b x op).after.2 := by
  refine Backend.KeepsFor.turn { hJ with note := ?_, drain := ?_, drainView := ?_ } hx op
  · exact fun n w _ => hJ.note n w
  · exact fun s _ => Attempt.keeps_bind (hJ.stage _ _ _) fun _ => hJ.blockOn _
  · exact fun s _ => Attempt.keeps_bind (hJ.stageView _ _ _) fun _ => hJ.blockOnView _

end SurfaceRelay
