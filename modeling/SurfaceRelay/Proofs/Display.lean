import SurfaceRelay.Proofs.Lines

/-! A presenter in step with its pool.

A presenter keeps a handle of its own for what is on display. As long as it is driven through the
presenter alone, that handle names the surface at the cursor of the pool, and that surface is out
(`InStep`): presenting begins with a release, which cannot fail then (`retract_inStep`), an
acquire leaves what it hands out at the cursor, and neither a conversion nor a wait moves
anything (`Filling`). So every frame that went on display costs one marker, recorded when it goes
off, and the books of markers and frames balance over every run (`presenter_in_step`). -/
namespace SurfaceRelay
variable {W F T K V β : Type}

/-! ### Lines that are counted -/

namespace Entry

/-- The marker that was to be recorded. -/
def recorded? : Entry F T K V → Option K
  | producer (.record k _) => some k
  | _ => none

/-- The frame that was converted, the view it was to be written into, and the answer. -/
def converted? : Entry F T K V → Option (F × V × Except Fault Unit)
  | consumer (.convert frame view answer) => some (frame, view, answer)
  | _ => none

/-- The surface that could not be released when it went off display. -/
def ignored? : Entry F T K V → Option Handle
  | notice (.retractIgnored h _) => some h
  | _ => none

theorem errand_of_recorded {e : Entry F T K V} {k : K} (h : e.recorded? = some k) :
    e.errand = .record := by
  rcases e with (_ | _ | _ | _ | _ | _ | _) | _ | _ <;> cases h
  rfl

theorem errand_of_converted {e : Entry F T K V} {c : F × V × Except Fault Unit}
    (h : e.converted? = some c) : e.errand = .convert := by
  rcases e with _ | (_ | _ | _) | _ <;> cases h
  rfl

theorem errand_of_ignored {e : Entry F T K V} {k : Handle} (h : e.ignored? = some k) :
    e.errand = .remark := by
  rcases e with _ | _ | (_ | _ | _ | _ | _ | _ | _ | _ | _ | _ | _) <;> cases h
  rfl

end Entry

/-- The markers that were to be recorded. -/
def recordings (lines : List (Entry F T K V)) : List K := lines.filterMap Entry.recorded?

/-- The conversions, with their answers. -/
def conversions (lines : List (Entry F T K V)) : List (F × V × Except Fault Unit) :=
  lines.filterMap Entry.converted?

/-- The surfaces that could not be released when they went off display. -/
def ignored (lines : List (Entry F T K V)) : List Handle := lines.filterMap Entry.ignored?

/-- All that is counted of a trace. -/
def account (lines : List (Entry F T K V)) :
    List K × List (F × V × Except Fault Unit) × List Handle :=
  (recordings lines, conversions lines, ignored lines)

/-- Lines on other errands are not picked. -/
theorem Extends.filterMap {errands : List Errand} {past : List (Entry F T K V)}
    {r : Recorded W (Entry F T K V)} (h : Extends errands past r)
    {f : Entry F T K V → Option β} {x : Errand} (hf : ∀ e a, f e = some a → e.errand = x)
    (hx : x ∉ errands) : r.trace.filterMap f = past.filterMap f := by
  obtain ⟨lines, hlines, hall⟩ := h
  have hnone : lines.filterMap f = [] := by
    rw [List.filterMap_eq_nil_iff]
    intro e he
    by_contra hsome
    obtain ⟨a, ha⟩ := Option.ne_none_iff_exists'.1 hsome
    exact hx (hf e a ha ▸ hall e he)
  rw [hlines, List.filterMap_append, hnone, List.append_nil]

/-- Most operations leave the account as it is. -/
theorem Extends.account {errands : List Errand} {past : List (Entry F T K V)}
    {r : Recorded W (Entry F T K V)} (h : Extends errands past r) (hrecord : .record ∉ errands)
    (hconvert : .convert ∉ errands) (hremark : .remark ∉ errands) :
    account r.trace = account past := by
  simp only [SurfaceRelay.account, recordings, conversions, ignored]
  rw [h.filterMap (fun _ _ => Entry.errand_of_recorded) hrecord,
    h.filterMap (fun _ _ => Entry.errand_of_converted) hconvert,
    h.filterMap (fun _ _ => Entry.errand_of_ignored) hremark]

namespace Presenter

/-! ### In step -/

/-- What is on display is the surface at the cursor of the pool, and it is out. -/
structure InStep (s : Presenter T K V) : Prop where
  inv : s.pool.Inv
  shown : ∀ h, s.shown = some h →
    ∃ surface, s.pool.ring.current? = some surface ∧ surface.handle = h ∧
      surface.phase = .writing

/-- Nothing is on display over a pool that was torn down. -/
theorem InStep.dark {s : Presenter T K V} (h : s.InStep) (hclosed : s.pool.closed = true) :
    s.shown = none := by
  cases hs : s.shown with
  | none => rfl
  | some k =>
    obtain ⟨surface, hc, -⟩ := h.shown k hs
    rw [h.inv.emptied hclosed] at hc
    cases hc

/-- What samples the display samples the surface at the cursor. -/
theorem InStep.shownTexture {s : Presenter T K V} (h : s.InStep) {k : Handle}
    (hk : s.shown = some k) :
    ∃ surface, s.pool.ring.current? = some surface ∧ surface.handle = k ∧
      surface.phase = .writing ∧ s.shownTexture? = some surface.texture := by
  obtain ⟨surface, hc, hh, hs⟩ := h.shown k hk
  have hfind := h.inv.find?_eq_some.2 ⟨Ring.current?_mem hc, hh⟩
  refine ⟨surface, hc, hh, hs, ?_⟩
  simp only [shownTexture?, hk, Option.bind_some, Pool.texture?, hfind, Option.map_some]

theorem inStep_dark {s : Presenter T K V} (hinv : s.pool.Inv) (hs : s.shown = none) : s.InStep :=
  ⟨hinv, fun k hk => by rw [hs] at hk; cases hk⟩

/-! ### Retracting -/

/-- The pool and its world when what was on display has been released. -/
def Retracts (b : Backend W T K V) (x : Presenter T K V × W) (q : Pool T K V × W) : Prop :=
  match x.1.shown with
  | some h => Pool.release b h (x.1.pool, x.2) = .ok () q
  | none => q = (x.1.pool, x.2)

variable {b : Backend W T K V} {convert : Converter W F V}

/-- A surface that is out at the cursor can be released, and one marker is to be recorded. -/
theorem release_out {p : Pool T K V} (hinv : p.Inv) {s : Surface T K V}
    (hc : p.ring.current? = some s) (hs : s.phase = .writing) (r : Recorded W (Entry F T K V)) :
    ∃ q, Pool.release b.recorded s.handle (p, r) = .ok () q ∧ q.1.Inv ∧
      account q.2.trace =
        (recordings r.trace ++ [s.marker], conversions r.trace, ignored r.trace) := by
  have hr : Pool.Releasing b.recorded s.handle p r (Pool.release b.recorded s.handle (p, r)) :=
    Pool.releasing b.recorded s.handle p r
  have hinv' := hr.inv hinv
  generalize Pool.release b.recorded s.handle (p, r) = res at hr hinv'
  cases hr with
  | closed hp =>
    rw [hinv.emptied hp] at hc
    cases hc
  | stale hp hstale =>
    rcases hstale s hc with hne | hne
    · exact absurd rfl hne
    · exact absurd hs hne
  | @recorded s' k r' hp hc' hh hs' hrec =>
    obtain rfl : s = s' := Option.some.inj (hc.symm.trans hc')
    refine ⟨_, rfl, hinv', ?_⟩
    show account r'.trace = _
    rw [Pool.recording_ok hrec]
    simp [account, recordings, conversions, ignored, Entry.recorded?, Entry.converted?,
      Entry.ignored?]
  | @unrecorded s' e k r' hp hc' hh hs' hrec =>
    obtain rfl : s = s' := Option.some.inj (hc.symm.trans hc')
    refine ⟨_, rfl, hinv', ?_⟩
    show account (r'.trace ++ _) = _
    rw [Pool.recording_error hrec]
    simp [account, recordings, conversions, ignored, Entry.recorded?, Entry.converted?,
      Entry.ignored?]

/-- Retracting releases what is on display, and that cannot fail. -/
theorem retract_inStep {x : Presenter T K V × Recorded W (Entry F T K V)} (h : x.1.InStep) :
    ∃ q, Retracts b.recorded x q ∧
      retract b.recorded x = ({ x.1 with pool := q.1, shown := none }, q.2) ∧ q.1.Inv ∧
      (recordings q.2.trace).length = (recordings x.2.trace).length + x.1.shown.isSome.toNat ∧
      conversions q.2.trace = conversions x.2.trace ∧ ignored q.2.trace = ignored x.2.trace := by
  obtain ⟨⟨pool, shown, dropped⟩, r⟩ := x
  cases shown with
  | none => exact ⟨(pool, r), rfl, rfl, h.inv, rfl, rfl, rfl⟩
  | some k =>
    obtain ⟨s, hc, rfl, hs⟩ := h.shown k rfl
    obtain ⟨q, hrelease, hinv, haccount⟩ := release_out (b := b) h.inv hc hs r
    simp only [account, Prod.mk.injEq] at haccount
    obtain ⟨hrecordings, hconversions, hignored⟩ := haccount
    refine ⟨q, hrelease, ?_, hinv, ?_, hconversions, hignored⟩
    · simp only [retract, hrelease]
    · rw [hrecordings, List.length_append]
      rfl

/-! ### Filling a surface -/

/-- The ways through filling a surface: whatever was acquired is found under its handle. -/
inductive Filling (b : Backend W T K V) (convert : Converter W F V) (frame : F)
    (q : Pool T K V × W) : EStateM.Result Fault (Pool T K V × W) Handle → Prop
  | refused {e q₁} (ha : Pool.acquire b q = .error e q₁) : Filling b convert frame q (.error e q₁)
  | unconverted {s p₁ w₁ e w₂} (ha : Pool.acquire b q = .ok s.handle (p₁, w₁))
      (hc : p₁.ring.current? = some s) (hs : s.phase = .writing)
      (hv : convert frame s.view w₁ = .error e w₂) :
      Filling b convert frame q (.error e (p₁, w₂))
  | lost {s p₁ w₁ w₂ e w₃} (ha : Pool.acquire b q = .ok s.handle (p₁, w₁))
      (hc : p₁.ring.current? = some s) (hs : s.phase = .writing)
      (hv : convert frame s.view w₁ = .ok () w₂)
      (hw : Pool.awaitConsumer b s.handle (p₁, w₂) = .error e (p₁, w₃)) :
      Filling b convert frame q (.error e (p₁, w₃))
  | filled {s p₁ w₁ w₂ w₃} (ha : Pool.acquire b q = .ok s.handle (p₁, w₁))
      (hc : p₁.ring.current? = some s) (hs : s.phase = .writing)
      (hv : convert frame s.view w₁ = .ok () w₂)
      (hw : Pool.awaitConsumer b s.handle (p₁, w₂) = .ok () (p₁, w₃)) :
      Filling b convert frame q (.ok s.handle (p₁, w₃))

theorem filling (b : Backend W T K V) (convert : Converter W F V) (frame : F)
    {q : Pool T K V × W} (hinv : q.1.Inv) : Filling b convert frame q (fill b convert frame q) := by
  have ha : Pool.Acquiring b q.1 q.2 (Pool.acquire b q) := Pool.acquiring b q.1 q.2
  rcases hacquire : Pool.acquire b q with ⟨h, p₁, w₁⟩ | ⟨e, q₁⟩
  · rw [hacquire] at ha
    have hinv₁ : p₁.Inv := ha.inv hinv
    obtain ⟨s, hc, rfl, hs⟩ := ha.out hinv
    have hview : p₁.view? s.handle = some s.view := by
      rw [Pool.view?, hinv₁.find?_eq_some.2 ⟨Ring.current?_mem hc, rfl⟩, Option.map_some]
    simp only [fill, hacquire, hview]
    rcases hv : convert frame s.view w₁ with ⟨_, w₂⟩ | ⟨e, w₂⟩
    · have hpool := (Pool.awaiting b s.handle p₁ w₂).pool
      dsimp only
      rcases hw : Pool.awaitConsumer b s.handle (p₁, w₂) with ⟨_, p₂, w₃⟩ | ⟨e, p₂, w₃⟩
      · rw [hw] at hpool
        obtain rfl : p₂ = p₁ := hpool
        exact .filled hacquire hc hs hv hw
      · rw [hw] at hpool
        obtain rfl : p₂ = p₁ := hpool
        exact .lost hacquire hc hs hv hw
    · exact .unconverted hacquire hc hs hv
  · simp only [fill, hacquire]
    exact .refused hacquire

/-- What filling a surface leaves: a success has the surface at the cursor, and it is out. -/
theorem Filling.inStep {frame : F} {q : Pool T K V × W} (hinv : q.1.Inv)
    {res : EStateM.Result Fault (Pool T K V × W) Handle} (h : Filling b convert frame q res) :
    (Attempt.leaves res).1.Inv ∧ ∀ k y, res = .ok k y →
      ∃ s, y.1.ring.current? = some s ∧ s.handle = k ∧ s.phase = .writing := by
  have hacquired {p₁ : Pool T K V} {w₁ : W} {k : Handle}
      (ha : Pool.acquire b q = .ok k (p₁, w₁)) : p₁.Inv := by
    have hacquiring : Pool.Acquiring b q.1 q.2 (Pool.acquire b q) := Pool.acquiring b q.1 q.2
    rw [ha] at hacquiring
    exact hacquiring.inv hinv
  cases h with
  | @refused e q₁ ha =>
    have hacquiring : Pool.Acquiring b q.1 q.2 (Pool.acquire b q) := Pool.acquiring b q.1 q.2
    rw [ha] at hacquiring
    exact ⟨hacquiring.inv hinv, fun _ _ h => (by cases h)⟩
  | unconverted ha => exact ⟨hacquired ha, fun _ _ h => (by cases h)⟩
  | lost ha => exact ⟨hacquired ha, fun _ _ h => (by cases h)⟩
  | filled ha hc hs =>
    refine ⟨hacquired ha, ?_⟩
    rintro _ _ ⟨⟩
    exact ⟨_, hc, rfl, hs⟩

/-- An acquire and a wait leave the account as it is. -/
theorem acquire_account {q : Pool T K V × Recorded W (Entry F T K V)}
    {res : EStateM.Result Fault (Pool T K V × _) Handle} (h : Pool.acquire b.recorded q = res) :
    account (Attempt.leaves res).2.trace = account q.2.trace :=
  h ▸ (Pool.acquiring b.recorded q.1 q.2).errands.account (by decide) (by decide) (by decide)

theorem awaitConsumer_account {k : Handle} {q : Pool T K V × Recorded W (Entry F T K V)}
    {res : EStateM.Result Fault (Pool T K V × _) Unit}
    (h : Pool.awaitConsumer b.recorded k q = res) :
    account (Attempt.leaves res).2.trace = account q.2.trace :=
  h ▸ (Pool.awaiting b.recorded k q.1 q.2).errands.account (by decide) (by decide) (by decide)

theorem account_convert (lines : List (Entry F T K V)) (frame : F) (view : V)
    (answer : Except Fault Unit) :
    account (lines ++ [.consumer (.convert frame view answer)]) =
      (recordings lines, conversions lines ++ [(frame, view, answer)], ignored lines) := by
  simp [account, recordings, conversions, ignored, Entry.recorded?, Entry.converted?,
    Entry.ignored?]

theorem account_frameDropped (lines : List (Entry F T K V)) (n : Nat) (e : Fault) :
    account (lines ++ [.notice (.frameDropped n e)]) = account lines := by
  simp [account, recordings, conversions, ignored, Entry.recorded?, Entry.converted?,
    Entry.ignored?]

/-- What is counted while a surface is filled: no marker is recorded, and the frame is converted
once, into the surface that was acquired, or not at all if none could be acquired. -/
structure Fills (b : Backend (Recorded W (Entry F T K V)) T K V) (frame : F)
    (q : Pool T K V × Recorded W (Entry F T K V))
    (res : EStateM.Result Fault (Pool T K V × Recorded W (Entry F T K V)) Handle) : Prop where
  recordings : recordings (Attempt.leaves res).2.trace = recordings q.2.trace
  ignored : ignored (Attempt.leaves res).2.trace = ignored q.2.trace
  unconverted : ∀ e y, Pool.acquire b q = .error e y →
    res = .error e y ∧ conversions y.2.trace = conversions q.2.trace
  converted : ∀ k y, Pool.acquire b q = .ok k y → ∃ s a r,
    y.1.ring.current? = some s ∧ s.handle = k ∧
    conversions (Attempt.leaves res).2.trace = conversions q.2.trace ++ [(frame, s.view, a)] ∧
    Attempt.answers res = (a.bind fun _ => Attempt.answers (Pool.awaitConsumer b k (y.1, r))).map
      fun _ => k

theorem Filling.fills {frame : F} {q : Pool T K V × Recorded W (Entry F T K V)}
    {res : EStateM.Result Fault (Pool T K V × _) Handle}
    (h : Filling b.recorded (Converter.recorded convert) frame q res) :
    Fills b.recorded frame q res := by
  -- a surface was acquired, and the only line that is counted is the one of the converter
  have hconverted {s : Surface T K V} {p₁ : Pool T K V} {r₁ : Recorded W (Entry F T K V)}
      (ha : Pool.acquire b.recorded q = .ok s.handle (p₁, r₁)) (hc : p₁.ring.current? = some s)
      (a : Except Fault Unit) (r₂ : Recorded W (Entry F T K V))
      (hanswer : Attempt.answers res = (a.bind fun _ =>
        Attempt.answers (Pool.awaitConsumer b.recorded s.handle (p₁, r₂))).map fun _ => s.handle)
      (htrace : account (Attempt.leaves res).2.trace =
        account (r₁.trace ++ [.consumer (.convert frame s.view a)])) :
      Fills b.recorded frame q res := by
    have hq : account r₁.trace = account q.2.trace := acquire_account ha
    rw [account_convert] at htrace
    simp only [account, Prod.mk.injEq] at htrace hq
    obtain ⟨hrecordings, hconversions, hignored⟩ := hq
    refine ⟨htrace.1.trans hrecordings, htrace.2.2.trans hignored, fun e y hy => ?_,
      fun k y hy => ?_⟩
    · cases ha.symm.trans hy
    · cases ha.symm.trans hy
      exact ⟨s, a, r₂, hc, rfl, htrace.2.1.trans (hconversions ▸ rfl), hanswer⟩
  cases h with
  | @refused e q₁ ha =>
    have hq := acquire_account ha
    simp only [account, Prod.mk.injEq] at hq
    obtain ⟨hrecordings, hconversions, hignored⟩ := hq
    refine ⟨hrecordings, hignored, fun e y hy => ?_, fun k y hy => ?_⟩
    · cases ha.symm.trans hy
      exact ⟨rfl, hconversions⟩
    · cases ha.symm.trans hy
  | @unconverted s p₁ r₁ e r₂ ha hc hs hv =>
    refine hconverted ha hc (.error e) r₂ rfl ?_
    rw [Attempt.leaves, Pool.call_error hv]
    rfl
  | @lost s p₁ r₁ r₂ e r₃ ha hc hs hv hw =>
    have hanswer : Attempt.answers (Pool.awaitConsumer b.recorded s.handle (p₁, r₂)) = .error e := by
      rw [hw]
      rfl
    refine hconverted ha hc (.ok ()) r₂ (by rw [Except.bind, hanswer]; rfl)
      ((awaitConsumer_account hw).trans ?_)
    rw [Pool.call_ok hv]
    rfl
  | @filled s p₁ r₁ r₂ r₃ ha hc hs hv hw =>
    have hanswer : Attempt.answers (Pool.awaitConsumer b.recorded s.handle (p₁, r₂)) = .ok () := by
      rw [hw]
      rfl
    refine hconverted ha hc (.ok ()) r₂ (by rw [Except.bind, hanswer]; rfl)
      ((awaitConsumer_account hw).trans ?_)
    rw [Pool.call_ok hv]
    rfl

/-! ### Turns of a presenter -/

/-- One move that was made. -/
structure Turn (W F T K V : Type) where
  move : Move F
  answer : Except Fault (Answer T V)
  before : Presenter T K V × W
  after : Presenter T K V × W

def turn (b : Backend W T K V) (convert : Converter W F V) (x : Presenter T K V × W)
    (m : Move F) : Turn W F T K V :=
  let (answer, after) := Attempt.outcome (make b convert m) x
  { move := m, answer, before := x, after }

/-- The turns of a list of moves. -/
def turns (b : Backend W T K V) (convert : Converter W F V) :
    Presenter T K V × W → List (Move F) → List (Turn W F T K V)
  | _, [] => []
  | x, m :: rest => turn b convert x m :: turns b convert (turn b convert x m).after rest

/-- The move goes through the presenter, or only looks. -/
def Move.throughPresenter : Move F → Bool
  | present _ | retract | close | phase _ | images _ | shown | settings => true
  | acquire | release _ | cycle | awaitConsumer _ | closePool => false

namespace Turn

/-- A frame was put on display. -/
def displays (t : Turn W F T K V) : Bool :=
  match t.move, t.answer with
  | .present _, .ok _ => true
  | _, _ => false

/-- What was on display went down with the pool. -/
def discards (t : Turn W F T K V) : Bool :=
  match t.move with
  | .close => t.before.1.shown.isSome
  | _ => false

/-- What becomes of a frame that is presented, with the pool and its world behind the
retraction. -/
structure Presents (b : Backend (Recorded W (Entry F T K V)) T K V) (frame : F)
    (t : Turn (Recorded W (Entry F T K V)) F T K V)
    (q : Pool T K V × Recorded W (Entry F T K V)) : Prop where
  /-- What was on display is released in any case. -/
  retracted : Retracts b t.before q
  displayed : ∀ a, t.answer = .ok a → ∃ h, a = .surface h ∧ t.after.1.shown = some h ∧
    t.after.1.dropped = t.before.1.dropped
  dropped : ∀ e, t.answer = .error e → t.after.1.shown = none ∧
    t.after.1.dropped = t.before.1.dropped + 1
  /-- Without a surface nothing is converted. -/
  unconverted : ∀ e y, Pool.acquire b q = .error e y → t.answer = .error e ∧
    conversions t.after.2.trace = conversions t.before.2.trace
  /-- With a surface, the frame is converted into its view, once. The answer is that of the
  conversion and of the wait behind it. -/
  converted : ∀ k y, Pool.acquire b q = .ok k y → ∃ s a r,
    y.1.ring.current? = some s ∧ s.handle = k ∧
    conversions t.after.2.trace = conversions t.before.2.trace ++ [(frame, s.view, a)] ∧
    t.answer = (a.bind fun _ => Attempt.answers (Pool.awaitConsumer b k (y.1, r))).map
      fun _ => .surface k

/-- What a turn does to the display. -/
structure Orderly (b : Backend (Recorded W (Entry F T K V)) T K V)
    (t : Turn (Recorded W (Entry F T K V)) F T K V) : Prop where
  present : ∀ frame, t.move = .present frame → ∃ q, t.Presents b frame q
  /-- Retracting releases what is on display, which cannot fail, and does nothing else. -/
  retract : t.move = .retract → ∃ q, Retracts b t.before q ∧
    t.after = ({ t.before.1 with pool := q.1, shown := none }, q.2)
  /-- Nothing is converted but a frame that is presented. -/
  converts : (∀ frame, t.move ≠ .present frame) →
    conversions t.after.2.trace = conversions t.before.2.trace

/-- What every turn keeps: the presenter stays in step, no release was in vain, and what was put
on display was recorded, is still on display or went down with the pool. -/
structure Balanced (t : Turn (Recorded W (Entry F T K V)) F T K V) : Prop where
  inStep : t.after.1.InStep
  ignored : ignored t.after.2.trace = ignored t.before.2.trace
  balance : (recordings t.after.2.trace).length + t.after.1.shown.isSome.toNat + t.discards.toNat =
    (recordings t.before.2.trace).length + t.before.1.shown.isSome.toNat + t.displays.toNat
  closed : t.discards = true → t.after.1.pool.closed = true

end Turn

variable (b convert) {x : Presenter T K V × Recorded W (Entry F T K V)}

theorem turn_present (x : Presenter T K V × W) (frame : F) :
    turn b convert x (.present frame) =
      { move := .present frame
        answer := (Attempt.answers (present b convert frame x)).map .surface, before := x
        after := Attempt.leaves (present b convert frame x) } := by
  simp only [turn, make, Attempt.outcome_map]

/-- Presenting answers what filling the surface answers. -/
theorem answer_surface {α : Type} {answer : Except Fault Handle} {a : Except Fault α} {k : Handle}
    (h : answer = a.map fun _ => k) :
    answer.map .surface = a.map fun _ => (.surface k : Answer T V) := by
  subst h
  cases a <;> rfl

theorem balanced_present (h : x.1.InStep) (frame : F) :
    let t := turn b.recorded (Converter.recorded convert) x (.present frame)
    t.Balanced ∧ ∃ q, t.Presents b.recorded frame q := by
  obtain ⟨⟨pool, r⟩, hretracts, hretract, hinv, hrecordings, hconversions, hignored⟩ :=
    retract_inStep (b := b) h
  have hfilling := filling b.recorded (Converter.recorded convert) frame hinv
  obtain ⟨hinv', hout⟩ := hfilling.inStep hinv
  have hfills := hfilling.fills
  intro t
  have ht : t = _ := turn_present b.recorded (Converter.recorded convert) x frame
  rw [ht]
  simp only [present, hretract]
  rcases hfill : fill b.recorded (Converter.recorded convert) frame (pool, r) with
    ⟨k, pool', r'⟩ | ⟨e, pool', r'⟩
  all_goals
    rw [hfill] at hfills hinv' hout
    obtain ⟨hrecordings', hignored', hunconverted, hconverted⟩ := hfills
    simp only [Attempt.leaves] at hrecordings' hignored' hinv' hconverted
  · refine ⟨⟨⟨hinv', ?_⟩, hignored'.trans hignored, ?_, fun h => (by cases h)⟩, (pool, r),
      hretracts, ?_, fun e he => (by cases he), fun e y hy => ?_, fun k y hy => ?_⟩
    · rintro _ ⟨⟩
      exact hout k _ rfl
    · simp only [Attempt.leaves, Attempt.answers, Turn.displays, Turn.discards, hrecordings',
        hrecordings, Except.map, Option.isSome_some, Bool.toNat_true, Bool.toNat_false]
    · rintro _ ⟨⟩
      exact ⟨k, rfl, rfl, rfl⟩
    · cases (hunconverted e y hy).1
    · obtain ⟨s, a, r₂, hc, hh, htrace, hanswer⟩ := hconverted k y hy
      exact ⟨s, a, r₂, hc, hh, htrace.trans (congrArg (· ++ _) hconversions), answer_surface hanswer⟩
  · obtain ⟨hrecorded, hkept, hsilent⟩ : recordings _ = _ ∧ conversions _ = _ ∧ ignored _ = _ := by
      simpa only [account, Prod.mk.injEq] using account_frameDropped r'.trace (x.1.dropped + 1) e
    refine ⟨⟨inStep_dark hinv' rfl, (hsilent.trans hignored').trans hignored, ?_,
      fun h => (by cases h)⟩, (pool, r), hretracts, fun a ha => (by cases ha), ?_,
      fun e y hy => ?_, fun k y hy => ?_⟩
    · simp only [Attempt.leaves, Attempt.answers, Turn.displays, Turn.discards, Backend.recorded,
        hrecorded, hrecordings', hrecordings, Except.map, Option.isSome_none, Bool.toNat_false]
    · rintro _ ⟨⟩
      exact ⟨rfl, rfl⟩
    · obtain ⟨heq, htrace⟩ := hunconverted e y hy
      cases heq
      exact ⟨rfl, hkept.trans (htrace.trans hconversions)⟩
    · obtain ⟨s, a, r₂, hc, hh, htrace, hanswer⟩ := hconverted k y hy
      exact ⟨s, a, r₂, hc, hh, hkept.trans (htrace.trans (congrArg (· ++ _) hconversions)),
        answer_surface hanswer⟩

/-- Retracting is a turn whose release cannot fail. -/
theorem balanced_retract (h : x.1.InStep) :
    let t := turn b.recorded (Converter.recorded convert) x .retract
    t.Balanced ∧ conversions t.after.2.trace = conversions t.before.2.trace ∧
      ∃ q, Retracts b.recorded t.before q ∧
        t.after = ({ t.before.1 with pool := q.1, shown := none }, q.2) := by
  obtain ⟨q, hretracts, hretract, hinv, hrecordings, hconversions, hignored⟩ :=
    retract_inStep (b := b) h
  have hafter : (turn b.recorded (Converter.recorded convert) x .retract).after =
      ({ x.1 with pool := q.1, shown := none }, q.2) := hretract
  intro t
  refine ⟨⟨?_, ?_, ?_, fun h => (by cases h)⟩, ?_, q, hretracts, hafter⟩
  · rw [hafter]
    exact inStep_dark hinv rfl
  · rw [hafter]
    exact hignored
  · rw [hafter]
    exact hrecordings
  · rw [hafter]
    exact hconversions

theorem balanced_close (h : x.1.InStep) :
    let t := turn b.recorded (Converter.recorded convert) x .close
    t.Balanced ∧ conversions t.after.2.trace = conversions t.before.2.trace := by
  have hextends := Pool.close_errands b (x.1.pool, x.2)
  obtain ⟨hrecordings, hconversions, hignored⟩ :
      recordings (Pool.close b.recorded (x.1.pool, x.2)).2.trace = _ ∧ conversions _ = _ ∧
        ignored _ = _ := by
    simpa only [account, Prod.mk.injEq] using
      hextends.account (by decide) (by decide) (by decide)
  refine ⟨⟨inStep_dark (h.inv.close b.recorded x.2) rfl, hignored, ?_, fun _ => ?_⟩, hconversions⟩
  · exact congrArg (·.length + x.1.shown.isSome.toNat) hrecordings
  · exact Pool.closed_close b.recorded (x.1.pool, x.2)

theorem balanced_turn (h : x.1.InStep) {m : Move F} (hm : m.throughPresenter = true) :
    let t := turn b.recorded (Converter.recorded convert) x m
    t.Balanced ∧ t.Orderly b.recorded := by
  cases m with
  | present frame =>
    obtain ⟨hbalanced, hpresents⟩ := balanced_present b convert h frame
    exact ⟨hbalanced, by rintro _ ⟨⟩; exact hpresents, fun h => (by cases h),
      fun h => absurd rfl (h frame)⟩
  | retract =>
    obtain ⟨hbalanced, hconversions, hretracts⟩ :=
      balanced_retract b convert h
    exact ⟨hbalanced, fun _ h => (by cases h), fun _ => hretracts, fun _ => hconversions⟩
  | close =>
    obtain ⟨hbalanced, hconversions⟩ := balanced_close b convert h
    exact ⟨hbalanced, fun _ h => (by cases h), fun h => (by cases h), fun _ => hconversions⟩
  | phase | images | shown | settings =>
    exact ⟨⟨h, rfl, rfl, fun h => (by cases h)⟩, fun _ h => (by cases h), fun h => (by cases h),
      fun _ => rfl⟩
  | _ => cases hm

/-! ### Runs -/

variable {moves : List (Move F)}

/-- After a pool was torn down nothing is on display, so nothing is discarded. -/
theorem discards_closed (h : x.1.InStep) (hclosed : x.1.pool.closed = true)
    (hmoves : ∀ m ∈ moves, m.throughPresenter = true) :
    (turns b.recorded (Converter.recorded convert) x moves).countP (·.discards) = 0 := by
  induction moves generalizing x with
  | nil => rfl
  | cons m moves ih =>
    have hdark : (turn b.recorded (Converter.recorded convert) x m).discards = false := by
      cases m <;> first | rfl | exact congrArg Option.isSome (h.dark hclosed)
    have hclosed' : (turn b.recorded (Converter.recorded convert) x m).after.1.pool.closed = true :=
      (closed_kept b.recorded (Converter.recorded convert)).make m x hclosed
    rw [turns, List.countP_cons_of_neg (by simp [hdark])]
    exact ih (balanced_turn b convert h (hmoves m (List.mem_cons_self ..))).1.inStep hclosed'
      fun m' hm' => hmoves m' (List.mem_cons_of_mem _ hm')

/-- What is on display goes down with the pool once at most. -/
theorem discards_once (h : x.1.InStep) (hmoves : ∀ m ∈ moves, m.throughPresenter = true) :
    (turns b.recorded (Converter.recorded convert) x moves).countP (·.discards) =
      ((turns b.recorded (Converter.recorded convert) x moves).any (·.discards)).toNat := by
  induction moves generalizing x with
  | nil => rfl
  | cons m moves ih =>
    have hrest (m' : Move F) (hm' : m' ∈ moves) := hmoves m' (List.mem_cons_of_mem _ hm')
    have hbalanced :=
      (balanced_turn b convert h (hmoves m (List.mem_cons_self ..))).1
    rw [turns, List.any_cons]
    cases hd : (turn b.recorded (Converter.recorded convert) x m).discards with
    | true =>
      rw [List.countP_cons_of_pos hd, discards_closed b convert hbalanced.inStep (hbalanced.closed hd) hrest]
      rfl
    | false =>
      rw [List.countP_cons_of_neg (by simp [hd]), ih hbalanced.inStep hrest]
      rfl

theorem run_cons (m : Move F) (moves : List (Move F)) (x : Presenter T K V × W) :
    run b convert (m :: moves) x = run b convert moves (turn b convert x m).after := rfl

theorem balanced_run (h : x.1.InStep) (hmoves : ∀ m ∈ moves, m.throughPresenter = true) :
    let history := turns b.recorded (Converter.recorded convert) x moves
    let y := run b.recorded (Converter.recorded convert) moves x
    y.1.InStep ∧ ignored y.2.trace = ignored x.2.trace ∧
      (recordings y.2.trace).length + y.1.shown.isSome.toNat + history.countP (·.discards) =
        (recordings x.2.trace).length + x.1.shown.isSome.toNat + history.countP (·.displays) ∧
      ∀ t ∈ history, t.Orderly b.recorded := by
  induction moves generalizing x with
  | nil => exact ⟨h, rfl, rfl, fun t ht => (by cases ht)⟩
  | cons m moves ih =>
    obtain ⟨hbalanced, horderly⟩ :=
      balanced_turn b convert h (hmoves m (List.mem_cons_self ..))
    obtain ⟨hinStep, hignored, hbalance, hall⟩ := ih hbalanced.inStep
      fun m' hm' => hmoves m' (List.mem_cons_of_mem _ hm')
    refine ⟨hinStep, hignored.trans hbalanced.ignored, ?_, fun t ht => ?_⟩
    · have hnow := hbalanced.balance
      have hbefore : (turn b.recorded (Converter.recorded convert) x m).before = x := rfl
      have hcons (q : Turn (Recorded W (Entry F T K V)) F T K V → Bool) (t : Turn _ F T K V)
          (l : List (Turn _ F T K V)) : (t :: l).countP q = l.countP q + (q t).toNat := by
        rw [List.countP_cons]
        cases q t <;> rfl
      rw [hbefore] at hnow
      rw [run_cons, turns, hcons, hcons]
      omega
    · rcases List.mem_cons.1 ht with rfl | ht
      · exact horderly
      · exact hall t ht

/-- **The display is in step with the pool.** Whatever the domains and the converter answer, as
long as a presenter is driven through the presenter alone: what is on display is the surface at
the cursor of the pool, it is out, and its own texture is sampled; no release is ever in vain.
Every frame that is presented goes on display or is counted as dropped, with nothing on display,
and what was on display before is released in both cases. A frame is converted once, into the
view of the surface that was acquired for it. As many markers are recorded as frames went on
display, but for the one that still is and the one that went down with the pool. -/
theorem presenter_in_step {c : Pool.Config} {p : Pool T K V} (hp : Pool.make c = .ok p) (w : W)
    (hmoves : ∀ m ∈ moves, m.throughPresenter = true) :
    let start : Presenter T K V × Recorded W (Entry F T K V) := (ofPool p, .ofWorld w)
    let history := turns b.recorded (Converter.recorded convert) start moves
    let x := run b.recorded (Converter.recorded convert) moves start
    (∀ h, x.1.shown = some h → ∃ s, x.1.pool.ring.current? = some s ∧ s.handle = h ∧
      s.phase = .writing ∧ x.1.shownTexture? = some s.texture) ∧
    (∀ h e, .notice (.retractIgnored h e) ∉ x.2.trace) ∧
    (∀ t ∈ history, t.Orderly b.recorded) ∧
    (recordings x.2.trace).length + x.1.shown.isSome.toNat +
      (history.any (·.discards)).toNat = history.countP (·.displays) := by
  intro start history x
  have hstart : start.1.InStep := inStep_dark (Pool.inv_make hp) rfl
  obtain ⟨hinStep, hignored, hbalance, hall⟩ :=
    balanced_run b convert hstart hmoves
  refine ⟨fun h hh => hinStep.shownTexture hh, fun h e hmem => ?_, hall, ?_⟩
  · have hsome : h ∈ ignored x.2.trace := List.mem_filterMap.2 ⟨_, hmem, rfl⟩
    rw [show ignored x.2.trace = [] from hignored] at hsome
    cases hsome
  · rw [discards_once b convert hstart hmoves] at hbalance
    rw [hbalance]
    exact Nat.zero_add _

/-- The second of three frames cannot be converted and is dropped. Two frames went on display: one
made room for the second frame, the other went down with the pool. -/
theorem presenter_in_step_dropping :
    ∃ p : Pool Unit Unit Unit, Pool.make ⟨⟨4, 4⟩, 2⟩ = .ok p ∧
      let b : Backend Unit Unit Unit Unit := Pool.steady false
      let convert : Converter Unit Nat Unit := fun frame _ =>
        if frame = 2 then throw (.conversion "torn") else pure ()
      let moves : List (Move Nat) := [.present 1, .present 2, .present 3, .close]
      let start : Presenter Unit Unit Unit × Recorded Unit (Entry Nat Unit Unit Unit) :=
        (ofPool p, .ofWorld ())
      let history := turns b.recorded (Converter.recorded convert) start moves
      let x := run b.recorded (Converter.recorded convert) moves start
      (recordings x.2.trace).length = 1 ∧ x.1.shown = none ∧ x.1.dropped = 1 ∧
      history.any (·.discards) = true ∧ history.countP (·.displays) = 2 ∧
      (∀ t ∈ history, t.Orderly b.recorded) ∧ ∀ h e, .notice (.retractIgnored h e) ∉ x.2.trace := by
  obtain ⟨p, hp⟩ : ∃ p : Pool Unit Unit Unit, Pool.make ⟨⟨4, 4⟩, 2⟩ = .ok p := ⟨_, rfl⟩
  have hmoves : ∀ m ∈ ([.present 1, .present 2, .present 3, .close] : List (Move Nat)),
      m.throughPresenter = true := by decide
  obtain ⟨-, hignored, hall, -⟩ := presenter_in_step (Pool.steady false)
    (fun frame _ => if frame = 2 then throw (.conversion "torn") else pure ()) hp () hmoves
  refine ⟨p, hp, ?_, ?_, ?_, ?_, ?_, hall, hignored⟩
  all_goals
    cases hp
    rfl

end Presenter
end SurfaceRelay
