import SurfaceRelay.Proofs.Lines
import SurfaceRelay.Proofs.Requests

/-! Statistics, notices and calls tell the same story.

A pool counts what it built, how often it stalled, and what became of its markers; it says so in
notices, and asks its domains for it. `Tick` names the lines of a trace that one of these counts
stands for. Every way through an operation adds the ticks that belong to what it adds to the
counts (`Agrees`), so the three agree after every run, whatever the domains answer
(`statistics_agree`). What was handed out and has not been released since is `held`; the
surfaces that a pool counts as busy when it is torn down are those that are not. -/
namespace SurfaceRelay
variable {W F T K V α : Type}

/-! ### Lines that are counted -/

/-- What a line of a trace may be counted for. -/
inductive Tick
  /-- The ring grew to a size. -/
  | grew (size : Nat)
  | underflow
  /-- The producer completed a blocking map. -/
  | mapped
  | recorded
  | recordFailed
  | pollFailed
  | recordNoticed
  | pollNoticed
  /-- A frame was dropped, under a number. -/
  | dropped (count : Nat)
deriving DecidableEq

def Entry.tick? : Entry F T K V → Option Tick
  | notice (.grew size) => some (.grew size)
  | notice (.underflow _) => some .underflow
  | notice (.recordFailed ..) => some .recordNoticed
  | notice (.pollFailed ..) => some .pollNoticed
  | notice (.frameDropped count _) => some (.dropped count)
  | producer (.image (.blockOn _ (.ok _))) => some .mapped
  | producer (.record _ (.ok _)) => some .recorded
  | producer (.record _ (.error _)) => some .recordFailed
  | producer (.poll _ (.error _)) => some .pollFailed
  | _ => none

def ticks (lines : List (Entry F T K V)) : List Tick := lines.filterMap Entry.tick?

/-- The sizes that the ring grew to. -/
def sizes (l : List Tick) : List Nat := l.filterMap fun
  | .grew size => some size
  | _ => none

/-- The numbers of the frames that were dropped. -/
def drops (l : List Tick) : List Nat := l.filterMap fun
  | .dropped count => some count
  | _ => none

/-- What was counted is what was done and said: the counts of a pool, the number of releases that
succeeded and the number of frames that were dropped, against the lines of a trace. -/
structure Agrees (s : Pool.Stats) (returned dropped : Nat) (l : List Tick) : Prop where
  grown : sizes l = List.range' 1 s.built
  underflows : l.count .underflow = s.stalls
  mapped : l.count .mapped = s.stalls
  recorded : l.count .recorded = s.markersRecorded
  returned : s.markersRecorded + l.count .recordNoticed = returned
  faults : l.count .recordFailed + l.count .pollFailed = s.markerFaults
  recordNoticed : l.count .recordNoticed = l.count .recordFailed
  pollNoticed : l.count .pollNoticed = l.count .pollFailed
  dropped : drops l = List.range' 1 dropped

namespace Agrees
variable {s : Pool.Stats} {k n : Nat} {l : List Tick}

theorem nil : Agrees {} 0 0 [] := by
  constructor <;> rfl

theorem grow (h : Agrees s k n l) :
    Agrees { s with built := s.built + 1 } k n (l ++ [.grew (s.built + 1)]) := by
  obtain ⟨hgrown, _⟩ := h
  constructor <;>
    simp_all [sizes, drops, List.filterMap_append, List.range'_concat, Nat.add_comm]

theorem stall (h : Agrees s k n l) :
    Agrees { s with stalls := s.stalls + 1 } k n (l ++ [.mapped, .underflow]) := by
  obtain ⟨hgrown, _⟩ := h
  constructor <;> simp_all [sizes, drops, List.filterMap_append]

theorem record (h : Agrees s k n l) :
    Agrees { s with markersRecorded := s.markersRecorded + 1 } (k + 1) n (l ++ [.recorded]) := by
  obtain ⟨hgrown, _⟩ := h
  constructor <;> simp_all [sizes, drops, List.filterMap_append]
  omega

theorem failRecord (h : Agrees s k n l) :
    Agrees { s with markerFaults := s.markerFaults + 1 } (k + 1) n
      (l ++ [.recordFailed, .recordNoticed]) := by
  obtain ⟨hgrown, _⟩ := h
  constructor <;> simp_all [sizes, drops, List.filterMap_append]
  all_goals omega

theorem failPoll (h : Agrees s k n l) :
    Agrees { s with markerFaults := s.markerFaults + 1 } k n
      (l ++ [.pollFailed, .pollNoticed]) := by
  obtain ⟨hgrown, _⟩ := h
  constructor <;> simp_all [sizes, drops, List.filterMap_append]
  omega

theorem drop (h : Agrees s k n l) : Agrees s k (n + 1) (l ++ [.dropped (n + 1)]) := by
  obtain ⟨hgrown, _⟩ := h
  constructor <;>
    simp_all [sizes, drops, List.filterMap_append, List.range'_concat, Nat.add_comm]

end Agrees

/-! ### Lines that are not counted -/

theorem ticks_append (lines new : List (Entry F T K V)) :
    ticks (lines ++ new) = ticks lines ++ ticks new := List.filterMap_append

theorem ticks_snoc {e : Entry F T K V} (he : e.tick? = none) (lines : List (Entry F T K V)) :
    ticks (lines ++ [e]) = ticks lines := by
  have hnone : ticks [e] = [] := List.filterMap_cons_none he
  rw [ticks_append, hnone, List.append_nil]

/-- A call that nothing is counted for. -/
theorem call_ticks {l : List Tick} {act : Attempt W α} {entry : Except Fault α → Entry F T K V}
    (he : ∀ a, (entry a).tick? = none) :
    (Recorded.call act entry).Keeps fun r => ticks r.trace = l := by
  refine Recorded.call_keeps fun a r _ hr => ?_
  rw [ticks_snoc (he a)]
  exact hr

/-- Nothing is counted for making and destroying. -/
theorem Entry.tick_of_supply {e : Entry F T K V} (h : e.errand = .supply) : e.tick? = none := by
  cases e with
  | producer c => cases c with
    | image c => cases c <;> first | rfl | cases h
    | _ => first | rfl | cases h
  | consumer c => cases c with
    | image c => cases c <;> rfl
    | _ => rfl
  | notice n =>
    rw [Entry.errand] at h
    split at h <;> cases h

theorem ticks_untouched (b : Backend W T K V) (l : List Tick) :
    Surface.Untouched b.recorded fun r : Recorded W (Entry F T K V) => ticks r.trace = l := by
  refine Surface.untouched_of_supply b fun e r _ he hr => ?_
  rw [ticks_snoc (Entry.tick_of_supply he)]
  exact hr

/-- Nor for the notice of what could not be destroyed. -/
theorem disposal_ticks (b : Backend W T K V) {l : List Tick} (part : Part) (h : Handle) (e : Fault)
    (r : Recorded W (Entry F T K V)) (hr : ticks r.trace = l) :
    ticks (b.recorded.note (.disposalFailed part h e) r).trace = l :=
  (ticks_append _ _).trans ((List.append_nil _).trans hr)

/-- A wait for the producer counts when its map completes. -/
theorem drain_ticks (b : Backend W T K V) (l : List Tick) (t s : T) (region : Extent) :
    (b.recorded.producer.drain t s region).Meets
      (fun r : Recorded W (Entry F T K V) => ticks r.trace = l)
      (fun _ r => ticks r.trace = l ++ [.mapped]) (fun r => ticks r.trace = l) := by
  refine Attempt.meets_bind (Attempt.meets_of_outcome (call_ticks fun _ => rfl)) fun _ => ?_
  refine Attempt.meets_of_result fun r hr => ?_
  rcases hblock : b.recorded.producer.blockOn s r with ⟨_, r'⟩ | ⟨e, r'⟩
  · show ticks r'.trace = _
    rw [Pool.call_ok hblock, ticks_append, hr]
    rfl
  · show ticks r'.trace = _
    rw [Pool.call_error hblock, ticks_append, hr]
    exact List.append_nil _

namespace Pool
variable {b : Backend W T K V} {p p₁ : Pool T K V} {r r₁ : Recorded W (Entry F T K V)} {k n : Nat}

/-! ### Every operation of a pool -/

theorem Declined.agrees {o : Option (Surface T K V)} (hd : Declined b.recorded p r o p₁ r₁)
    (h : Agrees p.stats k n (ticks r.trace)) : Agrees p₁.stats k n (ticks r₁.trace) := by
  cases hd with
  | vacant => exact h
  | unarmed => exact h
  | pending hc hr ha hpoll =>
    rw [call_ok hpoll, ticks_append]
    exact (List.append_nil _).symm ▸ h
  | @unknown s e r' hc hr ha hpoll =>
    show Agrees _ _ _ (ticks (r'.trace ++ _))
    rw [call_error hpoll, List.append_assoc, ticks_append]
    exact h.failPoll

theorem Acquiring.agrees (hinv : p.Inv)
    {x : EStateM.Result Fault (Pool T K V × Recorded W (Entry F T K V)) Handle}
    (ha : Acquiring b.recorded p r x) (h : Agrees p.stats k n (ticks r.trace)) :
    Agrees (Attempt.leaves x).1.stats k n (ticks (Attempt.leaves x).2.trace) := by
  have hinv' := ha.inv hinv
  have hbuild (k : Handle) (size stagingSize : Extent) (l : List Tick) :=
    Surface.build_keeps k (disposal_ticks (F := F) b) (ticks_untouched b l) size stagingSize
  cases ha with
  | closed => exact h
  | again => exact h
  | ready hp hc hr ha hpoll =>
    rw [Attempt.leaves, call_ok hpoll, ticks_append]
    exact (List.append_nil _).symm ▸ h
  | @grew o s p₁ r₁ r₂ hp hd hroom hb =>
    have hsize : (p₁.extend s).ring.size = p₁.stats.built + 1 :=
      (hinv'.counted (hd.ring.2.2.2.1.trans hp)).2.symm
    show Agrees _ _ _ (ticks (r₂.trace ++ _))
    rw [ticks_append, (hbuild _ _ _ _).ok hb rfl, hsize]
    exact (hd.agrees h).grow
  | @growthFailed o e p₁ r₁ r₂ hp hd hroom hb =>
    show Agrees _ _ _ (ticks (r₂.trace ++ _))
    rw [ticks_append, (hbuild _ _ _ _).error hb rfl]
    exact (List.append_nil _).symm ▸ hd.agrees h
  | @stalled s p₁ r₁ r₂ hp hd hfull hw =>
    show Agrees _ _ _ (ticks (r₂.trace ++ _))
    rw [ticks_append, (drain_ticks b _ _ _ _).ok hw rfl, List.append_assoc]
    exact (hd.agrees h).stall
  | @stallFailed s e p₁ r₁ r₂ hp hd hfull hw =>
    show Agrees _ _ _ (ticks (r₂.trace ++ _))
    rw [ticks_append, (drain_ticks b _ _ _ _).error hw rfl]
    exact (List.append_nil _).symm ▸ hd.agrees h

/-- A release that succeeds recorded its marker or said that it could not. -/
theorem Releasing.agrees {i : Handle}
    {x : EStateM.Result Fault (Pool T K V × Recorded W (Entry F T K V)) Unit}
    (hr : Releasing b.recorded i p r x) (h : Agrees p.stats k n (ticks r.trace)) :
    Agrees (Attempt.leaves x).1.stats (k + (Attempt.answers x).isOk.toNat) n
      (ticks (Attempt.leaves x).2.trace) := by
  cases hr with
  | closed => exact h
  | stale => exact h
  | @recorded s m r' hp hc hh hs hrec =>
    rw [Attempt.leaves, recording_ok hrec, ticks_append]
    exact h.record
  | @unrecorded s e m r' hp hc hh hs hrec =>
    show Agrees _ _ _ (ticks (r'.trace ++ _))
    rw [recording_error hrec, List.append_assoc, ticks_append]
    exact h.failRecord

theorem Awaiting.agrees {i : Handle}
    {x : EStateM.Result Fault (Pool T K V × Recorded W (Entry F T K V)) Unit}
    (hr : Awaiting b.recorded i p r x) (h : Agrees p.stats k n (ticks r.trace)) :
    Agrees (Attempt.leaves x).1.stats k n (ticks (Attempt.leaves x).2.trace) := by
  have hdrain (v s : V) (region : Extent) : (b.recorded.consumer.drain v s region).Keeps
      fun r' : Recorded W (Entry F T K V) => ticks r'.trace = ticks r.trace :=
    Attempt.keeps_bind (call_ticks fun _ => rfl) fun _ => call_ticks fun _ => rfl
  cases hr with
  | closed => exact h
  | stale => exact h
  | landed hp hf hw =>
    rw [Attempt.leaves, (hdrain _ _ _).ok hw rfl]
    exact h
  | @failed s e r' hp hf hw =>
    show Agrees _ _ _ (ticks (r'.trace ++ _))
    rw [ticks_append, (hdrain _ _ _).error hw rfl]
    exact (List.append_nil _).symm ▸ h

theorem close_agrees {x : Pool T K V × Recorded W (Entry F T K V)}
    (h : Agrees x.1.stats k n (ticks x.2.trace)) :
    Agrees (close b.recorded x).1.stats k n (ticks (close b.recorded x).2.trace) := by
  simp only [close]
  split
  · exact h
  · show Agrees _ _ _ (ticks (_ ++ _))
    rw [ticks_append, Surface.dismantleAll_keeps (disposal_ticks b) (ticks_untouched b _) _ rfl]
    exact (List.append_nil _).symm ▸ h

/-! ### What was handed out -/

/-- The surface that was handed out. -/
def Turn.lent? {W : Type} (t : Turn W T K V) : Option Handle :=
  match t.answer with
  | .ok h => h
  | .error _ => none

/-- The surface whose release succeeded. -/
def Turn.returned? {W : Type} (t : Turn W T K V) : Option Handle :=
  match t.op, t.answer with
  | .release h, .ok _ => some h
  | _, _ => none

/-- The surface was handed out and has not been released since. -/
def held {W : Type} (h : Handle) (past : List (Turn W T K V)) : Bool :=
  past.foldl (fun held t => decide (t.lent? = some h) || (held && decide (t.returned? ≠ some h)))
    false

section
variable {W : Type} {b : Backend W T K V} {p : Pool T K V} {w : W}

theorem held_concat (h : Handle) (past : List (Turn W T K V)) (t : Turn W T K V) :
    held h (past ++ [t]) =
      (decide (t.lent? = some h) || (held h past && decide (t.returned? ≠ some h))) :=
  List.foldl_append

theorem held_lent {h : Handle} (past : List (Turn W T K V)) {t : Turn W T K V}
    (hl : t.lent? = some h) : held h (past ++ [t]) = true := by
  rw [held_concat, decide_eq_true hl, Bool.true_or]

theorem held_returned {h : Handle} (past : List (Turn W T K V)) {t : Turn W T K V}
    (hl : t.lent? ≠ some h) (hr : t.returned? = some h) : held h (past ++ [t]) = false := by
  rw [held_concat, decide_eq_false hl, decide_eq_false (not_not_intro hr), Bool.and_false,
    Bool.or_false]

/-- A turn that neither hands the surface out nor takes it back. -/
theorem held_aside {h : Handle} (past : List (Turn W T K V)) {t : Turn W T K V}
    (hl : t.lent? ≠ some h) (hr : t.returned? ≠ some h) : held h (past ++ [t]) = held h past := by
  rw [held_concat, decide_eq_false hl, decide_eq_true hr, Bool.false_or, Bool.and_true]

theorem lent_acquire_iff {x : Pool T K V × W} {h : Handle} :
    (turn b x .acquire).lent? = some h ↔ Attempt.answers (acquire b x) = .ok h := by
  rw [turn_acquire]
  cases acquire b x with
  | ok k y => exact Option.some_inj.trans (Except.ok.injEq k h ▸ Iff.rfl)
  | error e y => exact iff_of_false nofun nofun

/-- Only an acquire hands out. -/
theorem lent_turn (x : Pool T K V × W) {op : Op} (hop : op ≠ .acquire) :
    (turn b x op).lent? = none := by
  cases op with
  | acquire => exact absurd rfl hop
  | release k =>
    rw [turn_release]
    cases release b k x <;> rfl
  | awaitConsumer k =>
    rw [turn_awaitConsumer]
    cases awaitConsumer b k x <;> rfl
  | close => rfl

theorem returned_release (x : Pool T K V × W) (k : Handle) :
    (turn b x (.release k)).returned? =
      (Attempt.answers (release b k x)).toOption.map fun _ => k := by
  rw [turn_release]
  cases release b k x <;> rfl

theorem returned_release_iff {x : Pool T K V × W} {k h : Handle} :
    (turn b x (.release k)).returned? = some h ↔
      k = h ∧ Attempt.answers (release b k x) = .ok () := by
  rw [returned_release]
  cases Attempt.answers (release b k x) <;> simp [Except.toOption]

/-- An acquire sets out the surface that it answers, and no other. -/
theorem Acquiring.outs (hinv : p.Inv) {x : EStateM.Result Fault (Pool T K V × W) Handle}
    (ha : Acquiring b p w x) {s : Surface T K V} (hs : s ∈ (Attempt.leaves x).1.ring.slots) :
    s.phase = .writing ∧ Attempt.answers x = .ok s.handle ∨
      s ∈ p.ring.slots ∧ Attempt.answers x ≠ .ok s.handle := by
  have hset {p : Pool T K V} (hinv : p.Inv) {t t' : Surface T K V} (hc : p.ring.current? = some t)
      (hh : t'.handle = t.handle) (hs : s ∈ (p.handOut t').ring.slots) :
      s.phase = .writing ∧ (.ok t.handle : Except Fault Handle) = .ok s.handle ∨
        s ∈ p.ring.slots ∧ (.ok t.handle : Except Fault Handle) ≠ .ok s.handle := by
    rcases hinv.mem_setCurrent hc hs with rfl | ⟨hmem, -, hne⟩
    · exact .inl ⟨rfl, congrArg _ hh.symm⟩
    · exact .inr ⟨hmem, fun he => hne (Except.ok.inj he).symm⟩
  cases ha with
  | closed => exact .inr ⟨hs, nofun⟩
  | again hp hc => exact hset hinv hc rfl hs
  | @ready s' k w' hp hc => exact @hset _ hinv _ { s' with marker := k } hc rfl hs
  | @grew o s' p₁ w₁ w₂ hp hd hroom hb =>
    have hinv₁ := hinv.declined hd
    rcases (Ring.mem_insert hinv₁.sound).1 hs with rfl | hmem
    · exact .inl ⟨rfl, congrArg _ (Surface.build_ok b _ hb).1.symm⟩
    · refine .inr ⟨hd.ring.1 ▸ hmem, fun he => ?_⟩
      have hlt := hinv₁.fresh (hd.ring.2.2.2.1.trans hp) hmem
      rw [← Except.ok.inj he] at hlt
      exact Nat.lt_irrefl _ hlt
  | growthFailed hp hd => exact .inr ⟨hd.ring.1 ▸ hs, nofun⟩
  | stalled hp hd =>
    rw [← hd.ring.1]
    exact hset (hinv.declined hd) (hd.ring.1 ▸ hd.current) rfl hs
  | stallFailed hp hd => exact .inr ⟨hd.ring.1 ▸ hs, nofun⟩

/-- A release takes back the surface that it names, and no other. -/
theorem Releasing.outs (hinv : p.Inv) {h : Handle}
    {x : EStateM.Result Fault (Pool T K V × W) Unit} (hr : Releasing b h p w x)
    {s : Surface T K V} (hs : s ∈ (Attempt.leaves x).1.ring.slots) :
    s.phase = .released ∧ s.handle = h ∧ Attempt.answers x = .ok () ∨
      s ∈ p.ring.slots ∧ (s.handle ≠ h ∨ Attempt.answers x ≠ .ok ()) := by
  cases hr with
  | closed => exact .inr ⟨hs, .inr nofun⟩
  | stale => exact .inr ⟨hs, .inr nofun⟩
  | recorded hp hc hh | unrecorded hp hc hh =>
    rcases hinv.mem_setCurrent hc hs with rfl | ⟨hmem, -, hne⟩
    · exact .inl ⟨rfl, hh, rfl⟩
    · exact .inr ⟨hmem, .inl (hh ▸ hne)⟩

/-- The surfaces that are out are those that are held. -/
def Holding (p : Pool T K V) (past : List (Turn W T K V)) : Prop :=
  ∀ s ∈ p.ring.slots, s.phase = .writing ↔ held s.handle past = true

/-- A turn changes nothing about a surface that it neither hands out nor takes back. -/
theorem Holding.aside {past : List (Turn W T K V)} (h : Holding p past) {t : Turn W T K V}
    {s : Surface T K V} (hs : s ∈ p.ring.slots) (hl : t.lent? ≠ some s.handle)
    (hr : t.returned? ≠ some s.handle) :
    s.phase = .writing ↔ held s.handle (past ++ [t]) = true := by
  rw [held_aside past hl hr]
  exact h s hs

theorem holding_turn {x : Pool T K V × W} (hinv : x.1.Inv) {past : List (Turn W T K V)}
    (h : Holding x.1 past) (op : Op) :
    Holding (turn b x op).after.1 (past ++ [turn b x op]) := by
  intro s hs
  cases op with
  | acquire =>
    rw [turn_acquire] at hs
    rcases (acquiring b x.1 x.2).outs hinv hs with ⟨hw, hanswer⟩ | ⟨hmem, hanswer⟩
    · exact iff_of_true hw (held_lent past (lent_acquire_iff.2 hanswer))
    · exact h.aside hmem (fun hl => hanswer (lent_acquire_iff.1 hl)) (Option.some_ne_none _).symm
  | release k =>
    have hlent : (turn b x (.release k)).lent? ≠ some s.handle := by
      rw [lent_turn x Op.noConfusion]
      exact (Option.some_ne_none _).symm
    rw [turn_release] at hs
    rcases (releasing b k x.1 x.2).outs hinv hs with ⟨hr, hh, hanswer⟩ | ⟨hmem, hanswer⟩
    · rw [hr, held_returned past hlent (returned_release_iff.2 ⟨hh.symm, hanswer⟩)]
      exact iff_of_false Phase.noConfusion Bool.false_ne_true
    · refine h.aside hmem hlent fun hr => ?_
      obtain ⟨hk, hok⟩ := returned_release_iff.1 hr
      exact hanswer.elim (fun hne => hne hk.symm) fun hne => hne hok
  | awaitConsumer k =>
    have hlent : (turn b x (.awaitConsumer k)).lent? ≠ some s.handle := by
      rw [lent_turn x Op.noConfusion]
      exact (Option.some_ne_none _).symm
    rw [turn_awaitConsumer, (awaiting b k x.1 x.2).pool] at hs
    exact h.aside hs hlent (Option.some_ne_none _).symm
  | close =>
    rw [turn_close] at hs
    simp only [close] at hs
    split at hs
    · exact h.aside hs (Option.some_ne_none _).symm (Option.some_ne_none _).symm
    · cases hs

/-- All surfaces are busy but the one that is out. -/
theorem Inv.busy (hinv : p.Inv) :
    p.ring.slots.countP (·.isBusy) + (p.ring.current?.any fun s => s.phase = .writing).toNat =
      p.ring.size := by
  have hfront : ∀ s, p.ring.current? = some s → s.phase ≠ .released → s.phase = .writing :=
    fun s hc => hinv.writing_of_current hc
  have hbehind := hinv.behind
  rw [Ring.current?_eq hinv.sound] at hfront
  rw [← p.ring.length_toQueue, ← (p.ring.toQueue_perm.countP_eq _), Ring.current?_eq hinv.sound]
  cases hq : p.ring.toQueue with
  | nil => rfl
  | cons s rest =>
    rw [hq] at hfront hbehind
    have hrest : rest.countP (·.isBusy) = rest.length :=
      List.countP_eq_length.2 fun t ht => decide_eq_true (hbehind t ht)
    rw [List.countP_cons, hrest, List.length_cons, List.head?_cons, Option.any_some]
    by_cases hr : s.phase = .released
    · simp [Surface.isBusy, hr]
    · simp [Surface.isBusy, hfront s rfl hr]

/-- The surface at the cursor was handed out and has not been released since. -/
def outAtCursor (p : Pool T K V) (past : List (Turn W T K V)) : Bool :=
  p.ring.current?.any fun s => held s.handle past

theorem Holding.outAtCursor {past : List (Turn W T K V)} (h : Holding p past) :
    p.outAtCursor past = p.ring.current?.any fun s => s.phase = .writing := by
  rw [Pool.outAtCursor]
  cases hc : p.ring.current? with
  | none => rfl
  | some s =>
    rw [Option.any_some, Option.any_some, Bool.eq_iff_iff, decide_eq_true_iff]
    exact (h s (Ring.current?_mem hc)).symm

end

/-! ### A session -/

/-- What the end of a pool tells: how many surfaces there were, and how many of them were not
out. -/
def Turn.TellsEnd (t : Turn (Recorded W (Entry F T K V)) T K V)
    (past : List (Turn (Recorded W (Entry F T K V)) T K V)) : Prop :=
  t.op = .close → t.before.1.closed = false → ∃ busy,
    t.after.2.trace.getLast? = some (.notice (.tornDown busy t.before.1.ring.size)) ∧
    busy + (t.before.1.outAtCursor past).toNat = t.before.1.ring.size

theorem tellsEnd_turn {x : Pool T K V × Recorded W (Entry F T K V)} (hinv : x.1.Inv)
    {past : List (Turn (Recorded W (Entry F T K V)) T K V)} (h : Holding x.1 past) (op : Op) :
    (turn b.recorded x op).TellsEnd past := by
  intro hop hopen
  have hop : op = .close := hop
  subst hop
  have hopen : x.1.closed = false := hopen
  refine ⟨x.1.ring.slots.countP (·.isBusy), ?_, ?_⟩
  · rw [turn_close]
    simp only [close, hopen]
    exact List.getLast?_concat
  · rw [show (turn b.recorded x .close).before = x from rfl, h.outAtCursor]
    exact hinv.busy

/-- What a session has told so far. -/
structure Telling (past : List (Turn (Recorded W (Entry F T K V)) T K V)) (dropped : Nat)
    (x : Pool T K V × Recorded W (Entry F T K V)) : Prop where
  inv : x.1.Inv
  agrees : Agrees x.1.stats (past.countP fun t => t.returned?.isSome) dropped (ticks x.2.trace)
  holding : Holding x.1 past
  ends : ∀ before t later, past = before ++ t :: later → t.TellsEnd before

theorem agrees_turn {x : Pool T K V × Recorded W (Entry F T K V)} (hinv : x.1.Inv) (op : Op)
    (h : Agrees x.1.stats k n (ticks x.2.trace)) :
    Agrees (turn b.recorded x op).after.1.stats
      (k + (turn b.recorded x op).returned?.isSome.toNat) n
      (ticks (turn b.recorded x op).after.2.trace) := by
  cases op with
  | acquire =>
    rw [show (turn b.recorded x .acquire).returned? = none from rfl, turn_acquire]
    exact (acquiring b.recorded x.1 x.2).agrees hinv h
  | release i =>
    have hagrees := (releasing b.recorded i x.1 x.2).agrees h
    rw [returned_release, turn_release]
    rw [show release b.recorded i (x.1, x.2) = release b.recorded i x from rfl] at hagrees
    cases hr : release b.recorded i x <;> rw [hr] at hagrees <;> exact hagrees
  | awaitConsumer i =>
    rw [show (turn b.recorded x (.awaitConsumer i)).returned? = none from rfl, turn_awaitConsumer]
    exact (awaiting b.recorded i x.1 x.2).agrees h
  | close => exact close_agrees h

theorem Telling.turn {past : List (Turn (Recorded W (Entry F T K V)) T K V)}
    {x : Pool T K V × Recorded W (Entry F T K V)} (h : Telling past n x) (op : Op) :
    Telling (past ++ [Pool.turn b.recorded x op]) n (Pool.turn b.recorded x op).after where
  inv := inv_turn h.inv op
  agrees := by
    have hcount : (past ++ [Pool.turn b.recorded x op]).countP (fun t => t.returned?.isSome) =
        past.countP (fun t => t.returned?.isSome) +
          (Pool.turn b.recorded x op).returned?.isSome.toNat := by
      rw [List.countP_append, List.countP_singleton]
      cases (Pool.turn b.recorded x op).returned?.isSome <;> rfl
    rw [hcount]
    exact agrees_turn h.inv op h.agrees
  holding := holding_turn h.inv h.holding op
  ends before t later hpast := by
    rcases List.eq_nil_or_concat later with rfl | ⟨later, u, rfl⟩
    · obtain ⟨rfl, hlast⟩ := List.append_inj' hpast rfl
      cases hlast
      exact tellsEnd_turn h.inv h.holding op
    · rw [List.concat_eq_append, ← List.cons_append, ← List.append_assoc] at hpast
      exact h.ends before t later (List.append_inj' hpast rfl).1

/-- Lines that nothing is counted for. -/
theorem Telling.aside {past : List (Turn (Recorded W (Entry F T K V)) T K V)}
    {r r' : Recorded W (Entry F T K V)} (h : Telling past n (p, r))
    (hr : ticks r'.trace = ticks r.trace) : Telling past n (p, r') :=
  ⟨h.inv, hr.symm ▸ h.agrees, h.holding, h.ends⟩

theorem telling_make {c : Config} (hp : make c = .ok p) (w : W) :
    Telling (F := F) [] 0 (p, .ofWorld w) := by
  have hinv := inv_make hp
  obtain ⟨rfl, -⟩ := make_ok hp
  exact ⟨hinv, .nil, fun s hs => (by cases hs), fun before t later h => by simp at h⟩

end Pool

namespace Presenter
open Pool

theorem telling_tracks (b : Backend W T K V) (convert : Converter W F V) :
    Tracks b.recorded (Converter.recorded convert) (Telling (F := F) (T := T) (K := K)) where
  turn op h := h.turn op
  convert _ _ _ _ := Attempt.keeps_of_leaves fun r h =>
    h.aside ((call_ticks (l := ticks r.trace) fun _ => rfl).leaves rfl)
  dropped _ h := ⟨h.inv, (ticks_append _ _).symm ▸ h.agrees.drop, h.holding, h.ends⟩
  ignored _ _ h := h.aside ((ticks_append _ _).trans (List.append_nil _))

/-- **Statistics, notices and calls agree.** Whatever the domains and the converter answer, after
any moves of a presenter and its pool: the ring grew once for every surface built, to one more each
time; every forced wait was a blocking map that the producer completed, and was announced; every
marker that counts as recorded was, and every release that succeeded either recorded its marker
or said that it could not; the marker faults are the markers that could not be recorded or
polled, and each was announced; the frames that were dropped were announced under their numbers.
When the pool is torn down, it counts all surfaces as busy but the one at the cursor, if that was
handed out and not released. -/
theorem statistics_agree {c : Config} {p : Pool T K V} (hp : Pool.make c = .ok p)
    (b : Backend W T K V) (convert : Converter W F V) (w : W) (moves : List (Move F)) :
    let start : Presenter T K V × Recorded W (Entry F T K V) := (ofPool p, .ofWorld w)
    let x := run b.recorded (Converter.recorded convert) moves start
    let history := asked b.recorded (Converter.recorded convert) start moves
    let seen := ticks x.2.trace
    let stats := x.1.pool.stats
    sizes seen = List.range' 1 stats.built ∧
    (stats.stalls = seen.count .underflow ∧ stats.stalls = seen.count .mapped) ∧
    (stats.markersRecorded = seen.count .recorded ∧
      stats.markersRecorded + seen.count .recordNoticed =
        history.countP fun t => t.returned?.isSome) ∧
    (stats.markerFaults = seen.count .recordFailed + seen.count .pollFailed ∧
      stats.markerFaults = seen.count .recordNoticed + seen.count .pollNoticed) ∧
    drops seen = List.range' 1 x.1.dropped ∧
    ∀ past t later, history = past ++ t :: later → t.TellsEnd past := by
  intro start x history seen stats
  have hstart : OnTrack Telling [] start := telling_make hp w
  have h : Telling history x.1.dropped (x.1.pool, x.2) :=
    (telling_tracks b convert).run moves hstart
  have ha := h.agrees
  refine ⟨ha.grown, ⟨ha.underflows.symm, ha.mapped.symm⟩, ⟨ha.recorded.symm, ha.returned⟩,
    ⟨ha.faults.symm, ?_⟩, ha.dropped, h.ends⟩
  rw [ha.recordNoticed, ha.pollNoticed]
  exact ha.faults.symm

/-- The second of two frames waits for the only surface and cannot be converted, so it leaves
that surface out until the end. -/
theorem statistics_agree_dropping :
    ∃ p : Pool Unit Unit Unit, Pool.make ⟨⟨4, 4⟩, 1⟩ = .ok p ∧
      let b : Backend (Recorded Unit (Entry Nat Unit Unit Unit)) Unit Unit Unit :=
        (steady false).recorded
      let convert : Converter Unit Nat Unit := fun frame _ =>
        if frame = 2 then throw (.conversion "torn") else pure ()
      let start : Presenter Unit Unit Unit × Recorded Unit (Entry Nat Unit Unit Unit) :=
        (ofPool p, .ofWorld ())
      let y := run b (Converter.recorded convert) [.present 1, .present 2] start
      let x := run b (Converter.recorded convert) [.present 1, .present 2, .close] start
      let past := asked b (Converter.recorded convert) start [.present 1, .present 2]
      let last := Pool.turn b (y.1.pool, y.2) .close
      sizes (ticks x.2.trace) = [1] ∧ (ticks x.2.trace).count .underflow = 1 ∧
      (ticks x.2.trace).count .recorded = 1 ∧ drops (ticks x.2.trace) = [1] ∧
      ((asked b (Converter.recorded convert) start [.present 1, .present 2, .close]).countP
        fun t => t.returned?.isSome) = 1 ∧
      last.TellsEnd past ∧ last.before.1.closed = false ∧
      last.before.1.outAtCursor past = true := by
  obtain ⟨p, hp⟩ : ∃ p : Pool Unit Unit Unit, Pool.make ⟨⟨4, 4⟩, 1⟩ = .ok p := ⟨_, rfl⟩
  obtain ⟨hgrown, ⟨hstalls, -⟩, ⟨hrecorded, hreturned⟩, -, hdropped, hends⟩ :=
    statistics_agree hp (steady false)
      (fun (frame : Nat) _ => if frame = 2 then throw (.conversion "torn") else pure ()) ()
      [.present 1, .present 2, .close]
  refine ⟨p, hp, hgrown.trans ?_, hstalls.symm.trans ?_, hrecorded.symm.trans ?_,
    hdropped.trans ?_, hreturned.symm.trans ?_, hends _ _ [] ?_, ?_, ?_⟩
  all_goals
    cases hp
    rfl

end Presenter
end SurfaceRelay
