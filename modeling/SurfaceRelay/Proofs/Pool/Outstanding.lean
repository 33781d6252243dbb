import SurfaceRelay.Proofs.Pool.Reuse
import SurfaceRelay.Proofs.Presenter
import SurfaceRelay.Proofs.Statistics

/-! Which handle a release takes back.

A release looks at the surface at the cursor and at nothing else. What its caller knows is
the history: the last surface handed out is `Outstanding` until a release succeeds. The two agree
because a surface that is out stands at the cursor (`out?`), and because an operation moves
neither unless it hands a surface out or takes one back: a failed one, a wait or a second acquire
leaves the surface that is out where it is (`standing_turn`). So a release is accepted
for the handle that is outstanding, and for no other (`release_accepts_outstanding`). -/
namespace SurfaceRelay.Pool
variable {W T K V : Type} {b : Backend W T K V} {p : Pool T K V} {w : W} {h k : Handle}

/-- The handle of the surface that is out. -/
def out? (p : Pool T K V) : Option Handle :=
  (p.ring.current?.filter fun s => s.phase = .writing).map (·.handle)

theorem out_iff :
    p.out? = some h ↔ ∃ s, p.ring.current? = some s ∧ s.phase = .writing ∧ s.handle = h := by
  simp only [out?, Option.map_eq_some_iff, Option.filter_eq_some_iff, decide_eq_true_eq, and_assoc]

/-- Nothing is out when every surface was released. -/
theorem out_of_released (hr : ∀ s, p.ring.current? = some s → s.phase = .released) :
    p.out? = none := by
  refine Option.eq_none_iff_forall_ne_some.2 fun h ho => ?_
  obtain ⟨s, hc, hw, -⟩ := out_iff.1 ho
  rw [hr s hc] at hw
  cases hw

/-! ### What the operations do to it -/

/-- An acquire sets out what it answers. When it fails, what was out stays out. -/
theorem Acquiring.out_after (hinv : p.Inv) {r : EStateM.Result Fault (Pool T K V × W) Handle}
    (ha : Acquiring b p w r) :
    (Attempt.leaves r).1.out? = (Attempt.answers r).toOption.or p.out? := by
  cases r with
  | ok k x =>
    obtain ⟨s, hc, hh, hw⟩ := ha.out hinv
    exact out_iff.2 ⟨s, hc, hw, hh⟩
  | error e x =>
    have hring : x.1.ring = p.ring := by
      cases ha with
      | closed => rfl
      | growthFailed hp hd => exact hd.ring.1
      | stallFailed hp hd => exact hd.ring.1
    simp only [Attempt.leaves, Attempt.answers, Except.toOption, Option.none_or, out?, hring]

/-- While a surface is out, an acquire hands out that surface. -/
theorem Acquiring.same {x : Pool T K V × W} (ha : Acquiring b p w (.ok k x))
    (ho : p.out? = some h) : k = h := by
  obtain ⟨s, hc, hw, rfl⟩ := out_iff.1 ho
  have hready {s' : Surface T K V} (hc' : p.ring.current? = some s') : s'.phase ≠ .released := by
    rw [hc] at hc'
    cases hc'
    rw [hw]
    exact Phase.noConfusion
  cases ha with
  | again hp hc' =>
    rw [hc] at hc'
    cases hc'
    rfl
  | ready hp hc' hr => exact absurd hr (hready hc')
  | @grew o s₁ p₁ w₁ w₂ hp hd =>
    have hcurrent := hd.current
    rw [hc] at hcurrent
    subst hcurrent
    exact absurd hd.released (hready hc)
  | stalled hp hd => exact absurd hd.released (hready hd.current)

/-- A release is accepted for the surface that is out, whether or not its marker can be
recorded. -/
theorem Releasing.answer {r : EStateM.Result Fault (Pool T K V × W) Unit}
    (hr : Releasing b h p w r) :
    Attempt.answers r =
      if p.closed then .error .closed
      else if p.out? = some h then .ok ()
      else .error (.staleHandle h) := by
  cases hr with
  | closed hp => exact (if_pos hp).symm
  | stale hp hs =>
    have hout : p.out? ≠ some h := fun ho => by
      obtain ⟨s, hc, hw, hh⟩ := out_iff.1 ho
      exact (hs s hc).elim (fun hne => hne hh) fun hne => hne hw
    rw [hp, if_neg Bool.false_ne_true, if_neg hout]
    rfl
  | recorded hp hc hh hs | unrecorded hp hc hh hs =>
    rw [hp, if_neg Bool.false_ne_true, if_pos (out_iff.2 ⟨_, hc, hs, hh⟩)]
    rfl

/-- After a release nothing is out. When it fails, what was out stays out. -/
theorem Releasing.out_after (hinv : p.Inv) {r : EStateM.Result Fault (Pool T K V × W) Unit}
    (hr : Releasing b h p w r) :
    (Attempt.leaves r).1.out? = if (Attempt.answers r).isOk then none else p.out? := by
  cases hr with
  | closed => rfl
  | stale => rfl
  | recorded hp hc | unrecorded hp hc =>
    exact out_of_released fun s hs =>
      hinv.released_passOn hc _ _ s ((Ring.mem_toQueue _ _).2 (Ring.current?_mem hs))

/-! ### What the history tells -/

/-- The last surface handed out is this one, and no release has succeeded since. -/
def Outstanding (h : Handle) (past : List (Turn W T K V)) : Prop :=
  ∃ before t since, past = before ++ t :: since ∧ t.lent? = some h ∧
    ∀ u ∈ since, u.lent? = none ∧ u.returned? = none

theorem not_outstanding_nil : ¬Outstanding h ([] : List (Turn W T K V)) := by
  rintro ⟨before, t, since, hpast, -⟩
  exact List.append_ne_nil_of_right_ne_nil _ (List.cons_ne_nil t since) hpast.symm

theorem outstanding_concat {past : List (Turn W T K V)} {t : Turn W T K V} :
    Outstanding h (past ++ [t]) ↔
      t.lent? = some h ∨ (t.lent? = none ∧ t.returned? = none) ∧ Outstanding h past := by
  constructor
  · rintro ⟨before, u, since, hpast, hu, hsince⟩
    rcases List.eq_nil_or_concat since with rfl | ⟨since, v, rfl⟩
    · obtain ⟨-, hlast⟩ := List.append_inj' hpast rfl
      cases hlast
      exact .inl hu
    · rw [List.concat_eq_append, ← List.cons_append, ← List.append_assoc] at hpast
      obtain ⟨rfl, hlast⟩ := List.append_inj' hpast rfl
      cases hlast
      rw [List.concat_eq_append] at hsince
      refine .inr ⟨hsince t (by simp), before, u, since, rfl, hu, fun v hv => ?_⟩
      exact hsince v (List.mem_append_left _ hv)
  · rintro (hl | ⟨ht, before, u, since, rfl, hu, hsince⟩)
    · exact ⟨past, t, [], rfl, hl, List.forall_mem_nil _⟩
    · refine ⟨before, u, since ++ [t], by simp, hu, fun v hv => ?_⟩
      rcases List.mem_append.1 hv with hv | hv
      · exact hsince v hv
      · rw [List.mem_singleton.1 hv]
        exact ht

/-- Pool and history agree on whether the pool was torn down, and until then on what is out. -/
structure Standing (past : List (Turn W T K V)) (p : Pool T K V) : Prop where
  inv : p.Inv
  closed : p.closed = true ↔ ∃ t ∈ past, t.op = .close
  out : p.closed = false → ∀ h, p.out? = some h ↔ Outstanding h past

theorem standing_make {c : Config} (hp : make c = .ok p) :
    Standing ([] : List (Turn W T K V)) p := by
  refine ⟨inv_make hp, ?_, fun _ h => ?_⟩
  all_goals obtain ⟨rfl, -⟩ := make_ok hp
  · simp
  · exact iff_of_false nofun not_outstanding_nil

/-! ### Turns -/

theorem Acquiring.closed_after {r : EStateM.Result Fault (Pool T K V × W) Handle}
    (ha : Acquiring b p w r) : (Attempt.leaves r).1.closed = p.closed := by
  cases ha with
  | grew hp hd | growthFailed hp hd | stalled hp hd | stallFailed hp hd => exact hd.ring.2.2.2.1
  | _ => rfl

theorem Releasing.closed_after {r : EStateM.Result Fault (Pool T K V × W) Unit}
    (hr : Releasing b h p w r) : (Attempt.leaves r).1.closed = p.closed := by
  cases hr <;> rfl

/-- A pool is torn down by nothing but a close. -/
theorem closed_after_turn (x : Pool T K V × W) (op : Op) :
    (turn b x op).after.1.closed = true ↔ x.1.closed = true ∨ op = .close := by
  cases op with
  | acquire =>
    rw [turn_acquire, (acquiring b x.1 x.2).closed_after]
    simp only [reduceCtorEq, or_false]
  | release k =>
    rw [turn_release, (releasing b k x.1 x.2).closed_after]
    simp only [reduceCtorEq, or_false]
  | awaitConsumer k =>
    rw [turn_awaitConsumer, (awaiting b k x.1 x.2).pool]
    simp only [reduceCtorEq, or_false]
  | close => exact iff_of_true (closed_close b x) (.inr rfl)

/-- What is out after a turn that does not tear the pool down. -/
theorem out_turn {x : Pool T K V × W} (hinv : x.1.Inv) {op : Op} (hop : op ≠ .close) :
    (turn b x op).after.1.out? = some h ↔
      (turn b x op).lent? = some h ∨
        ((turn b x op).lent? = none ∧ (turn b x op).returned? = none) ∧ x.1.out? = some h := by
  cases op with
  | acquire =>
    have hlent : (turn b x .acquire).lent? = (Attempt.answers (acquire b x)).toOption := by
      rw [turn_acquire]
      cases acquire b x <;> rfl
    have hreturned : (turn b x .acquire).returned? = none := rfl
    rw [hlent, hreturned, turn_acquire, (acquiring b x.1 x.2).out_after hinv]
    cases (Attempt.answers (acquire b x)).toOption <;> simp
  | release k =>
    rw [lent_turn x Op.noConfusion, returned_release, turn_release,
      (releasing b k x.1 x.2).out_after hinv]
    cases Attempt.answers (release b k x) <;> simp [Except.isOk, Except.toBool, Except.toOption]
  | awaitConsumer k =>
    have hreturned : (turn b x (.awaitConsumer k)).returned? = none := rfl
    rw [lent_turn x Op.noConfusion, hreturned, turn_awaitConsumer, (awaiting b k x.1 x.2).pool]
    simp
  | close => exact absurd rfl hop

theorem standing_turn {x : Pool T K V × W} {past : List (Turn W T K V)}
    (hs : Standing past x.1) (op : Op) :
    Standing (past ++ [turn b x op]) (turn b x op).after.1 where
  inv := inv_turn hs.inv op
  closed := by
    rw [closed_after_turn, hs.closed]
    simp [show (turn b x op).op = op from rfl, or_and_right, exists_or]
  out hopen h := by
    obtain ⟨hopen, hop⟩ := not_or.1 (mt (closed_after_turn x op).2 (ne_true_of_eq_false hopen))
    rw [outstanding_concat, ← hs.out (eq_false_of_ne_true hopen) h]
    exact out_turn hs.inv hop

theorem standing_run (ops : List Op) {x : Pool T K V × W} {past : List (Turn W T K V)}
    (hs : Standing past x.1) : Standing (past ++ turns b x ops) (run b x ops).1 := by
  induction ops generalizing x past with
  | nil =>
    rw [turns, List.append_nil]
    exact hs
  | cons op ops ih =>
    rw [turns, List.append_cons]
    exact ih (standing_turn hs op)

theorem ops_turns (x : Pool T K V × W) (ops : List Op) :
    (turns b x ops).map (·.op) = ops := by
  induction ops generalizing x with
  | nil => rfl
  | cons op ops ih => exact congrArg (op :: ·) (ih _)

/-- A pool is torn down when it was asked to be. -/
theorem Standing.closed_iff {x : Pool T K V × W} {ops : List Op} {q : Pool T K V}
    (hs : Standing (turns b x ops) q) : q.closed = true ↔ .close ∈ ops := by
  have hasked : .close ∈ (turns b x ops).map (·.op) ↔ _ := List.mem_map
  rw [ops_turns] at hasked
  exact hs.closed.trans hasked.symm

/-- Whether a release is accepted is told by the history. -/
theorem Standing.accepts {x : Pool T K V × W} {past : List (Turn W T K V)}
    (hs : Standing past x.1) :
    Attempt.answers (release b h x) = .ok () ↔ x.1.closed = false ∧ Outstanding h past := by
  rw [(releasing b h x.1 x.2).answer]
  cases hclosed : x.1.closed with
  | true => simp
  | false =>
    rw [← hs.out hclosed h]
    by_cases ho : x.1.out? = some h <;> simp [ho]

/-- A turn that fails changes nothing about it. -/
theorem answer_after_failed {x : Pool T K V × W} (hinv : x.1.Inv) {op : Op} {e : Fault}
    (hfail : (turn b x op).answer = .error e) :
    Attempt.answers (release b h (turn b x op).after) = Attempt.answers (release b h x) := by
  have hop : op ≠ .close := by
    rintro rfl
    cases hfail
  have hlent : (turn b x op).lent? = none := by rw [Turn.lent?, hfail]
  have hreturned : (turn b x op).returned? = none := by
    rw [Turn.returned?, hfail]
    split <;> first | rfl | contradiction
  have hclosed : (turn b x op).after.1.closed = x.1.closed := by
    rw [Bool.eq_iff_iff, closed_after_turn, or_iff_left hop]
  have hout : (turn b x op).after.1.out? = some h ↔ x.1.out? = some h := by
    rw [out_turn hinv hop, hlent, hreturned]
    simp
  rw [(releasing b h _ _).answer, (releasing b h x.1 x.2).answer, hclosed]
  simp only [hout]

/-! ### Handing out again -/

/-- While a surface is out no other one is handed out, and it stays out until it is released. -/
theorem turn_while_out {x : Pool T K V × W} (hinv : x.1.Inv)
    (ho : x.1.closed = true ∨ x.1.out? = some h) (op : Op) :
    (∀ k, (turn b x op).lent? = some k → k = h) ∧
    ((turn b x op).returned? = none →
      (turn b x op).after.1.closed = true ∨ (turn b x op).after.1.out? = some h) := by
  have hsame : ∀ k, (turn b x op).lent? = some k → k = h := by
    intro k hk
    by_cases hop : op = .acquire
    · subst hop
      have hanswer := lent_acquire_iff.1 hk
      have hacquired := Attempt.eq_ok_of_answers hanswer
      have ha : Acquiring b x.1 x.2 (acquire b x) := acquiring b x.1 x.2
      rw [hacquired] at ha
      rcases ho with hclosed | ho
      · rw [show acquire b x = .error .closed x from if_pos hclosed] at hanswer
        cases hanswer
      · exact ha.same ho
    · rw [lent_turn x hop] at hk
      cases hk
  refine ⟨hsame, fun hreturned => ?_⟩
  rw [closed_after_turn]
  by_cases hop : op = .close
  · exact .inl (.inr hop)
  · rcases ho with hclosed | ho
    · exact .inl (.inl hclosed)
    · refine .inr ((out_turn hinv hop).2 ?_)
      cases hl : (turn b x op).lent? with
      | none => exact .inr ⟨⟨rfl, hreturned⟩, ho⟩
      | some k => exact .inl (congrArg some (hsame k hl))

theorem turns_while_out (ops : List Op) {x : Pool T K V × W} (hinv : x.1.Inv)
    (ho : x.1.closed = true ∨ x.1.out? = some h)
    (hreturned : ∀ u ∈ turns b x ops, u.returned? = none) :
    ∀ u ∈ turns b x ops, ∀ k, u.lent? = some k → k = h := by
  induction ops generalizing x with
  | nil => exact List.forall_mem_nil _
  | cons op ops ih =>
    rw [turns, List.forall_mem_cons] at hreturned ⊢
    obtain ⟨hsame, hstays⟩ := turn_while_out hinv ho op
    exact ⟨hsame, ih (inv_turn hinv op) (hstays hreturned.1) hreturned.2⟩

/-! ### The handle that a release takes -/

/-- **A release takes back the handle that is outstanding, and no other.** After any requests to a
fresh pool, whatever its domains answer, a release is accepted for a handle just when the pool
was not torn down, the last acquire that succeeded gave out this handle, and no release has
succeeded since. Otherwise the answer says that the pool is torn down, or else that this handle
is stale. Nothing that the domains do at the release changes the answer, so a marker that cannot be
recorded does not hold it up, and a request that fails changes it neither. Acquires with no
release between them all give out one handle. -/
theorem release_accepts_outstanding {c : Config} {p : Pool T K V} (hp : make c = .ok p)
    (b : Backend W T K V) (w : W) (ops : List Op) (h : Handle) :
    let x := run b (p, w) ops
    let past := turns b (p, w) ops
    let answer (y : Pool T K V × W) := Attempt.answers (release b h y)
    (answer x = .ok () ↔ .close ∉ ops ∧ Outstanding h past) ∧
    (answer x ≠ .ok () →
      answer x = .error (if .close ∈ ops then .closed else .staleHandle h)) ∧
    (∀ (W' : Type) (b' : Backend W' T K V) (w' : W'),
      Attempt.answers (release b' h (x.1, w')) = answer x) ∧
    (∀ op e, (turn b x op).answer = .error e → answer (turn b x op).after = answer x) ∧
    ∀ before t since, past = before ++ t :: since → t.lent? = some h →
      (∀ u ∈ since, u.returned? = none) → ∀ u ∈ since, ∀ k, u.lent? = some k → k = h := by
  intro x past answer
  have hs : Standing past x.1 := standing_run ops (x := (p, w)) (standing_make hp)
  have hanswer : answer x = _ := (releasing b h x.1 x.2).answer
  refine ⟨?_, fun hne => ?_, fun W' b' w' => ?_, fun op e hfail => ?_, ?_⟩
  · rw [← hs.closed_iff, Bool.not_eq_true]
    exact hs.accepts
  · simp only [← hs.closed_iff]
    rw [hanswer] at hne ⊢
    split
    · rfl
    · rename_i hopen
      rw [if_neg hopen] at hne
      exact if_neg fun ho => hne (if_pos ho)
  · rw [hanswer]
    exact (releasing b' h x.1 w').answer
  · exact answer_after_failed hs.inv hfail
  · intro before t since hpast hlent hsince
    rw [List.append_cons] at hpast
    obtain ⟨ops₁, ops₂, hbefore, rfl⟩ := turns_split b hpast
    have hs₁ : Standing (before ++ [t]) (run b (p, w) ops₁).1 := by
      rw [hbefore]
      exact standing_run ops₁ (x := (p, w)) (standing_make hp)
    refine turns_while_out ops₂ hs₁.inv ?_ hsince
    cases hclosed : (run b (p, w) ops₁).1.closed with
    | true => exact .inl rfl
    | false => exact .inr ((hs₁.out hclosed h).2 (outstanding_concat.2 (.inl hlent)))

/-- The producer of these domains records no marker. -/
def unrecording : Backend Unit Unit Unit Unit :=
  { steady false with
    producer := { (steady false).producer with record := throw (.marker "lost") } }

/-- A surface is acquired twice, a handle that does not exist is waited for, and the release goes
through although no marker can be recorded. Then the handle is stale. -/
theorem release_accepts_outstanding_unrecorded :
    ∃ p : Pool Unit Unit Unit, make ⟨⟨4, 4⟩, 2⟩ = .ok p ∧
      let ops : List Op := [.acquire, .acquire, .awaitConsumer ⟨7⟩]
      let after (ops : List Op) := run unrecording (p, ()) ops
      Outstanding ⟨1⟩ (turns unrecording (p, ()) ops) ∧
      Attempt.answers (release unrecording ⟨1⟩ (after ops)) = .ok () ∧
      (after (ops ++ [.release ⟨1⟩])).1.stats.markerFaults = 1 ∧
      Attempt.answers (release unrecording ⟨1⟩ (after (ops ++ [.release ⟨1⟩]))) =
        .error (.staleHandle ⟨1⟩) := by
  obtain ⟨p, hp⟩ : ∃ p : Pool Unit Unit Unit, make ⟨⟨4, 4⟩, 2⟩ = .ok p := ⟨_, rfl⟩
  let ops : List Op := [.acquire, .acquire, .awaitConsumer ⟨7⟩]
  obtain ⟨haccepted, -⟩ := release_accepts_outstanding hp unrecording () ops ⟨1⟩
  obtain ⟨-, hrefused, -⟩ :=
    release_accepts_outstanding hp unrecording () (ops ++ [.release ⟨1⟩]) ⟨1⟩
  have hout : Outstanding ⟨1⟩ (turns unrecording (p, ()) ops) := by
    refine ⟨turns unrecording (p, ()) [.acquire],
      turn unrecording (run unrecording (p, ()) [.acquire]) .acquire,
      turns unrecording (run unrecording (p, ()) [.acquire, .acquire]) [.awaitConsumer ⟨7⟩],
      rfl, ?_, ?_⟩
    all_goals
      cases hp
      decide
  refine ⟨p, hp, hout, haccepted.2 ⟨by decide, hout⟩, ?_, hrefused ?_⟩
  all_goals
    cases hp
    decide

end SurfaceRelay.Pool
