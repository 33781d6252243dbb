import SurfaceRelay.Proofs.Pool.Failure
import SurfaceRelay.Proofs.Pool.Fixtures
import SurfaceRelay.Proofs.Pool.Outstanding

/-! Looking a surface up by its handle.

A lookup tries the slot at the cursor first and then goes through the slots in order. Where at
most one slot has what is looked for, a plain search through the slots finds the same one
(`Ring.locate?_eq_findIdx?`), and in a pool in shape no two surfaces share a handle. Which handles
can be found is told by the history (`Named`): one for each surface that was built, from the turn
that built it until the pool is torn down, and under it always the images that were handed out
with it. `lookup_finds_named_surface` puts this together. -/
namespace SurfaceRelay

namespace Ring
variable {α : Type} {p : α → Bool} {r : Ring α} {i : Nat}

/-- No two slots have the property. -/
def Single (r : Ring α) (p : α → Bool) : Prop :=
  ∀ ⦃i j : Nat⦄ ⦃a a' : α⦄, r.slots[i]? = some a → r.slots[j]? = some a' →
    p a = true → p a' = true → i = j

theorem locate?_eq_none : r.locate? p = none ↔ ∀ a ∈ r.slots, p a = false := by
  constructor
  · intro h a ha
    by_contra hp
    obtain ⟨a', ha'⟩ := find?_isSome ha (eq_true_of_ne_false hp)
    rw [find?, h] at ha'
    cases ha'
  · intro h
    by_contra hne
    obtain ⟨i, hi⟩ := Option.ne_none_iff_exists'.1 hne
    obtain ⟨a, ha, hp⟩ := locate?_some hi
    exact absurd hp (by simp [h a (List.mem_of_getElem? ha)])

theorem locate?_eq_some (hs : r.Single p) :
    r.locate? p = some i ↔ ∃ a, r.slots[i]? = some a ∧ p a = true := by
  refine ⟨locate?_some, fun ⟨a, ha, hp⟩ => ?_⟩
  cases hj : r.locate? p with
  | none => exact absurd hp (by simp [locate?_eq_none.1 hj a (List.mem_of_getElem? ha)])
  | some j =>
    obtain ⟨a', ha', hp'⟩ := locate?_some hj
    rw [hs ha' ha hp' hp]

/-- The short cut through the cursor leads to the same slot as a plain search. -/
theorem locate?_eq_findIdx? (hs : r.Single p) : r.locate? p = r.slots.findIdx? p := by
  rw [locate?]
  split
  · rename_i hc
    obtain ⟨a, ha, hp⟩ := (Option.any_eq_true p _).1 hc
    obtain ⟨hlt, rfl⟩ := List.getElem?_eq_some_iff.1 ha
    -- a plain search could only have stopped earlier, at a second slot with the property
    refine (List.findIdx?_eq_some_iff_getElem.2 ⟨hlt, hp, fun j hj hpj => ?_⟩).symm
    exact Nat.ne_of_lt hj (hs (List.getElem?_eq_getElem (Nat.lt_trans hj hlt)) ha hpj hp)
  · rfl

end Ring

namespace Pool
variable {W T K V : Type} {b : Backend W T K V} {p : Pool T K V} {k : Handle}

/-! ### One surface to a handle -/

theorem Inv.single (hinv : p.Inv) (k : Handle) : p.ring.Single (·.handle == k) := by
  intro i j s t hs ht hk hk'
  have hsame : s.handle = t.handle := (eq_of_beq hk).trans (eq_of_beq hk').symm
  have hi : p.handles[i]? = some s.handle := by rw [handles, List.getElem?_map, hs]; rfl
  have hj : p.handles[j]? = some s.handle := by rw [handles, List.getElem?_map, ht, hsame]; rfl
  have hlt := (List.getElem?_eq_some_iff.1 hi).1
  exact (List.getElem?_inj hlt hinv.handles_nodup).1 (hi.trans hj.symm)

theorem Inv.locate?_eq_some (hinv : p.Inv) {i : Nat} :
    p.locate? k = some i ↔ ∃ s, p.ring.slots[i]? = some s ∧ s.handle = k := by
  simp only [locate?, Ring.locate?_eq_some (hinv.single k), beq_iff_eq]

theorem locate?_eq_none : p.locate? k = none ↔ k ∉ p.handles := by
  simp only [locate?, Ring.locate?_eq_none, handles, List.mem_map, not_exists, not_and,
    beq_eq_false_iff_ne]

/-! ### What the history names -/

/-- The pool that a history leads to. -/
def left (p : Pool T K V) : List (Turn W T K V) → Pool T K V
  | [] => p
  | t :: rest => left t.after.1 rest

/-- A turn of the history built a surface under this handle. -/
def Created (k : Handle) (past : List (Turn W T K V)) : Prop :=
  ∃ t ∈ past, t.Grows ∧ t.answer = .ok (some k)

theorem created_concat {past : List (Turn W T K V)} {t : Turn W T K V} :
    Created k (past ++ [t]) ↔ Created k past ∨ t.Grows ∧ t.answer = .ok (some k) := by
  simp [Created, or_and_right, exists_or]

/-- A turn that does not tear the pool down adds the handle of the surface it builds, if it
builds one. -/
theorem mem_handles_turn {x : Pool T K V × W} (hinv : x.1.Inv) (op : Op)
    (hopen : (turn b x op).after.1.closed = false) :
    k ∈ (turn b x op).after.1.handles ↔
      k ∈ x.1.handles ∨ (turn b x op).Grows ∧ (turn b x op).answer = .ok (some k) := by
  -- both sides are told by the fixtures and the number of the next surface alone
  have hgrows : (turn b x op).Grows ↔
      x.1.fixtures.length < (turn b x op).after.1.fixtures.length := by
    rw [length_fixtures, length_fixtures]
    rfl
  have hnumber : (turn b x op).Grows →
      ((turn b x op).answer = .ok (some k) ↔ k = ⟨x.1.nextHandle⟩) := fun hg => by
    rcases numbering_turn (b := b) hinv op with ⟨-, hnot⟩ | ⟨hanswer, -⟩
    · exact absurd hg hnot
    · rw [hanswer, Except.ok.injEq, Option.some.injEq, eq_comm]
  have hrefitted := refitted_turn (b := b) hinv op
  rw [handles_eq, handles_eq, and_congr_right hnumber, hgrows]
  generalize (turn b x op).after = y at hrefitted hopen
  cases hrefitted with
  | kept hf => simp [hf]
  | @built o p₁ w₁ s w₂ p₂ n hd hb hf =>
    have hs : s.fixture.handle = ⟨x.1.nextHandle⟩ := (Surface.build_ok b _ hb).1
    have hlength : x.1.fixtures.length < p₂.fixtures.length := by
      rw [hf.length_eq]
      exact Nat.lt_succ_self _
    rw [(hf.map _).mem_iff, List.map_cons, List.mem_cons, hs, or_comm]
    simp only [hlength, true_and]
  | emptied hf hclosed => exact absurd hopen (by simp [hclosed])

/-- Pool and history agree on the surfaces there are. -/
structure Named (past : List (Turn W T K V)) (p : Pool T K V) : Prop where
  inv : p.Inv
  built : p.closed = false → ∀ k, k ∈ p.handles ↔ Created k past
  /-- What was handed out stood at the cursor, and has kept its images since. -/
  lent : ∀ t ∈ past, ∀ k, t.answer = .ok (some k) →
    ∃ s, t.after.1.ring.current? = some s ∧ s.handle = k ∧ p.Keeps s.fixture

theorem named_make {c : Config} (hp : make c = .ok p) :
    Named ([] : List (Turn W T K V)) p := by
  refine ⟨inv_make hp, fun _ k => ?_, fun _ ht => nomatch ht⟩
  simp [handles, make_ring hp, Ring.empty, Created]

theorem named_turn {x : Pool T K V × W} {past : List (Turn W T K V)} (hn : Named past x.1)
    (op : Op) : Named (past ++ [turn b x op]) (turn b x op).after.1 where
  inv := inv_turn hn.inv op
  built hopen k := by
    have hbefore : x.1.closed = false :=
      eq_false_of_ne_true fun h =>
        absurd ((closed_after_turn (b := b) x op).2 (.inl h)) (ne_true_of_eq_false hopen)
    rw [mem_handles_turn hn.inv op hopen, hn.built hbefore, created_concat]
  lent t ht k hk := by
    rcases List.mem_append.1 ht with ht | ht
    · obtain ⟨s, hc, hs, hkeeps⟩ := hn.lent t ht k hk
      exact ⟨s, hc, hs, keeps_turn op hkeeps⟩
    · obtain rfl := List.mem_singleton.1 ht
      obtain ⟨rfl, hacquire⟩ := acquire_of_answer b hk
      have ha : Acquiring b x.1 x.2 (acquire b x) := acquiring b x.1 x.2
      rw [hacquire] at ha
      obtain ⟨s, hc, hs, -⟩ := ha.out hn.inv
      exact ⟨s, hc, hs, inv_turn hn.inv _, fun _ => fixture_mem (Ring.current?_mem hc)⟩

/-- Whatever happens in the world between the requests. -/
theorem Course.named {may : W → W → Prop} {x : Pool T K V × W} {later : List (Turn W T K V)}
    (h : Course b may x later) {past : List (Turn W T K V)} (hn : Named past x.1) :
    Named (past ++ later) (left x.1 later) := by
  induction h generalizing past with
  | done =>
    rw [List.append_nil]
    exact hn
  | @next p w w' rest hmay op hrest ih =>
    rw [List.append_cons]
    exact ih (named_turn (x := (p, w')) hn op)

/-! ### The surface that a handle names -/

/-- Everything that is asked of a handle goes to one surface. -/
structure Answers (p : Pool T K V) (k : Handle) (i : Nat) (s : Surface T K V) : Prop where
  located : p.locate? k = some i
  slot : p.ring.slots[i]? = some s
  phase : p.phase? k = some s.phase
  texture : p.texture? k = some s.texture
  view : p.view? k = some s.view
  /-- A wait for the consumer copies from this surface, and maps its staging. -/
  landed : ∀ {W' : Type} {b' : Backend W' T K V} {w w' : W'},
    b'.consumer.drain s.view s.viewStaging p.stagingSize w = .ok () w' →
      awaitConsumer b' k (p, w) = .ok () (p, w')
  failed : ∀ {W' : Type} {b' : Backend W' T K V} {w w' : W'} {e : Fault},
    b'.consumer.drain s.view s.viewStaging p.stagingSize w = .error e w' →
      awaitConsumer b' k (p, w) = .error e (p, b'.note (.consumerWaitFailed k e) w')

theorem Inv.answers (hinv : p.Inv) (hopen : p.closed = false) {i : Nat} {s : Surface T K V}
    (hs : p.ring.slots[i]? = some s) : p.Answers s.handle i s := by
  have hfind : p.find? s.handle = some s := hinv.find?_eq_some.2 ⟨List.mem_of_getElem? hs, rfl⟩
  refine ⟨hinv.locate?_eq_some.2 ⟨s, hs, rfl⟩, hs, ?_, ?_, ?_, fun hw => ?_, fun hw => ?_⟩
  · rw [phase?, hfind, Option.map_some]
  · rw [texture?, hfind, Option.map_some]
  · rw [view?, hfind, Option.map_some]
  · simp only [awaitConsumer, hopen, hfind, hw, Bool.false_eq_true, if_false]
  · simp only [awaitConsumer, hopen, hfind, hw, Bool.false_eq_true, if_false]

/-- **A handle names one surface, wherever the cursor stands.** After any requests to a fresh pool,
whatever its domains answer and whatever happens in them between the requests: a handle is found at
an index just when the surface there has it, no other index does, and so a plain search through
the ring finds the same. It is not found just when no surface was ever built under it or the
pool is torn down. Until then a handle that was handed out, however long ago, stands for the
surface that it was handed out with: its phase, its texture and its view are answered, and waiting
for the consumer works with its view and staging. -/
theorem lookup_finds_named_surface {c : Config} (hp : make c = .ok p) (b : Backend W T K V) (w : W)
    {may : W → W → Prop} {past : List (Turn W T K V)} (hpast : Course b may (p, w) past)
    (k : Handle) :
    let q := left p past
    (∀ i, q.locate? k = some i ↔ ∃ s, q.ring.slots[i]? = some s ∧ s.handle = k) ∧
    (∀ (i j : Nat) (s t : Surface T K V), q.ring.slots[i]? = some s → q.ring.slots[j]? = some t →
      s.handle = k → t.handle = k → i = j) ∧
    q.locate? k = q.ring.slots.findIdx? (·.handle == k) ∧
    (q.locate? k = none ↔ ¬Created k past ∨ q.closed = true) ∧
    ∀ t ∈ past, t.answer = .ok (some k) → q.closed = false →
      ∃ s₀ s i, t.after.1.ring.current? = some s₀ ∧ s₀.handle = k ∧ s.fixture = s₀.fixture ∧
        q.Answers k i s := by
  intro q
  have hn : Named past q := hpast.named (x := (p, w)) (named_make hp)
  refine ⟨fun i => hn.inv.locate?_eq_some, fun i j s t hs ht hk hk' => ?_,
    Ring.locate?_eq_findIdx? (hn.inv.single k), ?_, fun t ht hk hopen => ?_⟩
  · exact hn.inv.single k hs ht (beq_iff_eq.2 hk) (beq_iff_eq.2 hk')
  · rw [locate?_eq_none]
    cases hclosed : q.closed with
    | true => simp [handles, hn.inv.emptied hclosed, Ring.empty]
    | false => simp [hn.built hclosed]
  · obtain ⟨s₀, hc, rfl, hkeeps⟩ := hn.lent t ht k hk
    obtain ⟨s, hs, hfixture⟩ := mem_fixtures.1 (hkeeps.2 hopen)
    obtain ⟨i, hi⟩ := List.mem_iff_getElem?.1 hs
    have hhandle : s.handle = s₀.handle := congrArg Fixture.handle hfixture
    exact ⟨s₀, s, i, hc, rfl, hfixture, hhandle ▸ hn.inv.answers hopen hi⟩

/-- Markers that never retire: the second surface is built in front of the first and is at the
cursor when it goes out, so the ring does not stand in the order of the handles. -/
theorem lookup_finds_named_surface_lagging :
    ∃ p : Pool Unit Unit Unit, make ⟨⟨4, 4⟩, 2⟩ = .ok p ∧
      let past := turns (steady false) (p, ()) [.acquire, .release ⟨1⟩, .acquire]
      let q := left p past
      q.handles = [⟨2⟩, ⟨1⟩] ∧ q.ring.cursor = 0 ∧ q.locate? ⟨1⟩ = some 1 ∧
      (∃ s i, s.handle = ⟨1⟩ ∧ q.Answers ⟨1⟩ i s) ∧ ¬Created ⟨3⟩ past := by
  obtain ⟨p, hp⟩ : ∃ p : Pool Unit Unit Unit, make ⟨⟨4, 4⟩, 2⟩ = .ok p := ⟨_, rfl⟩
  have hpast := course_turns (b := steady false) (p, ()) [.acquire, .release ⟨1⟩, .acquire]
  obtain ⟨hfound, -, -, -, hanswers⟩ := lookup_finds_named_surface hp _ _ hpast ⟨1⟩
  obtain ⟨-, -, -, hnone, -⟩ := lookup_finds_named_surface hp _ _ hpast ⟨3⟩
  refine ⟨p, hp, ?_, ?_, (hfound 1).2 ?_, ?_, ?_⟩
  · cases hp
    rfl
  · cases hp
    rfl
  · cases hp
    exact ⟨_, rfl, rfl⟩
  · obtain ⟨s₀, s, i, -, hs₀, hs, hall⟩ :=
      hanswers (turn (steady false) (p, ()) .acquire) (List.mem_cons_self ..)
        (by cases hp; rfl) (by cases hp; rfl)
    exact ⟨s, i, (congrArg Fixture.handle hs).trans hs₀, hall⟩
  · refine (hnone.1 ?_).resolve_right ?_
    all_goals
      cases hp
      decide

end Pool
end SurfaceRelay
