import SurfaceRelay.Proofs.Gl.Operations

/-! Whose context is current.

A thread drives any number of domains, and a world remembers for it whose hook ran last. That
memory is of one operation only: it names the context of the last operation that touched one, and
nothing when this context has no hook (`Stands.current`). So a hook runs when the operation before
was one of another domain, and a call on a context with a hook is made behind that hook, with
nothing but other calls on the same context in between (`Behind`). -/
namespace SurfaceRelay.Gl
variable {κ σ : Type}

/-- The context of the last operation that touched one. -/
def lastTouched (ops : List (κ × Operation)) : Option κ :=
  (ops.filter (·.2.touches)).getLast?.map Prod.fst

theorem lastTouched_snoc (ops : List (κ × Operation)) (k : κ) (op : Operation) :
    lastTouched (ops ++ [(k, op)]) = if op.touches then some k else lastTouched ops := by
  unfold lastTouched
  cases h : op.touches <;> simp [h]

/-! ### What happens on a thread -/

inductive Happening (κ : Type)
  /-- A context without a hook was worked on, so that nobody knows any more what is current. -/
  | lost (k : κ)
  | line (e : Entry κ)

/-- The hook of this context ran last, and nothing came after it but calls on the context. -/
def Behind (k : κ) (events : List (Happening κ)) : Prop :=
  ∃ earlier since, events = earlier ++ .line (.activated k) :: since ∧
    ∀ e ∈ since, ∃ c answer, e = .line (.call k c answer)

theorem Behind.append {k : κ} {events more : List (Happening κ)} (h : Behind k events)
    (hmore : ∀ e ∈ more, ∃ c answer, e = .line (.call k c answer)) : Behind k (events ++ more) := by
  obtain ⟨earlier, since, rfl, hsince⟩ := h
  refine ⟨earlier, since ++ more, by simp, fun e he => ?_⟩
  exact (List.mem_append.1 he).elim (hsince e) (hmore e)

namespace Group
variable (g : Group κ σ) {k : κ} {w w' : World κ σ}

theorem Calling.lines {g : Group κ σ} {P : Call → Prop} (h : g.Calling k P w w') :
    ∃ lines, (∀ e ∈ lines, ∃ c answer, e = .call k c answer) ∧ w'.log = w.log ++ lines ∧
      w'.current = w.current := by
  obtain ⟨cs, lines, -, hmade, hlog, hcurrent⟩ := h.log
  refine ⟨lines, fun e he => ?_, hlog, hcurrent⟩
  obtain ⟨i, hi, rfl⟩ := List.getElem_of_mem he
  exact ⟨_, (List.forall₂_iff_get.1 hmade).2 i (hmade.length_eq ▸ hi) hi⟩

variable [DecidableEq κ]

/-- The hook runs unless the world remembers the context, which it does from then on. -/
theorem enter_exact {g : Group κ σ} (h : g.enter k w = .ok () w') :
    w'.current = (if g.hooked k then some k else none) ∧
      w'.log = w.log ++ if g.hooked k ∧ w.current ≠ some k then [.activated k] else [] := by
  unfold enter at h
  cases hhook : g.hooked k with
  | false =>
    rw [hhook] at h
    cases h
    simp
  | true =>
    rw [hhook] at h
    by_cases hcurrent : w.current = some k <;> simp [hcurrent] at h <;> subst h <;> simp [hcurrent]

/-- What an operation makes happen. -/
def happened (w : World κ σ) (k : κ) (op : Operation) : List (Happening κ) :=
  (if op.touches && !g.hooked k then [.lost k] else []) ++
    ((Attempt.leaves (g.perform k op w)).log.drop w.log.length).map .line

def happenings (w : World κ σ) : List (κ × Operation) → List (Happening κ)
  | [] => []
  | (k, op) :: rest => g.happened w k op ++ happenings (Attempt.leaves (g.perform k op w)) rest

theorem happenings_snoc (w : World κ σ) (ops : List (κ × Operation)) (k : κ) (op : Operation) :
    g.happenings w (ops ++ [(k, op)]) =
      g.happenings w ops ++ g.happened (g.run w ops) k op := by
  induction ops generalizing w with
  | nil => simp [happenings, run]
  | cons x ops ih =>
    show g.happened w x.1 x.2 ++ g.happenings _ (ops ++ [(k, op)]) = _
    rw [ih, ← List.append_assoc]
    rfl

/-! ### One operation -/

/-- How an operation goes about its context, behind the others on its thread. -/
structure Turn (w : World κ σ) (past : List (κ × Operation)) (k : κ) (op : Operation)
    (w' : World κ σ) : Prop where
  /-- Without a look at the context, nothing changes. -/
  outside : op.touches = false → w' = w
  /-- The hook runs first, if another context was touched in between; then come the calls, all of
  this context. -/
  inside : op.touches = true → ∃ calls, (∀ e ∈ calls, ∃ c answer, e = .call k c answer) ∧
    w'.log = w.log ++
      (if g.hooked k ∧ lastTouched past ≠ some k then [.activated k] else []) ++ calls
  /-- Only a context with a hook is known to be current from then on. -/
  known : op.touches = true → w'.current = if g.hooked k then some k else none

/-- Where a thread stands behind its operations. -/
structure Stands (ops : List (κ × Operation)) (events : List (Happening κ)) (w : World κ σ) :
    Prop where
  current : ∀ k, w.current = some k ↔ g.hooked k = true ∧ lastTouched ops = some k
  behind : ∀ k, w.current = some k → Behind k events

variable {g} {ops : List (κ × Operation)} {events : List (Happening κ)}

theorem Stands.turn (h : g.Stands ops events w) (k : κ) (op : Operation) :
    g.Turn w ops k op (Attempt.leaves (g.perform k op w)) := by
  rcases g.perform_leaves k op w with ⟨hout, hsame⟩ | ⟨hin, w₁, henter, hcalling⟩
  · exact ⟨fun _ => hsame, fun hin => by simp [hout] at hin, fun hin => by simp [hout] at hin⟩
  · obtain ⟨hcurrent, hlog⟩ := enter_exact henter
    obtain ⟨calls, hcalls, hlog', hcurrent'⟩ := hcalling.lines
    refine ⟨fun hout => by simp [hin] at hout, fun _ => ⟨calls, hcalls, ?_⟩, fun _ => ?_⟩
    · rw [hlog', hlog]
      by_cases hk : g.hooked k = true <;> simp [hk, h.current]
    · rw [hcurrent', hcurrent]

/-- What comes before the calls of an operation that touches its context. -/
def opening (g : Group κ σ) (past : List (κ × Operation)) (k : κ) : List (Happening κ) :=
  if g.hooked k then if lastTouched past ≠ some k then [.line (.activated k)] else [] else [.lost k]

/-- Behind the opening, calls on a context with a hook are behind that hook. -/
theorem Stands.opening (h : g.Stands ops events w) (hk : g.hooked k = true) :
    Behind k (events ++ g.opening ops k) := by
  unfold Group.opening
  rw [if_pos hk]
  by_cases hlast : lastTouched ops = some k
  · simpa [hlast] using h.behind k ((h.current k).2 ⟨hk, hlast⟩)
  · rw [if_pos hlast]
    exact ⟨events, [], rfl, fun e he => by cases he⟩

theorem Stands.happened (h : g.Stands ops events w) (k : κ) (op : Operation) :
    (op.touches = false ∧ g.happened w k op = []) ∨ (op.touches = true ∧
      ∃ calls, (∀ e ∈ calls, ∃ c answer, e = .line (.call k c answer)) ∧
        g.happened w k op = g.opening ops k ++ calls) := by
  obtain ⟨houtside, hinside, -⟩ := h.turn k op
  unfold Group.happened Group.opening
  cases htouches : op.touches with
  | false => exact .inl ⟨rfl, by simp [houtside htouches]⟩
  | true =>
    obtain ⟨calls, hcalls, hlog⟩ := hinside htouches
    refine .inr ⟨rfl, calls.map .line, fun e he => ?_, ?_⟩
    · obtain ⟨line, hline, rfl⟩ := List.mem_map.1 he
      obtain ⟨c, answer, rfl⟩ := hcalls line hline
      exact ⟨c, answer, rfl⟩
    · rw [hlog, List.append_assoc, List.drop_left]
      by_cases hk : g.hooked k = true <;> by_cases hlast : lastTouched ops = some k <;>
        simp [hk, hlast]

theorem Stands.next (h : g.Stands ops events w) (k : κ) (op : Operation) :
    g.Stands (ops ++ [(k, op)]) (events ++ g.happened w k op)
      (Attempt.leaves (g.perform k op w)) := by
  obtain ⟨houtside, -, hknown⟩ := h.turn k op
  rcases h.happened k op with ⟨hout, hnone⟩ | ⟨hin, calls, hcalls, hsome⟩
  · rw [houtside hout, hnone, List.append_nil]
    refine ⟨fun k' => ?_, h.behind⟩
    rw [lastTouched_snoc, hout, h.current]
    rfl
  · have hcurrent (k' : κ) : (Attempt.leaves (g.perform k op w)).current = some k' ↔
        g.hooked k' = true ∧ k = k' := by
      rw [hknown hin]
      by_cases hk : g.hooked k = true
      · simp only [hk, if_true, Option.some_inj]
        exact ⟨fun heq => ⟨heq ▸ hk, heq⟩, And.right⟩
      · simp only [hk]
        exact iff_of_false (by simp) fun hk' => hk (hk'.2 ▸ hk'.1)
    refine ⟨fun k' => ?_, fun k' hk' => ?_⟩
    · rw [hcurrent, lastTouched_snoc, hin, if_pos rfl, Option.some_inj]
    · obtain ⟨hk, rfl⟩ := (hcurrent k').1 hk'
      rw [hsome, ← List.append_assoc]
      exact (h.opening hk).append hcalls

/-- A call on a context with a hook is made behind the hook. -/
def Led (g : Group κ σ) : List (Happening κ) → Prop :=
  Throughout fun past e => ∀ k c answer, e = .line (.call k c answer) → g.hooked k = true →
    Behind k past

theorem Stands.led (h : g.Stands ops events w) (hled : g.Led events) (k : κ) (op : Operation) :
    g.Led (events ++ g.happened w k op) := by
  rcases h.happened k op with ⟨-, hnone⟩ | ⟨-, calls, hcalls, hsome⟩
  · rwa [hnone, List.append_nil]
  have hopening : g.Led (events ++ g.opening ops k) := by
    refine hled.append fun past e later hsplit k' c answer he => ?_
    -- none of it is a call
    have hmem : Happening.line (.call k' c answer) ∈ g.opening ops k := by
      rw [hsplit, he]
      simp
    unfold Group.opening at hmem
    split at hmem <;> [split at hmem; skip] <;> simp at hmem
  rw [hsome, ← List.append_assoc]
  refine hopening.append fun past e later hsplit k' c answer he hk' => ?_
  obtain ⟨c', answer', hcall⟩ := hcalls e (by simp [hsplit])
  cases he.symm.trans hcall
  exact (h.opening hk').append fun e' he' => hcalls e' (by simp [hsplit, he'])

/-! ### Any operations -/

variable (g)

theorem stands_run (gl : σ) (ops : List (κ × Operation)) :
    g.Stands ops (g.happenings ⟨gl, none, []⟩ ops) (g.run ⟨gl, none, []⟩ ops) ∧
      g.Led (g.happenings ⟨gl, none, []⟩ ops) := by
  induction ops using List.reverseRecOn with
  | nil => exact ⟨⟨fun k => by simp [run, lastTouched], fun k hk => by cases hk⟩, .nil⟩
  | append_singleton ops x ih =>
    obtain ⟨k, op⟩ := x
    obtain ⟨hstands, hled⟩ := ih
    rw [run_snoc, happenings_snoc]
    exact ⟨hstands.next k op, hstands.led hled k op⟩

/-- **A hook runs exactly when the last operation that touched a context was one of another
domain, and every call on a context with a hook is made behind that hook**, whatever operations a
thread performs on whatever domains, and whatever is answered to their calls. -/
theorem activated_on_change (gl : σ) (ops : List (κ × Operation)) :
    Throughout (fun past x => g.Turn (g.run ⟨gl, none, []⟩ past) past x.1 x.2
      (g.run ⟨gl, none, []⟩ (past ++ [x]))) ops ∧ g.Led (g.happenings ⟨gl, none, []⟩ ops) := by
  refine ⟨fun past x later hsplit => ?_, (g.stands_run gl ops).2⟩
  dsimp only
  rw [run_snoc]
  exact (g.stands_run gl past).1.turn x.1 x.2

end Group
end SurfaceRelay.Gl
