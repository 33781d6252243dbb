import SurfaceRelay.Proofs.Lines

/-! How much an acquire asks of the domains.

An acquire is on the way of every frame, so what it may cost is settled: it polls one marker at
most, and then grows the ring, waits once for the producer, or does nothing more (`Sparing`). The
ways through an acquire are few, and each is a judgement of the surface at the cursor (`Asked`)
followed by lines on one errand: building, or one wait (`Waited`). -/
namespace SurfaceRelay
variable {W F T K V α : Type}

/-! ### Lines by their errands -/

/-- The lines on an errand. -/
def about (x : Errand) (lines : List (Entry F T K V)) : List (Entry F T K V) :=
  lines.filter (·.errand = x)

theorem about_append (x : Errand) (lines more : List (Entry F T K V)) :
    about x (lines ++ more) = about x lines ++ about x more := List.filter_append ..

/-- There are no lines on an errand that none of them has. -/
theorem about_eq_nil {x : Errand} {errands : List Errand} {lines : List (Entry F T K V)}
    (h : ∀ e ∈ lines, e.errand ∈ errands) (hx : x ∉ errands) : about x lines = [] := by
  refine List.filter_eq_nil_iff.2 fun e he hx' => hx ?_
  exact of_decide_eq_true hx' ▸ h e he

/-- More errands may be named. -/
theorem errands_mono {errands errands' : List Errand} (hsub : errands ⊆ errands')
    {lines : List (Entry F T K V)} (h : ∀ e ∈ lines, e.errand ∈ errands) :
    ∀ e ∈ lines, e.errand ∈ errands' := fun e he => hsub (h e he)

/-- All lines are on the errand. -/
theorem about_self {x : Errand} {lines : List (Entry F T K V)}
    (h : ∀ e ∈ lines, e.errand = x) : about x lines = lines :=
  List.filter_eq_self.2 fun e he => decide_eq_true (h e he)

/-- The lines of a wait: one copy, and one map if the copy was accepted. -/
inductive Waited {I : Type} (entry : ImageCall I → Entry F T K V) (image staging : I)
    (region : Extent) : List (Entry F T K V) → Prop
  | refused (e : Fault) : Waited entry image staging region
      [entry (.stage image staging region (.error e))]
  | mapped (answer : Except Fault Unit) : Waited entry image staging region
      [entry (.stage image staging region (.ok ())), entry (.blockOn staging answer)]

/-- The producer answered that what the marker stands for has retired. -/
def Entry.provesIdle : Entry F T K V → Bool
  | producer (.poll _ (.ok (some _))) => true
  | _ => false

theorem Entry.errand_of_provesIdle {e : Entry F T K V} (h : e.provesIdle = true) :
    e.errand = .poll := by
  rcases e with (_ | _ | _ | _ | _ | _ | _) | _ | _ <;> first | rfl | cases h

/-- The producer was asked to map a staging resource. -/
def Entry.mapsTexture : Entry F T K V → Bool
  | producer (.image (.blockOn ..)) => true
  | _ => false

/-- The consumer mapped a staging resource. -/
def Entry.mappedView : Entry F T K V → Bool
  | consumer (.image (.blockOn _ (.ok _))) => true
  | _ => false

theorem Entry.errand_of_mapsTexture {e : Entry F T K V} (h : e.mapsTexture = true) :
    e.errand = .wait := by
  rcases e with ((_ | _ | _ | _ | _) | _ | _ | _ | _ | _ | _) | _ | _ <;> first | rfl | cases h

theorem Entry.errand_of_mappedView {e : Entry F T K V} (h : e.mappedView = true) :
    e.errand = .wait := by
  rcases e with _ | ((_ | _ | _ | _ | _) | _ | _) | _ <;> first | rfl | cases h

/-- Lines are counted among those on their errand. -/
theorem countP_about {x : Errand} {q : Entry F T K V → Bool} (hq : ∀ e, q e = true → e.errand = x)
    (lines : List (Entry F T K V)) : (about x lines).countP q = lines.countP q := by
  rw [about, List.countP_filter]
  refine List.countP_congr fun e _ => ?_
  simpa using hq e

/-- No line on these errands is counted. -/
theorem countP_eq_zero {errands : List Errand} {lines : List (Entry F T K V)}
    (h : ∀ e ∈ lines, e.errand ∈ errands) {q : Entry F T K V → Bool} {x : Errand}
    (hq : ∀ e, q e = true → e.errand = x) (hx : x ∉ errands) : lines.countP q = 0 := by
  rw [← countP_about hq, about_eq_nil h hx]
  rfl

namespace Pool
variable {b : Backend W T K V} {p p₁ : Pool T K V} {r r₁ : Recorded W (Entry F T K V)}

/-! ### One acquire -/

/-- The lines in which a surface at the cursor is judged, unless it may go out. -/
structure Asked (p : Pool T K V) (lines : List (Entry F T K V)) : Prop where
  errands : ∀ e ∈ lines, e.errand ∈ [.poll, .report]
  polled : about .poll lines = [] ∨ ∃ s a, p.ring.current? = some s ∧ s.phase = .released ∧
    s.armed = true ∧ about .poll lines = [.producer (.poll s.marker a)]
  unproven : ∀ e ∈ lines, e.provesIdle = false

theorem asked_nil : Asked (F := F) p [] :=
  ⟨List.forall_mem_nil _, .inl rfl, List.forall_mem_nil _⟩

theorem Declined.asked {o : Option (Surface T K V)} (hd : Declined b.recorded p r o p₁ r₁) :
    ∃ lines, r₁.trace = r.trace ++ lines ∧ Asked p lines := by
  cases hd with
  | vacant => exact ⟨[], (List.append_nil _).symm, asked_nil⟩
  | unarmed => exact ⟨[], (List.append_nil _).symm, asked_nil⟩
  | @pending s r₁ hc hr ha hpoll =>
    refine ⟨[.producer (.poll s.marker (.ok none))], call_ok hpoll, ?_, ?_, ?_⟩
    · simp [Entry.errand]
    · exact .inr ⟨s, _, hc, hr, ha, rfl⟩
    · simp [Entry.provesIdle]
  | @unknown s e r' hc hr ha hpoll =>
    refine ⟨[.producer (.poll s.marker (.error e)), .notice (.pollFailed s.handle e)], ?_, ?_, ?_,
      ?_⟩
    · show r'.trace ++ _ = _
      rw [call_error hpoll, List.append_assoc]
      rfl
    · simp [Entry.errand, Notice.fromPool]
    · exact .inr ⟨s, _, hc, hr, ha, rfl⟩
    · simp [Entry.provesIdle]

/-- Building makes and destroys, and reports. -/
theorem build_errands (h : Handle) (size stagingSize : Extent) {past : List (Entry F T K V)} :
    (Surface.build b.recorded h size stagingSize).Keeps (Extends [.supply, .report] past) :=
  Surface.build_keeps h (fun _ _ _ r => Extends.note (by decide) _ r rfl)
    (extends_untouched b (by decide)) size stagingSize

section
variable {I : Type} {d : Domain W I} {entry : ImageCall I → Entry F T K V} {image staging : I}
  {region : Extent}

/-- A wait that succeeds copied and mapped. -/
theorem drain_landed (h : (Recorded.domain d entry).drain image staging region r = .ok () r₁) :
    r₁.trace = r.trace ++ [entry (.stage image staging region (.ok ())),
      entry (.blockOn staging (.ok ()))] := by
  obtain ⟨r', hstage, hmap⟩ := drain_ok h
  rw [call_ok hmap, call_ok hstage, List.append_assoc]
  rfl

/-- A wait that fails was refused the copy or the map. -/
theorem drain_failed {e : Fault}
    (h : (Recorded.domain d entry).drain image staging region r = .error e r₁) :
    ∃ lines, r₁.trace = r.trace ++ lines ∧ Waited entry image staging region lines := by
  rcases hstage : (Recorded.domain d entry).stage image staging region r with ⟨_, r'⟩ | ⟨e', r'⟩
  · rw [Domain.drain, Attempt.bind_of_ok hstage] at h
    refine ⟨_, ?_, .mapped (.error e)⟩
    rw [call_error h, call_ok hstage, List.append_assoc]
    rfl
  · have hrefused : (Recorded.domain d entry).drain image staging region r = .error e' r' := by
      simp only [Domain.drain, bind, EStateM.bind, hstage]
    cases hrefused.symm.trans h
    exact ⟨_, call_error hstage, .refused _⟩

end

/-- What an acquire may ask for, with this pool before it. -/
structure Sparing (p : Pool T K V) (lines : List (Entry F T K V)) : Prop where
  errands : ∀ e ∈ lines, e.errand ∈ [.supply, .poll, .wait, .report]
  /-- At most one marker is polled: that of a released surface at the cursor, if it was
  recorded. -/
  polled : about .poll lines = [] ∨ ∃ s a, p.ring.current? = some s ∧ s.phase = .released ∧
    s.armed = true ∧ about .poll lines = [.producer (.poll s.marker a)]
  /-- There is at most one wait: for a released surface at the cursor of a full ring that was not
  found to have retired, and for the producer. Nothing is made then. -/
  waited : about .wait lines = [] ∨ p.capacity ≤ p.ring.size ∧ about .supply lines = [] ∧
    (∀ e ∈ lines, e.provesIdle = false) ∧ ∃ s, p.ring.current? = some s ∧ s.phase = .released ∧
      Waited (fun c => .producer (.image c)) s.texture s.staging p.stagingSize (about .wait lines)
  /-- Something is made only while there is room. Nothing is waited for then. -/
  supplied : about .supply lines = [] ∨ p.ring.size < p.capacity ∧ about .wait lines = []
  /-- A surface that is out is handed out again without a call. -/
  out : ∀ s, p.ring.current? = some s → s.phase = .writing → lines = []
  /-- Nothing comes behind the answer that a marker has retired. -/
  proven : ∀ e ∈ lines, e.provesIdle = true → lines = [e]

namespace Sparing

theorem nil : Sparing (F := F) p [] :=
  ⟨List.forall_mem_nil _, .inl rfl, .inl rfl, .inl rfl, fun _ _ _ => rfl, List.forall_mem_nil _⟩

variable {asked more : List (Entry F T K V)}

/-- Room was made for another surface. -/
theorem of_supply (hasked : Asked p asked) (hmore : ∀ e ∈ more, e.errand ∈ [.supply, .report])
    (hroom : p.ring.size < p.capacity)
    (hreleased : ∀ s, p.ring.current? = some s → s.phase = .released) :
    Sparing p (asked ++ more) := by
  have hwait : about .wait (asked ++ more) = [] := by
    rw [about_append, about_eq_nil hasked.errands (by decide), about_eq_nil hmore (by decide)]
    rfl
  refine ⟨List.forall_mem_append.2 ⟨errands_mono (by decide) hasked.errands,
    errands_mono (by decide) hmore⟩, ?_, .inl hwait, .inr ⟨hroom, hwait⟩, fun s hc hw => ?_,
    fun e he hidle => ?_⟩
  · rw [about_append, about_eq_nil hmore (by decide), List.append_nil]
    exact hasked.polled
  · rw [hreleased s hc] at hw
    cases hw
  · rcases List.mem_append.1 he with he | he
    · rw [hasked.unproven e he] at hidle
      cases hidle
    · have herrand := hmore e he
      rw [Entry.errand_of_provesIdle hidle] at herrand
      exact absurd herrand (by decide)

/-- A full ring waited for the producer. -/
theorem of_wait (hasked : Asked p asked) {s : Surface T K V} (hc : p.ring.current? = some s)
    (hs : s.phase = .released) (hfull : p.capacity ≤ p.ring.size) {n : Notice}
    (hn : n.fromPool = true)
    (hwaited : Waited (fun c => .producer (.image c)) s.texture s.staging p.stagingSize more) :
    Sparing p (asked ++ (more ++ [.notice n])) := by
  have hmore : ∀ e ∈ more, e.errand = .wait := by
    cases hwaited <;> simp [Entry.errand, ImageCall.errand]
  have hnotice : ∀ e ∈ [(.notice n : Entry F T K V)], e.errand ∈ [.report] := by
    simp [Entry.errand, hn]
  have hrest : ∀ e ∈ more ++ [.notice n], e.errand ∈ [.wait, .report] := by
    refine List.forall_mem_append.2 ⟨fun e he => ?_, errands_mono (by decide) hnotice⟩
    rw [hmore e he]
    decide
  have hunproven : ∀ e ∈ asked ++ (more ++ [.notice n]), e.provesIdle = false := fun e he => by
    rcases List.mem_append.1 he with he | he
    · exact hasked.unproven e he
    · by_contra hidle
      have herrand := hrest e he
      rw [Entry.errand_of_provesIdle (by simpa using hidle)] at herrand
      exact absurd herrand (by decide)
  have hsupply : about .supply (asked ++ (more ++ [.notice n])) = [] := by
    rw [about_append, about_eq_nil hasked.errands (by decide), about_eq_nil hrest (by decide)]
    rfl
  have hwait : about .wait (asked ++ (more ++ [.notice n])) = more := by
    rw [about_append, about_append, about_eq_nil hasked.errands (by decide), about_self hmore,
      about_eq_nil hnotice (by decide), List.append_nil]
    rfl
  refine ⟨List.forall_mem_append.2 ⟨errands_mono (by decide) hasked.errands,
    errands_mono (by decide) hrest⟩, ?_,
    .inr ⟨hfull, hsupply, hunproven, s, hc, hs, hwait.symm ▸ hwaited⟩,
    .inl hsupply, fun t ht hw => ?_, fun e he hidle => ?_⟩
  · rw [about_append, about_eq_nil hrest (by decide), List.append_nil]
    exact hasked.polled
  · rw [hc] at ht
    cases ht
    rw [hs] at hw
    cases hw
  · rw [hunproven e he] at hidle
    cases hidle

end Sparing

/-- Whatever the domains answer, an acquire asks for no more than it may. -/
theorem Acquiring.sparing (hinv : p.Inv)
    {x : EStateM.Result Fault (Pool T K V × Recorded W (Entry F T K V)) Handle}
    (ha : Acquiring b.recorded p r x) :
    ∃ lines, (Attempt.leaves x).2.trace = r.trace ++ lines ∧ Sparing p lines := by
  have hnote (n : Notice) (hn : n.fromPool = true) {past : List (Entry F T K V)}
      {r : Recorded W (Entry F T K V)} (h : Extends [.supply, .report] past r) :
      ∃ lines, (b.recorded.note n r).trace = past ++ lines ∧
        ∀ e ∈ lines, e.errand ∈ [.supply, .report] := Extends.note (by decide) n r hn h
  cases ha with
  | closed => exact ⟨[], (List.append_nil _).symm, .nil⟩
  | again => exact ⟨[], (List.append_nil _).symm, .nil⟩
  | @ready s k r' hp hc hr ha hpoll =>
    refine ⟨_, call_ok hpoll, ?_, ?_, .inl rfl, .inl rfl, fun t ht hw => ?_, fun e he _ => ?_⟩
    · simp [Entry.errand]
    · exact .inr ⟨s, _, hc, hr, ha, rfl⟩
    · rw [hc] at ht
      cases ht
      rw [hr] at hw
      cases hw
    · rw [List.mem_singleton.1 he]
  | @grew o s p₁ r₁ r₂ hp hd hroom hb =>
    obtain ⟨asked, hlines, hasked⟩ := hd.asked
    obtain ⟨hroom, hreleased⟩ := hd.room hinv hroom
    obtain ⟨more, hmore, herrands⟩ := hnote (.grew (p₁.extend s).ring.size) rfl
      ((build_errands _ _ _).ok hb (.refl r₁))
    exact ⟨asked ++ more, by rw [Attempt.leaves, hmore, hlines, List.append_assoc],
      .of_supply hasked herrands hroom hreleased⟩
  | @growthFailed o e p₁ r₁ r₂ hp hd hroom hb =>
    obtain ⟨asked, hlines, hasked⟩ := hd.asked
    obtain ⟨hroom, hreleased⟩ := hd.room hinv hroom
    obtain ⟨more, hmore, herrands⟩ := hnote (.creationFailed ⟨p₁.nextHandle⟩ e) rfl
      ((build_errands _ _ _).error hb (.refl r₁))
    exact ⟨asked ++ more, by rw [Attempt.leaves, hmore, hlines, List.append_assoc],
      .of_supply hasked herrands hroom hreleased⟩
  | @stalled s p₁ r₁ r₂ hp hd hfull hw =>
    obtain ⟨asked, hlines, hasked⟩ := hd.asked
    have hwaited := drain_landed hw
    have hregion : p₁.stagingSize = p.stagingSize := congrArg (·.clamp stagingEdge) hd.ring.2.2.1
    rw [hregion] at hwaited
    refine ⟨_, ?_, .of_wait (n := .underflow p₁.ring.cursor) hasked hd.current hd.released hfull rfl
      (.mapped (.ok ()))⟩
    show r₂.trace ++ _ = _
    rw [hwaited, hlines]
    simp only [List.append_assoc]
  | @stallFailed s e p₁ r₁ r₂ hp hd hfull hw =>
    obtain ⟨asked, hlines, hasked⟩ := hd.asked
    obtain ⟨more, hmore, hwaited⟩ := drain_failed hw
    have hregion : p₁.stagingSize = p.stagingSize := congrArg (·.clamp stagingEdge) hd.ring.2.2.1
    rw [hregion] at hwaited
    refine ⟨_, ?_, .of_wait (n := .producerWaitFailed s.handle e) hasked hd.current hd.released
      hfull rfl hwaited⟩
    show r₂.trace ++ _ = _
    rw [hmore, hlines]
    simp only [List.append_assoc]

namespace Sparing
variable {lines : List (Entry F T K V)}

/-- The producer is asked for one map at most. -/
theorem countP_mapsTexture (h : Sparing p lines) : lines.countP Entry.mapsTexture ≤ 1 := by
  rw [← countP_about fun _ => Entry.errand_of_mapsTexture]
  rcases h.waited with hnone | ⟨-, -, -, s, -, -, hwaited⟩
  · rw [hnone]
    exact Nat.zero_le _
  · generalize about .wait lines = waits at hwaited
    cases hwaited with
    | refused => exact Nat.zero_le _
    | mapped => exact Nat.le_refl _

/-- The consumer is asked for none. -/
theorem countP_mappedView (h : Sparing p lines) : lines.countP Entry.mappedView = 0 := by
  rw [← countP_about fun _ => Entry.errand_of_mappedView]
  rcases h.waited with hnone | ⟨-, -, -, s, -, -, hwaited⟩
  · rw [hnone]
    rfl
  · generalize about .wait lines = waits at hwaited
    cases hwaited <;> rfl

end Sparing

end Pool
end SurfaceRelay
