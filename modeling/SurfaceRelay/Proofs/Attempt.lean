import SurfaceRelay.Backend

/-! Reasoning about attempts.

An attempt that was made in two parts comes apart into its parts (`bind_ok`), and one that puts
something new in a place into what it made and what it left there (`inPlace_ok`, `inPlace_error`).
A property of the world that an attempt keeps (`Keeps`) holds afterwards whether it succeeded or
failed, which is what an operation needs of the calls it makes when any of them may fail. Where a
success and a failure leave different things behind, an attempt `Meets` a contract with a clause
for each. -/
namespace SurfaceRelay.Attempt
variable {S α β : Type}

/-- A sequence succeeds when both its parts do. -/
theorem bind_ok {act : Attempt S α} {next : α → Attempt S β} {s s' : S} {r : β}
    (h : (act >>= next) s = .ok r s') : ∃ a s₁, act s = .ok a s₁ ∧ next a s₁ = .ok r s' := by
  simp only [bind, EStateM.bind] at h
  split at h
  · exact ⟨_, _, ‹_›, h⟩
  · cases h

/-- What follows a success starts from where it led. -/
theorem bind_of_ok {act : Attempt S α} {next : α → Attempt S β} {a : α} {s s₁ : S}
    (h : act s = .ok a s₁) : (act >>= next) s = next a s₁ := by
  simp only [bind, EStateM.bind, h]

/-- Nothing follows a failure. -/
theorem bind_of_error {act : Attempt S α} {next : α → Attempt S β} {e : Fault} {s s₁ : S}
    (h : act s = .error e s₁) : (act >>= next) s = .error e s₁ := by
  simp only [bind, EStateM.bind, h]

/-- An answer that was mapped is the image of an answer. -/
theorem map_ok {f : α → β} {act : Attempt S α} {s s' : S} {b : β}
    (h : (f <$> act) s = .ok b s') : ∃ a, f a = b := by
  simp only [Functor.map, EStateM.map] at h
  split at h <;> cases h
  exact ⟨_, rfl⟩

theorem map_of_ok (f : α → β) {act : Attempt S α} {s s' : S} {a : α} (h : act s = .ok a s') :
    (f <$> act) s = .ok (f a) s' := by
  simp only [Functor.map, EStateM.map, h]

theorem map_of_error (f : α → β) {act : Attempt S α} {s s' : S} {e : Fault}
    (h : act s = .error e s') : (f <$> act) s = .error e s' := by
  simp only [Functor.map, EStateM.map, h]

/-- What stands in the place behind a success is what was made. -/
theorem inPlace_ok {f : α → Attempt S α} {left : α → α} {a : α} {s : S} {x : α × S} {u : Unit}
    (h : inPlace f left (a, s) = .ok u x) : f a s = .ok x.1 x.2 := by
  simp only [inPlace] at h
  split at h <;> cases h
  assumption

/-- What stands there behind a failure is what that leaves. -/
theorem inPlace_error {f : α → Attempt S α} {left : α → α} {a : α} {s : S} {x : α × S}
    {e : Fault} (h : inPlace f left (a, s) = .error e x) :
    f a s = .error e x.2 ∧ x.1 = left a := by
  simp only [inPlace] at h
  split at h <;> cases h
  exact ⟨‹_›, rfl⟩

/-- The state a result leaves, also when it is a failure. -/
def leaves : EStateM.Result Fault S α → S
  | .ok _ s => s
  | .error _ s => s

/-- The answer of a result. -/
def answers : EStateM.Result Fault S α → Except Fault α
  | .ok a _ => .ok a
  | .error e _ => .error e

theorem eq_ok_of_answers {r : EStateM.Result Fault S α} {a : α} (h : answers r = .ok a) :
    r = .ok a (leaves r) := by
  cases r <;> cases h
  rfl

theorem outcome_eq (act : Attempt S α) (s : S) :
    outcome act s = (answers (act s), leaves (act s)) := by
  simp only [outcome]
  cases act s <;> rfl

theorem outcome_map (f : α → β) (act : Attempt S α) (s : S) :
    outcome (f <$> act) s = ((answers (act s)).map f, leaves (act s)) := by
  simp only [outcome, Functor.map, EStateM.map]
  cases act s <;> rfl

/-- Mapping the answer does not matter to what is left. -/
theorem leaves_map (f : α → β) (act : Attempt S α) (s : S) :
    leaves ((f <$> act) s) = leaves (act s) := by
  simp only [leaves, Functor.map, EStateM.map]
  cases act s <;> rfl

/-- The attempt leaves a property of the world alone, also when it fails. -/
def Keeps (J : S → Prop) (act : Attempt S α) : Prop := ∀ s, J s → J (outcome act s).2

theorem keeps_of_leaves {J : S → Prop} {act : Attempt S α}
    (h : ∀ s, J s → J (leaves (act s))) : Keeps J act := by
  intro s hs
  rw [outcome_eq]
  exact h s hs

theorem Keeps.leaves {J : S → Prop} {act : Attempt S α} (h : Keeps J act) {s : S} (hs : J s) :
    J (Attempt.leaves (act s)) := by
  have := h s hs
  rwa [outcome_eq] at this

theorem Keeps.ok {J : S → Prop} {act : Attempt S α} (h : Keeps J act) {s s' : S} {a : α}
    (hact : act s = .ok a s') (hs : J s) : J s' := by
  have := h s hs
  rwa [outcome, hact] at this

theorem Keeps.error {J : S → Prop} {act : Attempt S α} (h : Keeps J act) {s s' : S} {e : Fault}
    (hact : act s = .error e s') (hs : J s) : J s' := by
  have := h s hs
  rwa [outcome, hact] at this

theorem keeps_bind {J : S → Prop} {act : Attempt S α} {next : α → Attempt S β}
    (hact : Keeps J act) (hnext : ∀ a, Keeps J (next a)) : Keeps J (act >>= next) := by
  intro s hs
  simp only [outcome, bind, EStateM.bind]
  rcases h : act s with ⟨a, s₁⟩ | ⟨e, s₁⟩
  · exact hnext a s₁ (hact.ok h hs)
  · exact hact.error h hs

theorem keeps_map {J : S → Prop} {act : Attempt S α} (f : α → β) (h : Keeps J act) :
    Keeps J (f <$> act) := by
  intro s hs
  rw [outcome_map]
  have hs' := h s hs
  rwa [outcome_eq] at hs'

/-- Mapping the answer does not matter to what is kept. -/
theorem keeps_of_map {J : S → Prop} {act : Attempt S α} {f : α → β} (h : Keeps J (f <$> act)) :
    Keeps J act := by
  intro s hs
  have hs' := h s hs
  rw [outcome_map] at hs'
  rwa [outcome_eq]

theorem keeps_pure {J : S → Prop} (a : α) : Keeps J (pure a : Attempt S α) := fun _ hs => hs

theorem keeps_throw {J : S → Prop} (e : Fault) : Keeps J (throw e : Attempt S α) :=
  fun _ hs => hs

/-- From a state with `pre`, a success leaves `post` of its answer and a failure leaves
`fail`. -/
structure Meets (pre : S → Prop) (act : Attempt S α) (post : α → S → Prop) (fail : S → Prop) :
    Prop where
  ok : ∀ {a s s'}, act s = .ok a s' → pre s → post a s'
  error : ∀ {e s s'}, act s = .error e s' → pre s → fail s'

variable {pre fail : S → Prop} {post : α → S → Prop} {act : Attempt S α} {s s' : S}

theorem meets_of_result (h : ∀ s, pre s → match act s with
    | .ok a s' => post a s'
    | .error _ s' => fail s') : Meets pre act post fail where
  ok {a s s'} hact hs := by
    have hpost := h s hs
    rwa [hact] at hpost
  error {e s s'} hact hs := by
    have hfail := h s hs
    rwa [hact] at hfail

/-- More may be asked before, and less said after. -/
theorem Meets.imp {pre' fail' : S → Prop} {post' : α → S → Prop} (h : Meets pre act post fail)
    (hpre : ∀ s, pre' s → pre s) (hpost : ∀ a s, post a s → post' a s)
    (hfail : ∀ s, fail s → fail' s) : Meets pre' act post' fail' where
  ok hact hs := hpost _ _ (h.ok hact (hpre _ hs))
  error hact hs := hfail _ (h.error hact (hpre _ hs))

/-- A success and a failure may leave the same. -/
theorem meets_of_outcome {post : S → Prop} (h : ∀ s, pre s → post (outcome act s).2) :
    Meets pre act (fun _ => post) post := by
  refine meets_of_result fun s hs => ?_
  have hpost := h s hs
  rw [outcome_eq] at hpost
  generalize act s = r at hpost ⊢
  cases r <;> exact hpost

theorem Meets.outcome {post : S → Prop} (h : Meets pre act (fun _ => post) post) (hs : pre s) :
    post (outcome act s).2 := by
  rw [outcome_eq]
  cases hact : act s with
  | ok a s' => exact h.ok hact hs
  | error e s' => exact h.error hact hs

theorem Meets.leaves {post : S → Prop} (h : Meets pre act (fun _ => post) post) (hs : pre s) :
    post (Attempt.leaves (act s)) := by
  have hpost := h.outcome hs
  rwa [outcome_eq] at hpost

theorem meets_bind {mid : α → S → Prop} {post : β → S → Prop} {next : α → Attempt S β}
    (hact : Meets pre act mid fail) (hnext : ∀ a, Meets (mid a) (next a) post fail) :
    Meets pre (act >>= next) post fail := by
  refine meets_of_result fun s hs => ?_
  simp only [bind, EStateM.bind]
  rcases h : act s with ⟨a, s₁⟩ | ⟨e, s₁⟩
  · dsimp only
    rcases hrest : next a s₁ with ⟨b, s₂⟩ | ⟨e, s₂⟩
    · exact (hnext a).ok hrest (hact.ok h hs)
    · exact (hnext a).error hrest (hact.ok h hs)
  · exact hact.error h hs

theorem meets_pure {a : α} (h : ∀ s, pre s → post a s) :
    Meets pre (pure a : Attempt S α) post fail := meets_of_result h

theorem meets_throw {e : Fault} (h : ∀ s, pre s → fail s) :
    Meets pre (throw e : Attempt S α) post fail := meets_of_result h

/-- What is said of a thing and the state holds of whatever is put in its place. -/
theorem keeps_inPlace_of_meets {J : α → S → Prop} {act : α → Attempt S α} {left : α → α}
    (h : ∀ a, Meets (J a) (act a) J (J (left a))) :
    Keeps (fun x : α × S => J x.1 x.2) (inPlace act left) := by
  refine keeps_of_leaves fun x hx => ?_
  simp only [inPlace]
  rcases hact : act x.1 x.2 with ⟨a, s⟩ | ⟨e, s⟩
  · exact (h x.1).ok hact hx
  · exact (h x.1).error hact hx

theorem keeps_inPlace {J : S → Prop} {act : α → Attempt S α} {left : α → α}
    (h : ∀ a, Keeps J (act a)) : Keeps (fun x : α × S => J x.2) (inPlace act left) :=
  keeps_inPlace_of_meets (J := fun _ => J) fun a => meets_of_outcome (h a)

/-- An attempt that never fails may be said to leave anything when it does. -/
theorem Keeps.meets {J : S → Prop} (h : Keeps J act) (hok : ∀ s, ∃ a s', act s = .ok a s') :
    Meets J act (fun _ => J) fail where
  ok hact hs := h.ok hact hs
  error {e s s'} hact _ := by
    obtain ⟨a, s₁, hok⟩ := hok s
    rw [hact] at hok
    cases hok

/-- What is known besides may be put before. -/
theorem meets_and {p : Prop} (h : p → Meets pre act post fail) :
    Meets (fun s => p ∧ pre s) act post fail where
  ok hact hs := (h hs.1).ok hact hs.2
  error hact hs := (h hs.1).error hact hs.2

end SurfaceRelay.Attempt
