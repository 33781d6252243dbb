import Mathlib.Data.List.Induction
import Mathlib.Data.List.Nodup
import Mathlib.Data.Multiset.Bind

/-! The life of objects that go by names.

A driver names every object that it makes, and may give a name out again once its object was
deleted, so a name alone does not say which object a line of a log means. What is alive does: a
log is read from its start, a line that makes an object adds it, and a line that deletes one
takes it off (`Reading.alive`). When no name is given out while it is alive (`Fresh`) and no line
mentions a name that is not alive (`OnlyAlive`), a log that leaves nothing alive has deleted
every object once, and mentions its name no more until that is given out again
(`OnlyAlive.deletedOnce`). -/
namespace SurfaceRelay

/-- Every line of a log fits the lines before it. -/
def Throughout {E : Type} (P : List E → E → Prop) (log : List E) : Prop :=
  ∀ past e later, log = past ++ e :: later → P past e

namespace Throughout
variable {E : Type} {P : List E → E → Prop} {log : List E}

theorem nil : Throughout P [] := fun past e later h => by
  cases past <;> cases h

theorem of_append {more : List E} (h : Throughout P (log ++ more)) : Throughout P log := by
  rintro past e later rfl
  refine h past e (later ++ more) ?_
  rw [List.append_assoc, List.cons_append]

theorem last {e : E} (h : Throughout P (log ++ [e])) : P log e := h log e [] rfl

theorem snoc (h : Throughout P log) {e : E} (he : P log e) : Throughout P (log ++ [e]) := by
  intro past e' later hsplit
  rcases List.eq_nil_or_concat' later with rfl | ⟨later, e'', rfl⟩
  · obtain ⟨rfl, heq⟩ := List.append_inj' hsplit rfl
    cases heq
    exact he
  · rw [← List.cons_append, ← List.append_assoc] at hsplit
    exact h past e' later (List.append_inj' hsplit rfl).1

theorem append {more : List E} (h : Throughout P log)
    (hmore : ∀ past e later, more = past ++ e :: later → P (log ++ past) e) :
    Throughout P (log ++ more) := by
  induction more using List.reverseRecOn with
  | nil => rwa [List.append_nil]
  | append_singleton more e ih =>
    rw [← List.append_assoc]
    refine (ih fun past e' later hsplit => ?_).snoc (hmore more e [] rfl)
    refine hmore past e' (later ++ [e]) ?_
    rw [hsplit, List.append_assoc, List.cons_append]

theorem iff_take :
    Throughout P log ↔ ∀ i : Fin log.length, P (log.take i) log[i] := by
  constructor
  · intro h i
    refine h _ _ (log.drop (i + 1)) ?_
    rw [Fin.getElem_fin, List.getElem_cons_drop, List.take_append_drop]
  · rintro h past e later rfl
    have hi := h ⟨past.length, by simp⟩
    simpa using hi

instance [∀ past e, Decidable (P past e)] : Decidable (Throughout P log) :=
  decidable_of_iff _ iff_take.symm

end Throughout

/-- How the lines of a log speak of objects. -/
structure Reading (E O N : Type) where
  name : O → N
  /-- The object that a line makes. -/
  made : E → Option O
  /-- The object that a line deletes. -/
  freed : E → Option O
  /-- The names that a line mentions. -/
  named : E → List N
  /-- A line does not do both. -/
  freed_only : ∀ {e o}, freed e = some o → made e = none

namespace Reading
variable {E O N : Type} [DecidableEq N] (R : Reading E O N)

/-- What is alive behind a line. A deletion goes by the name. -/
def next (alive : List O) (e : E) : List O :=
  alive.filter (fun o => ∀ d ∈ R.freed e, R.name o ≠ R.name d) ++ (R.made e).toList

/-- What was made and not deleted since. -/
def alive (log : List E) : List O := log.foldl R.next []

/-- No name is given out while it is alive. -/
def Fresh : List E → Prop :=
  Throughout fun past e => ∀ o ∈ R.made e, ∀ o' ∈ R.alive past, R.name o' ≠ R.name o

/-- Only names are mentioned that are alive, and only objects deleted that are. -/
def OnlyAlive : List E → Prop :=
  Throughout fun past e =>
    (∀ x ∈ R.named e, ∃ o ∈ R.alive past, R.name o = x) ∧ ∀ o ∈ R.freed e, o ∈ R.alive past

instance (log : List E) : Decidable (R.Fresh log) := inferInstanceAs (Decidable (Throughout _ log))

/-- Some of these lines deletes the object. Until then its name is neither deleted nor given out,
and from then on the name is not mentioned before it is given out again. -/
def DeletedIn (o : O) (lines : List E) : Prop :=
  ∃ meanwhile f rest, lines = meanwhile ++ f :: rest ∧ R.freed f = some o ∧
    (∀ g ∈ meanwhile, ∀ o', R.freed g = some o' ∨ R.made g = some o' → R.name o' ≠ R.name o) ∧
    ∀ before g after, rest = before ++ g :: after → R.name o ∈ R.named g →
      ∃ g' ∈ before, ∃ o', R.made g' = some o' ∧ R.name o' = R.name o

/-- Every object that is made is deleted later, once. -/
def DeletedOnce (log : List E) : Prop :=
  ∀ past e later o, log = past ++ e :: later → R.made e = some o → R.DeletedIn o later

variable {R} {log past : List E} {alive : List O} {e : E} {o o' : O}

/-! ### What is alive -/

@[simp] theorem alive_snoc : R.alive (log ++ [e]) = R.next (R.alive log) e := by
  rw [Reading.alive, List.foldl_append]
  rfl

theorem next_quiet (hm : R.made e = none) (hf : R.freed e = none) : R.next alive e = alive := by
  simp [next, hm, hf]

theorem next_made (hm : R.made e = some o) (hf : R.freed e = none) :
    R.next alive e = alive ++ [o] := by
  simp [next, hm, hf]

theorem next_freed (hf : R.freed e = some o) :
    R.next alive e = alive.filter fun o' => R.name o' ≠ R.name o := by
  simp [next, R.freed_only hf, hf]

theorem mem_next : o ∈ R.next alive e ↔
    (o ∈ alive ∧ ∀ d, R.freed e = some d → R.name o ≠ R.name d) ∨ R.made e = some o := by
  simp [next]

theorem Fresh.before {more : List E} (h : R.Fresh (log ++ more)) : R.Fresh log :=
  Throughout.of_append h

/-- Under a name that was not given out again there is one object. -/
theorem Fresh.nodup (h : R.Fresh log) : ((R.alive log).map R.name).Nodup := by
  induction log using List.reverseRecOn with
  | nil => exact List.nodup_nil
  | append_singleton log e ih =>
    have hnodup := ih h.before
    rw [alive_snoc]
    cases hm : R.made e with
    | none =>
      rw [next, hm, Option.toList_none, List.append_nil]
      exact hnodup.sublist (List.filter_sublist.map _)
    | some o =>
      have hf : R.freed e = none := by
        by_contra hne
        obtain ⟨d, hd⟩ := Option.ne_none_iff_exists'.1 hne
        rw [R.freed_only hd] at hm
        cases hm
      rw [next_made hm hf, List.map_append, List.map_singleton, List.nodup_append]
      refine ⟨hnodup, List.nodup_singleton _, fun x hx y hy => ?_⟩
      obtain ⟨o', ho', rfl⟩ := List.mem_map.1 hx
      rw [List.mem_singleton.1 hy]
      exact Throughout.last h o hm o' ho'

theorem Fresh.unique (h : R.Fresh log) (ho : o ∈ R.alive log) (ho' : o' ∈ R.alive log)
    (hname : R.name o = R.name o') : o = o' :=
  List.inj_on_of_nodup_map h.nodup ho ho' hname

/-! ### Amounts -/

/-- Nothing was mentioned but what was alive, and this is what is alive now. -/
structure Holds (R : Reading E O N) (L : Multiset O) (log : List E) : Prop where
  onlyAlive : R.OnlyAlive log
  balance : (R.alive log : Multiset O) = L

namespace Holds
variable {L L' : Multiset O}

theorem nil : R.Holds 0 [] := ⟨.nil, rfl⟩

theorem mem_alive (h : R.Holds L log) : o ∈ R.alive log ↔ o ∈ L := by
  rw [← h.balance, Multiset.mem_coe]

/-- No name is in use twice. -/
theorem nodup (h : R.Holds L log) (hfresh : R.Fresh log) : (L.map R.name).Nodup := by
  rw [← h.balance, Multiset.map_coe, Multiset.coe_nodup]
  exact hfresh.nodup

/-- What is alive changes by what a line makes and deletes. -/
theorem balance_next (h : R.Holds L log) (hfresh : R.Fresh log)
    (hbalance : (R.made e).toList + L = (R.freed e).toList + L') :
    (R.next (R.alive log) e : Multiset O) = L' := by
  cases hf : R.freed e with
  | none =>
    rw [hf] at hbalance
    cases hm : R.made e with
    | none =>
      rw [hm] at hbalance
      rw [next_quiet hm hf, h.balance]
      simpa using hbalance
    | some o =>
      rw [hm] at hbalance
      rw [next_made hm hf, ← Multiset.coe_add, h.balance, add_comm]
      simpa using hbalance
  | some o =>
    rw [R.freed_only hf, hf] at hbalance
    have hL : L = o ::ₘ L' := by simpa using hbalance
    have hnodup := h.nodup hfresh
    rw [hL, Multiset.map_cons, Multiset.nodup_cons] at hnodup
    rw [next_freed hf, ← Multiset.filter_coe, h.balance, hL,
      Multiset.filter_cons_of_neg _ (by simp), Multiset.filter_eq_self]
    exact fun o' ho' hname => hnodup.1 (Multiset.mem_map.2 ⟨o', ho', hname⟩)

/-- A line that mentions what is alive. -/
theorem snoc (h : R.Holds L log) (hfresh : R.Fresh log)
    (hnamed : ∀ x ∈ R.named e, ∃ o ∈ L, R.name o = x)
    (hbalance : (R.made e).toList + L = (R.freed e).toList + L') : R.Holds L' (log ++ [e]) := by
  refine ⟨h.onlyAlive.snoc ⟨fun x hx => ?_, fun o ho => ?_⟩, ?_⟩
  · obtain ⟨o, ho, hname⟩ := hnamed x hx
    exact ⟨o, h.mem_alive.2 ho, hname⟩
  · rw [Option.mem_def] at ho
    rw [R.freed_only ho, ho] at hbalance
    rw [h.mem_alive, ← zero_add L]
    exact hbalance ▸ Multiset.mem_cons_self ..
  · rw [alive_snoc]
    exact h.balance_next hfresh hbalance

end Holds

/-! ### Once and for all -/

/-- A name that is not alive is given out before it is mentioned. -/
theorem OnlyAlive.given_out {x : N} {before after : List E} {g : E}
    (h : R.OnlyAlive (past ++ (before ++ g :: after)))
    (hx : ∀ o ∈ R.alive past, R.name o ≠ x) (hg : x ∈ R.named g) :
    ∃ g' ∈ before, ∃ o, R.made g' = some o ∧ R.name o = x := by
  induction before generalizing past with
  | nil =>
    obtain ⟨o, ho, hname⟩ := (h past g after rfl).1 x hg
    exact absurd hname (hx o ho)
  | cons b before ih =>
    by_cases hb : ∃ o, R.made b = some o ∧ R.name o = x
    · exact ⟨b, List.mem_cons_self .., hb⟩
    · have hx' : ∀ o ∈ R.alive (past ++ [b]), R.name o ≠ x := by
        intro o ho hname
        rw [alive_snoc] at ho
        rcases mem_next.1 ho with ⟨ho, -⟩ | ho
        · exact hx o ho hname
        · exact hb ⟨o, ho, hname⟩
      have h' : R.OnlyAlive (past ++ [b] ++ (before ++ g :: after)) := by
        rw [List.append_assoc]
        exact h
      obtain ⟨g', hg', hmade⟩ := ih h' hx'
      exact ⟨g', List.mem_cons_of_mem _ hg', hmade⟩

/-- What is alive at one moment is deleted later, or still alive at the end. -/
theorem OnlyAlive.deleted {later : List E} (h : R.OnlyAlive (past ++ later))
    (hfresh : R.Fresh (past ++ later)) (ho : o ∈ R.alive past) :
    R.DeletedIn o later ∨ (o ∈ R.alive (past ++ later) ∧ ∀ g ∈ later, R.freed g ≠ some o) := by
  induction later generalizing past with
  | nil => exact .inr ⟨(List.append_nil past).symm ▸ ho, fun _ hnil => by cases hnil⟩
  | cons g later ih =>
    have hsplit := List.append_cons past g later
    rw [hsplit] at h hfresh ⊢
    by_cases hg : ∃ d, R.freed g = some d ∧ R.name d = R.name o
    · obtain ⟨d, hd, hname⟩ := hg
      have hdead : d ∈ R.alive past := (h past g later hsplit.symm).2 d hd
      obtain rfl : d = o := hfresh.before.before.unique hdead ho hname
      refine .inl ⟨[], g, later, rfl, hd, fun _ hnil => (by cases hnil), ?_⟩
      rintro before g' after rfl hmention
      refine h.given_out (fun o' ho' => ?_) hmention
      rw [alive_snoc, next_freed hd, List.mem_filter] at ho'
      exact of_decide_eq_true ho'.2
    · have hkept : o ∈ R.alive (past ++ [g]) := by
        rw [alive_snoc]
        exact mem_next.2 (.inl ⟨ho, fun d hd hname => hg ⟨d, hd, hname.symm⟩⟩)
      rcases ih h hfresh hkept with ⟨meanwhile, f, rest, rfl, hf, hquiet, hafter⟩ | ⟨hend, hnever⟩
      · refine .inl ⟨g :: meanwhile, f, rest, rfl, hf, fun g' hg' o' ho' => ?_, hafter⟩
        rcases List.mem_cons.1 hg' with rfl | hg'
        · rcases ho' with ho' | ho'
          · exact fun hname => hg ⟨o', ho', hname⟩
          · exact (hfresh past g' _ hsplit.symm o' ho' o ho).symm
        · exact hquiet g' hg' o' ho'
      · refine .inr ⟨hend, List.forall_mem_cons.2 ⟨fun hd => hg ⟨o, hd, rfl⟩, hnever⟩⟩

/-- What is made is deleted later, or still alive at the end. -/
theorem OnlyAlive.deleted_of_made {later : List E} (h : R.OnlyAlive (past ++ e :: later))
    (hfresh : R.Fresh (past ++ e :: later)) (hmade : R.made e = some o) :
    R.DeletedIn o later ∨
      (o ∈ R.alive (past ++ e :: later) ∧ ∀ g ∈ later, R.freed g ≠ some o) := by
  rw [List.append_cons] at h hfresh ⊢
  refine h.deleted hfresh ?_
  rw [alive_snoc]
  exact mem_next.2 (.inr hmade)

/-- With nothing alive at the end, everything was deleted once. -/
theorem OnlyAlive.deletedOnce (h : R.OnlyAlive log) (hfresh : R.Fresh log)
    (hend : R.alive log = []) : R.DeletedOnce log := by
  rintro past e later o rfl hmade
  refine (h.deleted_of_made hfresh hmade).resolve_right fun halive => ?_
  rw [hend] at halive
  cases halive.1

end Reading
end SurfaceRelay
