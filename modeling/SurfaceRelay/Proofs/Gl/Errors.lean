import Mathlib.Logic.Function.Basic
import SurfaceRelay.Proofs.Gl.Operations

/-! Who is told of an error.

A context has one error flag. An error sets it when it is clear, and is forgotten otherwise; a
check returns what is in it and clears it. Any driver can be given such flags (`flagged`), with
calls that raise whatever errors they like, and each flag then keeps a record of what became of
it. Operations that check read the flag once, and fail when it was set; the others leave a flag
that is set as it is, and fail of their sync objects only (`Reports`). So a check returns the error
that was raised since the check before it, on the same context and by whatever operation
(`Flag.Orderly`). -/
namespace SurfaceRelay.Gl
variable {κ σ : Type}

/-! ### Error flags -/

/-- What becomes of an error flag. -/
inductive Signal
  /-- An error set the flag. It was raised by a call of a domain, or by something else. -/
  | raised (call : Option Call) (code : Nat)
  /-- The flag was read, and cleared. -/
  | checked (code : Nat)

structure Flag where
  error : Nat
  /-- What became of it so far. -/
  past : List Signal

namespace Flag

def raise (f : Flag) (call : Option Call) (code : Nat) : Flag :=
  if f.error = noError ∧ code ≠ noError then ⟨code, f.past ++ [.raised call code]⟩ else f

def read (f : Flag) : Flag := ⟨noError, f.past ++ [.checked f.error]⟩

/-- What becomes of a flag while nobody reads it: of all the errors that some calls raise, the
first one sets it, unless it is set. -/
inductive Kept (P : Call → Prop) (f : Flag) : Flag → Prop
  | same : Kept P f f
  | set {c : Call} {code : Nat} (clear : f.error = noError) (caller : P c)
      (nonzero : code ≠ noError) : Kept P f ⟨code, f.past ++ [.raised (some c) code]⟩

namespace Kept
variable {P Q : Call → Prop} {f f₁ f₂ : Flag}

theorem of_raise {c : Call} (hc : P c) (code : Nat) : Kept P f (f.raise (some c) code) := by
  unfold raise
  split
  · rename_i hset
    exact .set hset.1 hc hset.2
  · exact .same

/-- A flag that is set stays as it is. -/
theorem eq_of_set (h : Kept P f f₁) (hset : f.error ≠ noError) : f₁ = f := by
  cases h with
  | same => rfl
  | set hclear => exact absurd hclear hset

theorem trans (h : Kept P f f₁) (h' : Kept P f₁ f₂) : Kept P f f₂ := by
  cases h with
  | same => exact h'
  | set hclear hc hcode =>
    rw [h'.eq_of_set hcode]
    exact .set hclear hc hcode

theorem imp (h : Kept P f f₁) (hPQ : ∀ c, P c → Q c) : Kept Q f f₁ := by
  cases h with
  | same => exact .same
  | set hclear hc hcode => exact .set hclear (hPQ _ hc) hcode

end Kept

/-! ### The record of a flag -/

/-- What is in a flag behind its record, if this was in it at first. -/
def owing (first : Nat) (past : List Signal) : Nat :=
  match past.getLast? with
  | none => first
  | some (.raised _ code) => code
  | some (.checked _) => noError

/-- How an entry follows those before it. -/
def Follows (first : Nat) (past : List Signal) : Signal → Prop
  | .raised _ code => owing first past = noError ∧ code ≠ noError
  | .checked code => code = owing first past

/-- The record tells what is in the flag, and every entry what was in it. -/
structure Kempt (first : Nat) (f : Flag) : Prop where
  error : f.error = owing first f.past
  follows : Throughout (Follows first) f.past

theorem Kempt.raise {first : Nat} {f : Flag} (h : f.Kempt first) (call : Option Call)
    (code : Nat) : (f.raise call code).Kempt first := by
  unfold Flag.raise
  split
  · rename_i hset
    exact ⟨by simp [owing], h.follows.snoc ⟨h.error ▸ hset.1, hset.2⟩⟩
  · exact h

theorem Kempt.read {first : Nat} {f : Flag} (h : f.Kempt first) : f.read.Kempt first :=
  ⟨by simp [owing, Flag.read], h.follows.snoc h.error⟩

/-- Every error that set the flag is returned by the next check and by no other. -/
structure Orderly (first : Nat) (f : Flag) : Prop where
  /-- An error is returned by the next check. Before that nothing happens to it. -/
  returned : ∀ past call code later, f.past = past ++ .raised call code :: later →
    (later = [] ∧ f.error = code) ∨ ∃ rest, later = .checked code :: rest
  /-- So is the one that was there at first. -/
  returned_first : first ≠ noError →
    (f.past = [] ∧ f.error = first) ∨ ∃ rest, f.past = .checked first :: rest
  /-- A check returns the error that came just before it. -/
  once : ∀ past code later, f.past = past ++ .checked code :: later → code ≠ noError →
    (past = [] ∧ code = first) ∨ ∃ earlier call, past = earlier ++ [.raised call code]

theorem owing_eq {first code : Nat} {past : List Signal} (h : owing first past = code)
    (hcode : code ≠ noError) :
    (past = [] ∧ code = first) ∨ ∃ earlier call, past = earlier ++ [.raised call code] := by
  subst h
  rcases List.eq_nil_or_concat' past with rfl | ⟨earlier, last, rfl⟩
  · exact .inl ⟨rfl, rfl⟩
  cases last with
  | raised call code => exact .inr ⟨earlier, call, by simp [owing]⟩
  | checked code => exact absurd (by simp [owing]) hcode

/-- While an error is in the flag, there is no next entry but the check that returns it. -/
theorem Kempt.next {first code : Nat} {f : Flag} {past later : List Signal}
    (h : f.Kempt first) (hsplit : f.past = past ++ later) (howing : owing first past = code)
    (hcode : code ≠ noError) :
    (later = [] ∧ f.error = code) ∨ ∃ rest, later = .checked code :: rest := by
  cases later with
  | nil =>
    refine .inl ⟨rfl, ?_⟩
    rw [h.error, hsplit, List.append_nil, howing]
  | cons s rest =>
    have hfollows := h.follows past s rest hsplit
    cases s with
    | raised call code' => exact absurd (howing.symm.trans hfollows.1) hcode
    | checked code' => exact .inr ⟨rest, by rw [hfollows.trans howing]⟩

theorem Kempt.orderly {first : Nat} {f : Flag} (h : f.Kempt first) : f.Orderly first where
  returned past call code later hsplit := by
    have hcode := (h.follows past _ later hsplit).2
    rw [List.append_cons] at hsplit
    exact h.next hsplit (by simp [owing]) hcode
  returned_first hfirst := h.next (List.nil_append _).symm rfl hfirst
  once past code later hsplit hcode := owing_eq (h.follows past _ later hsplit).symm hcode

end Flag

/-! ### Drivers with flags -/

/-- The state of a driver, and the error flag of every context. -/
structure Flagged (κ σ : Type) where
  gl : σ
  flags : κ → Flag

/-- A world in which these errors are in the flags at first. -/
def World.withFlags (w : World κ σ) (first : κ → Nat) : World κ (Flagged κ σ) :=
  ⟨⟨w.gl, fun k => ⟨first k, []⟩⟩, w.current, w.log⟩

variable [DecidableEq κ]

namespace Flagged

def update (s : Flagged κ σ) (gl : σ) (k : κ) (f : Flag) : Flagged κ σ :=
  ⟨gl, Function.update s.flags k f⟩

@[simp] theorem flags_update (s : Flagged κ σ) (gl : σ) (k : κ) (f : Flag) :
    (s.update gl k f).flags k = f := Function.update_self ..

theorem flags_update_of_ne (s : Flagged κ σ) (gl : σ) {k k' : κ} (f : Flag) (h : k' ≠ k) :
    (s.update gl k f).flags k' = s.flags k' := Function.update_of_ne h ..

end Flagged

/-- A driver with error flags. Any call but the one that reads a flag may raise an error. -/
def flagged (d : Driver κ σ) (raises : κ → Call → σ → Nat) : Driver κ (Flagged κ σ)
  | k, .getError, s => ((s.flags k).error, s.update (d k .getError s.gl).2 k (s.flags k).read)
  | k, c, s =>
    let (answer, gl) := d k c s.gl
    (answer, s.update gl k ((s.flags k).raise (some c) (raises k c s.gl)))

namespace Group

/-- A group whose driver was given error flags. -/
def flagged (g : Group κ σ) (raises : κ → Call → σ → Nat) : Group κ (Flagged κ σ) :=
  { driver := Gl.flagged g.driver raises, hooked := g.hooked
    fenceError? := fun k s => g.fenceError? k s.gl }

variable {g : Group κ σ} {raises : κ → Call → σ → Nat} {k : κ} {w w' : World κ (Flagged κ σ)}

theorem check_flag {code : Nat} (h : (g.flagged raises).call k .getError w = .ok code w') :
    code = (w.gl.flags k).error ∧ w'.gl.flags k = (w.gl.flags k).read := by
  cases h
  exact ⟨rfl, Flagged.flags_update ..⟩

theorem call_flag {c : Call} {answer : Nat} (hc : c ≠ .getError)
    (h : (g.flagged raises).call k c w = .ok answer w') :
    ∃ code, w'.gl.flags k = (w.gl.flags k).raise (some c) code := by
  cases h
  cases c with
  | getError => exact absurd rfl hc
  | _ => exact ⟨_, Flagged.flags_update ..⟩

/-- A call has to do with the flag of its own context. -/
theorem call_apart {c : Call} {answer : Nat} {k' : κ} (hk : k' ≠ k)
    (h : (g.flagged raises).call k c w = .ok answer w') : w'.gl.flags k' = w.gl.flags k' := by
  cases h
  cases c <;> exact Flagged.flags_update_of_ne _ _ _ hk

theorem Calling.flag {P : Call → Prop} (h : (g.flagged raises).Calling k P w w')
    (hP : ∀ c, P c → c ≠ .getError) : (w.gl.flags k).Kept P (w'.gl.flags k) := by
  induction h with
  | refl => exact .same
  | call _ hc hmade ih =>
    obtain ⟨code, hcode⟩ := call_flag (hP _ hc) hmade
    exact ih.trans (hcode ▸ .of_raise hc code)

theorem Calling.apart {P : Call → Prop} (h : (g.flagged raises).Calling k P w w') {k' : κ}
    (hk : k' ≠ k) : w'.gl.flags k' = w.gl.flags k' := by
  induction h with
  | refl => rfl
  | call _ _ hmade ih => rw [call_apart hk hmade, ih]

theorem enter_gl {g : Group κ σ} {w w' : World κ σ} (h : g.enter k w = .ok () w') :
    w'.gl = w.gl := by
  unfold enter at h
  split at h
  · cases h
    rfl
  · split at h <;> cases h <;> rfl

/-- What becomes of the flags while a context is entered and worked on. -/
theorem Calling.flags {P : Call → Prop} {w₁ : World κ (Flagged κ σ)}
    (h : (g.flagged raises).Calling k P w₁ w') (henter : (g.flagged raises).enter k w = .ok () w₁)
    (hP : ∀ c, P c → c ≠ .getError) :
    (w.gl.flags k).Kept (· ≠ .getError) (w'.gl.flags k) ∧
      ∀ k', k' ≠ k → w'.gl.flags k' = w.gl.flags k' := by
  rw [← enter_gl henter]
  exact ⟨(h.flag hP).imp hP, fun k' hk => h.apart hk⟩

/-- All flags are as their records say. -/
def Kempt (first : κ → Nat) (w : World κ (Flagged κ σ)) : Prop :=
  ∀ k, (w.gl.flags k).Kempt (first k)

theorem call_kempt (c : Call) (first : κ → Nat) :
    ((g.flagged raises).call k c).Keeps (Kempt first) := by
  refine Attempt.keeps_of_leaves fun w hw k' => ?_
  obtain ⟨answer, w', hcall⟩ := call_total (g.flagged raises) k c w
  rw [hcall]
  show (w'.gl.flags k').Kempt (first k')
  by_cases hk : k' = k
  · subst hk
    by_cases hc : c = .getError
    · subst hc
      exact (check_flag hcall).2 ▸ (hw k').read
    · obtain ⟨code, hcode⟩ := call_flag hc hcall
      exact hcode ▸ (hw k').raise (some c) code
  · exact call_apart hk hcall ▸ hw k'

theorem perform_kempt (op : Operation) (first : κ → Nat) :
    ((g.flagged raises).perform k op).Keeps (Kempt first) := by
  refine Attempt.keeps_of_leaves fun w hw => ?_
  rcases (g.flagged raises).perform_leaves k op w with ⟨-, hsame⟩ | ⟨-, w₁, henter, hcalling⟩
  · rw [hsame]
    exact hw
  · refine hcalling.keeps (fun c _ => call_kempt c first) ?_
    unfold Kempt
    exact enter_gl henter ▸ hw

/-! ### One operation -/

/-- Why an operation fails that does not look at the error flag. It stands in the last line of the
log. -/
inductive FenceFault (g : Group κ σ) (k : κ) (w' : World κ (Flagged κ σ)) : Operation → Fault → Prop
  /-- The wait of a poll ended with a status that says nothing. -/
  | unclear {m : Marker} {status : Nat} {before : List (Entry κ)}
      (neither : signaled? status = none)
      (last : w'.log = before ++ [.call k (.clientWaitSync m.sync) status]) :
      FenceFault g k w' (.poll m) (Refusal.waitFailed status).fault
  /-- A recording was given no sync object, and the context reported that. -/
  | null {m : Marker} {reported : String} {before : List (Entry κ)}
      (why : g.fenceError? k w'.gl.gl = some reported)
      (last : w'.log = before ++ [.call k .fenceSync 0]) :
      FenceFault g k w' (.record m) (Refusal.notFenced reported).fault

/-- What an operation tells of errors, and what it does to the flag of its context. -/
structure Reports (g : Group κ σ) (k : κ) (op : Operation) (w : World κ (Flagged κ σ))
    (answer : Except Fault Unit) (w' : World κ (Flagged κ σ)) : Prop where
  /-- Without a look at the context, nothing changes. -/
  outside : op.touches = false → w' = w
  /-- Flags of other contexts are left alone. -/
  apart : ∀ k', k' ≠ k → w'.gl.flags k' = w.gl.flags k'
  /-- An operation that comes to its check fails if the flag is set then, with the error in its
  message. The flag is clear behind that, but the calls that undo a failed operation may set it
  again. -/
  checked : ∀ refusal, op.refusal? = some refusal → op.touches = true → ∃ f : Flag,
    (w.gl.flags k).Kept (· ≠ .getError) f ∧ f.read.Kept (·.deletes = true) (w'.gl.flags k) ∧
    answer = (if f.error = noError then .ok () else .error (refusal f.error).fault) ∧
    (∃ opening, (refusal f.error).fault.message = opening ++ errorText f.error) ∧
    (f.error = noError ∨ op.rollsBack = false → w'.gl.flags k = f.read)
  /-- Any other operation leaves a flag that is set as it is. Only polls and recordings fail, and
  that because of their sync objects. -/
  unchecked : op.refusal? = none → (w.gl.flags k).Kept (· ≠ .getError) (w'.gl.flags k) ∧
    ∀ fault, answer = .error fault → FenceFault g k w' op fault

theorem ne_getError_of_matter {op : Operation} {c : Call} (h : c.matter = op.matter) :
    c ≠ .getError := by
  rintro rfl
  cases op <;> cases h

theorem ne_getError_of_deletes {c : Call} (h : c.deletes = true) : c ≠ .getError := by
  rintro rfl
  cases h

theorem refusal?_eq_none_of_refused {op : Operation} {refusal : Refusal}
    (h : op.refused? = some refusal) : op.refusal? ≠ none := by
  cases op <;> first | cases h | exact Option.some_ne_none _

namespace Reports
variable {op : Operation} {answer : Except Fault Unit}

omit [DecidableEq κ] in
theorem untouched (hout : op.touches = false)
    (hanswer : op.refusal? = none → ∀ fault, answer ≠ .error fault) :
    Reports g k op w answer w where
  outside _ := rfl
  apart _ _ := rfl
  checked _ _ hin := by
    rw [hout] at hin
    cases hin
  unchecked hnever := ⟨.same, fun fault h => absurd h (hanswer hnever fault)⟩

omit [DecidableEq κ] in
theorem unread (hin : op.touches = true) (hnever : op.refusal? = none)
    (hflags : (w.gl.flags k).Kept (· ≠ .getError) (w'.gl.flags k) ∧
      ∀ k', k' ≠ k → w'.gl.flags k' = w.gl.flags k')
    (hanswer : ∀ fault, answer = .error fault → FenceFault g k w' op fault) :
    Reports g k op w answer w' where
  outside hout := by
    rw [hin] at hout
    cases hout
  apart := hflags.2
  checked refusal hchecks := by
    rw [hnever] at hchecks
    cases hchecks
  unchecked _ := ⟨hflags.1, hanswer⟩

omit [DecidableEq κ] in
theorem read {refusal : Nat → Refusal} {f : Flag} (hin : op.touches = true)
    (hchecks : op.refusal? = some refusal) (hapart : ∀ k', k' ≠ k → w'.gl.flags k' = w.gl.flags k')
    (hkept : (w.gl.flags k).Kept (· ≠ .getError) f)
    (hundone : f.read.Kept (·.deletes = true) (w'.gl.flags k))
    (hanswer : answer = if f.error = noError then .ok () else .error (refusal f.error).fault)
    (hback : f.error = noError ∨ op.rollsBack = false → w'.gl.flags k = f.read) :
    Reports g k op w answer w' where
  outside hout := by
    rw [hin] at hout
    cases hout
  apart := hapart
  checked refusal' hchecks' _ := by
    cases hchecks.symm.trans hchecks'
    exact ⟨f, hkept, hundone, hanswer, Operation.message_refusal hchecks _, hback⟩
  unchecked hnever := by
    rw [hchecks] at hnever
    cases hnever

end Reports

/-- **An operation that checks the error flag fails exactly when it is set, and no other operation
fails of it or clears it.** -/
theorem reports (g : Group κ σ) (raises : κ → Call → σ → Nat) (k : κ) (op : Operation)
    (w : World κ (Flagged κ σ)) :
    Reports g k op w (Attempt.answers ((g.flagged raises).perform k op w))
      (Attempt.leaves ((g.flagged raises).perform k op w)) := by
  have hperforming := (g.flagged raises).performing k op w
  generalize (g.flagged raises).perform k op w = result at hperforming ⊢
  cases hperforming with
  | idle hout => exact .untouched hout fun _ _ hanswer => by cases hanswer
  | refused hout hrefused =>
    exact .untouched hout fun hnever => absurd hnever (refusal?_eq_none_of_refused hrefused)
  | unchecked hwithin hnever henter hcalling =>
    exact .unread hwithin hnever (hcalling.flags henter fun c => ne_getError_of_matter)
      fun _ hanswer => by cases hanswer
  | unclear hpoll henter hwait hneither =>
    subst hpoll
    have hcalling : (g.flagged raises).Calling k (·.matter = .fence) _ _ := .single rfl hwait
    refine .unread rfl rfl (hcalling.flags henter fun c hc => ?_) fun fault hanswer => ?_
    · exact ne_getError_of_matter (show c.matter = (Operation.poll ⟨0⟩).matter from hc)
    · cases hanswer
      exact .unclear hneither (call_log hwait).1
  | unfenced hrecord henter hcalling hnull hwhy =>
    subst hrecord
    have hasked : (g.flagged raises).Calling k (·.matter = .fence) _ _ := .single rfl hnull
    refine .unread rfl rfl ((hcalling.trans hasked).flags henter fun c hc => ?_)
      fun fault hanswer => ?_
    · exact ne_getError_of_matter (show c.matter = (Operation.record ⟨0⟩).matter from hc)
    · cases hanswer
      exact .null hwhy (call_log hnull).1
  | passed hin hchecks henter hcalling hclear =>
    obtain ⟨hkept, hapart⟩ := hcalling.flags henter fun c => ne_getError_of_matter
    obtain ⟨hcode, hread⟩ := check_flag hclear
    have happart' k' (hk : k' ≠ k) := (call_apart hk hclear).trans (hapart k' hk)
    exact .read hin hchecks happart' hkept (hread ▸ .same) (if_pos hcode.symm).symm fun _ => hread
  | failed hin hchecks henter hcalling hraised hset hundone hback =>
    obtain ⟨hkept, hapart⟩ := hcalling.flags henter fun c => ne_getError_of_matter
    obtain ⟨rfl, hread⟩ := check_flag hraised
    have hapart' k' (hk : k' ≠ k) :=
      ((hundone.apart hk).trans (call_apart hk hraised)).trans (hapart k' hk)
    refine .read hin hchecks hapart' hkept ?_ (if_neg hset).symm fun h => ?_
    · exact hread ▸ hundone.flag fun c => ne_getError_of_deletes
    · rw [← hread]
      exact congrArg (fun w => w.gl.flags k) (hback (h.resolve_left hset))

/-! ### Any operations, and errors from elsewhere -/

/-- What can happen to the contexts of a group. -/
inductive Event (κ : Type)
  | operation (k : κ) (op : Operation)
  /-- Something else raised an error on a context. -/
  | stray (k : κ) (code : Nat)

/-- An operation comes to its check on this context. -/
def Event.Checks (k : κ) : Event κ → Prop
  | .operation k' op => k' = k ∧ op.touches = true ∧ op.refusal? ≠ none
  | .stray .. => False

variable (g : Group κ σ) (raises : κ → Call → σ → Nat)

def occur (w : World κ (Flagged κ σ)) : Event κ → World κ (Flagged κ σ)
  | .operation k op => Attempt.leaves ((g.flagged raises).perform k op w)
  | .stray k code => { w with gl := w.gl.update w.gl.gl k ((w.gl.flags k).raise none code) }

def course (w : World κ (Flagged κ σ)) (events : List (Event κ)) : World κ (Flagged κ σ) :=
  events.foldl (g.occur raises) w

theorem occur_kempt {first : κ → Nat} (hw : Kempt first w) (e : Event κ) :
    Kempt first (g.occur raises w e) := by
  cases e with
  | operation k op => exact (perform_kempt op first).leaves hw
  | stray k code =>
    intro k'
    by_cases hk : k' = k
    · subst hk
      show ((w.gl.update _ k' _).flags k').Kempt _
      rw [Flagged.flags_update]
      exact (hw k').raise none code
    · show ((w.gl.update _ k _).flags k').Kempt _
      rw [Flagged.flags_update_of_ne _ _ _ hk]
      exact hw k'

theorem course_kempt {first : κ → Nat} (hw : Kempt first w) (events : List (Event κ)) :
    Kempt first (g.course raises w events) := by
  induction events generalizing w with
  | nil => exact hw
  | cons e events ih => exact ih (g.occur_kempt raises hw e)

/-- A flag that is set waits for a check. -/
theorem occur_waits {k : κ} {e : Event κ} (hset : (w.gl.flags k).error ≠ noError)
    (he : ¬ e.Checks k) : (g.occur raises w e).gl.flags k = w.gl.flags k := by
  cases e with
  | operation k' op =>
    have hreports := reports g raises k' op w
    by_cases hk : k = k'
    · subst hk
      cases hin : op.touches with
      | false => exact congrArg (fun w => w.gl.flags k) (hreports.outside hin)
      | true =>
        have hnever : op.refusal? = none := by
          by_contra hchecks
          exact he ⟨rfl, hin, hchecks⟩
        exact (hreports.unchecked hnever).1.eq_of_set hset
    · exact hreports.apart k hk
  | stray k' code =>
    by_cases hk : k = k'
    · subst hk
      show (w.gl.update _ k _).flags k = _
      rw [Flagged.flags_update]
      exact if_neg fun h => hset h.1
    · exact Flagged.flags_update_of_ne _ _ _ hk

theorem course_waits {k : κ} {events : List (Event κ)} (hset : (w.gl.flags k).error ≠ noError)
    (hevents : ∀ e ∈ events, ¬ e.Checks k) :
    (g.course raises w events).gl.flags k = w.gl.flags k := by
  induction events generalizing w with
  | nil => rfl
  | cons e events ih =>
    have hwaits := g.occur_waits raises hset (hevents e (List.mem_cons_self ..))
    rw [← hwaits] at hset ⊢
    exact ih hset fun e' he' => hevents e' (List.mem_cons_of_mem _ he')

/-- The error in a flag is returned by the first operation that comes to its check. -/
theorem first_check_answers {k : κ} {op : Operation} {refusal : Nat → Refusal}
    {between : List (Event κ)} (hset : (w.gl.flags k).error ≠ noError)
    (hbetween : ∀ e ∈ between, ¬ e.Checks k) (hchecks : op.refusal? = some refusal)
    (hin : op.touches = true) :
    Attempt.answers ((g.flagged raises).perform k op (g.course raises w between)) =
      .error (refusal (w.gl.flags k).error).fault := by
  obtain ⟨f, hkept, -, hanswer, -⟩ :=
    (reports g raises k op (g.course raises w between)).checked refusal hchecks hin
  rw [g.course_waits raises hset hbetween] at hkept
  rw [hanswer, hkept.eq_of_set hset, if_neg hset]

/-- **Every error that sets a flag is returned once, by the first operation on its context that
comes to its check afterwards**, whatever is done on whatever contexts, and whatever errors the
calls raise. -/
theorem errors_reported_once (w : World κ σ) (first : κ → Nat) (events : List (Event κ)) :
    let behind := g.course raises (w.withFlags first)
    let answer past k op := Attempt.answers ((g.flagged raises).perform k op (behind past))
    (∀ past k op later, events = past ++ .operation k op :: later →
      Reports g k op (behind past) (answer past k op) (behind (past ++ [.operation k op]))) ∧
    (∀ past between k op later refusal, events = past ++ between ++ .operation k op :: later →
      ((behind past).gl.flags k).error ≠ noError → (∀ e ∈ between, ¬ e.Checks k) →
      op.refusal? = some refusal → op.touches = true →
      answer (past ++ between) k op =
        .error (refusal ((behind past).gl.flags k).error).fault) ∧
    ∀ k, ((behind events).gl.flags k).Orderly (first k) := by
  intro behind answer
  have happend (past more : List (Event κ)) :
      behind (past ++ more) = g.course raises (behind past) more := List.foldl_append
  refine ⟨?_, ?_, fun k => ?_⟩
  · intro past k op later _
    rw [happend]
    exact reports g raises k op _
  · intro past between k op later refusal _ hset hbetween hchecks hin
    show Attempt.answers ((g.flagged raises).perform k op (behind (past ++ between))) = _
    rw [happend]
    exact g.first_check_answers raises hset hbetween hchecks hin
  · have hstart : Kempt first (w.withFlags first) := fun k => ⟨rfl, .nil⟩
    exact (g.course_kempt raises hstart events k).orderly

end Group
end SurfaceRelay.Gl
