import Mathlib.Data.List.Forall2
import SurfaceRelay.Gl.Domain
import SurfaceRelay.Proofs.Attempt

/-! The calls that the operations of a GL domain make.

The log of a share group only grows, so an operation is described by the lines it adds: which
calls, on which context, and the answers that decide how it goes on. Whose hook has to run
first is settled once (`enter_log`): after one operation on a context, the next one on the same
context finds it current and adds nothing but its calls. -/
namespace SurfaceRelay.Gl.Group
variable {κ σ : Type} {g : Group κ σ} {k : κ} {w w' : World κ σ}

/-- The lines of some calls, whatever was answered. -/
def Made (k : κ) : List Call → List (Entry κ) → Prop :=
  List.Forall₂ fun c line => ∃ answer, line = .call k c answer

/-- If the context has a hook, the context is known to be current. -/
def Current (g : Group κ σ) (k : κ) (w : World κ σ) : Prop :=
  g.hooked k = true → w.current = some k

theorem call_log {c : Call} {answer : Nat} (h : g.call k c w = .ok answer w') :
    w'.log = w.log ++ [.call k c answer] ∧ w'.current = w.current := by
  simp only [call] at h
  cases h
  exact ⟨rfl, rfl⟩

theorem call_total (g : Group κ σ) (k : κ) (c : Call) (w : World κ σ) :
    ∃ answer w', g.call k c w = .ok answer w' := ⟨_, _, rfl⟩

theorem calls_total (g : Group κ σ) (k : κ) (cs : List Call) (w : World κ σ) :
    ∃ w', g.calls k cs w = .ok () w' := by
  induction cs generalizing w with
  | nil => exact ⟨w, rfl⟩
  | cons c cs ih =>
    obtain ⟨answer, w₁, hcall⟩ := call_total g k c w
    rw [calls, Attempt.bind_of_ok hcall]
    exact ih w₁

theorem calls_log {cs : List Call} (h : g.calls k cs w = .ok () w') :
    ∃ lines, Made k cs lines ∧ w'.log = w.log ++ lines ∧ w'.current = w.current := by
  induction cs generalizing w with
  | nil =>
    cases h
    exact ⟨[], .nil, by simp, rfl⟩
  | cons c cs ih =>
    obtain ⟨answer, w₁, hcall, h⟩ := Attempt.bind_ok h
    obtain ⟨hlog₁, hcurrent₁⟩ := call_log hcall
    obtain ⟨lines, hmade, hlog₂, hcurrent₂⟩ := ih h
    refine ⟨.call k c answer :: lines, .cons ⟨answer, rfl⟩ hmade, ?_, ?_⟩
    · rw [hlog₂, hlog₁, List.append_assoc]
      rfl
    · rw [hcurrent₂, hcurrent₁]

/-- A check that passes found the error flag clear. -/
theorem check_log {refusal : Nat → Refusal} (h : g.check k refusal w = .ok () w') :
    w'.log = w.log ++ [.call k .getError noError] ∧ w'.current = w.current := by
  obtain ⟨code, w₁, hcall, h⟩ := Attempt.bind_ok h
  obtain ⟨hlog, hcurrent⟩ := call_log hcall
  split at h
  · cases h
  · rename_i hcode
    cases h
    rw [not_not.1 hcode] at hlog
    exact ⟨hlog, hcurrent⟩

theorem deleteFence_ok (g : Group κ σ) (k : κ) (m : Marker) (w : World κ σ) :
    ∃ w' lines, g.deleteFence k m w = .ok () w' ∧ w'.log = w.log ++ lines := by
  obtain ⟨w', h⟩ := calls_total g k (if m.sync = 0 then [] else [.deleteSync m.sync]) w
  obtain ⟨lines, -, hlog, -⟩ := calls_log h
  exact ⟨w', lines, h, hlog⟩

/-- Asking for a sync object brings what the call answers, unless that is 0 and the context reports
an error. -/
theorem newFence_result (g : Group κ σ) (k : κ) (w : World κ σ) :
    ∃ sync w', g.call k .fenceSync w = .ok sync w' ∧
      (g.newFence k w = .ok sync w' ∨
        sync = 0 ∧ ∃ reported, g.fenceError? k w'.gl = some reported ∧
          g.newFence k w = .error (Refusal.notFenced reported).fault w') := by
  obtain ⟨sync, w', hcall⟩ := call_total g k .fenceSync w
  have hget : (get : Attempt (World κ σ) (World κ σ)) w' = .ok w' w' := rfl
  have hmade (h : g.fenceRefusal? k sync w'.gl = none) : g.newFence k w = .ok sync w' := by
    rw [newFence, Attempt.bind_of_ok hcall, Attempt.bind_of_ok hget, h]
    rfl
  have hrefused {refusal : Refusal} (h : g.fenceRefusal? k sync w'.gl = some refusal) :
      g.newFence k w = .error refusal.fault w' := by
    rw [newFence, Attempt.bind_of_ok hcall, Attempt.bind_of_ok hget, h]
    rfl
  refine ⟨sync, w', hcall, ?_⟩
  by_cases hsync : sync = 0
  · cases hreported : g.fenceError? k w'.gl with
    | none => exact .inl (hmade (by rw [fenceRefusal?, if_pos hsync, hreported]; rfl))
    | some reported =>
      refine .inr ⟨hsync, reported, rfl, hrefused ?_⟩
      rw [fenceRefusal?, if_pos hsync, hreported]
      rfl
  · exact .inl (hmade (by rw [fenceRefusal?, if_neg hsync]))

/-! ### What calls say -/

variable {fail : World κ σ → Prop}

/-- A call adds its line, and never fails. -/
theorem call_meets {c : Call} {P : List (Entry κ) → Prop} {Q : Nat → List (Entry κ) → Prop}
    (h : ∀ log answer, P log → Q answer (log ++ [.call k c answer])) :
    (g.call k c).Meets (fun w => P w.log) (fun answer w => Q answer w.log) fail :=
  Attempt.meets_of_result fun w hw => h w.log _ hw

theorem calls_meets {cs : List Call} {P Q : List (Entry κ) → Prop}
    (h : ∀ log lines, Made k cs lines → P log → Q (log ++ lines)) :
    (g.calls k cs).Meets (fun w => P w.log) (fun _ w => Q w.log) fail := by
  refine Attempt.meets_of_result fun w hw => ?_
  obtain ⟨w', hcalls⟩ := calls_total g k cs w
  obtain ⟨lines, hmade, hlog, -⟩ := calls_log hcalls
  rw [hcalls]
  show Q w'.log
  rw [hlog]
  exact h w.log lines hmade hw

/-! ### Entering a context -/

variable [DecidableEq κ]

theorem enter_total (g : Group κ σ) (k : κ) (w : World κ σ) : ∃ w', g.enter k w = .ok () w' := by
  simp only [enter]
  split
  · exact ⟨_, rfl⟩
  · split <;> exact ⟨_, rfl⟩

/-- Entering a context adds at most the line of its hook. -/
theorem enter_log (h : g.enter k w = .ok () w') :
    g.Current k w' ∧ (w'.log = w.log ∨ w'.log = w.log ++ [.activated k]) := by
  simp only [enter] at h
  split at h
  · rename_i hhook
    cases h
    exact ⟨fun hk => absurd hk (by simpa using hhook), .inl rfl⟩
  · split at h
    · rename_i hcurrent
      cases h
      exact ⟨fun _ => hcurrent, .inl rfl⟩
    · cases h
      exact ⟨fun _ => rfl, .inr rfl⟩

theorem enter_hook (h : g.enter k w = .ok () w') : ∃ hook, w'.log = w.log ++ hook := by
  rcases (enter_log h).2 with hlog | hlog
  · exact ⟨[], by simp [hlog]⟩
  · exact ⟨_, hlog⟩

/-- A context that is current is entered without its hook. -/
theorem enter_current (hcurrent : g.Current k w) (h : g.enter k w = .ok () w') :
    w'.log = w.log := by
  simp only [enter] at h
  split at h
  · cases h
    rfl
  · rename_i hhook
    rw [if_pos (hcurrent (by simpa using hhook))] at h
    cases h
    rfl

/-! ### Copying and reading back -/

/-- What a copy does on a context that is current: the blit between the two framebuffers. -/
def blitCalls (i staging : Image) (region : Extent) : List Call :=
  [.bindFramebuffer .read i.framebuffer, .bindFramebuffer .draw staging.framebuffer,
    .blitFramebuffer region, .bindFramebuffer .both 0]

/-- What reading an image back does. -/
def readCalls (staging : Image) : List Call :=
  [.bindFramebuffer .both staging.framebuffer, .readPixels staging.size, .bindFramebuffer .both 0]

/-- A copy that succeeds blits and finds the error flag clear. -/
theorem stage_log {i staging : Image} {region : Extent}
    (h : g.stage k i staging region w = .ok () w') :
    g.Current k w' ∧ ∃ hook blit, Made k (blitCalls i staging region) blit ∧
      w'.log = w.log ++ hook ++ (blit ++ [.call k .getError noError]) := by
  obtain ⟨_, w₁, henter, h⟩ := Attempt.bind_ok h
  obtain ⟨_, w₂, hcalls, hcheck⟩ := Attempt.bind_ok h
  obtain ⟨hook, hlog₁⟩ := enter_hook henter
  obtain ⟨blit, hmade, hlog₂, hcurrent₂⟩ := calls_log hcalls
  obtain ⟨hlog₃, hcurrent₃⟩ := check_log hcheck
  refine ⟨fun hk => ?_, hook, blit, hmade, ?_⟩
  · rw [hcurrent₃, hcurrent₂, (enter_log henter).1 hk]
  · rw [hlog₃, hlog₂, hlog₁, List.append_assoc _ blit]

/-- Reading back on a context that is current makes its calls and nothing else. -/
theorem blockOn_log {staging : Image} (hcurrent : g.Current k w)
    (h : g.blockOn k staging w = .ok () w') :
    ∃ read, Made k (readCalls staging) read ∧
      w'.log = w.log ++ (read ++ [.call k .getError noError]) := by
  obtain ⟨_, w₁, henter, h⟩ := Attempt.bind_ok h
  obtain ⟨_, w₂, hcalls, hcheck⟩ := Attempt.bind_ok h
  obtain ⟨read, hmade, hlog₂, -⟩ := calls_log hcalls
  refine ⟨read, hmade, ?_⟩
  rw [(check_log hcheck).1, hlog₂, enter_current hcurrent henter, List.append_assoc]

/-! ### Markers -/

section
variable {m : Marker} {w₁ w₂ w₃ w₄ : World κ σ} (henter : g.enter k w = .ok () w₁)
  (hdelete : g.deleteFence k m w₁ = .ok () w₂)
include henter hdelete

/-- A recording that got its sync object flushes. -/
theorem record_fenced {sync : Nat} (hfence : g.newFence k w₂ = .ok sync w₃)
    (hflush : g.calls k [.flush] w₃ = .ok () w₄) : g.record k m w = .ok ⟨sync⟩ w₄ := by
  rw [record, Attempt.bind_of_ok henter, Attempt.bind_of_ok hdelete, Attempt.bind_of_ok hfence,
    Attempt.bind_of_ok hflush]
  rfl

/-- A recording that got none ends there, behind the deletion of the old one. -/
theorem record_unfenced {e : Fault} (hfence : g.newFence k w₂ = .error e w₃) :
    g.record k m w = .error e w₃ := by
  rw [record, Attempt.bind_of_ok henter, Attempt.bind_of_ok hdelete, Attempt.bind_of_error hfence]

end

/-- A recording asks for a sync object behind the hook and the deletion of the old one. It keeps
whatever it is given, unless it is given none and told why. -/
theorem record_log (g : Group κ σ) (k : κ) (m : Marker) (w : World κ σ) :
    ∃ sync w' first last,
      w'.log = w.log ++ (first ++ [.call k .fenceSync sync] ++ last) ∧
      (g.record k m w = .ok ⟨sync⟩ w' ∨
        sync = 0 ∧ ∃ gl reported, g.fenceError? k gl = some reported ∧
          g.record k m w = .error (Refusal.notFenced reported).fault w') := by
  obtain ⟨w₁, henter⟩ := enter_total g k w
  obtain ⟨w₂, deleted, hdelete, hlog₂⟩ := deleteFence_ok g k m w₁
  obtain ⟨sync, w₃, hfence, hnew⟩ := newFence_result g k w₂
  obtain ⟨hook, hlog₁⟩ := enter_hook henter
  have hlog₃ : w₃.log = w.log ++ (hook ++ deleted ++ [.call k .fenceSync sync]) := by
    rw [(call_log hfence).1, hlog₂, hlog₁]
    simp only [List.append_assoc]
  rcases hnew with hok | ⟨rfl, reported, hreported, herror⟩
  · obtain ⟨w₄, hflush⟩ := calls_total g k [.flush] w₃
    obtain ⟨flushed, -, hlog₄, -⟩ := calls_log hflush
    refine ⟨sync, w₄, hook ++ deleted, flushed, ?_, .inl (record_fenced henter hdelete hok hflush)⟩
    rw [hlog₄, hlog₃, List.append_assoc]
  · refine ⟨0, w₃, hook ++ deleted, [], ?_, .inr ⟨rfl, w₃.gl, reported, hreported, ?_⟩⟩
    · rw [hlog₃, List.append_nil]
    · exact record_unfenced henter hdelete herror

/-- A recorded marker has what it asked for. -/
theorem record_log_ok {m m' : Marker} (h : g.record k m w = .ok m' w') :
    ∃ first last, w'.log = w.log ++ (first ++ [.call k .fenceSync m'.sync] ++ last) := by
  obtain ⟨sync, w₁, first, last, hlog, hrecord | ⟨-, gl, reported, -, hrecord⟩⟩ :=
    g.record_log k m w <;> rw [h] at hrecord <;> cases hrecord
  exact ⟨first, last, hlog⟩

/-- A recording that fails was given no sync object, and told why. -/
theorem record_log_error {m : Marker} {e : Fault} (h : g.record k m w = .error e w') :
    (∃ gl, (g.fenceError? k gl).isSome) ∧
      ∃ first last, w'.log = w.log ++ (first ++ [.call k .fenceSync 0] ++ last) := by
  obtain ⟨sync, w₁, first, last, hlog, hrecord | ⟨rfl, gl, reported, hreported, hrecord⟩⟩ :=
    g.record_log k m w <;> rw [h] at hrecord <;> cases hrecord
  exact ⟨⟨gl, by rw [hreported]; rfl⟩, first, last, hlog⟩

/-- A marker without a sync object is retired without asking. -/
theorem poll_null {m : Marker} (hm : m.sync = 0) {w₁ : World κ σ} (h : g.enter k w = .ok () w₁) :
    g.poll k m w = .ok (some m) w₁ := by
  rw [poll, Attempt.bind_of_ok h, if_pos hm]
  rfl

/-- What a poll makes of the status of the sync object. -/
theorem poll_waited {m : Marker} (hm : m.sync ≠ 0) {status : Nat} {w₁ w₂ : World κ σ}
    (henter : g.enter k w = .ok () w₁)
    (hwait : g.call k (.clientWaitSync m.sync) w₁ = .ok status w₂) :
    g.poll k m w =
      match signaled? status with
      | some true => (do g.deleteFence k m; return some ⟨0⟩ : Attempt _ _) w₂
      | some false => .ok none w₂
      | none => .error (Refusal.waitFailed status).fault w₂ := by
  rw [poll, Attempt.bind_of_ok henter, if_neg hm]
  show (g.call k (.clientWaitSync m.sync) >>= _) w₁ = _
  rw [Attempt.bind_of_ok hwait]
  rcases signaled? status with _ | _ | _ <;> rfl

/-- A poll asks for the status of the sync object, and adds what that says. -/
theorem poll_sync {m : Marker} (hm : m.sync ≠ 0) (w : World κ σ) :
    ∃ hook status w₁, w₁.log = w.log ++ (hook ++ [.call k (.clientWaitSync m.sync) status]) ∧
      g.poll k m w =
        match signaled? status with
        | some true => (do g.deleteFence k m; return some ⟨0⟩ : Attempt _ _) w₁
        | some false => .ok none w₁
        | none => .error (Refusal.waitFailed status).fault w₁ := by
  obtain ⟨w₁, henter⟩ := enter_total g k w
  obtain ⟨status, w₂, hcall⟩ := call_total g k (.clientWaitSync m.sync) w₁
  obtain ⟨hook, hlog₁⟩ := enter_hook henter
  exact ⟨hook, status, w₂, by rw [(call_log hcall).1, hlog₁, List.append_assoc],
    poll_waited hm henter hcall⟩

/-- The two statuses that say a sync object is signaled. -/
theorem signaled_iff (status : Nat) :
    signaled? status = some true ↔ status = alreadySignaled ∨ status = conditionSatisfied := by
  simp only [signaled?]
  split
  · rename_i hs
    exact iff_of_true rfl hs
  · rename_i hs
    split <;> exact iff_of_false (by simp) hs

/-- A sync object has retired only when a wait on it says so. -/
theorem poll_retired {m m' : Marker} (hm : m.sync ≠ 0) (h : g.poll k m w = .ok (some m') w') :
    ∃ status first last, (status = alreadySignaled ∨ status = conditionSatisfied) ∧
      w'.log = w.log ++ (first ++ [.call k (.clientWaitSync m.sync) status] ++ last) := by
  obtain ⟨hook, status, w₁, hlog, hpoll⟩ := poll_sync (g := g) (k := k) hm w
  rw [hpoll] at h
  obtain ⟨w₂, deleted, hdelete, hlog₂⟩ := deleteFence_ok g k m w₁
  rcases hs : signaled? status with _ | _ | _ <;> rw [hs] at h
  · cases h
  · cases h
  · dsimp only at h
    rw [Attempt.bind_of_ok hdelete] at h
    cases h
    exact ⟨status, hook, deleted, (signaled_iff status).1 hs,
      by rw [hlog₂, hlog, List.append_assoc]⟩

/-- A poll only adds to the log. -/
theorem poll_grows (g : Group κ σ) (k : κ) (m : Marker) (w : World κ σ) :
    ∃ lines, (Attempt.leaves (g.poll k m w)).log = w.log ++ lines := by
  by_cases hm : m.sync = 0
  · obtain ⟨w₁, henter⟩ := enter_total g k w
    rw [poll_null hm henter]
    exact enter_hook henter
  · obtain ⟨hook, status, w₁, hlog, hpoll⟩ := poll_sync (g := g) (k := k) hm w
    rw [hpoll]
    obtain ⟨w₂, deleted, hdelete, hlog₂⟩ := deleteFence_ok g k m w₁
    rcases signaled? status with _ | _ | _
    · exact ⟨_, hlog⟩
    · exact ⟨_, hlog⟩
    · dsimp only
      rw [Attempt.bind_of_ok hdelete]
      exact ⟨_, by rw [← List.append_assoc, ← hlog]; exact hlog₂⟩

end SurfaceRelay.Gl.Group
