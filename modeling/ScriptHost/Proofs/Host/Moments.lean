import ScriptHost.Proofs.Host.Callers
import ScriptHost.Proofs.Host.Status
import ScriptHost.Proofs.Module.Evaluations

/-!
# Moments

Runtimes are used between moves, by the embedder, and within a move, by the native function that it
calls. By then the move has taken a callback out of a scheduler at most, and the engines have run.
Statuses, modules and the platform are as they were before the move.

## Main definitions

* `World.taken`: what a move takes out of the schedulers before it calls a native function.
* `World.Moment`: the moments of a world at which runtimes are used.

## Main results

* `World.arrives_of_invocation?`: a native function that a move calls finds at the desks what the
  move has taken, and nothing else.
* `World.perform_of_invocation?`: a move that calls a native function ends with the call.
* `World.Moment.arrives`, `World.Moment.sameStatuses`, `World.Moment.sameModules`,
  `World.Moment.platform_eq`: what a moment has in common with the last time between two moves.
-/

namespace ScriptHost

variable {E : Engine}

/-! ### The platform -/

namespace Host

/-- The same surroundings. -/
def SamePlatform (h h' : Host E) : Prop := h'.platform = h.platform

instance : IsPreorder (Host E) SamePlatform where
  refl _ := rfl
  trans _ _ _ H H' := H'.trans H

theorem takeCallback_platform (h : Host E) (owner : RuntimeId) (n : Notification) :
    h.SamePlatform (h.takeCallback owner n).2 := by
  rw [takeCallback, scheduling?]
  cases h.runtimes.get? owner <;> rfl

theorem takeNext_platform {h h₁ : Host E} {owner : RuntimeId} {now : Time} {n : Notification}
    (hn : h.takeNext owner now = some (n, h₁)) : h.SamePlatform h₁ := by
  obtain ⟨r, -, hn⟩ := Option.bind_eq_some_iff.1 hn
  obtain ⟨-, hn⟩ := Option.ite_none_left_eq_some.1 hn
  obtain ⟨p, -, he⟩ := Option.map_eq_some_iff.1 hn
  obtain ⟨-, rfl⟩ := Prod.mk.inj he
  rfl

end Host

/-! ### Native functions that moves call -/

namespace Job

variable {h : Host E} {j : Job E} {v : Invocation E}

/-- A native function that a step calls finds at the desks what the loop has handed out first. -/
theorem arrives_of_invocation? (hv : j.invocation? h = some v) :
    h.Arrives (fun id => (j.handed? h id).toList.map fun p => .hand p.1) v.host := by
  have hengines (h : Host E) (engines : E.State) : h.SameDesks { h with engines } :=
    (h.aside_engines engines).sameDesks
  rw [invocation?] at hv
  split at hv
  · next s _ hf =>
    rw [handed?_of_focus (by rw [hf]; rintro ⟨⟩)]
    split at hv
    · obtain rfl := Option.some.inj hv
      exact hengines h _
    · cases hv
  · next r _ hf =>
    rw [handed?_of_focus (by rw [hf]; rintro ⟨⟩)]
    have hrenders : h.SameDesks v.host := within_of_renders? hengines hv
    exact hrenders
  · next owner now hf hp =>
    obtain ⟨⟨n, h₁⟩, hn, hv⟩ := Option.bind_eq_some_iff.1 hv
    obtain ⟨-, -, -, -, harrives⟩ := Host.takeNext_desk hn
    rw [funext (handed?_deeds hf hp hn)]
    exact harrives.trans_same (within_of_delivers? hengines hv)
  · cases hv

end Job

namespace World

variable {w : World E} {m : Move E} {v : Invocation E} {h : Host E} {id : RuntimeId}

/-- What a move takes out of the schedulers before it calls a native function: the callback of the
notification that it is handed, or of one that is delivered by hand. -/
def taken (w : World E) (m : Move E) (id : RuntimeId) : List (Desk.Deed E.Value) :=
  (w.handed m id).toList.map (fun p => .hand p.1) ++ m.byHand id

/-- A native function that a move calls finds at the desks what the move has taken, and nothing
else. -/
theorem arrives_of_invocation? (hv : w.invocation? m = some v) :
    w.host.Arrives (w.taken m) v.host := by
  cases m with
  | start errand =>
    cases errand with
    | notify seat owner n =>
      exact (w.host.takeCallback_arrives owner n).trans_same
        (Job.within_of_delivers? (fun h engines => (h.aside_engines engines).sameDesks) hv)
    | _ => cases hv
  | step i =>
    obtain ⟨j, hj, hv⟩ := Option.bind_eq_some_iff.1 hv
    have htaken : w.taken (.step i) =
        fun id => (j.handed? w.host id).toList.map fun p => .hand p.1 := by
      funext id
      rw [World.taken, handed, hj]
      exact List.append_nil _
    rw [htaken]
    exact Job.arrives_of_invocation? hv
  | _ => cases hv

/-- A move that calls a native function ends with the call. -/
theorem perform_of_invocation? (hv : w.invocation? m = some v) :
    (w.perform m).host = v.perform.1 := by
  cases m with
  | start errand =>
    cases errand with
    | notify seat owner n =>
      have H := Job.notify_goesOn w.host seat owner n
      change (Job.start seat .deliver .take).delivers? w.host owner n = some v at hv
      rw [hv] at H
      change (Job.notify w.host seat owner n).1 = _
      generalize Job.notify w.host seat owner n = p at H
      cases H
      rfl
    | _ => cases hv
  | step i =>
    obtain ⟨j, hj, hv⟩ := Option.bind_eq_some_iff.1 hv
    simp only [perform, hj, Job.step_of_invocation? hv]
  | _ => cases hv

theorem sameStatuses_of_invocation? (hv : w.invocation? m = some v) :
    w.host.SameStatuses v.host :=
  within_of_invocation? (fun h engines => (h.aside_engines engines).sameStatuses)
    (fun _ _ _ _ _ hn => Host.takeNext_sameStatuses hn) Host.takeCallback_sameStatuses hv

theorem sameModules_of_invocation? (hv : w.invocation? m = some v) :
    w.host.SameModules v.host :=
  within_of_invocation? Job.sameModules_engines (fun _ _ _ _ _ hn => Job.sameModules_takeNext hn)
    Job.sameModules_takeCallback hv

theorem platform_of_invocation? (hv : w.invocation? m = some v) :
    w.host.SamePlatform v.host :=
  within_of_invocation? (R := Host.SamePlatform) (fun _ _ => rfl)
    (fun _ _ _ _ _ hn => Host.takeNext_platform hn) Host.takeCallback_platform hv

/-- A moment of a world at which runtimes are used, with what has been taken out of the schedulers
since the last move. -/
inductive Moment (w : World E) : (RuntimeId → List (Desk.Deed E.Value)) → Host E → Prop
  /-- Nothing has happened since the last move. -/
  | between : w.Moment (fun _ => []) w.host
  /-- A move calls a native function. -/
  | call {m : Move E} {v : Invocation E} (hv : w.invocation? m = some v) :
      w.Moment (w.taken m) v.host

variable {taken : RuntimeId → List (Desk.Deed E.Value)}

theorem Moment.arrives (H : w.Moment taken h) : w.host.Arrives taken h := by
  cases H with
  | between => exact refl_of Host.SameDesks w.host
  | call hv => exact arrives_of_invocation? hv

theorem Moment.sameStatuses (H : w.Moment taken h) : w.host.SameStatuses h := by
  cases H with
  | between => exact refl_of Host.SameStatuses w.host
  | call hv => exact sameStatuses_of_invocation? hv

theorem Moment.sameModules (H : w.Moment taken h) : w.host.SameModules h := by
  cases H with
  | between => exact refl_of Host.SameModules w.host
  | call hv => exact sameModules_of_invocation? hv

theorem Moment.platform_eq (H : w.Moment taken h) : h.platform = w.host.platform := by
  cases H with
  | between => rfl
  | call hv => exact platform_of_invocation? hv

end World

end ScriptHost
