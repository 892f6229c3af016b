import ScriptHost.Proofs.Host.Desks
import ScriptHost.Proofs.World

/-!
# The desks of a world

A move of a world hands out one notification at most and does what it is asked to do at the desks
that are there, sets up a new one or takes one away. So what every new desk has and shifts and
deliveries keep holds of every desk in every world.

## Main definitions

* `World.handed`: the notification that a move hands out for a runtime.
* `World.asked`, `World.deeds`: the deeds that a move is asked for, and all its deeds.
* `Host.Evolves`, `Host.Grows`: every desk that is there afterwards has seen its deeds, or its turn,
  or is new.

## Main results

* `World.perform_inside_evolves`: what a move inside of the library does at the desks.
* `World.perform_grows`: a move that does not turn back the clock lets the desks of a host grow.
* `World.desk_invariant`: what holds of new desks and is kept at a desk holds of all desks.
-/

namespace ScriptHost

open Relation (ReflTransGen)
open ScriptHost.Action (Within)
open Host HostAction

variable {E : Engine}

namespace Host

/-- Every desk that is there afterwards has seen its deeds, or is that of the next runtime and was
new in between; and clock and numbers have not gone back. -/
structure Evolves (as : RuntimeId → List (Desk.Deed E.Value)) (h h' : Host E) : Prop where
  desks : ∀ id d', h'.desk? id = some d' →
    (∃ d, h.desk? id = some d ∧ Desk.After (as id) d d') ∨
      id = ⟨h.nextRuntime⟩ ∧ h.nextRuntime < h'.nextRuntime ∧
        ∃ capacity, Desk.After [] (Desk.fresh capacity h.platform.clock h.nextTimer) d'
  clock_le : h.platform.clock ≤ h'.platform.clock
  nextTimer_le : h.nextTimer ≤ h'.nextTimer
  nextRuntime_le : h.nextRuntime ≤ h'.nextRuntime

/-- Every desk that is there afterwards has had its turn, or is that of the next runtime and was new
in between; and clock and numbers have not gone back. -/
structure Grows (o : RuntimeId → Option (Time × Notification)) (h h' : Host E) : Prop where
  desks : ∀ id d', h'.desk? id = some d' →
    (∃ d, h.desk? id = some d ∧ Desk.Turn (o id) d d') ∨
      id = ⟨h.nextRuntime⟩ ∧ h.nextRuntime < h'.nextRuntime ∧
        ∃ capacity, ReflTransGen Desk.Shift (Desk.fresh capacity h.platform.clock h.nextTimer) d'
  clock_le : h.platform.clock ≤ h'.platform.clock
  nextTimer_le : h.nextTimer ≤ h'.nextTimer
  nextRuntime_le : h.nextRuntime ≤ h'.nextRuntime

variable {as : RuntimeId → List (Desk.Deed E.Value)} {h h₁ h' : Host E}

theorem Does.evolves (H : h.Does as h') : h.Evolves as h' :=
  ⟨fun _ _ hd => .inl (H.of_some hd), H.clock_le, H.nextTimer_le,
    Nat.le_of_eq H.nextRuntime_eq.symm⟩

/-- What changes at no desk may come after the others. -/
theorem Evolves.of_desks (H : h.Evolves as h₁)
    (hd : ∀ id d, h'.desk? id = some d → h₁.desk? id = some d)
    (hclock : h'.platform.clock = h₁.platform.clock) (htimer : h'.nextTimer = h₁.nextTimer)
    (hruntime : h'.nextRuntime = h₁.nextRuntime) : h.Evolves as h' := by
  refine ⟨fun id d' hd' => ?_, hclock ▸ H.clock_le, htimer ▸ H.nextTimer_le,
    hruntime ▸ H.nextRuntime_le⟩
  rw [hruntime]
  exact H.desks id d' (hd id d' hd')

/-- Deeds after at most one that hands out a notification are turns. -/
theorem Evolves.grows {o : RuntimeId → Option (Time × Notification)}
    (H : h.Evolves (fun id => (o id).toList.map (fun p => .hand p.1) ++ as id) h')
    (ho : ∀ id now n d, o id = some (now, n) → h.desk? id = some d →
      ∃ d₁, d.handOut now = some (n, d₁)) (has : ∀ id now, .hand now ∉ as id) : h.Grows o h' := by
  refine ⟨fun id d' hd' => ?_, H.clock_le, H.nextTimer_le, H.nextRuntime_le⟩
  rcases H.desks id d' hd' with ⟨d, hd, hafter⟩ | ⟨hid, hlt, capacity, hafter⟩
  · exact .inl ⟨d, hd, hafter.turn (fun now n hn => ho id now n d hn hd) (has id)⟩
  · exact .inr ⟨hid, hlt, capacity, hafter.shifts fun _ => List.not_mem_nil⟩

/-! ### Runtimes that come and go -/

theorem desk?_erase {h : Host E} {id id' : RuntimeId} {runtimes : Table RuntimeId (Runtime E)}
    {d : Desk E.Value} (hr : runtimes = h.runtimes.erase id)
    (hd : Host.desk? { h with runtimes } id' = some d) : h.desk? id' = some d := by
  subst hr
  simp only [desk?, Table.get?_erase] at hd
  split at hd
  · cases hd
  · exact hd

theorem detach_evolves (H : h.Evolves as h₁) (seat : Seat) (id : RuntimeId) :
    h.Evolves as (h₁.detach seat id) :=
  H.of_desks (fun _ _ hd => desk?_erase rfl hd) rfl rfl rfl

theorem drop_evolves (h : Host E) (seat : Seat) : h.Evolves (fun _ => []) (h.drop seat) := by
  have H : h.Evolves (fun _ => []) h := (Does.refl h).evolves
  rw [drop]
  split
  · exact (detach_evolves H seat _).of_desks (fun _ _ hd => hd) rfl rfl rfl
  · exact H

/-- A new runtime has been entered, and then nothing has happened at the desks. -/
theorem SameDesks.evolves_of_fresh {identity : EngineId} {config : Config} {resolver : Resolver}
    {require : E.Value}
    (hruntimes : h₁.runtimes =
      h.runtimes.insert ⟨h.nextRuntime⟩ (.fresh identity config resolver require))
    (hclock : h₁.platform.clock = h.platform.clock) (htimer : h₁.nextTimer = h.nextTimer)
    (hnext : h₁.nextRuntime = h.nextRuntime + 1) (H : h₁.SameDesks h') :
    h.Evolves (fun _ => []) h' := by
  have hnext' : h'.nextRuntime = h.nextRuntime + 1 := H.nextRuntime_eq.trans hnext
  refine ⟨fun id d' hd' => ?_, Nat.le_of_eq (H.clock_eq.trans hclock).symm,
    Nat.le_of_eq (H.nextTimer_eq.trans htimer).symm, by omega⟩
  rw [H.desk?_eq] at hd'
  simp only [desk?, hruntimes, Table.get?_insert, loopSeat, hclock, htimer] at hd'
  split at hd'
  · next hid =>
    refine .inr ⟨hid, by omega, config.maxTimers, ?_⟩
    obtain rfl := Option.some.inj hd'
    exact .refl
  · exact .inl ⟨d', hd', .refl⟩

end Host

namespace Install

theorem runtime_sameDesks (owner : RuntimeId) (config : Config) (require : E.Value) :
    Within SameDesks (runtime owner config require) :=
  runtime_within (fun _ _ => Aside.sameDesks) (fun _ _ => Loading.changeTables_sameDesks _ _) config
    require

end Install

namespace Host

/-- What attaching a runtime consists of: the engine has one already, or a new runtime is entered
and installed, and then held or taken away again. -/
theorem attach_cases (h : Host E) (seat : Seat) (config : Config) (resolver : Resolver) :
    (∃ engines, (h.attach seat config resolver).2 = { h with engines }) ∨
      ∃ (require : E.Value) (h₁ h₂ : Host E),
        h₁.runtimes = h.runtimes.insert ⟨h.nextRuntime⟩
          (.fresh (h.profiles seat).identity config resolver require) ∧
        h₁.platform = h.platform ∧ h₁.nextTimer = h.nextTimer ∧
        h₁.nextRuntime = h.nextRuntime + 1 ∧
        h₂ = (Install.runtime ⟨h.nextRuntime⟩ config require seat h₁).2 ∧
        ((∃ held, (h.attach seat config resolver).2 = { h₂ with held }) ∨
          (h.attach seat config resolver).2 = h₂.detach seat ⟨h.nextRuntime⟩) := by
  rw [attach]
  generalize E.newFunction seat Export.require.name Export.require.arity Export.require.native
    h.engines = f
  obtain ⟨require, engines⟩ := f
  dsimp only
  split
  · exact .inl ⟨engines, rfl⟩
  · generalize hput : Host.put _ _ _ = h₁
    refine .inr ⟨require, h₁, _, congrArg runtimes hput.symm, hput ▸ rfl, hput ▸ rfl, hput ▸ rfl,
      rfl, ?_⟩
    rcases Install.runtime ⟨h.nextRuntime⟩ config require seat h₁ with ⟨_ | _, h₂⟩
    · exact .inr rfl
    · exact .inl ⟨_, rfl⟩

/-- The same runtimes with the same resolvers. -/
def SameResolvers (h h' : Host E) : Prop :=
  ∀ id, (h'.runtimes.get? id).map Runtime.resolver = (h.runtimes.get? id).map Runtime.resolver

instance : IsPreorder (Host E) SameResolvers where
  refl _ _ := rfl
  trans _ _ _ H H' id := (H' id).trans (H id)

theorem Aside.sameResolvers {h h' : Host E} (H : h.Aside h') : h.SameResolvers h' := by
  obtain ⟨engines, platform, -, rfl⟩ := H
  exact fun _ => rfl

theorem changeTables_sameResolvers (owner : RuntimeId)
    (f : ModuleTable E.Value → ModuleTable E.Value) :
    Within SameResolvers (Loading.changeTables owner f) := by
  intro seat h id
  change ((h.update owner _).runtimes.get? id).map Runtime.resolver = _
  rw [update]
  split
  · next r hr =>
    rw [put, Table.get?_insert]
    split
    · next hid => rw [hid, hr]; rfl
    · rfl
  · rfl

/-- A runtime that has been attached asks the resolver that it was given. -/
theorem attach_resolver {h : Host E} {seat : Seat} {config : Config} {resolver : Resolver}
    {r : Runtime E} (hnew : h.runtimes.get? ⟨h.nextRuntime⟩ = none)
    (hr : (h.attach seat config resolver).2.runtimes.get? ⟨h.nextRuntime⟩ = some r) :
    r.resolver = resolver := by
  rcases h.attach_cases seat config resolver with
    ⟨engines, he⟩ | ⟨require, h₁, h₂, hruntimes, -, -, -, rfl, hend⟩
  · rw [he] at hr
    exact nomatch hnew.symm.trans hr
  · have hinstall : h₁.SameResolvers (Install.runtime ⟨h.nextRuntime⟩ config require seat h₁).2 :=
      Install.runtime_within (fun _ _ => Aside.sameResolvers)
        (fun _ _ => changeTables_sameResolvers _ _) config require seat h₁
    have hresolver := hinstall ⟨h.nextRuntime⟩
    rw [hruntimes, Table.get?_insert_self] at hresolver
    rcases hend with ⟨held, he⟩ | he
    · rw [he] at hr
      rw [hr] at hresolver
      exact Option.some.inj hresolver
    · rw [he, detach, Table.get?_erase_self] at hr
      cases hr

theorem attach_evolves (h : Host E) (seat : Seat) (config : Config) (resolver : Resolver) :
    h.Evolves (fun _ => []) (h.attach seat config resolver).2 := by
  rcases h.attach_cases seat config resolver with
    ⟨engines, he⟩ | ⟨require, h₁, h₂, hruntimes, hplatform, htimer, hnext, rfl, hend⟩
  · rw [he]
    exact (h.aside_engines engines).sameDesks.does.evolves
  · have hevolves := SameDesks.evolves_of_fresh hruntimes (congrArg _ hplatform) htimer hnext
      (Install.runtime_sameDesks ⟨h.nextRuntime⟩ config require seat h₁)
    rcases hend with ⟨held, he⟩ | he
    · rw [he]
      exact hevolves.of_desks (fun _ _ hd => hd) rfl rfl rfl
    · rw [he]
      exact detach_evolves hevolves ..

theorem attachFiles_evolves (h : Host E) (seat : Seat) (config : Config) :
    h.Evolves (fun _ => []) (h.attachFiles seat config).2 := by
  rw [attachFiles]
  split
  · exact attach_evolves ..
  · split
    · exact attach_evolves ..
    · exact (Does.refl h).evolves

/-! ### Direct use -/

theorem setTimer_does (h : Host E) (id : RuntimeId) (kind : TimerKind) (callback : E.Value)
    (delay : Double) : h.Does (deedsAt (some id) [.set kind callback delay])
      (((h.setTimer? id kind callback delay).map Prod.snd).getD h) :=
  scheduling?_does (by simp) (fun _ _ => rfl) h id

theorem clearTimer_does (h : Host E) (id : RuntimeId) (kind : TimerKind) (timer : TimerId) :
    h.Does (deedsAt (some id) [.clear kind timer])
      (((h.clearTimer? id kind timer).map Prod.snd).getD h) :=
  scheduling?_does (by simp) (fun _ _ => rfl) h id

theorem nextTick_does (h : Host E) (id : RuntimeId) (callback : E.Value) :
    h.Does (deedsAt (some id) [.tick callback])
      (((h.nextTick? id callback).map Prod.snd).getD h) :=
  scheduling?_does (by simp) (fun _ _ => rfl) h id

end Host

/-! ### Beginnings -/

/-- The native function that is called when a job is begun. -/
def Errand.invocation? (h : Host E) : Errand E → Option (Invocation E)
  | .notify seat owner n => (Job.start seat .deliver .take).delivers? h owner n
  | _ => none

/-- The callback that is taken by hand when a job is begun. -/
def Errand.taken : Errand E → RuntimeId → List (Desk.Deed E.Value)
  | .notify _ owner n => deedsAt (some owner) [.take n]
  | _ => fun _ => []

theorem Errand.begin_does (h : Host E) (errand : Errand E) :
    h.Does (fun id => errand.taken id ++ Invocation.deeds? (errand.invocation? h) id)
      (errand.begin h).1 := by
  cases errand with
  | evaluate seat s => exact .refl h
  | require seat owner q main =>
    exact SameDesks.does (Job.act_sameDesks (Loading.require_sameDesks owner q) fun h reply =>
      Job.answer_sameDesks h _ reply)
  | notify seat owner n =>
    exact (takeCallback_arrives h owner n).trans_does (Job.notify_goesOn ..).does
  | runReady seat owner now => exact .refl h
  | runLoop seat owner limit => exact (h.aside_engines _).sameDesks.does

/-- The deed that a move does by hand. -/
def Move.byHand : Move E → RuntimeId → List (Desk.Deed E.Value)
  | .setTimer id kind callback delay => deedsAt (some id) [.set kind callback delay]
  | .clearTimer id kind timer => deedsAt (some id) [.clear kind timer]
  | .nextTick id callback => deedsAt (some id) [.tick callback]
  | .start errand => errand.taken
  | _ => fun _ => []

namespace World

/-- The notification that a move hands out for a runtime, with the time of the pass. -/
def handed (w : World E) : Move E → RuntimeId → Option (Time × Notification)
  | .step i => (w.jobs[i]?.map (Job.handed? w.host)).getD fun _ => none
  | _ => fun _ => none

/-- The native function that a move calls. -/
def invocation? (w : World E) : Move E → Option (Invocation E)
  | .start errand => errand.invocation? w.host
  | .step i => w.jobs[i]?.bind (Job.invocation? w.host)
  | _ => none

/-- The deeds that a move is asked for. -/
def asked (w : World E) (m : Move E) (id : RuntimeId) : List (Desk.Deed E.Value) :=
  m.byHand id ++ Invocation.deeds? (w.invocation? m) id

/-- All deeds of a move: what it hands out, and what it is asked for. -/
def deeds (w : World E) (m : Move E) (id : RuntimeId) : List (Desk.Deed E.Value) :=
  (w.handed m id).toList.map (fun p => .hand p.1) ++ w.asked m id

theorem hand_not_mem_asked (w : World E) (m : Move E) (id : RuntimeId) (now : Time) :
    .hand now ∉ w.asked m id := by
  have hat (id' : RuntimeId) (a : Desk.Deed E.Value) (ha : a ≠ .hand now) :
      .hand now ∉ deedsAt (some id') [a] id := by
    rw [deedsAt]
    split
    · simpa using ha.symm
    · exact List.not_mem_nil
  rw [asked, List.mem_append, not_or]
  refine ⟨?_, fun hmem => Invocation.isAsked_of_mem hmem⟩
  cases m with
  | setTimer id' kind callback delay => exact hat id' (.set kind callback delay) (by simp)
  | clearTimer id' kind timer => exact hat id' (.clear kind timer) (by simp)
  | nextTick id' callback => exact hat id' (.tick callback) (by simp)
  | start errand =>
    cases errand with
    | notify seat owner n => exact hat owner (.take n) (by simp)
    | _ => exact List.not_mem_nil
  | _ => exact List.not_mem_nil

/-- What a move inside of the library does at the desks. -/
theorem perform_inside_evolves (w : World E) {m : Move E}
    (hm : ∀ engines platform, m ≠ .outside engines platform) :
    w.host.Evolves (w.deeds m) (w.perform m).host := by
  have hdirect {id : RuntimeId} {a : Desk.Deed E.Value} {h : Host E}
      (hd : w.deeds m = fun id' => deedsAt (some id) [a] id' ++ [])
      (H : w.host.Does (deedsAt (some id) [a]) h) : w.host.Evolves (w.deeds m) h := by
    simp only [List.append_nil] at hd
    exact hd ▸ H.evolves
  cases m with
  | outside engines platform => exact absurd rfl (hm engines platform)
  | attach seat config resolver => exact attach_evolves ..
  | attachFiles seat config => exact attachFiles_evolves ..
  | drop seat => exact drop_evolves ..
  | setTimer id kind callback delay => exact hdirect rfl (setTimer_does ..)
  | clearTimer id kind timer => exact hdirect rfl (clearTimer_does ..)
  | nextTick id callback => exact hdirect rfl (nextTick_does ..)
  | stop id => exact (stopLoop_does ..).evolves
  | start errand => exact (errand.begin_does w.host).evolves
  | step i =>
    have hdeeds (id : RuntimeId) : w.deeds (.step i) id =
        ((w.jobs[i]?.map fun j => j.deeds w.host id).getD []) := by
      simp only [deeds, handed, asked, invocation?]
      cases w.jobs[i]? <;> rfl
    simp only [perform]
    rw [funext hdeeds]
    cases w.jobs[i]? with
    | none => exact (Does.refl w.host).evolves
    | some j => exact (j.step_does w.host).evolves

/-- What a move hands out is what the loop hands out at its desk. -/
theorem handOut_of_handed {w : World E} {m : Move E} {id : RuntimeId} {now : Time}
    {n : Notification} {d : Desk E.Value} (hn : w.handed m id = some (now, n))
    (hd : w.host.desk? id = some d) : ∃ d₁, d.handOut now = some (n, d₁) := by
  cases m with
  | step i =>
    rw [handed] at hn
    rcases hi : w.jobs[i]? with _ | j <;> rw [hi] at hn
    · cases hn
    · exact Job.handOut_of_handed? hn hd
  | _ => cases hn

/-- A move inside of the library lets the desks grow. -/
theorem perform_inside_grows (w : World E) {m : Move E}
    (hm : ∀ engines platform, m ≠ .outside engines platform) :
    w.host.Grows (w.handed m) (w.perform m).host :=
  (w.perform_inside_evolves hm).grows (fun _ _ _ _ hn hd => handOut_of_handed hn hd)
    (w.hand_not_mem_asked m)

/-- What lies outside changes the clock of every desk and nothing else. -/
theorem outside_desk? (w : World E) (engines : E.State) (platform : Platform) (id : RuntimeId) :
    (w.perform (.outside engines platform)).host.desk? id =
      (w.host.desk? id).map fun d => (d.1, { d.2 with clock := platform.clock }) := by
  simp only [perform, desk?, Option.map_map]
  rfl

/-- A move that does not turn back the clock lets the desks grow. -/
theorem perform_grows (w : World E) (m : Move E)
    (hclock : w.host.platform.clock ≤ (w.perform m).host.platform.clock) :
    w.host.Grows (w.handed m) (w.perform m).host := by
  by_cases hm : ∃ engines platform, m = .outside engines platform
  · obtain ⟨engines, platform, rfl⟩ := hm
    refine ⟨fun id d' hd' => .inl ?_, hclock, Nat.le_refl _, Nat.le_refl _⟩
    rw [outside_desk?] at hd'
    obtain ⟨d, hd, rfl⟩ := Option.map_eq_some_iff.1 hd'
    obtain ⟨r, -, rfl⟩ := Option.map_eq_some_iff.1 hd
    exact ⟨_, hd, .single (.elapse _ hclock (Nat.le_refl _))⟩
  · exact w.perform_inside_grows fun engines platform h => hm ⟨engines, platform, h⟩

/-- The numbers of runtimes are not given twice. -/
theorem nextRuntime_le_perform (w : World E) (m : Move E) :
    w.host.nextRuntime ≤ (w.perform m).host.nextRuntime := by
  by_cases hm : ∃ engines platform, m = .outside engines platform
  · obtain ⟨engines, platform, rfl⟩ := hm
    exact Nat.le_refl _
  · exact (w.perform_inside_evolves fun engines platform h =>
      hm ⟨engines, platform, h⟩).nextRuntime_le

/-- The numbers of timers are not given twice. -/
theorem nextTimer_le_perform (w : World E) (m : Move E) :
    w.host.nextTimer ≤ (w.perform m).host.nextTimer := by
  by_cases hm : ∃ engines platform, m = .outside engines platform
  · obtain ⟨engines, platform, rfl⟩ := hm
    exact Nat.le_refl _
  · exact (w.perform_inside_evolves fun engines platform h =>
      hm ⟨engines, platform, h⟩).nextTimer_le

/-- What every new desk has, whatever the clock says, and shifts and deliveries keep holds of every
desk in every world. -/
theorem desk_invariant {P : Desk E.Value → Prop}
    (hfresh : ∀ capacity clock nextTimer, P (.fresh capacity clock nextTimer))
    (hshift : ∀ d d', P d → Desk.Shift d d' → P d')
    (hdeliver : ∀ now n d d', P d → Desk.Delivers now n d d' → P d')
    (hclock : ∀ d t, P d → P (d.1, { d.2 with clock := t }))
    (engines : E.State) (platform : Platform) (profiles : Seat → Profile) (ms : List (Move E))
    {id : RuntimeId} {d : Desk E.Value}
    (hd : ((initial engines platform profiles).run ms).host.desk? id = some d) : P d := by
  refine run_invariant (P := fun w => ∀ id d, w.host.desk? id = some d → P d) ?_ ?_ ms id d hd
  · rintro id d ⟨⟩
  · intro w m hw id d' hd'
    by_cases hm : ∃ engines platform, m = .outside engines platform
    · obtain ⟨engines, platform, rfl⟩ := hm
      rw [outside_desk?] at hd'
      obtain ⟨d, hd, rfl⟩ := Option.map_eq_some_iff.1 hd'
      exact hclock d platform.clock (hw id d hd)
    · have hgrows := w.perform_inside_grows fun engines platform h => hm ⟨engines, platform, h⟩
      rcases hgrows.desks id d' hd' with ⟨d, hd, hturn⟩ | ⟨-, -, capacity, hs⟩
      · exact hturn.invariant hshift hdeliver (hw id d hd)
      · exact Desk.shifts_invariant hshift (hfresh ..) hs

end World

end ScriptHost
