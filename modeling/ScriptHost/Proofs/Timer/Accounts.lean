import ScriptHost.Proofs.Timer.Agreement
import ScriptHost.Proofs.Timer.Events
import Mathlib.Data.List.Perm.Basic
import Mathlib.Data.List.Nodup

/-!
# What a scheduler holds

The scheduler owns every callback from its registration on. It gives up the callback of a timeout or
of a queued event before that is run, and it is never given the same name twice. So, of every kind,
the timers that have been started are those that are done and those whose callbacks it holds; and
the callbacks that have been queued are those that have been run and those that it holds.

## Main definitions

* `timerIds`, `ended`: the timers of a kind that have been started, and those that are done.
* `Cancelled`: a timer that was of a kind has been cancelled as one of that kind.
* `Table.Accounts`, `Table.HoldsQueued`: what the tables of a scheduler hold.
* `Scheduler.Accounts`: what a scheduler holds, given the events so far.

## Main results

* `Scheduler.Accounts.concat`: one more event, by what it does to the tables.
* `Desk.accounts_perform`: every deed keeps the accounts.
-/

namespace ScriptHost

variable {V : Type} {E : Engine}

/-- The timers of a kind that have been started. -/
def timerIds (kind : TimerKind) (es : List (CallbackEvent V)) : List TimerId :=
  (registrations kind es).map Prod.fst

/-- The timers of a kind that are done: cancelled, or fired if they fire once. -/
def ended (kind : TimerKind) (es : List (CallbackEvent V)) : List TimerId :=
  es.filterMap fun
    | .cancelled kind' timer true => if kind' = kind then some timer else none
    | .fired .timeout timer _ => if kind = .timeout then some timer else none
    | _ => none

/-- A timer that was of a kind has been cancelled as one of that kind. -/
def Cancelled (kind : TimerKind) (timer : TimerId) (es : List (CallbackEvent V)) : Prop :=
  ∃ es₁ found es₂, es = es₁ ++ .cancelled kind timer found :: es₂ ∧ timer ∈ timerIds kind es₁

section Append

variable (kind : TimerKind) (es es' : List (CallbackEvent V))

@[simp]
theorem timerIds_append : timerIds kind (es ++ es') = timerIds kind es ++ timerIds kind es' := by
  rw [timerIds, registrations_append, List.map_append]
  rfl

@[simp]
theorem ended_append : ended kind (es ++ es') = ended kind es ++ ended kind es' :=
  List.filterMap_append

/-- A timeout is done when it has fired or has been cancelled. -/
theorem ended_timeout_perm : (ended .timeout es).Perm
    ((firings .timeout es).map Prod.fst ++ cancellations .timeout es) := by
  induction es with
  | nil => exact .refl _
  | cons e es ih =>
    rcases e with _ | ⟨_ | _, timer, _ | _⟩ | ⟨_ | _, timer, _⟩ | _ | _
    case cancelled.timeout.true => exact (ih.cons timer).trans List.perm_middle.symm
    case fired.timeout => exact ih.cons timer
    all_goals exact ih

end Append

theorem Cancelled.mem_timerIds {kind : TimerKind} {timer : TimerId} {es : List (CallbackEvent V)}
    (h : Cancelled kind timer es) : timer ∈ timerIds kind es := by
  obtain ⟨es₁, found, es₂, rfl, hmem⟩ := h
  rw [timerIds_append]
  exact List.mem_append_left _ hmem

/-- After one more event a timer has been cancelled that has been before, or that this event
cancels. -/
theorem Cancelled.of_concat {kind : TimerKind} {timer : TimerId} {es : List (CallbackEvent V)}
    {e : CallbackEvent V} (h : Cancelled kind timer (es ++ [e])) :
    Cancelled kind timer es ∨
      ∃ found, e = .cancelled kind timer found ∧ timer ∈ timerIds kind es := by
  obtain ⟨es₁, found, es₂, hes, hmem⟩ := h
  rcases World.split_of_concat hes with ⟨rfl, he⟩ | ⟨es₃, hes, -⟩
  · exact .inr ⟨found, he, hmem⟩
  · exact .inl ⟨es₁, found, es₃, hes, hmem⟩

/-! ### Accounts -/

/-- The callbacks of a kind of timers that a scheduler holds: the timers that have been started are
those that are done and those that it holds, and these it holds with their callbacks. -/
structure Table.Accounts (t : Table TimerId V) (kind : TimerKind) (es : List (CallbackEvent V)) :
    Prop where
  balance : (timerIds kind es).Perm (ended kind es ++ t.keys)
  rows : ∀ p ∈ t.rows, p ∈ registrations kind es

namespace Table.Accounts

variable {t : Table TimerId V} {kind : TimerKind} {es : List (CallbackEvent V)}

theorem nodup_keys (H : t.Accounts kind es) (hnodup : (timerIds kind es).Nodup) :
    t.keys.Nodup :=
  (List.nodup_append.1 (H.balance.nodup_iff.1 hnodup)).2.1

/-- A timer is held that has been started and is not done. -/
theorem mem_keys (H : t.Accounts kind es) (hnodup : (timerIds kind es).Nodup) (timer : TimerId) :
    timer ∈ t.keys ↔ timer ∈ timerIds kind es ∧ timer ∉ ended kind es := by
  have hdisjoint := (List.nodup_append.1 (H.balance.nodup_iff.1 hnodup)).2.2
  rw [H.balance.mem_iff, List.mem_append]
  constructor
  · exact fun hkey => ⟨.inr hkey, fun hended => hdisjoint _ hended _ hkey rfl⟩
  · rintro ⟨hended | hkey, hnot⟩
    · exact absurd hended hnot
    · exact hkey

theorem mem_registrations (H : t.Accounts kind es) (hnodup : (timerIds kind es).Nodup)
    {timer : TimerId} {callback : V} (hget : t.get? timer = some callback) :
    (timer, callback) ∈ registrations kind es :=
  H.rows _ ((mem_rows_iff (H.nodup_keys hnodup)).2 hget)

/-- An event that neither starts a timer of the kind nor ends one. -/
theorem skip (H : t.Accounts kind es) {e : CallbackEvent V} (hreg : registrations kind [e] = [])
    (hended : ended kind [e] = []) : t.Accounts kind (es ++ [e]) where
  balance := by
    have hids : timerIds kind [e] = [] := congrArg (List.map Prod.fst) hreg
    rw [timerIds_append, ended_append, hids, hended, List.append_nil, List.append_nil]
    exact H.balance
  rows p hp := by
    rw [registrations_append]
    exact List.mem_append_left _ (H.rows p hp)

/-- A timer of the kind is started. -/
theorem start (H : t.Accounts kind es) {timer : TimerId} (hnew : timer ∉ timerIds kind es)
    (callback : V) :
    (t.insert timer callback).Accounts kind (es ++ [.registered kind timer callback]) := by
  have hkey : timer ∉ t.keys :=
    fun hkey => hnew (H.balance.mem_iff.2 (List.mem_append_right _ hkey))
  have hreg : registrations kind [.registered kind timer callback] = [(timer, callback)] := by
    simp [registrations]
  have hended : ended kind [CallbackEvent.registered kind timer callback] = [] := rfl
  constructor
  case balance =>
    have hids : timerIds kind [.registered kind timer callback] = [timer] :=
      congrArg (List.map Prod.fst) hreg
    rw [timerIds_append, ended_append, hids, hended, keys_insert, if_neg hkey, List.append_nil,
      ← List.append_assoc]
    exact H.balance.append_right _
  case rows =>
    rw [rows_insert_of_notMem hkey, registrations_append, hreg]
    intro p hp
    rcases List.mem_append.1 hp with hp | hp
    · exact List.mem_append_left _ (H.rows p hp)
    · exact List.mem_append_right _ hp

/-- A timer of the kind is done, and its callback is given up. -/
theorem finish (H : t.Accounts kind es) (hnodup : (timerIds kind es).Nodup) {timer : TimerId}
    {callback : V} (hget : t.get? timer = some callback) {e : CallbackEvent V}
    (hreg : registrations kind [e] = []) (hended : ended kind [e] = [timer]) :
    (t.erase timer).Accounts kind (es ++ [e]) := by
  have hperm := perm_erase (H.nodup_keys hnodup) hget
  constructor
  case balance =>
    have hids : timerIds kind [e] = [] := congrArg (List.map Prod.fst) hreg
    have hkeys : t.keys.Perm (timer :: (t.erase timer).keys) := hperm.map Prod.fst
    rw [timerIds_append, ended_append, hids, hended, List.append_nil, List.append_assoc]
    exact H.balance.trans (hkeys.append_left _)
  case rows =>
    intro p hp
    rw [registrations_append]
    exact List.mem_append_left _ (H.rows p (hperm.mem_iff.2 (List.mem_cons_of_mem _ hp)))

end Table.Accounts

/-- The names of timers: none is given twice, and none has been given from a number on. -/
structure TimersNamed (nextTimer : Nat) (es : List (CallbackEvent V)) : Prop where
  nodup : ∀ kind, (timerIds kind es).Nodup
  kinds : ∀ kind kind' timer, timer ∈ timerIds kind es → timer ∈ timerIds kind' es → kind = kind'
  lt_nextTimer : ∀ kind, ∀ timer ∈ timerIds kind es, timer.val < nextTimer

/-- The queued callbacks that a scheduler holds are those that have been queued and not been run. -/
structure Table.HoldsQueued (t : Table TickId V) (nextTickId : Nat) (es : List (CallbackEvent V)) :
    Prop where
  balance : (queued es).Perm (ran es ++ t.rows)
  nodup : ((queued es).map Prod.fst).Nodup
  lt_nextTickId : ∀ p ∈ queued es, p.1.val < nextTickId

/-- What a scheduler holds, given the events so far and the number of the next timer. -/
structure Scheduler.Accounts (s : Scheduler V) (nextTimer : Nat) (es : List (CallbackEvent V)) :
    Prop where
  timers : ∀ kind, (s.timers kind).Accounts kind es
  names : TimersNamed nextTimer es
  ticks : s.ticks.HoldsQueued s.nextTickId es
  cancelled : ∀ kind timer, Cancelled kind timer es → timer ∉ (s.timers kind).keys
  fired : ∀ es₁ kind timer callback es₂, es = es₁ ++ .fired kind timer callback :: es₂ →
    (timer, callback) ∈ registrations kind es₁ ∧ ∀ kind', ¬Cancelled kind' timer es₁

section Steps

variable {s s' : Scheduler V} {n n' : Nat} {es : List (CallbackEvent V)} {e : CallbackEvent V}

theorem TimersNamed.skip (H : TimersNamed n es) (hreg : ∀ kind, registrations kind [e] = []) :
    TimersNamed n (es ++ [e]) := by
  have hids (kind : TimerKind) : timerIds kind (es ++ [e]) = timerIds kind es := by
    rw [timerIds_append, timerIds, timerIds, hreg, List.map_nil, List.append_nil]
  refine ⟨fun kind => ?_, fun kind kind' => ?_, fun kind => ?_⟩
  · rw [hids]; exact H.nodup kind
  · rw [hids, hids]; exact H.kinds kind kind'
  · rw [hids]; exact H.lt_nextTimer kind

theorem mem_timerIds_registered {kind kind' : TimerKind} {timer timer' : TimerId} {callback : V} :
    timer ∈ timerIds kind [.registered kind' timer' callback] ↔ kind' = kind ∧ timer = timer' := by
  by_cases hkind : kind' = kind <;> simp [timerIds, registrations, hkind]

/-- The next timer gets a new name. -/
theorem TimersNamed.start (H : TimersNamed n es) (kind : TimerKind) (callback : V) :
    TimersNamed (n + 1) (es ++ [.registered kind ⟨n⟩ callback]) := by
  have hnew (kind' : TimerKind) : (⟨n⟩ : TimerId) ∉ timerIds kind' es :=
    fun hmem => Nat.lt_irrefl _ (H.lt_nextTimer kind' _ hmem)
  constructor
  case nodup =>
    intro kind'
    rw [timerIds_append]
    refine List.nodup_append.2 ⟨H.nodup kind', ?_, fun timer hmem timer' hmem' he => ?_⟩
    · rw [timerIds, registrations, List.filterMap_cons]
      by_cases hkind : kind = kind' <;> simp [hkind]
    · subst he
      rw [(mem_timerIds_registered.1 hmem').2] at hmem
      exact hnew kind' hmem
  case kinds =>
    intro kind₁ kind₂ timer h₁ h₂
    rw [timerIds_append, List.mem_append, mem_timerIds_registered] at h₁ h₂
    rcases h₁ with h₁ | ⟨rfl, rfl⟩ <;> rcases h₂ with h₂ | ⟨rfl, hn⟩
    · exact H.kinds kind₁ kind₂ timer h₁ h₂
    · exact absurd (hn ▸ h₁) (hnew _)
    · exact absurd h₂ (hnew _)
    · rfl
  case lt_nextTimer =>
    intro kind' timer hmem
    rw [timerIds_append, List.mem_append, mem_timerIds_registered] at hmem
    rcases hmem with hmem | ⟨-, rfl⟩
    · exact Nat.lt_succ_of_lt (H.lt_nextTimer kind' timer hmem)
    · exact Nat.lt_succ_self _

namespace Table.HoldsQueued

variable {t : Table TickId V} {m : Nat}

theorem skip (H : t.HoldsQueued m es) (hqueued : queued [e] = []) (hran : ran [e] = []) :
    t.HoldsQueued m (es ++ [e]) := by
  have hq : queued (es ++ [e]) = queued es := by rw [queued_append, hqueued, List.append_nil]
  have hr : ran (es ++ [e]) = ran es := by rw [ran_append, hran, List.append_nil]
  exact ⟨by rw [hq, hr]; exact H.balance, by rw [hq]; exact H.nodup,
    by rw [hq]; exact H.lt_nextTickId⟩

/-- A callback is queued under the next name. -/
theorem queue (H : t.HoldsQueued m es) (callback : V) :
    (t.insert ⟨m⟩ callback).HoldsQueued (m + 1) (es ++ [.queued ⟨m⟩ callback]) := by
  have hnew : (⟨m⟩ : TickId) ∉ (queued es).map Prod.fst := by
    intro hmem
    obtain ⟨p, hp, hid⟩ := List.mem_map.1 hmem
    have hlt := H.lt_nextTickId p hp
    rw [hid] at hlt
    exact Nat.lt_irrefl _ hlt
  have hkey : (⟨m⟩ : TickId) ∉ t.keys := by
    intro hkey
    obtain ⟨p, hp, hid⟩ := List.mem_map.1 hkey
    exact hnew (List.mem_map.2 ⟨p, H.balance.mem_iff.2 (List.mem_append_right _ hp), hid⟩)
  have hqueued : queued (es ++ [.queued ⟨m⟩ callback]) = queued es ++ [(⟨m⟩, callback)] :=
    queued_append ..
  have hran : ran (es ++ [.queued ⟨m⟩ callback]) = ran es := by
    rw [ran_append]
    exact List.append_nil _
  constructor
  case balance =>
    rw [hqueued, hran, rows_insert_of_notMem hkey, ← List.append_assoc]
    exact H.balance.append_right _
  case nodup =>
    rw [hqueued, List.map_append]
    refine List.nodup_append.2 ⟨H.nodup, List.nodup_singleton _, fun tick hmem tick' hmem' he => ?_⟩
    rw [he, List.mem_singleton.1 hmem'] at hmem
    exact hnew hmem
  case lt_nextTickId =>
    rw [hqueued]
    intro p hp
    rcases List.mem_append.1 hp with hp | hp
    · exact Nat.lt_succ_of_lt (H.lt_nextTickId p hp)
    · rw [List.mem_singleton.1 hp]
      exact Nat.lt_succ_self _

theorem nodup_keys (H : t.HoldsQueued m es) : t.keys.Nodup := by
  have hnodup := (H.balance.map Prod.fst).nodup_iff.1 H.nodup
  rw [List.map_append] at hnodup
  exact (List.nodup_append.1 hnodup).2.1

/-- A queued callback is run and given up. -/
theorem run (H : t.HoldsQueued m es) {tick : TickId} {callback : V}
    (hget : t.get? tick = some callback) :
    (t.erase tick).HoldsQueued m (es ++ [.ran tick callback]) := by
  have hqueued : queued (es ++ [.ran tick callback]) = queued es := by
    rw [queued_append]
    exact List.append_nil _
  have hran : ran (es ++ [.ran tick callback]) = ran es ++ [(tick, callback)] := ran_append ..
  refine ⟨?_, by rw [hqueued]; exact H.nodup, by rw [hqueued]; exact H.lt_nextTickId⟩
  rw [hqueued, hran, List.append_assoc]
  exact H.balance.trans ((perm_erase H.nodup_keys hget).append_left _)

end Table.HoldsQueued

namespace Scheduler.Accounts

/-- One more event. A timer that fires is one that is held, and one that is cancelled is not held
any more. -/
theorem concat (H : s.Accounts n es) (htimers : ∀ kind, (s'.timers kind).Accounts kind (es ++ [e]))
    (hnames : TimersNamed n' (es ++ [e])) (hticks : s'.ticks.HoldsQueued s'.nextTickId (es ++ [e]))
    (hkeys : ∀ kind timer, Cancelled kind timer es → timer ∉ (s'.timers kind).keys)
    (hcancelled : ∀ kind timer found, e = .cancelled kind timer found →
      timer ∉ (s'.timers kind).keys)
    (hfired : ∀ kind timer callback, e = .fired kind timer callback →
      (s.timers kind).get? timer = some callback) :
    s'.Accounts n' (es ++ [e]) where
  timers := htimers
  names := hnames
  ticks := hticks
  cancelled kind timer hc := by
    rcases hc.of_concat with hc | ⟨found, he, -⟩
    · exact hkeys kind timer hc
    · exact hcancelled kind timer found he
  fired es₁ kind timer callback es₂ hes := by
    rcases World.split_of_concat hes with ⟨rfl, he⟩ | ⟨es₃, hes, -⟩
    · have hget := hfired kind timer callback he
      have hreg := (H.timers kind).mem_registrations (H.names.nodup kind) hget
      refine ⟨hreg, fun kind' hc => ?_⟩
      have hid : timer ∈ timerIds kind es := List.mem_map.2 ⟨_, hreg, rfl⟩
      obtain rfl := H.names.kinds kind kind' timer hid hc.mem_timerIds
      exact H.cancelled kind timer hc (Table.mem_keys_of_get? hget)
    · exact H.fired es₁ kind timer callback es₃ hes

/-- An event of a timer by which the scheduler gives nothing up. -/
theorem same (H : s.Accounts n es) (hreg : ∀ kind, registrations kind [e] = [])
    (hended : ∀ kind, ended kind [e] = []) (hqueued : queued [e] = []) (hran : ran [e] = [])
    (hcancelled : ∀ kind timer found, e = .cancelled kind timer found →
      timer ∉ (s.timers kind).keys)
    (hfired : ∀ kind timer callback, e = .fired kind timer callback →
      (s.timers kind).get? timer = some callback) :
    s.Accounts n (es ++ [e]) :=
  H.concat (fun kind => (H.timers kind).skip (hreg kind) (hended kind)) (H.names.skip hreg)
    (H.ticks.skip hqueued hran) H.cancelled hcancelled hfired

/-- An event of a timer by which the scheduler gives its callback up. -/
theorem giveUp (H : s.Accounts n es) {kind : TimerKind} {timer : TimerId} {callback : V}
    (hget : (s.timers kind).get? timer = some callback) (hreg : ∀ kind, registrations kind [e] = [])
    (hended : ∀ kind', ended kind' [e] = if kind' = kind then [timer] else [])
    (hqueued : queued [e] = []) (hran : ran [e] = [])
    (hcancelled : ∀ kind' timer' found, e = .cancelled kind' timer' found →
      kind' = kind ∧ timer' = timer)
    (hfired : ∀ kind' timer' callback', e = .fired kind' timer' callback' →
      kind' = kind ∧ timer' = timer ∧ callback' = callback) :
    (s.withTimers kind ((s.timers kind).erase timer)).Accounts n (es ++ [e]) := by
  have hkey (kind' : TimerKind) (timer' : TimerId) :
      timer' ∈ ((s.withTimers kind ((s.timers kind).erase timer)).timers kind').keys →
        timer' ∈ (s.timers kind').keys ∧ ¬(kind' = kind ∧ timer' = timer) := by
    rw [Scheduler.timers_withTimers]
    split
    · next hkind =>
      subst hkind
      rw [Table.keys_erase, List.mem_filter]
      exact fun h => ⟨h.1, fun hboth => of_decide_eq_true h.2 hboth.2⟩
    · next hkind => exact fun h => ⟨h, fun hboth => hkind hboth.1⟩
  refine H.concat (fun kind' => ?_) (H.names.skip hreg) ?_ (fun kind' timer' hc hmem => ?_)
    (fun kind' timer' found he hmem => ?_) fun kind' timer' callback' he => ?_
  · rw [Scheduler.timers_withTimers]
    have hended' := hended kind'
    split
    · next hkind =>
      subst hkind
      rw [if_pos rfl] at hended'
      exact (H.timers kind').finish (H.names.nodup kind') hget (hreg kind') hended'
    · next hkind =>
      rw [if_neg hkind] at hended'
      exact (H.timers kind').skip (hreg kind') hended'
  · rw [Scheduler.ticks_withTimers, Scheduler.nextTickId_withTimers]
    exact H.ticks.skip hqueued hran
  · exact H.cancelled kind' timer' hc (hkey kind' timer' hmem).1
  · exact (hkey kind' timer' hmem).2 (hcancelled kind' timer' found he)
  · obtain ⟨rfl, rfl, rfl⟩ := hfired kind' timer' callback' he
    exact hget

/-- A timer is started. -/
theorem start (H : s.Accounts n es) (kind : TimerKind) (callback : V) :
    (s.withTimers kind ((s.timers kind).insert ⟨n⟩ callback)).Accounts (n + 1)
      (es ++ [.registered kind ⟨n⟩ callback]) := by
  have hnew (kind' : TimerKind) : (⟨n⟩ : TimerId) ∉ timerIds kind' es :=
    fun hmem => Nat.lt_irrefl _ (H.names.lt_nextTimer kind' _ hmem)
  refine H.concat (fun kind' => ?_) (H.names.start kind callback) ?_ (fun kind' timer hc => ?_)
    nofun nofun
  · rw [Scheduler.timers_withTimers]
    split
    · next hkind =>
      subst hkind
      exact (H.timers kind').start (hnew kind') callback
    · next hkind =>
      refine (H.timers kind').skip ?_ rfl
      simp [registrations, Ne.symm hkind]
  · rw [Scheduler.ticks_withTimers, Scheduler.nextTickId_withTimers]
    exact H.ticks.skip rfl rfl
  · have hold := H.cancelled kind' timer hc
    rw [Scheduler.timers_withTimers]
    split
    · next hkind =>
      subst hkind
      rw [Table.keys_insert]
      split
      · exact hold
      · intro hmem
        rcases List.mem_append.1 hmem with hmem | hmem
        · exact hold hmem
        · rw [List.mem_singleton.1 hmem] at hc
          exact hnew kind' hc.mem_timerIds
    · exact hold

theorem fresh : (Scheduler.empty : Scheduler V).Accounts n [] where
  timers kind := by
    have hkeys : ((Scheduler.empty : Scheduler V).timers kind) = .empty := by cases kind <;> rfl
    rw [hkeys]
    exact ⟨.refl _, nofun⟩
  names := ⟨fun _ => .nil, nofun, nofun⟩
  ticks := ⟨.refl _, .nil, nofun⟩
  cancelled := by
    rintro kind timer ⟨es₁, found, es₂, hes, -⟩
    exact absurd (congrArg List.length hes) (by simp)
  fired es₁ kind timer callback es₂ hes := absurd (congrArg List.length hes) (by simp)

theorem mono (H : s.Accounts n es) (hn : n ≤ n') : s.Accounts n' es :=
  { H with names := ⟨H.names.nodup, H.names.kinds, fun kind timer hmem =>
      Nat.lt_of_lt_of_le (H.names.lt_nextTimer kind timer hmem) hn⟩ }

end Scheduler.Accounts

end Steps

/-! ### Deeds -/

namespace Desk

variable {d : Desk V} {es : List (CallbackEvent V)}

/-- Taking the callback of a notification keeps the accounts, whichever notification it is. -/
theorem accounts_take (H : d.1.Accounts d.2.nextTimer es) (n : Notification) :
    (d.perform (.take n)).1.Accounts (d.perform (.take n)).2.nextTimer
      (es ++ (d.taken? n).toList) := by
  have hnext : (d.perform (.take n)).2.nextTimer = d.2.nextTimer := take_nextTimer ..
  rw [hnext]
  cases n with
  | timer id =>
    rw [perform, taken?, Scheduler.take]
    cases htimeout : d.1.timeouts.get? id with
    | some callback =>
      have hget : (d.1.timers .timeout).get? id = some callback := htimeout
      refine H.giveUp hget (fun _ => rfl) (fun kind => ?_) rfl rfl (by simp) ?_
      · cases kind <;> rfl
      · rintro _ _ _ ⟨⟩
        exact ⟨rfl, rfl, rfl⟩
    | none =>
      cases hinterval : d.1.intervals.get? id with
      | none => simpa using H
      | some callback =>
        refine H.same (fun _ => rfl) (fun _ => rfl) rfl rfl (by simp) ?_
        rintro _ _ _ ⟨⟩
        exact hinterval
  | posted tick =>
    rw [perform, taken?, Scheduler.take]
    cases hget : d.1.ticks.get? tick with
    | some callback =>
      refine H.concat (fun kind => ?_) (H.names.skip fun _ => rfl) (H.ticks.run hget)
        (fun kind => ?_) (by simp) (by simp)
      · have hskip := (H.timers kind).skip (e := .ran tick callback) rfl rfl
        cases kind <;> exact hskip
      · have hcancelled := H.cancelled kind
        cases kind <;> exact hcancelled
    | none =>
      have herase : d.1.ticks.erase tick = d.1.ticks :=
        Table.erase_of_notMem (Table.get?_eq_none_iff.1 hget)
      simpa [herase] using H

/-- Every deed keeps the accounts. -/
theorem accounts_perform (H : d.1.Accounts d.2.nextTimer es) (a : Deed V) :
    (d.perform a).1.Accounts (d.perform a).2.nextTimer (es ++ (d.event? a).toList) := by
  cases a with
  | hand now =>
    rw [event?, perform]
    cases hout : d.handOut now with
    | none => simpa using H
    | some p =>
      obtain ⟨n, d₁⟩ := p
      obtain ⟨hscheduler, hnext⟩ := handOut_keeps hout
      exact accounts_take (d := d₁) (hscheduler ▸ hnext ▸ H) n
  | take n => exact accounts_take H n
  | set kind callback delay =>
    rw [event?, perform]
    rcases d.1.setTimer_cases d.2 kind callback delay with hrefused | hstarted
    · rw [hrefused]
      simpa using H
    · rw [hstarted]
      exact H.start kind callback
  | clear kind id =>
    rw [event?, perform, clearTimer_nextTimer, Scheduler.clearTimer]
    split
    · next hfound =>
      obtain ⟨callback, hget⟩ := Option.isSome_iff_exists.1 ((Table.isSome_get? ..).trans hfound)
      refine H.giveUp hget (fun _ => rfl) (fun kind' => ?_) rfl rfl ?_ (by simp)
      · rw [hfound]
        cases kind <;> cases kind' <;> rfl
      · rintro _ _ _ ⟨⟩
        exact ⟨rfl, rfl⟩
    · next hfound =>
      refine H.same (fun _ => rfl) (fun kind' => ?_) rfl rfl ?_ (by simp)
      · rw [Bool.eq_false_iff.2 hfound]
        rfl
      · rintro _ _ _ ⟨⟩
        exact fun hkey => hfound (Table.contains_iff_mem_keys.2 hkey)
  | tick callback =>
    refine H.concat (fun kind => ?_) (H.names.skip fun _ => rfl) (H.ticks.queue callback)
      (fun kind => ?_) (by simp) (by simp)
    · have hskip := (H.timers kind).skip (e := .queued ⟨d.1.nextTickId⟩ callback) rfl rfl
      cases kind <;> exact hskip
    · have hcancelled := H.cancelled kind
      cases kind <;> exact hcancelled

end Desk

end ScriptHost
