import ScriptHost.Proofs.Host.Operations
import ScriptHost.Script.Engine

/-!
# Microtasks of the form engine

The form engine keeps the functions that are queued as microtasks in a list for each engine. A step
of a script puts at most one at the end of its own engine's list; the script that runs the
microtasks takes them from the front. That script is known by what it has to do at last: to go on
with the next microtask.

## Main definitions

* `Script.State.Queues`: a state after one in which microtasks may have been queued.
* `Script.Running.Runner`: the scripts that run microtasks.
* `Script.microtasks`: the microtasks of the form engine.

## Main results

* `Script.Running.step_grows`: what a step does that neither runs a microtask nor ends one.
* `Script.microtasks_lawful`: the form engine keeps its microtasks in a queue.
-/

namespace ScriptHost.Script

namespace State

variable {seat seat' : Seat} {s s' s'' : State}

/-- How often microtasks have been run for an engine, if there is one. -/
def drains? (s : State) (seat : Seat) : Option Nat := (s.locals[seat]?).map Local.drains

/-- In the second state more microtasks may wait for an engine, and that is all that has happened to
the microtasks. -/
structure Queues (seat : Seat) (s s' : State) : Prop where
  drains : ∀ seat', s'.drains? seat' = s.drains? seat'
  others : ∀ seat', seat' ≠ seat → (s'.local_ seat').microtasks = (s.local_ seat').microtasks
  own : (s.local_ seat).microtasks <+: (s'.local_ seat).microtasks

theorem Queues.of_locals (h : s'.locals = s.locals) : s.Queues seat s' := by
  refine ⟨fun seat' => ?_, fun seat' _ => ?_, ?_⟩
  · rw [drains?, drains?, h]
  · rw [local_, local_, h]
  · exact ⟨[], by rw [local_, local_, h, List.append_nil]⟩

theorem Queues.refl (s : State) : s.Queues seat s := .of_locals rfl

theorem local_modify_of_ne (h : seat' ≠ seat) (f : Local → Local) :
    (s.modify seat f).local_ seat' = s.local_ seat' := by
  simp [local_, modify, Ne.symm h]

theorem drains?_modify {f : Local → Local} (hf : ∀ l, (f l).drains = l.drains) (seat' : Seat) :
    (s.modify seat f).drains? seat' = s.drains? seat' := by
  rw [drains?, drains?, modify, List.getElem?_modify]
  cases s.locals[seat']? with
  | none => rfl
  | some l =>
    by_cases h : seat = seat'
    · simp [h, hf]
    · simp [h]

theorem local_modify (hs : seat < s.locals.length) (f : Local → Local) :
    (s.modify seat f).local_ seat = f (s.local_ seat) := by
  simp [local_, modify, hs]

/-- An engine that is not there has no microtasks, and cannot be changed. -/
theorem modify_of_length_le (hs : s.locals.length ≤ seat) (f : Local → Local) :
    s.modify seat f = s := by
  rw [modify, List.modify_eq_self hs]

/-- A change of what belongs to an engine that takes no microtask away. -/
theorem queues_modify {f : Local → Local} (hdrains : ∀ l, (f l).drains = l.drains)
    (hmicrotasks : ∀ l, l.microtasks <+: (f l).microtasks) : s.Queues seat (s.modify seat f) := by
  refine ⟨drains?_modify hdrains, fun seat' hne => ?_, ?_⟩
  · rw [local_modify_of_ne hne]
  · rcases Nat.lt_or_ge seat s.locals.length with hs | hs
    · rw [local_modify hs]
      exact hmicrotasks _
    · exact ⟨[], by rw [modify_of_length_le hs, List.append_nil]⟩

theorem getProperty_locals (s : State) (seat : Seat) (v : Value) (name : String) :
    (s.getProperty seat v name).2.locals = s.locals := by
  unfold getProperty
  split
  · rfl
  · split
    · rfl
    · split <;> rfl

theorem change_locals (s : State) (v : Value) (f : Object → Object) :
    (s.change v f).locals = s.locals := by
  unfold change
  split <;> rfl

theorem setProperty_locals (s : State) (seat : Seat) (v : Value) (name : String) (w : Value) :
    (s.setProperty seat v name w).2.locals = s.locals := by
  unfold setProperty
  split
  · rfl
  · split
    · rfl
    · exact change_locals ..

end State

namespace Running

variable {seat : Seat} {r : Running} {s s' : State}

theorem follow_locals (s : State) (seat : Seat) (v : Value) (names : List String) :
    (follow s seat v names).2.locals = s.locals := by
  induction names generalizing s v with
  | nil => rfl
  | cons name names ih =>
    have hget := s.getProperty_locals seat v name
    rw [follow]
    revert hget
    rcases s.getProperty seat v name with ⟨_ | w, s'⟩
    · exact id
    · exact fun hget => (ih s' w).trans hget

/-- A step queues microtasks at most, and then the script goes on, itself or after a native call,
with all that it had to do. -/
def Grows (seat : Seat) (r : Running) (s : State) (p : Step) : Prop :=
  s.Queues seat p.2 ∧ ∃ r', r.pending <:+ r'.pending ∧
    (p.1 = .running r' ∨ ∃ f this args, p.1 = .native f this args r')

theorem grows_running {r' : Running} (hr : r.pending <:+ r'.pending) (hs : s.Queues seat s') :
    r.Grows seat s (.running r', s') :=
  ⟨hs, r', hr, .inl rfl⟩

theorem grows_next (hs : s.Queues seat s') (control : Control) :
    r.Grows seat s (r.next s' control) :=
  grows_running List.suffix_rfl hs

theorem operands_suffix (r : Running) (op : Operation) (before : List Value) (rest : List Json) :
    r.pending <:+ (r.operands op before rest).pending := by
  cases rest with
  | nil => exact List.suffix_rfl
  | cons e rest => exact List.suffix_cons ..

theorem sequence_suffix (r : Running) (body : List Json) :
    r.pending <:+ (r.sequence body).pending :=
  operands_suffix r .last [] body

theorem grows_settle {p : Except Value Value × State} (hs : s.Queues seat p.2) :
    r.Grows seat s (r.settle p) := by
  rcases p with ⟨_ | v, s'⟩ <;> exact grows_next hs _

theorem load_grows (specifier : Value) (names : List String) :
    r.Grows seat s (r.load s seat specifier names) := by
  rw [load]
  dsimp only
  have hfollow := follow_locals s seat (loader r.frame (s.local_ seat).global specifier).1
    ((loader r.frame (s.local_ seat).global specifier).2.1 ++ names)
  revert hfollow
  rcases follow s seat _ _ with ⟨_ | f, s'⟩ <;>
    exact fun hfollow => grows_next (.of_locals hfollow) _

theorem apply_grows (op : Operation) (vs : List Value) : r.Grows seat s (r.apply s seat op vs) := by
  unfold apply
  -- most operations leave the state alone
  split <;> try exact grows_next (.refl s) _
  case h_2 =>
    refine grows_next ?_ _
    exact .of_locals rfl
  case h_3 =>
    dsimp only
    refine grows_next ?_ _
    exact .of_locals (State.change_locals ..)
  case h_4 x v =>
    refine grows_next (State.queues_modify ?_ ?_) _ <;> intro l
    · rfl
    · exact List.prefix_rfl
  case h_5 => exact grows_settle (.of_locals (State.getProperty_locals ..))
  case h_6 => exact grows_settle (.of_locals (State.setProperty_locals ..))
  case h_7 => exact grows_next (.of_locals (State.change_locals ..)) _
  case h_8 => split <;> exact grows_next (.refl s) _
  case h_9 x args o =>
    have hget := s.getProperty_locals seat o x
    revert hget
    rcases s.getProperty seat o x with ⟨_ | f, s'⟩
    · exact fun hget => grows_next (.of_locals hget) _
    · exact fun hget => grows_running (operands_suffix ..) (.of_locals hget)
  case h_11 | h_12 => exact load_grows ..
  case h_20 =>
    refine grows_next (State.queues_modify ?_ ?_) _ <;> intro l
    · rfl
    · exact List.prefix_append ..

theorem evaluate_grows (f : Form) : r.Grows seat s (r.evaluate s seat f) := by
  cases f with
  | log es =>
    cases es with
    | nil => exact grows_next (.refl s) _
    | cons e es => exact grows_running (List.suffix_cons ..) (.refl s)
  | handle body handler =>
    have hbody := (r.push (.handler handler) r.control).sequence_suffix body
    exact grows_running ((List.suffix_cons ..).trans hbody) (.refl s)
  | operation op operands => exact grows_running (operands_suffix ..) (.refl s)
  | function body =>
    have H : s.Queues seat (s.newOf (.function body r.frame.scope)).2 := .of_locals rfl
    exact grows_next H _
  | error kind message =>
    have H : s.Queues seat (s.newError [] kind message).2 := .of_locals rfl
    exact grows_next H _
  | _ => exact grows_next (.refl s) _

theorem invoke_grows (f this : Value) (args : List Value) :
    r.Grows seat s (r.invoke s seat f this args) := by
  rw [invoke]
  split
  · exact ⟨.refl s, r, List.suffix_rfl, .inr ⟨_, _, _, rfl⟩⟩
  · next body scope _ =>
    have hbody :=
      sequence_suffix ⟨r.control, ⟨this, args, scope⟩, .caller r.frame :: r.pending⟩ body
    exact grows_running ((List.suffix_cons ..).trans hbody) (.refl s)
  · have H : s.Queues seat (refuse s seat).2 := .of_locals rfl
    exact grows_next H _

/-- The log of an engine is not among its microtasks. -/
theorem queues_log (entry : Json) : s.Queues seat (log s seat entry) :=
  State.queues_modify (fun _ => rfl) fun _ => List.prefix_rfl

theorem takeValue_grows (v : Value) {p : Pending} (hp : p ≠ .microtask) :
    r.Grows seat s (r.takeValue s seat v p) := by
  cases p with
  | operand op before rest => exact grows_running (operands_suffix ..) (.refl s)
  | log rest =>
    cases rest with
    | nil => exact grows_next (queues_log _) _
    | cons e rest => exact grows_running (List.suffix_cons ..) (queues_log _)
  | handler body => exact grows_next (.refl s) _
  | caller frame => exact grows_running List.suffix_rfl (.refl s)
  | microtask => exact absurd rfl hp

theorem takeThrow_grows (v : Value) {p : Pending} (hp : p ≠ .microtask) :
    r.Grows seat s (r.takeThrow s seat v p) := by
  cases p with
  | operand op before rest => exact grows_next (.refl s) _
  | log rest => exact grows_next (.refl s) _
  | handler body =>
    exact grows_running (operands_suffix ..)
      (State.queues_modify (fun _ => rfl) fun _ => List.prefix_rfl)
  | caller frame => exact grows_running List.suffix_rfl (.refl s)
  | microtask => exact absurd rfl hp

/-! ### Scripts that run microtasks -/

/-- A script that runs microtasks: it is about to run the next one, or will be once it has done all
else that it has to do. -/
def Runner (r : Running) : Prop :=
  (r.pending = [] ∧ r.control = .microtasks) ∨ r.pending.getLast? = some .microtask

/-- Where a step of a script leads. -/
inductive Advances (seat : Seat) (r : Running) (s : State) : Step → Prop
  /-- The script goes on, perhaps with one thing less to do. -/
  | grows {r₀ : Running} {p : Step} (hc : r.control ≠ .microtasks)
      (hr : r₀ = r ∨ ∃ q, r.pending = q :: r₀.pending ∧ q ≠ .microtask)
      (H : r₀.Grows seat s p) : Advances seat r s p
  /-- It has nothing more to do. -/
  | ends {v : Value} {p : Step} (hc : r.control ≠ .microtasks) (hp : r.pending = [])
      (H : p = (.returned v, s) ∨ p = (.threw v, s)) : Advances seat r s p
  /-- A microtask is over. -/
  | settles {pending : List Pending} {s' : State} (hp : r.pending = .microtask :: pending)
      (H : s.Queues seat s') :
      Advances seat r s (.running { r with pending, control := .microtasks }, s')
  /-- No microtask waits. -/
  | empties (hc : r.control = .microtasks) (hq : (s.local_ seat).microtasks = []) :
      Advances seat r s (.returned .undefined, s)
  /-- A microtask is taken from those that wait, and called. -/
  | starts {f : Value} {rest : List Value} (hc : r.control = .microtasks)
      (hq : (s.local_ seat).microtasks = f :: rest) :
      Advances seat r s (.running (r.push .microtask (.call f .undefined [])),
        s.modify seat fun l => { l with microtasks := rest })

theorem advances_value {v : Value} (hc : r.control = .value v) :
    r.Advances seat s (r.step s seat) := by
  have hne : r.control ≠ .microtasks := by rw [hc]; rintro ⟨⟩
  rw [step, hc]
  cases hp : r.pending with
  | nil => exact .ends hne hp (.inl rfl)
  | cons p pending =>
    by_cases hmicrotask : p = .microtask
    · subst hmicrotask
      exact .settles hp (.refl s)
    · exact .grows hne (.inr ⟨p, hp, hmicrotask⟩)
        (takeValue_grows (r := { r with pending }) v hmicrotask)

theorem advances_throw {v : Value} (hc : r.control = .throw v) :
    r.Advances seat s (r.step s seat) := by
  have hne : r.control ≠ .microtasks := by rw [hc]; rintro ⟨⟩
  rw [step, hc]
  cases hp : r.pending with
  | nil => exact .ends hne hp (.inr rfl)
  | cons p pending =>
    by_cases hmicrotask : p = .microtask
    · subst hmicrotask
      exact .settles hp (queues_log _)
    · exact .grows hne (.inr ⟨p, hp, hmicrotask⟩)
        (takeThrow_grows (r := { r with pending }) v hmicrotask)

/-- Every step of a script leads where it is said to. -/
theorem step_advances (seat : Seat) (r : Running) (s : State) :
    r.Advances seat s (r.step s seat) := by
  have hgrows {p : Step} (hc : r.control ≠ .microtasks) (H : r.Grows seat s p) :
      r.Advances seat s p := .grows hc (.inl rfl) H
  cases hc : r.control with
  | expression e =>
    rw [step, hc]
    exact hgrows (by rw [hc]; rintro ⟨⟩) (evaluate_grows _)
  | apply op vs =>
    rw [step, hc]
    exact hgrows (by rw [hc]; rintro ⟨⟩) (apply_grows op vs)
  | path v names =>
    rw [step, hc]
    exact hgrows (by rw [hc]; rintro ⟨⟩) (grows_settle (.of_locals (follow_locals s seat v names)))
  | call f this args =>
    rw [step, hc]
    exact hgrows (by rw [hc]; rintro ⟨⟩) (invoke_grows f this args)
  | value v => exact advances_value hc
  | throw v => exact advances_throw hc
  | microtasks =>
    rw [step, hc]
    cases hq : (s.local_ seat).microtasks with
    | nil => exact .empties hc hq
    | cons f rest => exact .starts hc hq

/-- A step that does not start a microtask queues some at most. -/
theorem Advances.queues {p : Step} (H : r.Advances seat s p)
    (hq : r.control = .microtasks → (s.local_ seat).microtasks = []) : s.Queues seat p.2 := by
  cases H with
  | grows hc hr H => exact H.1
  | ends hc hp H => obtain rfl | rfl := H <;> exact .refl s
  | settles hp H => exact H
  | empties => exact .refl s
  | starts hc hq' => exact nomatch (hq hc).symm.trans hq'

theorem getLast?_of_suffix {α : Type} {l l' : List α} {a : α} (h : l <:+ l')
    (hl : l.getLast? = some a) : l'.getLast? = some a := by
  obtain ⟨above, rfl⟩ := h
  rw [List.getLast?_append_of_ne_nil _ (by rintro rfl; cases hl), hl]

/-- A script that runs microtasks still has to go on with the next one after a step in which it goes
on. -/
theorem Grows.getLast? {r₀ : Running} {p : Step} (H : r₀.Grows seat s p) (hrunner : r.Runner)
    (hc : r.control ≠ .microtasks)
    (hr : r₀ = r ∨ ∃ q, r.pending = q :: r₀.pending ∧ q ≠ .microtask) :
    ∃ r', r'.pending.getLast? = some .microtask ∧
      (p.1 = .running r' ∨ ∃ f this args, p.1 = .native f this args r') := by
  have hlast : r.pending.getLast? = some .microtask := hrunner.resolve_left fun h => hc h.2
  obtain ⟨-, r', hsuffix, hp⟩ := H
  refine ⟨r', getLast?_of_suffix hsuffix ?_, hp⟩
  obtain rfl | ⟨q, hq, hne⟩ := hr
  · exact hlast
  · rw [hq] at hlast
    cases hpending : r₀.pending with
    | nil =>
      rw [hpending] at hlast
      exact absurd (Option.some.inj hlast) hne
    | cons q' pending => rwa [hpending, List.getLast?_cons_cons] at hlast

theorem Advances.runner {p : Step} (H : r.Advances seat s p) (hrunner : r.Runner) {r' : Running}
    (hp : p.1 = .running r') : r'.Runner := by
  cases H with
  | grows hc hr H =>
    obtain ⟨r₁, hlast, hp' | ⟨f, this, args, hp'⟩⟩ := H.getLast? hrunner hc hr
    · cases hp'.symm.trans hp
      exact .inr hlast
    · cases hp'.symm.trans hp
  | ends hc hpending H => obtain rfl | rfl := H <;> cases hp
  | @settles pending s' hpending H =>
    cases hp
    cases pending with
    | nil => exact .inl ⟨rfl, rfl⟩
    | cons q pending =>
      have hlast := hrunner.resolve_left fun h => nomatch hpending.symm.trans h.1
      rw [hpending, List.getLast?_cons_cons] at hlast
      exact .inr hlast
  | empties => cases hp
  | starts hc hq =>
    cases hp
    refine .inr ?_
    obtain ⟨hpending, -⟩ | hlast := hrunner
    · simp only [push, hpending]
      rfl
    · exact getLast?_of_suffix (List.suffix_cons ..) hlast

theorem Advances.native {p : Step} (H : r.Advances seat s p) (hrunner : r.Runner) {f : Native}
    {this : Value} {args : List Value} {r' : Running} (hp : p.1 = .native f this args r') :
    r'.pending.getLast? = some .microtask := by
  cases H with
  | grows hc hr H =>
    obtain ⟨r₁, hlast, hp' | ⟨_, _, _, hp'⟩⟩ := H.getLast? hrunner hc hr <;>
      cases hp'.symm.trans hp
    exact hlast
  | ends hc hpending H => obtain rfl | rfl := H <;> cases hp
  | _ => cases hp

/-- A script that runs microtasks ends only when none waits. -/
theorem Advances.empty {p : Step} (H : r.Advances seat s p) (hrunner : r.Runner) {v : Value}
    (hp : p = (.returned v, s') ∨ p = (.threw v, s')) : (s'.local_ seat).microtasks = [] := by
  cases H with
  | grows hc hr H =>
    obtain ⟨-, r', -, hp' | ⟨f, this, args, hp'⟩⟩ := H <;> obtain rfl | rfl := hp <;> cases hp'
  | ends hc hpending H =>
    obtain ⟨-, hc'⟩ | hlast := hrunner
    · exact absurd hc' hc
    · rw [hpending] at hlast
      cases hlast
  | settles | starts => obtain hp | hp := hp <;> cases hp
  | empties hc hq =>
    obtain hp | hp := hp <;> cases hp
    exact hq

/-- A step queues microtasks at most, or takes one from those that wait. -/
theorem Advances.queues_or {p : Step} (H : r.Advances seat s p) : s.Queues seat p.2 ∨
    ∃ f rest, (s.local_ seat).microtasks = f :: rest ∧
      p.2 = s.modify seat fun l => { l with microtasks := rest } := by
  cases H with
  | grows hc hr H => exact .inl H.1
  | ends hc hp H => obtain rfl | rfl := H <;> exact .inl (.refl s)
  | settles hp H => exact .inl H
  | empties => exact .inl (.refl s)
  | starts hc hq => exact .inr ⟨_, _, hq, rfl⟩

theorem Advances.drains {p : Step} (H : r.Advances seat s p) (seat' : Seat) :
    p.2.drains? seat' = s.drains? seat' := by
  rcases H.queues_or with H | ⟨f, rest, -, hs⟩
  · exact H.drains seat'
  · rw [hs, State.drains?_modify]
    exact fun _ => rfl

theorem Advances.others {p : Step} (H : r.Advances seat s p) {seat' : Seat} (hne : seat' ≠ seat) :
    (p.2.local_ seat').microtasks = (s.local_ seat').microtasks := by
  rcases H.queues_or with H | ⟨f, rest, -, hs⟩
  · exact H.others seat' hne
  · rw [hs, State.local_modify_of_ne hne]

end Running

/-! ### The engine -/

/-- The microtasks of the form engine. -/
def microtasks : engine.Microtasks where
  drains seat s := s.drains? seat
  waiting seat s := (s.local_ seat).microtasks
  starts? seat r s :=
    match r.control with
    | .microtasks => (s.local_ seat).microtasks.head?
    | _ => none
  Runner := Running.Runner

theorem same_of_locals {s s' : State} (h : s'.locals = s.locals) : microtasks.Same s s' := by
  intro seat
  simp only [microtasks, State.drains?, State.local_, h, and_self]

theorem starts?_eq_some {seat : Seat} {r : Running} {s : State} {v : Value}
    (h : microtasks.starts? seat r s = some v) :
    r.control = .microtasks ∧ (s.local_ seat).microtasks.head? = some v := by
  rw [microtasks] at h
  dsimp only at h
  split at h
  · next hc => exact ⟨hc, h⟩
  · cases h

theorem starts?_eq_none {seat : Seat} {r : Running} {s : State}
    (h : microtasks.starts? seat r s = none) (hc : r.control = .microtasks) :
    (s.local_ seat).microtasks = [] := by
  rw [microtasks] at h
  simpa only [hc, List.head?_eq_none_iff] using h

/-- An engine with microtasks is there. -/
theorem State.lt_of_microtasks {seat : Seat} {s : State} {f : Value} {rest : List Value}
    (h : (s.local_ seat).microtasks = f :: rest) : seat < s.locals.length := by
  by_contra hge
  rw [local_, List.getElem?_eq_none (Nat.le_of_not_lt hge)] at h
  cases h

theorem operatesWithin : engine.OperatesWithin microtasks.Same where
  newObject _ _ := same_of_locals rfl
  newArray _ _ _ := same_of_locals rfl
  newFunction _ _ _ _ _ := same_of_locals rfl
  newError _ _ _ _ := same_of_locals rfl
  getProperty seat v name s := same_of_locals (s.getProperty_locals seat v name)
  setProperty seat v name w s := same_of_locals (s.setProperty_locals seat v name w)
  call seat f this args s := same_of_locals (by
    simp only [callee]
    split <;> rfl)
  evaluate seat m s := same_of_locals (by
    simp only [evaluation]
    split <;> rfl)

theorem marks : engine.Marks Running.Runner where
  begun _ _ := .inl ⟨rfl, rfl⟩
  running := fun {seat r s _ _} hrunner hs =>
    (Running.step_advances seat r s).runner hrunner (congrArg Prod.fst hs)
  native := by
    intro seat r s f this args rest s' hrunner hs x
    have hlast := (Running.step_advances seat r s).native hrunner (congrArg Prod.fst hs)
    exact .inr hlast

/-- A microtask that is started waits no longer. -/
theorem step_started {seat : Seat} {r : Running} {s : State} {v : Value}
    (hc : r.control = .microtasks) (hv : (s.local_ seat).microtasks.head? = some v) :
    (s.local_ seat).microtasks = v :: ((r.step s seat).2.local_ seat).microtasks := by
  obtain ⟨rest, hq⟩ := List.head?_eq_some_iff.1 hv
  have hstep : (r.step s seat).2 = s.modify seat fun l => { l with microtasks := rest } := by
    rw [Running.step, hc]
    simp only [hq]
  rw [hq, hstep, State.local_modify (State.lt_of_microtasks hq)]

/-- The running of microtasks is counted for its own engine. -/
theorem drains?_run (seat : Seat) (s : State) :
    (engine.microtasks seat s).2.drains? seat = (s.drains? seat).map (· + 1) := by
  simp [State.drains?, State.modify, Function.comp_def]

theorem drains?_run_of_ne {seat seat' : Seat} (hne : seat' ≠ seat) (s : State) :
    (engine.microtasks seat s).2.drains? seat' = s.drains? seat' := by
  simp [State.drains?, State.modify, Ne.symm hne]

theorem microtasks_run (seat seat' : Seat) (s : State) :
    ((engine.microtasks seat s).2.local_ seat').microtasks = (s.local_ seat').microtasks := by
  simp only [State.local_, State.modify, List.getElem?_modify]
  cases s.locals[seat']? with
  | none => rfl
  | some l => by_cases h : seat = seat' <;> simp [h]

/-- The form engine keeps its microtasks in a queue. -/
theorem microtasks_lawful : microtasks.Lawful where
  operates := operatesWithin
  step_drains seat seat' r s := (Running.step_advances seat r s).drains seat'
  step_others seat seat' r s hne := (Running.step_advances seat r s).others hne
  step_starts seat r s v hv := by
    obtain ⟨hc, hhead⟩ := starts?_eq_some hv
    exact step_started hc hhead
  step_queues seat r s hv :=
    ((Running.step_advances seat r s).queues (starts?_eq_none hv)).own
  run_drains seat s := drains?_run seat s
  run_others seat seat' s hne := drains?_run_of_ne hne s
  run_waiting seat seat' s := microtasks_run seat seat' s
  marks := marks
  returned seat r s v s' hrunner hs := (Running.step_advances seat r s).empty hrunner (.inl hs)
  threw seat r s v s' hrunner hs := (Running.step_advances seat r s).empty hrunner (.inr hs)

end ScriptHost.Script
