import ScriptHost.Proofs.Host.Moments
import ScriptHost.Proofs.Module.History

/-!
# Questions

A module that begins to be evaluated is the answer to a question, which the embedder or a script has
asked of the runtime in that very move. The resolver of the runtime has given the answer, on the
platform as it was.

## Main definitions

* `World.question?`: the question that a move asks with the function that loads modules.

## Main results

* `World.began_answered`: a module that begins to be evaluated has been answered with.
-/

namespace ScriptHost

variable {E : Engine}

/-- The question that calling a native function asks, with the runtime that is asked. -/
def Native.question? (f : Native) (args : List E.Value) (seat : Seat) (h : Host E) :
    Option (RuntimeId × Question) :=
  match f, ModuleFunction.question "require" args, h.attached seat with
  | .module .require, .ok q, some owner => some (owner, q)
  | _, _, _ => none

/-- The question that calling a native function asks, with the runtime that is asked. -/
def Invocation.question? (v : Invocation E) : Option (RuntimeId × Question) :=
  v.native.question? v.args v.job.seat v.host

/-- The question that a move asks with the function that loads modules, from the top level or by a
script, with the runtime that is asked. -/
def World.question? (w : World E) : Move E → Option (RuntimeId × Question)
  | .start (.require _ owner q _) => some (owner, q)
  | m => (w.invocation? m).bind Invocation.question?

/-- A module that begins to be evaluated is what a resolver has answered a question with. -/
structure Host.Answered (h : Host E) (l : Loading E.Value) (q : Question) (m : ResolvedModule) :
    Prop where
  answer : ∃ s questions, h.status? l.owner = some s ∧
    s.resolver.answer h.platform questions q = .ok m
  id : l.id = m.id
  filename : l.filename = m.filename

open Host

theorem Loading.event?_began {owner : RuntimeId} {q : Question} {seat : Seat} {h : Host E}
    {l : Loading E.Value} (he : Loading.event? owner q seat h = some (.began l)) :
    l.owner = owner ∧ ∃ m, h.Answered l q m := by
  rw [event?] at he
  split at he
  · next m h' hf =>
    obtain ⟨r, hr, hasks, hcached, hloading⟩ := find_resolved hf
    rw [require_result_of_new hr hasks hcached hloading] at he
    have hyields := objects_yields owner m r.requireFunction seat h.engines
    rcases hobjects : objects owner m r.requireFunction seat h.engines with ⟨e | p, s⟩ <;>
      rw [hobjects] at he
    · cases he
    · obtain rfl : p.1 = l := ModuleEvent.began.inj (Option.some.inj he)
      have hl := hyields p s hobjects
      have hstatus : h.status? p.1.owner = some r.status := hl ▸ status?_of_get? hr
      exact ⟨hl ▸ rfl, m, ⟨r.status, r.questions, hstatus, hasks.answer⟩, hl ▸ rfl, hl ▸ rfl⟩
  · cases he

/-- What the resolver answers with begins to be evaluated if it is new and its objects can be made. -/
theorem Loading.exists_began {owner : RuntimeId} {q : Question} {seat : Seat} {h : Host E}
    {r : Runtime E} {m : ResolvedModule} (hr : h.runtimes.get? owner = some r)
    (hq : r.Asks h.platform q m) (hcached : r.modules.cached.get? m.id = none)
    (hloading : r.modules.loading.get? m.id = none)
    (hobjects : (objects owner m r.requireFunction seat h.engines).1.isOk = true) :
    ∃ l, event? owner q seat h = some (.began l) ∧ l.owner = owner := by
  have hfind := find_of_asks hr hq seat
  rw [hcached, hloading] at hfind
  have hrequire := require_result_of_new hr hq hcached hloading seat
  have hyields := objects_yields owner m r.requireFunction seat h.engines
  rcases hmade : objects owner m r.requireFunction seat h.engines with ⟨e | ⟨l, scope⟩, s⟩ <;>
    rw [hmade] at hobjects hrequire
  · cases hobjects
  · refine ⟨l, ?_, congrArg Loading.owner (hyields _ s hmade)⟩
    rw [event?, hfind, hrequire]
    rfl

theorem Native.moduleEvent?_began {f : Native} {args : List E.Value} {seat : Seat} {h : Host E}
    {l : Loading E.Value} (he : f.moduleEvent? args seat h = some (.began l)) :
    ∃ q m, f.question? args seat h = some (l.owner, q) ∧ h.Answered l q m := by
  unfold moduleEvent? at he
  split at he
  · next q owner hq hattached =>
    obtain ⟨rfl, m, hm⟩ := Loading.event?_began he
    refine ⟨q, m, ?_, hm⟩
    simp only [question?, hq, hattached]
  · cases he

/-- In the step of a job, a module begins to be evaluated by a native function only. -/
theorem Job.moduleEvent?_began {h : Host E} {j : Job E} {l : Loading E.Value}
    (he : j.moduleEvent? h = some (.began l)) : ∃ v, j.invocation? h = some v ∧
      v.native.moduleEvent? v.args v.job.seat v.host = some (.began l) := by
  unfold moduleEvent? at he
  split at he
  · cases he
  · split at he
    · obtain ⟨_, -, he⟩ := Option.map_eq_some_iff.1 he
      cases he
    · cases he
  · exact Option.bind_eq_some_iff.1 he

/-- What a native function that a move calls has been answered with holds for the host before the
move. -/
theorem World.answered_of_invocation? {w : World E} {m : Move E} {v : Invocation E}
    {l : Loading E.Value} {q : Question} {m' : ResolvedModule} (hv : w.invocation? m = some v)
    (ha : v.host.Answered l q m') : w.host.Answered l q m' := by
  obtain ⟨⟨s, questions, hs, hanswer⟩, hid, hfilename⟩ := ha
  have hplatform : v.host.platform = w.host.platform := platform_of_invocation? hv
  rw [(sameStatuses_of_invocation? hv).status?_eq] at hs
  exact ⟨⟨s, questions, hs, hplatform ▸ hanswer⟩, hid, hfilename⟩

/-- A module that begins to be evaluated in a move is what the question of the move has been answered
with. -/
theorem World.began_answered {w : World E} {m : Move E} {l : Loading E.Value}
    (he : w.moduleEvent? m = some (.began l)) :
    ∃ q m', w.question? m = some (l.owner, q) ∧ w.host.Answered l q m' := by
  have hnative {v : Invocation E}
      (hquestion : w.question? m = (w.invocation? m).bind Invocation.question?)
      (hv : w.invocation? m = some v)
      (he : v.native.moduleEvent? v.args v.job.seat v.host = some (.began l)) :
      ∃ q m', w.question? m = some (l.owner, q) ∧ w.host.Answered l q m' := by
    obtain ⟨q, m', hq, ha⟩ := Native.moduleEvent?_began he
    rw [hv, Option.bind_some] at hquestion
    exact ⟨q, m', hquestion.trans hq, answered_of_invocation? hv ha⟩
  cases m with
  | start errand =>
    cases errand with
    | require seat owner q main =>
      obtain ⟨rfl, m', ha⟩ := Loading.event?_began he
      exact ⟨q, m', rfl, ha⟩
    | notify seat owner n =>
      obtain ⟨v, hv, he⟩ := Option.bind_eq_some_iff.1 he
      exact hnative rfl hv he
    | _ => cases he
  | step i =>
    obtain ⟨j, hj, he⟩ := Option.bind_eq_some_iff.1 he
    obtain ⟨v, hv, he⟩ := Job.moduleEvent?_began he
    exact hnative rfl (Option.bind_eq_some_iff.2 ⟨j, hj, hv⟩) he
  | _ => cases he

end ScriptHost
