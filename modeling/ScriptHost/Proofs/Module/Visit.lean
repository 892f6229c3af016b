import Mathlib.Data.List.Nodup
import Mathlib.Data.List.Perm.Basic
import Mathlib.Logic.Relation

/-!
# Depth-first visits

A depth-first visit of some targets takes them one after the other. It passes over what has been
seen; it enters anything else, visits its successors, and leaves it. What it enters and what it
leaves, in the order in which it does so, are two lists of the same vertices: those that can be
reached from the targets along vertices that had not been seen before.

## Main definitions

* `Visit`: a visit of targets, with what had been seen, what is entered and what is left.
* `Reaches`: a vertex is reached from targets along vertices that have not been seen.

## Main results

* `Visit.append`: visits may follow each other.
* `Visit.unique`: a visit is determined by the targets and what has been seen.
* `Visit.nodup`: nothing is entered twice.
* `Visit.perm`: what is left is what has been entered.
* `Visit.mem_iff_reaches`: what is entered is what can be reached.
-/

namespace ScriptHost

open Relation (ReflTransGen)

variable {α : Type} {next : α → List α}

/-- A visit of targets: what has been seen before, the targets, what is entered and what is left,
each in order. -/
inductive Visit (next : α → List α) : List α → List α → List α → List α → Prop
  /-- There is nothing to visit. -/
  | nil {seen : List α} : Visit next seen [] [] []
  /-- What has been seen is passed over. -/
  | skip {seen targets pre post : List α} {x : α} (h : x ∈ seen)
      (H : Visit next seen targets pre post) : Visit next seen (x :: targets) pre post
  /-- What has not been seen is entered, its successors are visited, and it is left. -/
  | enter {seen targets pre₁ post₁ pre₂ post₂ : List α} {x : α} (h : x ∉ seen)
      (H₁ : Visit next (x :: seen) (next x) pre₁ post₁)
      (H₂ : Visit next (x :: pre₁ ++ seen) targets pre₂ post₂) :
      Visit next seen (x :: targets) (x :: pre₁ ++ pre₂) (post₁ ++ x :: post₂)

/-- A vertex is reached from some targets along vertices that have not been seen. -/
def Reaches (next : α → List α) (seen targets : List α) (x : α) : Prop :=
  ∃ y ∈ targets, y ∉ seen ∧ ReflTransGen (fun a b => b ∈ next a ∧ b ∉ seen) y x

namespace Visit

variable {seen seen' targets pre post : List α}

/-- Only which vertices have been seen matters. -/
theorem congr (H : Visit next seen targets pre post) (h : ∀ x, x ∈ seen' ↔ x ∈ seen) :
    Visit next seen' targets pre post := by
  induction H generalizing seen' with
  | nil => exact .nil
  | skip hx _ ih => exact .skip ((h _).2 hx) (ih h)
  | enter hx _ _ ih₁ ih₂ =>
    refine .enter (mt (h _).1 hx) (ih₁ fun x => ?_) (ih₂ fun x => ?_)
    · rw [List.mem_cons, List.mem_cons, h]
    · rw [List.mem_append, List.mem_append, h]

/-- One target that has not been seen. -/
theorem single {x : α} (h : x ∉ seen) (H : Visit next (x :: seen) (next x) pre post) :
    Visit next seen [x] (x :: pre) (post ++ [x]) := by
  have hvisit := Visit.enter h H .nil
  rwa [List.append_nil] at hvisit

/-- One visit after another is a visit of the targets of both. -/
theorem append {targets' pre' post' : List α} (H : Visit next seen targets pre post)
    (H' : Visit next (pre ++ seen) targets' pre' post') :
    Visit next seen (targets ++ targets') (pre ++ pre') (post ++ post') := by
  induction H with
  | nil => exact H'
  | skip hx _ ih => exact .skip hx (ih H')
  | @enter seen targets pre₁ post₁ pre₂ post₂ x hx H₁ _ _ ih₂ =>
    have hrest : Visit next (pre₂ ++ (x :: pre₁ ++ seen)) targets' pre' post' := by
      refine H'.congr fun y => ?_
      simp only [List.mem_append]
      tauto
    have H := Visit.enter hx H₁ (ih₂ hrest)
    rw [List.append_assoc, List.append_assoc]
    exact H

/-- What is entered and what is left is determined. -/
theorem unique {pre' post' : List α} (H : Visit next seen targets pre post)
    (H' : Visit next seen targets pre' post') : pre' = pre ∧ post' = post := by
  induction H generalizing pre' post' with
  | nil =>
    cases H'
    exact ⟨rfl, rfl⟩
  | skip hx _ ih =>
    cases H' with
    | skip _ H' => exact ih H'
    | enter hx' _ _ => exact absurd hx hx'
  | enter hx _ _ ih₁ ih₂ =>
    cases H' with
    | skip hx' _ => exact absurd hx' hx
    | enter _ H₁ H₂ =>
      obtain ⟨rfl, rfl⟩ := ih₁ H₁
      obtain ⟨rfl, rfl⟩ := ih₂ H₂
      exact ⟨rfl, rfl⟩

/-- What is entered had not been seen. -/
theorem not_mem_seen (H : Visit next seen targets pre post) : ∀ x ∈ pre, x ∉ seen := by
  induction H with
  | nil => exact nofun
  | skip _ _ ih => exact ih
  | enter hx _ _ ih₁ ih₂ =>
    intro y hy
    rcases List.mem_append.1 hy with hy | hy
    · rcases List.mem_cons.1 hy with rfl | hy
      · exact hx
      · exact fun hseen => ih₁ y hy (List.mem_cons_of_mem _ hseen)
    · exact fun hseen => ih₂ y hy (List.mem_append_right _ hseen)

/-- Nothing is entered twice. -/
theorem nodup (H : Visit next seen targets pre post) : pre.Nodup := by
  induction H with
  | nil => exact .nil
  | skip _ _ ih => exact ih
  | @enter seen targets pre₁ post₁ pre₂ post₂ x hx H₁ H₂ ih₁ ih₂ =>
    have hnew : x ∉ pre₁ := fun hmem => H₁.not_mem_seen x hmem (List.mem_cons_self ..)
    refine List.nodup_append.2 ⟨List.nodup_cons.2 ⟨hnew, ih₁⟩, ih₂, fun y hy z hz he => ?_⟩
    exact H₂.not_mem_seen z hz (List.mem_append_left _ (he ▸ hy))

/-- What is left is what has been entered. -/
theorem perm (H : Visit next seen targets pre post) : post.Perm pre := by
  induction H with
  | nil => exact .refl _
  | skip _ _ ih => exact ih
  | enter _ _ _ ih₁ ih₂ => exact List.perm_middle.trans ((ih₁.append ih₂).cons _)

/-- The targets are entered unless they had been seen, and so are the successors of what is
entered. -/
theorem closed (H : Visit next seen targets pre post) : (∀ x ∈ targets, x ∈ pre ∨ x ∈ seen) ∧
    ∀ x ∈ pre, ∀ y ∈ next x, y ∈ pre ∨ y ∈ seen := by
  induction H with
  | nil => exact ⟨nofun, nofun⟩
  | skip hx _ ih =>
    refine ⟨fun y hy => ?_, ih.2⟩
    rcases List.mem_cons.1 hy with rfl | hy
    · exact .inr hx
    · exact ih.1 y hy
  | @enter seen targets pre₁ post₁ pre₂ post₂ x hx H₁ H₂ ih₁ ih₂ =>
    have hfirst {y : α} (hy : y ∈ pre₁ ∨ y ∈ x :: seen) :
        y ∈ x :: pre₁ ++ pre₂ ∨ y ∈ seen := by
      simp only [List.mem_cons, List.mem_append] at hy ⊢
      tauto
    have hsecond {y : α} (hy : y ∈ pre₂ ∨ y ∈ x :: pre₁ ++ seen) :
        y ∈ x :: pre₁ ++ pre₂ ∨ y ∈ seen := by
      simp only [List.mem_cons, List.mem_append] at hy ⊢
      tauto
    refine ⟨fun y hy => ?_, fun y hy z hz => ?_⟩
    · rcases List.mem_cons.1 hy with rfl | hy
      · exact .inl (List.mem_cons_self ..)
      · exact hsecond (ih₂.1 y hy)
    · rcases List.mem_append.1 hy with hy | hy
      · rcases List.mem_cons.1 hy with rfl | hy
        · exact hfirst (ih₁.1 z hz)
        · exact hfirst (ih₁.2 y hy z hz)
      · exact hsecond (ih₂.2 y hy z hz)

/-- What is entered can be reached. -/
theorem reaches (H : Visit next seen targets pre post) :
    ∀ x ∈ pre, Reaches next seen targets x := by
  induction H with
  | nil => exact nofun
  | skip _ _ ih =>
    intro x hx
    obtain ⟨y, hy, hpath⟩ := ih x hx
    exact ⟨y, List.mem_cons_of_mem _ hy, hpath⟩
  | @enter seen targets pre₁ post₁ pre₂ post₂ x hx _ _ ih₁ ih₂ =>
    have hmono {seen' : List α} (h : ∀ y, y ∈ seen → y ∈ seen') {y z : α}
        (hp : ReflTransGen (fun a b => b ∈ next a ∧ b ∉ seen') y z) :
        ReflTransGen (fun a b => b ∈ next a ∧ b ∉ seen) y z :=
      ReflTransGen.mono (fun a b hab => ⟨hab.1, fun hseen => hab.2 (h b hseen)⟩) _ _ hp
    intro z hz
    rcases List.mem_append.1 hz with hz | hz
    · refine ⟨x, List.mem_cons_self .., hx, ?_⟩
      rcases List.mem_cons.1 hz with rfl | hz
      · exact .refl
      · obtain ⟨y, hy, hnew, hpath⟩ := ih₁ z hz
        have hnew : y ∉ seen := fun hseen => hnew (List.mem_cons_of_mem _ hseen)
        exact .head ⟨hy, hnew⟩ (hmono (fun _ => List.mem_cons_of_mem x) hpath)
    · obtain ⟨y, hy, hnew, hpath⟩ := ih₂ z hz
      exact ⟨y, List.mem_cons_of_mem _ hy, fun hseen => hnew (List.mem_append_right _ hseen),
        hmono (fun _ => List.mem_append_right _) hpath⟩

/-- What is entered is what can be reached along vertices that had not been seen. -/
theorem mem_iff_reaches (H : Visit next seen targets pre post) (x : α) :
    x ∈ pre ↔ Reaches next seen targets x := by
  refine ⟨H.reaches x, ?_⟩
  rintro ⟨y, hy, hnew, hpath⟩
  obtain ⟨htargets, hnext⟩ := H.closed
  induction hpath with
  | refl => exact (htargets y hy).resolve_right hnew
  | tail _ hstep ih => exact (hnext _ ih _ hstep.1).resolve_right hstep.2

end Visit

end ScriptHost
