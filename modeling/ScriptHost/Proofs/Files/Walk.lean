import ScriptHost.Files.Operations
import ScriptHost.Proofs.Path.Canonical

/-!
# Walking a file tree

In a tree as file systems hold it, every entry has a proper name and lies in a directory. A walk that
finds something there ends at an entry of the tree, which is no link if links are followed. The names
that lead to an entry are a walk to it that meets no link.

## Main definitions

* `FileTree.IsName`: a name that an entry may have.
* `FileTree.WellFormed`: a tree as file systems hold it.

## Main results

* `FileTree.WellFormed.walk_found`: a walk ends at an entry of the tree.
* `FileTree.WellFormed.walk_place`: the names of an entry lead to it.
-/

namespace ScriptHost.FileTree

/-- A name that an entry may have. -/
structure IsName (s : String) : Prop where
  leads : Path.Chars.IsName s.toList
  nul_notMem : '\x00' ∉ s.toList
  size_le : s.utf8ByteSize ≤ maxName

/-- A tree as file systems hold it: entries have proper names and lie in directories. -/
structure WellFormed (t : FileTree) : Prop where
  names : ∀ p ∈ t.entries.keys, ∀ s ∈ p, IsName s
  parents : ∀ p ∈ t.entries.keys, t.entry? p.dropLast = some .directory

instance (s : String) : Decidable (IsName s) :=
  decidable_of_iff
    ((s.toList ≠ [] ∧ s.toList ≠ ['.'] ∧ s.toList ≠ ['.', '.'] ∧ '/' ∉ s.toList) ∧
      '\x00' ∉ s.toList ∧ s.utf8ByteSize ≤ maxName)
    ⟨fun ⟨⟨h₁, h₂, h₃, h₄⟩, h₅, h₆⟩ => ⟨⟨h₁, h₂, h₃, h₄⟩, h₅, h₆⟩,
      fun ⟨⟨h₁, h₂, h₃, h₄⟩, h₅, h₆⟩ => ⟨⟨h₁, h₂, h₃, h₄⟩, h₅, h₆⟩⟩

instance (t : FileTree) : Decidable t.WellFormed :=
  decidable_of_iff ((∀ p ∈ t.entries.keys, ∀ s ∈ p, IsName s) ∧
      ∀ p ∈ t.entries.keys, t.entry? p.dropLast = some .directory)
    ⟨fun ⟨h₁, h₂⟩ => ⟨h₁, h₂⟩, fun ⟨h₁, h₂⟩ => ⟨h₁, h₂⟩⟩

variable {t : FileTree} {p q place here : Place} {entry : Entry} {ending : Ending} {links : Nat}

theorem entry?_of_ne_nil (hp : p ≠ []) : t.entry? p = t.entries.get? p := if_neg hp

/-- A name neither stays in place nor goes up. -/
theorem IsName.ne {s : String} (h : IsName s) : ¬(s = "." ∨ s = "") ∧ s ≠ ".." := by
  refine ⟨not_or.2 ⟨?_, ?_⟩, ?_⟩
  · rintro rfl
    exact h.leads.ne_self rfl
  · rintro rfl
    exact h.leads.ne_nil rfl
  · rintro rfl
    exact h.leads.ne_above rfl

/-! ### Steps -/

section Steps

variable {name target : String} {rest : List String} {content : Bytes}

theorem walk_above :
    t.walk ending links here (".." :: rest) = t.walk ending links here.dropLast rest := by
  rw [walk, if_neg (by decide), if_pos rfl]

theorem target_ne_file : ¬(Ending.target = .file ∧ rest = [""]) := by
  rintro ⟨⟨⟩, -⟩

theorem walk_directory (hname : IsName name) (h : t.entry? (here ++ [name]) = some .directory) :
    t.walk .target links here (name :: rest) = t.walk .target links (here ++ [name]) rest := by
  rw [walk, if_neg hname.ne.1, if_neg hname.ne.2, if_neg target_ne_file,
    if_neg (Nat.not_lt.2 hname.size_le), h]

theorem walk_file (hname : IsName name) (h : t.entry? (here ++ [name]) = some (.file content)) :
    t.walk .target links here [name] = .ok (.found (here ++ [name]) (.file content)) := by
  rw [walk, if_neg hname.ne.1, if_neg hname.ne.2, if_neg target_ne_file,
    if_neg (Nat.not_lt.2 hname.size_le), h]
  rfl

theorem walk_link (hname : IsName name) (h : t.entry? (here ++ [name]) = some (.link target))
    (htarget : target.isEmpty = false) : t.walk .target (links + 1) here (name :: rest) =
      t.walk .target links (if isAbsolute target then [] else here) (steps target ++ rest) := by
  have hend : ¬(rest.isEmpty && decide (Ending.target = .entry)) = true := by
    have hentry : decide (Ending.target = .entry) = false := rfl
    rw [hentry, Bool.and_false]
    exact Bool.false_ne_true
  rw [walk, if_neg hname.ne.1, if_neg hname.ne.2, if_neg target_ne_file,
    if_neg (Nat.not_lt.2 hname.size_le), h]
  dsimp only
  rw [if_neg hend, htarget, if_neg Bool.false_ne_true]

end Steps

namespace WellFormed

theorem names_of_entry (H : t.WellFormed) (h : t.entry? p = some entry) : ∀ s ∈ p, IsName s := by
  by_cases hp : p = []
  · rw [hp]
    exact nofun
  · rw [entry?_of_ne_nil hp] at h
    exact H.names p (Table.mem_keys_of_get? h)

/-- What lies above an entry is a directory, and so is what lies above the root. -/
theorem entry?_dropLast (H : t.WellFormed) (h : t.entry? p = some entry) :
    t.entry? p.dropLast = some .directory := by
  by_cases hp : p = []
  · rw [hp]
    rfl
  · rw [entry?_of_ne_nil hp] at h
    exact H.parents p (Table.mem_keys_of_get? h)

theorem entry?_of_append (H : t.WellFormed) (h : t.entry? (p ++ q) = some entry) (hq : q ≠ []) :
    t.entry? p = some .directory := by
  induction q generalizing p with
  | nil => exact absurd rfl hq
  | cons s q ih =>
    rw [List.append_cons] at h
    have habove {e : Entry} (h : t.entry? (p ++ [s]) = some e) : t.entry? p = some .directory := by
      have hdrop := H.entry?_dropLast h
      rwa [List.dropLast_concat] at hdrop
    by_cases hnil : q = []
    · rw [hnil, List.append_nil] at h
      exact habove h
    · exact habove (ih h hnil)

/-- A walk from a directory ends at an entry of the tree, which is no link if links are followed. -/
theorem walk_found (H : t.WellFormed) (hhere : t.entry? here = some .directory)
    {todo : List String} (hw : t.walk ending links here todo = .ok (.found place entry)) :
    t.entry? place = some entry ∧ (ending ≠ .entry → ∀ target, entry ≠ .link target) := by
  fun_induction t.walk ending links here todo
  -- the end of the path
  case case1 =>
    cases hw
    exact ⟨hhere, fun _ _ => nofun⟩
  -- a step that stays, one up, one into a directory, and a link
  case case2 ih => exact ih hhere hw
  case case3 ih => exact ih (H.entry?_dropLast hhere) hw
  case case8 hdir ih => exact ih hdir hw
  case case14 ih =>
    refine ih ?_ hw
    split
    · rfl
    · exact hhere
  -- a file, and a link that is not followed
  case case9 hfile _ =>
    cases hw
    exact ⟨hfile, fun _ _ => nofun⟩
  case case11 hlink hend =>
    cases hw
    exact ⟨hlink, fun hne => absurd (of_decide_eq_true (Bool.and_eq_true_iff.1 hend).2) hne⟩
  all_goals cases hw

/-- The names below a directory lead to the entry that has them, however many links may be
followed. -/
theorem walk_place (H : t.WellFormed) (hp : t.entry? (here ++ p) = some entry)
    (hhere : t.entry? here = some .directory) (hlink : ∀ target, entry ≠ .link target) :
    t.walk .target links here p = .ok (.found (here ++ p) entry) := by
  induction p generalizing here with
  | nil =>
    rw [List.append_nil] at hp ⊢
    rw [Option.some.inj (hp.symm.trans hhere), walk]
  | cons s p ih =>
    have hs : IsName s := H.names_of_entry hp s (by simp)
    rw [List.append_cons] at hp ⊢
    by_cases hnil : p = []
    · subst hnil
      rw [List.append_nil] at hp ⊢
      cases entry with
      | file content => exact walk_file hs hp
      | directory => rw [walk_directory hs hp, walk]
      | link target => exact absurd rfl (hlink target)
    · have hdir := H.entry?_of_append hp hnil
      rw [walk_directory hs hdir]
      exact ih hp hdir

end WellFormed

end ScriptHost.FileTree
