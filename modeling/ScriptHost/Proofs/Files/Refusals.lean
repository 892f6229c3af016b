import ScriptHost.Proofs.Files.Canonical
import ScriptHost.Proofs.Path.Parent

/-!
# Why operations on files fail

An operation on files fails with a number of the operating system that has a symbol, unless one of
its paths has a NUL character. Then it fails before anything is walked, and with no such number.
There is one more failure without a number in the making of directories, where no component is left
to be taken off a path; but then the path leads to the root, which is always there.

## Main definitions

* `IoFailure.HasSymbol`: a failure with a number of the operating system that has a symbol.
* `FileTree.Refuses`: a computation that fails with nothing else.

## Main results

* `FileTree.refuses_find`, `FileTree.refuses_slot` and others: operations on paths without NUL.
* `FileTree.locate_of_nul`, `FileTree.slot_of_nul` and others: operations on paths with NUL.
* `FileTree.refuses_makeDirectories`: the making of directories never runs out of components.
-/

namespace ScriptHost

/-- A failure with a number of the operating system that has a symbol. -/
def IoFailure.HasSymbol (failure : IoFailure) : Prop :=
  ∃ n symbol, failure = .system n ∧ Errno.symbol? n = some symbol

namespace FileTree

variable {α β : Type} {t : FileTree} {cwd here : Place} {path : String} {ending : Ending}

/-- A computation that fails with a number that has a symbol, if it fails. -/
structure Refuses (x : Except IoFailure α) : Prop where
  hasSymbol : ∀ {failure}, x = .error failure → failure.HasSymbol

namespace Refuses

theorem ok (a : α) : Refuses (.ok a) where
  hasSymbol := by
    rintro _ ⟨⟩

theorem system {n : Int} (hn : (Errno.symbol? n).isSome) :
    Refuses (.error (.system n) : Except IoFailure α) where
  hasSymbol := by
    rintro _ ⟨⟩
    obtain ⟨symbol, hsymbol⟩ := Option.isSome_iff_exists.1 hn
    exact ⟨n, symbol, rfl, hsymbol⟩

theorem of_error {x : Except IoFailure α} {failure : IoFailure} (hx : Refuses x)
    (h : x = .error failure) : Refuses (.error failure : Except IoFailure β) where
  hasSymbol := by
    rintro _ ⟨⟩
    exact hx.hasSymbol h

theorem bind {x : Except IoFailure α} {f : α → Except IoFailure β} (hx : Refuses x)
    (hf : ∀ a, Refuses (f a)) : Refuses (x >>= f) := by
  cases x with
  | error failure => exact hx.of_error rfl
  | ok a => exact hf a

theorem map {x : Except IoFailure α} (hx : Refuses x) (f : α → β) : Refuses (x.map f) := by
  cases x with
  | error failure => exact hx.of_error rfl
  | ok a => exact ok _

theorem ite {c : Prop} [Decidable c] {x y : Except IoFailure α} (hx : Refuses x) (hy : Refuses y) :
    Refuses (if c then x else y) := by
  split
  · exact hx
  · exact hy

end Refuses

/-! ### Walking -/

theorem symbol_walk {links : Nat} {todo : List String} {n : Int}
    (h : t.walk ending links here todo = .error n) : (Errno.symbol? n).isSome := by
  fun_induction walk with
  | case1 | case6 | case9 | case11 => cases h
  | case2 | case3 | case8 | case14 =>
    rename_i ih
    exact ih h
  | case4 | case5 | case7 | case10 | case12 | case13 =>
    cases h
    rfl

theorem refuses_walk (links : Nat) (todo : List String) :
    Refuses ((t.walk ending links here todo).mapError .system) := by
  rcases hwalk : t.walk ending links here todo with n | spot
  · exact .system (symbol_walk hwalk)
  · exact .ok spot

theorem refuses_origin (h : '\x00' ∉ path.toList) : Refuses (t.origin cwd path) := by
  rw [origin, if_neg (by rwa [List.contains_iff_mem])]
  exact .ite (.system rfl) (.ite (.ok _) (.ite (.ok _) (.system rfl)))

theorem refuses_start (h : '\x00' ∉ path.toList) : Refuses (t.start cwd path) :=
  .ite (.system rfl) (refuses_origin h)

theorem refuses_locate (h : '\x00' ∉ path.toList) : Refuses (t.locate cwd ending path) :=
  (refuses_start h).bind fun _ => refuses_walk ..

theorem refuses_slot (h : '\x00' ∉ path.toList) : Refuses (t.slot cwd path) := by
  refine (refuses_start h).bind fun here => ?_
  split
  · exact .ok _
  refine (refuses_walk ..).bind fun spot => ?_
  split
  · exact .system rfl
  · exact .ite (.ok _) (.ite (.ok _) (.ok _))

theorem refuses_child? (dir : Place) (name : String) : Refuses (t.child? dir name) :=
  .ite (.system rfl) (.ok _)

/-! ### Paths without NUL -/

theorem refuses_find (h : '\x00' ∉ path.toList) : Refuses (t.find cwd path) := by
  refine (refuses_locate h).bind fun spot => ?_
  split
  · exact .ok _
  · exact .system rfl

theorem refuses_list (h : '\x00' ∉ path.toList) : Refuses (t.list cwd path) := by
  refine (refuses_find h).bind fun found => ?_
  split
  · exact .ok _
  · exact .system rfl

theorem refuses_readLossy (h : '\x00' ∉ path.toList) : Refuses (t.readLossy cwd path) := by
  refine .map ((refuses_find h).bind fun found => ?_) _
  split
  · exact .ok _
  · exact .system rfl

theorem refuses_realPath (h : '\x00' ∉ path.toList) : Refuses (t.realPath cwd path) := by
  refine (refuses_origin h).bind fun here => (refuses_walk ..).bind fun spot => ?_
  split
  · exact .ok _
  · exact .system rfl

theorem refuses_update (h : '\x00' ∉ path.toList) (change : Bytes → Bytes) :
    Refuses (t.update cwd path change) := by
  refine (refuses_locate h).bind fun spot => ?_
  split
  · exact .ok _
  · exact .system rfl
  · exact .ok _

theorem refuses_makeDirectory (h : '\x00' ∉ path.toList) : Refuses (t.makeDirectory cwd path) := by
  refine (refuses_slot h).bind fun slot => ?_
  split
  · exact (refuses_child? ..).bind fun entry => .ite (.system rfl) (.ok _)
  · exact .system rfl

theorem refuses_removeDirectory (h : '\x00' ∉ path.toList) :
    Refuses (t.removeDirectory cwd path) := by
  refine (refuses_slot h).bind fun slot => ?_
  split
  · exact .system rfl
  · exact .system rfl
  · exact .system rfl
  refine (refuses_child? ..).bind fun entry => ?_
  split
  · exact .system rfl
  · exact .ite (.ok _) (.system rfl)
  · exact .system rfl

theorem refuses_unlink (h : '\x00' ∉ path.toList) : Refuses (t.unlink cwd path) := by
  refine (refuses_slot h).bind fun slot => ?_
  split
  · refine (refuses_child? ..).bind fun entry => ?_
    split
    · exact .system rfl
    · exact .system rfl
    · exact .ite (.system rfl) (.ok _)
  · exact .system rfl

theorem refuses_removeAll (h : '\x00' ∉ path.toList) : Refuses (t.removeAll cwd path).1 := by
  rw [removeAll]
  split
  · next hlocate => exact (refuses_locate h).of_error hlocate
  · exact .system rfl
  · exact .system rfl
  · split
    · exact .ok _
    · next hunlink => exact (refuses_unlink h).of_error hunlink
  · dsimp only
    split
    · exact .ok _
    · next hremove => exact .ite (.ok _) ((refuses_removeDirectory h).of_error hremove)

theorem refuses_rename {old new : String} (hold : '\x00' ∉ old.toList)
    (hnew : '\x00' ∉ new.toList) : Refuses (t.rename cwd old new) := by
  rw [rename, if_neg (by rwa [List.contains_iff_mem])]
  refine (refuses_slot hold).bind fun source => (refuses_slot hnew).bind fun target => ?_
  split
  · refine (refuses_child? ..).bind fun entry => ?_
    split
    · exact .system rfl
    · refine (refuses_child? ..).bind fun there => ?_
      refine .ite (.system rfl) (.ite (.system rfl) (.ite (.system rfl) (.ite (.ok _) ?_)))
      split
      · exact .ok _
      · exact .ite (.system rfl) (.ite (.system rfl) (.ite (.system rfl) (.ok _)))
  · exact .system rfl

/-! ### Directories above -/

theorem walk_dots {links : Nat} {todo : List String} (h : ∀ name ∈ todo, name = ".") :
    t.walk ending links here todo = .ok (.found here .directory) := by
  induction todo with
  | nil => rw [walk]
  | cons name todo ih =>
    rw [walk, if_pos (.inl (h name List.mem_cons_self)),
      ih fun name hname => h name (List.mem_cons_of_mem _ hname)]

/-- A path with a slash in front that has no component but `.` leads to the root. -/
theorem slot_dots (hpath : path.isEmpty = false) (hnul : '\x00' ∉ path.toList)
    (habsolute : isAbsolute path = true) (hdots : ∀ name ∈ components path, name = ".") :
    t.slot cwd path = .error (.system Errno.nameTooLong) ∨ t.slot cwd path = .ok .root ∨
      t.slot cwd path = .ok .self := by
  have horigin : t.origin cwd path = .ok [] := by
    rw [origin, if_neg (by rwa [List.contains_iff_mem]), hpath, if_neg Bool.false_ne_true,
      if_pos habsolute]
  rw [slot, start, horigin]
  split
  · exact .inl rfl
  · right
    rcases hlast : (components path).getLast? with _ | last
    · exact .inl rfl
    · obtain rfl : last = "." := hdots last (List.mem_of_getLast? hlast)
      have habove : ∀ name ∈ (components path).dropLast ++ ["."], name = "." := by
        intro name hname
        rcases List.mem_append.1 hname with hname | hname
        · exact hdots name (List.dropLast_subset _ hname)
        · exact List.mem_singleton.1 hname
      simp only [bind, Except.bind, walk_dots habove, Except.mapError]
      exact .inr rfl

/-- Where no component can be taken off, the path leads to the root, which is there. -/
theorem makeDirectory_ne_notFound (habove : Path.parent? path = none) (hpath : path.isEmpty = false)
    (hnul : '\x00' ∉ path.toList) :
    t.makeDirectory cwd path ≠ .error (.system Errno.notFound) := by
  have hne : path.toList ≠ [] := by
    intro heq
    rw [String.toList_eq_nil_iff] at heq
    subst heq
    cases hpath
  obtain ⟨habsolute, hnamed⟩ := Path.Chars.parent?_eq_none (Option.map_eq_none_iff.1 habove) hne
  have hdots : ∀ name ∈ components path, name = "." := by
    intro name hname
    obtain ⟨c, hc, rfl⟩ := List.mem_map.1 hname
    rw [hnamed c hc]
  have hroot : isAbsolute path = true := by
    obtain ⟨x, cs, hcs⟩ := List.exists_cons_of_ne_nil hne
    rw [hcs, Path.Chars.isAbsolute_cons, beq_iff_eq] at habsolute
    rw [isAbsolute, hcs, habsolute]
    rfl
  rw [makeDirectory]
  obtain hslot | hslot | hslot := @slot_dots t cwd path hpath hnul hroot hdots
  all_goals
    rw [hslot]
    rintro ⟨⟩

theorem refuses_makeChain (fuel : Nat) (hnul : '\x00' ∉ path.toList) :
    Refuses (makeChain fuel t cwd path).1 := by
  induction fuel generalizing t path with
  | zero => exact .system rfl
  | succ fuel ih =>
    have hmake : ∀ t : FileTree, Refuses (t.makeDirectory cwd path) := fun _ =>
      refuses_makeDirectory hnul
    rw [makeChain]
    split
    · exact .ok _
    next hpath =>
    split
    · exact .ok _
    next e hfail =>
    split
    · exact .ite (.ok _) ((hmake t).of_error hfail)
    next hmissing =>
    rw [not_not] at hmissing
    subst hmissing
    split
    case h_1 habove =>
      exact absurd hfail (makeDirectory_ne_notFound habove (Bool.not_eq_true _ ▸ hpath) hnul)
    case h_2 above habove =>
      have habove_nul : '\x00' ∉ above.toList := by
        obtain ⟨cs, hcs, rfl⟩ := Option.map_eq_some_iff.1 habove
        rw [String.toList_ofList]
        exact fun hmem => hnul (Path.Chars.mem_of_mem_parent? hcs hmem)
      split
      case h_1 hchain =>
        exact (ih habove_nul).of_error (congrArg Prod.fst hchain)
      case h_2 t' hchain =>
        split
        · exact .ok _
        · next hretry => exact .ite (.ok _) ((hmake t').of_error hretry)

theorem refuses_makeDirectories (h : '\x00' ∉ path.toList) :
    Refuses (t.makeDirectories cwd path).1 :=
  refuses_makeChain _ h

/-! ### Paths with NUL -/

theorem start_of_nul (h : '\x00' ∈ path.toList) : t.start cwd path = .error .nulInPath := by
  have hcontains : path.toList.contains '\x00' = true := List.contains_iff_mem.2 h
  rw [start, origin, hcontains, Bool.not_true, Bool.and_false, if_neg Bool.false_ne_true,
    if_pos rfl]

theorem locate_of_nul (h : '\x00' ∈ path.toList) :
    t.locate cwd ending path = .error .nulInPath := by
  rw [locate, start_of_nul h]
  rfl

theorem slot_of_nul (h : '\x00' ∈ path.toList) : t.slot cwd path = .error .nulInPath := by
  rw [slot, start_of_nul h]
  rfl

theorem find_of_nul (h : '\x00' ∈ path.toList) : t.find cwd path = .error .nulInPath := by
  rw [find, locate_of_nul h]
  rfl

theorem list_of_nul (h : '\x00' ∈ path.toList) : t.list cwd path = .error .nulInPath := by
  rw [list, find_of_nul h]
  rfl

theorem readLossy_of_nul (h : '\x00' ∈ path.toList) : t.readLossy cwd path = .error .nulInPath := by
  rw [readLossy, readBytes, find_of_nul h]
  rfl

theorem realPath_of_nul (h : '\x00' ∈ path.toList) : t.realPath cwd path = .error .nulInPath := by
  rw [realPath, origin, if_pos (List.contains_iff_mem.2 h)]
  rfl

theorem update_of_nul (h : '\x00' ∈ path.toList) (change : Bytes → Bytes) :
    t.update cwd path change = .error .nulInPath := by
  rw [update, locate_of_nul h]
  rfl

theorem unlink_of_nul (h : '\x00' ∈ path.toList) : t.unlink cwd path = .error .nulInPath := by
  rw [unlink, slot_of_nul h]
  rfl

theorem removeDirectory_of_nul (h : '\x00' ∈ path.toList) :
    t.removeDirectory cwd path = .error .nulInPath := by
  rw [removeDirectory, slot_of_nul h]
  rfl

theorem removeAll_of_nul (h : '\x00' ∈ path.toList) :
    t.removeAll cwd path = (.error .nulInPath, t) := by
  rw [removeAll, locate_of_nul h]

theorem makeDirectory_of_nul (h : '\x00' ∈ path.toList) :
    t.makeDirectory cwd path = .error .nulInPath := by
  rw [makeDirectory, slot_of_nul h]
  rfl

theorem makeDirectories_of_nul (h : '\x00' ∈ path.toList) :
    t.makeDirectories cwd path = (.error .nulInPath, t) := by
  have hpath : path.isEmpty = false := by
    rw [← Bool.not_eq_true, String.isEmpty_iff]
    rintro rfl
    cases h
  have hleads : t.leadsToDirectory cwd path = false := by
    rw [leadsToDirectory, find_of_nul h]
  rw [makeDirectories, makeChain, hpath, makeDirectory_of_nul h, hleads]
  rfl

theorem rename_of_nul {old new : String} (h : '\x00' ∈ old.toList ∨ '\x00' ∈ new.toList) :
    t.rename cwd old new = .error .nulInPath := by
  by_cases hnew : '\x00' ∈ new.toList
  · rw [rename, if_pos (List.contains_iff_mem.2 hnew)]
    rfl
  · rw [rename, if_neg (by rwa [List.contains_iff_mem]), slot_of_nul (h.resolve_right hnew)]
    rfl

end FileTree

end ScriptHost
