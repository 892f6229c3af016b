import ScriptHost.Proofs.Files.Walk

/-!
# The paths of places

The path of a place names its components one by one, and no two places have the same. In a tree as
file systems hold it, the path of a file leads to the file, from whichever working directory. The
canonical path of whatever a path leads to is the path of its place: no component of it stays or goes
up, and there is no link on it.

## Main definitions

* `FileTree.IsCanonical`: a path without detours and links.

## Main results

* `Place.path_injective`: different places have different paths.
* `FileTree.WellFormed.find_path`: the path of a place leads there.
* `FileTree.realPath_of_find`: the canonical path of what a path leads to is that of its place.
* `FileTree.WellFormed.isCanonical_path`: the path of a file is canonical.
-/

namespace ScriptHost

variable {place p : Place} {path : String}

/-! ### Paths and their components -/

namespace Place

theorem toList_path (p : Place) : (Place.path p).toList = Path.Chars.rooted (p.map String.toList) :=
  Path.toList_slash_append_intercalate p

theorem isName_of_mem_map (hp : ∀ s ∈ p, FileTree.IsName s) :
    ∀ c ∈ p.map String.toList, Path.Chars.IsName c := by
  intro c hc
  obtain ⟨s, hs, rfl⟩ := List.mem_map.1 hc
  exact (hp s hs).leads

/-- Different places have different paths. -/
theorem path_injective {q : Place} (hp : ∀ s ∈ p, FileTree.IsName s)
    (hq : ∀ s ∈ q, FileTree.IsName s) (h : Place.path p = Place.path q) : p = q := by
  have hchars := congrArg String.toList h
  rw [toList_path, toList_path] at hchars
  exact (List.map_inj_right fun _ _ => String.toList_inj.1).1
    (Path.Chars.rooted_injective (isName_of_mem_map hp) (isName_of_mem_map hq) hchars)

end Place

namespace FileTree

/-- The components of the path of a place are the names that lead there. -/
theorem components_path (hp : ∀ s ∈ p, IsName s) : components (Place.path p) = p := by
  have hofList : (p.map String.toList).map String.ofList = p := by
    rw [List.map_map]
    exact List.map_id'' (fun _ => String.ofList_toList) p
  have hnames := Place.isName_of_mem_map hp
  rw [components, Place.toList_path]
  by_cases hnil : p = []
  · subst hnil
    rfl
  · rw [Path.Chars.splitOn_rooted (by simpa using hnil) fun c hc => (hnames c hc).slash_notMem,
      List.filter_cons_of_neg (by simp), List.filter_eq_self.2 fun c hc => ?_, hofList]
    exact decide_eq_true (hnames c hc).ne_nil

theorem endsInSlash_path (hp : ∀ s ∈ p, IsName s) (hnil : p ≠ []) :
    endsInSlash (Place.path p) = false := by
  rw [endsInSlash, Place.toList_path]
  exact Path.Chars.endsInSlash_rooted (Place.isName_of_mem_map hp) (by simpa using hnil)

theorem steps_path (hp : ∀ s ∈ p, IsName s) (hnil : p ≠ []) : steps (Place.path p) = p := by
  rw [steps, components_path hp, endsInSlash_path hp hnil, if_neg Bool.false_ne_true,
    List.append_nil]

theorem isAbsolute_path (p : Place) : isAbsolute (Place.path p) = true := by
  rw [isAbsolute, Place.toList_path]
  rfl

theorem isEmpty_path (p : Place) : (Place.path p).isEmpty = false := by
  rw [← Bool.not_eq_true, String.isEmpty_iff]
  intro hempty
  have hchars := Place.toList_path p
  rw [hempty] at hchars
  exact nomatch hchars

theorem nul_notMem_path (hp : ∀ s ∈ p, IsName s) :
    (Place.path p).toList.contains '\x00' = false := by
  rw [Place.toList_path, ← Bool.not_eq_true, List.contains_iff_mem]
  intro hnul
  rcases Path.Chars.mem_rooted hnul with hslash | ⟨c, hc, hnul⟩
  · exact absurd hslash (by decide)
  · obtain ⟨s, hs, rfl⟩ := List.mem_map.1 hc
    exact (hp s hs).nul_notMem hnul

/-- A path without detours and links: it starts at the root, none of its components is empty or
stays or goes up, and there is no link on it. -/
structure IsCanonical (t : FileTree) (path : String) : Prop where
  absolute : isAbsolute path = true
  components : ∀ c ∈ (path.toList.splitOn '/').tail, c ≠ [] ∧ c ≠ ['.'] ∧ c ≠ ['.', '.']
  links : ∀ n target, t.entry? ((FileTree.components path).take n) ≠ some (.link target)

/-! ### Where paths lead -/

variable {t : FileTree} {cwd here : Place} {entry : Entry} {content : Bytes}

/-- A walk starts in a directory. -/
theorem entry?_origin (h : t.origin cwd path = .ok here) : t.entry? here = some .directory := by
  rw [origin] at h
  split at h
  · cases h
  · split at h
    · cases h
    · split at h
      · cases h
        rfl
      · split at h
        · next hdir =>
          cases h
          exact beq_iff_eq.1 hdir
        · cases h

theorem nul_notMem_of_origin (h : t.origin cwd path = .ok here) :
    path.toList.contains '\x00' = false := by
  rw [origin] at h
  split at h
  · cases h
  · next hnul => exact Bool.not_eq_true _ ▸ hnul

theorem start_eq_ok_iff : t.start cwd path = .ok here ↔
    path.utf8ByteSize < maxPath ∧ t.origin cwd path = .ok here := by
  rw [start]
  split
  · next hlong =>
    have hle : maxPath ≤ path.utf8ByteSize := of_decide_eq_true (Bool.and_eq_true_iff.1 hlong).1
    exact ⟨nofun, fun h => absurd h.1 (Nat.not_lt.2 hle)⟩
  · next hshort =>
    refine ⟨fun h => ⟨Nat.lt_of_not_le fun hle => hshort ?_, h⟩, fun h => h.2⟩
    rw [nul_notMem_of_origin h, decide_eq_true hle]
    rfl

/-- What it takes for a path to lead to an entry. -/
theorem find_eq_ok_iff : t.find cwd path = .ok (place, entry) ↔ path.utf8ByteSize < maxPath ∧
    ∃ here, t.origin cwd path = .ok here ∧
      t.walk .target maxLinks here (steps path) = .ok (.found place entry) := by
  rw [find, locate]
  constructor
  · intro h
    rcases hstart : t.start cwd path with e | here <;> rw [hstart] at h
    · cases h
    · obtain ⟨hsize, horigin⟩ := start_eq_ok_iff.1 hstart
      refine ⟨hsize, here, horigin, ?_⟩
      change ((t.walk .target maxLinks here (steps path)).mapError IoFailure.system >>= _) = _ at h
      rcases hwalk : t.walk .target maxLinks here (steps path) with e | _ | _ <;> rw [hwalk] at h
      · cases h
      · cases h
        rfl
      · cases h
  · rintro ⟨hsize, here, horigin, hwalk⟩
    rw [start_eq_ok_iff.2 ⟨hsize, horigin⟩]
    change ((t.walk .target maxLinks here (steps path)).mapError IoFailure.system >>= _) = _
    rw [hwalk]
    rfl

/-- The canonical path of what a path leads to is that of its place. -/
theorem realPath_of_find (h : t.find cwd path = .ok (place, entry)) :
    t.realPath cwd path = .ok (Place.path place) := by
  obtain ⟨-, here, horigin, hwalk⟩ := find_eq_ok_iff.1 h
  rw [realPath, horigin]
  change ((t.walk .target maxLinks here (steps path)).mapError IoFailure.system >>= _) = _
  rw [hwalk]
  rfl

theorem isFile_iff : t.isFile cwd path = true ↔
    ∃ place content, t.find cwd path = .ok (place, .file content) := by
  unfold isFile
  split
  · next place content h => exact ⟨fun _ => ⟨place, content, h⟩, fun _ => rfl⟩
  · next hne => exact ⟨nofun, fun ⟨place, content, h⟩ => absurd h (hne place content)⟩

theorem readBytes_eq_ok_iff : t.readBytes cwd path = .ok content ↔
    ∃ place, t.find cwd path = .ok (place, .file content) := by
  rw [readBytes]
  constructor
  · intro h
    rcases hfind : t.find cwd path with e | ⟨place, content' | _ | _⟩ <;> rw [hfind] at h
    case mp.ok.file =>
      cases h
      exact ⟨place, rfl⟩
    all_goals cases h
  · rintro ⟨place, hfind⟩
    rw [hfind]
    rfl

/-- What it takes for a path to lead to a text. -/
theorem readText_eq_ok_iff {s : String} : t.readText cwd path = .ok s ↔
    ∃ content, t.readBytes cwd path = .ok content ∧ Text.decodeUtf8? content = some s := by
  rw [readText]
  constructor
  · intro h
    cases hread : t.readBytes cwd path with
    | error e =>
      rw [hread] at h
      cases h
    | ok content =>
      rw [hread] at h
      change (pure content >>= _) = _ at h
      rw [pure_bind] at h
      cases htext : Text.decodeUtf8? content <;> rw [htext] at h
      · cases h
      · cases h
        exact ⟨content, rfl, htext⟩
  · rintro ⟨content, hread, htext⟩
    rw [hread]
    change (pure content >>= _) = _
    rw [pure_bind, htext]
    rfl

namespace WellFormed

/-- What a path leads to is an entry of the tree and no link. -/
theorem entry?_of_find (H : t.WellFormed) (h : t.find cwd path = .ok (place, entry)) :
    t.entry? place = some entry ∧ ∀ target, entry ≠ .link target := by
  obtain ⟨-, here, horigin, hwalk⟩ := find_eq_ok_iff.1 h
  obtain ⟨hentry, hlink⟩ := H.walk_found (entry?_origin horigin) hwalk
  exact ⟨hentry, hlink nofun⟩

/-- The path of a file leads there from everywhere, if it is not too long. -/
theorem find_path (H : t.WellFormed) (h : t.entry? place = some (.file content))
    (hsize : (Place.path place).utf8ByteSize < maxPath) (cwd : Place) :
    t.find cwd (Place.path place) = .ok (place, .file content) := by
  have hnames := H.names_of_entry h
  have hnil : place ≠ [] := by
    rintro rfl
    cases h
  refine find_eq_ok_iff.2 ⟨hsize, [], ?_, ?_⟩
  · rw [origin, nul_notMem_path hnames, if_neg Bool.false_ne_true, isEmpty_path,
      if_neg Bool.false_ne_true, isAbsolute_path, if_pos rfl]
  · have hroot : t.entry? ([] ++ place) = some (.file content) := h
    rw [steps_path hnames hnil]
    exact H.walk_place hroot rfl nofun

/-- The path of a file is canonical. -/
theorem isCanonical_path (H : t.WellFormed) (h : t.entry? place = some (.file content)) :
    t.IsCanonical (Place.path place) := by
  have hnames := H.names_of_entry h
  have hnil : place ≠ [] := by
    rintro rfl
    cases h
  refine ⟨isAbsolute_path place, fun c hc => ?_, fun n target htarget => ?_⟩
  · rw [Place.toList_path, Path.Chars.splitOn_rooted (by simpa using hnil) fun c hc =>
      (Place.isName_of_mem_map hnames c hc).slash_notMem] at hc
    have hname := Place.isName_of_mem_map hnames c hc
    exact ⟨hname.ne_nil, hname.ne_self, hname.ne_above⟩
  · rw [components_path hnames] at htarget
    by_cases hn : place.length ≤ n
    · rw [List.take_of_length_le hn, h] at htarget
      cases htarget
    · have hdrop : place.drop n ≠ [] := by simpa using hn
      have hdir := H.entry?_of_append ((List.take_append_drop n place).symm ▸ h) hdrop
      exact nomatch hdir.symm.trans htarget

end WellFormed

end FileTree

end ScriptHost
