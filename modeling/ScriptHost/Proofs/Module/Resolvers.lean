import ScriptHost.Module.Resolver
import ScriptHost.Proofs.Files.Canonical

/-!
# Resolvers that keep to their ids

A resolver keeps to its ids if each id that it can answer with, asked for in turn, is answered with
the same module, from whichever directory and whatever it has been asked before. The resolver of
files does so as long as the files stay as they are, and a table of sources under absolute paths does
so always.

## Main definitions

* `Resolver.Stable`: the resolver keeps to its ids on some platforms.
* `Question.file?`: the file that a question leads to.

## Main results

* `Resolver.answer_ofFiles_iff`: the answers from files.
* `Resolver.ofFiles_stable`, `Resolver.ofSources_stable`: resolvers that keep to their ids.
-/

namespace ScriptHost

/-! ### Absolute paths -/

namespace Path

theorem isSpecifier_of_isAbsolute {s : String} (h : isAbsolute s = true) : isSpecifier s = true := by
  have hchars : Chars.isAbsolute s.toList = true := h
  simp only [isSpecifier, Chars.isSpecifier, hchars, Bool.true_or]

/-- An absolute path is seen from everywhere as itself. -/
theorem beneath_of_isAbsolute {s : String} (h : isAbsolute s = true) (dir : String) :
    beneath dir s = s := by
  have hchars : Chars.isAbsolute s.toList = true := h
  rw [beneath, Chars.beneath, if_pos (.inl hchars), String.ofList_toList]

end Path

theorem Place.isAbsolute_path (p : Place) : Path.isAbsolute (Place.path p) = true := by
  rw [Path.isAbsolute, Place.toList_path]
  rfl

/-- The file that a question leads to: its path is walked from the directory that asks, or from
`base` at the top level. -/
def Question.file? (base : String) (p : Platform) (q : Question) : Option Place :=
  match p.files.find p.cwd (Path.beneath (q.dir.getD base) q.specifier) with
  | .ok (place, .file _) => some place
  | _ => none

namespace Resolver

/-- The resolver keeps to its ids on some platforms: each id that it can answer with is answered with
the same module, from every directory. -/
def Stable (ρ : Resolver) (P : Platform → Prop) : Prop :=
  ∀ p questions q m, P p → ρ.answer p questions q = .ok m →
    ∀ p' questions' dir, P p' → ρ.answer p' questions' ⟨m.id, dir⟩ = .ok m

variable {base : String} {p : Platform} {questions : List Question} {q : Question}
  {m : ResolvedModule} {t : FileTree} {place : Place}

/-! ### Files -/

theorem file?_eq_some_iff : q.file? base p = some place ↔ ∃ content,
    p.files.find p.cwd (Path.beneath (q.dir.getD base) q.specifier) =
      .ok (place, .file content) := by
  unfold Question.file?
  split
  · next place' content h =>
    rw [h]
    constructor
    · rintro ⟨⟩
      exact ⟨content, rfl⟩
    · rintro ⟨content', h'⟩
      cases h'
      rfl
  · next hne => exact ⟨nofun, fun ⟨content, h⟩ => absurd h (hne place content)⟩

/-- The answers from files: the specifier is a path that leads to a file, and the path of the file's
place is the id, under which its text is read. -/
theorem answer_ofFiles_iff : (ofFiles base).answer p questions q = .ok m ↔
    Path.isSpecifier q.specifier = true ∧ ∃ place, q.file? base p = some place ∧
      p.files.readText p.cwd (Place.path place) = .ok m.source ∧
      m.id = Place.path place ∧ m.filename = Place.path place := by
  simp only [ofFiles, file?_eq_some_iff]
  generalize Path.beneath (q.dir.getD base) q.specifier = path
  cases hspecifier : Path.isSpecifier q.specifier with
  | false => exact ⟨nofun, fun h => absurd h.1 Bool.false_ne_true⟩
  | true =>
    rw [Bool.not_true, if_neg Bool.false_ne_true]
    cases hfile : p.files.isFile p.cwd path with
    | false =>
      refine ⟨nofun, fun ⟨_, place, ⟨content, hfind⟩, _⟩ => ?_⟩
      exact nomatch hfile.symm.trans (FileTree.isFile_iff.2 ⟨place, content, hfind⟩)
    | true =>
      obtain ⟨place, content, hfind⟩ := FileTree.isFile_iff.1 hfile
      rw [Bool.not_true, if_neg Bool.false_ne_true, FileTree.realPath_of_find hfind]
      constructor
      · intro h
        dsimp only at h
        cases htext : p.files.readText p.cwd (Place.path place) <;> rw [htext] at h
        · cases h
        · cases h
          exact ⟨rfl, place, ⟨content, hfind⟩, htext, rfl, rfl⟩
      · rintro ⟨-, place', ⟨content', hfind'⟩, htext, hid, hfilename⟩
        cases hfind.symm.trans hfind'
        obtain ⟨id, filename, source⟩ := m
        dsimp only at htext hid hfilename ⊢
        rw [htext, hid, hfilename]

/-- Whatever a question that is answered leads to is a file of the tree. -/
theorem entry?_of_file? (H : p.files.WellFormed) (hq : q.file? base p = some place) :
    ∃ content, p.files.entry? place = some (.file content) := by
  obtain ⟨content, hfind⟩ := file?_eq_some_iff.1 hq
  exact ⟨content, (H.entry?_of_find hfind).1⟩

/-- A question that leads to a text is answered, if the canonical path is not too long. -/
theorem answer_ofFiles_of_file {content : Bytes} {source : String} (H : p.files.WellFormed)
    (hspecifier : Path.isSpecifier q.specifier = true) (hq : q.file? base p = some place)
    (hentry : p.files.entry? place = some (.file content))
    (hsize : (Place.path place).utf8ByteSize < FileTree.maxPath)
    (htext : Text.decodeUtf8? content = some source) (questions : List Question) :
    (ofFiles base).answer p questions q = .ok ⟨Place.path place, Place.path place, source⟩ :=
  answer_ofFiles_iff.2 ⟨hspecifier, place, hq,
    FileTree.readText_eq_ok_iff.2 ⟨content, FileTree.readBytes_eq_ok_iff.2
      ⟨place, H.find_path hentry hsize p.cwd⟩, htext⟩, rfl, rfl⟩

/-- An id, asked for in turn, is answered with the module, as long as the files stay. -/
theorem answer_ofFiles_id (H : p.files.WellFormed) (h : (ofFiles base).answer p questions q = .ok m)
    {p' : Platform} (hp' : p'.files = p.files) (base' : String) (questions' : List Question)
    (dir : Option String) : (ofFiles base').answer p' questions' ⟨m.id, dir⟩ = .ok m := by
  obtain ⟨-, place, hplace, htext, hid, hfilename⟩ := answer_ofFiles_iff.1 h
  obtain ⟨content, hentry⟩ := entry?_of_file? H hplace
  obtain ⟨content', hread, htext'⟩ := FileTree.readText_eq_ok_iff.1 htext
  obtain ⟨place', hfind⟩ := FileTree.readBytes_eq_ok_iff.1 hread
  have hsize := (FileTree.find_eq_ok_iff.1 hfind).1
  have hpath (cwd : Place) := H.find_path hentry hsize cwd
  cases hfind.symm.trans (hpath p.cwd)
  have habsolute := Place.isAbsolute_path place
  refine answer_ofFiles_iff.2 ⟨hid ▸ Path.isSpecifier_of_isAbsolute habsolute, place,
    file?_eq_some_iff.2 ⟨content, ?_⟩, ?_, hid, hfilename⟩
  · rw [hid, hp', Path.beneath_of_isAbsolute habsolute]
    exact hpath p'.cwd
  · rw [hp']
    exact FileTree.readText_eq_ok_iff.2
      ⟨content, FileTree.readBytes_eq_ok_iff.2 ⟨place, hpath p'.cwd⟩, htext'⟩

/-- Files keep to their ids as long as they stay as they are. -/
theorem ofFiles_stable (H : t.WellFormed) (base : String) :
    (ofFiles base).Stable fun p => p.files = t := by
  rintro p questions q m rfl h p' questions' dir hp'
  exact answer_ofFiles_id H h hp' base questions' dir

/-! ### Sources -/

/-- Sources under absolute paths keep to their ids. -/
theorem ofSources_stable (base : String) {sources : Table String String}
    (habsolute : ∀ filename ∈ sources.keys, Path.isAbsolute filename = true) :
    (ofSources base sources).Stable fun _ => True := by
  rintro p questions q m - h p' questions' dir -
  simp only [ofSources] at h ⊢
  cases hspecifier : Path.isSpecifier q.specifier <;> rw [hspecifier] at h
  · cases h
  · rw [Bool.not_true, if_neg Bool.false_ne_true] at h
    generalize hfilename : Path.resolveFrom (q.dir.getD base) [q.specifier] = filename at h
    cases hsource : sources.get? filename <;> rw [hsource] at h
    · cases h
    · obtain rfl := Except.ok.inj h
      have hpath : Path.isAbsolute filename = true :=
        habsolute filename (Table.mem_keys_of_get? hsource)
      have hself : Path.resolveFrom (dir.getD base) [filename] = filename :=
        hfilename ▸ Path.resolveFrom_idem (hfilename ▸ hpath) (dir.getD base)
      rw [Path.isSpecifier_of_isAbsolute hpath, Bool.not_true, if_neg Bool.false_ne_true, hself,
        hsource]

end Resolver

end ScriptHost
