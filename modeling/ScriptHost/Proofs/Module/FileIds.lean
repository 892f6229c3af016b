import ScriptHost.Proofs.Module.Resolution

/-!
# The ids of files

A file may be named in many ways: by relative and absolute paths, from many directories, along links
to files and to directories. The resolver of files answers each of them with the one canonical path
of the file. So a runtime that resolves modules from files evaluates each file under one id, as long
as the files stay as they are.

## Main definitions

* `World.EvaluatesFile`: a file begins to be evaluated.

## Main results

* `Resolver.id_eq_iff`: ids are equal exactly if the files are the same.
* `World.began_file`: a module that begins to be evaluated is a file under its canonical path.
* `World.fileIds_canonical`: the ids of files are canonical.
-/

namespace ScriptHost

variable {t : FileTree} {base base' : String} {p p' : Platform} {q q' : Question}
  {questions questions' : List Question} {m m' : ResolvedModule} {place place' : Place}

namespace Resolver

/-- The id of a file has its place. -/
theorem exists_file_of_answer (h : (ofFiles base).answer p questions q = .ok m) :
    ∃ place, q.file? base p = some place ∧ m.id = Place.path place := by
  obtain ⟨-, place, hplace, -, hid, -⟩ := answer_ofFiles_iff.1 h
  exact ⟨place, hplace, hid⟩

/-- The ids of files are equal exactly if the files are the same. -/
theorem path_eq_iff_of_file? (H : t.WellFormed) (hp : p.files = t) (hp' : p'.files = t)
    (hq : q.file? base p = some place) (hq' : q'.file? base' p' = some place') :
    Place.path place = Place.path place' ↔ place = place' := by
  subst hp
  obtain ⟨content, hentry⟩ := entry?_of_file? H hq
  obtain ⟨content', hentry'⟩ := entry?_of_file? (hp' ▸ H) hq'
  rw [hp'] at hentry'
  exact ⟨Place.path_injective (H.names_of_entry hentry) (H.names_of_entry hentry'),
    congrArg Place.path⟩

end Resolver

namespace World

variable {E : Engine} {w w' : World E} {move move' : Move E} {l l' : Loading E.Value}
  {id : RuntimeId}

/-- A runtime, if it is there, resolves modules from the files of a tree. -/
def ResolvesFiles (id : RuntimeId) (base : String) (t : FileTree) (w : World E) : Prop :=
  ∀ r, w.host.runtimes.get? id = some r →
    r.resolver = .ofFiles base ∧ w.host.platform.files = t

/-- A file begins to be evaluated in a move: the question of the move leads to it. -/
def EvaluatesFile (w : World E) (m : Move E) (base : String) (l : Loading E.Value)
    (place : Place) : Prop :=
  w.moduleEvent? m = some (.began l) ∧
    ∃ q, w.question? m = some (l.owner, q) ∧ q.file? base w.host.platform = some place

/-- What begins to be evaluated is what the resolver of files has answered with. -/
theorem began_answered_file (hw : w.ResolvesFiles l.owner base t)
    (he : w.moduleEvent? move = some (.began l)) :
    ∃ q place, w.question? move = some (l.owner, q) ∧
      q.file? base w.host.platform = some place ∧ l.id = Place.path place ∧
      w.host.platform.files = t := by
  obtain ⟨q, m, hq, ⟨status, questions, hs, hanswer⟩, hid, -⟩ := began_answered he
  obtain ⟨r, hr, rfl⟩ := Option.map_eq_some_iff.1 hs
  obtain ⟨hresolver, hfiles⟩ := hw r hr
  change r.resolver.answer _ _ _ = _ at hanswer
  rw [hresolver] at hanswer
  obtain ⟨place, hplace, hpath⟩ := Resolver.exists_file_of_answer hanswer
  exact ⟨q, place, hq, hplace, hid.trans hpath, hfiles⟩

theorem exists_evaluatesFile (hw : w.ResolvesFiles l.owner base t)
    (he : w.moduleEvent? move = some (.began l)) : ∃ place, w.EvaluatesFile move base l place := by
  obtain ⟨q, place, hq, hplace, -⟩ := began_answered_file hw he
  exact ⟨place, he, q, hq, hplace⟩

/-- A file is evaluated under its canonical path. -/
theorem EvaluatesFile.id_eq (H : w.EvaluatesFile move base l place)
    (hw : w.ResolvesFiles l.owner base t) : l.id = Place.path place ∧ w.host.platform.files = t := by
  obtain ⟨he, q, hq, hplace⟩ := H
  obtain ⟨q', place', hq', hplace', hid, hfiles⟩ := began_answered_file hw he
  obtain rfl : q = q' := (Prod.mk.inj (Option.some.inj (hq.symm.trans hq'))).2
  obtain rfl : place = place' := Option.some.inj (hplace.symm.trans hplace')
  exact ⟨hid, hfiles⟩

/-- What is evaluated has one id exactly if it is one file. -/
theorem EvaluatesFile.id_eq_iff (H : t.WellFormed) (hl : w.EvaluatesFile move base l place)
    (hl' : w'.EvaluatesFile move' base' l' place') (hw : w.ResolvesFiles l.owner base t)
    (hw' : w'.ResolvesFiles l'.owner base' t) : l.id = l'.id ↔ place = place' := by
  obtain ⟨hid, hfiles⟩ := hl.id_eq hw
  obtain ⟨hid', hfiles'⟩ := hl'.id_eq hw'
  obtain ⟨-, q, -, hplace⟩ := hl
  obtain ⟨-, q', -, hplace'⟩ := hl'
  rw [hid, hid']
  exact Resolver.path_eq_iff_of_file? H hfiles hfiles' hplace hplace'

/-- The ids of files are canonical, in a tree with links as well. Whatever a question is answered
with has an id without detours and links, under which it is answered with again from everywhere; and
two answers have one id exactly if the questions lead to one file. So a runtime that resolves modules
from files evaluates each of them under one id along every run, as long as they stay as they are: what
begins to be evaluated is the file that the question leads to, the ids are equal exactly if the files
are, and no module is loaded twice. -/
theorem fileIds_canonical (t : FileTree) (H : t.WellFormed) :
    (∀ base p questions q m, p.files = t → (Resolver.ofFiles base).answer p questions q = .ok m →
      t.IsCanonical m.id ∧ ∀ base' p' questions' dir, p'.files = t →
        (Resolver.ofFiles base').answer p' questions' ⟨m.id, dir⟩ = .ok m) ∧
      (∀ base base' p p' questions questions' q q' m m', p.files = t → p'.files = t →
        (Resolver.ofFiles base).answer p questions q = .ok m →
        (Resolver.ofFiles base').answer p' questions' q' = .ok m' →
          ∃ place place', q.file? base p = some place ∧ q'.file? base' p' = some place' ∧
            (m.id = m'.id ↔ place = place')) ∧
      ∀ (engines : E.State) platform profiles id base ms,
        (initial engines platform profiles).Along (fun w _ => w.ResolvesFiles id base t) ms →
        (initial engines platform profiles).Along (fun w m => ∀ l,
            w.moduleEvent? m = some (.began l) → l.owner = id →
              ∃ place, w.EvaluatesFile m base l place) ms ∧
          (∀ ms₁ m₁ ms₂ m₂ l₁ l₂ place₁ place₂, ms₁ ++ [m₁] <+: ms → ms₂ ++ [m₂] <+: ms →
            l₁.owner = id → l₂.owner = id →
            ((initial engines platform profiles).run ms₁).EvaluatesFile m₁ base l₁ place₁ →
            ((initial engines platform profiles).run ms₂).EvaluatesFile m₂ base l₂ place₂ →
              (l₁.id = l₂.id ↔ place₁ = place₂)) ∧
          ((completed (record moduleEvents (initial engines platform profiles) ms)).map
            Loading.key).Nodup := by
  refine ⟨fun base p questions q m hp hm => ⟨?_, fun base' p' questions' dir hp' => ?_⟩,
    fun base base' p p' questions questions' q q' m m' hp hp' hm hm' => ?_,
    fun engines platform profiles id base ms hfiles => ⟨?_, ?_, ?_⟩⟩
  · subst hp
    obtain ⟨place, hplace, hid⟩ := Resolver.exists_file_of_answer hm
    obtain ⟨content, hentry⟩ := Resolver.entry?_of_file? H hplace
    exact hid ▸ H.isCanonical_path hentry
  · subst hp
    exact Resolver.answer_ofFiles_id H hm hp' base' questions' dir
  · obtain ⟨place, hplace, hid⟩ := Resolver.exists_file_of_answer hm
    obtain ⟨place', hplace', hid'⟩ := Resolver.exists_file_of_answer hm'
    refine ⟨place, place', hplace, hplace', ?_⟩
    rw [hid, hid']
    exact Resolver.path_eq_iff_of_file? H hp hp' hplace hplace'
  · refine hfiles.mono fun w m hw l hl howner => ?_
    exact exists_evaluatesFile (howner ▸ hw) hl
  · rintro ms₁ m₁ ms₂ m₂ l₁ l₂ place₁ place₂ hms₁ hms₂ rfl howner h₁ h₂
    exact h₁.id_eq_iff H h₂ (hfiles.at_prefix hms₁) (howner ▸ hfiles.at_prefix hms₂)
  · have hnodup := ((ModulesAgree.initial engines platform profiles).run ms).nodup
    rw [List.map_append] at hnodup
    exact (List.nodup_append.1 hnodup).2.1

/-- A file, a link that leads to its directory, and a link that leads to the file by way of that. -/
def linkTree : FileTree := ⟨⟨[(["lib"], .directory), (["lib", "b.js"], .file (Text.encodeUtf8 "[]")),
  (["link"], .link "lib"), (["alias.js"], .link "link/b.js"), (["loop"], .link "loop")]⟩⟩

/-- A question that leads to the file by its link. -/
def aliasQuestion : Question := ⟨"../alias.js", some "/lib"⟩

theorem linkTree_wellFormed : linkTree.WellFormed := by decide +kernel

/-- It is walked into the directory and out of it, and then along both links. -/
theorem linkTree_walk : linkTree.walk .target 40 [] ["lib", "..", "alias.js"] =
    .ok (.found ["lib", "b.js"] (.file (Text.encodeUtf8 "[]"))) := by
  have hname : ∀ s ∈ ["lib", "alias.js", "link", "b.js"], FileTree.IsName s := by decide +kernel
  have hlib : linkTree.entry? ([] ++ ["lib"]) = some .directory := by decide +kernel
  have halias : linkTree.entry? ([] ++ ["alias.js"]) = some (.link "link/b.js") := by decide +kernel
  have hlink : linkTree.entry? ([] ++ ["link"]) = some (.link "lib") := by decide +kernel
  calc
    _ = linkTree.walk .target 40 ["lib"] ["..", "alias.js"] :=
      FileTree.walk_directory (hname _ (by simp)) hlib
    _ = linkTree.walk .target 40 [] ["alias.js"] := FileTree.walk_above
    _ = linkTree.walk .target 39 [] ["link", "b.js"] :=
      FileTree.walk_link (hname _ (by simp)) halias rfl
    _ = linkTree.walk .target 38 [] ["lib", "b.js"] :=
      FileTree.walk_link (hname _ (by simp)) hlink rfl
    _ = linkTree.walk .target 38 ["lib"] ["b.js"] :=
      FileTree.walk_directory (hname _ (by simp)) hlib
    _ = _ := FileTree.walk_file (hname _ (by simp)) (by decide +kernel)

theorem aliasQuestion_answered (hp : p.files = linkTree) :
    aliasQuestion.file? "/" p = some ["lib", "b.js"] ∧
      ∀ questions, (Resolver.ofFiles "/").answer p questions aliasQuestion =
        .ok ⟨"/lib/b.js", "/lib/b.js", "[]"⟩ := by
  have hpath : Path.beneath (aliasQuestion.dir.getD "/") aliasQuestion.specifier =
      "/lib/../alias.js" := by decide +kernel
  have hsteps : FileTree.steps "/lib/../alias.js" = ["lib", "..", "alias.js"] := by decide +kernel
  have hfind : p.files.find p.cwd "/lib/../alias.js" =
      .ok (["lib", "b.js"], .file (Text.encodeUtf8 "[]")) :=
    FileTree.find_eq_ok_iff.2 ⟨by decide +kernel, [], rfl, hp ▸ hsteps ▸ linkTree_walk⟩
  have hfile : aliasQuestion.file? "/" p = some ["lib", "b.js"] :=
    Resolver.file?_eq_some_iff.2 ⟨_, hpath ▸ hfind⟩
  have H : p.files.WellFormed := hp ▸ linkTree_wellFormed
  exact ⟨hfile, Resolver.answer_ofFiles_of_file H (by decide +kernel) hfile
    (H.entry?_of_find hfind).1 (by decide +kernel) (by decide +kernel)⟩

/-- A runtime that resolves modules from that tree is attached. -/
def linkWorld : World Script.engine :=
  (ofForms { files := linkTree }).run [.attach 0 {} (.ofFiles "/")]

/-- The file is loaded by its link. -/
def linkLoad : Move Script.engine := .start (.require 0 ⟨1⟩ aliasQuestion none)

theorem linkWorld_resolvesFiles : linkWorld.ResolvesFiles ⟨1⟩ "/" linkTree := by
  have hrows : linkWorld.host.platform.files.entries.rows = linkTree.entries.rows := by
    decide +kernel
  have hext (t t' : FileTree) (h : t.entries.rows = t'.entries.rows) : t = t' := by
    obtain ⟨⟨rows⟩⟩ := t
    exact congrArg (fun rows => (⟨⟨rows⟩⟩ : FileTree)) h
  exact fun r hr =>
    ⟨run_attach_resolver (w := ofForms { files := linkTree }) rfl rfl (by decide +kernel) [] hr,
      hext _ _ hrows⟩

/-- The evaluation of the file begins at once. -/
theorem linkLoad_began : ∃ l, linkWorld.moduleEvent? linkLoad = some (.began l) ∧ l.owner = ⟨1⟩ := by
  have hruntime : (linkWorld.host.runtimes.get? ⟨1⟩).any fun r =>
      decide (aliasQuestion.specifier ∉ r.modules.natives.keys) && r.modules.cached.keys.isEmpty &&
        r.modules.loading.keys.isEmpty &&
        (Loading.objects ⟨1⟩ ⟨"/lib/b.js", "/lib/b.js", "[]"⟩ r.requireFunction 0
          linkWorld.host.engines).1.isOk := by
    decide +kernel
  have hfiles := linkWorld_resolvesFiles
  have hevent : linkWorld.moduleEvent? linkLoad =
      Loading.event? ⟨1⟩ aliasQuestion 0 linkWorld.host := rfl
  rw [hevent]
  unfold ResolvesFiles at hfiles
  generalize linkWorld.host = h at hruntime hfiles
  obtain ⟨r, hr, hfacts⟩ := (Option.any_eq_true _ _).1 hruntime
  simp only [Bool.and_eq_true, decide_eq_true_eq, List.isEmpty_iff] at hfacts
  obtain ⟨⟨⟨hnative, hcached⟩, hloading⟩, hobjects⟩ := hfacts
  obtain ⟨hresolver, hplatform⟩ := hfiles r hr
  have hnew {α : Type} {t : Table String α} (ht : t.keys = []) (s : String) : t.get? s = none :=
    Table.get?_eq_none_iff.2 (ht ▸ List.not_mem_nil)
  refine Loading.exists_began hr ⟨Table.get?_eq_none_iff.2 hnative, hnew hcached _, ?_⟩
    (hnew hcached _) (hnew hloading _) hobjects
  rw [hresolver]
  exact (aliasQuestion_answered hplatform).2 r.questions

/-- The question is answered with the canonical path of the file. This path leads to it as well, and
the file begins to be evaluated under this path. -/
theorem linkTree_ids :
    linkTree.IsCanonical "/lib/b.js" ∧
      (∃ place, aliasQuestion.file? "/" { files := linkTree } = some place ∧
        Question.file? "/" { files := linkTree } ⟨"/lib/b.js", none⟩ = some place) ∧
      ∃ l, linkWorld.EvaluatesFile linkLoad "/" l ["lib", "b.js"] ∧ l.id = "/lib/b.js" := by
  obtain ⟨hcanonical, hids, hruns⟩ :=
    fileIds_canonical (E := Script.engine) linkTree linkTree_wellFormed
  have halias := (aliasQuestion_answered (p := { files := linkTree }) rfl).2 []
  obtain ⟨hid, hagain⟩ := hcanonical "/" _ [] _ _ rfl halias
  refine ⟨hid, ?_, ?_⟩
  · obtain ⟨place, place', hplace, hplace', hiff⟩ :=
      hids "/" "/" _ _ [] [] _ _ _ _ rfl rfl halias (hagain "/" { files := linkTree } [] none rfl)
    obtain rfl := hiff.1 rfl
    exact ⟨place, hplace, hplace'⟩
  · obtain ⟨l, hl, howner⟩ := linkLoad_began
    have hfiles : (ofForms { files := linkTree }).Along
        (fun w _ => w.ResolvesFiles ⟨1⟩ "/" linkTree) [.attach 0 {} (.ofFiles "/"), linkLoad] :=
      ⟨nofun, linkWorld_resolvesFiles, trivial⟩
    have hevaluates : ∃ place, linkWorld.EvaluatesFile linkLoad "/" l place :=
      (hruns _ _ _ _ _ _ hfiles).1.2.1 l hl howner
    obtain ⟨place, hplace⟩ := hevaluates
    obtain ⟨hpath, hunchanged⟩ := hplace.id_eq (howner ▸ linkWorld_resolvesFiles)
    obtain ⟨-, q, hq, hfile⟩ := hplace
    obtain rfl : aliasQuestion = q := congrArg Prod.snd (Option.some.inj hq)
    obtain rfl : ["lib", "b.js"] = place :=
      Option.some.inj ((aliasQuestion_answered hunchanged).1.symm.trans hfile)
    exact ⟨l, ⟨hl, aliasQuestion, hq, hfile⟩, hpath.trans (by decide +kernel)⟩

end World

end ScriptHost
