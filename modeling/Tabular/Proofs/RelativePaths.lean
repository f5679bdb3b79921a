import Tabular.Disk.Tree

/-!
# Paths seen from a directory

A path is its parts with slashes between them (`Path.unsplit_split`), and the parts of two
paths with a slash between them are those of the one and then those of the other
(`Path.split_append`). From this follows what joining a path to a directory means. The name of a
file that is joined to a directory has this directory as its own (`Path.parent_join`), and in
a file tree a relative path that is joined to a directory is walked from where the directory
lies (`FileTree.find_join`).

A path of names goes down only, step by step to what there is below the one before it
(`FileTree.lies_walk`). So at such a path just the file with these names is read
(`FileTree.read_eq_ok_iff`), and there is something iff a file lies there or below
(`FileTree.has_iff_of_names`).
-/

namespace Tabular

namespace Path

/-! ## Parts -/

theorem split_slash (s : List Char) : split ('/' :: s) = [] :: split s := by
  rw [split]
  rfl

theorem split_ne_nil (s : List Char) : split s ≠ [] := by
  cases s with
  | nil => nofun
  | cons c s =>
    rw [split]
    split <;> nofun

theorem split_cons {c : Char} (hc : c ≠ '/') {s part : List Char} {parts : List (List Char)}
    (h : split s = part :: parts) : split (c :: s) = (c :: part) :: parts := by
  have hslash : (c == '/') = false := beq_eq_false_iff_ne.mpr hc
  rw [split, h, hslash]

/-- A slash ends a part. -/
theorem split_append (a b : List Char) : split (a ++ '/' :: b) = split a ++ split b := by
  induction a with
  | nil => exact split_slash b
  | cons c a ih =>
    by_cases hc : c = '/'
    · rw [hc, List.cons_append, split_slash, split_slash, ih, List.cons_append]
    · obtain ⟨part, parts, ha⟩ := List.exists_cons_of_ne_nil (split_ne_nil a)
      rw [ha, List.cons_append] at ih
      rw [List.cons_append, split_cons hc ih, split_cons hc ha, List.cons_append]

theorem split_of_not_mem {s : List Char} (h : '/' ∉ s) : split s = [s] := by
  induction s with
  | nil => rfl
  | cons c s ih =>
    rw [List.mem_cons, not_or] at h
    exact split_cons (Ne.symm h.1) (ih h.2)

theorem unsplit_cons {part : List Char} {parts : List (List Char)} (h : parts ≠ []) :
    unsplit (part :: parts) = part ++ '/' :: unsplit parts := by
  cases parts with
  | nil => exact absurd rfl h
  | cons _ _ => rfl

/-- Nothing of a path is lost in its parts. -/
theorem unsplit_split (s : List Char) : unsplit (split s) = s := by
  induction s with
  | nil => rfl
  | cons c s ih =>
    by_cases hc : c = '/'
    · rw [hc, split_slash, unsplit_cons (split_ne_nil s), ih, List.nil_append]
    · obtain ⟨part, parts, hs⟩ := List.exists_cons_of_ne_nil (split_ne_nil s)
      rw [split_cons hc hs]
      rw [hs] at ih
      cases parts with
      | nil => exact congrArg (c :: ·) ih
      | cons _ _ => exact congrArg (c :: ·) ih

theorem exists_mem_split {c : Char} {s : List Char} (h : c ∈ s) (hc : c ≠ '/') :
    ∃ part ∈ split s, c ∈ part := by
  induction s with
  | nil => cases h
  | cons d s ih =>
    by_cases hd : d = '/'
    · rcases List.mem_cons.mp h with rfl | h
      · exact absurd hd hc
      · obtain ⟨part, hpart, hmem⟩ := ih h
        rw [hd, split_slash]
        exact ⟨part, List.mem_cons_of_mem _ hpart, hmem⟩
    · obtain ⟨first, parts, hs⟩ := List.exists_cons_of_ne_nil (split_ne_nil s)
      rw [split_cons hd hs]
      rcases List.mem_cons.mp h with rfl | h
      · exact ⟨c :: first, List.mem_cons_self, List.mem_cons_self⟩
      · obtain ⟨part, hpart, hmem⟩ := ih h
        rw [hs] at hpart
        rcases List.mem_cons.mp hpart with rfl | hpart
        · exact ⟨d :: part, List.mem_cons_self, List.mem_cons_of_mem _ hmem⟩
        · exact ⟨part, List.mem_cons_of_mem _ hpart, hmem⟩

/-! ## Joining -/

variable {directory path : String}

/-- An absolute path is the same from every directory. -/
theorem join_of_isAbsolute (h : isAbsolute path = true) : join directory path = path := by
  rw [join, h]
  rfl

theorem join_empty (path : String) : join "" path = path := by
  rw [join]
  simp

/-- A relative path stands behind its directory, and a slash between them. -/
theorem exists_toList_join (hd : directory ≠ "") (hpath : isAbsolute path = false) :
    ∃ front, (directory.toList = front ∧ front.getLast? ≠ some '/' ∨
        directory.toList = front ++ ['/']) ∧
      (join directory path).toList = front ++ '/' :: path.toList := by
  have hempty : directory.isEmpty = false := by
    rw [Bool.eq_false_iff]
    intro h
    exact hd (String.isEmpty_iff.mp h)
  rw [join, hpath, hempty]
  by_cases hslash : directory.toList.getLast? = some '/'
  · obtain ⟨front, hfront⟩ := List.getLast?_eq_some_iff.mp hslash
    refine ⟨front, .inr hfront, ?_⟩
    simp [hfront]
  · refine ⟨directory.toList, .inl ⟨rfl, hslash⟩, ?_⟩
    simp [hslash]

theorem exists_join_eq_append (hd : directory ≠ "") (hpath : isAbsolute path = false) :
    ∃ behind, join directory path = directory ++ behind := by
  obtain ⟨front, hfront, hjoin⟩ := exists_toList_join hd hpath
  rcases hfront with ⟨hfront, -⟩ | hfront
  · refine ⟨String.ofList ('/' :: path.toList), ?_⟩
    rw [← String.toList_inj, hjoin, String.toList_append, String.toList_ofList, hfront]
  · refine ⟨path, ?_⟩
    rw [← String.toList_inj, hjoin, String.toList_append, hfront, List.append_assoc,
      List.singleton_append]

theorem isAbsolute_append (hd : directory ≠ "") (behind : String) :
    isAbsolute (directory ++ behind) = isAbsolute directory := by
  obtain ⟨c, r, hchars⟩ := List.exists_cons_of_ne_nil (mt String.toList_eq_nil_iff.mp hd)
  rw [isAbsolute, isAbsolute, String.toList_append, hchars, List.cons_append, List.head?_cons,
    List.head?_cons]

/-! ## The directory of a file -/

/-- A part that names a file or a directory inside of the directory that is reached. -/
structure Name (part : List Char) : Prop where
  visible : part ≠ [] ∧ part ≠ ['.'] ∧ part ≠ ['.', '.']
  whole : '/' ∉ part ∧ '\x00' ∉ part
  short : (String.ofList part).utf8ByteSize ≤ 255

/-- A directory in its shortest spelling: the root, or one that does not end in parts without
meaning. -/
def Tidy (directory : String) : Prop :=
  directory = "/" ∨ dropEmptyEnd (split directory.toList) = split directory.toList

/-- A path of names, which goes down only. -/
def Names (path : String) : Prop := ∀ part ∈ split path.toList, Name part

theorem Name.names (h : Name path.toList) : Names path := by
  rw [Names, split_of_not_mem h.whole.1]
  intro part hpart
  rw [List.mem_singleton.mp hpart]
  exact h

theorem Names.ne_empty (h : Names path) : path ≠ "" := by
  rintro rfl
  exact (h [] List.mem_cons_self).visible.1 rfl

theorem Names.isAbsolute (h : Names path) : Path.isAbsolute path = false := by
  rw [Path.isAbsolute, beq_eq_false_iff_ne]
  intro hslash
  obtain ⟨rest, hrest⟩ := List.head?_eq_some_iff.mp hslash
  rw [Names, hrest, split_slash] at h
  exact (h [] List.mem_cons_self).visible.1 rfl

theorem Names.null_not_mem (h : Names path) : '\x00' ∉ path.toList := by
  intro hnull
  obtain ⟨part, hpart, hmem⟩ := exists_mem_split hnull (by decide)
  exact (h part hpart).whole.2 hmem

/-- Below a directory that is reached by names, the parts are those of both paths. -/
theorem Names.split_join (hd : Names directory) (hpath : Path.isAbsolute path = false) :
    split (join directory path).toList = split directory.toList ++ split path.toList := by
  obtain ⟨front, hfront, hjoin⟩ := exists_toList_join hd.ne_empty hpath
  rcases hfront with ⟨hfront, -⟩ | hfront
  · rw [hjoin, split_append, hfront]
  · rw [Names, hfront, split_append] at hd
    exact absurd rfl (hd [] (List.mem_append_right _ List.mem_cons_self)).visible.1

theorem Names.join (hd : Names directory) (hpath : Names path) : Names (join directory path) := by
  intro part hpart
  rw [hd.split_join hpath.isAbsolute, List.mem_append] at hpart
  exact hpart.elim (hd part) (hpath part)

theorem dropEmptyEnd_append {part : List Char} (hpart : Name part) (parts : List (List Char)) :
    dropEmptyEnd (parts ++ [part]) = parts ++ [part] := by
  obtain ⟨hempty, hdot, -⟩ := hpart.visible
  cases parts with
  | nil => rfl
  | cons first parts => simp [dropEmptyEnd, hempty, hdot]

theorem Names.tidy (h : Names path) : Tidy path := by
  have hne := split_ne_nil path.toList
  have hlast := dropEmptyEnd_append (h _ (List.getLast_mem hne)) (split path.toList).dropLast
  rw [List.dropLast_concat_getLast hne] at hlast
  exact .inr hlast

/-- An empty part at the end, behind others, is dropped. -/
theorem dropEmptyEnd_append_empty {parts : List (List Char)} (hne : parts ≠ []) :
    dropEmptyEnd (parts ++ [[]]) ≠ parts ++ [[]] := by
  obtain ⟨first, parts, rfl⟩ := List.exists_cons_of_ne_nil hne
  have hlength := (List.dropWhile_sublist fun p => p = [] || p = ['.'] :
    (parts.reverse.dropWhile fun p => p = [] || p = ['.']).Sublist parts.reverse).length_le
  intro h
  have heq := congrArg List.length h
  simp [dropEmptyEnd] at heq hlength
  omega

theorem parent_of_split {path : String} {name : List Char} (parts : List (List Char))
    (hname : Name name) (h : split path.toList = parts ++ [name]) :
    parent path = if dropEmptyEnd parts = [[]] then "/"
      else String.ofList (unsplit (dropEmptyEnd parts)) := by
  have hne : parts ++ [name] ≠ [[]] := by
    intro heq
    have hlast := congrArg List.getLast? heq
    rw [List.getLast?_concat] at hlast
    exact hname.visible.1 (Option.some.inj hlast)
  simp only [parent, h, dropEmptyEnd_append hname, if_neg hne, List.dropLast_concat]

/-- **The directory of a file is the directory that its name was joined to.** -/
theorem parent_join {directory name : String} (hd : Tidy directory) (hname : Name name.toList) :
    parent (join directory name) = directory := by
  have hsplit := split_of_not_mem hname.whole.1
  by_cases hempty : directory = ""
  · rw [hempty, join_empty, parent_of_split [] hname hsplit]
    rfl
  obtain ⟨front, hfront, hjoin⟩ := exists_toList_join hempty hname.names.isAbsolute
  rw [parent_of_split _ hname (by rw [hjoin, split_append, hsplit])]
  rcases hfront with ⟨hfront, hend⟩ | hfront
  · rcases hd with rfl | hd
    · exact absurd hfront.symm (by rintro rfl; exact hend rfl)
    · have hne : split directory.toList ≠ [[]] := by
        intro h
        have hnil := unsplit_split directory.toList
        rw [h] at hnil
        exact hempty (String.toList_eq_nil_iff.mp hnil.symm)
      rw [← hfront, hd, if_neg hne, unsplit_split, String.ofList_toList]
  · rcases hd with rfl | hd
    · obtain rfl : front = [] := by simpa using hfront
      rfl
    · rw [hfront, split_append] at hd
      exact absurd hd (dropEmptyEnd_append_empty (split_ne_nil front))

end Path

namespace FileTree

variable {t : FileTree}

/-! ## Walking on from a directory -/

/-- An empty part goes nowhere, and from a file no part leads on. -/
theorem foldlM_step_empty (t : FileTree) (place : Place) {parts : List (List Char)}
    (hne : parts ≠ []) :
    (do let next ← t.step place []; parts.foldlM t.step next) = parts.foldlM t.step place := by
  cases place with
  | file text =>
    obtain ⟨part, parts, rfl⟩ := List.exists_cons_of_ne_nil hne
    rfl
  | outside | directory path => rfl

theorem find_of_readable {path : String} (hne : path ≠ "") (hlength : path.utf8ByteSize < 4096)
    (hnull : '\x00' ∉ path.toList) :
    t.find path = (Path.split path.toList).foldlM t.step
      (if Path.isAbsolute path then .outside else .directory []) := by
  have hempty : ¬ path.isEmpty = true := mt String.isEmpty_iff.mp hne
  have hcontains : ¬ path.toList.contains '\x00' = true := mt List.contains_iff_mem.mp hnull
  rw [find, if_neg hempty, if_neg (Nat.not_le.mpr hlength), if_neg hcontains]

/-- **A relative path is walked from where its directory lies**, if it is not too long. -/
theorem find_join (t : FileTree) {directory path : String} (hd : directory ≠ "")
    (hpath : Path.isAbsolute path = false)
    (hlength : (Path.join directory path).utf8ByteSize < 4096)
    (hnull : '\x00' ∉ (Path.join directory path).toList) :
    t.find (Path.join directory path) =
      (do let place ← t.find directory; (Path.split path.toList).foldlM t.step place) := by
  obtain ⟨behind, hbehind⟩ := Path.exists_join_eq_append hd hpath
  have hparts : ∀ start, (Path.split (Path.join directory path).toList).foldlM t.step start =
      (do
        let place ← (Path.split directory.toList).foldlM t.step start
        (Path.split path.toList).foldlM t.step place) := by
    intro start
    obtain ⟨front, hfront, hjoin⟩ := Path.exists_toList_join hd hpath
    rw [hjoin, Path.split_append, List.foldlM_append]
    rcases hfront with ⟨hfront, -⟩ | hfront
    · rw [hfront]
    · have hslash : Path.split directory.toList = Path.split front ++ [[]] := by
        rw [hfront]
        exact Path.split_append front []
      rw [hslash, List.foldlM_append, bind_assoc]
      refine bind_congr fun place => ?_
      rw [List.foldlM_cons, bind_assoc]
      simp only [List.foldlM_nil, pure_bind]
      exact (foldlM_step_empty t place (Path.split_ne_nil path.toList)).symm
  have hne : Path.join directory path ≠ "" := by
    intro h
    rw [h] at hbehind
    exact hd (String.append_eq_empty_iff.mp hbehind.symm).1
  rw [find_of_readable hne hlength hnull, hparts]
  rw [hbehind, String.utf8ByteSize_append] at hlength
  rw [hbehind, String.toList_append, List.mem_append, not_or] at hnull
  rw [find_of_readable hd (by omega) hnull.1, hbehind, Path.isAbsolute_append hd]

/-! ## Reading files -/

/-- No file lies under another, and none has two texts. -/
def Sound (t : FileTree) : Prop := ∀ f ∈ t.files, ∀ g ∈ t.files, f.1 <+: g.1 → f = g

variable {path parts : List (List Char)} {part : List Char} {text : String}

theorem step_name (hpart : Path.Name part) : t.step (.directory path) part = t.enter path part := by
  obtain ⟨hempty, hdot, hdots⟩ := hpart.visible
  simp [step, hempty, hdot, hdots]

/-- What there is at a path below the top of a tree. -/
inductive Lies (t : FileTree) (path : List (List Char)) : Except ReadFault Place → Prop
  | file {text : String} (h : (path, text) ∈ t.files) : Lies t path (.ok (.file text))
  | directory {f : List (List Char) × String} (hno : ∀ text, (path, text) ∉ t.files)
      (hf : f ∈ t.files) (h : path <+: f.1) : Lies t path (.ok (.directory path))
  | nothing {fault : ReadFault} (h : ∀ f ∈ t.files, ¬ path <+: f.1) : Lies t path (.error fault)

/-- A name leads to what there is at it. -/
theorem lies_step (t : FileTree) (path : List (List Char)) (hpart : Path.Name part) :
    t.Lies (path ++ [part]) (t.step (.directory path) part) := by
  rw [step_name hpart, enter, if_neg (Nat.not_lt.mpr hpart.short)]
  cases hfind : t.files.find? fun f => f.1 == path ++ [part] with
  | some f =>
    have hmem := List.mem_of_find?_eq_some hfind
    have hkey := List.find?_some hfind
    rw [← eq_of_beq hkey]
    exact .file hmem
  | none =>
    have hno : ∀ text, (path ++ [part], text) ∉ t.files := by
      intro text hmem
      exact absurd BEq.rfl (List.find?_eq_none.mp hfind _ hmem)
    cases hany : t.files.any fun f => (path ++ [part]).isPrefixOf f.1 with
    | true =>
      obtain ⟨f, hf, hprefix⟩ := List.any_eq_true.mp hany
      exact .directory hno hf (List.isPrefixOf_iff_prefix.mp hprefix)
    | false =>
      refine .nothing ?_
      intro f hf hprefix
      exact List.any_eq_false.mp hany f hf (List.isPrefixOf_iff_prefix.mpr hprefix)

/-- **Names lead to what there is at them**, however many they are. -/
theorem lies_walk (ht : t.Sound) (path : List (List Char)) (hne : parts ≠ [])
    (hnames : ∀ part ∈ parts, Path.Name part) :
    t.Lies (path ++ parts) (parts.foldlM t.step (.directory path)) := by
  induction parts generalizing path with
  | nil => exact absurd rfl hne
  | cons part parts ih =>
    obtain ⟨hpart, hparts⟩ := List.forall_mem_cons.mp hnames
    have hcons : path ++ part :: parts = (path ++ [part]) ++ parts := by
      rw [List.append_assoc, List.singleton_append]
    have hstep := t.lies_step path hpart
    rw [List.foldlM_cons, hcons]
    generalize t.step (.directory path) part = next at hstep
    cases hstep with
    | file hfile =>
      cases parts with
      | nil =>
        rw [List.append_nil]
        exact .file hfile
      | cons below parts =>
        -- Nothing lies below a file.
        refine .nothing ?_
        intro f hf hprefix
        have hsame := ht _ hfile f hf ((List.prefix_append _ _).trans hprefix)
        rw [← hsame] at hprefix
        have hlength := hprefix.length_le
        simp at hlength
    | directory hno hf hprefix =>
      cases parts with
      | nil =>
        rw [List.append_nil]
        exact .directory hno hf hprefix
      | cons below parts => exact ih _ (List.cons_ne_nil below parts) hparts
    | nothing hnothing =>
      refine .nothing ?_
      intro f hf hprefix
      exact hnothing f hf ((List.prefix_append _ _).trans hprefix)

theorem lies_find (ht : t.Sound) {path : String} (h : Path.Names path)
    (hlength : path.utf8ByteSize < 4096) : t.Lies (Path.split path.toList) (t.find path) := by
  rw [find_of_readable h.ne_empty hlength h.null_not_mem, h.isAbsolute, if_neg Bool.false_ne_true]
  exact lies_walk ht [] (Path.split_ne_nil path.toList) h

/-- **At a path of names exactly the file with these names is read.** -/
theorem read_eq_ok_iff (ht : t.Sound) {path text : String} (h : Path.Names path)
    (hlength : path.utf8ByteSize < 4096) :
    t.read path = .ok text ↔ (Path.split path.toList, text) ∈ t.files := by
  have hlies := lies_find ht h hlength
  unfold read
  generalize t.find path = found at hlies
  cases hlies with
  | file hfile =>
    constructor
    · intro hread
      cases hread
      exact hfile
    · intro hother
      cases ht _ hfile _ hother (List.prefix_refl _)
      rfl
  | directory hno _ _ =>
    constructor
    · intro hread
      cases hread
    · intro hfile
      exact absurd hfile (hno text)
  | nothing hnothing =>
    constructor
    · intro hread
      cases hread
    · intro hfile
      exact absurd (List.prefix_refl _) (hnothing _ hfile)

/-- **A relative path names the file that lies below the directory.** -/
theorem read_join_eq_ok_iff (ht : t.Sound) {directory path text : String}
    (hd : Path.Names directory) (h : Path.Names path)
    (hlength : (Path.join directory path).utf8ByteSize < 4096) :
    t.read (Path.join directory path) = .ok text ↔
      (Path.split directory.toList ++ Path.split path.toList, text) ∈ t.files := by
  rw [read_eq_ok_iff ht (hd.join h) hlength, hd.split_join h.isAbsolute]

/-! ## What is there -/

/-- A fault that says that nothing is there. -/
def Misses (fault : ReadFault) : Prop := fault ≠ .isDirectory ∧ fault ≠ .notUtf8

theorem misses_of_step {place : Place} {fault : ReadFault} (h : t.step place part = .error fault) :
    Misses fault := by
  cases place with
  | file text =>
    cases h
    exact ⟨nofun, nofun⟩
  | outside =>
    rw [step] at h
    split at h
    · cases h
    · cases h
      exact ⟨nofun, nofun⟩
  | directory path =>
    rw [step] at h
    split at h
    · cases h
    split at h
    · split at h <;> cases h
    rw [enter] at h
    split at h
    · cases h
      exact ⟨nofun, nofun⟩
    split at h
    · cases h
    split at h
    · cases h
    · cases h
      exact ⟨nofun, nofun⟩

theorem misses_of_foldlM {place : Place} {fault : ReadFault}
    (h : parts.foldlM t.step place = .error fault) : Misses fault := by
  induction parts generalizing place with
  | nil => cases h
  | cons part parts ih =>
    rw [List.foldlM_cons] at h
    cases hstep : t.step place part with
    | error fault' =>
      rw [hstep] at h
      cases h
      exact misses_of_step hstep
    | ok next =>
      rw [hstep] at h
      exact ih h

/-- Walking along a path fails only where nothing is. -/
theorem misses_of_find {path : String} {fault : ReadFault} (h : t.find path = .error fault) :
    Misses fault := by
  unfold find at h
  split at h
  · cases h
    exact ⟨nofun, nofun⟩
  split at h
  · cases h
    exact ⟨nofun, nofun⟩
  split at h
  · cases h
    exact ⟨nofun, nofun⟩
  · exact misses_of_foldlM h

/-- There is something at a path iff walking along it leads to a place. -/
theorem has_disk_iff (t : FileTree) (path : String) :
    t.disk.has path = true ↔ ∃ place, t.find path = .ok place := by
  unfold Disk.has disk read
  cases hfind : t.find path with
  | error fault =>
    obtain ⟨hdirectory, hutf8⟩ := misses_of_find hfind
    cases fault <;> simp_all [bind, Except.bind]
  | ok place => cases place <;> simp [hfind, bind, Except.bind]

/-- **At a path of names there is something iff a file lies there or below.** -/
theorem has_iff_of_names (ht : t.Sound) {path : String} (h : Path.Names path)
    (hlength : path.utf8ByteSize < 4096) :
    t.disk.has path = true ↔ ∃ f ∈ t.files, Path.split path.toList <+: f.1 := by
  have hlies := lies_find ht h hlength
  rw [has_disk_iff]
  generalize t.find path = found at hlies
  cases hlies with
  | file hfile =>
    constructor
    · intro _
      exact ⟨_, hfile, List.prefix_refl _⟩
    · intro _
      exact ⟨_, rfl⟩
  | directory _ hf hprefix =>
    constructor
    · intro _
      exact ⟨_, hf, hprefix⟩
    · intro _
      exact ⟨_, rfl⟩
  | nothing hnothing =>
    constructor
    · rintro ⟨place, hplace⟩
      cases hplace
    · rintro ⟨f, hf, hprefix⟩
      exact absurd hprefix (hnothing f hf)

end FileTree

end Tabular
