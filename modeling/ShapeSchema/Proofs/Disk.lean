import Mathlib.Tactic.SplitIfs
import ShapeSchema.CommandLine.Disk
import ShapeSchema.Proofs.Dict
import ShapeSchema.Proofs.Splitting

/-!
# Files of one folder

The commands write several files into one folder. Whether they can be written and read depends on
the way to the folder, which is the same for all of them, so a file that is written is read back,
and no other file of the folder changes.

## Main definitions

* `ShapeSchema.CommandLine.Disk.IsOutputName` — names of files that are written.
* `ShapeSchema.CommandLine.Disk.Place.file` — the place of a file in a folder.

## Main results

* `ShapeSchema.CommandLine.Disk.exists_locate?_within` — where the path of a file in a folder leads
  to.
* `ShapeSchema.CommandLine.Disk.fetch_of_store?` — reading the files of a folder after one of them
  was written.
-/

namespace ShapeSchema

namespace CommandLine.Disk

/-! ## Paths in a folder -/

/-- Names of files that are written: there is no slash in them, and an underscore shows that they
belong neither to a device nor to the way along a path. -/
structure IsOutputName (name : String) : Prop where
  /-- There is no slash. -/
  slash : '/' ∉ name.toList
  /-- There is an underscore. -/
  underscore : '_' ∈ name.toList

instance (name : String) : Decidable (IsOutputName name) :=
  decidable_of_iff ('/' ∉ name.toList ∧ '_' ∈ name.toList)
    ⟨fun h => ⟨h.1, h.2⟩, fun h => ⟨h.slash, h.underscore⟩⟩

namespace IsOutputName

variable {name : String}

/-- No text without an underscore is the name of a file that is written. -/
theorem ne (h : IsOutputName name) (text : String) (ht : '_' ∉ text.toList) : name ≠ text := by
  rintro rfl
  exact ht h.underscore

/-- Such a name is a step to another place. -/
theorem isIdle_eq_false (h : IsOutputName name) : Path.isIdle name = false := by
  simp [Path.isIdle, h.ne "" (by decide), h.ne "." (by decide)]

/-- A stem with such a name as its ending is such a name. -/
theorem append {stem ending : String} (hstem : '/' ∉ stem.toList) (h : IsOutputName ending) :
    IsOutputName (stem ++ ending) where
  slash := by
    rw [String.toList_append, List.mem_append, not_or]
    exact ⟨hstem, h.slash⟩
  underscore := by
    rw [String.toList_append]
    exact List.mem_append_right _ h.underscore

end IsOutputName

/-- A name behind a slash is the last part of a path. -/
private theorem parts_of_toList_eq {path name : String} {front : List Char}
    (hname : '/' ∉ name.toList) (h : path.toList = front ++ '/' :: name.toList) :
    Path.parts path = (List.splitOn '/' front).map String.ofList ++ [name] := by
  rw [Path.parts, h, List.splitOn_append_cons_self, List.splitOn_eq_singleton hname,
    List.map_append,
    List.map_singleton, String.ofList_toList]

/-- Behind a text that is not empty, nothing changes where the way along a path begins. -/
private theorem start_append {folder : String} (h : folder.toList ≠ []) (rest : String) :
    Place.start (folder ++ rest) = Place.start folder := by
  obtain ⟨c, others, hfolder⟩ := List.exists_cons_of_ne_nil h
  rw [Place.start, Place.start, String.toList_append, hfolder]
  rfl

/-- The way to the files of a folder is the same for all of them. -/
private theorem exists_parts_within (folder : String) :
    ∃ parts, ∀ name : String, '/' ∉ name.toList →
    Path.parts (Path.within folder name) = parts ++ [name] ∧
      Place.start (Path.within folder name) = Place.start folder := by
  cases hlast : folder.toList.getLast? with
  | none =>
    rw [List.getLast?_eq_none_iff] at hlast
    refine ⟨[], fun name hname => ?_⟩
    rw [Path.within, hlast, List.getLast?_nil]
    refine ⟨?_, ?_⟩
    · rw [Path.parts, List.splitOn_eq_singleton hname, List.map_singleton, String.ofList_toList,
        List.nil_append]
    · have hhead : name.toList.head? ≠ some '/' := fun h => hname (List.mem_of_head? h)
      rw [Place.start, Place.start, if_neg hhead, hlast, List.head?_nil, if_neg nofun]
  | some c =>
    have hne : folder.toList ≠ [] := by
      rintro hnil
      rw [hnil] at hlast
      cases hlast
    by_cases hc : c = '/'
    · obtain ⟨front, hfront⟩ := List.getLast?_eq_some_iff.1 hlast
      refine ⟨(List.splitOn '/' front).map String.ofList, fun name hname => ?_⟩
      have hwithin : Path.within folder name = folder ++ name := by
        rw [Path.within, hlast, hc]
        rfl
      rw [hwithin]
      refine ⟨parts_of_toList_eq hname ?_, start_append hne name⟩
      rw [String.toList_append, hfront, hc, List.append_assoc]
      rfl
    · refine ⟨(List.splitOn '/' folder.toList).map String.ofList, fun name hname => ?_⟩
      have hwithin : Path.within folder name = folder ++ "/" ++ name := by
        rw [Path.within, hlast]
        split
        · simp_all
        · simp_all
        · rfl
      rw [hwithin, String.append_assoc]
      refine ⟨parts_of_toList_eq hname ?_, start_append hne _⟩
      rw [String.toList_append, String.toList_append]
      rfl

/-! ## Places in a folder -/

/-- The place of a file in the folder at a place. -/
def Place.file (folder : Place) (name : String) : Place :=
  { folder with names := name :: folder.names }

/-- The paths of the files of a folder begin with one text. -/
private theorem exists_path_file (folder : Place) :
    ∃ front : String, ∀ name, (folder.file name).path = front ++ name := by
  have hfront : ∀ parts : List String, ∃ front : String, ∀ name,
      "/".intercalate (parts ++ [name]) = front ++ name := by
    intro parts
    by_cases hparts : parts = []
    · exact ⟨"", fun name => by simp [hparts]⟩
    · refine ⟨"/".intercalate parts ++ "/", fun name => ?_⟩
      rw [String.intercalate_append_of_ne_nil hparts (List.cons_ne_nil _ _),
        String.intercalate_singleton]
  obtain ⟨parts, hparts⟩ : ∃ parts : List String, ∀ name,
      (folder.file name).path = "/".intercalate (parts ++ [name]) := by
    obtain ⟨base, names⟩ := folder
    cases base with
    | above levels =>
      refine ⟨List.replicate levels ".." ++ names.reverse, fun name => ?_⟩
      rw [Place.path, Place.file, List.reverse_cons, ← List.append_assoc]
    | root =>
      refine ⟨[""] ++ names.reverse, fun name => ?_⟩
      rw [Place.path, Place.file, List.reverse_cons, ← List.append_assoc]
  obtain ⟨front, hfront⟩ := hfront parts
  exact ⟨front, fun name => (hparts name).trans (hfront name)⟩

/-- In a folder, a path names a file. -/
theorem path_file_inj {folder : Place} {name other : String} :
    (folder.file name).path = (folder.file other).path ↔ name = other := by
  obtain ⟨front, hfront⟩ := exists_path_file folder
  rw [hfront, hfront]
  exact ⟨fun h => String.append_right_inj front |>.1 h, fun h => h ▸ rfl⟩

/-- No file of a folder is in another one. -/
private theorem not_prefix_path_file (folder : Place) {name : String} (hname : '/' ∉ name.toList)
    (other : String) :
    ¬ ((folder.file other).path ++ "/").toList <+: (folder.file name).path.toList := by
  obtain ⟨front, hfront⟩ := exists_path_file folder
  rw [hfront, hfront, String.append_assoc, String.toList_append, String.toList_append,
    String.toList_append, List.prefix_append_right_inj]
  exact fun h => hname (h.subset (by simp))

/-! ## Folders -/

/-- What makes a place a folder. -/
theorem isFolder_iff {d : Disk} {place : Place} : d.isFolder place ↔
    place.names = [] ∨ d.folders.contains place.path ∨
      (∃ name ∈ systemFolders, place = ⟨.root, [name]⟩) ∨
        ∃ path ∈ d.files.keys, (place.path ++ "/").toList <+: path.toList := by
  simp [isFolder, or_assoc, List.isPrefixOf_iff_prefix]

/-- Where there was a folder, there is one after a file was written. -/
theorem isFolder_insert {d : Disk} {place : Place} (h : d.isFolder place) (path content : String) :
    { d with files := d.files.insert path content }.isFolder place := by
  rw [isFolder_iff] at h ⊢
  refine h.imp_right (.imp_right (.imp_right ?_))
  rintro ⟨other, hother, hprefix⟩
  exact ⟨other, Dict.mem_keys_insert.2 (.inr hother), hprefix⟩

/-- Writing a file of a folder makes no file of the folder a folder. -/
theorem isFolder_insert_file (d : Disk) (folder : Place) {name : String}
    (hname : '/' ∉ name.toList) (content other : String) :
    { d with files := d.files.insert (folder.file name).path content }.isFolder
      (folder.file other) = d.isFolder (folder.file other) := by
  rw [Bool.eq_iff_iff]
  refine ⟨fun h => ?_, fun h => isFolder_insert h _ _⟩
  rw [isFolder_iff] at h ⊢
  refine h.imp_right (.imp_right (.imp_right ?_))
  rintro ⟨path, hpath, hprefix⟩
  rcases Dict.mem_keys_insert.1 hpath with rfl | hpath
  · exact absurd hprefix (not_prefix_path_file folder hname other)
  · exact ⟨path, hpath, hprefix⟩

/-! ## Ways -/

/-- A way can be gone in two pieces. -/
theorem walk_append (d : Disk) (place : Place) (front rest : List String) :
    d.walk place (front ++ rest) = (d.walk place front).bind (d.walk · rest) := by
  induction front generalizing place with
  | nil => rfl
  | cons part front ih =>
    rw [List.cons_append, walk, walk]
    split_ifs
    · rfl
    · exact ih _
    · exact ih _
    · rfl
    · exact ih _

/-- A way that there was is there after a file was written. -/
theorem walk_insert {d : Disk} {place target : Place} {parts : List String}
    (h : d.walk place parts = some target) (path content : String) :
    { d with files := d.files.insert path content }.walk place parts = some target := by
  induction parts generalizing place with
  | nil => exact h
  | cons part parts ih =>
    rw [walk] at h ⊢
    cases hfolder : d.isFolder place with
    | false => simp [hfolder] at h
    | true =>
      simp only [hfolder, isFolder_insert hfolder path content, Bool.not_true, Bool.false_eq_true,
        if_false] at h ⊢
      split_ifs at h ⊢
      · exact ih h
      · exact ih h
      · exact ih h

/-- The last part of a way to a file that is written. -/
theorem walk_file (d : Disk) (folder : Place) {name : String} (h : IsOutputName name) :
    d.walk folder [name] =
      if d.isFolder folder ∧ name.utf8ByteSize ≤ nameLimit then some (folder.file name)
      else none := by
  rw [walk, h.isIdle_eq_false, if_neg Bool.false_ne_true, if_neg (h.ne ".." (by decide))]
  cases d.isFolder folder with
  | false => rfl
  | true =>
    by_cases hsize : name.utf8ByteSize ≤ nameLimit
    · simp [walk, Place.file, hsize, Nat.not_lt.2 hsize]
    · simp [hsize, Nat.not_le.1 hsize]

/-- **Ways to the files of a folder.** They lead to the folder first. -/
theorem exists_locate?_within (folder : String) : ∃ parts, ∀ (d : Disk) {name : String},
    IsOutputName name → d.locate? (Path.within folder name) =
      if pathLimit < (Path.within folder name).utf8ByteSize then none
      else (d.walk (Place.start folder) parts).bind fun place =>
        if d.isFolder place ∧ name.utf8ByteSize ≤ nameLimit then some (place.file name)
        else none := by
  obtain ⟨parts, hparts⟩ := exists_parts_within folder
  refine ⟨parts, fun d name h => ?_⟩
  rw [locate?, (hparts name h.slash).1, (hparts name h.slash).2, walk_append]
  simp only [walk_file d _ h]

/-! ## Writing and reading -/

/-- The place of a file that is written is no device. -/
theorem file_not_mem_devices (folder : Place) {name : String} (h : IsOutputName name) :
    folder.file name ∉ printDevice :: emptyDevices := by
  have hname : ∀ place ∈ printDevice :: emptyDevices, place.names.head? ≠ some name := by
    simp [printDevice, emptyDevices, nullDevice, (h.ne "stdout" (by decide)).symm,
      (h.ne "null" (by decide)).symm, (h.ne "stdin" (by decide)).symm]
  exact fun hmem => hname _ hmem rfl

/-- **Writing a file of a folder.** It is read back, and reading any other file of the folder gives
what it gave before. -/
theorem fetch_of_store? {d d' : Disk} {folder name content : String} (hname : IsOutputName name)
    (h : d.store? (Path.within folder name) content = some d') {other : String}
    (hother : IsOutputName other) :
    d'.fetch (Path.within folder other) =
      if other = name then .text content else d.fetch (Path.within folder other) := by
  obtain ⟨parts, hparts⟩ := exists_locate?_within folder
  obtain ⟨place, hlocate, h⟩ := Option.bind_eq_some_iff.1 h
  -- the way leads to the folder, and from there to the file
  obtain ⟨home, hwalk, hfolder, rfl⟩ : ∃ home, d.walk (Place.start folder) parts = some home ∧
      d.isFolder home ∧ place = home.file name := by
    rw [hparts d hname] at hlocate
    split_ifs at hlocate
    obtain ⟨home, hwalk, hlocate⟩ := Option.bind_eq_some_iff.1 hlocate
    split_ifs at hlocate with hhome
    exact ⟨home, hwalk, hhome.1, (Option.some.inj hlocate).symm⟩
  -- it is neither a folder nor a device, so the text is written there
  have hdevice : ∀ device ∈ printDevice :: emptyDevices, home.file name ≠ device :=
    fun device hmem heq => file_not_mem_devices home hname (heq ▸ hmem)
  have hd : d.isFolder (home.file name) = false ∧
      d' = { d with files := d.files.insert (home.file name).path content } := by
    split_ifs at h with hplace hnull hprint
    · exact absurd hnull (hdevice nullDevice (by decide))
    · exact absurd hprint (hdevice printDevice (by decide))
    · exact ⟨Bool.eq_false_iff.2 hplace, (Option.some.inj h).symm⟩
  obtain ⟨hplace, rfl⟩ := hd
  have hway : { d with files := d.files.insert (home.file name).path content }.locate?
      (Path.within folder other) = d.locate? (Path.within folder other) := by
    rw [hparts _ hother, hparts d hother, walk_insert hwalk, hwalk]
    simp [isFolder_insert hfolder, hfolder]
  rw [fetch, fetch, hway]
  cases htarget : d.locate? (Path.within folder other) with
  | none =>
    by_cases heq : other = name
    · rw [heq, hlocate] at htarget
      cases htarget
    · rw [if_neg heq]
  | some place =>
    obtain rfl : place = home.file other := by
      rw [hparts d hother, hwalk] at htarget
      simp only [Option.bind_some] at htarget
      split_ifs at htarget
      exact (Option.some.inj htarget).symm
    have hempty : emptyDevices.contains (home.file other) = false := by
      have hmem := file_not_mem_devices home hother
      rw [List.mem_cons, not_or] at hmem
      simpa using hmem.2
    simp only [isFolder_insert_file d home hname.slash, hempty, Dict.get?_insert, path_file_inj]
    by_cases heq : other = name
    · simp [heq, hplace]
    · simp [heq]

end CommandLine.Disk

end ShapeSchema
