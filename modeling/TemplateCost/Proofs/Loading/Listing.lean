import Mathlib.Data.List.Pairwise
import Mathlib.Data.List.Sort
import TemplateCost.Proofs.Loading.Assembly
import TemplateCost.Proofs.Path

/-! # The listing of a directory

A directory is known by its files. In which order they are listed does not matter, because templates are
put into the order of their paths and at most one file is the one of assigned variables. Files that are
neither do not matter at all.
-/
namespace TemplateCost

/-- No two files have the same path. -/
def Distinct (files : List SourceFile) : Prop := files.Pairwise fun a b => ¬ a.1.same b.1

instance (files : List SourceFile) : Decidable (Distinct files) :=
  inferInstanceAs (Decidable (files.Pairwise fun a b => ¬ a.1.same b.1))

/-- A file is read if it is a template or has the name of the file of assigned variables. -/
def isRead (file : SourceFile) : Bool :=
  file.1.extension? = some templateExtension || file.1.fileName? = some assignmentFile.text

theorem Distinct.eq_of_same {files : List SourceFile} (h : Distinct files) {a b : SourceFile}
    (ha : a ∈ files) (hb : b ∈ files) (hsame : a.1.same b.1) : a = b := by
  by_contra hne
  have : Std.Symm fun a b : SourceFile => ¬ a.1.same b.1 :=
    ⟨fun _ _ hab hba => hab (Path.same_iff.mpr (Path.same_iff.mp hba).symm)⟩
  exact List.Pairwise.forall h ha hb hne hsame

theorem Distinct.filter {files : List SourceFile} (h : Distinct files) (p : SourceFile → Bool) :
    Distinct (files.filter p) :=
  List.Pairwise.filter p h

/-! ## Sorting -/

/-- The order of files is that of their paths. -/
def beforeOrSame (a b : SourceFile) : Prop := a.1.le b.1 = true

instance : DecidableRel beforeOrSame := fun a b => inferInstanceAs (Decidable (a.1.le b.1 = true))

instance : Std.Total beforeOrSame :=
  ⟨fun a b => (le_total a.1.key b.1.key).imp Path.le_iff.mpr Path.le_iff.mpr⟩

instance : IsTrans SourceFile beforeOrSame :=
  ⟨fun _ _ _ hab hbc => Path.le_iff.mpr ((Path.le_iff.mp hab).trans (Path.le_iff.mp hbc))⟩

theorem insertByPath_eq_orderedInsert (file : SourceFile) (files : List SourceFile) :
    insertByPath file files = files.orderedInsert beforeOrSame file := by
  induction files with
  | nil => rfl
  | cons other rest ih =>
    rw [insertByPath, List.orderedInsert_cons, ih]
    rfl

theorem sortByPath_eq_insertionSort (files : List SourceFile) :
    sortByPath files = files.insertionSort beforeOrSame := by
  induction files with
  | nil => rfl
  | cons file rest ih =>
    rw [List.insertionSort_cons, ← ih, ← insertByPath_eq_orderedInsert]
    rfl

/-- Files with distinct paths have one order. -/
theorem sortByPath_eq_of_perm {files others : List SourceFile} (hdistinct : Distinct files)
    (hperm : files.Perm others) : sortByPath files = sortByPath others := by
  rw [sortByPath_eq_insertionSort, sortByPath_eq_insertionSort]
  have hfiles := List.perm_insertionSort beforeOrSame files
  have hothers := List.perm_insertionSort beforeOrSame others
  refine List.Perm.eq_of_pairwise ?_ (List.pairwise_insertionSort _ _)
    (List.pairwise_insertionSort _ _) (hfiles.trans (hperm.trans hothers.symm))
  intro a b ha hb hab hba
  have hkey := le_antisymm (Path.le_iff.mp hab) (Path.le_iff.mp hba)
  exact hdistinct.eq_of_same (hfiles.subset ha) (hperm.symm.subset (hothers.subset hb))
    (Path.same_iff.mpr hkey)

theorem find?_same_eq_of_perm {files others : List SourceFile} (hdistinct : Distinct files)
    (hperm : files.Perm others) (path : Path) :
    (files.find? fun file => file.1.same path) = others.find? fun file => file.1.same path := by
  cases hfound : files.find? fun file => file.1.same path with
  | none =>
    symm
    rw [List.find?_eq_none] at hfound ⊢
    exact fun file hfile => hfound file (hperm.symm.subset hfile)
  | some file =>
    have hfile := List.mem_of_find?_eq_some hfound
    have hsame := List.find?_some hfound
    have hsome : (others.find? fun file => file.1.same path).isSome :=
      List.find?_isSome.mpr ⟨file, hperm.subset hfile, hsame⟩
    obtain ⟨other, hother⟩ := Option.isSome_iff_exists.mp hsome
    have hotherSame := List.find?_some hother
    rw [hother, hdistinct.eq_of_same hfile (hperm.symm.subset (List.mem_of_find?_eq_some hother))]
    exact Path.same_iff.mpr ((Path.same_iff.mp hsame).trans (Path.same_iff.mp hotherSame).symm)

/-! ## Loading -/

theorem assignmentFile_isName : Path.IsName assignmentFile.text where
  ne_empty := by decide
  ne_current := by decide
  ne_parent := by decide
  no_separator := by decide

/-- Only a file with the name of the file of assigned variables can be this file. -/
theorem fileName?_of_same_join {file : SourceFile} {base : Path}
    (h : file.1.same (base.join assignmentFile) = true) :
    file.1.fileName? = some assignmentFile.text := by
  have hcomponents : file.1.components = (base.join assignmentFile).components := of_decide_eq_true h
  rw [← Path.fileName?_join assignmentFile_isName base, Path.fileName?, hcomponents]
  rfl

theorem isRead_of_same_join {file : SourceFile} {base : Path}
    (h : file.1.same (base.join assignmentFile) = true) : isRead file = true := by
  simp [isRead, fileName?_of_same_join h]

theorem templateFiles_filter_isRead (files : List SourceFile) :
    templateFiles (files.filter isRead) = templateFiles files := by
  rw [templateFiles, templateFiles, List.filter_filter]
  congr 1
  refine List.filter_congr ?_
  intro file _
  cases htemplate : decide (file.1.extension? = some templateExtension) <;> simp_all [isRead]

theorem find?_same_filter_isRead (files : List SourceFile) (base : Path) :
    ((files.filter isRead).find? fun file => file.1.same (base.join assignmentFile)) =
      files.find? fun file => file.1.same (base.join assignmentFile) := by
  rw [List.find?_filter]
  congr 1
  funext file
  cases hsame : file.1.same (base.join assignmentFile) with
  | false => simp
  | true => simp [isRead_of_same_join hsame]

/-- Loading depends on the templates in their order and on the assigned values. -/
theorem load_congr_assigned {path : Path} {files others : List SourceFile}
    (htemplates : templateFiles files = templateFiles others)
    (hassigned : Directory.assigned ⟨path, .ok files⟩ files =
      Directory.assigned ⟨path, .ok others⟩ others)
    (overrides : Entries String) (sources : Option DataSources) :
    load ⟨path, .ok files⟩ overrides sources = load ⟨path, .ok others⟩ overrides sources := by
  have hbodies : Directory.bodies ⟨path, .ok files⟩ = Directory.bodies ⟨path, .ok others⟩ := by
    simp only [Directory.bodies, htemplates]
  have henvironment : Directory.environment ⟨path, .ok files⟩ overrides =
      Directory.environment ⟨path, .ok others⟩ overrides := by
    funext bodies
    simp only [Directory.environment, Except.toOption, Option.bind_some, hassigned]
  rw [load_eq_map, load_eq_map, hbodies, henvironment]

theorem load_congr_files {path : Path} {files others : List SourceFile}
    (htemplates : templateFiles files = templateFiles others)
    (hassigned : (files.find? fun file => file.1.same (path.join assignmentFile)) =
      others.find? fun file => file.1.same (path.join assignmentFile))
    (overrides : Entries String) (sources : Option DataSources) :
    load ⟨path, .ok files⟩ overrides sources = load ⟨path, .ok others⟩ overrides sources := by
  refine load_congr_assigned htemplates ?_ overrides sources
  simp only [Directory.assigned, hassigned]

/-- The outcome of loading is the same for two listings of the same files in different orders, and for
two listings that differ only in files that are not read. -/
theorem load_eq_of_listings (path : Path) (files others : List SourceFile)
    (overrides : Entries String) (sources : Option DataSources) :
    (Distinct files → files.Perm others →
      load ⟨path, .ok files⟩ overrides sources = load ⟨path, .ok others⟩ overrides sources) ∧
    (files.filter isRead = others.filter isRead →
      load ⟨path, .ok files⟩ overrides sources = load ⟨path, .ok others⟩ overrides sources) := by
  constructor
  · intro hdistinct hperm
    refine load_congr_files ?_ (find?_same_eq_of_perm hdistinct hperm _) overrides sources
    exact sortByPath_eq_of_perm (hdistinct.filter _) (hperm.filter _)
  · intro hread
    refine load_congr_files ?_ ?_ overrides sources
    · rw [← templateFiles_filter_isRead, hread, templateFiles_filter_isRead]
    · rw [← find?_same_filter_isRead, hread, find?_same_filter_isRead]

def bucketFile (path name : String) : SourceFile :=
  (⟨path⟩, .ok ("resource \"aws_s3_bucket\" \"" ++ name ++ "\" \x7b\x7d\n"))

def bucketFiles : List SourceFile :=
  [bucketFile "infra/b.tf" "second", bucketFile "infra/a.tf" "first",
    bucketFile "infra/c.txt" "third"]

theorem buckets_loaded_in_order :
    let outcome := fun files => load ⟨⟨"infra"⟩, .ok files⟩ [] none
    Distinct bucketFiles ∧ bucketFiles.Perm bucketFiles.reverse ∧
      bucketFiles.filter isRead = (bucketFiles.take 2).filter isRead ∧
      outcome bucketFiles.reverse = outcome bucketFiles ∧
      outcome (bucketFiles.take 2) = outcome bucketFiles ∧
      (outcome bucketFiles).toOption.map (fun loaded => loaded.inventory.resources.map Resource.name) =
        some ["first", "second"] := by
  intro outcome
  have hdistinct : Distinct bucketFiles := by decide +kernel
  have hperm : bucketFiles.Perm bucketFiles.reverse := (List.reverse_perm bucketFiles).symm
  have hread : bucketFiles.filter isRead = (bucketFiles.take 2).filter isRead := rfl
  refine ⟨hdistinct, hperm, hread, ?_, ?_, by decide +kernel⟩
  · have hreversed := load_eq_of_listings ⟨"infra"⟩ bucketFiles bucketFiles.reverse [] none
    exact (hreversed.1 hdistinct hperm).symm
  · have htaken := load_eq_of_listings ⟨"infra"⟩ bucketFiles (bucketFiles.take 2) [] none
    exact (htaken.2 hread).symm

end TemplateCost
