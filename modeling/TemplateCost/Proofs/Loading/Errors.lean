import TemplateCost.Proofs.Loading.Listing

/-! # Why loading fails

Templates are read in the order of their paths, and the first one that cannot be read ends loading. Only
when all are read are the malformed ones reported, all of them together. Nothing that comes after the
bodies can fail, and a broken file of assigned variables counts like none.
-/
namespace TemplateCost
open Template

namespace SourceFile

def isTemplate (file : SourceFile) : Bool := file.1.extension? = some templateExtension

def isUnreadable (file : SourceFile) : Bool := file.2.toOption.isNone

/-- The file can be read, but its text is no body. -/
def isMalformed (file : SourceFile) : Bool :=
  file.2.toOption.any fun text => (Body.ofText? text).isNone

def isBroken (file : SourceFile) : Bool := file.isUnreadable || file.isMalformed

end SourceFile

/-- What loading reports about a directory, if it fails. -/
inductive Directory.FailsWith (directory : Directory) : LoadError → Prop
  | listing {reason : String} (h : directory.listing = .error reason) :
      FailsWith directory (.listing directory.path reason)
  | noTemplates {files : List SourceFile} (h : directory.listing = .ok files)
      (hnone : ∀ file ∈ files, file.isTemplate = false) :
      FailsWith directory (.noTemplates directory.path)
  | unreadable {files before after : List SourceFile} {path : Path} {reason : String}
      (h : directory.listing = .ok files)
      (hfirst : templateFiles files = before ++ (path, .error reason) :: after)
      (hbefore : ∀ file ∈ before, file.isUnreadable = false) :
      FailsWith directory (.unreadable path reason)
  | malformed {files : List SourceFile} (h : directory.listing = .ok files)
      (hread : ∀ file ∈ templateFiles files, file.isUnreadable = false)
      (hsome : ∃ file ∈ templateFiles files, file.isMalformed = true) :
      FailsWith directory
        (.malformed (((templateFiles files).filter SourceFile.isMalformed).map Prod.fst))

/-! ## Templates in order -/

theorem templateFiles_perm (files : List SourceFile) :
    (templateFiles files).Perm (files.filter SourceFile.isTemplate) := by
  rw [templateFiles, sortByPath_eq_insertionSort]
  exact List.perm_insertionSort beforeOrSame _

theorem templateFiles_pairwise (files : List SourceFile) :
    (templateFiles files).Pairwise fun a b => a.1.le b.1 = true := by
  rw [templateFiles, sortByPath_eq_insertionSort]
  exact List.pairwise_insertionSort beforeOrSame _

theorem mem_templateFiles_iff {files : List SourceFile} {file : SourceFile} :
    file ∈ templateFiles files ↔ file ∈ files ∧ file.isTemplate = true := by
  rw [(templateFiles_perm files).mem_iff, List.mem_filter]

theorem templateFiles_eq_nil_iff {files : List SourceFile} :
    templateFiles files = [] ↔ ∀ file ∈ files, file.isTemplate = false := by
  simp [List.eq_nil_iff_forall_not_mem, mem_templateFiles_iff]

/-! ## Reading and parsing -/

theorem readAll_eq_ok_iff {files : List SourceFile} {texts : List (Path × String)} :
    readAll files = .ok texts ↔ files = texts.map fun text => (text.1, .ok text.2) := by
  induction files generalizing texts with
  | nil => cases texts <;> simp [readAll]
  | cons file rest ih =>
    obtain ⟨path, reason | text⟩ := file
    · cases texts <;> simp [readAll]
    · cases texts with
      | nil => cases h : readAll rest <;> simp [readAll, h, Except.map]
      | cons first others =>
        have hrest := @ih others
        cases h : readAll rest with
        | error e =>
          rw [h] at hrest
          simp [readAll, h, Except.map, ← hrest]
        | ok read =>
          rw [h, Except.ok.injEq] at hrest
          obtain ⟨otherPath, otherText⟩ := first
          simp [readAll, h, Except.map, ← hrest]

/-- Reading ends at the first file that cannot be read. -/
theorem readAll_eq_error_iff {files : List SourceFile} {error : LoadError} :
    readAll files = .error error ↔ ∃ before path reason after,
      files = before ++ (path, .error reason) :: after ∧
        (∀ file ∈ before, SourceFile.isUnreadable file = false) ∧ error = .unreadable path reason := by
  constructor
  · intro h
    induction files with
    | nil => cases h
    | cons file rest ih =>
      obtain ⟨path, reason | text⟩ := file
      · cases h
        exact ⟨[], path, reason, rest, rfl, by simp, rfl⟩
      · rw [readAll] at h
        cases hrest : readAll rest with
        | ok texts =>
          rw [hrest] at h
          cases h
        | error e =>
          rw [hrest] at h
          cases h
          obtain ⟨before, other, reason, after, rfl, hbefore, he⟩ := ih hrest
          exact ⟨(path, .ok text) :: before, other, reason, after, rfl,
            List.forall_mem_cons.mpr ⟨rfl, hbefore⟩, he⟩
  · rintro ⟨before, path, reason, after, rfl, hbefore, rfl⟩
    induction before with
    | nil => rfl
    | cons file rest ih =>
      obtain ⟨hfile, hrest⟩ := List.forall_mem_cons.mp hbefore
      obtain ⟨other, _ | text⟩ := file
      · cases hfile
      · rw [List.cons_append, readAll, ih hrest]
        rfl

theorem parseAll_eq_error_iff {texts : List (Path × String)} {error : LoadError} :
    parseAll texts = .error error ↔
      (∃ text ∈ texts, Body.ofText? text.2 = none) ∧
        error = .malformed
          ((texts.filter fun text => (Body.ofText? text.2).isNone).map Prod.fst) := by
  have hfailed : (texts.map fun text => (text.1, Body.ofText? text.2)).filter
      (fun file => file.2.isNone) =
        (texts.filter fun text => (Body.ofText? text.2).isNone).map
          fun text => (text.1, Body.ofText? text.2) := by
    rw [List.filter_map]
    rfl
  simp only [parseAll, hfailed]
  cases hmalformed : texts.filter fun text => (Body.ofText? text.2).isNone with
  | nil =>
    refine iff_of_false (by simp) ?_
    rintro ⟨⟨text, htext, hbroken⟩, _⟩
    exact List.filter_eq_nil_iff.mp hmalformed text htext (Option.isNone_iff_eq_none.mpr hbroken)
  | cons first rest =>
    obtain ⟨hfirst, hbroken⟩ : first ∈ texts ∧ (Body.ofText? first.2).isNone :=
      List.mem_filter.mp (hmalformed ▸ List.mem_cons_self)
    have hsome : ∃ text ∈ texts, Body.ofText? text.2 = none :=
      ⟨first, hfirst, Option.isNone_iff_eq_none.mp hbroken⟩
    rw [and_iff_right hsome]
    simp [eq_comm, Function.comp_def]

theorem exists_readAll_iff {files : List SourceFile} :
    (∃ texts, readAll files = .ok texts) ↔ ∀ file ∈ files, file.isUnreadable = false := by
  constructor
  · rintro ⟨texts, h⟩
    rw [readAll_eq_ok_iff.mp h]
    intro file hfile
    obtain ⟨text, _, rfl⟩ := List.mem_map.mp hfile
    rfl
  · intro h
    cases hread : readAll files with
    | ok texts => exact ⟨texts, rfl⟩
    | error e =>
      obtain ⟨before, path, reason, after, rfl, _⟩ := readAll_eq_error_iff.mp hread
      have hreadable := h (path, .error reason) (by simp)
      cases hreadable

/-- Of files that are read, those are malformed whose texts are. -/
theorem filter_isMalformed {files : List SourceFile} {texts : List (Path × String)}
    (h : readAll files = .ok texts) :
    (files.filter SourceFile.isMalformed).map Prod.fst =
      (texts.filter fun text => (Body.ofText? text.2).isNone).map Prod.fst := by
  rw [readAll_eq_ok_iff.mp h, List.filter_map, List.map_map]
  rfl

theorem exists_isMalformed_iff {files : List SourceFile} {texts : List (Path × String)}
    (h : readAll files = .ok texts) :
    (∃ file ∈ files, file.isMalformed = true) ↔ ∃ text ∈ texts, Body.ofText? text.2 = none := by
  rw [readAll_eq_ok_iff.mp h]
  simp [SourceFile.isMalformed, Except.toOption]

/-! ## Directories -/

theorem bodies_of_templates {directory : Directory} {files : List SourceFile}
    (h : directory.listing = .ok files) (hne : templateFiles files ≠ []) :
    directory.bodies = readAll (templateFiles files) >>= parseAll := by
  obtain ⟨first, rest, hcons⟩ := List.exists_cons_of_ne_nil hne
  simp only [Directory.bodies, h, hcons]

/-- Bodies are missing for the reasons above and for no other. -/
theorem bodies_eq_error_iff {directory : Directory} {error : LoadError} :
    directory.bodies = .error error ↔ directory.FailsWith error := by
  constructor
  · intro h
    rw [Directory.bodies] at h
    split at h
    · rename_i reason hlisting
      cases h
      exact .listing hlisting
    · rename_i files hlisting
      split at h
      · rename_i hnone
        cases h
        exact .noTemplates hlisting (templateFiles_eq_nil_iff.mp hnone)
      · cases hread : readAll (templateFiles files) with
        | error e =>
          obtain ⟨before, path, reason, after, hfirst, hbefore, rfl⟩ :=
            readAll_eq_error_iff.mp hread
          rw [hread] at h
          cases h
          exact .unreadable hlisting hfirst hbefore
        | ok texts =>
          rw [hread] at h
          obtain ⟨hsome, rfl⟩ := parseAll_eq_error_iff.mp h
          rw [← filter_isMalformed hread]
          exact .malformed hlisting (exists_readAll_iff.mp ⟨texts, hread⟩)
            ((exists_isMalformed_iff hread).mpr hsome)
  · intro h
    cases h with
    | listing h => rw [Directory.bodies, h]
    | noTemplates h hnone => simp only [Directory.bodies, h, templateFiles_eq_nil_iff.mpr hnone]
    | unreadable h hfirst hbefore =>
      have hread := readAll_eq_error_iff.mpr ⟨_, _, _, _, hfirst, hbefore, rfl⟩
      rw [bodies_of_templates h (by simp [hfirst]), hread]
      rfl
    | malformed h hreadable hsome =>
      obtain ⟨texts, hread⟩ := exists_readAll_iff.mpr hreadable
      obtain ⟨file, hfile, _⟩ := id hsome
      rw [bodies_of_templates h (List.ne_nil_of_mem hfile), hread]
      exact parseAll_eq_error_iff.mpr
        ⟨(exists_isMalformed_iff hread).mp hsome, congrArg _ (filter_isMalformed hread)⟩

theorem load_eq_error_iff {directory : Directory} {overrides : Entries String}
    {sources : Option DataSources} {error : LoadError} :
    load directory overrides sources = .error error ↔ directory.FailsWith error := by
  rw [load_eq_map, ← bodies_eq_error_iff]
  cases directory.bodies <;> simp [Except.map]

/-- Some reason to fail exists iff one of the files, or their list, is to blame. -/
theorem exists_failsWith_iff {directory : Directory} :
    (∃ error, directory.FailsWith error) ↔
      (∃ reason, directory.listing = .error reason) ∨
        ∃ files : List SourceFile, directory.listing = .ok files ∧
          ((∀ file ∈ files, file.isTemplate = false) ∨
            ∃ file ∈ files, file.isTemplate = true ∧ file.isBroken = true) := by
  constructor
  · rintro ⟨error, h⟩
    cases h with
    | listing h => exact Or.inl ⟨_, h⟩
    | noTemplates h hnone => exact Or.inr ⟨_, h, Or.inl hnone⟩
    | @unreadable files before after path reason h hfirst _ =>
      have hmem : (path, .error reason) ∈ templateFiles files := by simp [hfirst]
      obtain ⟨hfile, htemplate⟩ := mem_templateFiles_iff.mp hmem
      exact Or.inr ⟨files, h, Or.inr ⟨_, hfile, htemplate, rfl⟩⟩
    | @malformed files h _ hsome =>
      obtain ⟨file, hmem, hmalformed⟩ := hsome
      obtain ⟨hfile, htemplate⟩ := mem_templateFiles_iff.mp hmem
      have hbroken : file.isBroken = true := by simp [SourceFile.isBroken, hmalformed]
      exact Or.inr ⟨files, h, Or.inr ⟨file, hfile, htemplate, hbroken⟩⟩
  · rintro (⟨reason, h⟩ | ⟨files, h, hnone | ⟨file, hfile, htemplate, hbroken⟩⟩)
    · exact ⟨_, .listing h⟩
    · exact ⟨_, .noTemplates h hnone⟩
    · have hmem := mem_templateFiles_iff.mpr ⟨hfile, htemplate⟩
      cases hread : readAll (templateFiles files) with
      | error e =>
        obtain ⟨before, path, reason, after, hfirst, hbefore, _⟩ := readAll_eq_error_iff.mp hread
        exact ⟨_, .unreadable h hfirst hbefore⟩
      | ok texts =>
        have hreadable := exists_readAll_iff.mp ⟨texts, hread⟩
        have hmalformed : file.isMalformed = true := by
          simpa [SourceFile.isBroken, hreadable file hmem] using hbroken
        exact ⟨_, .malformed h hreadable ⟨file, hmem, hmalformed⟩⟩

/-! ## The file of assigned variables -/

/-- The file of assigned variables is no template. -/
theorem isTemplate_of_same_join {file : SourceFile} {base : Path}
    (h : file.1.same (base.join assignmentFile) = true) : file.isTemplate = false := by
  have hextension : file.1.extension? = assignmentFile.extension? :=
    Path.extension?_congr (fileName?_of_same_join h)
  rw [SourceFile.isTemplate, hextension]
  decide

theorem templateFiles_filter_not_same (files : List SourceFile) (base : Path) :
    templateFiles (files.filter fun file => !file.1.same (base.join assignmentFile)) =
      templateFiles files := by
  rw [templateFiles, templateFiles, List.filter_filter]
  congr 1
  refine List.filter_congr ?_
  intro file _
  cases hsame : file.1.same (base.join assignmentFile) with
  | false => simp
  | true =>
    have htemplate := isTemplate_of_same_join hsame
    rw [SourceFile.isTemplate] at htemplate
    simp [htemplate]

/-- A file that cannot be read or is malformed assigns nothing. -/
theorem assigned_eq_none {directory : Directory} {files : List SourceFile}
    (h : ∀ file ∈ files, file.1.same (directory.path.join assignmentFile) = true →
      file.isBroken = true) : directory.assigned files = none := by
  rw [Directory.assigned]
  cases hfound : files.find? fun file => file.1.same (directory.path.join assignmentFile) with
  | none => rfl
  | some file =>
    have hsame : file.1.same (directory.path.join assignmentFile) = true := by
      simpa using List.find?_some hfound
    have hbroken := h file (List.mem_of_find?_eq_some hfound) hsame
    obtain ⟨path, reason | text⟩ := file
    · rfl
    · have hbody : Body.ofText? text = none := by
        simpa [SourceFile.isBroken, SourceFile.isUnreadable, SourceFile.isMalformed,
          Except.toOption] using hbroken
      simp [Except.toOption, hbody]

/-- Loading fails exactly for these reasons and with these reports: the listing fails, or no listed
file is a template, or a template is broken. The first unreadable template in path order is named before
any malformed one, and otherwise all malformed ones are. A broken file of assigned variables counts like
none. -/
theorem load_fails_iff (directory : Directory) (overrides : Entries String)
    (sources : Option DataSources) :
    (∀ error, load directory overrides sources = .error error ↔ directory.FailsWith error) ∧
    ((∃ error, load directory overrides sources = .error error) ↔
      (∃ reason, directory.listing = .error reason) ∨
        ∃ files : List SourceFile, directory.listing = .ok files ∧
          ((∀ file ∈ files, file.isTemplate = false) ∨
            ∃ file ∈ files, file.isTemplate = true ∧ file.isBroken = true)) ∧
    ∀ files : List SourceFile, directory.listing = .ok files →
      (templateFiles files).Perm (files.filter SourceFile.isTemplate) ∧
      (templateFiles files).Pairwise (fun a b => a.1.le b.1 = true) ∧
      ((∀ file ∈ files, file.1.same (directory.path.join assignmentFile) = true →
          file.isBroken = true) →
        load directory overrides sources =
          load { directory with
            listing := .ok (files.filter fun file =>
              !file.1.same (directory.path.join assignmentFile)) } overrides sources) := by
  refine ⟨fun error => load_eq_error_iff, ?_, ?_⟩
  · simp only [load_eq_error_iff]
    exact exists_failsWith_iff
  · intro files hlisting
    refine ⟨templateFiles_perm files, templateFiles_pairwise files, ?_⟩
    intro hbroken
    obtain ⟨path, _⟩ := directory
    cases hlisting
    refine load_congr_assigned (templateFiles_filter_not_same files path).symm ?_ overrides sources
    rw [assigned_eq_none hbroken, assigned_eq_none]
    intro file hfile hsame
    simp [hsame] at hfile

/-- Two malformed templates around an unreadable one, and unreadable assigned variables. -/
def brokenFiles : List SourceFile :=
  [(⟨"infra/b.tf"⟩, .ok "= nope\n"), (⟨"infra/a.tf"⟩, .ok "resource \"x\" \x7b"),
    (⟨"infra/terraform.tfvars"⟩, .error "permission denied"),
    (⟨"infra/c.tf"⟩, .error "permission denied")]

theorem broken_files_reported :
    let outcome := fun files => load ⟨⟨"infra"⟩, .ok files⟩ [] none
    outcome brokenFiles = .error (.unreadable ⟨"infra/c.tf"⟩ "permission denied") ∧
      outcome (brokenFiles.take 3) = .error (.malformed [⟨"infra/a.tf"⟩, ⟨"infra/b.tf"⟩]) ∧
      outcome (brokenFiles.take 3) = outcome (brokenFiles.take 2) := by
  intro outcome
  have hfirst : templateFiles brokenFiles =
      [brokenFiles[1], brokenFiles[0]] ++ (⟨"infra/c.tf"⟩, .error "permission denied") :: [] := rfl
  have hmalformed : ((templateFiles (brokenFiles.take 3)).filter SourceFile.isMalformed).map
      Prod.fst = [⟨"infra/a.tf"⟩, ⟨"infra/b.tf"⟩] := by
    decide +kernel
  refine ⟨?_, ?_, ?_⟩
  · refine ((load_fails_iff ⟨⟨"infra"⟩, .ok brokenFiles⟩ [] none).1 _).mpr ?_
    exact .unreadable rfl hfirst (by decide +kernel)
  · refine ((load_fails_iff ⟨⟨"infra"⟩, .ok (brokenFiles.take 3)⟩ [] none).1 _).mpr ?_
    rw [← hmalformed]
    exact .malformed rfl (by decide +kernel) (by decide +kernel)
  · have hbroken := (load_fails_iff ⟨⟨"infra"⟩, .ok (brokenFiles.take 3)⟩ [] none).2.2 _ rfl
    exact hbroken.2.2 (by decide +kernel)

end TemplateCost
