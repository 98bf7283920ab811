import NsfwDetector.Core.Models
import NsfwDetector.Files.Paths

/-!
# The temporary directory of a job

Its name is the id that the client chose, with `_` for every slash. Two names are special to the
file system, and two ids may come to the same name.
-/

namespace NsfwDetector.JobDirs

open Paths

/-- `job_id.replace("/", "_")` -/
def safeJobId (jobId : String) : String :=
  String.ofList (jobId.toList.map fun c => if c = '/' then '_' else c)

def jobTempDir (jobId : String) (settings : Settings) : String :=
  join settings.videoTempRoot (safeJobId jobId)

section

variable (settings : Settings) (cwd : Place)

def cleanupDir (path : String) (files : Files) : Files := rmtree (resolve cwd path) files

def prepareJobDir (jobId : String) (files : Files) : Files :=
  let directory := jobTempDir jobId settings
  mkdirs (resolve cwd (join directory "frames")) (cleanupDir cwd directory files)

/-- The `finally` of `_process_video`. -/
def cleanupJobDir (jobId : String) (files : Files) : Files :=
  cleanupDir cwd (jobTempDir jobId settings) files

def rootPlace : Place := resolve cwd settings.videoTempRoot

def jobPlace (jobId : String) : Place := resolve cwd (jobTempDir jobId settings)

/-- What a step of a job took away was in the root, and not in the directory of another job. -/
def TakesOnlyOwn (step : Files → Files) (jobId other : String) : Prop :=
  ∀ files, ∀ place ∈ files, place ∉ step files →
    StrictlyInside (rootPlace settings cwd) place ∧
      (jobId ≠ other → ¬ jobPlace settings cwd other <+: place)

/-- The directories of two jobs are in the root and apart, and the first keeps to its own. -/
structure Separate (jobId other : String) : Prop where
  contained : StrictlyInside (rootPlace settings cwd) (jobPlace settings cwd jobId)
  contained_other : StrictlyInside (rootPlace settings cwd) (jobPlace settings cwd other)
  apart : jobId ≠ other → jobPlace settings cwd jobId ≠ jobPlace settings cwd other
  prepare : TakesOnlyOwn settings cwd (prepareJobDir settings cwd jobId) jobId other
  cleanup : TakesOnlyOwn settings cwd (cleanupJobDir settings cwd jobId) jobId other

/-! ## The name of the directory -/

theorem safeJobId_no_slash (jobId : String) : '/' ∉ (safeJobId jobId).toList := by
  unfold safeJobId
  rw [String.toList_ofList]
  intro h
  obtain ⟨c, -, hc⟩ := List.mem_map.mp h
  split at hc
  · exact absurd hc (by decide)
  · contradiction

/-- Only a name with an underscore may come from another id. -/
theorem safeJobId_eq_iff (special : String) (hunder : '_' ∉ special.toList)
    (hslash : '/' ∉ special.toList) (jobId : String) : safeJobId jobId = special ↔ jobId = special := by
  have hfix : ∀ text : List Char, '/' ∉ text → text.map (fun c => if c = '/' then '_' else c) = text := by
    intro text htext
    rw [List.map_congr_left (g := id), List.map_id]
    intro c hc
    rw [if_neg, id]
    rintro rfl
    exact htext hc
  constructor
  · rintro rfl
    unfold safeJobId at hunder
    rw [String.toList_ofList] at hunder
    have hclean : '/' ∉ jobId.toList := fun h => hunder (List.mem_map.mpr ⟨'/', h, rfl⟩)
    apply String.ext
    unfold safeJobId
    rw [String.toList_ofList, hfix _ hclean]
  · rintro rfl
    apply String.ext
    unfold safeJobId
    rw [String.toList_ofList, hfix _ hslash]

/-- The two names that lead back to the root or out of it. -/
def SpecialId (jobId : String) : Prop := jobId = "." ∨ jobId = ".."

theorem isName_iff {jobId : String} (h : jobId ≠ "") : IsName (safeJobId jobId).toList ↔ jobId ≠ "." := by
  have hempty : (safeJobId jobId).toList ≠ [] := by
    unfold safeJobId
    rw [String.toList_ofList]
    simpa using h
  have hdot : (safeJobId jobId).toList = ['.'] ↔ jobId = "." := by
    rw [← safeJobId_eq_iff "." (by decide) (by decide)]
    exact @String.toList_inj _ "."
  unfold IsName
  rw [Ne, Ne, hdot]
  exact and_iff_right hempty

theorem jobPlace_eq (jobId : String) : jobPlace settings cwd jobId =
    if IsName (safeJobId jobId).toList then walk (rootPlace settings cwd) (safeJobId jobId).toList
    else rootPlace settings cwd :=
  resolve_join cwd settings.videoTempRoot (safeJobId_no_slash jobId)

variable {settings cwd}

theorem jobPlace_of_plain {jobId : String} (hne : jobId ≠ "") (h : ¬ SpecialId jobId) :
    jobPlace settings cwd jobId = rootPlace settings cwd ++ [(safeJobId jobId).toList] := by
  obtain ⟨hdot, hparent⟩ := not_or.mp h
  have hwalk : (safeJobId jobId).toList ≠ parentName := by
    intro heq
    apply hparent
    rw [← safeJobId_eq_iff ".." (by decide) (by decide)]
    exact String.toList_inj.mp heq
  rw [jobPlace_eq, if_pos ((isName_iff hne).mpr hdot), walk, if_neg hwalk]

/-- A job keeps out of the root's surroundings exactly when its id is no special name. -/
theorem contained_iff {jobId : String} (hne : jobId ≠ "") :
    StrictlyInside (rootPlace settings cwd) (jobPlace settings cwd jobId) ↔ ¬ SpecialId jobId := by
  constructor
  · rintro hinside (rfl | rfl)
    · rw [jobPlace_eq, if_neg (by decide)] at hinside
      exact hinside.2 rfl
    · rw [jobPlace_eq, if_pos (by decide), walk, if_pos (by decide)] at hinside
      exact not_strictlyInside_dropLast _ hinside
  · intro hplain
    rw [jobPlace_of_plain hne hplain]
    exact strictlyInside_child _ _

/-! ## What a step takes away -/

theorem takesOnlyOwn {step : Files → Files} {jobId other : String}
    (hstep : ∀ files, ∀ place ∈ files, place ∉ step files → jobPlace settings cwd jobId <+: place)
    (hne : jobId ≠ "") (hne' : other ≠ "") (h : ¬ SpecialId jobId) (h' : ¬ SpecialId other)
    (hapart : jobId ≠ other → safeJobId jobId ≠ safeJobId other) :
    TakesOnlyOwn settings cwd step jobId other := by
  intro files place hplace hgone
  have hown := hstep files place hplace hgone
  refine ⟨((contained_iff hne).mpr h).below hown, ?_⟩
  intro hdistinct hother
  rw [jobPlace_of_plain hne h] at hown
  rw [jobPlace_of_plain hne' h'] at hother
  exact hapart hdistinct (String.toList_inj.mp (child_inj hown hother))

theorem cleanupJobDir_removes (jobId : String) (files : Files) :
    ∀ place ∈ files, place ∉ cleanupJobDir settings cwd jobId files →
      jobPlace settings cwd jobId <+: place :=
  fun _ => rmtree_removes

theorem prepareJobDir_removes (jobId : String) (files : Files) :
    ∀ place ∈ files, place ∉ prepareJobDir settings cwd jobId files →
      jobPlace settings cwd jobId <+: place := by
  intro place hplace hgone
  apply rmtree_removes hplace
  intro hkept
  exact hgone (mem_mkdirs_of_mem hkept)

end

/-- The directories are in the root and apart exactly when no id is special and no two ids come to
one name. -/
theorem separate_iff (settings : Settings) (cwd : Place) (request other : VideoDetectRequest) :
    Separate settings cwd request.jobId other.jobId ↔
      ¬ SpecialId request.jobId ∧ ¬ SpecialId other.jobId ∧
        (request.jobId ≠ other.jobId → safeJobId request.jobId ≠ safeJobId other.jobId) := by
  constructor
  · intro h
    refine ⟨(contained_iff request.jobId_ne).mp h.contained,
      (contained_iff other.jobId_ne).mp h.contained_other, fun hdistinct hsame => ?_⟩
    apply h.apart hdistinct
    unfold jobPlace jobTempDir
    rw [hsame]
  · rintro ⟨hplain, hplain', hapart⟩
    refine ⟨(contained_iff request.jobId_ne).mpr hplain, (contained_iff other.jobId_ne).mpr hplain',
      fun hdistinct hsame => ?_, ?_, ?_⟩
    · rw [jobPlace_of_plain request.jobId_ne hplain, jobPlace_of_plain other.jobId_ne hplain'] at hsame
      have hnames := List.append_cancel_left hsame
      exact hapart hdistinct (String.toList_inj.mp (List.cons.inj hnames).1)
    · exact takesOnlyOwn (prepareJobDir_removes _) request.jobId_ne other.jobId_ne hplain hplain' hapart
    · exact takesOnlyOwn (cleanupJobDir_removes _) request.jobId_ne other.jobId_ne hplain hplain' hapart

def requestFor (jobId : String) (h : jobId ≠ "") : VideoDetectRequest where
  jobId := jobId
  videoId := "clip"
  publisherUserId := "uploader"
  sourceVideoUri := "https://storage/clip.mp4"
  policyVersion := "policy"
  jobId_ne := h
  videoId_ne := by decide
  publisherUserId_ne := by decide
  sourceVideoUri_ne := by decide
  policyVersion_ne := by decide

/-- The id `..` leads to the directory above the root, and `a/b` to that of `a_b`. -/
theorem parent_and_collision :
    jobPlace {} [] (requestFor ".." (by decide)).jobId = [['t', 'm', 'p']] ∧
    jobPlace {} [] (requestFor "a/b" (by decide)).jobId =
      jobPlace {} [] (requestFor "a_b" (by decide)).jobId ∧
    ¬ Separate {} [] (requestFor ".." (by decide)).jobId (requestFor "a_b" (by decide)).jobId ∧
    ¬ Separate {} [] (requestFor "a/b" (by decide)).jobId (requestFor "a_b" (by decide)).jobId := by
  have hparent : jobPlace {} [] ".." = [['t', 'm', 'p']] := by decide
  have hsame : jobPlace {} [] "a/b" = jobPlace {} [] "a_b" := by decide
  refine ⟨hparent, hsame, fun h => ?_, fun h => ?_⟩
  · exact (contained_iff (by decide)).mp h.contained (Or.inr rfl)
  · exact h.apart (by decide) hsame

end NsfwDetector.JobDirs
