import NsfwDetector.Services.Pipeline
import NsfwDetector.Text.Numerals

/-!
# The order of the frames

`ffmpeg` numbers the frames of a video in their file names. `frames_from_paths` sorts the names, and
takes the place of a frame for the second it shows.
-/

namespace NsfwDetector.FrameOrder

open Numerals

/-- The name that `ffmpeg` makes of `frame-%06d.jpg`. -/
def frameName (number : Nat) : String := "frame-" ++ String.ofList (padded 6 number) ++ ".jpg"

def frameFile (directory : String) (number : Nat) : String := Paths.child directory (frameName number)

/-- The files of the frames 1 to `n`. -/
def frameFiles (directory : String) (n : Nat) : List String :=
  (List.range n).map fun k => frameFile directory (k + 1)

/-- The file with number `k + 1` is the one frame at index `k`, after `k` seconds. -/
def InTimeOrder (directory : String) (n : Nat) (frames : List ExtractedFrame) : Prop :=
  ∀ k < n, ∀ frame, frame ∈ frames ∧ frame.path = frameFile directory (k + 1) ↔
    frame = ⟨k, k, frameFile directory (k + 1)⟩

/-! ## Names -/

theorem frameName_toList (number : Nat) :
    (frameName number).toList = "frame-".toList ++ (padded 6 number ++ ".jpg".toList) := by
  have hnumber : (String.ofList (padded 6 number)).toList = padded 6 number := String.toList_ofList
  unfold frameName
  rw [String.toList_append, String.toList_append, hnumber, List.append_assoc]

theorem slash_not_mem_frameName (number : Nat) : '/' ∉ (frameName number).toList := by
  rw [frameName_toList]
  intro hmem
  rcases List.mem_append.mp hmem with hprefix | hmem
  · exact absurd hprefix (by decide)
  rcases List.mem_append.mp hmem with hnumber | hsuffix
  · rcases List.mem_append.mp hnumber with hzero | hdigit
    · cases List.eq_of_mem_replicate hzero
    · exact absurd (Nat.isDigit_of_mem_toDigits (by decide) (by decide) hdigit) (by decide)
  · exact absurd hsuffix (by decide)

theorem frameName_lt {number other : Nat} (h : number < other) (hother : other < 10 ^ 6) :
    (frameName number).toList < (frameName other).toList := by
  have hlength : (padded 6 number).length = (padded 6 other).length := by
    rw [length_padded (by decide) (h.trans hother), length_padded (by decide) hother]
  rw [frameName_toList, frameName_toList]
  exact List.append_left_lt (append_lt_append hlength (.inl (padded_lt (by decide) h hother)))

/-- One digit more, and the text is before the one with six nines. -/
theorem frameName_million_lt : (frameName (10 ^ 6)).toList < (frameName (10 ^ 6 - 1)).toList := by
  decide

/-! ## The sorted files -/

variable {directory : String} {n : Nat} {paths : List String}

theorem length_frameFiles (directory : String) (n : Nat) : (frameFiles directory n).length = n := by
  simp [frameFiles]

theorem frameFiles_sorted (directory : String) (h : n < 10 ^ 6) :
    (frameFiles directory n).Pairwise fun path other => ¬ Paths.Le other path := by
  unfold frameFiles
  rw [List.pairwise_map]
  refine List.pairwise_lt_range.imp_of_mem fun {k l} _ hl hlt => ?_
  have hmax : l + 1 < 10 ^ 6 := by
    have hln := List.mem_range.mp hl
    omega
  exact Paths.child_lt directory (slash_not_mem_frameName _) (slash_not_mem_frameName _)
    (frameName_lt (by omega) hmax)

theorem mem_framesFromPaths {frame : ExtractedFrame} : frame ∈ framesFromPaths paths ↔
    ∃ k, ∃ h : k < (paths.insertionSort Paths.Le).length,
      (⟨k, k, (paths.insertionSort Paths.Le)[k]⟩ : ExtractedFrame) = frame :=
  List.mem_mapIdx

theorem in_time_order_of_sorted (hsorted : paths.insertionSort Paths.Le = frameFiles directory n)
    (hnodup : (frameFiles directory n).Nodup) : InTimeOrder directory n (framesFromPaths paths) := by
  have hfile : ∀ k (hk : k < (frameFiles directory n).length),
      (frameFiles directory n)[k] = frameFile directory (k + 1) := by
    intro k hk
    simp [frameFiles]
  intro k hk frame
  have hlt : k < (frameFiles directory n).length := by rwa [length_frameFiles]
  rw [mem_framesFromPaths]
  simp only [hsorted]
  constructor
  · rintro ⟨⟨l, hl, rfl⟩, hpath⟩
    have heq : (frameFiles directory n)[l] = frameFile directory (k + 1) := hpath
    rw [← hfile k hlt] at heq
    obtain rfl := hnodup.getElem_inj_iff.mp heq
    rw [hfile l hl]
  · rintro rfl
    exact ⟨⟨k, hlt, by rw [hfile k hlt]⟩, rfl⟩

/-- Every file is at its own place, so the sorted files are the files in the order of their numbers. -/
theorem sorted_of_in_time_order (hperm : paths.Perm (frameFiles directory n))
    (h : InTimeOrder directory n (framesFromPaths paths)) :
    paths.insertionSort Paths.Le = frameFiles directory n := by
  have hlength : (paths.insertionSort Paths.Le).length = (frameFiles directory n).length := by
    rw [List.length_insertionSort, hperm.length_eq]
  refine List.ext_getElem hlength fun k hk hk' => ?_
  rw [length_frameFiles] at hk'
  obtain ⟨hmem, -⟩ := (h k hk' _).mpr rfl
  obtain ⟨l, hl, heq⟩ := mem_framesFromPaths.mp hmem
  injection heq with hindex _ hpath
  subst hindex
  simpa [frameFiles] using hpath

theorem not_in_time_order (hperm : paths.Perm (frameFiles directory n)) (h : 10 ^ 6 ≤ n) :
    ¬ InTimeOrder directory n (framesFromPaths paths) := by
  intro horder
  have hsorted := List.pairwise_insertionSort Paths.Le paths
  rw [sorted_of_in_time_order hperm horder, frameFiles, List.pairwise_map] at hsorted
  have hle := List.pairwise_iff_getElem.mp hsorted (10 ^ 6 - 2) (10 ^ 6 - 1)
    (by rw [List.length_range]; omega) (by rw [List.length_range]; omega) (by decide)
  rw [List.getElem_range, List.getElem_range] at hle
  exact Paths.child_lt directory (slash_not_mem_frameName _) (slash_not_mem_frameName _)
    frameName_million_lt hle

/-- The frames of a video are in the order of time exactly if their numbers have six digits. -/
theorem in_time_order_iff (directory : String) (n : Nat) (paths : List String)
    (hperm : paths.Perm (frameFiles directory n)) :
    InTimeOrder directory n (framesFromPaths paths) ↔ n < 10 ^ 6 := by
  constructor
  · intro horder
    by_contra hn
    exact not_in_time_order hperm (not_lt.mp hn) horder
  · intro hn
    have hfiles := frameFiles_sorted directory hn
    have hle : (frameFiles directory n).Pairwise Paths.Le :=
      hfiles.imp fun hnot => (Std.Total.total _ _).resolve_right hnot
    have hsorted : paths.insertionSort Paths.Le = frameFiles directory n :=
      ((List.perm_insertionSort Paths.Le paths).trans hperm).eq_of_pairwise
        (fun _ _ _ _ => Paths.le_antisymm_of_parts) (List.pairwise_insertionSort Paths.Le paths) hle
    have hne : ∀ {path other : String}, ¬ Paths.Le other path → path ≠ other := by
      rintro path _ hnot rfl
      exact hnot (le_refl (Paths.parts path))
    have hnodup : (frameFiles directory n).Nodup := hfiles.imp hne
    exact in_time_order_of_sorted hsorted hnodup

theorem two_frames_in_order : InTimeOrder "frames" 2
    (framesFromPaths ["frames/frame-000002.jpg", "frames/frame-000001.jpg"]) := by
  have hperm : ["frames/frame-000002.jpg", "frames/frame-000001.jpg"].Perm (frameFiles "frames" 2) := by
    decide
  exact (in_time_order_iff "frames" 2 _ hperm).mpr (by decide)

/-- A video of 1000000 seconds. -/
theorem million_frames_out_of_order :
    ¬ InTimeOrder "frames" (10 ^ 6) (framesFromPaths (frameFiles "frames" (10 ^ 6))) :=
  not_in_time_order (.refl _) le_rfl

end NsfwDetector.FrameOrder
