import Mathlib.Data.List.Infix
import Mathlib.Data.List.Lex
import Mathlib.Data.String.Basic

/-!
# Paths of a POSIX file system

A path is text. The place that it leads to is the list of the names from the file system's root,
with `.` and `..` worked out. Symbolic links are not followed.
-/

namespace Paths

abbrev Name := List Char

/-- The names below the root of the file system. -/
abbrev Place := List Name

def parentName : Name := ['.', '.']

/-- What `pathlib` keeps of the parts between slashes. -/
def IsName (name : Name) : Prop := name ≠ [] ∧ name ≠ ['.']

instance : DecidablePred IsName := fun _ => inferInstanceAs (Decidable (_ ∧ _))

def namesOf (text : List Char) : List Name := (text.splitOn '/').filter IsName

def names (path : String) : List Name := namesOf path.toList

def isAbsolute (path : String) : Bool := path.toList.head? = some '/'

/-- `posixpath.join` -/
def join (path name : String) : String :=
  if isAbsolute name then name
  else if path = "" ∨ path.toList.getLast? = some '/' then path ++ name
  else path ++ "/" ++ name

def walk (place : Place) (name : Name) : Place :=
  if name = parentName then place.dropLast else place ++ [name]

/-- `os.path.abspath`, in the working directory `cwd`. -/
def resolve (cwd : Place) (path : String) : Place :=
  (names path).foldl walk (if isAbsolute path then [] else cwd)

def StrictlyInside (root place : Place) : Prop := root <+: place ∧ place ≠ root

/-! ## Joining -/

theorem namesOf_append_slash (before after : List Char) :
    namesOf (before ++ '/' :: after) = namesOf before ++ namesOf after := by
  unfold namesOf
  rw [List.splitOn_append_cons_self, List.filter_append]

theorem namesOf_single {name : List Char} (h : '/' ∉ name) :
    namesOf name = if IsName name then [name] else [] := by
  unfold namesOf
  rw [List.splitOn_eq_singleton h, List.filter_singleton]
  simp

theorem namesOf_nil : namesOf [] = [] := rfl

theorem isAbsolute_iff (path : String) : isAbsolute path = true ↔ ∃ rest, path.toList = '/' :: rest := by
  unfold isAbsolute
  rw [decide_eq_true_eq, List.head?_eq_some_iff]

theorem not_isAbsolute {name : String} (h : '/' ∉ name.toList) : isAbsolute name = false := by
  rw [Bool.eq_false_iff]
  intro habs
  obtain ⟨rest, hrest⟩ := (isAbsolute_iff name).mp habs
  exact h (by simp [hrest])

/-- A part without a slash adds its name. -/
theorem names_join (path : String) {name : String} (h : '/' ∉ name.toList) :
    names (join path name) = names path ++ namesOf name.toList := by
  unfold names join
  rw [if_neg (by simp [not_isAbsolute h])]
  split
  · next hend =>
    rw [String.toList_append]
    rcases hend with rfl | hslash
    · rfl
    · obtain ⟨before, hbefore⟩ := List.getLast?_eq_some_iff.mp hslash
      rw [hbefore, List.append_assoc, List.singleton_append, namesOf_append_slash,
        namesOf_append_slash, namesOf_nil, List.append_nil]
  · rw [String.toList_append, String.toList_append, List.append_assoc]
    exact namesOf_append_slash _ _

theorem isAbsolute_join (path : String) {name : String} (h : '/' ∉ name.toList) :
    isAbsolute (join path name) = isAbsolute path := by
  unfold join
  rw [if_neg (by simp [not_isAbsolute h])]
  by_cases hpath : path = ""
  · subst hpath
    rw [if_pos (Or.inl rfl), String.empty_append, not_isAbsolute h]
    rfl
  · have hne : path.toList ≠ [] := by simpa using hpath
    unfold isAbsolute
    split <;> simp only [String.toList_append, List.append_assoc, List.head?_append_of_ne_nil _ hne]

theorem resolve_join (cwd : Place) (path : String) {name : String} (h : '/' ∉ name.toList) :
    resolve cwd (join path name) =
      if IsName name.toList then walk (resolve cwd path) name.toList else resolve cwd path := by
  unfold resolve
  rw [names_join path h, isAbsolute_join path h, List.foldl_append, namesOf_single h]
  by_cases hname : IsName name.toList
  · rw [if_pos hname, if_pos hname]
    rfl
  · rw [if_neg hname, if_neg hname]
    rfl

/-! ## The order of `pathlib` -/

/-- The text between slashes. -/
def parts (path : String) : List (List Char) := path.toList.splitOn '/'

/-- `path <= other`: the parts are compared one after the other. -/
def Le (path other : String) : Prop := parts path ≤ parts other

instance : DecidableRel Le := fun path other => inferInstanceAs (Decidable (parts path ≤ parts other))

instance : Std.Total Le := ⟨fun path other => le_total (parts path) (parts other)⟩

instance : IsTrans String Le := ⟨fun _ _ _ => le_trans⟩

/-- `directory / name` -/
def child (directory name : String) : String := if directory = "." then name else join directory name

theorem parts_injective : Function.Injective parts := by
  intro path other h
  have hchars : ['/'].intercalate (parts path) = ['/'].intercalate (parts other) := by rw [h]
  unfold parts at hchars
  rw [List.intercalate_splitOn, List.intercalate_splitOn] at hchars
  exact String.toList_injective hchars

theorem le_antisymm_of_parts {path other : String} (h : Le path other) (h' : Le other path) :
    path = other :=
  parts_injective (le_antisymm h h')

theorem parts_append_slash (before name : List Char) (h : '/' ∉ name) :
    (before ++ '/' :: name).splitOn '/' = before.splitOn '/' ++ [name] := by
  rw [List.splitOn_append_cons_self, List.splitOn_eq_singleton h]

/-- A name is the last part of its path, and the parts before it are those of the directory. -/
theorem parts_child (directory : String) : ∃ before, ∀ name : String, '/' ∉ name.toList →
    parts (child directory name) = before ++ [name.toList] := by
  by_cases hself : directory = "." ∨ directory = ""
  · refine ⟨[], fun name h => ?_⟩
    have hchild : child directory name = name := by
      unfold child join
      rcases hself with rfl | rfl
      · exact if_pos rfl
      · rw [if_neg (by decide), if_neg (by simp [not_isAbsolute h]), if_pos (.inl rfl), String.empty_append]
    rw [hchild]
    exact List.splitOn_eq_singleton h
  · obtain ⟨hdot, hempty⟩ := not_or.mp hself
    by_cases hslash : directory.toList.getLast? = some '/'
    · obtain ⟨before, hbefore⟩ := List.getLast?_eq_some_iff.mp hslash
      refine ⟨before.splitOn '/', fun name h => ?_⟩
      unfold parts child join
      rw [if_neg hdot, if_neg (by simp [not_isAbsolute h]), if_pos (.inr hslash), String.toList_append,
        hbefore, List.append_assoc, List.singleton_append, parts_append_slash _ _ h]
    · refine ⟨directory.toList.splitOn '/', fun name h => ?_⟩
      unfold parts child join
      rw [if_neg hdot, if_neg (by simp [not_isAbsolute h]), if_neg (by simp [hempty, hslash]),
        String.toList_append, String.toList_append, List.append_assoc]
      exact parts_append_slash _ _ h

/-- Files of one directory are in the order of their names. -/
theorem child_lt (directory : String) {name other : String} (hname : '/' ∉ name.toList)
    (hother : '/' ∉ other.toList) (h : name.toList < other.toList) :
    ¬ Le (child directory other) (child directory name) := by
  obtain ⟨before, hbefore⟩ := parts_child directory
  unfold Le
  rw [hbefore name hname, hbefore other hother, not_le]
  exact List.append_left_lt (.rel h)

/-! ## Places inside a place -/

theorem strictlyInside_child (root : Place) (name : Name) : StrictlyInside root (root ++ [name]) := by
  refine ⟨List.prefix_append root [name], ?_⟩
  intro h
  simpa using congrArg List.length h

theorem StrictlyInside.below {root place below : Place} (h : StrictlyInside root place)
    (hbelow : place <+: below) : StrictlyInside root below := by
  refine ⟨h.1.trans hbelow, ?_⟩
  rintro rfl
  exact h.2 (List.IsPrefix.eq_of_length hbelow (le_antisymm hbelow.length_le h.1.length_le))

theorem not_strictlyInside_dropLast (root : Place) : ¬ StrictlyInside root root.dropLast := by
  rintro ⟨hle, hne⟩
  have hlength := hle.length_le
  exact hne (hle.eq_of_length (le_antisymm hlength (List.dropLast_prefix root).length_le)).symm

theorem child_inj {root place : Place} {name other : Name} (h : root ++ [name] <+: place)
    (h' : root ++ [other] <+: place) : name = other := by
  have heq : root ++ [name] = root ++ [other] := by
    rw [List.prefix_iff_eq_take.mp h, List.prefix_iff_eq_take.mp h']
    simp
  simpa using heq

/-! ## Trees -/

/-- The places of the files and directories that there are. -/
abbrev Files := List Place

/-- `shutil.rmtree`: the directory goes with everything in it. -/
def rmtree (directory : Place) (files : Files) : Files := files.filter (¬ directory <+: ·)

/-- `mkdir(parents=True, exist_ok=True)` -/
def mkdirs (directory : Place) (files : Files) : Files :=
  files ++ directory.inits.filter (· ∉ files)

theorem mem_mkdirs_of_mem {directory place : Place} {files : Files} (h : place ∈ files) :
    place ∈ mkdirs directory files :=
  List.mem_append_left _ h

/-- What is gone was in the directory. -/
theorem rmtree_removes {directory place : Place} {files : Files} (h : place ∈ files)
    (hgone : place ∉ rmtree directory files) : directory <+: place := by
  by_contra hout
  exact hgone (List.mem_filter.mpr ⟨h, by simpa using hout⟩)

end Paths
