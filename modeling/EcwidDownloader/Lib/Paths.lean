import Mathlib.Data.Option.Basic

/-!
# Paths

How a system that separates the components of a path by slashes finds its way. A
path that begins with a slash starts at the root, any other one in the current
directory; empty components are passed over, and every other one leads from a
directory to the next, be it through a link. The last component is not followed:
the path denotes the entry of that name, there or not, in the directory that the
components before it lead to. A path ends at its first null character.
-/

namespace EcwidDownloader.Lib

/-- The directories, and which of them a component leads to. -/
structure FileSystem (Dir : Type) where
  root : Dir
  cwd : Dir
  enter : Dir → List Char → Option Dir

namespace FileSystem

def components (path : List Char) : List (List Char) := path.splitOn '/'

/-- What stands after the last slash. -/
def lastName (path : List Char) : List Char := (components path).getLastD []

/-- The names that an entry of a directory can have of its own. -/
def IsName (name : List Char) : Prop :=
  name ≠ [] ∧ name ≠ ['.'] ∧ name ≠ ['.', '.']

instance (name : List Char) : Decidable (IsName name) :=
  inferInstanceAs (Decidable (_ ∧ _ ∧ _))

/-- `c_str()`, as its reader sees it. -/
def cString (path : List Char) : List Char := path.takeWhile (· != '\x00')

section

variable {Dir : Type} (fs : FileSystem Dir)

def start (path : List Char) : Dir :=
  if path.head? = some '/' then fs.root else fs.cwd

def pass (d : Dir) (name : List Char) : Option Dir :=
  if name = [] then some d else fs.enter d name

def walk (d : Dir) (names : List (List Char)) : Option Dir :=
  names.foldlM fs.pass d

/-- The directory that a path leads to. The empty path leads nowhere. -/
def directory (path : List Char) : Option Dir :=
  if path = [] then none else fs.walk (fs.start path) (components path)

/-- The directory that the components before the last one lead to. -/
def above (path : List Char) : Option Dir :=
  fs.walk (fs.start path) (components path).dropLast

/-- The entry that a path denotes. -/
def entry (path : List Char) : Option (Dir × List Char) :=
  if IsName (lastName path) then (fs.above path).map (·, lastName path)
  else none

/-- Wherever the folder is, the path denotes an entry directly inside it. -/
def DirectlyIn (folder path : List Char) : Prop :=
  ∀ d, fs.directory folder = some d →
    ∃ name, fs.entry (cString path) = some (d, name)

end

/-! ## A word put behind a path -/

theorem components_append {word : List Char} (h : '/' ∉ word) :
    ∀ path : List Char, ∃ front last, components path = front ++ [last] ∧
      components (path ++ word) = front ++ [last ++ word]
  | [] => ⟨[], [], rfl, List.splitOn_eq_singleton h⟩
  | c :: path => by
      obtain ⟨front, last, hpath, hword⟩ := components_append h path
      unfold components at hpath hword ⊢
      rw [List.cons_append, List.splitOn_cons_eq_if_modifyHead,
        List.splitOn_cons_eq_if_modifyHead, hpath, hword]
      by_cases hc : (c == '/') = true
      · rw [if_pos hc, if_pos hc]
        exact ⟨[] :: front, last, rfl, rfl⟩
      · rw [if_neg hc, if_neg hc]
        cases front with
        | nil => exact ⟨[], c :: last, rfl, rfl⟩
        | cons first front => exact ⟨(c :: first) :: front, last, rfl, rfl⟩

theorem components_split (path : List Char) :
    components path = (components path).dropLast ++ [lastName path] := by
  obtain ⟨front, last, hpath, -⟩ :=
    components_append List.not_mem_nil path
  unfold lastName
  rw [hpath]
  simp

/-- It is written to the end of the last component. -/
theorem lastName_append {word : List Char} (h : '/' ∉ word)
    (path : List Char) : lastName (path ++ word) = lastName path ++ word := by
  obtain ⟨front, last, hpath, hword⟩ := components_append h path
  unfold lastName
  rw [hpath, hword]
  simp

variable {Dir : Type} (fs : FileSystem Dir)

theorem above_append {path word : List Char} (h : '/' ∉ word)
    (hpath : path ≠ []) : fs.above (path ++ word) = fs.above path := by
  obtain ⟨front, last, hsplit, hword⟩ := components_append h path
  have hstart : fs.start (path ++ word) = fs.start path := by
    unfold start
    rw [List.head?_append, List.head?_eq_some_head hpath, Option.some_or]
  unfold above
  rw [hstart, hsplit, hword]
  simp

/-- The last component leads on from there. -/
theorem directory_eq {path : List Char} (hpath : path ≠ []) :
    fs.directory path = (fs.above path).bind (fs.pass · (lastName path)) := by
  unfold directory
  rw [if_neg hpath, components_split, walk, List.foldlM_append]
  simp [above, walk]

theorem entry_append {path word : List Char} (h : '/' ∉ word)
    (hpath : path ≠ []) :
    fs.entry (path ++ word) =
      if IsName (lastName path ++ word) then
        (fs.above path).map (·, lastName path ++ word)
      else none := by
  unfold entry
  rw [lastName_append h, fs.above_append h hpath]

theorem lastName_eq_nil {path : List Char} (hpath : path ≠ []) :
    lastName path = [] ↔ path.getLast? = some '/' := by
  obtain ⟨front, c, rfl⟩ := List.eq_nil_or_concat path |>.resolve_left hpath
  rw [List.concat_eq_append, List.getLast?_append]
  by_cases hc : c = '/'
  · subst hc
    unfold lastName components
    rw [List.splitOn_append_cons_self]
    simp
  · rw [lastName_append (by simpa using Ne.symm hc)]
    simp [hc]

theorem cString_append {path word : List Char} (h : '\x00' ∉ path) :
    cString (path ++ word) = path ++ cString word := by
  unfold cString
  refine List.takeWhile_append_of_pos fun c hc => ?_
  have hne : c ≠ '\x00' := fun heq => h (heq ▸ hc)
  simpa using hne

theorem cString_eq {word : List Char} (h : '\x00' ∉ word) :
    cString word = word := by
  have happ : cString (word ++ []) = word ++ cString [] := cString_append h
  rw [List.append_nil] at happ
  exact happ.trans (List.append_nil word)

theorem not_mem_cString {word : List Char} {c : Char} (h : c ∉ word) :
    c ∉ cString word :=
  fun hmem => h ((List.takeWhile_prefix _).subset hmem)

/-- A word put behind the name of a folder denotes an entry of that folder if
nothing follows the last slash of the name, or what follows it does not lead
away, and if the two make a name together. -/
theorem directlyIn_append {folder word : List Char} (hfolder : folder ≠ [])
    (hnull : '\x00' ∉ folder) (hword : '/' ∉ word) :
    fs.DirectlyIn folder (folder ++ word) ↔
      ∀ d, fs.directory folder = some d →
        (folder.getLast? = some '/' ∨ fs.above folder = some d) ∧
          IsName (lastName folder ++ cString word) := by
  unfold DirectlyIn
  rw [cString_append hnull, fs.entry_append (not_mem_cString hword) hfolder]
  refine forall_congr' fun d => imp_congr_right fun hd => ?_
  have hlast : folder.getLast? = some '/' → fs.above folder = some d := by
    intro hslash
    rw [fs.directory_eq hfolder, (lastName_eq_nil hfolder).mpr hslash] at hd
    simpa [pass] using hd
  by_cases hname : IsName (lastName folder ++ cString word)
  · rw [if_pos hname, or_iff_right_of_imp hlast]
    constructor
    · rintro ⟨name, heq⟩
      obtain ⟨d', habove, hpair⟩ := Option.map_eq_some_iff.mp heq
      cases hpair
      exact ⟨habove, hname⟩
    · rintro ⟨habove, -⟩
      exact ⟨_, by rw [habove]; rfl⟩
  · rw [if_neg hname]
    simp [hname]

end FileSystem

end EcwidDownloader.Lib
