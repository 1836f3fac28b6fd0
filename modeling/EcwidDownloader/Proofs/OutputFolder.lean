import EcwidDownloader.Lib.Paths
import EcwidDownloader.Proofs.BoundedRedirects
import EcwidDownloader.Proofs.EveryTask
import EcwidDownloader.Proofs.FileContent
import EcwidDownloader.Proofs.ProgramOptions
import EcwidDownloader.Proofs.TaskFile

/-!
# The output folder

The name of a file is made once, of the folder and the second word of a line. It
stays with the job through every redirect, and a downloader opens no file of
another name. So where a file lands is a matter of how the two are put together:
the word is written right behind the folder, which makes an entry of the folder
only when the name of the folder ends with a slash, or when its last component
does not lead away from the directory it is looked up in.
-/

namespace EcwidDownloader

open Lib

namespace DownloaderSimple

variable {S P : Type} [TCPSocket S] [HttpParser P]

/-- A downloader that was run for a URI and a file hands a path to
`file->open`. -/
def Opens (S P : Type) [TCPSocket S] [HttpParser P] (uri fname path : String) :
    Prop :=
  ∃ (sock : S) (resources : Resources) (fault : Option ErrorEvent)
    (w₀ w : World S P) (hist : List (World S P × Occurrence S)),
    run uri fname resources fault { sock := sock, owner := {} } = (true, w₀) ∧
      Runs w₀ hist w ∧ path ∈ w.owner.opened

theorem Opens.path_eq {uri fname path : String} (h : Opens S P uri fname path) :
    path = fname := by
  obtain ⟨sock, resources, fault, w₀, w, hist, hrun, hr, hpath⟩ := h
  have h₀ : Started w₀ := ⟨sock, 10, uri, fname, resources, fault, hrun⟩
  have hname : w₀.owner.fname = fname := by
    obtain ⟨uriParsed, text, rfl⟩ := run_true hrun
    rfl
  obtain ⟨hkept, heven⟩ := hr.invariant'
    (fun x => x.owner.fname = fname ∧ (account x).Even) ⟨hname, h₀.even⟩
    fun x o x' hI hs =>
      ⟨(account_step hs).1.trans hI.1, (account_step hs).2 hI.2⟩
  exact (heven.opened path hpath).trans hkept

end DownloaderSimple

namespace OnTickSimple

/-- In a state of the program a downloader that was made for a line of the task
file, maybe after redirects, hands a path to `file->open`. -/
inductive Handed (D S P : Type) [DecidableEq D] [TCPSocket S] [HttpParser P]
    (args : Arguments) (text word : List Char) (path : String) : Prop
  | of {nonNumeric : String → String} {options : ProgramOptions}
      {creations : List (Creation D)} {w : OnTickSimple D}
      {hist : List (OnTickSimple D × Event D)} {line : List Char} {task : Task}
      {id : Nat} {uri fname : String} :
      ProgramOptions.parse nonNumeric args = .returned options →
      Runs (mainJobs options.concurrency
        (TaskListSimple.tasksOf options.path text) creations) hist w →
      line ∈ TextStream.lines text →
      (TextStream.words line)[1]? = some word →
      TaskListSimple.taskOf options.path line = some task →
      (trail w).TaskOf id task →
      .created id uri fname ∈ w.notes →
      DownloaderSimple.Opens S P uri fname path →
      Handed D S P args text word path

variable {D S P : Type} [DecidableEq D] [TCPSocket S] [HttpParser P]

/-- The path is the folder and the second word. -/
theorem Handed.path_eq {args : Arguments} {text word : List Char}
    {path : String} (h : Handed D S P args text word path) :
    path = args.outputPath ++ String.ofList word := by
  obtain @⟨_, options, _, w, _, line, task, id, uri, fname, hparse, hr, -,
    hword, htask, hjob, hcreated, hopens⟩ := h
  obtain ⟨-, hfolder, -⟩ := ProgramOptions.parse_returned hparse
  have hstep : InStep 10 w := inStep_passes hr .last
  obtain ⟨task', hjob', hname⟩ :=
    (bounded_of_inStep hstep).named id uri fname hcreated
  obtain rfl : task' = task := by
    obtain ⟨k, hk, hget⟩ := hjob
    obtain ⟨k', hk', hget'⟩ := hjob'
    obtain rfl : k = k' := by omega
    exact Option.some.inj (hget'.symm.trans hget)
  have hpath : task'.fname = options.path ++ String.ofList word := by
    unfold TaskListSimple.taskOf at htask
    match hwords : TextStream.words line with
    | [] => rw [hwords] at htask; cases htask
    | [_] => rw [hwords] at htask; cases htask
    | uri :: second :: _ =>
        rw [hwords] at htask hword
        cases htask
        cases hword
        rfl
  rw [hopens.path_eq, hname, hpath, hfolder]

/-- The path denotes an entry directly inside the output folder, and no line
with another second word has that path. -/
def Lands {Dir : Type} (fs : FileSystem Dir) (D S P : Type) [DecidableEq D]
    [TCPSocket S] [HttpParser P] (args : Arguments) (text word : List Char)
    (path : String) : Prop :=
  fs.DirectlyIn args.outputPath.toList path.toList ∧
    ∀ word' path', Handed D S P args text word' path' → word' ≠ word →
      path' ≠ path

/-- A second word that is a name of its own. -/
def Plain (word : List Char) : Prop :=
  '/' ∉ word ∧ word ≠ ['.'] ∧ word ≠ ['.', '.']

/-- Wherever the folder is, its name ends with a slash, or the last component of
the name leads from the directory before it back to that directory. A word with
a null character is cut there, and what is left has to make a name with that
component. -/
def StaysIn {Dir : Type} (fs : FileSystem Dir) (folder word : List Char) :
    Prop :=
  ∀ d, fs.directory folder = some d →
    (folder.getLast? = some '/' ∨ fs.above folder = some d) ∧
      ('\x00' ∈ word →
        FileSystem.IsName (FileSystem.lastName folder ++
          FileSystem.cString word))

/-- A plain word makes a name with whatever it is put behind. -/
theorem Plain.isName {word : List Char} (h : Plain word) (hne : word ≠ [])
    (last : List Char) : FileSystem.IsName (last ++ word) := by
  obtain ⟨-, hdot, hdots⟩ := h
  refine ⟨List.append_ne_nil_of_right_ne_nil _ hne, fun heq => ?_,
    fun heq => ?_⟩
  · rcases List.append_eq_singleton_iff.mp heq with ⟨-, hw⟩ | ⟨-, hw⟩
    · exact hdot hw
    · exact hne hw
  · match last with
    | [] => exact hdots heq
    | [_] => exact hdot (List.cons.inj heq).2
    | _ :: _ :: last =>
        exact hne (List.append_eq_nil_iff.mp
          (List.cons.inj (List.cons.inj heq).2).2).2

theorem Handed.word_ne_nil {args : Arguments} {text word : List Char}
    {path : String} (h : Handed D S P args text word path) : word ≠ [] := by
  obtain ⟨-, -, -, hword, -, -, -, -⟩ := h
  exact TextStream.words_ne_nil (List.mem_of_getElem? hword)

/-- Where the files land: the path that a downloader made for a line hands to
`file->open` is one in the folder, and that line's only, exactly when the folder
and the second word are such that it stays in the folder. -/
theorem lands_in_folder_iff {Dir : Type} (fs : FileSystem Dir)
    {args : Arguments} {text word : List Char} {path : String}
    (hfolder : args.outputPath ≠ "") (hnull : '\x00' ∉ args.outputPath.toList)
    (hplain : Plain word) (h : Handed D S P args text word path) :
    Lands fs D S P args text word path ↔
      StaysIn fs args.outputPath.toList word := by
  have hpath : path.toList = args.outputPath.toList ++ word := by
    rw [h.path_eq, String.toList_append, String.toList_ofList]
  have hother : ∀ word' path', Handed D S P args text word' path' →
      word' ≠ word → path' ≠ path := by
    intro word' path' h' hne heq
    have hpath' : path'.toList = args.outputPath.toList ++ word' := by
      rw [h'.path_eq, String.toList_append, String.toList_ofList]
    rw [heq, hpath] at hpath'
    exact hne (List.append_cancel_left hpath').symm
  have hne : args.outputPath.toList ≠ [] :=
    fun hnil => hfolder (String.toList_eq_nil_iff.mp hnil)
  rw [Lands, and_iff_left hother, hpath, fs.directlyIn_append hne hnull hplain.1]
  refine forall_congr' fun d => imp_congr_right fun _ =>
    and_congr_right fun _ => ⟨fun hname _ => hname, fun hname => ?_⟩
  by_cases hcut : '\x00' ∈ word
  · exact hname hcut
  · rw [FileSystem.cString_eq hcut]
    exact hplain.isName h.word_ne_nil _

/-! ## The example call -/

/-- Directories without end, by the names that lead to them; the program is
started in the topmost. -/
def directories : FileSystem (List (List Char)) where
  root := []
  cwd := []
  enter d name :=
    if name = ['.'] then some d
    else if name = ['.', '.'] then some d.dropLast
    else some (d ++ [name])

/-- `-n 5 -l 2000k -o <folder> -f links.txt`. -/
def exampleCall (folder : String) : Arguments :=
  ⟨"5", "2000k", folder, "links.txt"⟩

/-- `my_archive.zip`. -/
def archive : List Char := "my_archive.zip".toList

def links : List Char :=
  ("http://example.com/archive.zip my_archive.zip\n" ++
    "http://example.com/image.jpg picture.jpg\n").toList

theorem tasksOf_links (folder : String) :
    ∃ line uri image, line ∈ TextStream.lines links ∧
      (TextStream.words line)[1]? = some archive ∧
      TaskListSimple.taskOf folder line =
        some ⟨uri, folder ++ String.ofList archive⟩ ∧
      TaskListSimple.tasksOf folder links =
        [⟨uri, folder ++ String.ofList archive⟩, image] := by
  have hlines : TextStream.lines links =
      ["http://example.com/archive.zip my_archive.zip".toList,
        "http://example.com/image.jpg picture.jpg".toList, []] := by
    decide
  have harchive : TextStream.words
      "http://example.com/archive.zip my_archive.zip".toList =
        ["http://example.com/archive.zip".toList, archive] := by
    decide
  have himage : TextStream.words
      "http://example.com/image.jpg picture.jpg".toList =
        ["http://example.com/image.jpg".toList, "picture.jpg".toList] := by
    decide
  have hempty : TextStream.words [] = [] := by decide
  refine ⟨_, String.ofList "http://example.com/archive.zip".toList,
    ⟨String.ofList "http://example.com/image.jpg".toList,
      folder ++ String.ofList "picture.jpg".toList⟩,
    hlines ▸ List.mem_cons_self, ?_, ?_, ?_⟩
  · rw [harchive]
    rfl
  · rw [TaskListSimple.taskOf, harchive]
  · rw [TaskListSimple.tasksOf, hlines]
    simp only [List.filterMap_cons, List.filterMap_nil, TaskListSimple.taskOf,
      harchive, himage, hempty]

/-- The first of two tasks is redirected. -/
theorem created_again (task task' : Task) (uri : String) : ∃ hist w,
    Runs (mainJobs 5 [task, task'] [.made 1, .made 2]) hist w ∧
      (trail w).TaskOf 1 task ∧ .created 1 uri task.fname ∈ w.notes := by
  obtain ⟨hist, w, hexec, htasks, hnotes⟩ : ∃ hist w,
      exec step (mainJobs 5 [task, task'] [.made 1, .made 2])
        [.invoke 1 { state := .redirect, redirectUri := uri } [.made 3]] =
          some (hist, w) ∧
        (trail w).tasks = [task, task'] ∧
        w.notes.getLast? = some (.created 1 uri task.fname) :=
    ⟨_, _, rfl, rfl, rfl⟩
  exact ⟨hist, w, run_of_exec hexec, ⟨0, rfl, htasks ▸ rfl⟩,
    List.mem_of_getLast? hnotes⟩

/-- The names that a downloader has given to `file->open` when it has got a
response. -/
def answered (uri fname : String) : Option (List String) :=
  (exec DownloaderSimple.step
    (DownloaderSimple.run uri fname {} none
      ({ sock := TCPSocketBandwidth.create 0, owner := {} } :
        DownloaderSimple.World TCPSocketBandwidth
          (DownloaderSimple.Scripted DownloaderSimple.oneSegment))).2
    (DownloaderSimple.requested ++
      [DownloaderSimple.plainly
        (.socket (.dataEvent DownloaderSimple.oneByte))])).map
    fun r => r.2.owner.opened

theorem handed_archive (folder uri : String)
    (h : answered uri (folder ++ String.ofList archive) =
      some [folder ++ String.ofList archive]) :
    Handed Nat TCPSocketBandwidth
      (DownloaderSimple.Scripted DownloaderSimple.oneSegment)
      (exampleCall folder) links archive
      (folder ++ String.ofList archive) := by
  have hconcurrency : ProgramOptions.parseConcurrency id "5" = .ok 5 := by
    decide
  have hlimit : ProgramOptions.parseSpeedLimit "2000k" = .ok 2048000 := by
    decide
  obtain ⟨line, first, image, hline, hword, htask, htasks⟩ :=
    tasksOf_links folder
  obtain ⟨hist, w, hr, hjob, hcreated⟩ := created_again
    ⟨first, folder ++ String.ofList archive⟩ image uri
  obtain ⟨⟨_, w'⟩, hexec, hopened⟩ := Option.map_eq_some_iff.mp h
  exact .of (ProgramOptions.parse_of_both hconcurrency hlimit) (htasks ▸ hr)
    hline hword htask hjob hcreated
    ⟨TCPSocketBandwidth.create 0, {}, none, _, w', _, rfl, run_of_exec hexec,
      hopened ▸ List.mem_singleton_self _⟩

/-- In the example call the file of the first line is put beside the folder. -/
theorem lands_beside_folder :
    ¬ ∀ (fs : FileSystem (List (List Char))) (args : Arguments)
      (text word : List Char) (path : String),
      args.outputPath ≠ "" → '\x00' ∉ args.outputPath.toList → Plain word →
      Handed Nat TCPSocketBandwidth
        (DownloaderSimple.Scripted DownloaderSimple.oneSegment) args text word
        path →
      Lands fs Nat TCPSocketBandwidth
        (DownloaderSimple.Scripted DownloaderSimple.oneSegment) args text word
        path := by
  intro hall
  obtain ⟨hin, -⟩ := hall directories (exampleCall "output_folder") links archive
    ("output_folder" ++ String.ofList archive) (by decide) (by decide)
    ⟨by decide, by decide, by decide⟩
    (handed_archive "output_folder" "http://www.example.com/" rfl)
  obtain ⟨name, hentry⟩ := hin ["output_folder".toList] (by decide)
  have hbeside : directories.entry (FileSystem.cString
      ("output_folder" ++ String.ofList archive).toList) =
      some ([], "output_foldermy_archive.zip".toList) := by decide
  rw [hbeside] at hentry
  cases hentry

/-- With the slash that the tests have it is put inside. -/
theorem lands_in_folder_out :
    Lands directories Nat TCPSocketBandwidth
      (DownloaderSimple.Scripted DownloaderSimple.oneSegment)
      (exampleCall "out/") links archive
      ("out/" ++ String.ofList archive) := by
  have hhanded := handed_archive "out/" "http://www.example.com/" rfl
  have hplain : Plain archive := ⟨by decide, by decide, by decide⟩
  exact (lands_in_folder_iff directories (by decide) (by decide) hplain
    hhanded).mpr fun _ _ =>
      ⟨.inl (by decide), fun hnull => absurd hnull (by decide)⟩

end OnTickSimple

end EcwidDownloader
