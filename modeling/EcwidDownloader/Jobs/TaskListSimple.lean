import EcwidDownloader.Jobs.OnTickSimple
import EcwidDownloader.Lib.TextStream

/-!
# TaskListSimple

The task file as a stream of text, one char of the file a character. `get` loops
until the end of the file is seen or a line with a task; nothing else ends the
loop, so it is given a number of `getline` calls it may make.
-/

namespace EcwidDownloader

open Lib

structure TaskListSimple where
  stream : TextStream
  path : String
  deriving DecidableEq, Repr

namespace TaskListSimple

/-- The list `main` makes of an opened file that can be read. -/
def opened (text : List Char) (path : String) : TaskListSimple :=
  { stream := { rest := text }, path := path }

/-- What the loop of `get` makes of a line: a task to return, or nothing before
it goes on. -/
def taskOfLine (path : String) (buf : List Char) : Option Task :=
  if buf.isEmpty then none
  else
    let sbuf : TextStream := { rest := buf }
    let (uri, sbuf) := sbuf.word
    let (fname, _) := sbuf.word
    if uri.isEmpty || fname.isEmpty then none
    else some ⟨String.ofList uri, path ++ String.ofList fname⟩

/-- `get`, allowed a number of `getline` calls: the task it returns, which may be
null, unless it needs more of them. -/
def get : Nat → TaskListSimple → Option (Option Task × TaskListSimple)
  | 0, l => if l.stream.eof then some (none, l) else none
  | n + 1, l =>
      if l.stream.eof then some (none, l)
      else
        let (buf, stream) := l.stream.getline
        let l := { l with stream := stream }
        match taskOfLine l.path buf with
        | none => get n l
        | some task => some (some task, l)

/-- The results of a number of calls of `get`, one after the other. -/
def calls (n : Nat) : Nat → TaskListSimple → Option (List (Option Task))
  | 0, _ => some []
  | m + 1, l => do
      let (task, l) ← get n l
      let tasks ← calls n m l
      return task :: tasks

end TaskListSimple

end EcwidDownloader
