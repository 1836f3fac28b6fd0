import Mathlib.Computability.RegularExpressions
import EcwidDownloader.Aio.BandwidthController
import EcwidDownloader.Lib.Numeral

/-!
# parse_program_options

The four arguments of the program, after docopt has matched the command line with
the usage. A conversion that fails throws, each in its own way, and one `catch`
clause for `std::runtime_error` stands around all of them. What docopt says of an
argument that does not end with its number is docopt's, a parameter here.
-/

namespace EcwidDownloader

open Lib

/-- The exceptions of the conversions. -/
inductive Exception
  | runtimeError (what : String)
  | invalidArgument
  | outOfRange
  deriving DecidableEq, Repr

structure ProgramOptions where
  concurrency : Nat
  limit : Nat
  path : String
  taskFname : String
  deriving DecidableEq, Repr

/-- The strings docopt has for the four arguments. -/
structure Arguments where
  concurrency : String
  speedLimit : String
  outputPath : String
  taskFileName : String
  deriving DecidableEq, Repr

/-- How a call of `parse_program_options` ends. -/
inductive Outcome
  | returned (options : ProgramOptions)
  | exited (code : Nat) (output : String)
  | escaped (e : Exception)
  deriving DecidableEq, Repr

namespace ProgramOptions

def usage : String :=
  "Ecwid-Console-downloader https://github.com/Ecwid/new-job/blob/master/" ++
    "Console-downloader.md\n\n" ++
    "        Usage:\n" ++
    "         Ecwid-Console-downloader -n <concurrency> -l <speed limit> " ++
    "-o <output path> -f <task file name>\n" ++
    "         Ecwid-Console-downloader (-h | --help)\n\n" ++
    "        Options:\n" ++
    "         -h --help  Show this message\n"

/-! ## The conversions -/

/-- The values of `long`. -/
def FitsLong (v : Int) : Prop :=
  Int64.minValue.toInt ≤ v ∧ v ≤ Int64.maxValue.toInt

instance (v : Int) : Decidable (FitsLong v) :=
  inferInstanceAs (Decidable (_ ∧ _))

/-- `std::stol`, with the number of characters it has used. -/
def stol (s : String) : Except Exception (Int × Nat) :=
  match Numeral.scan s.toList with
  | none => .error .invalidArgument
  | some (n, rest) =>
      if FitsLong n.value then .ok (n.value, s.length - rest.length)
      else .error .outOfRange

/-- `std::stoul`. A minus sign negates in `unsigned long`. -/
def stoul (s : String) : Except Exception Nat :=
  match Numeral.scan s.toList with
  | none => .error .invalidArgument
  | some (n, _) =>
      let magnitude := Numeral.decimal n.digits
      if magnitude < sizeModulus then
        .ok (if n.negative then sizeSub 0 magnitude else magnitude)
      else .error .outOfRange

/-- docopt's `asLong`: `std::stol`, and a check that the whole string was
used. -/
def asLong (nonNumeric : String → String) (s : String) :
    Except Exception Int := do
  let (ret, pos) ← stol s
  if pos ≠ s.length then throw (.runtimeError (nonNumeric s))
  return ret

/-! ## The format of the limit -/

def oneOf (chars : List Char) : RegularExpression Char :=
  chars.foldr (fun c r => .plus (.char c) r) .zero

/-- `\d`. -/
def digit : RegularExpression Char :=
  oneOf ['0', '1', '2', '3', '4', '5', '6', '7', '8', '9']

/-- `^\d+(k|K|m|M)?$`. -/
def re : RegularExpression Char :=
  .comp (.comp digit (.star digit))
    (.plus .epsilon (oneOf ['k', 'K', 'm', 'M']))

/-! ## parse_program_options -/

def parseConcurrency (nonNumeric : String → String) (s : String) :
    Except Exception Nat := do
  let c ← asLong nonNumeric s
  if c < 0 then throw (.runtimeError "Invalid concurrency")
  return c.toNat

/-- `s.substr(0, s.length() - 1)`. -/
def withoutSuffix (s : String) : String := String.ofList s.toList.dropLast

/-- The `switch` over `s.back()`. -/
def convertLimit (s : String) : Except Exception Nat :=
  match s.toList.getLast? with
  | some 'k' | some 'K' =>
      (stoul (withoutSuffix s)).map fun n => n * 1024 % sizeModulus
  | some 'm' | some 'M' =>
      (stoul (withoutSuffix s)).map fun n =>
        n * 1024 % sizeModulus * 1024 % sizeModulus
  | _ => stoul s

def parseSpeedLimit (s : String) : Except Exception Nat := do
  if !re.rmatch s.toList then throw (.runtimeError "Invalid sped limit")
  let speedLimit ← convertLimit s
  if speedLimit = 0 then throw (.runtimeError "Invalid sped limit")
  return speedLimit

/-- The `catch` clause. -/
def caught : Exception → Outcome
  | .runtimeError what => .exited 1 (what ++ "\n" ++ usage)
  | e => .escaped e

def parse (nonNumeric : String → String) (args : Arguments) : Outcome :=
  let converted := do
    let concurrency ← parseConcurrency nonNumeric args.concurrency
    let speedLimit ← parseSpeedLimit args.speedLimit
    return (concurrency, speedLimit)
  match converted with
  | .ok (concurrency, speedLimit) =>
      .returned
        { concurrency := concurrency
          limit := speedLimit
          path := args.outputPath
          taskFname := args.taskFileName }
  | .error e => caught e

end ProgramOptions

end EcwidDownloader
