import EcwidDownloader.Lib.Chars
import EcwidDownloader.Http.Uri

/-!
# HttpParser::response_parse

The bytes of a response are taken apart by `http_parser_execute`, a function of a
library the source calls: here it is a parameter, with what it would call back
for the bytes it is given, in order. A callback may pause the parser. A parser
that is paused or has failed calls nothing back any more and looks at no further
bytes.

The text of some bytes is made of the texts of any pieces of them. A string that
has been moved from is empty.
-/

namespace EcwidDownloader.Http

open Lib

/-- The calls `http_parser_execute` makes, each with what it passes: the status
has the code the parser has read before, the end of the headers the length. -/
inductive HttpCallback
  | status (code : Nat) (data : Bytes)
  | headerField (data : Bytes)
  | headerValue (data : Bytes)
  | headersComplete (contentLength : Nat)
  | body (data : Bytes)
  | messageComplete
  deriving DecidableEq, Repr

/-- The library. `execute` gives the parser it leaves behind, the calls it makes
if none of them pauses it, and the description of the error it then ends with. -/
class HttpParserLibrary (L : Type) where
  parseUrl : (uri : String) → Option (HttpParserUrl uri)
  init : L
  execute : L → Bytes → L × List HttpCallback × Option String

/-- `http_errno`. -/
inductive HttpErrno
  | ok
  | paused
  | failed (description : String)
  deriving DecidableEq, Repr

inductive ModeHeader
  | field
  | value
  deriving DecidableEq, Repr

/-- `headers.emplace`, which leaves a header alone that is there. -/
def emplace (name value : String) (headers : List (String × String)) :
    List (String × String) :=
  if (headers.lookup name).isSome then headers else headers ++ [(name, value)]

/-- An `HttpParser`, with the error number of the library's parser. -/
structure ResponseParser where
  errno : HttpErrno := .ok
  result : ResponseParseResult := { state := .inProgress }
  headers : List (String × String) := []
  fieldHeader : String := ""
  valueHeader : String := ""
  modeHeader : ModeHeader := .field
  redirect : Bool := false
  -- what is seen from outside
  /-- What `cb_on_data` was called with, oldest first. -/
  data : List Bytes := []
  /-- The headers as `on_headers_complete` has found them. -/
  found : Option (List (String × String)) := none
  deriving DecidableEq, Repr

namespace ResponseParser

/-- `stop`. -/
def stop (state : ParseState) (p : ResponseParser) : ResponseParser :=
  { p with result.state := state, errno := .paused }

def onStatus (code : Nat) (data : Bytes) (p : ResponseParser) :
    ResponseParser :=
  match code with
  | 200 | 202 | 203 => p
  | 301 | 302 | 303 => { p with redirect := true }
  | _ => stop .error
      { p with result.errStr := toString code ++ " " ++ text data }

/-- The header that has been put together goes to the others. -/
def flush (p : ResponseParser) : ResponseParser :=
  { p with
    headers := emplace p.fieldHeader p.valueHeader p.headers
    fieldHeader := ""
    valueHeader := "" }

def onHeaderField (data : Bytes) (p : ResponseParser) : ResponseParser :=
  match p.modeHeader with
  | .field => { p with fieldHeader := p.fieldHeader ++ text data }
  | .value => { flush p with fieldHeader := text data, modeHeader := .field }

def onHeaderValue (data : Bytes) (p : ResponseParser) : ResponseParser :=
  match p.modeHeader with
  | .value => { p with valueHeader := p.valueHeader ++ text data }
  | .field => { p with valueHeader := text data, modeHeader := .value }

/-- The last header is not followed by another. -/
def flushLast (p : ResponseParser) : ResponseParser :=
  if p.fieldHeader.isEmpty then p else flush p

def onHeadersComplete (contentLength : Nat) (p : ResponseParser) :
    ResponseParser :=
  let p := flushLast p
  let p := { p with found := some p.headers }
  if p.redirect then
    match p.headers.lookup "Location" with
    -- the value is moved out of the headers, which nothing reads any more
    | some uri => stop .redirect { p with result.redirectUri := uri }
    | none => stop .error
        { p with result.errStr := "Invalid redirect, missing Location header" }
  else { p with result.contentLength := contentLength }

def onBody (data : Bytes) (p : ResponseParser) : ResponseParser :=
  { p with data := p.data ++ [data] }

def onMessageComplete (p : ResponseParser) : ResponseParser :=
  stop .done p

/-- A call of the library. -/
def callback : HttpCallback → ResponseParser → ResponseParser
  | .status code data => onStatus code data
  | .headerField data => onHeaderField data
  | .headerValue data => onHeaderValue data
  | .headersComplete contentLength => onHeadersComplete contentLength
  | .body data => onBody data
  | .messageComplete => onMessageComplete

/-- The calls of the library, until one has paused it. -/
def callbacks : List HttpCallback → ResponseParser → ResponseParser
  | [], p => p
  | cb :: cbs, p => if p.errno = .ok then callbacks cbs (callback cb p) else p

/-- An error the library ends with, unless it has been paused. -/
def endWith (err : Option String) (p : ResponseParser) : ResponseParser :=
  match err with
  | some description =>
      if p.errno = .ok then { p with errno := .failed description } else p
  | none => p

/-- What `response_parse` does after `http_parser_execute`. -/
def settle (p : ResponseParser) : ResponseParser :=
  match p.errno with
  | .ok | .paused => p
  | .failed description =>
      { p with result.state := .error, result.errStr := description }

end ResponseParser

/-- An `HttpParser` with the library's parser. -/
structure LibraryParser (L : Type) extends ResponseParser where
  parser : L

namespace LibraryParser

variable {L : Type} [HttpParserLibrary L]

/-- `http_parser_execute`. -/
def execute (data : Bytes) (p : LibraryParser L) : LibraryParser L :=
  if p.errno = .ok then
    let (parser, cbs, err) := HttpParserLibrary.execute p.parser data
    { (p.toResponseParser.callbacks cbs).endWith err with parser := parser }
  else p

def responseParse (p : LibraryParser L) (data : Bytes) : LibraryParser L :=
  let p := execute data p
  { p.toResponseParser.settle with parser := p.parser }

/-- `HttpParser::create`. -/
def create : LibraryParser L := { parser := HttpParserLibrary.init }

/-- The parser after a number of calls of `response_parse`. -/
def parse (calls : List Bytes) : LibraryParser L :=
  calls.foldl responseParse create

/-- The parser a downloader works with. -/
instance : HttpParser (LibraryParser L) where
  uriParse uri :=
    (uriParse (HttpParserLibrary.parseUrl L) uri).map
      UriParseResult.toUriParseResult
  create := create
  responseParse p data :=
    let p' := responseParse p data
    (p', p'.data.drop p.data.length, p'.result)

end LibraryParser

end EcwidDownloader.Http
