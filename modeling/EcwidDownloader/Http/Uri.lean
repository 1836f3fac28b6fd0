import EcwidDownloader.Downloader.Types

/-!
# HttpParser::uri_parse

The URL is taken apart by `http_parser_parse_url`, a function of a library the
source calls: here it is a parameter. It says which parts a URL has and where
they stand; offsets and lengths count the characters of the string. What
`uri_parse` makes of the parts is the source's own.
-/

namespace EcwidDownloader.Http

/-- `http_parser_url_fields`. -/
inductive UrlField
  | schema
  | host
  | port
  | path
  | query
  | fragment
  | userinfo
  deriving DecidableEq, Repr

/-- `std::string::substr`, within the string. -/
def substr (s : String) (off len : Nat) : String :=
  String.ofList ((s.toList.drop off).take len)

/-- The `http_parser_url` that `http_parser_parse_url` fills in for a text: its
fields lie in the text, and one that is marked in `field_set` is not empty. -/
structure HttpParserUrl (uri : String) where
  fieldSet : UrlField → Bool
  port : UInt16
  off : UrlField → Nat
  len : UrlField → Nat
  within : ∀ f, off f + len f ≤ uri.length
  nonempty : ∀ f, fieldSet f = true → 0 < len f

/-- The text of a field. -/
def HttpParserUrl.field {uri : String} (result : HttpParserUrl uri)
    (f : UrlField) : String :=
  substr uri (result.off f) (result.len f)

/-- What `uri_parse` gives, with what no downloader uses. -/
structure UriParseResult extends EcwidDownloader.UriParseResult where
  username : String := ""
  password : String := ""
  deriving DecidableEq, Repr

def protoDefaultPort (proto : String) : Option Nat :=
  [("http", 80), ("https", 443)].lookup proto

/-- A user and a password, cut at the first colon. -/
def cutUserinfo (userinfo : String) : String × String :=
  (String.ofList (userinfo.toList.takeWhile (· != ':')),
    String.ofList (userinfo.toList.dropWhile (· != ':')).tail)

/-- The `query` of a result: the path or its default, and what follows it. -/
def queryOf {uri : String} (result : HttpParserUrl uri) : String :=
  (if result.fieldSet .path then result.field .path else "/") ++
    (if result.fieldSet .query then "?" ++ result.field .query else "") ++
    (if result.fieldSet .fragment then "#" ++ result.field .fragment else "")

def uriParse (parseUrl : (uri : String) → Option (HttpParserUrl uri))
    (uri : String) : Option UriParseResult :=
  match parseUrl uri with
  | none => none
  | some result =>
      let proto := result.field .schema
      match protoDefaultPort proto with
      | none => none
      | some defaultPort =>
          let user :=
            if result.fieldSet .userinfo then
              cutUserinfo (result.field .userinfo)
            else ("", "")
          some
            { proto := proto
              host := result.field .host
              port :=
                if result.fieldSet .port then result.port.toNat else defaultPort
              query := queryOf result
              username := user.1
              password := user.2 }

end EcwidDownloader.Http
