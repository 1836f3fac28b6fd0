import EcwidDownloader.Downloader.Simple
import EcwidDownloader.Lib.HttpRequest
import EcwidDownloader.Proofs.UriRoundTrip

/-!
# What a request asks for

`make_request` writes a request of HTTP/1.1 with one field. What it sends as the
target is the `query` of the URI, which `uri_parse` has glued together with the
fragment; what it sends as the host is the host without the port. As long as no
space and no control character gets into the parts, the request is read back as
just that.
-/

namespace EcwidDownloader.Http

open Lib DownloaderSimple

/-- No space and no control character is in the parts a request is made of. -/
def Clean {uri : String} (result : HttpParserUrl uri) : Prop :=
  ∀ f ∈ [UrlField.host, .path, .query, .fragment],
    f = .host ∨ result.fieldSet f = true →
    ∀ c ∈ (result.field f).toList, 32 < c.toNat ∧ c.toNat ≠ 127

/-- The path and the query: what a request for the URI is to ask for. -/
def resourceOf {uri : String} (result : HttpParserUrl uri) : String :=
  (if result.fieldSet .path then result.field .path else "/") ++
    if result.fieldSet .query then "?" ++ result.field .query else ""

/-- The fragment with its mark. -/
def fragmentOf {uri : String} (result : HttpParserUrl uri) : String :=
  if result.fieldSet .fragment then "#" ++ result.field .fragment else ""

/-- The host with its port, unless it is the one of the scheme: where a request
for the URI is to go. -/
def hostOf (r : UriParseResult) : String :=
  if protoDefaultPort r.proto = some r.port then r.host
  else r.host ++ ":" ++ toString r.port

/-- The request `make_request` writes. -/
def requestOf (r : UriParseResult) : HttpRequest where
  method := bytes "GET"
  target := bytes r.query
  version := bytes "HTTP/1.1"
  fields := [(bytes "Host", bytes r.host)]

theorem makeRequest_eq (r : UriParseResult) :
    makeRequest r.toUriParseResult = (requestOf r).write := by
  have hget : bytes "GET " = bytes "GET" ++ [HttpRequest.sp] := by decide
  have hversion : bytes " HTTP/1.1\r\n" = HttpRequest.sp ::
      bytes "HTTP/1.1" ++ [HttpRequest.cr, HttpRequest.lf] := by decide
  have hhost : bytes "Host: " =
      bytes "Host" ++ [HttpRequest.colon, HttpRequest.sp] := by decide
  have hend : bytes "\r\n" = [HttpRequest.cr, HttpRequest.lf] := by decide
  unfold makeRequest
  simp [bytes_append, hget, hversion, hhost, hend, requestOf, HttpRequest.write,
    HttpRequest.writeField]

/-! ## The parts are words -/

/-- A text without spaces and control characters. -/
def Plain (s : String) : Prop := ∀ c ∈ s.toList, 32 < c.toNat

theorem Plain.append {s t : String} (hs : Plain s) (ht : Plain t) :
    Plain (s ++ t) := by
  intro c hc
  rw [String.toList_append] at hc
  rcases List.mem_append.mp hc with hc | hc
  · exact hs c hc
  · exact ht c hc

/-- Its bytes can be seen: they are above the space. -/
theorem Plain.visible {s : String} (h : Plain s) :
    ∀ b ∈ bytes s, HttpRequest.isEnd b = false ∧
      HttpRequest.isBlank b = false ∧ b ≠ HttpRequest.sp := by
  intro b hb
  have hlt := lt_byte (by decide) h b hb
  have hne (b' : UInt8) (h' : b'.toNat ≤ 32) : b ≠ b' := by
    rintro rfl
    omega
  have hcr := hne HttpRequest.cr (by decide)
  have hlf := hne HttpRequest.lf (by decide)
  have hsp := hne HttpRequest.sp (by decide)
  have htab := hne HttpRequest.tab (by decide)
  exact ⟨by simp [HttpRequest.isEnd, hcr, hlf],
    by simp [HttpRequest.isBlank, hsp, htab], hsp⟩

theorem Plain.isWord {s : String} (h : Plain s) (hne : s ≠ "") :
    HttpRequest.IsWord (bytes s) :=
  ⟨bytes_ne_nil hne, fun b hb => ⟨(h.visible b hb).1, (h.visible b hb).2.2⟩⟩

/-- The request is one that is read back. -/
theorem requestOf_wellFormed {r : UriParseResult} (hquery : Plain r.query)
    (hne : r.query ≠ "") (hhost : Plain r.host) :
    (requestOf r).WellFormed where
  method := Plain.isWord (by simp [Plain]) (by decide)
  target := hquery.isWord hne
  version := Plain.isWord (by simp [Plain]) (by decide)
  fields := by
    have hname : ∀ b ∈ bytes "Host", HttpRequest.isEnd b = false ∧
        HttpRequest.isBlank b = false ∧ b ≠ HttpRequest.colon := by
      rw [← List.forall_iff_forall_mem]
      decide
    intro field hfield
    rw [List.mem_singleton.mp hfield]
    exact ⟨bytes_ne_nil (by decide), hname, fun b hb => (hhost.visible b hb).1,
      HttpRequest.trim_eq fun b hb => (hhost.visible b hb).2.1⟩

variable {uri : String} {result : HttpParserUrl uri}

theorem Clean.plain (h : Clean result) {f : UrlField}
    (hf : f ∈ [UrlField.host, .path, .query, .fragment])
    (hset : f = .host ∨ result.fieldSet f = true) : Plain (result.field f) :=
  fun c hc => (h f hf hset c hc).1

theorem queryOf_eq (result : HttpParserUrl uri) :
    queryOf result = resourceOf result ++ fragmentOf result := rfl

theorem Clean.query (h : Clean result) : Plain (queryOf result) := by
  have hlit (s : String) (hs : ∀ c ∈ s.toList, 32 < c.toNat) : Plain s := hs
  have hoptional (f : UrlField)
      (hf : f ∈ [UrlField.host, .path, .query, .fragment]) {t other : String}
      (ht : Plain t) (ho : Plain other) :
      Plain (if result.fieldSet f then t ++ result.field f else other) := by
    split
    · next hset => exact ht.append (h.plain hf (.inr hset))
    · exact ho
  have hempty : Plain "" := hlit "" (by simp)
  have hpath := hoptional .path (by simp) hempty (hlit "/" (by simp))
  simp only [String.empty_append] at hpath
  exact (hpath.append (hoptional .query (by simp) (hlit "?" (by simp))
    hempty)).append (hoptional .fragment (by simp) (hlit "#" (by simp)) hempty)

/-- There is a path, or the default one. -/
theorem queryOf_ne (result : HttpParserUrl uri) : queryOf result ≠ "" := by
  have hpath : (if result.fieldSet .path then result.field .path
      else "/") ≠ "" := by
    split
    · next hset =>
        have hlen := result.nonempty .path hset
        have hwithin := result.within .path
        rw [← String.length_toList] at hwithin
        intro hnil
        have hzero := congrArg (fun s => s.toList.length) hnil
        simp [HttpParserUrl.field, substr] at hzero
        omega
    · decide
  intro hnil
  have hlist := congrArg String.toList hnil
  simp only [queryOf, String.toList_append, String.toList_empty,
    List.append_eq_nil_iff] at hlist
  exact hpath (String.toList_eq_nil_iff.mp hlist.1.1)

/-- What `uri_parse` makes of the parts. -/
theorem uriParse_some {parseUrl : (uri : String) → Option (HttpParserUrl uri)}
    {r : UriParseResult} (hparse : parseUrl uri = some result)
    (h : uriParse parseUrl uri = some r) :
    r.host = result.field .host ∧ r.query = queryOf result ∧
      ∃ defaultPort, protoDefaultPort r.proto = some defaultPort ∧
        r.port = if result.fieldSet .port then result.port.toNat
          else defaultPort := by
  unfold uriParse at h
  rw [hparse] at h
  simp only [] at h
  split at h
  · cases h
  · next defaultPort hport =>
      cases h
      exact ⟨rfl, rfl, defaultPort, hport, rfl⟩

theorem read_makeRequest
    {parseUrl : (uri : String) → Option (HttpParserUrl uri)}
    {r : UriParseResult} (hparse : parseUrl uri = some result)
    (hclean : Clean result) (h : uriParse parseUrl uri = some r) :
    HttpRequest.read (makeRequest r.toUriParseResult) =
      some (requestOf r) := by
  obtain ⟨hhost, hquery, -⟩ := uriParse_some hparse h
  rw [makeRequest_eq]
  refine HttpRequest.read_write (requestOf_wellFormed ?_ ?_ ?_)
  · rw [hquery]
    exact hclean.query
  · rw [hquery]
    exact queryOf_ne result
  · rw [hhost]
    exact hclean.plain (by simp) (.inl rfl)

/-- What a request asks for: the bytes `make_request` produces are one GET
request for the path and the query, with the fragment at its end, whose one
field is the host without the port. -/
theorem request_read {parseUrl : (uri : String) → Option (HttpParserUrl uri)}
    {r : UriParseResult} (hparse : parseUrl uri = some result)
    (hclean : Clean result) (h : uriParse parseUrl uri = some r) :
    HttpRequest.read (makeRequest r.toUriParseResult) =
      some
        { method := bytes "GET"
          target := bytes (resourceOf result ++ fragmentOf result)
          version := bytes "HTTP/1.1"
          fields := [(bytes "Host", bytes (result.field .host))] } := by
  obtain ⟨hhost, hquery, -⟩ := uriParse_some hparse h
  rw [read_makeRequest hparse hclean h, requestOf, hhost, hquery, queryOf_eq]

/-- Where the parts of `http://i.org:8080/#42` stand. -/
def elsewhere : HttpParserUrl "http://i.org:8080/#42" where
  fieldSet
    | .query | .userinfo => false
    | _ => true
  port := 8080
  off
    | .schema => 0
    | .host => 7
    | .port => 13
    | .path => 17
    | .fragment => 19
    | .query | .userinfo => 0
  len
    | .schema => 4
    | .host => 5
    | .port => 4
    | .path => 1
    | .fragment => 2
    | .query | .userinfo => 0
  within f := by cases f <;> decide
  nonempty f := by cases f <;> decide

theorem elsewhere_clean : Clean elsewhere := by
  have hall : ∀ f ∈ [UrlField.host, .path, .query, .fragment],
      f = .host ∨ elsewhere.fieldSet f = true →
      (elsewhere.field f).toList.all fun c => 32 < c.toNat ∧ c.toNat ≠ 127 := by
    decide
  intro f hf hset c hc
  simpa using List.all_eq_true.mp (hall f hf hset) c hc

theorem uriParse_elsewhere :
    uriParse (onlySplits elsewhere) "http://i.org:8080/#42" =
      some { proto := "http", host := "i.org", port := 8080
             query := "/#42" } := by
  unfold uriParse
  rw [onlySplits_self]
  decide

theorem request_read_elsewhere :
    HttpRequest.read (makeRequest
        { proto := "http", host := "i.org", port := 8080, query := "/#42" }) =
      some
        { method := bytes "GET", target := bytes "/#42"
          version := bytes "HTTP/1.1"
          fields := [(bytes "Host", bytes "i.org")] } := by
  have htarget : resourceOf elsewhere ++ fragmentOf elsewhere = "/#42" := by
    decide
  have hhost : elsewhere.field .host = "i.org" := by decide
  have hread := request_read (onlySplits_self elsewhere) elsewhere_clean
    uriParse_elsewhere
  rw [htarget, hhost] at hread
  exact hread

/-- The fragment is sent with the target, and the port is not sent with the
host. -/
theorem request_astray :
    (¬ ∀ (parseUrl : (uri : String) → Option (HttpParserUrl uri))
      (uri : String) (result : HttpParserUrl uri) (r : UriParseResult),
      parseUrl uri = some result → Clean result →
      uriParse parseUrl uri = some r →
      ∃ request, HttpRequest.read (makeRequest r.toUriParseResult) =
        some request ∧ request.target = bytes (resourceOf result)) ∧
    ¬ ∀ (parseUrl : (uri : String) → Option (HttpParserUrl uri))
      (uri : String) (result : HttpParserUrl uri) (r : UriParseResult),
      parseUrl uri = some result → Clean result →
      uriParse parseUrl uri = some r →
      ∃ request, HttpRequest.read (makeRequest r.toUriParseResult) =
        some request ∧ request.fields = [(bytes "Host", bytes (hostOf r))] := by
  have hread := read_makeRequest (onlySplits_self elsewhere) elsewhere_clean
    uriParse_elsewhere
  constructor
  · intro hall
    obtain ⟨request, heq, htarget⟩ := hall _ _ _ _ (onlySplits_self elsewhere)
      elsewhere_clean uriParse_elsewhere
    rw [hread] at heq
    cases heq
    revert htarget
    decide
  · intro hall
    obtain ⟨request, heq, hfields⟩ := hall _ _ _ _ (onlySplits_self elsewhere)
      elsewhere_clean uriParse_elsewhere
    rw [hread] at heq
    cases heq
    revert hfields
    decide

end EcwidDownloader.Http
