import EcwidDownloader.Http.Uri

/-!
# A URI is read as it was written

A URL is written from its parts. Where `http_parser_parse_url` reports each part
at its place, cutting the text there gives the part back, whatever it contains,
and `uri_parse` puts together what it is expected to. Of the user and the
password only the user must not contain a colon.
-/

namespace EcwidDownloader.Http

structure Userinfo where
  user : String
  password : Option String := none
  plain : ':' ∉ user.toList

def Userinfo.text (i : Userinfo) : String :=
  i.user ++ i.password.elim "" (":" ++ ·)

/-- The parts of an absolute URL. -/
structure Url where
  scheme : String
  userinfo : Option Userinfo := none
  host : String
  port : Option UInt16 := none
  path : Option String := none
  query : Option String := none
  fragment : Option String := none
  scheme_ne : scheme ≠ ""
  host_ne : host ≠ ""
  path_ne : path ≠ some ""
  query_ne : query ≠ some ""
  fragment_ne : fragment ≠ some ""

namespace Url

/-- The text of a part. -/
def text (u : Url) : UrlField → Option String
  | .schema => some u.scheme
  | .userinfo => u.userinfo.map Userinfo.text
  | .host => some u.host
  | .port => u.port.map fun port => toString port.toNat
  | .path => u.path
  | .query => u.query
  | .fragment => u.fragment

/-- A part with what sets it off from the others, or nothing. -/
def part (u : Url) (f : UrlField) (before after : String) : String :=
  (u.text f).elim "" fun t => before ++ t ++ after

/-- The URL up to a part. -/
def front (u : Url) : UrlField → String
  | .schema => ""
  | .userinfo => u.scheme ++ "://"
  | .host => u.scheme ++ "://" ++ u.part .userinfo "" "@"
  | .port => u.scheme ++ "://" ++ u.part .userinfo "" "@" ++ u.host ++ ":"
  | .path => u.scheme ++ "://" ++ u.part .userinfo "" "@" ++ u.host ++
      u.part .port ":" ""
  | .query => u.scheme ++ "://" ++ u.part .userinfo "" "@" ++ u.host ++
      u.part .port ":" "" ++ u.part .path "" "" ++ "?"
  | .fragment => u.scheme ++ "://" ++ u.part .userinfo "" "@" ++ u.host ++
      u.part .port ":" "" ++ u.part .path "" "" ++ u.part .query "?" "" ++ "#"

/-- The URL after a part. -/
def back (u : Url) : UrlField → String
  | .schema => "://" ++ u.part .userinfo "" "@" ++ u.host ++
      u.part .port ":" "" ++ u.part .path "" "" ++ u.part .query "?" "" ++
      u.part .fragment "#" ""
  | .userinfo => "@" ++ u.host ++ u.part .port ":" "" ++ u.part .path "" "" ++
      u.part .query "?" "" ++ u.part .fragment "#" ""
  | .host => u.part .port ":" "" ++ u.part .path "" "" ++
      u.part .query "?" "" ++ u.part .fragment "#" ""
  | .port => u.part .path "" "" ++ u.part .query "?" "" ++
      u.part .fragment "#" ""
  | .path => u.part .query "?" "" ++ u.part .fragment "#" ""
  | .query => u.part .fragment "#" ""
  | .fragment => ""

def render (u : Url) : String :=
  u.scheme ++ "://" ++ u.part .userinfo "" "@" ++ u.host ++
    u.part .port ":" "" ++ u.part .path "" "" ++ u.part .query "?" "" ++
    u.part .fragment "#" ""

/-- What `uri_parse` is to make of a URL with a known scheme. -/
def parsed (u : Url) : UriParseResult where
  proto := u.scheme
  host := u.host
  port := (u.port.map UInt16.toNat).getD (if u.scheme = "http" then 80 else 443)
  query := u.path.getD "/" ++ u.query.elim "" ("?" ++ ·) ++
    u.fragment.elim "" ("#" ++ ·)
  username := u.userinfo.elim "" Userinfo.user
  password := (u.userinfo.bind Userinfo.password).getD ""

theorem part_eq {u : Url} {f : UrlField} {t : String} (h : u.text f = some t)
    (before after : String) : u.part f before after = before ++ t ++ after := by
  simp [part, h]

/-- The text of a part stands between what comes before and after it. -/
theorem render_split {u : Url} {f : UrlField} {t : String}
    (h : u.text f = some t) : u.render = u.front f ++ t ++ u.back f := by
  have hpart := part_eq h
  cases f with
  | schema =>
      obtain rfl : u.scheme = t := Option.some.inj h
      simp only [render, front, back, String.append_assoc, String.empty_append]
  | host =>
      obtain rfl : u.host = t := Option.some.inj h
      simp only [render, front, back, String.append_assoc]
  | userinfo | port | path | query | fragment =>
      simp only [render, front, back, hpart, String.append_assoc,
        String.empty_append, String.append_empty]

end Url

theorem substr_middle (front t back : String) :
    substr (front ++ t ++ back) front.length t.length = t := by
  have hdrop : ((front ++ t ++ back).toList.drop front.length).take t.length =
      t.toList := by
    simp [String.toList_append, ← String.length_toList]
  rw [substr, hdrop, String.ofList_toList]

/-- The splitter has done with a URL what it is documented to do: every part that
is there and not empty is marked, with the place and the length of its text, and
the port has its value. -/
structure Reported (u : Url) (result : HttpParserUrl u.render) : Prop where
  marked : ∀ f, result.fieldSet f = true ↔ ∃ t, u.text f = some t ∧ t ≠ ""
  placed : ∀ f t, u.text f = some t → t ≠ "" →
    result.off f = (u.front f).length ∧ result.len f = t.length
  port : ∀ port, u.port = some port → result.port = port

namespace Reported

variable {u : Url} {result : HttpParserUrl u.render}

theorem field (h : Reported u result) {f : UrlField} {t : String}
    (ht : u.text f = some t) (hne : t ≠ "") : result.field f = t := by
  obtain ⟨hoff, hlen⟩ := h.placed f t ht hne
  rw [HttpParserUrl.field, hoff, hlen, Url.render_split ht, substr_middle]

theorem unmarked (h : Reported u result) {f : UrlField}
    (ht : u.text f = none) : result.fieldSet f = false := by
  rw [← Bool.not_eq_true, h.marked, ht]
  simp

theorem of_marked (h : Reported u result) {f : UrlField} {t : String}
    (ht : u.text f = some t) (hne : t ≠ "") : result.fieldSet f = true :=
  (h.marked f).mpr ⟨t, ht, hne⟩

/-- A part that is not empty, cut out when it is marked. -/
theorem field_optional (h : Reported u result) {f : UrlField}
    {t : Option String} (ht : u.text f = t) (hne : t ≠ some "")
    (g : String → String) (other : String) :
    (if result.fieldSet f then g (result.field f) else other) =
      t.elim other g := by
  cases t with
  | none => simp [h.unmarked ht]
  | some t =>
      have ht' : t ≠ "" := fun heq => hne (by rw [heq])
      simp [h.of_marked ht ht', h.field ht ht']

theorem query (h : Reported u result) : queryOf result = u.parsed.query := by
  have hpath := h.field_optional (f := .path) (t := u.path) rfl u.path_ne id "/"
  have hquery := h.field_optional (f := .query) (t := u.query) rfl
    u.query_ne ("?" ++ ·) ""
  have hfragment := h.field_optional (f := .fragment) (t := u.fragment) rfl
    u.fragment_ne ("#" ++ ·) ""
  simp only [id] at hpath
  rw [queryOf, hpath, hquery, hfragment]
  cases hp : u.path <;> simp [Url.parsed, hp]

theorem port_getD (h : Reported u result) (other : Nat) :
    (if result.fieldSet .port then result.port.toNat else other) =
      (u.port.map UInt16.toNat).getD other := by
  cases hp : u.port with
  | none => simp [h.unmarked (f := .port) (by simp [Url.text, hp])]
  | some port =>
      have hne : toString port.toNat ≠ "" := Nat.repr_ne_empty
      have hmarked := h.of_marked (f := .port) (by simp [Url.text, hp]) hne
      simp [hmarked, h.port port hp]

end Reported

/-- The first colon is the one in front of the password. -/
theorem cutUserinfo_text (i : Userinfo) :
    cutUserinfo i.text = (i.user, i.password.getD "") := by
  have hplain : ∀ c ∈ i.user.toList, (c != ':') = true := by
    intro c hc
    have hne : c ≠ ':' := fun heq => i.plain (heq ▸ hc)
    simpa using hne
  unfold cutUserinfo Userinfo.text
  cases hp : i.password with
  | none =>
      have htake : (i.user.toList ++ []).takeWhile (· != ':') = _ :=
        List.takeWhile_append_of_pos hplain
      have hdrop : (i.user.toList ++ []).dropWhile (· != ':') = _ :=
        List.dropWhile_append_of_pos hplain
      simp only [List.append_nil, List.takeWhile_nil, List.dropWhile_nil]
        at htake hdrop
      simp [htake, hdrop]
  | some password =>
      have htake : (i.user.toList ++ ':' :: password.toList).takeWhile
          (· != ':') = i.user.toList ++
            (':' :: password.toList).takeWhile (· != ':') :=
        List.takeWhile_append_of_pos hplain
      have hdrop : (i.user.toList ++ ':' :: password.toList).dropWhile
          (· != ':') = (':' :: password.toList).dropWhile (· != ':') :=
        List.dropWhile_append_of_pos hplain
      simp [String.toList_append, htake, hdrop]

namespace Reported

variable {u : Url} {result : HttpParserUrl u.render}

theorem user (h : Reported u result) :
    (if result.fieldSet .userinfo then cutUserinfo (result.field .userinfo)
      else ("", "")) = (u.parsed.username, u.parsed.password) := by
  cases hi : u.userinfo with
  | none =>
      have hset := h.unmarked (f := .userinfo) (by simp [Url.text, hi])
      simp [hset, Url.parsed, hi]
  | some i =>
      have htext : u.text .userinfo = some i.text := by simp [Url.text, hi]
      have hparsed : (u.parsed.username, u.parsed.password) =
          cutUserinfo i.text := by
        rw [cutUserinfo_text]
        simp [Url.parsed, hi]
      rw [hparsed]
      by_cases hne : i.text = ""
      · have hset : result.fieldSet .userinfo = false := by
          rw [← Bool.not_eq_true, h.marked, htext]
          simp [hne]
        simp [hset, hne, cutUserinfo]
      · simp [h.of_marked htext hne, h.field htext hne]

end Reported

theorem protoDefaultPort_eq (proto : String) :
    protoDefaultPort proto =
      if proto = "http" then some 80
      else if proto = "https" then some 443 else none := by
  have hbeq (s : String) (h : proto ≠ s) : (proto == s) = false := by
    simpa using h
  unfold protoDefaultPort
  by_cases h : proto = "http"
  · simp [h]
  · by_cases hs : proto = "https"
    · subst hs
      rfl
    · simp [List.lookup_cons, hbeq, h, hs]

/-- The URI round trip: what was written is read back, and the result is null for
an unknown scheme and only for it. -/
theorem uri_round_trip
    {parseUrl : (uri : String) → Option (HttpParserUrl uri)} (u : Url)
    {result : HttpParserUrl u.render} (hparse : parseUrl u.render = some result)
    (h : Reported u result) :
    (uriParse parseUrl u.render = none ↔
      u.scheme ≠ "http" ∧ u.scheme ≠ "https") ∧
    (u.scheme = "http" ∨ u.scheme = "https" →
      uriParse parseUrl u.render = some u.parsed) := by
  have hproto := h.field (f := .schema) rfl u.scheme_ne
  have hhost := h.field (f := .host) rfl u.host_ne
  have heq : uriParse parseUrl u.render =
      (protoDefaultPort u.scheme).map fun port =>
        { u.parsed with port := (u.port.map UInt16.toNat).getD port } := by
    unfold uriParse
    rw [hparse]
    simp only [hproto, hhost, h.query, h.port_getD, h.user]
    cases protoDefaultPort u.scheme <;> rfl
  rw [heq, protoDefaultPort_eq]
  by_cases hs : u.scheme = "http"
  · simp [hs, Url.parsed]
  · by_cases hss : u.scheme = "https" <;> simp [hs, hss, Url.parsed]

/-- A splitter that knows a single URL. -/
def onlySplits {text : String} (result : HttpParserUrl text) (uri : String) :
    Option (HttpParserUrl uri) :=
  if h : uri = text then some (h ▸ result) else none

theorem onlySplits_self {text : String} (result : HttpParserUrl text) :
    onlySplits result text = some result := by
  simp [onlySplits]

/-- No path before the query, and a password with a colon in it. -/
def withoutPath : Url where
  scheme := "https"
  userinfo := some { user := "user", password := some "a:b", plain := by decide }
  host := "i.org"
  port := some 8080
  query := some "id"
  fragment := some "42"
  scheme_ne := by decide
  host_ne := by decide
  path_ne := by decide
  query_ne := by decide
  fragment_ne := by decide

/-- The report on it: where each part stands in
`https://user:a:b@i.org:8080?id#42`. -/
def withoutPathReport : HttpParserUrl withoutPath.render where
  fieldSet f := f != .path
  port := 8080
  off
    | .schema => 0
    | .userinfo => 8
    | .host => 17
    | .port => 23
    | .path => 0
    | .query => 28
    | .fragment => 31
  len
    | .schema => 5
    | .userinfo => 8
    | .host => 5
    | .port => 4
    | .path => 0
    | .query => 2
    | .fragment => 2
  within f := by cases f <;> decide
  nonempty f := by cases f <;> decide

theorem uri_round_trip_withoutPath :
    uriParse (onlySplits withoutPathReport) withoutPath.render =
      some
        { proto := "https", host := "i.org", port := 8080, query := "/?id#42"
          username := "user", password := "a:b" } := by
  have h : Reported withoutPath withoutPathReport := by
    refine ⟨fun f => ?_, fun f t ht _ => ?_, fun port hp => ?_⟩
    · cases f <;> simp [withoutPathReport, withoutPath, Url.text,
        Userinfo.text]
    · cases f <;> simp [Url.text, withoutPath] at ht <;> subst ht <;> decide
    · simpa [withoutPath, withoutPathReport] using hp
  rw [(uri_round_trip withoutPath (onlySplits_self withoutPathReport) h).2
    (.inr rfl)]
  decide

end EcwidDownloader.Http
