import EcwidDownloader.Proofs.ResponseFragments

/-!
# The headers of a response

What is put together of names and values are the headers of the response, the
last of them only when the headers are complete. The map keeps the first header
of a name, so it finds what is found in the headers as they came.

A redirect goes to what the map has under `Location`, in this spelling. The map
tells spellings apart and a response need not: one that has the header in another
spelling is refused, with the text that it is missing.
-/

namespace EcwidDownloader.Http

open Lib ResponseParser

/-- A response up to the end of its headers. A header has a name. -/
structure Response where
  code : Nat
  reason : Bytes
  headers : List (Bytes × Bytes)
  contentLength : Nat
  names : ∀ header ∈ headers, header.1 ≠ []

namespace Response

/-- A name in lower case. -/
def lower (name : String) : List Char := name.toList.map Char.toLower

/-- The texts of the headers, in the order they came in. -/
def fields (r : Response) : List (String × String) :=
  r.headers.map fun header => (text header.1, text header.2)

/-- The elements of a response up to the end of its headers. -/
def head (r : Response) : List HttpCallback :=
  .status r.code r.reason ::
    (r.headers.flatMap fun header =>
        [.headerField header.1, .headerValue header.2]) ++
      [.headersComplete r.contentLength]

/-- The value of the first header that is named `Location` in any case. -/
def location (r : Response) : Option String :=
  (r.fields.find? fun field => lower field.1 = lower "Location").map Prod.snd

end Response

/-! ## What the map holds -/

/-- The headers, emplaced one after the other. -/
def emplaceAll (fields : List (String × String)) : List (String × String) :=
  fields.foldl (fun headers field => emplace field.1 field.2 headers) []

theorem emplaceAll_snoc (fields : List (String × String))
    (field : String × String) :
    emplaceAll (fields ++ [field]) =
      emplace field.1 field.2 (emplaceAll fields) := by
  simp [emplaceAll]

theorem lookup_emplace (name value : String) (headers : List (String × String))
    (key : String) :
    (emplace name value headers).lookup key =
      (headers ++ [(name, value)]).lookup key := by
  unfold emplace
  split
  · next h =>
    rw [List.lookup_append]
    cases hkey : headers.lookup key with
    | some value' => rfl
    | none =>
        have hne : key ≠ name := by
          rintro rfl
          rw [hkey] at h
          cases h
        simp [List.lookup_cons, beq_false_of_ne hne]
  · rfl

theorem lookup_foldl_emplace (fields headers : List (String × String))
    (key : String) :
    (fields.foldl (fun headers field => emplace field.1 field.2 headers)
      headers).lookup key = (headers ++ fields).lookup key := by
  induction fields generalizing headers with
  | nil => rw [List.append_nil, List.foldl_nil]
  | cons field fields ih =>
      rw [List.foldl_cons, ih, List.lookup_append, lookup_emplace,
        ← List.lookup_append, List.append_assoc, List.singleton_append]

/-- The map finds what is found in the headers as they came. -/
theorem lookup_emplaceAll (fields : List (String × String)) (key : String) :
    (emplaceAll fields).lookup key = fields.lookup key :=
  lookup_foldl_emplace fields [] key

/-- The headers are there, the last of them still with what is put together. A
name is put together exactly while the parser is not before one. -/
structure Gathered (fields : List (String × String)) (p : ResponseParser) :
    Prop where
  headers : (flushLast p).headers = emplaceAll fields
  before : p.modeHeader = .field ↔ p.fieldHeader = ""

/-- One more header. -/
theorem Gathered.header {fields : List (String × String)} {p : ResponseParser}
    (h : Gathered fields p) {name : Bytes} (hname : name ≠ []) (value : Bytes) :
    Gathered (fields ++ [(text name, text value)])
      ((p.onHeaderField name).onHeaderValue value) := by
  have hne := text_ne_empty hname
  have hheaders := h.headers
  cases hmode : p.modeHeader with
  | field =>
      have hempty : p.fieldHeader = "" := h.before.mp hmode
      rw [flushLast, hempty] at hheaders
      have hq : (p.onHeaderField name).onHeaderValue value =
          { p with
            fieldHeader := text name
            valueHeader := text value
            modeHeader := .value } := by
        simp [onHeaderField, onHeaderValue, hmode, hempty]
      rw [hq]
      refine ⟨?_, by simp [hne]⟩
      simp only [flushLast, String.isEmpty_iff, if_neg hne, flush]
      rw [emplaceAll_snoc, ← hheaders]
      rfl
  | value =>
      have hnonempty : p.fieldHeader ≠ "" := fun hempty => by
        rw [h.before.mpr hempty] at hmode
        cases hmode
      simp only [flushLast, String.isEmpty_iff, if_neg hnonempty, flush]
        at hheaders
      have hq : (p.onHeaderField name).onHeaderValue value =
          { flush p with
            fieldHeader := text name
            valueHeader := text value
            modeHeader := .value } := by
        simp [onHeaderField, onHeaderValue, hmode]
      rw [hq]
      refine ⟨?_, by simp [hne]⟩
      simp only [flushLast, String.isEmpty_iff, if_neg hne, flush]
      rw [emplaceAll_snoc, ← hheaders]

theorem Aside.trans {p q r : ResponseParser} (hpq : Aside p q)
    (hqr : Aside q r) : Aside p r :=
  ⟨hqr.errno.trans hpq.errno, hqr.result.trans hpq.result,
    hqr.redirect.trans hpq.redirect, hqr.data.trans hpq.data,
    hqr.found.trans hpq.found⟩

/-- All headers of a response. -/
theorem Gathered.all : ∀ (headers : List (Bytes × Bytes))
    {fields : List (String × String)} {p : ResponseParser},
    (∀ header ∈ headers, header.1 ≠ []) → p.errno = .ok → Gathered fields p →
    ∃ q, p.callbacks (headers.flatMap fun header =>
        [.headerField header.1, .headerValue header.2]) = q ∧ Aside p q ∧
      Gathered (fields ++ headers.map fun header =>
        (text header.1, text header.2)) q
  | [], fields, p, _, _, h => by
      refine ⟨p, rfl, ⟨rfl, rfl, rfl, rfl, rfl⟩, ?_⟩
      simpa using h
  | (name, value) :: headers, fields, p, hnames, hok, h => by
      have hfield := aside_onHeaderField name p
      have hvalue := aside_onHeaderValue value (p.onHeaderField name)
      have haside := hfield.trans hvalue
      obtain ⟨q, hq, haside', h'⟩ := Gathered.all headers
        (fun header hmem => hnames header (List.mem_cons_of_mem _ hmem))
        (haside.errno.trans hok)
        (h.header (hnames (name, value) List.mem_cons_self) value)
      have hpair : p.callbacks [.headerField name, .headerValue value] =
          (p.onHeaderField name).onHeaderValue value := by
        rw [callbacks_cons _ _ hok]
        exact callbacks_cons _ _ (hfield.errno.trans hok)
      refine ⟨q, ?_, haside.trans haside', by simpa using h'⟩
      rw [← hq, List.flatMap_cons, callbacks_append, hpair]

/-! ## The end of the headers -/

/-- A status that does not end the parse. -/
theorem onStatus_goes {code : Nat} {data : Bytes}
    (h : code ∈ [200, 202, 203, 301, 302, 303]) :
    onStatus code data {} =
      { ({} : ResponseParser) with
        redirect := decide (code ∈ [301, 302, 303]) } := by
  simp only [List.mem_cons, List.not_mem_nil, or_false] at h
  rcases h with rfl | rfl | rfl | rfl | rfl | rfl <;> rfl

/-- At the end of its headers, the map of a response is made of them. -/
theorem Response.callbacks_head (r : Response)
    (hcode : r.code ∈ [200, 202, 203, 301, 302, 303]) :
    ∃ p, ({} : ResponseParser).callbacks r.head =
        onHeadersComplete r.contentLength p ∧
      (flushLast p).headers = emplaceAll r.fields ∧
      (flushLast p).redirect = decide (r.code ∈ [301, 302, 303]) ∧
      (flushLast p).errno = .ok := by
  obtain ⟨p, hp, haside, h⟩ := Gathered.all r.headers
    (p := { ({} : ResponseParser) with
      redirect := decide (r.code ∈ [301, 302, 303]) }) r.names rfl
    (show Gathered [] _ from ⟨rfl, by simp⟩)
  have hlast := haside.trans (aside_flushLast p)
  refine ⟨p, ?_, h.headers, hlast.redirect, hlast.errno⟩
  have hok : p.errno = .ok := haside.errno
  have hstatus : ({} : ResponseParser).callback (.status r.code r.reason) =
      { ({} : ResponseParser) with
        redirect := decide (r.code ∈ [301, 302, 303]) } := onStatus_goes hcode
  rw [Response.head, callbacks_append, callbacks_cons (.status _ _) _ rfl,
    hstatus, hp, callbacks_cons _ _ hok]
  rfl

/-! ## Cuts -/

section

variable {L : Type} [HttpParserLibrary L]

theorem callbacks_found : ∀ {cbs : List HttpCallback} {p : ResponseParser},
    (∀ contentLength, .headersComplete contentLength ∉ cbs) →
    (p.callbacks cbs).found = p.found
  | [], _, _ => rfl
  | cb :: cbs, p, h => by
      have hrest := fun contentLength hmem =>
        h contentLength (List.mem_cons_of_mem cb hmem)
      by_cases hok : p.errno = .ok
      · rw [callbacks_cons cb cbs hok, callbacks_found hrest]
        cases cb with
        | status code data =>
            simp only [callback, onStatus]
            split <;> rfl
        | headerField data => exact (aside_onHeaderField data p).found
        | headerValue data => exact (aside_onHeaderValue data p).found
        | headersComplete contentLength =>
            exact absurd List.mem_cons_self (h contentLength)
        | body | messageComplete => rfl
      · rw [callbacks_stopped hok]

theorem onHeadersComplete_found (contentLength : Nat) (p : ResponseParser) :
    (p.onHeadersComplete contentLength).found = some (flushLast p).headers := by
  unfold onHeadersComplete
  simp only []
  split
  · split <;> rfl
  · rfl

theorem verdict_found (elements : List HttpCallback) (failed : Bool) :
    (verdict elements failed).found =
      (({} : ResponseParser).callbacks elements).found := by
  unfold verdict
  simp only []
  split <;> rfl

/-- Fragmentation does not matter: any two ways of cutting a response end with
the same outcome, and the headers are found as they came in, the first of each
name. -/
theorem fragments_agree {response : Bytes} {ended failed : Bool}
    {elements : List HttpCallback} {calls₁ calls₂ : List Bytes}
    (h₁ : Cut L response ended elements failed calls₁)
    (h₂ : Cut L response ended elements failed calls₂) :
    outcome (LibraryParser.parse calls₁ : LibraryParser L).toResponseParser =
        outcome
          (LibraryParser.parse calls₂ : LibraryParser L).toResponseParser ∧
      ∀ (r : Response) (rest : List HttpCallback),
        elements = r.head ++ rest →
        r.code ∈ [200, 202, 203, 301, 302, 303] →
        (∀ contentLength, .headersComplete contentLength ∉ rest) →
        ∃ headers,
          (LibraryParser.parse calls₁ : LibraryParser L).found =
            some headers ∧
          ∀ name, headers.lookup name = r.fields.lookup name := by
  refine ⟨h₁.outcome_eq.trans h₂.outcome_eq.symm, ?_⟩
  rintro r rest rfl hcode hrest
  obtain ⟨p, hhead, hheaders, -⟩ := r.callbacks_head hcode
  refine ⟨emplaceAll r.fields, ?_, lookup_emplaceAll r.fields⟩
  have hfound := congrArg Outcome.found h₁.outcome_eq
  rw [verdict_found, callbacks_append, callbacks_found hrest, hhead,
    onHeadersComplete_found, hheaders] at hfound
  exact hfound

end

/-- The response that is cut in two. -/
def moved : Response where
  code := 302
  reason := ascii "Found"
  headers := [(ascii "Location", ascii "/b")]
  contentLength := UInt64.size - 1
  names := by decide

/-- An element in one piece. -/
theorem Pieces.whole (element : HttpCallback) : Pieces element [element] := by
  cases element with
  | status code data =>
      simpa using Pieces.status code (List.cons_ne_nil data [])
  | headerField data => simpa using Pieces.field (List.cons_ne_nil data [])
  | headerValue data => simpa using Pieces.value (List.cons_ne_nil data [])
  | headersComplete contentLength => exact .headersComplete contentLength
  | body data => simpa using Pieces.body (List.cons_ne_nil data [])
  | messageComplete => exact .messageComplete

theorem Delivery.whole (elements : List HttpCallback) :
    Delivery elements elements := by
  induction elements with
  | nil => exact .nil
  | cons element elements ih => exact .cons (Pieces.whole element) ih

theorem cut_whole : Cut Recorded whole.flatten false moved.head false whole where
  cut := ⟨whole, by decide, rfl, rfl⟩
  delivered :=
    ⟨moved.head, [], by decide, .whole _, by simp, fun _ => rfl⟩
  failed := by decide

theorem cut_inTwo : Cut Recorded whole.flatten false moved.head false inTwo where
  cut := ⟨inTwo, by decide, by decide, rfl⟩
  delivered := by
    refine ⟨[.status 302 (ascii "Fo"), .status 302 (ascii "und")] ++
      moved.head.tail, [], by decide, ?_, by simp, fun _ => rfl⟩
    have hstatus : Pieces (.status 302 (ascii "Found"))
        [.status 302 (ascii "Fo"), .status 302 (ascii "und")] :=
      Pieces.status 302 (List.cons_ne_nil (ascii "Fo") [ascii "und"])
    exact .cons hstatus (.whole _)
  failed := by decide

theorem fragments_agree_inTwo :
    (LibraryParser.parse inTwo : LibraryParser Recorded).result.state =
        (LibraryParser.parse whole : LibraryParser Recorded).result.state ∧
      ∃ headers,
        (LibraryParser.parse inTwo : LibraryParser Recorded).found =
          some headers ∧
        headers.lookup "Location" = some "/b" := by
  obtain ⟨hout, hheaders⟩ := fragments_agree cut_inTwo cut_whole
  obtain ⟨headers, hfound, hlookup⟩ := hheaders moved []
    (List.append_nil _).symm (by decide) (by simp)
  refine ⟨congrArg Outcome.state hout, headers, hfound, ?_⟩
  rw [hlookup]
  decide

/-! ## Redirects -/

section

variable {L : Type} [HttpParserLibrary L]

/-- At the end of its headers, a redirect stops. -/
theorem onHeadersComplete_redirect {p : ResponseParser} (contentLength : Nat)
    (h : (flushLast p).redirect = true) :
    (p.onHeadersComplete contentLength).errno ≠ .ok ∧
      (∀ uri, (flushLast p).headers.lookup "Location" = some uri →
        (p.onHeadersComplete contentLength).result.state = .redirect ∧
          (p.onHeadersComplete contentLength).result.redirectUri = uri) ∧
      ((flushLast p).headers.lookup "Location" = none →
        (p.onHeadersComplete contentLength).result.state = .error) := by
  cases hl : (flushLast p).headers.lookup "Location" with
  | some uri => simp [onHeadersComplete, h, hl, stop]
  | none => simp [onHeadersComplete, h, hl, stop]

/-- What comes after a result makes no difference. -/
theorem verdict_stopped {elements : List HttpCallback}
    (h : (({} : ResponseParser).callbacks elements).errno ≠ .ok)
    (rest : List HttpCallback) (failed : Bool) :
    verdict (elements ++ rest) failed =
      outcome (({} : ResponseParser).callbacks elements) := by
  simp only [verdict, callbacks_append, callbacks_stopped h]
  exact if_neg fun hand => h hand.2

/-- What a redirect comes to, by the header the map has. -/
theorem redirect_outcome {response : Bytes} {ended failed : Bool} {r : Response}
    {rest : List HttpCallback} {calls : List Bytes}
    (h : Cut L response ended (r.head ++ rest) failed calls)
    (hcode : r.code ∈ [301, 302, 303]) :
    (∀ uri, r.fields.lookup "Location" = some uri →
      (LibraryParser.parse calls : LibraryParser L).result.state = .redirect ∧
      (LibraryParser.parse calls : LibraryParser L).result.redirectUri = uri) ∧
    (r.fields.lookup "Location" = none →
      (LibraryParser.parse calls : LibraryParser L).result.state =
        .error) := by
  obtain ⟨p, hhead, hheaders, hredirect, -⟩ := r.callbacks_head
    (List.mem_append_right [200, 202, 203] hcode)
  obtain ⟨hstopped, hfound, hmissing⟩ := onHeadersComplete_redirect
    r.contentLength (hredirect.trans (decide_eq_true hcode))
  have hout := h.outcome_eq
  rw [← hhead] at hstopped hfound hmissing
  rw [verdict_stopped hstopped] at hout
  rw [hheaders, lookup_emplaceAll] at hfound hmissing
  have hstate := congrArg Outcome.state hout
  have huri := congrArg Outcome.redirectUri hout
  refine ⟨fun uri hl => ?_, fun hl => hstate.trans (hmissing hl)⟩
  exact ⟨hstate.trans (hfound uri hl).1, huri.trans (hfound uri hl).2⟩

/-- A redirect goes to the value of the first header that is named `Location` in
any case, and is refused exactly without one, if and only if this is what is
found under the one spelling. -/
theorem redirect_recognized_iff {response : Bytes} {ended failed : Bool}
    {r : Response} {rest : List HttpCallback} {calls : List Bytes}
    (h : Cut L response ended (r.head ++ rest) failed calls)
    (hcode : r.code ∈ [301, 302, 303]) :
    ((∀ uri, r.location = some uri →
      (LibraryParser.parse calls : LibraryParser L).result.state = .redirect ∧
      (LibraryParser.parse calls : LibraryParser L).result.redirectUri = uri) ∧
    ((LibraryParser.parse calls : LibraryParser L).result.state = .error ↔
      r.location = none)) ↔
    r.location = r.fields.lookup "Location" := by
  obtain ⟨hfound, hmissing⟩ := redirect_outcome h hcode
  constructor
  · rintro ⟨hgoes, hrefused⟩
    cases hl : r.fields.lookup "Location" with
    | none => exact hrefused.mp (hmissing hl)
    | some uri =>
        obtain ⟨hstate, huri⟩ := hfound uri hl
        cases hlocation : r.location with
        | none =>
            rw [hrefused.mpr hlocation] at hstate
            cases hstate
        | some uri' => rw [← huri, (hgoes uri' hlocation).2]
  · intro heq
    rw [heq]
    refine ⟨hfound, fun herror => ?_, hmissing⟩
    cases hl : r.fields.lookup "Location" with
    | none => rfl
    | some uri =>
        rw [(hfound uri hl).1] at herror
        cases herror

end

theorem redirect_recognized_inTwo :
    (LibraryParser.parse inTwo : LibraryParser Recorded).result.redirectUri =
      "/b" := by
  have h := cut_inTwo
  rw [← List.append_nil moved.head] at h
  have hgoes := ((redirect_recognized_iff h (by decide)).mpr (by decide)).1
  exact (hgoes "/b" (by decide)).2

/-- The header in lower case. -/
def movedLower : Response where
  code := 302
  reason := ascii "Found"
  headers := [(ascii "location", ascii "/b")]
  contentLength := UInt64.size - 1
  names := by decide

def wholeLower : List Bytes :=
  [ascii "HTTP/1.1 302 Found\r\nlocation: /b\r\n\r\n"]

/-- What a library makes of it. -/
structure RecordedLower where
  done : Bool

instance : HttpParserLibrary RecordedLower where
  parseUrl _ := none
  init := ⟨false⟩
  execute l data :=
    if l.done = false ∧ [data] = wholeLower then (⟨true⟩, movedLower.head, none)
    else (l, [], some "unknown")

/-- The header is there and the redirect is refused. -/
theorem redirect_unrecognized :
    Cut RecordedLower wholeLower.flatten false (movedLower.head ++ []) false
        wholeLower ∧
      movedLower.location = some "/b" ∧
      (LibraryParser.parse wholeLower : LibraryParser RecordedLower).result =
        { state := .error
          errStr := "Invalid redirect, missing Location header" } := by
  refine ⟨?_, by decide, by decide⟩
  refine ⟨⟨wholeLower, by decide, rfl, rfl⟩, ?_, by decide⟩
  exact ⟨movedLower.head, [], by decide, .whole _, by simp, fun _ => rfl⟩

end EcwidDownloader.Http
